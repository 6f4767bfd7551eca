import Palimesh.Bft.Certificates
import Palimesh.Bft.Sequential

namespace Palimesh.Bft

def Setting.hearing (S : Setting) (heard : BftMessage → Prop) : Setting := { S with heard := heard }

variable {S : Setting} {heard : BftMessage → Prop} {c : Coordinator} {p : Process}

theorem Setting.Backs.hearing (more : ∀ m, S.heard m → heard m) {height : Int} {hash : Hex} {id : String}
    {root : Option Hex} (backs : S.Backs height hash id root) : (S.hearing heard).Backs height hash id root := by
  obtain ⟨m, delivered, rest⟩ := backs
  exact ⟨m, more m delivered, rest⟩

theorem RoundConfigOk.hearing {config : BftRoundConfig} (ok : RoundConfigOk S config) :
    RoundConfigOk (S.hearing heard) config := { ok with }

section

variable (more : ∀ m, S.heard m → heard m)
include more

theorem RoundOk.hearing {r : BftRound} (ok : RoundOk S r) : RoundOk (S.hearing heard) r := { ok with
  config := ok.config.hearing
  commits := by
    intro id v present
    obtain ⟨b, proposed, hash, member, source⟩ := ok.commits id v present
    exact ⟨b, proposed, hash, member, source.imp_right (.hearing more)⟩ }

theorem VoteInv.hearing (inv : VoteInv S c) : VoteInv (S.hearing heard) c := { inv with
  pending := fun m member => more m (inv.pending m member)
  round := fun id r current => (inv.round id r current).hearing more }

theorem FrameOk.hearing {frame : Frame} (ok : FrameOk S frame) : FrameOk (S.hearing heard) frame := by
  cases frame with
  | startRoundRoot block config => exact RoundConfigOk.hearing ok
  | startRoundLoop thisRound queue => exact fun m member => more m (ok m member)
  | replayFloor lastFinalized => exact ok
  | replay queue => exact ok
  | _ => trivial

theorem ProcessOk.hearing (ok : ProcessOk S p) : ProcessOk (S.hearing heard) p :=
  ⟨ok.votes.hearing more, fun stack member frame inside => (ok.frames stack member frame inside).hearing more⟩

end

theorem TopOk.hearing {frame : Frame} (ok : TopOk S c frame) : TopOk (S.hearing heard) c frame := by
  cases frame with
  | startRoundFloor block lastFinalized => exact ok
  | startRoundRoot block config => exact ⟨ok.above, ok.free⟩
  | replay queue => exact ok
  | _ => trivial

theorem OneCall.hearing (one : OneCall S p) : OneCall (S.hearing heard) p := by
  refine ⟨one.single, ?_⟩
  intro stack member
  have ok := one.stack stack member
  cases stack with
  | nil => trivial
  | cons top outer => exact ⟨ok.1.hearing, ok.2⟩

theorem CertInv.hearing (more : ∀ m, S.heard m → heard m) (cert : CertInv S c) : CertInv (S.hearing heard) c := by
  refine ⟨?_, cert.announced⟩
  intro b root decided
  obtain ⟨rooted, validators, ids, good, nodup, members, quorum, sources⟩ := cert.certified b root decided
  refine ⟨rooted, validators, ids, good, nodup, members, quorum, ?_⟩
  intro id member
  rcases sources id member with mine | ⟨voteRoot, backs, roots⟩
  · exact .inl mine
  · exact .inr ⟨voteRoot, backs.hearing more, roots⟩

end Palimesh.Bft
