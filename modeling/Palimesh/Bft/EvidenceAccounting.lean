import Palimesh.Bft.Equivocation

namespace Palimesh.Bft

open Collections List InsertionMap EquivocationDetector

namespace EquivocationDetector

variable {d : EquivocationDetector} {id v : String} {ev : EquivocationEvidence} (evidence : List EquivocationEvidence)

def listed (v : String) : Nat :=
  evidence.countP fun e => e.validatorId = v

structure Accounted (d : EquivocationDetector) : Prop where
  counted : ∀ v, d.count v = listed d.evidence v
  total : d.evidence.length ≤ d.maxEvidence
  each : ∀ v, listed d.evidence v ≤ d.maxEvidencePerValidator

def limits (d : EquivocationDetector) : Nat × Nat := (d.maxEvidence, d.maxEvidencePerValidator)

theorem listed_cons (ev : EquivocationEvidence) (v : String) :
    listed (ev :: evidence) v = listed evidence v + if v = ev.validatorId then 1 else 0 := by
  unfold listed
  by_cases same : ev.validatorId = v
  · simp [same]
  · simp [same, Ne.symm same]

theorem listed_append (ev : EquivocationEvidence) (v : String) :
    listed (evidence ++ [ev]) v = listed evidence v + if v = ev.validatorId then 1 else 0 := by
  rw [listed, countP_append, Nat.add_comm, ← countP_append]
  exact listed_cons evidence ev v

theorem listed_eraseP {evidence : List EquivocationEvidence} (present : 0 < listed evidence id) (v : String) :
    listed (evidence.eraseP fun e => e.validatorId = id) v + (if v = id then 1 else 0) = listed evidence v := by
  obtain ⟨entry, member, own⟩ := List.countP_pos_iff.mp present
  obtain ⟨found, before, after, _, foundOwn, split, erased⟩ := exists_of_eraseP
    (p := fun e : EquivocationEvidence => decide (e.validatorId = id)) member own
  have owner : found.validatorId = id := by simpa using foundOwn
  unfold listed
  rw [erased, split, countP_append, countP_append, countP_cons, owner]
  by_cases same : v = id
  · simp [same, Nat.add_assoc]
  · simp [same, Ne.symm same]

theorem length_eraseP {evidence : List EquivocationEvidence} (present : 0 < listed evidence id) :
    (evidence.eraseP fun e => e.validatorId = id).length + 1 = evidence.length := by
  obtain ⟨entry, member, own⟩ := List.countP_pos_iff.mp present
  have shorter := length_eraseP_of_mem
    (p := fun e : EquivocationEvidence => decide (e.validatorId = id)) member own
  have nonempty := length_pos_of_mem member
  omega

theorem listed_pos_any (present : 0 < listed d.evidence id) : (d.evidence.any fun e => e.validatorId = id) = true := by
  obtain ⟨entry, member, own⟩ := List.countP_pos_iff.mp present
  exact List.any_eq_true.mpr ⟨entry, member, own⟩

theorem count_set (counts : InsertionMap String Int) (value : Int) :
    ((counts.set id value).get? v).getD 0 = if v = id then value else (counts.get? v).getD 0 := by
  rw [get?_set]
  split <;> rfl

theorem Accounted.push (others : ∀ v, v ≠ ev.validatorId → d.count v = listed d.evidence v)
    (own : min (d.maxEvidencePerValidator : Int) (d.count ev.validatorId + 1) = listed d.evidence ev.validatorId + 1)
    (total : d.evidence.length < d.maxEvidence) (each : ∀ v, listed d.evidence v ≤ d.maxEvidencePerValidator)
    (room : listed d.evidence ev.validatorId < d.maxEvidencePerValidator) : (d.pushEvidence ev).Accounted where
  counted := by
    -- The entry goes last. Its counter is right if it was, up to the cap, before.
    intro v
    change ((d.evidenceCountByValidator.set ev.validatorId _).get? v).getD 0 = listed (d.evidence ++ [ev]) v
    rw [count_set, listed_append, own]
    by_cases same : v = ev.validatorId
    · simp [same]
    · have kept := others v same
      simpa [same, count] using kept
  total := by
    change (d.evidence ++ [ev]).length ≤ d.maxEvidence
    rw [length_append, length_singleton]
    omega
  each := by
    intro v
    change listed (d.evidence ++ [ev]) v ≤ d.maxEvidencePerValidator
    rw [listed_append]
    by_cases same : v = ev.validatorId
    · rw [if_pos same, same]
      omega
    · rw [if_neg same]
      exact each v

theorem foldl_heavier (count : String → Int) (entries : List (String × Int)) (start : String × Int)
    (right : count start.1 = start.2) (entriesRight : ∀ entry ∈ entries, count entry.1 = entry.2) :
    let last := entries.foldl (fun best entry => if entry.2 > best.2 then entry else best) start
    count last.1 = last.2 ∧ start.2 ≤ last.2 ∧ ∀ entry ∈ entries, entry.2 ≤ last.2 := by
  induction entries generalizing start with
  | nil => exact ⟨right, le_refl _, fun _ => nofun⟩
  | cons entry entries ih =>
    have laterRight := fun other member => entriesRight other (mem_cons_of_mem _ member)
    have entryRight := entriesRight entry mem_cons_self
    rw [foldl_cons]
    by_cases larger : entry.2 > start.2
    · rw [if_pos larger]
      obtain ⟨same, above, all⟩ := ih entry entryRight laterRight
      exact ⟨same, by omega, forall_mem_cons.mpr ⟨above, all⟩⟩
    · rw [if_neg larger]
      obtain ⟨same, above, all⟩ := ih start right laterRight
      exact ⟨same, above, forall_mem_cons.mpr ⟨by omega, all⟩⟩

theorem count_le_heaviest (d : EquivocationDetector) (id : String) (positive : 0 < d.count v) :
    d.count v ≤ d.count (d.heaviest id) := by
  have entriesRight (entry : String × Int) (member : entry ∈ d.evidenceCountByValidator.entries) :
      d.count entry.1 = entry.2 := by
    rw [count, get?_eq_of_mem member]
    rfl
  obtain ⟨same, _, all⟩ := foldl_heavier d.count d.evidenceCountByValidator.entries (id, d.count id) rfl entriesRight
  unfold heaviest
  rw [same]
  cases found : d.evidenceCountByValidator.get? v with
  | some value =>
    rw [count, found]
    exact all (v, value) ((mem_entries _ _ _).mpr found)
  | none =>
    rw [count, found] at positive
    cases positive

theorem get?_getD_one (positive : 0 < d.count id) : (d.evidenceCountByValidator.get? id).getD 1 = d.count id := by
  unfold count at positive ⊢
  cases found : d.evidenceCountByValidator.get? id with
  | some value => rfl
  | none =>
    rw [found] at positive
    cases positive

theorem limits_evictHeaviest (d : EquivocationDetector) (id : String) : (d.evictHeaviest id).limits = d.limits := by
  unfold EquivocationDetector.evictHeaviest
  dsimp only
  split
  · split
    · rfl
    · rfl
  · rfl

theorem count_uncount {counts : InsertionMap String Int} (positive : 1 ≤ (counts.get? ev.validatorId).getD 0)
    (v : String) : ((uncount counts ev).get? v).getD 0 =
      (counts.get? v).getD 0 - if v = ev.validatorId then 1 else 0 := by
  cases found : counts.get? ev.validatorId with
  | none =>
    rw [found] at positive
    cases positive
  | some cnt =>
    rw [found, Option.getD_some] at positive
    unfold uncount
    rw [found]
    dsimp only [Option.getD_some]
    split
    · rw [get?_delete]
      split
      · rename_i same
        rw [same, found]
        change (0 : Int) = cnt - 1
        omega
      · rw [Int.sub_zero]
    · rw [get?_set]
      split
      · rename_i same
        rw [same, found]
        rfl
      · rw [Int.sub_zero]

theorem foldl_uncount (removed : List EquivocationEvidence) (counts : InsertionMap String Int)
    (covered : ∀ v, (listed removed v : Int) ≤ (counts.get? v).getD 0) (v : String) :
    ((removed.foldl uncount counts).get? v).getD 0 = (counts.get? v).getD 0 - listed removed v := by
  induction removed generalizing counts with
  | nil => simp [listed]
  | cons entry removed ih =>
    have own := covered entry.validatorId
    rw [listed_cons, if_pos rfl] at own
    have forgotten := fun v => count_uncount (by omega : 1 ≤ (counts.get? entry.validatorId).getD 0) v
    rw [foldl_cons, ih (uncount counts entry), forgotten, listed_cons]
    · split <;> omega
    · intro v
      have before := covered v
      rw [forgotten]
      rw [listed_cons] at before
      split
      · rw [if_pos ‹_›] at before
        omega
      · omega

variable (accounted : d.Accounted)
include accounted

theorem Accounted.evictHeaviest (enough : 1 ≤ d.maxEvidence) (id : String) :
    (d.evictHeaviest id).Accounted ∧ (d.evictHeaviest id).evidence.length < d.maxEvidence ∧
      ∀ v, listed (d.evictHeaviest id).evidence v ≤ listed d.evidence v := by
  unfold EquivocationDetector.evictHeaviest
  by_cases full : d.evidence.length ≥ d.maxEvidence
  · obtain ⟨entry, member⟩ := exists_mem_of_length_pos (by omega : 0 < d.evidence.length)
    have here : 0 < listed d.evidence entry.validatorId := List.countP_pos_iff.mpr ⟨entry, member, by simp⟩
    have counted := accounted.counted entry.validatorId
    have heaviest := count_le_heaviest d id (v := entry.validatorId) (by omega)
    have victimCounted := accounted.counted (d.heaviest id)
    have victim : 0 < listed d.evidence (d.heaviest id) := by omega
    have fewer (v : String) := listed_eraseP victim v
    have shorter := length_eraseP victim
    rw [if_pos full]
    rw [if_pos (listed_pos_any victim)]
    refine ⟨⟨?_, ?_, ?_⟩, ?_, ?_⟩
    · intro v
      have left := fewer v
      change ((d.evidenceCountByValidator.set _ _).get? v).getD 0 = _
      rw [count_set]
      by_cases same : v = d.heaviest id
      · subst same
        rw [if_pos rfl] at left ⊢
        rw [get?_getD_one (by omega), victimCounted]
        change (listed d.evidence (d.heaviest id) : Int) - 1 = listed (d.evidence.eraseP _) (d.heaviest id)
        omega
      · rw [if_neg same] at left ⊢
        have kept := accounted.counted v
        rw [← left] at kept
        exact kept
    · have total := accounted.total
      change (d.evidence.eraseP _).length ≤ d.maxEvidence
      omega
    · intro v
      have left := fewer v
      have each := accounted.each v
      change listed (d.evidence.eraseP _) v ≤ d.maxEvidencePerValidator
      omega
    · have total := accounted.total
      change (d.evidence.eraseP _).length < d.maxEvidence
      omega
    · intro v
      have left := fewer v
      change listed (d.evidence.eraseP _) v ≤ listed d.evidence v
      omega
  · rw [if_neg full]
    exact ⟨accounted, by omega, fun v => le_refl _⟩

theorem Accounted.dropOwnOldest_eq (enough : 1 ≤ d.maxEvidencePerValidator) (id : String) :
    d.evictOwnOldest id = d.dropOwnOldest id := by
  unfold evictOwnOldest dropOwnOldest
  split
  · have counted := accounted.counted id
    rw [if_pos (listed_pos_any (by omega))]
  · rfl

theorem Accounted.add (enough : 1 ≤ d.maxEvidence) (enoughEach : 1 ≤ d.maxEvidencePerValidator)
    (ev : EquivocationEvidence) :
    (((d.dropOwnOldest ev.validatorId).evictHeaviest ev.validatorId).pushEvidence ev).Accounted ∧
      ((d.dropOwnOldest ev.validatorId).evictHeaviest ev.validatorId).limits = d.limits ∧
      ∀ entry ∈ some ev, entry ∈ ((d.dropOwnOldest ev.validatorId).evictHeaviest ev.validatorId).evidence ++ [ev] := by
  refine ⟨?_, (limits_evictHeaviest _ _).trans (by unfold dropOwnOldest; split <;> rfl), by simp⟩
  have counted := accounted.counted ev.validatorId
  have each := accounted.each ev.validatorId
  unfold dropOwnOldest
  by_cases full : d.count ev.validatorId ≥ d.maxEvidencePerValidator
  · -- The counter is not touched, and the list is then short enough for the other cap.
    have own : 0 < listed d.evidence ev.validatorId := by omega
    have fewer (v : String) := listed_eraseP own v
    have shorter := length_eraseP own
    have total := accounted.total
    rw [if_pos full]
    have roomy : ¬ (d.evidence.eraseP fun e => e.validatorId = ev.validatorId).length ≥ d.maxEvidence := by omega
    unfold EquivocationDetector.evictHeaviest
    rw [if_neg roomy]
    have ownLeft := fewer ev.validatorId
    rw [if_pos rfl] at ownLeft
    apply Accounted.push
    · intro v other
      have left := fewer v
      rw [if_neg other] at left
      have kept := accounted.counted v
      rw [← left] at kept
      exact kept
    · change min (d.maxEvidencePerValidator : Int) (d.count ev.validatorId + 1) =
        listed (d.evidence.eraseP _) ev.validatorId + 1
      omega
    · change (d.evidence.eraseP _).length < d.maxEvidence
      omega
    · intro v
      have left := fewer v
      have bound := accounted.each v
      change listed (d.evidence.eraseP _) v ≤ d.maxEvidencePerValidator
      omega
    · change listed (d.evidence.eraseP _) ev.validatorId < d.maxEvidencePerValidator
      omega
  · rw [if_neg full]
    obtain ⟨evicted, shorter, fewer⟩ := accounted.evictHeaviest enough ev.validatorId
    obtain ⟨sameTotal, sameEach⟩ := Prod.mk.inj (limits_evictHeaviest d ev.validatorId)
    have evictedCounted := evicted.counted ev.validatorId
    have own := fewer ev.validatorId
    apply Accounted.push (fun v _ => evicted.counted v) _ _ evicted.each _
    · omega
    · rw [sameTotal]
      exact shorter
    · omega

theorem Accounted.clearEvidenceBefore (height : Int) : (d.clearEvidenceBefore height).Accounted := by
  have parts (v : String) : listed d.evidence v =
      listed (d.evidence.filter fun ev => ev.height ≥ height) v +
        listed (d.evidence.filter fun ev => ev.height < height) v := by
    have rest : (d.evidence.filter fun ev => !decide (ev.height ≥ height)) = d.evidence.filter fun ev => ev.height < height := by
      apply filter_congr
      intro ev _
      by_cases kept : ev.height ≥ height
      · simp [kept, not_lt.mpr kept]
      · simp [kept, not_le.mp kept]
    rw [← rest]
    exact countP_eq_countP_filter_add d.evidence _ _
  refine ⟨?_, ?_, ?_⟩
  · intro v
    have counted := accounted.counted v
    have both := parts v
    have forgotten := foldl_uncount (d.evidence.filter fun ev => ev.height < height) d.evidenceCountByValidator (by
      intro v
      have counted : (d.evidenceCountByValidator.get? v).getD 0 = (listed d.evidence v : Int) := accounted.counted v
      have both := parts v
      omega) v
    change ((List.foldl uncount d.evidenceCountByValidator _).get? v).getD 0 = _
    rw [forgotten]
    change d.count v - _ = (listed (d.evidence.filter fun ev => ev.height ≥ height) v : Int)
    omega
  · exact (length_filter_le _ _).trans accounted.total
  · intro v
    have both := parts v
    have each := accounted.each v
    change listed (d.evidence.filter fun ev => ev.height ≥ height) v ≤ d.maxEvidencePerValidator
    omega

theorem Accounted.pruneByMaxHeight (keep : Int) :
    (d.pruneByMaxHeight keep).2.Accounted ∧ (d.pruneByMaxHeight keep).2.limits = d.limits := by
  unfold EquivocationDetector.pruneByMaxHeight
  split
  · exact ⟨⟨fun _ => rfl, Nat.zero_le _, fun _ => Nat.zero_le _⟩, rfl⟩
  · dsimp only
    split
    · exact ⟨accounted, rfl⟩
    · split
      · exact ⟨accounted.clearEvidenceBefore _, rfl⟩
      · exact ⟨accounted, rfl⟩

theorem Accounted.record (height : Int) (phase : MessageType) (entry : SignedHash) :
    (d.record id height phase entry).pruneOldHeights.Accounted ∧
      (d.record id height phase entry).pruneOldHeights.limits = d.limits := by
  unfold pruneOldHeights
  split <;> exact ⟨{ accounted with }, rfl⟩

end EquivocationDetector

inductive EvidenceOp
  | recordVote (validatorId : String) (height : Int) (phase : MessageType) (blockHash signature : Hex)
  | importEvidence (ev : EquivocationEvidence) (canonicalize : MessageType → Int → Hex → String)
      (verify : String → Hex → String → Bool)
  | clearEvidenceBefore (height : Int)
  | pruneByMaxHeight (keep : Int)

namespace EquivocationDetector

variable {d : EquivocationDetector}

def evidenceStep (d : EquivocationDetector) : EvidenceOp → EquivocationDetector
  | .recordVote validatorId height phase blockHash signature => (d.recordVote validatorId height phase blockHash signature).1
  | .importEvidence ev canonicalize verify => (d.importEvidence ev canonicalize verify).1
  | .clearEvidenceBefore height => d.clearEvidenceBefore height
  | .pruneByMaxHeight keep => (d.pruneByMaxHeight keep).2

def produced (d : EquivocationDetector) : EvidenceOp → Option EquivocationEvidence
  | .recordVote validatorId height phase blockHash signature => (d.recordVote validatorId height phase blockHash signature).2
  | .importEvidence ev canonicalize verify =>
    match (d.importEvidence ev canonicalize verify).2 with
    | .imported => some { ev with validatorId := toLowerCase ev.validatorId }
    | .duplicate | .invalid => none
  | .clearEvidenceBefore _ | .pruneByMaxHeight _ => none

theorem evidenceStep_accounted (accounted : d.Accounted) (enough : 1 ≤ d.limits.1) (enoughEach : 1 ≤ d.limits.2)
    (op : EvidenceOp) :
    (d.evidenceStep op).Accounted ∧ (d.evidenceStep op).limits = d.limits ∧
      ∀ ev ∈ d.produced op, ev ∈ (d.evidenceStep op).evidence := by
  cases op with
  | recordVote validatorId height phase blockHash signature =>
    dsimp only [evidenceStep, produced, recordVote]
    split
    · split
      · rw [accounted.dropOwnOldest_eq enoughEach]
        exact accounted.add enough enoughEach ⟨toLowerCase validatorId, height, phase, _, blockHash, _, _⟩
      · exact ⟨(accounted.record _ _ _).1, (accounted.record _ _ _).2, nofun⟩
    · exact ⟨(accounted.record _ _ _).1, (accounted.record _ _ _).2, nofun⟩
  | importEvidence ev canonicalize verify =>
    dsimp only [evidenceStep, produced]
    generalize imported : d.importEvidence ev canonicalize verify = result
    unfold importEvidence at imported
    split at imported
    · dsimp only at imported
      split at imported
      · subst imported
        exact ⟨accounted, rfl, nofun⟩
      · split at imported
        · subst imported
          exact ⟨accounted, rfl, nofun⟩
        · split at imported
          · subst imported
            exact accounted.add enough enoughEach { ev with validatorId := toLowerCase ev.validatorId }
          · subst imported
            exact ⟨accounted, rfl, nofun⟩
    · subst imported
      exact ⟨accounted, rfl, nofun⟩
  | clearEvidenceBefore height => exact ⟨accounted.clearEvidenceBefore height, rfl, nofun⟩
  | pruneByMaxHeight keep => exact ⟨(accounted.pruneByMaxHeight keep).1, (accounted.pruneByMaxHeight keep).2, nofun⟩

theorem run_accounted (ops : List EvidenceOp) (accounted : d.Accounted) (enough : 1 ≤ d.limits.1)
    (enoughEach : 1 ≤ d.limits.2) :
    (ops.foldl evidenceStep d).Accounted ∧ (ops.foldl evidenceStep d).limits = d.limits := by
  induction ops generalizing d with
  | nil => exact ⟨accounted, rfl⟩
  | cons op ops ih =>
    obtain ⟨next, same, -⟩ := evidenceStep_accounted accounted enough enoughEach op
    obtain ⟨after, limits⟩ := ih next (by rw [same]; exact enough) (by rw [same]; exact enoughEach)
    exact ⟨after, limits.trans same⟩

end EquivocationDetector

/-- After any calls the list keeps both caps, every counter is the number of its validator's entries, and the
    entry of a further call is in the list. -/
theorem evidence_accounting (maxTrackedHeights maxEvidence maxEvidencePerValidator : Nat) (enough : 1 ≤ maxEvidence)
    (enoughEach : 1 ≤ maxEvidencePerValidator) (ops : List EvidenceOp) :
    let d := ops.foldl evidenceStep
      { maxTrackedHeights, maxEvidence, maxEvidencePerValidator : EquivocationDetector }
    d.evidence.length ≤ maxEvidence ∧
      (∀ v, listed d.evidence v ≤ maxEvidencePerValidator) ∧
      (∀ v, d.count v = listed d.evidence v) ∧
      ∀ op, ∀ ev ∈ d.produced op, ev ∈ (d.evidenceStep op).evidence := by
  have start : ({ maxTrackedHeights, maxEvidence, maxEvidencePerValidator : EquivocationDetector }).Accounted :=
    ⟨fun _ => rfl, Nat.zero_le _, fun _ => Nat.zero_le _⟩
  obtain ⟨accounted, limits⟩ := run_accounted ops start enough enoughEach
  intro d
  have sameTotal : d.maxEvidence = maxEvidence := congrArg Prod.fst limits
  have sameEach : d.maxEvidencePerValidator = maxEvidencePerValidator := congrArg Prod.snd limits
  refine ⟨?_, ?_, accounted.counted, ?_⟩
  · rw [← sameTotal]
    exact accounted.total
  · intro v
    rw [← sameEach]
    exact accounted.each v
  · intro op
    rw [← sameTotal] at enough
    rw [← sameEach] at enoughEach
    exact (evidenceStep_accounted accounted enough enoughEach op).2.2

def doubleVotes : List EvidenceOp :=
  [.recordVote "V1" 1 .prepare "0xa" "0x1", .recordVote "v1" 1 .prepare "0xb" "0x2",
    .recordVote "v2" 1 .commit "0xa" "0x3", .recordVote "v2" 1 .commit "0xb" "0x4"]

theorem double_votes_accounted :
    (doubleVotes.foldl evidenceStep { maxEvidence := 1, maxEvidencePerValidator := 1 }).count "v2" = 1 ∧
      (doubleVotes.foldl evidenceStep
        { maxEvidence := 1, maxEvidencePerValidator := 1 }).evidence.length ≤ 1 :=
  ⟨by decide, (evidence_accounting 100 1 1 (by decide) (by decide) doubleVotes).1⟩

end Palimesh.Bft
