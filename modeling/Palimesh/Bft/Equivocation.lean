import Palimesh.Bft.Round

namespace Palimesh.Bft

open Collections

structure EquivocationEvidence where
  validatorId : String
  height : Int
  phase : MessageType
  blockHash1 : Hex
  blockHash2 : Hex
  signature1 : Option Hex
  signature2 : Option Hex
deriving DecidableEq, Repr

structure SignedHash where
  hash : Hex
  signature : Hex
deriving DecidableEq, Repr

abbrev PhaseVotes := InsertionMap MessageType (InsertionMap String SignedHash)

structure EquivocationDetector where
  votes : InsertionMap Int PhaseVotes := .empty
  evidence : List EquivocationEvidence := []
  evidenceCountByValidator : InsertionMap String Int := .empty
  maxTrackedHeights : Nat := 100
  maxEvidence : Nat := 1000
  maxEvidencePerValidator : Nat := 100
  droppedTotal : Nat := 0
deriving DecidableEq

/-- A string that JavaScript treats as present: the empty one is falsy. -/
def truthy (s : String) : Option String := if s = "" then none else some s

namespace EquivocationDetector

section

variable (d : EquivocationDetector) (id : String)

def recorded (height : Int) (phase : MessageType) : Option SignedHash := do
  let heightMap ← d.votes.get? height
  let phaseMap ← heightMap.get? phase
  phaseMap.get? id

def count : Int := (d.evidenceCountByValidator.get? id).getD 0

def evictOwnOldest : EquivocationDetector :=
  if d.count id ≥ d.maxEvidencePerValidator then
    if d.evidence.any fun e => e.validatorId = id then
      { d with evidence := d.evidence.eraseP fun e => e.validatorId = id }
    else
      { d with
        evidenceCountByValidator := d.evidenceCountByValidator.set id 0
        droppedTotal := d.droppedTotal + 1 }
  else d

def heaviest : String :=
  (d.evidenceCountByValidator.entries.foldl
    (fun best entry => if entry.2 > best.2 then entry else best) (id, d.count id)).1

def evictHeaviest : EquivocationDetector :=
  if d.evidence.length ≥ d.maxEvidence then
    let victim := d.heaviest id
    if d.evidence.any fun e => e.validatorId = victim then
      { d with
        evidence := d.evidence.eraseP fun e => e.validatorId = victim
        evidenceCountByValidator := d.evidenceCountByValidator.set victim
          ((d.evidenceCountByValidator.get? victim).getD 1 - 1) }
    else d
  else d

def pushEvidence (ev : EquivocationEvidence) : EquivocationDetector :=
  { d with
    evidence := d.evidence ++ [ev]
    evidenceCountByValidator := d.evidenceCountByValidator.set ev.validatorId
      (min d.maxEvidencePerValidator (d.count ev.validatorId + 1)) }

def pruneOldHeights : EquivocationDetector :=
  if d.votes.size ≤ d.maxTrackedHeights then d
  else
    let heights := d.votes.keys.insertionSort (· ≤ ·)
    let removed := heights.take (heights.length - d.maxTrackedHeights)
    { d with votes := removed.foldl (fun votes height => votes.delete height) d.votes }

def record (height : Int) (phase : MessageType) (entry : SignedHash) : EquivocationDetector :=
  let heightMap := (d.votes.get? height).getD .empty
  let phaseMap := (heightMap.get? phase).getD .empty
  { d with votes := d.votes.set height (heightMap.set phase (phaseMap.set id entry)) }

def recordVote (validatorId : String) (height : Int) (phase : MessageType) (blockHash : Hex) (signature : Hex)
    : EquivocationDetector × Option EquivocationEvidence :=
  let normalizedId := toLowerCase validatorId
  let existing := d.recorded normalizedId height phase
  match (existing.map SignedHash.hash).bind truthy with
  | some existingHash =>
    if existingHash ≠ blockHash then
      let ev := ⟨normalizedId, height, phase, existingHash, blockHash,
        (existing.map SignedHash.signature).bind truthy, truthy signature⟩
      (((d.evictOwnOldest normalizedId).evictHeaviest normalizedId).pushEvidence ev, some ev)
    else ((d.record normalizedId height phase ⟨blockHash, signature⟩).pruneOldHeights, none)
  | none => ((d.record normalizedId height phase ⟨blockHash, signature⟩).pruneOldHeights, none)

def uncount (counts : InsertionMap String Int) (ev : EquivocationEvidence) : InsertionMap String Int :=
  let cnt := (counts.get? ev.validatorId).getD 1
  if cnt ≤ 1 then counts.delete ev.validatorId else counts.set ev.validatorId (cnt - 1)

def clearEvidenceBefore (height : Int) : EquivocationDetector :=
  { d with
    evidence := d.evidence.filter fun ev => ev.height ≥ height
    evidenceCountByValidator :=
      (d.evidence.filter fun ev => ev.height < height).foldl uncount d.evidenceCountByValidator }

/-- As `evictOwnOldest`, but a counter that no entry stands behind is left as it is. -/
def dropOwnOldest : EquivocationDetector :=
  if d.count id ≥ d.maxEvidencePerValidator then
    { d with evidence := d.evidence.eraseP fun e => e.validatorId = id }
  else d

end

inductive ImportOutcome
  | imported
  | duplicate
  | invalid
deriving DecidableEq, Repr

def importEvidence (d : EquivocationDetector) (ev : EquivocationEvidence)
    (canonicalize : MessageType → Int → Hex → String) (verify : String → Hex → String → Bool) :
    EquivocationDetector × ImportOutcome :=
  match ev.signature1.bind truthy, ev.signature2.bind truthy with
  | some signature1, some signature2 =>
    let normalizedId := toLowerCase ev.validatorId
    if ev.phase = .propose ∨ ev.blockHash1 = ev.blockHash2 then (d, .invalid)
    else if d.evidence.any fun e => e.validatorId = normalizedId ∧ e.height = ev.height ∧ e.phase = ev.phase then
      (d, .duplicate)
    else if verify (canonicalize ev.phase ev.height ev.blockHash1) signature1 normalizedId ∧
        verify (canonicalize ev.phase ev.height ev.blockHash2) signature2 normalizedId then
      (((d.dropOwnOldest normalizedId).evictHeaviest normalizedId).pushEvidence { ev with validatorId := normalizedId },
        .imported)
    else (d, .invalid)
  | _, _ => (d, .invalid)

def pruneByMaxHeight (d : EquivocationDetector) (keep : Int) : Nat × EquivocationDetector :=
  if keep ≤ 0 then (d.evidence.length, { d with evidence := [], evidenceCountByValidator := .empty })
  else
    let uniqueHeights := (d.evidence.map EquivocationEvidence.height).dedup
    if uniqueHeights.length ≤ keep then (0, d)
    else match (uniqueHeights.insertionSort (· ≥ ·))[keep.toNat - 1]? with
      | some cutoff =>
        let cleared := d.clearEvidenceBefore cutoff
        (d.evidence.length - cleared.evidence.length, cleared)
      -- Unreachable: there are more heights than `keep`.
      | none => (0, d)

end EquivocationDetector

end Palimesh.Bft
