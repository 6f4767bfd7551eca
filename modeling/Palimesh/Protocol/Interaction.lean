import Mathlib

namespace Protocol

/-- Requests to a component, each with the type of its answer. -/
structure Interface where
  Request : Type
  Answer : Request → Type

/-- A finite program that asks a component and opens and closes checkpoints on it; the index counts those still to
    be closed, so that a run closes what it opened. -/
inductive Program (I : Interface) (α : Type) : Nat → Type
  | done (result : α) : Program I α 0
  | ask {depth : Nat} (request : I.Request) (next : I.Answer request → Program I α depth) : Program I α depth
  | checkpoint {depth : Nat} (next : Program I α (depth + 1)) : Program I α depth
  | commit {depth : Nat} (next : Program I α depth) : Program I α (depth + 1)
  | revert {depth : Nat} (next : Program I α depth) : Program I α (depth + 1)

inductive Action (I : Interface)
  | ask (request : I.Request)
  | checkpoint
  | commit
  | revert

structure Handler (I : Interface) (σ : Type) where
  answer : (request : I.Request) → σ → I.Answer request
  step : σ → Action I → σ

variable {I : Interface} {α β ε σ σ' : Type} {depth : Nat}

namespace Program

def run (h : Handler I σ) {depth : Nat} : Program I α depth → σ → α × σ
  | .done result, s => (result, s)
  | .ask request next, s => (next (h.answer request s)).run h (h.step s (.ask request))
  | .checkpoint next, s => next.run h (h.step s .checkpoint)
  | .commit next, s => next.run h (h.step s .commit)
  | .revert next, s => next.run h (h.step s .revert)

def trace (h : Handler I σ) {depth : Nat} : Program I α depth → σ → List (σ × Action I)
  | .done _, _ => []
  | .ask request next, s =>
    (s, .ask request) :: (next (h.answer request s)).trace h (h.step s (.ask request))
  | .checkpoint next, s => (s, .checkpoint) :: next.trace h (h.step s .checkpoint)
  | .commit next, s => (s, .commit) :: next.trace h (h.step s .commit)
  | .revert next, s => (s, .revert) :: next.trace h (h.step s .revert)

def bind {depth : Nat} : Program I α depth → (α → Program I β 0) → Program I β depth
  | .done result, f => f result
  | .ask request next, f => .ask request fun answer => (next answer).bind f
  | .checkpoint next, f => .checkpoint (next.bind f)
  | .commit next, f => .commit (next.bind f)
  | .revert next, f => .revert (next.bind f)

variable (p : Program I (Except ε α) depth)

def andThen (f : α → Program I (Except ε β) 0) : Program I (Except ε β) depth :=
  p.bind fun
    | .ok result => f result
    | .error err => .done (.error err)

def mapOk (f : α → β) : Program I (Except ε β) depth :=
  p.andThen fun result => .done (.ok (f result))

variable (h : Handler I σ) (h' : Handler I σ')

theorem run_bind (p : Program I α depth) (f : α → Program I β 0) (s : σ) :
    (p.bind f).run h s = (f (p.run h s).1).run h (p.run h s).2 := by
  induction p generalizing s with
  | done result => rfl
  | ask request next ih => exact ih _ _
  | checkpoint next ih => exact ih _
  | commit next ih => exact ih _
  | revert next ih => exact ih _

theorem run_andThen (f : α → Program I (Except ε β) 0) (s : σ) : (p.andThen f).run h s = match p.run h s with
      | (.ok result, s) => (f result).run h s
      | (.error err, s) => (.error err, s) := by
  rw [andThen, run_bind]
  rcases p.run h s with ⟨result | result, s⟩ <;> rfl

theorem run_mapOk (f : α → β) (s : σ) : (p.mapOk f).run h s = ((p.run h s).1.map f, (p.run h s).2) := by
  rw [mapOk, run_andThen]
  rcases p.run h s with ⟨result | result, s⟩ <;> rfl

def Step (R : Nat → σ → σ' → Prop) (depth : Nat) (s : σ) (s' : σ') : Action I → Prop
  | .ask request => h.answer request s = h'.answer request s' ∧ R depth (h.step s (.ask request)) (h'.step s' (.ask request))
  | .checkpoint => R (depth + 1) (h.step s .checkpoint) (h'.step s' .checkpoint)
  | .commit => ∀ outer, depth = outer + 1 → R outer (h.step s .commit) (h'.step s' .commit)
  | .revert => ∀ outer, depth = outer + 1 → R outer (h.step s .revert) (h'.step s' .revert)

variable {h h'}

theorem run_related {R : Nat → σ → σ' → Prop} {ok : σ → Action I → Prop} {ok' : σ' → Action I → Prop}
    (step : ∀ depth s s' action, R depth s s' → ok s action → ok' s' action → Step h h' R depth s s' action)
    (p : Program I α depth) {s : σ} {s' : σ'} (related : R depth s s')
    (along : ∀ visit ∈ p.trace h s, ok visit.1 visit.2) (along' : ∀ visit ∈ p.trace h' s', ok' visit.1 visit.2) :
    (p.run h s).1 = (p.run h' s').1 ∧ R 0 (p.run h s).2 (p.run h' s').2 := by
  induction p generalizing s s' with
  | done result => exact ⟨rfl, related⟩
  | @ask depth request next ih =>
    obtain ⟨first, rest⟩ := List.forall_mem_cons.mp along
    obtain ⟨first', rest'⟩ := List.forall_mem_cons.mp along'
    obtain ⟨answers, after⟩ := step depth s s' (.ask request) related first first'
    rw [← answers] at rest'
    have rest'' := ih (h.answer request s) after rest rest'
    rw [run, run, ← answers]
    exact rest''
  | @checkpoint depth next ih =>
    obtain ⟨first, rest⟩ := List.forall_mem_cons.mp along
    obtain ⟨first', rest'⟩ := List.forall_mem_cons.mp along'
    exact ih (step depth s s' .checkpoint related first first') rest rest'
  | @commit depth next ih | @revert depth next ih =>
    obtain ⟨first, rest⟩ := List.forall_mem_cons.mp along
    obtain ⟨first', rest'⟩ := List.forall_mem_cons.mp along'
    exact ih (step (depth + 1) s s' _ related first first' depth rfl) rest rest'

end Program

end Protocol
