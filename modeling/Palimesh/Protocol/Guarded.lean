import Mathlib

namespace Protocol.Guarded

variable {ε α δ : Type}

@[simp] theorem bind_ok {x : Except ε α} {f : α → Except ε δ} {y : δ} :
    (x >>= f) = .ok y ↔ ∃ a, x = .ok a ∧ f a = .ok y := by
  cases x with
  | error err => simp [Bind.bind, Except.bind]
  | ok a => simp [Bind.bind, Except.bind]

@[simp] theorem pure_ok {a b : α} : (pure a : Except ε α) = .ok b ↔ a = b := by
  simp [Pure.pure, Except.pure]

@[simp] theorem map_ok {x : Except ε α} {f : α → δ} {y : δ} : x.map f = .ok y ↔ ∃ a, x = .ok a ∧ f a = y := by
  cases x with
  | error err => simp [Except.map]
  | ok a => simp [Except.map]

theorem mapM_of_ok {f : α → Except ε δ} {g : α → δ} {xs : List α} (each : ∀ x ∈ xs, f x = .ok (g x)) :
    xs.mapM f = .ok (xs.map g) := by
  induction xs with
  | nil => rfl
  | cons x xs ih =>
    obtain ⟨first, rest⟩ := List.forall_mem_cons.mp each
    rw [List.mapM_cons, first, ih rest]
    rfl

instance decidableExistsOk (x : Except ε α) (p : α → Prop) [DecidablePred p] : Decidable (∃ a, x = .ok a ∧ p a) :=
  match x with
  | .ok a => decidable_of_iff (p a) ⟨fun h => ⟨a, rfl, h⟩, fun ⟨_, same, h⟩ => by cases same; exact h⟩
  | .error _ => .isFalse fun ⟨_, same, _⟩ => by cases same

/-- Why a call is undone: an error of its own, or one the compiler puts in. -/
inductive Fault (ε : Type)
  | raised (error : ε)
  | panic
  | nonPayable
deriving DecidableEq

abbrev Result (ε α : Type) := Except (Fault ε) α

def revertIf (bad : Prop) [Decidable bad] (error : ε) : Result ε Unit :=
  if bad then .error (.raised error) else .ok ()

@[simp] theorem revertIf_ok {bad : Prop} [Decidable bad] {error : ε} {u : Unit} :
    revertIf bad error = .ok u ↔ ¬ bad := by
  unfold revertIf
  split <;> simp_all

def checked (fits : Prop) [Decidable fits] (value : Nat) : Result ε Nat :=
  if fits then .ok value else .error .panic

@[simp] theorem checked_ok {fits : Prop} [Decidable fits] {value result : Nat} :
    (checked fits value : Result ε Nat) = .ok result ↔ fits ∧ value = result := by
  unfold checked
  by_cases h : fits
  · simp [h]
  · simp [h]

def checkedAdd (bits a b : Nat) : Result ε Nat := checked (a + b < 2 ^ bits) (a + b)

def checkedMul (bits a b : Nat) : Result ε Nat := checked (a * b < 2 ^ bits) (a * b)

def checkedSub (a b : Nat) : Result ε Nat := checked (b ≤ a) (a - b)

@[simp] theorem checkedAdd_ok {bits a b c : Nat} :
    (checkedAdd bits a b : Result ε Nat) = .ok c ↔ a + b < 2 ^ bits ∧ a + b = c := checked_ok

@[simp] theorem checkedMul_ok {bits a b c : Nat} :
    (checkedMul bits a b : Result ε Nat) = .ok c ↔ a * b < 2 ^ bits ∧ a * b = c := checked_ok

@[simp] theorem checkedSub_ok {a b c : Nat} : (checkedSub a b : Result ε Nat) = .ok c ↔ b ≤ a ∧ a - b = c := checked_ok

end Protocol.Guarded
