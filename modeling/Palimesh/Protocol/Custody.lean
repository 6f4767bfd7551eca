import Palimesh.Protocol.Guarded
import Palimesh.Protocol.Reentrancy

namespace Protocol.Custody

open Guarded Reentrancy Machine

variable {σ κ π η ε : Type}

/-- Zero stands for no account. -/
abbrev Address := Nat

structure Msg where
  sender : Address
  value : Nat
deriving DecidableEq

/-- How far a function of a contract gets: to its end, to a payment, or to a call of other code. -/
inductive Step (σ π : Type)
  | done (state : σ)
  | pay (state : σ) (payee : Address) (amount : Nat) (pending : π)
  | call (state : σ) (pending : π)

namespace Step

def state : Step σ π → σ
  | .done state | .pay state _ _ _ | .call state _ => state

def paid : Step σ π → Nat
  | .pay _ _ amount _ => amount
  | .done _ | .call _ _ => 0

def needs (need : π → Nat) : Step σ π → Nat
  | .pay _ _ _ pending | .call _ pending => need pending
  | .done _ => 0

end Step

/-- The code of an account: its functions read the account's own balance and surroundings `η`. -/
structure Contract (σ κ π η ε : Type) where
  payable : κ → Bool
  /-- Whether ether that the account sends to itself arrives. -/
  receives : Bool
  dispatch : σ → Nat → η → Msg → κ → Result ε (Step σ π)
  resume : σ → π → Bool → Result ε (Step σ π)

structure Entry (σ κ η : Type) where
  state : σ
  balance : Nat
  env : η
  msg : Msg
  call : κ

/-- The account in its surroundings; the calls taken so far are kept, the last one first. -/
structure World (σ κ η : Type) where
  state : σ
  balance : Nat
  self : Address
  env : η
  history : List (Entry σ κ η)

def World.fresh (state : σ) (balance : Nat) (self : Address) (env : η) : World σ κ η := ⟨state, balance, self, env, []⟩

def World.enter (w : World σ κ η) (msg : Msg) (call : κ) : World σ κ η :=
  { w with
    balance := w.balance + msg.value
    history := ⟨w.state, w.balance + msg.value, w.env, msg, call⟩ :: w.history }

variable (contract : Contract σ κ π η ε)

def World.outcome (w : World σ κ η) : Step σ π → Outcome (World σ κ η) π
  | .done state => .done { w with state := state }
  | .pay state payee amount pending =>
    let before := { w with state := state }
    if amount ≤ w.balance ∧ (payee = w.self → contract.receives = true) then
      .foreign before { before with balance := if payee = w.self then w.balance else w.balance - amount } pending true
    else .foreign before before pending false
  | .call state pending => .foreign { w with state := state } { w with state := state } pending true

def World.execute (w : World σ κ η) (message : Msg × κ) : Result ε (Outcome (World σ κ η) π) :=
  if contract.payable message.2 = false ∧ message.1.value ≠ 0 then .error .nonPayable
  else
    (contract.dispatch w.state (w.balance + message.1.value) w.env message.1 message.2).map
      ((w.enter message.1 message.2).outcome contract)

def World.resume (w : World σ κ η) (pending : π) (ok : Bool) : Result ε (Outcome (World σ κ η) π) :=
  (contract.resume w.state pending ok).map (w.outcome contract)

inductive Outside (η : Type)
    | tick (env : η)
  /-- What other accounts answer changes, in the middle of a block. -/
  | shift (env : η)
  | force (amount : Nat)

def World.outside (w : World σ κ η) : Outside η → World σ κ η
  | .tick env | .shift env => { w with env := env }
  | .force amount => { w with balance := w.balance + amount }

def Contract.component : Component (World σ κ η) (Msg × κ) π (Outside η) (Fault ε) where
  execute := World.execute contract
  resume := World.resume contract
  outside := World.outside

/-- Who can call, how the surroundings change from block to block and within one, and whether ether
    can be forced onto the account. -/
structure Setting (σ κ η : Type) where
  callable : World σ κ η → Msg × κ → Prop
  later : η → η → Prop
  shifted : η → η → Prop
  forced : Prop

variable (setting : Setting σ κ η)

def Setting.possible (m : Machine (World σ κ η) π) : Outside η → Prop
  | .tick env => m.frames = [] ∧ setting.later m.state.env env
  | .shift env => setting.shifted m.state.env env
  | .force _ => setting.forced

class Setting.Decides where
  callable : ∀ w message, Decidable (setting.callable w message)
  later : ∀ env next, Decidable (setting.later env next)
  shifted : ∀ env next, Decidable (setting.shifted env next)
  forced : Decidable setting.forced

instance [decides : setting.Decides] (w : World σ κ η) (message : Msg × κ) : Decidable (setting.callable w message) :=
  decides.callable w message

instance [decides : setting.Decides] (m : Machine (World σ κ η) π) (event : Outside η) :
    Decidable (setting.possible m event) := by
  have later := decides.later
  have shifted := decides.shifted
  have forced := decides.forced
  unfold Setting.possible
  split <;> infer_instance

/-- Every sequence of calls, answers of called code and outside events. -/
def Reachable (start : World σ κ η) : Machine (World σ κ η) π → Prop :=
  Reaches (Machine.Admits setting.callable setting.possible) (Machine.step contract.component) ⟨start, []⟩

section Payments

variable (w : World σ κ η) (frames : List (Frame (World σ κ η) π)) (msg : Msg) (call : κ) {state : σ} {payee : Address}
  {amount : Nat} {pending : π}

variable (accepted : ¬ (contract.payable call = false ∧ msg.value ≠ 0))
include accepted

theorem step_done (ran : contract.dispatch w.state (w.balance + msg.value) w.env msg call = .ok (.done state)) :
    step contract.component ⟨w, frames⟩ (.call (msg, call)) = ⟨{ w.enter msg call with state := state }, frames⟩ := by
  simp only [step, Contract.component, World.execute, if_neg accepted, ran]
  rfl

theorem step_pay
    (ran : contract.dispatch w.state (w.balance + msg.value) w.env msg call = .ok (.pay state payee amount pending))
    (covered : amount ≤ w.balance + msg.value) (away : payee ≠ w.self) :
    step contract.component ⟨w, frames⟩ (.call (msg, call)) =
      ⟨{ w.enter msg call with
          state := state
          balance := w.balance + msg.value - amount },
        ⟨w, { w.enter msg call with state := state }, pending, true⟩ :: frames⟩ := by
  have delivered : amount ≤ (w.enter msg call).balance ∧ (payee = (w.enter msg call).self → contract.receives = true) :=
    ⟨covered, fun home => absurd home away⟩
  have out : ¬ payee = (w.enter msg call).self := away
  simp only [step, Contract.component, World.execute, if_neg accepted, ran, Except.map, World.outcome,
    if_pos delivered, if_neg out, proceed]
  rfl

end Payments

variable {m : Machine (World σ κ η) π}

section Solvency

variable (inv : σ → η → List (Entry σ κ η) → Prop) (owed : σ → Nat) (reserve due : π → Nat)

/-- The account has what it owes, with `spare` set aside and `below` for the functions suspended
    underneath. -/
structure Covered (spare below : Nat) (w : World σ κ η) : Prop where
  inv : inv w.state w.env w.history
  funds : owed w.state + spare + below ≤ w.balance
  idle : (∀ pending, due pending = 0) → below = 0

structure Accounted (balance below : Nat) (env : η) (history : List (Entry σ κ η)) (step : Step σ π) : Prop where
  inv : inv step.state env history
  funds : owed step.state + step.paid + step.needs due + below ≤ balance
  reserved : step.needs reserve ≤ step.paid

/-- What the functions of a contract have to keep: `reserve` is what a failed payment leaves owed,
    `due` what a function pays later on. -/
structure Solvent : Prop where
  call : ∀ {w : World σ κ η} {msg call step below}, Covered inv owed due 0 below w →
    setting.callable w (msg, call) → ¬ (contract.payable call = false ∧ msg.value ≠ 0) →
    contract.dispatch w.state (w.balance + msg.value) w.env msg call = .ok step →
    Accounted inv owed reserve due (w.balance + msg.value) below w.env (w.enter msg call).history step
  resume : ∀ {w : World σ κ η} {pending ok step below},
    Covered inv owed due (if ok then due pending else reserve pending + due pending) below w →
    contract.resume w.state pending ok = .ok step → Accounted inv owed reserve due w.balance below w.env w.history step
  passes : ∀ {state env later history}, inv state env history → setting.later env later ∨ setting.shifted env later →
    inv state later history

variable {contract setting inv owed reserve due}

theorem Accounted.backed {w : World σ κ η} {below : Nat} {step : Step σ π}
    (accounted : Accounted inv owed reserve due w.balance below w.env w.history step)
    (idle : (∀ pending, due pending = 0) → below = 0) :
    (w.outcome contract step).Backed (Covered inv owed due 0)
      (fun below w pending => Covered inv owed due (reserve pending + due pending) below w) due below := by
  obtain ⟨kept, funds, reserved⟩ := accounted
  cases step with
  | done state => exact ⟨kept, by simpa [Step.state, Step.paid, Step.needs] using funds, idle⟩
  | call state pending =>
    simp only [Step.state, Step.paid, Step.needs] at kept funds reserved
    refine ⟨⟨kept, ?_, fun none => ?_⟩, ⟨kept, ?_, idle⟩⟩
    · show owed state + 0 + (due pending + below) ≤ w.balance
      omega
    · rw [none pending, idle none]
    · show owed state + (reserve pending + due pending) + below ≤ w.balance
      omega
  | pay state payee amount pending =>
    simp only [Step.state, Step.paid, Step.needs] at kept funds reserved
    have failing : Covered inv owed due (reserve pending + due pending) below { w with state := state } := by
      refine ⟨kept, ?_, idle⟩
      show owed state + (reserve pending + due pending) + below ≤ w.balance
      omega
    have silent : (∀ pending, due pending = 0) → due pending + below = 0 := by
      intro none
      rw [none pending, idle none]
    unfold World.outcome
    dsimp only
    split
    · refine ⟨⟨kept, ?_, silent⟩, failing⟩
      show owed state + 0 + (due pending + below) ≤ if payee = w.self then w.balance else w.balance - amount
      split <;> omega
    · refine ⟨⟨kept, ?_, silent⟩, failing⟩
      show owed state + 0 + (due pending + below) ≤ w.balance
      omega

variable (solvent : Solvent contract setting inv owed reserve due)
include solvent

theorem Solvent.keeps :
    KeepsDues contract.component setting.callable setting.possible (Covered inv owed due 0)
      (fun below w pending => Covered inv owed due (reserve pending + due pending) below w) due where
  execute := by
    intro below w message outcome good called executed
    simp only [Contract.component, World.execute] at executed
    split at executed
    · cases executed
    · rename_i paid
      obtain ⟨step, dispatched, rfl⟩ := map_ok.mp executed
      exact (solvent.call good called paid dispatched).backed good.idle
  succeed := by
    intro below w pending outcome good resumed
    obtain ⟨step, answered, rfl⟩ := map_ok.mp resumed
    have idle : (∀ pending, due pending = 0) → below = 0 := fun none => Nat.eq_zero_of_add_eq_zero_left (good.idle none)
    have covered : Covered inv owed due (if true then due pending else reserve pending + due pending) below w := by
      refine ⟨good.inv, ?_, idle⟩
      have funds := good.funds
      rw [if_pos rfl]
      omega
    exact (solvent.resume covered answered).backed idle
  fail := by
    intro below before pending outcome ready resumed
    obtain ⟨step, answered, rfl⟩ := map_ok.mp resumed
    have covered : Covered inv owed due (if false then due pending else reserve pending + due pending) below before :=
      ready
    exact (solvent.resume covered answered).backed ready.idle
  outside := by
    intro m event backed possible
    obtain ⟨kept, funds, idle⟩ := backed.state
    cases event with
    | tick env => exact ⟨solvent.passes kept (.inl possible.2), funds, idle⟩
    | shift env => exact ⟨solvent.passes kept (.inr possible), funds, idle⟩
    | force amount => exact ⟨kept, le_trans funds (Nat.le_add_right _ _), idle⟩

theorem Solvent.reaches {state : σ} {balance : Nat} {self : Address} {env : η}
    (initially : inv state env []) (enough : owed state ≤ balance)
    (reached : Reachable contract setting (.fresh state balance self env) m) :
    inv m.state.state m.state.env m.state.history ∧ owed m.state.state + dues due m.frames ≤ m.state.balance := by
  have start : Covered inv owed due 0 0 (World.fresh state balance self env) := ⟨initially, enough, fun _ => rfl⟩
  obtain ⟨kept, funds, -⟩ := (solvent.keeps.reaches start reached).state
  exact ⟨kept, funds⟩

end Solvency

section Invariant

variable (inv : σ → η → List (Entry σ κ η) → Prop)

/-- What the functions of a contract have to keep for an invariant that has nothing to do with money. -/
structure Preserves : Prop where
  call : ∀ {w : World σ κ η} {msg call step}, inv w.state w.env w.history → setting.callable w (msg, call) →
    contract.dispatch w.state (w.balance + msg.value) w.env msg call = .ok step →
    inv step.state w.env (w.enter msg call).history
  resume : ∀ {state : σ} {env history pending ok step}, inv state env history →
    contract.resume state pending ok = .ok step → inv step.state env history
  passes : ∀ {state env later history}, inv state env history → setting.later env later ∨ setting.shifted env later →
    inv state later history

variable {contract setting inv}

theorem World.outcome_sound {w : World σ κ η} {step : Step σ π} (kept : inv step.state w.env w.history) :
    (w.outcome contract step).Sound (fun w => inv w.state w.env w.history)
      fun before _ => inv before.state before.env before.history := by
  cases step with
  | done state => exact kept
  | call state pending => exact ⟨kept, kept⟩
  | pay state payee amount pending =>
    unfold World.outcome
    dsimp only
    split
    · exact ⟨kept, kept⟩
    · exact ⟨kept, kept⟩

theorem Preserves.keeps (preserves : Preserves contract setting inv) :
    Keeps contract.component setting.callable setting.possible (fun w => inv w.state w.env w.history)
      fun before _ => inv before.state before.env before.history where
  execute := by
    intro w message outcome good called executed
    simp only [Contract.component, World.execute] at executed
    split at executed
    · cases executed
    · obtain ⟨step, dispatched, rfl⟩ := map_ok.mp executed
      exact World.outcome_sound (preserves.call good called dispatched)
  succeed := by
    intro w pending outcome good resumed
    obtain ⟨step, answered, rfl⟩ := map_ok.mp resumed
    exact World.outcome_sound (preserves.resume good answered)
  fail := by
    intro before pending outcome ready resumed
    obtain ⟨step, answered, rfl⟩ := map_ok.mp resumed
    exact World.outcome_sound (preserves.resume ready answered)
  outside := by
    intro m event sound possible
    cases event with
    | tick env => exact preserves.passes sound.state (.inl possible.2)
    | shift env => exact preserves.passes sound.state (.inr possible)
    | force amount => exact sound.state

theorem Preserves.reaches (preserves : Preserves contract setting inv) {state : σ} {balance : Nat} {self : Address} {env : η}
    (initially : inv state env [])
    (reached : Reachable contract setting (.fresh state balance self env) m) :
    inv m.state.state m.state.env m.state.history :=
  (preserves.keeps.reaches initially reached).state

end Invariant

section Records

variable {cond : Entry σ κ η → List (Entry σ κ η) → Prop}

/-- Every call that was taken met the condition when it was taken, given the calls before it. -/
def Recorded (cond : Entry σ κ η → List (Entry σ κ η) → Prop) (history : List (Entry σ κ η)) : Prop :=
  ∀ entry earlier, (entry :: earlier) <:+ history → cond entry earlier

theorem Recorded.nil : Recorded cond [] := by
  intro entry earlier suffix
  cases List.suffix_nil.mp suffix

theorem Recorded.cons {entry : Entry σ κ η} {history : List (Entry σ κ η)} (last : cond entry history)
    (before : Recorded cond history) : Recorded cond (entry :: history) := by
  intro other earlier suffix
  rcases List.suffix_cons_iff.mp suffix with same | inside
  · cases same
    exact last
  · exact before other earlier inside

end Records

end Protocol.Custody
