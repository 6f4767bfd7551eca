import Mathlib

namespace Protocol

variable {σ ε : Type}

/-- The states a system reaches when every event it takes is admitted where it is taken. -/
inductive Reaches (admits : σ → ε → Prop) (step : σ → ε → σ) (start : σ) : σ → Prop
  | start : Reaches admits step start start
  | next {state : σ} {event : ε} (earlier : Reaches admits step start state)
      (admitted : admits state event) : Reaches admits step start (step state event)

variable {admits : σ → ε → Prop} {step : σ → ε → σ} {start state : σ}

theorem Reaches.invariant (property : σ → Prop) (initially : property start)
    (preserved : ∀ state event, property state → admits state event → property (step state event))
    (reached : Reaches admits step start state) : property state := by
  induction reached with
  | start => exact initially
  | next _ admitted ih => exact preserved _ _ ih admitted

theorem Reaches.weaken {allowed : σ → ε → Prop} (reached : Reaches admits step start state)
    (weaker : ∀ state event, admits state event → allowed state event) :
    Reaches allowed step start state := by
  induction reached with
  | start => exact .start
  | next _ admitted ih => exact ih.next (weaker _ _ admitted)

def Admitted (admits : σ → ε → Prop) (step : σ → ε → σ) : σ → List ε → Prop
  | _, [] => True
  | state, event :: events => admits state event ∧ Admitted admits step (step state event) events

instance Admitted.decidable [∀ state event, Decidable (admits state event)] :
    ∀ (state : σ) (events : List ε), Decidable (Admitted admits step state events)
  | _, [] => .isTrue trivial
  | state, event :: events =>
    have := Admitted.decidable (step state event) events
    inferInstanceAs (Decidable (_ ∧ _))

theorem Reaches.run {events : List ε} (earlier : Reaches admits step start state)
    (admitted : Admitted admits step state events) :
    Reaches admits step start (events.foldl step state) := by
  induction events generalizing state with
  | nil => exact earlier
  | cons event events ih => exact ih (earlier.next admitted.1) admitted.2

end Protocol
