import Palimesh.Protocol.Transition

namespace Protocol.Reentrancy

variable {σ κ π ω ε : Type}

/-- How far a call gets: to its end, or to foreign code, which runs on `during`; if that fails, `before` is
    restored. A call that is not delivered can only fail. -/
inductive Outcome (σ π : Type)
  | done (state : σ)
  | foreign (before during : σ) (pending : π) (delivered : Bool)

/-- A component that may be called again while foreign code it called is running. -/
structure Component (σ κ π ω ε : Type) where
  execute : σ → κ → Except ε (Outcome σ π)
  resume : σ → π → Bool → Except ε (Outcome σ π)
  outside : σ → ω → σ

structure Frame (σ π : Type) where
  entry : σ
  before : σ
  pending : π
  delivered : Bool

structure Machine (σ π : Type) where
  state : σ
  frames : List (Frame σ π)

inductive Event (κ ω : Type)
  | call (call : κ)
  | answer (ok : Bool)
  | abort
  | outside (event : ω)

def Machine.proceed (entry : σ) (frames : List (Frame σ π)) : Except ε (Outcome σ π) → Machine σ π
  | .error _ => ⟨entry, frames⟩
  | .ok (.done state) => ⟨state, frames⟩
  | .ok (.foreign before during pending delivered) => ⟨during, ⟨entry, before, pending, delivered⟩ :: frames⟩

/-- What foreign code undoes on its own account leads back to a machine that was there before, so
    there is no event for it. -/
def Machine.step (component : Component σ κ π ω ε) (m : Machine σ π) : Event κ ω → Machine σ π
  | .call call => .proceed m.state m.frames (component.execute m.state call)
  | .answer ok =>
    match m.frames with
    | [] => m
    | frame :: rest =>
      .proceed frame.entry rest (component.resume (if ok then m.state else frame.before) frame.pending ok)
  | .abort =>
    match m.frames with
    | [] => m
    | frame :: rest => ⟨frame.entry, rest⟩
  | .outside event => { m with state := component.outside m.state event }

/-- Which events can happen: calls and outside events as their own conditions say, and success only
    of foreign calls that were delivered. -/
def Machine.Admits (callable : σ → κ → Prop) (possible : Machine σ π → ω → Prop) (m : Machine σ π) :
    Event κ ω → Prop
  | .call call => callable m.state call
  | .answer ok => ok = true → ∀ frame ∈ m.frames.head?, frame.delivered = true
  | .abort => True
  | .outside event => possible m event

instance {callable : σ → κ → Prop} {possible : Machine σ π → ω → Prop} [∀ state call, Decidable (callable state call)]
    [∀ m event, Decidable (possible m event)] (m : Machine σ π) (event : Event κ ω) :
    Decidable (m.Admits callable possible event) := by
  unfold Machine.Admits
  split <;> infer_instance

/-- A call that other code has to accept once, with which it is complete. -/
def Component.Settles (component : Component σ κ π ω ε) (state : σ) (call : κ) (settled : σ) : Prop :=
  ∃ before pending, component.execute state call = .ok (.foreign before settled pending true) ∧
    component.resume settled pending true = .ok (.done settled)

variable {frames : List (Frame σ π)} {result : Except ε (Outcome σ π)} {m : Machine σ π} {event : Event κ ω}
    {start : σ}

section Dues

variable (good : Nat → σ → Prop) (ready : Nat → σ → π → Prop) (due : π → Nat)

def dues (frames : List (Frame σ π)) : Nat := (frames.map fun frame => due frame.pending).sum

/-- The state foreign code runs on keeps what the call counts on, and the one to be restored is ready
    for a failure. -/
def Outcome.Backed (below : Nat) : Outcome σ π → Prop
  | .done state => good below state
  | .foreign before during pending _ => good (due pending + below) during ∧ ready below before pending

def FramesBacked : List (Frame σ π) → Prop
  | [] => True
  | frame :: rest =>
    good (dues due rest) frame.entry ∧ ready (dues due rest) frame.before frame.pending ∧ FramesBacked rest

structure Machine.Backed (m : Machine σ π) : Prop where
  state : good (dues due m.frames) m.state
  frames : FramesBacked good ready due m.frames

variable {good ready due}

theorem Machine.Backed.proceed {entry : σ}
    (start : good (dues due frames) entry) (suspended : FramesBacked good ready due frames)
    (backed : ∀ outcome, result = .ok outcome → outcome.Backed good ready due (dues due frames)) :
    (Machine.proceed entry frames result).Backed good ready due := by
  match result with
  | .error _ => exact ⟨start, suspended⟩
  | .ok (.done state) => exact ⟨backed _ rfl, suspended⟩
  | .ok (.foreign before during pending delivered) =>
    obtain ⟨running, failing⟩ := backed _ rfl
    exact ⟨running, start, failing, suspended⟩

/-- What a component has to keep for an invariant that reserves something for its suspended calls. -/
structure KeepsDues (component : Component σ κ π ω ε) (callable : σ → κ → Prop)
    (possible : Machine σ π → ω → Prop) (good : Nat → σ → Prop) (ready : Nat → σ → π → Prop) (due : π → Nat) :
    Prop where
  execute : ∀ {below state call outcome}, good below state → callable state call →
    component.execute state call = .ok outcome → outcome.Backed good ready due below
  succeed : ∀ {below state pending outcome}, good (due pending + below) state →
    component.resume state pending true = .ok outcome → outcome.Backed good ready due below
  fail : ∀ {below before pending outcome}, ready below before pending →
    component.resume before pending false = .ok outcome → outcome.Backed good ready due below
  outside : ∀ {m event}, m.Backed good ready due → possible m event →
    good (dues due m.frames) (component.outside m.state event)

variable {component : Component σ κ π ω ε} {callable : σ → κ → Prop} {possible : Machine σ π → ω → Prop}

variable (keeps : KeepsDues component callable possible good ready due)
include keeps

theorem KeepsDues.step (backed : m.Backed good ready due)
    (admitted : m.Admits callable possible event) : (m.step component event).Backed good ready due := by
  cases event with
  | call call => exact .proceed backed.state backed.frames fun _ => keeps.execute backed.state admitted
  | answer ok =>
    obtain ⟨state, frames⟩ := m
    cases frames with
    | nil => exact backed
    | cons frame rest =>
      obtain ⟨entry, failing, suspended⟩ := backed.frames
      refine .proceed entry suspended fun outcome resumed => ?_
      cases ok with
      | true => exact keeps.succeed backed.state resumed
      | false => exact keeps.fail failing resumed
  | abort =>
    obtain ⟨state, frames⟩ := m
    cases frames with
    | nil => exact backed
    | cons frame rest =>
      obtain ⟨entry, -, suspended⟩ := backed.frames
      exact ⟨entry, suspended⟩
  | outside event => exact ⟨keeps.outside backed admitted, backed.frames⟩

theorem KeepsDues.reaches (initially : good 0 start)
    (reached : Reaches (Machine.Admits callable possible) (Machine.step component) ⟨start, []⟩ m) :
    m.Backed good ready due := by
  have fresh : (⟨start, []⟩ : Machine σ π).Backed good ready due := ⟨initially, trivial⟩
  exact reached.invariant _ fresh fun _ _ backed admitted => keeps.step backed admitted

end Dues

variable {outcome : Outcome σ π}

section Invariant

variable (good : σ → Prop) (ready : σ → π → Prop)

def Outcome.Sound : Outcome σ π → Prop
  | .done state => good state
  | .foreign before during pending _ => good during ∧ ready before pending

structure Machine.Sound (m : Machine σ π) : Prop where
  state : good m.state
  entries : ∀ frame ∈ m.frames, good frame.entry
  ready : ∀ frame ∈ m.frames, ready frame.before frame.pending

variable {good ready}

theorem Outcome.Sound.backed (sound : outcome.Sound good ready) (below : Nat) :
    outcome.Backed (fun _ => good) (fun _ => ready) (fun _ => 0) below := by
  cases outcome with
  | done state => exact sound
  | foreign before during pending delivered => exact sound

theorem Machine.Backed.sound
    (backed : m.Backed (fun _ => good) (fun _ => ready) (fun _ => 0)) : m.Sound good ready := by
  obtain ⟨state, frames⟩ := m
  obtain ⟨running, suspended⟩ := backed
  have kept : ∀ frame ∈ frames, good frame.entry ∧ ready frame.before frame.pending := by
    clear running
    induction frames with
    | nil => exact fun _ member => (List.not_mem_nil member).elim
    | cons frame rest ih =>
      obtain ⟨entry, failing, below⟩ := suspended
      exact List.forall_mem_cons.mpr ⟨⟨entry, failing⟩, ih below⟩
  exact ⟨running, fun frame member => (kept frame member).1, fun frame member => (kept frame member).2⟩

/-- What a component has to keep for its invariant to hold through every re-entrance. -/
structure Keeps (component : Component σ κ π ω ε) (callable : σ → κ → Prop) (possible : Machine σ π → ω → Prop)
    (good : σ → Prop) (ready : σ → π → Prop) : Prop where
  execute : ∀ {state call outcome}, good state → callable state call →
    component.execute state call = .ok outcome → outcome.Sound good ready
  succeed : ∀ {state pending outcome}, good state →
    component.resume state pending true = .ok outcome → outcome.Sound good ready
  fail : ∀ {before pending outcome}, ready before pending →
    component.resume before pending false = .ok outcome → outcome.Sound good ready
  outside : ∀ {m event}, m.Sound good ready → possible m event → good (component.outside m.state event)

variable {component : Component σ κ π ω ε} {callable : σ → κ → Prop} {possible : Machine σ π → ω → Prop}

theorem Keeps.reaches (keeps : Keeps component callable possible good ready)
    (initially : good start)
    (reached : Reaches (Machine.Admits callable possible) (Machine.step component) ⟨start, []⟩ m) :
    m.Sound good ready := by
  have dues : KeepsDues component callable possible (fun _ => good) (fun _ => ready) fun _ => 0 :=
    { execute := fun held called ran => (keeps.execute held called ran).backed _
      succeed := fun held ran => (keeps.succeed held ran).backed _
      fail := fun held ran => (keeps.fail held ran).backed _
      outside := fun backed => keeps.outside backed.sound }
  exact (dues.reaches initially reached).sound

end Invariant

section Nesting

variable (good busy : σ → Prop) (rel : σ → σ → Prop)

/-- How a state follows the one a call was entered on: `busy` says what is known of an entry that is
    still waiting for foreign code. -/
def Outcome.Follows (entry : σ) : Outcome σ π → Prop
  | .done state => good state ∧ rel entry state
  | .foreign before during _ _ => busy entry ∧ (good before ∧ rel entry before) ∧ good during ∧ rel entry during

def Nested : σ → List (Frame σ π) → Prop
  | _, [] => True
  | state, frame :: rest =>
    (good frame.entry ∧ busy frame.entry) ∧ (good frame.before ∧ rel frame.entry frame.before) ∧
      rel frame.entry state ∧ Nested frame.entry rest

/-- What a component has to keep for every state to follow the entries of the calls around it. -/
structure Advances (component : Component σ κ π ω ε) (callable : σ → κ → Prop) (possible : Machine σ π → ω → Prop) :
    Prop where
  trans : ∀ {first second third}, rel first second → rel second third → rel first third
  execute : ∀ {state call outcome}, good state → callable state call →
    component.execute state call = .ok outcome → outcome.Follows good busy rel state
  resume : ∀ {entry state pending ok outcome}, busy entry → good state → rel entry state →
    component.resume state pending ok = .ok outcome → outcome.Follows good busy rel entry
  outside : ∀ {m event}, good m.state → possible m event →
    good (component.outside m.state event) ∧ (m.frames ≠ [] → rel m.state (component.outside m.state event))

variable {good busy rel} {component : Component σ κ π ω ε} {callable : σ → κ → Prop}
  {possible : Machine σ π → ω → Prop}

variable (advances : Advances good busy rel component callable possible)
include advances

theorem Nested.follow {state next : σ} (nested : Nested good busy rel state frames)
    (follows : rel state next) : Nested good busy rel next frames := by
  cases frames with
  | nil => trivial
  | cons frame rest =>
    obtain ⟨entry, before, run, below⟩ := nested
    exact ⟨entry, before, advances.trans run follows, below⟩

theorem Nested.proceed {entry : σ} (start : good entry)
    (nested : Nested good busy rel entry frames)
    (follows : ∀ outcome, result = .ok outcome → outcome.Follows good busy rel entry) :
    good (Machine.proceed entry frames result).state ∧
      Nested good busy rel (Machine.proceed entry frames result).state (Machine.proceed entry frames result).frames := by
  match result with
  | .error _ => exact ⟨start, nested⟩
  | .ok (.done state) =>
    obtain ⟨held, run⟩ := follows _ rfl
    exact ⟨held, nested.follow advances run⟩
  | .ok (.foreign before during pending delivered) =>
    obtain ⟨waiting, kept, held, run⟩ := follows _ rfl
    exact ⟨held, ⟨start, waiting⟩, kept, run, nested⟩

theorem Advances.answered {state : σ} {frame : Frame σ π} {rest : List (Frame σ π)} {ok : Bool}
    (start : good state) (nested : Nested good busy rel state (frame :: rest))
    (resumed : component.resume (if ok then state else frame.before) frame.pending ok = .ok outcome) :
    outcome.Follows good busy rel frame.entry := by
  obtain ⟨⟨-, waiting⟩, kept, run, -⟩ := nested
  cases ok with
  | true => exact advances.resume waiting start run resumed
  | false => exact advances.resume waiting kept.1 kept.2 resumed

theorem Advances.step
    (held : good m.state ∧ Nested good busy rel m.state m.frames) (admitted : m.Admits callable possible event) :
    good (m.step component event).state ∧
      Nested good busy rel (m.step component event).state (m.step component event).frames := by
  obtain ⟨start, nested⟩ := held
  cases event with
  | call call => exact nested.proceed advances start fun _ => advances.execute start admitted
  | answer ok =>
    obtain ⟨state, frames⟩ := m
    cases frames with
    | nil => exact ⟨start, nested⟩
    | cons frame rest =>
      exact Nested.proceed advances nested.1.1 nested.2.2.2 fun _ => advances.answered start nested
  | abort =>
    obtain ⟨state, frames⟩ := m
    cases frames with
    | nil => exact ⟨start, nested⟩
    | cons frame rest => exact ⟨nested.1.1, nested.2.2.2⟩
  | outside event =>
    obtain ⟨kept, run⟩ := advances.outside start admitted
    refine ⟨kept, ?_⟩
    obtain ⟨state, frames⟩ := m
    cases frames with
    | nil => trivial
    | cons frame rest => exact nested.follow advances (run (List.cons_ne_nil _ _))

theorem Advances.reaches (initially : good start)
    (reached : Reaches (Machine.Admits callable possible) (Machine.step component) ⟨start, []⟩ m) :
    good m.state ∧ Nested good busy rel m.state m.frames := by
  have fresh : good (⟨start, []⟩ : Machine σ π).state ∧ Nested good busy rel start ([] : List (Frame σ π)) :=
    ⟨initially, trivial⟩
  exact reached.invariant (fun m => good m.state ∧ Nested good busy rel m.state m.frames) fresh
    fun _ _ held admitted => advances.step held admitted

/-- An event either goes on from the state, or a waiting call ends: it is undone, or what it leaves
    follows its entry. -/
theorem Advances.cases (refl : ∀ state, rel state state) (start : good m.state)
    (nested : Nested good busy rel m.state m.frames) (admitted : m.Admits callable possible event)
    (inside : ∀ ω, event = .outside ω → m.frames ≠ []) :
    rel m.state (m.step component event).state ∨
      ∃ entry, busy entry ∧ rel entry m.state ∧ rel entry (m.step component event).state := by
  have ends : ∀ {entry frames} {result : Except ε (Outcome σ π)},
      (∀ outcome, result = .ok outcome → outcome.Follows good busy rel entry) →
      rel entry (Machine.proceed entry frames result).state := by
    intro entry frames result follows
    match result with
    | .error _ => exact refl entry
    | .ok (.done state) => exact (follows _ rfl).2
    | .ok (.foreign before during pending delivered) => exact (follows _ rfl).2.2.2
  cases event with
  | call call => exact .inl (ends fun _ => advances.execute start admitted)
  | answer ok =>
    obtain ⟨state, frames⟩ := m
    cases frames with
    | nil => exact .inl (refl state)
    | cons frame rest =>
      exact .inr ⟨frame.entry, nested.1.2, nested.2.2.1, ends fun _ => advances.answered start nested⟩
  | abort =>
    obtain ⟨state, frames⟩ := m
    cases frames with
    | nil => exact .inl (refl state)
    | cons frame rest => exact .inr ⟨frame.entry, nested.1.2, nested.2.2.1, refl frame.entry⟩
  | outside event => exact .inl ((advances.outside start admitted).2 (inside event rfl))

end Nesting

end Protocol.Reentrancy
