import Manipulator.Approach.Statements
import Manipulator.Machine

/-
  The approach node with its callbacks interleaved.

  The timer is in a reentrant group under an executor with
  several threads: any number of timer callbacks are in
  flight at once, and each of them, like the
  `execute_callback` of the goal that runs, goes on by one
  statement at a time. Goals follow one another. A statement
  that raises ends its callback and leaves the others to go
  on. `bounding_box_callback` holds the lock and is one
  statement.

  Two counters that the node does not have say which
  callback is older than which goal: a timer callback keeps
  how many goals had returned when it started, and so does
  the latest goal.

  Main declarations:
    * `Callback`, `Process`, `Action`
    * `process`
    * `Process.callback_of_stmt?`
-/

------------------------------------------------------------
-- States And Actions
------------------------------------------------------------

namespace Manipulator

namespace Approach

/- A timer callback; `none` once it has ended. -/
structure Callback (K : Type) where
  -- the goals that had returned when it started
  born : Nat
  stmt : Option (TickAt K)

structure Process (K : Type) where
  node : Node K
  goal : GoalAt K
  -- every timer callback so far, in the order they started
  ticks : List (Callback K)
  -- the goals that have returned a result
  returned : Nat
  -- those that had when the latest goal started
  current : Nat

inductive Action (K : Type) where
-- a goal is accepted and its `execute_callback` starts
| start
-- the next statement of `execute_callback`
| goal
-- the timer fires
| fire
-- the next statement of a timer callback
| tick (k : Nat)
-- `bounding_box_callback`
| message (msg : BoundingBox K)

variable {K : Type} [Field K] [LinearOrder K]

namespace Process

def init (debugMode : Int) : Process K where
  node := .init debugMode
  goal := .idle
  ticks := []
  returned := 0
  current := 0

omit [Field K] [LinearOrder K] in
/- The next statement of a callback, if it is in flight. -/
def stmt? (s : Process K) (k : Nat) : Option (TickAt K) :=
  s.ticks[k]?.bind Callback.stmt

------------------------------------------------------------
-- Steps
------------------------------------------------------------

def start (s : Process K) : Process K :=
  { s with goal := .resetFirst, current := s.returned }

/- A statement of `execute_callback`. -/
def stepGoal (s : Process K) : Process K :=
  match s.goal.step s.node with
  | .error _ => { s with goal := .idle }
  | .ok (node, goal) =>
      { s with
        node := node
        goal := goal
        returned :=
          if s.goal.isReturning then s.returned + 1
          else s.returned }

def fire (s : Process K) : Process K :=
  { s with ticks := s.ticks ++ [⟨s.returned, some .checkRun⟩] }

/- The callback with what it is to do next. -/
def resume
    (s : Process K)
    (k : Nat)
    (next : Option (TickAt K)) : List (Callback K) :=
  s.ticks.modify k fun c => { c with stmt := next }

/- A statement of a timer callback. -/
def stepTick
    (trig : Trig K) (s : Process K) (k : Nat) : Process K :=
  match s.stmt? k with
  | none => s
  | some stmt =>
      match stmt.step trig s.node with
      | .error _ => { s with ticks := s.resume k none }
      | .ok e =>
          { s with
            node := e.node
            ticks := s.resume k e.next }

def message (msg : BoundingBox K) (s : Process K) : Process K :=
  { s with node := boundingBoxCallback msg s.node }

/-
  A goal starts when none runs, and `finish_event.wait()`
  returns when the event is set.
-/
def Enabled (s : Process K) : Action K → Prop
| .start => s.goal.isIdle = true
| .goal =>
    s.goal.isIdle = false ∧
      (s.goal.isWaiting = true → s.node.finishEvent = true)
| .fire => True
| .tick k => (s.stmt? k).isSome
| .message _ => True

instance decidableEnabled
    (s : Process K) : (action : Action K) →
      Decidable (s.Enabled action)
| .start => inferInstanceAs (Decidable (_ = _))
| .goal => inferInstanceAs (Decidable (_ ∧ _))
| .fire => .isTrue trivial
| .tick _ => inferInstanceAs (Decidable (_ = _))
| .message _ => .isTrue trivial

def step
    (trig : Trig K) (s : Process K) : Action K → Process K
| .start => s.start
| .goal => s.stepGoal
| .fire => s.fire
| .tick k => s.stepTick trig k
| .message msg => s.message msg

end Process

/- No step of the process fails: what raises is a callback. -/
def process (trig : Trig K) :
    Machine (Process K) (Action K) Empty where
  Enabled := Process.Enabled
  step := fun s action => .ok (s.step trig action)

instance (trig : Trig K) (s : Process K) (action : Action K) :
    Decidable ((process trig).Enabled s action) :=
  Process.decidableEnabled s action

------------------------------------------------------------
-- One Step
------------------------------------------------------------

namespace Process

variable {trig : Trig K} {s : Process K} {k : Nat}

omit [Field K] [LinearOrder K] in
/-
  A callback in flight beside the others, before and after
  it goes on.
-/
theorem callback_of_stmt?
    {stmt : TickAt K}
    (hStmt : s.stmt? k = some stmt) :
    ∃ c, s.ticks[k]? = some c ∧ c.stmt = some stmt ∧
      (∀ c', c' ∈ s.ticks ↔
        c' = c ∨ c' ∈ s.ticks.eraseIdx k) ∧
      ∀ next c', c' ∈ s.resume k next ↔
        c' = { c with stmt := next } ∨
          c' ∈ s.ticks.eraseIdx k := by
  rcases Option.bind_eq_some_iff.mp hStmt with
    ⟨c, hCallback, hNext⟩
  rcases List.getElem?_eq_some_iff.mp hCallback with
    ⟨hLess, rfl⟩
  refine ⟨s.ticks[k], hCallback, hNext, ?_, ?_⟩
  · intro c'
    have hSplit :
        s.ticks =
          s.ticks.take k ++ s.ticks[k] :: s.ticks.drop (k + 1) := by
      rw [← List.drop_eq_getElem_cons hLess,
        List.take_append_drop]
    rw [List.eraseIdx_eq_take_drop_succ]
    nth_rewrite 1 [hSplit]
    simp only [List.mem_append, List.mem_cons]
    exact or_left_comm
  · intro next c'
    rw [resume, List.modify_eq_take_cons_drop hLess,
      List.eraseIdx_eq_take_drop_succ]
    simp only [List.mem_append, List.mem_cons]
    exact or_left_comm

/- A callback raises, and only its own statement changes. -/
theorem stepTick_error
    {stmt : TickAt K} {error : PyError}
    (hStmt : s.stmt? k = some stmt)
    (hStep : stmt.step trig s.node = .error error) :
    s.stepTick trig k = { s with ticks := s.resume k none } := by
  simp only [stepTick, hStmt, hStep]

/- A callback goes on. -/
theorem stepTick_ok
    {stmt : TickAt K} {e : Effect K}
    (hStmt : s.stmt? k = some stmt)
    (hStep : stmt.step trig s.node = .ok e) :
    s.stepTick trig k =
      { s with node := e.node, ticks := s.resume k e.next } := by
  simp only [stepTick, hStmt, hStep]

end Process

------------------------------------------------------------
-- Schedules
------------------------------------------------------------

/- A goal is accepted and runs up to `finish_event.wait()`. -/
def beginGoal : List (Action K) :=
  .start :: List.replicate 11 .goal

/- The timer fires, and its callback goes on by `steps`. -/
def tickFor (k steps : Nat) : List (Action K) :=
  .fire :: List.replicate steps (.tick k)

/- A can right where it should be. -/
def centredCan : BoundingBox ℚ :=
  ⟨[230, 270, 250, 290], ["can"], [1], [0], true⟩

/- A goal up to the confirmation of its target. -/
def confirmedGoal : List (Action ℚ) :=
  beginGoal ++
    [Action.message centredCan] ++
    tickFor 0 32 ++
    tickFor 1 29 ++
    tickFor 2 29 ++
    tickFor 3 29 ++
    tickFor 4 28

end Approach

end Manipulator
