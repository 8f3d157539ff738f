import Manipulator.Approach.Timer

/-
  The approach action server as a machine.

  A step is one callback: a goal request is accepted and
  `execute_callback` runs up to `finish_event.wait()`, a
  message arrives, the timer fires, a cancel request is
  accepted, or `execute_callback` runs on after the wait. Any
  number of goals may execute at once. The history records
  what the callbacks did, and messages and goals carry
  numbers that the node itself does not have.

  Main declarations:
    * `Execution`, `Tick`, `Event`, `Server`
    * `machine`
    * `ticksSince`, `epoch`, `goalTicks`
-/

------------------------------------------------------------
-- States And Inputs
------------------------------------------------------------

namespace Manipulator

namespace Approach

/- One execution of `execute_callback`. -/
structure Execution where
  goal : Nat
  handle : GoalHandle
  -- `finish_event.wait()` has returned
  released : Bool
deriving DecidableEq, Repr

/- One `timer_callback`: the node before it and its result. -/
structure Tick (K : Type) where
  before : Node K
  boxId : Nat
  result : TickResult K

inductive Event (K : Type) where
| started (goal : Nat)
| received (id : Nat)
| ticked (tick : Tick K)
| cancelAccepted (goal : Nat)
| returned
    (goal : Nat)
    (handle : GoalHandle)
    (result : ApproachResult K)

/-
  The node and the executions that have not returned.
  Messages are numbered in the order they arrive; 0 stands
  for the message of `__init__`.
-/
structure Server (K : Type) where
  node : Node K
  boxId : Nat
  nextGoal : Nat
  executions : List Execution
  history : List (Event K)

inductive Input (K : Type) where
| goal
| boundingBox (msg : BoundingBox K)
| timer
| cancel (goal : Nat)
| finish (goal : Nat)

variable {K : Type} [Field K] [LinearOrder K]

def Server.init (debugMode : Int) : Server K where
  node := .init debugMode
  boxId := 0
  nextGoal := 0
  executions := []
  history := []

------------------------------------------------------------
-- Steps
------------------------------------------------------------

namespace Server

/- `execute_callback` up to the wait. -/
def goal (s : Server K) : Server K :=
  { s with
    node := startGoal s.node
    nextGoal := s.nextGoal + 1
    executions := ⟨s.nextGoal, .new, false⟩ :: s.executions
    history := .started s.nextGoal :: s.history }

def boundingBox
    (msg : BoundingBox K) (s : Server K) : Server K :=
  { s with
    node := boundingBoxCallback msg s.node
    boxId := s.boxId + 1
    history := .received (s.boxId + 1) :: s.history }

/- A tick that returned; a set event releases all waits. -/
def ticked (r : TickResult K) (s : Server K) : Server K :=
  { s with
    node := r.node
    executions :=
      if r.node.finishEvent then
        s.executions.map fun e => { e with released := true }
      else s.executions
    history := .ticked ⟨s.node, s.boxId, r⟩ :: s.history }

/- `cancel_callback` accepts, and the handle records it. -/
def cancel (goal : Nat) (s : Server K) : Server K :=
  { s with
    executions :=
      s.executions.map fun e =>
        if e.goal = goal then
          { e with handle := e.handle.cancel }
        else e
    history := .cancelAccepted goal :: s.history }

/- `execute_callback` after the wait, for an execution. -/
def finish
    (e : Execution)
    (result : ApproachResult K)
    (s : Server K) : Server K :=
  { s with
    executions := s.executions.erase e
    history :=
      .returned e.goal e.handle.succeed result :: s.history }

end Server

/- The execution of a goal, if it has not returned. -/
def Server.execution?
    (s : Server K) (goal : Nat) : Option Execution :=
  s.executions.find? fun e => decide (e.goal = goal)

def Enabled (s : Server K) : Input K → Prop
| .goal => True
| .boundingBox _ => True
| .timer => True
| .cancel goal => (s.execution? goal).isSome
| .finish goal => ∃ e ∈ s.execution? goal, e.released = true

instance (s : Server K) (i : Input K) :
    Decidable (Enabled s i) := by
  unfold Enabled
  cases i <;> infer_instance

def step
    (trig : Trig K)
    (s : Server K) : Input K → Except PyError (Server K)
| .goal => .ok s.goal
| .boundingBox msg => .ok (s.boundingBox msg)
| .timer => do
    let r ← timerCallback trig s.node
    return s.ticked r
| .cancel goal => .ok (s.cancel goal)
| .finish goal =>
    match s.execution? goal with
    | none => .ok s
    | some e => do
        let result ← finishGoal s.node
        return s.finish e result

def machine (trig : Trig K) :
    Machine (Server K) (Input K) PyError where
  Enabled := Enabled
  step := step trig

instance (trig : Trig K) (s : Server K) (i : Input K) :
    Decidable ((machine trig).Enabled s i) :=
  inferInstanceAs (Decidable (Enabled s i))

------------------------------------------------------------
-- Reading The History
------------------------------------------------------------

/- The error of a tick in the approach state. -/
def Tick.error? (t : Tick K) : Option (Fin 2 → K) :=
  match t.before.actsOn, t.before.state with
  | some box, .approach =>
      if box.hasBox = true then
        match minIndex K box with
        | .ok i =>
            match boxCenter box i with
            | .ok center => some (controlError center)
            | .error _ => none
        | .error _ => none
      else none
  | _, _ => none

/- The tick acted on a message without a box. -/
def Tick.missed (t : Tick K) : Bool :=
  match t.before.actsOn with
  | some box => !box.hasBox
  | none => false

/- The tick acted on a target within tolerance. -/
def Tick.inTolerance (t : Tick K) : Bool :=
  match t.error? with
  | some error => decide (InTolerance error)
  | none => false

/-
  The ticks that acted on a message, back to the last start
  of a goal that `stop` selects.
-/
def ticksSince
    (stop : Nat → Bool) : List (Event K) → List (Tick K)
| [] => []
| .started goal :: earlier =>
    if stop goal then [] else ticksSince stop earlier
| .ticked t :: earlier =>
    if t.before.actsOn.isSome then
      t :: ticksSince stop earlier
    else ticksSince stop earlier
| _ :: earlier => ticksSince stop earlier

/- The ticks since any goal started. -/
def epoch (history : List (Event K)) : List (Tick K) :=
  ticksSince (fun _ => true) history

/- The ticks since a given goal started. -/
def goalTicks
    (goal : Nat) (history : List (Event K)) : List (Tick K) :=
  ticksSince (fun g => decide (g = goal)) history

/- The misses since the last tick that saw a box. -/
def misses (ticks : List (Tick K)) : Nat :=
  (ticks.takeWhile Tick.missed).length

/- The ticks within tolerance. -/
def hits (ticks : List (Tick K)) : Nat :=
  ticks.countP Tick.inTolerance

end Approach

end Manipulator
