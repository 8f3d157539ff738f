import Manipulator.Messages

/-
  The client side of an action, `RosActionNode`.

  Only the members that a tick reads are kept, and the
  callbacks that change them. A goal handle is the number of
  its goal. No node of the mission overrides `onFeedback`,
  so the case of a stop by feedback does not arise.

  Main declarations:
    * `Client`, `Client.reset`, `Client.send`
    * `Client.respond`, `Client.resultCallback`
    * `Client.runningTick`
-/

------------------------------------------------------------
-- Members
------------------------------------------------------------

namespace Manipulator

namespace Mission

/- The codes of `ActionNodeErrorCode` that are passed on. -/
inductive ActionError where
| serverUnreachable
| sendGoalTimeout
| goalRejectedByServer
| actionAborted
| actionCancelled
deriving DecidableEq, Repr

/-
  `WrappedResult`; its code is how the server ended the goal.
  The results of move and conveyor goals carry only
  `success`, and no node reads them.
-/
structure WrappedResult (K : Type) where
  goal : Nat
  code : Terminal
  result : ApproachResult K
deriving DecidableEq, Repr

/-
  `future_goal_handle_`: no request, a pending one, or one
  that was answered, with a null handle for a rejection.
-/
inductive Future where
| invalid
| waiting (goal : Nat)
| ready (handle : Option Nat)
deriving DecidableEq, Repr

/- A `result_` whose code is UNKNOWN is `none`. -/
structure Client (K : Type) where
  futureGoalHandle : Future
  goalHandle : Option Nat
  goalReceived : Bool
  result : Option (WrappedResult K)

/- Why a tick or a callback of the mission throws. -/
inductive MissionError where
| emptyEntry
| futureNoState
| nullGoalHandle
| notCompleted
deriving DecidableEq, Repr

------------------------------------------------------------
-- Callbacks
------------------------------------------------------------

namespace Client

variable {K : Type}

def init : Client K where
  futureGoalHandle := .invalid
  goalHandle := none
  goalReceived := false
  result := none

/- The head of a first tick. `goal_handle_` is kept. -/
def reset (c : Client K) : Client K :=
  { c with
    goalReceived := false
    futureGoalHandle := .invalid
    result := none }

/- `async_send_goal`. -/
def send (goal : Nat) (c : Client K) : Client K :=
  { c with futureGoalHandle := .waiting goal }

/-
  A goal response completes the future of its request, which
  the node may have dropped by then.
-/
def respond
    (goal : Nat) (handle : Option Nat) (c : Client K) :
    Client K :=
  if c.futureGoalHandle = .waiting goal then
    { c with futureGoalHandle := .ready handle }
  else c

/- `result_callback`. -/
def resultCallback
    (r : WrappedResult K) (c : Client K) :
    Except MissionError (Client K) :=
  match c.goalHandle with
  | none => .error .nullGoalHandle
  | some handle =>
      if handle = r.goal then .ok { c with result := some r }
      else .ok c

------------------------------------------------------------
-- A Running Tick
------------------------------------------------------------

/- How a running tick ends. -/
inductive Verdict (K : Type) where
| running
| onFailure (error : ActionError)
| onResultReceived (r : WrappedResult K)

/- The third case of a running tick. -/
def checkResult (c : Client K) : Verdict K :=
  match c.result with
  | none => .running
  | some r =>
      match r.code with
      | .aborted => .onFailure .actionAborted
      | .canceled => .onFailure .actionCancelled
      | .succeeded => .onResultReceived r

/-
  A tick of a running node. `timeout` is the comparison of
  the clock with `time_goal_sent_`.
-/
def runningTick
    (timeout : Bool) (c : Client K) :
    Except MissionError (Verdict K × Client K) :=
  if c.goalReceived then
    .ok (c.checkResult, c)
  else
    match c.futureGoalHandle with
    | .invalid => .error .futureNoState
    | .waiting _ =>
        if timeout then
          .ok (.onFailure .sendGoalTimeout, c)
        else
          .ok (.running, c)
    | .ready handle =>
        let c :=
          { c with
            goalReceived := true
            goalHandle := handle
            futureGoalHandle := .invalid }
        match handle with
        | none => .ok (.onFailure .goalRejectedByServer, c)
        | some _ => .ok (c.checkResult, c)

end Client

end Mission

end Manipulator
