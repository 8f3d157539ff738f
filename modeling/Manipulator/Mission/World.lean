import Manipulator.BehaviorTree.Node
import Manipulator.Mission.Client
import Manipulator.Move

/-
  The world that the mission tree is ticked in, and the
  leaves of the tree.

  The world holds the blackboard, the members of the leaves,
  the goals that were ever sent, and the approach server. The
  history records what the mission did and what was published
  on `pose_data`, the newest event first.

  Main declarations:
    * `NodeId`, `Blackboard`, `MovePorts`
    * `GoalRecord`, `Event`, `World`
    * `RosAction`, `approach`, `smoothMove`, `conveyor`
    * `Action`, `Script`, `mission`
-/

------------------------------------------------------------
-- Nodes
------------------------------------------------------------

namespace Manipulator

namespace Mission

/- The labels that the tree tests after a pick. -/
inductive Bin where
| strawberry
| cola
| orange
| grape
deriving DecidableEq, Repr

/- The goals of a pick, in their order. -/
inductive PickStep where
| reach
| grasp
| raise
deriving DecidableEq, Repr

/- The goals of a bin, in their order. -/
inductive BinStep where
| carry
| lower
| release
| lift
| home
deriving DecidableEq, Repr

/- The nodes that send move goals. -/
inductive Step where
| pick (step : PickStep)
| bin (bin : Bin) (step : BinStep)
deriving DecidableEq, Repr

/- The nodes that send goals. -/
inductive NodeId where
| approach
| move (step : Step)
| conveyor
deriving DecidableEq, Repr

/- The sleeping nodes of the tree. -/
inductive SleepId where
| start
| ready
| grasped
| cycle
deriving DecidableEq, Repr

/- `action_name`. -/
inductive ActionName where
| approach
| move
| conveyor
deriving DecidableEq, Repr

------------------------------------------------------------
-- The Blackboard
------------------------------------------------------------

/- The numeric entries of the blackboard. -/
inductive Key where
| goalX
| goalY
| goalZ
| goalYaw
| speed
deriving DecidableEq, Repr

/- An entry that was never written is `none`. -/
structure Blackboard (K : Type) where
  entry : Key → Option K
  label : Option String

/- A port holds a literal or points to an entry. -/
inductive Port (K : Type) where
| value (value : K)
| entry (key : Key)

structure PosePorts (K : Type) where
  x : Port K
  y : Port K
  z : Port K
  yaw : Port K

/- The ports of a `smooth_move`. -/
structure MovePorts (K : Type) where
  s : PosePorts K
  g : PosePorts K
  speed : Port K
  grip : String

/- The entry of a result that has the name of a key. -/
def resultEntry
    {K : Type} (r : ApproachResult K) : Key → Option K
| .goalX => some r.goalX
| .goalY => some r.goalY
| .goalZ => some r.goalZ
| .goalYaw => some r.goalYaw
| .speed => none

namespace Blackboard

variable {K : Type}

def init : Blackboard K := ⟨fun _ => none, none⟩

def set (key : Key) (value : K) (b : Blackboard K) :
    Blackboard K :=
  { b with entry := Function.update b.entry key (some value) }

/- The outputs of a successful approach. -/
def setOutputs (r : ApproachResult K) (b : Blackboard K) :
    Blackboard K where
  entry := fun key => (resultEntry r key).or (b.entry key)
  label := some r.label

/- `getInput<float>(..).value()`. -/
def getInput (b : Blackboard K) :
    Port K → Except MissionError K
| .value value => .ok value
| .entry key =>
    match b.entry key with
    | some value => .ok value
    | none => .error .emptyEntry

end Blackboard

------------------------------------------------------------
-- Goals
------------------------------------------------------------

inductive Goal (K : Type) where
| approach
| move (goal : MoveGoal K)
| conveyor
deriving DecidableEq, Repr

def Goal.actionName {K : Type} : Goal K → ActionName
| .approach => .approach
| .move _ => .move
| .conveyor => .conveyor

/- A goal whose execution publishes on `pose_data`. -/
def Goal.Arm {K : Type} (goal : Goal K) : Prop :=
  goal.actionName ≠ .conveyor

/-
  What has become of a goal request: it is on its way, or
  its goal executes, or the goal has ended. The thread of a
  move goal has `left` its loop before it calls `succeed`.
-/
inductive Stage (K : Type) where
| requested
| executing (left : Bool)
| ended (code : Terminal) (result : ApproachResult K)

/-
  A goal that was sent, and whether its response and its
  result have come back to the node that sent it.
-/
structure GoalRecord (K : Type) where
  node : NodeId
  goal : Goal K
  stage : Stage K
  responded : Bool
  delivered : Bool

/- The request is on its way or the goal executes. -/
def GoalRecord.Alive {K : Type} (r : GoalRecord K) : Prop :=
  ∀ code result, r.stage ≠ .ended code result

def GoalRecord.Executing
    {K : Type} (r : GoalRecord K) : Prop :=
  ∃ left, r.stage = .executing left

/- The stage is the one of a goal that executes. -/
def Stage.isExecuting {K : Type} : Stage K → Bool
| .executing _ => true
| _ => false

theorem GoalRecord.executing_of_stage
    {K : Type} {r : GoalRecord K}
    (hStage : r.stage.isExecuting = true) : r.Executing := by
  unfold GoalRecord.Executing
  cases hCase : r.stage with
  | executing left => exact ⟨left, rfl⟩
  | requested => simp [hCase, Stage.isExecuting] at hStage
  | ended code result =>
      simp [hCase, Stage.isExecuting] at hStage

------------------------------------------------------------
-- Worlds
------------------------------------------------------------

inductive Event (K : Type) where
-- an approach node starts, and with it a cycle
| cycleBegan
| read (key : Key) (value : K)
| readLabel (label : String)
| sent (goal : Nat) (node : NodeId) (data : Goal K)
| failed (node : NodeId) (error : ActionError)
| approached (result : ApproachResult K)
-- what the servers did
| started (goal : Nat) (action : ActionName)
| commanded (pose : Pos (Option K))
| ended
    (goal : Nat)
    (action : ActionName)
    (code : Terminal)
    (result : ApproachResult K)

/- Goals are numbered in the order they are sent. -/
structure World (K S : Type) where
  blackboard : Blackboard K
  client : NodeId → Client K
  timerWaiting : SleepId → Bool
  -- `action_server_is_ready`
  ready : ActionName → Bool
  timeout : Bool
  goals : List (GoalRecord K)
  server : S
  history : List (Event K)

namespace World

variable {K S : Type}

def init (server : S) : World K S where
  blackboard := .init
  client := fun _ => .init
  timerWaiting := fun _ => false
  ready := fun _ => false
  timeout := false
  goals := []
  server := server
  history := []

def log (event : Event K) (w : World K S) : World K S :=
  { w with history := event :: w.history }

def setClient
    (n : NodeId) (c : Client K) (w : World K S) : World K S :=
  { w with client := Function.update w.client n c }

def setTimer
    (id : SleepId) (waiting : Bool) (w : World K S) :
    World K S :=
  { w with
    timerWaiting := Function.update w.timerWaiting id waiting }

@[simp] theorem setClient_self
    (n : NodeId) (c : Client K) (w : World K S) :
    (w.setClient n c).client n = c := by
  simp [setClient]

theorem setClient_of_ne
    {m n : NodeId}
    (hNe : m ≠ n)
    (c : Client K) (w : World K S) :
    (w.setClient n c).client m = w.client m := by
  simp [setClient, hNe]

@[simp] theorem setClient_client
    (n : NodeId) (w : World K S) :
    w.setClient n (w.client n) = w := by
  simp [setClient]

@[simp] theorem setClient_history
    (n : NodeId) (c : Client K) (w : World K S) :
    (w.setClient n c).history = w.history := rfl

/- `async_send_goal` puts a request on its way. -/
def sendGoal
    (n : NodeId) (goal : Goal K) (w : World K S) : World K S :=
  { w.setClient n ((w.client n).send w.goals.length) with
    goals := w.goals ++ [⟨n, goal, .requested, false, false⟩]
    history := .sent w.goals.length n goal :: w.history }

end World

------------------------------------------------------------
-- Nodes That Send Goals
------------------------------------------------------------

variable {K S : Type}

/- What a subclass of `RosActionNode` adds to it. -/
structure RosAction (K : Type) where
  node : NodeId
  -- the goal, and the entries that were read for it
  setGoal :
    Blackboard K → Except MissionError (Goal K × List (Event K))
  onResultReceived :
    WrappedResult K → Blackboard K →
      BT.NodeStatus × Blackboard K × List (Event K)

namespace RosAction

/- The first tick of a `RosActionNode`. -/
def onStart
    (a : RosAction K) (w : World K S) :
    Except MissionError (BT.NodeStatus × World K S) := do
  let w := w.setClient a.node (w.client a.node).reset
  let (goal, reads) ← a.setGoal w.blackboard
  let w := { w with history := reads ++ w.history }
  if w.ready goal.actionName then
    return (.running, w.sendGoal a.node goal)
  else
    return (.failure, w.log (.failed a.node .serverUnreachable))

/- A later tick of a `RosActionNode`. -/
def onRunning
    (a : RosAction K) (w : World K S) :
    Except MissionError (BT.NodeStatus × World K S) := do
  let (verdict, c) ← (w.client a.node).runningTick w.timeout
  let w := w.setClient a.node c
  match verdict with
  | .running => return (.running, w)
  | .onFailure error =>
      return (.failure, w.log (.failed a.node error))
  | .onResultReceived r =>
      let (status, blackboard, events) :=
        a.onResultReceived r w.blackboard
      let w :=
        { w with
          blackboard := blackboard
          history := events ++ w.history }
      -- `CheckStatus`
      if status.isCompleted then return (status, w)
      else .error .notCompleted

end RosAction

/- `approach`; its goal has no fields. -/
def approach : RosAction K where
  node := .approach
  setGoal := fun _ => .ok (.approach, [.cycleBegan])
  onResultReceived := fun r b =>
    if r.code = .succeeded then
      (.success, b.setOutputs r.result, [.approached r.result])
    else (.failure, b, [])

/- `conveyor`; its goal has no fields. -/
def conveyor : RosAction K where
  node := .conveyor
  setGoal := fun _ => .ok (.conveyor, [])
  onResultReceived := fun r b =>
    if r.code = .succeeded then (.success, b, [])
    else (.failure, b, [])

namespace MovePorts

/- The ports in the order `setGoal` reads them. -/
def list (p : MovePorts K) : List (Port K) :=
  [p.s.x, p.s.y, p.s.z, p.s.yaw,
    p.g.x, p.g.y, p.g.z, p.g.yaw, p.speed]

/- The entries that the ports point to, the last one first. -/
def reads (p : MovePorts K) (b : Blackboard K) :
    List (Event K) :=
  (p.list.filterMap fun port =>
    match port with
    | .value _ => none
    | .entry key => (b.entry key).map (.read key)).reverse

/- `smooth_move::setGoal`. -/
def setGoal (p : MovePorts K) (b : Blackboard K) :
    Except MissionError (MoveGoal K) := do
  let sX ← b.getInput p.s.x
  let sY ← b.getInput p.s.y
  let sZ ← b.getInput p.s.z
  let sYaw ← b.getInput p.s.yaw
  let gX ← b.getInput p.g.x
  let gY ← b.getInput p.g.y
  let gZ ← b.getInput p.g.z
  let gYaw ← b.getInput p.g.yaw
  let speed ← b.getInput p.speed
  return {
    sX := sX, sY := sY, sZ := sZ, sYaw := sYaw
    speed := speed
    gX := gX, gY := gY, gZ := gZ, gYaw := gYaw
    grip := p.grip }

end MovePorts

/- `smooth_move`, at one place of the tree. -/
def smoothMove (step : Step) (ports : MovePorts K) :
    RosAction K where
  node := .move step
  setGoal := fun b => do
    let goal ← ports.setGoal b
    return (.move goal, ports.reads b)
  onResultReceived := fun r b =>
    if r.code = .succeeded then (.success, b, [])
    else (.failure, b, [])

------------------------------------------------------------
-- Leaves
------------------------------------------------------------

/- The leaves of the tree, with their ports. -/
inductive Action (K : Type) where
| sleep (id : SleepId) (msec : Nat)
| setBlackboard (key : Key) (value : K)
-- the publisher `move`
| publish (pose : Pos K)
| rosAction (action : RosAction K)
| alwaysFailure
| finish

/- The conditions `label == ..` and `label != ..`. -/
inductive Script where
| labelIs (label : String)
| labelIsNot (label : String)
deriving DecidableEq, Repr

/- `SleepNode::onStart`. -/
def sleepStart
    (id : SleepId) (msec : Nat) (w : World K S) :
    BT.NodeStatus × World K S :=
  if msec = 0 then (.success, w)
  else (.running, w.setTimer id true)

/- `SleepNode::onRunning`. -/
def sleepRunning
    (id : SleepId) (w : World K S) :
    BT.NodeStatus × World K S :=
  if w.timerWaiting id then (.running, w) else (.success, w)

/- A message of numbers on `pose_data`. -/
def World.command
    (pose : Pos K) (w : World K S) : World K S :=
  w.log (.commanded (Move.finite pose))

@[simp] theorem World.command_history
    (pose : Pos K) (w : World K S) :
    (w.command pose).history =
      .commanded (Move.finite pose) :: w.history := rfl

/-
  The tick of a leaf, which is IDLE in its first tick and
  RUNNING in the others.
-/
def tick :
    Action K → BT.NodeStatus → World K S →
      Except MissionError (BT.NodeStatus × World K S)
| .sleep id msec, .idle, w => .ok (sleepStart id msec w)
| .sleep id _, _, w => .ok (sleepRunning id w)
| .setBlackboard key value, _, w =>
    .ok (.success,
      { w with blackboard := w.blackboard.set key value })
| .publish pose, _, w => .ok (.success, w.command pose)
| .rosAction a, .idle, w => a.onStart w
| .rosAction a, _, w => a.onRunning w
| .alwaysFailure, _, w => .ok (.failure, w)
| .finish, _, w => .ok (.running, w)

/- The value of `label` that a condition compares with. -/
def readLabel (w : World K S) :
    Except MissionError (String × World K S) :=
  match w.blackboard.label with
  | some label => .ok (label, w.log (.readLabel label))
  | none => .error .emptyEntry

def executor :
    Script → World K S → Except MissionError (Bool × World K S)
| .labelIs label, w => do
    let (value, w) ← readLabel w
    return (decide (value = label), w)
| .labelIsNot label, w => do
    let (value, w) ← readLabel w
    return (decide (value ≠ label), w)

/-
  The leaves as the engine sees them. No node of this tree
  is halted while it is running, and the wake-up signal only
  decides when the next tick comes.
-/
def mission (K S : Type) :
    BT.NodeModel (Action K) Script (World K S) MissionError
    where
  tick := tick
  halt := fun _ _ w => w
  executor := executor
  emitWakeUpSignal := id

end Mission

end Manipulator
