import Mathlib.Logic.Basic

/-
  The tick engine of the behavior tree library.

  A tree is split into its static part, `TreeNode`, and the
  members its nodes change while they are ticked, `State`.
  The state is indexed by the tree, so that every node has
  exactly the members of its own class. Leaves and scripts
  are a parameter (`NodeModel`): the engine only sees the
  status a leaf returns and the world it leaves behind.

  Modelled node classes: `SequenceNode`, `RetryNode`,
  `PreconditionNode` and their bases `TreeNode`,
  `ControlNode` and `DecoratorNode`.

  Main declarations:
    * `NodeStatus`, `TreeNode`, `TreeNode.State`
    * `TreeNode.resetChild`, `TreeNode.haltNode`
    * `retryLoop`
    * `TreeNode.executeTick`, `TreeNode.rootTick`
-/

------------------------------------------------------------
-- Statuses And Trees
------------------------------------------------------------

namespace Manipulator

namespace BT

inductive NodeStatus where
| idle
| running
| success
| failure
| skipped
deriving DecidableEq, Repr

namespace NodeStatus

/- `isStatusActive`: neither IDLE nor SKIPPED. -/
def isActive : NodeStatus → Bool
| .idle => false
| .skipped => false
| _ => true

/- `isStatusCompleted`: SUCCESS or FAILURE. -/
def isCompleted : NodeStatus → Bool
| .success => true
| .failure => true
| _ => false

end NodeStatus

/-
  The static part of a tree over actions `A` and scripts
  `C`. A sequence is the plain `Sequence`, which never
  yields between two children.
-/
inductive TreeNode (A C : Type) : Type where
| action (action : A)
| sequence (children : List (TreeNode A C))
| retry (numAttempts : Int) (child : TreeNode A C)
| precondition
    (script : C)
    (elseReturn : NodeStatus)
    (child : TreeNode A C)

/- Members of `SequenceNode`, over its children's states. -/
structure SequenceState (σ : Type) where
  status : NodeStatus
  currentChildIdx : Nat
  skippedCount : Nat
  children : σ

/- Members of `RetryNode`. -/
structure RetryState (σ : Type) where
  status : NodeStatus
  tryCount : Int
  child : σ

/- Members of `PreconditionNode`. -/
structure PreconditionState (σ : Type) where
  status : NodeStatus
  childrenRunning : Bool
  child : σ

/- Why a tick threw. -/
inductive TickError (ε : Type) where
| raised (error : ε)
| idleStatus
| idleChild
| outOfFuel
deriving DecidableEq, Repr

/-
  What the engine needs to know of the leaves: how a leaf of
  a given status is ticked and halted, how a script is
  evaluated, and how the wake-up signal is emitted.
-/
structure NodeModel (A C W ε : Type) where
  tick : A → NodeStatus → W → Except ε (NodeStatus × W)
  halt : A → NodeStatus → W → W
  executor : C → W → Except ε (Bool × W)
  emitWakeUpSignal : W → W

namespace TreeNode

variable {A C W ε : Type}

mutual

/- The members of the nodes of a tree. -/
def State : TreeNode A C → Type
| .action _ => NodeStatus
| .sequence children => SequenceState (States children)
| .retry _ child => RetryState (State child)
| .precondition _ _ child => PreconditionState (State child)

/- The members of the nodes of a list of trees. -/
def States : List (TreeNode A C) → Type
| [] => Unit
| child :: children => State child × States children

end

mutual

/- A tree none of whose nodes was ticked yet. -/
def idle : (t : TreeNode A C) → State t
| .action _ => NodeStatus.idle
| .sequence children => ⟨.idle, 0, 0, idles children⟩
| .retry _ child => ⟨.idle, 0, idle child⟩
| .precondition _ _ child => ⟨.idle, false, idle child⟩

def idles : (ts : List (TreeNode A C)) → States ts
| [] => ()
| child :: children => (idle child, idles children)

end

/- `TreeNode::status`. -/
def status : (t : TreeNode A C) → State t → NodeStatus
| .action _, s => s
| .sequence _, s => s.status
| .retry _ _, s => s.status
| .precondition _ _ _, s => s.status

/- Overwrite the status of the node itself. -/
def setStatus
    (r : NodeStatus) :
    (t : TreeNode A C) → State t → State t
| .action _, _ => r
| .sequence _, s => { s with status := r }
| .retry _ _, s => { s with status := r }
| .precondition _ _ _, s => { s with status := r }

/- `TreeNode::resetStatus`. -/
def resetStatus
    (t : TreeNode A C) (s : State t) : State t :=
  setStatus .idle t s

------------------------------------------------------------
-- Halting
------------------------------------------------------------

mutual

/-
  `haltNode`. A halted precondition keeps
  `_children_running` as it is.
-/
def haltNode
    (M : NodeModel A C W ε) :
    (t : TreeNode A C) → State t → W → State t × W
| .action a, s, w => (.idle, M.halt a s w)
| .sequence children, s, w =>
    let (ss, w) := resetChildren M children s.children w
    (⟨.idle, 0, 0, ss⟩, w)
| .retry _ child, s, w =>
    let (c, w) :=
      if status child s.child = .running then
        haltNode M child s.child w
      else (s.child, w)
    (⟨.idle, 0, resetStatus child c⟩, w)
| .precondition _ _ child, s, w =>
    let (c, w) :=
      if status child s.child = .running then
        haltNode M child s.child w
      else (s.child, w)
    (⟨.idle, s.childrenRunning, resetStatus child c⟩, w)

/- `ControlNode::resetChildren`. -/
def resetChildren
    (M : NodeModel A C W ε) :
    (ts : List (TreeNode A C)) → States ts → W →
      States ts × W
| [], s, w => (s, w)
| child :: children, (s, ss), w =>
    let (c, w) :=
      if status child s = .running then
        haltNode M child s w
      else (s, w)
    let (ss, w) := resetChildren M children ss w
    ((resetStatus child c, ss), w)

end

/- `DecoratorNode::resetChild`. -/
def resetChild
    (M : NodeModel A C W ε)
    (child : TreeNode A C)
    (s : State child)
    (w : W) : State child × W :=
  let (c, w) :=
    if status child s = .running then
      haltNode M child s w
    else (s, w)
  (resetStatus child c, w)

------------------------------------------------------------
-- Ticking
------------------------------------------------------------

/-
  The end of `TreeNode::executeTick`: the returned status
  becomes the node's own unless it is SKIPPED, and setting
  IDLE is refused.
-/
def finishTick
    (t : TreeNode A C)
    (r : NodeStatus)
    (s : State t)
    (w : W) :
    Except (TickError ε) (NodeStatus × State t × W) :=
  match r with
  | .skipped => .ok (.skipped, s, w)
  | .idle => .error .idleStatus
  | r => .ok (r, setStatus r t s, w)

/- The end of `DecoratorNode::executeTick`. -/
def resetCompletedChild
    (child : TreeNode A C)
    (s : State child) : State child :=
  if (status child s).isCompleted then
    resetStatus child s
  else s

/-
  How the loop of `SequenceNode::tick` ended: at a child
  that returned `stop`, or past the last child.
-/
structure LoopResult (σ W : Type) where
  stop : Option NodeStatus
  idx : Nat
  skipped : Nat
  children : σ
  world : W

/- One more child lies before the part that was ticked. -/
def LoopResult.after
    {σ τ : Type}
    (s : σ)
    (r : LoopResult τ W) : LoopResult (σ × τ) W :=
  ⟨r.stop, r.idx + 1, r.skipped, (s, r.children), r.world⟩

/-
  The loop of `RetryNode::tick` over the child's own tick.
  The wake-up instance is set on every node of a tree that
  is being ticked, so `requiresWakeUp()` is true.
-/
def retryLoop
    {σ : Type}
    (tickChild :
      σ → W → Except (TickError ε) (NodeStatus × σ × W))
    (childStatus : σ → NodeStatus)
    (resetChild : σ → W → σ × W)
    (emitWakeUpSignal : W → W)
    (maxAttempts : Int) :
    Nat → Int → σ → W →
      Except (TickError ε) (NodeStatus × Int × σ × W)
| 0, _, _, _ => .error .outOfFuel
| fuel + 1, tryCount, child, w =>
    if tryCount < maxAttempts ∨ maxAttempts = -1 then do
      let prevStatus := childStatus child
      let (r, child, w) ← tickChild child w
      match r with
      | .success =>
          let (child, w) := resetChild child w
          return (.success, 0, child, w)
      | .failure =>
          let tryCount := tryCount + 1
          let (child, w) := resetChild child w
          -- a child that failed in its first tick yields
          if prevStatus = .idle ∧
              (tryCount < maxAttempts ∨ maxAttempts = -1) then
            return (.running, tryCount, child,
              emitWakeUpSignal w)
          else
            retryLoop tickChild childStatus resetChild
              emitWakeUpSignal maxAttempts fuel tryCount
              child w
      | .running => return (.running, tryCount, child, w)
      | .skipped =>
          let (child, w) := resetChild child w
          return (.skipped, tryCount, child, w)
      | .idle => .error .idleChild
    else
      .ok (.failure, 0, child, w)

/-
  No child fails twice in one tick without yielding, so
  three passes of the loop are never used up.
-/
def retryFuel : Nat := 3

mutual

/- `executeTick` with the `tick` of the node's own class. -/
def executeTick
    (M : NodeModel A C W ε) :
    (t : TreeNode A C) → State t → W →
      Except (TickError ε) (NodeStatus × State t × W)
| .action a, s, w =>
    match M.tick a s w with
    | .ok (r, w) => finishTick (.action a) r s w
    | .error e => .error (.raised e)
| .sequence children, s, w => do
    let skipped := if s.status.isActive then s.skippedCount else 0
    let r ← tickChildren M children s.children
      s.currentChildIdx skipped w
    match r.stop with
    | some .failure =>
        let (ss, w) := resetChildren M children r.children r.world
        finishTick (.sequence children) .failure
          ⟨.running, 0, r.skipped, ss⟩ w
    | some stop =>
        finishTick (.sequence children) stop
          ⟨.running, r.idx, r.skipped, r.children⟩ r.world
    | none =>
        let verdict :=
          if r.skipped = children.length then .skipped
          else .success
        if r.idx = children.length then
          let (ss, w) :=
            resetChildren M children r.children r.world
          finishTick (.sequence children) verdict
            ⟨.running, 0, 0, ss⟩ w
        else
          finishTick (.sequence children) verdict
            ⟨.running, r.idx, r.skipped, r.children⟩ r.world
| .retry maxAttempts child, s, w => do
    let (r, tryCount, c, w) ←
      retryLoop (executeTick M child) (status child)
        (resetChild M child) M.emitWakeUpSignal maxAttempts
        retryFuel s.tryCount s.child w
    finishTick (.retry maxAttempts child) r
      ⟨.running, tryCount, resetCompletedChild child c⟩ w
| .precondition script elseReturn child, s, w =>
    let condition :=
      if s.childrenRunning then .ok (true, w)
      else M.executor script w
    match condition with
    | .error e => .error (.raised e)
    | .ok (false, w) =>
        finishTick (.precondition script elseReturn child)
          elseReturn
          ⟨s.status, false, resetCompletedChild child s.child⟩ w
    | .ok (true, w) => do
        let (r, c, w) ← executeTick M child s.child w
        if r.isCompleted then
          let (c, w) := resetChild M child c w
          finishTick (.precondition script elseReturn child) r
            ⟨s.status, false, resetCompletedChild child c⟩ w
        else
          finishTick (.precondition script elseReturn child) r
            ⟨s.status, true, resetCompletedChild child c⟩ w

/-
  The loop of `SequenceNode::tick` from the child with index
  `idx` on. The children before it are left alone.
-/
def tickChildren
    (M : NodeModel A C W ε) :
    (ts : List (TreeNode A C)) → States ts →
      (idx skipped : Nat) → W →
      Except (TickError ε) (LoopResult (States ts) W)
| [], s, idx, skipped, w => .ok ⟨none, idx, skipped, s, w⟩
| _ :: children, (s, ss), idx + 1, skipped, w => do
    let r ← tickChildren M children ss idx skipped w
    return r.after s
| child :: children, (s, ss), 0, skipped, w => do
    let (r, s, w) ← executeTick M child s w
    match r with
    | .running => return ⟨some .running, 0, skipped, (s, ss), w⟩
    | .failure => return ⟨some .failure, 0, skipped, (s, ss), w⟩
    | .success => do
        let r ← tickChildren M children ss 0 skipped w
        return r.after s
    | .skipped => do
        let r ← tickChildren M children ss 0 (skipped + 1) w
        return r.after s
    | .idle => .error .idleChild

end

/-
  One tick of the root inside `Tree::tickRoot`: a completed
  root is reset to IDLE.
-/
def rootTick
    (M : NodeModel A C W ε)
    (t : TreeNode A C)
    (s : State t)
    (w : W) :
    Except (TickError ε) (NodeStatus × State t × W) := do
  let (r, s, w) ← executeTick M t s w
  if r.isCompleted then
    return (r, resetStatus t s, w)
  else
    return (r, s, w)

end TreeNode

end BT

end Manipulator
