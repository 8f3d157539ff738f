import Manipulator.BehaviorTree.Triple
import Manipulator.Machine
import Manipulator.Mission.Tree

/-
  The mission, the network and the action servers as one
  machine.

  A request, a response and a result each stay on their way
  until a step of their own delivers them, in any order. The
  approach server is a parameter, so that one theorem speaks
  about the server of the repository and about one that
  succeeds or fails with anything. It may publish at any
  time. Move and conveyor goals end as they like, but a move
  goal that succeeds has left the loop that publishes its
  messages.

  Main declarations:
    * `ApproachServer`
    * `EnvInput`, `World.react`
    * `Input`, `State`, `machine`
    * `World.Timely`, `Timely`
-/

------------------------------------------------------------
-- The Approach Server
------------------------------------------------------------

namespace Manipulator

namespace Mission

/- What a step of the approach server shows outside. -/
inductive Report (K : Type) where
| silent
| published (pose : Pos K)
| returned
    (goal : Nat)
    (code : Terminal)
    (result : ApproachResult K)

/-
  An approach server with states `S` and inputs `I`. A goal
  that was accepted executes until it returns. The gripper is
  open in all messages, which may come while no goal
  executes: a callback publishes after it has released the
  goal.
-/
structure ApproachServer (K S I : Type) where
  init : S
  goal : Nat → S → S
  step : S → I → Option (S × Report K)
  executing : S → List Nat
  executing_init : executing init = []
  executing_goal :
    ∀ goal' s, executing (goal goal' s) = goal' :: executing s
  executing_silent :
    ∀ s i s', step s i = some (s', .silent) →
      executing s' = executing s
  executing_published :
    ∀ s i s' pose, step s i = some (s', .published pose) →
      executing s' = executing s ∧ pose.grip = "open"
  executing_returned :
    ∀ s i s' goal' code result,
      step s i = some (s', .returned goal' code result) →
        (executing s).Perm (goal' :: executing s')

------------------------------------------------------------
-- Steps Outside The Tree
------------------------------------------------------------

variable {K S I : Type}

inductive EnvInput (K I : Type) where
-- what the next ticks see of the servers and of the clock
| observe (ready : ActionName → Bool) (timeout : Bool)
| timer (id : SleepId)
| accept (goal : Nat)
| respond (goal : Nat)
-- one pass of the loop of a move goal
| iterate (goal : Nat) (t : Double K)
| succeed (goal : Nat)
| abort (goal : Nat)
| approach (input : I)
| deliver (goal : Nat)

namespace World

def setGoal
    (goal : Nat) (r : GoalRecord K) (w : World K S) :
    World K S :=
  { w with goals := w.goals.set goal r }

@[simp] theorem setGoal_history
    (goal : Nat) (r : GoalRecord K) (w : World K S) :
    (w.setGoal goal r).history = w.history := rfl

/- The stage of a goal changes, and an event says so. -/
def setStage
    (goal : Nat) (r : GoalRecord K) (stage : Stage K)
    (event : Event K) (w : World K S) : World K S :=
  (w.setGoal goal { r with stage := stage }).log event

@[simp] theorem setStage_history
    (goal : Nat) (r : GoalRecord K) (stage : Stage K)
    (event : Event K) (w : World K S) :
    (w.setStage goal r stage event).history =
      event :: w.history := rfl

/-
  A request reaches its server. All three servers accept
  every goal and execute it at once.
-/
def accept
    (A : ApproachServer K S I)
    (goal : Nat) (r : GoalRecord K) (w : World K S) :
    Option (World K S) :=
  match r.stage with
  | .requested =>
      let event := .started goal r.goal.actionName
      let w := w.setStage goal r (.executing false) event
      if r.goal.actionName = .approach then
        some { w with server := A.goal goal w.server }
      else
        some w
  | _ => none

/- The response of a server that accepted a goal. -/
def respond
    (goal : Nat) (r : GoalRecord K) (w : World K S) :
    Option (World K S) :=
  match r.stage with
  | .requested => none
  | _ =>
      if r.responded then none
      else
        let c := (w.client r.node).respond goal (some goal)
        let w := w.setGoal goal { r with responded := true }
        some (w.setClient r.node c)

/-
  One pass of the loop of `move::execute`, with the `t` that
  it computes from the clock.
-/
def iterate
    [Field K] [LinearOrder K]
    (goal : Nat) (r : GoalRecord K) (t : Double K)
    (w : World K S) : Option (World K S) :=
  match r.goal, r.stage with
  | .move data, .executing false =>
      let t := t.clampOne
      let stage := .executing (decide t.GeOne)
      let event := .commanded (Move.message data t)
      some (w.setStage goal r stage event)
  | _, _ => none

/- What nobody reads of the result of other goals. -/
def blankResult [Field K] : ApproachResult K where
  goalX := 0
  goalY := 0
  goalZ := 0
  goalYaw := 0
  label := ""
  success := true

/- A goal ends. -/
def finish
    (goal : Nat) (r : GoalRecord K)
    (code : Terminal) (result : ApproachResult K)
    (w : World K S) : World K S :=
  w.setStage goal r (.ended code result)
    (.ended goal r.goal.actionName code result)

@[simp] theorem finish_history
    (goal : Nat) (r : GoalRecord K)
    (code : Terminal) (result : ApproachResult K)
    (w : World K S) :
    (w.finish goal r code result).history =
      .ended goal r.goal.actionName code result :: w.history :=
  rfl

/- A move or conveyor goal succeeds. -/
def succeed
    [Field K]
    (goal : Nat) (r : GoalRecord K) (w : World K S) :
    Option (World K S) :=
  match r.goal, r.stage with
  | .move _, .executing true =>
      some (w.finish goal r .succeeded blankResult)
  | .conveyor, .executing _ =>
      some (w.finish goal r .succeeded blankResult)
  | _, _ => none

/- A move or conveyor goal fails. -/
def abort
    [Field K]
    (goal : Nat) (r : GoalRecord K) (w : World K S) :
    Option (World K S) :=
  match r.goal, r.stage with
  | .approach, _ => none
  | _, .executing _ =>
      some (w.finish goal r .aborted blankResult)
  | _, _ => none

/- A step of the approach server. -/
def approach
    (A : ApproachServer K S I)
    (input : I) (w : World K S) : Option (World K S) :=
  match A.step w.server input with
  | none => none
  | some (s, .silent) => some { w with server := s }
  | some (s, .published pose) =>
      some ({ w with server := s }.command pose)
  | some (s, .returned goal code result) =>
      match w.goals[goal]? with
      | none => none
      | some r =>
          match r.stage with
          | .executing _ =>
              let w := { w with server := s }
              some (w.finish goal r code result)
          | _ => none

/-
  The result of a goal comes back. It is asked for in the
  tick that takes the response over, and a callback that
  finds no goal handle ends the mission.
-/
def deliver
    (goal : Nat) (r : GoalRecord K) (w : World K S) :
    Option (World K S) :=
  let c := w.client r.node
  match r.stage with
  | .ended code result =>
      if r.responded = true ∧ r.delivered = false ∧
          c.futureGoalHandle ≠ .ready (some goal) then
        match c.resultCallback ⟨goal, code, result⟩ with
        | .ok c =>
            let w := w.setGoal goal { r with delivered := true }
            some (w.setClient r.node c)
        | .error _ => none
      else none
  | _ => none

/- A step outside the tree, where it is possible. -/
def react
    [Field K] [LinearOrder K]
    (A : ApproachServer K S I)
    (w : World K S) : EnvInput K I → Option (World K S)
| .observe ready timeout =>
    some { w with ready := ready, timeout := timeout }
| .timer id => some (w.setTimer id false)
| .accept goal => do w.accept A goal (← w.goals[goal]?)
| .respond goal => do w.respond goal (← w.goals[goal]?)
| .iterate goal t => do w.iterate goal (← w.goals[goal]?) t
| .succeed goal => do w.succeed goal (← w.goals[goal]?)
| .abort goal => do w.abort goal (← w.goals[goal]?)
| .approach input => w.approach A input
| .deliver goal => do w.deliver goal (← w.goals[goal]?)

end World

------------------------------------------------------------
-- The Machine
------------------------------------------------------------

section Machines

variable [Field K] [LinearOrder K]

inductive Input (K I : Type) where
| tick
| env (input : EnvInput K I)

/- The members of the tree's nodes, and the world. -/
structure State (K S : Type) [Field K] where
  tree : (main3 K).State
  world : World K S

def State.init (A : ApproachServer K S I) : State K S where
  tree := BT.TreeNode.idle (main3 K)
  world := .init A.init

def Enabled
    (A : ApproachServer K S I)
    (s : State K S) : Input K I → Prop
| .tick => True
| .env input => (s.world.react A input).isSome

instance
    (A : ApproachServer K S I) (s : State K S) :
    (i : Input K I) → Decidable (Enabled A s i)
| .tick => .isTrue trivial
| .env input =>
    inferInstanceAs (Decidable (s.world.react A input).isSome)

def step
    (A : ApproachServer K S I)
    (s : State K S) :
    Input K I → Except (BT.TickError MissionError) (State K S)
| .tick => do
    let (_, tree, world) ←
      BT.TreeNode.rootTick (mission K S) (main3 K) s.tree
        s.world
    return ⟨tree, world⟩
| .env input =>
    match s.world.react A input with
    | some w => .ok { s with world := w }
    | none => .ok s

def machine (A : ApproachServer K S I) :
    Machine (State K S) (Input K I) (BT.TickError MissionError)
    where
  Enabled := Enabled A
  step := step A

instance
    (A : ApproachServer K S I)
    (s : State K S) (i : Input K I) :
    Decidable ((machine A).Enabled s i) :=
  inferInstanceAs (Decidable (Enabled A s i))

------------------------------------------------------------
-- Late Messages
------------------------------------------------------------

def Report.Publishes : Report K → Prop
| .published _ => True
| _ => False

instance : (shown : Report K) → Decidable shown.Publishes
| .silent => .isFalse id
| .published _ => .isTrue trivial
| .returned _ _ _ => .isFalse id

/-
  If the step makes the approach server publish, then a goal
  of the server executes.
-/
def World.Timely
    (A : ApproachServer K S I)
    (w : World K S) : EnvInput K I → Prop
| .approach input =>
    ∀ r ∈ A.step w.server input, r.2.Publishes →
      A.executing w.server ≠ []
| _ => True

instance
    (A : ApproachServer K S I)
    (w : World K S) :
    (input : EnvInput K I) → Decidable (w.Timely A input)
| .approach input =>
    inferInstanceAs (Decidable
      (∀ r ∈ A.step w.server input, r.2.Publishes →
        A.executing w.server ≠ []))
| .observe _ _ => .isTrue trivial
| .timer _ => .isTrue trivial
| .accept _ => .isTrue trivial
| .respond _ => .isTrue trivial
| .iterate _ _ => .isTrue trivial
| .succeed _ => .isTrue trivial
| .abort _ => .isTrue trivial
| .deliver _ => .isTrue trivial

/- The same for the steps of the machine. -/
def Timely
    (A : ApproachServer K S I)
    (s : State K S) : Input K I → Prop
| .tick => True
| .env input => s.world.Timely A input

instance
    (A : ApproachServer K S I)
    (s : State K S) :
    (i : Input K I) → Decidable (Timely A s i)
| .tick => .isTrue trivial
| .env input =>
    inferInstanceAs (Decidable (s.world.Timely A input))

end Machines

end Mission

end Manipulator
