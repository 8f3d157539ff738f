import Manipulator.BehaviorTree.Frame
import Manipulator.Mission.Errand

/-
  What a step does to the approach server and to the history.

  The leaves of the tree leave the server alone, and only the
  publisher `move` publishes. Outside the tree a step is seen
  here with what the server itself does in it, which the
  cases of `EnvStep` forget.

  Main declarations:
    * `Event.Inner`, `Inward`, `inward_of_tick`
    * `Ticked`, `ticked_of_rootTick`
    * `Reaction`, `reaction_of_react`
-/

------------------------------------------------------------
-- The Leaves
------------------------------------------------------------

namespace Manipulator

namespace Mission

variable {K S I : Type}

/- An event of the mission that is no message. -/
def Event.Inner (event : Event K) : Prop :=
  ¬ event.Commands ∧ ¬ event.Report

/- A step that publishes nothing and is not of a server. -/
structure Inward (w w' : World K S) : Prop where
  server : w'.server = w.server
  history :
    ∃ events, w'.history = events ++ w.history ∧
      ∀ event ∈ events, event.Inner

structure RosAction.Inner (a : RosAction K) : Prop where
  setGoal :
    ∀ b goal reads, a.setGoal b = .ok (goal, reads) →
      ∀ event ∈ reads, event.Inner
  onResultReceived :
    ∀ r b, ∀ event ∈ (a.onResultReceived r b).2.2, event.Inner

/- A leaf other than the publisher. -/
def Action.Inner : Action K → Prop
| .publish _ => False
| .rosAction a => a.Inner
| _ => True

theorem inner_nil :
    ∀ event ∈ ([] : List (Event K)), event.Inner := by
  intro _ hMember
  cases hMember

theorem inner_single
    {event : Event K}
    (hInner : event.Inner) :
    ∀ e ∈ [event], e.Inner := by
  intro e hMember
  rw [List.mem_singleton.mp hMember]
  exact hInner

theorem lastCommand_append
    {events h : List (Event K)}
    (hInner : ∀ event ∈ events, event.Inner) :
    lastCommand (events ++ h) = lastCommand h := by
  induction events with
  | nil => rfl
  | cons event events ih =>
      have hQuiet := (hInner event List.mem_cons_self).1
      exact (lastCommand_cons hQuiet).trans
        (ih fun e hMember =>
          hInner e (List.mem_cons_of_mem _ hMember))

theorem Inward.refl (w : World K S) : Inward w w :=
  ⟨rfl, [], rfl, inner_nil⟩

theorem approach_inner : (approach (K := K)).Inner where
  setGoal := by
    intro b goal reads hSet
    cases hSet
    exact inner_single ⟨id, id⟩
  onResultReceived := by
    intro r b
    simp only [approach]
    split
    · exact inner_single ⟨id, id⟩
    · exact inner_nil

theorem conveyor_inner : (conveyor (K := K)).Inner where
  setGoal := by
    intro b goal reads hSet
    cases hSet
    exact inner_nil
  onResultReceived := by
    intro r b
    simp only [conveyor]
    split
    · exact inner_nil
    · exact inner_nil

theorem smoothMove_inner
    (step : Step) (ports : MovePorts K) :
    (smoothMove step ports).Inner where
  setGoal := by
    intro b goal reads hSet event hMember
    rcases bind_eq_ok.mp hSet with ⟨data, _, hReturn⟩
    cases hReturn
    rcases mem_reads hMember with ⟨key, value, rfl, _⟩
    exact ⟨id, id⟩
  onResultReceived := by
    intro r b
    simp only [smoothMove]
    split
    · exact inner_nil
    · exact inner_nil

section Ticks

variable {a : RosAction K} {w w' : World K S}
variable {r : BT.NodeStatus}

theorem inward_of_onStart
    (hInner : a.Inner)
    (hTick : a.onStart w = .ok (r, w')) : Inward w w' := by
  simp only [RosAction.onStart, bind_eq_ok] at hTick
  rcases hTick with ⟨⟨goal, reads⟩, hSet, hTick⟩
  have hReads := hInner.setGoal _ _ _ hSet
  split at hTick
  · cases hTick
    refine ⟨rfl, .sent _ a.node goal :: reads, rfl, ?_⟩
    intro event hMember
    rcases List.mem_cons.mp hMember with rfl | hMember
    · exact ⟨id, id⟩
    · exact hReads event hMember
  · cases hTick
    refine ⟨rfl, .failed a.node .serverUnreachable :: reads,
      rfl, ?_⟩
    intro event hMember
    rcases List.mem_cons.mp hMember with rfl | hMember
    · exact ⟨id, id⟩
    · exact hReads event hMember

theorem inward_of_onRunning
    (hInner : a.Inner)
    (hTick : a.onRunning w = .ok (r, w')) : Inward w w' := by
  simp only [RosAction.onRunning, bind_eq_ok] at hTick
  rcases hTick with ⟨⟨verdict, c⟩, _, hTick⟩
  cases verdict with
  | running =>
      cases hTick
      exact ⟨rfl, [], rfl, inner_nil⟩
  | onFailure error =>
      cases hTick
      exact ⟨rfl, [_], rfl, inner_single ⟨id, id⟩⟩
  | onResultReceived result =>
      simp only at hTick
      split at hTick
      · cases hTick
        exact ⟨rfl, _, rfl, hInner.onResultReceived _ _⟩
      · cases hTick

theorem inward_of_tick
    {a : Action K} {status : BT.NodeStatus}
    (hInner : a.Inner)
    (hTick : tick a status w = .ok (r, w')) : Inward w w' := by
  cases a with
  | sleep id msec =>
      have hSame : Inward w (w.setTimer id true) :=
        ⟨rfl, [], rfl, inner_nil⟩
      cases status <;>
        simp only [tick, sleepStart, sleepRunning] at hTick <;>
          split at hTick <;> cases hTick <;>
            first | exact hSame | exact .refl w
  | setBlackboard key value =>
      cases hTick
      exact ⟨rfl, [], rfl, inner_nil⟩
  | publish pose => exact hInner.elim
  | rosAction a =>
      cases status with
      | idle => exact inward_of_onStart hInner hTick
      | running => exact inward_of_onRunning hInner hTick
      | success => exact inward_of_onRunning hInner hTick
      | failure => exact inward_of_onRunning hInner hTick
      | skipped => exact inward_of_onRunning hInner hTick
  | alwaysFailure =>
      cases hTick
      exact .refl w
  | finish =>
      cases hTick
      exact .refl w

/- A condition reads the label. -/
theorem inward_of_executor
    {script : Script} {c : Bool}
    (hScript : executor script w = .ok (c, w')) :
    Inward w w' := by
  have hRead :
      ∀ label w₁, readLabel w = .ok (label, w₁) →
        Inward w w₁ := by
    intro label w₁ hLabel
    unfold readLabel at hLabel
    split at hLabel
    · cases hLabel
      exact ⟨rfl, [_], rfl, inner_single ⟨id, id⟩⟩
    · cases hLabel
  cases script with
  | labelIs label =>
      rcases bind_eq_ok.mp hScript with
        ⟨⟨value, w₁⟩, hLabel, hReturn⟩
      cases hReturn
      exact hRead value _ hLabel
  | labelIsNot label =>
      rcases bind_eq_ok.mp hScript with
        ⟨⟨value, w₁⟩, hLabel, hReturn⟩
      cases hReturn
      exact hRead value _ hLabel

end Ticks

------------------------------------------------------------
-- Ticks Of The Tree
------------------------------------------------------------

section Trees

variable [Field K] {u v w : World K S}

/-
  What a tick of the tree adds to the history: events of its
  nodes, and messages of its publisher.
-/
def Ticked (w w' : World K S) : Prop :=
  ∃ events, w'.history = events ++ w.history ∧
    ∀ event ∈ events,
      event.Inner ∨ ∃ pose, event = .commanded (Move.finite pose)

omit [Field K] in
theorem Ticked.of_inward
    (hInward : Inward v w) : Ticked v w := by
  rcases hInward.history with ⟨events, hHistory, hInner⟩
  exact ⟨events, hHistory, fun event hMember =>
    .inl (hInner event hMember)⟩

omit [Field K] in
theorem Ticked.trans
    (hFirst : Ticked u v) (hSecond : Ticked v w) :
    Ticked u w := by
  rcases hFirst with ⟨events, hHistory, hEvents⟩
  rcases hSecond with ⟨events', hHistory', hEvents'⟩
  refine ⟨events' ++ events, ?_, ?_⟩
  · rw [hHistory', hHistory, List.append_assoc]
  · intro event hMember
    rcases List.mem_append.mp hMember with hNew | hOld
    · exact hEvents' event hNew
    · exact hEvents event hOld

omit [Field K] in
theorem ticked_frames : (mission K S).Frames Ticked where
  refl := fun w => .of_inward (.refl w)
  trans := Ticked.trans
  halt := fun _ _ w => .of_inward (.refl w)
  executor := fun _ _ _ _ hScript =>
    .of_inward (inward_of_executor hScript)

theorem main3_leaves :
    ∀ a ∈ (main3 K).leaves,
      a.Inner ∨ ∃ pose, a = .publish pose := by
  simp [BT.TreeNode.leavesAll, BT.TreeNode.leaves, main3,
    Mission.cycle, when_, pickAndPlace, move, Bin.branch,
    Bin.goals, Action.Inner, smoothMove_inner, approach_inner,
    conveyor_inner]

theorem ticked_of_rootTick
    {tree tree' : (main3 K).State} {r : BT.NodeStatus}
    (hTick :
      BT.TreeNode.rootTick (mission K S) (main3 K) tree v =
        .ok (r, tree', w)) : Ticked v w := by
  apply BT.TreeNode.rootTick_frame _ hTick
  apply BT.TreeNode.ticks_of_leaves ticked_frames
  · intro a hMember status w₁ r₁ w₂ hLeaf
    rcases main3_leaves a hMember with hInner | ⟨pose, rfl⟩
    · exact .of_inward (inward_of_tick hInner hLeaf)
    · cases hLeaf
      refine ⟨[.commanded (Move.finite pose)], rfl, ?_⟩
      intro event hEvent
      exact .inr ⟨pose, List.mem_singleton.mp hEvent⟩
  · exact fun _ w => ticked_frames.refl w

end Trees

------------------------------------------------------------
-- Steps Outside The Tree
------------------------------------------------------------

section Reactions

variable [Field K] [LinearOrder K]

/-
  What a step outside the tree does to the approach server
  and to the history.
-/
inductive Reaction
    (A : ApproachServer K S I) (input : EnvInput K I)
    (w w' : World K S) : Prop where
| quiet
    (hServer : w'.server = w.server)
    (hHistory : w'.history = w.history) :
    Reaction A input w w'
| started
    {goal : Nat} {r : GoalRecord K}
    (hGoal : w.goals[goal]? = some r)
    (hStage : r.stage = .requested)
    (hServer :
      w'.server =
        if r.goal.actionName = .approach then
          A.goal goal w.server
        else w.server)
    (hHistory :
      w'.history = .started goal r.goal.actionName :: w.history) :
    Reaction A input w w'
| moved
    {goal : Nat} {r : GoalRecord K} {data : MoveGoal K}
    {t : Double K}
    (hInput : input = .iterate goal t)
    (hGoal : w.goals[goal]? = some r)
    (hData : r.goal = .move data)
    (hAlive : r.Alive)
    (hServer : w'.server = w.server)
    (hHistory :
      w'.history =
        .commanded (Move.message data t.clampOne) ::
          w.history) :
    Reaction A input w w'
| ended
    {goal : Nat} {action : ActionName}
    {code : Terminal} {result : ApproachResult K}
    (hAction : action ≠ .approach)
    (hServer : w'.server = w.server)
    (hHistory :
      w'.history = .ended goal action code result :: w.history) :
    Reaction A input w w'
| silent
    {i : I}
    (hInput : input = .approach i)
    (hStep : A.step w.server i = some (w'.server, .silent))
    (hHistory : w'.history = w.history) :
    Reaction A input w w'
| published
    {i : I} {pose : Pos K}
    (hInput : input = .approach i)
    (hStep :
      A.step w.server i = some (w'.server, .published pose))
    (hHistory :
      w'.history = .commanded (Move.finite pose) :: w.history) :
    Reaction A input w w'
| returned
    {i : I} {goal : Nat} {action : ActionName}
    {code : Terminal} {result : ApproachResult K}
    (hInput : input = .approach i)
    (hStep :
      A.step w.server i =
        some (w'.server, .returned goal code result))
    (hHistory :
      w'.history = .ended goal action code result :: w.history) :
    Reaction A input w w'

variable {A : ApproachServer K S I} {input : EnvInput K I}
variable {w w' : World K S}
variable {goal : Nat} {r : GoalRecord K}

theorem reaction_of_accept
    (hGoal : w.goals[goal]? = some r)
    (hReact : w.accept A goal r = some w') :
    Reaction A input w w' := by
  unfold World.accept at hReact
  split at hReact
  · rename_i hStage
    simp only at hReact
    split at hReact
    · rename_i hAction
      cases hReact
      exact .started hGoal hStage (if_pos hAction).symm rfl
    · rename_i hAction
      cases hReact
      exact .started hGoal hStage (if_neg hAction).symm rfl
  · cases hReact

theorem reaction_of_respond
    (hReact : w.respond goal r = some w') :
    Reaction A input w w' := by
  unfold World.respond at hReact
  split at hReact
  · cases hReact
  · split at hReact
    · cases hReact
    · cases hReact
      exact .quiet rfl rfl

theorem reaction_of_iterate
    {t : Double K}
    (hGoal : w.goals[goal]? = some r)
    (hReact : w.iterate goal r t = some w') :
    Reaction A (.iterate goal t) w w' := by
  unfold World.iterate at hReact
  split at hReact
  · rename_i data hData hStage
    cases hReact
    exact .moved rfl hGoal hData (alive_of_executing hStage) rfl
      rfl
  · cases hReact

theorem reaction_of_succeed
    (hReact : w.succeed goal r = some w') :
    Reaction A input w w' := by
  unfold World.succeed at hReact
  split at hReact
  · rename_i data hData hStage
    cases hReact
    exact .ended (by simp [hData, Goal.actionName]) rfl rfl
  · rename_i left hData hStage
    cases hReact
    exact .ended (by simp [hData, Goal.actionName]) rfl rfl
  · cases hReact

theorem reaction_of_abort
    (hReact : w.abort goal r = some w') :
    Reaction A input w w' := by
  unfold World.abort at hReact
  split at hReact
  · cases hReact
  · rename_i left hStage hData
    cases hReact
    refine .ended (fun hAction => ?_) rfl rfl
    exact hData (actionName_approach hAction)
  · cases hReact

theorem reaction_of_approach
    {i : I}
    (hReact : w.approach A i = some w') :
    Reaction A (.approach i) w w' := by
  unfold World.approach at hReact
  split at hReact
  · cases hReact
  · rename_i server hStep
    cases hReact
    exact .silent rfl hStep rfl
  · rename_i server pose hStep
    cases hReact
    exact .published rfl hStep rfl
  · rename_i server goal code result hStep
    split at hReact
    · cases hReact
    · split at hReact
      · cases hReact
        exact .returned rfl hStep rfl
      · cases hReact

theorem reaction_of_deliver
    (hReact : w.deliver goal r = some w') :
    Reaction A input w w' := by
  simp only [World.deliver] at hReact
  split at hReact
  · split at hReact
    · split at hReact
      · cases hReact
        exact .quiet rfl rfl
      · cases hReact
    · cases hReact
  · cases hReact

/- Every step is one of the cases. -/
theorem reaction_of_react
    (hReact : w.react A input = some w') :
    Reaction A input w w' := by
  cases input with
  | observe ready timeout =>
      cases hReact
      exact .quiet rfl rfl
  | timer id =>
      cases hReact
      exact .quiet rfl rfl
  | accept goal =>
      rcases bind_goal hReact with ⟨r, hGoal, hReact⟩
      exact reaction_of_accept hGoal hReact
  | respond goal =>
      rcases bind_goal hReact with ⟨r, hGoal, hReact⟩
      exact reaction_of_respond hReact
  | iterate goal t =>
      rcases bind_goal hReact with ⟨r, hGoal, hReact⟩
      exact reaction_of_iterate hGoal hReact
  | succeed goal =>
      rcases bind_goal hReact with ⟨r, hGoal, hReact⟩
      exact reaction_of_succeed hReact
  | abort goal =>
      rcases bind_goal hReact with ⟨r, hGoal, hReact⟩
      exact reaction_of_abort hReact
  | approach input => exact reaction_of_approach hReact
  | deliver goal =>
      rcases bind_goal hReact with ⟨r, hGoal, hReact⟩
      exact reaction_of_deliver hReact

end Reactions

end Mission

end Manipulator
