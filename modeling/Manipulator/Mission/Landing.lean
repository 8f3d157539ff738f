import Manipulator.BehaviorTree.Partial
import Manipulator.Mission.Exclusion
import Manipulator.Mission.Reaction
import Manipulator.Mission.Standing

/-
  Where an approach leaves the arm.

  The result of an approach that found a target names the
  pose that its node has published last. That nobody has
  published since is a fact about the whole system: no other
  goal moves the arm, and the publisher `move` is ticked
  before the first goal is sent. The timer callbacks of the
  node are to be orderly.

  Main declarations:
    * `Reported`
    * `Landing`, `Landing.env`, `main3_lands`
    * `landing_of_run`, `reported_of_run`
    * `inTime_of_orderly`
-/

namespace Manipulator

namespace Mission

variable {K S I : Type}

/- An approach that found a target ends on it. -/
def Reported [Field K] : Event K → List (Event K) → Prop
| .ended _ .approach _ r, earlier =>
    r.label ≠ "none" → OnTarget r (lastCommand earlier)
| _, _ => True

------------------------------------------------------------
-- Worlds
------------------------------------------------------------

/- What a patient mission knows of the approach node. -/
def Landing
    [Field K] [LinearOrder K]
    (w : World K (OpenNode K)) : Prop :=
  Patient w.history →
    Landed w.server.1 (lastCommand w.history) ∧
      History.Each Reported w.history

/- No goal was sent, and the server executes none. -/
structure Unsent
    (A : ApproachServer K S I) (w : World K S) : Prop where
  goals : w.goals = []
  executing : A.executing w.server = []

section Events

variable [Field K] {events h : List (Event K)}

theorem reported_of_inner
    {event : Event K}
    (hInner : event.Inner) : Reported event h := by
  cases event with
  | ended => exact absurd trivial hInner.2
  | cycleBegan => exact trivial
  | read => exact trivial
  | readLabel => exact trivial
  | sent => exact trivial
  | failed => exact trivial
  | approached => exact trivial
  | started => exact trivial
  | commanded => exact trivial

theorem reported_append
    (hInner : ∀ event ∈ events, event.Inner)
    (hEach : History.Each Reported h) :
    History.Each Reported (events ++ h) := by
  induction events with
  | nil => exact hEach
  | cons event events ih =>
      exact
        ⟨reported_of_inner (hInner event List.mem_cons_self),
          ih fun e hMember =>
            hInner e (List.mem_cons_of_mem _ hMember)⟩

end Events

section Environment

variable [Field K] [LinearOrder K]

theorem Unsent.env
    {A : ApproachServer K S I} {Late : World K S → Prop}
    {w w' : World K S}
    (hUnsent : Unsent A w)
    (hStep : EnvStep A Late w w') : Unsent A w' := by
  rcases hUnsent with ⟨hGoals, hExecuting⟩
  have hNone (goal : Nat) : w.goals[goal]? = none := by
    rw [hGoals]
    rfl
  cases hStep with
  | quiet hServer => exact ⟨hGoals, hServer.trans hExecuting⟩
  | published hServer =>
      exact ⟨hGoals, hServer.trans hExecuting⟩
  | started hGoal => cases (hNone _).symm.trans hGoal
  | iterated hGoal => cases (hNone _).symm.trans hGoal
  | ended hGoal => cases (hNone _).symm.trans hGoal
  | returned hGoal => cases (hNone _).symm.trans hGoal
  | responded hGoal => cases (hNone _).symm.trans hGoal
  | delivered hGoal => cases (hNone _).symm.trans hGoal

variable {trig : Approach.Trig K} {debugMode : Int}
variable {w w' : World K (OpenNode K)}
variable {input : EnvInput K (ThreadInput K)}

theorem executing_eq_nil
    (trig : Approach.Trig K) (debugMode : Int)
    {s : OpenNode K} :
    (threadServer trig debugMode).executing s = [] ↔
      s.1.goals = [] := by
  simp [threadServer, OpenNode.executing]

/- No approach executes beside another goal of the arm. -/
theorem idle_of_armAlive
    {goal : Nat} {r : GoalRecord K}
    (hSafe :
      Outline.Safe (threadServer trig debugMode) True
        (dataFlow K) w)
    (hPatient : Patient w.history)
    (hGoal : w.goals[goal]? = some r)
    (hArm : r.goal.Arm)
    (hAlive : r.Alive)
    (hOther : r.goal = .approach → r.stage = .requested) :
    w.server.1.goals = [] := by
  rw [← executing_eq_nil trig debugMode]
  by_contra hSome
  rcases List.exists_mem_of_ne_nil _ hSome with
    ⟨other, hMember⟩
  rcases (Outline.safe_sane hSafe).executing other hMember with
    ⟨r', left, hGoal', hData, hStage⟩
  have hArm' : r'.goal.Arm := by
    rw [hData]
    simp [Goal.Arm, Goal.actionName]
  have hSame : goal = other :=
    armAlive_unique hSafe hPatient ⟨r, hGoal, hArm, hAlive⟩
      ⟨r', hGoal', hArm', alive_of_executing hStage⟩
  subst hSame
  cases hGoal.symm.trans hGoal'
  rw [hOther hData] at hStage
  cases hStage

namespace Landing

theorem inward
    (hLanding : Landing w)
    (hInward : Inward w w') : Landing w' := by
  intro hPatient
  rcases hInward.history with ⟨events, hHistory, hInner⟩
  rw [hHistory] at hPatient
  rcases hLanding hPatient.append with ⟨hLanded, hEach⟩
  rw [hHistory, hInward.server, lastCommand_append hInner]
  exact ⟨hLanded, reported_append hInner hEach⟩

/- A step that adds an event. -/
theorem cons
    {event : Event K}
    (hLanding : Landing w)
    (hHistory : w'.history = event :: w.history)
    (hStep :
      Patient w.history →
        Landed w.server.1 (lastCommand w.history) →
          Landed w'.server.1
              (lastCommand (event :: w.history)) ∧
            Reported event w.history) :
    Landing w' := by
  intro hPatient
  rw [hHistory] at hPatient ⊢
  rcases hLanding hPatient.tail with ⟨hLanded, hEach⟩
  rcases hStep hPatient.tail hLanded with ⟨hNext, hReported⟩
  exact ⟨hNext, hReported, hEach⟩

/- A step outside the tree. -/
theorem env
    (hLanding : Landing w)
    (hSafe :
      Outline.Safe (threadServer trig debugMode) True
        (dataFlow K) w)
    (hOrderly :
      ∀ i, input = .approach i → w.server.1.Orderly i)
    (hReaction :
      Reaction (threadServer trig debugMode) input w w') :
    Landing w' := by
  cases hReaction with
  | quiet hServer hHistory =>
      exact hLanding.inward ⟨hServer, [], hHistory, inner_nil⟩
  | @started goal r hGoal hStage hServer hHistory =>
      apply hLanding.cons hHistory
      intro hPatient hLanded
      refine ⟨?_, trivial⟩
      rw [hServer]
      split
      · rename_i hAction
        have hArm : r.goal.Arm := by
          simp [Goal.Arm, hAction]
        exact hLanded.accept
          (idle_of_armAlive hSafe hPatient hGoal hArm
            (alive_of_requested hStage) fun _ => hStage) goal
      · exact hLanded
  | @moved goal r data t hInput hGoal hData hAlive hServer
      hHistory =>
      apply hLanding.cons hHistory
      intro hPatient hLanded
      have hArm : r.goal.Arm := by
        simp [Goal.Arm, hData, Goal.actionName]
      have hIdle :=
        idle_of_armAlive hSafe hPatient hGoal hArm hAlive
          (by simp [hData])
      rw [hServer]
      exact ⟨hLanded.of_idle hIdle, trivial⟩
  | @ended goal action code result hAction hServer hHistory =>
      apply hLanding.cons hHistory
      intro _ hLanded
      rw [hServer]
      refine ⟨hLanded, ?_⟩
      cases action with
      | approach => exact absurd rfl hAction
      | move => exact trivial
      | conveyor => exact trivial
  | silent hInput hStep hHistory =>
      intro hPatient
      rw [hHistory] at hPatient ⊢
      rcases hLanding hPatient with ⟨hLanded, hEach⟩
      exact
        ⟨hLanded.step (hOrderly _ hInput) (OpenNode.steps hStep),
          hEach⟩
  | published hInput hStep hHistory =>
      apply hLanding.cons hHistory
      intro _ hLanded
      exact
        ⟨hLanded.step (hOrderly _ hInput) (OpenNode.steps hStep),
          trivial⟩
  | @returned _ goal action code result hInput hStep hHistory =>
      apply hLanding.cons hHistory
      intro _ hLanded
      have hSteps := OpenNode.steps hStep
      refine ⟨hLanded.step (hOrderly _ hInput) hSteps, ?_⟩
      cases action with
      | approach => exact hLanded.onTarget hSteps
      | move => exact trivial
      | conveyor => exact trivial

end Landing

end Environment

------------------------------------------------------------
-- The Tree
------------------------------------------------------------

section Trees

variable [Field K] [LinearOrder K]

/- The steps outside the tree, in worlds that are reached. -/
def reactions (trig : Approach.Trig K) (debugMode : Int) :
    BT.Surroundings (World K (OpenNode K)) where
  Env := fun w w' =>
    Outline.Safe (threadServer trig debugMode) True (dataFlow K)
        w ∧
      EnvStep (threadServer trig debugMode) (Lately True) w w' ∧
        ∃ input, (∀ i, input = .approach i →
            w.server.1.Orderly i) ∧
          Reaction (threadServer trig debugMode) input w w'
  Guard := fun _ => True

variable {trig : Approach.Trig K} {debugMode : Int}
variable {is : List (Input K (ThreadInput K))}
variable {s : State K (OpenNode K)}

/- An orderly run ticks the root between such steps. -/
theorem reach_of_orderly_run
    {P : World K (OpenNode K) → Prop}
    (hInit : P (.init (threadServer trig debugMode).init))
    (hRun :
      ((machine (threadServer trig debugMode)).restrict
        Orderly).Run (.init (threadServer trig debugMode)) is
          s) :
    BT.RootReach (mission K _) (reactions trig debugMode)
      (main3 K) P s.tree s.world := by
  refine reach_within (fun _ => trivial) ?_ hInit hRun
  intro js t input w hBefore hAllowed hReact
  refine
    ⟨Outline.run_safe (dataFlow_valid True) hBefore.of_restrict,
      react_cases (fun _ _ => trivial) hReact, input, ?_,
      reaction_of_react hReact⟩
  rintro i rfl
  exact hAllowed

theorem Landing.reacts
    {w w' : World K (OpenNode K)}
    (hLanding : Landing w)
    (hEnv : (reactions trig debugMode).Env w w') :
    Landing w' := by
  rcases hEnv with ⟨hSafe, _, input, hOrderly, hReaction⟩
  exact hLanding.env hSafe hOrderly hReaction

theorem unsent_stable
    (w w' : World K (OpenNode K))
    (hHolds :
      Unsent (threadServer trig debugMode) w ∧ Landing w)
    (hEnv : (reactions trig debugMode).Env w w') :
    Unsent (threadServer trig debugMode) w' ∧ Landing w' :=
  ⟨hHolds.1.env hEnv.2.1, hHolds.2.reacts hEnv⟩

/- A leaf that does not publish. -/
theorem inner_lands
    {a : Action K}
    (hInner : a.Inner) :
    BT.Partial (mission K _)
      (reactions trig debugMode) Landing
      (.action a) ⟨Landing, Landing, Landing⟩ := by
  have hTicks :
      ∀ status o (w w' : World K (OpenNode K)), Landing w →
        BT.LeafTick (tick a status w) o w' → o ≠ .threw →
          BT.Post.Holds ⟨Landing, Landing, Landing⟩ o w' := by
    intro status o w w' hLanding hTick hThrew
    have hNext : Landing w' :=
      hLanding.inward
        (inward_of_tick hInner (hTick.eq_ok hThrew))
    cases o with
    | running => exact hNext
    | success => exact hNext
    | failure => exact hNext
    | threw => exact absurd rfl hThrew
  apply BT.Partial.action
  · intro w o w'
    exact hTicks .idle o w w'
  · intro w w' hLanding hEnv
    exact hLanding.reacts hEnv
  · intro w o w'
    exact hTicks .running o w w'

/- The last leaf of an attempt. -/
theorem failure_lands :
    BT.Partial (mission K _)
      (reactions trig debugMode) Landing
      (.action .alwaysFailure)
      ⟨Landing, fun _ => False, Landing⟩ := by
  apply BT.Partial.action
  · intro w o w' hLanding hTick _
    cases hTick
    exact hLanding
  · intro w w' hLanding hEnv
    exact hLanding.reacts hEnv
  · intro w o w' hLanding hTick _
    cases hTick
    exact hLanding

/- A part of an attempt. -/
theorem part_lands
    {t : BT.TreeNode (Action K) Script}
    (hRetries : t.retries = false)
    (hInner : ∀ a ∈ t.leaves, a.Inner) :
    BT.Partial (mission K _)
      (reactions trig debugMode) Landing t
      ⟨Landing, Landing, Landing⟩ := by
  apply BT.Partial.of_leaves
  · exact fun _ hLanding => hLanding
  · intro script w c w' hLanding hScript
    exact hLanding.inward (inward_of_executor hScript)
  · exact hRetries
  · intro a hMember
    exact inner_lands (hInner a hMember)

omit [LinearOrder K] in
theorem pick_inner :
    ∀ a ∈ (when_ (.labelIsNot "none")
      (.sequence (pickAndPlace K))).leaves, a.Inner := by
  simp [BT.TreeNode.leavesAll, BT.TreeNode.leaves, when_,
    pickAndPlace, move, Bin.branch, Bin.goals, Action.Inner,
    smoothMove_inner]

theorem cycle_lands :
    BT.Partial (mission K _)
      (reactions trig debugMode) Landing
      (.sequence (Mission.cycle K))
      ⟨Landing, fun _ => False, Landing⟩ := by
  apply BT.Partial.sequence
  apply BT.Partial.cons (Q := Landing)
  · exact inner_lands approach_inner
  apply BT.Partial.cons (Q := Landing)
  · exact part_lands rfl pick_inner
  apply BT.Partial.cons (Q := Landing)
  · apply part_lands rfl
    simp [BT.TreeNode.leaves, when_, Action.Inner,
      conveyor_inner]
  apply BT.Partial.cons (Q := Landing)
  · exact inner_lands trivial
  · exact BT.Partial.last failure_lands

/- A leaf before the loop, which does not fail. -/
theorem boot_lands
    {P : World K (OpenNode K) → Prop} {a : Action K}
    (hTicks :
      ∀ status w r w', P w → tick a status w = .ok (r, w') →
        r ≠ .failure ∧ P w')
    (hEnv :
      ∀ w w', P w → (reactions trig debugMode).Env w w' →
        P w') :
    BT.Partial (mission K _) (reactions trig debugMode) P
      (.action a) ⟨P, P, fun _ => False⟩ := by
  have hHolds :
      ∀ status o w w', P w →
        BT.LeafTick (tick a status w) o w' → o ≠ .threw →
          BT.Post.Holds ⟨P, P, fun _ => False⟩ o w' := by
    intro status o w w' hPre hTick hThrew
    rcases hTicks status w _ w' hPre (hTick.eq_ok hThrew) with
      ⟨hFails, hNext⟩
    cases o with
    | running => exact hNext
    | success => exact hNext
    | failure => exact absurd rfl hFails
    | threw => exact absurd rfl hThrew
  apply BT.Partial.action
  · intro w o w'
    exact hHolds .idle o w w'
  · exact hEnv
  · intro w o w'
    exact hHolds .running o w w'

omit [Field K] [LinearOrder K] in
/- A sleep neither fails nor sends a goal. -/
theorem sleep_ticks
    {id : SleepId} {msec : Nat} {status r : BT.NodeStatus}
    {w w' : World K S}
    (hTick : tick (.sleep id msec) status w = .ok (r, w')) :
    r ≠ .failure ∧ w'.goals = w.goals := by
  cases status <;>
    simp only [tick, sleepStart, sleepRunning] at hTick <;>
      split at hTick <;> cases hTick <;>
        exact ⟨by simp, rfl⟩

/- The publisher finds no approach that executes. -/
theorem publish_lands {pose : Pos K} :
    BT.Partial (mission K _)
      (reactions trig debugMode)
      (fun w =>
        Unsent (threadServer trig debugMode) w ∧ Landing w)
      (.action (.publish pose))
      ⟨fun _ => False, Landing, fun _ => False⟩ := by
  apply BT.Partial.action
  · rintro w o w' ⟨hUnsent, hLanding⟩ hTick _
    cases hTick
    have hIdle :=
      (executing_eq_nil trig debugMode).mp hUnsent.executing
    have hNext : Landing (w.command pose) :=
      hLanding.cons rfl fun _ hLanded =>
        ⟨hLanded.of_idle hIdle, trivial⟩
    exact hNext
  · intro w w' hFalse
    exact hFalse.elim
  · intro w o w' hFalse
    exact hFalse.elim

/- Before the first goal, and between the goals. -/
theorem main3_lands :
    BT.Partial (mission K _)
      (reactions trig debugMode)
      (fun w =>
        Unsent (threadServer trig debugMode) w ∧ Landing w)
      (main3 K)
      ⟨Landing, fun _ => False, fun _ => False⟩ := by
  have hLoop :
      ∀ w w', Landing w →
        (reactions trig debugMode).Env w w' →
          Landing w' :=
    fun w w' hLanding hEnv => hLanding.reacts hEnv
  apply BT.Partial.sequence
  apply BT.Partial.cons
  · apply (boot_lands ?_ unsent_stable).consequence (fun _ hPre => hPre)
    · exact .of_parts (fun _ hPre => hPre.2) (fun _ hPre => hPre)
        fun _ hFalse => hFalse
    · rintro status w r w' ⟨hUnsent, hLanding⟩ hTick
      have hInward := inward_of_tick (a := .sleep _ _) trivial hTick
      rcases sleep_ticks hTick with ⟨hFails, hGoals⟩
      refine ⟨hFails, ⟨hGoals.trans hUnsent.goals, ?_⟩,
        hLanding.inward hInward⟩
      rw [hInward.server]
      exact hUnsent.executing
  apply BT.Partial.cons
  · apply (boot_lands ?_ unsent_stable).consequence (fun _ hPre => hPre)
    · exact .of_parts (fun _ hPre => hPre.2) (fun _ hPre => hPre)
        fun _ hFalse => hFalse
    · rintro status w r w' ⟨hUnsent, hLanding⟩ hTick
      cases hTick
      exact ⟨by simp, ⟨hUnsent.goals, hUnsent.executing⟩,
        hLanding⟩
  apply BT.Partial.cons (Q := Landing)
  · apply publish_lands.consequence (fun _ hPre => hPre)
    exact .of_parts (fun _ hFalse => hFalse.elim)
      (fun _ hLanding => hLanding) fun _ hFalse => hFalse
  apply BT.Partial.cons (Q := Landing)
  · apply (boot_lands ?_ hLoop).consequence (fun _ hPre => hPre)
    · exact .of_parts (fun _ hPre => hPre) (fun _ hPre => hPre)
        fun _ hFalse => hFalse
    · intro status w r w' hLanding hTick
      exact ⟨(sleep_ticks hTick).1,
        hLanding.inward
          (inward_of_tick (a := .sleep _ _) trivial hTick)⟩
  apply BT.Partial.cons (Q := fun _ => False)
  · exact BT.Partial.retry cycle_lands hLoop
      (fun _ hLanding => hLanding) fun _ hLanding => hLanding
  · apply BT.Partial.last
    intro w o w' hFalse
    exact hFalse.elim

------------------------------------------------------------
-- Every Run
------------------------------------------------------------

theorem landing_of_run
    (hRun :
      ((machine (threadServer trig debugMode)).restrict
        Orderly).Run (.init (threadServer trig debugMode)) is
          s) :
    Landing s.world := by
  have hReach :=
    reach_of_orderly_run
      (P := fun w =>
        Unsent (threadServer trig debugMode) w ∧ Landing w)
      ⟨⟨rfl, rfl⟩, fun _ =>
        ⟨.inl ⟨rfl, rfl, .nil⟩, trivial⟩⟩ hRun
  have hHolds :=
    hReach.running mission_proper main3_wellFormed main3_lands
      unsent_stable
  rcases hHolds with ⟨_, hLanding⟩ | hLanding
  · exact hLanding
  · exact hLanding

/-
  In every orderly run in which no node gives up on a goal,
  an approach that found a target ends with the arm sent to
  the pose that it reports.
-/
theorem reported_of_run
    (hRun :
      ((machine (threadServer trig debugMode)).restrict
        Orderly).Run (.init (threadServer trig debugMode)) is
          s)
    (hPatient : Patient s.world.history) :
    History.Each Reported s.world.history :=
  (landing_of_run hRun hPatient).2

/- In such a run no message is late. -/
theorem inTime_of_orderly :
    InTime (threadServer trig debugMode) False Orderly := by
  intro js t input hRun _ hNot hPatient
  have hLanded := (landing_of_run hRun hPatient).1
  apply hNot
  cases input with
  | approach i =>
      rintro ⟨s', shown⟩ hStep hPublishes hIdle
      cases shown with
      | silent => exact hPublishes
      | returned goal code result => exact hPublishes
      | published pose =>
          have hGoals :=
            (executing_eq_nil trig debugMode).mp hIdle
          exact hLanded.not_published hGoals
            (OpenNode.steps (Option.mem_def.mp hStep))
  | _ => trivial

end Trees

end Mission

end Manipulator
