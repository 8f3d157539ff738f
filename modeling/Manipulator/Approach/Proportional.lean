import Manipulator.Approach.Congruence
import Manipulator.Approach.Debug
import Manipulator.Reach

/-
  The control loop is proportional control.

  Only the P gains are not zero and no detection reaches the
  speed limit, so that the pose is the sum of the selected
  centres, and the integral and the last error change nothing
  that the node sends.

  Main declarations:
    * `Tick.center?`, `centers`
    * `Node.remembering`, `Matches`, `timerCallback_matches`
    * `Alike`, `Alike.run`
    * `control_is_proportional`
-/

------------------------------------------------------------
-- The Selected Centres
------------------------------------------------------------

namespace Manipulator

namespace Approach

variable {K : Type} [Field K] [LinearOrder K]

/- The centre of the box that a control tick selects. -/
def Tick.center? (t : Tick K) : Option (K × K) :=
  match t.before.actsOn, t.before.state with
  | some box, .approach =>
      if box.hasBox = true then
        match minIndex K box with
        | .ok i => (boxCenter box i).toOption
        | .error _ => none
      else none
  | _, _ => none

/- The centres of the control ticks, the newest first. -/
def centers (ticks : List (Tick K)) : List (K × K) :=
  ticks.filterMap Tick.center?

theorem Tick.error?_eq (t : Tick K) :
    t.error? = t.center?.map controlError := by
  unfold Tick.error? Tick.center?
  cases hActs : t.before.actsOn with
  | none => rfl
  | some box =>
      cases hState : t.before.state with
      | turn => rfl
      | approach =>
          by_cases hBox : box.hasBox = true
          · simp only [hBox, if_true]
            cases hIndex : minIndex K box with
            | error e => rfl
            | ok i =>
                cases hCenter : boxCenter box i with
                | error e => simp [hCenter, Except.toOption]
                | ok center => simp [hCenter, Except.toOption]
          · simp [hBox]

theorem errors_eq (ticks : List (Tick K)) :
    ticks.filterMap Tick.error? =
      (centers ticks).map controlError := by
  unfold centers
  rw [List.map_filterMap]
  congr 1
  funext t
  exact t.error?_eq

/- The travel along the robot's two axes. -/
theorem travel_eq_centers
    [IsStrictOrderedRing K]
    (ticks : List (Tick K)) :
    travel 0 ticks =
        3 / 2000 *
          ((centers ticks).map fun c => (targetY : K) - c.2).sum ∧
      travel 1 ticks =
        3 / 2000 *
          ((centers ticks).map fun c => 240 - c.1).sum := by
  have hWidth : (imageWidth : K) / 2 - 80 = 240 := by
    norm_num [imageWidth]
  have hGain : (3 : K) / 2 * (1 / 1000) = 3 / 2000 := by
    norm_num
  rw [travel_eq_drift, travel_eq_drift, drift, drift,
    errors_eq, hGain, ← hWidth, List.map_map, List.map_map,
    ← List.sum_map_mul_left, ← List.sum_map_mul_left]
  exact ⟨rfl, rfl⟩

/- What the loop computes for an axis is within the limit. -/
theorem clampSpeed_eq
    [IsStrictOrderedRing K]
    {box : BoundingBox K} {i : Nat} {center : K × K}
    (hCenter : boxCenter box i = .ok center)
    (axis : Fin 2)
    (integral derivative : K) :
    clampSpeed
        (gain 0 axis * controlError center axis +
          gain 1 axis * integral + gain 2 axis * derivative) =
      gain 0 axis * controlError center axis +
        gain 1 axis * integral + gain 2 axis * derivative := by
  rw [gain_zero, gain_one, gain_two, zero_mul, zero_mul,
    add_zero, add_zero]
  exact output_of_abs_le (abs_controlError_le hCenter axis)

------------------------------------------------------------
-- Other Values Of The Integral And The Last Error
------------------------------------------------------------

section Remembering

/- The node with other values in the two attributes. -/
def Node.remembering
    {K : Type}
    (integral prevError : Option (Fin 2 → K))
    (n : Node K) : Node K :=
  { n with integral := integral, prevError := prevError }

/-
  Two nodes that differ in the two attributes at most, the
  second of which can run the loop.
-/
structure Matches {K : Type} (n n' : Node K) : Prop where
  ready : n'.Ready
  same : n' = n.remembering n'.integral n'.prevError

/- Two ticks that send the same and leave such nodes. -/
structure SameCommand
    {K : Type}
    (r r' : TickResult K) : Prop where
  node : Matches r.node r'.node
  published : r'.published = r.published

variable {n n' m : Node K} {r : TickResult K}
variable {box : BoundingBox K} {i : Nat}

omit [Field K] [LinearOrder K] in
theorem Matches.symm
    (hMatches : Matches n n')
    (hReady : n.Ready) : Matches n' n where
  ready := hReady
  same := by
    rw [hMatches.same]
    rfl

omit [Field K] [LinearOrder K] in
theorem matches_remembering
    (n : Node K)
    (integral prevError : Fin 2 → K) :
    Matches n (n.remembering (some integral) (some prevError))
    where
  ready := Node.ready_of_isSome rfl rfl
  same := rfl

/- A pass moves the pose by the error alone. -/
theorem controlAxis_matches
    {error : Fin 2 → K} {axis : Fin 2}
    (hMatches : Matches n n')
    (hControl : controlAxis error n axis = .ok m) :
    ∃ m', controlAxis error n' axis = .ok m' ∧
      Matches m m' := by
  rcases controlAxis_ok error axis hMatches.ready with
    ⟨m', hControl', hReady⟩
  refine ⟨m', hControl', hReady, ?_⟩
  rcases controlAxis_cases hControl with ⟨_, _, rfl⟩
  rcases controlAxis_cases hControl' with ⟨_, _, rfl⟩
  rw [hMatches.same]
  rfl

/- So does the body of the approach state. -/
theorem control_matches
    {error : Fin 2 → K} {reached : Bool}
    (hMatches : Matches n n')
    (hControl : control box i error n = .ok (m, reached)) :
    ∃ m', control box i error n' = .ok (m', reached) ∧
      Matches m m' := by
  simp only [control, bind_eq_ok] at hControl
  rcases hControl with ⟨n₀, hFirst, n₁, hSecond, hRest⟩
  rcases controlAxis_matches hMatches hFirst with
    ⟨n₀', hFirst', hMatches₀⟩
  rcases controlAxis_matches hMatches₀ hSecond with
    ⟨n₁', hSecond', hReady, hSame⟩
  have hGoals : n₁'.goalCount = n₁.goalCount := by
    rw [hSame]
    rfl
  simp only [control, hFirst', hSecond', bind, Except.bind,
    hGoals]
  by_cases hTolerance : InTolerance error
  · rw [if_pos hTolerance] at hRest ⊢
    by_cases hCount : n₁.goalCount + 1 ≥ 5
    · simp only [hCount, if_true, bind_eq_ok, pure_eq_ok,
        Prod.mk.injEq] at hRest
      rcases hRest with ⟨label, hLabel, rfl, rfl⟩
      simp only [hCount, if_true, hLabel]
      refine ⟨_, rfl, hReady, ?_⟩
      rw [hSame]
      rfl
    · simp only [hCount, if_false, pure_eq_ok,
        Prod.mk.injEq] at hRest
      rcases hRest with ⟨rfl, rfl⟩
      simp only [hCount, if_false]
      refine ⟨_, rfl, fun _ => ?_, ?_⟩
      · rcases controlAxis_cases hSecond' with ⟨_, _, rfl⟩
        exact ⟨rfl, rfl⟩
      · rw [hSame]
        rfl
  · rw [if_neg hTolerance] at hRest ⊢
    cases hRest
    refine ⟨_, rfl, fun _ => ?_, ?_⟩
    · rcases controlAxis_cases hSecond' with ⟨_, _, rfl⟩
      exact ⟨rfl, rfl⟩
    · rw [hSame]
      rfl

/- Other values in the two attributes are kept by a tick. -/
theorem matches_congruence :
    Congruence (Matches : Node K → Node K → Prop) where
  reads := by
    intro n n' hMatches
    rw [hMatches.same]
    exact ⟨rfl, rfl, rfl, rfl, rfl⟩
  seen := by
    intro n n' hMatches
    refine ⟨hMatches.ready, ?_⟩
    rw [hMatches.same]
    rfl
  missed := by
    intro n n' hMatches
    refine ⟨hMatches.ready, ?_⟩
    rw [hMatches.same]
    rfl
  lost := by
    intro n n' hMatches
    refine ⟨hMatches.ready, ?_⟩
    rw [hMatches.same]
    rfl
  control := control_matches
  turned := by
    intro n n' yaw hMatches _
    refine ⟨hMatches.ready, ?_⟩
    rw [hMatches.same]
    rfl

/- A tick publishes the same on both nodes. -/
theorem timerCallback_matches
    {trig : Trig K}
    (hMatches : Matches n n')
    (hTick : timerCallback trig n = .ok r) :
    ∃ r', timerCallback trig n' = .ok r' ∧
      SameCommand r r' := by
  rcases matches_congruence.timerCallback hMatches hTick with
    ⟨r', hTick', hSame⟩
  exact ⟨r', hTick', hSame.node, hSame.published⟩

end Remembering

------------------------------------------------------------
-- Two Servers
------------------------------------------------------------

def Server.remembering
    {K : Type}
    (integral prevError : Option (Fin 2 → K))
    (s : Server K) : Server K :=
  { s with node := s.node.remembering integral prevError }

/- Two servers on such nodes that have sent the same. -/
structure Alike {K : Type} (s s' : Server K) : Prop where
  node : Matches s.node s'.node
  executions : s'.executions = s.executions
  nextGoal : s'.nextGoal = s.nextGoal
  outputs : outputs s'.history = outputs s.history

namespace Alike

variable {s s' u : Server K}

omit [LinearOrder K] in
theorem goal (hAlike : Alike s s') : Alike s.goal s'.goal where
  node := by
    have hMatches := hAlike.node
    constructor
    case ready =>
      intro hLoop
      cases hLoop
    case same =>
      simp only [Server.goal]
      rw [hMatches.same]
      rfl
  executions := by
    simp only [Server.goal, hAlike.executions, hAlike.nextGoal]
  nextGoal := by simp only [Server.goal, hAlike.nextGoal]
  outputs := hAlike.outputs

omit [Field K] [LinearOrder K] in
theorem boundingBox
    (msg : BoundingBox K)
    (hAlike : Alike s s') :
    Alike (s.boundingBox msg) (s'.boundingBox msg) where
  node := by
    refine ⟨hAlike.node.ready, ?_⟩
    simp only [Server.boundingBox]
    rw [hAlike.node.same]
    rfl
  executions := hAlike.executions
  nextGoal := hAlike.nextGoal
  outputs := hAlike.outputs

omit [Field K] [LinearOrder K] in
theorem ticked
    {r r' : TickResult K}
    (hAlike : Alike s s')
    (hSame : SameCommand r r') :
    Alike (s.ticked r) (s'.ticked r') where
  node := hSame.node
  executions := by
    have hEvent : r'.node.finishEvent = r.node.finishEvent := by
      rw [hSame.node.same]
      rfl
    simp only [Server.ticked, hEvent, hAlike.executions]
  nextGoal := hAlike.nextGoal
  outputs := by
    simp only [Server.ticked, Approach.outputs,
      hSame.published, hAlike.outputs]

omit [Field K] [LinearOrder K] in
theorem cancel
    (goal : Nat)
    (hAlike : Alike s s') :
    Alike (s.cancel goal) (s'.cancel goal) where
  node := hAlike.node
  executions := by
    simp only [Server.cancel, hAlike.executions]
  nextGoal := hAlike.nextGoal
  outputs := hAlike.outputs

omit [Field K] [LinearOrder K] in
theorem finish
    {e : Execution}
    (result : ApproachResult K)
    (hAlike : Alike s s') :
    Alike (s.finish e result) (s'.finish e result) where
  node := hAlike.node
  executions := by
    simp only [Server.finish, hAlike.executions]
  nextGoal := hAlike.nextGoal
  outputs := by
    simp only [Server.finish, Approach.outputs, hAlike.outputs]

/- A callback of one server is a callback of the other. -/
theorem step
    {trig : Trig K} {i : Input K}
    (hAlike : Alike s s')
    (hStep : Approach.step trig s i = .ok u) :
    ∃ u', Approach.step trig s' i = .ok u' ∧ Alike u u' := by
  cases i with
  | goal =>
      cases hStep
      exact ⟨_, rfl, hAlike.goal⟩
  | boundingBox msg =>
      cases hStep
      exact ⟨_, rfl, hAlike.boundingBox msg⟩
  | timer =>
      rcases bind_eq_ok.mp hStep with ⟨r, hTick, hStep⟩
      cases hStep
      rcases timerCallback_matches hAlike.node hTick with
        ⟨r', hTick', hSame⟩
      exact
        ⟨_, bind_eq_ok.mpr ⟨r', hTick', rfl⟩,
          hAlike.ticked hSame⟩
  | cancel goal =>
      cases hStep
      exact ⟨_, rfl, hAlike.cancel goal⟩
  | finish goal =>
      have hFind : s'.execution? goal = s.execution? goal := by
        simp only [Server.execution?, hAlike.executions]
      have hFinish : finishGoal s'.node = finishGoal s.node := by
        rw [hAlike.node.same]
        rfl
      simp only [Approach.step, hFind, hFinish] at hStep ⊢
      cases hSome : s.execution? goal with
      | none =>
          rw [hSome] at hStep
          cases hStep
          exact ⟨_, rfl, hAlike⟩
      | some e =>
          rw [hSome] at hStep
          rcases bind_eq_ok.mp hStep with
            ⟨result, hResult, hStep⟩
          cases hStep
          exact
            ⟨_, bind_eq_ok.mpr ⟨result, hResult, rfl⟩,
              hAlike.finish result⟩

omit [Field K] [LinearOrder K] in
theorem enabled
    {i : Input K}
    (hAlike : Alike s s')
    (hEnabled : Enabled s i) : Enabled s' i := by
  have hFind (goal : Nat) :
      s'.execution? goal = s.execution? goal := by
    simp only [Server.execution?, hAlike.executions]
  cases i with
  | goal => trivial
  | boundingBox msg => trivial
  | timer => trivial
  | cancel goal =>
      simp only [Enabled, hFind]
      exact hEnabled
  | finish goal =>
      simp only [Enabled, hFind]
      exact hEnabled

/- A run of one server is a run of the other. -/
theorem run
    {trig : Trig K} {js : List (Input K)}
    (hAlike : Alike s s')
    (hRun : (machine trig).Run s js u) :
    ∃ u', (machine trig).Run s' js u' ∧
      Approach.outputs u'.history =
        Approach.outputs u.history := by
  have hAnswer :=
    hRun.simulate (f := id) (N := machine trig) hAlike
      (fun _ _ _ _ hAlike hEnabled hStep =>
        ⟨hAlike.enabled hEnabled, hAlike.step hStep⟩)
  rw [List.map_id] at hAnswer
  rcases hAnswer with ⟨u', hOther, hNext⟩
  exact ⟨u', hOther, hNext.outputs⟩

end Alike

------------------------------------------------------------
-- Every Run
------------------------------------------------------------

/- A tick of the approach state returns, in any mode. -/
theorem approach_step_ok
    {trig : Trig K} {s : Server K}
    (hReady : s.node.Ready)
    (hState : s.node.state = .approach)
    (hWell : ∀ box ∈ s.node.boxData, box.WellFormed) :
    ∃ u, step trig s .timer = .ok u := by
  have hTick : ∃ r, timerCallback trig s.node = .ok r := by
    by_cases hDebug : s.node.debugMode = 1
    · rcases timerCallback_ok trig (n := s.node.inMode 0)
          (by simp [Node.inMode]) hReady hWell with ⟨r, hTick⟩
      have hSame : (s.node.inMode 0).inMode 1 = s.node := by
        rw [← hDebug]
        rfl
      have hStays : ¬ (s.node.inMode 0).Turning := by
        simp [Node.Turning, Node.inMode, hState]
      have hOther :=
        timerCallback_inMode (n := s.node.inMode 0) hWell hTick
      rw [hSame, if_neg hStays] at hOther
      exact ⟨_, hOther⟩
    · exact timerCallback_ok trig hDebug hReady hWell
  rcases hTick with ⟨r, hTick⟩
  exact ⟨_, bind_eq_ok.mpr ⟨r, hTick, rfl⟩⟩

/-
  In every state that is reached:
    * a tick of the approach state on a well-formed message
      returns;
    * the pose of an open goal is that of its start, plus the
      sums over the centres that its control ticks selected;
    * the speed limit changes no output;
    * with other values in `integral` and `prev_error` the
      same callbacks go on to send the same.
-/
theorem control_is_proportional
    [IsStrictOrderedRing K]
    {trig : Trig K} {debugMode : Int}
    {is : List (Input K)} {s : Server K}
    (hRun : (machine trig).Run (Server.init debugMode) is s) :
    (s.node.state = .approach →
        (∀ box ∈ s.node.boxData, box.WellFormed) →
          ∃ u, step trig s .timer = .ok u) ∧
      (s.executions ≠ [] →
        s.node.posData.x =
            210 +
              3 / 2000 *
                ((centers (epoch s.history)).map
                  fun c => (targetY : K) - c.2).sum ∧
          s.node.posData.y =
            40 +
              3 / 2000 *
                ((centers (epoch s.history)).map
                  fun c => 240 - c.1).sum) ∧
      (∀ (box : BoundingBox K) (i : Nat) (center : K × K)
          (axis : Fin 2) (integral derivative : K),
        boxCenter box i = .ok center →
          clampSpeed
              (gain 0 axis * controlError center axis +
                gain 1 axis * integral +
                gain 2 axis * derivative) =
            gain 0 axis * controlError center axis +
              gain 1 axis * integral +
              gain 2 axis * derivative) ∧
      ∀ (integral prevError : Fin 2 → K)
          (js : List (Input K))
          (sent : List (Pos K ⊕ ApproachResult K)),
        (∃ u, (machine trig).Run s js u ∧
            outputs u.history = sent) ↔
          ∃ u, (machine trig).Run
              (s.remembering (some integral) (some prevError))
              js u ∧
            outputs u.history = sent := by
  have hTracking := Tracking.run hRun
  refine ⟨?_, ?_, ?_, ?_⟩
  · exact approach_step_ok hTracking.ready
  · intro hOpen
    rcases hTracking.pose hOpen with ⟨hX, hY, _⟩
    rcases travel_eq_centers (epoch s.history) with
      ⟨hFirst, hSecond⟩
    rw [hX, hY, hFirst, hSecond]
    exact ⟨rfl, rfl⟩
  · intro box i center axis integral derivative hCenter
    exact clampSpeed_eq hCenter axis integral derivative
  · intro integral prevError js sent
    have hNode :=
      matches_remembering s.node integral prevError
    have hThere :
        Alike s
          (s.remembering (some integral) (some prevError)) :=
      ⟨hNode, rfl, rfl, rfl⟩
    have hBack :
        Alike (s.remembering (some integral) (some prevError))
          s :=
      ⟨hNode.symm hTracking.ready, rfl, rfl, rfl⟩
    constructor
    · rintro ⟨u, hNext, rfl⟩
      exact hThere.run hNext
    · rintro ⟨u, hNext, rfl⟩
      exact hBack.run hNext

/- Two ticks of a goal whose box is far from its place. -/
theorem control_is_proportional_two_ticks :
    ∃ s : Server ℚ,
      (machine ⟨fun _ _ => 0, 1⟩).Run (Server.init 0)
          [.boundingBox
              ⟨[100, 100, 200, 200], ["cola"], [1], [0], true⟩,
            .goal, .timer, .timer] s ∧
        centers (epoch s.history) = [(150, 150), (150, 150)] ∧
        s.node.posData.x =
          210 +
            3 / 2000 *
              ((centers (epoch s.history)).map
                fun c => (targetY : ℚ) - c.2).sum := by
  have hSome :
      ((machine (⟨fun _ _ => 0, 1⟩ : Trig ℚ)).exec
        (Server.init 0)
        [.boundingBox
            ⟨[100, 100, 200, 200], ["cola"], [1], [0], true⟩,
          .goal, .timer, .timer]).any
        (fun s =>
          decide
            (s.executions ≠ [] ∧
              centers (epoch s.history) =
                [(150, 150), (150, 150)])) = true := by
    decide +kernel
  rcases Machine.exists_run_of_exec hSome with
    ⟨s, hRun, hTest⟩
  rcases of_decide_eq_true hTest with ⟨hOpen, hCenters⟩
  refine ⟨s, hRun, hCenters, ?_⟩
  exact ((control_is_proportional hRun).2.1 hOpen).1

end Approach

end Manipulator
