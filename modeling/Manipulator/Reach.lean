import Manipulator.Approach.Outcome
import Manipulator.IK
import Manipulator.Move

/-
  Which reported successes the arm was really commanded to.

  Neither the move server nor the approach server asks the
  inverse kinematics node whether it accepts a pose. The arm
  is commanded to a reported pose exactly when that pose is
  in the shell around the shoulder.

  Main declarations:
    * `Approach.drift`, `Approach.travel_eq_drift`
    * `Approach.Aimed`
    * `reported_success_in_shell`
-/

------------------------------------------------------------
-- The Travel Of An Approach
------------------------------------------------------------

namespace Manipulator

namespace Approach

section Drift

variable {K : Type} [Field K] [LinearOrder K]

/- What the detections ask for, without the speed limit. -/
def drift (axis : Fin 2) (ticks : List (Tick K)) : K :=
  ((ticks.filterMap Tick.error?).map
    fun error => 3 / 2 * (1 / 1000) * error axis).sum

variable [IsStrictOrderedRing K]

/- Coordinates have 32 bits. -/
theorem abs_midpoint_le
    {xyxy : List Int32} {i j : Nat} {center : K}
    (hCenter : midpoint xyxy i j = .ok center) :
    |center| ≤ 2 ^ 31 := by
  simp only [midpoint, bind_eq_ok] at hCenter
  rcases hCenter with ⟨a, _, b, _, hCenter⟩
  have hCenter := pure_eq_ok.mp hCenter
  have hLow : -(2 ^ 32) ≤ a.toInt + b.toInt := by
    have hA := a.le_toInt
    have hB := b.le_toInt
    omega
  have hHigh : a.toInt + b.toInt ≤ 2 ^ 32 := by
    have hA := a.toInt_lt
    have hB := b.toInt_lt
    omega
  have hLow : -(2 ^ 32) ≤ ((a.toInt + b.toInt : Int) : K) := by
    exact_mod_cast hLow
  have hHigh : ((a.toInt + b.toInt : Int) : K) ≤ 2 ^ 32 := by
    exact_mod_cast hHigh
  rw [← hCenter]
  apply abs_le.mpr
  constructor
  · linarith
  · linarith

/- The speed limit is out of reach of any detection. -/
theorem output_of_abs_le
    {error : K}
    (hError : |error| ≤ 2 ^ 31 + 1000) :
    output error = 3 / 2 * (1 / 1000) * error := by
  rcases abs_le.mp hError with ⟨hLow, hHigh⟩
  have hAbove :
      ¬ 3 / 2 * (1 / 1000) * error > speedLimit := by
    unfold speedLimit
    apply not_lt.mpr
    linarith
  have hBelow :
      ¬ 3 / 2 * (1 / 1000) * error < -speedLimit := by
    unfold speedLimit
    apply not_lt.mpr
    linarith
  simp only [output, clampSpeed, hAbove, hBelow, if_false]

omit [IsStrictOrderedRing K] in
/- The error of a tick is that of some box. -/
theorem error?_cases
    {t : Tick K} {error : Fin 2 → K}
    (hError : t.error? = some error) :
    ∃ box i center, boxCenter box i = .ok center ∧
      error = controlError center := by
  unfold Tick.error? at hError
  split at hError
  · split at hError
    · split at hError
      · split at hError
        · rename_i center hCenter
          exact ⟨_, _, center, hCenter,
            (Option.some.inj hError).symm⟩
        · cases hError
      · cases hError
    · cases hError
  · cases hError

/- The error of a box is within those bounds. -/
theorem abs_controlError_le
    {box : BoundingBox K} {i : Nat} {center : K × K}
    (hCenter : boxCenter box i = .ok center)
    (axis : Fin 2) :
    |controlError center axis| ≤ 2 ^ 31 + 1000 := by
  simp only [boxCenter, bind_eq_ok] at hCenter
  rcases hCenter with ⟨x, hX, y, hY, hCenter⟩
  obtain rfl : (x, y) = center := pure_eq_ok.mp hCenter
  have hX := abs_le.mp (abs_midpoint_le hX)
  have hY := abs_le.mp (abs_midpoint_le hY)
  have hTarget : ((targetY : Int) : K) = 280 := by
    norm_num [targetY]
  have hWidth : ((imageWidth : Int) : K) = 640 := by
    norm_num [imageWidth]
  apply abs_le.mpr
  fin_cases axis
  · simp only [controlError, hTarget, Fin.zero_eta,
      Matrix.cons_val_zero]
    constructor
    · linarith
    · linarith
  · simp only [controlError, hWidth, Fin.mk_one,
      Matrix.cons_val_one, Matrix.cons_val_zero]
    constructor
    · linarith
    · linarith

/- The errors of a tick are within those bounds. -/
theorem abs_error_le
    {t : Tick K} {error : Fin 2 → K}
    (hError : t.error? = some error)
    (axis : Fin 2) : |error axis| ≤ 2 ^ 31 + 1000 := by
  rcases error?_cases hError with ⟨box, i, center, hCenter, rfl⟩
  exact abs_controlError_le hCenter axis

theorem travel_eq_drift
    (axis : Fin 2) (ticks : List (Tick K)) :
    travel axis ticks = drift axis ticks := by
  unfold travel drift
  congr 1
  apply List.map_congr_left
  intro error hMember
  rcases List.mem_filterMap.mp hMember with ⟨t, _, hError⟩
  exact output_of_abs_le (abs_error_le hError axis)

end Drift

------------------------------------------------------------
-- The Pose Of A Result
------------------------------------------------------------

section Aimed

variable {K : Type} [Field K] [LinearOrder K]

/-
  A found target is reported where the detections since the
  last start of a goal lead from the start pose.
-/
def Aimed : Event K → List (Event K) → Prop
| .returned _ _ result, earlier =>
    result ≠ noneResult →
      result.goalX = 210 + drift 0 (epoch earlier) ∧
        result.goalY = 40 + drift 1 (epoch earlier) ∧
        result.goalZ = 40
| _, _ => True

theorem aimed_of_run
    [IsStrictOrderedRing K]
    {trig : Trig K} {debugMode : Int}
    {is : List (Input K)} {s : Server K}
    (hRun : (machine trig).Run (Server.init debugMode) is s) :
    History.Each Aimed s.history := by
  apply history_each hRun
  case hStarted => exact fun _ _ => trivial
  case hReceived => exact fun _ _ => trivial
  case hCancel => exact fun _ _ => trivial
  case hTicked => exact fun _ _ _ _ _ => trivial
  case hReturned =>
    intro _ t e result hReached hMember hFinish hFound
    rcases finishGoal_cases hFinish with
      ⟨_, rfl⟩ | ⟨_, _, hReports⟩
    · exact absurd rfl hFound
    · rcases (Tracking.run hReached).pose
          (List.ne_nil_of_mem hMember) with ⟨hX, hY, hZ⟩
      rw [travel_eq_drift] at hX hY
      exact
        ⟨hReports.1.trans hX, hReports.2.1.trans hY,
          hReports.2.2.1.trans hZ⟩

/- A result pose as a command. -/
def resultPose
    (result : ApproachResult K)
    (yaw : K)
    (grip : String)
    (mode : Int) : Pos K :=
  ⟨result.goalX, result.goalY, result.goalZ, yaw, grip, mode⟩

end Aimed

/-
  The arm can be commanded to the pose of a found target
  exactly when the detections lead into the shell.
-/
def ResultInShell : Event ℝ → List (Event ℝ) → Prop
| .returned _ _ result, earlier =>
    result ≠ noneResult →
      ∀ yaw grip mode,
        (IK.poseCallback
          (resultPose result yaw grip mode)).isSome ↔
        IK.InShell (210 + drift 0 (epoch earlier))
          (40 + drift 1 (epoch earlier)) 40
| _, _ => True

end Approach

------------------------------------------------------------
-- Reported Success
------------------------------------------------------------

/-
  In every run of the two servers, whatever the goals, the
  clock and the detections:
    * a move goal that succeeded was commanded to its final
      pose last, and that pose was accepted exactly when it
      is in the shell;
    * the pose of a found target is accepted exactly when
      the detections lead from the start pose into the shell.
-/
theorem reported_success_in_shell
    {is : List Move.Input} {s : Move.Server}
    {trig : Approach.Trig ℝ} {debugMode : Int}
    {js : List (Approach.Input ℝ)} {a : Approach.Server ℝ}
    (hMove : Move.machine.Run .init is s)
    (hApproach :
      (Approach.machine trig).Run
        (Approach.Server.init debugMode) js a) :
    (∀ (goal : Nat) (t : Move.Thread),
        s.threads[goal]? = some t →
          t.handle.ended = some .succeeded →
            Move.lastOf goal s.history =
                some (Move.finite (Move.finalPose t.goal)) ∧
              ((IK.poseCallback
                (Move.finalPose t.goal)).isSome ↔
              IK.InShell t.goal.gX t.goal.gY t.goal.gZ)) ∧
      History.Each Approach.ResultInShell a.history := by
  constructor
  · intro goal t hThread hEnded
    have hLast := Move.ended_at_goal hMove hThread
      (by simp [hEnded])
    exact ⟨hLast, IK.poseCallback_isSome_iff _⟩
  · apply (Approach.aimed_of_run hApproach).imp
    intro event earlier hAimed
    cases event with
    | returned goal handle result =>
        intro hFound yaw grip mode
        rcases hAimed hFound with ⟨hX, hY, hZ⟩
        rw [IK.poseCallback_isSome_iff, ← hX, ← hY, ← hZ]
        rfl
    | started goal => exact trivial
    | received id => exact trivial
    | ticked t => exact trivial
    | cancelAccepted goal => exact trivial


namespace Move

/- A goal along the x axis, 790 long and at a speed of 100. -/
noncomputable def outward : MoveGoal ℝ where
  sX := 210
  sY := 0
  sZ := 40
  sYaw := 0
  speed := 100
  gX := 1000
  gY := 0
  gZ := 40
  gYaw := 0
  grip := "close"

theorem progress_outward : progress outward 10 = .nonzero 1 := by
  have hDistance : distance outward = 790 := by
    have hSquare :
        (1000 - 210) * (1000 - 210) + (0 - 0) * (0 - 0) +
          (40 - 40) * (40 - 40) = (790 : ℝ) * 790 := by
      norm_num
    simp only [distance, outward]
    rw [hSquare]
    exact Real.sqrt_mul_self (by norm_num)
  have hTime : totalTime outward = .nonzero (790 / 100) := by
    rw [totalTime, hDistance]
    norm_num [Double.ofField, outward, Double.div]
  rw [progress, hTime]
  norm_num [Double.ofField, Double.div, Double.clampOne,
    Double.GtOne]

/- The goal from its acceptance to its success. -/
theorem run_outward :
    ∃ s : Server,
      machine.Run .init
          [.goal outward, .run 0 0, .run 0 10, .run 0 10] s ∧
        ∃ t : Thread, s.threads[0]? = some t ∧
          t.goal = outward ∧
          t.handle.ended = some .succeeded := by
  have hPass :
      Server.pass 0 ⟨outward, .moving 0, .new⟩ 0 10
          ⟨[⟨outward, .moving 0, .new⟩], []⟩ =
        ⟨[⟨outward, .leaving, .new⟩],
          [.published 0 (message outward (.nonzero 1))]⟩ := by
    simp [Server.pass, progress_outward, Double.GeOne,
      Server.publish, Server.setThread]
  have hStart :
      machine.Run .init [.goal outward, .run 0 0]
        ⟨[⟨outward, .moving 0, .new⟩], []⟩ :=
    .snoc (.single trivial rfl)
      ⟨_, rfl, by simp⟩ rfl
  have hMoved :
      machine.Run .init [.goal outward, .run 0 0, .run 0 10]
        ⟨[⟨outward, .leaving, .new⟩],
          [.published 0 (message outward (.nonzero 1))]⟩ :=
    .snoc hStart ⟨_, rfl, by simp⟩ (congrArg Except.ok hPass)
  exact ⟨_, .snoc hMoved ⟨_, rfl, by simp⟩ rfl, _, rfl, rfl, rfl⟩

end Move

/-
  The move server reports success for a goal that the arm
  cannot reach.
-/
theorem success_out_of_shell :
    ¬ ∀ (is : List Move.Input) (s : Move.Server)
        (goal : Nat) (t : Move.Thread),
      Move.machine.Run .init is s →
        s.threads[goal]? = some t → 0 < t.goal.speed →
          t.handle.ended = some .succeeded →
            (IK.poseCallback (Move.finalPose t.goal)).isSome := by
  intro hClaim
  rcases Move.run_outward with ⟨s, hRun, t, hThread, hGoal, hEnded⟩
  have hSpeed : 0 < t.goal.speed := by
    rw [hGoal]
    norm_num [Move.outward]
  have hSome := hClaim _ s 0 t hRun hThread hSpeed hEnded
  rw [IK.poseCallback_isSome_iff, hGoal] at hSome
  have hFar := hSome.2
  norm_num [IK.shoulderSquared, Move.finalPose, Move.outward,
    IK.offset, IK.height, IK.linkLength] at hFar

/- A goal that succeeded, and an approach that has not begun. -/
theorem reported_success_in_shell_outward :
    ∃ (s : Move.Server) (t : Move.Thread),
      s.threads[0]? = some t ∧ t.goal = Move.outward ∧
        ((IK.poseCallback (Move.finalPose t.goal)).isSome ↔
          IK.InShell t.goal.gX t.goal.gY t.goal.gZ) := by
  rcases Move.run_outward with ⟨s, hRun, t, hThread, hGoal, hEnded⟩
  have hBoth :=
    reported_success_in_shell hRun
      (.nil (M := Approach.machine Approach.Trig.real)
        (s := Approach.Server.init 0))
  exact ⟨s, t, hThread, hGoal, (hBoth.1 0 t hThread hEnded).2⟩

end Manipulator
