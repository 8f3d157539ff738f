import Manipulator.Messages
import Mathlib

/-
  The inverse kinematics node, `ik.cpp`, over the reals.

  The callback publishes six angles, in degrees, or returns
  early because the pose is out of reach.

  Main declarations:
    * `atan2`, `Target`, `target`
    * `poseCallback`
    * `InShell`, `poseCallback_isSome_iff`
-/

------------------------------------------------------------
-- Parameters
------------------------------------------------------------

namespace Manipulator

namespace IK

/- The length of both links, `L`. -/
noncomputable def linkLength : ℝ := 150

/- The offset of the shoulder, `F`. -/
noncomputable def offset : ℝ := 24.4

/- The height of the shoulder, `H`, as the code uses it. -/
noncomputable def height : ℝ := 115.4

/- `ded_zone`. -/
noncomputable def dedZone : ℝ := 10

noncomputable def openAngle : ℝ := 160

noncomputable def closeAngle : ℝ := 5

/- `std::atan2`. -/
noncomputable def atan2 (y x : ℝ) : ℝ := Complex.arg ⟨x, y⟩

noncomputable def degrees (angle : ℝ) : ℝ :=
  angle * 180 / Real.pi

------------------------------------------------------------
-- The Callback
------------------------------------------------------------

/- `x`, `y` and `z`: the target as seen from the shoulder. -/
structure Target where
  x : ℝ
  y : ℝ
  z : ℝ

noncomputable def target (pose : Pos ℝ) : Target :=
  let theta0 := atan2 pose.y pose.x
  { x := pose.x - offset * Real.sin theta0
    y := pose.y - offset * Real.cos theta0
    z := pose.z + height }

namespace Target

noncomputable def squared (t : Target) : ℝ :=
  t.x * t.x + t.y * t.y + t.z * t.z

noncomputable def norm (t : Target) : ℝ := √t.squared

/- `fai`. -/
noncomputable def fai (t : Target) : ℝ :=
  Real.arccos (t.norm / (2 * linkLength))

/- `fai0`. -/
noncomputable def fai0 (t : Target) : ℝ :=
  atan2 t.z (√(t.x * t.x + t.y * t.y))

/- The angle of the elbow, in radians. -/
noncomputable def elbow (t : Target) : ℝ :=
  Real.arccos
    (1 - t.squared / (2 * linkLength * linkLength))

end Target

/- `theta5`; a grip that is unknown opens the gripper. -/
noncomputable def gripAngle (grip : String) : ℝ :=
  if grip = "open" then openAngle
  else if grip = "close" then closeAngle
  else openAngle

/-
  `pose_callback`. The two early returns come after the code
  has scaled the target into reach, but nothing reads the
  scaled target.
-/
noncomputable def poseCallback
    (pose : Pos ℝ) : Option (Fin 6 → ℝ) :=
  let t := target pose
  if t.norm > 2 * linkLength then none
  else if t.norm < dedZone then none
  else
    let theta0 := degrees (atan2 pose.y pose.x)
    let theta1 := degrees (t.fai0 + t.fai)
    let theta2 := degrees t.elbow
    let theta4 := if pose.mode = 1 then -theta0 else pose.yaw
    let theta5 := gripAngle pose.grip
    let theta3 := 270 - theta1 - theta2
    some ![theta0, theta1, theta2, theta3, theta4, theta5]

------------------------------------------------------------
-- The Reachable Shell
------------------------------------------------------------

/-
  The squared distance of the shoulder from a point. The
  offset of the shoulder turns with the base, so that it
  depends on the direction; at the axis the direction is 0.
-/
noncomputable def shoulderSquared (x y z : ℝ) : ℝ :=
  x ^ 2 + y ^ 2 - 4 * offset * (x * y) / √(x ^ 2 + y ^ 2) +
    offset ^ 2 + (z + height) ^ 2

/- The points that the arm can be commanded to. -/
def InShell (x y z : ℝ) : Prop :=
  dedZone ^ 2 ≤ shoulderSquared x y z ∧
    shoulderSquared x y z ≤ (2 * linkLength) ^ 2

theorem norm_mk (x y : ℝ) :
    ‖(⟨x, y⟩ : ℂ)‖ = √(x ^ 2 + y ^ 2) := by
  rw [Complex.norm_def, Complex.normSq_mk]
  ring_nf

theorem sin_atan2 (y x : ℝ) :
    Real.sin (atan2 y x) = y / √(x ^ 2 + y ^ 2) := by
  rw [atan2, Complex.sin_arg, norm_mk]

theorem cos_atan2
    {y x : ℝ}
    (hAxis : x ^ 2 + y ^ 2 ≠ 0) :
    Real.cos (atan2 y x) = x / √(x ^ 2 + y ^ 2) := by
  have hNe : (⟨x, y⟩ : ℂ) ≠ 0 := by
    intro hZero
    have hX : x = 0 := congrArg Complex.re hZero
    have hY : y = 0 := congrArg Complex.im hZero
    exact hAxis (by simp [hX, hY])
  rw [atan2, Complex.cos_arg hNe, norm_mk]

/- The code's target is as far away as the formula says. -/
theorem squared_target (pose : Pos ℝ) :
    (target pose).squared =
      shoulderSquared pose.x pose.y pose.z := by
  unfold Target.squared target shoulderSquared
  by_cases hAxis : pose.x ^ 2 + pose.y ^ 2 = 0
  · have hX : pose.x = 0 := by nlinarith [sq_nonneg pose.y]
    have hY : pose.y = 0 := by nlinarith [sq_nonneg pose.x]
    have hZero : atan2 0 0 = 0 := by
      rw [atan2]
      exact Complex.arg_zero
    simp only [hX, hY, hZero, Real.sin_zero, Real.cos_zero]
    ring
  · have hPos : 0 < pose.x ^ 2 + pose.y ^ 2 :=
      lt_of_le_of_ne (by positivity) (Ne.symm hAxis)
    have hSqrt : √(pose.x ^ 2 + pose.y ^ 2) ≠ 0 :=
      (Real.sqrt_pos.mpr hPos).ne'
    have hSq :
        √(pose.x ^ 2 + pose.y ^ 2) ^ 2 =
          pose.x ^ 2 + pose.y ^ 2 :=
      Real.sq_sqrt hPos.le
    simp only [sin_atan2, cos_atan2 hAxis]
    generalize √(pose.x ^ 2 + pose.y ^ 2) = r at hSqrt hSq ⊢
    field_simp
    linear_combination (-offset ^ 2) * hSq

theorem Target.squared_nonneg (t : Target) : 0 ≤ t.squared := by
  unfold Target.squared
  nlinarith [mul_self_nonneg t.x, mul_self_nonneg t.y,
    mul_self_nonneg t.z]

theorem Target.norm_sq (t : Target) : t.norm ^ 2 = t.squared :=
  Real.sq_sqrt t.squared_nonneg

/- The distance is within bounds when its square is. -/
theorem norm_le_iff
    {t : Target} {bound : ℝ}
    (hBound : 0 ≤ bound) :
    t.norm ≤ bound ↔ t.squared ≤ bound ^ 2 := by
  unfold Target.norm
  exact Real.sqrt_le_left hBound

theorem le_norm_iff
    {t : Target} {bound : ℝ}
    (hBound : 0 ≤ bound) :
    bound ≤ t.norm ↔ bound ^ 2 ≤ t.squared := by
  unfold Target.norm
  exact Real.le_sqrt hBound t.squared_nonneg

/- The callback publishes exactly for poses in the shell. -/
theorem poseCallback_isSome_iff (pose : Pos ℝ) :
    (poseCallback pose).isSome ↔
      InShell pose.x pose.y pose.z := by
  have hFar : (0 : ℝ) ≤ 2 * linkLength := by
    norm_num [linkLength]
  have hNear : (0 : ℝ) ≤ dedZone := by
    norm_num [dedZone]
  unfold InShell
  rw [← squared_target, ← norm_le_iff hFar,
    ← le_norm_iff hNear]
  unfold poseCallback
  by_cases hOut : (target pose).norm > 2 * linkLength
  · simp [hOut, not_le.mpr hOut]
  · by_cases hClose : (target pose).norm < dedZone
    · simp [hOut, hClose, not_le.mpr hClose]
    · simp [hOut, hClose, not_lt.mp hOut, not_lt.mp hClose]

end IK

end Manipulator
