import Manipulator.Gateway
import Manipulator.IK

/-
  Which poses give servo values that can be represented.

  The gateway casts six values to `uint16_t`. Four of them
  can be negative or, for a large yaw, out of range. This
  module says for which poses none of them is.

  Main declarations:
    * `Servo.Representable`, `Servo.Safe`
    * `servo_values_representable_iff`
-/

------------------------------------------------------------
-- Safe Poses
------------------------------------------------------------

namespace Manipulator

namespace Servo

/- A value that the cast keeps, up to its fraction. -/
def Representable (value : ℝ) : Prop :=
  0 ≤ value ∧ value < 65536

/- Radians from degrees. -/
noncomputable def radians (angle : ℝ) : ℝ :=
  angle * Real.pi / 180

/- The distance of the shoulder from the point of a pose. -/
noncomputable def reach (pose : Pos ℝ) : ℝ :=
  √(IK.shoulderSquared pose.x pose.y pose.z)

/- The elevation of the point above the shoulder. -/
noncomputable def elevation (pose : Pos ℝ) : ℝ :=
  Real.arcsin ((pose.z + IK.height) / reach pose)

/-
  The poses all of whose servo values are representable:
    * the base does not turn below -135 degrees;
    * the forearm is not too far below the upper arm;
    * the gripper does not turn beyond 900/7 degrees, where
      in mode 1 it turns against the base.
-/
structure Safe (pose : Pos ℝ) : Prop where
  base : ¬ (pose.x < pose.y ∧ pose.y < 0)
  forearm :
    radians (-872 / 7) ≤
      elevation pose -
        Real.arccos (reach pose / (2 * IK.linkLength))
  fixedGripper :
    pose.mode = 1 →
      0 ≤ pose.y ∨
        Real.cos (radians (900 / 7)) *
            √(pose.x ^ 2 + pose.y ^ 2) ≤ pose.x
  freeGripper :
    pose.mode ≠ 1 →
      -654460 / 7 < pose.yaw ∧ pose.yaw ≤ 900 / 7

------------------------------------------------------------
-- The Base
------------------------------------------------------------

/- Below the x axis the direction is an arc cosine. -/
theorem atan2_neg
    {y x : ℝ}
    (hY : y < 0) :
    IK.atan2 y x = -Real.arccos (x / √(x ^ 2 + y ^ 2)) := by
  rw [IK.atan2, Complex.arg_of_im_neg hY, IK.norm_mk]

theorem degrees_mono
    {a b : ℝ} :
    IK.degrees a ≤ IK.degrees b ↔ a ≤ b := by
  unfold IK.degrees
  rw [div_le_div_iff_of_pos_right Real.pi_pos]
  constructor
  · intro h
    linarith
  · intro h
    linarith

theorem degrees_zero : IK.degrees 0 = 0 := by
  simp [IK.degrees]

theorem degrees_pi : IK.degrees Real.pi = 180 := by
  have hPi : Real.pi ≠ 0 := Real.pi_ne_zero
  unfold IK.degrees
  field_simp

theorem degrees_neg (a : ℝ) :
    IK.degrees (-a) = -IK.degrees a := by
  unfold IK.degrees
  ring

theorem degrees_radians (a : ℝ) :
    IK.degrees (radians a) = a := by
  unfold IK.degrees radians
  have hPi : Real.pi ≠ 0 := Real.pi_ne_zero
  field_simp

theorem radians_le_iff {a b : ℝ} :
    radians a ≤ b ↔ a ≤ IK.degrees b := by
  rw [← degrees_mono, degrees_radians]

theorem radians_neg (a : ℝ) : radians (-a) = -radians a := by
  unfold radians
  ring

/-
  The direction of a point in the lower half plane is at
  least `-angle` when the point is not too far left.
-/
theorem neg_le_atan2_iff
    {y x angle : ℝ}
    (hY : y < 0)
    (hLow : 0 ≤ angle)
    (hHigh : angle ≤ Real.pi) :
    -angle ≤ IK.atan2 y x ↔
      Real.cos angle * √(x ^ 2 + y ^ 2) ≤ x := by
  have hPos : 0 < √(x ^ 2 + y ^ 2) := by
    apply Real.sqrt_pos.mpr
    nlinarith [sq_nonneg x, sq_pos_of_neg hY]
  have hSq : √(x ^ 2 + y ^ 2) ^ 2 = x ^ 2 + y ^ 2 :=
    Real.sq_sqrt (by positivity)
  have hBound : |x| ≤ √(x ^ 2 + y ^ 2) :=
    Real.abs_le_sqrt (by nlinarith [sq_nonneg y])
  have hCos :
      Real.cos (Real.arccos (x / √(x ^ 2 + y ^ 2))) =
        x / √(x ^ 2 + y ^ 2) := by
    rcases abs_le.mp hBound with ⟨hMin, hMax⟩
    apply Real.cos_arccos
    · rw [le_div_iff₀ hPos]
      linarith
    · rw [div_le_iff₀ hPos]
      linarith
  have hAnti :=
    Real.strictAntiOn_cos.le_iff_ge
      (⟨hLow, hHigh⟩ : angle ∈ Set.Icc 0 Real.pi)
      ⟨Real.arccos_nonneg (x / √(x ^ 2 + y ^ 2)),
        Real.arccos_le_pi _⟩
  rw [hCos] at hAnti
  rw [atan2_neg hY, neg_le_neg_iff, ← le_div_iff₀ hPos]
  exact hAnti.symm

theorem atan2_nonneg
    {y x : ℝ}
    (hY : 0 ≤ y) : 0 ≤ IK.atan2 y x :=
  Complex.arg_nonneg_iff.mpr hY

/- The base turns by at least -135 degrees. -/
theorem base_iff (y x : ℝ) :
    -135 ≤ IK.degrees (IK.atan2 y x) ↔
      ¬ (x < y ∧ y < 0) := by
  have hAngle : IK.degrees (-(3 * Real.pi / 4)) = -135 := by
    have hPi : Real.pi ≠ 0 := Real.pi_ne_zero
    unfold IK.degrees
    field_simp
    norm_num
  rw [← hAngle, degrees_mono]
  have hPi := Real.pi_pos
  by_cases hY : y < 0
  · have hCos : Real.cos (3 * Real.pi / 4) = -(√2 / 2) := by
      have hSplit : 3 * Real.pi / 4 = Real.pi - Real.pi / 4 := by
        ring
      rw [hSplit, Real.cos_pi_sub, Real.cos_pi_div_four]
    rw [neg_le_atan2_iff hY (by linarith) (by linarith), hCos]
    have hTwo : √2 ^ 2 = (2 : ℝ) := Real.sq_sqrt (by norm_num)
    have hTwoPos : 0 < √(2 : ℝ) := by positivity
    have hSq : √(x ^ 2 + y ^ 2) ^ 2 = x ^ 2 + y ^ 2 :=
      Real.sq_sqrt (by positivity)
    have hNonneg : 0 ≤ √(x ^ 2 + y ^ 2) := Real.sqrt_nonneg _
    generalize √(x ^ 2 + y ^ 2) = r at hSq hNonneg ⊢
    generalize √(2 : ℝ) = u at hTwo hTwoPos ⊢
    constructor
    · rintro hLe ⟨hLess, _⟩
      nlinarith [mul_nonneg hTwoPos.le hNonneg]
    · intro hOutside
      have hLe : y ≤ x := by
        by_contra hLess
        exact hOutside ⟨not_le.mp hLess, hY⟩
      by_cases hX : 0 ≤ x
      · nlinarith [mul_nonneg hTwoPos.le hNonneg]
      · rw [not_le] at hX
        have hSquares : (2 * x) ^ 2 ≤ (u * r) ^ 2 := by
          have hProduct : (u * r) ^ 2 = 2 * (x ^ 2 + y ^ 2) := by
            rw [mul_pow, hTwo, hSq]
          nlinarith
        have hBound :=
          (abs_le_of_sq_le_sq' hSquares
            (mul_nonneg hTwoPos.le hNonneg)).1
        linarith
  · rw [not_lt] at hY
    have hNonneg := atan2_nonneg (x := x) hY
    refine iff_of_true (by linarith) ?_
    rintro ⟨_, hNeg⟩
    linarith

------------------------------------------------------------
-- The Links
------------------------------------------------------------

/- What an accepted target is known to satisfy. -/
theorem norm_bounds
    {pose : Pos ℝ} {angles : Fin 6 → ℝ}
    (hAccepted : IK.poseCallback pose = some angles) :
    IK.dedZone ≤ (IK.target pose).norm ∧
      (IK.target pose).norm ≤ 2 * IK.linkLength := by
  unfold IK.poseCallback at hAccepted
  by_cases hOut :
      (IK.target pose).norm > 2 * IK.linkLength
  · simp [hOut] at hAccepted
  · by_cases hClose : (IK.target pose).norm < IK.dedZone
    · simp [hOut, hClose] at hAccepted
    · exact ⟨not_lt.mp hClose, not_lt.mp hOut⟩

/- The angles that the callback publishes. -/
theorem angles_eq
    {pose : Pos ℝ} {angles : Fin 6 → ℝ}
    (hAccepted : IK.poseCallback pose = some angles) :
    let t := IK.target pose
    let theta0 := IK.degrees (IK.atan2 pose.y pose.x)
    let theta1 := IK.degrees (t.fai0 + t.fai)
    let theta2 := IK.degrees t.elbow
    angles =
      ![theta0, theta1, theta2, 270 - theta1 - theta2,
        if pose.mode = 1 then -theta0 else pose.yaw,
        IK.gripAngle pose.grip] := by
  have hBounds := norm_bounds hAccepted
  unfold IK.poseCallback at hAccepted
  simp only [not_lt.mpr hBounds.1, not_lt.mpr hBounds.2,
    if_false, Option.some.injEq] at hAccepted
  exact hAccepted.symm

section Links

variable {t : IK.Target}

/- `fai0` is the elevation of the target. -/
theorem fai0_eq (t : IK.Target) :
    t.fai0 = Real.arcsin (t.z / t.norm) := by
  have hSum :
      √(t.x * t.x + t.y * t.y) ^ 2 + t.z ^ 2 = t.squared := by
    have hNonneg : 0 ≤ t.x * t.x + t.y * t.y :=
      add_nonneg (mul_self_nonneg _) (mul_self_nonneg _)
    rw [Real.sq_sqrt hNonneg, IK.Target.squared]
    ring
  rw [IK.Target.fai0, IK.atan2,
    Complex.arg_of_re_nonneg (Real.sqrt_nonneg _), IK.norm_mk,
    hSum]
  rfl

/- The elbow opens twice as far as `fai` closes. -/
theorem elbow_eq
    (hNorm : t.norm ≤ 2 * IK.linkLength) :
    t.elbow = Real.pi - 2 * t.fai := by
  have hNonneg : 0 ≤ t.norm := Real.sqrt_nonneg _
  have hLength : (0 : ℝ) < 2 * IK.linkLength := by
    norm_num [IK.linkLength]
  have hRatio : 0 ≤ t.norm / (2 * IK.linkLength) :=
    div_nonneg hNonneg hLength.le
  have hOne : t.norm / (2 * IK.linkLength) ≤ 1 :=
    (div_le_one hLength).mpr hNorm
  have hSquared := t.norm_sq
  have hCos :
      1 - t.squared / (2 * IK.linkLength * IK.linkLength) =
        Real.cos (Real.pi - 2 * t.fai) := by
    rw [Real.cos_pi_sub, Real.cos_two_mul, IK.Target.fai,
      Real.cos_arccos (by linarith) hOne, ← hSquared]
    have hLink : IK.linkLength ≠ 0 := by
      norm_num [IK.linkLength]
    field_simp
    ring
  have hFai : t.fai ≤ Real.pi / 2 :=
    Real.arccos_le_pi_div_two.mpr hRatio
  have hFaiNonneg : 0 ≤ t.fai := Real.arccos_nonneg _
  rw [IK.Target.elbow, hCos]
  apply Real.arccos_cos
  · linarith
  · linarith

end Links

/- The formula for the distance, as the code computes it. -/
theorem reach_eq (pose : Pos ℝ) :
    reach pose = (IK.target pose).norm := by
  rw [reach, ← IK.squared_target]
  rfl

/- How far the forearm is below the upper arm, in radians. -/
theorem lift_eq (pose : Pos ℝ) :
    (IK.target pose).fai0 - (IK.target pose).fai =
      elevation pose -
        Real.arccos (reach pose / (2 * IK.linkLength)) := by
  rw [fai0_eq, elevation, reach_eq]
  rfl

------------------------------------------------------------
-- The Servos
------------------------------------------------------------

open Gateway

theorem servo0_iff (pose : Pos ℝ) :
    Representable
        (servo0 (IK.degrees (IK.atan2 pose.y pose.x))) ↔
      ¬ (pose.x < pose.y ∧ pose.y < 0) := by
  have hHigh :
      IK.degrees (IK.atan2 pose.y pose.x) ≤ 180 := by
    rw [← degrees_pi, degrees_mono]
    exact Complex.arg_le_pi _
  rw [← base_iff, Representable, servo0]
  constructor
  · intro hRange
    linarith [hRange.1]
  · intro hBase
    constructor
    · linarith
    · linarith

/- The upper arm always stays in range. -/
theorem servo1_representable
    {angle : ℝ}
    (hLow : -90 ≤ angle)
    (hHigh : angle ≤ 180) : Representable (servo1 angle) := by
  unfold Representable servo1
  by_cases hNeg : 180 - (angle + 7) - 90 < 0
  · simp only [hNeg, if_true]
    constructor
    · linarith
    · linarith
  · simp only [hNeg, if_false]
    constructor
    · linarith
    · linarith

theorem servo2_representable
    {angle : ℝ}
    (hLow : 0 ≤ angle)
    (hHigh : angle ≤ 180) : Representable (servo2 angle) := by
  unfold Representable servo2
  constructor
  · linarith
  · linarith

/- The forearm, by the angle between it and the floor. -/
theorem servo3_iff
    {lift : ℝ}
    (hHigh : lift ≤ 90) :
    Representable (servo3 (270 - (lift + 180))) ↔
      -872 / 7 ≤ lift := by
  unfold Representable servo3
  constructor
  · intro hRange
    linarith [hRange.1]
  · intro hLow
    constructor
    · linarith
    · linarith

theorem servo4_iff (angle : ℝ) :
    Representable (servo4 angle) ↔
      -654460 / 7 < angle ∧ angle ≤ 900 / 7 := by
  unfold Representable servo4
  constructor
  · rintro ⟨hLow, hHigh⟩
    constructor
    · linarith
    · linarith
  · rintro ⟨hLow, hHigh⟩
    constructor
    · linarith
    · linarith

theorem servo5_representable (grip : String) :
    Representable (servo5 (IK.gripAngle grip)) := by
  unfold IK.gripAngle
  split
  · norm_num [Representable, servo5, IK.openAngle]
  · split
    · norm_num [Representable, servo5, IK.closeAngle]
    · norm_num [Representable, servo5, IK.openAngle]

/- The gripper in mode 1, which turns against the base. -/
theorem servo4_fixed_iff (pose : Pos ℝ) :
    Representable
        (servo4 (-IK.degrees (IK.atan2 pose.y pose.x))) ↔
      0 ≤ pose.y ∨
        Real.cos (radians (900 / 7)) *
            √(pose.x ^ 2 + pose.y ^ 2) ≤ pose.x := by
  have hHigh :
      IK.degrees (IK.atan2 pose.y pose.x) ≤ 180 := by
    rw [← degrees_pi, degrees_mono]
    exact Complex.arg_le_pi _
  have hRadians :
      0 ≤ radians (900 / 7) ∧ radians (900 / 7) ≤ Real.pi := by
    unfold radians
    have hPi := Real.pi_pos
    constructor
    · positivity
    · linarith
  have hTurn :
      -IK.degrees (IK.atan2 pose.y pose.x) ≤ 900 / 7 ↔
        -radians (900 / 7) ≤ IK.atan2 pose.y pose.x := by
    rw [← radians_neg, radians_le_iff, neg_le]
  rw [servo4_iff, hTurn]
  by_cases hY : pose.y < 0
  · rw [neg_le_atan2_iff hY hRadians.1 hRadians.2]
    constructor
    · intro hRange
      exact .inr hRange.2
    · intro hRange
      refine ⟨by linarith, hRange.resolve_left ?_⟩
      exact not_le.mpr hY
  · rw [not_lt] at hY
    have hNonneg := atan2_nonneg (x := pose.x) hY
    refine iff_of_true ⟨by linarith, ?_⟩ (.inl hY)
    linarith [hRadians.1]

/- The links of an accepted pose, in degrees. -/
theorem links_bounds
    {t : IK.Target}
    (hNorm : t.norm ≤ 2 * IK.linkLength) :
    (-90 ≤ IK.degrees (t.fai0 + t.fai) ∧
        IK.degrees (t.fai0 + t.fai) ≤ 180) ∧
      (0 ≤ IK.degrees t.elbow ∧ IK.degrees t.elbow ≤ 180) ∧
      IK.degrees (t.fai0 - t.fai) ≤ 90 := by
  have hNonneg : 0 ≤ t.norm := Real.sqrt_nonneg _
  have hLength : (0 : ℝ) < 2 * IK.linkLength := by
    norm_num [IK.linkLength]
  have hFai : t.fai ≤ Real.pi / 2 :=
    Real.arccos_le_pi_div_two.mpr
      (div_nonneg hNonneg hLength.le)
  have hFaiNonneg : 0 ≤ t.fai := Real.arccos_nonneg _
  have hLow : -(Real.pi / 2) ≤ t.fai0 := by
    rw [fai0_eq]
    exact Real.neg_pi_div_two_le_arcsin _
  have hHigh : t.fai0 ≤ Real.pi / 2 := by
    rw [fai0_eq]
    exact Real.arcsin_le_pi_div_two _
  have hQuarter : IK.degrees (Real.pi / 2) = 90 := by
    have hPi : Real.pi ≠ 0 := Real.pi_ne_zero
    unfold IK.degrees
    field_simp
    norm_num
  refine ⟨⟨?_, ?_⟩, ⟨?_, ?_⟩, ?_⟩
  · rw [← hQuarter, ← degrees_neg, degrees_mono]
    linarith
  · rw [← degrees_pi, degrees_mono]
    linarith
  · rw [← degrees_zero, degrees_mono, elbow_eq hNorm]
    linarith
  · rw [← degrees_pi, degrees_mono, elbow_eq hNorm]
    linarith
  · rw [← hQuarter, degrees_mono]
    linarith

/- The angle of the forearm, through the elbow. -/
theorem forearm_eq
    {t : IK.Target}
    (hNorm : t.norm ≤ 2 * IK.linkLength) :
    270 - IK.degrees (t.fai0 + t.fai) - IK.degrees t.elbow =
      270 - (IK.degrees (t.fai0 - t.fai) + 180) := by
  have hPi : Real.pi ≠ 0 := Real.pi_ne_zero
  rw [elbow_eq hNorm]
  unfold IK.degrees
  field_simp
  ring

/-
  The six servo values of an accepted pose are representable
  exactly when the pose is safe.
-/
theorem servo_values_representable_iff
    {pose : Pos ℝ} {angles : Fin 6 → ℝ}
    (hAccepted : IK.poseCallback pose = some angles) :
    (∀ i, Representable (servoValues angles i)) ↔
      Safe pose := by
  have hNorm := (norm_bounds hAccepted).2
  rcases links_bounds hNorm with ⟨hUpper, hElbow, hLift⟩
  have hAngles := angles_eq hAccepted
  have hForearm :
      -872 / 7 ≤
          IK.degrees
            ((IK.target pose).fai0 - (IK.target pose).fai) ↔
        radians (-872 / 7) ≤
          elevation pose -
            Real.arccos (reach pose / (2 * IK.linkLength)) := by
    rw [← lift_eq, radians_le_iff]
  simp only at hAngles
  rw [forearm_eq hNorm] at hAngles
  subst hAngles
  constructor
  · intro hAll
    constructor
    case base => exact (servo0_iff pose).mp (hAll 0)
    case forearm =>
      exact hForearm.mp ((servo3_iff hLift).mp (hAll 3))
    case fixedGripper =>
      intro hMode
      have hGripper := hAll 4
      simp only [hMode] at hGripper
      exact (servo4_fixed_iff pose).mp hGripper
    case freeGripper =>
      intro hMode
      have hGripper := hAll 4
      simp only [hMode] at hGripper
      exact (servo4_iff _).mp hGripper
  · intro hSafe i
    fin_cases i
    · exact (servo0_iff pose).mpr hSafe.base
    · exact servo1_representable hUpper.1 hUpper.2
    · exact servo2_representable hElbow.1 hElbow.2
    · exact (servo3_iff hLift).mpr (hForearm.mpr hSafe.forearm)
    · by_cases hMode : pose.mode = 1
      · have hGripper :=
          (servo4_fixed_iff pose).mpr (hSafe.fixedGripper hMode)
        simpa [servoValues, hMode] using hGripper
      · have hGripper :=
          (servo4_iff pose.yaw).mpr (hSafe.freeGripper hMode)
        simpa [servoValues, hMode] using hGripper
    · exact servo5_representable pose.grip

------------------------------------------------------------
-- Two Poses
------------------------------------------------------------

/- A pose behind the base, at the height of the shoulder. -/
noncomputable def behind : Pos ℝ :=
  ⟨-160, -120, -115.4, 0, "open", 0⟩

/- A pose in front of the base. -/
noncomputable def inFront : Pos ℝ :=
  ⟨210, 0, 40, 0, "open", 0⟩

/- An accepted pose whose first servo value is negative. -/
theorem accepted_not_representable :
    ¬ ∀ (pose : Pos ℝ) (angles : Fin 6 → ℝ),
      IK.poseCallback pose = some angles →
        ∀ i, Representable (servoValues angles i) := by
  intro hClaim
  have hShell :
      IK.InShell behind.x behind.y behind.z := by
    have hRadius :
        √((-160 : ℝ) ^ 2 + (-120) ^ 2) = 200 := by
      have hSquare : (-160 : ℝ) ^ 2 + (-120) ^ 2 = 200 ^ 2 := by
        norm_num
      rw [hSquare]
      exact Real.sqrt_sq (by norm_num)
    simp only [IK.InShell, IK.shoulderSquared, behind, hRadius]
    norm_num [IK.offset, IK.height, IK.dedZone, IK.linkLength]
  have hSome := (IK.poseCallback_isSome_iff behind).mpr hShell
  rcases Option.isSome_iff_exists.mp hSome with
    ⟨angles, hAccepted⟩
  have hBase := hClaim behind angles hAccepted 0
  rw [angles_eq hAccepted] at hBase
  apply (servo0_iff behind).mp hBase
  norm_num [behind]

/- A pose in front of the base is accepted. -/
theorem servo_values_representable_iff_inFront :
    ∃ angles, IK.poseCallback inFront = some angles ∧
      ((∀ i, Representable (servoValues angles i)) ↔
        Safe inFront) := by
  have hShell :
      IK.InShell inFront.x inFront.y inFront.z := by
    simp only [IK.InShell, IK.shoulderSquared, inFront]
    norm_num [IK.offset, IK.height, IK.dedZone, IK.linkLength]
  have hSome := (IK.poseCallback_isSome_iff inFront).mpr hShell
  rcases Option.isSome_iff_exists.mp hSome with
    ⟨angles, hAccepted⟩
  exact
    ⟨angles, hAccepted,
      servo_values_representable_iff hAccepted⟩

end Servo

end Manipulator
