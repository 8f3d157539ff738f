import Manipulator.Shoulder

/-
  Turning a target about the base axis.

  The base turns by `theta0`, and the offset of the shoulder
  is taken off with factors of the same angle. These are not
  the coordinates of one direction in the frame of the base,
  so that what is left depends on where the target stands.

  Main declarations:
    * `IK.Turned`, `IK.Symmetric`
    * `IK.theta0_turned`
    * `IK.squared_eq_iff`
    * `IK.symmetric_iff`
-/

------------------------------------------------------------
-- Two Targets
------------------------------------------------------------

namespace Manipulator

namespace IK

open Servo

/- `q` is `p` turned about the base axis, at its height. -/
structure Turned (phi : ℝ) (p q : Pos ℝ) : Prop where
  x : q.x = Real.cos phi * p.x - Real.sin phi * p.y
  y : q.y = Real.sin phi * p.x + Real.cos phi * p.y
  z : q.z = p.z

/- The published angles differ by the turn of the base. -/
structure TurnedAngles (phi : ℝ) (a b : Fin 6 → ℝ) : Prop where
  theta0 : ∃ k : ℤ, b 0 = a 0 + degrees phi + 360 * k
  theta1 : b 1 = a 1
  theta2 : b 2 = a 2
  theta3 : b 3 = a 3

/- Both poses are rejected, or their angles correspond. -/
def Symmetric (phi : ℝ) (p q : Pos ℝ) : Prop :=
  poseCallback p = none ∧ poseCallback q = none ∨
    ∃ a b, poseCallback p = some a ∧ poseCallback q = some b ∧
      TurnedAngles phi a b

variable {phi : ℝ} {p q : Pos ℝ}

/- A turn keeps the distance from the axis. -/
theorem Turned.radius
    (hTurned : Turned phi p q) :
    q.x ^ 2 + q.y ^ 2 = p.x ^ 2 + p.y ^ 2 := by
  rw [hTurned.x, hTurned.y]
  linear_combination
    (p.x ^ 2 + p.y ^ 2) * Real.cos_sq_add_sin_sq phi

/- The base turns by the turn of the target. -/
theorem theta0_turned
    (hAxis : 0 < p.x ^ 2 + p.y ^ 2)
    (hTurned : Turned phi p q) :
    ∃ k : ℤ,
      degrees (atan2 q.y q.x) =
        degrees (atan2 p.y p.x) + degrees phi + 360 * k := by
  have hPoint : (⟨p.x, p.y⟩ : ℂ) ≠ 0 := by
    intro hZero
    have hX : p.x = 0 := congrArg Complex.re hZero
    have hY : p.y = 0 := congrArg Complex.im hZero
    simp [hX, hY] at hAxis
  have hTurn : (⟨Real.cos phi, Real.sin phi⟩ : ℂ) ≠ 0 := by
    intro hZero
    have hCos : Real.cos phi = 0 := congrArg Complex.re hZero
    have hSin : Real.sin phi = 0 := congrArg Complex.im hZero
    have hOne := Real.cos_sq_add_sin_sq phi
    simp [hCos, hSin] at hOne
  have hProduct :
      (⟨q.x, q.y⟩ : ℂ) =
        ⟨Real.cos phi, Real.sin phi⟩ * ⟨p.x, p.y⟩ := by
    apply Complex.ext
    · exact hTurned.x
    · rw [Complex.mul_im]
      linarith [hTurned.y]
  have hTurnAngle :
      (Complex.arg ⟨Real.cos phi, Real.sin phi⟩ : Real.Angle) =
        phi := by
    have hAngle := Complex.arg_cos_add_sin_mul_I_coe_angle phi
    rwa [Real.Angle.cos_coe, Real.Angle.sin_coe,
      ← Complex.mk_eq_add_mul_I] at hAngle
  have hAngle :
      (atan2 q.y q.x : Real.Angle) =
        ((phi + atan2 p.y p.x : ℝ) : Real.Angle) := by
    unfold atan2
    rw [hProduct, Complex.arg_mul_coe_angle hTurn hPoint,
      hTurnAngle, Real.Angle.coe_add]
  rcases Real.Angle.angle_eq_iff_two_pi_dvd_sub.mp hAngle with
    ⟨k, hTurns⟩
  refine ⟨k, ?_⟩
  have hPi : Real.pi ≠ 0 := Real.pi_ne_zero
  have hSum :
      atan2 q.y q.x =
        atan2 p.y p.x + phi + 2 * Real.pi * k := by
    linarith
  rw [hSum]
  unfold degrees
  field_simp
  ring

/-
  The shoulder is as far from both targets exactly when the
  products of their coordinates agree.
-/
theorem squared_eq_iff
    (hAxis : 0 < p.x ^ 2 + p.y ^ 2)
    (hTurned : Turned phi p q) :
    (target q).squared = (target p).squared ↔
      p.x * p.y = q.x * q.y := by
  have hRadius : 0 < √(p.x ^ 2 + p.y ^ 2) :=
    Real.sqrt_pos.mpr hAxis
  have hOffset : (0 : ℝ) < 4 * offset := by
    norm_num [offset]
  rw [squared_target, squared_target, shoulderSquared,
    shoulderSquared, hTurned.radius, hTurned.z]
  constructor
  · intro hSame
    have hTerm :
        4 * offset * (q.x * q.y) / √(p.x ^ 2 + p.y ^ 2) =
          4 * offset * (p.x * p.y) / √(p.x ^ 2 + p.y ^ 2) := by
      linarith
    have hProduct := (div_left_inj' hRadius.ne').mp hTerm
    exact (mul_left_cancel₀ hOffset.ne' hProduct).symm
  · intro hProduct
    rw [hProduct]

/- The angles of the arm follow from distance and height. -/
theorem arm_eq_of_squared
    {t u : Target}
    (hSquared : u.squared = t.squared)
    (hHeight : u.z = t.z) :
    u.fai0 = t.fai0 ∧ u.fai = t.fai ∧ u.elbow = t.elbow := by
  have hNorm : u.norm = t.norm := by
    rw [Target.norm, hSquared, Target.norm]
  refine ⟨?_, ?_, ?_⟩
  · rw [fai0_eq, fai0_eq, hNorm, hHeight]
  · rw [Target.fai, hNorm, Target.fai]
  · rw [Target.elbow, hSquared, Target.elbow]

/- The elbow determines the distance of the target. -/
theorem squared_of_elbow
    {t u : Target}
    (hNorm : t.norm ≤ 2 * linkLength)
    (hNorm' : u.norm ≤ 2 * linkLength)
    (hElbow : u.elbow = t.elbow) : u.squared = t.squared := by
  have hArea : 2 * linkLength * linkLength ≠ 0 := by
    norm_num [linkLength]
  have hCosine :=
    Real.arccos_injOn (elbow_mem hNorm') (elbow_mem hNorm)
      hElbow
  have hRatio :
      u.squared / (2 * linkLength * linkLength) =
        t.squared / (2 * linkLength * linkLength) := by
    linarith
  exact (div_left_inj' hArea).mp hRatio

theorem degrees_injective : Function.Injective degrees := by
  intro a b hSame
  have hRadians := congrArg radians hSame
  rwa [radians_degrees, radians_degrees] at hRadians

/- Poses that are as far from the shoulder correspond. -/
theorem symmetric_of_squared
    (hAxis : 0 < p.x ^ 2 + p.y ^ 2)
    (hTurned : Turned phi p q)
    (hSquared : (target q).squared = (target p).squared) :
    Symmetric phi p q := by
  have hShell :
      InShell q.x q.y q.z ↔ InShell p.x p.y p.z := by
    unfold InShell
    rw [← squared_target, ← squared_target, hSquared]
  cases hAccepted : poseCallback p with
  | none =>
      have hOut : ¬ InShell p.x p.y p.z := by
        rw [← poseCallback_isSome_iff, hAccepted]
        simp
      rw [← hShell, ← poseCallback_isSome_iff,
        Option.not_isSome_iff_eq_none] at hOut
      exact .inl ⟨hAccepted, hOut⟩
  | some a =>
      have hIn : InShell p.x p.y p.z := by
        rw [← poseCallback_isSome_iff, hAccepted]
        rfl
      rw [← hShell, ← poseCallback_isSome_iff] at hIn
      rcases Option.isSome_iff_exists.mp hIn with
        ⟨b, hAccepted'⟩
      have hHeight : (target q).z = (target p).z :=
        congrArg (· + height) hTurned.z
      rcases arm_eq_of_squared hSquared hHeight with
        ⟨hFai0, hFai, hElbow⟩
      have hAngles := angles_eq hAccepted
      have hAngles' := angles_eq hAccepted'
      simp only [hFai0, hFai, hElbow] at hAngles'
      refine .inr ⟨a, b, hAccepted, hAccepted', ?_⟩
      rw [hAngles, hAngles']
      constructor
      case theta0 => exact theta0_turned hAxis hTurned
      case theta1 => simp only [Matrix.cons_val]
      case theta2 => simp only [Matrix.cons_val]
      case theta3 => simp only [Matrix.cons_val]

/-
  Turning a target about the base axis turns the base and
  nothing else, exactly when the product of its coordinates
  stays the same or both targets are out of reach.
-/
theorem symmetric_iff
    (hAxis : 0 < p.x ^ 2 + p.y ^ 2)
    (hTurned : Turned phi p q) :
    Symmetric phi p q ↔
      p.x * p.y = q.x * q.y ∨
        ¬ InShell p.x p.y p.z ∧ ¬ InShell q.x q.y q.z := by
  constructor
  · rintro (⟨hNone, hNone'⟩ | ⟨a, b, hSome, hSome', hAngles⟩)
    · rw [← poseCallback_isSome_iff, ← poseCallback_isSome_iff,
        hNone, hNone']
      exact .inr ⟨by simp, by simp⟩
    · have hElbow := hAngles.theta2
      rw [angles_eq hSome, angles_eq hSome'] at hElbow
      have hSquared :=
        squared_of_elbow (norm_bounds hSome).2
          (norm_bounds hSome').2 (degrees_injective hElbow)
      exact .inl ((squared_eq_iff hAxis hTurned).mp hSquared)
  · rintro (hProduct | ⟨hOut, hOut'⟩)
    · exact
        symmetric_of_squared hAxis hTurned
          ((squared_eq_iff hAxis hTurned).mpr hProduct)
    · rw [← poseCallback_isSome_iff,
        Option.not_isSome_iff_eq_none] at hOut hOut'
      exact .inl ⟨hOut, hOut'⟩

------------------------------------------------------------
-- At The Limit Of The Reach
------------------------------------------------------------

/- A target on the x axis, as high as the shoulder. -/
noncomputable def onAxis : Pos ℝ where
  x := 300
  y := 0
  z := -115.4
  yaw := 0
  grip := "open"
  mode := 0

/- The same target, turned by an eighth of a circle. -/
noncomputable def onDiagonal : Pos ℝ where
  x := Real.cos (Real.pi / 4) * 300
  y := Real.sin (Real.pi / 4) * 300
  z := -115.4
  yaw := 0
  grip := "open"
  mode := 0

/- The same target, turned by a quarter of a circle. -/
noncomputable def onOtherAxis : Pos ℝ where
  x := 0
  y := 300
  z := -115.4
  yaw := 0
  grip := "open"
  mode := 0

theorem symmetric_iff_quarter :
    Symmetric (Real.pi / 2) onAxis onOtherAxis ↔
      onAxis.x * onAxis.y = onOtherAxis.x * onOtherAxis.y ∨
        ¬ InShell onAxis.x onAxis.y onAxis.z ∧
          ¬ InShell onOtherAxis.x onOtherAxis.y
              onOtherAxis.z := by
  apply symmetric_iff
  · norm_num [onAxis]
  · constructor
    · simp [onAxis, onOtherAxis]
    · simp [onAxis, onOtherAxis]
    · rfl

/- The axis is out of reach, the diagonal is not. -/
theorem not_symmetric :
    ¬ ∀ (phi : ℝ) (p q : Pos ℝ),
        0 < p.x ^ 2 + p.y ^ 2 → Turned phi p q →
          Symmetric phi p q := by
  intro hClaim
  have hTurned : Turned (Real.pi / 4) onAxis onDiagonal := by
    constructor
    · simp [onAxis, onDiagonal]
    · simp [onAxis, onDiagonal]
    · rfl
  have hOut :
      ¬ InShell onAxis.x onAxis.y onAxis.z := by
    norm_num [InShell, shoulderSquared, onAxis, offset, height,
      dedZone, linkLength]
  have hIn :
      InShell onDiagonal.x onDiagonal.y onDiagonal.z := by
    have hRadius : onDiagonal.x ^ 2 + onDiagonal.y ^ 2 = 300 ^ 2 := by
      rw [hTurned.radius]
      norm_num [onAxis]
    have hProduct : onDiagonal.x * onDiagonal.y = 45000 := by
      have hHalf : √2 * √2 = (2 : ℝ) :=
        Real.mul_self_sqrt (by norm_num)
      simp only [onDiagonal, Real.cos_pi_div_four,
        Real.sin_pi_div_four]
      linear_combination (22500 : ℝ) * hHalf
    unfold InShell shoulderSquared
    rw [hRadius, hProduct, Real.sqrt_sq (by norm_num)]
    norm_num [onDiagonal, offset, height, dedZone, linkLength]
  rw [← poseCallback_isSome_iff] at hOut hIn
  rcases hClaim _ _ _ (by norm_num [onAxis]) hTurned with
    ⟨_, hNone⟩ | ⟨a, _, hSome, _⟩
  · rw [hNone] at hIn
    cases hIn
  · rw [hSome] at hOut
    exact hOut rfl

end IK

end Manipulator
