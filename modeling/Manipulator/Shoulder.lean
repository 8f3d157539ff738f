import Manipulator.Servo

/-
  Where the angles of the inverse kinematics lead.

  The arm is a chain of two equal links. The first one rises
  from the shoulder by `theta1`, the second one turns back by
  the inner angle `theta2` of the elbow, and the hand makes up
  for both so that the gripper points down.

  Main declarations:
    * `IK.Target.rho`, `IK.reachOf`, `IK.riseOf`
    * `IK.Leads`
    * `IK.publishes_iff_and_leads`
-/

------------------------------------------------------------
-- The Chain
------------------------------------------------------------

namespace Manipulator

namespace IK

open Servo

/- How far the target is from the axis of the shoulder. -/
noncomputable def Target.rho (t : Target) : ℝ :=
  √(t.x ^ 2 + t.y ^ 2)

/- How far out the chain ends, for angles in degrees. -/
noncomputable def reachOf (theta1 theta2 : ℝ) : ℝ :=
  linkLength * Real.cos (radians theta1) -
    linkLength * Real.cos (radians (theta1 + theta2))

/- How high the chain ends, for angles in degrees. -/
noncomputable def riseOf (theta1 theta2 : ℝ) : ℝ :=
  linkLength * Real.sin (radians theta1) -
    linkLength * Real.sin (radians (theta1 + theta2))

/- Angles that lead the gripper to a target, pointing down. -/
structure Leads
    (t : Target)
    (angles : Fin 6 → ℝ) : Prop where
  -- the two arguments of `acos`
  fai : t.norm / (2 * linkLength) ∈ Set.Icc (-1) 1
  elbow :
    1 - t.squared / (2 * linkLength * linkLength) ∈
      Set.Icc (-1) 1
  reach : reachOf (angles 1) (angles 2) = t.rho
  rise : riseOf (angles 1) (angles 2) = t.z
  opening : 0 < angles 2 ∧ angles 2 ≤ 180
  down : angles 1 + angles 2 + angles 3 = 270

------------------------------------------------------------
-- The Angles
------------------------------------------------------------

section Angles

variable {t : Target}

theorem linkLength_pos : 0 < linkLength := by
  norm_num [linkLength]

theorem Target.norm_nonneg (t : Target) : 0 ≤ t.norm :=
  Real.sqrt_nonneg _

theorem Target.rho_sq_add (t : Target) :
    t.rho ^ 2 + t.z ^ 2 = t.norm ^ 2 := by
  rw [t.norm_sq, Target.rho, Real.sq_sqrt (by positivity),
    Target.squared]
  ring

/- The part of the reach that a target takes is a cosine. -/
theorem ratio_mem
    (hNorm : t.norm ≤ 2 * linkLength) :
    t.norm / (2 * linkLength) ∈ Set.Icc (-1) 1 := by
  have hLength : 0 < 2 * linkLength := by
    linarith [linkLength_pos]
  have hNonneg : 0 ≤ t.norm / (2 * linkLength) :=
    div_nonneg t.norm_nonneg hLength.le
  have hOne : t.norm / (2 * linkLength) ≤ 1 :=
    (div_le_one hLength).mpr hNorm
  exact ⟨by linarith, hOne⟩

theorem cos_fai
    (hNorm : t.norm ≤ 2 * linkLength) :
    2 * linkLength * Real.cos t.fai = t.norm := by
  have hLink : linkLength ≠ 0 := linkLength_pos.ne'
  rw [Target.fai,
    Real.cos_arccos (ratio_mem hNorm).1 (ratio_mem hNorm).2]
  field_simp

/- The law of cosines at the elbow. -/
theorem elbow_mem
    (hNorm : t.norm ≤ 2 * linkLength) :
    1 - t.squared / (2 * linkLength * linkLength) ∈
      Set.Icc (-1) 1 := by
  have hLink := linkLength_pos
  have hArea : 0 < 2 * linkLength * linkLength := by
    positivity
  have hNonneg :
      0 ≤ t.squared / (2 * linkLength * linkLength) :=
    div_nonneg t.squared_nonneg hArea.le
  have hSquare :
      t.squared / (2 * linkLength * linkLength) ≤ 2 := by
    rw [div_le_iff₀ hArea, ← t.norm_sq]
    nlinarith [t.norm_nonneg]
  constructor
  · linarith
  · linarith

/- The elevation of the target, as a sine and as a cosine. -/
theorem sin_fai0 (hPos : 0 < t.norm) :
    t.norm * Real.sin t.fai0 = t.z := by
  have hSum := t.rho_sq_add
  have hBound : |t.z / t.norm| ≤ 1 := by
    rw [abs_div, abs_of_pos hPos, div_le_one hPos]
    apply abs_le_of_sq_le_sq _ hPos.le
    nlinarith [sq_nonneg t.rho]
  rw [fai0_eq, Real.sin_arcsin (abs_le.mp hBound).1
    (abs_le.mp hBound).2]
  field_simp

theorem cos_fai0 (hPos : 0 < t.norm) :
    t.norm * Real.cos t.fai0 = t.rho := by
  have hSum := t.rho_sq_add
  have hRho : 0 ≤ t.rho := Real.sqrt_nonneg _
  have hSquare :
      1 - (t.z / t.norm) ^ 2 = (t.rho / t.norm) ^ 2 := by
    field_simp
    linarith
  rw [fai0_eq, Real.cos_arcsin, hSquare,
    Real.sqrt_sq (div_nonneg hRho hPos.le)]
  field_simp

end Angles

------------------------------------------------------------
-- The End Of The Chain
------------------------------------------------------------

section Chain

variable {t : Target}

theorem radians_degrees (angle : ℝ) :
    radians (degrees angle) = angle := by
  have hPi : Real.pi ≠ 0 := Real.pi_ne_zero
  unfold radians degrees
  field_simp

/- The second link, seen from the shoulder. -/
theorem radians_elbow
    (hNorm : t.norm ≤ 2 * linkLength) :
    radians (degrees (t.fai0 + t.fai) + degrees t.elbow) =
      t.fai0 - t.fai + Real.pi := by
  have hSum :
      degrees (t.fai0 + t.fai) + degrees t.elbow =
        degrees (t.fai0 + t.fai + t.elbow) := by
    unfold degrees
    ring
  rw [hSum, radians_degrees, elbow_eq hNorm]
  ring

theorem reachOf_eq
    (hPos : 0 < t.norm)
    (hNorm : t.norm ≤ 2 * linkLength) :
    reachOf (degrees (t.fai0 + t.fai)) (degrees t.elbow) =
      t.rho := by
  rw [reachOf, radians_degrees, radians_elbow hNorm,
    Real.cos_add_pi]
  calc
    linkLength * Real.cos (t.fai0 + t.fai) -
          linkLength * -Real.cos (t.fai0 - t.fai)
        = 2 * linkLength * Real.cos t.fai *
            Real.cos t.fai0 := by
          rw [Real.cos_add, Real.cos_sub]
          ring
    _ = t.rho := by
          rw [cos_fai hNorm, cos_fai0 hPos]

theorem riseOf_eq
    (hPos : 0 < t.norm)
    (hNorm : t.norm ≤ 2 * linkLength) :
    riseOf (degrees (t.fai0 + t.fai)) (degrees t.elbow) =
      t.z := by
  rw [riseOf, radians_degrees, radians_elbow hNorm,
    Real.sin_add_pi]
  calc
    linkLength * Real.sin (t.fai0 + t.fai) -
          linkLength * -Real.sin (t.fai0 - t.fai)
        = 2 * linkLength * Real.cos t.fai *
            Real.sin t.fai0 := by
          rw [Real.sin_add, Real.sin_sub]
          ring
    _ = t.z := by
          rw [cos_fai hNorm, sin_fai0 hPos]

/- The elbow is never folded onto the upper arm. -/
theorem elbow_pos
    (hPos : 0 < t.norm)
    (hNorm : t.norm ≤ 2 * linkLength) : 0 < t.elbow := by
  have hLength : 0 < 2 * linkLength := by
    linarith [linkLength_pos]
  have hFai : t.fai < Real.pi / 2 :=
    Real.arccos_lt_pi_div_two.mpr (div_pos hPos hLength)
  rw [elbow_eq hNorm]
  linarith

theorem degrees_pos
    {angle : ℝ}
    (hPos : 0 < angle) : 0 < degrees angle := by
  have hPi := Real.pi_pos
  unfold degrees
  positivity

end Chain

/- The published angles lead to the target. -/
theorem leads_of_accepted
    {pose : Pos ℝ} {angles : Fin 6 → ℝ}
    (hAccepted : poseCallback pose = some angles) :
    Leads (target pose) angles := by
  rcases norm_bounds hAccepted with ⟨hNear, hNorm⟩
  have hPos : 0 < (target pose).norm := by
    have hZone : 0 < dedZone := by
      norm_num [dedZone]
    linarith
  have hElbow := (links_bounds hNorm).2.1
  rw [angles_eq hAccepted]
  constructor
  case fai => exact ratio_mem hNorm
  case elbow => exact elbow_mem hNorm
  case reach => exact reachOf_eq hPos hNorm
  case rise => exact riseOf_eq hPos hNorm
  case opening =>
    exact ⟨degrees_pos (elbow_pos hPos hNorm), hElbow.2⟩
  case down =>
    change
      degrees ((target pose).fai0 + (target pose).fai) +
            degrees (target pose).elbow +
          (270 -
              degrees
                ((target pose).fai0 + (target pose).fai) -
            degrees (target pose).elbow) =
        270
    ring

/-
  The callback publishes exactly for targets between the two
  bounds, and then the angles lead to the target.
-/
theorem publishes_iff_and_leads (pose : Pos ℝ) :
    ((poseCallback pose).isSome ↔
        dedZone ≤ (target pose).norm ∧
          (target pose).norm ≤ 2 * linkLength) ∧
      ∀ angles, poseCallback pose = some angles →
        Leads (target pose) angles := by
  constructor
  · rw [poseCallback_isSome_iff, InShell, ← squared_target,
      ← norm_le_iff (by linarith [linkLength_pos]),
      ← le_norm_iff (by norm_num [dedZone])]
  · intro angles hAccepted
    exact leads_of_accepted hAccepted

/- A pose in front of the base. -/
theorem publishes_iff_and_leads_inFront :
    ∃ angles, poseCallback inFront = some angles ∧
      Leads (target inFront) angles := by
  have hShell : InShell inFront.x inFront.y inFront.z := by
    simp only [InShell, shoulderSquared, inFront]
    norm_num [offset, height, dedZone, linkLength]
  have hSome := (poseCallback_isSome_iff inFront).mpr hShell
  rcases Option.isSome_iff_exists.mp hSome with
    ⟨angles, hAccepted⟩
  exact
    ⟨angles, hAccepted,
      (publishes_iff_and_leads inFront).2 angles hAccepted⟩

end IK

end Manipulator
