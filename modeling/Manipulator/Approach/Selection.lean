import Manipulator.Approach.Timer

/-
  Which box a tick acts on, and that it reads nothing that
  the message does not carry.

  Main declarations:
    * `centerX`, `LeftmostOf`, `minIndex_leftmost`
    * `timerCallback_ne_indexError`
-/

------------------------------------------------------------
-- The Leftmost Box
------------------------------------------------------------

namespace Manipulator

namespace Approach

variable {K : Type} [Field K] [LinearOrder K]

/- The horizontal centre of box `i`. -/
def centerX
    (box : BoundingBox K)
    (i : Nat) : Except PyError K :=
  midpoint box.xyxy (i * 4) (i * 4 + 2)

/-
  Box `i`, with its centre, is the first one among those of
  the first `k` boxes whose centre is smallest.
-/
structure LeftmostOf
    (box : BoundingBox K)
    (k i : Nat)
    (center : K) : Prop where
  within : i < k
  centered : centerX box i = .ok center
  least :
    ∀ j < k, ∀ other, centerX box j = .ok other →
      center ≤ other
  first :
    ∀ j < i, ∀ other, centerX box j = .ok other →
      center < other

namespace LeftmostOf

variable {box : BoundingBox K} {k i : Nat} {center next : K}

/- The next box is not further left. -/
theorem keep
    (hLeftmost : LeftmostOf box k i center)
    (hNext : centerX box k = .ok next)
    (hRight : ¬ next < center) :
    LeftmostOf box (k + 1) i center := by
  constructor
  case within => exact Nat.lt_succ_of_lt hLeftmost.within
  case centered => exact hLeftmost.centered
  case least =>
    intro j hLess other hOther
    rcases Nat.lt_succ_iff_lt_or_eq.mp hLess with hOld | rfl
    · exact hLeftmost.least j hOld other hOther
    · obtain rfl : next = other :=
        Except.ok.inj (hNext.symm.trans hOther)
      exact not_lt.mp hRight
  case first => exact hLeftmost.first

/- The next box is further left. -/
theorem take
    (hLeftmost : LeftmostOf box k i center)
    (hNext : centerX box k = .ok next)
    (hLeft : next < center) :
    LeftmostOf box (k + 1) k next := by
  constructor
  case within => exact Nat.lt_succ_self k
  case centered => exact hNext
  case least =>
    intro j hLess other hOther
    rcases Nat.lt_succ_iff_lt_or_eq.mp hLess with hOld | rfl
    · have hLeast := hLeftmost.least j hOld other hOther
      exact (lt_of_lt_of_le hLeft hLeast).le
    · obtain rfl : next = other :=
        Except.ok.inj (hNext.symm.trans hOther)
      exact le_rfl
  case first =>
    intro j hOld other hOther
    exact
      lt_of_lt_of_le hLeft (hLeftmost.least j hOld other hOther)

end LeftmostOf

omit [LinearOrder K] in
theorem centerX_ok
    {box : BoundingBox K} {i : Nat}
    (hBox : i < box.count) :
    ∃ center, centerX box i = .ok center := by
  rcases midpoint_ok hBox (j := 0) (k := 2)
      (by omega) (by omega) with ⟨center, hCenter⟩
  rw [Nat.add_zero] at hCenter
  exact ⟨center, hCenter⟩

/- The loop over the first boxes, of which there is one. -/
theorem select_leftmost
    {box : BoundingBox K} {k : Nat}
    (hCount : k + 1 ≤ box.count) :
    ∃ i center,
      (List.range (k + 1)).foldlM (selectStep box.xyxy)
            (none, 0) =
          (.ok (some center, i) : Except PyError _) ∧
        LeftmostOf box (k + 1) i center := by
  induction k with
  | zero =>
      have hFirst : 0 < box.count := by omega
      rcases centerX_ok hFirst with ⟨center, hCenter⟩
      have hStep :
          selectStep box.xyxy (none, 0) 0 =
            .ok (some center, 0) := by
        have hMidpoint :
            midpoint box.xyxy (0 * 4) (0 * 4 + 2) =
              .ok center := hCenter
        simp only [selectStep, hMidpoint]
        rfl
      refine ⟨0, center, ?_, ?_⟩
      · rw [List.range_one, List.foldlM_cons, hStep]
        rfl
      · constructor
        case within => exact Nat.one_pos
        case centered => exact hCenter
        case least =>
          intro j hLess other hOther
          obtain rfl : j = 0 := by omega
          obtain rfl : center = other :=
            Except.ok.inj (hCenter.symm.trans hOther)
          exact le_rfl
        case first =>
          intro j hLess
          cases hLess
  | succ k ih =>
      rcases ih (by omega) with ⟨i, center, hFold, hLeftmost⟩
      have hSecond : k + 1 < box.count := by omega
      rcases centerX_ok hSecond with ⟨next, hNext⟩
      have hMidpoint :
          midpoint box.xyxy ((k + 1) * 4) ((k + 1) * 4 + 2) =
            .ok next := hNext
      rw [List.range_succ, List.foldlM_append, hFold]
      simp only [List.foldlM_cons, List.foldlM_nil, selectStep,
        hMidpoint, bind, Except.bind, Nat.succ_ne_zero,
        if_false]
      by_cases hLeft : next < center
      · refine ⟨k + 1, next, ?_, hLeftmost.take hNext hLeft⟩
        rw [if_pos hLeft]
        rfl
      · refine ⟨i, center, ?_, hLeftmost.keep hNext hLeft⟩
        rw [if_neg hLeft]
        rfl

/- A tick acts on the leftmost box, the first one on a tie. -/
theorem minIndex_leftmost
    {box : BoundingBox K}
    (hBox : 0 < box.count) :
    ∃ i center, minIndex K box = .ok i ∧
      LeftmostOf box box.count i center := by
  have hCount : box.count - 1 + 1 = box.count := by omega
  rcases select_leftmost (k := box.count - 1) hCount.le with
    ⟨i, center, hFold, hLeftmost⟩
  rw [hCount] at hFold hLeftmost
  refine ⟨i, center, ?_, hLeftmost⟩
  simp only [minIndex, hFold]
  rfl

------------------------------------------------------------
-- No Access Out Of Range
------------------------------------------------------------

omit [LinearOrder K] in
theorem getAttribute_ne_indexError
    {α : Type} (name : String) (value : Option α) :
    getAttribute name value ≠ .error .indexError := by
  cases value with
  | none => simp [getAttribute]
  | some value => simp [getAttribute]

/- A sequence that has no index error in either part. -/
theorem bind_ne_error
    {E α β : Type} {e : E}
    {x : Except E α} {f : α → Except E β}
    (hFirst : x ≠ .error e)
    (hRest : ∀ a, x = .ok a → f a ≠ .error e) :
    (x >>= f) ≠ .error e := by
  cases x with
  | error e' =>
      intro hError
      cases hError
      exact hFirst rfl
  | ok a => exact hRest a rfl

theorem controlAxis_ne_indexError
    (error : Fin 2 → K)
    (n : Node K)
    (i : Fin 2) :
    controlAxis error n i ≠ .error .indexError := by
  unfold controlAxis
  apply bind_ne_error
  · exact getAttribute_ne_indexError _ _
  · intro integral _
    apply bind_ne_error
    · exact getAttribute_ne_indexError _ _
    · intro prevError _
      exact nofun

theorem control_ne_indexError
    {box : BoundingBox K} {i : Nat}
    (error : Fin 2 → K)
    (n : Node K)
    (hLabel : ∃ label, index box.labels i = .ok label) :
    control box i error n ≠ .error .indexError := by
  rcases hLabel with ⟨label, hLabel⟩
  unfold control
  apply bind_ne_error
  · exact controlAxis_ne_indexError error n 0
  · intro n₀ _
    apply bind_ne_error
    · exact controlAxis_ne_indexError error n₀ 1
    · intro n₁ _
      by_cases hTolerance : InTolerance error
      · rw [if_pos hTolerance]
        by_cases hCount : n₁.goalCount + 1 ≥ 5
        · simp only [hCount, if_true, hLabel]
          exact nofun
        · simp only [hCount, if_false]
          exact nofun
      · rw [if_neg hTolerance]
        exact nofun

omit [Field K] [LinearOrder K] in
theorem publish_ne_indexError
    {box : BoundingBox K} {i : Nat} {center : Option (K × K)}
    {assembled : Pos K} {n : Node K}
    (hDebug : n.debugMode ≠ 1) :
    publish box i center assembled n ≠ .error .indexError := by
  unfold publish
  rw [if_neg hDebug]
  exact nofun

/-
  In any state without debugging, a tick on a well-formed
  message reads within the arrays of the message.
-/
theorem timerCallback_ne_indexError
    (trig : Trig K)
    {n : Node K} {box : BoundingBox K}
    (hDebug : n.debugMode ≠ 1)
    (hStored : n.boxData = some box)
    (hWell : box.WellFormed) :
    timerCallback trig n ≠ .error .indexError := by
  rcases hWell with ⟨hCount, hLabels, hAngles⟩
  rw [timerCallback_eq]
  cases hActs : n.actsOn with
  | none =>
      intro hSame
      cases hSame
  | some acted =>
      obtain rfl : acted = box := by
        unfold Node.actsOn at hActs
        split at hActs
        · have hSome := (Option.filter_eq_some_iff.mp hActs).1
          rw [hStored] at hSome
          exact (Option.some.inj hSome).symm
        · cases hActs
      simp only [actTick]
      by_cases hBox : acted.hasBox = false
      · rw [if_pos hBox]
        intro hSame
        cases hSame
      · rw [if_neg hBox]
        rw [Bool.not_eq_false] at hBox
        rcases minIndex_ok (hCount hBox) with
          ⟨i, hIndex, hLess⟩
        have hLabel := index_ok acted.labels (hLabels ▸ hLess)
        rcases index_ok acted.angles (hAngles ▸ hLess) with
          ⟨angle, hAngle⟩
        rcases boxCenter_ok hLess with ⟨center, hCenter⟩
        cases hState : n.state with
        | approach =>
            rw [hIndex]
            change approachTick acted i n.seen ≠ .error .indexError
            simp only [approachTick, hCenter]
            apply bind_ne_error
            · intro hSame
              cases hSame
            · intro _ hSame
              cases hSame
              apply bind_ne_error
              · exact control_ne_indexError _ _ hLabel
              · rintro ⟨n', reached⟩ hControl
                split
                · intro hSame'
                  cases hSame'
                · rcases control_cases hControl with
                    ⟨_, _, m, rfl,
                      ⟨rfl, rfl, _⟩ | ⟨_, _, _, rfl, _⟩⟩
                  · exact publish_ne_indexError hDebug
                  · contradiction
        | turn =>
            rw [hIndex]
            change
              turnTick trig acted i n.seen ≠ .error .indexError
            simp only [turnTick, hAngle]
            apply bind_ne_error
            · intro hSame
              cases hSame
            · intro _ hSame
              cases hSame
              exact publish_ne_indexError hDebug

end Approach

end Manipulator
