import Manipulator.Approach.Node
import Manipulator.Machine

/-
  What one `timer_callback` can do.

  Every callback that returns is one of six cases, with the
  exact node it leaves. Later proofs argue about the cases
  and never unfold the callback again.

  Main declarations:
    * `Node.actsOn`, `Node.tracked`
    * `TickCase`, `timerCallback_cases`
    * `Node.Ready`, `timerCallback_ok`
-/

------------------------------------------------------------
-- Cases
------------------------------------------------------------

namespace Manipulator

namespace Approach

variable {K : Type} [Field K] [LinearOrder K]

/- The message that a tick in this state acts on. -/
def Node.actsOn (n : Node K) : Option (BoundingBox K) :=
  if n.run then
    n.boxData.filter fun box => decide box.Valid
  else
    none

/- The output of one axis: only the P gain is not zero. -/
def output (error : K) : K :=
  clampSpeed (3 / 2 * (1 / 1000) * error)

/- The node of a tick whose message reports no box. -/
def Node.missed (n : Node K) : Node K :=
  { n with noBoxCount := n.noBoxCount + 1 }

/- The node of the tick that gives the target up. -/
def Node.lost (n : Node K) : Node K :=
  { n with
    noBoxCount := n.noBoxCount + 1
    run := false
    hasBox := some false
    finishEvent := true }

/- The node of a tick whose message reports a box. -/
def Node.seen (n : Node K) : Node K :=
  { n with noBoxCount := 0 }

/- The node after the loop over the two axes. -/
def Node.tracked
    (n : Node K)
    (error integral prevError : Fin 2 → K) : Node K :=
  { n with
    goalCount :=
      n.goalCount + if InTolerance error then 1 else 0
    firstLoop := false
    posData :=
      { n.posData with
        x := n.posData.x + output (error 0)
        y := n.posData.y + output (error 1) }
    integral := some integral
    prevError := some prevError }

/- The node after the tick that reaches the target. -/
def Node.confirmed (n : Node K) (label : String) : Node K :=
  { n with
    state := .turn
    hasBox := some true
    label := some label }

/- The node after the tick that ends a goal by turning. -/
def Node.turned (n : Node K) (yaw : K) : Node K :=
  { n with
    posData := { n.posData with yaw := yaw }
    run := false
    finishEvent := true }

/- `now_angle + angle`. -/
def turnYaw (trig : Trig K) (n : Node K) (angle : K) : K :=
  -(trig.atan2 n.posData.y n.posData.x * 180 / trig.pi) + angle

/-
  `TickCase trig n r`: a tick in `n` can give `r`.
-/
inductive TickCase
    (trig : Trig K)
    (n : Node K) : TickResult K → Prop where
| neutral
    (hActs : n.actsOn = none) :
    TickCase trig n (.silent n)
| miss
    {box : BoundingBox K}
    (hActs : n.actsOn = some box)
    (hBox : box.hasBox = false)
    (hCount : n.noBoxCount + 1 < noBoxCountLimit) :
    TickCase trig n (.silent n.missed)
| lose
    {box : BoundingBox K}
    (hActs : n.actsOn = some box)
    (hBox : box.hasBox = false)
    (hCount : noBoxCountLimit ≤ n.noBoxCount + 1) :
    TickCase trig n (.silent n.lost)
| track
    {box : BoundingBox K} {i : Nat} {center : K × K}
    {integral prevError : Fin 2 → K}
    {n' : Node K}
    (hActs : n.actsOn = some box)
    (hBox : box.hasBox = true)
    (hState : n.state = .approach)
    (hIndex : minIndex K box = .ok i)
    (hCenter : boxCenter box i = .ok center)
    (hNode :
      n' = n.seen.tracked (controlError center) integral
        prevError)
    (hCount :
      InTolerance (controlError center) → n'.goalCount < 5) :
    TickCase trig n
      ⟨n', some n'.posData, some (poseMsg n' 0 1)⟩
| confirm
    {box : BoundingBox K} {i : Nat} {center : K × K}
    {integral prevError : Fin 2 → K} {label : String}
    {n' : Node K}
    (hActs : n.actsOn = some box)
    (hBox : box.hasBox = true)
    (hState : n.state = .approach)
    (hIndex : minIndex K box = .ok i)
    (hCenter : boxCenter box i = .ok center)
    (hLabel : index box.labels i = .ok label)
    (hNode :
      n' = n.seen.tracked (controlError center) integral
        prevError)
    (hTolerance : InTolerance (controlError center))
    (hCount : 5 ≤ n'.goalCount) :
    TickCase trig n
      ⟨n'.confirmed label, none,
        some (poseMsg (n'.confirmed label) 0 1)⟩
| turn
    {box : BoundingBox K} {i : Nat} {angle yaw : K}
    {n' : Node K}
    (hActs : n.actsOn = some box)
    (hBox : box.hasBox = true)
    (hState : n.state = .turn)
    (hIndex : minIndex K box = .ok i)
    (hAngle : index box.angles i = .ok angle)
    (hYaw : yaw = turnYaw trig n angle)
    (hNode : n' = n.seen.turned yaw) :
    TickCase trig n
      ⟨n', some n'.posData, some (poseMsg n' yaw 0)⟩

------------------------------------------------------------
-- The Control Loop
------------------------------------------------------------

/- The integral and the last error exist after a first loop. -/
def Node.Ready (n : Node K) : Prop :=
  n.firstLoop = false →
    n.integral.isSome ∧ n.prevError.isSome

omit [LinearOrder K] in
theorem gain_zero (i : Fin 2) :
    gain (K := K) 0 i = 3 / 2 * (1 / 1000) := by
  fin_cases i <;> simp [gain, xGain, yGain, scaling]

omit [LinearOrder K] in
theorem gain_one (i : Fin 2) : gain (K := K) 1 i = 0 := by
  fin_cases i <;> simp [gain, xGain, yGain]

omit [LinearOrder K] in
theorem gain_two (i : Fin 2) : gain (K := K) 2 i = 0 := by
  fin_cases i <;> simp [gain, xGain, yGain]

/- The node after one pass of the loop over the axes. -/
def Node.moved
    (n : Node K)
    (error integral prevError : Fin 2 → K)
    (i : Fin 2) : Node K :=
  { n with
    firstLoop := false
    posData :=
      if i = 0 then
        { n.posData with x := n.posData.x + output (error i) }
      else
        { n.posData with y := n.posData.y + output (error i) }
    integral := some integral
    prevError := some prevError }

omit [LinearOrder K] in
/- The head of the loop touches three attributes. -/
theorem Node.firstPass_eq (n : Node K) :
    n.firstPass =
      { n with
        firstLoop := false
        prevError := n.firstPass.prevError
        integral := n.firstPass.integral } := by
  cases n with
  | mk debugMode boxData posData finishEvent noBoxCount
      goalCount state firstLoop run hasBox label prevError
      integral =>
      cases firstLoop with
      | false => simp [Node.firstPass]
      | true => simp [Node.firstPass]

/- What one pass of the loop over the axes can leave. -/
theorem controlAxis_cases
    {error : Fin 2 → K} {n n' : Node K} {i : Fin 2}
    (hControl : controlAxis error n i = .ok n') :
    ∃ integral prevError,
      n' = n.moved error integral prevError i := by
  simp only [controlAxis, bind_eq_ok, pure_eq_ok,
    gain_zero, gain_one, gain_two] at hControl
  rcases hControl with
    ⟨integral, hIntegral, prevError, hPrevError, rfl⟩
  refine
    ⟨Function.update integral i (integral i + error i * (1 / 10)),
      Function.update prevError i (error i), ?_⟩
  rw [Node.firstPass_eq]
  simp [Node.moved, output]

omit [Field K] [LinearOrder K] in
theorem Node.ready_of_isSome
    {n : Node K}
    (hIntegral : n.integral.isSome)
    (hPrevError : n.prevError.isSome) : n.Ready :=
  fun _ => ⟨hIntegral, hPrevError⟩

theorem Node.moved_ready
    (n : Node K)
    (error integral prevError : Fin 2 → K)
    (i : Fin 2) : (n.moved error integral prevError i).Ready :=
  Node.ready_of_isSome (by simp [Node.moved])
    (by simp [Node.moved])

/- A pass finds what it reads, once the loop was entered. -/
theorem controlAxis_ok
    (error : Fin 2 → K) {n : Node K} (i : Fin 2)
    (hReady : n.Ready) :
    ∃ n', controlAxis error n i = .ok n' ∧ n'.Ready := by
  have hSome :
      n.firstPass.integral.isSome ∧
        n.firstPass.prevError.isSome := by
    unfold Node.firstPass
    by_cases hFirst : n.firstLoop = true
    · simp [hFirst]
    · simpa [hFirst] using hReady (by simpa using hFirst)
  rcases Option.isSome_iff_exists.mp hSome.1 with
    ⟨integral, hIntegral⟩
  rcases Option.isSome_iff_exists.mp hSome.2 with
    ⟨prevError, hPrevError⟩
  have hOk : ∃ n', controlAxis error n i = .ok n' := by
    unfold controlAxis
    simp only [hIntegral, hPrevError, getAttribute]
    exact ⟨_, rfl⟩
  rcases hOk with ⟨n', hOk⟩
  rcases controlAxis_cases hOk with ⟨integral, prevError, rfl⟩
  exact ⟨_, hOk, Node.moved_ready _ _ _ _ _⟩

/- What the body of the approach state can leave. -/
theorem control_cases
    {box : BoundingBox K} {i : Nat} {error : Fin 2 → K}
    {n n' : Node K} {reached : Bool}
    (hControl : control box i error n = .ok (n', reached)) :
    ∃ integral prevError m,
      m = n.tracked error integral prevError ∧
        ((n' = m ∧ reached = false ∧
            (InTolerance error → m.goalCount < 5)) ∨
          ∃ label, index box.labels i = .ok label ∧
            n' = m.confirmed label ∧ reached = true ∧
            InTolerance error ∧ 5 ≤ m.goalCount) := by
  simp only [control, bind_eq_ok] at hControl
  rcases hControl with ⟨n₀, hFirst, n₁, hSecond, hRest⟩
  rcases controlAxis_cases hFirst with ⟨_, _, rfl⟩
  rcases controlAxis_cases hSecond with
    ⟨integral, prevError, rfl⟩
  refine ⟨integral, prevError, _, rfl, ?_⟩
  by_cases hTolerance : InTolerance error
  · by_cases hCount : n.goalCount + 1 ≥ 5
    · have hReturn := hRest
      simp only [hTolerance, if_true, Node.moved, hCount,
        bind_eq_ok, pure_eq_ok, Prod.mk.injEq] at hReturn
      rcases hReturn with ⟨label, hLabel, rfl, rfl⟩
      refine .inr ⟨label, hLabel, ?_, rfl, hTolerance, ?_⟩
      · simp [Node.tracked, Node.confirmed, hTolerance]
      · simpa [Node.tracked, hTolerance] using hCount
    · simp only [hTolerance, if_true, Node.moved, hCount,
        if_false, pure_eq_ok, Prod.mk.injEq] at hRest
      rcases hRest with ⟨rfl, rfl⟩
      refine .inl ⟨?_, rfl, fun _ => ?_⟩
      · simp [Node.tracked, hTolerance]
      · simp only [Node.tracked, hTolerance, if_true]
        omega
  · simp only [hTolerance, if_false, Node.moved, pure_eq_ok,
      Prod.mk.injEq] at hRest
    rcases hRest with ⟨rfl, rfl⟩
    refine .inl ⟨?_, rfl, fun h => absurd h hTolerance⟩
    simp [Node.tracked, hTolerance]

/- The body returns when the label it may read is there. -/
theorem control_ok
    {box : BoundingBox K} {i : Nat}
    (error : Fin 2 → K) {n : Node K}
    (hReady : n.Ready)
    (hLabel : ∃ label, index box.labels i = .ok label) :
    ∃ r, control box i error n = .ok r := by
  rcases controlAxis_ok error 0 hReady with
    ⟨n₀, hFirst, hReady₀⟩
  rcases controlAxis_ok error 1 hReady₀ with ⟨n₁, hSecond, _⟩
  rcases hLabel with ⟨label, hLabel⟩
  simp only [control, hFirst, hSecond, bind, Except.bind]
  by_cases hTolerance : InTolerance error
  · by_cases hCount : n₁.goalCount + 1 ≥ 5
    · simp only [hTolerance, hCount, hLabel, if_true]
      exact ⟨_, rfl⟩
    · simp only [hTolerance, hCount, if_true, if_false]
      exact ⟨_, rfl⟩
  · simp only [hTolerance, if_false]
    exact ⟨_, rfl⟩

------------------------------------------------------------
-- Reading A Message
------------------------------------------------------------

theorem index_ok
    {α : Type} (xs : List α) {i : Nat}
    (hLength : i < xs.length) : ∃ x, index xs i = .ok x := by
  refine ⟨xs[i], ?_⟩
  simp [index, List.getElem?_eq_getElem hLength]

omit [LinearOrder K] in
/- Corners `j` and `k` of a box that the message carries. -/
theorem midpoint_ok
    {box : BoundingBox K} {i j k : Nat}
    (hBox : i < box.count)
    (hFirst : j < 4)
    (hSecond : k < 4) :
    ∃ center : K,
      midpoint box.xyxy (i * 4 + j) (i * 4 + k) = .ok center := by
  unfold BoundingBox.count at hBox
  rcases index_ok box.xyxy (i := i * 4 + j)
      (by omega) with ⟨a, hA⟩
  rcases index_ok box.xyxy (i := i * 4 + k)
      (by omega) with ⟨b, hB⟩
  simp only [midpoint, hA, hB]
  exact ⟨_, rfl⟩

omit [LinearOrder K] in
theorem boxCenter_ok
    {box : BoundingBox K} {i : Nat}
    (hBox : i < box.count) :
    ∃ center, boxCenter box i = .ok center := by
  rcases midpoint_ok hBox (j := 0) (k := 2)
      (by omega) (by omega) with ⟨x, hX⟩
  rcases midpoint_ok hBox (j := 1) (k := 3)
      (by omega) (by omega) with ⟨y, hY⟩
  rw [Nat.add_zero] at hX
  simp only [boxCenter, hX, hY]
  exact ⟨_, rfl⟩

/- One pass of the selection keeps its box or takes its own. -/
theorem selectStep_ok
    (box : BoundingBox K) {acc : Option K × Nat} {i : Nat}
    (hBox : i < box.count)
    (hAcc : i = 0 ∨ acc.1.isSome) :
    ∃ acc', selectStep box.xyxy acc i = .ok acc' ∧
      acc'.1.isSome ∧ (acc'.2 = acc.2 ∨ acc'.2 = i) := by
  rcases midpoint_ok hBox (j := 0) (k := 2)
      (by omega) (by omega) with ⟨center, hCenter⟩
  rw [Nat.add_zero] at hCenter
  rcases acc with ⟨minX, j⟩
  simp only [selectStep, hCenter, bind, Except.bind]
  by_cases hHead : i = 0
  · refine ⟨(some center, j), ?_, rfl, .inl rfl⟩
    simp [hHead, pure, Except.pure]
  · rcases Option.isSome_iff_exists.mp
        (hAcc.resolve_left hHead) with ⟨x, rfl⟩
    by_cases hLess : center < x
    · refine ⟨(some center, i), ?_, rfl, .inr rfl⟩
      simp [hHead, hLess, pure, Except.pure]
    · refine ⟨(some x, j), ?_, rfl, .inl rfl⟩
      simp [hHead, hLess, pure, Except.pure]

/-
  The loop over the first `k` boxes returns, and after its
  first pass it has chosen one of them.
-/
theorem select_ok
    {box : BoundingBox K} {k : Nat}
    (hCount : k ≤ box.count) :
    ∃ acc : Option K × Nat,
      (List.range k).foldlM (selectStep box.xyxy) (none, 0) =
          (.ok acc : Except PyError _) ∧
        (k = 0 ∨ acc.1.isSome) ∧ acc.2 ≤ k - 1 := by
  induction k with
  | zero => exact ⟨(none, 0), rfl, .inl rfl, le_rfl⟩
  | succ k ih =>
      rcases ih (by omega) with ⟨acc, hFold, hChosen, hLess⟩
      rcases selectStep_ok box (by omega) hChosen with
        ⟨acc', hStep, hSome, hIndex⟩
      refine ⟨acc', ?_, .inr hSome, by omega⟩
      rw [List.range_succ, List.foldlM_append, hFold]
      simp [bind, Except.bind, pure, Except.pure, hStep]

/- The selection returns a box of the message. -/
theorem minIndex_ok
    {box : BoundingBox K}
    (hBox : 0 < box.count) :
    ∃ i, minIndex K box = .ok i ∧ i < box.count := by
  rcases select_ok (le_refl box.count) with
    ⟨acc, hFold, _, hLess⟩
  refine ⟨acc.2, ?_, by omega⟩
  simp only [minIndex, hFold]
  rfl

------------------------------------------------------------
-- The Callback
------------------------------------------------------------

omit [Field K] [LinearOrder K] in
/- `publish` publishes, whether or not it draws. -/
theorem publish_cases
    {box : BoundingBox K} {i : Nat} {center : Option (K × K)}
    {assembled : Pos K} {n : Node K} {r : TickResult K}
    (hPublish : publish box i center assembled n = .ok r) :
    r = ⟨n, some n.posData, some assembled⟩ := by
  unfold publish at hPublish
  by_cases hDebug : n.debugMode = 1
  · simp only [hDebug, if_true, bind_eq_ok, pure_eq_ok]
      at hPublish
    rcases hPublish with ⟨_, _, rfl⟩
    rfl
  · simp only [hDebug, if_false] at hPublish
    cases hPublish
    rfl

omit [Field K] [LinearOrder K] in
theorem publish_ok
    {box : BoundingBox K} {i : Nat} {center : Option (K × K)}
    {assembled : Pos K} {n : Node K}
    (hDebug : n.debugMode ≠ 1) :
    ∃ r, publish box i center assembled n = .ok r := by
  unfold publish
  simp only [hDebug, if_false]
  exact ⟨_, rfl⟩

/- What a tick does with the message it acts on. -/
def actTick
    (trig : Trig K)
    (n : Node K)
    (box : BoundingBox K) : Except PyError (TickResult K) :=
  if box.hasBox = false then
    .ok (.silent (noBoxTick n))
  else do
    let i ← minIndex K box
    match n.state with
    | .approach => approachTick box i n.seen
    | .turn => turnTick trig box i n.seen

/- The guards of the callback, as the message acted on. -/
theorem timerCallback_eq (trig : Trig K) (n : Node K) :
    timerCallback trig n =
      match n.actsOn with
      | none => .ok (.silent n)
      | some box => actTick trig n box := by
  unfold timerCallback
  cases hRun : n.run with
  | false =>
      have hActs : n.actsOn = none := by
        simp [Node.actsOn, hRun]
      rw [hActs]
      rfl
  | true =>
      cases hBox : n.boxData with
      | none =>
          have hActs : n.actsOn = none := by
            simp [Node.actsOn, hBox]
          rw [hActs]
          rfl
      | some box =>
          by_cases hValid : box.Valid
          · have hActs : n.actsOn = some box := by
              simp [Node.actsOn, hRun, hBox, hValid]
            rw [hActs]
            simp only [hValid, not_true_eq_false, if_false]
            unfold actTick Node.seen
            rw [hRun, hBox]
            rfl
          · have hActs : n.actsOn = none := by
              simp [Node.actsOn, hBox, hValid]
            rw [hActs]
            simp [hValid]

/- Every callback that returns is one of the cases. -/
theorem timerCallback_cases
    {trig : Trig K} {n : Node K} {r : TickResult K}
    (hTick : timerCallback trig n = .ok r) :
    TickCase trig n r := by
  rw [timerCallback_eq] at hTick
  cases hActs : n.actsOn with
  | none =>
      rw [hActs] at hTick
      cases hTick
      exact .neutral hActs
  | some box =>
      simp only [hActs, actTick] at hTick
      by_cases hBox : box.hasBox = false
      · rw [if_pos hBox] at hTick
        cases hTick
        by_cases hCount : noBoxCountLimit ≤ n.noBoxCount + 1
        · have hTick : noBoxTick n = n.lost := if_pos hCount
          rw [hTick]
          exact .lose hActs hBox hCount
        · have hTick : noBoxTick n = n.missed := if_neg hCount
          rw [hTick]
          exact .miss hActs hBox (by omega)
      · rw [if_neg hBox, bind_eq_ok] at hTick
        rcases hTick with ⟨i, hIndex, hTick⟩
        rw [Bool.not_eq_false] at hBox
        cases hState : n.state with
        | approach =>
            simp only [hState, approachTick, bind_eq_ok]
              at hTick
            rcases hTick with
              ⟨center, hCenter, ⟨n', reached⟩, hControl, hTick⟩
            rcases control_cases hControl with
              ⟨integral, prevError, m, hNode,
                ⟨rfl, rfl, hCount⟩ |
                  ⟨label, hLabel, rfl, rfl, hTolerance, hCount⟩⟩
            · rw [publish_cases hTick]
              exact .track hActs hBox hState hIndex hCenter
                hNode hCount
            · cases hTick
              exact .confirm hActs hBox hState hIndex hCenter
                hLabel hNode hTolerance hCount
        | turn =>
            simp only [hState, turnTick, bind_eq_ok] at hTick
            rcases hTick with ⟨angle, hAngle, hTick⟩
            rw [publish_cases hTick]
            exact .turn hActs hBox hState hIndex hAngle rfl rfl

/- A tick never clears the event. -/
theorem finishEvent_of_tick
    {trig : Trig K} {n : Node K} {r : TickResult K}
    (hCase : TickCase trig n r)
    (hEvent : n.finishEvent = true) :
    r.node.finishEvent = true := by
  cases hCase with
  | neutral => exact hEvent
  | miss => exact hEvent
  | lose => rfl
  | track _ _ _ _ _ hNode =>
      rw [hNode]
      exact hEvent
  | confirm _ _ _ _ _ _ hNode =>
      rw [hNode]
      exact hEvent
  | turn _ _ _ _ _ _ hNode =>
      rw [hNode]
      rfl

/-
  On a well-formed message, without debugging, the callback
  returns.
-/
theorem timerCallback_ok
    (trig : Trig K)
    {n : Node K}
    (hDebug : n.debugMode ≠ 1)
    (hReady : n.Ready)
    (hWell : ∀ box ∈ n.boxData, box.WellFormed) :
    ∃ r, timerCallback trig n = .ok r := by
  rw [timerCallback_eq]
  cases hActs : n.actsOn with
  | none => exact ⟨_, rfl⟩
  | some box =>
      have hWell : box.WellFormed := by
        apply hWell
        unfold Node.actsOn at hActs
        by_cases hRun : n.run = true
        · rw [if_pos hRun] at hActs
          exact (Option.filter_eq_some_iff.mp hActs).1
        · rw [if_neg hRun] at hActs
          cases hActs
      rcases hWell with ⟨hCount, hLabels, hAngles⟩
      unfold actTick
      by_cases hBox : box.hasBox = false
      · simp [hBox]
      · rw [Bool.not_eq_false] at hBox
        rcases minIndex_ok (hCount hBox) with
          ⟨i, hIndex, hLess⟩
        have hLabel := index_ok box.labels (hLabels ▸ hLess)
        rcases index_ok box.angles (hAngles ▸ hLess) with
          ⟨angle, hAngle⟩
        simp only [hBox, hIndex, bind, Except.bind]
        cases hState : n.state with
        | approach =>
            rcases boxCenter_ok hLess with ⟨center, hCenter⟩
            rcases control_ok (controlError center)
                (n := n.seen) hReady hLabel with
              ⟨⟨n', reached⟩, hControl⟩
            rcases control_cases hControl with
              ⟨_, _, m, rfl, ⟨rfl, rfl, _⟩ | ⟨_, _, _, rfl, _⟩⟩
            · simp only [approachTick, hCenter, hControl, bind,
                Except.bind]
              apply publish_ok
              exact hDebug
            · simp [approachTick, hCenter, hControl, bind,
                Except.bind, pure, Except.pure]
        | turn =>
            simp only [turnTick, hAngle, bind, Except.bind]
            apply publish_ok
            exact hDebug

end Approach

end Manipulator
