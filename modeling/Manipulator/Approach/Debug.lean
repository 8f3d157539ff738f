import Manipulator.Approach.Isolation

/-
  What debugging changes.

  With `debug_mode` 1 a tick draws after it has published.
  The drawing reads `center_x`, which only the approach state
  assigns, so that the tick in the turn state raises. Up to
  such a tick the two modes go on alike.

  Main declarations:
    * `Node.inMode`, `Server.inMode`
    * `Node.Turning`, `timerCallback_inMode`
    * `Detections`, `outputs`
    * `debug_changes_nothing_iff`
-/

------------------------------------------------------------
-- The Other Mode
------------------------------------------------------------

namespace Manipulator

namespace Approach

variable {K : Type}

/- The node with another value of `debug_mode`. -/
def Node.inMode (debugMode : Int) (n : Node K) : Node K :=
  { n with debugMode := debugMode }

def TickResult.inMode
    (debugMode : Int)
    (r : TickResult K) : TickResult K :=
  { r with node := r.node.inMode debugMode }

def Event.inMode (debugMode : Int) : Event K → Event K
| .ticked t =>
    .ticked
      { t with
        before := t.before.inMode debugMode
        result := t.result.inMode debugMode }
| event => event

def Server.inMode
    (debugMode : Int)
    (s : Server K) : Server K :=
  { s with
    node := s.node.inMode debugMode
    history := s.history.map (Event.inMode debugMode) }

/- The node is to turn to the box of its message. -/
def Node.Turning (n : Node K) : Prop :=
  n.state = .turn ∧
    ∃ box ∈ n.actsOn, box.hasBox = true

instance (n : Node K) : Decidable n.Turning := by
  unfold Node.Turning
  infer_instance

------------------------------------------------------------
-- Drawing
------------------------------------------------------------

/- A loop all of whose passes go on. -/
theorem forIn_ok
    {E α : Type}
    {xs : List α} {pass : α → Except E (ForInStep PUnit)}
    (hPasses :
      ∀ x ∈ xs, pass x = .ok (.yield PUnit.unit)) :
    (forIn xs PUnit.unit fun x _ => pass x) =
      (.ok PUnit.unit : Except E PUnit) := by
  induction xs with
  | nil => rfl
  | cons x xs ih =>
      rw [List.forIn_cons, hPasses x List.mem_cons_self]
      exact ih fun y hMember =>
        hPasses y (List.mem_cons_of_mem _ hMember)

/- The four corners of a box that the message carries. -/
theorem corners_ok
    {box : BoundingBox K} {i j : Nat}
    (hBox : i < box.count)
    (hCorner : j < 4) :
    ∃ corner, index box.xyxy (i * 4 + j) = .ok corner := by
  apply index_ok
  unfold BoundingBox.count at hBox
  omega

/- The drawing fails exactly when it has no centre to draw. -/
theorem drawDebug_eq
    {box : BoundingBox K} {i : Nat}
    (hBox : i < box.count)
    (center : Option (K × K)) :
    drawDebug box i center =
      match center with
      | some _ => .ok ()
      | none => .error (.unboundLocal "center_x") := by
  have hLoop :
      (forIn (List.range box.count) PUnit.unit fun i _ => do
          let _ ← index box.xyxy (i * 4)
          let _ ← index box.xyxy (i * 4 + 1)
          let _ ← index box.xyxy (i * 4 + 2)
          let _ ← index box.xyxy (i * 4 + 3)
          pure (ForInStep.yield PUnit.unit)) =
        (.ok PUnit.unit : Except PyError PUnit) := by
    apply forIn_ok
    intro j hMember
    have hLess := List.mem_range.mp hMember
    rcases corners_ok hLess (j := 0) (by omega) with ⟨_, hZero⟩
    rcases corners_ok hLess (j := 1) (by omega) with ⟨_, hOne⟩
    rcases corners_ok hLess (j := 2) (by omega) with ⟨_, hTwo⟩
    rcases corners_ok hLess (j := 3) (by omega) with ⟨_, hThree⟩
    rw [Nat.add_zero] at hZero
    simp only [hZero, hOne, hTwo, hThree]
    rfl
  rcases corners_ok hBox (j := 0) (by omega) with ⟨_, hZero⟩
  rcases corners_ok hBox (j := 1) (by omega) with ⟨_, hOne⟩
  rcases corners_ok hBox (j := 2) (by omega) with ⟨_, hTwo⟩
  rcases corners_ok hBox (j := 3) (by omega) with ⟨_, hThree⟩
  rw [Nat.add_zero] at hZero
  simp only [drawDebug, hLoop, hZero, hOne, hTwo, hThree]
  cases center with
  | none => rfl
  | some center => rfl

------------------------------------------------------------
-- The Control Loop
------------------------------------------------------------

variable [Field K] [LinearOrder K]

section Control

variable (debugMode : Int) (n : Node K)

omit [LinearOrder K] in
theorem firstPass_inMode :
    (n.inMode debugMode).firstPass =
      n.firstPass.inMode debugMode := by
  cases hFirst : n.firstLoop with
  | true => simp [Node.firstPass, Node.inMode, hFirst]
  | false => simp [Node.firstPass, Node.inMode, hFirst]

theorem controlAxis_inMode
    {error : Fin 2 → K} {m : Node K} {i : Fin 2}
    (hControl : controlAxis error n i = .ok m) :
    controlAxis error (n.inMode debugMode) i =
      .ok (m.inMode debugMode) := by
  simp only [controlAxis, bind_eq_ok, pure_eq_ok] at hControl
  rcases hControl with
    ⟨integral, hIntegral, prevError, hPrevError, rfl⟩
  simp only [controlAxis, firstPass_inMode, bind_eq_ok,
    pure_eq_ok]
  exact ⟨integral, hIntegral, prevError, hPrevError, rfl⟩

/- The body of the approach state does not read the mode. -/
theorem control_inMode
    {box : BoundingBox K} {i : Nat} {error : Fin 2 → K}
    {m : Node K} {reached : Bool}
    (hControl : control box i error n = .ok (m, reached)) :
    control box i error (n.inMode debugMode) =
      .ok (m.inMode debugMode, reached) := by
  simp only [control, bind_eq_ok] at hControl
  rcases hControl with ⟨n₀, hFirst, n₁, hSecond, hRest⟩
  simp only [control, controlAxis_inMode debugMode n hFirst,
    controlAxis_inMode debugMode n₀ hSecond, bind, Except.bind]
  by_cases hTolerance : InTolerance error
  · rw [if_pos hTolerance] at hRest ⊢
    by_cases hCount : n₁.goalCount + 1 ≥ 5
    · have hCount' :
          (n₁.inMode debugMode).goalCount + 1 ≥ 5 := hCount
      simp only [hCount, if_true, bind_eq_ok, pure_eq_ok,
        Prod.mk.injEq] at hRest
      rcases hRest with ⟨label, hLabel, rfl, rfl⟩
      simp only [hCount', if_true, hLabel]
      rfl
    · have hCount' :
          ¬ (n₁.inMode debugMode).goalCount + 1 ≥ 5 := hCount
      simp only [hCount, if_false, pure_eq_ok,
        Prod.mk.injEq] at hRest
      rcases hRest with ⟨rfl, rfl⟩
      simp only [hCount', if_false]
      rfl
  · rw [if_neg hTolerance] at hRest ⊢
    cases hRest
    rfl

end Control

------------------------------------------------------------
-- The Callback
------------------------------------------------------------

section Callback

variable {trig : Trig K} {n : Node K} {r : TickResult K}
variable {box : BoundingBox K} {i : Nat}

omit [Field K] [LinearOrder K] in
/- What is published is published with and without drawing. -/
theorem publish_inMode
    {center : K × K} {assembled : Pos K}
    (hBox : i < box.count)
    (hPublish :
      publish box i (some center) assembled n = .ok r) :
    publish box i (some center) assembled (n.inMode 1) =
      .ok (r.inMode 1) := by
  have hMode : (n.inMode 1).debugMode = 1 := rfl
  rw [publish_cases hPublish, publish, if_pos hMode,
    drawDebug_eq hBox]
  rfl

theorem approachTick_inMode
    (hBox : i < box.count)
    (hTick : approachTick box i n = .ok r) :
    approachTick box i (n.inMode 1) = .ok (r.inMode 1) := by
  simp only [approachTick, bind_eq_ok] at hTick
  rcases hTick with
    ⟨center, hCenter, ⟨m, reached⟩, hControl, hTick⟩
  simp only [approachTick, hCenter,
    control_inMode 1 n hControl, bind, Except.bind]
  cases reached with
  | true =>
      cases hTick
      rfl
  | false => exact publish_inMode hBox hTick

omit [LinearOrder K] in
/- A tick in the turn state has no centre to draw. -/
theorem turnTick_inMode
    (hBox : i < box.count)
    (hTick : turnTick trig box i n = .ok r) :
    turnTick trig box i (n.inMode 1) =
      .error (.unboundLocal "center_x") := by
  simp only [turnTick, bind_eq_ok] at hTick
  rcases hTick with ⟨angle, hAngle, _⟩
  simp only [turnTick, hAngle, bind, Except.bind, publish]
  have hMode : (n.inMode 1).debugMode = 1 := rfl
  rw [if_pos hMode, drawDebug_eq hBox]

omit [Field K] [LinearOrder K] in
theorem noBoxTick_inMode (n : Node K) :
    noBoxTick (n.inMode 1) = (noBoxTick n).inMode 1 := by
  by_cases hCount : n.noBoxCount + 1 ≥ noBoxCountLimit
  · simp [noBoxTick, Node.inMode, hCount]
  · simp [noBoxTick, Node.inMode, hCount]

/- A tick with debugging, for one that returns without. -/
theorem timerCallback_inMode
    (hWell : ∀ box ∈ n.boxData, box.WellFormed)
    (hTick : timerCallback trig n = .ok r) :
    timerCallback trig (n.inMode 1) =
      if n.Turning then .error (.unboundLocal "center_x")
      else .ok (r.inMode 1) := by
  rw [timerCallback_eq] at hTick ⊢
  have hSame : (n.inMode 1).actsOn = n.actsOn := rfl
  rw [hSame]
  cases hActs : n.actsOn with
  | none =>
      have hStays : ¬ n.Turning := by
        simp [Node.Turning, hActs]
      simp only [hActs] at hTick
      cases hTick
      rw [if_neg hStays]
      rfl
  | some box =>
      have hStored : n.boxData = some box := by
        unfold Node.actsOn at hActs
        split at hActs
        · exact (Option.filter_eq_some_iff.mp hActs).1
        · cases hActs
      simp only [hActs, actTick] at hTick ⊢
      by_cases hBox : box.hasBox = false
      · have hStays : ¬ n.Turning := by
          simp [Node.Turning, hActs, hBox]
        rw [if_pos hBox] at hTick ⊢
        cases hTick
        rw [if_neg hStays, noBoxTick_inMode]
        rfl
      · rw [if_neg hBox] at hTick ⊢
        rw [Bool.not_eq_false] at hBox
        rcases minIndex_ok
            ((hWell box hStored).1 hBox) with
          ⟨i, hIndex, hLess⟩
        simp only [hIndex, bind, Except.bind] at hTick ⊢
        have hPhase : (n.inMode 1).state = n.state := rfl
        rw [hPhase]
        cases hState : n.state with
        | approach =>
            have hStays : ¬ n.Turning := by
              simp [Node.Turning, hState]
            simp only [hState] at hTick
            rw [if_neg hStays]
            exact approachTick_inMode hLess hTick
        | turn =>
            have hTurning : n.Turning :=
              ⟨hState, box, hActs, hBox⟩
            simp only [hState] at hTick
            rw [if_pos hTurning]
            exact turnTick_inMode hLess hTick

end Callback

------------------------------------------------------------
-- Two Servers
------------------------------------------------------------

/- Messages that come from the detector. -/
def Detections (_ : Server K) : Input K → Prop
| .boundingBox msg => msg.WellFormed
| _ => True

instance (s : Server K) :
    (i : Input K) → Decidable (Detections s i)
| .boundingBox msg => inferInstanceAs (Decidable msg.WellFormed)
| .goal => .isTrue trivial
| .timer => .isTrue trivial
| .cancel _ => .isTrue trivial
| .finish _ => .isTrue trivial

/- What the node sends: messages and results. -/
def outputs :
    List (Event K) → List (Pos K ⊕ ApproachResult K)
| [] => []
| .ticked t :: earlier =>
    t.result.published.toList.map .inl ++ outputs earlier
| .returned _ _ result :: earlier =>
    .inr result :: outputs earlier
| _ :: earlier => outputs earlier

omit [Field K] [LinearOrder K] in
theorem outputs_inMode (h : List (Event K)) :
    outputs (h.map (Event.inMode 1)) = outputs h := by
  induction h with
  | nil => rfl
  | cons event h ih =>
      cases event with
      | started goal => exact ih
      | received id => exact ih
      | ticked t =>
          simp only [List.map_cons, Event.inMode, outputs, ih]
          rfl
      | cancelAccepted goal => exact ih
      | returned goal handle result =>
          simp only [List.map_cons, Event.inMode, outputs, ih]

/- No tick turned to a box. -/
def TurnsNever (h : List (Event K)) : Prop :=
  ∀ t, .ticked t ∈ h → ¬ t.before.Turning

/- The step is a tick that turns to a box. -/
def TurnStep (s : Server K) (i : Input K) : Prop :=
  i = .timer ∧ s.node.Turning

section Steps

variable {trig : Trig K} {s t u : Server K} {i : Input K}

theorem turnsNever_step
    (hStep : step trig s i = .ok u) :
    TurnsNever u.history ↔
      TurnsNever s.history ∧ ¬ TurnStep s i := by
  cases i with
  | goal =>
      cases hStep
      simp [TurnsNever, TurnStep, Server.goal]
  | boundingBox msg =>
      cases hStep
      simp [TurnsNever, TurnStep, Server.boundingBox]
  | timer =>
      rcases bind_eq_ok.mp hStep with ⟨r, _, hStep⟩
      cases hStep
      simp only [TurnsNever, TurnStep, Server.ticked,
        List.mem_cons, true_and]
      constructor
      · intro hNever
        exact
          ⟨fun t hOld => hNever t (.inr hOld),
            hNever _ (.inl rfl)⟩
      · rintro ⟨hOld, hNow⟩ t (hTick | hMember)
        · cases hTick
          exact hNow
        · exact hOld t hMember
  | cancel goal =>
      cases hStep
      simp [TurnsNever, TurnStep, Server.cancel]
  | finish goal =>
      simp only [step] at hStep
      cases hFind : s.execution? goal with
      | none =>
          rw [hFind] at hStep
          cases hStep
          simp [TurnStep]
      | some e =>
          rw [hFind] at hStep
          rcases bind_eq_ok.mp hStep with ⟨result, _, hStep⟩
          cases hStep
          simp [TurnsNever, TurnStep, Server.finish]

/- A step with debugging, for one that returns without. -/
theorem step_inMode
    (hWell : ∀ box ∈ s.node.boxData, box.WellFormed)
    (hStep : step trig s i = .ok u) :
    (TurnStep s i → ∀ v, step trig (s.inMode 1) i ≠ .ok v) ∧
      (¬ TurnStep s i →
        step trig (s.inMode 1) i = .ok (u.inMode 1)) := by
  cases i with
  | goal =>
      cases hStep
      refine ⟨?_, fun _ => rfl⟩
      rintro ⟨hTimer, _⟩
      cases hTimer
  | boundingBox msg =>
      cases hStep
      refine ⟨?_, fun _ => rfl⟩
      rintro ⟨hTimer, _⟩
      cases hTimer
  | timer =>
      rcases bind_eq_ok.mp hStep with ⟨r, hTick, hStep⟩
      cases hStep
      have hMode := timerCallback_inMode hWell hTick
      constructor
      · rintro ⟨_, hTurning⟩ v hOther
        rw [if_pos hTurning] at hMode
        rcases bind_eq_ok.mp hOther with ⟨r', hTick', _⟩
        cases hMode.symm.trans hTick'
      · intro hStays
        have hNot : ¬ s.node.Turning :=
          fun hTurning => hStays ⟨rfl, hTurning⟩
        rw [if_neg hNot] at hMode
        exact bind_eq_ok.mpr ⟨r.inMode 1, hMode, rfl⟩
  | cancel goal =>
      cases hStep
      refine ⟨?_, fun _ => rfl⟩
      rintro ⟨hTimer, _⟩
      cases hTimer
  | finish goal =>
      refine ⟨?_, fun _ => ?_⟩
      · rintro ⟨hTimer, _⟩
        cases hTimer
      · have hFind :
            (s.inMode 1).execution? goal =
              s.execution? goal := rfl
        have hFinish :
            finishGoal (s.inMode 1).node =
              finishGoal s.node := rfl
        simp only [step, hFind, hFinish] at hStep ⊢
        cases hSome : s.execution? goal with
        | none =>
            rw [hSome] at hStep
            cases hStep
            rfl
        | some e =>
            rw [hSome] at hStep
            rcases bind_eq_ok.mp hStep with
              ⟨result, hResult, hStep⟩
            cases hStep
            exact bind_eq_ok.mpr ⟨result, hResult, rfl⟩

end Steps

------------------------------------------------------------
-- Every Run
------------------------------------------------------------

/- The node stores well-formed messages only. -/
theorem boxes_of_run
    {trig : Trig K} {debugMode : Int}
    {is : List (Input K)} {s : Server K}
    (hRun :
      ((machine trig).restrict Detections).Run
        (Server.init debugMode) is s) :
    ∀ box ∈ s.node.boxData, box.WellFormed := by
  apply hRun.invariant
    (P := fun s => ∀ box ∈ s.node.boxData, box.WellFormed)
  · intro box hBox
    cases hBox
    simp [BoundingBox.WellFormed, BoundingBox.default,
      BoundingBox.count]
  · intro t i u hWell hEnabled hStep
    rcases (constants_of_step hStep).2.2 with
      hSame | ⟨msg, rfl, hSome⟩
    · rw [hSame]
      exact hWell
    · rw [hSome]
      intro box hBox
      cases hBox
      exact hEnabled.2

/-
  The run with debugging over the inputs of a run without:
  there is one exactly as long as no tick turns to a box, and
  then it goes through the same states.
-/
theorem debug_run
    {trig : Trig K} {is : List (Input K)} {s : Server K}
    (hRun :
      ((machine trig).restrict Detections).Run
        (Server.init 0) is s) :
    (∀ s', (machine trig).Run (Server.init 1) is s' →
        s' = s.inMode 1 ∧ TurnsNever s.history) ∧
      (TurnsNever s.history →
        (machine trig).Run (Server.init 1) is (s.inMode 1)) := by
  induction hRun with
  | nil =>
      constructor
      · intro s' hOther
        refine ⟨hOther.eq_of_nil, ?_⟩
        intro t hMember
        cases hMember
      · intro _
        exact .nil
  | @snoc is t u i hRun hEnabled hStep ih =>
      have hBoth := step_inMode (boxes_of_run hRun) hStep
      have hNever := turnsNever_step hStep
      constructor
      · intro s' hOther
        rcases hOther.of_snoc with ⟨t', hPrefix, _, hStep'⟩
        rcases ih.1 t' hPrefix with ⟨rfl, hBefore⟩
        by_cases hTurn : TurnStep t i
        · exact absurd hStep' (hBoth.1 hTurn s')
        · have hNext := (hBoth.2 hTurn).symm.trans hStep'
          exact
            ⟨(Except.ok.inj hNext).symm,
              hNever.mpr ⟨hBefore, hTurn⟩⟩
      · intro hAfter
        rcases hNever.mp hAfter with ⟨hBefore, hTurn⟩
        exact .snoc (ih.2 hBefore) hEnabled.1 (hBoth.2 hTurn)

/-
  For every sequence of callbacks with well-formed messages:
  without debugging no callback raises, and with debugging
  the same callbacks return and send the same exactly when no
  tick turns to a box.
-/
theorem debug_changes_nothing_iff
    {trig : Trig K} {is : List (Input K)} {s : Server K}
    (hRun :
      ((machine trig).restrict Detections).Run
        (Server.init 0) is s) :
    (∀ i, Enabled s i → ∃ u, step trig s i = .ok u) ∧
      ((∃ s', (machine trig).Run (Server.init 1) is s' ∧
          outputs s'.history = outputs s.history) ↔
        TurnsNever s.history) := by
  rcases debug_run hRun with ⟨hOnly, hSome⟩
  constructor
  · intro i hEnabled
    have hTracking : Tracking s := by
      apply hRun.invariant (Tracking.init 0)
      intro t i u hTracking hEnabled hStep
      exact hTracking.step hEnabled.1 hStep
    have hDebug : s.node.debugMode ≠ 1 := by
      rw [(constants_of_run hRun.of_restrict).1]
      decide
    exact
      hTracking.step_ok trig hDebug (boxes_of_run hRun) hEnabled
  · constructor
    · rintro ⟨s', hOther, _⟩
      exact (hOnly s' hOther).2
    · intro hNever
      exact
        ⟨s.inMode 1, hSome hNever, outputs_inMode s.history⟩

/- A target right where it should be, up to the turn. -/
def turningRun : List (Input ℚ) :=
  [.boundingBox ⟨[220, 260, 260, 300], ["cola"], [1], [0], true⟩,
    .goal] ++ List.replicate 6 .timer

/- With debugging, the tick that turns raises. -/
theorem debug_raises :
    ¬ ∀ (is : List (Input ℚ)) (s : Server ℚ),
      ((machine ⟨fun _ _ => 0, 1⟩).restrict Detections).Run
          (Server.init 0) is s →
        ∃ s', (machine ⟨fun _ _ => 0, 1⟩).Run (Server.init 1)
            is s' ∧
          outputs s'.history = outputs s.history := by
  intro hClaim
  have hSome :
      (((machine (⟨fun _ _ => 0, 1⟩ : Trig ℚ)).restrict
        Detections).exec (Server.init 0) turningRun).any
        (fun s =>
          s.history.any fun
            | .ticked t => decide t.before.Turning
            | .started _ => false
            | .received _ => false
            | .cancelAccepted _ => false
            | .returned _ _ _ => false) =
        true := by
    decide +kernel
  rcases Machine.exists_run_of_exec hSome with
    ⟨s, hRun, hTest⟩
  rcases hClaim _ s hRun with ⟨s', hOther, _⟩
  have hNever := ((debug_run hRun).1 s' hOther).2
  rw [List.any_eq_true] at hTest
  rcases hTest with ⟨event, hMember, hTurns⟩
  cases event with
  | ticked t =>
      exact hNever t hMember (of_decide_eq_true hTurns)
  | started goal => cases hTurns
  | received id => cases hTurns
  | cancelAccepted goal => cases hTurns
  | returned goal handle result => cases hTurns

/- The same goal, up to its fifth tick. -/
theorem debug_changes_nothing_iff_tracking :
    ∃ s : Server ℚ,
      ((machine ⟨fun _ _ => 0, 1⟩).restrict Detections).Run
          (Server.init 0) (turningRun.take 6) s ∧
        ((∃ s', (machine ⟨fun _ _ => 0, 1⟩).Run (Server.init 1)
            (turningRun.take 6) s' ∧
            outputs s'.history = outputs s.history) ↔
          TurnsNever s.history) := by
  have hSome :
      (((machine (⟨fun _ _ => 0, 1⟩ : Trig ℚ)).restrict
        Detections).exec (Server.init 0)
          (turningRun.take 6)).any (fun _ => true) = true := by
    decide +kernel
  rcases Machine.exists_run_of_exec hSome with ⟨s, hRun, _⟩
  exact ⟨s, hRun, (debug_changes_nothing_iff hRun).2⟩

end Approach

end Manipulator
