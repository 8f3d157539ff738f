import Manipulator.Approach.Interleaving
import Manipulator.Approach.Timer

/-
  What a timer callback in flight can still do.

  A callback goes on through statements that depend on what
  the others do to the node meanwhile. Whatever they do, a
  quiet callback has no effect left that another one or a
  goal could notice, and a silent one publishes nothing any
  more; and a callback that is not quiet, or not silent, has
  such an effect ahead when the others let it.

  Main declarations:
    * `TickAt.quiet`, `TickAt.silent`
    * `TickAt.step_of_quiet`, `TickAt.step_of_silent`
    * `Follows`, `silent_iff`, `quiet_iff`
-/

------------------------------------------------------------
-- Quiet And Silent Callbacks
------------------------------------------------------------

namespace Manipulator

namespace Approach

variable {K : Type} [Field K] [LinearOrder K]

/- The callback is about to test `run`. -/
def TickAt.isChecking : TickAt K → Bool
| .checkRun => true
| _ => false

/-
  Whatever the other callbacks do, this one only sleeps,
  draws, returns or raises.
-/
def TickAt.quiet : TickAt K → Bool
| .checkLength box => decide (¬ box.Valid)
| .sleep => true
| .select box i acc =>
    decide (0 < i ∧ i < box.count) && acc.1.isNone
| .findCenter s =>
    decide (s.box.xyxy.length ≤ s.minIndex * 4 + 3)
| .setLabel aim =>
    decide (aim.box.labels.length ≤ aim.minIndex)
| .readAngle s _ =>
    decide (s.box.angles.length ≤ s.minIndex)
| .debug _ _ => true
| _ => false

/-
  Whatever the other callbacks do, this one publishes
  nothing: it is quiet, misses a box, or confirms the target.
-/
def TickAt.silent : TickAt K → Bool
| .checkLength box => decide (¬ box.Valid) || !box.hasBox
| .checkBox box => !box.hasBox
| .countMiss => true
| .checkLimit => true
| .stopLost => true
| .dropBox => true
| .setLost => true
| .startTurn _ => true
| .keepBox _ => true
| .setLabel _ => true
| stmt => stmt.quiet

theorem index_ne_ok
    {α : Type} {xs : List α} {i : Nat} {x : α}
    (hLength : xs.length ≤ i) : index xs i ≠ .ok x := by
  intro hIndex
  have hSome := index_eq_ok.mp hIndex
  rw [List.getElem?_eq_none hLength] at hSome
  cases hSome

namespace TickAt

variable {trig : Trig K} {n : Node K}
variable {stmt : TickAt K} {e : Effect K}

/- A callback that finds `run` false returns. -/
theorem step_of_checking
    (hChecking : stmt.isChecking = true)
    (hRun : n.run = false)
    (hStep : stmt.step trig n = .ok e) :
    e = .stop n := by
  cases stmt with
  | checkRun =>
      simp only [step, hRun, if_true, pure_eq_ok] at hStep
      exact hStep.symm
  | _ => cases hChecking

/- A quiet callback leaves the node alone and returns. -/
theorem step_of_quiet
    (hQuiet : stmt.quiet = true)
    (hStep : stmt.step trig n = .ok e) :
    e = .stop n := by
  cases stmt with
  | checkLength box =>
      have hInvalid : ¬ box.Valid := of_decide_eq_true hQuiet
      simp only [step, hInvalid] at hStep
      cases hStep
      rfl
  | sleep =>
      cases hStep
      rfl
  | select box i acc =>
      rcases acc with ⟨minX, j⟩
      simp only [quiet, Bool.and_eq_true, decide_eq_true_eq,
        Option.isNone_iff_eq_none] at hQuiet
      rcases hQuiet with ⟨⟨hPositive, hLess⟩, rfl⟩
      have hHead : i ≠ 0 := by omega
      simp only [step, hLess, if_true, selectStep, bind_eq_ok,
        hHead, if_false] at hStep
      rcases hStep with ⟨_, ⟨_, _, hUnbound⟩, _⟩
      cases hUnbound
  | findCenter s =>
      have hShort := of_decide_eq_true hQuiet
      simp only [step, boxCenter, midpoint, bind_eq_ok]
        at hStep
      rcases hStep with ⟨_, ⟨_, _, _, ⟨_, _, _, hRead, _⟩, _⟩, _⟩
      exact absurd hRead (index_ne_ok hShort)
  | setLabel aim =>
      have hShort := of_decide_eq_true hQuiet
      simp only [step, bind_eq_ok] at hStep
      rcases hStep with ⟨_, hRead, _⟩
      exact absurd hRead (index_ne_ok hShort)
  | readAngle s center =>
      have hShort := of_decide_eq_true hQuiet
      simp only [step, bind_eq_ok] at hStep
      rcases hStep with ⟨_, hRead, _⟩
      exact absurd hRead (index_ne_ok hShort)
  | debug s center =>
      simp only [step] at hStep
      split at hStep
      · simp only [bind_eq_ok, pure_eq_ok] at hStep
        rcases hStep with ⟨_, _, rfl⟩
        rfl
      · cases hStep
        rfl
  | _ => cases hQuiet

/- A silent callback publishes nothing and stays silent. -/
theorem step_of_silent
    (hSilent : stmt.silent = true)
    (hStep : stmt.step trig n = .ok e) :
    e.published = none ∧
      ∀ next ∈ e.next, next.silent = true := by
  -- what a quiet statement does is no more than that
  have hStop :
      stmt.quiet = true →
        e.published = none ∧
          ∀ next ∈ e.next, next.silent = true := by
    intro hQuiet
    rw [step_of_quiet hQuiet hStep]
    refine ⟨rfl, ?_⟩
    intro next hNext
    cases hNext
  cases stmt with
  | checkLength box =>
      by_cases hValid : box.Valid
      · simp only [step, hValid] at hStep
        cases hStep
        simpa [silent, hValid, Effect.go] using hSilent
      · exact hStop (decide_eq_true hValid)
  | checkBox box =>
      have hBox : box.hasBox = false := by
        simpa [silent] using hSilent
      simp only [step, hBox, if_true] at hStep
      cases hStep
      simp [Effect.go, silent]
  | countMiss
  | stopLost
  | dropBox
  | setLost
  | startTurn aim
  | keepBox aim =>
      cases hStep
      simp [Effect.go, silent, quiet]
  | checkLimit =>
      simp only [step] at hStep
      split at hStep
      · cases hStep
        simp [Effect.go, silent]
      · cases hStep
        simp [Effect.go, silent, quiet]
  | setLabel aim =>
      simp only [step, bind_eq_ok, pure_eq_ok] at hStep
      rcases hStep with ⟨_, _, rfl⟩
      simp [Effect.stop]
  | _ => exact hStop hSilent

end TickAt

------------------------------------------------------------
-- Ways On
------------------------------------------------------------

/- A statement that can follow another in a callback. -/
def Follows
    (trig : Trig K) (stmt next : TickAt K) : Prop :=
  ∃ n e, stmt.step trig n = .ok e ∧ e.next = some next

/- The statements a callback can come to. -/
abbrev Ahead (trig : Trig K) : TickAt K → TickAt K → Prop :=
  Relation.ReflTransGen (Follows trig)

/- The callback can come to its publication. -/
def CanPublish (trig : Trig K) (stmt : TickAt K) : Prop :=
  ∃ s center, Ahead trig stmt (.publish s center)

variable {trig : Trig K}

theorem CanPublish.of_step
    {n : Node K} {stmt next : TickAt K} {e : Effect K}
    (hLater : CanPublish trig next)
    (hStep : stmt.step trig n = .ok e)
    (hNext : e.next = some next) :
    CanPublish trig stmt := by
  rcases hLater with ⟨s, center, hAhead⟩
  exact ⟨s, center, .head ⟨n, e, hStep, hNext⟩ hAhead⟩

/- A node in the approach state with a PID loop under way. -/
def Node.steady : Node K :=
  { Node.init 0 with
    firstLoop := false
    integral := some 0
    prevError := some 0 }

variable (trig)

theorem canPublish_checkTurn
    (s : Sighting K) (center : Option (K × K)) :
    CanPublish trig (.checkTurn s center) :=
  ⟨s, center, .single ⟨Node.steady, _, rfl, rfl⟩⟩

theorem canPublish_checkApproach (s : Sighting K) :
    CanPublish trig (.checkApproach s) :=
  (canPublish_checkTurn trig s none).of_step
    (n := { Node.steady with state := .turn }) rfl rfl

theorem canPublish_checkMisses (s : Sighting K) :
    CanPublish trig (.checkMisses s) :=
  (canPublish_checkApproach trig s).of_step
    (n := Node.steady) rfl rfl

/- The rest of the loop over the boxes. -/
theorem canPublish_select
    (box : BoundingBox K) (i : Nat) (acc : Option K × Nat)
    (hAcc : i = 0 ∨ box.count ≤ i ∨ acc.1.isSome) :
    CanPublish trig (.select box i acc) := by
  obtain ⟨left, hLeft⟩ : ∃ left, left = box.count - i := ⟨_, rfl⟩
  induction left generalizing i acc with
  | zero =>
      apply (canPublish_checkMisses trig ⟨box, acc.2⟩).of_step
        (n := Node.steady) (e := .go _ _)
      · have hEnd : ¬ i < box.count := by omega
        simp only [TickAt.step, hEnd, if_false]
        rfl
      · rfl
  | succ left ih =>
      have hLess : i < box.count := by omega
      have hRead : i = 0 ∨ acc.1.isSome := by
        rcases hAcc with hHead | hEnd | hSome
        · exact .inl hHead
        · omega
        · exact .inr hSome
      rcases selectStep_ok box hLess hRead with
        ⟨acc', hStep, hSome, _⟩
      have hLater :=
        ih (i + 1) acc' (.inr (.inr hSome)) (by omega)
      apply hLater.of_step (n := Node.steady) (e := .go _ _)
      · simp only [TickAt.step, hLess, if_true, hStep]
        rfl
      · rfl

theorem canPublish_endLoop (aim : Aim K) :
    CanPublish trig (.endLoop aim) :=
  (canPublish_checkTurn trig _ _).of_step
    (n := Node.steady) rfl rfl

theorem canPublish_checkHits (aim : Aim K) :
    CanPublish trig (.checkHits aim) :=
  (canPublish_endLoop trig aim).of_step
    (n := Node.steady) rfl rfl

theorem canPublish_countHit (aim : Aim K) :
    CanPublish trig (.countHit aim) :=
  (canPublish_checkHits trig aim).of_step
    (n := Node.steady) rfl rfl

theorem canPublish_checkTolerance (aim : Aim K) :
    CanPublish trig (.checkTolerance aim) := by
  by_cases hTolerance : InTolerance aim.error
  · apply (canPublish_countHit trig aim).of_step
      (n := Node.steady) (e := .go _ _)
    · simp only [TickAt.step, hTolerance, if_true]
      rfl
    · rfl
  · apply (canPublish_endLoop trig aim).of_step
      (n := Node.steady) (e := .go _ _)
    · simp only [TickAt.step, hTolerance, if_false]
      rfl
    · rfl

/- The rest of a pass of the PID loop. -/
theorem canPublish_pass
    (aim : Aim K) (i : Fin 2)
    (hAfter : CanPublish trig (.afterAxis aim i))
    (stmt : AxisAt K) :
    CanPublish trig (.axis aim i stmt) := by
  have hKeep : CanPublish trig (.axis aim i .keepError) :=
    hAfter.of_step (n := Node.steady) rfl rfl
  have hMove (output : K) :
      CanPublish trig (.axis aim i (.move output)) :=
    hKeep.of_step (n := Node.steady) rfl rfl
  have hLimit (derivative : K) :
      CanPublish trig (.axis aim i (.limit derivative)) :=
    (hMove _).of_step (n := Node.steady) rfl rfl
  have hDerive : CanPublish trig (.axis aim i .derive) :=
    (hLimit _).of_step (n := Node.steady) rfl rfl
  have hAdd : CanPublish trig (.axis aim i .addIntegral) :=
    hDerive.of_step (n := Node.steady) rfl rfl
  have hClear : CanPublish trig (.axis aim i .clearFirst) :=
    hAdd.of_step (n := Node.steady) rfl rfl
  have hZero : CanPublish trig (.axis aim i .zeroIntegral) :=
    hClear.of_step (n := Node.steady) rfl rfl
  cases stmt with
  | checkFirst => exact hAdd.of_step (n := Node.steady) rfl rfl
  | zeroPrevError => exact hZero.of_step (n := Node.steady) rfl rfl
  | zeroIntegral => exact hZero
  | clearFirst => exact hClear
  | addIntegral => exact hAdd
  | derive => exact hDerive
  | limit derivative => exact hLimit derivative
  | move output => exact hMove output
  | keepError => exact hKeep

theorem canPublish_axis
    (aim : Aim K) (i : Fin 2) (stmt : AxisAt K) :
    CanPublish trig (.axis aim i stmt) := by
  have hSecond (stmt : AxisAt K) :
      CanPublish trig (.axis aim 1 stmt) :=
    canPublish_pass trig aim 1
      (canPublish_checkTolerance trig aim) stmt
  apply canPublish_pass
  by_cases hFirst : i = 0
  · rw [TickAt.afterAxis, if_pos hFirst]
    exact hSecond .checkFirst
  · rw [TickAt.afterAxis, if_neg hFirst]
    exact canPublish_checkTolerance trig aim

theorem canPublish_setTurn
    (s : Sighting K) (center : Option (K × K)) :
    CanPublish trig (.setTurn s center) :=
  ⟨s, center, .single ⟨Node.steady, _, rfl, rfl⟩⟩

theorem canPublish_stopTurn
    (s : Sighting K) (center : Option (K × K)) :
    CanPublish trig (.stopTurn s center) :=
  (canPublish_setTurn trig s center).of_step
    (n := Node.steady) rfl rfl

theorem canPublish_setYaw
    (s : Sighting K) (center : Option (K × K)) (yaw : K) :
    CanPublish trig (.setYaw s center yaw) :=
  (canPublish_stopTurn trig s center).of_step
    (n := Node.steady) rfl rfl

theorem canPublish_readPose
    (s : Sighting K) (center : Option (K × K)) (angle : K) :
    CanPublish trig (.readPose s center angle) :=
  (canPublish_setYaw trig s center _).of_step
    (n := Node.steady) rfl rfl

theorem canPublish_clearMisses (box : BoundingBox K) :
    CanPublish trig (.clearMisses box) :=
  (canPublish_select trig box 0 (none, 0) (.inl rfl)).of_step
    (n := Node.steady) rfl rfl

theorem canPublish_checkBox
    {box : BoundingBox K} (hBox : box.hasBox = true) :
    CanPublish trig (.checkBox box) := by
  apply (canPublish_clearMisses trig box).of_step
    (n := Node.steady) (e := .go _ _)
  · simp only [TickAt.step, hBox]
    rfl
  · rfl

theorem canPublish_checkLength
    {box : BoundingBox K}
    (hValid : box.Valid)
    (hBox : box.hasBox = true) :
    CanPublish trig (.checkLength box) := by
  apply (canPublish_checkBox trig hBox).of_step
    (n := Node.steady) (e := .go _ _)
  · simp only [TickAt.step, hValid]
    rfl
  · rfl

/- A message that reports a box can arrive in time. -/
theorem canPublish_readBox : CanPublish trig .readBox := by
  have hLater :
      CanPublish trig (.checkLength ⟨[], [], [], [], true⟩) :=
    canPublish_checkLength trig rfl rfl
  exact
    hLater.of_step
      (n :=
        { Node.steady with
          boxData := some ⟨[], [], [], [], true⟩ })
      rfl rfl

theorem canPublish_findCenter
    {s : Sighting K}
    (hLong : s.minIndex * 4 + 3 < s.box.xyxy.length) :
    CanPublish trig (.findCenter s) := by
  have hBox : s.minIndex < s.box.count := by
    unfold BoundingBox.count
    omega
  rcases boxCenter_ok hBox with ⟨center, hCenter⟩
  apply (canPublish_axis trig ⟨s, center⟩ 0 .checkFirst).of_step
    (n := Node.steady) (e := .go _ _)
  · simp only [TickAt.step, hCenter]
    rfl
  · rfl

theorem canPublish_readAngle
    {s : Sighting K} {center : Option (K × K)}
    (hLong : s.minIndex < s.box.angles.length) :
    CanPublish trig (.readAngle s center) := by
  rcases index_ok s.box.angles hLong with ⟨angle, hAngle⟩
  apply (canPublish_readPose trig s center angle).of_step
    (n := Node.steady) (e := .go _ _)
  · simp only [TickAt.step, hAngle]
    rfl
  · rfl

variable {trig}

theorem silent_of_ahead
    {stmt later : TickAt K}
    (hSilent : stmt.silent = true)
    (hAhead : Ahead trig stmt later) : later.silent = true := by
  induction hAhead with
  | refl => exact hSilent
  | tail _ hFollows ih =>
      rcases hFollows with ⟨n, e, hStep, hNext⟩
      exact (TickAt.step_of_silent ih hStep).2 _ hNext

theorem canPublish_of_not_silent
    (trig : Trig K) {stmt : TickAt K}
    (hLoud : stmt.silent = false) : CanPublish trig stmt := by
  cases stmt with
  | checkRun =>
      exact
        (canPublish_readBox trig).of_step
          (n := { Node.steady with run := true }) rfl rfl
  | readBox => exact canPublish_readBox trig
  | checkLength box =>
      simp only [TickAt.silent, Bool.or_eq_false_iff,
        decide_eq_false_iff_not, not_not, Bool.not_eq_false']
        at hLoud
      exact canPublish_checkLength trig hLoud.1 hLoud.2
  | checkBox box =>
      have hBox : box.hasBox = true := by
        simpa [TickAt.silent] using hLoud
      exact canPublish_checkBox trig hBox
  | clearMisses box => exact canPublish_clearMisses trig box
  | select box i acc =>
      apply canPublish_select
      simp only [TickAt.silent, TickAt.quiet,
        Bool.and_eq_false_iff, decide_eq_false_iff_not] at hLoud
      rcases hLoud with hPlace | hSome
      · omega
      · exact .inr (.inr (by simpa using hSome))
  | checkMisses s => exact canPublish_checkMisses trig s
  | checkApproach s => exact canPublish_checkApproach trig s
  | findCenter s =>
      have hLong := of_decide_eq_false hLoud
      exact canPublish_findCenter trig (by omega)
  | axis aim i stmt => exact canPublish_axis trig aim i stmt
  | checkTolerance aim => exact canPublish_checkTolerance trig aim
  | countHit aim => exact canPublish_countHit trig aim
  | checkHits aim => exact canPublish_checkHits trig aim
  | endLoop aim => exact canPublish_endLoop trig aim
  | checkTurn s center => exact canPublish_checkTurn trig s center
  | readAngle s center =>
      have hLong := of_decide_eq_false hLoud
      exact canPublish_readAngle trig (by omega)
  | readPose s center angle =>
      exact canPublish_readPose trig s center angle
  | setYaw s center yaw => exact canPublish_setYaw trig s center yaw
  | stopTurn s center => exact canPublish_stopTurn trig s center
  | setTurn s center => exact canPublish_setTurn trig s center
  | publish s center => exact ⟨s, center, .refl⟩
  | _ => cases hLoud

/- A callback is silent when it cannot come to publish. -/
theorem silent_iff
    {stmt : TickAt K} :
    stmt.silent = true ↔ ¬ CanPublish trig stmt := by
  constructor
  · rintro hSilent ⟨s, center, hAhead⟩
    cases silent_of_ahead hSilent hAhead
  · intro hCannot
    by_contra hLoud
    rw [Bool.not_eq_true] at hLoud
    exact hCannot (canPublish_of_not_silent trig hLoud)

------------------------------------------------------------
-- Changes Ahead
------------------------------------------------------------

/- The callback can come to publish or to change a flag. -/
def CanAct (trig : Trig K) (stmt : TickAt K) : Prop :=
  ∃ later, Ahead trig stmt later ∧
    ∃ n e, later.step trig n = .ok e ∧
      (e.published.isSome = true ∨ e.node.flags ≠ n.flags)

theorem CanAct.of_step
    {n : Node K} {stmt next : TickAt K} {e : Effect K}
    (hLater : CanAct trig next)
    (hStep : stmt.step trig n = .ok e)
    (hNext : e.next = some next) :
    CanAct trig stmt := by
  rcases hLater with ⟨later, hAhead, hAct⟩
  exact ⟨later, .head ⟨n, e, hStep, hNext⟩ hAhead, hAct⟩

theorem CanAct.of_canPublish
    {stmt : TickAt K}
    (hPublish : CanPublish trig stmt) : CanAct trig stmt := by
  rcases hPublish with ⟨s, center, hAhead⟩
  exact ⟨_, hAhead, Node.steady, _, rfl, .inl rfl⟩

/- A statement that changes one of the flags. -/
theorem CanAct.of_change
    {n : Node K} {stmt : TickAt K} {e : Effect K}
    (hStep : stmt.step trig n = .ok e)
    (hChange : e.node.flags ≠ n.flags) : CanAct trig stmt :=
  ⟨stmt, .refl, n, e, hStep, .inr hChange⟩

theorem canAct_countMiss : CanAct trig .countMiss := by
  apply CanAct.of_change (n := Node.steady) rfl
  simp [Effect.go, Node.flags]

theorem canAct_stopLost : CanAct trig .stopLost := by
  apply CanAct.of_change
    (n := { Node.steady with run := true }) rfl
  simp [Effect.go, Node.flags]

theorem canAct_checkBox
    {box : BoundingBox K} (hBox : box.hasBox = false) :
    CanAct trig (.checkBox box) := by
  apply CanAct.of_step canAct_countMiss
    (n := Node.steady) (e := .go _ _)
  · simp only [TickAt.step, hBox, if_true]
    rfl
  · rfl

theorem canAct_of_not_quiet
    (trig : Trig K) {stmt : TickAt K}
    (hActive : stmt.quiet = false) : CanAct trig stmt := by
  by_cases hLoud : stmt.silent = false
  · exact .of_canPublish (canPublish_of_not_silent trig hLoud)
  · rw [Bool.not_eq_false] at hLoud
    cases stmt with
    | checkLength box =>
        have hValid : box.Valid := by
          simpa [TickAt.quiet] using hActive
        have hBox : box.hasBox = false := by
          simpa [TickAt.silent, hValid] using hLoud
        apply CanAct.of_step (canAct_checkBox hBox)
          (n := Node.steady) (e := .go _ _)
        · simp only [TickAt.step, hValid]
          rfl
        · rfl
    | checkBox box =>
        have hBox : box.hasBox = false := by
          simpa [TickAt.silent] using hLoud
        exact canAct_checkBox hBox
    | countMiss => exact canAct_countMiss
    | checkLimit =>
        exact
          CanAct.of_step canAct_stopLost
            (n := { Node.steady with noBoxCount := 30 }) rfl rfl
    | stopLost => exact canAct_stopLost
    | dropBox =>
        apply CanAct.of_change (n := Node.steady) rfl
        simp [Effect.go, Node.flags, Node.steady, Node.init]
    | setLost =>
        apply CanAct.of_change (n := Node.steady) rfl
        simp [Effect.go, Node.flags, Node.steady, Node.init]
    | startTurn aim =>
        apply CanAct.of_change (n := Node.steady) rfl
        simp [Effect.go, Node.flags, Node.steady, Node.init]
    | keepBox aim =>
        apply CanAct.of_change (n := Node.steady) rfl
        simp [Effect.go, Node.flags, Node.steady, Node.init]
    | setLabel aim =>
        have hLong := of_decide_eq_false hActive
        rcases index_ok aim.box.labels (not_le.mp hLong) with
          ⟨label, hLabel⟩
        apply CanAct.of_change (n := Node.steady)
          (e := .stop { Node.steady with label := some label })
        · simp only [TickAt.step, hLabel]
          rfl
        · simp [Effect.stop, Node.flags, Node.steady, Node.init]
    | _ =>
        -- elsewhere silent means quiet
        cases hLoud.symm.trans hActive

/- A callback is quiet when no effect lies ahead of it. -/
theorem quiet_iff
    {stmt : TickAt K} :
    stmt.quiet = true ↔ ¬ CanAct trig stmt := by
  constructor
  · rintro hQuiet ⟨later, hAhead, n, e, hStep, hAct⟩
    have hSame : later = stmt := by
      rcases Relation.ReflTransGen.cases_head hAhead with
        rfl | ⟨next, ⟨n', e', hFirst, hNext⟩, _⟩
      · rfl
      · rw [TickAt.step_of_quiet hQuiet hFirst] at hNext
        cases hNext
    subst hSame
    rw [TickAt.step_of_quiet hQuiet hStep] at hAct
    rcases hAct with hPublished | hChange
    · cases hPublished
    · exact hChange rfl
  · intro hCannot
    by_contra hActive
    rw [Bool.not_eq_true] at hActive
    exact hCannot (canAct_of_not_quiet trig hActive)

end Approach

end Manipulator
