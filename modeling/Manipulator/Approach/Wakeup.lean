import Manipulator.Approach.Ahead
import Manipulator.Approach.Interleaving

/-
  Wake-ups of the approach server.

  `execute_callback` sets `run` before it clears
  `finish_event`. A timer callback that stops the goal and
  sets the event in between is not heard: the event is
  cleared after it was set, and nobody sets it again. That is
  the only way to lose a wake-up.

  Main declarations:
    * `TickAt.signals`, `Callback.Signals`
    * `LostWakeup`, `Wasted`
    * `Covered`, `Covered.step`
    * `Stuck`, `Stuck.of_lost`, `Stuck.of_run`
    * `lost_wakeups_are_wasted`, `lost_for_good`
-/

------------------------------------------------------------
-- Callbacks That Will Set The Event
------------------------------------------------------------

namespace Manipulator

namespace Approach

variable {K : Type} [Field K] [LinearOrder K]

/-
  From here on a timer callback runs into
  `finish_event.set()`: no test lies before it, and no read
  that fails.
-/
def TickAt.signals : TickAt K → Bool
| .stopLost => true
| .dropBox => true
| .setLost => true
| .readAngle s _ => decide (s.minIndex < s.box.angles.length)
| .readPose _ _ _ => true
| .setYaw _ _ _ => true
| .stopTurn _ _ => true
| .setTurn _ _ => true
| _ => false

/- The statement is `finish_event.set()`. -/
def TickAt.setsEvent : TickAt K → Bool
| .setLost => true
| .setTurn _ _ => true
| _ => false

/- A callback that is going to set the event does not raise. -/
theorem TickAt.step_of_signals
    (trig : Trig K) (n : Node K)
    {stmt : TickAt K}
    (hSignals : stmt.signals = true) :
    ∃ e, stmt.step trig n = .ok e ∧
      (stmt.setsEvent = true ∨
        ∃ next ∈ e.next, next.signals = true) := by
  cases stmt with
  | stopLost => exact ⟨_, rfl, .inr ⟨_, rfl, rfl⟩⟩
  | dropBox => exact ⟨_, rfl, .inr ⟨_, rfl, rfl⟩⟩
  | setLost => exact ⟨_, rfl, .inl rfl⟩
  | readAngle s center =>
      have hLess : s.minIndex < s.box.angles.length :=
        of_decide_eq_true hSignals
      refine
        ⟨.go n (.readPose s center s.box.angles[s.minIndex]), ?_,
          .inr ⟨_, rfl, rfl⟩⟩
      have hAngle :=
        index_eq_ok.mpr (List.getElem?_eq_getElem hLess)
      simp only [step, hAngle]
      rfl
  | readPose s center angle => exact ⟨_, rfl, .inr ⟨_, rfl, rfl⟩⟩
  | setYaw s center yaw => exact ⟨_, rfl, .inr ⟨_, rfl, rfl⟩⟩
  | stopTurn s center => exact ⟨_, rfl, .inr ⟨_, rfl, rfl⟩⟩
  | setTurn s center => exact ⟨_, rfl, .inl rfl⟩
  | _ => cases hSignals

/- A statement that ends `run` is followed by one that signals. -/
theorem TickAt.signals_of_stop
    {trig : Trig K} {n : Node K}
    {stmt : TickAt K} {e : Effect K}
    (hStep : stmt.step trig n = .ok e)
    (hRun : n.run = true)
    (hStopped : e.node.run = false) :
    ∃ next ∈ e.next, next.signals = true := by
  have hFlags := congrArg Flags.run (TickAt.step_flags hStep)
  cases stmt with
  | stopLost =>
      cases hStep
      exact ⟨_, rfl, rfl⟩
  | stopTurn s center =>
      cases hStep
      exact ⟨_, rfl, rfl⟩
  | _ =>
      -- no other statement writes `run`
      simp only [onFlags, Node.flags] at hFlags
      simp [hFlags, hRun] at hStopped

/- Only `finish_event.set()` changes the event, and sets it. -/
theorem TickAt.step_event
    {trig : Trig K} {n : Node K}
    {stmt : TickAt K} {e : Effect K}
    (hStep : stmt.step trig n = .ok e) :
    e.node.finishEvent = (n.finishEvent || stmt.setsEvent) := by
  have hFlags :=
    congrArg Flags.finishEvent (TickAt.step_flags hStep)
  cases stmt with
  | _ => simpa [onFlags, setsEvent, Node.flags] using hFlags

/- After `finish_event.set()` a callback does not set it again. -/
theorem TickAt.step_of_setsEvent
    (trig : Trig K) (n : Node K)
    {stmt : TickAt K}
    (hSets : stmt.setsEvent = true) :
    ∃ e, stmt.step trig n = .ok e ∧
      e.node = { n with finishEvent := true } ∧
        ∀ next ∈ e.next, next.signals = false := by
  cases stmt with
  | setLost =>
      refine ⟨_, rfl, rfl, ?_⟩
      intro next hNext
      cases hNext
      rfl
  | setTurn s center =>
      refine ⟨_, rfl, rfl, ?_⟩
      intro next hNext
      cases hNext
      rfl
  | _ => cases hSets

------------------------------------------------------------
-- Lost Wake-Ups
------------------------------------------------------------

/- A callback that is going to set the event. -/
def Callback.Signals (c : Callback K) : Prop :=
  ∃ stmt ∈ c.stmt, stmt.signals = true

instance (c : Callback K) : Decidable c.Signals := by
  unfold Callback.Signals
  infer_instance

/-
  `execute_callback` waits on a cleared event, the goal is
  stopped, and no callback is going to set the event.
-/
structure LostWakeup (s : Process K) : Prop where
  waiting : s.goal.isWaiting = true
  cleared : s.node.finishEvent = false
  stopped : s.node.run = false
  silent : ∀ c ∈ s.ticks, ¬ c.Signals

/-
  A `finish_event.set()` that comes to nothing: it is called
  between `run = True` and `finish_event.clear()`, when the
  goal is stopped again, and no other callback is going to
  set the event.
-/
def Wasted (s : Process K) : Action K → Prop
| .tick k =>
    s.goal.isClearing = true ∧
      s.node.run = false ∧
        (∃ stmt ∈ s.stmt? k, stmt.setsEvent = true) ∧
          ∀ c ∈ s.ticks.eraseIdx k, ¬ c.Signals
| _ => False

instance decidableWasted
    (s : Process K) :
    (action : Action K) → Decidable (Wasted s action)
| .start => .isFalse id
| .goal => .isFalse id
| .fire => .isFalse id
| .tick _ => inferInstanceAs (Decidable (_ ∧ _))
| .message _ => .isFalse id

/-
  The invariant: a goal that was stopped and not yet told so
  has a callback that is going to tell it.
-/
def Covered (s : Process K) : Prop :=
  s.node.run = false →
    s.goal.isClearing = true ∨
        (s.goal.isWaiting = true ∧ s.node.finishEvent = false) →
      ∃ c ∈ s.ticks, c.Signals

omit [Field K] [LinearOrder K] in
theorem Covered.not_lost
    {s : Process K} (hCovered : Covered s) : ¬ LostWakeup s := by
  intro hLost
  rcases hCovered hLost.stopped
      (.inr ⟨hLost.waiting, hLost.cleared⟩) with
    ⟨c, hMember, hSignals⟩
  exact hLost.silent c hMember hSignals

------------------------------------------------------------
-- Steps
------------------------------------------------------------

variable {trig : Trig K} {s : Process K}

omit [LinearOrder K] in
/-
  A statement of `execute_callback` keeps the invariant:
  where it says something, `run` was just set, or it held
  before the event was cleared.
-/
theorem Covered.stepGoal
    (hCovered : Covered s) : Covered s.stepGoal := by
  intro hStopped hAt
  unfold Process.stepGoal at *
  cases hStep : s.goal.step s.node with
  | error error =>
      rw [hStep] at hAt
      rcases hAt with hClearing | ⟨hWaiting, _⟩
      · cases hClearing
      · cases hWaiting
  | ok r =>
      rcases r with ⟨node, goal⟩
      simp only [hStep] at hStopped hAt ⊢
      rcases GoalAt.step_at hStep with ⟨hClear, hWait⟩
      rcases hAt with hClearing | ⟨hWaiting, _⟩
      · rw [hClear hClearing] at hStopped
        cases hStopped
      · rcases hWait hWaiting with ⟨hClearing, rfl⟩
        exact hCovered hStopped (.inl hClearing)

/-
  A statement of a timer callback keeps the invariant, unless
  it wastes a wake-up.
-/
theorem Covered.stepTick
    {k : Nat}
    (hCovered : Covered s)
    (hEnabled : s.Enabled (.tick k))
    (hHeeded : ¬ Wasted s (.tick k)) :
    Covered (s.stepTick trig k) := by
  rcases Option.isSome_iff_exists.mp hEnabled with
    ⟨stmt, hStmt⟩
  rcases Process.callback_of_stmt? hStmt with
    ⟨c, _, hNext, hBefore, hAfter⟩
  have hSelf : c.Signals → stmt.signals = true := by
    rintro ⟨stmt', hStmt', hSignals⟩
    rw [hNext] at hStmt'
    cases hStmt'
    exact hSignals
  cases hStep : stmt.step trig s.node with
  | error error =>
      rw [Process.stepTick_error hStmt hStep]
      intro hStopped hAt
      rcases hCovered hStopped hAt with ⟨c', hMember, hSignals⟩
      refine ⟨c', (hAfter none c').mpr (.inr ?_), hSignals⟩
      rcases (hBefore c').mp hMember with rfl | hOther
      · -- a callback that is going to set the event goes on
        rcases TickAt.step_of_signals trig s.node
            (hSelf hSignals) with ⟨e, hOk, _⟩
        rw [hStep] at hOk
        cases hOk
      · exact hOther
  | ok e =>
      rw [Process.stepTick_ok hStmt hStep]
      have hGoesOn :
          (∃ next ∈ e.next, next.signals = true) →
            ∃ c' ∈ s.resume k e.next, c'.Signals :=
        fun hSignals =>
          ⟨_, (hAfter e.next _).mpr (.inl rfl), hSignals⟩
      intro hStopped hAt
      simp only at hStopped hAt ⊢
      by_cases hRun : s.node.run = true
      · exact hGoesOn (TickAt.signals_of_stop hStep hRun hStopped)
      · rw [Bool.not_eq_true] at hRun
        by_cases hSets : stmt.setsEvent = true
        · -- another callback is going to set the event as well
          have hClearing : s.goal.isClearing = true := by
            rw [TickAt.step_event hStep, hSets] at hAt
            simpa using hAt
          by_contra hNone
          refine hHeeded
            ⟨hClearing, hRun, ⟨stmt, hStmt, hSets⟩, ?_⟩
          intro c' hOther hSignals
          exact
            hNone
              ⟨c', (hAfter _ c').mpr (.inr hOther), hSignals⟩
        · have hUnset : stmt.setsEvent = false := by
            simpa using hSets
          rw [TickAt.step_event hStep, hUnset, Bool.or_false]
            at hAt
          rcases hCovered hRun hAt with ⟨c', hMember, hSignals⟩
          rcases (hBefore c').mp hMember with rfl | hOther
          · rcases TickAt.step_of_signals trig s.node
                (hSelf hSignals) with ⟨e', hOk, hLater⟩
            rw [hStep] at hOk
            cases hOk
            exact hGoesOn (hLater.resolve_left hSets)
          · exact
              ⟨c', (hAfter _ c').mpr (.inr hOther), hSignals⟩

/- Every step but a wasted one keeps the invariant. -/
theorem Covered.step
    {action : Action K}
    (hCovered : Covered s)
    (hEnabled : s.Enabled action)
    (hHeeded : ¬ Wasted s action) :
    Covered (s.step trig action) := by
  cases action with
  | start =>
      rintro _ (hClearing | ⟨hWaiting, _⟩)
      · cases hClearing
      · cases hWaiting
  | goal => exact hCovered.stepGoal
  | fire =>
      intro hStopped hAt
      rcases hCovered hStopped hAt with ⟨c, hMember, hSignals⟩
      exact ⟨c, List.mem_append_left _ hMember, hSignals⟩
  | tick k => exact hCovered.stepTick hEnabled hHeeded
  | message msg => exact hCovered

/-
  After a wasted `finish_event.set()` the next statement of
  `execute_callback` clears the event for good.
-/
theorem Wasted.lost
    {action : Action K}
    (hWasted : Wasted s action) :
    ∃ t, (process trig).Run s [action, .goal] t ∧
      LostWakeup t := by
  cases action with
  | tick k =>
      rcases hWasted with
        ⟨hClearing, hRun, ⟨stmt, hStmt, hSets⟩, hOthers⟩
      rcases TickAt.step_of_setsEvent trig s.node hSets with
        ⟨e, hStep, hNode, hLast⟩
      rcases Process.callback_of_stmt? hStmt with
        ⟨c, _, _, _, hAfter⟩
      have hGoal : s.goal = .clearEvent := by
        cases hAt : s.goal with
        | clearEvent => rfl
        | _ =>
            rw [hAt] at hClearing
            cases hClearing
      have hTick := Process.stepTick_ok hStmt hStep
      have hEnabled : (s.stepTick trig k).Enabled .goal := by
        rw [hTick]
        simp [Process.Enabled, hGoal, GoalAt.isIdle,
          GoalAt.isWaiting]
      have hFirst :
          (process trig).Run s [.tick k] (s.stepTick trig k) :=
        .single (Option.isSome_iff_exists.mpr ⟨_, hStmt⟩) rfl
      refine
        ⟨(s.stepTick trig k).stepGoal,
          hFirst.trans (.single hEnabled rfl), ?_⟩
      have hClear :
          (s.stepTick trig k).stepGoal =
            { s with
              node := { e.node with finishEvent := false }
              goal := .wait
              ticks := s.resume k e.next } := by
        rw [hTick]
        simp only [Process.stepGoal, hGoal, GoalAt.step]
        rfl
      rw [hClear]
      refine ⟨rfl, rfl, ?_, ?_⟩
      · rw [hNode]
        exact hRun
      · intro c' hMember
        rcases (hAfter e.next c').mp hMember with rfl | hOther
        · rintro ⟨next, hNext, hSignals⟩
          rw [hLast next hNext] at hSignals
          cases hSignals
        · exact hOthers c' hOther
  | start => cases hWasted
  | goal => cases hWasted
  | fire => cases hWasted
  | message msg => cases hWasted

------------------------------------------------------------
-- Waiting For Good
------------------------------------------------------------

/-
  A lost wake-up with nothing in flight that could undo it:
  the callbacks are about to test `run`, or are quiet.
-/
structure Stuck (s : Process K) : Prop where
  waiting : s.goal.isWaiting = true
  cleared : s.node.finishEvent = false
  stopped : s.node.run = false
  quiet :
    ∀ c ∈ s.ticks, ∀ stmt ∈ c.stmt,
      stmt.isChecking = true ∨ stmt.quiet = true

omit [Field K] [LinearOrder K] in
/- No such callback is going to set the event. -/
theorem TickAt.not_signals_of_quiet
    {stmt : TickAt K}
    (hQuiet : stmt.isChecking = true ∨ stmt.quiet = true) :
    stmt.signals = false := by
  cases stmt with
  | readAngle s center =>
      rcases hQuiet with hChecking | hShort
      · cases hChecking
      · have hLength := of_decide_eq_true hShort
        exact decide_eq_false hLength.not_gt
  | stopLost
  | dropBox
  | setLost
  | readPose s center angle
  | setYaw s center yaw
  | stopTurn s center
  | setTurn s center =>
      rcases hQuiet with hChecking | hNever
      · cases hChecking
      · cases hNever
  | _ => rfl

namespace Stuck

omit [Field K] [LinearOrder K] in
theorem lost
    (hStuck : Stuck s) : LostWakeup s := by
  refine ⟨hStuck.waiting, hStuck.cleared, hStuck.stopped, ?_⟩
  rintro c hMember ⟨stmt, hStmt, hSignals⟩
  have hQuiet := hStuck.quiet c hMember stmt hStmt
  rw [TickAt.not_signals_of_quiet hQuiet] at hSignals
  cases hSignals

omit [Field K] [LinearOrder K] in
/- A wake-up that is lost when nothing is in flight. -/
theorem of_lost
    (hLost : LostWakeup s)
    (hEnded : ∀ c ∈ s.ticks, c.stmt = none) : Stuck s := by
  refine ⟨hLost.waiting, hLost.cleared, hLost.stopped, ?_⟩
  intro c hMember stmt hStmt
  rw [hEnded c hMember] at hStmt
  cases hStmt

/- The next statement of a callback is its last. -/
theorem stepTick
    {k : Nat}
    (hStuck : Stuck s)
    (hEnabled : s.Enabled (.tick k)) :
    Stuck (s.stepTick trig k) := by
  rcases Option.isSome_iff_exists.mp hEnabled with
    ⟨stmt, hStmt⟩
  rcases Process.callback_of_stmt? hStmt with
    ⟨c, hCallback, hNext, hBefore, hAfter⟩
  have hQuiet :=
    hStuck.quiet c (List.mem_of_getElem? hCallback) stmt hNext
  have hEnd :
      s.stepTick trig k =
        { s with ticks := s.resume k none } := by
    cases hStep : stmt.step trig s.node with
    | error error => exact Process.stepTick_error hStmt hStep
    | ok e =>
        have hStop : e = .stop s.node := by
          rcases hQuiet with hChecking | hQuiet
          · exact
              TickAt.step_of_checking hChecking hStuck.stopped
                hStep
          · exact TickAt.step_of_quiet hQuiet hStep
        rw [Process.stepTick_ok hStmt hStep, hStop]
        rfl
  rw [hEnd]
  refine ⟨hStuck.waiting, hStuck.cleared, hStuck.stopped, ?_⟩
  intro c' hMember stmt' hStmt'
  rcases (hAfter none c').mp hMember with rfl | hOther
  · cases hStmt'
  · exact
      hStuck.quiet c' ((hBefore c').mpr (.inr hOther)) stmt'
        hStmt'

theorem step
    {action : Action K}
    (hStuck : Stuck s)
    (hEnabled : s.Enabled action) :
    Stuck (s.step trig action) := by
  cases action with
  | start =>
      -- no goal starts beside the one that waits
      have hWaiting := hStuck.waiting
      have hIdle : s.goal.isIdle = true := hEnabled
      cases hGoal : s.goal with
      | idle =>
          rw [hGoal] at hWaiting
          cases hWaiting
      | _ =>
          rw [hGoal] at hIdle
          cases hIdle
  | goal =>
      -- the event is not set
      have hSet := hEnabled.2 hStuck.waiting
      rw [hStuck.cleared] at hSet
      cases hSet
  | fire =>
      refine
        ⟨hStuck.waiting, hStuck.cleared, hStuck.stopped, ?_⟩
      intro c hMember stmt hStmt
      rcases List.mem_append.mp hMember with hOld | hNew
      · exact hStuck.quiet c hOld stmt hStmt
      · rw [List.mem_singleton.mp hNew] at hStmt
        cases hStmt
        exact .inl rfl
  | tick k => exact hStuck.stepTick hEnabled
  | message msg =>
      exact
        ⟨hStuck.waiting, hStuck.cleared, hStuck.stopped,
          hStuck.quiet⟩

/- It lasts, whatever is to come. -/
theorem of_run
    {t : Process K} {is : List (Action K)}
    (hStuck : Stuck s)
    (hRun : (process trig).Run s is t) : Stuck t := by
  apply hRun.invariant hStuck
  intro s action t hStuck hEnabled hStep
  cases hStep
  exact hStuck.step hEnabled

/- No result is returned, and no goal starts. -/
theorem step_returned
    (trig : Trig K)
    {action : Action K}
    (hStuck : Stuck s)
    (hEnabled : s.Enabled action) :
    (s.step trig action).returned = s.returned ∧
      (s.step trig action).current = s.current := by
  cases action with
  | start =>
      have hWaiting := hStuck.waiting
      have hIdle : s.goal.isIdle = true := hEnabled
      cases hGoal : s.goal with
      | idle =>
          rw [hGoal] at hWaiting
          cases hWaiting
      | _ =>
          rw [hGoal] at hIdle
          cases hIdle
  | goal =>
      have hSet := hEnabled.2 hStuck.waiting
      rw [hStuck.cleared] at hSet
      cases hSet
  | fire => exact ⟨rfl, rfl⟩
  | tick k =>
      rcases Option.isSome_iff_exists.mp hEnabled with
        ⟨stmt, hStmt⟩
      cases hStep : stmt.step trig s.node with
      | error error =>
          simp only [Process.step,
            Process.stepTick_error hStmt hStep, and_self]
      | ok e =>
          simp only [Process.step,
            Process.stepTick_ok hStmt hStep, and_self]
  | message msg => exact ⟨rfl, rfl⟩

end Stuck

------------------------------------------------------------
-- Every Run
------------------------------------------------------------

/-
  A run that wastes no wake-up loses none. And a wasted one
  is lost: the next statement of `execute_callback` then
  clears the event, and it waits for good.
-/
theorem lost_wakeups_are_wasted
    (trig : Trig K) (debugMode : Int) :
    (∀ (is : List (Action K)) (s : Process K),
      ((process trig).restrict fun s a => ¬ Wasted s a).Run
          (Process.init debugMode) is s →
        ¬ LostWakeup s) ∧
      ∀ (s : Process K) (action : Action K),
        Wasted s action →
          ∃ t, (process trig).Run s [action, .goal] t ∧
            LostWakeup t := by
  constructor
  · intro is s hRun
    refine Covered.not_lost ?_
    apply hRun.invariant
    · rintro _ (hClearing | ⟨hWaiting, _⟩)
      · cases hClearing
      · cases hWaiting
    · rintro t action u hCovered ⟨hEnabled, hHeeded⟩ hStep
      cases hStep
      exact hCovered.step hEnabled hHeeded
  · intro s action hWasted
    exact hWasted.lost

/-
  Two timer callbacks find the goal in its turn. The first
  ends it. The second ends the next goal, between its
  `run = True` and its `finish_event.clear()`.
-/
def lostGoal : List (Action ℚ) :=
  confirmedGoal ++
    tickFor 5 13 ++
    tickFor 6 13 ++
    List.replicate 4 (Action.tick 5) ++
    List.replicate 9 Action.goal ++
    Action.start :: List.replicate 10 Action.goal ++
    List.replicate 4 (Action.tick 6) ++
    [Action.goal]

/- No callback is in flight at its end. -/
example :
    ((process (⟨fun _ _ => 0, 1⟩ : Trig ℚ)).exec
      (Process.init 0) lostGoal).any
        (fun s => s.ticks.all (·.stmt.isNone)) = true := by
  decide +kernel

/-
  A wake-up that is lost when nothing is in flight is lost
  for good: whatever messages, timers and callbacks are to
  come, the goal waits, returns nothing, and lets no other
  goal start.
-/
theorem lost_for_good
    {t : Process K} {is : List (Action K)}
    (hLost : LostWakeup s)
    (hEnded : ∀ c ∈ s.ticks, c.stmt = none)
    (hRun : (process trig).Run s is t) :
    LostWakeup t ∧ t.returned = s.returned ∧
      t.current = s.current := by
  have hStuck : Stuck t ∧ t.returned = s.returned ∧
      t.current = s.current := by
    apply hRun.invariant
      (P := fun t => Stuck t ∧ t.returned = s.returned ∧
        t.current = s.current)
    · exact ⟨.of_lost hLost hEnded, rfl, rfl⟩
    · rintro t action u ⟨hStuck, hReturned, hCurrent⟩ hEnabled
        hStep
      cases hStep
      rcases hStuck.step_returned trig hEnabled with
        ⟨hSame, hSameCurrent⟩
      exact
        ⟨hStuck.step hEnabled, hSame.trans hReturned,
          hSameCurrent.trans hCurrent⟩
  exact ⟨hStuck.1.lost, hStuck.2⟩

/- The goal that is lost, and the timer once more. -/
theorem lost_for_good_of_lostGoal :
    ∃ s t : Process ℚ,
      (process ⟨fun _ _ => 0, 1⟩).Run (Process.init 0)
          lostGoal s ∧
        (process ⟨fun _ _ => 0, 1⟩).Run s [.fire] t ∧
          LostWakeup t ∧ t.returned = s.returned ∧
            t.current = s.current := by
  have hSome :
      ((process (⟨fun _ _ => 0, 1⟩ : Trig ℚ)).exec
        (Process.init 0) lostGoal).any
        (fun s =>
          decide
            (s.goal.isWaiting = true ∧
              s.node.finishEvent = false ∧
                s.node.run = false ∧
                  (∀ c ∈ s.ticks, ¬ c.Signals) ∧
                    ∀ c ∈ s.ticks, c.stmt.isNone = true)) =
        true := by
    decide +kernel
  rcases Machine.exists_run_of_exec hSome with
    ⟨s, hRun, hTest⟩
  rcases of_decide_eq_true hTest with
    ⟨hWaiting, hCleared, hStopped, hSilent, hEnded⟩
  have hFire :
      (process (⟨fun _ _ => 0, 1⟩ : Trig ℚ)).Run s [.fire]
        (s.step ⟨fun _ _ => 0, 1⟩ .fire) :=
    .single trivial rfl
  exact
    ⟨s, _, hRun, hFire,
      lost_for_good
        ⟨hWaiting, hCleared, hStopped, hSilent⟩
        (fun c hMember =>
          Option.isNone_iff_eq_none.mp (hEnded c hMember))
        hFire⟩

/- A goal that turns to its target and is told so. -/
theorem no_wakeup_lost_by_turn :
    ∃ s : Process ℚ,
      ((process ⟨fun _ _ => 0, 1⟩).restrict
          fun s a => ¬ Wasted s a).Run
        (Process.init 0)
        (confirmedGoal ++ tickFor 5 17 ++
          List.replicate 9 Action.goal)
        s ∧
          s.returned = 1 ∧
            ¬ LostWakeup s := by
  have hSome :
      (((process (⟨fun _ _ => 0, 1⟩ : Trig ℚ)).restrict
          fun s a => ¬ Wasted s a).exec
        (Process.init 0)
        (confirmedGoal ++ tickFor 5 17 ++
          List.replicate 9 Action.goal)).any
        (fun s => decide (s.returned = 1)) = true := by
    decide +kernel
  rcases Machine.exists_run_of_exec hSome with
    ⟨s, hRun, hTest⟩
  exact
    ⟨s, hRun, of_decide_eq_true hTest,
      (lost_wakeups_are_wasted _ 0).1 _ s hRun⟩

/- A wake-up can be lost. -/
theorem loses_wakeup :
    ¬ ∀ (is : List (Action ℚ)) (s : Process ℚ),
      (process ⟨fun _ _ => 0, 1⟩).Run (Process.init 0) is s →
        ¬ LostWakeup s := by
  intro hClaim
  have hSome :
      ((process (⟨fun _ _ => 0, 1⟩ : Trig ℚ)).exec
        (Process.init 0) lostGoal).any
        (fun s =>
          decide
            (s.goal.isWaiting = true ∧
              s.node.finishEvent = false ∧
                s.node.run = false ∧
                  ∀ c ∈ s.ticks, ¬ c.Signals)) = true := by
    decide +kernel
  rcases Machine.exists_run_of_exec hSome with
    ⟨s, hRun, hTest⟩
  rcases of_decide_eq_true hTest with
    ⟨hWaiting, hCleared, hStopped, hSilent⟩
  exact
    hClaim _ s hRun ⟨hWaiting, hCleared, hStopped, hSilent⟩

end Approach

end Manipulator
