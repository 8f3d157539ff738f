import Manipulator.Approach.Ahead
import Manipulator.Approach.Interleaving

/-
  What is left of a goal after its result.

  A goal is over for its client when `execute_callback` has
  returned. The timer callbacks that are in flight then are
  not: they go on, publish, and write to the attributes that
  the next goal is judged by. They have no after-effect when
  the result was returned and the next goal was started
  between callbacks, up to those that have not tested `run`
  yet and those that can do nothing more of the kind.

  Main declarations:
    * `AfterEffect`
    * `Apart`, `Over`, `Over.step`
    * `no_after_effect_of_apart`
-/

------------------------------------------------------------
-- After-Effects
------------------------------------------------------------

namespace Manipulator

namespace Approach

variable {K : Type} [Field K] [LinearOrder K]

/-
  A timer callback that is older than a result publishes, or
  changes what a later goal is judged by.
-/
def AfterEffect
    (trig : Trig K) (s : Process K) : Action K → Prop
| .tick k =>
    ∃ c ∈ s.ticks[k]?,
      ∃ stmt ∈ c.stmt,
        ∃ e ∈ (stmt.step trig s.node).toOption,
          (c.born < s.returned ∧ e.published.isSome = true) ∨
            (c.born < s.current ∧ e.node.flags ≠ s.node.flags)
| _ => False

instance decidableAfterEffect
    (trig : Trig K) (s : Process K) :
    (action : Action K) → Decidable (AfterEffect trig s action)
| .start => .isFalse id
| .goal => .isFalse id
| .fire => .isFalse id
| .tick k =>
    inferInstanceAs (Decidable (∃ c ∈ s.ticks[k]?, _))
| .message _ => .isFalse id

------------------------------------------------------------
-- Goals Between Callbacks
------------------------------------------------------------

/- The callback has not tested `run`, or cannot publish. -/
def Callback.Silent (c : Callback K) : Prop :=
  ∀ stmt ∈ c.stmt, stmt.isChecking = true ∨ stmt.silent = true

/- The callback has not tested `run`, or is quiet. -/
def Callback.Quiet (c : Callback K) : Prop :=
  ∀ stmt ∈ c.stmt, stmt.isChecking = true ∨ stmt.quiet = true

instance (c : Callback K) : Decidable c.Silent := by
  unfold Callback.Silent
  infer_instance

instance (c : Callback K) : Decidable c.Quiet := by
  unfold Callback.Quiet
  infer_instance

/-
  The condition on the steps:
    * a result is returned when no callback in flight that
      has tested `run` can still publish;
    * a goal starts when no callback that is older than a
      result and has tested `run` can still change a flag;
    * a callback that is older than a result finds `run`
      false when it tests it.
-/
def Apart (s : Process K) : Action K → Prop
| .start => ∀ c ∈ s.ticks, c.born < s.returned → c.Quiet
| .goal =>
    s.goal.isReturning = true → ∀ c ∈ s.ticks, c.Silent
| .tick k =>
    ∀ c ∈ s.ticks[k]?, c.born < s.returned →
      (∃ stmt ∈ c.stmt, stmt.isChecking = true) →
        s.node.run = false
| _ => True

instance decidableApart
    (s : Process K) :
    (action : Action K) → Decidable (Apart s action)
| .start =>
    inferInstanceAs (Decidable (∀ c ∈ s.ticks, _))
| .goal => inferInstanceAs (Decidable (_ → _))
| .fire => .isTrue trivial
| .tick k =>
    inferInstanceAs (Decidable (∀ c ∈ s.ticks[k]?, _))
| .message _ => .isTrue trivial

/-
  The invariant: what is older than a result is silent, and
  what is older than a result before the latest goal is
  quiet.
-/
structure Over (s : Process K) : Prop where
  later : s.current ≤ s.returned
  silent : ∀ c ∈ s.ticks, c.born < s.returned → c.Silent
  quiet : ∀ c ∈ s.ticks, c.born < s.current → c.Quiet

omit [LinearOrder K] in
theorem Over.init (debugMode : Int) :
    Over (Process.init (K := K) debugMode) := by
  refine ⟨le_refl _, ?_, ?_⟩
  · intro c hMember
    cases hMember
  · intro c hMember
    cases hMember

section Statement

variable {trig : Trig K} {s : Process K} {k : Nat}
variable {c : Callback K} {stmt : TickAt K} {e : Effect K}

/- A statement of a callback that is older than a result. -/
theorem Over.step_silent
    (hOver : Over s)
    (hApart : Apart s (.tick k))
    (hCallback : s.ticks[k]? = some c)
    (hStmt : c.stmt = some stmt)
    (hOld : c.born < s.returned)
    (hStep : stmt.step trig s.node = .ok e) :
    e.published = none ∧
      ∀ next ∈ e.next, next.silent = true := by
  have hMember := List.mem_of_getElem? hCallback
  rcases hOver.silent c hMember hOld stmt hStmt with
    hChecking | hSilent
  · have hRun :=
      hApart c hCallback hOld ⟨stmt, hStmt, hChecking⟩
    rw [TickAt.step_of_checking hChecking hRun hStep]
    refine ⟨rfl, ?_⟩
    intro next hNext
    cases hNext
  · exact TickAt.step_of_silent hSilent hStep

/- One that is older than a result before the latest goal. -/
theorem Over.step_quiet
    (hOver : Over s)
    (hApart : Apart s (.tick k))
    (hCallback : s.ticks[k]? = some c)
    (hStmt : c.stmt = some stmt)
    (hOld : c.born < s.current)
    (hStep : stmt.step trig s.node = .ok e) :
    e = .stop s.node := by
  have hMember := List.mem_of_getElem? hCallback
  rcases hOver.quiet c hMember hOld stmt hStmt with
    hChecking | hQuiet
  · have hRun :=
      hApart c hCallback (hOld.trans_le hOver.later)
        ⟨stmt, hStmt, hChecking⟩
    exact TickAt.step_of_checking hChecking hRun hStep
  · exact TickAt.step_of_quiet hQuiet hStep

end Statement

------------------------------------------------------------
-- Steps
------------------------------------------------------------

variable {trig : Trig K} {s : Process K}

theorem Over.no_after_effect
    {action : Action K}
    (hOver : Over s)
    (hApart : Apart s action) :
    ¬ AfterEffect trig s action := by
  cases action with
  | tick k =>
      rintro ⟨c, hCallback, stmt, hStmt, e, hEffect, hAct⟩
      have hStep : stmt.step trig s.node = .ok e := by
        cases hResult : stmt.step trig s.node with
        | error error =>
            rw [hResult] at hEffect
            cases hEffect
        | ok e' =>
            rw [hResult] at hEffect
            cases hEffect
            rfl
      rcases hAct with ⟨hOld, hPublished⟩ | ⟨hOld, hFlags⟩
      · have hNone :=
          hOver.step_silent hApart hCallback hStmt hOld hStep
        rw [hNone.1] at hPublished
        cases hPublished
      · apply hFlags
        rw [hOver.step_quiet hApart hCallback hStmt hOld hStep]
        rfl
  | start => exact id
  | goal => exact id
  | fire => exact id
  | message msg => exact id

omit [LinearOrder K] in
theorem Over.stepGoal
    (hOver : Over s)
    (hApart : Apart s .goal) : Over s.stepGoal := by
  unfold Process.stepGoal
  cases hStep : s.goal.step s.node with
  | error error => exact ⟨hOver.later, hOver.silent, hOver.quiet⟩
  | ok r =>
      by_cases hReturns : s.goal.isReturning = true
      · simp only [hReturns, if_true]
        refine
          ⟨hOver.later.trans (Nat.le_succ _), ?_, hOver.quiet⟩
        intro c hMember _
        exact hApart hReturns c hMember
      · rw [Bool.not_eq_true] at hReturns
        simp only [hReturns]
        exact ⟨hOver.later, hOver.silent, hOver.quiet⟩

omit [Field K] [LinearOrder K] in
/- A callback that started after every result is not old. -/
theorem Over.fire
    (hOver : Over s) : Over s.fire := by
  refine ⟨hOver.later, ?_, ?_⟩
  · intro c hMember hOld
    rcases List.mem_append.mp hMember with hBefore | hNew
    · exact hOver.silent c hBefore hOld
    · rw [List.mem_singleton.mp hNew] at hOld
      exact absurd hOld (lt_irrefl _)
  · intro c hMember hOld
    rcases List.mem_append.mp hMember with hBefore | hNew
    · exact hOver.quiet c hBefore hOld
    · rw [List.mem_singleton.mp hNew] at hOld
      exact absurd hOld hOver.later.not_gt

omit [Field K] [LinearOrder K] in
/- A callback goes on, by what its age allows. -/
theorem Over.resume
    {k : Nat} {c : Callback K} {next : Option (TickAt K)}
    (hOver : Over s)
    (node : Node K)
    (hBefore : ∀ c', c' ∈ s.ticks ↔
      c' = c ∨ c' ∈ s.ticks.eraseIdx k)
    (hAfter : ∀ c', c' ∈ s.resume k next ↔
      c' = { c with stmt := next } ∨
        c' ∈ s.ticks.eraseIdx k)
    (hSilent :
      c.born < s.returned → ∀ stmt ∈ next, stmt.silent = true)
    (hEnd : c.born < s.current → next = none) :
    Over { s with node := node, ticks := s.resume k next } := by
  refine ⟨hOver.later, ?_, ?_⟩
  · intro c' hMember hOld
    rcases (hAfter c').mp hMember with rfl | hOther
    · exact fun stmt hNext => .inr (hSilent hOld stmt hNext)
    · exact
        hOver.silent c' ((hBefore c').mpr (.inr hOther)) hOld
  · intro c' hMember hOld
    rcases (hAfter c').mp hMember with rfl | hOther
    · rw [Callback.Quiet, hEnd hOld]
      intro stmt hNext
      cases hNext
    · exact
        hOver.quiet c' ((hBefore c').mpr (.inr hOther)) hOld

theorem Over.stepTick
    {k : Nat}
    (hOver : Over s)
    (hEnabled : s.Enabled (.tick k))
    (hApart : Apart s (.tick k)) :
    Over (s.stepTick trig k) := by
  rcases Option.isSome_iff_exists.mp hEnabled with
    ⟨stmt, hStmt⟩
  rcases Process.callback_of_stmt? hStmt with
    ⟨c, hCallback, hNext, hBefore, hAfter⟩
  cases hStep : stmt.step trig s.node with
  | error error =>
      rw [Process.stepTick_error hStmt hStep]
      apply hOver.resume s.node hBefore (hAfter none)
      · intro _ stmt' hNone
        cases hNone
      · exact fun _ => rfl
  | ok e =>
      rw [Process.stepTick_ok hStmt hStep]
      apply hOver.resume e.node hBefore (hAfter e.next)
      · intro hOld
        exact
          (hOver.step_silent hApart hCallback hNext hOld
            hStep).2
      · intro hOld
        rw [hOver.step_quiet hApart hCallback hNext hOld hStep]
        rfl

theorem Over.step
    {action : Action K}
    (hOver : Over s)
    (hEnabled : s.Enabled action)
    (hApart : Apart s action) :
    Over (s.step trig action) := by
  cases action with
  | start => exact ⟨le_refl _, hOver.silent, hApart⟩
  | goal => exact hOver.stepGoal hApart
  | fire => exact hOver.fire
  | tick k => exact hOver.stepTick hEnabled hApart
  | message msg => exact ⟨hOver.later, hOver.silent, hOver.quiet⟩

------------------------------------------------------------
-- Every Run
------------------------------------------------------------

/-
  No step of a run is an after-effect, when goals end and
  start between callbacks.
-/
theorem no_after_effect_of_apart
    {debugMode : Int}
    {is : List (Action K)} {action : Action K}
    (hRun :
      ((process trig).restrict Apart).Run
        (Process.init debugMode) is s)
    (hEnabled :
      ((process trig).restrict Apart).Enabled s action) :
    ¬ AfterEffect trig s action := by
  have hOver : Over s := by
    apply hRun.invariant (Over.init debugMode)
    rintro t action u hOver ⟨hEnabled, hApart⟩ hStep
    cases hStep
    exact hOver.step hEnabled hApart
  exact hOver.no_after_effect hEnabled.2

/-
  The callback that turns to the target comes to its end, and
  another one starts, before the goal returns.
-/
theorem no_after_effect_of_ended :
    ∃ s : Process ℚ,
      ((process ⟨fun _ _ => 0, 1⟩).restrict Apart).Run
          (Process.init 0)
          (confirmedGoal ++ tickFor 5 17 ++
            Action.fire :: List.replicate 9 Action.goal)
          s ∧
        s.returned = 1 ∧
          ¬ AfterEffect ⟨fun _ _ => 0, 1⟩ s (.tick 6) := by
  have hSome :
      (((process (⟨fun _ _ => 0, 1⟩ : Trig ℚ)).restrict
          Apart).exec
        (Process.init 0)
        (confirmedGoal ++ tickFor 5 17 ++
          Action.fire :: List.replicate 9 Action.goal)).any
        (fun s =>
          decide
            (s.returned = 1 ∧
              ((process (⟨fun _ _ => 0, 1⟩ : Trig ℚ)).restrict
                Apart).Enabled s (.tick 6))) = true := by
    decide +kernel
  rcases Machine.exists_run_of_exec hSome with
    ⟨s, hRun, hTest⟩
  rcases of_decide_eq_true hTest with ⟨hReturned, hEnabled⟩
  exact
    ⟨s, hRun, hReturned, no_after_effect_of_apart hRun hEnabled⟩

/-
  The callback that turns to the target sets the event before
  it publishes: its pose follows the result.
-/
theorem publishes_after_result :
    ¬ ∀ (is : List (Action ℚ)) (s : Process ℚ)
        (action : Action ℚ),
      (process ⟨fun _ _ => 0, 1⟩).Run (Process.init 0) is s →
        (process ⟨fun _ _ => 0, 1⟩).Enabled s action →
          ¬ AfterEffect ⟨fun _ _ => 0, 1⟩ s action := by
  intro hClaim
  have hSome :
      ((process (⟨fun _ _ => 0, 1⟩ : Trig ℚ)).exec
        (Process.init 0)
        (confirmedGoal ++ tickFor 5 15 ++
          List.replicate 9 Action.goal)).any
        (fun s =>
          decide
            ((process (⟨fun _ _ => 0, 1⟩ : Trig ℚ)).Enabled s
                (.tick 5) ∧
              AfterEffect ⟨fun _ _ => 0, 1⟩ s (.tick 5))) =
        true := by
    decide +kernel
  rcases Machine.exists_run_of_exec hSome with
    ⟨s, hRun, hTest⟩
  rcases of_decide_eq_true hTest with ⟨hEnabled, hEffect⟩
  exact hClaim _ s (.tick 5) hRun hEnabled hEffect

end Approach

end Manipulator
