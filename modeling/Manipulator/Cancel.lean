import Manipulator.Approach.Server
import Manipulator.Conveyor
import Manipulator.Reach

/-
  What an accepted cancel request does.

  All three action servers accept every cancel request, and
  none of them looks at it again: a goal that ends has
  succeeded, whether or not its cancel was accepted.

  Main declarations:
    * `Approach.Obeyed`, `Move.Obeyed`, `Conveyor.Obeyed`
    * `Approach.Uncancelled`, `Move.Uncancelled`,
      `Conveyor.Uncancelled`
    * `cancel_never_obeyed`
-/

------------------------------------------------------------
-- The Approach Server
------------------------------------------------------------

namespace Manipulator

namespace Approach

section Obeyed

variable {K : Type}

/-
  After its cancel was accepted nothing is published until
  the goal returns, and it ends as canceled.
-/
structure Obeyed
    (goal : Nat) (h : List (Event K)) : Prop where
  silent :
    History.Each
      (fun event earlier =>
        ∀ t, event = .ticked t →
          .cancelAccepted goal ∈ earlier →
            (∀ handle result,
              .returned goal handle result ∉ earlier) →
              t.result.published = none) h
  canceled :
    ∃ handle result, .returned goal handle result ∈ h ∧
      handle.ended = some .canceled

/- Every goal that has returned has succeeded. -/
def Uncancelled (h : List (Event K)) : Prop :=
  ∀ goal handle result, .returned goal handle result ∈ h →
    handle.ended = some .succeeded

theorem Uncancelled.not_obeyed
    {h : List (Event K)}
    (hEnded : Uncancelled h)
    (goal : Nat) : ¬ Obeyed goal h := by
  intro hObeyed
  rcases hObeyed.canceled with
    ⟨handle, result, hMember, hCanceled⟩
  rw [hEnded goal handle result hMember] at hCanceled
  cases hCanceled

/- An event that is not the return of a goal. -/
theorem Uncancelled.cons
    {h : List (Event K)} {event : Event K}
    (hEnded : Uncancelled h)
    (hEvent :
      ∀ goal handle result,
        event = .returned goal handle result →
          handle.ended = some .succeeded) :
    Uncancelled (event :: h) := by
  intro goal handle result hMember
  rcases List.mem_cons.mp hMember with hHere | hMember
  · exact hEvent goal handle result hHere.symm
  · exact hEnded goal handle result hMember

end Obeyed

section Run

variable {K : Type} [Field K] [LinearOrder K]

theorem uncancelled_of_run
    {trig : Trig K} {debugMode : Int}
    {is : List (Input K)} {s : Server K}
    (hRun : (machine trig).Run (Server.init debugMode) is s) :
    Uncancelled s.history := by
  apply hRun.invariant (P := fun s => Uncancelled s.history)
  · intro goal handle result hMember
    cases hMember
  · intro t i u hEnded _ hStep
    change step trig t i = .ok u at hStep
    cases i with
    | goal =>
        cases hStep
        apply hEnded.cons
        intro _ _ _ hEvent
        cases hEvent
    | boundingBox msg =>
        cases hStep
        apply hEnded.cons
        intro _ _ _ hEvent
        cases hEvent
    | timer =>
        rcases bind_eq_ok.mp hStep with ⟨r, _, hStep⟩
        cases hStep
        apply hEnded.cons
        intro _ _ _ hEvent
        cases hEvent
    | cancel goal =>
        cases hStep
        apply hEnded.cons
        intro _ _ _ hEvent
        cases hEvent
    | finish goal =>
        simp only [step] at hStep
        split at hStep
        · cases hStep
          exact hEnded
        · rcases bind_eq_ok.mp hStep with ⟨result, _, hStep⟩
          cases hStep
          apply hEnded.cons
          intro _ _ _ hEvent
          cases hEvent
          rfl

end Run

end Approach

------------------------------------------------------------
-- The Move Server
------------------------------------------------------------

namespace Move

/-
  After its cancel was accepted the goal publishes nothing,
  and it ends as canceled.
-/
structure Obeyed (goal : Nat) (h : List Event) : Prop where
  silent :
    History.Each
      (fun event earlier =>
        ∀ pose, event = .published goal pose →
          .cancelAccepted goal ∉ earlier) h
  canceled :
    ∃ handle, .ended goal handle ∈ h ∧
      handle.ended = some .canceled

/- Every goal that has ended has succeeded. -/
def Uncancelled (h : List Event) : Prop :=
  ∀ goal handle, .ended goal handle ∈ h →
    handle.ended = some .succeeded

theorem Uncancelled.not_obeyed
    {h : List Event}
    (hEnded : Uncancelled h)
    (goal : Nat) : ¬ Obeyed goal h := by
  intro hObeyed
  rcases hObeyed.canceled with ⟨handle, hMember, hCanceled⟩
  rw [hEnded goal handle hMember] at hCanceled
  cases hCanceled

theorem Uncancelled.cons
    {h : List Event} {event : Event}
    (hEnded : Uncancelled h)
    (hEvent :
      ∀ goal handle, event = .ended goal handle →
        handle.ended = some .succeeded) :
    Uncancelled (event :: h) := by
  intro goal handle hMember
  rcases List.mem_cons.mp hMember with hHere | hMember
  · exact hEvent goal handle hHere.symm
  · exact hEnded goal handle hMember

/- The action of a thread. -/
theorem Uncancelled.execute
    {s : Server}
    (hEnded : Uncancelled s.history)
    (goal : Nat) (t : Thread) (now : ℝ) :
    Uncancelled (s.execute goal t now).history := by
  unfold Server.execute
  cases t.stage with
  | accepted => exact hEnded
  | moving startTime =>
      have hPublished :
          Uncancelled
            (s.publish goal
              (message t.goal
                (progress t.goal (now - startTime)))).history := by
        apply hEnded.cons
        intro _ _ hEvent
        cases hEvent
      simp only [Server.pass]
      split
      · exact hPublished
      · exact hPublished
  | leaving =>
      apply hEnded.cons
      intro _ _ hEvent
      cases hEvent
      rfl
  | done => exact hEnded

theorem uncancelled_of_run
    {is : List Input} {s : Server}
    (hRun : machine.Run .init is s) :
    Uncancelled s.history := by
  apply hRun.invariant (P := fun s => Uncancelled s.history)
  · intro goal handle hMember
    cases hMember
  · intro u i v hEnded _ hStep
    change step u i = .ok v at hStep
    cases i with
    | goal data =>
        cases hStep
        exact hEnded
    | cancel goal =>
        simp only [step] at hStep
        split at hStep
        · cases hStep
          apply hEnded.cons
          intro _ _ hEvent
          cases hEvent
        · cases hStep
          exact hEnded
    | run goal now =>
        simp only [step] at hStep
        split at hStep
        · cases hStep
          exact hEnded.execute goal _ now
        · cases hStep
          exact hEnded

end Move

------------------------------------------------------------
-- The Conveyor Server
------------------------------------------------------------

namespace Conveyor

section Obeyed

variable {K : Type} [Field K]

/-
  After its cancel was accepted the goal only stops the belt,
  and it ends as canceled.
-/
structure Obeyed
    (goal : Nat) (h : List (Event K)) : Prop where
  stopping :
    History.Each
      (fun event earlier =>
        ∀ rpm, event = .published goal rpm →
          .cancelAccepted goal ∈ earlier → rpm = 0) h
  canceled :
    ∃ handle, .ended goal handle ∈ h ∧
      handle.ended = some .canceled

/- Every goal that has ended has succeeded. -/
def Uncancelled {K : Type} (h : List (Event K)) : Prop :=
  ∀ goal handle, .ended goal handle ∈ h →
    handle.ended = some .succeeded

theorem Uncancelled.not_obeyed
    {h : List (Event K)}
    (hEnded : Uncancelled h)
    (goal : Nat) : ¬ Obeyed goal h := by
  intro hObeyed
  rcases hObeyed.canceled with ⟨handle, hMember, hCanceled⟩
  rw [hEnded goal handle hMember] at hCanceled
  cases hCanceled

theorem Uncancelled.cons
    {K : Type} {h : List (Event K)} {event : Event K}
    (hEnded : Uncancelled h)
    (hEvent :
      ∀ goal handle, event = .ended goal handle →
        handle.ended = some .succeeded) :
    Uncancelled (event :: h) := by
  intro goal handle hMember
  rcases List.mem_cons.mp hMember with hHere | hMember
  · exact hEvent goal handle hHere.symm
  · exact hEnded goal handle hMember

end Obeyed

section Run

variable {K : Type} [Field K] [LinearOrder K]

/- The action of a thread. -/
theorem Uncancelled.execute
    {b : Belt K}
    (hEnded : Uncancelled b.history)
    (goal : Nat) (t : Thread) :
    Uncancelled (b.execute goal t).history := by
  unfold Belt.execute
  cases t.stage with
  | accepted =>
      apply hEnded.cons
      intro _ _ hEvent
      cases hEvent
  | waiting =>
      simp only
      split
      · exact hEnded
      · exact hEnded
  | leaving =>
      apply hEnded.cons
      intro _ _ hEvent
      cases hEvent
  | stopped =>
      apply hEnded.cons
      intro _ _ hEvent
      cases hEvent
      rfl
  | done => exact hEnded

theorem uncancelled_of_run
    [FloorSemiring K]
    {sensorData : Option K}
    {is : List (Input K)} {b : Belt K}
    (hRun : machine.Run (Belt.init sensorData) is b) :
    Uncancelled b.history := by
  apply hRun.invariant (P := fun b => Uncancelled b.history)
  · intro goal handle hMember
    cases hMember
  · intro u i v hEnded _ hStep
    change step u i = .ok v at hStep
    cases i with
    | goal =>
        cases hStep
        exact hEnded
    | sensor reading =>
        cases hStep
        exact hEnded
    | cancel goal =>
        simp only [step] at hStep
        split at hStep
        · cases hStep
          apply hEnded.cons
          intro _ _ hEvent
          cases hEvent
        · cases hStep
          exact hEnded
    | run goal =>
        simp only [step] at hStep
        split at hStep
        · cases hStep
          exact hEnded.execute goal _
        · cases hStep
          exact hEnded
    | deliver =>
        simp only [step] at hStep
        split at hStep
        · cases hStep
          exact hEnded
        · rcases bind_eq_ok.mp hStep with ⟨gateway, _, hStep⟩
          cases hStep
          exact hEnded
    | lose position =>
        cases hStep
        exact hEnded
    | angleData angles =>
        rcases bind_eq_ok.mp hStep with ⟨gateway, _, hStep⟩
        cases hStep
        exact hEnded

end Run

end Conveyor

------------------------------------------------------------
-- Every Run
------------------------------------------------------------

/-
  In every run of each server, no goal whose cancel was
  accepted obeys it: it succeeds, if it ends at all.
-/
theorem cancel_never_obeyed
    {K : Type} [Field K] [LinearOrder K] [FloorSemiring K]
    {trig : Approach.Trig K} {debugMode : Int}
    {is : List (Approach.Input K)} {a : Approach.Server K}
    {js : List Move.Input} {m : Move.Server}
    {sensorData : Option K}
    {ks : List (Conveyor.Input K)} {b : Conveyor.Belt K}
    (hApproach :
      (Approach.machine trig).Run
        (Approach.Server.init debugMode) is a)
    (hMove : Move.machine.Run .init js m)
    (hConveyor :
      Conveyor.machine.Run (Conveyor.Belt.init sensorData)
        ks b) :
    (∀ goal, .cancelAccepted goal ∈ a.history →
        ¬ Approach.Obeyed goal a.history ∧
          Approach.Uncancelled a.history) ∧
      (∀ goal, .cancelAccepted goal ∈ m.history →
        ¬ Move.Obeyed goal m.history ∧
          Move.Uncancelled m.history) ∧
      (∀ goal, .cancelAccepted goal ∈ b.history →
        ¬ Conveyor.Obeyed goal b.history ∧
          Conveyor.Uncancelled b.history) := by
  have hA := Approach.uncancelled_of_run hApproach
  have hM := Move.uncancelled_of_run hMove
  have hB := Conveyor.uncancelled_of_run hConveyor
  refine ⟨?_, ?_, ?_⟩
  · intro goal _
    exact ⟨hA.not_obeyed goal, hA⟩
  · intro goal _
    exact ⟨hM.not_obeyed goal, hM⟩
  · intro goal _
    exact ⟨hB.not_obeyed goal, hB⟩

/- A move goal that goes on after its cancel was accepted. -/
theorem Move.run_cancelled :
    machine.Run .init
      [.goal outward, .run 0 0, .cancel 0, .run 0 10, .run 0 10]
      ⟨[⟨outward, .done, ⟨true, some .succeeded⟩⟩],
        [.ended 0 ⟨true, some .succeeded⟩,
          .published 0 (message outward (.nonzero 1)),
          .cancelAccepted 0]⟩ := by
  have hPass :
      Server.pass 0 ⟨outward, .moving 0, ⟨true, none⟩⟩ 0 10
          ⟨[⟨outward, .moving 0, ⟨true, none⟩⟩],
            [.cancelAccepted 0]⟩ =
        ⟨[⟨outward, .leaving, ⟨true, none⟩⟩],
          [.published 0 (message outward (.nonzero 1)),
            .cancelAccepted 0]⟩ := by
    simp [Server.pass, progress_outward, Double.GeOne,
      Server.publish, Server.setThread]
  have hStart :
      machine.Run .init [.goal outward, .run 0 0]
        ⟨[⟨outward, .moving 0, .new⟩], []⟩ :=
    .snoc (.single trivial rfl) ⟨_, rfl, by simp⟩ rfl
  have hCancelled :
      machine.Run .init [.goal outward, .run 0 0, .cancel 0]
        ⟨[⟨outward, .moving 0, ⟨true, none⟩⟩],
          [.cancelAccepted 0]⟩ :=
    .snoc hStart ⟨_, rfl, rfl⟩ rfl
  have hMoved :
      machine.Run .init
        [.goal outward, .run 0 0, .cancel 0, .run 0 10]
        ⟨[⟨outward, .leaving, ⟨true, none⟩⟩],
          [.published 0 (message outward (.nonzero 1)),
            .cancelAccepted 0]⟩ :=
    .snoc hCancelled ⟨_, rfl, by simp⟩
      (congrArg Except.ok hPass)
  exact .snoc hMoved ⟨_, rfl, by simp⟩ rfl

/-
  The move server moves on after it has accepted a cancel,
  and reports success.
-/
theorem cancelled_move_succeeds :
    ¬ ∀ (is : List Move.Input) (m : Move.Server) (goal : Nat)
        (handle : GoalHandle),
      Move.machine.Run .init is m →
        .cancelAccepted goal ∈ m.history →
          .ended goal handle ∈ m.history →
            Move.Obeyed goal m.history := by
  intro hClaim
  have hObeyed :=
    hClaim _ _ 0 ⟨true, some .succeeded⟩ Move.run_cancelled
      (by simp) (by simp)
  have hPublished := hObeyed.silent.2.1 _ rfl
  exact hPublished (by simp)

/- One cancelled goal for each server. -/
theorem cancel_never_obeyed_once :
    ∃ (a : Approach.Server ℚ) (m : Move.Server)
        (b : Conveyor.Belt ℚ),
      ¬ Approach.Obeyed 0 a.history ∧
        ¬ Move.Obeyed 0 m.history ∧
        ¬ Conveyor.Obeyed 0 b.history := by
  have hApproach :
      (Approach.machine (⟨fun _ _ => 0, 0⟩ : Approach.Trig ℚ)).Run
        (Approach.Server.init 0) [.goal, .cancel 0]
        ((Approach.Server.init 0).goal.cancel 0) :=
    .snoc (.single trivial rfl) (by decide) rfl
  have hConveyor :
      Conveyor.machine.Run
        (Conveyor.Belt.init (none : Option ℚ))
        [.goal, .cancel 0]
        ⟨none, [⟨.accepted, ⟨true, none⟩⟩], [], .init,
          [.cancelAccepted 0]⟩ :=
    .snoc (.single trivial rfl) (by decide) rfl
  have hAll :=
    cancel_never_obeyed hApproach Move.run_cancelled hConveyor
  refine ⟨_, _, _, (hAll.1 0 ?_).1, (hAll.2.1 0 ?_).1,
    (hAll.2.2 0 ?_).1⟩
  · exact List.mem_cons_self
  · simp
  · exact List.mem_cons_self

end Manipulator
