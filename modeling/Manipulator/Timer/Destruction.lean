import Manipulator.Timer.Accounting

/-
  The destruction of a timer queue.

  The destructor first lets the worker finish and then aborts
  all timers. A worker that had left its last check of the
  queue when the timers were aborted finishes without calling
  their handlers.

  Main declarations:
    * `Left`, `Parked`, `Draining`
    * `all_called_iff`
-/

------------------------------------------------------------
-- Workers That Left
------------------------------------------------------------

namespace Manipulator

namespace TimerQueue

variable {H : Type}

/- The worker does not check the queue before `m_finish`. -/
def Left : Worker H → Prop
| .testing => True
| .finished => True
| _ => False

theorem item?_of_left
    {w : Worker H}
    (hLeft : Left w) : w.item? = none := by
  cases w with
  | calling item => cases hLeft
  | _ => rfl

/- After `abortAll` of the destructor. -/
structure Closing (s : State H) : Prop where
  stage : s.stage = .joining ∨ s.stage = .joined
  finish : s.finish = true

theorem Closing.stage_ne
    {s : State H} {stage : Stage}
    (hClosing : Closing s)
    (hOther : stage = .alive ∨ stage = .cancelling) :
    s.stage ≠ stage := by
  rintro rfl
  rcases hClosing.stage with hStage | hStage
  · rw [hStage] at hOther; simp at hOther
  · rw [hStage] at hOther; simp at hOther

/- What happens once the timers are aborted. -/
inductive Closes (s t : State H) : Prop where
-- a caller or the clock
| beside
    (hWorker : t.worker = s.worker)
    (hItems : t.items = s.items)
| leaves
    (hBefore : s.worker = .testing)
    (hWorker : t.worker = .finished)
    (hItems : t.items = s.items)
| works
    (hBefore : ¬ Left s.worker)
    (hWorker : ¬ Left t.worker)
    (hItems : t.items ⊆ s.items)
-- the end of `checkWork`
| rests
    (hBefore : ¬ Left s.worker)
    (hDue : ¬ s.Due)
    (hItems : t.items = s.items)

/- Nobody adds or cancels timers any more. -/
theorem closes_of_step
    {s : State H} {i : Input H}
    (hClosing : Closing s)
    (hEnabled : Enabled s i) :
    Closing (step s i) ∧ Closes s (step s i) := by
  have hNever {stage : Stage}
      (hOther : stage = .alive ∨ stage = .cancelling) :
      s.stage ≠ stage := hClosing.stage_ne hOther
  have hFinish := hClosing.finish
  cases i with
  | clock duration =>
      exact ⟨⟨hClosing.stage, hFinish⟩, .beside rfl rfl⟩
  | add milliseconds handler =>
      exact absurd hEnabled (hNever (.inl rfl))
  | cancel id => exact absurd hEnabled (hNever (.inl rfl))
  | cancelAll => exact absurd hEnabled (hNever (.inl rfl))
  | notify =>
      exact ⟨⟨hClosing.stage, hFinish⟩, .beside rfl rfl⟩
  | finish => exact absurd hEnabled.1 (hNever (.inl rfl))
  | abortAll => exact absurd hEnabled (hNever (.inr rfl))
  | join => exact ⟨⟨.inr rfl, hFinish⟩, .beside rfl rfl⟩
  | test =>
      refine ⟨⟨hClosing.stage, hFinish⟩,
        .leaves hEnabled ?_ rfl⟩
      simp [step, hFinish]
  | calculate picks =>
      refine ⟨⟨hClosing.stage, hFinish⟩, .works ?_ id
        (discard_subset picks s.items)⟩
      rw [hEnabled.1]
      exact id
  | wake =>
      refine ⟨⟨hClosing.stage, hFinish⟩, .works ?_ id
        (List.Subset.refl _)⟩
      rcases hEnabled with ⟨deadline, hWaiting, hReady⟩
      intro hLeft
      cases hWorker : s.worker with
      | waiting deadline => rw [hWorker] at hLeft; exact hLeft
      | _ => rw [hWorker] at hWaiting; cases hWaiting
  | pop i =>
      rcases hEnabled with ⟨hWorker, hDue, item, hItem, hTop⟩
      have hSome : s.items[i]? = some item := hItem
      simp only [step, hSome]
      refine ⟨⟨hClosing.stage, hFinish⟩, .works ?_ id
        List.eraseIdx_subset⟩
      rw [hWorker]
      exact id
  | rest =>
      refine ⟨⟨hClosing.stage, hFinish⟩,
        .rests ?_ hEnabled.2 rfl⟩
      rw [hEnabled.1]
      exact id
  | call =>
      rcases Option.isSome_iff_exists.mp hEnabled with
        ⟨item, hItem⟩
      have hBefore : ¬ Left s.worker := by
        intro hLeft
        rw [item?_of_left hLeft] at hItem
        cases hItem
      simp only [step, hItem, call]
      cases item.handler with
      | none =>
          exact ⟨⟨hClosing.stage, hFinish⟩,
            .works hBefore id (List.Subset.refl _)⟩
      | some handler =>
          exact ⟨⟨hClosing.stage, hFinish⟩,
            .works hBefore id (List.Subset.refl _)⟩

/- A worker that left does not touch the queue again. -/
structure Parked
    (items : List (WorkItem H)) (s : State H) : Prop where
  closing : Closing s
  left : Left s.worker
  items : s.items = items

theorem parked_step
    {items : List (WorkItem H)} {s : State H} {i : Input H}
    (hParked : Parked items s)
    (hEnabled : Enabled s i) : Parked items (step s i) := by
  rcases closes_of_step hParked.closing hEnabled with
    ⟨hClosing, hCloses⟩
  cases hCloses with
  | beside hWorker hItems =>
      exact ⟨hClosing, hWorker ▸ hParked.left,
        hItems.trans hParked.items⟩
  | leaves hBefore hWorker hItems =>
      refine ⟨hClosing, ?_, hItems.trans hParked.items⟩
      rw [hWorker]
      trivial
  | works hBefore hWorker hItems =>
      exact absurd hParked.left hBefore
  | rests hBefore hDue hItems =>
      exact absurd hParked.left hBefore

/- The worker leaves the queue when all items were taken. -/
structure Draining (s : State H) : Prop where
  closing : Closing s
  items : ∀ item ∈ s.items, item.endTime = 0
  left : Left s.worker → s.items = []

/- An item that was aborted is due. -/
theorem due_of_zero
    {s : State H}
    (hItems : ∀ item ∈ s.items, item.endTime = 0)
    (hSome : s.items ≠ []) : s.Due := by
  cases hCase : s.items with
  | nil => exact absurd hCase hSome
  | cons item items =>
      have hTop : (topTime s.items).isSome := by
        rw [topTime, hCase]
        rfl
      rcases Option.isSome_iff_exists.mp hTop with ⟨time, hTime⟩
      refine ⟨time, hTime, ?_⟩
      rcases List.mem_map.mp (List.min?_mem hTime) with
        ⟨other, hOther, rfl⟩
      rw [hItems other hOther]
      exact Nat.zero_le _

theorem draining_step
    {s : State H} {i : Input H}
    (hDraining : Draining s)
    (hEnabled : Enabled s i) : Draining (step s i) := by
  rcases closes_of_step hDraining.closing hEnabled with
    ⟨hClosing, hCloses⟩
  cases hCloses with
  | beside hWorker hItems =>
      refine ⟨hClosing, ?_, ?_⟩
      · rw [hItems]
        exact hDraining.items
      · rw [hItems, hWorker]
        exact hDraining.left
  | leaves hBefore hWorker hItems =>
      refine ⟨hClosing, ?_, fun _ => ?_⟩
      · rw [hItems]
        exact hDraining.items
      · rw [hItems]
        exact hDraining.left (by rw [hBefore]; trivial)
  | works hBefore hWorker hItems =>
      exact ⟨hClosing,
        fun item hMem => hDraining.items item (hItems hMem),
        fun hLeft => absurd hLeft hWorker⟩
  | rests hBefore hDue hItems =>
      refine ⟨hClosing, ?_, fun _ => ?_⟩
      · rw [hItems]
        exact hDraining.items
      · rw [hItems]
        by_contra hSome
        exact hDue (due_of_zero hDraining.items hSome)

------------------------------------------------------------
-- Runs Of The Destructor
------------------------------------------------------------

/- The destructor finishes before it aborts. -/
theorem finish_of_run
    {is : List (Input H)} {s : State H}
    (hRun : (machine H).Run .init is s)
    (hStage : s.stage ≠ .alive) : s.finish = true := by
  refine hRun.invariant
    (P := fun s => s.stage ≠ .alive → s.finish = true)
    (fun hNot => absurd rfl hNot) ?_ hStage
  intro s i t hBefore hEnabled hStep
  cases hStep
  cases i with
  | add milliseconds handler => exact hBefore
  | cancel id =>
      simp only [step, cancel]
      cases moveHandler id s.items with
      | none => exact hBefore
      | some r => exact hBefore
  | finish => exact fun _ => rfl
  | abortAll =>
      intro _
      refine hBefore ?_
      rw [show s.stage = .cancelling from hEnabled]
      intro h
      cases h
  | join =>
      intro _
      refine hBefore ?_
      rw [hEnabled.1]
      intro h
      cases h
  | pop i =>
      simp only [step]
      split
      · exact hBefore
      · exact hBefore
  | call =>
      simp only [step]
      split
      · unfold call
        split
        · exact hBefore
        · exact hBefore
      · exact hBefore
  | _ => exact hBefore

theorem toRun_abortAll
    {s : State H}
    (hHand : s.hand = []) :
    (∀ b, (step s .abortAll).toRun b = 0) ↔
      ∀ b, s.toRun b = 0 := by
  rcases live_abort s.items with ⟨hLive, hCancelled⟩
  have hAfter : (step s .abortAll).hand = [] := hHand
  have hItems :
      (step s .abortAll).items = s.items.map .abort := rfl
  simp only [Bool.forall_bool, State.toRun, hHand, hAfter, hItems,
    hLive, hCancelled, live_nil, cancelled_nil]
  simp only [Bool.false_eq_true, if_false, if_true, add_zero,
    true_and]
  rw [← Multiset.card_eq_zero, ← Multiset.card_eq_zero,
    ← Multiset.card_eq_zero, Multiset.card_add]
  exact Nat.add_eq_zero_iff

/-
  When the worker has finished, every handler was called if
  and only if the timers were aborted while the worker had
  not left its last check, or there was none to be called.
-/
theorem all_called_iff
    {is js : List (Input H)} {s t : State H}
    (hRun : (machine H).Run .init is s)
    (hAbort : Enabled s .abortAll)
    (hRest : (machine H).Run (step s .abortAll) js t)
    (hFinished : t.worker = .finished) :
    (∀ b, t.toRun b = 0) ↔
      (Left s.worker → ∀ b, s.toRun b = 0) := by
  have hStage : s.stage = .cancelling := hAbort
  have hClosing : Closing (step s .abortAll) := by
    have hFinish : s.finish = true := by
      refine finish_of_run hRun ?_
      rw [hStage]
      intro h
      cases h
    exact ⟨.inl rfl, hFinish⟩
  have hHand : t.hand = [] := hand_of_none (by rw [hFinished]; rfl)
  by_cases hLeft : Left s.worker
  · have hParked : Parked (step s .abortAll).items t := by
      refine hRest.invariant ⟨hClosing, hLeft, rfl⟩ ?_
      intro s i t hBefore hEnabled hStep
      cases hStep
      exact parked_step hBefore hEnabled
    have hSame : ∀ b, t.toRun b = (step s .abortAll).toRun b := by
      intro b
      have hAfter : (step s .abortAll).hand = [] :=
        hand_of_none (item?_of_left hLeft)
      rw [State.toRun, State.toRun, hHand, hAfter, hParked.items]
    simp only [hSame, hLeft, forall_true_left]
    exact toRun_abortAll (hand_of_none (item?_of_left hLeft))
  · have hDraining : Draining t := by
      refine hRest.invariant ⟨hClosing, ?_, fun h =>
        absurd h hLeft⟩ ?_
      · intro item hMem
        rcases List.mem_map.mp hMem with ⟨before, hOld, rfl⟩
        have hDated := (punctual_of_run hRun).items before hOld
        unfold WorkItem.abort
        split
        · next hId => rwa [Dated, if_pos hId] at hDated
        · rfl
      · intro s i t hBefore hEnabled hStep
        cases hStep
        exact draining_step hBefore hEnabled
    have hEmpty : t.items = [] :=
      hDraining.left (by rw [hFinished]; trivial)
    simp only [hLeft, false_imp_iff, iff_true]
    intro b
    rw [State.toRun, hHand, hEmpty]
    simp

/-
  A timer of a second is added while the worker runs, and the
  worker finishes before the timers are aborted.
-/
def leaveEarly : List (Input Unit) :=
  [.add 1000 (), .notify, .finish, .test]

def leftEarly : State Unit :=
  ((machine Unit).exec .init leaveEarly).getD .init

def destroyed : State Unit :=
  ((machine Unit).exec (step leftEarly .abortAll)
    [.notify, .join]).getD .init

theorem run_leftEarly :
    (machine Unit).Run .init leaveEarly leftEarly :=
  Machine.run_of_exec rfl

theorem run_destroyed :
    (machine Unit).Run (step leftEarly .abortAll)
      [.notify, .join] destroyed :=
  Machine.run_of_exec rfl

/- The handler of this timer is never called. -/
theorem all_called_iff_of_leaveEarly :
    (∀ b, destroyed.toRun b = 0) ↔
      (Left leftEarly.worker → ∀ b, leftEarly.toRun b = 0) :=
  all_called_iff run_leftEarly rfl run_destroyed rfl

example : destroyed.stage = .joined ∧
    liveHandlers leftEarly.items = [()] ∧
      cancelledHandlers destroyed.items = [()] := by
  decide

end TimerQueue

end Manipulator
