import Manipulator.Timer.Queue
import Mathlib.Algebra.Order.Group.Multiset
import Mathlib.Tactic.Abel

/-
  What the timer queue does with handlers.

  A handler that was added waits in the queue, is in the hand
  of the worker, or was called, and is so exactly once. It is
  called as aborted when its timer was cancelled, and else
  not before the timer is due.

  Main declarations:
    * `live`, `cancelled`, `hand`
    * `Accounted`, `accounted_step`
    * `Punctual`, `punctual_step`
    * `handlers_of_run`
-/

------------------------------------------------------------
-- Handlers
------------------------------------------------------------

namespace Manipulator

namespace TimerQueue

variable {H : Type}

/- The handlers of timers that are not cancelled. -/
def live (items : List (WorkItem H)) : Multiset H :=
  liveHandlers items

def cancelled (items : List (WorkItem H)) : Multiset H :=
  cancelledHandlers items

/- What is in the hand of the worker. -/
def State.hand (s : State H) : List (WorkItem H) :=
  s.worker.item?.toList

theorem hand_of_none
    {s : State H}
    (hWorker : s.worker.item? = none) : s.hand = [] := by
  rw [State.hand, hWorker]
  rfl

theorem hand_of_calling
    {s : State H} {item : WorkItem H}
    (hWorker : s.worker = .calling item) : s.hand = [item] := by
  rw [State.hand, hWorker]
  rfl

def addedHandler : Event H → Option H
| .added handler _ => some handler
| _ => none

def cancelledHandler : Event H → Option H
| .cancelled handler => some handler
| _ => none

/- The handlers that were called with `aborted`. -/
def ranHandler (aborted : Bool) : Event H → Option H
| .ran handler b _ => if b = aborted then some handler else none
| _ => none

def total (f : Event H → Option H) (history : List (Event H)) :
    Multiset H :=
  history.filterMap f

@[simp] theorem total_nil (f : Event H → Option H) :
    total f [] = 0 := rfl

theorem total_cons
    (f : Event H → Option H) (event : Event H)
    (history : List (Event H)) :
    total f (event :: history) =
      ((f event).toList : Multiset H) + total f history := by
  cases hEvent : f event with
  | none => simp [total, hEvent]
  | some handler =>
      simp [total, hEvent, ← Multiset.cons_coe,
        ← Multiset.singleton_add]

theorem total_append
    (f : Event H → Option H)
    (events history : List (Event H)) :
    total f (events ++ history) =
      total f events + total f history := by
  rw [total, List.filterMap_append, ← Multiset.coe_add]
  rfl

------------------------------------------------------------
-- Items
------------------------------------------------------------

@[simp] theorem live_nil : live ([] : List (WorkItem H)) = 0 :=
  rfl

@[simp] theorem cancelled_nil :
    cancelled ([] : List (WorkItem H)) = 0 := rfl

theorem live_cons
    (item : WorkItem H) (items : List (WorkItem H)) :
    live (item :: items) = live [item] + live items := by
  unfold live liveHandlers
  rw [← List.singleton_append, List.filterMap_append,
    ← Multiset.coe_add]

theorem cancelled_cons
    (item : WorkItem H) (items : List (WorkItem H)) :
    cancelled (item :: items) =
      cancelled [item] + cancelled items := by
  unfold cancelled cancelledHandlers
  rw [← List.singleton_append, List.filterMap_append,
    ← Multiset.coe_add]

theorem live_singleton (item : WorkItem H) :
    live [item] =
      if item.id = 0 then 0
      else (item.handler.toList : Multiset H) := by
  unfold live liveHandlers
  split
  · next hId => simp [hId]
  · next hId =>
      cases hHandler : item.handler with
      | none => simp [hId, hHandler]
      | some handler => simp [hId, hHandler]

theorem cancelled_singleton (item : WorkItem H) :
    cancelled [item] =
      if item.id = 0 then (item.handler.toList : Multiset H)
      else 0 := by
  unfold cancelled cancelledHandlers
  split
  · next hId =>
      cases hHandler : item.handler with
      | none => simp [hId, hHandler]
      | some handler => simp [hId, hHandler]
  · next hId => simp [hId]

theorem perm_eraseIdx
    {items : List (WorkItem H)} {i : Nat} {item : WorkItem H}
    (hItem : items[i]? = some item) :
    (item :: items.eraseIdx i).Perm items := by
  rcases List.getElem?_eq_some_iff.mp hItem with ⟨hBound, rfl⟩
  exact List.getElem_cons_eraseIdx_perm hBound

theorem live_perm
    {items items' : List (WorkItem H)}
    (hPerm : items.Perm items') : live items = live items' :=
  Multiset.coe_eq_coe.mpr (hPerm.filterMap _)

theorem cancelled_perm
    {items items' : List (WorkItem H)}
    (hPerm : items.Perm items') :
    cancelled items = cancelled items' :=
  Multiset.coe_eq_coe.mpr (hPerm.filterMap _)

/- An item leaves the queue with its handler. -/
theorem live_eraseIdx
    {items : List (WorkItem H)} {i : Nat} {item : WorkItem H}
    (hItem : items[i]? = some item) :
    live items = live [item] + live (items.eraseIdx i) := by
  rw [← live_perm (perm_eraseIdx hItem), live_cons]

theorem cancelled_eraseIdx
    {items : List (WorkItem H)} {i : Nat} {item : WorkItem H}
    (hItem : items[i]? = some item) :
    cancelled items =
      cancelled [item] + cancelled (items.eraseIdx i) := by
  rw [← cancelled_perm (perm_eraseIdx hItem), cancelled_cons]

/- Nothing is lost with the items that are discarded. -/
theorem live_discard
    {picks : List Nat} {items : List (WorkItem H)}
    (hDiscards : Discards picks items) :
    live (discard picks items) = live items ∧
      cancelled (discard picks items) = cancelled items := by
  induction picks generalizing items with
  | nil => exact ⟨rfl, rfl⟩
  | cons i picks ih =>
      rcases hDiscards with ⟨⟨item, hItem, hTop, hNone⟩, hRest⟩
      rcases ih hRest with ⟨hLive, hCancelled⟩
      have hEmpty : item.handler = none := by simpa using hNone
      refine ⟨?_, ?_⟩
      · rw [discard, hLive, live_eraseIdx hItem]
        simp [live, liveHandlers, hEmpty]
      · rw [discard, hCancelled, cancelled_eraseIdx hItem]
        simp [cancelled, cancelledHandlers, hEmpty]

theorem live_moveHandler
    {id : Nat} {items items' : List (WorkItem H)} {handler : H}
    (hMove : moveHandler id items = some (handler, items')) :
    live items =
        (if id = 0 then 0 else {handler}) + live items' ∧
      cancelled items =
        (if id = 0 then {handler} else 0) + cancelled items' := by
  induction items generalizing items' with
  | nil => cases hMove
  | cons item items ih =>
      rw [live_cons item items, cancelled_cons item items]
      unfold moveHandler at hMove
      split at hMove
      · next hId hHandler =>
          cases hMove
          have hSame : item.id = id := by simpa using hId
          rw [live_cons _ items, cancelled_cons _ items]
          simp only [live_singleton, cancelled_singleton, hSame,
            hHandler]
          by_cases hZero : id = 0
          · simp [hZero]
          · simp [hZero]
      · rcases Option.map_eq_some_iff.mp hMove with
          ⟨r, hRest, hEq⟩
        cases hEq
        rcases ih hRest with ⟨hLive, hCancelled⟩
        rw [hLive, hCancelled, live_cons item r.2,
          cancelled_cons item r.2]
        exact ⟨add_left_comm _ _ _, add_left_comm _ _ _⟩

theorem live_abort (items : List (WorkItem H)) :
    live (items.map WorkItem.abort) = 0 ∧
      cancelled (items.map WorkItem.abort) =
        live items + cancelled items := by
  induction items with
  | nil => exact ⟨rfl, rfl⟩
  | cons item items ih =>
      rw [List.map_cons, live_cons item.abort,
        cancelled_cons item.abort, ih.1, ih.2,
        live_cons item items, cancelled_cons item items]
      simp only [live_singleton, cancelled_singleton]
      by_cases hId : item.id = 0
      · simp only [WorkItem.abort, hId, if_true, zero_add,
          add_zero, true_and]
        exact add_left_comm _ _ _
      · simp only [WorkItem.abort, hId, if_true, if_false,
          zero_add, add_zero, true_and, add_assoc]

------------------------------------------------------------
-- Accounts
------------------------------------------------------------

namespace State

def added (s : State H) : Multiset H :=
  total addedHandler s.history

def cancelledSoFar (s : State H) : Multiset H :=
  total cancelledHandler s.history

def ran (s : State H) (aborted : Bool) : Multiset H :=
  total (ranHandler aborted) s.history

/- The handlers that are still to be called, by the flag. -/
def toRun (s : State H) (aborted : Bool) : Multiset H :=
  if aborted then
    cancelled s.items + cancelled s.hand
  else
    live s.items + live s.hand

end State

/-
  Every handler that was added was called in time, cancelled,
  or is still to be called, and every one that was cancelled
  was called as aborted, or is still to be.
-/
structure Accounted (s : State H) : Prop where
  added :
    s.added = s.ran false + s.cancelledSoFar + s.toRun false
  aborted : s.cancelledSoFar = s.ran true + s.toRun true

/- What a step that records events has to balance. -/
theorem Accounted.of_events
    {s t : State H}
    (hBefore : Accounted s)
    (events : List (Event H))
    (hHistory : t.history = events ++ s.history)
    (hAdded :
      total addedHandler events + s.toRun false =
        total (ranHandler false) events +
          total cancelledHandler events + t.toRun false)
    (hCancelled :
      total cancelledHandler events + s.toRun true =
        total (ranHandler true) events + t.toRun true) :
    Accounted t where
  added := by
    have hBooks := hBefore.added
    simp only [State.added, State.ran, State.cancelledSoFar]
      at hBooks ⊢
    simp only [hHistory, total_append]
    rw [hBooks, add_left_comm, hAdded]
    abel
  aborted := by
    have hBooks := hBefore.aborted
    simp only [State.ran, State.cancelledSoFar] at hBooks ⊢
    simp only [hHistory, total_append]
    rw [hBooks, add_left_comm, hCancelled]
    abel

/- A step that records nothing and keeps what is to be run. -/
theorem Accounted.of_toRun
    {s t : State H}
    (hBefore : Accounted s)
    (hHistory : t.history = s.history)
    (hToRun : ∀ b, t.toRun b = s.toRun b) : Accounted t :=
  hBefore.of_events [] hHistory
    (by simp [hToRun]) (by simp [hToRun])

theorem toRun_add
    (milliseconds : Nat) (handler : H) (s : State H)
    (b : Bool) :
    (add milliseconds handler s).toRun b =
      (if b then 0 else {handler}) + s.toRun b := by
  cases b with
  | false =>
      simp [State.toRun, add, live_cons _ s.items,
        live_singleton, State.hand]
  | true =>
      simp [State.toRun, add, cancelled_cons _ s.items,
        cancelled_singleton, State.hand]

theorem accounted_add
    {s : State H}
    (hBefore : Accounted s)
    (milliseconds : Nat) (handler : H) :
    Accounted (add milliseconds handler s) := by
  refine hBefore.of_events [_] rfl ?_ ?_
  · simp [toRun_add, total_cons, addedHandler, ranHandler,
      cancelledHandler]
  · simp [toRun_add, total_cons, ranHandler, cancelledHandler]

theorem accounted_cancel
    {s : State H}
    (hBefore : Accounted s)
    (id : Nat) : Accounted (cancel id s).2 := by
  unfold cancel
  cases hMove : moveHandler id s.items with
  | none => exact hBefore
  | some r =>
      rcases live_moveHandler hMove with ⟨hLive, hCancelled⟩
      refine hBefore.of_events (if id = 0 then [] else [.cancelled r.1]) rfl ?_ ?_
      · by_cases hId : id = 0
        · simp [State.toRun, hId, hLive, live_cons _ r.2,
            live_singleton, State.hand]
        · simp [State.toRun, hId, hLive, total_cons,
            live_cons _ r.2, live_singleton, State.hand,
            addedHandler, ranHandler, cancelledHandler]
      · by_cases hId : id = 0
        · simp [State.toRun, hId, hCancelled,
            cancelled_cons _ r.2, cancelled_singleton,
            State.hand]
        · simp [State.toRun, hId, hCancelled, total_cons,
            cancelled_cons _ r.2, cancelled_singleton,
            State.hand, ranHandler, cancelledHandler]

/- A timer is cancelled with a handler it has. -/
theorem mem_toRun_cancel
    {s : State H} {id : Nat} {handler : H} {b : Bool}
    (hMem : handler ∈ (cancel id s).2.toRun b) :
    ∃ b', handler ∈ s.toRun b' := by
  unfold cancel at hMem
  cases hMove : moveHandler id s.items with
  | none =>
      rw [hMove] at hMem
      exact ⟨b, hMem⟩
  | some r =>
      rcases live_moveHandler hMove with ⟨hLive, hCancelled⟩
      rw [hMove] at hMem
      by_cases hId : id = 0
      · refine ⟨b, ?_⟩
        simpa [State.toRun, hId, hLive, hCancelled, State.hand,
          live_cons _ r.2, live_singleton, cancelled_cons _ r.2,
          cancelled_singleton] using hMem
      · cases b with
        | false =>
            refine ⟨false, ?_⟩
            simp [State.toRun, State.hand, live_cons _ r.2,
              live_singleton] at hMem
            rcases hMem with hQueue | hHand
            · simp [State.toRun, hId, hLive, hQueue]
            · simp [State.toRun, State.hand, hHand]
        | true =>
            simp [State.toRun, State.hand, cancelled_cons _ r.2,
              cancelled_singleton] at hMem
            rcases hMem with rfl | hQueue | hHand
            · exact ⟨false, by simp [State.toRun, hId, hLive]⟩
            · refine ⟨true, ?_⟩
              simp [State.toRun, hId, hCancelled, hQueue]
            · exact ⟨true, by simp [State.toRun, State.hand,
                hHand]⟩

theorem total_cancelled (handlers : List H) :
    total cancelledHandler (handlers.map .cancelled) =
        (handlers : Multiset H) ∧
      total addedHandler (handlers.map .cancelled) = 0 ∧
        ∀ b, total (ranHandler b) (handlers.map .cancelled) =
          0 := by
  unfold total
  simp only [List.filterMap_map]
  refine ⟨?_, ?_, fun b => ?_⟩
  · rw [show cancelledHandler ∘ Event.cancelled =
      (some : H → Option H) from rfl, List.filterMap_some]
  · rw [show addedHandler ∘ Event.cancelled =
      (fun _ => none : H → Option H) from rfl]
    simp
  · rw [show ranHandler b ∘ Event.cancelled =
      (fun _ => none : H → Option H) from rfl]
    simp

theorem accounted_cancelAll
    {s : State H}
    (hBefore : Accounted s) : Accounted (cancelAll s).2 := by
  rcases live_abort s.items with ⟨hLive, hCancelled⟩
  rcases total_cancelled (liveHandlers s.items) with
    ⟨hEvents, hAdded, hRan⟩
  refine hBefore.of_events
    ((liveHandlers s.items).map .cancelled) rfl ?_ ?_
  · rw [hEvents, hAdded, hRan]
    simp only [State.toRun, cancelAll, hLive, zero_add]
    rfl
  · rw [hEvents, hRan]
    simp only [State.toRun, cancelAll, hCancelled, zero_add,
      if_true, State.hand]
    rw [add_assoc]
    rfl

/- The call of a handler, aborted or not. -/
theorem toRun_call
    {s : State H} {item : WorkItem H}
    (hWorker : s.worker = .calling item) (b : Bool) :
    s.toRun b =
      (if decide (item.id = 0) = b then
        (item.handler.toList : Multiset H) else 0) +
          (call item s).toRun b := by
  have hHand := hand_of_calling hWorker
  have hItems : (call item s).items = s.items := by
    unfold call
    cases item.handler with
    | none => rfl
    | some handler => rfl
  have hEmpty : (call item s).hand = [] := by
    unfold call
    cases item.handler with
    | none => rfl
    | some handler => rfl
  rw [State.toRun, State.toRun, hHand, hEmpty, hItems,
    live_singleton, cancelled_singleton]
  by_cases hId : item.id = 0
  · cases b with
    | false => simp [hId]
    | true => simp [hId, add_comm]
  · cases b with
    | false => simp [hId, add_comm]
    | true => simp [hId]

theorem accounted_call
    {s : State H} {item : WorkItem H}
    (hBefore : Accounted s)
    (hWorker : s.worker = .calling item) :
    Accounted (call item s) := by
  have hToRun := toRun_call hWorker
  cases hHandler : item.handler with
  | none =>
      refine hBefore.of_toRun ?_ fun b => ?_
      · rw [call, hHandler]
      · simp [hToRun b, hHandler]
  | some handler =>
      refine hBefore.of_events ([.ran handler (decide (item.id = 0)) s.now]) ?_ ?_ ?_
      · rw [call, hHandler]
        rfl
      · rw [hToRun false]
        by_cases hId : item.id = 0
        · simp [hId, total_cons, addedHandler, ranHandler,
            cancelledHandler]
        · simp [hId, hHandler, total_cons, addedHandler,
            ranHandler, cancelledHandler]
      · rw [hToRun true]
        by_cases hId : item.id = 0
        · simp [hId, hHandler, total_cons, ranHandler,
            cancelledHandler]
        · simp [hId, total_cons, ranHandler, cancelledHandler]

/- The steps that move handlers at most. -/
def Internal : Input H → Prop
| .clock _ => True
| .notify => True
| .finish => True
| .join => True
| .test => True
| .calculate _ => True
| .wake => True
| .pop _ => True
| .rest => True
| _ => False

theorem toRun_of_items
    {s t : State H}
    (hLive : live t.items = live s.items)
    (hCancelled : cancelled t.items = cancelled s.items)
    (hHand : t.hand = s.hand) (b : Bool) :
    t.toRun b = s.toRun b := by
  rw [State.toRun, State.toRun, hHand, hLive, hCancelled]

theorem toRun_pop
    {s : State H} {i : Nat} {item : WorkItem H}
    (hWorker : s.worker = .working)
    (hItem : s.items[i]? = some item) (b : Bool) :
    (pop i item s).toRun b = s.toRun b := by
  have hHand : s.hand = [] := hand_of_none (by rw [hWorker]; rfl)
  have hTaken : (pop i item s).hand = [item] :=
    hand_of_calling rfl
  rw [State.toRun, State.toRun, hHand, hTaken,
    live_eraseIdx hItem, cancelled_eraseIdx hItem,
    live_nil, cancelled_nil, add_zero, add_zero, add_comm,
    add_comm (live _)]
  rfl

theorem toRun_of_internal
    {s : State H} {i : Input H}
    (hInternal : Internal i)
    (hEnabled : Enabled s i) (b : Bool) :
    (step s i).toRun b = s.toRun b := by
  cases i with
  | clock duration => rfl
  | notify => rfl
  | finish => rfl
  | join => rfl
  | test =>
      have hWorker : s.worker = .testing := hEnabled
      refine toRun_of_items (s := s) (t := step s .test) rfl rfl
        ?_ b
      rw [hand_of_none (s := s) (by rw [hWorker]; rfl),
        hand_of_none]
      cases hFinish : s.finish with
      | false => simp [step, hFinish, Worker.item?]
      | true => simp [step, hFinish, Worker.item?]
  | calculate picks =>
      rcases hEnabled with ⟨hWorker, hDiscards⟩
      rcases live_discard hDiscards with ⟨hLive, hCancelled⟩
      refine toRun_of_items hLive hCancelled ?_ b
      rw [hand_of_none (s := s) (by rw [hWorker]; rfl)]
      rfl
  | wake =>
      rcases hEnabled with ⟨deadline, hWaiting, hReady⟩
      refine toRun_of_items (s := s) (t := step s .wake) rfl rfl
        ?_ b
      rw [hand_of_none (s := s)]
      · rfl
      · cases hWorker : s.worker with
        | calling item => rw [hWorker] at hWaiting; cases hWaiting
        | _ => rfl
  | pop i =>
      rcases hEnabled with ⟨hWorker, hDue, item, hItem, hTop⟩
      have hSome : s.items[i]? = some item := hItem
      simp only [step, hSome]
      exact toRun_pop hWorker hSome b
  | rest =>
      refine toRun_of_items (s := s) (t := step s .rest) rfl rfl
        ?_ b
      rw [hand_of_none (s := s) (by rw [hEnabled.1]; rfl)]
      rfl
  | _ => exact hInternal.elim

theorem history_of_internal
    {s : State H} {i : Input H}
    (hInternal : Internal i) :
    (step s i).history = s.history := by
  cases i with
  | pop i =>
      simp only [step]
      split
      · rfl
      · rfl
  | add milliseconds handler => exact hInternal.elim
  | cancel id => exact hInternal.elim
  | cancelAll => exact hInternal.elim
  | abortAll => exact hInternal.elim
  | call => exact hInternal.elim
  | _ => rfl

theorem accounted_step
    {s : State H} {i : Input H}
    (hBefore : Accounted s)
    (hEnabled : Enabled s i) : Accounted (step s i) := by
  by_cases hInternal : Internal i
  · exact hBefore.of_toRun (history_of_internal hInternal)
      (toRun_of_internal hInternal hEnabled)
  · cases i with
    | add milliseconds handler =>
        exact accounted_add hBefore milliseconds handler
    | cancel id => exact accounted_cancel hBefore id
    | cancelAll => exact accounted_cancelAll hBefore
    | abortAll =>
        exact (accounted_cancelAll hBefore).of_toRun rfl
          fun _ => rfl
    | call =>
        cases hWorker : s.worker with
        | calling item =>
            simp only [step, hWorker, Worker.item?]
            exact accounted_call hBefore hWorker
        | _ =>
            rw [Enabled, hWorker] at hEnabled
            cases hEnabled
    | _ => exact absurd trivial hInternal

theorem accounted_of_run
    {is : List (Input H)} {s : State H}
    (hRun : (machine H).Run .init is s) : Accounted s := by
  refine hRun.invariant ⟨rfl, rfl⟩ ?_
  intro s i t hBefore hEnabled hStep
  cases hStep
  exact accounted_step hBefore hEnabled

------------------------------------------------------------
-- Times
------------------------------------------------------------

/- An item has the time of its timer, until it is cancelled. -/
def Dated (history : List (Event H)) (item : WorkItem H) :
    Prop :=
  if item.id = 0 then
    item.endTime = 0
  else
    ∀ handler ∈ item.handler,
      .added handler item.endTime ∈ history

theorem Dated.mono
    {history history' : List (Event H)} {item : WorkItem H}
    (hDated : Dated history item)
    (hMore : history ⊆ history') : Dated history' item := by
  unfold Dated at hDated ⊢
  split
  · next hId => rwa [if_pos hId] at hDated
  · next hId =>
      rw [if_neg hId] at hDated
      exact fun handler hHandler =>
        hMore (hDated handler hHandler)

/-
  What is in the queue or in the hand of the worker is dated,
  and a call that is not aborted came when it was due.
-/
structure Punctual (s : State H) : Prop where
  items : ∀ item ∈ s.items, Dated s.history item
  hand : ∀ item ∈ s.hand,
    Dated s.history item ∧ item.endTime ≤ s.now
  ran : ∀ handler time, .ran handler false time ∈ s.history →
    ∃ endTime ≤ time, .added handler endTime ∈ s.history

/- A step that adds no calls to the history. -/
theorem Punctual.of_items
    {s t : State H}
    (hBefore : Punctual s)
    (events : List (Event H))
    (hHistory : t.history = events ++ s.history)
    (hQuiet : ∀ handler time, .ran handler false time ∉ events)
    (hItems : ∀ item ∈ t.items, Dated t.history item)
    (hHand : t.hand ⊆ s.hand)
    (hNow : s.now ≤ t.now) : Punctual t where
  items := hItems
  hand item hMem := by
    rcases hBefore.hand item (hHand hMem) with ⟨hDated, hDue⟩
    refine ⟨hDated.mono ?_, hDue.trans hNow⟩
    rw [hHistory]
    exact List.subset_append_right _ _
  ran handler time hRan := by
    rw [hHistory] at hRan ⊢
    rcases List.mem_append.mp hRan with hNew | hOld
    · exact absurd hNew (hQuiet handler time)
    · rcases hBefore.ran handler time hOld with
        ⟨endTime, hLe, hAdded⟩
      exact ⟨endTime, hLe, List.mem_append_right _ hAdded⟩

theorem mem_of_moveHandler
    {id : Nat} {items items' : List (WorkItem H)} {handler : H}
    (hMove : moveHandler id items = some (handler, items'))
    {item : WorkItem H}
    (hMem : item ∈ items') :
    item ∈ items ∨
      ∃ before ∈ items, item = { before with handler := none }
    := by
  induction items generalizing items' with
  | nil => cases hMove
  | cons first items ih =>
      unfold moveHandler at hMove
      split at hMove
      · cases hMove
        rcases List.mem_cons.mp hMem with rfl | hRest
        · exact .inr ⟨first, List.mem_cons_self, rfl⟩
        · exact .inl (List.mem_cons_of_mem _ hRest)
      · rcases Option.map_eq_some_iff.mp hMove with
          ⟨r, hRest, hEq⟩
        cases hEq
        rcases List.mem_cons.mp hMem with rfl | hMore
        · exact .inl List.mem_cons_self
        · rcases ih hRest hMore with hOld | ⟨before, hOld, hEq⟩
          · exact .inl (List.mem_cons_of_mem _ hOld)
          · exact .inr
              ⟨before, List.mem_cons_of_mem _ hOld, hEq⟩

theorem discard_subset
    (picks : List Nat) (items : List (WorkItem H)) :
    discard picks items ⊆ items := by
  induction picks generalizing items with
  | nil => exact List.Subset.refl _
  | cons i picks ih =>
      exact List.Subset.trans (ih _) List.eraseIdx_subset

/- An item that was cancelled is due at once. -/
theorem dated_zero
    (history : List (Event H)) (handler : Option H) :
    Dated history ⟨0, 0, handler⟩ := by
  simp [Dated]

theorem dated_abort
    {history : List (Event H)} {item : WorkItem H}
    (hDated : Dated history item) :
    Dated history item.abort := by
  unfold WorkItem.abort
  split
  · exact hDated
  · exact dated_zero history item.handler

theorem punctual_add
    {s : State H}
    (hBefore : Punctual s)
    (milliseconds : Nat) (handler : H) :
    Punctual (add milliseconds handler s) := by
  refine hBefore.of_items [.added handler _] rfl
    (by simp) ?_ (List.Subset.refl _) le_rfl
  intro item hMem
  rcases List.mem_cons.mp hMem with rfl | hRest
  · rw [Dated, if_neg (Nat.succ_ne_zero _)]
    intro other hOther
    cases hOther
    exact List.mem_cons_self
  · exact (hBefore.items item hRest).mono
      (List.subset_cons_self _ _)

/- To cancel a timer adds none. -/
theorem added_of_cancel
    {s : State H} {id : Nat} {handler : H} {endTime : Nat}
    (hMem : .added handler endTime ∈ (cancel id s).2.history) :
    .added handler endTime ∈ s.history := by
  unfold cancel at hMem
  cases hMove : moveHandler id s.items with
  | none =>
      rw [hMove] at hMem
      exact hMem
  | some r =>
      rw [hMove] at hMem
      rcases List.mem_append.mp hMem with hNew | hOld
      · split at hNew
        · cases hNew
        · simp at hNew
      · exact hOld

theorem punctual_cancel
    {s : State H}
    (hBefore : Punctual s)
    (id : Nat) : Punctual (cancel id s).2 := by
  unfold cancel
  cases hMove : moveHandler id s.items with
  | none => exact hBefore
  | some r =>
      refine hBefore.of_items (if id = 0 then [] else [.cancelled r.1]) rfl ?_ ?_
        (List.Subset.refl _) le_rfl
      · intro handler time hMem
        split at hMem
        · cases hMem
        · cases hMem with
          | tail _ hMem => cases hMem
      · intro item hMem
        rcases List.mem_cons.mp hMem with rfl | hRest
        · exact dated_zero _ _
        · have hMore := List.subset_append_right
            (if id = 0 then [] else [.cancelled r.1]) s.history
          rcases mem_of_moveHandler hMove hRest with
            hOld | ⟨before, hOld, rfl⟩
          · exact (hBefore.items item hOld).mono hMore
          · have hDated := hBefore.items before hOld
            unfold Dated at hDated ⊢
            split
            · next hId => rwa [if_pos (by exact hId)] at hDated
            · exact nofun

theorem punctual_cancelAll
    {s : State H}
    (hBefore : Punctual s) : Punctual (cancelAll s).2 := by
  refine hBefore.of_items
    ((liveHandlers s.items).map .cancelled) rfl ?_ ?_
    (List.Subset.refl _) le_rfl
  · intro handler time hMem
    rcases List.mem_map.mp hMem with ⟨other, -, hEq⟩
    cases hEq
  · intro item hMem
    rcases List.mem_map.mp hMem with ⟨before, hOld, rfl⟩
    exact (dated_abort (hBefore.items before hOld)).mono
      (List.subset_append_right _ _)

theorem punctual_call
    {s : State H} {item : WorkItem H}
    (hBefore : Punctual s)
    (hWorker : s.worker = .calling item) :
    Punctual (call item s) := by
  have hHand := hBefore.hand item
    (by rw [hand_of_calling hWorker]; exact List.mem_cons_self)
  unfold call
  cases hHandler : item.handler with
  | none =>
      exact hBefore.of_items [] rfl nofun
        hBefore.items nofun le_rfl
  | some handler =>
      have hMore := List.subset_cons_self
        (.ran handler (decide (item.id = 0)) s.now) s.history
      refine ⟨fun other hMem =>
        (hBefore.items other hMem).mono hMore, nofun, ?_⟩
      intro other time hRan
      rcases List.mem_cons.mp hRan with hNew | hOld
      · injection hNew with hSame hLive hTime
        subst hSame hTime
        have hId : item.id ≠ 0 := by simpa using hLive.symm
        have hDated := hHand.1
        rw [Dated, if_neg hId] at hDated
        exact ⟨item.endTime, hHand.2,
          hMore (hDated _ hHandler)⟩
      · rcases hBefore.ran other time hOld with
          ⟨endTime, hLe, hAdded⟩
        exact ⟨endTime, hLe, hMore hAdded⟩

theorem punctual_step
    {s : State H} {i : Input H}
    (hBefore : Punctual s)
    (hEnabled : Enabled s i) : Punctual (step s i) := by
  have hQuiet (t : State H)
      (hHistory : t.history = s.history)
      (hItems : t.items ⊆ s.items) (hHand : t.hand ⊆ s.hand)
      (hNow : s.now ≤ t.now) : Punctual t :=
    hBefore.of_items [] hHistory nofun
      (fun item hMem =>
        hHistory ▸ hBefore.items item (hItems hMem))
      hHand hNow
  have hSame {items : List (WorkItem H)} : items ⊆ items :=
    List.Subset.refl _
  cases i with
  | clock duration =>
      exact hQuiet _ rfl hSame hSame (Nat.le_add_right _ _)
  | add milliseconds handler =>
      exact punctual_add hBefore milliseconds handler
  | cancel id => exact punctual_cancel hBefore id
  | cancelAll => exact punctual_cancelAll hBefore
  | notify => exact hQuiet _ rfl hSame hSame le_rfl
  | finish => exact hQuiet _ rfl hSame hSame le_rfl
  | abortAll =>
      have hAfter := punctual_cancelAll hBefore
      exact ⟨hAfter.items, hAfter.hand, hAfter.ran⟩
  | join => exact hQuiet _ rfl hSame hSame le_rfl
  | test =>
      refine hQuiet _ rfl hSame ?_ le_rfl
      rw [hand_of_none]
      · exact nofun
      · cases hFinish : s.finish with
        | false => simp [step, hFinish, Worker.item?]
        | true => simp [step, hFinish, Worker.item?]
  | calculate picks =>
      exact hQuiet _ rfl (discard_subset picks s.items) nofun
        le_rfl
  | wake => exact hQuiet _ rfl hSame nofun le_rfl
  | pop i =>
      rcases hEnabled with
        ⟨hWorker, ⟨time, hTime, hDue⟩, item, hItem, hTop⟩
      have hSome : s.items[i]? = some item := hItem
      have hMem := List.mem_of_getElem? hSome
      have hFirst : item.endTime ≤ time := by
        have hMin := List.min?_mem hTime
        rcases List.mem_map.mp hMin with ⟨other, hOther, rfl⟩
        exact hTop other hOther
      simp only [step, hSome]
      refine ⟨fun other hOther => hBefore.items other
        (List.eraseIdx_subset hOther), ?_, hBefore.ran⟩
      intro other hOther
      rcases List.mem_singleton.mp hOther with rfl
      exact ⟨hBefore.items _ hMem, hFirst.trans hDue⟩
  | rest => exact hQuiet _ rfl hSame nofun le_rfl
  | call =>
      cases hWorker : s.worker with
      | calling item =>
          simp only [step, hWorker, Worker.item?]
          exact punctual_call hBefore hWorker
      | _ =>
          rw [Enabled, hWorker] at hEnabled
          cases hEnabled

theorem punctual_of_run
    {is : List (Input H)} {s : State H}
    (hRun : (machine H).Run .init is s) : Punctual s := by
  refine hRun.invariant ⟨nofun, nofun, nofun⟩ ?_
  intro s i t hBefore hEnabled hStep
  cases hStep
  exact punctual_step hBefore hEnabled

------------------------------------------------------------
-- Runs
------------------------------------------------------------

/-
  No handler is lost and none is called twice, however the
  callers, the worker and the destructor interleave, and none
  is called early unless its timer was cancelled.
-/
theorem handlers_of_run
    {is : List (Input H)} {s : State H}
    (hRun : (machine H).Run .init is s) :
    Accounted s ∧ Punctual s :=
  ⟨accounted_of_run hRun, punctual_of_run hRun⟩

/- Two timers, of which the first is cancelled. -/
def cancelFirst : List (Input Bool) :=
  [.add 5 true, .notify, .add 3 false, .notify, .cancel 1,
    .notify, .test, .calculate [], .wake, .pop 0, .call,
    .clock (4 * millisecond), .pop 0, .call]

theorem handlers_of_cancelFirst :
    ∃ s, (machine Bool).Run .init cancelFirst s ∧
      Accounted s ∧ Punctual s := by
  have hExec : ((machine Bool).exec .init cancelFirst).any
      (fun s => s.items.length == 1) = true := by decide
  rcases Machine.exists_run_of_exec hExec with ⟨s, hRun, -⟩
  exact ⟨s, hRun, handlers_of_run hRun⟩

end TimerQueue

end Manipulator
