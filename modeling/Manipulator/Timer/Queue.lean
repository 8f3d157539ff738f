import Manipulator.Machine
import Mathlib.Data.List.MinMax

/-
  The timer queue of the behavior tree library: callers that
  add and cancel timers, the worker thread that runs their
  handlers, and the destructor.

  What is done under the mutex is one step. Between the
  change of the queue and `notify`, and around the call of a
  handler, the others go on. Of several items that are due
  first any may be on top of the priority queue.

  Main declarations:
    * `WorkItem`, `Worker`, `State`, `Input`
    * `add`, `cancel`, `cancelAll`, `discard`
    * `machine`
-/

------------------------------------------------------------
-- Items
------------------------------------------------------------

namespace Manipulator

namespace TimerQueue

/- `id` is 0 when the timer was cancelled. -/
structure WorkItem (H : Type) where
  endTime : Nat
  id : Nat
  handler : Option H
deriving DecidableEq

/- `run`: where the worker thread is. -/
inductive Worker (H : Type) where
-- before `m_finish.load()`
| testing
-- before `calcWaitTime()`
| calculating
-- in `waitUntil`
| waiting (deadline : Nat)
-- at the head of the loop of `checkWork`
| working
-- before the call of the handler
| calling (item : WorkItem H)
| finished
deriving DecidableEq

namespace Worker

variable {H : Type}

def deadline? : Worker H → Option Nat
| .waiting deadline => some deadline
| _ => none

/- The item in the hand of the worker. -/
def item? : Worker H → Option (WorkItem H)
| .calling item => some item
| _ => none

end Worker

/- The destructor. -/
inductive Stage where
| alive
-- after `m_finish.store(true)`
| cancelling
-- after `cancelAll()`
| joining
| joined
deriving DecidableEq

inductive Event (H : Type) where
| added (handler : H) (endTime : Nat)
| cancelled (handler : H)
| ran (handler : H) (aborted : Bool) (time : Nat)
deriving DecidableEq

structure State (H : Type) where
  items : List (WorkItem H)
  -- 64 bits, and fewer than 2^64 timers are added
  idcounter : Nat
  -- `m_count` of the semaphore
  count : Nat
  finish : Bool
  -- `ClockT::now()`, in nanoseconds
  now : Nat
  worker : Worker H
  stage : Stage
  -- calls before their `notify`
  notifying : Nat
  history : List (Event H)

def State.init {H : Type} : State H where
  items := []
  idcounter := 0
  count := 0
  finish := false
  now := 0
  worker := .testing
  stage := .alive
  notifying := 0
  history := []

------------------------------------------------------------
-- Callers
------------------------------------------------------------

section Callers

variable {H : Type}

def millisecond : Nat := 1000000

def add (milliseconds : Nat) (handler : H) (s : State H) :
    State H :=
  let item : WorkItem H :=
    { endTime := s.now + milliseconds * millisecond
      id := s.idcounter + 1
      handler := some handler }
  { s with
    items := item :: s.items
    idcounter := s.idcounter + 1
    notifying := s.notifying + 1
    history := .added handler item.endTime :: s.history }

/-
  The first item of the timer that has its handler gives it
  to a new item.
-/
def moveHandler (id : Nat) :
    List (WorkItem H) → Option (H × List (WorkItem H))
| [] => none
| item :: items =>
    match decide (item.id = id), item.handler with
    | true, some handler =>
        some (handler, { item with handler := none } :: items)
    | _, _ =>
        (moveHandler id items).map
          fun r => (r.1, item :: r.2)

/- 1 when the timer was cancelled, 0 when it is too late. -/
def cancel (id : Nat) (s : State H) : Nat × State H :=
  match moveHandler id s.items with
  | none => (0, s)
  | some (handler, items) =>
      let newItem : WorkItem H :=
        { endTime := 0, id := 0, handler := some handler }
      -- a handler that was cancelled is cancelled again
      let events :=
        if id = 0 then [] else [.cancelled handler]
      (1,
        { s with
          items := newItem :: items
          notifying := s.notifying + 1
          history := events ++ s.history })

def WorkItem.abort (item : WorkItem H) : WorkItem H :=
  if item.id = 0 then
    item
  else
    { item with endTime := 0, id := 0 }

/- The handlers of the timers that are not cancelled. -/
def liveHandlers (items : List (WorkItem H)) : List H :=
  items.filterMap
    fun item => if item.id = 0 then none else item.handler

def cancelledHandlers (items : List (WorkItem H)) : List H :=
  items.filterMap
    fun item => if item.id = 0 then item.handler else none

/- The number of items, also of those without a handler. -/
def cancelAll (s : State H) : Nat × State H :=
  (s.items.length,
    { s with
      items := s.items.map WorkItem.abort
      notifying := s.notifying + 1
      history :=
        (liveHandlers s.items).map .cancelled ++ s.history })

end Callers

------------------------------------------------------------
-- The Worker
------------------------------------------------------------

section WorkerSteps

variable {H : Type}

/- No other item is due before it. -/
def IsTop (items : List (WorkItem H)) (item : WorkItem H) :
    Prop :=
  ∀ other ∈ items, item.endTime ≤ other.endTime

instance (items : List (WorkItem H)) (item : WorkItem H) :
    Decidable (IsTop items item) :=
  inferInstanceAs
    (Decidable (∀ other ∈ items, item.endTime ≤ other.endTime))

/- When the item on top is due. -/
def topTime (items : List (WorkItem H)) : Option Nat :=
  (items.map WorkItem.endTime).min?

def discard :
    List Nat → List (WorkItem H) → List (WorkItem H)
| [], items => items
| i :: picks, items => discard picks (items.eraseIdx i)

/- Empty handlers are discarded, until one on top is not. -/
def Discards : List Nat → List (WorkItem H) → Prop
| [], items =>
    items.isEmpty ∨
      ∃ item ∈ items, IsTop items item ∧ item.handler.isSome
| i :: picks, items =>
    (∃ item ∈ items[i]?,
      IsTop items item ∧ item.handler.isNone) ∧
        Discards picks (items.eraseIdx i)

instance decidableDiscards :
    (picks : List Nat) → (items : List (WorkItem H)) →
      Decidable (Discards picks items)
| [], items =>
    inferInstanceAs (Decidable (items.isEmpty ∨
      ∃ item ∈ items, IsTop items item ∧ item.handler.isSome))
| i :: picks, items =>
    have := decidableDiscards picks (items.eraseIdx i)
    inferInstanceAs (Decidable ((∃ item ∈ items[i]?,
      IsTop items item ∧ item.handler.isNone) ∧
        Discards picks (items.eraseIdx i)))

/- `calcWaitTime`, and the time that is waited until. -/
def calcWaitTime (picks : List Nat) (s : State H) : State H :=
  let items := discard picks s.items
  let deadline :=
    (topTime items).getD (s.now + 10 * millisecond)
  { s with
    items := items
    worker := .waiting deadline }

/- `waitUntil` returns: the count is taken down, or it is late. -/
def wake (s : State H) : State H :=
  { s with
    count := s.count - 1
    worker := .working }

/- An item that is due leaves the queue. -/
def pop (i : Nat) (item : WorkItem H) (s : State H) : State H :=
  { s with
    items := s.items.eraseIdx i
    worker := .calling item }

def call (item : WorkItem H) (s : State H) : State H :=
  match item.handler with
  | none => { s with worker := .working }
  | some handler =>
      let aborted := decide (item.id = 0)
      { s with
        worker := .working
        history := .ran handler aborted s.now :: s.history }

end WorkerSteps

------------------------------------------------------------
-- Interleavings
------------------------------------------------------------

variable {H : Type}

inductive Input (H : Type) where
| clock (duration : Nat)
| add (milliseconds : Nat) (handler : H)
| cancel (id : Nat)
| cancelAll
| notify
-- the destructor
| finish
| abortAll
| join
-- the worker
| test
| calculate (picks : List Nat)
| wake
| pop (i : Nat)
| rest
| call

namespace State

/- `now` has come to the time of the item on top. -/
def Due (s : State H) : Prop :=
  ∃ time ∈ topTime s.items, time ≤ s.now

instance (s : State H) : Decidable s.Due :=
  inferInstanceAs
    (Decidable (∃ time ∈ topTime s.items, time ≤ s.now))

/- The predicate of `waitUntil`, or its timeout. -/
def MayWake (s : State H) : Prop :=
  ∃ deadline ∈ s.worker.deadline?,
    0 < s.count ∨ deadline ≤ s.now

instance (s : State H) : Decidable s.MayWake :=
  inferInstanceAs (Decidable (∃ deadline ∈ s.worker.deadline?,
    0 < s.count ∨ deadline ≤ s.now))

end State

/- Nobody calls a queue that is being destroyed. -/
def Enabled (s : State H) : Input H → Prop
| .clock _ => True
| .add _ _ => s.stage = .alive
| .cancel _ => s.stage = .alive
| .cancelAll => s.stage = .alive
| .notify => 0 < s.notifying
| .finish => s.stage = .alive ∧ s.notifying = 0
| .abortAll => s.stage = .cancelling
| .join =>
    s.stage = .joining ∧ s.notifying = 0 ∧ s.worker = .finished
| .test => s.worker = .testing
| .calculate picks =>
    s.worker = .calculating ∧ Discards picks s.items
| .wake => s.MayWake
| .pop i =>
    s.worker = .working ∧ s.Due ∧
      ∃ item ∈ s.items[i]?, IsTop s.items item
| .rest => s.worker = .working ∧ ¬ s.Due
| .call => s.worker.item?.isSome

def step (s : State H) : Input H → State H
| .clock duration => { s with now := s.now + duration }
| .add milliseconds handler => add milliseconds handler s
| .cancel id => (cancel id s).2
| .cancelAll => (cancelAll s).2
| .notify =>
    { s with
      count := s.count + 1
      notifying := s.notifying - 1 }
| .finish => { s with finish := true, stage := .cancelling }
| .abortAll => { (cancelAll s).2 with stage := .joining }
| .join => { s with stage := .joined }
| .test =>
    { s with
      worker := if s.finish then .finished else .calculating }
| .calculate picks => calcWaitTime picks s
| .wake => wake s
| .pop i =>
    match s.items[i]? with
    | some item => pop i item s
    | none => s
| .rest => { s with worker := .testing }
| .call =>
    match s.worker.item? with
    | some item => call item s
    | none => s

def machine (H : Type) : Machine (State H) (Input H) Empty where
  Enabled := Enabled
  step := fun s i => .ok (step s i)

instance decidableEnabled [DecidableEq H] (s : State H) :
    (i : Input H) → Decidable (Enabled s i)
| .clock _ => .isTrue trivial
| .add _ _ => inferInstanceAs (Decidable (s.stage = .alive))
| .cancel _ => inferInstanceAs (Decidable (s.stage = .alive))
| .cancelAll => inferInstanceAs (Decidable (s.stage = .alive))
| .notify => inferInstanceAs (Decidable (0 < s.notifying))
| .finish =>
    inferInstanceAs
      (Decidable (s.stage = .alive ∧ s.notifying = 0))
| .abortAll =>
    inferInstanceAs (Decidable (s.stage = .cancelling))
| .join =>
    inferInstanceAs (Decidable (s.stage = .joining ∧
      s.notifying = 0 ∧ s.worker = .finished))
| .test => inferInstanceAs (Decidable (s.worker = .testing))
| .calculate picks =>
    inferInstanceAs (Decidable
      (s.worker = .calculating ∧ Discards picks s.items))
| .wake => inferInstanceAs (Decidable s.MayWake)
| .pop i =>
    inferInstanceAs (Decidable (s.worker = .working ∧ s.Due ∧
      ∃ item ∈ s.items[i]?, IsTop s.items item))
| .rest =>
    inferInstanceAs (Decidable (s.worker = .working ∧ ¬ s.Due))
| .call => inferInstanceAs (Decidable (s.worker.item?.isSome))

instance [DecidableEq H] (s : State H) (i : Input H) :
    Decidable ((machine H).Enabled s i) :=
  decidableEnabled s i

end TimerQueue

end Manipulator
