import Manipulator.Timer.Accounting

/-
  The sleep node: a leaf with a timer queue of its own.

  A sleep ends when `timer_waiting_` is false, and the handler
  of any timer of the node clears it, also that of a timer of
  an earlier sleep. A handler carries the number of the sleep
  it is of, which the code does not look at.

  Main declarations:
    * `State`, `Input`, `machine`
    * `Sound`, `sound_of_run`
    * `Undisturbed`, `succeeded_of_unhalted`
-/

------------------------------------------------------------
-- The Node
------------------------------------------------------------

namespace Manipulator

namespace SleepNode

inductive Event where
-- a sleep that returned SUCCESS, due at `endTime`
| succeeded (endTime time : Nat) (spurious : Bool)
deriving DecidableEq

structure State where
  -- `timer_`
  queue : TimerQueue.State Nat
  running : Bool
  timerWaiting : Bool
  timerId : Nat
  -- `onStart` before its call of `add`
  arming : Option Nat
  -- the number of sleeps so far
  starts : Nat
  -- when the last sleep is due
  endTime : Nat
  -- a handler of an earlier sleep cleared `timer_waiting_`
  spurious : Bool
  history : List Event

def State.init : State where
  queue := .init
  running := false
  timerWaiting := false
  timerId := 0
  arming := none
  starts := 0
  endTime := 0
  spurious := false
  history := []

inductive Input where
-- `onStart`
| start (msec : Nat)
| add
-- `onRunning`
| tick
-- `onHalted`
| halt
-- the timer queue
| timer (i : TimerQueue.Input Nat)

/- A sleep of no time is over at once. -/
def start (msec : Nat) (s : State) : State :=
  if msec = 0 then
    s
  else
    { s with
      running := true
      timerWaiting := true
      arming := some msec
      starts := s.starts + 1
      spurious := false }

def add (msec : Nat) (s : State) : State :=
  { s with
    queue := TimerQueue.add msec s.starts s.queue
    timerId := s.queue.idcounter + 1
    arming := none
    endTime := s.queue.now + msec * TimerQueue.millisecond }

def onRunning (s : State) : State :=
  if s.timerWaiting then
    s
  else
    { s with
      running := false
      history :=
        .succeeded s.endTime s.queue.now s.spurious :: s.history }

def onHalted (s : State) : State :=
  { s with
    queue := (TimerQueue.cancel s.timerId s.queue).2
    running := false
    timerWaiting := false }

/- The handler, of a timer that was cancelled or not. -/
def handle (number : Nat) (s : State) : State :=
  { s with
    timerWaiting := false
    spurious :=
      s.spurious || (s.running && decide (number ≠ s.starts)) }

/- The handler that the worker of the timer queue is to call. -/
def called (s : State) : Option Nat :=
  s.queue.worker.item?.bind TimerQueue.WorkItem.handler

def timer (i : TimerQueue.Input Nat) (s : State) : State :=
  let after := { s with queue := TimerQueue.step s.queue i }
  match i, called s with
  | .call, some number => handle number after
  | _, _ => after

/- The steps of the timer queue that are not of the node. -/
def Own : TimerQueue.Input Nat → Prop
| .clock _ => True
| .notify => True
| .test => True
| .calculate _ => True
| .wake => True
| .pop _ => True
| .rest => True
| .call => True
| _ => False

instance : (i : TimerQueue.Input Nat) → Decidable (Own i)
| .clock _ => .isTrue trivial
| .notify => .isTrue trivial
| .test => .isTrue trivial
| .calculate _ => .isTrue trivial
| .wake => .isTrue trivial
| .pop _ => .isTrue trivial
| .rest => .isTrue trivial
| .call => .isTrue trivial
| .add _ _ => .isFalse id
| .cancel _ => .isFalse id
| .cancelAll => .isFalse id
| .finish => .isFalse id
| .abortAll => .isFalse id
| .join => .isFalse id

/- `executeTick` starts a node that is not running. -/
def Enabled (s : State) : Input → Prop
| .start _ => s.running = false
| .add => s.arming.isSome
| .tick => s.running = true ∧ s.arming = none
| .halt => s.running = true ∧ s.arming = none
| .timer i => Own i ∧ TimerQueue.Enabled s.queue i

instance (s : State) : (i : Input) → Decidable (Enabled s i)
| .start _ => inferInstanceAs (Decidable (s.running = false))
| .add => inferInstanceAs (Decidable (s.arming.isSome))
| .tick =>
    inferInstanceAs
      (Decidable (s.running = true ∧ s.arming = none))
| .halt =>
    inferInstanceAs
      (Decidable (s.running = true ∧ s.arming = none))
| .timer i =>
    inferInstanceAs
      (Decidable (Own i ∧ TimerQueue.Enabled s.queue i))

def step (s : State) : Input → State
| .start msec => start msec s
| .add =>
    match s.arming with
    | some msec => add msec s
    | none => s
| .tick => onRunning s
| .halt => onHalted s
| .timer i => timer i s

def machine : Machine State Input Empty where
  Enabled := Enabled
  step := fun s i => .ok (step s i)

instance (s : State) (i : Input) :
    Decidable (machine.Enabled s i) :=
  inferInstanceAs (Decidable (Enabled s i))

------------------------------------------------------------
-- Sleeps
------------------------------------------------------------

open TimerQueue (Punctual)

/-
  A node that sleeps has the handler of its timer still to be
  called. When it may end, its timer is due, or the handler of
  an earlier sleep was called since it started.
-/
structure Sound (s : State) : Prop where
  punctual : Punctual s.queue
  numbers : ∀ b, ∀ k ∈ s.queue.toRun b, k ≤ s.starts
  arming : s.arming.isSome →
    s.running = true ∧ ∀ b, s.starts ∉ s.queue.toRun b
  aborted : s.running = true → s.starts ∉ s.queue.toRun true
  dated : ∀ k e, .added k e ∈ s.queue.history →
    k ≤ s.starts ∧ (s.arming.isSome → k ≠ s.starts) ∧
      (s.arming = none → k = s.starts → e = s.endTime)
  asleep : s.running = true → s.arming = none →
    s.timerWaiting = true → s.starts ∈ s.queue.toRun false
  awake : s.running = true → s.timerWaiting = false →
    (s.arming = none ∧ s.endTime ≤ s.queue.now) ∨
      s.spurious = true
  stale : s.running = true → s.spurious = true →
    s.timerWaiting = false
  ended : ∀ endTime time,
    .succeeded endTime time false ∈ s.history → endTime ≤ time

theorem sound_init : Sound .init where
  punctual := ⟨nofun, nofun, nofun⟩
  numbers b k hMem := by cases b <;> cases hMem
  arming := nofun
  aborted := nofun
  dated := nofun
  asleep := nofun
  awake := nofun
  stale := nofun
  ended := nofun

variable {s : State}

theorem sound_start
    (hSound : Sound s)
    (msec : Nat) : Sound (start msec s) := by
  unfold start
  split
  · exact hSound
  · exact {
      punctual := hSound.punctual
      numbers := fun b k hMem =>
        (hSound.numbers b k hMem).trans (Nat.le_succ _)
      arming := fun _ => ⟨rfl, fun b hMem =>
        Nat.not_succ_le_self _ (hSound.numbers b _ hMem)⟩
      aborted := fun _ hMem =>
        Nat.not_succ_le_self _ (hSound.numbers true _ hMem)
      dated := fun k e hMem => by
        have hOld := (hSound.dated k e hMem).1
        refine ⟨hOld.trans (Nat.le_succ _), fun _ hEq => ?_,
          nofun⟩
        rw [hEq] at hOld
        exact Nat.not_succ_le_self _ hOld
      asleep := nofun
      awake := nofun
      stale := nofun
      ended := hSound.ended }

theorem sound_add
    {msec : Nat}
    (hSound : Sound s)
    (hArming : s.arming = some msec) : Sound (add msec s) := by
  have hSome : s.arming.isSome := by rw [hArming]; rfl
  rcases hSound.arming hSome with ⟨hRunning, hFresh⟩
  exact {
    punctual := TimerQueue.punctual_add hSound.punctual msec s.starts
    numbers := fun b k hMem => by
      rw [add, TimerQueue.toRun_add] at hMem
      rcases Multiset.mem_add.mp hMem with hNew | hOld
      · cases b with
        | false =>
            rw [Multiset.mem_singleton.mp hNew]
            exact le_rfl
        | true => cases hNew
      · exact hSound.numbers b k hOld
    arming := nofun
    aborted := fun _ hMem => by
      rw [add, TimerQueue.toRun_add] at hMem
      exact hFresh true (by simpa using hMem)
    dated := fun k e hMem => by
      rcases List.mem_cons.mp hMem with hNew | hOld
      · cases hNew
        exact ⟨le_rfl, nofun, fun _ _ => rfl⟩
      · rcases hSound.dated k e hOld with ⟨hLe, hOther, -⟩
        exact ⟨hLe, nofun, fun _ hEq =>
          absurd hEq (hOther hSome)⟩
    asleep := fun _ _ _ => by
      rw [add, TimerQueue.toRun_add]
      simp
    awake := fun hStill hAwake => by
      rcases hSound.awake hStill hAwake with ⟨hNone, -⟩ | hStale
      · rw [hArming] at hNone
        cases hNone
      · exact .inr hStale
    stale := hSound.stale
    ended := hSound.ended }

theorem sound_onRunning
    (hSound : Sound s)
    (hRunning : s.running = true)
    (hArming : s.arming = none) : Sound (onRunning s) := by
  unfold onRunning
  split
  · exact hSound
  · next hAwake =>
      exact {
        punctual := hSound.punctual
        numbers := hSound.numbers
        arming := fun hSome => by
          rw [hArming] at hSome
          cases hSome
        aborted := nofun
        dated := hSound.dated
        asleep := nofun
        awake := nofun
        stale := nofun
        ended := fun endTime time hMem => by
          rcases List.mem_cons.mp hMem with hNew | hOld
          · injection hNew with hEnd hTime hSpurious
            subst hEnd hTime
            rcases hSound.awake hRunning (by simpa using hAwake)
              with ⟨-, hDue⟩ | hStale
            · exact hDue
            · rw [hStale] at hSpurious
              cases hSpurious
          · exact hSound.ended endTime time hOld }

theorem sound_onHalted
    (hSound : Sound s)
    (hArming : s.arming = none) : Sound (onHalted s) where
  punctual := TimerQueue.punctual_cancel hSound.punctual s.timerId
  numbers b k hMem := by
    rcases TimerQueue.mem_toRun_cancel hMem with ⟨b', hOld⟩
    exact hSound.numbers b' k hOld
  arming hSome := by
    rw [onHalted, hArming] at hSome
    cases hSome
  aborted := nofun
  dated k e hMem := hSound.dated k e
    (TimerQueue.added_of_cancel hMem)
  asleep := nofun
  awake := nofun
  stale := nofun
  ended := hSound.ended

/- The worker calls an item that it has in its hand. -/
theorem exists_calling
    (hEnabled : TimerQueue.Enabled s.queue .call) :
    ∃ item, s.queue.worker = .calling item := by
  cases hWorker : s.queue.worker with
  | calling item => exact ⟨item, rfl⟩
  | _ =>
      rw [TimerQueue.Enabled, hWorker] at hEnabled
      cases hEnabled

theorem timer_call
    {item : TimerQueue.WorkItem Nat}
    (hWorker : s.queue.worker = .calling item) :
    timer .call s =
      match item.handler with
      | some number =>
          handle number
            { s with queue := TimerQueue.call item s.queue }
      | none =>
          { s with queue := TimerQueue.call item s.queue } := by
  have hStep : TimerQueue.step s.queue .call =
      TimerQueue.call item s.queue := by
    simp only [TimerQueue.step, hWorker, TimerQueue.Worker.item?]
  have hCalled : called s = item.handler := by
    rw [called, hWorker]
    rfl
  cases hHandler : item.handler with
  | none => simp only [timer, hCalled, hHandler, hStep]
  | some number => simp only [timer, hCalled, hHandler, hStep]

/- A step of the queue that calls no handler. -/
theorem sound_of_queue
    {queue : TimerQueue.State Nat}
    (hSound : Sound s)
    (hPunctual : Punctual queue)
    (hToRun : ∀ b, queue.toRun b = s.queue.toRun b)
    (hHistory : queue.history = s.queue.history)
    (hNow : s.queue.now ≤ queue.now) :
    Sound { s with queue := queue } where
  punctual := hPunctual
  numbers b k hMem := hSound.numbers b k (hToRun b ▸ hMem)
  arming hSome :=
    ⟨(hSound.arming hSome).1, fun b hMem =>
      (hSound.arming hSome).2 b (hToRun b ▸ hMem)⟩
  aborted hRunning hMem :=
    hSound.aborted hRunning (hToRun true ▸ hMem)
  dated k e hMem := hSound.dated k e (hHistory ▸ hMem)
  asleep hRunning hArming hWaiting := by
    have hMem := hSound.asleep hRunning hArming hWaiting
    exact (hToRun false).symm ▸ hMem
  awake hRunning hAwake :=
    (hSound.awake hRunning hAwake).imp_left
      fun h => ⟨h.1, h.2.trans hNow⟩
  stale := hSound.stale
  ended := hSound.ended

/- A handler that is called was still to be called. -/
theorem mem_toRun_of_calling
    {queue : TimerQueue.State Nat} {number : Nat}
    {item : TimerQueue.WorkItem Nat}
    (hWorker : queue.worker = .calling item)
    (hHandler : item.handler = some number) :
    number ∈ queue.toRun (decide (item.id = 0)) := by
  rw [TimerQueue.toRun_call hWorker, if_pos rfl, hHandler]
  simp

/- The handler of the sleep itself is called when it is due. -/
theorem due_of_calling
    {item : TimerQueue.WorkItem Nat}
    (hSound : Sound s)
    (hRunning : s.running = true)
    (hWorker : s.queue.worker = .calling item)
    (hHandler : item.handler = some s.starts) :
    s.arming = none ∧ s.endTime ≤ s.queue.now := by
  have hMem := mem_toRun_of_calling hWorker hHandler
  have hArming : s.arming = none := by
    cases hCase : s.arming with
    | none => rfl
    | some msec =>
        have hFresh := (hSound.arming (by rw [hCase]; rfl)).2
        exact absurd hMem (hFresh _)
  have hId : item.id ≠ 0 := by
    intro hZero
    rw [hZero] at hMem
    exact hSound.aborted hRunning (by simpa using hMem)
  have hHand := hSound.punctual.hand item (by
    rw [TimerQueue.hand_of_calling hWorker]
    exact List.mem_cons_self)
  have hDated := hHand.1
  rw [TimerQueue.Dated, if_neg hId] at hDated
  have hEnd := (hSound.dated s.starts item.endTime
    (hDated s.starts hHandler)).2.2 hArming rfl
  exact ⟨hArming, hEnd ▸ hHand.2⟩

theorem sound_handle
    {item : TimerQueue.WorkItem Nat} {number : Nat}
    (hSound : Sound s)
    (hWorker : s.queue.worker = .calling item)
    (hHandler : item.handler = some number) :
    Sound (handle number
      { s with queue := TimerQueue.call item s.queue }) := by
  have hToRun (b : Bool) (k : Nat)
      (hMem : k ∈ (TimerQueue.call item s.queue).toRun b) :
      k ∈ s.queue.toRun b := by
    rw [TimerQueue.toRun_call hWorker]
    exact Multiset.mem_add.mpr (.inr hMem)
  have hCall : TimerQueue.call item s.queue =
      { s.queue with
        worker := .working
        history := .ran number (decide (item.id = 0))
          s.queue.now :: s.queue.history } := by
    rw [TimerQueue.call, hHandler]
  exact {
    punctual := TimerQueue.punctual_call hSound.punctual hWorker
    numbers := fun b k hMem =>
      hSound.numbers b k (hToRun b k hMem)
    arming := fun hSome =>
      ⟨(hSound.arming hSome).1, fun b hMem =>
        (hSound.arming hSome).2 b (hToRun b _ hMem)⟩
    aborted := fun hRunning hMem =>
      hSound.aborted hRunning (hToRun true _ hMem)
    dated := fun k e hMem => by
      refine hSound.dated k e ?_
      simpa [handle, hCall] using hMem
    asleep := fun _ _ hWaiting => by cases hWaiting
    awake := fun hRunning _ => by
      by_cases hOwn : number = s.starts
      · rw [hOwn] at hHandler
        have hDue := due_of_calling hSound hRunning hWorker
          hHandler
        refine .inl ⟨hDue.1, ?_⟩
        simpa [handle, hCall] using hDue.2
      · have hStill : s.running = true := hRunning
        refine .inr ?_
        simp [handle, hStill, hOwn]
    stale := fun _ _ => rfl
    ended := hSound.ended }

theorem sound_timer
    {i : TimerQueue.Input Nat}
    (hSound : Sound s)
    (hOwn : Own i)
    (hEnabled : TimerQueue.Enabled s.queue i) :
    Sound (timer i s) := by
  have hPunctual :=
    TimerQueue.punctual_step hSound.punctual hEnabled
  have hQuiet (hInternal : TimerQueue.Internal i)
      (hNow : s.queue.now ≤ (TimerQueue.step s.queue i).now) :
      Sound { s with queue := TimerQueue.step s.queue i } :=
    sound_of_queue hSound hPunctual
      (TimerQueue.toRun_of_internal hInternal hEnabled)
      (TimerQueue.history_of_internal hInternal) hNow
  cases i with
  | clock duration =>
      exact hQuiet trivial (Nat.le_add_right _ _)
  | notify => exact hQuiet trivial le_rfl
  | test => exact hQuiet trivial le_rfl
  | calculate picks => exact hQuiet trivial le_rfl
  | wake => exact hQuiet trivial le_rfl
  | pop i =>
      refine hQuiet trivial ?_
      simp only [TimerQueue.step]
      split
      · exact le_rfl
      · exact le_rfl
  | rest => exact hQuiet trivial le_rfl
  | call =>
      rcases exists_calling hEnabled with ⟨item, hWorker⟩
      rw [timer_call hWorker]
      have hStep : TimerQueue.step s.queue .call =
          TimerQueue.call item s.queue := by
        simp only [TimerQueue.step, hWorker,
          TimerQueue.Worker.item?]
      rw [hStep] at hPunctual
      cases hHandler : item.handler with
      | none =>
          refine sound_of_queue hSound hPunctual (fun b => ?_)
            ?_ ?_
          · rw [TimerQueue.toRun_call hWorker b, hHandler]
            simp
          · rw [TimerQueue.call, hHandler]
          · rw [TimerQueue.call, hHandler]
      | some number => exact sound_handle hSound hWorker hHandler
  | _ => exact hOwn.elim

theorem sound_step
    {i : Input}
    (hSound : Sound s)
    (hEnabled : Enabled s i) : Sound (step s i) := by
  cases i with
  | start msec => exact sound_start hSound msec
  | add =>
      rcases Option.isSome_iff_exists.mp hEnabled with
        ⟨msec, hArming⟩
      simp only [step, hArming]
      exact sound_add hSound hArming
  | tick => exact sound_onRunning hSound hEnabled.1 hEnabled.2
  | halt => exact sound_onHalted hSound hEnabled.2
  | timer i => exact sound_timer hSound hEnabled.1 hEnabled.2

/- However the node and its timer queue interleave. -/
theorem sound_of_run
    {is : List Input} {s : State}
    (hRun : machine.Run .init is s) : Sound s := by
  refine hRun.invariant sound_init ?_
  intro s i t hBefore hEnabled hStep
  cases hStep
  exact sound_step hBefore hEnabled

------------------------------------------------------------
-- Nodes That Are Not Halted
------------------------------------------------------------

def NotHalt : Input → Prop
| .halt => False
| _ => True

instance : (i : Input) → Decidable (NotHalt i)
| .halt => .isFalse id
| .start _ => .isTrue trivial
| .add => .isTrue trivial
| .tick => .isTrue trivial
| .timer _ => .isTrue trivial

/- The node waits for its timer. -/
def Asleep (s : State) : Prop :=
  s.running = true ∧ s.arming = none ∧ s.timerWaiting = true

instance (s : State) : Decidable (Asleep s) :=
  inferInstanceAs (Decidable
    (s.running = true ∧ s.arming = none ∧ s.timerWaiting = true))

/- There is no handler but that of the sleep itself. -/
structure Undisturbed (s : State) : Prop where
  aborted : s.queue.toRun true = 0
  own : s.queue.toRun false =
    if Asleep s then {s.starts} else 0
  arming : s.arming.isSome →
    s.running = true ∧ s.timerWaiting = true
  spurious : s.spurious = false
  ended : ∀ endTime time spurious,
    .succeeded endTime time spurious ∈ s.history →
      spurious = false

theorem undisturbed_of_queue
    {queue : TimerQueue.State Nat}
    (hBefore : Undisturbed s)
    (hToRun : ∀ b, queue.toRun b = s.queue.toRun b) :
    Undisturbed { s with queue := queue } where
  aborted := (hToRun true).trans hBefore.aborted
  own := (hToRun false).trans hBefore.own
  arming := hBefore.arming
  spurious := hBefore.spurious
  ended := hBefore.ended

/- The handler that is called is that of the sleep. -/
theorem undisturbed_handle
    {item : TimerQueue.WorkItem Nat} {number : Nat}
    (hBefore : Undisturbed s)
    (hWorker : s.queue.worker = .calling item)
    (hHandler : item.handler = some number) :
    Undisturbed (handle number
      { s with queue := TimerQueue.call item s.queue }) := by
  have hCall (b : Bool) := TimerQueue.toRun_call hWorker b
  have hMem := mem_toRun_of_calling hWorker hHandler
  have hId : item.id ≠ 0 := by
    intro hZero
    rw [decide_eq_true hZero, hBefore.aborted] at hMem
    cases hMem
  rw [decide_eq_false hId, hBefore.own] at hMem
  have hAsleep : Asleep s := by
    by_contra hNot
    rw [if_neg hNot] at hMem
    cases hMem
  rw [if_pos hAsleep, Multiset.mem_singleton] at hMem
  have hLast := hCall false
  rw [hBefore.own, if_pos hAsleep, hHandler, hMem] at hLast
  have hNone := hCall true
  rw [hBefore.aborted] at hNone
  simp only [hId, decide_false, if_true, Bool.false_eq_true,
    if_false, zero_add] at hLast hNone
  have hEmpty :
      (TimerQueue.call item s.queue).toRun false = 0 := by
    rw [Option.toList_some, Multiset.coe_singleton] at hLast
    exact left_eq_add.mp hLast
  exact {
    aborted := hNone.symm
    own := by
      rw [if_neg (fun h => nomatch h.2.2)]
      exact hEmpty
    arming := fun hSome => by
      rw [handle, hAsleep.2.1] at hSome
      cases hSome
    spurious := by
      simp [handle, hBefore.spurious, hMem]
    ended := hBefore.ended }

theorem undisturbed_timer
    {i : TimerQueue.Input Nat}
    (hBefore : Undisturbed s)
    (hOwn : Own i)
    (hEnabled : TimerQueue.Enabled s.queue i) :
    Undisturbed (timer i s) := by
  have hQuiet (hInternal : TimerQueue.Internal i) :
      Undisturbed
        { s with queue := TimerQueue.step s.queue i } :=
    undisturbed_of_queue hBefore
      (TimerQueue.toRun_of_internal hInternal hEnabled)
  cases i with
  | call =>
      rcases exists_calling hEnabled with ⟨item, hWorker⟩
      rw [timer_call hWorker]
      cases hHandler : item.handler with
      | none =>
          refine undisturbed_of_queue hBefore fun b => ?_
          rw [TimerQueue.toRun_call hWorker b, hHandler]
          simp
      | some number =>
          exact undisturbed_handle hBefore hWorker hHandler
  | add milliseconds handler => exact hOwn.elim
  | cancel id => exact hOwn.elim
  | cancelAll => exact hOwn.elim
  | finish => exact hOwn.elim
  | abortAll => exact hOwn.elim
  | join => exact hOwn.elim
  | _ => exact hQuiet trivial

theorem undisturbed_start
    (hBefore : Undisturbed s)
    (hIdle : s.running = false)
    (msec : Nat) : Undisturbed (start msec s) := by
  have hAwake : ¬ Asleep s := by
    rintro ⟨hRunning, -⟩
    rw [hIdle] at hRunning
    cases hRunning
  have hNone := hBefore.own
  rw [if_neg hAwake] at hNone
  unfold start
  split
  · exact hBefore
  · exact {
      aborted := hBefore.aborted
      own := by
        rw [if_neg (fun h => nomatch h.2.1)]
        exact hNone
      arming := fun _ => ⟨rfl, rfl⟩
      spurious := rfl
      ended := hBefore.ended }

theorem undisturbed_add
    {msec : Nat}
    (hBefore : Undisturbed s)
    (hArming : s.arming = some msec) :
    Undisturbed (add msec s) := by
  have hAwake : ¬ Asleep s := by
    rintro ⟨-, hNone, -⟩
    rw [hArming] at hNone
    cases hNone
  have hNone := hBefore.own
  rw [if_neg hAwake] at hNone
  have hFlags := hBefore.arming (by rw [hArming]; rfl)
  exact {
    aborted := by
      rw [add, TimerQueue.toRun_add, hBefore.aborted]
      rfl
    own := by
      rw [if_pos ⟨hFlags.1, rfl, hFlags.2⟩, add,
        TimerQueue.toRun_add, hNone]
      rfl
    arming := nofun
    spurious := hBefore.spurious
    ended := hBefore.ended }

theorem undisturbed_onRunning
    (hBefore : Undisturbed s)
    (hArming : s.arming = none) :
    Undisturbed (onRunning s) := by
  unfold onRunning
  split
  · exact hBefore
  · next hAwake =>
      have hNone := hBefore.own
      rw [if_neg (fun h => hAwake h.2.2)] at hNone
      exact {
        aborted := hBefore.aborted
        own := by
          rw [if_neg (fun h => nomatch h.1)]
          exact hNone
        arming := fun hSome => by
          rw [hArming] at hSome
          cases hSome
        spurious := hBefore.spurious
        ended := fun endTime time spurious hMem => by
          rcases List.mem_cons.mp hMem with hNew | hOld
          · injection hNew with hEnd hTime hSpurious
            rw [hSpurious, hBefore.spurious]
          · exact hBefore.ended endTime time spurious hOld }

theorem undisturbed_of_run
    {is : List Input} {s : State}
    (hRun :
      (machine.restrict fun _ => NotHalt).Run .init is s) :
    Undisturbed s := by
  refine hRun.invariant ⟨rfl, rfl, nofun, rfl, nofun⟩ ?_
  intro s i t hBefore hEnabled hStep
  cases hStep
  rcases hEnabled with ⟨hEnabled, hNotHalt⟩
  cases i with
  | start msec => exact undisturbed_start hBefore hEnabled msec
  | add =>
      rcases Option.isSome_iff_exists.mp hEnabled with
        ⟨msec, hArming⟩
      simp only [step, hArming]
      exact undisturbed_add hBefore hArming
  | tick => exact undisturbed_onRunning hBefore hEnabled.2
  | halt => exact hNotHalt.elim
  | timer i =>
      exact undisturbed_timer hBefore hEnabled.1 hEnabled.2

/- A node that is never halted never wakes up early. -/
theorem succeeded_of_unhalted
    {is : List Input} {s : State}
    (hRun :
      (machine.restrict fun _ => NotHalt).Run .init is s)
    (endTime time : Nat) (spurious : Bool)
    (hEvent : .succeeded endTime time spurious ∈ s.history) :
    endTime ≤ time := by
  have hNever :=
    (undisturbed_of_run hRun).ended endTime time spurious hEvent
  rw [hNever] at hEvent
  exact (sound_of_run hRun.of_restrict).ended endTime time hEvent

/- A sleep of a millisecond. -/
def nap : List Input :=
  [.start 1, .add, .timer .notify, .timer .test,
    .timer (.calculate []), .timer .wake, .timer .rest,
    .timer .test, .timer (.calculate []),
    .timer (.clock (2 * TimerQueue.millisecond)), .timer .wake,
    .timer (.pop 0), .timer .call, .tick]

def afterNap : State :=
  ((machine.restrict fun _ => NotHalt).exec .init nap).getD .init

theorem run_nap :
    (machine.restrict fun _ => NotHalt).Run .init nap afterNap :=
  Machine.run_of_exec rfl

theorem succeeded_of_nap :
    .succeeded TimerQueue.millisecond
        (2 * TimerQueue.millisecond) false ∈ afterNap.history ∧
      TimerQueue.millisecond ≤ 2 * TimerQueue.millisecond :=
  ⟨by decide,
    succeeded_of_unhalted run_nap _ _ false (by decide)⟩

/-
  A sleep is halted and started again, and the handler of the
  first timer ends the second sleep at once.
-/
def wokenEarly : List Input :=
  [.start 1, .add, .timer .notify, .halt, .start 1, .add,
    .timer .notify, .timer .notify, .timer .test,
    .timer (.calculate []), .timer .wake, .timer (.pop 1),
    .timer .call, .tick]

def afterWokenEarly : State :=
  (machine.exec .init wokenEarly).getD .init

theorem run_wokenEarly :
    machine.Run .init wokenEarly afterWokenEarly :=
  Machine.run_of_exec rfl

theorem sound_of_wokenEarly : Sound afterWokenEarly :=
  sound_of_run run_wokenEarly

example : afterWokenEarly.history =
    [.succeeded TimerQueue.millisecond 0 true] := by
  decide

end SleepNode

end Manipulator
