import Manipulator.Gateway
import Manipulator.Machine
import Manipulator.Messages
import Mathlib.Data.Rat.Floor

/-
  The conveyor action server, `conveyor.cpp`, and the topic
  `rpm_data` between it and the gateway.

  Every accepted goal runs `execute` on a thread of its own,
  and a step is one action of one thread, one callback, or
  the network taking a message. The network keeps the order
  of publication and may lose every message but the newest.
  A sensor reading that is no number is `none`; what the
  member `sensor_data` holds before the first reading is a
  parameter.

  Main declarations:
    * `Stage`, `Thread`, `Belt`
    * `machine`
    * `Settled`, `Ordered`
    * `belt_never_left_running`
-/

------------------------------------------------------------
-- States And Inputs
------------------------------------------------------------

namespace Manipulator

namespace Conveyor

/- Where a thread stands in `execute`. -/
inductive Stage where
-- before the first publish
| accepted
-- in the loop, with `run` set
| waiting
-- past the loop
| leaving
-- past the last publish
| stopped
| done
deriving DecidableEq, Repr

/- Between the first and the last publish. -/
def Stage.Between : Stage → Prop
| .waiting => True
| .leaving => True
| _ => False

instance (stage : Stage) : Decidable stage.Between := by
  unfold Stage.Between
  cases stage <;> infer_instance

structure Thread where
  stage : Stage
  handle : GoalHandle
deriving DecidableEq, Repr

/- What the threads did, for the histories below. -/
inductive Event (K : Type) where
| published (goal : Nat) (rpm : K)
| cancelAccepted (goal : Nat)
| ended (goal : Nat) (handle : GoalHandle)

/-
  The server, the messages in flight, the oldest first, and
  the gateway. The goals are numbered as they are accepted.
-/
structure Belt (K : Type) where
  sensorData : Option K
  threads : List Thread
  inFlight : List K
  gateway : Gateway
  history : List (Event K)

inductive Input (K : Type) where
| goal
| sensor (reading : Option K)
| cancel (goal : Nat)
-- one action of the thread of a goal
| run (goal : Nat)
| deliver
| lose (position : Nat)
| angleData (angles : Fin 6 → K)

variable {K : Type} [Field K] [LinearOrder K]

def Belt.init (sensorData : Option K) : Belt K where
  sensorData := sensorData
  threads := []
  inFlight := []
  gateway := .init
  history := []

------------------------------------------------------------
-- Steps
------------------------------------------------------------

/- `sensor_data < 18.0f`. -/
def below : Option K → Prop
| some reading => reading < 18
| none => False

instance (reading : Option K) : Decidable (below reading) := by
  unfold below
  cases reading <;> infer_instance

namespace Belt

/- Replace the thread of a goal. -/
def setThread
    (goal : Nat) (t : Thread) (b : Belt K) : Belt K :=
  { b with threads := b.threads.set goal t }

/- `pub->publish`. -/
def publish (goal : Nat) (rpm : K) (b : Belt K) : Belt K :=
  { b with
    inFlight := b.inFlight ++ [rpm]
    history := .published goal rpm :: b.history }

/- `goal_handle->succeed`. -/
def succeed
    (goal : Nat) (t : Thread) (b : Belt K) : Belt K :=
  { b.setThread goal ⟨.done, t.handle.succeed⟩ with
    history := .ended goal t.handle.succeed :: b.history }

/- The next action of the thread of a goal. -/
def execute
    (goal : Nat) (t : Thread) (b : Belt K) : Belt K :=
  match t.stage with
  | .accepted =>
      (b.publish goal 1000).setThread goal
        { t with stage := .waiting }
  | .waiting =>
      -- one pass of the loop
      if below b.sensorData then
        b.setThread goal { t with stage := .leaving }
      else b
  | .leaving =>
      (b.publish goal 0).setThread goal
        { t with stage := .stopped }
  | .stopped => b.succeed goal t
  | .done => b

def cancel
    (goal : Nat) (t : Thread) (b : Belt K) : Belt K :=
  { b.setThread goal { t with handle := t.handle.cancel } with
    history := .cancelAccepted goal :: b.history }

end Belt

/- A cancel request is accepted while its goal executes. -/
def Enabled (b : Belt K) : Input K → Prop
| .cancel goal =>
    ∃ t ∈ b.threads[goal]?, t.handle.Executing
| .run goal => ∃ t ∈ b.threads[goal]?, t.stage ≠ .done
| .deliver => b.inFlight ≠ []
-- the newest message is never lost
| .lose position => position + 1 < b.inFlight.length
| _ => True

instance (b : Belt K) (i : Input K) :
    Decidable (Enabled b i) := by
  unfold Enabled
  cases i <;> infer_instance

section Steps

variable [FloorSemiring K]

def step (b : Belt K) : Input K → Except GatewayError (Belt K)
| .goal =>
    .ok { b with threads := b.threads ++ [⟨.accepted, .new⟩] }
| .sensor reading => .ok { b with sensorData := reading }
| .cancel goal =>
    match b.threads[goal]? with
    | some t => .ok (b.cancel goal t)
    | none => .ok b
| .run goal =>
    match b.threads[goal]? with
    | some t => .ok (b.execute goal t)
    | none => .ok b
| .deliver =>
    match b.inFlight with
    | [] => .ok b
    | rpm :: later => do
        let gateway ← b.gateway.rpmCallback rpm
        return { b with inFlight := later, gateway := gateway }
| .lose position =>
    .ok { b with inFlight := b.inFlight.eraseIdx position }
| .angleData angles => do
    let gateway ← b.gateway.anglesCallback angles
    return { b with gateway := gateway }

def machine : Machine (Belt K) (Input K) GatewayError where
  Enabled := Enabled
  step := step

instance (b : Belt K) (i : Input K) :
    Decidable ((machine : Machine (Belt K) _ _).Enabled b i) :=
  inferInstanceAs (Decidable (Enabled b i))

end Steps

------------------------------------------------------------
-- The Last Command
------------------------------------------------------------

/- The last value published on `rpm_data`, and by whom. -/
def lastPublished {K : Type} :
    List (Event K) → Option (Nat × K)
| [] => none
| .published goal rpm :: _ => some (goal, rpm)
| _ :: earlier => lastPublished earlier

/-
  A belt that was started last by a goal is waited for by
  that goal.
-/
def Settled (b : Belt K) : Prop :=
  ∀ goal rpm, lastPublished b.history = some (goal, rpm) →
    rpm = 0 ∨ ∃ t : Thread, b.threads[goal]? = some t ∧
      rpm = 1000 ∧ t.stage.Between

/-
  The newest message in flight is the last command; when
  none is, the gateway has obeyed it.
-/
def Ordered [FloorSemiring K] (b : Belt K) : Prop :=
  match b.inFlight.getLast? with
  | some rpm =>
      ∃ goal, lastPublished b.history = some (goal, rpm)
  | none =>
      match lastPublished b.history with
      | some (_, rpm) =>
          Gateway.toUInt16 rpm = .ok b.gateway.rpm
      | none => b.gateway.rpm = 0

namespace Settled

variable {b : Belt K}

omit [LinearOrder K] in
theorem init (sensorData : Option K) :
    Settled (Belt.init sensorData) := by
  intro goal rpm hLast
  cases hLast

omit [LinearOrder K] in
/-
  A step that publishes nothing and leaves every thread
  between its publishes there.
-/
theorem frame
    {b' : Belt K}
    (hSettled : Settled b)
    (hLast :
      lastPublished b'.history = lastPublished b.history)
    (hThreads :
      ∀ (goal : Nat) (t : Thread),
        b.threads[goal]? = some t → t.stage.Between →
          ∃ t' : Thread, b'.threads[goal]? = some t' ∧
            t'.stage.Between) :
    Settled b' := by
  intro goal rpm hPublished
  rw [hLast] at hPublished
  rcases hSettled goal rpm hPublished with
    hZero | ⟨t, hThread, hStarted, hBetween⟩
  · exact .inl hZero
  · rcases hThreads goal t hThread hBetween with
      ⟨t', hThread', hBetween'⟩
    exact .inr ⟨t', hThread', hStarted, hBetween'⟩

omit [Field K] [LinearOrder K] in
/- Replacing the thread of a goal by one as far between. -/
theorem between_setThread
    {goal : Nat} {t t' : Thread}
    (hThread : b.threads[goal]? = some t)
    (hStage : t.stage.Between → t'.stage.Between) :
    ∀ (other : Nat) (u : Thread),
      b.threads[other]? = some u → u.stage.Between →
        ∃ u' : Thread,
          (b.threads.set goal t')[other]? = some u' ∧
            u'.stage.Between := by
  intro other u hOther hBetween
  by_cases hSame : goal = other
  · subst hSame
    rw [hThread] at hOther
    cases hOther
    have hLength : goal < b.threads.length :=
      (List.getElem?_eq_some_iff.mp hThread).1
    refine ⟨t', ?_, hStage hBetween⟩
    simp [hLength]
  · refine ⟨u, ?_, hBetween⟩
    rw [List.getElem?_set_ne hSame]
    exact hOther

/- The action of a thread. -/
theorem execute
    {goal : Nat} {t : Thread}
    (hSettled : Settled b)
    (hThread : b.threads[goal]? = some t) :
    Settled (b.execute goal t) := by
  have hLength : goal < b.threads.length :=
    (List.getElem?_eq_some_iff.mp hThread).1
  unfold Belt.execute
  cases hStage : t.stage with
  | accepted =>
      -- the goal that starts the belt waits for it
      intro other rpm hPublished
      cases hPublished
      refine .inr ⟨{ t with stage := .waiting }, ?_, rfl, trivial⟩
      simp [Belt.setThread, Belt.publish, hLength]
  | waiting =>
      by_cases hBelow : below b.sensorData
      · simp only [hBelow, if_true]
        apply hSettled.frame
        · rfl
        · exact between_setThread hThread fun _ => trivial
      · simp only [hBelow, if_false]
        exact hSettled
  | leaving =>
      intro other rpm hPublished
      cases hPublished
      exact .inl rfl
  | stopped =>
      apply hSettled.frame
      · rfl
      · apply between_setThread hThread
        intro hBetween
        rw [hStage] at hBetween
        exact hBetween.elim
  | done => exact hSettled

theorem step
    [FloorSemiring K]
    {b' : Belt K} {i : Input K}
    (hSettled : Settled b)
    (hStep : Conveyor.step b i = .ok b') : Settled b' := by
  cases i with
  | goal =>
      cases hStep
      apply hSettled.frame
      · rfl
      · intro goal t hThread hBetween
        have hLength : goal < b.threads.length :=
          (List.getElem?_eq_some_iff.mp hThread).1
        refine ⟨t, ?_, hBetween⟩
        rw [List.getElem?_append_left hLength]
        exact hThread
  | sensor reading =>
      cases hStep
      exact hSettled
  | cancel goal =>
      simp only [Conveyor.step] at hStep
      cases hThread : b.threads[goal]? with
      | none =>
          rw [hThread] at hStep
          cases hStep
          exact hSettled
      | some t =>
          rw [hThread] at hStep
          cases hStep
          apply hSettled.frame
          · rfl
          · exact between_setThread hThread id
  | run goal =>
      simp only [Conveyor.step] at hStep
      cases hThread : b.threads[goal]? with
      | none =>
          rw [hThread] at hStep
          cases hStep
          exact hSettled
      | some t =>
          rw [hThread] at hStep
          cases hStep
          exact hSettled.execute hThread
  | deliver =>
      simp only [Conveyor.step] at hStep
      cases hQueue : b.inFlight with
      | nil =>
          rw [hQueue] at hStep
          cases hStep
          exact hSettled
      | cons rpm later =>
          rw [hQueue] at hStep
          rcases bind_eq_ok.mp hStep with ⟨gateway, _, hStep⟩
          cases hStep
          exact hSettled
  | lose position =>
      cases hStep
      exact hSettled
  | angleData angles =>
      rcases bind_eq_ok.mp hStep with ⟨gateway, _, hStep⟩
      cases hStep
      exact hSettled

end Settled

namespace Ordered

variable [FloorSemiring K] {b : Belt K}

theorem init (sensorData : Option K) :
    Ordered (Belt.init sensorData) := by
  simp [Ordered, Belt.init, lastPublished, Gateway.init]

/- A publish puts the last command last in flight. -/
theorem publish
    (goal : Nat) (rpm : K) : Ordered (b.publish goal rpm) := by
  simp [Ordered, Belt.publish, lastPublished]

/- A step that neither publishes nor delivers. -/
theorem frame
    {b' : Belt K}
    (hOrdered : Ordered b)
    (hLast :
      lastPublished b'.history = lastPublished b.history)
    (hQueue : b'.inFlight.getLast? = b.inFlight.getLast?)
    (hRpm : b'.gateway.rpm = b.gateway.rpm) :
    Ordered b' := by
  unfold Ordered
  rw [hLast, hQueue, hRpm]
  exact hOrdered

theorem execute
    (goal : Nat) (t : Thread)
    (hOrdered : Ordered b) : Ordered (b.execute goal t) := by
  unfold Belt.execute
  cases t.stage with
  | accepted =>
      exact (publish goal 1000 : Ordered (b.publish goal 1000))
  | waiting =>
      by_cases hBelow : below b.sensorData
      · simp only [hBelow, if_true]
        exact hOrdered
      · simp only [hBelow, if_false]
        exact hOrdered
  | leaving =>
      exact (publish goal 0 : Ordered (b.publish goal 0))
  | stopped => exact hOrdered
  | done => exact hOrdered

/- The newest element outlives the loss of another. -/
theorem getLast?_eraseIdx
    {α : Type} {xs : List α} {i : Nat}
    (hOld : i + 1 < xs.length) :
    (xs.eraseIdx i).getLast? = xs.getLast? := by
  induction xs generalizing i with
  | nil => cases hOld
  | cons x xs ih =>
      have hSome : xs ≠ [] := by
        rintro rfl
        simp at hOld
      cases i with
      | zero =>
          rw [List.eraseIdx_cons_zero,
            List.getLast?_cons_of_ne_nil hSome]
      | succ i =>
          have hTail : i + 1 < xs.length := by
            simpa using hOld
          have hErased : xs.eraseIdx i ≠ [] := by
            intro hNil
            have hNone := ih hTail
            rw [hNil] at hNone
            exact hSome (List.getLast?_eq_none_iff.mp hNone.symm)
          rw [List.eraseIdx_cons_succ,
            List.getLast?_cons_of_ne_nil hErased, ih hTail,
            List.getLast?_cons_of_ne_nil hSome]

/- Losing a message that is not the newest. -/
theorem lose
    {position : Nat}
    (hOrdered : Ordered b)
    (hOld : position + 1 < b.inFlight.length) :
    Ordered
      { b with inFlight := b.inFlight.eraseIdx position } := by
  apply hOrdered.frame
  · rfl
  · exact getLast?_eraseIdx hOld
  · rfl

/- The gateway obeys the oldest message. -/
theorem deliver
    {rpm : K} {later : List K} {gateway : Gateway}
    (hOrdered : Ordered b)
    (hQueue : b.inFlight = rpm :: later)
    (hCallback : b.gateway.rpmCallback rpm = .ok gateway) :
    Ordered { b with inFlight := later, gateway := gateway } := by
  unfold Ordered at hOrdered ⊢
  rw [hQueue] at hOrdered
  rcases bind_eq_ok.mp hCallback with ⟨value, hValue, hGateway⟩
  cases hGateway
  cases later with
  | cons next rest =>
      rw [List.getLast?_cons_cons] at hOrdered
      exact hOrdered
  | nil =>
      rcases hOrdered with ⟨goal, hLast⟩
      simp only [List.getLast?_nil, hLast]
      exact hValue

theorem step
    {b' : Belt K} {i : Input K}
    (hOrdered : Ordered b)
    (hEnabled : Enabled b i)
    (hStep : Conveyor.step b i = .ok b') : Ordered b' := by
  cases i with
  | goal =>
      cases hStep
      exact hOrdered
  | sensor reading =>
      cases hStep
      exact hOrdered
  | cancel goal =>
      rcases hEnabled with ⟨t, hThread, _⟩
      rw [Option.mem_def] at hThread
      simp only [Conveyor.step, hThread] at hStep
      cases hStep
      exact hOrdered
  | run goal =>
      rcases hEnabled with ⟨t, hThread, _⟩
      rw [Option.mem_def] at hThread
      simp only [Conveyor.step, hThread] at hStep
      cases hStep
      exact hOrdered.execute goal t
  | deliver =>
      simp only [Conveyor.step] at hStep
      cases hQueue : b.inFlight with
      | nil => exact absurd hQueue hEnabled
      | cons rpm later =>
          rw [hQueue] at hStep
          rcases bind_eq_ok.mp hStep with
            ⟨gateway, hCallback, hStep⟩
          cases hStep
          exact hOrdered.deliver hQueue hCallback
  | lose position =>
      cases hStep
      exact hOrdered.lose hEnabled
  | angleData angles =>
      rcases bind_eq_ok.mp hStep with
        ⟨gateway, hCallback, hStep⟩
      cases hStep
      apply hOrdered.frame
      · rfl
      · rfl
      · exact Gateway.rpm_anglesCallback hCallback

end Ordered

------------------------------------------------------------
-- Every Run
------------------------------------------------------------

/-
  Whatever the goals, the threads, the readings and the
  network do: when no thread is between its two publishes
  and no message is in flight, the last command is 0, if
  there was one, and the gateway tells the belt to stop.
-/
theorem belt_never_left_running
    [FloorSemiring K] [IsStrictOrderedRing K]
    {sensorData : Option K}
    {is : List (Input K)} {b : Belt K}
    (hRun : machine.Run (Belt.init sensorData) is b)
    (hThreads : ∀ t ∈ b.threads, ¬ t.stage.Between)
    (hQueue : b.inFlight = []) :
    (∀ goal rpm, lastPublished b.history = some (goal, rpm) →
        rpm = 0) ∧
      b.gateway.rpm = 0 ∧
      ∃ servos, b.gateway.frame = servos ++ ",0\n" := by
  have hHolds : Settled b ∧ Ordered b := by
    apply hRun.invariant (P := fun b => Settled b ∧ Ordered b)
    · exact ⟨.init sensorData, .init sensorData⟩
    · intro c i d hHolds hEnabled hStep
      exact
        ⟨hHolds.1.step hStep, hHolds.2.step hEnabled hStep⟩
  rcases hHolds with ⟨hSettled, hOrdered⟩
  have hZero :
      ∀ goal rpm, lastPublished b.history = some (goal, rpm) →
        rpm = 0 := by
    intro goal rpm hLast
    rcases hSettled goal rpm hLast with
      hZero | ⟨t, hThread, _, hBetween⟩
    · exact hZero
    · exact absurd hBetween
        (hThreads t (List.mem_of_getElem? hThread))
  have hRpm : b.gateway.rpm = 0 := by
    unfold Ordered at hOrdered
    rw [hQueue, List.getLast?_nil] at hOrdered
    cases hLast : lastPublished b.history with
    | none =>
        rw [hLast] at hOrdered
        exact hOrdered
    | some last =>
        rcases last with ⟨goal, rpm⟩
        rw [hLast] at hOrdered
        rw [hZero goal rpm hLast] at hOrdered
        have hCast := Gateway.toUInt16_zero.symm.trans hOrdered
        exact (Except.ok.inj hCast).symm
  refine ⟨hZero, hRpm, ?_⟩
  rcases Gateway.frame_ends b.gateway with ⟨servos, hFrame⟩
  refine ⟨servos, ?_⟩
  have hEnd : "," ++ (toString (0 : UInt16) ++ "\n") = ",0\n" := by
    decide
  rw [hFrame, hRpm, String.append_assoc, String.append_assoc,
    hEnd]

/- One goal, an object that arrives, and a lost message. -/
theorem belt_never_left_running_once :
    ∃ b : Belt ℚ,
      machine.Run (Belt.init none)
          [.goal, .run 0, .run 0, .sensor (some 5), .run 0,
            .run 0, .lose 0, .deliver] b ∧
        b.gateway.rpm = 0 := by
  have hSome :
      ∃ b ∈ machine.exec (Belt.init (none : Option ℚ))
          [.goal, .run 0, .run 0, .sensor (some 5), .run 0,
            .run 0, .lose 0, .deliver],
        (∀ t ∈ b.threads, ¬ t.stage.Between) ∧
          b.inFlight = [] := by
    decide +kernel
  rcases hSome with ⟨b, hExec, hThreads, hQueue⟩
  have hRun := Machine.run_of_exec (Option.mem_def.mp hExec)
  exact
    ⟨b, hRun,
      (belt_never_left_running hRun hThreads hQueue).2.1⟩

end Conveyor

end Manipulator
