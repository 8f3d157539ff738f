import Manipulator.Conveyor

/-
  What a conveyor goal succeeds on.

  The member `sensor_data` is not initialised. A thread that
  reads it before the first message decides on what the memory
  held.

  Main declarations:
    * `Conveyor.actions`, `Conveyor.quiet`
    * `Conveyor.thread_cases`
    * `Conveyor.Logged`
    * `Conveyor.succeeds_on_reading_iff`
-/

------------------------------------------------------------
-- Inputs Before The First Reading
------------------------------------------------------------

namespace Manipulator

namespace Conveyor

section Inputs

variable {K : Type}

def isSensor : Input K → Bool
| .sensor _ => true
| _ => false

def isRun (goal : Nat) : Input K → Bool
| .run other => other == goal
| _ => false

/- The number of actions of the thread of a goal. -/
def actions (goal : Nat) (is : List (Input K)) : Nat :=
  is.countP (isRun goal)

/- The inputs before the first sensor message. -/
def quiet (is : List (Input K)) : List (Input K) :=
  is.takeWhile (fun i => !isSensor i)

theorem quiet_append_of_quiet
    {is : List (Input K)}
    (js : List (Input K))
    (hQuiet : ∀ i ∈ is, isSensor i = false) :
    quiet (is ++ js) = is ++ quiet js := by
  apply List.takeWhile_append_of_pos
  intro i hi
  simp [hQuiet i hi]

theorem quiet_append_of_sensor
    {is : List (Input K)}
    {i : Input K}
    (js : List (Input K))
    (hMember : i ∈ is)
    (hSensor : isSensor i = true) :
    quiet (is ++ js) = quiet is := by
  induction is with
  | nil => cases hMember
  | cons j is ih =>
      rw [List.cons_append, quiet, quiet, List.takeWhile_cons,
        List.takeWhile_cons]
      by_cases hFirst : isSensor j = true
      · simp [hFirst]
      · rcases List.mem_cons.mp hMember with hSame | hLater
        · exact absurd (hSame ▸ hSensor) hFirst
        · exact
            congrArg
              (fun rest =>
                if (!isSensor j) = true then j :: rest else [])
              (ih hLater)

theorem actions_append
    (goal : Nat)
    (is js : List (Input K)) :
    actions goal (is ++ js) =
      actions goal is + actions goal js :=
  List.countP_append

theorem actions_quiet_le
    (goal : Nat)
    (is : List (Input K)) :
    actions goal (quiet is) ≤ actions goal is :=
  (List.takeWhile_sublist _).countP_le

/- Only an action of the goal's thread is counted. -/
theorem actions_quiet_concat
    {goal : Nat} {i : Input K}
    (is : List (Input K))
    (hOther : isRun goal i = false) :
    actions goal (quiet (is ++ [i])) =
      actions goal (quiet is) := by
  by_cases hQuiet : ∀ j ∈ is, isSensor j = false
  · have hSelf : quiet is = is := by
      simpa [quiet] using quiet_append_of_quiet [] hQuiet
    have hLast : actions goal (quiet [i]) = 0 := by
      have hLe := actions_quiet_le goal [i]
      simpa [actions, hOther] using hLe
    rw [quiet_append_of_quiet [i] hQuiet, actions_append, hLast,
      hSelf, Nat.add_zero]
  · push Not at hQuiet
    rcases hQuiet with ⟨j, hMember, hSensor⟩
    rw [quiet_append_of_sensor [i] hMember (by simpa using hSensor)]

end Inputs

------------------------------------------------------------
-- One Thread
------------------------------------------------------------

variable {K : Type} [Field K] [LinearOrder K]

/- The next action of a thread, as far as it goes itself. -/
def Thread.act
    (sensorData : Option K) (t : Thread) : Thread :=
  match t.stage with
  | .accepted => { t with stage := .waiting }
  | .waiting =>
      if below sensorData then { t with stage := .leaving }
      else t
  | .leaving => { t with stage := .stopped }
  | .stopped => ⟨.done, t.handle.succeed⟩
  | .done => t

def Thread.cancel (t : Thread) : Thread :=
  { t with handle := t.handle.cancel }

/- The threads after an input. -/
def threadsAfter (b : Belt K) : Input K → List Thread
| .goal => b.threads ++ [⟨.accepted, .new⟩]
| .cancel goal => b.threads.modify goal Thread.cancel
| .run goal => b.threads.modify goal (Thread.act b.sensorData)
| .sensor _ => b.threads
| .deliver => b.threads
| .lose _ => b.threads
| .angleData _ => b.threads

theorem modify_eq_set
    {threads : List Thread} {goal : Nat} {t : Thread}
    (f : Thread → Thread)
    (hThread : threads[goal]? = some t) :
    threads.modify goal f = threads.set goal (f t) := by
  have hLength := (List.getElem?_eq_some_iff.mp hThread).1
  apply List.ext_getElem?
  intro other
  by_cases hSame : goal = other
  · subst hSame
    rw [List.getElem?_modify_eq, hThread,
      List.getElem?_set_self hLength]
    rfl
  · rw [List.getElem?_modify_ne f threads hSame,
      List.getElem?_set_ne hSame]

theorem threads_execute
    {b : Belt K} {goal : Nat} {t : Thread}
    (hThread : b.threads[goal]? = some t) :
    (b.execute goal t).threads =
        b.threads.modify goal (Thread.act b.sensorData) ∧
      (b.execute goal t).sensorData = b.sensorData := by
  have hSame : b.threads.set goal t = b.threads := by
    rcases List.getElem?_eq_some_iff.mp hThread with
      ⟨hLength, hGet⟩
    rw [← hGet]
    exact List.set_getElem_self hLength
  rw [modify_eq_set _ hThread]
  unfold Belt.execute Thread.act
  cases t.stage with
  | accepted => exact ⟨rfl, rfl⟩
  | waiting =>
      by_cases hBelow : below b.sensorData
      · simp only [hBelow, if_true]
        exact ⟨rfl, rfl⟩
      · simp only [hBelow, if_false]
        exact ⟨hSame.symm, trivial⟩
  | leaving => exact ⟨rfl, rfl⟩
  | stopped => exact ⟨rfl, rfl⟩
  | done => exact ⟨hSame.symm, rfl⟩

variable [FloorSemiring K]

/- What an input does to the threads and to `sensor_data`. -/
theorem step_effect
    {b b' : Belt K} {i : Input K}
    (hEnabled : Enabled b i)
    (hStep : Conveyor.step b i = .ok b') :
    b'.threads = threadsAfter b i ∧
      (i = .sensor b'.sensorData ∨
        isSensor i = false ∧
          b'.sensorData = b.sensorData) := by
  cases i with
  | goal =>
      cases hStep
      exact ⟨rfl, .inr ⟨rfl, rfl⟩⟩
  | sensor reading =>
      cases hStep
      exact ⟨rfl, .inl rfl⟩
  | cancel goal =>
      rcases hEnabled with ⟨t, hThread, _⟩
      rw [Option.mem_def] at hThread
      simp only [Conveyor.step, hThread] at hStep
      cases hStep
      exact
        ⟨(modify_eq_set Thread.cancel hThread).symm,
          .inr ⟨rfl, rfl⟩⟩
  | run goal =>
      rcases hEnabled with ⟨t, hThread, _⟩
      rw [Option.mem_def] at hThread
      simp only [Conveyor.step, hThread] at hStep
      cases hStep
      rcases threads_execute hThread with ⟨hThreads, hSensor⟩
      exact ⟨hThreads, .inr ⟨rfl, hSensor⟩⟩
  | deliver =>
      simp only [Conveyor.step] at hStep
      cases hQueue : b.inFlight with
      | nil => exact absurd hQueue hEnabled
      | cons rpm later =>
          rw [hQueue] at hStep
          rcases bind_eq_ok.mp hStep with ⟨gateway, _, hStep⟩
          cases hStep
          exact ⟨rfl, .inr ⟨rfl, rfl⟩⟩
  | lose position =>
      cases hStep
      exact ⟨rfl, .inr ⟨rfl, rfl⟩⟩
  | angleData angles =>
      rcases bind_eq_ok.mp hStep with ⟨gateway, _, hStep⟩
      cases hStep
      exact ⟨rfl, .inr ⟨rfl, rfl⟩⟩

omit [FloorSemiring K] in
/-
  What an input does to the thread of a goal: the thread acts,
  or it is new, or it stays where it is.
-/
theorem thread_cases
    {b : Belt K} {i : Input K} {goal : Nat} {t' : Thread}
    (hThread' : (threadsAfter b i)[goal]? = some t') :
    (i = .run goal ∧
      ∃ t, b.threads[goal]? = some t ∧
        t' = t.act b.sensorData) ∨
    isRun goal i = false ∧
      (b.threads[goal]? = none ∧ t' = ⟨.accepted, .new⟩ ∨
        ∃ t, b.threads[goal]? = some t ∧
          t'.stage = t.stage ∧
          t'.handle.ended = t.handle.ended) := by
  cases i with
  | goal =>
      refine .inr ⟨rfl, ?_⟩
      unfold threadsAfter at hThread'
      by_cases hLength : goal < b.threads.length
      · rw [List.getElem?_append_left hLength] at hThread'
        exact .inr ⟨t', hThread', rfl, rfl⟩
      · rw [List.getElem?_append_right (not_lt.mp hLength)]
          at hThread'
        have hNew := List.mem_of_getElem? hThread'
        rw [List.mem_singleton] at hNew
        exact
          .inl
            ⟨List.getElem?_eq_none (not_lt.mp hLength), hNew⟩
  | cancel other =>
      refine .inr ⟨rfl, .inr ?_⟩
      unfold threadsAfter at hThread'
      by_cases hSame : other = goal
      · subst hSame
        rw [List.getElem?_modify_eq] at hThread'
        rcases Option.map_eq_some_iff.mp hThread' with
          ⟨t, hThread, rfl⟩
        exact ⟨t, hThread, rfl, rfl⟩
      · rw [List.getElem?_modify_ne _ _ hSame] at hThread'
        exact ⟨t', hThread', rfl, rfl⟩
  | run other =>
      unfold threadsAfter at hThread'
      by_cases hSame : other = goal
      · subst hSame
        rw [List.getElem?_modify_eq] at hThread'
        rcases Option.map_eq_some_iff.mp hThread' with
          ⟨t, hThread, hAct⟩
        exact .inl ⟨rfl, t, hThread, hAct.symm⟩
      · rw [List.getElem?_modify_ne _ _ hSame] at hThread'
        exact
          .inr ⟨by simp [isRun, hSame],
            .inr ⟨t', hThread', rfl, rfl⟩⟩
  | sensor reading =>
      exact .inr ⟨rfl, .inr ⟨t', hThread', rfl, rfl⟩⟩
  | deliver =>
      exact .inr ⟨rfl, .inr ⟨t', hThread', rfl, rfl⟩⟩
  | lose position =>
      exact .inr ⟨rfl, .inr ⟨t', hThread', rfl, rfl⟩⟩
  | angleData angles =>
      exact .inr ⟨rfl, .inr ⟨t', hThread', rfl, rfl⟩⟩

omit [FloorSemiring K] in
/- A goal stays known, and only a known one acts. -/
theorem unknown_cases
    {b : Belt K} {i : Input K} {goal : Nat}
    (hEnabled : Enabled b i)
    (hNone : (threadsAfter b i)[goal]? = none) :
    b.threads[goal]? = none ∧ isRun goal i = false := by
  have hLonger :
      b.threads.length ≤ (threadsAfter b i).length := by
    cases i <;> simp [threadsAfter]
  have hOld : b.threads[goal]? = none :=
    List.getElem?_eq_none
      (hLonger.trans (List.getElem?_eq_none_iff.mp hNone))
  refine ⟨hOld, ?_⟩
  by_contra hRun
  rw [Bool.not_eq_false] at hRun
  cases i with
  | run other =>
      rcases hEnabled with ⟨t, hThread, _⟩
      rw [Option.mem_def, beq_iff_eq.mp hRun, hOld] at hThread
      cases hThread
  | goal => cases hRun
  | sensor reading => cases hRun
  | cancel other => cases hRun
  | deliver => cases hRun
  | lose position => cases hRun
  | angleData angles => cases hRun

------------------------------------------------------------
-- The Pass That Ends A Loop
------------------------------------------------------------

/- The fewest actions that bring a thread to a stage. -/
def Stage.least : Stage → Nat
| .accepted => 0
| .waiting => 1
| .leaving => 2
| .stopped => 3
| .done => 4

namespace Stage

theorem one_le_least
    {stage : Stage}
    (hStarted : stage ≠ .accepted) : 1 ≤ stage.least := by
  cases stage with
  | accepted => exact absurd rfl hStarted
  | waiting => decide
  | leaving => decide
  | stopped => decide
  | done => decide

theorem eq_done_of_least
    {stage : Stage}
    (hLeast : 4 ≤ stage.least) : stage = .done := by
  cases stage with
  | done => rfl
  | accepted => exact absurd hLeast (by decide)
  | waiting => exact absurd hLeast (by decide)
  | leaving => exact absurd hLeast (by decide)
  | stopped => exact absurd hLeast (by decide)

theorem eq_waiting_of_least
    {stage : Stage}
    (hLeast : stage.least = 1) : stage = .waiting := by
  cases stage with
  | waiting => rfl
  | accepted => cases hLeast
  | leaving => cases hLeast
  | stopped => cases hLeast
  | done => cases hLeast

end Stage

omit [FloorSemiring K] in
/-
  A thread that is not done waits on, or goes on by one stage;
  the last one marks its goal.
-/
theorem act_cases
    (sensorData : Option K)
    {t : Thread}
    (hOpen : t.stage ≠ .done) :
    t.stage = .waiting ∧ ¬ below sensorData ∧
        t.act sensorData = t ∨
      (t.stage = .waiting → below sensorData) ∧
        (t.act sensorData).stage.least = t.stage.least + 1 ∧
        ((t.act sensorData).stage = .done ∧
            (t.act sensorData).handle.ended =
              some .succeeded ∨
          (t.act sensorData).stage ≠ .done ∧
            (t.act sensorData).handle = t.handle) := by
  unfold Thread.act
  cases hStage : t.stage with
  | accepted => exact .inr ⟨by simp, rfl, .inr ⟨by simp, rfl⟩⟩
  | waiting =>
      by_cases hBelow : below sensorData
      · simp only [hBelow, if_true]
        exact .inr ⟨by simp, rfl, .inr ⟨by simp, trivial⟩⟩
      · simp only [hBelow, if_false]
        exact .inl ⟨trivial, not_false, trivial⟩
  | leaving => exact .inr ⟨by simp, rfl, .inr ⟨by simp, rfl⟩⟩
  | stopped => exact .inr ⟨by simp, rfl, .inl ⟨rfl, rfl⟩⟩
  | done => exact absurd hStage hOpen

/-
  The pass with which the loop of a goal ended: what came
  before it, and the state that it read.
-/
def LoopEnded
    (sensorData : Option K)
    (goal : Nat)
    (is before : List (Input K))
    (c : Belt K) : Prop :=
  (∃ after, is = before ++ .run goal :: after) ∧
    machine.Run (Belt.init sensorData) before c ∧
    (∃ t, c.threads[goal]? = some t ∧ t.stage = .waiting) ∧
    below c.sensorData

/-
  What the inputs say of the thread of a goal. A goal with two
  actions before the first message, over a memory below 18,
  has gone on by one stage with each of its actions.
-/
structure Logged
    (sensorData : Option K)
    (goal : Nat)
    (is : List (Input K))
    (b : Belt K) : Prop where
  unknown :
    b.threads[goal]? = none → actions goal is = 0
  accepted :
    ∀ t, b.threads[goal]? = some t → t.stage = .accepted →
      actions goal is = 0
  count :
    ∀ t, b.threads[goal]? = some t →
      t.stage.least ≤ actions goal is
  quick :
    ∀ t, b.threads[goal]? = some t → below sensorData →
      2 ≤ actions goal (quiet is) →
        2 ≤ t.stage.least ∧ actions goal is = t.stage.least
  past :
    ∀ t, b.threads[goal]? = some t → 2 ≤ t.stage.least →
      ∃ before c, LoopEnded sensorData goal is before c
  ended :
    ∀ t, b.threads[goal]? = some t →
      (t.stage = .done → t.handle.ended = some .succeeded) ∧
        (t.stage ≠ .done → t.handle.ended = none)
  member :
    .sensor b.sensorData ∈ is ∨
      b.sensorData = sensorData ∧ ∀ i ∈ is, isSensor i = false

namespace Logged

variable
  {sensorData : Option K}
  {goal : Nat} {is : List (Input K)} {b : Belt K}

theorem init :
    Logged sensorData goal [] (Belt.init sensorData) where
  unknown _ := rfl
  accepted t hThread := by simp [Belt.init] at hThread
  count t hThread := by simp [Belt.init] at hThread
  quick t hThread := by simp [Belt.init] at hThread
  past t hThread := by simp [Belt.init] at hThread
  ended t hThread := by simp [Belt.init] at hThread
  member := .inr ⟨rfl, by simp⟩

theorem member_concat
    {b' : Belt K} {i : Input K}
    (hLogged : Logged sensorData goal is b)
    (hSensor :
      i = .sensor b'.sensorData ∨
        isSensor i = false ∧ b'.sensorData = b.sensorData) :
    .sensor b'.sensorData ∈ is ++ [i] ∨
      b'.sensorData = sensorData ∧
        ∀ j ∈ is ++ [i], isSensor j = false := by
  rcases hSensor with hSensor | ⟨hOther, hSame⟩
  · exact .inl (by simp [← hSensor])
  · rw [hSame]
    rcases hLogged.member with hMember | ⟨hFirst, hQuiet⟩
    · exact .inl (List.mem_append_left [i] hMember)
    · refine .inr ⟨hFirst, ?_⟩
      intro j hj
      rcases List.mem_append.mp hj with hOld | hNew
      · exact hQuiet j hOld
      · rw [List.mem_singleton.mp hNew]
        exact hOther

/- An ended loop stays ended. -/
theorem past_concat
    (i : Input K)
    (hEnded :
      ∃ before c, LoopEnded sensorData goal is before c) :
    ∃ before c,
      LoopEnded sensorData goal (is ++ [i]) before c := by
  rcases hEnded with ⟨before, c, ⟨after, hSplit⟩, hRest⟩
  exact ⟨before, c, ⟨after ++ [i], by simp [hSplit]⟩, hRest⟩

/- The thread of the goal does not act. -/
theorem step_other
    {b' : Belt K} {i : Input K}
    (hLogged : Logged sensorData goal is b)
    (hEnabled : Enabled b i)
    (hThreads : b'.threads = threadsAfter b i)
    (hSensor :
      i = .sensor b'.sensorData ∨
        isSensor i = false ∧ b'.sensorData = b.sensorData)
    (hOther : isRun goal i = false) :
    Logged sensorData goal (is ++ [i]) b' := by
  have hCount :
      actions goal (is ++ [i]) = actions goal is := by
    rw [actions_append]
    simp [actions, hOther]
  have hQuiet := actions_quiet_concat is hOther
  have hThread :
      ∀ t', b'.threads[goal]? = some t' →
        b.threads[goal]? = none ∧ t' = ⟨.accepted, .new⟩ ∨
          ∃ t, b.threads[goal]? = some t ∧
            t'.stage = t.stage ∧
            t'.handle.ended = t.handle.ended := by
    intro t' hSome
    rcases thread_cases (hThreads ▸ hSome) with
      ⟨rfl, -⟩ | ⟨-, hCases⟩
    · simp [isRun] at hOther
    · exact hCases
  constructor
  case unknown =>
    intro hNone
    rw [hCount]
    exact
      hLogged.unknown
        (unknown_cases hEnabled (hThreads ▸ hNone)).1
  case accepted =>
    intro t' hSome hStage
    rw [hCount]
    rcases hThread t' hSome with
      ⟨hNone, -⟩ | ⟨t, hOld, hSame, -⟩
    · exact hLogged.unknown hNone
    · exact hLogged.accepted t hOld (hSame ▸ hStage)
  case count =>
    intro t' hSome
    rw [hCount]
    rcases hThread t' hSome with
      ⟨-, rfl⟩ | ⟨t, hOld, hSame, -⟩
    · exact Nat.zero_le _
    · rw [hSame]
      exact hLogged.count t hOld
  case quick =>
    intro t' hSome hGarbage hTwo
    rw [hCount]
    rw [hQuiet] at hTwo
    rcases hThread t' hSome with
      ⟨hNone, -⟩ | ⟨t, hOld, hSame, -⟩
    · have hZero := hLogged.unknown hNone
      have hLe := actions_quiet_le goal is
      omega
    · rw [hSame]
      exact hLogged.quick t hOld hGarbage hTwo
  case past =>
    intro t' hSome hPast
    rcases hThread t' hSome with
      ⟨-, rfl⟩ | ⟨t, hOld, hSame, -⟩
    · exact absurd hPast (by decide)
    · rw [hSame] at hPast
      exact past_concat i (hLogged.past t hOld hPast)
  case ended =>
    intro t' hSome
    rcases hThread t' hSome with
      ⟨-, rfl⟩ | ⟨t, hOld, hSame, hHandle⟩
    · exact ⟨Stage.noConfusion, fun _ => rfl⟩
    · rw [hSame, hHandle]
      exact hLogged.ended t hOld
  case member =>
    exact hLogged.member_concat hSensor

/-
  An action of the goal is one more before the first message,
  unless a message has arrived.
-/
theorem quiet_run
    (hLogged : Logged sensorData goal is b) :
    actions goal (quiet (is ++ [.run goal])) =
        actions goal (quiet is) ∨
      b.sensorData = sensorData ∧ quiet is = is := by
  rcases hLogged.member with hSome | ⟨hFirst, hNone⟩
  · rw [quiet_append_of_sensor _ hSome rfl]
    exact .inl rfl
  · refine .inr ⟨hFirst, ?_⟩
    simpa [quiet] using quiet_append_of_quiet [] hNone

omit [Field K] [LinearOrder K] [FloorSemiring K] in
theorem actions_run (is : List (Input K)) :
    actions goal (is ++ [.run goal]) = actions goal is + 1 := by
  rw [actions_append]
  simp [actions, isRun]

/- The thread of the goal makes a pass and waits on. -/
theorem step_wait
    {b' : Belt K} {t : Thread}
    (hLogged : Logged sensorData goal is b)
    (hThread : b.threads[goal]? = some t)
    (hThread' : b'.threads[goal]? = some t)
    (hSensor : b'.sensorData = b.sensorData)
    (hWaits : t.stage = .waiting)
    (hNotBelow : ¬ below b.sensorData) :
    Logged sensorData goal (is ++ [.run goal]) b' := by
  have hSelf :
      ∀ t', b'.threads[goal]? = some t' → t' = t := by
    intro t' hSome
    exact Option.some.inj (hSome.symm.trans hThread')
  constructor
  case unknown =>
    intro hNone
    cases hThread'.symm.trans hNone
  case accepted =>
    intro t' hSome hStage
    rw [hSelf t' hSome, hWaits] at hStage
    cases hStage
  case count =>
    intro t' hSome
    have hLe := hLogged.count t hThread
    rw [hSelf t' hSome, actions_run]
    omega
  case quick =>
    intro t' hSome hGarbage hTwo
    rcases hLogged.quiet_run with hSame | ⟨hFirst, -⟩
    · have hOld :=
        hLogged.quick t hThread hGarbage (hSame ▸ hTwo)
      rw [hWaits] at hOld
      exact absurd hOld.1 (by decide)
    · exact absurd (hFirst ▸ hGarbage) hNotBelow
  case past =>
    intro t' hSome hPast
    rw [hSelf t' hSome, hWaits] at hPast
    exact absurd hPast (by decide)
  case ended =>
    intro t' hSome
    rw [hSelf t' hSome]
    exact hLogged.ended t hThread
  case member =>
    exact hLogged.member_concat (.inr ⟨rfl, hSensor⟩)

/- The thread of the goal goes on by one stage. -/
theorem step_advance
    {b' : Belt K} {t u : Thread}
    (hLogged : Logged sensorData goal is b)
    (hRun : machine.Run (Belt.init sensorData) is b)
    (hThread : b.threads[goal]? = some t)
    (hThread' : b'.threads[goal]? = some u)
    (hSensor : b'.sensorData = b.sensorData)
    (hOpen : t.stage ≠ .done)
    (hGoes : t.stage = .waiting → below b.sensorData)
    (hNext : u.stage.least = t.stage.least + 1)
    (hHandle :
      u.stage = .done ∧ u.handle.ended = some .succeeded ∨
        u.stage ≠ .done ∧ u.handle = t.handle) :
    Logged sensorData goal (is ++ [.run goal]) b' := by
  have hSelf :
      ∀ t', b'.threads[goal]? = some t' → t' = u := by
    intro t' hSome
    exact Option.some.inj (hSome.symm.trans hThread')
  constructor
  case unknown =>
    intro hNone
    cases hThread'.symm.trans hNone
  case accepted =>
    intro t' hSome hStage
    rw [hSelf t' hSome] at hStage
    rw [hStage] at hNext
    cases hNext
  case count =>
    intro t' hSome
    have hLe := hLogged.count t hThread
    rw [hSelf t' hSome, actions_run]
    omega
  case quick =>
    intro t' hSome hGarbage hTwo
    rw [hSelf t' hSome, actions_run, hNext]
    by_cases hOld : 2 ≤ actions goal (quiet is)
    · have hQuick := hLogged.quick t hThread hGarbage hOld
      omega
    · have hQuietLe :=
        actions_quiet_le goal (is ++ [.run goal])
      rcases hLogged.quiet_run with hSame | ⟨-, hAll⟩
      · omega
      · rw [actions_run] at hQuietLe
        rw [hAll] at hOld
        -- the second action, of a thread that has published
        have hOne : 1 ≤ t.stage.least := by
          apply Stage.one_le_least
          intro hStage
          have hZero := hLogged.accepted t hThread hStage
          omega
        have hLe := hLogged.count t hThread
        omega
  case past =>
    intro t' hSome hPast
    rw [hSelf t' hSome, hNext] at hPast
    by_cases hTwo : 2 ≤ t.stage.least
    · exact past_concat _ (hLogged.past t hThread hTwo)
    · have hWaits : t.stage = .waiting := by
        apply Stage.eq_waiting_of_least
        omega
      exact
        ⟨is, b, ⟨[], by simp⟩, hRun, ⟨t, hThread, hWaits⟩,
          hGoes hWaits⟩
  case ended =>
    intro t' hSome
    rw [hSelf t' hSome]
    rcases hHandle with ⟨hDone, hMarked⟩ | ⟨hNot, hKept⟩
    · exact ⟨fun _ => hMarked, fun hNot => absurd hDone hNot⟩
    · rw [hKept]
      refine ⟨fun hDone => absurd hDone hNot, fun _ => ?_⟩
      exact (hLogged.ended t hThread).2 hOpen
  case member =>
    exact hLogged.member_concat (.inr ⟨rfl, hSensor⟩)

/- The thread of the goal acts. -/
theorem step_run
    {b' : Belt K} {t : Thread}
    (hLogged : Logged sensorData goal is b)
    (hRun : machine.Run (Belt.init sensorData) is b)
    (hThread : b.threads[goal]? = some t)
    (hOpen : t.stage ≠ .done)
    (hThread' :
      b'.threads[goal]? = some (t.act b.sensorData))
    (hSensor : b'.sensorData = b.sensorData) :
    Logged sensorData goal (is ++ [.run goal]) b' := by
  rcases act_cases b.sensorData hOpen with
    ⟨hWaits, hNotBelow, hAct⟩ | ⟨hGoes, hNext, hHandle⟩
  · rw [hAct] at hThread'
    exact
      hLogged.step_wait hThread hThread' hSensor hWaits
        hNotBelow
  · exact
      hLogged.step_advance hRun hThread hThread' hSensor hOpen
        hGoes hNext hHandle

end Logged

theorem logged_of_run
    {sensorData : Option K}
    {is : List (Input K)} {b : Belt K}
    (goal : Nat)
    (hRun : machine.Run (Belt.init sensorData) is b) :
    Logged sensorData goal is b := by
  induction hRun with
  | nil => exact Logged.init
  | @snoc is b b' i hRun hEnabled hStep ih =>
      rcases step_effect hEnabled hStep with
        ⟨hThreads, hSensor⟩
      cases hOther : isRun goal i with
      | false =>
          exact ih.step_other hEnabled hThreads hSensor hOther
      | true =>
          cases i with
          | run other =>
              obtain rfl : other = goal := beq_iff_eq.mp hOther
              have hSame : b'.sensorData = b.sensorData := by
                rcases hSensor with hSensor | hSensor
                · cases hSensor
                · exact hSensor.2
              rcases hEnabled with ⟨t, hThread, hOpen⟩
              rw [Option.mem_def] at hThread
              refine ih.step_run hRun hThread hOpen ?_ hSame
              rw [hThreads, threadsAfter,
                List.getElem?_modify_eq, hThread]
              rfl
          | goal => cases hOther
          | sensor reading => cases hOther
          | cancel other => cases hOther
          | deliver => cases hOther
          | lose position => cases hOther
          | angleData angles => cases hOther

------------------------------------------------------------
-- Success
------------------------------------------------------------

omit [FloorSemiring K] in
/- The goals that are marked succeeded. -/
def Succeeded (b : Belt K) (goal : Nat) : Prop :=
  ∃ t, b.threads[goal]? = some t ∧
    t.handle.ended = some .succeeded

/-
  The loop of every succeeded goal was ended by a reading
  below 18 that was delivered before.
-/
def SucceedsOnReading
    (sensorData : Option K)
    (is : List (Input K))
    (b : Belt K) : Prop :=
  ∀ goal, Succeeded b goal →
    ∃ before c reading,
      LoopEnded sensorData goal is before c ∧
        c.sensorData = some reading ∧ reading < 18 ∧
        .sensor (some reading) ∈ before

/-
  A goal that got through on the memory alone succeeded
  without a reading.
-/
theorem few_of_succeeds
    {sensorData : Option K}
    {is : List (Input K)} {b : Belt K}
    (goal : Nat)
    (hRun : machine.Run (Belt.init sensorData) is b)
    (hReal : SucceedsOnReading sensorData is b)
    (hGarbage : below sensorData) :
    actions goal (quiet is) ≤ 1 ∨ actions goal is ≤ 3 := by
  have hLogged := logged_of_run goal hRun
  by_contra hMany
  rw [not_or, not_le, not_le] at hMany
  cases hThread : b.threads[goal]? with
  | none =>
      have hZero := hLogged.unknown hThread
      omega
  | some t =>
      have hQuick := hLogged.quick t hThread hGarbage hMany.1
      have hDone : t.stage = .done := by
        apply Stage.eq_done_of_least
        omega
      rcases hReal goal
          ⟨t, hThread, (hLogged.ended t hThread).1 hDone⟩ with
        ⟨before, c, reading, hEnded, -, -, hMember⟩
      rcases hEnded with
        ⟨⟨after, hSplit⟩, hBefore, ⟨u, hWaits, hStage⟩, -⟩
      have hThen := logged_of_run goal hBefore
      rw [hSplit, quiet_append_of_sensor _ hMember rfl] at hMany
      have hTwo := hThen.quick u hWaits hGarbage hMany.1
      rw [hStage] at hTwo
      exact absurd hTwo.1 (by decide)

/- A pass on the memory comes after the goal's publish. -/
theorem two_le_of_memory
    {sensorData : Option K} {goal : Nat}
    {is before : List (Input K)} {c : Belt K}
    (hEnded : LoopEnded sensorData goal is before c)
    (hNone : ∀ i ∈ before, isSensor i = false) :
    2 ≤ actions goal (quiet is) := by
  rcases hEnded with
    ⟨⟨after, hSplit⟩, hBefore, ⟨u, hWaits, hStage⟩, -⟩
  have hPublish :=
    (logged_of_run goal hBefore).count u hWaits
  rw [hStage] at hPublish
  have hOne : 1 ≤ actions goal before := hPublish
  have hQuiet :
      quiet is = before ++ .run goal :: quiet after := by
    rw [hSplit, quiet_append_of_quiet _ hNone]
    rfl
  have hTwo :
      actions goal (quiet is) =
        actions goal before +
          (actions goal (quiet after) + 1) := by
    rw [hQuiet, actions_append]
    simp [actions, isRun]
  omega

/- A goal that did not get through on the memory. -/
theorem succeeds_of_few
    {sensorData : Option K}
    {is : List (Input K)} {b : Belt K}
    (hRun : machine.Run (Belt.init sensorData) is b)
    (hFew :
      below sensorData →
        ∀ goal, actions goal (quiet is) ≤ 1 ∨
          actions goal is ≤ 3) :
    SucceedsOnReading sensorData is b := by
  rintro goal ⟨t, hThread, hHandle⟩
  have hLogged := logged_of_run goal hRun
  have hDone : t.stage = .done := by
    by_contra hNot
    rw [(hLogged.ended t hThread).2 hNot] at hHandle
    cases hHandle
  have hFour : 4 ≤ actions goal is := by
    have hCount := hLogged.count t hThread
    rw [hDone] at hCount
    exact hCount
  have hPast : 2 ≤ t.stage.least := by
    rw [hDone]
    decide
  rcases hLogged.past t hThread hPast with ⟨before, c, hEnded⟩
  have hBelow := hEnded.2.2.2
  have hThen := logged_of_run goal hEnded.2.1
  cases hReading : c.sensorData with
  | none =>
      rw [hReading] at hBelow
      exact hBelow.elim
  | some reading =>
      rcases hThen.member with hMember | ⟨hMemory, hNone⟩
      · rw [hReading] at hBelow hMember
        exact
          ⟨before, c, reading, hEnded, hReading, hBelow,
            hMember⟩
      · have hTwo := two_le_of_memory hEnded hNone
        have hOr := hFew (hMemory ▸ hBelow) goal
        omega

/-
  In a run, every goal succeeds on a delivered reading exactly
  when the memory held no number below 18, or each goal has
  made no pass before the first message or is not through with
  `execute`. The first action of a thread is its publish, the
  next ones are its passes, and the last two publish and
  succeed.
-/
theorem succeeds_on_reading_iff
    {sensorData : Option K}
    {is : List (Input K)} {b : Belt K}
    (hRun : machine.Run (Belt.init sensorData) is b) :
    SucceedsOnReading sensorData is b ↔
      (below sensorData →
        ∀ goal, actions goal (quiet is) ≤ 1 ∨
          actions goal is ≤ 3) := by
  constructor
  · intro hReal hGarbage goal
    exact few_of_succeeds goal hRun hReal hGarbage
  · exact succeeds_of_few hRun

/- The general result for a memory of 0 and a reading of 5. -/
theorem succeeds_on_reading_iff_once :
    ∃ b : Belt ℚ,
      machine.Run (Belt.init (some 0))
          [.goal, .run 0, .sensor (some 5), .run 0, .run 0,
            .run 0] b ∧
        (SucceedsOnReading (some 0)
            [.goal, .run 0, .sensor (some 5), .run 0, .run 0,
              .run 0] b ↔
          (below (some (0 : ℚ)) →
            ∀ goal,
              actions goal
                  (quiet
                    ([.goal, .run 0, .sensor (some 5), .run 0,
                      .run 0, .run 0] : List (Input ℚ))) ≤ 1 ∨
                actions goal
                  ([.goal, .run 0, .sensor (some 5), .run 0,
                    .run 0, .run 0] : List (Input ℚ)) ≤ 3)) := by
  have hSome :
      ∃ b,
        machine.exec (Belt.init (some (0 : ℚ)))
          [.goal, .run 0, .sensor (some 5), .run 0, .run 0,
            .run 0] = some b :=
    Option.isSome_iff_exists.mp (by decide +kernel)
  rcases hSome with ⟨b, hExec⟩
  have hRun := Machine.run_of_exec hExec
  exact ⟨b, hRun, succeeds_on_reading_iff hRun⟩

/- A goal that succeeds with no message at all. -/
theorem succeeds_on_memory :
    ¬ ∀ (sensorData : Option ℚ)
        (is : List (Input ℚ)) (b : Belt ℚ),
      machine.Run (Belt.init sensorData) is b →
        SucceedsOnReading sensorData is b := by
  intro hClaim
  have hSome :
      ∃ b,
        machine.Run (Belt.init (some (0 : ℚ)))
            [.goal, .run 0, .run 0, .run 0, .run 0] b ∧
          decide
              (b.threads =
                [⟨.done, (GoalHandle.new).succeed⟩]) = true :=
    Machine.exists_run_of_exec (by decide +kernel)
  rcases hSome with ⟨b, hRun, hThreads⟩
  have hSucceeded : Succeeded b 0 := by
    rw [Succeeded, of_decide_eq_true hThreads]
    exact ⟨_, rfl, rfl⟩
  rcases hClaim _ _ b hRun 0 hSucceeded with
    ⟨before, c, reading, hEnded, -, -, hMember⟩
  rcases hEnded.1 with ⟨after, hSplit⟩
  have hIn :
      Input.sensor (some reading) ∈
        ([.goal, .run 0, .run 0, .run 0, .run 0] :
          List (Input ℚ)) := by
    rw [hSplit]
    exact List.mem_append_left _ hMember
  simp at hIn

end Conveyor

end Manipulator
