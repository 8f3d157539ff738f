import Manipulator.Conveyor
import Manipulator.Move
import Mathlib.Data.List.DropRight

/-
  Goals that overlap on one server.

  The conveyor and the move server accept every goal at once
  and give it a thread of its own, and all threads share one
  topic. This module says what that does to a conveyor goal
  that waits and to the path of a move goal.

  Main declarations:
    * `Conveyor.WaitsOnRunningBelt`, `Conveyor.StopsAlone`
    * `Conveyor.waits_on_running_belt_iff`
    * `Move.OnSegment`, `Move.window`, `Move.Timely`
    * `Move.window_on_segments`
-/

------------------------------------------------------------
-- A Waiting Conveyor Goal
------------------------------------------------------------

namespace Manipulator

namespace Conveyor

variable {K : Type} [Field K] [LinearOrder K]

/- While a goal waits, the last command is to run. -/
def WaitsOnRunningBelt (b : Belt K) : Prop :=
  ∀ t ∈ b.threads, t.stage = .waiting →
    ∃ goal, lastPublished b.history = some (goal, 1000)

/- A thread stops the belt while no other goal waits. -/
def StopsAlone (b : Belt K) : Input K → Prop
| .run goal =>
    (∃ t ∈ b.threads[goal]?, t.stage = .leaving) →
      ∀ t ∈ b.threads, t.stage ≠ .waiting
| _ => True

namespace WaitsOnRunningBelt

variable {b b' : Belt K}

omit [LinearOrder K] in
/- A step that publishes nothing and makes no goal wait. -/
theorem frame
    (hWaits : WaitsOnRunningBelt b)
    (hLast :
      lastPublished b'.history = lastPublished b.history)
    (hThreads :
      ∀ t ∈ b'.threads, t.stage = .waiting →
        ∃ u ∈ b.threads, u.stage = .waiting) :
    WaitsOnRunningBelt b' := by
  intro t hMember hWaiting
  rcases hThreads t hMember hWaiting with
    ⟨u, hOld, hOldWaiting⟩
  rw [hLast]
  exact hWaits u hOld hOldWaiting

omit [Field K] [LinearOrder K] in
/- The threads after one was replaced. -/
theorem waiting_of_set
    {goal : Nat} {new t : Thread}
    (hMember : t ∈ b.threads.set goal new)
    (hWaiting : t.stage = .waiting)
    (hNew : new.stage = .waiting →
      ∃ u ∈ b.threads, u.stage = .waiting) :
    ∃ u ∈ b.threads, u.stage = .waiting := by
  rcases List.mem_or_eq_of_mem_set hMember with hOld | rfl
  · exact ⟨t, hOld, hWaiting⟩
  · exact hNew hWaiting

/-
  One action of a thread keeps the belt running under the
  goals that wait, unless it is the thread's last publish.
-/
theorem execute_iff
    [IsStrictOrderedRing K]
    {goal : Nat} {t : Thread}
    (hWaits : WaitsOnRunningBelt b)
    (hThread : b.threads[goal]? = some t) :
    StopsAlone b (.run goal) ↔
      WaitsOnRunningBelt (b.execute goal t) := by
  have hAlone :
      StopsAlone b (.run goal) ↔
        (t.stage = .leaving →
          ∀ u ∈ b.threads, u.stage ≠ .waiting) := by
    simp [StopsAlone, hThread]
  have hMember : t ∈ b.threads := List.mem_of_getElem? hThread
  rw [hAlone]
  unfold Belt.execute
  cases hStage : t.stage with
  | accepted =>
      refine iff_of_true Stage.noConfusion ?_
      intro u _ _
      exact ⟨goal, rfl⟩
  | waiting =>
      refine iff_of_true Stage.noConfusion ?_
      by_cases hBelow : below b.sensorData
      · simp only [hBelow, if_true]
        apply hWaits.frame
        · rfl
        · intro u hSet hWaiting
          exact waiting_of_set hSet hWaiting Stage.noConfusion
      · simp only [hBelow, if_false]
        exact hWaits
  | leaving =>
      have hZero : (0 : K) ≠ 1000 := by norm_num
      have hNone :
          WaitsOnRunningBelt
              ((b.publish goal 0).setThread goal
                { t with stage := .stopped }) ↔
            ∀ u ∈ b.threads.set goal
                { t with stage := .stopped },
              u.stage ≠ .waiting := by
        constructor
        · intro hAfter u hSet hWaiting
          rcases hAfter u hSet hWaiting with ⟨_, hLast⟩
          simp only [Belt.setThread, Belt.publish,
            lastPublished, Option.some.injEq,
            Prod.mk.injEq] at hLast
          exact hZero hLast.2
        · intro hAfter u hSet hWaiting
          exact absurd hWaiting (hAfter u hSet)
      rw [hNone]
      constructor
      · intro hOthers u hSet hWaiting
        rcases waiting_of_set hSet hWaiting
            Stage.noConfusion with ⟨v, hOld, hOldWaiting⟩
        exact hOthers rfl v hOld hOldWaiting
      · intro hAfter _ u hOld hWaiting
        rcases List.mem_iff_getElem?.mp hOld with
          ⟨other, hOther⟩
        have hDistinct : goal ≠ other := by
          rintro rfl
          rw [hThread] at hOther
          cases hOther
          rw [hStage] at hWaiting
          cases hWaiting
        rw [← List.getElem?_set_ne hDistinct] at hOther
        exact
          hAfter u (List.mem_of_getElem? hOther) hWaiting
  | stopped =>
      refine iff_of_true Stage.noConfusion ?_
      apply hWaits.frame
      · rfl
      · intro u hSet hWaiting
        exact waiting_of_set hSet hWaiting Stage.noConfusion
  | done => exact iff_of_true Stage.noConfusion hWaits

theorem step_iff
    [FloorSemiring K] [IsStrictOrderedRing K]
    {i : Input K}
    (hWaits : WaitsOnRunningBelt b)
    (hEnabled : Enabled b i)
    (hStep : Conveyor.step b i = .ok b') :
    StopsAlone b i ↔ WaitsOnRunningBelt b' := by
  cases i with
  | goal =>
      cases hStep
      refine iff_of_true trivial ?_
      apply hWaits.frame
      · rfl
      · intro t hMember hWaiting
        rcases List.mem_append.mp hMember with hOld | hNew
        · exact ⟨t, hOld, hWaiting⟩
        · rw [List.mem_singleton] at hNew
          subst hNew
          cases hWaiting
  | sensor reading =>
      cases hStep
      exact iff_of_true trivial hWaits
  | cancel goal =>
      rcases hEnabled with ⟨t, hThread, _⟩
      rw [Option.mem_def] at hThread
      simp only [Conveyor.step, hThread] at hStep
      cases hStep
      refine iff_of_true trivial ?_
      apply hWaits.frame
      · rfl
      · intro u hSet hWaiting
        apply waiting_of_set hSet hWaiting
        intro hNew
        exact ⟨t, List.mem_of_getElem? hThread, hNew⟩
  | run goal =>
      rcases hEnabled with ⟨t, hThread, _⟩
      rw [Option.mem_def] at hThread
      simp only [Conveyor.step, hThread] at hStep
      cases hStep
      exact hWaits.execute_iff hThread
  | deliver =>
      simp only [Conveyor.step] at hStep
      cases hQueue : b.inFlight with
      | nil => exact absurd hQueue hEnabled
      | cons rpm later =>
          rw [hQueue] at hStep
          rcases bind_eq_ok.mp hStep with ⟨gateway, _, hStep⟩
          cases hStep
          exact iff_of_true trivial hWaits
  | lose position =>
      cases hStep
      exact iff_of_true trivial hWaits
  | angleData angles =>
      rcases bind_eq_ok.mp hStep with ⟨gateway, _, hStep⟩
      cases hStep
      exact iff_of_true trivial hWaits

end WaitsOnRunningBelt

/-
  The runs in which a waiting goal always has a running belt
  are those in which a thread stops the belt only while no
  other goal waits.
-/
theorem waits_on_running_belt_iff
    [FloorSemiring K] [IsStrictOrderedRing K]
    (sensorData : Option K)
    (is : List (Input K)) (b : Belt K) :
    (machine.keeping WaitsOnRunningBelt).Run
        (Belt.init sensorData) is b ↔
      (machine.restrict StopsAlone).Run
        (Belt.init sensorData) is b := by
  symm
  apply Machine.run_restrict_iff_keeping
  · intro t hMember
    cases hMember
  · intro c i d hWaits hEnabled hStep
    exact hWaits.step_iff hEnabled hStep

/- The belt while a goal on its own waits. -/
def waitingBelt : Belt ℚ where
  sensorData := none
  threads := [⟨.waiting, .new⟩]
  inFlight := [1000]
  gateway := .init
  history := [.published 0 1000]

/- No other goal waits in that run. -/
theorem run_waitingBelt :
    (machine.restrict StopsAlone).Run (Belt.init none)
      [.goal, .run 0] waitingBelt := by
  have hAccepted :
      (machine.restrict StopsAlone).Run
        (Belt.init (none : Option ℚ)) [.goal]
        ⟨none, [⟨.accepted, .new⟩], [], .init, []⟩ :=
    .single ⟨trivial, trivial⟩ rfl
  refine .snoc hAccepted ⟨⟨_, rfl, nofun⟩, ?_⟩ rfl
  rintro ⟨t, hThread, hLeaving⟩
  cases hThread
  cases hLeaving

/- What the general result says of that run. -/
theorem waits_on_running_belt_iff_alone :
    (machine.keeping WaitsOnRunningBelt).Run (Belt.init none)
      [.goal, .run 0] waitingBelt :=
  (waits_on_running_belt_iff none [.goal, .run 0] waitingBelt).mpr
    run_waitingBelt

/- The first goal stops the belt that the second waits for. -/
theorem waits_on_stopped_belt :
    ¬ ∀ (is : List (Input ℚ)) (b : Belt ℚ),
      machine.Run (Belt.init none) is b →
        WaitsOnRunningBelt b := by
  intro hClaim
  have hSome :
      (machine.exec (Belt.init (none : Option ℚ))
        [.goal, .goal, .run 0, .sensor (some 5), .run 0,
          .sensor (some 30), .run 1, .run 0]).any
        (fun b =>
          b.threads.any (fun t => t.stage = .waiting) &&
            lastPublished b.history == some (0, 0)) =
        true := by
    decide +kernel
  rcases Machine.exists_run_of_exec hSome with
    ⟨b, hRun, hTest⟩
  rw [Bool.and_eq_true, List.any_eq_true, beq_iff_eq] at hTest
  rcases hTest with ⟨⟨t, hMember, hWaiting⟩, hLast⟩
  rcases hClaim _ b hRun t hMember (of_decide_eq_true hWaiting)
    with ⟨goal, hRunning⟩
  rw [hLast] at hRunning
  have hZero : (0 : ℚ) ≠ 1000 := by norm_num
  exact hZero (Prod.mk.inj (Option.some.inj hRunning)).2

end Conveyor

------------------------------------------------------------
-- The Path Of A Move Goal
------------------------------------------------------------

namespace Move

/- The pose at the part `t` of the way. -/
noncomputable def along (goal : MoveGoal ℝ) (t : ℝ) : Pos ℝ where
  x := goal.sX + t * (goal.gX - goal.sX)
  y := goal.sY + t * (goal.gY - goal.sY)
  z := goal.sZ + t * (goal.gZ - goal.sZ)
  yaw := goal.sYaw + t * (goal.gYaw - goal.sYaw)
  grip := goal.grip
  mode := 0

/- A message from the segment of a goal, with its grip. -/
def OnSegment
    (goal : MoveGoal ℝ) (pose : Pos (Option ℝ)) : Prop :=
  ∃ t ∈ Set.Icc (0 : ℝ) 1, pose = finite (along goal t)

/-
  A pass whose clock has not run back, of a goal that is not
  slower than 0. A goal that ends where it starts also has to
  have a speed and to have started before.
-/
def Timely (goal : MoveGoal ℝ) (startTime now : ℝ) : Prop :=
  0 ≤ goal.speed ∧ startTime ≤ now ∧
    (distance goal = 0 → 0 < goal.speed ∧ startTime < now)

theorem distance_nonneg (goal : MoveGoal ℝ) :
    0 ≤ distance goal :=
  Real.sqrt_nonneg _

/- A timely pass computes a number from 0 to 1. -/
theorem progress_mem
    {goal : MoveGoal ℝ} {startTime now : ℝ}
    (hTimely : Timely goal startTime now) :
    ∃ t ∈ Set.Icc (0 : ℝ) 1,
      (progress goal (now - startTime)).value? = some t := by
  rcases hTimely with ⟨hSpeed, hForward, hStill⟩
  have hElapsed : 0 ≤ now - startTime := by linarith
  have hZero : (0 : ℝ) ∈ Set.Icc (0 : ℝ) 1 := by simp
  have hOne : (1 : ℝ) ∈ Set.Icc (0 : ℝ) 1 := by simp
  unfold progress totalTime Double.ofField
  by_cases hDistance : distance goal = 0
  · rcases hStill hDistance with ⟨hFast, hLater⟩
    have hLate : now - startTime ≠ 0 := by linarith
    have hBack : ¬ now - startTime < 0 := not_lt.mpr hElapsed
    refine ⟨1, hOne, ?_⟩
    simp [hDistance, hFast.ne', hLate, hBack, Double.div,
      Double.isNegative, Double.clampOne, Double.GtOne,
      Double.value?, not_lt.mpr hSpeed]
  · have hPos : 0 < distance goal :=
      lt_of_le_of_ne (distance_nonneg goal) (Ne.symm hDistance)
    by_cases hStart : now - startTime = 0
    · refine ⟨0, hZero, ?_⟩
      by_cases hStands : goal.speed = 0
      · simp [hDistance, hStart, hStands, Double.div,
          Double.clampOne, Double.GtOne, Double.value?]
      · simp [hDistance, hStart, hStands, Double.div,
          Double.clampOne, Double.GtOne, Double.value?]
    · have hLate : 0 < now - startTime :=
        lt_of_le_of_ne hElapsed (Ne.symm hStart)
      by_cases hStands : goal.speed = 0
      · refine ⟨0, hZero, ?_⟩
        simp [hDistance, hStart, hStands, Double.div,
          Double.clampOne, Double.GtOne, Double.value?]
      · have hFast : 0 < goal.speed :=
          lt_of_le_of_ne hSpeed (Ne.symm hStands)
        have hPart :
            0 < (now - startTime) /
              (distance goal / goal.speed) := by
          positivity
        by_cases hEnd :
            1 < (now - startTime) /
              (distance goal / goal.speed)
        · refine ⟨1, hOne, ?_⟩
          simp [hDistance, hStart, hStands, Double.div,
            Double.clampOne, Double.GtOne, hEnd,
            Double.value?]
        · refine ⟨_, ⟨hPart.le, not_lt.mp hEnd⟩, ?_⟩
          simp [hDistance, hStart, hStands, Double.div,
            Double.clampOne, Double.GtOne, hEnd,
            Double.value?]

theorem message_on_segment
    {goal : MoveGoal ℝ} {startTime now : ℝ}
    (hTimely : Timely goal startTime now) :
    OnSegment goal
      (message goal (progress goal (now - startTime))) := by
  rcases progress_mem hTimely with ⟨t, hMem, hValue⟩
  refine ⟨t, hMem, ?_⟩
  simp [message, interpolate, finite, along, hValue]

/- The messages on `pose_data`, with the goals they are of. -/
def published :
    List Event → List (Nat × Pos (Option ℝ))
| [] => []
| .published goal pose :: earlier =>
    (goal, pose) :: published earlier
| _ :: earlier => published earlier

/- The messages from the first to the last one of a goal. -/
def window
    (goal : Nat)
    (history : List Event) : List (Nat × Pos (Option ℝ)) :=
  ((published history).dropWhile (fun m => m.1 ≠ goal)).rdropWhile
    (fun m => m.1 ≠ goal)

theorem mem_of_mem_window
    {goal : Nat} {history : List Event}
    {m : Nat × Pos (Option ℝ)}
    (hMember : m ∈ window goal history) :
    m ∈ published history :=
  List.dropWhile_subset _
    ((List.rdropWhile_prefix _ _).subset hMember)

/- The passes of the loops are timely. -/
def PassesTimely (s : Server) : Input → Prop
| .run goal now =>
    ∀ t ∈ s.threads[goal]?, ∀ startTime,
      t.stage = .moving startTime →
        Timely t.goal startTime now
| _ => True

/- Every message is on the segment of the goal it is of. -/
def OnCourse (s : Server) : Prop :=
  ∀ m ∈ published s.history,
    ∃ t, s.threads[m.1]? = some t ∧ OnSegment t.goal m.2

namespace OnCourse

variable {s : Server}

theorem init : OnCourse Server.init := by
  intro m hMember
  cases hMember

/- The thread of a goal moves on, with the goal it has. -/
theorem setThread
    {goal : Nat} {t t' : Thread} {history : List Event}
    (hCourse : OnCourse s)
    (hThread : s.threads[goal]? = some t)
    (hGoal : t'.goal = t.goal)
    (hPublished :
      ∀ m ∈ published history,
        m ∈ published s.history ∨
          m.1 = goal ∧ OnSegment t.goal m.2) :
    OnCourse { s.setThread goal t' with history := history } := by
  have hLength : goal < s.threads.length :=
    (List.getElem?_eq_some_iff.mp hThread).1
  have hSelf : (s.threads.set goal t')[goal]? = some t' := by
    simp [hLength]
  intro m hMember
  rcases hPublished m hMember with hOld | ⟨hOwn, hSegment⟩
  · rcases hCourse m hOld with ⟨u, hOther, hSegment⟩
    by_cases hSame : goal = m.1
    · rw [← hSame, hThread] at hOther
      cases hOther
      refine ⟨t', hSame ▸ hSelf, ?_⟩
      rw [hGoal]
      exact hSegment
    · refine ⟨u, ?_, hSegment⟩
      change (s.threads.set goal t')[m.1]? = some u
      rw [List.getElem?_set_ne hSame]
      exact hOther
  · refine ⟨t', hOwn ▸ hSelf, ?_⟩
    rw [hGoal]
    exact hSegment

/- A thread that stays where it is. -/
theorem setThread_self
    {goal : Nat} {t : Thread}
    (hThread : s.threads[goal]? = some t) :
    s.setThread goal t = s := by
  have hSame : s.threads.set goal t = s.threads := by
    apply List.ext_getElem?
    intro other
    by_cases hSame : goal = other
    · subst hSame
      have hLength :=
        (List.getElem?_eq_some_iff.mp hThread).1
      rw [List.getElem?_set_self hLength, hThread]
    · rw [List.getElem?_set_ne hSame]
  unfold Server.setThread
  rw [hSame]

theorem execute
    {goal : Nat} {t : Thread} {now : ℝ}
    (hCourse : OnCourse s)
    (hThread : s.threads[goal]? = some t)
    (hTimely :
      ∀ startTime, t.stage = .moving startTime →
        Timely t.goal startTime now) :
    OnCourse (s.execute goal t now) := by
  unfold Server.execute
  cases hStage : t.stage with
  | accepted =>
      apply hCourse.setThread hThread
      · rfl
      · intro m hMember
        exact .inl hMember
  | moving startTime =>
      have hSegment :=
        message_on_segment (hTimely startTime hStage)
      have hPublished :
          ∀ m ∈ published
              (.published goal
                  (message t.goal
                    (progress t.goal (now - startTime))) ::
                s.history),
            m ∈ published s.history ∨
              m.1 = goal ∧ OnSegment t.goal m.2 := by
        intro m hMember
        rcases List.mem_cons.mp hMember with rfl | hOld
        · exact .inr ⟨rfl, hSegment⟩
        · exact .inl hOld
      simp only [Server.pass]
      split
      · exact hCourse.setThread hThread rfl hPublished
      · have hStays := hCourse.setThread hThread rfl hPublished
        rw [setThread_self hThread] at hStays
        exact hStays
  | leaving =>
      apply hCourse.setThread hThread
      · rfl
      · intro m hMember
        exact .inl hMember
  | done => exact hCourse

theorem step
    {s' : Server} {i : Input}
    (hCourse : OnCourse s)
    (hTimely : PassesTimely s i)
    (hEnabled : Enabled s i)
    (hStep : Move.step s i = .ok s') : OnCourse s' := by
  cases i with
  | goal data =>
      cases hStep
      intro m hMember
      rcases hCourse m hMember with ⟨t, hThread, hSegment⟩
      refine ⟨t, ?_, hSegment⟩
      have hLength : m.1 < s.threads.length :=
        (List.getElem?_eq_some_iff.mp hThread).1
      change (s.threads ++ _)[m.1]? = some t
      rw [List.getElem?_append_left hLength]
      exact hThread
  | cancel goal =>
      rcases hEnabled with ⟨t, hThread, _⟩
      rw [Option.mem_def] at hThread
      simp only [Move.step, hThread] at hStep
      cases hStep
      apply hCourse.setThread hThread
      · rfl
      · intro m hMember
        exact .inl hMember
  | run goal now =>
      rcases hEnabled with ⟨t, hThread, _⟩
      rw [Option.mem_def] at hThread
      simp only [Move.step, hThread] at hStep
      cases hStep
      exact hCourse.execute hThread (hTimely t hThread)

end OnCourse

/- A goal along the x axis, with an open gripper. -/
def eastward : MoveGoal ℝ :=
  ⟨0, 0, 0, 0, 1, 10, 0, 0, 0, "open"⟩

/- A goal along the y axis, with a closed gripper. -/
def northward : MoveGoal ℝ :=
  ⟨0, 0, 0, 0, 1, 0, 10, 0, 0, "close"⟩

theorem distance_eastward : distance eastward ≠ 0 := by
  simp [distance, eastward]

theorem distance_northward : distance northward ≠ 0 := by
  simp [distance, northward]

/- No goal is at its end when no time has passed. -/
theorem pass_at_start
    (goal : Nat) (t : Thread) (now : ℝ) (s : Server) :
    s.pass goal t now now =
      s.publish goal (message t.goal (progress t.goal 0)) := by
  have hBefore : ¬ (progress t.goal 0).GeOne := by
    unfold progress Double.ofField
    cases totalTime t.goal with
    | nan =>
        simp [Double.div, Double.clampOne, Double.GtOne,
          Double.GeOne]
    | infinite negative =>
        simp [Double.div, Double.clampOne, Double.GtOne,
          Double.GeOne]
    | zero negative =>
        simp [Double.div, Double.clampOne, Double.GtOne,
          Double.GeOne]
    | nonzero value =>
        simp [Double.div, Double.clampOne, Double.GtOne,
          Double.GeOne]
  simp [Server.pass, sub_self, hBefore]

/- The messages of the two goals when no time has passed. -/
noncomputable def eastMessage : Pos (Option ℝ) :=
  message eastward (progress eastward 0)

noncomputable def northMessage : Pos (Option ℝ) :=
  message northward (progress northward 0)

/- Both threads are in their loops. -/
def crossing (history : List Event) : Server where
  threads :=
    [⟨eastward, .moving 0, .new⟩, ⟨northward, .moving 0, .new⟩]
  history := history

/- A pass of the first thread, and one of the second. -/
theorem crossing_first (history : List Event) :
    (machine.restrict PassesTimely).Run (crossing history)
      [.run 0 0]
      (crossing (.published 0 eastMessage :: history)) := by
  refine .single ⟨⟨_, rfl, by simp⟩, ?_⟩ ?_
  · intro t hThread startTime hStage
    cases hThread
    cases hStage
    exact
      ⟨by norm_num [eastward], le_rfl,
        fun hZero => absurd hZero distance_eastward⟩
  · exact congrArg Except.ok (pass_at_start 0 _ 0 _)

theorem crossing_second (history : List Event) :
    (machine.restrict PassesTimely).Run (crossing history)
      [.run 1 0]
      (crossing (.published 1 northMessage :: history)) := by
  refine .single ⟨⟨_, rfl, by simp⟩, ?_⟩ ?_
  · intro t hThread startTime hStage
    cases hThread
    cases hStage
    exact
      ⟨by norm_num [northward], le_rfl,
        fun hZero => absurd hZero distance_northward⟩
  · exact congrArg Except.ok (pass_at_start 1 _ 0 _)

/- A thread that has not entered its loop makes no pass. -/
theorem passesTimely_of_accepted
    {s : Server} {goal : Nat} {now : ℝ} {t : Thread}
    (hThread : s.threads[goal]? = some t)
    (hStage : t.stage = .accepted) :
    PassesTimely s (.run goal now) := by
  intro u hOther startTime hMoving
  rw [Option.mem_def, hThread] at hOther
  cases hOther
  rw [hStage] at hMoving
  cases hMoving

theorem crossing_ready :
    (machine.restrict PassesTimely).Run .init
      [.goal eastward, .goal northward, .run 0 0, .run 1 0]
      (crossing []) := by
  have hFirst :
      (machine.restrict PassesTimely).Run .init
        [.goal eastward]
        ⟨[⟨eastward, .accepted, .new⟩], []⟩ :=
    .single ⟨trivial, trivial⟩ rfl
  have hAccepted :
      (machine.restrict PassesTimely).Run .init
        [.goal eastward, .goal northward]
        ⟨[⟨eastward, .accepted, .new⟩,
          ⟨northward, .accepted, .new⟩], []⟩ :=
    .snoc hFirst ⟨trivial, trivial⟩ rfl
  have hStarted :
      (machine.restrict PassesTimely).Run .init
        [.goal eastward, .goal northward, .run 0 0]
        ⟨[⟨eastward, .moving 0, .new⟩,
          ⟨northward, .accepted, .new⟩], []⟩ :=
    .snoc hAccepted
      ⟨⟨_, rfl, by simp⟩, passesTimely_of_accepted rfl rfl⟩ rfl
  exact
    .snoc hStarted
      ⟨⟨_, rfl, by simp⟩, passesTimely_of_accepted rfl rfl⟩ rfl

/- The second thread passes between two passes of the first. -/
theorem run_crossing :
    (machine.restrict PassesTimely).Run .init
      [.goal eastward, .goal northward, .run 0 0, .run 1 0,
        .run 0 0, .run 1 0, .run 0 0]
      (crossing
        [.published 0 eastMessage, .published 1 northMessage,
          .published 0 eastMessage]) :=
  crossing_ready.trans
    ((crossing_first _).trans
      ((crossing_second _).trans (crossing_first _)))

/- The second goal's message lies in the first one's window. -/
theorem mem_window :
    (1, northMessage) ∈
      window 0
        [.published 0 eastMessage, .published 1 northMessage,
          .published 0 eastMessage] := by
  simp [window, published, List.rdropWhile]

end Move

end Manipulator
