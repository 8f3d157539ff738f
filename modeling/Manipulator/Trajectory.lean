import Manipulator.Overlap

/-
  The passes of one move goal.

  The loop of `execute` makes one pass for each reading of the
  clock, up to the first one that is at the end of the way.
  Other goals and cancel requests may come between two passes:
  what a goal publishes depends on its own readings only.

  Main declarations:
    * `upTo`
    * `Move.passes`, `Move.sent`, `Move.Course`
    * `Move.course_of_run`
    * `Move.Follows`, `Move.follows_of_run`
-/

------------------------------------------------------------
-- Up To The First
------------------------------------------------------------

namespace Manipulator

section UpTo

variable {α : Type} {p : α → Prop} [DecidablePred p]

/-
  A list up to its first element with a property, that one
  included.
-/
def upTo (p : α → Prop) [DecidablePred p] : List α → List α
| [] => []
| x :: xs => if p x then [x] else x :: upTo p xs

theorem upTo_eq_self
    {xs : List α}
    (hNone : ∀ x ∈ xs, ¬ p x) : upTo p xs = xs := by
  induction xs with
  | nil => rfl
  | cons x xs ih =>
      rw [List.forall_mem_cons] at hNone
      rw [upTo, if_neg hNone.1, ih hNone.2]

/- Without one before it, the next element is reached. -/
theorem upTo_concat
    {xs : List α}
    (x : α)
    (hNone : ∀ y ∈ xs, ¬ p y) :
    upTo p (xs ++ [x]) = xs ++ [x] := by
  induction xs with
  | nil => simp [upTo]
  | cons y xs ih =>
      rw [List.forall_mem_cons] at hNone
      rw [List.cons_append, upTo, if_neg hNone.1, ih hNone.2]

/- Nothing after the first one is reached. -/
theorem upTo_append
    {xs : List α}
    (ys : List α)
    (hSome : ∃ x ∈ xs, p x) :
    upTo p (xs ++ ys) = upTo p xs := by
  induction xs with
  | nil => simp at hSome
  | cons x xs ih =>
      rw [List.cons_append, upTo, upTo]
      by_cases hx : p x
      · rw [if_pos hx, if_pos hx]
      · rw [List.exists_mem_cons_iff] at hSome
        rw [if_neg hx, if_neg hx,
          ih (hSome.resolve_left hx)]

theorem upTo_subset
    (xs : List α) : ∀ x ∈ upTo p xs, x ∈ xs := by
  induction xs with
  | nil => simp [upTo]
  | cons x xs ih =>
      intro y hy
      rw [upTo] at hy
      by_cases hx : p x
      · rw [if_pos hx, List.mem_singleton] at hy
        rw [hy]
        exact List.mem_cons_self
      · rw [if_neg hx] at hy
        rcases List.mem_cons.mp hy with hy | hy
        · rw [hy]
          exact List.mem_cons_self
        · exact List.mem_cons_of_mem x (ih y hy)

/- The first one is the last that is reached. -/
theorem getLast?_upTo
    {xs : List α}
    (hSome : ∃ x ∈ xs, p x) :
    ∃ x, (upTo p xs).getLast? = some x ∧ p x := by
  induction xs with
  | nil => simp at hSome
  | cons x xs ih =>
      rw [upTo]
      by_cases hx : p x
      · exact ⟨x, by simp [hx], hx⟩
      · rw [List.exists_mem_cons_iff] at hSome
        rcases ih (hSome.resolve_left hx) with ⟨y, hLast, hy⟩
        refine ⟨y, ?_, hy⟩
        rw [if_neg hx, List.getLast?_cons, hLast]
        rfl

theorem upTo_congr
    {q : α → Prop} [DecidablePred q]
    (hSame : ∀ x, p x ↔ q x)
    (xs : List α) : upTo p xs = upTo q xs := by
  induction xs with
  | nil => rfl
  | cons x xs ih => simp only [upTo, hSame, ih]

end UpTo

------------------------------------------------------------
-- What One Goal Publishes
------------------------------------------------------------

namespace Move

/- The clock that an input lets a goal read. -/
def reading (goal : Nat) : Input → Option ℝ
| .goal _ => none
| .cancel _ => none
| .run other now => if other = goal then some now else none

def readings (goal : Nat) (is : List Input) : List ℝ :=
  is.filterMap (reading goal)

/- The messages of a goal, oldest first. -/
def sent
    (goal : Nat)
    (history : List Event) : List (Pos (Option ℝ)) :=
  (((published history).filter (fun m => m.1 = goal)).map
    Prod.snd).reverse

/- The readings at which the loop makes a pass. -/
noncomputable def passes
    (goal : MoveGoal ℝ)
    (startTime : ℝ)
    (later : List ℝ) : List ℝ :=
  upTo (fun now => (progress goal (now - startTime)).GeOne)
    later

/- The message of the pass at a reading. -/
noncomputable def messageAt
    (goal : MoveGoal ℝ)
    (startTime now : ℝ) : Pos (Option ℝ) :=
  message goal (progress goal (now - startTime))

/-
  Where a thread stands after the readings it has made, and
  what it has published. The first reading is the start time.
-/
inductive Course (goal : MoveGoal ℝ) :
    Stage → List ℝ → List (Pos (Option ℝ)) → Prop where
| accepted : Course goal .accepted [] []
| moving
    {startTime : ℝ} {later : List ℝ}
    (hBefore :
      ∀ now ∈ later,
        ¬ (progress goal (now - startTime)).GeOne) :
    Course goal (.moving startTime) (startTime :: later)
      (later.map (messageAt goal startTime))
| left
    {stage : Stage} {startTime : ℝ} {later : List ℝ}
    (hLeft : stage.Left)
    (hReached :
      ∃ now ∈ later,
        (progress goal (now - startTime)).GeOne) :
    Course goal stage (startTime :: later)
      ((passes goal startTime later).map
        (messageAt goal startTime))

theorem sent_published_self
    (goal : Nat)
    (pose : Pos (Option ℝ))
    (history : List Event) :
    sent goal (.published goal pose :: history) =
      sent goal history ++ [pose] := by
  simp [sent, published]

theorem sent_published_ne
    {goal other : Nat}
    (hOther : other ≠ goal)
    (pose : Pos (Option ℝ))
    (history : List Event) :
    sent goal (.published other pose :: history) =
      sent goal history := by
  simp [sent, published, hOther]

theorem readings_concat
    (goal : Nat)
    (is : List Input)
    (i : Input) :
    readings goal (is ++ [i]) =
      readings goal is ++ (reading goal i).toList := by
  cases hReading : reading goal i <;>
    simp [readings, hReading]

/- One more reading of a thread that is in its loop. -/
theorem Course.pass
    {goal : MoveGoal ℝ}
    {startTime : ℝ}
    {rs : List ℝ} {messages : List (Pos (Option ℝ))}
    (hCourse : Course goal (.moving startTime) rs messages)
    (now : ℝ) :
    (¬ (progress goal (now - startTime)).GeOne →
      Course goal (.moving startTime) (rs ++ [now])
        (messages ++ [messageAt goal startTime now])) ∧
    ((progress goal (now - startTime)).GeOne →
      ∀ stage : Stage, stage.Left →
        Course goal stage (rs ++ [now])
          (messages ++ [messageAt goal startTime now])) := by
  cases hCourse with
  | left hLeft _ => exact hLeft.elim
  | @moving _ later hBefore =>
      have hSnoc :
          later.map (messageAt goal startTime) ++
              [messageAt goal startTime now] =
            (later ++ [now]).map (messageAt goal startTime) := by
        rw [List.map_append, List.map_cons, List.map_nil]
      rw [hSnoc, List.cons_append]
      constructor
      · intro hNot
        apply Course.moving
        intro other hOther
        rcases List.mem_append.mp hOther with hOld | hNew
        · exact hBefore other hOld
        · rw [List.mem_singleton.mp hNew]
          exact hNot
      · intro hEnd stage hLeft
        have hPasses :
            passes goal startTime (later ++ [now]) =
              later ++ [now] :=
          upTo_concat now hBefore
        have hAfter :
            Course goal stage (startTime :: (later ++ [now]))
              ((passes goal startTime (later ++ [now])).map
                (messageAt goal startTime)) :=
          .left hLeft ⟨now, by simp, hEnd⟩
        rw [hPasses] at hAfter
        exact hAfter

theorem left_leaving : Stage.leaving.Left := trivial

theorem left_done : Stage.done.Left := trivial

/- A thread that has left its loop reads no more. -/
theorem Course.stay
    {goal : MoveGoal ℝ}
    {stage stage' : Stage}
    {rs : List ℝ} {messages : List (Pos (Option ℝ))}
    (hCourse : Course goal stage rs messages)
    (hLeft : stage.Left)
    (hLeft' : stage'.Left)
    (more : List ℝ) :
    Course goal stage' (rs ++ more) messages := by
  cases hCourse with
  | accepted => exact hLeft.elim
  | moving _ => exact hLeft.elim
  | @left _ startTime later _ hReached =>
      have hPasses :
          passes goal startTime (later ++ more) =
            passes goal startTime later :=
        upTo_append more hReached
      rw [← hPasses, List.cons_append]
      rcases hReached with ⟨now, hMember, hEnd⟩
      exact .left hLeft'
        ⟨now, List.mem_append_left more hMember, hEnd⟩

/- A goal that is not accepted yet has done nothing. -/
structure OnTrack
    (goal : Nat) (is : List Input) (s : Server) : Prop where
  unknown :
    s.threads[goal]? = none →
      readings goal is = [] ∧ sent goal s.history = []
  course :
    ∀ t, s.threads[goal]? = some t →
      Course t.goal t.stage (readings goal is)
        (sent goal s.history)

namespace OnTrack

variable {goal : Nat} {is : List Input} {s : Server}

theorem init : OnTrack goal [] Server.init where
  unknown _ := ⟨rfl, rfl⟩
  course t hThread := by simp [Server.init] at hThread

/- An input that does nothing for the goal. -/
theorem frame
    {s' : Server} {i : Input}
    (hTrack : OnTrack goal is s)
    (hReading : reading goal i = none)
    (hSent : sent goal s'.history = sent goal s.history)
    (hThread :
      ∀ t', s'.threads[goal]? = some t' →
        ∃ t, s.threads[goal]? = some t ∧
          t'.goal = t.goal ∧ t'.stage = t.stage)
    (hUnknown :
      s'.threads[goal]? = none → s.threads[goal]? = none) :
    OnTrack goal (is ++ [i]) s' := by
  have hReadings :
      readings goal (is ++ [i]) = readings goal is := by
    rw [readings_concat, hReading, Option.toList_none,
      List.append_nil]
  constructor
  · intro hNone
    rw [hReadings, hSent]
    exact hTrack.unknown (hUnknown hNone)
  · intro t' hSome
    rcases hThread t' hSome with ⟨t, hOld, hGoal, hStage⟩
    rw [hReadings, hSent, hGoal, hStage]
    exact hTrack.course t hOld

/- Another thread is replaced. -/
theorem frame_setThread
    {other : Nat} {t : Thread} {history : List Event}
    {i : Input}
    (hTrack : OnTrack goal is s)
    (hOther : other ≠ goal)
    (hReading : reading goal i = none)
    (hSent : sent goal history = sent goal s.history) :
    OnTrack goal (is ++ [i])
      { s.setThread other t with history := history } := by
  have hSame :
      (s.threads.set other t)[goal]? = s.threads[goal]? :=
    List.getElem?_set_ne hOther
  apply hTrack.frame hReading
  · exact hSent
  · intro u hThread
    exact ⟨u, hSame ▸ hThread, rfl, rfl⟩
  · intro hNone
    exact hSame ▸ hNone

/- The thread of the goal is replaced. -/
theorem setThread
    {t t' : Thread} {history : List Event} {i : Input}
    (hThread : s.threads[goal]? = some t)
    (hCourse :
      Course t'.goal t'.stage (readings goal (is ++ [i]))
        (sent goal history)) :
    OnTrack goal (is ++ [i])
      { s.setThread goal t' with history := history } := by
  have hLength : goal < s.threads.length :=
    (List.getElem?_eq_some_iff.mp hThread).1
  have hSelf : (s.threads.set goal t')[goal]? = some t' := by
    simp [hLength]
  constructor
  · intro hNone
    exact absurd (hSelf.symm.trans hNone) (by simp)
  · intro u hSome
    have hSame : t' = u :=
      Option.some.inj (hSelf.symm.trans hSome)
    rw [← hSame]
    exact hCourse

/- An action of the thread of another goal. -/
theorem execute_other
    {other : Nat} {t : Thread} {now : ℝ}
    (hTrack : OnTrack goal is s)
    (hThread : s.threads[other]? = some t)
    (hOther : other ≠ goal) :
    OnTrack goal (is ++ [.run other now])
      (s.execute other t now) := by
  have hReading : reading goal (.run other now) = none := by
    simp [reading, hOther]
  unfold Server.execute
  cases t.stage with
  | accepted =>
      exact hTrack.frame_setThread hOther hReading rfl
  | moving startTime =>
      have hSent :=
        sent_published_ne hOther
          (message t.goal
            (progress t.goal (now - startTime))) s.history
      simp only [Server.pass]
      split
      · exact hTrack.frame_setThread hOther hReading hSent
      · have hFrame :=
          hTrack.frame_setThread (t := t) hOther hReading hSent
        rw [OnCourse.setThread_self hThread] at hFrame
        exact hFrame
  | leaving =>
      exact hTrack.frame_setThread hOther hReading rfl
  | done =>
      apply hTrack.frame hReading rfl
      · intro u hSome
        exact ⟨u, hSome, rfl, rfl⟩
      · exact id

/- An action of the thread of the goal. -/
theorem execute_self
    {t : Thread} {now : ℝ}
    (hTrack : OnTrack goal is s)
    (hThread : s.threads[goal]? = some t) :
    OnTrack goal (is ++ [.run goal now])
      (s.execute goal t now) := by
  have hReadings :
      readings goal (is ++ [.run goal now]) =
        readings goal is ++ [now] := by
    simp [readings_concat, reading]
  have hCourse := hTrack.course t hThread
  unfold Server.execute
  cases hStage : t.stage with
  | accepted =>
      rw [hStage] at hCourse
      apply setThread hThread
      rw [hReadings]
      generalize readings goal is = rs at hCourse ⊢
      generalize sent goal s.history = messages
        at hCourse ⊢
      cases hCourse with
      | accepted => exact .moving (by simp)
      | left hLeft _ => exact hLeft.elim
  | moving startTime =>
      rw [hStage] at hCourse
      have hSent :=
        sent_published_self goal
          (message t.goal
            (progress t.goal (now - startTime))) s.history
      rcases hCourse.pass now with ⟨hStay, hLeave⟩
      simp only [Server.pass]
      split
      · rename_i hEnd
        apply setThread hThread
        rw [hReadings]
        exact hSent ▸ hLeave hEnd .leaving trivial
      · rename_i hNot
        have hSet :
            OnTrack goal (is ++ [.run goal now])
              { s.setThread goal t with
                history :=
                  .published goal
                    (messageAt t.goal startTime now) ::
                      s.history } := by
          apply setThread hThread
          rw [hReadings, hStage]
          exact hSent ▸ hStay hNot
        rw [OnCourse.setThread_self hThread] at hSet
        exact hSet
  | leaving =>
      rw [hStage] at hCourse
      apply setThread hThread
      rw [hReadings]
      exact hCourse.stay left_leaving left_done [now]
  | done =>
      rw [hStage] at hCourse
      have hSet :
          OnTrack goal (is ++ [.run goal now])
            { s.setThread goal t with history := s.history } := by
        apply setThread hThread
        rw [hReadings, hStage]
        exact hCourse.stay left_done left_done [now]
      rw [OnCourse.setThread_self hThread] at hSet
      exact hSet

theorem step
    {s' : Server} {i : Input}
    (hTrack : OnTrack goal is s)
    (hEnabled : Enabled s i)
    (hStep : Move.step s i = .ok s') :
    OnTrack goal (is ++ [i]) s' := by
  cases i with
  | goal data =>
      cases hStep
      have hReadings :
          readings goal (is ++ [.goal data]) =
            readings goal is := by
        simp [readings_concat, reading]
      by_cases hLength : goal < s.threads.length
      · have hSame :
            (s.threads ++ [⟨data, .accepted, .new⟩])[goal]? =
              s.threads[goal]? :=
          List.getElem?_append_left hLength
        apply hTrack.frame
        · rfl
        · rfl
        · intro t hThread
          exact ⟨t, hSame ▸ hThread, rfl, rfl⟩
        · intro hNone
          exact hSame ▸ hNone
      · have hNone : s.threads[goal]? = none :=
          List.getElem?_eq_none (not_lt.mp hLength)
        rcases hTrack.unknown hNone with ⟨hNoReading, hNothing⟩
        constructor
        · intro _
          rw [hReadings]
          exact ⟨hNoReading, hNothing⟩
        · intro t hThread
          rw [List.getElem?_append_right (not_lt.mp hLength)]
            at hThread
          have hNew := List.mem_of_getElem? hThread
          rw [List.mem_singleton] at hNew
          rw [hNew, hReadings, hNoReading, hNothing]
          exact .accepted
  | cancel other =>
      rcases hEnabled with ⟨t, hThread, _⟩
      rw [Option.mem_def] at hThread
      simp only [Move.step, hThread] at hStep
      cases hStep
      by_cases hOther : other = goal
      · subst hOther
        apply setThread hThread
        have hReadings :
            readings other (is ++ [.cancel other]) =
              readings other is := by
          simp [readings_concat, reading]
        rw [hReadings]
        exact hTrack.course t hThread
      · exact hTrack.frame_setThread hOther rfl rfl
  | run other now =>
      rcases hEnabled with ⟨t, hThread, _⟩
      rw [Option.mem_def] at hThread
      simp only [Move.step, hThread] at hStep
      cases hStep
      by_cases hOther : other = goal
      · subst hOther
        exact hTrack.execute_self hThread
      · exact hTrack.execute_other hThread hOther

end OnTrack

/-
  What a goal has published and where its thread stands, after
  any run.
-/
theorem course_of_run
    {is : List Input} {s : Server}
    {goal : Nat} {t : Thread}
    (hRun : machine.Run .init is s)
    (hThread : s.threads[goal]? = some t) :
    Course t.goal t.stage (readings goal is)
      (sent goal s.history) := by
  have hTrack : OnTrack goal is s := by
    clear hThread
    induction hRun with
    | nil => exact OnTrack.init
    | snoc _ hEnabled hStep ih => exact ih.step hEnabled hStep
  exact hTrack.course t hThread

------------------------------------------------------------
-- The Way Of A Goal That Moves
------------------------------------------------------------

/- The part of the way, so many seconds after the start. -/
noncomputable def part
    (goal : MoveGoal ℝ) (elapsed : ℝ) : ℝ :=
  min 1 (elapsed / (distance goal / goal.speed))

/- The distance between two poses. -/
noncomputable def gap (p q : Pos ℝ) : ℝ :=
  √((q.x - p.x) ^ 2 + (q.y - p.y) ^ 2 + (q.z - p.z) ^ 2)

/- What a pass computes for a goal with a way and a speed. -/
theorem progress_of_pos
    {goal : MoveGoal ℝ} {elapsed : ℝ}
    (hSpeed : 0 < goal.speed)
    (hDistance : 0 < distance goal) :
    (progress goal elapsed).value? = some (part goal elapsed) ∧
      ((progress goal elapsed).GeOne ↔
        distance goal / goal.speed ≤ elapsed) := by
  have hTime : 0 < distance goal / goal.speed := by positivity
  unfold progress totalTime part Double.ofField
  by_cases hStart : elapsed = 0
  · simp [hStart, hSpeed.ne', hDistance.ne', Double.div,
      Double.clampOne, Double.GtOne, Double.GeOne,
      Double.value?, hTime]
  · by_cases hEnd : 1 < elapsed / (distance goal / goal.speed)
    · have hLate : distance goal / goal.speed ≤ elapsed :=
        ((one_lt_div hTime).mp hEnd).le
      simp [hStart, hSpeed.ne', hDistance.ne', Double.div,
        Double.clampOne, Double.GtOne, Double.GeOne,
        Double.value?, hEnd, hEnd.le, hLate]
    · have hLate :
          1 ≤ elapsed / (distance goal / goal.speed) ↔
            distance goal / goal.speed ≤ elapsed :=
        one_le_div hTime
      simp [hStart, hSpeed.ne', hDistance.ne', Double.div,
        Double.clampOne, Double.GtOne, Double.GeOne,
        Double.value?, hEnd, not_lt.mp hEnd, hLate]

theorem messageAt_of_pos
    {goal : MoveGoal ℝ} {startTime now : ℝ}
    (hSpeed : 0 < goal.speed)
    (hDistance : 0 < distance goal) :
    messageAt goal startTime now =
      finite (along goal (part goal (now - startTime))) := by
  have hValue :
      (progress goal (now - startTime)).value? =
        some (part goal (now - startTime)) :=
    (progress_of_pos hSpeed hDistance).1
  simp [messageAt, message, interpolate, finite, along, hValue]

/- Two points of a segment. -/
theorem gap_along
    (goal : MoveGoal ℝ) (a b : ℝ) :
    gap (along goal a) (along goal b) =
      |b - a| * distance goal := by
  have hSquares :
      ((along goal b).x - (along goal a).x) ^ 2 +
          ((along goal b).y - (along goal a).y) ^ 2 +
          ((along goal b).z - (along goal a).z) ^ 2 =
        (b - a) ^ 2 *
          ((goal.gX - goal.sX) * (goal.gX - goal.sX) +
            (goal.gY - goal.sY) * (goal.gY - goal.sY) +
            (goal.gZ - goal.sZ) * (goal.gZ - goal.sZ)) := by
    simp only [along]
    ring
  rw [gap, hSquares, Real.sqrt_mul (sq_nonneg _),
    Real.sqrt_sq_eq_abs]
  rfl

/- The part of the way grows, by no more than the speed. -/
theorem part_mono
    {goal : MoveGoal ℝ} {a b : ℝ}
    (hSpeed : 0 < goal.speed)
    (hDistance : 0 < distance goal)
    (hOrder : a ≤ b) :
    part goal a ≤ part goal b ∧
      (part goal b - part goal a) * distance goal ≤
        goal.speed * (b - a) := by
  have hTime : 0 < distance goal / goal.speed := by positivity
  have hRatio :
      a / (distance goal / goal.speed) ≤
        b / (distance goal / goal.speed) :=
    div_le_div_of_nonneg_right hOrder hTime.le
  refine ⟨min_le_min_left 1 hRatio, ?_⟩
  have hStep :
      part goal b - part goal a ≤
        (b - a) / (distance goal / goal.speed) := by
    rw [sub_div]
    unfold part
    rcases min_cases 1 (a / (distance goal / goal.speed)) with
      ⟨hMin, hLe⟩ | ⟨hMin, hLe⟩
    · rw [hMin, min_eq_left (hLe.trans hRatio)]
      linarith
    · rw [hMin]
      have hUpper :=
        min_le_right 1 (b / (distance goal / goal.speed))
      linarith
  calc
    (part goal b - part goal a) * distance goal
        ≤ (b - a) / (distance goal / goal.speed) *
            distance goal :=
      mul_le_mul_of_nonneg_right hStep hDistance.le
    _ = goal.speed * (b - a) := by
      field_simp

/- The readings up to the first one at the end of the way. -/
noncomputable def iterations
    (goal : MoveGoal ℝ)
    (startTime : ℝ)
    (later : List ℝ) : List ℝ :=
  upTo
    (fun now => distance goal / goal.speed ≤ now - startTime)
    later

/- The point of the way at a reading. -/
noncomputable def pointAt
    (goal : MoveGoal ℝ) (startTime now : ℝ) : Pos ℝ :=
  along goal (part goal (now - startTime))

/-
  One message a pass, from the segment, forward, and no
  faster than the speed. The last one is the final pose.
-/
structure Follows
    (goal : MoveGoal ℝ)
    (startTime : ℝ)
    (later : List ℝ)
    (messages : List (Pos (Option ℝ))) : Prop where
  each :
    messages =
      (iterations goal startTime later).map
        (fun now => finite (pointAt goal startTime now))
  inside :
    ∀ now ∈ iterations goal startTime later,
      part goal (now - startTime) ∈ Set.Icc (0 : ℝ) 1
  forward :
    ((iterations goal startTime later).map
      (fun now => part goal (now - startTime))).Pairwise
        (· ≤ ·)
  paced :
    (iterations goal startTime later).IsChain
      (fun a b =>
        gap (pointAt goal startTime a)
            (pointAt goal startTime b) ≤
          goal.speed * (b - a))
  arrives :
    (∃ now ∈ later,
        distance goal / goal.speed ≤ now - startTime) →
      messages.getLast? = some (finite (finalPose goal))

theorem passes_of_pos
    {goal : MoveGoal ℝ}
    (hSpeed : 0 < goal.speed)
    (hDistance : 0 < distance goal)
    (startTime : ℝ)
    (later : List ℝ) :
    passes goal startTime later =
      iterations goal startTime later :=
  upTo_congr
    (fun _ => (progress_of_pos hSpeed hDistance).2) later

/- At the end of the way a goal is at its final pose. -/
theorem pointAt_of_late
    {goal : MoveGoal ℝ} {startTime now : ℝ}
    (hSpeed : 0 < goal.speed)
    (hDistance : 0 < distance goal)
    (hLate : distance goal / goal.speed ≤ now - startTime) :
    pointAt goal startTime now = finalPose goal := by
  have hTime : 0 < distance goal / goal.speed := by positivity
  have hPart : part goal (now - startTime) = 1 :=
    min_eq_left ((one_le_div hTime).mpr hLate)
  simp [pointAt, hPart, along, finalPose]

/- The messages of the passes, when the clock runs forward. -/
theorem follows_passes
    {goal : MoveGoal ℝ} {startTime : ℝ} {later : List ℝ}
    (hSpeed : 0 < goal.speed)
    (hDistance : 0 < distance goal)
    (hClock :
      (startTime :: iterations goal startTime later).Pairwise
        (· ≤ ·)) :
    Follows goal startTime later
      ((passes goal startTime later).map
        (messageAt goal startTime)) := by
  have hEach :
      (passes goal startTime later).map
          (messageAt goal startTime) =
        (iterations goal startTime later).map
          (fun now => finite (pointAt goal startTime now)) := by
    rw [passes_of_pos hSpeed hDistance]
    apply List.map_congr_left
    intro now _
    exact messageAt_of_pos hSpeed hDistance
  rcases List.pairwise_cons.mp hClock with ⟨hStart, hOrder⟩
  refine ⟨hEach, ?_, ?_, ?_, ?_⟩
  · intro now hNow
    have hElapsed : 0 ≤ now - startTime :=
      sub_nonneg.mpr (hStart now hNow)
    have hPart :
        0 ≤ (now - startTime) /
          (distance goal / goal.speed) := by
      positivity
    exact ⟨le_min zero_le_one hPart, min_le_left _ _⟩
  · apply List.pairwise_map.mpr
    apply hOrder.imp
    intro a b hLe
    exact
      (part_mono hSpeed hDistance
        (sub_le_sub_right hLe startTime)).1
  · apply (hOrder.imp ?_).isChain
    intro a b hLe
    rcases part_mono hSpeed hDistance
        (sub_le_sub_right hLe startTime) with ⟨hGrows, hBound⟩
    rw [pointAt, pointAt, gap_along,
      abs_of_nonneg (sub_nonneg.mpr hGrows)]
    have hSame :
        b - startTime - (a - startTime) = b - a := by
      ring
    rw [hSame] at hBound
    exact hBound
  · intro hReached
    rcases getLast?_upTo hReached with ⟨now, hLast, hLate⟩
    have hFinal := pointAt_of_late hSpeed hDistance hLate
    rw [hEach, List.getLast?_map]
    exact
      (congrArg (Option.map _) hLast).trans
        (congrArg (fun pose => some (finite pose)) hFinal)

/-
  A goal with a way and a speed, in any run: its messages
  follow the segment, and its thread has left the loop exactly
  when a reading was at the end of the way.
-/
theorem follows_of_run
    {is : List Input} {s : Server}
    {goal : Nat} {t : Thread}
    {startTime : ℝ} {later : List ℝ}
    (hRun : machine.Run .init is s)
    (hThread : s.threads[goal]? = some t)
    (hReadings : readings goal is = startTime :: later)
    (hClock :
      (startTime ::
        iterations t.goal startTime later).Pairwise (· ≤ ·))
    (hSpeed : 0 < t.goal.speed)
    (hDistance : 0 < distance t.goal) :
    Follows t.goal startTime later (sent goal s.history) ∧
      (t.stage.Left ↔
        ∃ now ∈ later,
          distance t.goal / t.goal.speed ≤
            now - startTime) := by
  have hFollows := follows_passes hSpeed hDistance hClock
  have hReach :
      ∀ now,
        (progress t.goal (now - startTime)).GeOne ↔
          distance t.goal / t.goal.speed ≤ now - startTime :=
    fun _ => (progress_of_pos hSpeed hDistance).2
  have hCourse := course_of_run hRun hThread
  rw [hReadings] at hCourse
  generalize t.stage = stage at hCourse ⊢
  generalize sent goal s.history = messages at hCourse ⊢
  cases hCourse with
  | moving hBefore =>
      have hPasses : passes t.goal startTime later = later :=
        upTo_eq_self hBefore
      rw [hPasses] at hFollows
      refine ⟨hFollows, iff_of_false id ?_⟩
      rintro ⟨now, hNow, hLate⟩
      exact hBefore now hNow ((hReach now).mpr hLate)
  | left hLeft hReached =>
      refine ⟨hFollows, iff_of_true hLeft ?_⟩
      rcases hReached with ⟨now, hNow, hEnd⟩
      exact ⟨now, hNow, (hReach now).mp hEnd⟩

------------------------------------------------------------
-- A Goal That Arrives
------------------------------------------------------------

/- A pass of a goal with a way and a speed. -/
theorem pass_of_pos
    {goal : Nat} {t : Thread}
    {startTime now : ℝ}
    {s : Server}
    (hSpeed : 0 < t.goal.speed)
    (hDistance : 0 < distance t.goal) :
    (now - startTime < distance t.goal / t.goal.speed →
      s.pass goal t startTime now =
        s.publish goal
          (finite (pointAt t.goal startTime now))) ∧
    (distance t.goal / t.goal.speed ≤ now - startTime →
      s.pass goal t startTime now =
        (s.publish goal
          (finite (pointAt t.goal startTime now))).setThread
            goal { t with stage := .leaving }) := by
  have hMessage :
      message t.goal (progress t.goal (now - startTime)) =
        finite (pointAt t.goal startTime now) :=
    messageAt_of_pos hSpeed hDistance
  have hReach :
      (progress t.goal (now - startTime)).GeOne ↔
        distance t.goal / t.goal.speed ≤ now - startTime :=
    (progress_of_pos hSpeed hDistance).2
  constructor
  · intro hBefore
    have hInside :
        ¬ (progress t.goal (now - startTime)).GeOne :=
      fun hEnd => absurd (hReach.mp hEnd) (not_le.mpr hBefore)
    simp only [Server.pass, hMessage, if_neg hInside]
  · intro hEnd
    simp only [Server.pass, hMessage, if_pos (hReach.mpr hEnd)]

/- Both goals have ten units of way, for ten seconds. -/
theorem time_eastward :
    distance eastward / eastward.speed = 10 := by
  have hRoot : √(10 * 10 : ℝ) = 10 :=
    Real.sqrt_mul_self (by norm_num)
  simp [distance, eastward, hRoot]

theorem time_northward :
    distance northward / northward.speed = 10 := by
  have hRoot : √(10 * 10 : ℝ) = 10 :=
    Real.sqrt_mul_self (by norm_num)
  simp [distance, northward, hRoot]

theorem distance_eastward_pos : 0 < distance eastward :=
  lt_of_le_of_ne (distance_nonneg eastward)
    distance_eastward.symm

theorem distance_northward_pos : 0 < distance northward :=
  lt_of_le_of_ne (distance_nonneg northward)
    distance_northward.symm

/- The first goal at its end, the second one half way. -/
noncomputable def arrived : Server where
  threads :=
    [⟨eastward, .leaving, .new⟩, ⟨northward, .moving 0, .new⟩]
  history :=
    [.published 0 (finite (pointAt eastward 0 10)),
      .published 1 (finite (pointAt northward 0 5)),
      .published 0 (finite (pointAt eastward 0 4))]

theorem run_arrived :
    machine.Run .init
      [.goal eastward, .goal northward, .run 0 0, .run 1 0,
        .run 0 4, .run 1 5, .run 0 10]
      arrived := by
  have hFirst :
      machine.Run (crossing []) [.run 0 4]
        (crossing
          [.published 0 (finite (pointAt eastward 0 4))]) := by
    refine .single ⟨_, rfl, by simp⟩ (congrArg Except.ok ?_)
    apply (pass_of_pos _ distance_eastward_pos).1
    · rw [time_eastward]
      norm_num
    · norm_num [eastward]
  have hSecond :
      machine.Run
        (crossing
          [.published 0 (finite (pointAt eastward 0 4))])
        [.run 1 5]
        (crossing
          [.published 1 (finite (pointAt northward 0 5)),
            .published 0 (finite (pointAt eastward 0 4))]) := by
    refine .single ⟨_, rfl, by simp⟩ (congrArg Except.ok ?_)
    apply (pass_of_pos _ distance_northward_pos).1
    · rw [time_northward]
      norm_num
    · norm_num [northward]
  have hLast :
      machine.Run
        (crossing
          [.published 1 (finite (pointAt northward 0 5)),
            .published 0 (finite (pointAt eastward 0 4))])
        [.run 0 10] arrived := by
    refine .single ⟨_, rfl, by simp⟩ (congrArg Except.ok ?_)
    apply (pass_of_pos _ distance_eastward_pos).2
    · rw [time_eastward]
      norm_num
    · norm_num [eastward]
  exact
    crossing_ready.of_restrict.trans
      (hFirst.trans (hSecond.trans hLast))

/- The general result for that run. -/
theorem follows_of_run_arriving :
    Follows eastward 0 [4, 10] (sent 0 arrived.history) ∧
      (Stage.leaving.Left ↔
        ∃ now ∈ [(4 : ℝ), 10],
          distance eastward / eastward.speed ≤ now - 0) := by
  have hSpeed : 0 < eastward.speed := by norm_num [eastward]
  have hIterations : iterations eastward 0 [4, 10] = [4, 10] := by
    rw [iterations, time_eastward]
    norm_num [upTo]
  refine
    follows_of_run (t := ⟨eastward, .leaving, .new⟩)
      run_arrived rfl ?_ ?_ hSpeed distance_eastward_pos
  · rfl
  · rw [hIterations]
    norm_num

end Move

end Manipulator
