import Manipulator.Double
import Manipulator.Machine
import Manipulator.Messages
import Mathlib

/-
  The move action server, `move.cpp`.

  Every accepted goal runs `execute` on a thread of its own.
  One step of a thread is one pass of its loop, with the
  reading of the clock that the pass makes. A coordinate
  that is no number is `none`.

  Main declarations:
    * `message`, `totalTime`, `progress`
    * `Stage`, `Thread`, `Server`
    * `machine`
    * `Finishes`, `ended_at_goal`
-/

------------------------------------------------------------
-- One Pass
------------------------------------------------------------

namespace Manipulator

namespace Move

section Messages

variable {K : Type} [Field K] [LinearOrder K]

/- `s + t * (g - s)`. -/
def interpolate (t : Double K) (s g : K) : Option K :=
  t.value?.map fun t => s + t * (g - s)

/- The message of a pass. -/
def message (goal : MoveGoal K) (t : Double K) : Pos (Option K)
    where
  x := interpolate t goal.sX goal.gX
  y := interpolate t goal.sY goal.gY
  z := interpolate t goal.sZ goal.gZ
  yaw := interpolate t goal.sYaw goal.gYaw
  grip := goal.grip
  mode := 0

/- The pose that a goal asks for. -/
def finalPose (goal : MoveGoal K) : Pos K where
  x := goal.gX
  y := goal.gY
  z := goal.gZ
  yaw := goal.gYaw
  grip := goal.grip
  mode := 0

/- A message of numbers only. -/
def finite (pose : Pos K) : Pos (Option K) where
  x := some pose.x
  y := some pose.y
  z := some pose.z
  yaw := some pose.yaw
  grip := pose.grip
  mode := pose.mode

/- The message of the pass that leaves the loop. -/
theorem message_at_end
    (goal : MoveGoal K)
    {t : Double K}
    (hEnd : t.clampOne.GeOne) :
    message goal t.clampOne = finite (finalPose goal) := by
  simp [message, interpolate, finite, finalPose,
    Double.value_clampOne hEnd]

end Messages

/- `distance`. -/
noncomputable def distance (goal : MoveGoal ℝ) : ℝ :=
  let dx := goal.gX - goal.sX
  let dy := goal.gY - goal.sY
  let dz := goal.gZ - goal.sZ
  √(dx * dx + dy * dy + dz * dz)

/- `total_time`. -/
noncomputable def totalTime (goal : MoveGoal ℝ) : Double ℝ :=
  (Double.ofField (distance goal)).div (.ofField goal.speed)

/- `t`, so many seconds after the start. -/
noncomputable def progress
    (goal : MoveGoal ℝ) (elapsed : ℝ) : Double ℝ :=
  ((Double.ofField elapsed).div (totalTime goal)).clampOne

------------------------------------------------------------
-- Steps
------------------------------------------------------------

/- Where a thread stands in `execute`. -/
inductive Stage where
| accepted
| moving (startTime : ℝ)
| leaving
| done

structure Thread where
  goal : MoveGoal ℝ
  stage : Stage
  handle : GoalHandle

inductive Event where
| published (goal : Nat) (pose : Pos (Option ℝ))
| cancelAccepted (goal : Nat)
| ended (goal : Nat) (handle : GoalHandle)

/- The goals are numbered as they are accepted. -/
structure Server where
  threads : List Thread
  history : List Event

inductive Input where
| goal (goal : MoveGoal ℝ)
| cancel (goal : Nat)
-- one action of the thread of a goal, at a clock reading
| run (goal : Nat) (now : ℝ)

namespace Server

def init : Server := ⟨[], []⟩

def setThread
    (goal : Nat) (t : Thread) (s : Server) : Server :=
  { s with threads := s.threads.set goal t }

def publish
    (goal : Nat) (pose : Pos (Option ℝ)) (s : Server) : Server :=
  { s with history := .published goal pose :: s.history }

/- `goal_handle->succeed`. -/
def succeed (goal : Nat) (t : Thread) (s : Server) : Server :=
  { s.setThread goal
      { t with stage := .done, handle := t.handle.succeed } with
    history := .ended goal t.handle.succeed :: s.history }

/- One pass of the loop. -/
noncomputable def pass
    (goal : Nat) (t : Thread)
    (startTime now : ℝ)
    (s : Server) : Server :=
  let progress := progress t.goal (now - startTime)
  let s := s.publish goal (message t.goal progress)
  if progress.GeOne then
    s.setThread goal { t with stage := .leaving }
  else s

/- The next action of the thread of a goal. -/
noncomputable def execute
    (goal : Nat) (t : Thread) (now : ℝ) (s : Server) : Server :=
  match t.stage with
  | .accepted => s.setThread goal { t with stage := .moving now }
  | .moving startTime => s.pass goal t startTime now
  | .leaving => s.succeed goal t
  | .done => s

def cancel (goal : Nat) (t : Thread) (s : Server) : Server :=
  { s.setThread goal { t with handle := t.handle.cancel } with
    history := .cancelAccepted goal :: s.history }

end Server

def Enabled (s : Server) : Input → Prop
| .goal _ => True
| .cancel goal => ∃ t ∈ s.threads[goal]?, t.handle.Executing
| .run goal _ => ∃ t ∈ s.threads[goal]?, t.stage ≠ .done

/- No step of this server throws. -/
noncomputable def step
    (s : Server) : Input → Except Empty Server
| .goal goal =>
    .ok { s with
      threads := s.threads ++ [⟨goal, .accepted, .new⟩] }
| .cancel goal =>
    match s.threads[goal]? with
    | some t => .ok (s.cancel goal t)
    | none => .ok s
| .run goal now =>
    match s.threads[goal]? with
    | some t => .ok (s.execute goal t now)
    | none => .ok s

noncomputable def machine : Machine Server Input Empty where
  Enabled := Enabled
  step := step

------------------------------------------------------------
-- Where A Goal Ends
------------------------------------------------------------

/- The last message that a goal published. -/
def lastOf (goal : Nat) : List Event → Option (Pos (Option ℝ))
| [] => none
| .published other pose :: earlier =>
    if other = goal then some pose else lastOf goal earlier
| _ :: earlier => lastOf goal earlier

/- The thread has left its loop. -/
def Stage.Left : Stage → Prop
| .leaving => True
| .done => True
| _ => False

/-
  A thread that has left its loop has published its final
  pose last, and only such a thread has ended its goal.
-/
def AtGoal (s : Server) : Prop :=
  ∀ (goal : Nat) (t : Thread), s.threads[goal]? = some t →
    (t.handle.ended ≠ none → t.stage.Left) ∧
      (t.stage.Left →
        lastOf goal s.history = some (finite (finalPose t.goal)))

namespace AtGoal

variable {s : Server}

theorem init : AtGoal Server.init := by
  intro goal t hThread
  simp [Server.init] at hThread

/-
  Replacing the thread of a goal, with the history it leaves
  behind.
-/
theorem setThread
    {goal : Nat} {t t' : Thread} {history : List Event}
    (hAt : AtGoal s)
    (hThread : s.threads[goal]? = some t)
    (hOthers :
      ∀ other, other ≠ goal →
        lastOf other history = lastOf other s.history)
    (hEnded : t'.handle.ended ≠ none → t'.stage.Left)
    (hLast :
      t'.stage.Left →
        lastOf goal history =
          some (finite (finalPose t'.goal))) :
    AtGoal { s.setThread goal t' with history := history } := by
  intro other u hOther
  by_cases hSame : goal = other
  · subst hSame
    have hLength : goal < s.threads.length :=
      (List.getElem?_eq_some_iff.mp hThread).1
    simp only [Server.setThread, List.getElem?_set_self hLength,
      Option.some.injEq] at hOther
    subst hOther
    exact ⟨hEnded, hLast⟩
  · simp only [Server.setThread, List.getElem?_set_ne hSame]
      at hOther
    simp only [hOthers other (Ne.symm hSame)]
    exact hAt other u hOther

theorem pass
    {goal : Nat} {t : Thread} {startTime now : ℝ}
    (hAt : AtGoal s)
    (hThread : s.threads[goal]? = some t)
    (hStage : t.stage = .moving startTime) :
    AtGoal (s.pass goal t startTime now) := by
  rcases hAt goal t hThread with ⟨hEnded, _⟩
  rw [hStage] at hEnded
  have hOthers :
      ∀ pose other, other ≠ goal →
        lastOf other (s.publish goal pose).history =
          lastOf other s.history := by
    intro pose other hOther
    simp [Server.publish, lastOf, Ne.symm hOther]
  unfold Server.pass
  by_cases hEnd : (progress t.goal (now - startTime)).GeOne
  · simp only [hEnd, if_true]
    apply hAt.setThread hThread
    · exact hOthers _
    · exact fun _ => trivial
    · intro _
      have hMessage := message_at_end t.goal hEnd
      simp only [Server.publish, lastOf, if_true]
      exact congrArg some hMessage
  · simp only [hEnd, if_false]
    intro other u hOther
    by_cases hSame : other = goal
    · subst hSame
      obtain rfl : t = u :=
        Option.some.inj (hThread.symm.trans hOther)
      rw [hStage]
      exact ⟨hEnded, False.elim⟩
    · rw [hOthers _ other hSame]
      exact hAt other u hOther

theorem execute
    {goal : Nat} {t : Thread} {now : ℝ}
    (hAt : AtGoal s)
    (hThread : s.threads[goal]? = some t) :
    AtGoal (s.execute goal t now) := by
  rcases hAt goal t hThread with ⟨hEnded, hLast⟩
  unfold Server.execute
  cases hStage : t.stage with
  | accepted =>
      rw [hStage] at hEnded
      apply hAt.setThread hThread
      · intro other _
        rfl
      · exact hEnded
      · exact False.elim
  | moving startTime => exact hAt.pass hThread hStage
  | leaving =>
      rw [hStage] at hLast
      apply hAt.setThread hThread
      · intro other _
        rfl
      · exact fun _ => trivial
      · intro _
        exact hLast trivial
  | done => exact hAt

theorem step
    {s' : Server} {i : Input}
    (hAt : AtGoal s)
    (hStep : Move.step s i = .ok s') : AtGoal s' := by
  cases i with
  | goal data =>
      cases hStep
      intro goal t hThread
      by_cases hLength : goal < s.threads.length
      · rw [List.getElem?_append_left hLength] at hThread
        exact hAt goal t hThread
      · rw [List.getElem?_append_right (not_lt.mp hLength)]
          at hThread
        have hNew := List.mem_of_getElem? hThread
        rw [List.mem_singleton] at hNew
        subst hNew
        exact ⟨fun hSome => absurd rfl hSome, False.elim⟩
  | cancel goal =>
      simp only [Move.step] at hStep
      cases hThread : s.threads[goal]? with
      | none =>
          rw [hThread] at hStep
          cases hStep
          exact hAt
      | some t =>
          rw [hThread] at hStep
          cases hStep
          rcases hAt goal t hThread with ⟨hEnded, hLast⟩
          apply hAt.setThread hThread
          · intro other _
            rfl
          · exact hEnded
          · exact hLast
  | run goal now =>
      simp only [Move.step] at hStep
      cases hThread : s.threads[goal]? with
      | none =>
          rw [hThread] at hStep
          cases hStep
          exact hAt
      | some t =>
          rw [hThread] at hStep
          cases hStep
          exact hAt.execute hThread

end AtGoal

/- A goal that has ended was commanded to its final pose. -/
theorem ended_at_goal
    {is : List Input} {s : Server}
    {goal : Nat} {t : Thread}
    (hRun : machine.Run .init is s)
    (hThread : s.threads[goal]? = some t)
    (hEnded : t.handle.ended ≠ none) :
    lastOf goal s.history =
      some (finite (finalPose t.goal)) := by
  have hAt : AtGoal s := by
    apply hRun.invariant AtGoal.init
    intro u i v hAt _ hStep
    exact hAt.step hStep
  rcases hAt goal t hThread with ⟨hLeft, hLast⟩
  exact hLast (hLeft hEnded)

end Move

end Manipulator
