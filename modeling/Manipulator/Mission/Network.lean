import Manipulator.Mission.System

/-
  What a step outside the tree can do.

  Every possible step is one of a few cases. Two facts hold
  in every world: the goals of the approach server are the
  approach goals that execute, and a goal that the history
  calls ended has ended. A message of the approach server
  comes from such a goal, or it is a stray one, in a world in
  which messages may be late.

  Main declarations:
    * `EnvStep`, `react_cases`
    * `Emits`, `Stray`
    * `Sane`, `Sane.env`
    * `EnvStep.follows`, `EnvStep.history`
-/

------------------------------------------------------------
-- Cases
------------------------------------------------------------

namespace Manipulator

namespace Mission

variable {K S I : Type} [Field K] [LinearOrder K]

/-
  `EnvStep A Late w w'`: one step outside the tree leads from
  `w` to `w'`. While no approach goal executes, messages of
  the approach server come in worlds that are `Late`.
-/
inductive EnvStep
    (A : ApproachServer K S I)
    (Late : World K S → Prop)
    (w : World K S) : World K S → Prop where
| quiet
    {ready : ActionName → Bool} {timeout : Bool}
    {timerWaiting : SleepId → Bool} {server : S}
    (hServer : A.executing server = A.executing w.server) :
    EnvStep A Late w
      { w with
        ready := ready
        timeout := timeout
        timerWaiting := timerWaiting
        server := server }
| published
    {server : S} {pose : Pos K}
    (hServer : A.executing server = A.executing w.server)
    (hLate : A.executing w.server = [] → Late w)
    (hGrip : pose.grip = "open") :
    EnvStep A Late w ({ w with server := server }.command pose)
| started
    {goal : Nat} {r : GoalRecord K} {server : S}
    (hGoal : w.goals[goal]? = some r)
    (hStage : r.stage = .requested)
    (hServer :
      A.executing server =
        if r.goal.actionName = .approach then
          goal :: A.executing w.server
        else A.executing w.server) :
    EnvStep A Late w
      { w.setStage goal r (.executing false)
          (.started goal r.goal.actionName) with
        server := server }
| iterated
    {goal : Nat} {r : GoalRecord K}
    {data : MoveGoal K} {t : Double K}
    (hGoal : w.goals[goal]? = some r)
    (hData : r.goal = .move data)
    (hStage : r.stage = .executing false) :
    EnvStep A Late w
      (w.setStage goal r
        (.executing (decide t.clampOne.GeOne))
        (.commanded (Move.message data t.clampOne)))
| ended
    {goal : Nat} {r : GoalRecord K} {left : Bool}
    {code : Terminal} {result : ApproachResult K}
    (hGoal : w.goals[goal]? = some r)
    (hAction : r.goal.actionName ≠ .approach)
    (hStage : r.stage = .executing left)
    (hLeft :
      ∀ data, r.goal = .move data → code = .succeeded →
        left = true) :
    EnvStep A Late w (w.finish goal r code result)
| returned
    {goal : Nat} {r : GoalRecord K} {left : Bool}
    {code : Terminal} {result : ApproachResult K} {server : S}
    (hGoal : w.goals[goal]? = some r)
    (hStage : r.stage = .executing left)
    (hServer :
      (A.executing w.server).Perm
        (goal :: A.executing server)) :
    EnvStep A Late w
      ({ w with server := server }.finish goal r code result)
| responded
    {goal : Nat} {r : GoalRecord K}
    (hGoal : w.goals[goal]? = some r)
    (hNew : r.responded = false) :
    EnvStep A Late w
      ((w.setGoal goal { r with responded := true }).setClient
        r.node ((w.client r.node).respond goal (some goal)))
| delivered
    {goal : Nat} {r : GoalRecord K}
    {code : Terminal} {result : ApproachResult K}
    {c : Client K}
    (hGoal : w.goals[goal]? = some r)
    (hStage : r.stage = .ended code result)
    (hResponded : r.responded = true)
    (hNew : r.delivered = false)
    (hFuture :
      (w.client r.node).futureGoalHandle ≠ .ready (some goal))
    (hCallback :
      (w.client r.node).resultCallback ⟨goal, code, result⟩ =
        .ok c) :
    EnvStep A Late w
      ((w.setGoal goal { r with delivered := true }).setClient
        r.node c)

variable {A : ApproachServer K S I} {Late : World K S → Prop}
variable {w w' : World K S}

omit [Field K] [LinearOrder K] in
/- A step on a goal is a step on its record. -/
theorem bind_goal
    {goal : Nat} {f : GoalRecord K → Option (World K S)}
    (hReact : (w.goals[goal]?).bind f = some w') :
    ∃ r, w.goals[goal]? = some r ∧ f r = some w' :=
  Option.bind_eq_some_iff.mp hReact

theorem accept_cases
    {goal : Nat} {r : GoalRecord K}
    (hGoal : w.goals[goal]? = some r)
    (hReact : w.accept A goal r = some w') :
    EnvStep A Late w w' := by
  unfold World.accept at hReact
  cases hStage : r.stage with
  | requested =>
      simp only [hStage] at hReact
      by_cases hAction : r.goal.actionName = .approach
      · rw [if_pos hAction] at hReact
        cases hReact
        apply EnvStep.started hGoal hStage
        rw [if_pos hAction]
        exact A.executing_goal goal w.server
      · rw [if_neg hAction] at hReact
        cases hReact
        refine EnvStep.started hGoal hStage ?_
        rw [if_neg hAction]
        rfl
  | executing left =>
      simp [hStage] at hReact
  | ended code result =>
      simp [hStage] at hReact

theorem respond_cases
    {goal : Nat} {r : GoalRecord K}
    (hGoal : w.goals[goal]? = some r)
    (hReact : w.respond goal r = some w') :
    EnvStep A Late w w' := by
  unfold World.respond at hReact
  cases hResponded : r.responded with
  | true =>
      cases hStage : r.stage <;>
        simp [hStage, hResponded] at hReact
  | false =>
      have hStep :
          some ((w.setGoal goal { r with responded := true }).setClient
            r.node ((w.client r.node).respond goal (some goal))) =
            some w' := by
        cases hStage : r.stage with
        | requested => simp [hStage] at hReact
        | executing left =>
            simpa [hStage, hResponded] using hReact
        | ended code result =>
            simpa [hStage, hResponded] using hReact
      cases hStep
      exact .responded hGoal hResponded

theorem iterate_cases
    {goal : Nat} {r : GoalRecord K} {t : Double K}
    (hGoal : w.goals[goal]? = some r)
    (hReact : w.iterate goal r t = some w') :
    EnvStep A Late w w' := by
  unfold World.iterate at hReact
  split at hReact
  · rename_i data hData hStage
    cases hReact
    exact .iterated hGoal hData hStage
  · cases hReact

theorem succeed_cases
    {goal : Nat} {r : GoalRecord K}
    (hGoal : w.goals[goal]? = some r)
    (hReact : w.succeed goal r = some w') :
    EnvStep A Late w w' := by
  unfold World.succeed at hReact
  split at hReact
  · rename_i data hData hStage
    cases hReact
    exact .ended hGoal (by simp [hData, Goal.actionName]) hStage
      fun _ _ _ => rfl
  · rename_i left hData hStage
    cases hReact
    apply EnvStep.ended hGoal
      (by simp [hData, Goal.actionName]) hStage
    intro data hMove
    rw [hData] at hMove
    cases hMove
  · cases hReact

theorem abort_cases
    {goal : Nat} {r : GoalRecord K}
    (hGoal : w.goals[goal]? = some r)
    (hReact : w.abort goal r = some w') :
    EnvStep A Late w w' := by
  unfold World.abort at hReact
  split at hReact
  · cases hReact
  · rename_i left hStage hData
    cases hReact
    refine EnvStep.ended hGoal ?_ hStage ?_
    · intro hAction
      cases hGoalData : r.goal with
      | approach => exact hData hGoalData
      | move data => simp [hGoalData, Goal.actionName] at hAction
      | conveyor => simp [hGoalData, Goal.actionName] at hAction
    · intro _ _ hCode
      cases hCode
  · cases hReact

theorem approach_cases
    {input : I}
    (hLate : ¬ w.Timely A (.approach input) → Late w)
    (hReact : w.approach A input = some w') :
    EnvStep A Late w w' := by
  unfold World.approach at hReact
  split at hReact
  · cases hReact
  · rename_i server hStep
    cases hReact
    exact .quiet (A.executing_silent _ _ _ hStep)
  · rename_i server pose hStep
    cases hReact
    rcases A.executing_published _ _ _ _ hStep with
      ⟨hServer, hGrip⟩
    refine .published hServer (fun hIdle => hLate ?_) hGrip
    intro hTimely
    exact hTimely _ (Option.mem_def.mpr hStep) trivial hIdle
  · rename_i server goal code result hStep
    have hServer := A.executing_returned _ _ _ _ _ _ hStep
    split at hReact
    · cases hReact
    · rename_i r hGoal
      split at hReact
      · rename_i left hStage
        cases hReact
        exact .returned hGoal hStage hServer
      · cases hReact

theorem deliver_cases
    {goal : Nat} {r : GoalRecord K}
    (hGoal : w.goals[goal]? = some r)
    (hReact : w.deliver goal r = some w') :
    EnvStep A Late w w' := by
  simp only [World.deliver] at hReact
  split at hReact
  · rename_i code result hStage
    split at hReact
    · rename_i hPossible
      rcases hPossible with ⟨hResponded, hNew, hFuture⟩
      split at hReact
      · rename_i c hCallback
        cases hReact
        exact .delivered hGoal hStage hResponded hNew hFuture
          hCallback
      · cases hReact
    · cases hReact
  · cases hReact

/- Every possible step is one of the cases. -/
theorem react_cases
    {input : EnvInput K I}
    (hLate : ¬ w.Timely A input → Late w)
    (hReact : w.react A input = some w') :
    EnvStep A Late w w' := by
  cases input with
  | observe ready timeout =>
      cases hReact
      exact .quiet rfl
  | timer id =>
      cases hReact
      exact .quiet rfl
  | accept goal =>
      rcases bind_goal hReact with ⟨r, hGoal, hReact⟩
      exact accept_cases hGoal hReact
  | respond goal =>
      rcases bind_goal hReact with ⟨r, hGoal, hReact⟩
      exact respond_cases hGoal hReact
  | iterate goal t =>
      rcases bind_goal hReact with ⟨r, hGoal, hReact⟩
      exact iterate_cases hGoal hReact
  | succeed goal =>
      rcases bind_goal hReact with ⟨r, hGoal, hReact⟩
      exact succeed_cases hGoal hReact
  | abort goal =>
      rcases bind_goal hReact with ⟨r, hGoal, hReact⟩
      exact abort_cases hGoal hReact
  | approach input => exact approach_cases hLate hReact
  | deliver goal =>
      rcases bind_goal hReact with ⟨r, hGoal, hReact⟩
      exact deliver_cases hGoal hReact

------------------------------------------------------------
-- Records
------------------------------------------------------------

/- `r'` is a later state of the goal that `r` records. -/
structure GoalRecord.Follows
    (r r' : GoalRecord K) : Prop where
  node : r'.node = r.node
  goal : r'.goal = r.goal
  alive : r'.Alive → r.Alive
  delivered : r.delivered = true → r'.delivered = true

omit [Field K] [LinearOrder K] in
theorem GoalRecord.Follows.refl (r : GoalRecord K) :
    r.Follows r :=
  ⟨rfl, rfl, id, id⟩

omit [Field K] [LinearOrder K] in
/- A goal that has not ended may change its stage. -/
theorem GoalRecord.Follows.stage
    {r : GoalRecord K}
    (hAlive : r.Alive)
    (stage : Stage K) :
    r.Follows { r with stage := stage } :=
  ⟨rfl, rfl, fun _ => hAlive, id⟩

omit [Field K] [LinearOrder K] in
theorem GoalRecord.Follows.responded (r : GoalRecord K) :
    r.Follows { r with responded := true } :=
  ⟨rfl, rfl, id, id⟩

omit [Field K] [LinearOrder K] in
theorem GoalRecord.Follows.deliver (r : GoalRecord K) :
    r.Follows { r with delivered := true } :=
  ⟨rfl, rfl, id, fun _ => rfl⟩

omit [Field K] [LinearOrder K] in
theorem alive_of_requested
    {r : GoalRecord K}
    (hStage : r.stage = .requested) : r.Alive := by
  intro code result hEnded
  rw [hStage] at hEnded
  cases hEnded

omit [Field K] [LinearOrder K] in
theorem alive_of_executing
    {r : GoalRecord K} {left : Bool}
    (hStage : r.stage = .executing left) : r.Alive := by
  intro code result hEnded
  rw [hStage] at hEnded
  cases hEnded

omit [Field K] [LinearOrder K] in
theorem not_requested_of_executing
    {r : GoalRecord K} {left : Bool}
    (hStage : r.stage = .executing left) :
    r.stage ≠ .requested := by
  intro hRequested
  rw [hStage] at hRequested
  cases hRequested

omit [Field K] [LinearOrder K] in
theorem not_alive_of_ended
    {r : GoalRecord K}
    {code : Terminal} {result : ApproachResult K}
    (hStage : r.stage = .ended code result) : ¬ r.Alive :=
  fun hAlive => hAlive code result hStage

omit [Field K] [LinearOrder K] in
/- Replacing one record by a later one. -/
theorem set_follows
    {goals : List (GoalRecord K)} {goal : Nat}
    {r r' : GoalRecord K}
    (hGoal : goals[goal]? = some r)
    (hFollows : r.Follows r')
    (other : Nat) :
    Option.Rel GoalRecord.Follows
      goals[other]? (goals.set goal r')[other]? := by
  by_cases hSame : goal = other
  · subst hSame
    have hLength := (List.getElem?_eq_some_iff.mp hGoal).1
    rw [hGoal, List.getElem?_set_self hLength]
    exact .some hFollows
  · rw [List.getElem?_set_ne hSame]
    cases goals[other]? with
    | none => exact .none
    | some r => exact .some (.refl r)

omit [Field K] [LinearOrder K] in
theorem follows_refl (goals : List (GoalRecord K)) (goal : Nat) :
    Option.Rel GoalRecord.Follows goals[goal]? goals[goal]? := by
  cases goals[goal]? with
  | none => exact .none
  | some r => exact .some (.refl r)

namespace EnvStep

/- Every record is followed by one of the same goal. -/
theorem follows
    (hStep : EnvStep A Late w w') (goal : Nat) :
    Option.Rel GoalRecord.Follows
      w.goals[goal]? w'.goals[goal]? := by
  cases hStep with
  | quiet => exact follows_refl _ goal
  | published => exact follows_refl _ goal
  | started hGoal hStage =>
      exact set_follows hGoal
        (.stage (alive_of_requested hStage) _) goal
  | iterated hGoal hData hStage =>
      exact set_follows hGoal
        (.stage (alive_of_executing hStage) _) goal
  | ended hGoal hAction hStage =>
      exact set_follows hGoal
        (.stage (alive_of_executing hStage) _) goal
  | returned hGoal hStage =>
      exact set_follows hGoal
        (.stage (alive_of_executing hStage) _) goal
  | responded hGoal hNew =>
      exact set_follows hGoal (.responded _) goal
  | delivered hGoal hStage hResponded hNew =>
      exact set_follows hGoal (.deliver _) goal

/- A record that is there stays there. -/
theorem later
    (hStep : EnvStep A Late w w')
    {goal : Nat} {r : GoalRecord K}
    (hGoal : w.goals[goal]? = some r) :
    ∃ r', w'.goals[goal]? = some r' ∧ r.Follows r' := by
  have hRel := hStep.follows goal
  rw [hGoal] at hRel
  generalize hLater : w'.goals[goal]? = later at hRel
  cases hRel with
  | some hFollows => exact ⟨_, rfl, hFollows⟩

/- A record that is there was there. -/
theorem earlier
    (hStep : EnvStep A Late w w')
    {goal : Nat} {r' : GoalRecord K}
    (hGoal : w'.goals[goal]? = some r') :
    ∃ r, w.goals[goal]? = some r ∧ r.Follows r' := by
  have hRel := hStep.follows goal
  rw [hGoal] at hRel
  generalize hEarlier : w.goals[goal]? = earlier at hRel
  cases hRel with
  | some hFollows => exact ⟨_, rfl, hFollows⟩

theorem blackboard
    (hStep : EnvStep A Late w w') :
    w'.blackboard = w.blackboard := by
  cases hStep <;> rfl

/- Goal handles are set by ticks only. -/
theorem goalHandle
    (hStep : EnvStep A Late w w') (n : NodeId) :
    (w'.client n).goalHandle = (w.client n).goalHandle := by
  cases hStep with
  | quiet => rfl
  | published => rfl
  | started => rfl
  | iterated => rfl
  | ended => rfl
  | returned => rfl
  | responded hGoal hNew =>
      rename_i goal r
      by_cases hNode : n = r.node
      · subst hNode
        simp only [World.setClient, Function.update_self,
          Client.respond]
        split <;> rfl
      · simp [World.setClient, Function.update_of_ne hNode,
          World.setGoal]
  | delivered hGoal hStage hResponded hNew hFuture hCallback =>
      rename_i goal r code result c
      by_cases hNode : n = r.node
      · subst hNode
        simp only [World.setClient, Function.update_self]
        unfold Client.resultCallback at hCallback
        split at hCallback
        · cases hCallback
        · split at hCallback
          · cases hCallback
            rfl
          · cases hCallback
            rfl
      · simp [World.setClient, Function.update_of_ne hNode,
          World.setGoal]

end EnvStep

------------------------------------------------------------
-- Sane Worlds
------------------------------------------------------------

/-
  What the execution of a goal can add to the history: its
  start, once, then its commands, and its end.
-/
inductive Emits
    (h : List (Event K)) (goal : Nat) :
    Goal K → Event K → Prop where
| started
    {data : Goal K}
    (hNew : .started goal data.actionName ∉ h) :
    Emits h goal data (.started goal data.actionName)
| moved
    {data : MoveGoal K} {t : Double K}
    (hStarted : .started goal .move ∈ h) :
    Emits h goal (.move data)
      (.commanded (Move.message data t.clampOne))
| published
    {pose : Pos K}
    (hStarted : .started goal .approach ∈ h)
    (hGrip : pose.grip = "open")
    (hOpen : ∀ code result, .ended goal .approach code result ∉ h) :
    Emits h goal .approach (.commanded (Move.finite pose))
| ended
    {data : Goal K}
    {code : Terminal} {result : ApproachResult K} :
    Emits h goal data
      (.ended goal data.actionName code result)

/- A message of the approach server, from no goal of it. -/
inductive Stray : Event K → Prop where
| published
    {pose : Pos K}
    (hGrip : pose.grip = "open") :
    Stray (.commanded (Move.finite pose))

/- The record of an approach goal that executes. -/
def Approaching (w : World K S) (goal : Nat) : Prop :=
  ∃ r left, w.goals[goal]? = some r ∧ r.goal = .approach ∧
    r.stage = .executing left

/-
  The history has the event of a goal exactly when the goal's
  record has the property.
-/
def Told
    (event : Nat → Event K)
    (P : GoalRecord K → Prop)
    (goals : List (GoalRecord K))
    (h : List (Event K)) : Prop :=
  ∀ goal, event goal ∈ h ↔ ∃ r, goals[goal]? = some r ∧ P r

/- A goal of the action that was accepted. -/
def GoalRecord.Begun
    (action : ActionName) (r : GoalRecord K) : Prop :=
  r.goal.actionName = action ∧ r.stage ≠ .requested

/- A goal of the action that ended with the result. -/
def GoalRecord.EndedWith
    (action : ActionName)
    (code : Terminal)
    (result : ApproachResult K)
    (r : GoalRecord K) : Prop :=
  r.goal.actionName = action ∧ r.stage = .ended code result

structure Sane
    (A : ApproachServer K S I) (w : World K S) : Prop where
  executing :
    ∀ goal ∈ A.executing w.server, Approaching w goal
  nodup : (A.executing w.server).Nodup
  started :
    ∀ action,
      Told (.started · action) (GoalRecord.Begun action) w.goals w.history
  ended :
    ∀ action code result,
      Told (.ended · action code result)
        (GoalRecord.EndedWith action code result) w.goals w.history

section Histories

omit [Field K] [LinearOrder K]

variable {event : Nat → Event K} {P : GoalRecord K → Prop}
variable {goals : List (GoalRecord K)} {h h' : List (Event K)}

/-
  Another record for a goal, and what the history gains with
  it.
-/
theorem Told.set
    {goal : Nat} {r r' : GoalRecord K}
    (New : Prop)
    (hTold : Told event P goals h)
    (hGoal : goals[goal]? = some r)
    (hHistory :
      ∀ other, event other ∈ h' ↔
        (other = goal ∧ New) ∨ event other ∈ h)
    (hRecord : P r' ↔ New ∨ P r) :
    Told event P (goals.set goal r') h' := by
  intro other
  rw [hHistory, hTold other]
  by_cases hSame : other = goal
  · subst hSame
    have hLength := (List.getElem?_eq_some_iff.mp hGoal).1
    simp [List.getElem?_set_self hLength, hGoal, hRecord]
  · simp [List.getElem?_set_ne (Ne.symm hSame), hSame]

/- A new goal, of which the history has nothing to tell. -/
theorem Told.append
    {r : GoalRecord K}
    (hTold : Told event P goals h)
    (hHistory : ∀ goal, event goal ∈ h' ↔ event goal ∈ h)
    (hRecord : ¬ P r) :
    Told event P (goals ++ [r]) h' := by
  intro goal
  rw [hHistory, hTold goal]
  by_cases hLength : goal < goals.length
  · rw [List.getElem?_append_left hLength]
  · have hNone : goals[goal]? = none :=
      List.getElem?_eq_none (not_lt.mp hLength)
    rw [List.getElem?_append_right (not_lt.mp hLength), hNone]
    constructor
    · rintro ⟨_, hGoal, _⟩
      cases hGoal
    · rintro ⟨r', hGoal, hHere⟩
      have hMember := List.mem_of_getElem? hGoal
      rw [List.mem_singleton] at hMember
      subst hMember
      exact absurd hHere hRecord

theorem Told.congr
    (hTold : Told event P goals h)
    (hHistory : ∀ goal, event goal ∈ h' ↔ event goal ∈ h) :
    Told event P goals h' := by
  intro goal
  rw [hHistory]
  exact hTold goal

end Histories

namespace Sane

omit [Field K] [LinearOrder K] in
/- The start of a goal that executes or has ended. -/
theorem mem_started
    {goal : Nat} {r : GoalRecord K}
    (hSane : Sane A w)
    (hGoal : w.goals[goal]? = some r)
    (hStage : r.stage ≠ .requested) :
    .started goal r.goal.actionName ∈ w.history :=
  (hSane.started _ goal).mpr ⟨r, hGoal, rfl, hStage⟩

omit [Field K] [LinearOrder K] in
theorem not_mem_started
    {goal : Nat} {r : GoalRecord K} {action : ActionName}
    (hSane : Sane A w)
    (hGoal : w.goals[goal]? = some r)
    (hStage : r.stage = .requested) :
    .started goal action ∉ w.history := by
  intro hMember
  rcases (hSane.started _ goal).mp hMember with
    ⟨r', hGoal', _, hBegun⟩
  cases hGoal.symm.trans hGoal'
  exact hBegun hStage

omit [Field K] [LinearOrder K] in
/- The end of a goal that has ended. -/
theorem mem_ended
    {goal : Nat} {r : GoalRecord K}
    {code : Terminal} {result : ApproachResult K}
    (hSane : Sane A w)
    (hGoal : w.goals[goal]? = some r)
    (hStage : r.stage = .ended code result) :
    .ended goal r.goal.actionName code result ∈ w.history :=
  (hSane.ended _ _ _ goal).mpr ⟨r, hGoal, rfl, hStage⟩

omit [Field K] [LinearOrder K] in
theorem not_alive
    {goal : Nat} {action : ActionName}
    {code : Terminal} {result : ApproachResult K}
    (hSane : Sane A w)
    (hMember : .ended goal action code result ∈ w.history) :
    ∃ r, w.goals[goal]? = some r ∧ ¬ r.Alive := by
  rcases (hSane.ended _ _ _ goal).mp hMember with
    ⟨r, hGoal, _, hStage⟩
  exact ⟨r, hGoal, not_alive_of_ended hStage⟩

omit [Field K] [LinearOrder K] in
theorem not_mem_ended
    {goal : Nat} {r : GoalRecord K} {action : ActionName}
    (hSane : Sane A w)
    (hGoal : w.goals[goal]? = some r)
    (hAlive : r.Alive)
    (code : Terminal) (result : ApproachResult K) :
    .ended goal action code result ∉ w.history := by
  intro hMember
  rcases hSane.not_alive hMember with ⟨r', hGoal', hEnded⟩
  cases hGoal.symm.trans hGoal'
  exact hEnded hAlive

end Sane

namespace EnvStep

/-
  A step adds at most one event, which the execution of a
  goal that has not ended gives rise to, or a late message.
-/
theorem history
    (hStep : EnvStep A Late w w') (hSane : Sane A w) :
    w'.history = w.history ∨
      ∃ event, w'.history = event :: w.history ∧
        ((∃ (goal : Nat) (r : GoalRecord K),
            w.goals[goal]? = some r ∧ r.Alive ∧
              Emits w.history goal r.goal event) ∨
          (Late w ∧ Stray event)) := by
  cases hStep with
  | quiet => exact .inl rfl
  | published hServer hLate hGrip =>
      refine .inr ⟨_, rfl, ?_⟩
      by_cases hIdle : A.executing w.server = []
      · exact .inr ⟨hLate hIdle, .published hGrip⟩
      · rcases List.exists_mem_of_ne_nil _ hIdle with
          ⟨goal, hMember⟩
        rcases hSane.executing goal hMember with
          ⟨r, left, hGoal, hData, hStage⟩
        refine .inl ⟨goal, r, hGoal,
          alive_of_executing hStage, ?_⟩
        have hStarted :=
          hSane.mem_started hGoal
            (not_requested_of_executing hStage)
        rw [hData] at hStarted ⊢
        exact .published hStarted hGrip
          (hSane.not_mem_ended hGoal (alive_of_executing hStage))
  | started hGoal hStage =>
      exact .inr ⟨_, rfl, .inl ⟨_, _, hGoal,
        alive_of_requested hStage,
        .started (hSane.not_mem_started hGoal hStage)⟩⟩
  | iterated hGoal hData hStage =>
      refine .inr ⟨_, rfl, .inl ⟨_, _, hGoal,
        alive_of_executing hStage, ?_⟩⟩
      have hStarted :=
        hSane.mem_started hGoal (not_requested_of_executing hStage)
      rw [hData] at hStarted ⊢
      exact .moved hStarted
  | ended hGoal hAction hStage =>
      exact .inr ⟨_, rfl, .inl ⟨_, _, hGoal,
        alive_of_executing hStage, .ended⟩⟩
  | returned hGoal hStage =>
      exact .inr ⟨_, rfl, .inl ⟨_, _, hGoal,
        alive_of_executing hStage, .ended⟩⟩
  | responded => exact .inl rfl
  | delivered => exact .inl rfl

end EnvStep

omit [Field K] [LinearOrder K] in
/- A goal other than the one whose record changes. -/
theorem Approaching.set_of_ne
    {goal other : Nat} {r' : GoalRecord K}
    (hOther : Approaching w other)
    (hNe : goal ≠ other)
    (hGoals : w'.goals = w.goals.set goal r') :
    Approaching w' other := by
  rcases hOther with ⟨r, left, hGoal, hData, hStage⟩
  refine ⟨r, left, ?_, hData, hStage⟩
  rw [hGoals, List.getElem?_set_ne hNe]
  exact hGoal

omit [Field K] [LinearOrder K] in
/- The goal whose record changes. -/
theorem Approaching.set_self
    {goal : Nat} {r r' : GoalRecord K} {left : Bool}
    (hGoal : w.goals[goal]? = some r)
    (hGoals : w'.goals = w.goals.set goal r')
    (hData : r'.goal = .approach)
    (hStage : r'.stage = .executing left) :
    Approaching w' goal := by
  have hLength := (List.getElem?_eq_some_iff.mp hGoal).1
  refine ⟨r', left, ?_, hData, hStage⟩
  rw [hGoals, List.getElem?_set_self hLength]

omit [Field K] [LinearOrder K] in
/- An approach goal that executes has the record it has. -/
theorem Approaching.record
    {goal : Nat} {r : GoalRecord K}
    (hApproaching : Approaching w goal)
    (hGoal : w.goals[goal]? = some r) :
    r.goal = .approach ∧ ∃ left, r.stage = .executing left := by
  rcases hApproaching with ⟨r', left, hGoal', hData, hStage⟩
  rw [hGoal] at hGoal'
  cases hGoal'
  exact ⟨hData, left, hStage⟩

omit [Field K] [LinearOrder K] in
theorem actionName_approach
    {goal : Goal K}
    (hAction : goal.actionName = .approach) :
    goal = .approach := by
  cases goal with
  | approach => rfl
  | move data => cases hAction
  | conveyor => cases hAction

namespace Sane

/- The goals of the approach server after a step. -/
theorem env_executing
    (hSane : Sane A w) (hStep : EnvStep A Late w w') :
    ∀ goal ∈ A.executing w'.server, Approaching w' goal := by
  intro other hOther
  cases hStep with
  | quiet hServer =>
      rw [hServer] at hOther
      exact hSane.executing other hOther
  | @published server pose hServer =>
      change other ∈ A.executing server at hOther
      rw [hServer] at hOther
      exact hSane.executing other hOther
  | @started goal r server hGoal hStage hServer =>
      change other ∈ A.executing server at hOther
      by_cases hSame : goal = other
      · subst hSame
        by_cases hAction : r.goal.actionName = .approach
        · exact .set_self hGoal rfl
            (actionName_approach hAction) rfl
        · rw [hServer, if_neg hAction] at hOther
          rcases (hSane.executing goal hOther).record hGoal with
            ⟨hData, _⟩
          rw [hData] at hAction
          exact absurd rfl hAction
      · refine (hSane.executing other ?_).set_of_ne hSame rfl
        rw [hServer] at hOther
        split at hOther
        · rcases List.mem_cons.mp hOther with hHere | hOther
          · exact absurd hHere.symm hSame
          · exact hOther
        · exact hOther
  | @iterated goal r data t hGoal hData hStage =>
      have hApproaching := hSane.executing other hOther
      refine hApproaching.set_of_ne ?_ rfl
      intro hSame
      subst hSame
      cases (hApproaching.record hGoal).1.symm.trans hData
  | @ended goal r left code result hGoal hAction hStage =>
      have hApproaching := hSane.executing other hOther
      refine hApproaching.set_of_ne ?_ rfl
      intro hSame
      subst hSame
      rw [(hApproaching.record hGoal).1] at hAction
      exact hAction rfl
  | @returned goal r left code result server hGoal hStage
      hServer =>
      change other ∈ A.executing server at hOther
      have hMember : other ∈ A.executing w.server :=
        hServer.mem_iff.mpr (List.mem_cons_of_mem goal hOther)
      refine (hSane.executing other hMember).set_of_ne ?_ rfl
      intro hSame
      subst hSame
      have hNodup := hServer.nodup_iff.mp hSane.nodup
      exact (List.nodup_cons.mp hNodup).1 hOther
  | @responded goal r hGoal hNew =>
      have hApproaching := hSane.executing other hOther
      by_cases hSame : goal = other
      · subst hSame
        rcases hApproaching.record hGoal with
          ⟨hData, left, hStage⟩
        exact .set_self hGoal rfl hData hStage
      · exact hApproaching.set_of_ne hSame rfl
  | @delivered goal r code result c hGoal hStage =>
      have hApproaching := hSane.executing other hOther
      refine hApproaching.set_of_ne ?_ rfl
      intro hSame
      subst hSame
      rcases (hApproaching.record hGoal).2 with ⟨left, hLeft⟩
      rw [hStage] at hLeft
      cases hLeft

/- No goal executes twice. -/
theorem env_nodup
    (hSane : Sane A w) (hStep : EnvStep A Late w w') :
    (A.executing w'.server).Nodup := by
  cases hStep with
  | quiet hServer => exact hServer ▸ hSane.nodup
  | @published server pose hServer =>
      change (A.executing server).Nodup
      exact hServer ▸ hSane.nodup
  | @started goal r server hGoal hStage hServer =>
      change (A.executing server).Nodup
      rw [hServer]
      split
      · apply List.nodup_cons.mpr ⟨_, hSane.nodup⟩
        intro hMember
        rcases (hSane.executing goal hMember).record hGoal with
          ⟨_, left, hLeft⟩
        rw [hStage] at hLeft
        cases hLeft
      · exact hSane.nodup
  | iterated => exact hSane.nodup
  | ended => exact hSane.nodup
  | returned hGoal hStage hServer =>
      have hNodup := hServer.nodup_iff.mp hSane.nodup
      exact (List.nodup_cons.mp hNodup).2
  | responded => exact hSane.nodup
  | delivered => exact hSane.nodup

/- The starts of goals, after a step. -/
theorem env_started
    (hSane : Sane A w) (hStep : EnvStep A Late w w')
    (action : ActionName) :
    Told (.started · action) (GoalRecord.Begun action) w'.goals
      w'.history := by
  have hTold := hSane.started action
  cases hStep with
  | quiet => exact hTold
  | published =>
      exact hTold.congr (by simp)
  | @started goal r server hGoal hStage =>
      apply hTold.set (action = r.goal.actionName) hGoal
      · simp
      · simp [GoalRecord.Begun, hStage, eq_comm]
  | iterated hGoal hData hStage =>
      apply hTold.set False hGoal
      · simp
      · simp [GoalRecord.Begun, hStage]
  | ended hGoal hAction hStage =>
      apply hTold.set False hGoal
      · simp
      · simp [GoalRecord.Begun, hStage]
  | returned hGoal hStage =>
      apply hTold.set False hGoal
      · simp
      · simp [GoalRecord.Begun, hStage]
  | responded hGoal =>
      apply hTold.set False hGoal
      · simp
      · simp [GoalRecord.Begun]
  | delivered hGoal =>
      apply hTold.set False hGoal
      · simp
      · simp [GoalRecord.Begun]

/- The ends of goals, after a step. -/
theorem env_ended
    (hSane : Sane A w) (hStep : EnvStep A Late w w')
    (action : ActionName)
    (code : Terminal) (result : ApproachResult K) :
    Told (.ended · action code result)
      (GoalRecord.EndedWith action code result) w'.goals w'.history := by
  have hTold := hSane.ended action code result
  cases hStep with
  | quiet => exact hTold
  | published =>
      exact hTold.congr (by simp)
  | started hGoal hStage =>
      apply hTold.set False hGoal
      · simp
      · simp [GoalRecord.EndedWith, hStage]
  | iterated hGoal hData hStage =>
      apply hTold.set False hGoal
      · simp
      · simp [GoalRecord.EndedWith, hStage]
  | @ended goal r left code' result' hGoal hAction hStage =>
      apply hTold.set
        (action = r.goal.actionName ∧ code = code' ∧
          result = result') hGoal
      · simp
      · simp [GoalRecord.EndedWith, hStage, eq_comm]
  | @returned goal r left code' result' server hGoal hStage =>
      apply hTold.set
        (action = r.goal.actionName ∧ code = code' ∧
          result = result') hGoal
      · simp
      · simp [GoalRecord.EndedWith, hStage, eq_comm]
  | responded hGoal =>
      apply hTold.set False hGoal
      · simp
      · simp [GoalRecord.EndedWith]
  | delivered hGoal =>
      apply hTold.set False hGoal
      · simp
      · simp [GoalRecord.EndedWith]

theorem env
    (hSane : Sane A w) (hStep : EnvStep A Late w w') : Sane A w' :=
  ⟨hSane.env_executing hStep, hSane.env_nodup hStep,
    hSane.env_started hStep, hSane.env_ended hStep⟩

end Sane

end Mission

end Manipulator
