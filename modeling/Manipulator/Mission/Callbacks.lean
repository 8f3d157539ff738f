import Manipulator.Approach.Ahead
import Manipulator.Mission.System

/-
  The approach node of the mission, by statements.

  Its timer callbacks and the `execute_callback` of every
  goal go on by one statement at a time, in any order. A
  timer callback that sets `finish_event` publishes only
  afterwards, so that the goal may have returned when its
  last message comes.

  Main declarations:
    * `ThreadNode`, `ThreadInput`, `ThreadNode.step`
    * `ThreadNode.Opened`
    * `threadServer`
    * `AtRest`, `ThreadNode.Orderly`
-/

------------------------------------------------------------
-- The Node
------------------------------------------------------------

namespace Manipulator

namespace Mission

open Approach (GoalAt TickAt Trig)

/-
  The goals have the numbers of the mission and the next
  statement of their callback; a timer callback has its next
  statement, or `none` once it has ended.
-/
structure ThreadNode (K : Type) where
  node : Approach.Node K
  goals : List (Nat × GoalAt K)
  ticks : List (Option (TickAt K))

inductive ThreadInput (K : Type) where
-- `bounding_box_callback`
| message (msg : BoundingBox K)
-- the timer fires
| fire
-- the next statement of a timer callback
| tick (k : Nat)
-- the next statement of an `execute_callback`
| goal (i : Nat)

variable {K : Type} [Field K] [LinearOrder K]

def Report.ofPublished : Option (Pos K) → Report K
| some pose => .published pose
| none => .silent

namespace ThreadNode

omit [LinearOrder K] in
def init (debugMode : Int) : ThreadNode K where
  node := .init debugMode
  goals := []
  ticks := []

/- A goal is accepted and its `execute_callback` starts. -/
def accept (goal : Nat) (s : ThreadNode K) : ThreadNode K :=
  { s with goals := (goal, .resetFirst) :: s.goals }

/- The next statement of a timer callback, if it is in flight. -/
def stmt? (s : ThreadNode K) (k : Nat) : Option (TickAt K) :=
  s.ticks[k]?.join

/- A statement of a timer callback; one that raises ends it. -/
def stepTick
    (trig : Trig K) (k : Nat) (s : ThreadNode K) :
    Option (ThreadNode K × Report K) :=
  match s.stmt? k with
  | none => none
  | some stmt =>
      match stmt.step trig s.node with
      | .error _ =>
          some ({ s with ticks := s.ticks.set k none }, .silent)
      | .ok e =>
          some
            ({ s with
                node := e.node
                ticks := s.ticks.set k e.next },
              .ofPublished e.published)

/-
  A statement of an `execute_callback`. `wait` is passed once
  the event is set, and a callback that raises goes no
  further.
-/
def stepGoal
    (i : Nat) (s : ThreadNode K) :
    Option (ThreadNode K × Report K) :=
  match s.goals[i]? with
  | none => none
  | some (goal, stage) =>
      if stage.isWaiting = true ∧ s.node.finishEvent = false then
        none
      else
        match stage.step s.node with
        | .error _ => none
        | .ok (node, next) =>
            match stage with
            | .finish result =>
                some
                  ({ s with goals := s.goals.eraseIdx i },
                    .returned goal .succeeded result)
            | _ =>
                some
                  ({ s with
                      node := node
                      goals := s.goals.set i (goal, next) },
                    .silent)

def step
    (trig : Trig K) (s : ThreadNode K) :
    ThreadInput K → Option (ThreadNode K × Report K)
| .message msg =>
    some
      ({ s with node := Approach.boundingBoxCallback msg s.node },
        .silent)
| .fire =>
    some ({ s with ticks := s.ticks ++ [some .checkRun] }, .silent)
| .tick k => s.stepTick trig k
| .goal i => s.stepGoal i

------------------------------------------------------------
-- One Step
------------------------------------------------------------

/- What a step does. -/
inductive Steps
    (trig : Trig K) (s : ThreadNode K) :
    ThreadInput K → ThreadNode K → Report K → Prop where
| received (msg : BoundingBox K) :
    Steps trig s (.message msg)
      { s with node := Approach.boundingBoxCallback msg s.node }
      .silent
| fired :
    Steps trig s .fire
      { s with ticks := s.ticks ++ [some .checkRun] } .silent
| raised
    {k : Nat} {stmt : TickAt K} {error : Approach.PyError}
    (hStmt : s.ticks[k]? = some (some stmt))
    (hStep : stmt.step trig s.node = .error error) :
    Steps trig s (.tick k)
      { s with ticks := s.ticks.set k none } .silent
| ticked
    {k : Nat} {stmt : TickAt K} {e : Approach.Effect K}
    (hStmt : s.ticks[k]? = some (some stmt))
    (hStep : stmt.step trig s.node = .ok e) :
    Steps trig s (.tick k)
      { s with
        node := e.node
        ticks := s.ticks.set k e.next }
      (.ofPublished e.published)
| advanced
    {i goal : Nat} {stage next : GoalAt K}
    {node : Approach.Node K}
    (hGoal : s.goals[i]? = some (goal, stage))
    (hWait :
      stage.isWaiting = true → s.node.finishEvent = true)
    (hStep : stage.step s.node = .ok (node, next)) :
    Steps trig s (.goal i)
      { s with
        node := node
        goals := s.goals.set i (goal, next) }
      .silent
| returned
    {i goal : Nat} {result : ApproachResult K}
    (hGoal : s.goals[i]? = some (goal, .finish result)) :
    Steps trig s (.goal i)
      { s with goals := s.goals.eraseIdx i }
      (.returned goal .succeeded result)

variable {trig : Trig K} {s t : ThreadNode K}
variable {i : ThreadInput K} {shown : Report K}

theorem steps_of_tick
    {k : Nat}
    (hStep : s.stepTick trig k = some (t, shown)) :
    Steps trig s (.tick k) t shown := by
  unfold stepTick at hStep
  split at hStep
  · cases hStep
  · rename_i stmt hStmt
    have hTick : s.ticks[k]? = some (some stmt) :=
      Option.join_eq_some_iff.mp hStmt
    split at hStep
    · rename_i error hError
      cases hStep
      exact .raised hTick hError
    · rename_i e hOk
      cases hStep
      exact .ticked hTick hOk

theorem steps_of_goal
    {k : Nat}
    (hStep : s.stepGoal k = some (t, shown)) :
    Steps trig s (.goal k) t shown := by
  unfold stepGoal at hStep
  split at hStep
  · cases hStep
  · rename_i goal stage hGoal
    split at hStep
    · cases hStep
    · rename_i hPassed
      have hWait :
          stage.isWaiting = true → s.node.finishEvent = true := by
        intro hWaiting
        by_contra hClear
        exact hPassed ⟨hWaiting, by simpa using hClear⟩
      split at hStep
      · cases hStep
      · rename_i node next hOk
        split at hStep
        · cases hStep
          exact .returned hGoal
        · cases hStep
          exact .advanced hGoal hWait hOk

theorem steps_of_step
    (hStep : s.step trig i = some (t, shown)) :
    Steps trig s i t shown := by
  cases i with
  | message msg =>
      cases hStep
      exact .received msg
  | fire =>
      cases hStep
      exact .fired
  | tick k => exact steps_of_tick hStep
  | goal k => exact steps_of_goal hStep

end ThreadNode

------------------------------------------------------------
-- The Gripper
------------------------------------------------------------

section Poses

variable {trig : Trig K} {n n' : Approach.Node K}
variable {stmt : TickAt K} {e : Approach.Effect K}

/- A pass of the PID loop moves in the plane. -/
theorem axis_pose
    {error : Fin 2 → K} {i : Fin 2}
    {at_ : Approach.AxisAt K} {next : Option (Approach.AxisAt K)}
    (hStep : at_.step error i n = .ok (n', next)) :
    n'.posData.z = n.posData.z ∧
      n'.posData.grip = n.posData.grip := by
  cases at_ with
  | checkFirst =>
      simp only [Approach.AxisAt.step] at hStep
      split at hStep <;> cases hStep <;> exact ⟨rfl, rfl⟩
  | zeroPrevError
  | zeroIntegral
  | clearFirst =>
      cases hStep
      exact ⟨rfl, rfl⟩
  | move output =>
      cases hStep
      by_cases hFirst : i = 0 <;> simp [hFirst]
  | addIntegral
  | derive
  | limit derivative
  | keepError =>
      simp only [Approach.AxisAt.step, bind_eq_ok, pure_eq_ok,
        Prod.mk.injEq] at hStep
      rcases hStep with ⟨_, _, rfl, rfl⟩
      exact ⟨rfl, rfl⟩

/- Between `run = False` and the end of `finish_event.set()`. -/
def stopping : TickAt K → Bool
| .dropBox => true
| .setLost => true
| .setTurn _ _ => true
| _ => false

/-
  Timer callbacks leave the height and the gripper alone, the
  statement that publishes sends `pos_data`, and `run` is
  cleared before the event is set.
-/
structure Does
    (stmt : TickAt K) (n : Approach.Node K)
    (e : Approach.Effect K) : Prop where
  height : e.node.posData.z = n.posData.z
  grip : e.node.posData.grip = n.posData.grip
  published :
    ∀ pose, e.published = some pose →
      (∃ s center, stmt = .publish s center) ∧ pose = n.posData
  next :
    ∀ next, e.next = some next → stopping next = true →
      stopping stmt = true ∨ e.node.run = false

section Rules

omit [Field K] [LinearOrder K]

theorem Does.go
    {next : TickAt K}
    (hHeight : n'.posData.z = n.posData.z)
    (hGrip : n'.posData.grip = n.posData.grip)
    (hNext :
      stopping next = true →
        stopping stmt = true ∨ n'.run = false) :
    Does stmt n (.go n' next) := by
  refine ⟨hHeight, hGrip, ?_, ?_⟩
  · intro pose hPublished
    cases hPublished
  · intro other hOther
    cases hOther
    exact hNext

theorem Does.stop
    (hHeight : n'.posData.z = n.posData.z)
    (hGrip : n'.posData.grip = n.posData.grip) :
    Does stmt n (.stop n') := by
  refine ⟨hHeight, hGrip, ?_, ?_⟩
  · intro pose hPublished
    cases hPublished
  · intro other hOther
    cases hOther

/- The callback goes on to a statement of no such kind. -/
theorem Does.on
    {next : TickAt K}
    (hNext : stopping next = false)
    (hHeight : n'.posData.z = n.posData.z)
    (hGrip : n'.posData.grip = n.posData.grip) :
    Does stmt n (.go n' next) := by
  apply Does.go hHeight hGrip
  intro hStops
  rw [hNext] at hStops
  cases hStops

end Rules

theorem does_of_step
    (hStep : stmt.step trig n = .ok e) : Does stmt n e := by
  cases stmt with
  | publish s center =>
      cases hStep
      refine ⟨rfl, rfl, ?_, ?_⟩
      · intro pose hPublished
        exact
          ⟨⟨s, center, rfl⟩, (Option.some.inj hPublished).symm⟩
      · intro next hNext hStops
        cases hNext
        cases hStops
  | stopLost =>
      cases hStep
      exact .go rfl rfl fun _ => .inr rfl
  | dropBox =>
      cases hStep
      exact .go rfl rfl fun _ => .inl rfl
  | stopTurn s center =>
      cases hStep
      exact .go rfl rfl fun _ => .inr rfl
  | checkRun
  | readBox
  | checkLength box
  | checkMisses s =>
      simp only [TickAt.step] at hStep
      split at hStep
      · cases hStep
        first | exact .stop rfl rfl | exact .on rfl rfl rfl
      · cases hStep
        first | exact .stop rfl rfl | exact .on rfl rfl rfl
  | checkBox box
  | checkLimit
  | checkApproach s
  | checkTolerance aim
  | checkHits aim
  | checkTurn s center =>
      simp only [TickAt.step] at hStep
      split at hStep
      · cases hStep
        exact .on rfl rfl rfl
      · cases hStep
        exact .on rfl rfl rfl
  | sleep =>
      cases hStep
      exact .stop rfl rfl
  | countMiss
  | setLost
  | clearMisses box
  | countHit aim
  | startTurn aim
  | keepBox aim
  | endLoop aim
  | readPose s center angle
  | setYaw s center yaw
  | setTurn s center =>
      cases hStep
      exact .on rfl rfl rfl
  | findCenter s
  | readAngle s center =>
      simp only [TickAt.step, bind_eq_ok, pure_eq_ok] at hStep
      rcases hStep with ⟨_, _, rfl⟩
      exact .on rfl rfl rfl
  | setLabel aim =>
      simp only [TickAt.step, bind_eq_ok, pure_eq_ok] at hStep
      rcases hStep with ⟨_, _, rfl⟩
      exact .stop rfl rfl
  | select box i acc =>
      simp only [TickAt.step] at hStep
      split at hStep
      · simp only [bind_eq_ok, pure_eq_ok] at hStep
        rcases hStep with ⟨_, _, rfl⟩
        exact .on rfl rfl rfl
      · cases hStep
        exact .on rfl rfl rfl
  | debug s center =>
      simp only [TickAt.step] at hStep
      split at hStep
      · simp only [bind_eq_ok, pure_eq_ok] at hStep
        rcases hStep with ⟨_, _, rfl⟩
        exact .stop rfl rfl
      · cases hStep
        exact .stop rfl rfl
  | axis aim i at_ =>
      simp only [TickAt.step, bind_eq_ok] at hStep
      rcases hStep with ⟨⟨n', next⟩, hAxis, hNext⟩
      rcases axis_pose hAxis with ⟨hHeight, hGrip⟩
      cases next with
      | none =>
          cases hNext
          apply Does.on _ hHeight hGrip
          unfold TickAt.afterAxis
          split
          · rfl
          · rfl
      | some next =>
          cases hNext
          exact .on rfl hHeight hGrip

/-
  The callback has not tested `run` yet, or whatever the
  others do it only sleeps, draws, returns or raises.
-/
def AtRest (stmt : TickAt K) : Prop :=
  stmt.isChecking = true ∨ stmt.quiet = true

instance (stmt : TickAt K) : Decidable (AtRest stmt) :=
  inferInstanceAs (Decidable (_ ∨ _))

/- When it finds `run` false, such a callback only ends. -/
theorem AtRest.step
    (hRest : AtRest stmt)
    (hRun : stmt.isChecking = true → n.run = false)
    (hStep : stmt.step trig n = .ok e) : e = .stop n := by
  rcases hRest with hChecking | hQuiet
  · exact Approach.TickAt.step_of_checking hChecking
      (hRun hChecking) hStep
  · exact Approach.TickAt.step_of_quiet hQuiet hStep

/- All callbacks in flight are at such statements. -/
def AllAt
    (P : TickAt K → Prop) (ticks : List (Option (TickAt K))) :
    Prop :=
  ∀ t ∈ ticks, ∀ stmt ∈ t, P stmt

instance
    {P : TickAt K → Prop} [DecidablePred P]
    (ticks : List (Option (TickAt K))) :
    Decidable (AllAt P ticks) :=
  inferInstanceAs (Decidable (∀ t ∈ ticks, ∀ stmt ∈ t, P stmt))

section Lists

omit [Field K] [LinearOrder K]

variable {P : TickAt K → Prop} {k : Nat}
variable {ticks : List (Option (TickAt K))}

theorem AllAt.nil : AllAt P [] := by
  intro t hMember
  cases hMember

theorem AllAt.at_
    (hAll : AllAt P ticks)
    (hStmt : ticks[k]? = some (some stmt)) : P stmt :=
  hAll _ (List.mem_of_getElem? hStmt) stmt rfl

theorem AllAt.set
    {next : Option (TickAt K)}
    (hAll : AllAt P ticks)
    (hNext : ∀ stmt ∈ next, P stmt) :
    AllAt P (ticks.set k next) := by
  intro t hMember
  rcases List.mem_or_eq_of_mem_set hMember with hOld | rfl
  · exact hAll t hOld
  · exact hNext

theorem AllAt.ended
    (hAll : AllAt P ticks) : AllAt P (ticks.set k none) := by
  apply hAll.set
  intro stmt hNone
  cases hNone

theorem AllAt.fire
    (hAll : AllAt P ticks)
    (hCheck : P .checkRun) :
    AllAt P (ticks ++ [some .checkRun]) := by
  intro t hMember
  rcases List.mem_append.mp hMember with hOld | hNew
  · exact hAll t hOld
  · rw [List.mem_singleton.mp hNew]
    intro stmt hStmt
    cases hStmt
    exact hCheck

end Lists

end Poses

------------------------------------------------------------
-- The Server
------------------------------------------------------------

/- The goal has not opened the gripper yet. -/
def opensLater : GoalAt K → Bool
| .resetFirst => true
| .resetMisses => true
| .resetHits => true
| .resetState => true
| .resetX => true
| .resetY => true
| .resetZ => true
| .resetYaw => true
| .resetGrip => true
| _ => false

omit [LinearOrder K] in
/- A goal keeps the grip, or sets it to 'open'. -/
theorem goal_grip
    {n n' : Approach.Node K} {stage next : GoalAt K}
    (hStep : stage.step n = .ok (n', next)) :
    n'.posData.grip = "open" ∨
      (n'.posData.grip = n.posData.grip ∧
        (opensLater stage = true →
          n'.run = n.run ∧ opensLater next = true)) := by
  cases stage with
  | resetGrip =>
      cases hStep
      exact .inl rfl
  | resetFirst
  | resetMisses
  | resetHits
  | resetState
  | resetX
  | resetY
  | resetZ
  | resetYaw =>
      cases hStep
      exact .inr ⟨rfl, fun _ => ⟨rfl, rfl⟩⟩
  | checkBox =>
      simp only [GoalAt.step, bind_eq_ok] at hStep
      rcases hStep with ⟨hasBox, _, hStep⟩
      refine .inr ⟨?_, fun hLater => by cases hLater⟩
      cases hasBox with
      | false =>
          cases hStep
          rfl
      | true =>
          cases hStep
          rfl
  | resultLabel result =>
      simp only [GoalAt.step, bind_eq_ok, pure_eq_ok,
        Prod.mk.injEq] at hStep
      rcases hStep with ⟨_, _, rfl, rfl⟩
      exact .inr ⟨rfl, fun hLater => by cases hLater⟩
  | _ =>
      cases hStep
      exact .inr ⟨rfl, fun hLater => by cases hLater⟩

namespace ThreadNode

/-
  The gripper is open in what the node can publish: until it
  is set, nothing runs that publishes.
-/
def Opened (s : ThreadNode K) : Prop :=
  s.node.posData.grip = "open" ∨
    (s.node.run = false ∧
      AllAt (fun stmt => stmt.isChecking = true) s.ticks ∧
        ∀ g ∈ s.goals, opensLater g.2 = true)

variable {trig : Trig K} {s t : ThreadNode K}
variable {i : ThreadInput K} {shown : Report K}

omit [LinearOrder K] in
theorem opened_init (debugMode : Int) :
    (init debugMode : ThreadNode K).Opened := by
  refine .inr ⟨rfl, .nil, ?_⟩
  intro g hMember
  cases hMember

omit [Field K] [LinearOrder K] in
theorem opened_accept
    (hOpened : s.Opened) (goal : Nat) :
    (s.accept goal).Opened := by
  rcases hOpened with hOpen | ⟨hRun, hTicks, hGoals⟩
  · exact .inl hOpen
  · refine .inr ⟨hRun, hTicks, ?_⟩
    intro g hMember
    rcases List.mem_cons.mp hMember with rfl | hMember
    · rfl
    · exact hGoals g hMember

theorem opened_step
    (hOpened : s.Opened)
    (hStep : Steps trig s i t shown) : t.Opened := by
  rcases hOpened with hOpen | ⟨hRun, hTicks, hGoals⟩
  · refine .inl ?_
    cases hStep with
    | received msg => exact hOpen
    | fired => exact hOpen
    | raised => exact hOpen
    | ticked hStmt hStep =>
        exact (does_of_step hStep).grip.trans hOpen
    | advanced hGoal hWait hStep =>
        rcases goal_grip hStep with hNew | ⟨hSame, _⟩
        · exact hNew
        · exact hSame.trans hOpen
    | returned => exact hOpen
  · cases hStep with
    | received msg => exact .inr ⟨hRun, hTicks, hGoals⟩
    | fired => exact .inr ⟨hRun, hTicks.fire rfl, hGoals⟩
    | raised => exact .inr ⟨hRun, hTicks.ended, hGoals⟩
    | ticked hStmt hStep =>
        have hEnd :=
          AtRest.step (.inl (hTicks.at_ hStmt)) (fun _ => hRun)
            hStep
        subst hEnd
        exact .inr ⟨hRun, hTicks.ended, hGoals⟩
    | @advanced i goal stage next node hGoal hWait hStep =>
        have hMember := List.mem_of_getElem? hGoal
        rcases goal_grip hStep with hNew | ⟨_, hNext⟩
        · exact .inl hNew
        · rcases hNext (hGoals _ hMember) with ⟨hSame, hLater⟩
          refine .inr ⟨hSame.trans hRun, hTicks, ?_⟩
          intro g hOther
          rcases List.mem_or_eq_of_mem_set hOther with
            hOld | rfl
          · exact hGoals g hOld
          · exact hLater
    | returned hGoal =>
        refine .inr ⟨hRun, hTicks, ?_⟩
        intro g hOther
        exact hGoals g (List.mem_of_mem_eraseIdx hOther)

/- A message is made of `pos_data`. -/
theorem published_eq
    {pose : Pos K}
    (hStep : Steps trig s i t (.published pose)) :
    pose = s.node.posData ∧ t.goals = s.goals ∧
      ∃ k stmt, i = .tick k ∧ s.ticks[k]? = some (some stmt) ∧
        ∃ r center, stmt = TickAt.publish r center := by
  generalize hShown : Report.published pose = shown at hStep
  cases hStep with
  | received msg => cases hShown
  | fired => cases hShown
  | raised => cases hShown
  | advanced => cases hShown
  | returned => cases hShown
  | @ticked k stmt e hStmt hStep =>
      cases hPublished : e.published with
      | none =>
          rw [hPublished] at hShown
          cases hShown
      | some sent =>
          rw [hPublished] at hShown
          cases hShown
          rcases (does_of_step hStep).published pose
            hPublished with ⟨hPublish, rfl⟩
          exact ⟨rfl, rfl, k, stmt, rfl, hStmt, hPublish⟩

/- A result is that of a goal, which then is no more. -/
theorem returned_eq
    {goal : Nat} {code : Terminal} {result : ApproachResult K}
    (hStep : Steps trig s i t (.returned goal code result)) :
    ∃ k, s.goals[k]? = some (goal, .finish result) ∧
      t.goals = s.goals.eraseIdx k := by
  generalize hShown : Report.returned goal code result = shown
    at hStep
  cases hStep with
  | received msg => cases hShown
  | fired => cases hShown
  | raised => cases hShown
  | advanced => cases hShown
  | @ticked k stmt e =>
      cases hPublished : e.published with
      | none =>
          rw [hPublished] at hShown
          cases hShown
      | some pose =>
          rw [hPublished] at hShown
          cases hShown
  | @returned k goal result hGoal =>
      cases hShown
      exact ⟨k, hGoal, rfl⟩

end ThreadNode

/- The node, with the invariant of its gripper. -/
abbrev OpenNode (K : Type) [Field K] [LinearOrder K] :=
  { s : ThreadNode K // s.Opened }

namespace OpenNode

variable {trig : Trig K} {s t : OpenNode K}
variable {i : ThreadInput K} {shown : Report K}

def step
    (trig : Trig K) (s : OpenNode K) (i : ThreadInput K) :
    Option (OpenNode K × Report K) :=
  match hStep : s.1.step trig i with
  | none => none
  | some (t, shown) =>
      some
        (⟨t, ThreadNode.opened_step s.2
          (ThreadNode.steps_of_step hStep)⟩, shown)

theorem steps
    (hStep : s.step trig i = some (t, shown)) :
    ThreadNode.Steps trig s.1 i t.1 shown := by
  unfold step at hStep
  split at hStep
  · cases hStep
  · rename_i hThread
    cases hStep
    exact ThreadNode.steps_of_step hThread

def executing (s : OpenNode K) : List Nat :=
  s.1.goals.map Prod.fst

/- The goals after a step that ends none. -/
theorem executing_silent
    (hStep : s.step trig i = some (t, .silent)) :
    t.executing = s.executing := by
  have hSteps := steps hStep
  unfold executing
  generalize hShown : (Report.silent : Report K) = shown at hSteps
  generalize t.1 = t' at hSteps
  cases hSteps with
  | received msg => rfl
  | fired => rfl
  | raised => rfl
  | ticked => rfl
  | @advanced k goal stage next node hGoal =>
      rcases List.getElem?_eq_some_iff.mp hGoal with
        ⟨hLess, hEq⟩
      have hMap : k < (s.1.goals.map Prod.fst).length := by
        rwa [List.length_map]
      have hFirst : (s.1.goals.map Prod.fst)[k] = goal := by
        rw [List.getElem_map, hEq]
      rw [List.map_set, ← hFirst, List.set_getElem_self]
  | returned => cases hShown

/- A message is sent with an open gripper. -/
theorem executing_published
    {pose : Pos K}
    (hStep : s.step trig i = some (t, .published pose)) :
    t.executing = s.executing ∧ pose.grip = "open" := by
  rcases ThreadNode.published_eq (steps hStep) with
    ⟨rfl, hGoals, k, stmt, _, hStmt, r, center, rfl⟩
  refine ⟨congrArg (List.map Prod.fst) hGoals, ?_⟩
  rcases s.2 with hOpen | ⟨_, hTicks, _⟩
  · exact hOpen
  · cases hTicks.at_ hStmt

theorem executing_returned
    {goal : Nat} {code : Terminal} {result : ApproachResult K}
    (hStep :
      s.step trig i = some (t, .returned goal code result)) :
    s.executing.Perm (goal :: t.executing) := by
  rcases ThreadNode.returned_eq (steps hStep) with
    ⟨k, hGoal, hErased⟩
  rcases List.getElem?_eq_some_iff.mp hGoal with ⟨hLess, hEq⟩
  have hPerm := List.getElem_cons_eraseIdx_perm hLess
  rw [hEq, ← hErased] at hPerm
  exact (hPerm.symm.map Prod.fst)

end OpenNode

/- The node of `approach.py` by statements. -/
def threadServer (trig : Trig K) (debugMode : Int) :
    ApproachServer K (OpenNode K) (ThreadInput K) where
  init := ⟨.init debugMode, ThreadNode.opened_init debugMode⟩
  goal := fun goal s =>
    ⟨s.1.accept goal, ThreadNode.opened_accept s.2 goal⟩
  step := OpenNode.step trig
  executing := OpenNode.executing
  executing_init := rfl
  executing_goal := fun _ _ => rfl
  executing_silent := fun _ _ _ => OpenNode.executing_silent
  executing_published := fun _ _ _ _ =>
    OpenNode.executing_published
  executing_returned := fun _ _ _ _ _ _ =>
    OpenNode.executing_returned

------------------------------------------------------------
-- Callbacks That Do Not Overlap
------------------------------------------------------------

/-
  The condition on the node's own steps:
    * a timer callback finds `run` true only when no other
      one is at work;
    * `finish_event.wait()` is passed only when none is.
-/
def ThreadNode.Orderly (s : ThreadNode K) : ThreadInput K → Prop
| .tick k =>
    ∀ t ∈ s.ticks[k]?, ∀ stmt ∈ t, stmt.isChecking = true →
      s.node.run = true → AllAt AtRest s.ticks
| .goal i =>
    ∀ g ∈ s.goals[i]?, g.2.isWaiting = true →
      AllAt AtRest s.ticks
| _ => True

instance (s : ThreadNode K) :
    (i : ThreadInput K) → Decidable (s.Orderly i)
| .tick k =>
    inferInstanceAs (Decidable
      (∀ t ∈ s.ticks[k]?, ∀ stmt ∈ t, stmt.isChecking = true →
        s.node.run = true → AllAt AtRest s.ticks))
| .goal i =>
    inferInstanceAs (Decidable
      (∀ g ∈ s.goals[i]?, g.2.isWaiting = true →
        AllAt AtRest s.ticks))
| .message _ => .isTrue trivial
| .fire => .isTrue trivial

/- The same for the steps of the mission. -/
def Orderly (s : State K (OpenNode K)) :
    Input K (ThreadInput K) → Prop
| .env (.approach i) => s.world.server.1.Orderly i
| _ => True

instance (s : State K (OpenNode K)) :
    (i : Input K (ThreadInput K)) → Decidable (Orderly s i)
| .env (.approach i) =>
    inferInstanceAs (Decidable (s.world.server.1.Orderly i))
| .tick => .isTrue trivial
| .env (.observe _ _) => .isTrue trivial
| .env (.timer _) => .isTrue trivial
| .env (.accept _) => .isTrue trivial
| .env (.respond _) => .isTrue trivial
| .env (.iterate _ _) => .isTrue trivial
| .env (.succeed _) => .isTrue trivial
| .env (.abort _) => .isTrue trivial
| .env (.deliver _) => .isTrue trivial

end Mission

end Manipulator
