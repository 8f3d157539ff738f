import Manipulator.Approach.Tracking
import Manipulator.Mission.System

/-
  Approach servers for the mission.

  `anyServer` does whatever the assumptions on a server
  allow. `approachServer` is the node of the repository, with
  the numbers that the mission gives its goals.

  Main declarations:
    * `anyServer`
    * `ApproachNode`, `approachServer`
    * `bootRun`, `moveRun`, `approachRun`
-/

------------------------------------------------------------
-- The Server That May Do Anything
------------------------------------------------------------

namespace Manipulator

namespace Mission

inductive AnyInput (K : Type) where
| publish (pose : Pos K)
| finish
    (goal : Nat)
    (code : Terminal)
    (result : ApproachResult K)

/-
  The state lists the goals that execute. Messages may come
  at any time.
-/
def anyServer (K : Type) :
    ApproachServer K (List Nat) (AnyInput K) where
  init := []
  goal := fun goal s => goal :: s
  step := fun s i =>
    match i with
    | .publish pose =>
        if pose.grip = "open" then
          some (s, .published pose)
        else none
    | .finish goal code result =>
        if goal ∈ s then
          some (s.erase goal, .returned goal code result)
        else none
  executing := fun s => s
  executing_init := rfl
  executing_goal := fun _ _ => rfl
  executing_silent := by
    intro s i s' hStep
    cases i with
    | publish pose => simp at hStep
    | finish goal code result => simp at hStep
  executing_published := by
    intro s i s' pose hStep
    cases i with
    | publish pose' =>
        simp only [Option.ite_none_right_eq_some,
          Option.some.injEq, Prod.mk.injEq,
          Report.published.injEq] at hStep
        rcases hStep with ⟨hGrip, rfl, rfl⟩
        exact ⟨rfl, hGrip⟩
    | finish goal code result => simp at hStep
  executing_returned := by
    intro s i s' goal' code' result' hStep
    cases i with
    | publish pose => simp at hStep
    | finish goal code result =>
        simp only [Option.ite_none_right_eq_some,
          Option.some.injEq, Prod.mk.injEq,
          Report.returned.injEq] at hStep
        rcases hStep with ⟨hMember, rfl, rfl, rfl, rfl⟩
        exact List.perm_cons_erase hMember

------------------------------------------------------------
-- The Approach Node
------------------------------------------------------------

variable {K : Type} [Field K] [LinearOrder K]

/-
  The approach node. It numbers its goals itself; `goalOf`
  has the number of the mission for each of them.
-/
structure ApproachNode (K : Type) [Field K] [LinearOrder K] where
  server : Approach.Server K
  goalOf : Nat → Nat
  tracking : Approach.Tracking server
  grip :
    server.executions ≠ [] → server.node.posData.grip = "open"

namespace ApproachNode

def init (debugMode : Int) : ApproachNode K where
  server := .init debugMode
  goalOf := fun _ => 0
  tracking := .init debugMode
  grip := fun hSome => absurd rfl hSome

def goal (goal : Nat) (s : ApproachNode K) : ApproachNode K where
  server := s.server.goal
  goalOf := Function.update s.goalOf s.server.nextGoal goal
  tracking := s.tracking.goal
  grip := fun _ => rfl

def executing (s : ApproachNode K) : List Nat :=
  s.server.executions.map fun e => s.goalOf e.goal

/- What the newest event of the node shows outside. -/
def report (goalOf : Nat → Nat) :
    List (Approach.Event K) → Report K
| .ticked t :: _ =>
    match t.result.published with
    | some pose => .published pose
    | none => .silent
| .returned goal _ result :: _ =>
    .returned (goalOf goal) .succeeded result
| _ => .silent

/- The steps of the node other than the start of a goal. -/
def Own (s : ApproachNode K) : Approach.Input K → Prop
| .goal => False
| i => Approach.Enabled s.server i

instance (s : ApproachNode K) :
    (i : Approach.Input K) → Decidable (s.Own i)
| .goal => .isFalse id
| .boundingBox msg =>
    inferInstanceAs
      (Decidable (Approach.Enabled s.server (.boundingBox msg)))
| .timer =>
    inferInstanceAs (Decidable (Approach.Enabled s.server .timer))
| .cancel goal =>
    inferInstanceAs
      (Decidable (Approach.Enabled s.server (.cancel goal)))
| .finish goal =>
    inferInstanceAs
      (Decidable (Approach.Enabled s.server (.finish goal)))

variable {trig : Approach.Trig K} {s : ApproachNode K}
variable {server : Approach.Server K} {i : Approach.Input K}

theorem Own.enabled
    (hOwn : s.Own i) : Approach.Enabled s.server i := by
  cases i with
  | goal => exact trivial
  | boundingBox msg => exact hOwn
  | timer => exact hOwn
  | cancel goal => exact hOwn
  | finish goal => exact hOwn

omit [Field K] [LinearOrder K] in
/- A tick keeps the goals of the executions. -/
theorem ticked_goals
    (r : Approach.TickResult K) (server : Approach.Server K) :
    (server.ticked r).executions.map Approach.Execution.goal =
      server.executions.map Approach.Execution.goal := by
  unfold Approach.Server.ticked
  split
  · simp
  · rfl

omit [Field K] [LinearOrder K] in
theorem cancel_goals
    (goal : Nat) (server : Approach.Server K) :
    (server.cancel goal).executions.map
        Approach.Execution.goal =
      server.executions.map Approach.Execution.goal := by
  simp only [Approach.Server.cancel, List.map_map]
  apply List.map_congr_left
  intro e _
  simp only [Function.comp]
  split
  · rfl
  · rfl

/- A tick leaves the grip as it is. -/
theorem ticked_grip
    {n : Approach.Node K} {r : Approach.TickResult K}
    (hCase : Approach.TickCase trig n r) :
    r.node.posData.grip = n.posData.grip := by
  cases hCase with
  | neutral => rfl
  | miss => rfl
  | lose => rfl
  | track _ _ _ _ _ hNode =>
      rw [hNode]
      rfl
  | confirm _ _ _ _ _ _ hNode =>
      rw [hNode]
      rfl
  | turn _ _ _ _ _ _ hNode =>
      rw [hNode]
      rfl

/- A tick that publishes acts on a message. -/
theorem ticked_published
    {n : Approach.Node K} {r : Approach.TickResult K}
    {pose : Pos K}
    (hCase : Approach.TickCase trig n r)
    (hPublished : r.published = some pose) :
    n.run = true ∧ pose = r.node.posData := by
  cases hCase with
  | neutral => cases hPublished
  | miss => cases hPublished
  | lose => cases hPublished
  | confirm => cases hPublished
  | track hActs =>
      exact ⟨Approach.Tracking.run_of_actsOn hActs,
        (Option.some.inj hPublished).symm⟩
  | turn hActs =>
      exact ⟨Approach.Tracking.run_of_actsOn hActs,
        (Option.some.inj hPublished).symm⟩

/-
  A step of the node itself: a message, a tick, a cancel
  request, or the return of a goal whose wait is over.
-/
inductive Moves
    (trig : Approach.Trig K)
    (s : Approach.Server K) : Approach.Server K → Prop where
| received (msg : BoundingBox K) : Moves trig s (s.boundingBox msg)
| ticked
    {r : Approach.TickResult K}
    (hCase : Approach.TickCase trig s.node r) :
    Moves trig s (s.ticked r)
| cancelled (goal : Nat) : Moves trig s (s.cancel goal)
| returned
    {e : Approach.Execution} {result : ApproachResult K}
    (hMember : e ∈ s.executions) :
    Moves trig s (s.finish e result)

theorem moves
    (hOwn : s.Own i)
    (hStep : Approach.step trig s.server i = .ok server) :
    Moves trig s.server server := by
  cases i with
  | goal => exact hOwn.elim
  | boundingBox msg =>
      cases hStep
      exact .received msg
  | timer =>
      rcases bind_eq_ok.mp hStep with ⟨r, hTick, hStep⟩
      cases hStep
      exact .ticked (Approach.timerCallback_cases hTick)
  | cancel goal =>
      cases hStep
      exact .cancelled goal
  | finish goal =>
      rcases hOwn with ⟨e, hFind, _⟩
      simp only [Approach.step, Option.mem_def.mp hFind]
        at hStep
      rcases bind_eq_ok.mp hStep with ⟨result, _, hStep⟩
      cases hStep
      exact .returned (List.mem_of_find?_eq_some hFind)

theorem Moves.grip
    {s : Approach.Server K}
    (hMoves : Moves trig s server)
    (hGrip : s.executions ≠ [] → s.node.posData.grip = "open")
    (hSome : server.executions ≠ []) :
    server.node.posData.grip = "open" := by
  cases hMoves with
  | received msg => exact hGrip hSome
  | @ticked r hCase =>
      refine (ticked_grip hCase).trans (hGrip ?_)
      intro hNone
      have hGoals := ticked_goals r s
      rw [hNone] at hGoals
      exact hSome (List.map_eq_nil_iff.mp hGoals)
  | cancelled goal =>
      apply hGrip
      intro hNone
      have hGoals := cancel_goals goal s
      rw [hNone] at hGoals
      exact hSome (List.map_eq_nil_iff.mp hGoals)
  | returned hMember => exact hGrip (List.ne_nil_of_mem hMember)

/- One step of the node, and what it shows. -/
def step
    (trig : Approach.Trig K)
    (s : ApproachNode K) (i : Approach.Input K) :
    Option (ApproachNode K × Report K) :=
  if hOwn : s.Own i then
    match hStep : Approach.step trig s.server i with
    | .ok server =>
        some
          (⟨server, s.goalOf,
              s.tracking.step hOwn.enabled hStep,
              (moves hOwn hStep).grip s.grip⟩,
            report s.goalOf server.history)
    | .error _ => none
  else none

theorem step_cases
    {s' : ApproachNode K} {shown : Report K}
    (hStep : s.step trig i = some (s', shown)) :
    Moves trig s.server s'.server ∧ s'.goalOf = s.goalOf ∧
      shown = report s.goalOf s'.server.history := by
  unfold step at hStep
  split at hStep
  · rename_i hOwn
    split at hStep
    · rename_i server hServer
      cases hStep
      exact ⟨moves hOwn hServer, rfl, rfl⟩
    · cases hStep
  · cases hStep

theorem executing_goal
    (goal' : Nat) (s : ApproachNode K) :
    (s.goal goal').executing = goal' :: s.executing := by
  simp only [executing, goal, Approach.Server.goal,
    List.map_cons, Function.update_self, List.cons.injEq,
    true_and]
  apply List.map_congr_left
  intro e hMember
  have hOld := s.tracking.fresh e hMember
  rw [Function.update_of_ne (by omega)]

/- Only the goals of the executions matter. -/
theorem executing_congr
    {s s' : ApproachNode K}
    (hGoals :
      s'.server.executions.map Approach.Execution.goal =
        s.server.executions.map Approach.Execution.goal)
    (hGoalOf : s'.goalOf = s.goalOf) :
    s'.executing = s.executing := by
  have hMap :
      ∀ u : ApproachNode K, u.executing =
        (u.server.executions.map Approach.Execution.goal).map
          u.goalOf := by
    intro u
    simp [executing]
  rw [hMap, hMap, hGoals, hGoalOf]

/- A step keeps the goals, or one of them returns. -/
theorem executing_cases
    {s' : ApproachNode K} {shown : Report K}
    (hStep : s.step trig i = some (s', shown)) :
    (s'.executing = s.executing ∧
        ∀ goal code result,
          shown ≠ .returned goal code result) ∨
      ∃ goal result, shown = .returned goal .succeeded result ∧
        s.executing.Perm (goal :: s'.executing) := by
  rcases step_cases hStep with ⟨hMoves, hGoalOf, rfl⟩
  cases s' with
  | mk server goalOf _ _ =>
      simp only at hMoves hGoalOf
      subst hGoalOf
      cases hMoves with
      | received msg =>
          refine .inl ⟨executing_congr rfl rfl, ?_⟩
          intro _ _ _ hShown
          cases hShown
      | @ticked r hCase =>
          refine .inl ⟨executing_congr (ticked_goals r _) rfl, ?_⟩
          intro _ _ _ hShown
          simp only [report, Approach.Server.ticked] at hShown
          split at hShown
          · cases hShown
          · cases hShown
      | cancelled goal =>
          refine .inl
            ⟨executing_congr (cancel_goals goal _) rfl, ?_⟩
          intro _ _ _ hShown
          cases hShown
      | @returned e result hMember =>
          refine .inr ⟨_, result, rfl, ?_⟩
          exact (List.perm_cons_erase hMember).map _

/- A callback that publishes works for a goal. -/
theorem open_published
    {s' : ApproachNode K} {pose : Pos K}
    (hStep : s.step trig i = some (s', .published pose)) :
    pose.grip = "open" := by
  rcases step_cases hStep with ⟨hMoves, _, hShown⟩
  generalize s'.server = server at hMoves hShown
  cases hMoves with
  | received msg => cases hShown
  | cancelled goal => cases hShown
  | returned hMember => cases hShown
  | ticked hCase =>
      simp only [report, Approach.Server.ticked] at hShown
      split at hShown
      · rename_i hPublished
        cases hShown
        rcases ticked_published hCase hPublished with
          ⟨hRun, rfl⟩
        rcases s.tracking.running hRun with ⟨_, ⟨e, hMember, _⟩, _⟩
        exact
          (ticked_grip hCase).trans
            (s.grip (List.ne_nil_of_mem hMember))
      · cases hShown

end ApproachNode

/- The node of `approach.py`, as the mission sees it. -/
def approachServer (trig : Approach.Trig K) (debugMode : Int) :
    ApproachServer K (ApproachNode K) (Approach.Input K) where
  init := .init debugMode
  goal := ApproachNode.goal
  step := ApproachNode.step trig
  executing := ApproachNode.executing
  executing_init := rfl
  executing_goal := ApproachNode.executing_goal
  executing_silent := by
    intro s i s' hStep
    rcases ApproachNode.executing_cases hStep with
      ⟨hSame, _⟩ | ⟨_, _, hShown, _⟩
    · exact hSame
    · cases hShown
  executing_published := by
    intro s i s' pose hStep
    rcases ApproachNode.executing_cases hStep with
      ⟨hSame, _⟩ | ⟨_, _, hShown, _⟩
    · exact ⟨hSame,
        ApproachNode.open_published hStep⟩
    · cases hShown
  executing_returned := by
    intro s i s' goal code result hStep
    rcases ApproachNode.executing_cases hStep with
      ⟨_, hShown⟩ | ⟨_, _, hShown, hPerm⟩
    · exact absurd rfl (hShown goal code result)
    · cases hShown
      exact hPerm

------------------------------------------------------------
-- Parts Of Runs
------------------------------------------------------------

variable {I : Type}

/- All servers are up; the first approach goal is sent. -/
def bootRun : List (Input K I) :=
  [.env (.observe (fun _ => true) false), .tick,
    .env (.timer .start), .tick, .env (.timer .ready), .tick]

/- A goal is accepted and its response comes back. -/
def acceptRun (goal : Nat) : List (Input K I) :=
  [.env (.accept goal), .env (.respond goal), .tick]

/- The result of a goal comes back. -/
def resultRun (goal : Nat) : List (Input K I) :=
  [.env (.deliver goal), .tick]

/- A move goal that reaches its end in one pass. -/
def moveRun (goal : Nat) : List (Input K I) :=
  acceptRun goal ++
    [Input.env (.iterate goal (.nonzero 1)),
      .env (.succeed goal)] ++
      resultRun goal

/- An approach goal that ends with a result. -/
def approachRun
    (goal : Nat) (result : ApproachResult K) :
    List (Input K (AnyInput K)) :=
  acceptRun goal ++
    [Input.env
      (.approach (AnyInput.finish goal .succeeded result))] ++
      resultRun goal

end Mission

end Manipulator
