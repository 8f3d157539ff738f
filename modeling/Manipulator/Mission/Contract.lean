import Manipulator.Mission.Driver

/-
  Rules for the leaves of the mission tree.

  A contract of a node that sends goals says what its goal,
  its failure and its success do to an assertion. The rule
  for such a node adds what every goal does: between two
  goals the world rests, and while the node is running it
  waits for the one goal that moves the arm.

  Main declarations:
    * `surroundings`
    * `Contract`, `Contract.triple`
    * `sleep_triple`, `setBlackboard_triple`, `publish_triple`
-/

------------------------------------------------------------
-- Events Of The Mission
------------------------------------------------------------

namespace Manipulator

namespace Mission

variable {K S I : Type}

/- An event of a server: a goal starts or ends. -/
def Event.Report : Event K → Prop
| .started _ _ => True
| .ended _ _ _ _ => True
| _ => False

/- No goal starts or ends in these events. -/
def NoReports (events : List (Event K)) : Prop :=
  ∀ event ∈ events, ¬ event.Report

theorem NoReports.nil : NoReports ([] : List (Event K)) := by
  intro _ hMember
  cases hMember

theorem NoReports.single
    {event : Event K}
    (hEvent : ¬ event.Report) : NoReports [event] := by
  intro _ hMember
  rw [List.mem_singleton.mp hMember]
  exact hEvent

/- A start or an end is not among the new events. -/
theorem NoReports.mem_append
    {events h : List (Event K)} {event : Event K}
    (hNoReports : NoReports events)
    (hReport : event.Report) :
    event ∈ events ++ h ↔ event ∈ h := by
  rw [List.mem_append]
  constructor
  · rintro (hHere | hMember)
    · exact absurd hReport (hNoReports event hHere)
    · exact hMember
  · exact .inr

variable {A : ApproachServer K S I} {w w' : World K S}

/- A step of the mission that sends no goal. -/
structure Local
    (events : List (Event K)) (w w' : World K S) : Prop where
  noReports : NoReports events
  goals : w'.goals = w.goals
  server : w'.server = w.server
  history : w'.history = events ++ w.history

theorem Local.log
    {event : Event K}
    (hEvent : ¬ event.Report) :
    Local [event] w (w.log event) :=
  ⟨.single hEvent, rfl, rfl, rfl⟩

theorem Sane.local_
    {events : List (Event K)}
    (hSane : Sane A w)
    (hLocal : Local events w w') : Sane A w' := by
  constructor
  case executing =>
    intro goal hMember
    rw [hLocal.server] at hMember
    rcases hSane.executing goal hMember with
      ⟨r, left, hGoal, hData, hStage⟩
    exact ⟨r, left, by rwa [hLocal.goals], hData, hStage⟩
  case nodup =>
    rw [hLocal.server]
    exact hSane.nodup
  case started =>
    intro action
    rw [hLocal.goals, hLocal.history]
    exact (hSane.started action).congr fun _ =>
      hLocal.noReports.mem_append trivial
  case ended =>
    intro action code result
    rw [hLocal.goals, hLocal.history]
    exact (hSane.ended action code result).congr fun _ =>
      hLocal.noReports.mem_append trivial

theorem Local.patient
    {events : List (Event K)}
    (hLocal : Local events w w')
    (hPatient : Patient w'.history) : Patient w.history := by
  rw [hLocal.history] at hPatient
  exact hPatient.append

theorem Local.armAlive
    {events : List (Event K)} {goal : Nat}
    (hLocal : Local events w w')
    (hAlive : ArmAlive w' goal) : ArmAlive w goal := by
  rcases hAlive with ⟨r, hGoal, hArm, hAlive⟩
  rw [hLocal.goals] at hGoal
  exact ⟨r, hGoal, hArm, hAlive⟩

theorem Local.delivered
    {events : List (Event K)} {goal : Nat}
    (hLocal : Local events w w')
    (hDelivered : Delivered w goal) : Delivered w' goal := by
  rcases hDelivered with ⟨r, hGoal, hDelivered⟩
  exact ⟨r, by rwa [hLocal.goals], hDelivered⟩

------------------------------------------------------------
-- Resting Leaves
------------------------------------------------------------

/- A step that sets no goal handle. -/
theorem Rest.local_
    {P Q : Assertion K} {events : List (Event K)}
    (hRest : Rest A P w)
    (hLocal : Local events w w')
    (hHandles :
      ∀ n, (w'.client n).goalHandle = (w.client n).goalHandle)
    (hHolds : Q w'.blackboard w'.history) :
    Rest A Q w' where
  sane := hRest.sane.local_ hLocal
  handles := by
    intro n old hHandle
    rw [hHandles] at hHandle
    exact hLocal.delivered (hRest.handles n old hHandle)
  free := by
    intro hPatient goal hAlive
    exact hRest.free (hLocal.patient hPatient) goal
      (hLocal.armAlive hAlive)
  holds := hHolds

theorem Rest.imp
    {P Q : Assertion K}
    (hRest : Rest A P w)
    (hImp : ∀ b h, P b h → Q b h) : Rest A Q w :=
  { hRest with holds := hImp _ _ hRest.holds }

section Rules

variable [Field K] [LinearOrder K] {late : Prop}

/-
  The steps outside the tree, at any time, in the worlds of a
  patient mission with or without late messages.
-/
def surroundings (A : ApproachServer K S I) (late : Prop) :
    BT.Surroundings (World K S) where
  Env := EnvStep A (Lately late)
  Guard := fun _ => True

/-
  A sleeping node leaves the blackboard and the history as
  they are.
-/
theorem sleep_triple
    {P : Assertion K} {id : SleepId} {msec : Nat}
    (hStable : Stable late none P) :
    BT.Triple (mission K S) (surroundings A late) (Rest A P)
      (.action (.sleep id msec))
      ⟨Rest A P, Rest A P, fun _ => False⟩ := by
  have hTimer :
      ∀ w : World K S, Rest A P w →
        Rest A P (w.setTimer id true) := by
    intro w hRest
    exact hRest.local_ ⟨NoReports.nil, rfl, rfl, rfl⟩
      (fun _ => rfl) hRest.holds
  apply BT.Triple.action
  · intro w hRest o w' hTick
    change BT.LeafTick (.ok (sleepStart id msec w)) o w' at hTick
    unfold sleepStart at hTick
    split at hTick
    · cases hTick
      exact hRest
    · cases hTick
      exact hTimer w hRest
  · intro w w' hRest hStep
    exact hRest.env hStable hStep
  · intro w hRest _ o w' hTick
    change BT.LeafTick (.ok (sleepRunning id w)) o w' at hTick
    unfold sleepRunning at hTick
    split at hTick
    · cases hTick
      exact hRest
    · cases hTick
      exact hRest

theorem setBlackboard_triple
    {P Q : Assertion K} {key : Key} {value : K}
    (hSet : ∀ b h, P b h → Q (b.set key value) h) :
    BT.Triple (mission K S) (surroundings A late) (Rest A P)
      (.action (.setBlackboard key value))
      ⟨fun _ => False, Rest A Q, fun _ => False⟩ := by
  apply BT.Triple.action
  · intro w hRest o w' hTick
    cases hTick
    exact hRest.local_ ⟨NoReports.nil, rfl, rfl, rfl⟩
      (fun _ => rfl) (hSet _ _ hRest.holds)
  · intro w w' hFalse
    exact hFalse.elim
  · intro w hFalse
    exact hFalse.elim

theorem publish_triple
    {P Q : Assertion K} {pose : Pos K}
    (hPublish :
      ∀ b h, P b h → Q b (.commanded (Move.finite pose) :: h)) :
    BT.Triple (mission K S) (surroundings A late) (Rest A P)
      (.action (.publish pose))
      ⟨fun _ => False, Rest A Q, fun _ => False⟩ := by
  apply BT.Triple.action
  · intro w hRest o w' hTick
    cases hTick
    exact hRest.local_ (.log id) (fun _ => rfl)
      (hPublish _ _ hRest.holds)
  · intro w w' hFalse
    exact hFalse.elim
  · intro w hFalse
    exact hFalse.elim

theorem alwaysFailure_triple {P : World K S → Prop} :
    BT.Triple (mission K S) (surroundings A late) P
      (.action .alwaysFailure)
      ⟨fun _ => False, fun _ => False, P⟩ := by
  apply BT.Triple.action
  · intro w hPre o w' hTick
    cases hTick
    exact hPre
  · intro w w' hFalse
    exact hFalse.elim
  · intro w hFalse
    exact hFalse.elim

------------------------------------------------------------
-- Nodes That Send Goals
------------------------------------------------------------

/-
  What a node does to an assertion `P`: it holds as `Q` while
  a goal of the node is open, and becomes another with the
  node's success or failure. The result that a node succeeds
  with is the one that its own goal has ended with, and if no
  message was late the arm was sent there last.
-/
structure Contract
    (late : Prop)
    (a : RosAction K)
    (P : Assertion K)
    (Q : Nat → Goal K → Assertion K)
    (Succeeds Fails : Assertion K) : Prop where
  setGoal :
    ∀ b h, P b h →
      ∃ data reads, a.setGoal b = .ok (data, reads) ∧
        NoReports reads ∧
          (∀ goal, ¬ Ended goal h →
            Q goal data b
              (.sent goal a.node data :: (reads ++ h))) ∧
          Fails b
            (.failed a.node .serverUnreachable :: (reads ++ h))
  stable :
    ∀ goal data, Stable late (some (goal, data)) (Q goal data)
  failure :
    ∀ goal data b h error, Q goal data b h →
      Fails b (.failed a.node error :: h)
  success :
    ∀ goal data b h r, r.code = .succeeded → Q goal data b h →
      .ended goal data.actionName .succeeded r.result ∈ h →
      (Patient h → ¬ late → ∀ move, data = .move move →
        lastCommand h =
          some (Move.finite (Move.finalPose move))) →
        ∃ b' events,
          a.onResultReceived r b = (.success, b', events) ∧
            NoReports events ∧ Succeeds b' (events ++ h)

namespace Contract

variable {a : RosAction K} {P Succeeds Fails : Assertion K}
variable {Q : Nat → Goal K → Assertion K}

/- The world while the node is running. -/
def Running
    (A : ApproachServer K S I)
    (late : Prop)
    (a : RosAction K)
    (Q : Nat → Goal K → Assertion K)
    (w : World K S) : Prop :=
  ∃ goal data, Busy A late a.node goal data (Q goal data) w

omit [Field K] [LinearOrder K] in
/- The records after a goal was sent. -/
theorem record_after_send
    {goals : List (GoalRecord K)} {new r : GoalRecord K}
    {goal : Nat}
    (hGoal : (goals ++ [new])[goal]? = some r) :
    goals[goal]? = some r ∨ (goal = goals.length ∧ r = new) := by
  by_cases hLength : goal < goals.length
  · rw [List.getElem?_append_left hLength] at hGoal
    exact .inl hGoal
  · rw [List.getElem?_append_right (not_lt.mp hLength)] at hGoal
    have hIndex := (List.getElem?_eq_some_iff.mp hGoal).1
    rw [List.length_singleton] at hIndex
    have hSame : goal = goals.length := by omega
    subst hSame
    simp only [Nat.sub_self, List.getElem?_cons_zero,
      Option.some.injEq] at hGoal
    exact .inr ⟨rfl, hGoal.symm⟩

omit [Field K] [LinearOrder K] in
theorem record_before_send
    {goals : List (GoalRecord K)} {new r : GoalRecord K}
    {goal : Nat}
    (hGoal : goals[goal]? = some r) :
    (goals ++ [new])[goal]? = some r := by
  have hLength := (List.getElem?_eq_some_iff.mp hGoal).1
  rw [List.getElem?_append_left hLength]
  exact hGoal

omit [Field K] [LinearOrder K] in
/- A goal is sent while the world rests. -/
theorem send
    {n : NodeId} {data : Goal K} {H P : Assertion K}
    (hRest : Rest A P w)
    (hReceived : (w.client n).goalReceived = false)
    (hResult : (w.client n).result = none)
    (hHolds :
      H w.blackboard
        (.sent w.goals.length n data :: w.history)) :
    Busy A late n w.goals.length data H (w.sendGoal n data) := by
  have hHandle :
      ∀ m, ((w.sendGoal n data).client m).goalHandle =
        (w.client m).goalHandle := by
    intro m
    by_cases hSame : m = n
    · subst hSame
      simp [World.sendGoal, World.setClient, Client.send]
    · simp [World.sendGoal, World.setClient, hSame]
  constructor
  case sane =>
    constructor
    case executing =>
      intro goal hMember
      rcases hRest.sane.executing goal hMember with
        ⟨r, left, hGoal, hData, hStage⟩
      exact ⟨r, left, record_before_send hGoal, hData, hStage⟩
    case nodup => exact hRest.sane.nodup
    case started =>
      intro action
      apply (hRest.sane.started action).append
      · simp [World.sendGoal]
      · simp [GoalRecord.Begun]
    case ended =>
      intro action code result
      apply (hRest.sane.ended action code result).append
      · simp [World.sendGoal]
      · simp [GoalRecord.EndedWith]
  case handles =>
    intro m old hOld
    rw [hHandle] at hOld
    rcases hRest.handles m old hOld with
      ⟨r, hGoal, hDelivered⟩
    exact .inr ⟨r, record_before_send hGoal, hDelivered⟩
  case record =>
    refine ⟨⟨n, data, .requested, false, false⟩, by
      simp [World.sendGoal], rfl, rfl, ?_, ?_⟩
    · refine .pending ?_ ?_ ?_ (.inl ⟨?_, rfl⟩) rfl
      · simpa [World.sendGoal, World.setClient, Client.send]
          using hReceived
      · simpa [World.sendGoal, World.setClient, Client.send]
          using hResult
      · intro hOld
        rw [hHandle] at hOld
        rcases hRest.handles n _ hOld with ⟨r, hGoal, _⟩
        simp at hGoal
      · simp [World.sendGoal, World.setClient, Client.send]
    · intro _ _ move _ hLeft
      simp at hLeft
  case sent => exact List.mem_cons_self
  case alone =>
    intro hPatient other hAlive
    rcases hAlive with ⟨r, hGoal, hArm, hAlive⟩
    rcases record_after_send hGoal with hGoal | ⟨hSame, _⟩
    · exact absurd ⟨r, hGoal, hArm, hAlive⟩
        (hRest.free hPatient.tail other)
    · exact hSame
  case holds => exact hHolds

omit [Field K] [LinearOrder K] in
/- The next number is not the one of a goal that has ended. -/
theorem not_ended_length
    (hSane : Sane A w) : ¬ Ended w.goals.length w.history := by
  rintro ⟨action, code, result, hMember⟩
  rcases hSane.not_alive hMember with ⟨r, hGoal, _⟩
  simp at hGoal

/- The first tick. -/
theorem onStart
    (hContract : Contract late a P Q Succeeds Fails)
    (hRest : Rest A P w)
    {o : BT.Outcome}
    (hTick : BT.LeafTick (a.onStart w) o w') :
    BT.Post.Holds
      ⟨Running A late a Q, Rest A Succeeds, Rest A Fails⟩ o w' := by
  rcases hContract.setGoal _ _ hRest.holds with
    ⟨data, reads, hSet, hNoReports, hSent, hFail⟩
  let w₁ : World K S :=
    { w.setClient a.node (w.client a.node).reset with
      history := reads ++ w.history }
  have hHandles :
      ∀ n, (w₁.client n).goalHandle =
        (w.client n).goalHandle := by
    intro n
    by_cases hSame : n = a.node
    · subst hSame
      simp [w₁, World.setClient, Client.reset]
    · simp [w₁, World.setClient, hSame]
  have hStart :
      a.onStart w =
        if w.ready data.actionName then
          .ok (.running, w₁.sendGoal a.node data)
        else
          .ok (.failure,
            w₁.log (.failed a.node .serverUnreachable)) := by
    have hSet :
        a.setGoal (w.setClient a.node
          (w.client a.node).reset).blackboard =
            .ok (data, reads) := hSet
    simp only [RosAction.onStart, hSet]
    rfl
  have hRest₁ :
      Rest A
        (fun b h => b = w.blackboard ∧ h = reads ++ w.history)
        w₁ :=
    hRest.local_ ⟨hNoReports, rfl, rfl, rfl⟩ hHandles ⟨rfl, rfl⟩
  rw [hStart] at hTick
  by_cases hReady : w.ready data.actionName = true
  · rw [if_pos hReady] at hTick
    cases hTick
    refine ⟨w₁.goals.length, data, send hRest₁ ?_ ?_ ?_⟩
    · simp [w₁, World.setClient, Client.reset]
    · simp [w₁, World.setClient, Client.reset]
    · exact hSent _ (not_ended_length hRest.sane)
  · rw [if_neg hReady] at hTick
    cases hTick
    exact hRest₁.local_ (.log id) (fun _ => rfl) hFail

omit [Field K] [LinearOrder K] in
/-
  A node whose goal has ended, or is none of the arm's, has
  nothing left to wait for.
-/
theorem done
    {n : NodeId} {goal : Nat} {data : Goal K}
    {H R : Assertion K} {events : List (Event K)}
    (hBusy : Busy A late n goal data H w)
    (hLocal : Local events w w')
    (hHandles :
      ∀ m, (w'.client m).goalHandle = (w.client m).goalHandle)
    (hDelivered :
      (w.client n).goalHandle = some goal → Delivered w goal)
    (hOver :
      Patient w'.history → data.Arm →
        ∃ r, w.goals[goal]? = some r ∧ ¬ r.Alive)
    (hHolds : R w'.blackboard w'.history) :
    Rest A R w' where
  sane := hBusy.sane.local_ hLocal
  handles := by
    intro m old hHandle
    rw [hHandles] at hHandle
    rcases hBusy.handles m old hHandle with
      ⟨rfl, rfl⟩ | hOld
    · exact hLocal.delivered (hDelivered hHandle)
    · exact hLocal.delivered hOld
  free := by
    intro hPatient other hAlive
    have hAlive := hLocal.armAlive hAlive
    have hSame :=
      hBusy.alone (hLocal.patient hPatient) other hAlive
    subst hSame
    rcases hBusy.record with ⟨r, hGoal, _, hData, _⟩
    rcases hAlive with ⟨r₁, hGoal₁, hArm, hAlive⟩
    cases hGoal.symm.trans hGoal₁
    rw [hData] at hArm
    rcases hOver hPatient hArm with ⟨r₂, hGoal₂, hEnded⟩
    cases hGoal.symm.trans hGoal₂
    exact hEnded hAlive
  holds := hHolds

/- The response is late, and the node gives up. -/
theorem giveUp
    (hContract : Contract late a P Q Succeeds Fails)
    {goal : Nat} {data : Goal K}
    (hBusy : Busy A late a.node goal data (Q goal data) w)
    (hHandle : (w.client a.node).goalHandle ≠ some goal) :
    Rest A Fails
      (w.log (.failed a.node .sendGoalTimeout)) := by
  refine done hBusy (.log id) (fun _ => rfl)
    (fun hSome => absurd hSome hHandle) ?_
    (hContract.failure _ _ _ _ _ hBusy.holds)
  intro hPatient hArm
  rcases hPatient.timeout hBusy.sent hArm with
    ⟨action, code, result, hMember⟩
  exact hBusy.sane.not_alive hMember

omit [Field K] [LinearOrder K] in
/- The response is there, and the goal handle is taken. -/
theorem takeHandle
    {n : NodeId} {goal : Nat} {data : Goal K}
    {H : Assertion K} {c : Client K}
    (hBusy : Busy A late n goal data H w)
    (hHandle : c.goalHandle = some goal)
    (hReceived : c.goalReceived = true)
    (hResult : c.result = none)
    (hNew :
      ∀ r, w.goals[goal]? = some r → r.delivered = false) :
    Busy A late n goal data H (w.setClient n c) := by
  rcases hBusy.record with
    ⟨r, hGoal, hNode, hData, _, hArrived⟩
  refine
    { hBusy with
      sane := hBusy.sane.local_ ⟨NoReports.nil, rfl, rfl, rfl⟩
      handles := ?_
      record := ⟨r, hGoal, hNode, hData, ?_, hArrived⟩ }
  · intro m old hSome
    by_cases hSame : m = n
    · subst hSame
      rw [World.setClient_self, hHandle] at hSome
      exact .inl ⟨rfl, (Option.some.inj hSome).symm⟩
    · rw [World.setClient_of_ne hSame] at hSome
      exact hBusy.handles m old hSome
  · rw [World.setClient_self]
    exact .accepted hReceived hHandle hResult (hNew r hGoal)

/- The result is there. -/
theorem answer
    (hContract : Contract late a P Q Succeeds Fails)
    {goal : Nat} {data : Goal K} {r : GoalRecord K}
    {code : Terminal} {result : ApproachResult K}
    (hBusy : Busy A late a.node goal data (Q goal data) w)
    (hGoal : w.goals[goal]? = some r)
    (hStage : r.stage = .ended code result)
    (hReceived : (w.client a.node).goalReceived = true)
    (hResult :
      (w.client a.node).result = some ⟨goal, code, result⟩)
    (hDelivered : r.delivered = true)
    {o : BT.Outcome}
    (hTick : BT.LeafTick (a.onRunning w) o w') :
    BT.Post.Holds
      ⟨Running A late a Q, Rest A Succeeds, Rest A Fails⟩ o w' := by
  have hOver :
      ∃ r, w.goals[goal]? = some r ∧ ¬ r.Alive :=
    ⟨r, hGoal, not_alive_of_ended hStage⟩
  have hFail :
      ∀ error, Rest A Fails (w.log (.failed a.node error)) := by
    intro error
    exact done hBusy (.log id) (fun _ => rfl)
      (fun _ => ⟨r, hGoal, hDelivered⟩) (fun _ _ => hOver)
      (hContract.failure _ _ _ _ _ hBusy.holds)
  simp only [RosAction.onRunning, Client.runningTick, hReceived,
    if_true, Client.checkResult, hResult, bind, Except.bind,
    World.setClient_client] at hTick
  cases code with
  | aborted =>
      cases hTick
      exact hFail _
  | canceled =>
      cases hTick
      exact hFail _
  | succeeded =>
      have hArrived :
          Patient w.history → ¬ late →
            ∀ move, data = .move move →
              lastCommand w.history =
                some (Move.finite (Move.finalPose move)) := by
        intro hPatient hInTime move hMove
        rcases hBusy.record with
          ⟨r₁, hGoal₁, _, hData, _, hArrived⟩
        cases hGoal.symm.trans hGoal₁
        exact hArrived hPatient hInTime move
          (hData.trans hMove) (.inr ⟨result, hStage⟩)
      have hEnded :
          .ended goal data.actionName .succeeded result ∈
            w.history := by
        rcases hBusy.record with ⟨r₁, hGoal₁, _, hData, _, _⟩
        cases hGoal.symm.trans hGoal₁
        rw [← hData]
        exact hBusy.sane.mem_ended hGoal hStage
      rcases hContract.success goal data w.blackboard w.history
          ⟨goal, .succeeded, result⟩ rfl hBusy.holds hEnded
          hArrived with
        ⟨b', events, hReceive, hNoReports, hHolds⟩
      simp only [hReceive] at hTick
      cases hTick
      exact done hBusy ⟨hNoReports, rfl, rfl, rfl⟩ (fun _ => rfl)
        (fun _ => ⟨r, hGoal, hDelivered⟩) (fun _ _ => hOver)
        hHolds

/- A later tick. -/
theorem onRunning
    (hContract : Contract late a P Q Succeeds Fails)
    (hRunning : Running A late a Q w)
    {o : BT.Outcome}
    (hTick : BT.LeafTick (a.onRunning w) o w') :
    BT.Post.Holds
      ⟨Running A late a Q, Rest A Succeeds, Rest A Fails⟩ o w' := by
  rcases hRunning with ⟨goal, data, hBusy⟩
  rcases hBusy.record with ⟨r, hGoal, _, _, hWaits, _⟩
  cases hWaits with
  | pending hReceived hResult hHandle hFuture hNew =>
      rcases hFuture with ⟨hWaiting, _⟩ | hReady
      · cases hTimeout : w.timeout with
        | true =>
            have hRunning :
                (w.client a.node).runningTick w.timeout =
                  .ok (.onFailure .sendGoalTimeout,
                    w.client a.node) := by
              simp [Client.runningTick, hReceived, hWaiting,
                hTimeout]
            simp only [RosAction.onRunning, hRunning, bind,
              Except.bind, World.setClient_client] at hTick
            cases hTick
            exact hContract.giveUp hBusy hHandle
        | false =>
            have hRunning :
                (w.client a.node).runningTick w.timeout =
                  .ok (.running, w.client a.node) := by
              simp [Client.runningTick, hReceived, hWaiting,
                hTimeout]
            simp only [RosAction.onRunning, hRunning, bind,
              Except.bind, World.setClient_client] at hTick
            cases hTick
            exact ⟨goal, data, hBusy⟩
      · have hRunning :
            (w.client a.node).runningTick w.timeout =
              .ok (.running,
                { w.client a.node with
                  goalReceived := true
                  goalHandle := some goal
                  futureGoalHandle := .invalid }) := by
          simp [Client.runningTick, hReceived, hReady,
            Client.checkResult, hResult]
        simp only [RosAction.onRunning, hRunning, bind,
          Except.bind] at hTick
        cases hTick
        refine ⟨goal, data, takeHandle hBusy rfl rfl hResult ?_⟩
        intro r' hGoal'
        cases hGoal.symm.trans hGoal'
        exact hNew
  | accepted hReceived hHandle hResult hNew =>
      simp only [RosAction.onRunning, Client.runningTick,
        hReceived, if_true, Client.checkResult, hResult, bind,
        Except.bind, World.setClient_client] at hTick
      cases hTick
      exact ⟨goal, data, hBusy⟩
  | answered hReceived hHandle hStage hResult hDelivered =>
      exact hContract.answer hBusy hGoal hStage hReceived
        hResult hDelivered hTick

/- The rule for a node that sends goals. -/
theorem triple
    (hContract : Contract late a P Q Succeeds Fails) :
    BT.Triple (mission K S) (surroundings A late) (Rest A P)
      (.action (.rosAction a))
      ⟨Running A late a Q, Rest A Succeeds, Rest A Fails⟩ := by
  apply BT.Triple.action
  · intro w hRest o w' hTick
    exact hContract.onStart hRest hTick
  · intro w w' hRunning hStep
    rcases hRunning with ⟨goal, data, hBusy⟩
    exact ⟨goal, data, hBusy.env (hContract.stable goal data) hStep⟩
  · intro w hRunning _ o w' hTick
    exact hContract.onRunning hRunning hTick

end Contract

end Rules

end Mission

end Manipulator
