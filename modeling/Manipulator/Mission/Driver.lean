import Manipulator.Mission.Network

/-
  Worlds in which at most one goal moves the arm.

  `Rest` describes the world between the goals of the
  mission, `Busy` the world while a node waits for a goal of
  its own. Both hold along every step outside the tree, and
  both say that no other goal moves the arm as long as the
  mission gave up on no goal that might still execute. Where
  messages may be late, one of the approach server may come
  in between. An assertion about the blackboard and the
  history rides along.

  Main declarations:
    * `Patient`, `ArmAlive`, `lastCommand`
    * `Assertion`, `Stable`
    * `Rest`, `Busy`, `Rest.env`, `Busy.env`
-/

------------------------------------------------------------
-- Histories
------------------------------------------------------------

namespace Manipulator

namespace Mission

variable {K S I : Type}

/- The history says that a goal has ended. -/
def Ended (goal : Nat) (h : List (Event K)) : Prop :=
  ∃ action code result, .ended goal action code result ∈ h

/-
  No node reports a timeout of its goal response before the
  arm goals it sent have ended.
-/
def Patient (h : List (Event K)) : Prop :=
  History.Each
    (fun event earlier =>
      ∀ n, event = .failed n .sendGoalTimeout →
        ∀ goal data, .sent goal n data ∈ earlier →
          data.Arm → Ended goal earlier) h

/- No goal response was late. -/
def Event.inTime : Event K → Bool
| .failed _ .sendGoalTimeout => false
| _ => true

/- The last message on `pose_data`. -/
def lastCommand : List (Event K) → Option (Pos (Option K))
| [] => none
| .commanded pose :: _ => some pose
| _ :: earlier => lastCommand earlier

theorem Patient.tail
    {event : Event K} {h : List (Event K)}
    (hPatient : Patient (event :: h)) : Patient h :=
  hPatient.2

theorem Patient.append
    {events h : List (Event K)}
    (hPatient : Patient (events ++ h)) : Patient h := by
  induction events with
  | nil => exact hPatient
  | cons event events ih => exact ih hPatient.tail

theorem patient_of_inTime
    {h : List (Event K)}
    (hInTime : h.all Event.inTime = true) : Patient h := by
  induction h with
  | nil => exact trivial
  | cons event earlier ih =>
      rw [List.all_cons, Bool.and_eq_true] at hInTime
      refine ⟨?_, ih hInTime.2⟩
      rintro n rfl
      cases hInTime.1

/- A timeout of a goal that has ended. -/
theorem Patient.timeout
    {n : NodeId} {h : List (Event K)}
    (hPatient : Patient (.failed n .sendGoalTimeout :: h))
    {goal : Nat} {data : Goal K}
    (hSent : .sent goal n data ∈ h)
    (hArm : data.Arm) : Ended goal h :=
  hPatient.1 n rfl goal data hSent hArm

------------------------------------------------------------
-- Assertions
------------------------------------------------------------

/- A statement about the blackboard and the history. -/
abbrev Assertion (K : Type) :=
  Blackboard K → List (Event K) → Prop

section Stability

/-
  The worlds in which messages may be late: all of them, or
  those of an impatient mission.
-/
def Lately (late : Prop) (w : World K S) : Prop :=
  Patient w.history → late

variable [Field K] [LinearOrder K]

/- An event of the servers. -/
def Arises (h : List (Event K)) (event : Event K) : Prop :=
  (∃ goal data, Emits h goal data event) ∨ Stray event

/-
  An event of the servers of a patient mission: it comes from
  a goal that does not move the arm, from the goal `mine`, or
  it is a message that is late, if there are any.
-/
def Source
    (late : Prop) (mine : Option (Nat × Goal K))
    (h : List (Event K)) (event : Event K) : Prop :=
  (∃ goal data, Emits h goal data event ∧
      (data.Arm → mine = some (goal, data))) ∨
    (late ∧ Stray event)

/-
  An assertion that survives the events of the servers, whose
  sources are known when the mission was patient.
-/
def Stable
    (late : Prop) (mine : Option (Nat × Goal K))
    (H : Assertion K) : Prop :=
  ∀ b h event, Arises h event →
    (Patient h → Source late mine h event) →
      H b h → H b (event :: h)

end Stability

------------------------------------------------------------
-- Rest
------------------------------------------------------------

/- The goal moves the arm and has not ended. -/
def ArmAlive (w : World K S) (goal : Nat) : Prop :=
  ∃ r, w.goals[goal]? = some r ∧ r.goal.Arm ∧ r.Alive

/- The result of the goal has come back. -/
def Delivered (w : World K S) (goal : Nat) : Prop :=
  ∃ r, w.goals[goal]? = some r ∧ r.delivered = true

/- No node waits for a goal. -/
structure Rest
    (A : ApproachServer K S I)
    (H : Assertion K)
    (w : World K S) : Prop where
  sane : Sane A w
  handles :
    ∀ n old, (w.client n).goalHandle = some old →
      Delivered w old
  free : Patient w.history → ∀ goal, ¬ ArmAlive w goal
  holds : H w.blackboard w.history

section Environment

variable [Field K] [LinearOrder K]
variable {A : ApproachServer K S I} {Late : World K S → Prop}
variable {w w' : World K S}
variable {H : Assertion K}

theorem ArmAlive.earlier
    {goal : Nat}
    (hAlive : ArmAlive w' goal)
    (hStep : EnvStep A Late w w') : ArmAlive w goal := by
  rcases hAlive with ⟨r', hGoal', hArm, hAlive⟩
  rcases hStep.earlier hGoal' with ⟨r, hGoal, hFollows⟩
  rw [hFollows.goal] at hArm
  exact ⟨r, hGoal, hArm, hFollows.alive hAlive⟩

theorem Delivered.later
    {goal : Nat}
    (hDelivered : Delivered w goal)
    (hStep : EnvStep A Late w w') : Delivered w' goal := by
  rcases hDelivered with ⟨r, hGoal, hDelivered⟩
  rcases hStep.later hGoal with ⟨r', hGoal', hFollows⟩
  exact ⟨r', hGoal', hFollows.delivered hDelivered⟩

theorem EnvStep.patient
    (hStep : EnvStep A Late w w')
    (hSane : Sane A w)
    (hPatient : Patient w'.history) : Patient w.history := by
  rcases hStep.history hSane with hSame | ⟨event, hEvent, _⟩
  · rwa [hSame] at hPatient
  · rw [hEvent] at hPatient
    exact hPatient.tail

/- What a step does to an assertion. -/
theorem Stable.env
    {late : Prop} {mine : Option (Nat × Goal K)}
    (hStable : Stable late mine H)
    (hStep : EnvStep A (Lately late) w w')
    (hSane : Sane A w)
    (hMine :
      Patient w.history →
        ∀ (goal : Nat) (r : GoalRecord K),
          w.goals[goal]? = some r → r.goal.Arm → r.Alive →
            mine = some (goal, r.goal))
    (hHolds : H w.blackboard w.history) :
    H w'.blackboard w'.history := by
  rw [hStep.blackboard]
  rcases hStep.history hSane with
    hSame | ⟨event, hEvent, hSource⟩
  · rwa [hSame]
  · rw [hEvent]
    rcases hSource with
      ⟨goal, r, hGoal, hAlive, hEmits⟩ | ⟨hLate, hStray⟩
    · apply hStable _ _ _ (.inl ⟨goal, r.goal, hEmits⟩) _ hHolds
      intro hPatient
      exact .inl ⟨goal, r.goal, hEmits, fun hArm =>
        hMine hPatient goal r hGoal hArm hAlive⟩
    · apply hStable _ _ _ (.inr hStray) _ hHolds
      intro hPatient
      exact .inr ⟨hLate hPatient, hStray⟩

theorem Rest.env
    {late : Prop}
    (hRest : Rest A H w)
    (hStable : Stable late none H)
    (hStep : EnvStep A (Lately late) w w') : Rest A H w' where
  sane := hRest.sane.env hStep
  handles := by
    intro n old hHandle
    rw [hStep.goalHandle] at hHandle
    exact (hRest.handles n old hHandle).later hStep
  free := by
    intro hPatient goal hAlive
    exact hRest.free (hStep.patient hRest.sane hPatient) goal
      (hAlive.earlier hStep)
  holds := by
    apply hStable.env hStep hRest.sane _ hRest.holds
    intro hPatient goal r hGoal hArm hAlive
    exact absurd ⟨r, hGoal, hArm, hAlive⟩
      (hRest.free hPatient goal)

end Environment

------------------------------------------------------------
-- A Node That Waits
------------------------------------------------------------

/-
  Where a node stands that has sent a goal: its response is
  pending or was not looked at yet, or the node waits for the
  result, or the result has come back.
-/
inductive Waits
    (c : Client K) (goal : Nat) (r : GoalRecord K) : Prop where
| pending
    (hReceived : c.goalReceived = false)
    (hResult : c.result = none)
    (hHandle : c.goalHandle ≠ some goal)
    (hFuture :
      (c.futureGoalHandle = .waiting goal ∧
          r.responded = false) ∨
        c.futureGoalHandle = .ready (some goal))
    (hNew : r.delivered = false) :
    Waits c goal r
| accepted
    (hReceived : c.goalReceived = true)
    (hHandle : c.goalHandle = some goal)
    (hResult : c.result = none)
    (hNew : r.delivered = false) :
    Waits c goal r
| answered
    {code : Terminal} {result : ApproachResult K}
    (hReceived : c.goalReceived = true)
    (hHandle : c.goalHandle = some goal)
    (hStage : r.stage = .ended code result)
    (hResult : c.result = some ⟨goal, code, result⟩)
    (hDelivered : r.delivered = true) :
    Waits c goal r

section Arrivals

variable [Field K] [LinearOrder K]

/-
  A move goal that has left its loop, or has succeeded, has
  commanded its final pose last.
-/
def Arrived
    (r : GoalRecord K) (h : List (Event K)) : Prop :=
  ∀ data, r.goal = .move data →
    (r.stage = .executing true ∨
      ∃ result, r.stage = .ended .succeeded result) →
        lastCommand h =
          some (Move.finite (Move.finalPose data))

/-
  Node `n` waits for a goal of its own, and the arm has no
  other driver.
-/
structure Busy
    (A : ApproachServer K S I)
    (late : Prop)
    (n : NodeId) (goal : Nat) (data : Goal K)
    (H : Assertion K)
    (w : World K S) : Prop where
  sane : Sane A w
  handles :
    ∀ m old, (w.client m).goalHandle = some old →
      (m = n ∧ old = goal) ∨ Delivered w old
  record :
    ∃ r, w.goals[goal]? = some r ∧ r.node = n ∧
      r.goal = data ∧ Waits (w.client n) goal r ∧
        (Patient w.history → ¬ late → Arrived r w.history)
  sent : .sent goal n data ∈ w.history
  alone :
    Patient w.history → ∀ other, ArmAlive w other →
      other = goal
  holds : H w.blackboard w.history

variable {A : ApproachServer K S I} {Late : World K S → Prop}
variable {w w' : World K S}
variable {n : NodeId} {goal : Nat} {data : Goal K}
variable {r r' : GoalRecord K}
variable {H : Assertion K}

omit [Field K] [LinearOrder K] in
/- The record of a goal after some record was replaced. -/
theorem record_after_set
    {goals : List (GoalRecord K)} {other : Nat}
    {new : GoalRecord K}
    (hGoal : goals[goal]? = some r)
    (hGoal' : (goals.set other new)[goal]? = some r') :
    (other = goal ∧ r' = new) ∨ (other ≠ goal ∧ r' = r) := by
  by_cases hSame : other = goal
  · subst hSame
    have hLength := (List.getElem?_eq_some_iff.mp hGoal).1
    rw [List.getElem?_set_self hLength] at hGoal'
    exact .inl ⟨rfl, (Option.some.inj hGoal').symm⟩
  · rw [List.getElem?_set_ne hSame, hGoal] at hGoal'
    exact .inr ⟨hSame, (Option.some.inj hGoal').symm⟩

omit [Field K] [LinearOrder K] in
/- A change of the stage of a goal that has not ended. -/
theorem Waits.stage
    {c : Client K} {stage : Stage K}
    (hWaits : Waits c goal r)
    (hAlive : r.Alive) :
    Waits c goal { r with stage := stage } := by
  cases hWaits with
  | pending hReceived hResult hHandle hFuture hNew =>
      exact .pending hReceived hResult hHandle hFuture hNew
  | accepted hReceived hHandle hResult hNew =>
      exact .accepted hReceived hHandle hResult hNew
  | answered hReceived hHandle hStage hResult hDelivered =>
      exact absurd hStage (hAlive _ _)

omit [Field K] [LinearOrder K] in
/- The response of a goal arrives at the node that sent it. -/
theorem Waits.respond
    {c : Client K}
    (hWaits : Waits c goal r) :
    Waits (c.respond goal (some goal)) goal
      { r with responded := true } := by
  unfold Client.respond
  cases hWaits with
  | pending hReceived hResult hHandle hFuture hNew =>
      split
      · exact .pending hReceived hResult hHandle (.inr rfl) hNew
      · rename_i hOther
        refine .pending hReceived hResult hHandle (.inr ?_) hNew
        exact hFuture.resolve_left fun h => hOther h.1
  | accepted hReceived hHandle hResult hNew =>
      split
      · exact .accepted hReceived hHandle hResult hNew
      · exact .accepted hReceived hHandle hResult hNew
  | answered hReceived hHandle hStage hResult hDelivered =>
      split
      · exact .answered hReceived hHandle hStage hResult
          hDelivered
      · exact .answered hReceived hHandle hStage hResult
          hDelivered

omit [Field K] [LinearOrder K] in
/- The response of another goal of the same node. -/
theorem Waits.respond_other
    {c : Client K} {other : Nat}
    (hWaits : Waits c goal r)
    (hOther : other ≠ goal) :
    Waits (c.respond other (some other)) goal r := by
  unfold Client.respond
  split
  · rename_i hFuture'
    cases hWaits with
    | pending hReceived hResult hHandle hFuture hNew =>
        rw [hFuture'] at hFuture
        simp [hOther] at hFuture
    | accepted hReceived hHandle hResult hNew =>
        exact .accepted hReceived hHandle hResult hNew
    | answered hReceived hHandle hStage hResult hDelivered =>
        exact .answered hReceived hHandle hStage hResult
          hDelivered
  · exact hWaits

omit [Field K] [LinearOrder K] in
/- The result of a goal arrives at the node that sent it. -/
theorem Waits.deliver
    {c c' : Client K}
    {code : Terminal} {result : ApproachResult K}
    (hWaits : Waits c goal r)
    (hStage : r.stage = .ended code result)
    (hResponded : r.responded = true)
    (hNew : r.delivered = false)
    (hFuture : c.futureGoalHandle ≠ .ready (some goal))
    (hCallback :
      c.resultCallback ⟨goal, code, result⟩ = .ok c') :
    Waits c' goal { r with delivered := true } := by
  cases hWaits with
  | pending _ _ _ hFuture' _ =>
      rcases hFuture' with ⟨_, hOpen⟩ | hReady
      · rw [hResponded] at hOpen
        cases hOpen
      · exact absurd hReady hFuture
  | accepted hReceived hHandle hResult _ =>
      simp only [Client.resultCallback, hHandle, if_true]
        at hCallback
      cases hCallback
      exact .answered hReceived rfl hStage rfl rfl
  | answered _ _ _ _ hDelivered =>
      rw [hNew] at hDelivered
      cases hDelivered

omit [Field K] [LinearOrder K] in
/- The result of another goal is not taken for this one. -/
theorem resultCallback_other
    {c c' : Client K} {other : Nat}
    {code : Terminal} {result : ApproachResult K}
    (hHandle : c.goalHandle ≠ some other)
    (hCallback :
      c.resultCallback ⟨other, code, result⟩ = .ok c') :
    c' = c := by
  unfold Client.resultCallback at hCallback
  split at hCallback
  · cases hCallback
  · rename_i handle hSome
    split at hCallback
    · rename_i hSame
      simp only at hSame
      rw [hSame] at hSome
      exact absurd hSome hHandle
    · cases hCallback
      rfl

namespace EnvStep

/- A waiting node goes on waiting. -/
theorem waits
    (hStep : EnvStep A Late w w')
    (hHandles :
      ∀ old, (w.client n).goalHandle = some old →
        old = goal ∨ Delivered w old)
    (hGoal : w.goals[goal]? = some r)
    (hNode : r.node = n)
    (hWaits : Waits (w.client n) goal r)
    (hGoal' : w'.goals[goal]? = some r') :
    Waits (w'.client n) goal r' := by
  cases hStep with
  | quiet =>
      cases hGoal.symm.trans hGoal'
      exact hWaits
  | published =>
      cases hGoal.symm.trans hGoal'
      exact hWaits
  | started hStarted hStage =>
      rcases record_after_set hGoal hGoal' with
        ⟨rfl, rfl⟩ | ⟨_, rfl⟩
      · cases hGoal.symm.trans hStarted
        exact hWaits.stage (alive_of_requested hStage)
      · exact hWaits
  | iterated hIterated hData hStage =>
      rcases record_after_set hGoal hGoal' with
        ⟨rfl, rfl⟩ | ⟨_, rfl⟩
      · cases hGoal.symm.trans hIterated
        exact hWaits.stage (alive_of_executing hStage)
      · exact hWaits
  | ended hEnded hAction hStage =>
      rcases record_after_set hGoal hGoal' with
        ⟨rfl, rfl⟩ | ⟨_, rfl⟩
      · cases hGoal.symm.trans hEnded
        exact hWaits.stage (alive_of_executing hStage)
      · exact hWaits
  | returned hReturned hStage =>
      rcases record_after_set hGoal hGoal' with
        ⟨rfl, rfl⟩ | ⟨_, rfl⟩
      · cases hGoal.symm.trans hReturned
        exact hWaits.stage (alive_of_executing hStage)
      · exact hWaits
  | @responded other r₀ hResponded =>
      rcases record_after_set hGoal hGoal' with
        ⟨rfl, rfl⟩ | ⟨hOther, rfl⟩
      · cases hGoal.symm.trans hResponded
        subst hNode
        rw [World.setClient_self]
        exact hWaits.respond
      · by_cases hSame : n = r₀.node
        · rw [hSame, World.setClient_self, ← hSame]
          exact hWaits.respond_other hOther
        · rw [World.setClient_of_ne hSame]
          exact hWaits
  | @delivered other r₀ code result c hDelivered hStage
      hResponded hNew hFuture hCallback =>
      rcases record_after_set hGoal hGoal' with
        ⟨rfl, rfl⟩ | ⟨hOther, rfl⟩
      · cases hGoal.symm.trans hDelivered
        subst hNode
        rw [World.setClient_self]
        exact hWaits.deliver hStage hResponded hNew hFuture
          hCallback
      · by_cases hSame : n = r₀.node
        · subst hSame
          rw [World.setClient_self]
          have hHandle :
              (w.client r₀.node).goalHandle ≠ some other := by
            intro hHandle
            rcases hHandles other hHandle with
              hMine | ⟨r₁, hGoal₁, hDelivered₁⟩
            · exact hOther hMine
            · cases hDelivered.symm.trans hGoal₁
              rw [hNew] at hDelivered₁
              cases hDelivered₁
          rw [resultCallback_other hHandle hCallback]
          exact hWaits
        · rw [World.setClient_of_ne hSame]
          exact hWaits

/-
  The arm's only driver goes on to its final pose, unless a
  late message comes in between.
-/
theorem arrived
    (hStep : EnvStep A Late w w')
    (hInTime : ¬ Late w)
    (hSane : Sane A w)
    (hGoal : w.goals[goal]? = some r)
    (hAlone : ∀ other, ArmAlive w other → other = goal)
    (hArrived : Arrived r w.history)
    (hGoal' : w'.goals[goal]? = some r') :
    Arrived r' w'.history := by
  cases hStep with
  | quiet =>
      cases hGoal.symm.trans hGoal'
      exact hArrived
  | published hServer hLate =>
      cases hGoal.symm.trans hGoal'
      intro data hData
      -- the server has a goal, which is another than a move
      have hExecuting : A.executing w.server ≠ [] :=
        fun hIdle => hInTime (hLate hIdle)
      rcases List.exists_mem_of_ne_nil _ hExecuting with
        ⟨other, hMember⟩
      rcases hSane.executing other hMember with
        ⟨r₀, left, hOther, hApproach, hStage⟩
      have hSame : other = goal := by
        apply hAlone
        refine ⟨r₀, hOther, ?_, alive_of_executing hStage⟩
        simp [hApproach, Goal.Arm, Goal.actionName]
      subst hSame
      cases hGoal.symm.trans hOther
      rw [hApproach] at hData
      cases hData
  | started hStarted hStage =>
      rcases record_after_set hGoal hGoal' with
        ⟨rfl, rfl⟩ | ⟨_, rfl⟩
      · intro data _ hLeft
        simp at hLeft
      · exact hArrived
  | @iterated other r₀ data t hIterated hData hStage =>
      have hSame : other = goal := by
        apply hAlone
        refine ⟨r₀, hIterated, ?_, alive_of_executing hStage⟩
        simp [hData, Goal.Arm, Goal.actionName]
      rcases record_after_set hGoal hGoal' with
        ⟨_, rfl⟩ | ⟨hOther, _⟩
      · intro data' hData' hLeft
        cases hData.symm.trans hData'
        have hEnd : t.clampOne.GeOne := by
          simpa using hLeft
        exact congrArg some (Move.message_at_end data hEnd)
      · exact absurd hSame hOther
  | @ended other r₀ left code result hEnded hAction hStage
      hLeft =>
      rcases record_after_set hGoal hGoal' with
        ⟨rfl, rfl⟩ | ⟨_, rfl⟩
      · cases hGoal.symm.trans hEnded
        intro data hData hSuccess
        apply hArrived data hData
        have hCode : code = .succeeded := by
          rcases hSuccess with hExecuting | ⟨_, hSucceeded⟩
          · cases hExecuting
          · cases hSucceeded
            rfl
        rw [hLeft data hData hCode] at hStage
        exact .inl hStage
      · exact hArrived
  | returned hReturned hStage hServer =>
      rcases record_after_set hGoal hGoal' with
        ⟨rfl, rfl⟩ | ⟨_, rfl⟩
      · cases hGoal.symm.trans hReturned
        intro data hData
        have hMember :=
          hServer.mem_iff.mpr List.mem_cons_self
        have hApproach :=
          ((hSane.executing _ hMember).record hGoal).1
        cases hApproach.symm.trans hData
      · exact hArrived
  | responded hResponded =>
      rcases record_after_set hGoal hGoal' with
        ⟨rfl, rfl⟩ | ⟨_, rfl⟩
      · cases hGoal.symm.trans hResponded
        exact hArrived
      · exact hArrived
  | delivered hDelivered =>
      rcases record_after_set hGoal hGoal' with
        ⟨rfl, rfl⟩ | ⟨_, rfl⟩
      · cases hGoal.symm.trans hDelivered
        exact hArrived
      · exact hArrived

/- Events stay in the history. -/
theorem mem_history
    (hStep : EnvStep A Late w w')
    (hSane : Sane A w)
    {event : Event K}
    (hMember : event ∈ w.history) : event ∈ w'.history := by
  rcases hStep.history hSane with hSame | ⟨_, hEvent, _⟩
  · rwa [hSame]
  · rw [hEvent]
    exact List.mem_cons_of_mem _ hMember

end EnvStep

theorem Busy.env
    {late : Prop}
    (hBusy : Busy A late n goal data H w)
    (hStable : Stable late (some (goal, data)) H)
    (hStep : EnvStep A (Lately late) w w') :
    Busy A late n goal data H w' := by
  rcases hBusy.record with
    ⟨r, hGoal, hNode, hData, hWaits, hArrived⟩
  rcases hStep.later hGoal with ⟨r', hGoal', hFollows⟩
  constructor
  case sane => exact hBusy.sane.env hStep
  case handles =>
    intro m old hHandle
    rw [hStep.goalHandle] at hHandle
    rcases hBusy.handles m old hHandle with hMine | hDelivered
    · exact .inl hMine
    · exact .inr (hDelivered.later hStep)
  case record =>
    refine ⟨r', hGoal', hFollows.node.trans hNode,
      hFollows.goal.trans hData, ?_, ?_⟩
    · apply hStep.waits _ hGoal hNode hWaits hGoal'
      intro old hHandle
      rcases hBusy.handles n old hHandle with
        ⟨_, hMine⟩ | hDelivered
      · exact .inl hMine
      · exact .inr hDelivered
    · intro hPatient hInTime
      have hPatient := hStep.patient hBusy.sane hPatient
      exact hStep.arrived (fun hLate => hInTime (hLate hPatient))
        hBusy.sane hGoal (hBusy.alone hPatient)
          (hArrived hPatient hInTime) hGoal'
  case sent => exact hStep.mem_history hBusy.sane hBusy.sent
  case alone =>
    intro hPatient other hAlive
    exact hBusy.alone (hStep.patient hBusy.sane hPatient) other
      (hAlive.earlier hStep)
  case holds =>
    apply hStable.env hStep hBusy.sane _ hBusy.holds
    intro hPatient other r₀ hOther hArm hAlive
    have hSame :=
      hBusy.alone hPatient other ⟨r₀, hOther, hArm, hAlive⟩
    subst hSame
    cases hGoal.symm.trans hOther
    rw [hData]

end Arrivals

end Mission

end Manipulator
