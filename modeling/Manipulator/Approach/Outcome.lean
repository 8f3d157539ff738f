import Manipulator.Approach.Tracking

/-
  The outcome of an approach goal.

  One goal at a time, without debugging and on well-formed
  messages, no callback raises, a goal ends either by losing
  its target or by turning to it, and nothing is published
  while no goal runs.

  Main declarations:
    * `Permitted`, `Turned`, `GoalOutcome`, `Lawful`
    * `Single`, `Single.step`
    * `approach_outcome`
-/

------------------------------------------------------------
-- Outcomes
------------------------------------------------------------

namespace Manipulator

namespace Approach

variable {K : Type} [Field K] [LinearOrder K]

/- One goal at a time, and well-formed messages. -/
def Permitted (s : Server K) : Input K → Prop
| .goal => s.executions = []
| .boundingBox msg => msg.WellFormed
| _ => True

instance (s : Server K) :
    (i : Input K) → Decidable (Permitted s i)
| .goal => inferInstanceAs (Decidable (s.executions = []))
| .boundingBox msg => inferInstanceAs (Decidable msg.WellFormed)
| .timer => .isTrue trivial
| .cancel _ => .isTrue trivial
| .finish _ => .isTrue trivial

/- The pose that was published last. -/
def lastPublished : List (Event K) → Option (Pos K)
| [] => none
| .ticked t :: earlier =>
    match t.result.published with
    | some pose => some pose
    | none => lastPublished earlier
| _ :: earlier => lastPublished earlier

/- A goal has started and has not returned. -/
def goalRunning : List (Event K) → Prop
| [] => False
| .started _ :: _ => True
| .returned _ _ _ :: _ => False
| _ :: earlier => goalRunning earlier

/- The tick acted on a box in the turn state. -/
def Tick.Turns (t : Tick K) : Prop :=
  t.before.state = .turn ∧
    ∃ box, t.before.actsOn = some box ∧ box.hasBox = true

/- The ticks end by turning to a label confirmed before. -/
def Turned (label : String) (ticks : List (Tick K)) : Prop :=
  ∃ t earlier, ticks = t :: earlier ∧ t.Turns ∧
    Confirmed label earlier

/- The pose that a result reports. -/
def Reports (result : ApproachResult K) (pose : Pos K) : Prop :=
  result.goalX = pose.x ∧ result.goalY = pose.y ∧
    result.goalZ = pose.z ∧ result.goalYaw = pose.yaw

/- What the result of a goal says about its ticks. -/
structure GoalOutcome
    (goal : Nat)
    (result : ApproachResult K)
    (earlier : List (Event K)) : Prop where
  lost_iff :
    result = noneResult ↔
      misses (goalTicks goal earlier) = noBoxCountLimit
  found :
    result ≠ noneResult →
      Turned result.label (goalTicks goal earlier) ∧
        ∃ pose, lastPublished earlier = some pose ∧
          Reports result pose

/- What holds of every event of a history. -/
def Lawful : Event K → List (Event K) → Prop
| .returned goal _ result, earlier =>
    GoalOutcome goal result earlier
| .ticked t, earlier =>
    t.result.published.isSome → goalRunning earlier
| _, _ => True

------------------------------------------------------------
-- The Invariant
------------------------------------------------------------

/- How a node stands whose goal has ended. -/
def Ended (n : Node K) (h : List (Event K)) : Prop :=
  (n.hasBox = some false ∧
      misses (epoch h) = noBoxCountLimit) ∨
    (n.hasBox = some true ∧
      (∃ label, n.label = some label ∧
        Turned label (epoch h)) ∧
      lastPublished h = some n.posData)

/- What overlapping goals would break. -/
structure Single (s : Server K) : Prop where
  debug : s.node.debugMode = 0
  boxes : ∀ box ∈ s.node.boxData, box.WellFormed
  single : s.executions.length ≤ 1
  same :
    ∀ e ∈ s.executions,
      goalTicks e.goal s.history = epoch s.history
  active : s.executions ≠ [] ↔ goalRunning s.history
  ended :
    ∀ e ∈ s.executions, e.released = true →
      s.node.run = false ∧ Ended s.node s.history
  lawful : History.Each Lawful s.history

namespace Single

variable {s : Server K}

theorem init :
    Single (Server.init 0 : Server K) where
  debug := rfl
  boxes := by
    intro box hBox
    obtain rfl : BoundingBox.default = box :=
      Option.some.inj hBox
    simp [BoundingBox.default, BoundingBox.WellFormed,
      BoundingBox.count]
  single := by simp [Server.init]
  same := by simp [Server.init]
  active := by simp [Server.init, goalRunning]
  ended := by simp [Server.init]
  lawful := trivial

theorem goal
    (hSingle : Single s)
    (hIdle : s.executions = []) : Single s.goal where
  debug := hSingle.debug
  boxes := hSingle.boxes
  single := by simp [Server.goal, hIdle]
  same := by simp [Server.goal, hIdle, goalTicks, epoch]
  active := by simp [Server.goal, goalRunning]
  ended := by simp [Server.goal, hIdle]
  lawful := ⟨trivial, hSingle.lawful⟩

theorem boundingBox
    {msg : BoundingBox K}
    (hSingle : Single s)
    (hWell : msg.WellFormed) : Single (s.boundingBox msg) where
  debug := hSingle.debug
  boxes := by
    intro box hBox
    obtain rfl : msg = box := Option.some.inj hBox
    exact hWell
  single := hSingle.single
  same := by
    simpa [Server.boundingBox, goalTicks, epoch] using
      hSingle.same
  active := hSingle.active
  ended := by
    simpa [Server.boundingBox, boundingBoxCallback, Ended, epoch,
      lastPublished] using hSingle.ended
  lawful := ⟨trivial, hSingle.lawful⟩

theorem cancel
    (goal : Nat)
    (hSingle : Single s) : Single (s.cancel goal) where
  debug := hSingle.debug
  boxes := hSingle.boxes
  single := by simpa [Server.cancel] using hSingle.single
  same := by
    intro e' hMember
    rcases List.mem_map.mp hMember with ⟨e, hOld, rfl⟩
    have hSame := hSingle.same e hOld
    by_cases hGoal : e.goal = goal
    · simpa [Server.cancel, goalTicks, epoch, hGoal] using hSame
    · simpa [Server.cancel, goalTicks, epoch, hGoal] using hSame
  active := by
    simpa [Server.cancel, goalRunning] using hSingle.active
  ended := by
    intro e' hMember hReleased
    rcases List.mem_map.mp hMember with ⟨e, hOld, rfl⟩
    have hEnded := hSingle.ended e hOld
    by_cases hGoal : e.goal = goal
    · rw [if_pos hGoal] at hReleased
      simpa [Server.cancel, Ended, epoch, lastPublished] using
        hEnded hReleased
    · rw [if_neg hGoal] at hReleased
      simpa [Server.cancel, Ended, epoch, lastPublished] using
        hEnded hReleased
  lawful := ⟨trivial, hSingle.lawful⟩

/- A tick that acts on nothing publishes nothing. -/
theorem neutral
    (hTracking : Tracking s)
    (hSingle : Single s)
    (hActs : s.node.actsOn = none) :
    Single (s.ticked (.silent s.node)) := by
  have hSame := hTracking.executions_neutral
  have hEpoch :
      ∀ stop, ticksSince stop
          (s.ticked (.silent s.node)).history =
        ticksSince stop s.history :=
    fun stop => ticksSince_neutral stop s.history hActs
  constructor
  case debug => exact hSingle.debug
  case boxes => exact hSingle.boxes
  case single =>
    rw [hSame]
    exact hSingle.single
  case same =>
    rw [hSame]
    intro e hMember
    rw [goalTicks, epoch, hEpoch, hEpoch]
    exact hSingle.same e hMember
  case active =>
    rw [hSame]
    exact hSingle.active
  case ended =>
    rw [hSame]
    intro e hMember hReleased
    have hEnded := hSingle.ended e hMember hReleased
    unfold Ended at hEnded ⊢
    rw [epoch, hEpoch]
    exact hEnded
  case lawful =>
    refine ⟨?_, hSingle.lawful⟩
    intro hPublished
    cases hPublished

/- A tick that acts on a message, in terms of its effect. -/
theorem acting
    {r : TickResult K} {box : BoundingBox K}
    (hTracking : Tracking s)
    (hSingle : Single s)
    (hActs : s.node.actsOn = some box)
    (hDebug : r.node.debugMode = s.node.debugMode)
    (hBoxes : r.node.boxData = s.node.boxData)
    (hEnded :
      r.node.finishEvent = true →
        r.node.run = false ∧
          Ended r.node (s.ticked r).history) :
    Single (s.ticked r) := by
  have hRun := Tracking.run_of_actsOn hActs
  have hWaits : ∀ e ∈ s.executions, e.released = false := by
    intro e hMember
    by_contra hReleased
    rw [Bool.not_eq_false] at hReleased
    have hStopped := (hSingle.ended e hMember hReleased).1
    rw [hRun] at hStopped
    cases hStopped
  have hSome : s.executions ≠ [] := by
    rcases (hTracking.running hRun).2.1 with ⟨e, hMember, _⟩
    exact List.ne_nil_of_mem hMember
  constructor
  case debug => exact hDebug.trans hSingle.debug
  case boxes =>
    intro box hBox
    apply hSingle.boxes
    rw [← hBoxes]
    exact hBox
  case single =>
    unfold Server.ticked
    split
    · simpa using hSingle.single
    · exact hSingle.single
  case same =>
    intro e hMember
    rcases Tracking.mem_ticked hMember with ⟨f, hF, hGoal, _⟩
    have hSame := hSingle.same f hF
    unfold goalTicks epoch at hSame ⊢
    rw [← hGoal]
    have hTicks :=
      fun stop =>
        ticksSince_acting stop s.history
          (t := ⟨s.node, s.boxId, r⟩) hActs
    unfold Server.ticked
    rw [hTicks, hTicks, hSame]
  case active =>
    have hActive := hSingle.active
    unfold Server.ticked
    split
    · simpa [goalRunning] using hActive
    · simpa [goalRunning] using hActive
  case ended =>
    intro e hMember hReleased
    rcases Tracking.mem_ticked hMember with
      ⟨f, hF, _, hSame, _⟩
    by_cases hEvent : r.node.finishEvent = true
    · exact hEnded hEvent
    · rw [Bool.not_eq_true] at hEvent
      rw [← hSame hEvent, hWaits f hF] at hReleased
      cases hReleased
  case lawful =>
    exact ⟨fun _ => hSingle.active.mp hSome, hSingle.lawful⟩

/- A tick, whichever case it is. -/
theorem ticked
    {trig : Trig K} {r : TickResult K}
    (hTracking : Tracking s)
    (hSingle : Single s)
    (hCase : TickCase trig s.node r) :
    Single (s.ticked r) := by
  have hAfter := hTracking.ticked hCase
  have hClear :
      ∀ {box : BoundingBox K}, s.node.actsOn = some box →
        ¬ s.node.finishEvent = true := by
    intro box hActs hEvent
    rw [(hTracking.running
      (Tracking.run_of_actsOn hActs)).1] at hEvent
    cases hEvent
  cases hCase with
  | neutral hActs => exact hSingle.neutral hTracking hActs
  | miss hActs hBox hCount =>
      apply hSingle.acting hTracking hActs rfl rfl
      exact fun hEvent => (hClear hActs hEvent).elim
  | lose hActs hBox hCount =>
      apply hSingle.acting hTracking hActs rfl rfl
      intro _
      refine ⟨rfl, .inl ⟨rfl, ?_⟩⟩
      have hOld := hTracking.misses_eq
      have hNew := hAfter.misses_eq
      have hBelow :=
        (hTracking.running (Tracking.run_of_actsOn hActs)).2.2
      change s.node.noBoxCount + 1 = _ at hNew
      omega
  | track hActs hBox hState hIndex hCenter hNode hCount =>
      subst hNode
      apply hSingle.acting hTracking hActs rfl rfl
      exact fun hEvent => (hClear hActs hEvent).elim
  | confirm hActs hBox hState hIndex hCenter hLabel hNode
      hTolerance hCount =>
      subst hNode
      apply hSingle.acting hTracking hActs rfl rfl
      exact fun hEvent => (hClear hActs hEvent).elim
  | turn hActs hBox hState hIndex hAngle hYaw hNode =>
      subst hNode
      apply hSingle.acting hTracking hActs rfl rfl
      intro _
      rcases hTracking.turning (Tracking.run_of_actsOn hActs)
          hState with ⟨hFound, label, hLabel, hConfirmed⟩
      refine ⟨rfl, .inr ⟨hFound, ⟨label, hLabel, ?_⟩, rfl⟩⟩
      refine ⟨_, _, ticksSince_acting _ _ hActs, ?_, hConfirmed⟩
      exact ⟨hState, _, hActs, hBox⟩

end Single

------------------------------------------------------------
-- Results
------------------------------------------------------------

theorem getAttribute_eq_ok
    {α : Type} {name : String} {x : Option α} {a : α} :
    getAttribute name x = .ok a ↔ x = some a := by
  cases x with
  | none => simp [getAttribute]
  | some b => simp [getAttribute]

section Results

variable [IsStrictOrderedRing K]
variable {n : Node K} {result : ApproachResult K}
variable {goal : Nat} {h : List (Event K)}

/- A found target is not at the height of the empty result. -/
theorem ne_noneResult
    (hHeight : result.goalZ = 40) : result ≠ noneResult := by
  rintro rfl
  have hZero : (0 : K) = 40 := hHeight
  norm_num at hZero

omit [LinearOrder K] [IsStrictOrderedRing K] in
/- The two ways to build a result. -/
theorem finishGoal_cases
    (hFinish : finishGoal n = .ok result) :
    (n.hasBox = some false ∧ result = noneResult) ∨
      (n.hasBox = some true ∧ n.label = some result.label ∧
        Reports result n.posData) := by
  unfold finishGoal at hFinish
  rcases bind_eq_ok.mp hFinish with ⟨hasBox, hBox, hFinish⟩
  rw [getAttribute_eq_ok] at hBox
  cases hasBox with
  | false =>
      cases hFinish
      exact .inl ⟨hBox, rfl⟩
  | true =>
      rcases bind_eq_ok.mp hFinish with ⟨label, hLabel, hFinish⟩
      rw [getAttribute_eq_ok] at hLabel
      cases hFinish
      exact .inr ⟨hBox, hLabel, rfl, rfl, rfl, rfl⟩

omit [LinearOrder K] [IsStrictOrderedRing K] in
/- The attributes that the result reads exist. -/
theorem finishGoal_ok
    (hBox : n.hasBox.isSome)
    (hLabel : n.hasBox = some true → n.label.isSome) :
    ∃ result, finishGoal n = .ok result := by
  unfold finishGoal
  rcases Option.isSome_iff_exists.mp hBox with ⟨hasBox, hBox⟩
  cases hasBox with
  | false =>
      simp only [hBox, getAttribute]
      exact ⟨_, rfl⟩
  | true =>
      rcases Option.isSome_iff_exists.mp (hLabel hBox) with
        ⟨label, hLabel⟩
      simp only [hBox, hLabel, getAttribute]
      exact ⟨_, rfl⟩

omit [IsStrictOrderedRing K] in
/-
  Without debugging and on a well-formed message no enabled
  callback raises.
-/
theorem Tracking.step_ok
    (trig : Trig K)
    {s : Server K} {i : Input K}
    (hTracking : Tracking s)
    (hDebug : s.node.debugMode ≠ 1)
    (hBoxes : ∀ box ∈ s.node.boxData, box.WellFormed)
    (hEnabled : Enabled s i) :
    ∃ s', Approach.step trig s i = .ok s' := by
  cases i with
  | goal => exact ⟨_, rfl⟩
  | boundingBox msg => exact ⟨_, rfl⟩
  | timer =>
      rcases timerCallback_ok trig hDebug hTracking.ready
          hBoxes with ⟨r, hTick⟩
      exact ⟨s.ticked r, bind_eq_ok.mpr ⟨r, hTick, rfl⟩⟩
  | cancel goal => exact ⟨_, rfl⟩
  | finish goal =>
      rcases hEnabled with ⟨e, hFind, hReleased⟩
      rw [Option.mem_def] at hFind
      have hMember := List.mem_of_find?_eq_some hFind
      rcases finishGoal_ok
          (hTracking.assigned.1 e hMember hReleased)
          hTracking.assigned.2 with ⟨result, hFinish⟩
      simp only [Approach.step, hFind]
      exact ⟨s.finish e result,
        bind_eq_ok.mpr ⟨result, hFinish, rfl⟩⟩

/- A result built from a node whose goal has ended. -/
theorem outcome_of_ended
    (hFinish : finishGoal n = .ok result)
    (hEnded : Ended n h)
    (hPose : PoseAt n (epoch h))
    (hSame : goalTicks goal h = epoch h) :
    GoalOutcome goal result h := by
  rcases finishGoal_cases hFinish with
    ⟨hBox, rfl⟩ | ⟨hBox, hLabel, hReports⟩
  · rcases hEnded with ⟨_, hMisses⟩ | ⟨hOther, _⟩
    · refine ⟨?_, fun hFound => absurd rfl hFound⟩
      rw [hSame]
      exact iff_of_true rfl hMisses
    · rw [hBox] at hOther
      cases hOther
  · have hFound : result ≠ noneResult :=
      ne_noneResult (hReports.2.2.1.trans hPose.2.2)
    rcases hEnded with
      ⟨hOther, _⟩ | ⟨_, ⟨label, hTurned, hTicks⟩, hLast⟩
    · rw [hBox] at hOther
      cases hOther
    · have hSameLabel : label = result.label := by
        rw [hTurned] at hLabel
        exact Option.some.inj hLabel
      subst hSameLabel
      constructor
      case lost_iff =>
        rw [hSame]
        refine iff_of_false hFound ?_
        rcases hTicks with ⟨t, earlier, hTicks, hTurns, _⟩
        rcases hTurns.2 with ⟨box, hActs, hBox⟩
        rw [hTicks,
          misses_of_seen (Tick.missed_of_seen hActs hBox)]
        decide
      case found =>
        intro _
        rw [hSame]
        exact ⟨hTicks, n.posData, hLast, hReports⟩

end Results

namespace Single

variable {s : Server K}

theorem finish
    [IsStrictOrderedRing K]
    {e : Execution} {result : ApproachResult K}
    (hTracking : Tracking s)
    (hSingle : Single s)
    (hMember : e ∈ s.executions)
    (hReleased : e.released = true)
    (hFinish : finishGoal s.node = .ok result) :
    Single (s.finish e result) := by
  have hOnly : s.executions = [e] := by
    have hLength := hSingle.single
    cases hList : s.executions with
    | nil =>
        rw [hList] at hMember
        cases hMember
    | cons f rest =>
        rw [hList] at hMember hLength
        obtain rfl : rest = [] := by
          apply List.eq_nil_of_length_eq_zero
          simpa using hLength
        rw [List.mem_singleton.mp hMember]
  have hNone : (s.finish e result).executions = [] := by
    simp [Server.finish, hOnly]
  constructor
  case debug => exact hSingle.debug
  case boxes => exact hSingle.boxes
  case single => simp [hNone]
  case same => simp [hNone]
  case active =>
    rw [hNone]
    exact iff_of_false (fun hSome => hSome rfl) id
  case ended => simp [hNone]
  case lawful =>
    refine ⟨?_, hSingle.lawful⟩
    apply outcome_of_ended hFinish
    · exact (hSingle.ended e hMember hReleased).2
    · exact hTracking.pose (List.ne_nil_of_mem hMember)
    · exact hSingle.same e hMember

/- The permitted steps preserve the invariant. -/
theorem step
    [IsStrictOrderedRing K]
    {trig : Trig K} {s' : Server K} {i : Input K}
    (hTracking : Tracking s)
    (hSingle : Single s)
    (hEnabled : Enabled s i)
    (hPermitted : Permitted s i)
    (hStep : Approach.step trig s i = .ok s') : Single s' := by
  cases i with
  | goal =>
      cases hStep
      exact hSingle.goal hPermitted
  | boundingBox msg =>
      cases hStep
      exact hSingle.boundingBox hPermitted
  | timer =>
      rcases bind_eq_ok.mp hStep with ⟨r, hTick, hStep⟩
      cases hStep
      exact hSingle.ticked hTracking (timerCallback_cases hTick)
  | cancel goal =>
      cases hStep
      exact hSingle.cancel goal
  | finish goal =>
      rcases hEnabled with ⟨e, hFind, hReleased⟩
      rw [Option.mem_def] at hFind
      simp only [Approach.step, hFind] at hStep
      rcases bind_eq_ok.mp hStep with ⟨result, hFinish, hStep⟩
      cases hStep
      exact hSingle.finish hTracking
        (List.mem_of_find?_eq_some hFind) hReleased hFinish

/- No enabled callback raises. -/
theorem step_ok
    (trig : Trig K)
    {i : Input K}
    (hTracking : Tracking s)
    (hSingle : Single s)
    (hEnabled : Enabled s i) :
    ∃ s', Approach.step trig s i = .ok s' := by
  have hDebug : s.node.debugMode ≠ 1 := by
    rw [hSingle.debug]
    decide
  exact hTracking.step_ok trig hDebug hSingle.boxes hEnabled

/- The invariant holds along every permitted run. -/
theorem run
    [IsStrictOrderedRing K]
    {trig : Trig K}
    {is : List (Input K)}
    (hRun :
      ((machine trig).restrict Permitted).Run
        (Server.init 0) is s) :
    Tracking s ∧ Single s := by
  apply hRun.invariant (P := fun s => Tracking s ∧ Single s)
    ⟨Tracking.init 0, Single.init⟩
  intro t i u hHolds hEnabled hStep
  exact
    ⟨hHolds.1.step hEnabled.1 hStep,
      hHolds.2.step hHolds.1 hEnabled.1 hEnabled.2 hStep⟩

end Single

------------------------------------------------------------
-- Every Run
------------------------------------------------------------

/-
  One goal at a time, without debugging and on well-formed
  messages:
    * every goal that returned has lost its target or turned
      to it, as its ticks say, and nothing was published
      while no goal ran;
    * a goal that missed as often as the limit waits no
      longer;
    * no callback raises, so that no attribute is read
      before it was assigned.
-/
theorem approach_outcome
    [IsStrictOrderedRing K]
    {trig : Trig K}
    {is : List (Input K)} {s : Server K}
    (hRun :
      ((machine trig).restrict Permitted).Run
        (Server.init 0) is s) :
    History.Each Lawful s.history ∧
      (∀ e ∈ s.executions,
        misses (goalTicks e.goal s.history) = noBoxCountLimit →
          e.released = true) ∧
      ∀ i, Enabled s i → ∃ s', step trig s i = .ok s' := by
  rcases Single.run hRun with ⟨hTracking, hSingle⟩
  refine ⟨hSingle.lawful, ?_, ?_⟩
  · intro e hMember hMisses
    by_contra hReleased
    rw [Bool.not_eq_true] at hReleased
    have hBelow :=
      (hTracking.running
        (hTracking.waiting e hMember hReleased)).2.2
    rw [hSingle.same e hMember] at hMisses
    omega
  · intro i hEnabled
    exact hSingle.step_ok trig hTracking hEnabled

/- `math.atan2` and `math.pi`. -/
noncomputable def Trig.real : Trig ℝ where
  atan2 := fun y x => Complex.arg ⟨x, y⟩
  pi := Real.pi

/- A goal that never sees a box, up to its return. -/
theorem approach_outcome_of_lost :
    ∃ s : Server ℝ,
      ((machine Trig.real).restrict Permitted).Run
          (Server.init 0)
          (.goal :: (List.replicate 30 .timer ++ [.finish 0]))
          s ∧
        History.Each Lawful s.history := by
  have hSome :
      (((machine Trig.real).restrict Permitted).exec
        (Server.init 0)
        (.goal ::
          (List.replicate 30 .timer ++ [.finish 0]))).isSome := by
    decide +kernel
  rcases Option.isSome_iff_exists.mp hSome with ⟨s, hExec⟩
  have hRun := Machine.run_of_exec hExec
  exact ⟨s, hRun, (approach_outcome hRun).1⟩

end Approach

end Manipulator
