import Manipulator.Approach.Server

/-
  The counters and flags of the approach node, in terms of
  the ticks since the last start of a goal.

  Nothing here assumes that goals do not overlap or that
  messages are well formed.

  Main declarations:
    * `travel`, `Tick.Assigns`, `Confirmed`
    * `Tracking`, `Tracking.step`, `Tracking.run`
    * `node_of_step`, `node_invariant`, `history_each`
-/

------------------------------------------------------------
-- Ticks And The Epoch
------------------------------------------------------------

namespace Manipulator

namespace Approach

variable {K : Type}

section Histories

variable (stop : Nat → Bool) (h : List (Event K))

@[simp] theorem ticksSince_started (goal : Nat) :
    ticksSince stop (.started goal :: h) =
      if stop goal then [] else ticksSince stop h := by
  simp [ticksSince]

@[simp] theorem ticksSince_received (id : Nat) :
    ticksSince stop (.received id :: h) =
      ticksSince stop h := by
  simp [ticksSince]

@[simp] theorem ticksSince_cancelAccepted (goal : Nat) :
    ticksSince stop (.cancelAccepted goal :: h) =
      ticksSince stop h := by
  simp [ticksSince]

@[simp] theorem ticksSince_returned
    (goal : Nat)
    (handle : GoalHandle)
    (result : ApproachResult K) :
    ticksSince stop (.returned goal handle result :: h) =
      ticksSince stop h := by
  simp [ticksSince]

/- A tick that acts on a message counts. -/
theorem ticksSince_acting
    {t : Tick K} {box : BoundingBox K}
    (hActs : t.before.actsOn = some box) :
    ticksSince stop (.ticked t :: h) =
      t :: ticksSince stop h := by
  simp [ticksSince, hActs]

/- A tick that acts on nothing does not. -/
theorem ticksSince_neutral
    {t : Tick K}
    (hActs : t.before.actsOn = none) :
    ticksSince stop (.ticked t :: h) = ticksSince stop h := by
  simp [ticksSince, hActs]

end Histories

section Misses

variable {t : Tick K} {ticks : List (Tick K)}
variable {box : BoundingBox K}

/- A tick on a message without a box. -/
theorem Tick.missed_of_miss
    (hActs : t.before.actsOn = some box)
    (hBox : box.hasBox = false) : t.missed = true := by
  simp [Tick.missed, hActs, hBox]

theorem Tick.missed_of_seen
    (hActs : t.before.actsOn = some box)
    (hBox : box.hasBox = true) : t.missed = false := by
  simp [Tick.missed, hActs, hBox]

theorem misses_of_missed
    (hMissed : t.missed = true) :
    misses (t :: ticks) = misses ticks + 1 := by
  simp [misses, hMissed]

theorem misses_of_seen
    (hMissed : t.missed = false) :
    misses (t :: ticks) = 0 := by
  simp [misses, hMissed]

end Misses

variable [Field K] [LinearOrder K]

/- How far the ticks moved the pose along an axis. -/
def travel (axis : Fin 2) (ticks : List (Tick K)) : K :=
  ((ticks.filterMap Tick.error?).map
    fun error => output (error axis)).sum

section Ticks

variable {t : Tick K} {ticks : List (Tick K)}
variable {box : BoundingBox K} {i : Nat} {center : K × K}

theorem Tick.error?_of_miss
    (hActs : t.before.actsOn = some box)
    (hBox : box.hasBox = false) : t.error? = none := by
  unfold Tick.error?
  cases hState : t.before.state with
  | approach => simp [hActs, hBox]
  | turn => simp [hActs]

theorem Tick.error?_of_turn
    (hActs : t.before.actsOn = some box)
    (hState : t.before.state = .turn) : t.error? = none := by
  simp [Tick.error?, hActs, hState]

/- A tick that controls the pose. -/
theorem Tick.error?_of_approach
    (hActs : t.before.actsOn = some box)
    (hBox : box.hasBox = true)
    (hState : t.before.state = .approach)
    (hIndex : minIndex K box = .ok i)
    (hCenter : boxCenter box i = .ok center) :
    t.error? = some (controlError center) := by
  simp [Tick.error?, hActs, hBox, hState, hIndex, hCenter]

theorem hits_of_none
    (hError : t.error? = none) :
    hits (t :: ticks) = hits ticks := by
  simp [hits, Tick.inTolerance, hError]

theorem hits_of_some
    {error : Fin 2 → K}
    (hError : t.error? = some error) :
    hits (t :: ticks) =
      hits ticks + if InTolerance error then 1 else 0 := by
  simp [hits, List.countP_cons, Tick.inTolerance, hError]

theorem travel_of_none
    (axis : Fin 2)
    (hError : t.error? = none) :
    travel axis (t :: ticks) = travel axis ticks := by
  simp [travel, hError]

theorem travel_of_some
    (axis : Fin 2)
    {error : Fin 2 → K}
    (hError : t.error? = some error) :
    travel axis (t :: ticks) =
      travel axis ticks + output (error axis) := by
  simp [travel, hError, add_comm]

end Ticks

------------------------------------------------------------
-- The Invariant
------------------------------------------------------------

/- The tick assigned `has_box` and `label`. -/
def Tick.Assigns (t : Tick K) (label : String) : Prop :=
  t.before.state = .approach ∧
    t.result.node.state = .turn ∧
    t.result.node.hasBox = some true ∧
    t.result.node.label = some label ∧
    ∃ box i, t.before.actsOn = some box ∧
      minIndex K box = .ok i ∧
      index box.labels i = .ok label

/-
  One of the ticks assigned the label, and it was at least
  the fifth within tolerance.
-/
def Confirmed
    (label : String) (ticks : List (Tick K)) : Prop :=
  ∃ later t earlier, ticks = later ++ t :: earlier ∧
    t.Assigns label ∧ 5 ≤ hits (t :: earlier)

/- A label that was confirmed stays confirmed. -/
theorem Confirmed.cons
    {label : String} {ticks : List (Tick K)}
    (hConfirmed : Confirmed label ticks)
    (t : Tick K) : Confirmed label (t :: ticks) := by
  rcases hConfirmed with ⟨later, u, earlier, rfl, hAssigns⟩
  exact ⟨t :: later, u, earlier, rfl, hAssigns⟩

/- The pose that `execute_callback` assumes, plus the travel. -/
def PoseAt (n : Node K) (ticks : List (Tick K)) : Prop :=
  n.posData.x = 210 + travel 0 ticks ∧
    n.posData.y = 40 + travel 1 ticks ∧
    n.posData.z = 40

/- The counters and flags, in every state that is reached. -/
structure Tracking (s : Server K) : Prop where
  ready : s.node.Ready
  fresh : ∀ e ∈ s.executions, e.goal < s.nextGoal
  misses_eq : s.node.noBoxCount = misses (epoch s.history)
  hits_eq : s.node.goalCount = hits (epoch s.history)
  pose : s.executions ≠ [] → PoseAt s.node (epoch s.history)
  waiting :
    ∀ e ∈ s.executions, e.released = false → s.node.run = true
  running :
    s.node.run = true →
      s.node.finishEvent = false ∧
        (∃ e ∈ s.executions, e.released = false) ∧
        misses (epoch s.history) < noBoxCountLimit
  turning :
    s.node.run = true → s.node.state = .turn →
      s.node.hasBox = some true ∧
        ∃ label, s.node.label = some label ∧
          Confirmed label (epoch s.history)
  within :
    ∀ e ∈ s.executions,
      epoch s.history <+: goalTicks e.goal s.history
  assigned :
    (∀ e ∈ s.executions, e.released = true →
        s.node.hasBox.isSome) ∧
      (s.node.hasBox = some true → s.node.label.isSome)

namespace Tracking

variable {s : Server K}

theorem init (debugMode : Int) :
    Tracking (Server.init debugMode : Server K) where
  ready := by simp [Server.init, Node.init, Node.Ready]
  fresh := by simp [Server.init]
  misses_eq := by
    simp [Server.init, Node.init, epoch, ticksSince, misses]
  hits_eq := by
    simp [Server.init, Node.init, epoch, ticksSince, hits]
  pose := by simp [Server.init]
  waiting := by simp [Server.init]
  running := by simp [Server.init, Node.init]
  turning := by simp [Server.init, Node.init]
  within := by simp [Server.init]
  assigned := by simp [Server.init, Node.init]

/- The start of a goal. -/
theorem goal (hTracking : Tracking s) : Tracking s.goal where
  ready := by simp [Server.goal, startGoal, Node.Ready]
  fresh := by
    intro e hMember
    rcases List.mem_cons.mp hMember with rfl | hMember
    · exact Nat.lt_succ_self _
    · exact Nat.lt_succ_of_lt (hTracking.fresh e hMember)
  misses_eq := by simp [Server.goal, startGoal, epoch, misses]
  hits_eq := by simp [Server.goal, startGoal, epoch, hits]
  pose := by
    intro _
    simp [PoseAt, Server.goal, startGoal, epoch, travel]
  waiting := by simp [Server.goal, startGoal]
  running := by
    simp [Server.goal, startGoal, epoch, misses,
      noBoxCountLimit]
  turning := by simp [Server.goal, startGoal]
  within := by
    intro e hMember
    simp [Server.goal, epoch]
  assigned := by
    refine ⟨?_, hTracking.assigned.2⟩
    intro e hMember hReleased
    rcases List.mem_cons.mp hMember with rfl | hMember
    · cases hReleased
    · exact hTracking.assigned.1 e hMember hReleased

/-
  A step that changes neither the node, apart from its
  message, nor the ticks, nor who is waiting.
-/
theorem frame
    {s' : Server K}
    (hTracking : Tracking s)
    (hNode :
      s'.node = { s.node with boxData := s'.node.boxData })
    (hNext : s'.nextGoal = s.nextGoal)
    (hHistory :
      ∀ stop, ticksSince stop s'.history =
        ticksSince stop s.history)
    (hExecutions :
      ∀ e' ∈ s'.executions, ∃ e ∈ s.executions,
        e.goal = e'.goal ∧ e.released = e'.released)
    (hWaiting :
      ∀ e ∈ s.executions, e.released = false →
        ∃ e' ∈ s'.executions, e'.released = false) :
    Tracking s' where
  ready := by
    rw [hNode]
    exact hTracking.ready
  fresh := by
    intro e' hMember
    rcases hExecutions e' hMember with ⟨e, hOld, hGoal, _⟩
    rw [hNext, ← hGoal]
    exact hTracking.fresh e hOld
  misses_eq := by
    rw [hNode, epoch, hHistory]
    exact hTracking.misses_eq
  hits_eq := by
    rw [hNode, epoch, hHistory]
    exact hTracking.hits_eq
  pose := by
    intro hSome
    rcases List.exists_mem_of_ne_nil _ hSome with ⟨e', hMember⟩
    rcases hExecutions e' hMember with ⟨e, hOld, _⟩
    rw [hNode, epoch, hHistory]
    exact hTracking.pose (List.ne_nil_of_mem hOld)
  waiting := by
    intro e' hMember hReleased
    rcases hExecutions e' hMember with ⟨e, hOld, _, hSame⟩
    rw [hNode]
    exact hTracking.waiting e hOld (hSame.trans hReleased)
  running := by
    rw [hNode, epoch, hHistory]
    intro hRun
    rcases hTracking.running hRun with
      ⟨hEvent, ⟨e, hOld, hReleased⟩, hMisses⟩
    exact ⟨hEvent, hWaiting e hOld hReleased, hMisses⟩
  turning := by
    rw [hNode, epoch, hHistory]
    exact hTracking.turning
  within := by
    intro e' hMember
    rcases hExecutions e' hMember with ⟨e, hOld, hGoal, _⟩
    rw [epoch, goalTicks, hHistory, hHistory, ← hGoal]
    exact hTracking.within e hOld
  assigned := by
    rw [hNode]
    refine ⟨?_, hTracking.assigned.2⟩
    intro e' hMember hReleased
    rcases hExecutions e' hMember with ⟨e, hOld, _, hSame⟩
    exact hTracking.assigned.1 e hOld (hSame.trans hReleased)

/- A message. -/
theorem boundingBox
    (msg : BoundingBox K)
    (hTracking : Tracking s) :
    Tracking (s.boundingBox msg) := by
  apply hTracking.frame
  · rfl
  · rfl
  · intro stop
    simp [Server.boundingBox]
  · intro e hMember
    exact ⟨e, hMember, rfl, rfl⟩
  · intro e hMember hReleased
    exact ⟨e, hMember, hReleased⟩

/- A cancel request. -/
theorem cancel
    (goal : Nat)
    (hTracking : Tracking s) : Tracking (s.cancel goal) := by
  apply hTracking.frame
  · rfl
  · rfl
  · intro stop
    simp [Server.cancel]
  · intro e' hMember
    rcases List.mem_map.mp hMember with ⟨e, hOld, rfl⟩
    refine ⟨e, hOld, ?_⟩
    by_cases hGoal : e.goal = goal
    · simp [hGoal]
    · simp [hGoal]
  · intro e hMember hReleased
    refine ⟨_, List.mem_map_of_mem hMember, ?_⟩
    by_cases hGoal : e.goal = goal
    · simpa [hGoal] using hReleased
    · simpa [hGoal] using hReleased

/- The return of an execution that waits no longer. -/
theorem finish
    {e : Execution}
    (result : ApproachResult K)
    (hReleased : e.released = true)
    (hTracking : Tracking s) : Tracking (s.finish e result) := by
  apply hTracking.frame
  · rfl
  · rfl
  · intro stop
    simp [Server.finish]
  · intro f hMember
    exact ⟨f, List.mem_of_mem_erase hMember, rfl, rfl⟩
  · intro f hMember hWaits
    refine ⟨f, ?_, hWaits⟩
    apply (List.mem_erase_of_ne ?_).mpr hMember
    rintro rfl
    simp [hReleased] at hWaits

/- After the event was set, no execution waits. -/
theorem released_of_not_run
    (hTracking : Tracking s)
    (hRun : s.node.run = false) :
    ∀ e ∈ s.executions, e.released = true := by
  intro e hMember
  by_contra hWaits
  rw [Bool.not_eq_true] at hWaits
  have hRuns := hTracking.waiting e hMember hWaits
  rw [hRun] at hRuns
  cases hRuns

/- A tick that acts on nothing releases no one. -/
theorem executions_neutral
    (hTracking : Tracking s) :
    (s.ticked (.silent s.node)).executions = s.executions := by
  by_cases hEvent : s.node.finishEvent = true
  · have hRun : s.node.run = false := by
      by_contra hRun
      rw [Bool.not_eq_false] at hRun
      have hClear := (hTracking.running hRun).1
      rw [hEvent] at hClear
      cases hClear
    simp only [Server.ticked, TickResult.silent, hEvent,
      if_true]
    calc
      s.executions.map (fun e => { e with released := true }) =
          s.executions.map id := by
        apply List.map_congr_left
        intro e hMember
        have hReleased :=
          hTracking.released_of_not_run hRun e hMember
        cases e with
        | mk goal handle released =>
            simp only at hReleased
            simp [hReleased]
      _ = s.executions := List.map_id _
  · simp [Server.ticked, TickResult.silent, hEvent]

/- A tick that acts on nothing. -/
theorem neutral
    (hActs : s.node.actsOn = none)
    (hTracking : Tracking s) :
    Tracking (s.ticked (.silent s.node)) := by
  have hSame := hTracking.executions_neutral
  apply hTracking.frame
  · rfl
  · rfl
  · intro stop
    exact ticksSince_neutral stop s.history hActs
  · intro e hMember
    rw [hSame] at hMember
    exact ⟨e, hMember, rfl, rfl⟩
  · intro e hMember hReleased
    rw [hSame]
    exact ⟨e, hMember, hReleased⟩

------------------------------------------------------------
-- Ticks That Act
------------------------------------------------------------

omit [Field K] [LinearOrder K] in
/- A node that acts on a message is running. -/
theorem run_of_actsOn
    {n : Node K} {box : BoundingBox K}
    (hActs : n.actsOn = some box) : n.run = true := by
  unfold Node.actsOn at hActs
  by_contra hRun
  rw [if_neg hRun] at hActs
  cases hActs

omit [Field K] [LinearOrder K] in
theorem within_acting
    {t : Tick K} {box : BoundingBox K} {goal : Nat}
    {h : List (Event K)}
    (hActs : t.before.actsOn = some box)
    (hWithin : epoch h <+: goalTicks goal h) :
    epoch (.ticked t :: h) <+: goalTicks goal (.ticked t :: h) := by
  unfold epoch goalTicks at hWithin ⊢
  rw [ticksSince_acting _ _ hActs, ticksSince_acting _ _ hActs]
  exact List.cons_prefix_cons.mpr ⟨rfl, hWithin⟩

omit [Field K] [LinearOrder K] in
/- The executions that a tick leaves are the old ones. -/
theorem mem_ticked
    {r : TickResult K} {s : Server K} {e : Execution}
    (hMember : e ∈ (s.ticked r).executions) :
    ∃ f ∈ s.executions, f.goal = e.goal ∧
      (r.node.finishEvent = false → f = e) ∧
      (r.node.finishEvent = true → e.released = true) := by
  unfold Server.ticked at hMember
  by_cases hEvent : r.node.finishEvent = true
  · simp only [hEvent, if_true] at hMember
    rcases List.mem_map.mp hMember with ⟨f, hOld, rfl⟩
    exact ⟨f, hOld, rfl, by simp [hEvent], fun _ => rfl⟩
  · simp only [hEvent] at hMember
    exact ⟨e, hMember, rfl, fun _ => rfl, by simp [hEvent]⟩

omit [Field K] [LinearOrder K] in
theorem epoch_ticked
    {s : Server K} {r : TickResult K} {box : BoundingBox K}
    (hActs : s.node.actsOn = some box) :
    epoch (s.ticked r).history =
      ⟨s.node, s.boxId, r⟩ :: epoch s.history :=
  ticksSince_acting _ _ hActs

/-
  What remains to be shown of a tick that acts on a message:
  its effect on the counters, the pose and the flags.
-/
structure Acts
    (s : Server K)
    (r : TickResult K)
    (ticks : List (Tick K)) : Prop where
  ready : r.node.Ready
  misses_eq : r.node.noBoxCount = misses ticks
  hits_eq : r.node.goalCount = hits ticks
  pose :
    PoseAt s.node (epoch s.history) → PoseAt r.node ticks
  running :
    r.node.run = true →
      r.node.finishEvent = false ∧
        misses ticks < noBoxCountLimit
  ended : r.node.run = false → r.node.finishEvent = true
  turning :
    r.node.run = true → r.node.state = .turn →
      r.node.hasBox = some true ∧
        ∃ label, r.node.label = some label ∧
          Confirmed label ticks
  assigned :
    (r.node.finishEvent = true → r.node.hasBox.isSome) ∧
      (s.node.hasBox.isSome → r.node.hasBox.isSome) ∧
      (r.node.hasBox = some true → r.node.label.isSome)

theorem acting
    {r : TickResult K} {box : BoundingBox K}
    (hTracking : Tracking s)
    (hActs : s.node.actsOn = some box)
    (hEffect :
      Acts s r (⟨s.node, s.boxId, r⟩ :: epoch s.history)) :
    Tracking (s.ticked r) := by
  have hEpoch := epoch_ticked (r := r) hActs
  have hOld := hTracking.running (run_of_actsOn hActs)
  constructor
  case ready => exact hEffect.ready
  case fresh =>
    intro e hMember
    rcases mem_ticked hMember with ⟨f, hF, hGoal, _⟩
    rw [← hGoal]
    exact hTracking.fresh f hF
  case misses_eq =>
    rw [hEpoch]
    exact hEffect.misses_eq
  case hits_eq =>
    rw [hEpoch]
    exact hEffect.hits_eq
  case pose =>
    intro hSome
    rcases List.exists_mem_of_ne_nil _ hSome with ⟨e, hMember⟩
    rcases mem_ticked hMember with ⟨f, hF, _⟩
    rw [hEpoch]
    exact hEffect.pose (hTracking.pose (List.ne_nil_of_mem hF))
  case waiting =>
    intro e hMember hWaits
    rcases mem_ticked hMember with ⟨f, hF, _, _, hEnded⟩
    by_contra hRun
    rw [Bool.not_eq_true] at hRun
    have hReleased := hEnded (hEffect.ended hRun)
    rw [hWaits] at hReleased
    cases hReleased
  case running =>
    intro hRun
    rcases hEffect.running hRun with ⟨hEvent, hMisses⟩
    rcases hOld with ⟨_, ⟨e, hMember, hWaits⟩, _⟩
    rw [hEpoch]
    refine ⟨hEvent, ⟨e, ?_, hWaits⟩, hMisses⟩
    simpa [Server.ticked, hEvent] using hMember
  case turning =>
    rw [hEpoch]
    exact hEffect.turning
  case within =>
    intro e hMember
    rcases mem_ticked hMember with ⟨f, hF, hGoal, _⟩
    rw [← hGoal]
    exact within_acting (t := ⟨s.node, s.boxId, r⟩) hActs
      (hTracking.within f hF)
  case assigned =>
    refine ⟨?_, hEffect.assigned.2.2⟩
    intro e hMember hReleased
    rcases mem_ticked hMember with ⟨f, hF, _, hSame, _⟩
    by_cases hEvent : r.node.finishEvent = true
    · exact hEffect.assigned.1 hEvent
    · rw [Bool.not_eq_true] at hEvent
      have hF' := hSame hEvent
      subst hF'
      exact hEffect.assigned.2.1
        (hTracking.assigned.1 f hF hReleased)

section Effects

variable {trig : Trig K} {box : BoundingBox K}
variable {i : Nat} {center : K × K}
variable {integral prevError : Fin 2 → K} {n' : Node K}

/- A message without a box, below the limit. -/
theorem acts_miss
    (hTracking : Tracking s)
    (hActs : s.node.actsOn = some box)
    (hBox : box.hasBox = false)
    (hCount : s.node.noBoxCount + 1 < noBoxCountLimit)
    (r : TickResult K)
    (hResult : r.node = s.node.missed) :
    Acts s r (⟨s.node, s.boxId, r⟩ :: epoch s.history) := by
  have hRun := run_of_actsOn hActs
  have hMissed : (⟨s.node, s.boxId, r⟩ : Tick K).missed = true :=
    Tick.missed_of_miss hActs hBox
  have hError : (⟨s.node, s.boxId, r⟩ : Tick K).error? = none :=
    Tick.error?_of_miss hActs hBox
  constructor
  case ready =>
    rw [hResult]
    exact hTracking.ready
  case misses_eq =>
    rw [hResult, misses_of_missed hMissed,
      ← hTracking.misses_eq]
    rfl
  case hits_eq =>
    rw [hResult, hits_of_none hError]
    exact hTracking.hits_eq
  case pose =>
    intro hPose
    unfold PoseAt
    rw [hResult, travel_of_none 0 hError,
      travel_of_none 1 hError]
    exact hPose
  case running =>
    rw [hResult, misses_of_missed hMissed,
      ← hTracking.misses_eq]
    intro _
    exact ⟨(hTracking.running hRun).1, hCount⟩
  case ended =>
    rw [hResult]
    intro hStopped
    have hStopped : s.node.run = false := hStopped
    rw [hRun] at hStopped
    cases hStopped
  case turning =>
    rw [hResult]
    intro _ hState
    rcases hTracking.turning hRun hState with
      ⟨hBox, label, hLabel, hConfirmed⟩
    exact ⟨hBox, label, hLabel, hConfirmed.cons _⟩
  case assigned =>
    rw [hResult]
    refine ⟨?_, id, hTracking.assigned.2⟩
    intro hEvent
    have hEvent : s.node.finishEvent = true := hEvent
    rw [(hTracking.running hRun).1] at hEvent
    cases hEvent

/- The message that reaches the limit of misses. -/
theorem acts_lose
    (hTracking : Tracking s)
    (hActs : s.node.actsOn = some box)
    (hBox : box.hasBox = false)
    (r : TickResult K)
    (hResult : r.node = s.node.lost) :
    Acts s r (⟨s.node, s.boxId, r⟩ :: epoch s.history) := by
  have hMissed : (⟨s.node, s.boxId, r⟩ : Tick K).missed = true :=
    Tick.missed_of_miss hActs hBox
  have hError : (⟨s.node, s.boxId, r⟩ : Tick K).error? = none :=
    Tick.error?_of_miss hActs hBox
  constructor
  case ready =>
    rw [hResult]
    exact hTracking.ready
  case misses_eq =>
    rw [hResult, misses_of_missed hMissed,
      ← hTracking.misses_eq]
    rfl
  case hits_eq =>
    rw [hResult, hits_of_none hError]
    exact hTracking.hits_eq
  case pose =>
    intro hPose
    unfold PoseAt
    rw [hResult, travel_of_none 0 hError,
      travel_of_none 1 hError]
    exact hPose
  case running => simp [hResult, Node.lost]
  case ended => simp [hResult, Node.lost]
  case turning => simp [hResult, Node.lost]
  case assigned => simp [hResult, Node.lost]

/- What the loop over the two axes does to the counters. -/
theorem tracked_counts
    (hTracking : Tracking s)
    (hActs : s.node.actsOn = some box)
    (hBox : box.hasBox = true)
    (hState : s.node.state = .approach)
    (hIndex : minIndex K box = .ok i)
    (hCenter : boxCenter box i = .ok center)
    (hNode :
      n' = s.node.seen.tracked (controlError center) integral
        prevError)
    (r : TickResult K) :
    n'.noBoxCount =
        misses (⟨s.node, s.boxId, r⟩ :: epoch s.history) ∧
      n'.goalCount =
        hits (⟨s.node, s.boxId, r⟩ :: epoch s.history) ∧
      (PoseAt s.node (epoch s.history) →
        PoseAt n' (⟨s.node, s.boxId, r⟩ :: epoch s.history)) ∧
      n'.Ready ∧ n'.run = true ∧ n'.finishEvent = false := by
  have hRun := run_of_actsOn hActs
  have hSeen : (⟨s.node, s.boxId, r⟩ : Tick K).missed = false :=
    Tick.missed_of_seen hActs hBox
  have hError :
      (⟨s.node, s.boxId, r⟩ : Tick K).error? =
        some (controlError center) :=
    Tick.error?_of_approach hActs hBox hState hIndex hCenter
  subst hNode
  refine ⟨?_, ?_, ?_, ?_, hRun, (hTracking.running hRun).1⟩
  · rw [misses_of_seen hSeen]
    rfl
  · rw [hits_of_some hError, ← hTracking.hits_eq]
    rfl
  · intro hPose
    unfold PoseAt
    rw [travel_of_some 0 hError, travel_of_some 1 hError]
    simp [Node.tracked, Node.seen, hPose.1, hPose.2.1,
      hPose.2.2, add_assoc]
  · simp [Node.Ready, Node.tracked]

/- A box, in the approach state. -/
theorem acts_track
    (hTracking : Tracking s)
    (hActs : s.node.actsOn = some box)
    (hBox : box.hasBox = true)
    (hState : s.node.state = .approach)
    (hIndex : minIndex K box = .ok i)
    (hCenter : boxCenter box i = .ok center)
    (hNode :
      n' = s.node.seen.tracked (controlError center) integral
        prevError)
    (r : TickResult K)
    (hResult : r.node = n') :
    Acts s r (⟨s.node, s.boxId, r⟩ :: epoch s.history) := by
  rcases tracked_counts hTracking hActs hBox hState hIndex
      hCenter hNode r with
    ⟨hMisses, hHits, hPose, hReady, hRun, hEvent⟩
  have hSeen : (⟨s.node, s.boxId, r⟩ : Tick K).missed = false :=
    Tick.missed_of_seen hActs hBox
  constructor
  case ready => exact hResult ▸ hReady
  case misses_eq => exact hResult ▸ hMisses
  case hits_eq => exact hResult ▸ hHits
  case pose => exact hResult ▸ hPose
  case running =>
    intro _
    rw [misses_of_seen hSeen, hResult]
    exact ⟨hEvent, by decide⟩
  case ended => simp [hResult, hRun]
  case turning =>
    rw [hResult, hNode]
    intro _ hTurn
    have hTurn : s.node.state = .turn := hTurn
    rw [hState] at hTurn
    cases hTurn
  case assigned =>
    rw [hResult]
    refine ⟨by simp [hEvent], ?_⟩
    subst hNode
    exact ⟨id, hTracking.assigned.2⟩

/- The box that reaches the target. -/
theorem acts_confirm
    {label : String}
    (hTracking : Tracking s)
    (hActs : s.node.actsOn = some box)
    (hBox : box.hasBox = true)
    (hState : s.node.state = .approach)
    (hIndex : minIndex K box = .ok i)
    (hCenter : boxCenter box i = .ok center)
    (hLabel : index box.labels i = .ok label)
    (hNode :
      n' = s.node.seen.tracked (controlError center) integral
        prevError)
    (hCount : 5 ≤ n'.goalCount)
    (r : TickResult K)
    (hResult : r.node = n'.confirmed label) :
    Acts s r (⟨s.node, s.boxId, r⟩ :: epoch s.history) := by
  rcases tracked_counts hTracking hActs hBox hState hIndex
      hCenter hNode r with
    ⟨hMisses, hHits, hPose, hReady, hRun, hEvent⟩
  have hSeen : (⟨s.node, s.boxId, r⟩ : Tick K).missed = false :=
    Tick.missed_of_seen hActs hBox
  constructor
  case ready => exact hResult ▸ hReady
  case misses_eq => exact hResult ▸ hMisses
  case hits_eq => exact hResult ▸ hHits
  case pose => exact hResult ▸ hPose
  case running =>
    intro _
    rw [misses_of_seen hSeen, hResult]
    exact ⟨hEvent, by decide⟩
  case ended => simp [hResult, Node.confirmed, hRun]
  case turning =>
    intro _ _
    rw [hResult]
    refine ⟨rfl, label, rfl, [], _, _, rfl, ?_, hHits ▸ hCount⟩
    rw [Tick.Assigns, hResult]
    exact ⟨hState, rfl, rfl, rfl, box, i, hActs, hIndex, hLabel⟩
  case assigned => simp [hResult, Node.confirmed]

/- The box that ends a goal. -/
theorem acts_turn
    {yaw : K}
    (hTracking : Tracking s)
    (hActs : s.node.actsOn = some box)
    (hBox : box.hasBox = true)
    (hState : s.node.state = .turn)
    (r : TickResult K)
    (hResult : r.node = s.node.seen.turned yaw) :
    Acts s r (⟨s.node, s.boxId, r⟩ :: epoch s.history) := by
  have hSeen : (⟨s.node, s.boxId, r⟩ : Tick K).missed = false :=
    Tick.missed_of_seen hActs hBox
  have hError : (⟨s.node, s.boxId, r⟩ : Tick K).error? = none :=
    Tick.error?_of_turn hActs hState
  have hTurning :=
    hTracking.turning (run_of_actsOn hActs) hState
  constructor
  case ready =>
    rw [hResult]
    exact hTracking.ready
  case misses_eq =>
    rw [hResult, misses_of_seen hSeen]
    rfl
  case hits_eq =>
    rw [hResult, hits_of_none hError]
    exact hTracking.hits_eq
  case pose =>
    intro hPose
    unfold PoseAt
    rw [hResult, travel_of_none 0 hError,
      travel_of_none 1 hError]
    exact hPose
  case running => simp [hResult, Node.turned]
  case ended => simp [hResult, Node.turned]
  case turning => simp [hResult, Node.turned]
  case assigned =>
    simp [hResult, Node.turned, Node.seen, hTurning.1,
      hTracking.assigned.2]

end Effects

------------------------------------------------------------
-- Runs
------------------------------------------------------------

/- A tick, whichever case it is. -/
theorem ticked
    {trig : Trig K} {r : TickResult K}
    (hTracking : Tracking s)
    (hCase : TickCase trig s.node r) : Tracking (s.ticked r) := by
  cases hCase with
  | neutral hActs => exact hTracking.neutral hActs
  | miss hActs hBox hCount =>
      exact hTracking.acting hActs
        (acts_miss hTracking hActs hBox hCount _ rfl)
  | lose hActs hBox hCount =>
      exact hTracking.acting hActs
        (acts_lose hTracking hActs hBox _ rfl)
  | track hActs hBox hState hIndex hCenter hNode hCount =>
      exact hTracking.acting hActs
        (acts_track hTracking hActs hBox hState hIndex hCenter
          hNode _ rfl)
  | confirm hActs hBox hState hIndex hCenter hLabel hNode
      hTolerance hCount =>
      exact hTracking.acting hActs
        (acts_confirm hTracking hActs hBox hState hIndex
          hCenter hLabel hNode hCount _ rfl)
  | turn hActs hBox hState hIndex hAngle hYaw hNode =>
      exact hTracking.acting hActs
        (acts_turn hTracking hActs hBox hState _ hNode)

/- The steps of the server preserve the invariant. -/
theorem step
    {trig : Trig K} {s' : Server K} {i : Input K}
    (hTracking : Tracking s)
    (hEnabled : Enabled s i)
    (hStep : Approach.step trig s i = .ok s') : Tracking s' := by
  cases i with
  | goal =>
      cases hStep
      exact hTracking.goal
  | boundingBox msg =>
      cases hStep
      exact hTracking.boundingBox msg
  | timer =>
      rcases bind_eq_ok.mp hStep with ⟨r, hTick, hStep⟩
      cases hStep
      exact hTracking.ticked (timerCallback_cases hTick)
  | cancel goal =>
      cases hStep
      exact hTracking.cancel goal
  | finish goal =>
      rcases hEnabled with ⟨e, hFind, hReleased⟩
      simp only [Approach.step, Option.mem_def.mp hFind]
        at hStep
      rcases bind_eq_ok.mp hStep with ⟨result, hFinish, hStep⟩
      cases hStep
      exact hTracking.finish result hReleased

/- The invariant holds along every run. -/
theorem run
    {trig : Trig K} {debugMode : Int}
    {is : List (Input K)}
    (hRun : (machine trig).Run (Server.init debugMode) is s) :
    Tracking s :=
  hRun.invariant (init debugMode)
    fun _ _ _ hTracking hEnabled hStep =>
      hTracking.step hEnabled hStep

end Tracking

------------------------------------------------------------
-- Properties Of The Node
------------------------------------------------------------

/- A step of the server is one callback of the node. -/
theorem node_of_step
    {trig : Trig K} {s t : Server K} {i : Input K}
    (hStep : step trig s i = .ok t) :
    t.node = s.node ∨
      t.node = startGoal s.node ∨
      (∃ msg, i = .boundingBox msg ∧
        t.node = boundingBoxCallback msg s.node) ∨
      ∃ r, TickCase trig s.node r ∧ t.node = r.node := by
  cases i with
  | goal =>
      cases hStep
      exact .inr (.inl rfl)
  | boundingBox msg =>
      cases hStep
      exact .inr (.inr (.inl ⟨msg, rfl, rfl⟩))
  | timer =>
      rcases bind_eq_ok.mp hStep with ⟨r, hTick, hStep⟩
      cases hStep
      exact .inr (.inr (.inr ⟨r, timerCallback_cases hTick, rfl⟩))
  | cancel goal =>
      cases hStep
      exact .inl rfl
  | finish goal =>
      simp only [step] at hStep
      cases hFind : s.execution? goal with
      | none =>
          rw [hFind] at hStep
          cases hStep
          exact .inl rfl
      | some e =>
          rw [hFind] at hStep
          rcases bind_eq_ok.mp hStep with ⟨_, _, hStep⟩
          cases hStep
          exact .inl rfl

/- What every callback preserves holds along every run. -/
theorem node_invariant
    {P : Node K → Prop}
    {trig : Trig K} {debugMode : Int}
    {is : List (Input K)} {s : Server K}
    (hRun : (machine trig).Run (Server.init debugMode) is s)
    (hInit : P (.init debugMode))
    (hGoal : ∀ n, P n → P (startGoal n))
    (hBox : ∀ msg n, P n → P (boundingBoxCallback msg n))
    (hTick : ∀ n r, TickCase trig n r → P n → P r.node) :
    P s.node := by
  apply hRun.invariant (P := fun s => P s.node) hInit
  intro t i u hHolds _ hStep
  rcases node_of_step hStep with
    hSame | hStart | ⟨msg, _, hMessage⟩ | ⟨r, hCase, hNode⟩
  · rw [hSame]
    exact hHolds
  · rw [hStart]
    exact hGoal _ hHolds
  · rw [hMessage]
    exact hBox msg _ hHolds
  · rw [hNode]
    exact hTick _ r hCase hHolds

/- A law of the events that every callback adds. -/
theorem history_each
    {P : Event K → List (Event K) → Prop}
    {trig : Trig K} {debugMode : Int}
    {is : List (Input K)} {s : Server K}
    (hRun : (machine trig).Run (Server.init debugMode) is s)
    (hStarted : ∀ goal h, P (.started goal) h)
    (hReceived : ∀ id h, P (.received id) h)
    (hCancel : ∀ goal h, P (.cancelAccepted goal) h)
    (hTicked :
      ∀ js t r, (machine trig).Run (Server.init debugMode) js t →
        TickCase trig t.node r →
          P (.ticked ⟨t.node, t.boxId, r⟩) t.history)
    (hReturned :
      ∀ js t (e : Execution) result,
        (machine trig).Run (Server.init debugMode) js t →
          e ∈ t.executions → finishGoal t.node = .ok result →
            P (.returned e.goal e.handle.succeed result)
              t.history) :
    History.Each P s.history := by
  induction hRun with
  | nil => trivial
  | @snoc is t u i hRun _ hStep ih =>
      cases i with
      | goal =>
          cases hStep
          exact ⟨hStarted _ _, ih⟩
      | boundingBox msg =>
          cases hStep
          exact ⟨hReceived _ _, ih⟩
      | timer =>
          rcases bind_eq_ok.mp hStep with ⟨r, hTick, hStep⟩
          cases hStep
          exact
            ⟨hTicked _ t r hRun (timerCallback_cases hTick), ih⟩
      | cancel goal =>
          cases hStep
          exact ⟨hCancel _ _, ih⟩
      | finish goal =>
          simp only [machine, step] at hStep
          cases hFind : t.execution? goal with
          | none =>
              rw [hFind] at hStep
              cases hStep
              exact ih
          | some e =>
              rw [hFind] at hStep
              rcases bind_eq_ok.mp hStep with
                ⟨result, hFinish, hStep⟩
              cases hStep
              refine ⟨?_, ih⟩
              exact
                hReturned _ t e result hRun
                  (List.mem_of_find?_eq_some hFind) hFinish

end Approach

end Manipulator
