import Manipulator.Approach.Confirmation
import Manipulator.Approach.Debug

/-
  Where the label and the yaw of a result come from.

  The label is stored by the tick that confirms a target, and
  the angle is read by a later tick that selects a box again.
  Both come from one detection exactly when no message
  arrived in between and no other goal has reset the yaw.

  Main declarations:
    * `Source`, `labelSource`, `yawSource`
    * `Settled`, `Undisturbed`
    * `Sourced`, `Sourced.run`
    * `one_detection_iff_undisturbed`
-/

------------------------------------------------------------
-- Sources
------------------------------------------------------------

namespace Manipulator

namespace Approach

/- A message, by number and content, and one of its boxes. -/
structure Source (K : Type) where
  id : Nat
  box : BoundingBox K
  index : Nat
deriving DecidableEq

variable {K : Type} [Field K] [LinearOrder K]

/- The box that a tick selects. -/
def Tick.source? (t : Tick K) : Option (Source K) :=
  match t.before.actsOn with
  | none => none
  | some box =>
      match minIndex K box with
      | .ok i => some ⟨t.boxId, box, i⟩
      | .error _ => none

/- The box that `label` was last read from. -/
def labelSource : List (Event K) → Option (Source K)
| [] => none
| .ticked t :: earlier =>
    if t.Confirms then t.source? else labelSource earlier
| _ :: earlier => labelSource earlier

/-
  The box that the angle in `yaw` was read from. The start of
  a goal sets the yaw to 0.
-/
def yawSource : List (Event K) → Option (Source K)
| [] => none
| .started _ :: _ => none
| .ticked t :: earlier =>
    if t.before.Turning then t.source? else yawSource earlier
| _ :: earlier => yawSource earlier

/- No message has arrived since the target was confirmed. -/
def Settled {K : Type} : List (Event K) → Prop
| [] => False
| .received _ :: _ => False
| .ticked t :: earlier => t.Confirms ∨ Settled earlier
| _ :: earlier => Settled earlier

/-
  No goal has started since the node turned to a box, and no
  message had arrived between the confirmation and the turn.
-/
def Undisturbed {K : Type} : List (Event K) → Prop
| [] => False
| .started _ :: _ => False
| .ticked t :: earlier =>
    if t.before.Turning then Settled earlier
    else Undisturbed earlier
| _ :: earlier => Undisturbed earlier

/- The event is neither a start, a message, nor such a tick. -/
def Event.Quiet {K : Type} : Event K → Prop
| .started _ => False
| .received _ => False
| .ticked t => ¬ t.Confirms ∧ ¬ t.before.Turning
| .cancelAccepted _ => True
| .returned _ _ _ => True

/- A quiet event changes no source. -/
theorem quiet_eq
    {event : Event K} (h : List (Event K))
    (hQuiet : event.Quiet) :
    labelSource (event :: h) = labelSource h ∧
      yawSource (event :: h) = yawSource h ∧
      (Settled (event :: h) ↔ Settled h) ∧
      (Undisturbed (event :: h) ↔ Undisturbed h) := by
  cases event with
  | started goal => exact hQuiet.elim
  | received id => exact hQuiet.elim
  | ticked t =>
      rcases hQuiet with ⟨hConfirms, hTurning⟩
      refine ⟨?_, ?_, ?_, ?_⟩
      · simp [labelSource, hConfirms]
      · simp [yawSource, hTurning]
      · simp [Settled, hConfirms]
      · simp [Undisturbed, hTurning]
  | cancelAccepted goal =>
      exact ⟨rfl, rfl, Iff.rfl, Iff.rfl⟩
  | returned goal handle result =>
      exact ⟨rfl, rfl, Iff.rfl, Iff.rfl⟩

------------------------------------------------------------
-- The Invariant
------------------------------------------------------------

/- What the node holds, in terms of where it was read. -/
structure Sourced (trig : Trig K) (s : Server K) : Prop where
  label :
    ∀ label, s.node.label = some label →
      ∃ source, labelSource s.history = some source ∧
        index source.box.labels source.index = .ok label
  current :
    ∀ source, labelSource s.history = some source →
      source.id ≤ s.boxId ∧
        (source.id = s.boxId →
          s.node.boxData = some source.box ∧
            minIndex K source.box = .ok source.index)
  settled :
    Settled s.history ↔
      ∃ source, labelSource s.history = some source ∧
        source.id = s.boxId
  yaw :
    ∀ source, yawSource s.history = some source →
      s.node.run = false ∧
        (∃ angle, index source.box.angles source.index =
            .ok angle ∧
          s.node.posData.yaw = turnYaw trig s.node angle) ∧
        (labelSource s.history = some source ↔
          Undisturbed s.history)
  none :
    yawSource s.history = none → ¬ Undisturbed s.history

namespace Sourced

variable {trig : Trig K} {s s' : Server K}

theorem init (debugMode : Int) :
    Sourced trig (Server.init debugMode) where
  label := by
    intro label hLabel
    cases hLabel
  current := by
    intro source hSource
    cases hSource
  settled := by
    simp [Server.init, Settled, labelSource]
  yaw := by
    intro source hSource
    cases hSource
  none := fun _ => id

/- A node that runs has not turned yet. -/
theorem yaw_none_of_run
    (hSourced : Sourced trig s)
    (hRun : s.node.run = true) : yawSource s.history = .none := by
  cases hYaw : yawSource s.history with
  | none => rfl
  | some source =>
      have hStopped := (hSourced.yaw source hYaw).1
      rw [hRun] at hStopped
      cases hStopped

/-
  A step that leaves the label and the message, and the pose
  too unless the node has not turned.
-/
theorem quiet
    (event : Event K)
    (hSourced : Sourced trig s)
    (hQuiet : event.Quiet)
    (hHistory : s'.history = event :: s.history)
    (hLabel : s'.node.label = s.node.label)
    (hBox : s'.node.boxData = s.node.boxData)
    (hId : s'.boxId = s.boxId)
    (hPose :
      yawSource s.history = .none ∨
        (s'.node.run = s.node.run ∧
          s'.node.posData = s.node.posData)) :
    Sourced trig s' := by
  rcases quiet_eq s.history hQuiet with
    ⟨hLabels, hYaws, hSettled, hUndisturbed⟩
  rw [← hHistory] at hLabels hYaws hSettled hUndisturbed
  constructor
  case label =>
    rw [hLabel, hLabels]
    exact hSourced.label
  case current =>
    rw [hLabels, hId, hBox]
    exact hSourced.current
  case settled =>
    rw [hSettled, hLabels, hId]
    exact hSourced.settled
  case yaw =>
    rw [hYaws, hLabels, hUndisturbed]
    intro source hSource
    rcases hPose with hNone | ⟨hRun, hPos⟩
    · rw [hNone] at hSource
      cases hSource
    · unfold turnYaw
      rw [hRun, hPos]
      exact hSourced.yaw source hSource
  case none =>
    rw [hYaws, hUndisturbed]
    exact hSourced.none

theorem goal (hSourced : Sourced trig s) :
    Sourced trig s.goal where
  label := hSourced.label
  current := hSourced.current
  settled := hSourced.settled
  yaw := by
    intro source hSource
    cases hSource
  none := fun _ => id

/- After a message the target is no longer settled. -/
theorem boundingBox
    (msg : BoundingBox K)
    (hSourced : Sourced trig s) :
    Sourced trig (s.boundingBox msg) where
  label := hSourced.label
  current := by
    intro source hSource
    have hBound := (hSourced.current source hSource).1
    simp only [Server.boundingBox]
    refine ⟨by omega, ?_⟩
    intro hSame
    omega
  settled := by
    constructor
    · intro hSettled
      exact hSettled.elim
    · rintro ⟨source, hSource, hSame⟩
      have hBound := (hSourced.current source hSource).1
      simp only [Server.boundingBox] at hSame
      omega
  yaw := hSourced.yaw
  none := hSourced.none

------------------------------------------------------------
-- Ticks
------------------------------------------------------------

omit [Field K] [LinearOrder K] in
/- What a node acts on is the message it stores. -/
theorem boxData_of_actsOn
    {n : Node K} {box : BoundingBox K}
    (hActs : n.actsOn = some box) : n.boxData = some box := by
  unfold Node.actsOn at hActs
  by_cases hRun : n.run = true
  · rw [if_pos hRun] at hActs
    exact (Option.filter_eq_some_iff.mp hActs).1
  · rw [if_neg hRun] at hActs
    cases hActs

theorem source?_eq
    {t : Tick K} {box : BoundingBox K} {i : Nat}
    (hActs : t.before.actsOn = some box)
    (hIndex : minIndex K box = .ok i) :
    t.source? = some ⟨t.boxId, box, i⟩ := by
  simp [Tick.source?, hActs, hIndex]

/- The tick that confirms reads the label. -/
theorem confirm
    {r : TickResult K} {box : BoundingBox K} {i : Nat}
    {label : String}
    (hSourced : Sourced trig s)
    (hActs : s.node.actsOn = some box)
    (hState : s.node.state = .approach)
    (hIndex : minIndex K box = .ok i)
    (hLabel : index box.labels i = .ok label)
    (hTurn : r.node.state = .turn)
    (hStored : r.node.label = some label)
    (hBox : r.node.boxData = s.node.boxData) :
    Sourced trig (s.ticked r) := by
  have hConfirms : (⟨s.node, s.boxId, r⟩ : Tick K).Confirms :=
    ⟨hState, hTurn⟩
  have hStays : ¬ s.node.Turning := by
    simp [Node.Turning, hState]
  have hSource :
      labelSource (s.ticked r).history =
        some ⟨s.boxId, box, i⟩ := by
    simp only [Server.ticked, labelSource, hConfirms, if_true]
    exact source?_eq hActs hIndex
  have hYaw : yawSource (s.ticked r).history = .none := by
    simp only [Server.ticked, yawSource, hStays, if_false]
    exact
      hSourced.yaw_none_of_run (Tracking.run_of_actsOn hActs)
  constructor
  case label =>
    intro other hOther
    have hSame := hStored.symm.trans hOther
    cases hSame
    exact ⟨_, hSource, hLabel⟩
  case current =>
    intro source hOther
    have hSame := hSource.symm.trans hOther
    cases hSame
    refine ⟨le_rfl, fun _ => ⟨?_, hIndex⟩⟩
    exact hBox.trans (boxData_of_actsOn hActs)
  case settled =>
    exact
      iff_of_true (.inl hConfirms) ⟨_, hSource, rfl⟩
  case yaw =>
    intro source hOther
    rw [hYaw] at hOther
    cases hOther
  case none =>
    intro _
    simp only [Server.ticked, Undisturbed, hStays, if_false]
    exact
      hSourced.none
        (hSourced.yaw_none_of_run (Tracking.run_of_actsOn hActs))

/-
  The label was read from the box that a tick would select
  now exactly when no message has arrived since.
-/
theorem labelSource_eq_iff
    {box : BoundingBox K} {i : Nat}
    (hSourced : Sourced trig s)
    (hActs : s.node.actsOn = some box)
    (hIndex : minIndex K box = .ok i) :
    labelSource s.history = some ⟨s.boxId, box, i⟩ ↔
      Settled s.history := by
  rw [hSourced.settled]
  constructor
  · intro hSame
    exact ⟨_, hSame, rfl⟩
  · rintro ⟨source, hSource, hId⟩
    have hOwn := (hSourced.current source hSource).2 hId
    have hData := boxData_of_actsOn hActs
    rcases source with ⟨id, other, j⟩
    cases hId
    cases hOwn.1.symm.trans hData
    cases hOwn.2.symm.trans hIndex
    exact hSource

/- The tick that turns reads the angle. -/
theorem turn
    {r : TickResult K} {box : BoundingBox K} {i : Nat}
    {angle : K}
    (hSourced : Sourced trig s)
    (hActs : s.node.actsOn = some box)
    (hSeen : box.hasBox = true)
    (hState : s.node.state = .turn)
    (hIndex : minIndex K box = .ok i)
    (hAngle : index box.angles i = .ok angle)
    (hNode :
      r.node = s.node.seen.turned (turnYaw trig s.node angle)) :
    Sourced trig (s.ticked r) := by
  have hQuiet : ¬ (⟨s.node, s.boxId, r⟩ : Tick K).Confirms := by
    rintro ⟨hApproach, _⟩
    cases hState.symm.trans hApproach
  have hTurning : s.node.Turning :=
    ⟨hState, box, hActs, hSeen⟩
  have hLabels :
      labelSource (s.ticked r).history =
        labelSource s.history := by
    simp [Server.ticked, labelSource, hQuiet]
  have hYaw :
      yawSource (s.ticked r).history =
        some ⟨s.boxId, box, i⟩ := by
    simp only [Server.ticked, yawSource, hTurning, if_true]
    exact source?_eq hActs hIndex
  have hUndisturbed :
      Undisturbed (s.ticked r).history ↔ Settled s.history := by
    simp [Server.ticked, Undisturbed, hTurning]
  have hStored : r.node.label = s.node.label := by
    rw [hNode]
    rfl
  have hBox : r.node.boxData = s.node.boxData := by
    rw [hNode]
    rfl
  constructor
  case label =>
    rw [hLabels]
    intro label hLabel
    exact hSourced.label label (hStored.symm.trans hLabel)
  case current =>
    rw [hLabels]
    intro source hSource
    rcases hSourced.current source hSource with ⟨hBound, hSame⟩
    refine ⟨hBound, fun hId => ?_⟩
    rcases hSame hId with ⟨hData, hOwn⟩
    exact ⟨hBox.trans hData, hOwn⟩
  case settled =>
    rw [hLabels]
    simp only [Server.ticked, Settled, hQuiet, false_or]
    exact hSourced.settled
  case yaw =>
    rw [hYaw, hLabels, hUndisturbed]
    intro source hSource
    cases hSource
    refine ⟨?_, ⟨angle, hAngle, ?_⟩, ?_⟩
    · change r.node.run = false
      rw [hNode]
      rfl
    · change r.node.posData.yaw = turnYaw trig r.node angle
      rw [hNode]
      rfl
    · exact hSourced.labelSource_eq_iff hActs hIndex
  case none =>
    intro hNone
    rw [hYaw] at hNone
    cases hNone

/- A tick that neither confirms nor turns. -/
theorem other
    {r : TickResult K}
    (hSourced : Sourced trig s)
    (hStays : ¬ s.node.Turning)
    (hState : r.node.state = s.node.state)
    (hLabel : r.node.label = s.node.label)
    (hBox : r.node.boxData = s.node.boxData)
    (hPose : s.node.run = true ∨ r.node = s.node) :
    Sourced trig (s.ticked r) := by
  apply hSourced.quiet (.ticked ⟨s.node, s.boxId, r⟩)
  case hQuiet =>
    refine ⟨?_, hStays⟩
    rintro ⟨hBefore, hAfter⟩
    cases hBefore.symm.trans (hState.symm.trans hAfter)
  case hHistory => rfl
  case hLabel => exact hLabel
  case hBox => exact hBox
  case hId => rfl
  case hPose =>
    rcases hPose with hRun | hSame
    · exact .inl (hSourced.yaw_none_of_run hRun)
    · refine .inr ⟨?_, ?_⟩
      · exact congrArg Node.run hSame
      · exact congrArg Node.posData hSame

/- A tick, whichever case it is. -/
theorem ticked
    {r : TickResult K}
    (hSourced : Sourced trig s)
    (hCase : TickCase trig s.node r) :
    Sourced trig (s.ticked r) := by
  cases hCase with
  | neutral hActs =>
      have hStays : ¬ s.node.Turning := by
        simp [Node.Turning, hActs]
      exact hSourced.other hStays rfl rfl rfl (.inr rfl)
  | miss hActs hBox =>
      have hStays : ¬ s.node.Turning := by
        simp [Node.Turning, hActs, hBox]
      exact
        hSourced.other hStays rfl rfl rfl
          (.inl (Tracking.run_of_actsOn hActs))
  | lose hActs hBox =>
      have hStays : ¬ s.node.Turning := by
        simp [Node.Turning, hActs, hBox]
      exact
        hSourced.other hStays rfl rfl rfl
          (.inl (Tracking.run_of_actsOn hActs))
  | track hActs _ hState _ _ hNode =>
      have hStays : ¬ s.node.Turning := by
        simp [Node.Turning, hState]
      subst hNode
      exact
        hSourced.other hStays rfl rfl rfl
          (.inl (Tracking.run_of_actsOn hActs))
  | confirm hActs _ hState hIndex _ hLabel hNode =>
      subst hNode
      exact
        hSourced.confirm hActs hState hIndex hLabel rfl rfl rfl
  | turn hActs hSeen hState hIndex hAngle hYaw hNode =>
      subst hYaw
      exact
        hSourced.turn hActs hSeen hState hIndex hAngle hNode

theorem step
    {i : Input K}
    (hSourced : Sourced trig s)
    (hStep : Approach.step trig s i = .ok s') :
    Sourced trig s' := by
  cases i with
  | goal =>
      cases hStep
      exact hSourced.goal
  | boundingBox msg =>
      cases hStep
      exact hSourced.boundingBox msg
  | timer =>
      rcases bind_eq_ok.mp hStep with ⟨r, hTick, hStep⟩
      cases hStep
      exact hSourced.ticked (timerCallback_cases hTick)
  | cancel goal =>
      cases hStep
      apply hSourced.quiet (.cancelAccepted goal)
      case hQuiet => trivial
      case hPose => exact .inr ⟨rfl, rfl⟩
      all_goals rfl
  | finish goal =>
      simp only [Approach.step] at hStep
      cases hFind : s.execution? goal with
      | none =>
          rw [hFind] at hStep
          cases hStep
          exact hSourced
      | some e =>
          rw [hFind] at hStep
          rcases bind_eq_ok.mp hStep with ⟨result, _, hStep⟩
          cases hStep
          apply hSourced.quiet
            (.returned e.goal e.handle.succeed result)
          case hQuiet => trivial
          case hPose => exact .inr ⟨rfl, rfl⟩
          all_goals rfl

/- The sources are right along every run. -/
theorem run
    {debugMode : Int} {is : List (Input K)}
    (hRun : (machine trig).Run (Server.init debugMode) is s) :
    Sourced trig s :=
  hRun.invariant (init debugMode)
    fun _ _ _ hSourced _ hStep => hSourced.step hStep

end Sourced

------------------------------------------------------------
-- Results
------------------------------------------------------------

/-
  The label of a result and the angle in its yaw were read
  from one box of one message.
-/
def OneDetection
    (trig : Trig K)
    (result : ApproachResult K)
    (earlier : List (Event K)) : Prop :=
  ∃ source angle,
    labelSource earlier = some source ∧
      yawSource earlier = some source ∧
      index source.box.labels source.index =
        .ok result.label ∧
      index source.box.angles source.index = .ok angle ∧
      result.goalYaw =
        -(trig.atan2 result.goalY result.goalX * 180 / trig.pi) +
          angle

/- So it is with every goal that ends with a target found. -/
def Coherent
    (trig : Trig K) : Event K → List (Event K) → Prop
| .returned _ _ result, earlier =>
    result ≠ noneResult → OneDetection trig result earlier
| _, _ => True

/- No such goal was disturbed after its target was found. -/
def Calm : Event K → List (Event K) → Prop
| .returned _ _ result, earlier =>
    result ≠ noneResult → Undisturbed earlier
| _, _ => True

/- The result of a goal, by what the node holds. -/
theorem oneDetection_iff
    {trig : Trig K} {s : Server K} {result : ApproachResult K}
    (hSourced : Sourced trig s)
    (hLabel : s.node.label = some result.label)
    (hReports : Reports result s.node.posData) :
    OneDetection trig result s.history ↔
      Undisturbed s.history := by
  rcases hReports with ⟨hX, hY, _, hYaw⟩
  constructor
  · rintro ⟨source, _, hLabels, hYaws, _⟩
    exact (hSourced.yaw source hYaws).2.2.mp hLabels
  · intro hUndisturbed
    cases hYaws : yawSource s.history with
    | none => exact absurd hUndisturbed (hSourced.none hYaws)
    | some source =>
        rcases hSourced.yaw source hYaws with
          ⟨_, ⟨angle, hAngle, hTurn⟩, hSame⟩
        have hLabels := hSame.mpr hUndisturbed
        rcases hSourced.label _ hLabel with
          ⟨other, hOther, hRead⟩
        cases hLabels.symm.trans hOther
        refine ⟨source, angle, hLabels, hYaws, hRead, hAngle, ?_⟩
        rw [hYaw, hTurn, hX, hY]
        rfl

theorem coherent_iff_calm
    {trig : Trig K} {s : Server K} {result : ApproachResult K}
    (goal : Nat)
    (handle : GoalHandle)
    (hSourced : Sourced trig s)
    (hFinish : finishGoal s.node = .ok result) :
    Coherent trig (.returned goal handle result) s.history ↔
      Calm (.returned goal handle result) s.history := by
  rcases finishGoal_cases hFinish with
    ⟨_, rfl⟩ | ⟨_, hLabel, hReports⟩
  · exact
      iff_of_true (fun hFound => absurd rfl hFound)
        (fun hFound => absurd rfl hFound)
  · apply forall_congr'
    intro _
    exact oneDetection_iff hSourced hLabel hReports

/-
  In every run, a goal that ends with a target found returns
  the label and the yaw of one detection exactly when no
  message arrived between the tick that confirmed the target
  and the tick that turned to it, and no goal has started
  since.
-/
theorem one_detection_iff_undisturbed
    {trig : Trig K} {debugMode : Int}
    {is : List (Input K)} {s : Server K}
    (hRun : (machine trig).Run (Server.init debugMode) is s) :
    (History.Each (Coherent trig) s.history ↔
        History.Each Calm s.history) ∧
      History.Each
        (fun event earlier =>
          Coherent trig event earlier ↔ Calm event earlier)
        s.history := by
  have hEach :
      History.Each
        (fun event earlier =>
          Coherent trig event earlier ↔ Calm event earlier)
        s.history := by
    apply history_each hRun
    case hStarted => exact fun _ _ => Iff.rfl
    case hReceived => exact fun _ _ => Iff.rfl
    case hCancel => exact fun _ _ => Iff.rfl
    case hTicked => exact fun _ _ _ _ _ => Iff.rfl
    case hReturned =>
      intro _ t e result hReached _ hFinish
      exact
        coherent_iff_calm e.goal _ (Sourced.run hReached)
          hFinish
  exact ⟨History.Each.congr hEach, hEach⟩

/- A can right where it should be, and another object there. -/
def aCan : BoundingBox ℚ :=
  ⟨[220, 260, 260, 300], ["can"], [1], [0], true⟩

def aBottle : BoundingBox ℚ :=
  ⟨[220, 260, 260, 300], ["bottle"], [1], [30], true⟩

/-
  The can is confirmed, the image changes, and the node turns
  to the bottle: a can at the angle of the bottle is returned.
-/
theorem mixes_detections :
    ¬ ∀ (is : List (Input ℚ)) (s : Server ℚ),
      (machine ⟨fun _ _ => 0, 1⟩).Run (Server.init 0) is s →
        History.Each (Coherent ⟨fun _ _ => 0, 1⟩)
          s.history := by
  intro hClaim
  have hSome :
      ((machine (⟨fun _ _ => 0, 1⟩ : Trig ℚ)).exec
        (Server.init 0)
        ([Input.goal, .boundingBox aCan] ++
          List.replicate 5 Input.timer ++
          [Input.boundingBox aBottle, .timer, .finish 0])).any
        (fun s =>
          decide
            ((∃ result ∈ lastResult s.history,
                result ≠ noneResult) ∧
              labelSource s.history ≠ yawSource s.history)) =
        true := by
    decide +kernel
  rcases Machine.exists_run_of_exec hSome with
    ⟨s, hRun, hTest⟩
  rcases of_decide_eq_true hTest with
    ⟨⟨result, hResult, hFound⟩, hMixed⟩
  have hAll := hClaim _ s hRun
  cases hHistory : s.history with
  | nil =>
      rw [hHistory] at hResult
      cases hResult
  | cons event earlier =>
      rw [hHistory] at hResult hMixed hAll
      cases event with
      | returned goal handle other =>
          cases hResult
          rcases hAll.1 hFound with
            ⟨source, _, hLabels, hYaws, _⟩
          exact hMixed (hLabels.trans hYaws.symm)
      | started goal => cases hResult
      | received id => cases hResult
      | ticked t => cases hResult
      | cancelAccepted goal => cases hResult

/- The same goal, when the image stays. -/
theorem one_detection_iff_undisturbed_can :
    ∃ s : Server ℚ,
      (machine ⟨fun _ _ => 0, 1⟩).Run (Server.init 0)
          ([.goal, .boundingBox aCan] ++
            List.replicate 6 .timer ++ [.finish 0]) s ∧
        (lastResult s.history).isSome ∧
        (History.Each (Coherent ⟨fun _ _ => 0, 1⟩) s.history ↔
          History.Each Calm s.history) := by
  have hSome :
      ((machine (⟨fun _ _ => 0, 1⟩ : Trig ℚ)).exec
        (Server.init 0)
        ([Input.goal, .boundingBox aCan] ++
          List.replicate 6 Input.timer ++ [Input.finish 0])).any
        (fun s => (lastResult s.history).isSome) = true := by
    decide +kernel
  rcases Machine.exists_run_of_exec hSome with
    ⟨s, hRun, hReturned⟩
  exact
    ⟨s, hRun, hReturned, (one_detection_iff_undisturbed hRun).1⟩

end Approach

end Manipulator
