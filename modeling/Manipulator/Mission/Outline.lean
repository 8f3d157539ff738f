import Manipulator.Mission.Contract

/-
  Proof outlines of the mission tree.

  An outline puts an assertion about the history at every
  point of the tree. Its obligations, one for each edge
  between two points, speak about histories alone: what the
  blackboard holds, which goal a node sends and which branch
  is taken is worked out here once. An outline that meets
  them holds along every run.

  Main declarations:
    * `found`, `Step.goal`, `Step.reads`, `Point`
    * `Outline`, `Outline.Valid`
    * `Outline.triple`
    * `InTime`
    * `Outline.restricted_run_safe`, `Outline.run_safe`
    * `Outline.tick_ok`
-/

------------------------------------------------------------
-- What The Nodes Read
------------------------------------------------------------

namespace Manipulator

namespace Mission

variable {K S I : Type} [Field K]

/- The numeric entries after an approach with a result. -/
def foundEntry (r : ApproachResult K) : Key → K
| .goalX => r.goalX
| .goalY => r.goalY
| .goalZ => r.goalZ
| .goalYaw => r.goalYaw
| .speed => 200

/- The blackboard after an approach with a result. -/
def found (r : ApproachResult K) : Blackboard K where
  entry := fun key => some (foundEntry r key)
  label := some r.label

theorem setOutputs_eq
    {b : Blackboard K}
    (hSpeed : b.entry .speed = some 200)
    (r : ApproachResult K) : b.setOutputs r = found r := by
  unfold Blackboard.setOutputs found
  congr 1
  funext key
  cases key <;> simp [resultEntry, foundEntry, hSpeed]

/- What a port holds after the approach. -/
def Port.at_ (r : ApproachResult K) : Port K → K
| .value x => x
| .entry key => foundEntry r key

def MovePorts.goal
    (r : ApproachResult K) (p : MovePorts K) : MoveGoal K where
  sX := p.s.x.at_ r
  sY := p.s.y.at_ r
  sZ := p.s.z.at_ r
  sYaw := p.s.yaw.at_ r
  speed := p.speed.at_ r
  gX := p.g.x.at_ r
  gY := p.g.y.at_ r
  gZ := p.g.z.at_ r
  gYaw := p.g.yaw.at_ r
  grip := p.grip

/- The goal that a node of the tree sends. -/
def Step.goal (step : Step) (r : ApproachResult K) :
    MoveGoal K :=
  (step.ports K).goal r

/- The entries that a node of the tree reads for its goal. -/
def Step.reads (step : Step) (r : ApproachResult K) :
    List (Event K) :=
  (step.ports K).reads (found r)

theorem getInput_found
    (r : ApproachResult K) (port : Port K) :
    (found r).getInput port = .ok (port.at_ r) := by
  cases port with
  | value value => rfl
  | entry key => rfl

theorem setGoal_found
    (r : ApproachResult K) (p : MovePorts K) :
    p.setGoal (found r) = .ok (p.goal r) := by
  simp only [MovePorts.setGoal, getInput_found, bind,
    Except.bind]
  rfl

omit [Field K] in
/- Only reads are recorded for a goal. -/
theorem mem_reads
    {p : MovePorts K} {b : Blackboard K} {event : Event K}
    (hMember : event ∈ p.reads b) :
    ∃ key value, event = .read key value ∧
      b.entry key = some value := by
  unfold MovePorts.reads at hMember
  rw [List.mem_reverse, List.mem_filterMap] at hMember
  rcases hMember with ⟨port, _, hRead⟩
  cases port with
  | value value => cases hRead
  | entry key =>
      rcases Option.map_eq_some_iff.mp hRead with
        ⟨value, hValue, rfl⟩
      exact ⟨key, value, rfl, hValue⟩

omit [Field K] in
theorem noReports_reads (p : MovePorts K) (b : Blackboard K) :
    NoReports (p.reads b) := by
  intro event hMember
  rcases mem_reads hMember with ⟨_, _, rfl, _⟩
  exact id

------------------------------------------------------------
-- Points And Outlines
------------------------------------------------------------

/- The points of a cycle whose approach has succeeded. -/
inductive Point where
| found
| before (step : Step)
-- after the pick, and after the goals of a bin
| holding
| stowed (bin : Bin)
-- before the condition on 'none', and after it
| sorted
| idle
| closing
deriving DecidableEq, Repr

/- The point after a goal of the tree has succeeded. -/
def Step.next : Step → Point
| .pick .reach => .before (.pick .grasp)
| .pick .grasp => .before (.pick .raise)
| .pick .raise => .holding
| .bin b .carry => .before (.bin b .lower)
| .bin b .lower => .before (.bin b .release)
| .bin b .release => .before (.bin b .lift)
| .bin b .lift => .before (.bin b .home)
| .bin b .home => .stowed b

/-
  Assertions about the history: before the first command, at
  the head of a cycle, at the points of a cycle with its
  result, and while a goal is open.
-/
structure Outline (K : Type) where
  boot : List (Event K) → Prop
  cycle : List (Event K) → Prop
  approaching : Nat → List (Event K) → Prop
  at_ : ApproachResult K → Point → List (Event K) → Prop
  moving : ApproachResult K → Step → List (Event K) → Prop
  conveying : ApproachResult K → List (Event K) → Prop
  safe : List (Event K) → Prop

section Obligations

variable [LinearOrder K]

/- Stability of an assertion about the history alone. -/
def Steady
    (late : Prop) (mine : Option (Nat × Goal K))
    (P : List (Event K) → Prop) : Prop :=
  Stable late mine fun _ h => P h

variable {late : Prop}

/- A conveyor goal adds nothing that others do not add. -/
theorem Steady.conveyor
    {P : List (Event K) → Prop}
    (hSteady : Steady late none P) (goal : Nat) :
    Steady late (some (goal, .conveyor)) P := by
  intro b h event hArises hSource
  apply hSteady b h event hArises
  intro hPatient
  rcases hSource hPatient with
    ⟨other, data, hEmits, hArm⟩ | hStray
  · refine .inl ⟨other, data, hEmits, fun hMoves => ?_⟩
    cases hArm hMoves
    exact absurd rfl hMoves
  · exact .inr hStray

/-
  The obligations of an outline, one for each edge. With late
  messages a goal of the arm may succeed although the arm was
  sent elsewhere since.
-/
structure Outline.Valid (late : Prop) (o : Outline K) : Prop
    where
  boot : o.boot []
  boot_steady : Steady late none o.boot
  publish :
    ∀ h, o.boot h →
      o.cycle (.commanded (Move.finite (homePose K)) :: h)
  cycle_steady : Steady late none o.cycle
  approach_sent :
    ∀ h goal, o.cycle h → ¬ Ended goal h →
      o.approaching goal
        (.sent goal .approach .approach :: .cycleBegan :: h)
  approach_unreachable :
    ∀ h, o.cycle h →
      o.cycle
        (.failed .approach .serverUnreachable ::
          .cycleBegan :: h)
  approach_steady :
    ∀ goal,
      Steady late (some (goal, .approach)) (o.approaching goal)
  approach_failed :
    ∀ h goal error, o.approaching goal h →
      o.cycle (.failed .approach error :: h)
  approach_found :
    ∀ h goal r, o.approaching goal h →
      .ended goal .approach .succeeded r ∈ h →
        o.at_ r .found (.approached r :: h)
  at_steady : ∀ r p, Steady late none (o.at_ r p)
  pick :
    ∀ h r, r.label ≠ "none" → o.at_ r .found h →
      o.at_ r (.before (.pick .reach)) (.readLabel r.label :: h)
  noPick :
    ∀ h r, r.label = "none" → o.at_ r .found h →
      o.at_ r .sorted (.readLabel r.label :: h)
  move_sent :
    ∀ h r step goal, o.at_ r (.before step) h →
      o.moving r step
        (.sent goal (.move step) (.move (step.goal r)) ::
          (step.reads r ++ h))
  move_unreachable :
    ∀ h r step, o.at_ r (.before step) h →
      o.cycle
        (.failed (.move step) .serverUnreachable ::
          (step.reads r ++ h))
  move_steady :
    ∀ r step goal,
      Steady late (some (goal, .move (step.goal r)))
        (o.moving r step)
  move_failed :
    ∀ h r step error, o.moving r step h →
      o.cycle (.failed (.move step) error :: h)
  move_done :
    ∀ h r step, o.moving r step h →
      (Patient h → ¬ late →
        lastCommand h =
          some (Move.finite (Move.finalPose (step.goal r)))) →
        o.at_ r step.next h
  bin :
    ∀ h r (b : Bin), r.label = b.label → o.at_ r .holding h →
      o.at_ r (.before (.bin b .carry))
        (.readLabel r.label :: h)
  noBin :
    ∀ h r (b : Bin), r.label ≠ b.label → o.at_ r .holding h →
      o.at_ r .holding (.readLabel r.label :: h)
  otherBin :
    ∀ h r (b : Bin), o.at_ r (.stowed b) h →
      o.at_ r (.stowed b) (.readLabel r.label :: h)
  unknown :
    ∀ h r, (∀ b : Bin, r.label ≠ b.label) →
      o.at_ r .holding h → o.at_ r .sorted h
  stowed :
    ∀ h r (b : Bin), r.label = b.label → o.at_ r (.stowed b) h →
      o.at_ r .sorted h
  convey :
    ∀ h r, r.label = "none" → o.at_ r .sorted h →
      o.at_ r .idle (.readLabel r.label :: h)
  noConvey :
    ∀ h r, r.label ≠ "none" → o.at_ r .sorted h →
      o.at_ r .closing (.readLabel r.label :: h)
  convey_sent :
    ∀ h r goal, o.at_ r .idle h →
      o.conveying r (.sent goal .conveyor .conveyor :: h)
  convey_unreachable :
    ∀ h r, o.at_ r .idle h →
      o.cycle (.failed .conveyor .serverUnreachable :: h)
  convey_steady : ∀ r, Steady late none (o.conveying r)
  convey_failed :
    ∀ h r error, o.conveying r h →
      o.cycle (.failed .conveyor error :: h)
  convey_done : ∀ h r, o.conveying r h → o.at_ r .closing h
  closing : ∀ h r, o.at_ r .closing h → o.cycle h
  boot_safe : ∀ h, o.boot h → o.safe h
  cycle_safe : ∀ h, o.cycle h → o.safe h
  approach_safe : ∀ h goal, o.approaching goal h → o.safe h
  at_safe : ∀ h r p, o.at_ r p h → o.safe h
  move_safe : ∀ h r step, o.moving r step h → o.safe h
  convey_safe : ∀ h r, o.conveying r h → o.safe h

------------------------------------------------------------
-- Leaves
------------------------------------------------------------

namespace Outline

variable {A : ApproachServer K S I} {w w' : World K S}
variable {o : Outline K}

/- After `speed` was written, and before the first command. -/
def Boot (o : Outline K) : Assertion K :=
  fun b h => b.entry .speed = some 200 ∧ o.boot h

def Cycle (o : Outline K) : Assertion K :=
  fun b h => b.entry .speed = some 200 ∧ o.cycle h

def At
    (o : Outline K) (r : ApproachResult K) (p : Point) :
    Assertion K :=
  fun b h => b = found r ∧ o.at_ r p h

/- The world at any time. -/
def Safe
    (A : ApproachServer K S I) (late : Prop) (o : Outline K)
    (w : World K S) : Prop :=
  Rest A (fun _ h => o.safe h) w ∨
    ∃ n goal data,
      Busy A late n goal data (fun _ h => o.safe h) w

/- Where a part of a cycle may end. -/
def post
    (A : ApproachServer K S I) (late : Prop) (o : Outline K)
    (success : World K S → Prop) : BT.Post (World K S) :=
  ⟨Safe A late o, success, Rest A o.Cycle⟩

omit [Field K] [LinearOrder K] in
theorem safe_of_busy
    {n : NodeId} {goal : Nat} {data : Goal K} {H : Assertion K}
    (hBusy : Busy A late n goal data H w)
    (hSafe : ∀ b h, H b h → o.safe h) : Safe A late o w :=
  .inr ⟨n, goal, data,
    { hBusy with holds := hSafe _ _ hBusy.holds }⟩

omit [Field K] [LinearOrder K] in
theorem safe_of_rest
    {P : Assertion K}
    (hRest : Rest A P w)
    (hSafe : ∀ b h, P b h → o.safe h) : Safe A late o w :=
  .inl (hRest.imp hSafe)

/- What the blackboard holds is not the servers' concern. -/
theorem stable_of_steady
    {mine : Option (Nat × Goal K)}
    {P : List (Event K) → Prop}
    (hSteady : Steady late mine P) (B : Blackboard K → Prop) :
    Stable late mine fun b h => B b ∧ P h := by
  intro b h event hArises hSource hHolds
  exact ⟨hHolds.1, hSteady b h event hArises hSource hHolds.2⟩

/- A contract whose assertions are all safe. -/
theorem contract_triple
    {a : RosAction K} {P Succeeds Fails : Assertion K}
    {Q : Nat → Goal K → Assertion K}
    {success : World K S → Prop}
    (hContract : Contract late a P Q Succeeds Fails)
    (hSafe : ∀ goal data b h, Q goal data b h → o.safe h)
    (hSuccess : ∀ w : World K S, Rest A Succeeds w → success w)
    (hFailure : ∀ b h, Fails b h → o.Cycle b h) :
    BT.Triple (mission K S) (surroundings A late) (Rest A P)
      (.action (.rosAction a)) (o.post A late success) := by
  apply hContract.triple.consequence (fun _ hPre => hPre)
  refine .of_parts ?_ hSuccess ?_
  · intro w hRunning
    rcases hRunning with ⟨goal, data, hBusy⟩
    exact safe_of_busy hBusy (hSafe goal data)
  · intro w hRest
    exact hRest.imp hFailure

theorem approach_contract (hValid : o.Valid late) :
    Contract late approach o.Cycle
      (fun goal data b h =>
        (data = .approach ∧ b.entry .speed = some 200) ∧
          o.approaching goal h)
      (fun b h => ∃ r, o.At r .found b h) o.Cycle := by
  constructor
  case setGoal =>
    rintro b h ⟨hSpeed, hCycle⟩
    refine ⟨.approach, [.cycleBegan], rfl, ?_, ?_, ?_⟩
    · exact .single id
    · intro goal hNew
      exact ⟨⟨rfl, hSpeed⟩,
        hValid.approach_sent h goal hCycle hNew⟩
    · exact ⟨hSpeed, hValid.approach_unreachable h hCycle⟩
  case stable =>
    intro goal data
    by_cases hData : data = .approach
    · subst hData
      exact stable_of_steady (hValid.approach_steady goal) _
    · intro b h event _ _ hHolds
      exact absurd hHolds.1.1 hData
  case failure =>
    rintro goal data b h error ⟨⟨_, hSpeed⟩, hApproaching⟩
    exact ⟨hSpeed,
      hValid.approach_failed h goal error hApproaching⟩
  case success =>
    rintro goal data b h r hCode
      ⟨⟨rfl, hSpeed⟩, hApproaching⟩ hEnded _
    refine ⟨b.setOutputs r.result, [.approached r.result], ?_,
      ?_, r.result, setOutputs_eq hSpeed _, ?_⟩
    · simp [approach, hCode]
    · exact .single id
    · exact hValid.approach_found h goal r.result hApproaching
        hEnded

theorem approach_triple (hValid : o.Valid late) :
    BT.Triple (mission K S) (surroundings A late) (Rest A o.Cycle)
      (.action (.rosAction approach))
      (o.post A late fun w => ∃ r, Rest A (o.At r .found) w) := by
  apply contract_triple (approach_contract hValid)
  · intro goal data b h hHolds
    exact hValid.approach_safe h goal hHolds.2
  · intro w hRest
    rcases hRest.holds with ⟨r, hFound⟩
    exact ⟨r, { hRest with holds := hFound }⟩
  · intro b h hCycle
    exact hCycle

theorem move_contract
    (hValid : o.Valid late)
    (r : ApproachResult K) (step : Step) :
    Contract late (smoothMove step (step.ports K))
      (o.At r (.before step))
      (fun _ data b h =>
        (data = .move (step.goal r) ∧ b = found r) ∧
          o.moving r step h)
      (o.At r step.next) o.Cycle := by
  constructor
  case setGoal =>
    rintro b h ⟨rfl, hBefore⟩
    refine ⟨.move (step.goal r), step.reads r, ?_,
      noReports_reads _ _, ?_, rfl, ?_⟩
    · simp only [smoothMove, setGoal_found, bind, Except.bind]
      rfl
    · intro goal _
      exact ⟨⟨rfl, rfl⟩,
        hValid.move_sent h r step goal hBefore⟩
    · exact hValid.move_unreachable h r step hBefore
  case stable =>
    intro goal data
    by_cases hData : data = .move (step.goal r)
    · subst hData
      exact stable_of_steady (hValid.move_steady r step goal) _
    · intro b h event _ _ hHolds
      exact absurd hHolds.1.1 hData
  case failure =>
    rintro _ data b h error ⟨⟨_, rfl⟩, hMoving⟩
    exact ⟨rfl, hValid.move_failed h r step error hMoving⟩
  case success =>
    rintro _ data b h result hCode ⟨⟨rfl, hFound⟩, hMoving⟩ _
      hArrived
    refine ⟨b, [], ?_, NoReports.nil, hFound, ?_⟩
    · simp [smoothMove, hCode]
    · apply hValid.move_done h r step hMoving
      intro hPatient hInTime
      exact hArrived hPatient hInTime _ rfl

theorem move_triple
    (hValid : o.Valid late)
    (r : ApproachResult K) (step : Step) :
    BT.Triple (mission K S) (surroundings A late)
      (Rest A (o.At r (.before step))) (move K step)
      (o.post A late (Rest A (o.At r step.next))) := by
  apply contract_triple (move_contract hValid r step)
  · intro goal data b h hHolds
    exact hValid.move_safe h r step hHolds.2
  · intro w hRest
    exact hRest
  · intro b h hCycle
    exact hCycle

theorem conveyor_contract
    (hValid : o.Valid late) (r : ApproachResult K) :
    Contract late conveyor (o.At r .idle)
      (fun _ data b h =>
        (data = .conveyor ∧ b = found r) ∧ o.conveying r h)
      (o.At r .closing) o.Cycle := by
  constructor
  case setGoal =>
    rintro b h ⟨rfl, hIdle⟩
    refine ⟨.conveyor, [], rfl, NoReports.nil, ?_, rfl, ?_⟩
    · intro goal _
      exact ⟨⟨rfl, rfl⟩, hValid.convey_sent h r goal hIdle⟩
    · exact hValid.convey_unreachable h r hIdle
  case stable =>
    intro goal data
    by_cases hData : data = .conveyor
    · subst hData
      exact stable_of_steady
        ((hValid.convey_steady r).conveyor goal) _
    · intro b h event _ _ hHolds
      exact absurd hHolds.1.1 hData
  case failure =>
    rintro _ data b h error ⟨⟨_, rfl⟩, hConveying⟩
    exact ⟨rfl, hValid.convey_failed h r error hConveying⟩
  case success =>
    rintro _ data b h result hCode ⟨⟨_, hFound⟩, hConveying⟩
      _ _
    refine ⟨b, [], ?_, NoReports.nil, hFound, ?_⟩
    · simp [conveyor, hCode]
    · exact hValid.convey_done h r hConveying

theorem conveyor_triple
    (hValid : o.Valid late) (r : ApproachResult K) :
    BT.Triple (mission K S) (surroundings A late)
      (Rest A (o.At r .idle)) (.action (.rosAction conveyor))
      (o.post A late (Rest A (o.At r .closing))) := by
  apply contract_triple (conveyor_contract hValid r)
  · intro goal data b h hHolds
    exact hValid.convey_safe h r hHolds.2
  · intro w hRest
    exact hRest
  · intro b h hCycle
    exact hCycle

theorem at_stable
    (hValid : o.Valid late) (r : ApproachResult K) (p : Point) :
    Stable late none (o.At r p) :=
  stable_of_steady (hValid.at_steady r p) _

/- A sleeping node stays at its point. -/
theorem rest_sleep_triple
    (hValid : o.Valid late)
    {r : ApproachResult K} {p : Point}
    {id : SleepId} {msec : Nat} :
    BT.Triple (mission K S) (surroundings A late)
      (Rest A (o.At r p)) (.action (.sleep id msec))
      (o.post A late (Rest A (o.At r p))) := by
  apply (sleep_triple (at_stable hValid r p)).consequence
    (fun _ hPre => hPre)
  refine .of_parts ?_ (fun _ hRest => hRest)
    (fun _ hFalse => hFalse.elim)
  intro w hRest
  exact safe_of_rest hRest fun b h hAt =>
    hValid.at_safe h r p hAt.2

------------------------------------------------------------
-- Branches
------------------------------------------------------------

omit [LinearOrder K] in
/- A condition reads the label of the result. -/
theorem readLabel_found
    {r : ApproachResult K} {p : Point}
    (hRest : Rest A (o.At r p) w) :
    readLabel w = .ok (r.label, w.log (.readLabel r.label)) := by
  have hLabel : w.blackboard.label = some r.label := by
    rw [hRest.holds.1]
    rfl
  simp [readLabel, hLabel]

omit [LinearOrder K] in
theorem Rest.readLabel
    {r : ApproachResult K} {p p' : Point}
    (hRest : Rest A (o.At r p) w)
    (hAt :
      o.at_ r p w.history →
        o.at_ r p' (.readLabel r.label :: w.history)) :
    Rest A (o.At r p') (w.log (.readLabel r.label)) := by
  exact hRest.local_ (.log id) (fun _ => rfl)
    ⟨hRest.holds.1, hAt hRest.holds.2⟩

/- A condition on the label in front of a part of the tree. -/
theorem when_triple
    {r : ApproachResult K} {p : Point} {script : Script}
    {child : BT.TreeNode (Action K) Script}
    {success : World K S → Prop}
    (test : Bool) (Then : World K S → Prop)
    (hScript :
      ∀ w : World K S, Rest A (o.At r p) w →
        executor script w =
          .ok (test, w.log (.readLabel r.label)))
    (hThen :
      test = true → ∀ w : World K S, Rest A (o.At r p) w →
        Then (w.log (.readLabel r.label)))
    (hElse :
      test = false → ∀ w : World K S, Rest A (o.At r p) w →
        success (w.log (.readLabel r.label)))
    (hChild :
      BT.Triple (mission K S) (surroundings A late) Then child
        (o.post A late success)) :
    BT.Triple (mission K S) (surroundings A late)
      (Rest A (o.At r p)) (when_ script child)
      (o.post A late success) := by
  apply BT.Triple.precondition (T := Then) _ hChild
  intro w hRest
  refine ⟨test, _, hScript w hRest, ?_⟩
  cases test with
  | true => exact hThen rfl w hRest
  | false =>
      intro outcome hOutcome
      cases hOutcome
      exact hElse rfl w hRest

omit [LinearOrder K] in
theorem executor_labelIs
    {r : ApproachResult K} {p : Point}
    (label : String)
    (hRest : Rest A (o.At r p) w) :
    executor (.labelIs label) w =
      .ok (decide (r.label = label),
        w.log (.readLabel r.label)) := by
  simp only [executor, readLabel_found hRest, bind, Except.bind]
  rfl

omit [LinearOrder K] in
theorem executor_labelIsNot
    {r : ApproachResult K} {p : Point}
    (label : String)
    (hRest : Rest A (o.At r p) w) :
    executor (.labelIsNot label) w =
      .ok (decide (r.label ≠ label),
        w.log (.readLabel r.label)) := by
  simp only [executor, readLabel_found hRest, bind, Except.bind]
  rfl

/- The goals of a bin. -/
theorem goals_triple
    (hValid : o.Valid late) (r : ApproachResult K) (b : Bin) :
    BT.Triple (mission K S) (surroundings A late)
      (Rest A (o.At r (.before (.bin b .carry))))
      (.sequence (b.goals K))
      (o.post A late (Rest A (o.At r (.stowed b)))) := by
  apply BT.Triple.sequence
  apply BT.Triple.cons (move_triple hValid r (.bin b .carry))
  apply BT.Triple.cons (move_triple hValid r (.bin b .lower))
  apply BT.Triple.cons (move_triple hValid r (.bin b .release))
  apply BT.Triple.cons (move_triple hValid r (.bin b .lift))
  exact BT.Triple.last (move_triple hValid r (.bin b .home))

omit [LinearOrder K] in
theorem post_imp
    {success success' : World K S → Prop}
    (hImp : ∀ w, success w → success' w) :
    (o.post A late success).Implies (o.post A late success') :=
  .of_parts (fun _ hSafe => hSafe) hImp (fun _ hRest => hRest)

/-
  The branches of the bins `left` are still to come: no
  branch was taken, or the one of the label was.
-/
def Sorting
    (A : ApproachServer K S I) (o : Outline K)
    (r : ApproachResult K) (left : List Bin)
    (w : World K S) : Prop :=
  (Rest A (o.At r .holding) w ∧
      ∀ b, b ∉ left → r.label ≠ b.label) ∨
    ∃ b, b ∉ left ∧ r.label = b.label ∧
      Rest A (o.At r (.stowed b)) w

/- The branch of a bin. -/
theorem branch_triple
    (hValid : o.Valid late) (r : ApproachResult K)
    {b : Bin} {left : List Bin}
    (hNew : b ∉ left) :
    BT.Triple (mission K S) (surroundings A late)
      (Sorting A o r (b :: left)) (b.branch K)
      (o.post A late (Sorting A o r left)) := by
  have hScript :
      ∀ (p : Point) (w : World K S), Rest A (o.At r p) w →
        executor (.labelIs b.label) w =
          .ok (decide (r.label = b.label),
            w.log (.readLabel r.label)) :=
    fun _ _ hRest => executor_labelIs b.label hRest
  intro w₀ outcome w hPre hExec
  rcases hPre with
    ⟨hRest, hOthers⟩ | ⟨c, hDone, hLabel, hRest⟩
  · by_cases hBin : r.label = b.label
    · simp only [hBin, decide_true] at hScript
      refine when_triple true
        (Rest A (o.At r (.before (.bin b .carry)))) ?_ ?_ ?_
        ((goals_triple hValid r b).consequence
          (fun _ hPre => hPre)
          (post_imp fun w hStowed => ?_))
        w₀ outcome w hRest hExec
      · rw [hBin]
        exact hScript _
      · intro _ w hRest
        exact Rest.readLabel hRest
          (hValid.bin w.history r b hBin)
      · intro hFalse
        cases hFalse
      · exact .inr ⟨b, hNew, hBin, hStowed⟩
    · simp only [hBin, decide_false] at hScript
      refine when_triple false (fun _ => False) (hScript _) ?_ ?_
        ?_ w₀ outcome w hRest hExec
      · intro hTrue
        cases hTrue
      · intro _ w hRest
        refine .inl ⟨Rest.readLabel hRest
          (hValid.noBin w.history r b hBin), ?_⟩
        intro c hLeft
        by_cases hSame : c = b
        · rw [hSame]
          exact hBin
        · exact hOthers c (by simp [hSame, hLeft])
      · intro _ _ _ hFalse
        exact hFalse.elim
  · have hBin : r.label ≠ b.label := by
      intro hBin
      have hSame := Bin.label_injective (hLabel.symm.trans hBin)
      rw [hSame] at hDone
      exact hDone List.mem_cons_self
    simp only [hBin, decide_false] at hScript
    refine when_triple false (fun _ => False) (hScript _) ?_ ?_
      ?_ w₀ outcome w hRest hExec
    · intro hTrue
      cases hTrue
    · intro _ w hRest
      refine .inr ⟨c, fun hLeft => ?_, hLabel,
        Rest.readLabel hRest (hValid.otherBin w.history r c)⟩
      exact hDone (List.mem_cons_of_mem b hLeft)
    · intro _ _ _ hFalse
      exact hFalse.elim

/- The branches, one after the other. -/
theorem branches_triple
    (hValid : o.Valid late) (r : ApproachResult K)
    {left : List Bin}
    (hNodup : left.Nodup) :
    BT.TripleAll (mission K S) (surroundings A late)
      (Sorting A o r left) (left.map (Bin.branch K))
      (o.post A late (Sorting A o r [])) := by
  induction left with
  | nil => exact BT.Triple.nil fun _ hPre => hPre
  | cons b left ih =>
      rcases List.nodup_cons.mp hNodup with ⟨hNew, hNodup⟩
      exact BT.Triple.cons (branch_triple hValid r hNew)
        (ih hNodup)

/- All that is done with a target. -/
theorem pickAndPlace_triple
    (hValid : o.Valid late) (r : ApproachResult K) :
    BT.Triple (mission K S) (surroundings A late)
      (Rest A (o.At r (.before (.pick .reach))))
      (.sequence (pickAndPlace K))
      (o.post A late (Rest A (o.At r .sorted))) := by
  have hNodup : Bin.all.Nodup := by decide
  have hBranches := branches_triple (A := A) hValid r hNodup
  apply BT.Triple.sequence
  apply BT.Triple.cons (move_triple hValid r (.pick .reach))
  apply BT.Triple.cons (move_triple hValid r (.pick .grasp))
  apply BT.Triple.cons (rest_sleep_triple hValid)
  apply BT.Triple.cons (move_triple hValid r (.pick .raise))
  intro w₀ outcome w hHolding hExec
  have hStart : Sorting A o r Bin.all w₀ :=
    .inl ⟨hHolding, fun b hLeft => absurd b.mem_all hLeft⟩
  refine post_imp ?_ outcome w
    (hBranches w₀ outcome w hStart hExec)
  intro w hSorted
  rcases hSorted with
    ⟨hRest, hUnknown⟩ | ⟨b, _, hLabel, hRest⟩
  · refine hRest.imp fun _ h hAt => ⟨hAt.1, ?_⟩
    exact hValid.unknown h r (fun b => hUnknown b (by simp)) hAt.2
  · refine hRest.imp fun _ h hAt => ⟨hAt.1, ?_⟩
    exact hValid.stowed h r b hLabel hAt.2

/- The branch for a target, and the one for its absence. -/
theorem found_triple
    (hValid : o.Valid late) (r : ApproachResult K) :
    BT.Triple (mission K S) (surroundings A late)
      (Rest A (o.At r .found))
      (when_ (.labelIsNot "none") (.sequence (pickAndPlace K)))
      (o.post A late (Rest A (o.At r .sorted))) := by
  have hScript :
      ∀ w : World K S, Rest A (o.At r .found) w →
        executor (.labelIsNot "none") w =
          .ok (decide (r.label ≠ "none"),
            w.log (.readLabel r.label)) :=
    fun _ hRest => executor_labelIsNot "none" hRest
  by_cases hNone : r.label = "none"
  · simp only [hNone, ne_eq, not_true_eq_false, decide_false]
      at hScript
    refine when_triple false (fun _ => False) ?_ ?_ ?_ ?_
    · rw [hNone]
      exact hScript
    · intro hTrue
      cases hTrue
    · intro _ w hRest
      exact Rest.readLabel hRest (hValid.noPick _ r hNone)
    · intro _ _ _ hFalse
      exact hFalse.elim
  · simp only [ne_eq, hNone, not_false_eq_true, decide_true]
      at hScript
    refine when_triple true
      (Rest A (o.At r (.before (.pick .reach)))) hScript ?_ ?_
      (pickAndPlace_triple hValid r)
    · intro _ w hRest
      exact Rest.readLabel hRest (hValid.pick _ r hNone)
    · intro hFalse
      cases hFalse

theorem sorted_triple
    (hValid : o.Valid late) (r : ApproachResult K) :
    BT.Triple (mission K S) (surroundings A late)
      (Rest A (o.At r .sorted))
      (when_ (.labelIs "none") (.action (.rosAction conveyor)))
      (o.post A late (Rest A (o.At r .closing))) := by
  have hScript :
      ∀ w : World K S, Rest A (o.At r .sorted) w →
        executor (.labelIs "none") w =
          .ok (decide (r.label = "none"),
            w.log (.readLabel r.label)) :=
    fun _ hRest => executor_labelIs "none" hRest
  by_cases hNone : r.label = "none"
  · simp only [hNone, decide_true] at hScript
    refine when_triple true (Rest A (o.At r .idle)) ?_ ?_ ?_
      (conveyor_triple hValid r)
    · rw [hNone]
      exact hScript
    · intro _ w hRest
      exact Rest.readLabel hRest (hValid.convey _ r hNone)
    · intro hFalse
      cases hFalse
  · simp only [hNone, decide_false] at hScript
    refine when_triple false (fun _ => False) hScript ?_ ?_ ?_
    · intro hTrue
      cases hTrue
    · intro _ w hRest
      exact Rest.readLabel hRest (hValid.noConvey _ r hNone)
    · intro _ _ _ hFalse
      exact hFalse.elim

------------------------------------------------------------
-- The Tree
------------------------------------------------------------

/- One cycle, which leads back to its head. -/
theorem cycle_triple (hValid : o.Valid late) :
    BT.Triple (mission K S) (surroundings A late) (Rest A o.Cycle)
      (.sequence (Mission.cycle K))
      (o.post A late fun _ => False) := by
  apply BT.Triple.sequence
  apply BT.Triple.cons (approach_triple hValid)
  intro w₀ outcome w hFound hExec
  rcases hFound with ⟨r, hFound⟩
  revert hExec
  refine (?_ : BT.TripleAll (mission K S) (surroundings A late)
    (Rest A (o.At r .found)) _ _) w₀ outcome w hFound
  apply BT.Triple.cons (found_triple hValid r)
  apply BT.Triple.cons (sorted_triple hValid r)
  apply BT.Triple.cons (rest_sleep_triple hValid)
  apply BT.Triple.last
  apply alwaysFailure_triple.consequence
      (P := Rest A (o.At r .closing)) (fun _ hPre => hPre)
  refine .of_parts (fun _ hFalse => hFalse.elim)
    (fun _ hFalse => hFalse) ?_
  intro w hRest
  refine hRest.imp ?_
  rintro b h ⟨rfl, hAt⟩
  exact ⟨rfl, hValid.closing h r hAt⟩

/- The whole tree never ends. -/
theorem triple (hValid : o.Valid late) :
    BT.Triple (mission K S) (surroundings A late)
      (Rest A fun _ h => o.boot h) (main3 K)
      ⟨Safe A late o, fun _ => False, fun _ => False⟩ := by
  have hCycleStable : Stable late none o.Cycle :=
    stable_of_steady hValid.cycle_steady _
  have hCycleSafe :
      ∀ w : World K S, Rest A o.Cycle w → Safe A late o w := by
    intro w hRest
    exact safe_of_rest hRest fun b h hCycle =>
      hValid.cycle_safe h hCycle.2
  have hStart :
      BT.Triple (mission K S) (surroundings A late)
        (Rest A fun _ h => o.boot h)
        (.action (.sleep .start 1000))
        ⟨Safe A late o, Rest A fun _ h => o.boot h,
          fun _ => False⟩ := by
    apply (sleep_triple hValid.boot_steady).consequence
      (fun _ hPre => hPre)
    refine .of_parts ?_ (fun _ hRest => hRest)
      (fun _ hFalse => hFalse)
    intro w hRest
    exact safe_of_rest hRest fun _ h hBoot =>
      hValid.boot_safe h hBoot
  have hSpeed :
      BT.Triple (mission K S) (surroundings A late)
        (Rest A fun _ h => o.boot h)
        (.action (.setBlackboard .speed 200))
        ⟨Safe A late o, Rest A o.Boot, fun _ => False⟩ := by
    refine (setBlackboard_triple ?_).consequence
      (fun _ hPre => hPre)
      (.of_parts (fun _ hFalse => hFalse.elim)
        (fun _ hRest => hRest) (fun _ hFalse => hFalse))
    intro b h hBoot
    exact ⟨by simp [Blackboard.set], hBoot⟩
  have hPublish :
      BT.Triple (mission K S) (surroundings A late)
        (Rest A o.Boot) (.action (.publish (homePose K)))
        ⟨Safe A late o, Rest A o.Cycle, fun _ => False⟩ := by
    refine (publish_triple ?_).consequence
      (fun _ hPre => hPre)
      (.of_parts (fun _ hFalse => hFalse.elim)
        (fun _ hRest => hRest) (fun _ hFalse => hFalse))
    rintro b h ⟨hSpeed, hBoot⟩
    exact ⟨hSpeed, hValid.publish h hBoot⟩
  have hReady :
      BT.Triple (mission K S) (surroundings A late)
        (Rest A o.Cycle) (.action (.sleep .ready 1000))
        ⟨Safe A late o, Rest A o.Cycle, fun _ => False⟩ :=
    (sleep_triple hCycleStable).consequence
      (fun _ hPre => hPre)
      (.of_parts hCycleSafe (fun _ hRest => hRest)
        (fun _ hFalse => hFalse))
  have hRetry :
      BT.Triple (mission K S) (surroundings A late)
        (Rest A o.Cycle)
        (.retry (-1) (.sequence (Mission.cycle K)))
        ⟨Safe A late o, fun _ => False, fun _ => False⟩ := by
    apply BT.Triple.retry (cycle_triple hValid)
    · intro w w' hRest hStep
      exact hRest.env hCycleStable hStep
    · intro w hRest
      exact hRest
    · exact hCycleSafe
  apply BT.Triple.sequence
  apply BT.Triple.cons hStart
  apply BT.Triple.cons hSpeed
  apply BT.Triple.cons hPublish
  apply BT.Triple.cons hReady
  apply BT.Triple.cons hRetry
  intro _ _ _ hFalse
  exact hFalse.elim

end Outline

------------------------------------------------------------
-- Runs
------------------------------------------------------------

omit [LinearOrder K] in
theorem main3_wellFormed : (main3 K).WellFormed := by
  simp [main3, Mission.cycle, pickAndPlace, when_, move,
    Bin.branch, Bin.goals, BT.TreeNode.WellFormed,
    BT.TreeNode.AllWellFormed, BT.NodeStatus.isCompleted]

/- The statuses that the engine expects of a leaf. -/
def Expected (r : BT.NodeStatus) : Prop :=
  r = .running ∨ r = .success ∨ r = .failure

theorem expected_of_completed
    {r : BT.NodeStatus}
    (hCompleted : r.isCompleted = true) : Expected r := by
  cases r with
  | success => exact .inr (.inl rfl)
  | failure => exact .inr (.inr rfl)
  | idle => cases hCompleted
  | running => cases hCompleted
  | skipped => cases hCompleted

omit [Field K] [LinearOrder K] in
theorem expected_sleep
    (id : SleepId) (msec : Nat) (w : World K S) :
    Expected (sleepStart id msec w).1 ∧
      Expected (sleepRunning id w).1 := by
  unfold sleepStart sleepRunning
  constructor
  · split
    · exact .inr (.inl rfl)
    · exact .inl rfl
  · split
    · exact .inl rfl
    · exact .inr (.inl rfl)

omit [Field K] [LinearOrder K] in
theorem expected_onStart
    {a : RosAction K} {w w' : World K S} {r : BT.NodeStatus}
    (hTick : a.onStart w = .ok (r, w')) : Expected r := by
  simp only [RosAction.onStart, bind_eq_ok] at hTick
  rcases hTick with ⟨⟨goal, reads⟩, _, hTick⟩
  split at hTick
  · cases hTick
    exact .inl rfl
  · cases hTick
    exact .inr (.inr rfl)

omit [Field K] [LinearOrder K] in
theorem expected_onRunning
    {a : RosAction K} {w w' : World K S} {r : BT.NodeStatus}
    (hTick : a.onRunning w = .ok (r, w')) : Expected r := by
  simp only [RosAction.onRunning, bind_eq_ok] at hTick
  rcases hTick with ⟨⟨verdict, c⟩, _, hTick⟩
  cases verdict with
  | running =>
      cases hTick
      exact .inl rfl
  | onFailure error =>
      cases hTick
      exact .inr (.inr rfl)
  | onResultReceived result =>
      simp only at hTick
      split at hTick
      · rename_i hCompleted
        cases hTick
        exact expected_of_completed hCompleted
      · cases hTick

omit [Field K] [LinearOrder K] in
/- The leaves return what the engine expects. -/
theorem mission_proper : (mission K S).Proper := by
  intro a status w r w' hTick
  change tick a status w = .ok (r, w') at hTick
  cases a with
  | sleep id msec =>
      rcases expected_sleep id msec w with ⟨hStart, hRunning⟩
      by_cases hIdle : status = .idle
      · subst hIdle
        have hSleep : sleepStart id msec w = (r, w') :=
          Except.ok.inj hTick
        rw [hSleep] at hStart
        exact hStart
      · have hSleep : sleepRunning id w = (r, w') := by
          cases status with
          | idle => exact absurd rfl hIdle
          | running => exact Except.ok.inj hTick
          | success => exact Except.ok.inj hTick
          | failure => exact Except.ok.inj hTick
          | skipped => exact Except.ok.inj hTick
        rw [hSleep] at hRunning
        exact hRunning
  | setBlackboard key value =>
      cases hTick
      exact .inr (.inl rfl)
  | publish pose =>
      cases hTick
      exact .inr (.inl rfl)
  | rosAction a =>
      by_cases hIdle : status = .idle
      · subst hIdle
        exact expected_onStart hTick
      · have hRunning : a.onRunning w = .ok (r, w') := by
          cases status with
          | idle => exact absurd rfl hIdle
          | running => exact hTick
          | success => exact hTick
          | failure => exact hTick
          | skipped => exact hTick
        exact expected_onRunning hRunning
  | alwaysFailure =>
      cases hTick
      exact .inr (.inr rfl)
  | finish =>
      cases hTick
      exact .inl rfl

variable {A : ApproachServer K S I}

omit [Field K] [LinearOrder K] in
/- The first world rests. -/
theorem rest_init
    {P : Assertion K}
    (hHolds : P .init []) :
    Rest A P (.init A.init) where
  sane := by
    constructor
    case executing =>
      intro goal hMember
      rw [show (World.init A.init : World K S).server = A.init
        from rfl, A.executing_init] at hMember
      cases hMember
    case nodup =>
      rw [show (World.init A.init : World K S).server = A.init
        from rfl, A.executing_init]
      exact List.nodup_nil
    case started =>
      intro action goal
      simp [World.init]
    case ended =>
      intro action code result goal
      simp [World.init]
  handles := by
    intro n old hHandle
    cases hHandle
  free := by
    intro _ goal hAlive
    rcases hAlive with ⟨r, hGoal, _⟩
    cases hGoal
  holds := hHolds

variable {Allowed : State K S → Input K I → Prop}
variable {is : List (Input K I)} {s : State K S}

/-
  A run of the machine ticks the root between other steps,
  each of which starts in a state that was reached.
-/
theorem reach_within
    {X : BT.Surroundings (World K S)}
    {P : World K S → Prop}
    (hGuard : ∀ w, X.Guard w)
    (hEnv :
      ∀ js t input w,
        ((machine A).restrict Allowed).Run (.init A) js t →
          Allowed t (.env input) →
            t.world.react A input = some w → X.Env t.world w)
    (hInit : P (.init A.init))
    (hRun :
      ((machine A).restrict Allowed).Run (.init A) is s) :
    BT.RootReach (mission K S) X (main3 K) P s.tree s.world := by
  have hBoth :
      (∃ js, ((machine A).restrict Allowed).Run (.init A) js s) ∧
        BT.RootReach (mission K S) X (main3 K) P s.tree
          s.world := by
    apply hRun.invariant (P := fun s =>
      (∃ js, ((machine A).restrict Allowed).Run (.init A) js s) ∧
        BT.RootReach (mission K S) X (main3 K) P s.tree s.world)
    · exact ⟨⟨[], .nil⟩, .init hInit⟩
    · rintro s i s' ⟨⟨js, hBefore⟩, hReach⟩ hEnabled hStep
      refine ⟨⟨_, .snoc hBefore hEnabled hStep⟩, ?_⟩
      rcases hEnabled with ⟨hEnabled, hAllowed⟩
      change step A s i = .ok s' at hStep
      cases i with
      | tick =>
          rcases bind_eq_ok.mp hStep with
            ⟨⟨r, tree, world⟩, hTick, hStep⟩
          cases hStep
          exact .tick hReach (hGuard _) hTick
      | env input =>
          change (s.world.react A input).isSome at hEnabled
          rcases Option.isSome_iff_exists.mp hEnabled with
            ⟨w, hReact⟩
          simp only [step, hReact] at hStep
          cases hStep
          exact .env hReach
            (hEnv js s input w hBefore hAllowed hReact)
  exact hBoth.2

/-
  The messages of a run that come while no goal of their
  server executes are late, or the mission is impatient.
-/
def InTime
    (A : ApproachServer K S I) (late : Prop)
    (Allowed : State K S → Input K I → Prop) : Prop :=
  ∀ js t input,
    ((machine A).restrict Allowed).Run (.init A) js t →
      Allowed t (.env input) → ¬ t.world.Timely A input →
        Lately late t.world

theorem inTime_of_late : InTime A True Allowed :=
  fun _ _ _ _ _ _ _ => trivial

theorem inTime_of_timely
    (hTimely : ∀ t i, Allowed t i → Timely A t i) :
    InTime A False Allowed :=
  fun _ t input _ hAllowed hNot =>
    absurd (hTimely t (.env input) hAllowed) hNot

theorem reach_of_run
    {P : World K S → Prop}
    (hInTime : InTime A late Allowed)
    (hInit : P (.init A.init))
    (hRun :
      ((machine A).restrict Allowed).Run (.init A) is s) :
    BT.RootReach (mission K S) (surroundings A late) (main3 K) P
      s.tree s.world := by
  refine reach_within (fun _ => trivial) ?_ hInit hRun
  intro js t input w hBefore hAllowed hReact
  exact react_cases (hInTime js t input hBefore hAllowed) hReact

theorem reach_of_any_run
    {P : World K S → Prop}
    (hInit : P (.init A.init))
    (hRun : (machine A).Run (.init A) is s) :
    BT.RootReach (mission K S) (surroundings A True) (main3 K) P
      s.tree s.world := by
  have hRun :
      ((machine A).restrict fun _ _ => True).Run (.init A) is s :=
    hRun.to_restrict fun _ _ => trivial
  exact reach_of_run inTime_of_late hInit hRun

namespace Outline

variable {o : Outline K}

theorem root_triple (hValid : o.Valid late) :
    BT.Triple (mission K S) (surroundings A late)
      (Rest A fun _ h => o.boot h) (main3 K)
      ⟨Safe A late o, Rest A fun _ h => o.boot h,
        Rest A fun _ h => o.boot h⟩ :=
  (triple hValid).consequence (fun _ hPre => hPre)
    (.of_parts (fun _ hSafe => hSafe)
      (fun _ hFalse => hFalse.elim)
      (fun _ hFalse => hFalse.elim))

theorem boot_stable
    (hValid : o.Valid late) (w w' : World K S)
    (hRest : Rest A (fun _ h => o.boot h) w)
    (hStep : (surroundings A late).Env w w') :
    Rest A (fun _ h => o.boot h) w' :=
  hRest.env hValid.boot_steady hStep

/- A valid outline is safe along every run. -/
theorem restricted_run_safe
    (hValid : o.Valid late)
    (hInTime : InTime A late Allowed)
    (hRun :
      ((machine A).restrict Allowed).Run (.init A) is s) :
    Safe A late o s.world := by
  have hReach :=
    reach_of_run (P := Rest A fun _ h => o.boot h) hInTime
      (rest_init hValid.boot) hRun
  rcases hReach.holds mission_proper main3_wellFormed
      (root_triple hValid) (boot_stable hValid) with
    hRest | hSafe
  · exact safe_of_rest hRest fun _ h hBoot =>
      hValid.boot_safe h hBoot
  · exact hSafe

theorem run_safe
    (hValid : o.Valid True)
    (hRun : (machine A).Run (.init A) is s) :
    Safe A True o s.world := by
  have hRun :
      ((machine A).restrict fun _ _ => True).Run (.init A) is s :=
    hRun.to_restrict fun _ _ => trivial
  exact restricted_run_safe hValid inTime_of_late hRun

/- With a valid outline no tick throws. -/
theorem tick_ok
    (hValid : o.Valid True)
    (hRun : (machine A).Run (.init A) is s) :
    ∃ s', step A s .tick = .ok s' := by
  have hReach :=
    reach_of_any_run (P := Rest A fun _ h => o.boot h)
      (rest_init hValid.boot) hRun
  rcases hReach.tick_ok mission_proper main3_wellFormed
      (root_triple hValid) (boot_stable hValid) trivial with
    ⟨r, tree, world, hTick⟩
  exact ⟨⟨tree, world⟩, bind_eq_ok.mpr ⟨_, hTick, rfl⟩⟩

omit [Field K] [LinearOrder K] in
theorem safe_sane
    {w : World K S}
    (hSafe : Safe A late o w) : Sane A w := by
  rcases hSafe with hRest | ⟨_, _, _, hBusy⟩
  · exact hRest.sane
  · exact hBusy.sane

omit [Field K] [LinearOrder K] in
theorem safe_history
    {w : World K S}
    (hSafe : Safe A late o w) : o.safe w.history := by
  rcases hSafe with hRest | ⟨_, _, _, hBusy⟩
  · exact hRest.holds
  · exact hBusy.holds

end Outline

end Obligations

end Mission

end Manipulator
