import Manipulator.Mission.Outline

/-
  What a cycle begins it has to end.

  An errand is something that a cycle may begin, such as to
  close the gripper or to leave the home pose, and that the
  last message on `pose_data` tells. The pick and the goals
  of a bin end it. When no failure and no unknown label comes
  in between, every cycle begins without one.

  Main declarations:
    * `quiet_of_emits`
    * `Guarded`, `Guarded.steady`, `Guarded.idle_steady`
    * `Errand`, `Errand.Valid`
    * `Errand.outline`, `Errand.run_good`
-/

------------------------------------------------------------
-- Quiet Events
------------------------------------------------------------

namespace Manipulator

namespace Mission

variable {K S I : Type}

/- The event is a message on `pose_data`. -/
def Event.Commands : Event K → Prop
| .commanded _ => True
| _ => False

theorem lastCommand_cons
    {event : Event K} {h : List (Event K)}
    (hEvent : ¬ event.Commands) :
    lastCommand (event :: h) = lastCommand h := by
  cases event with
  | commanded => exact absurd trivial hEvent
  | cycleBegan => rfl
  | read => rfl
  | readLabel => rfl
  | sent => rfl
  | failed => rfl
  | approached => rfl
  | started => rfl
  | ended => rfl

/- What a goal that does not move the arm adds is quiet. -/
theorem quiet_of_emits
    [Field K] [LinearOrder K]
    {goal : Nat} {data : Goal K}
    {event : Event K} {h : List (Event K)}
    (hEmits : Emits h goal data event)
    (hArm : ¬ data.Arm) :
    ¬ event.Commands ∧
      ∀ goal, event ≠ .started goal .approach := by
  have hAction : data.actionName = .conveyor := not_not.mp hArm
  cases hEmits with
  | started =>
      refine ⟨id, fun _ hEvent => ?_⟩
      rw [hAction] at hEvent
      cases hEvent
  | moved => cases hAction
  | published => cases hAction
  | ended => exact ⟨id, fun _ hEvent => by cases hEvent⟩

------------------------------------------------------------
-- Guarded Assertions
------------------------------------------------------------

/-
  After a patient history whose events meet a condition, all
  events are good and `P` holds.
-/
structure Guarded
    (Cond Good : Event K → List (Event K) → Prop)
    (P : List (Event K) → Prop)
    (h : List (Event K)) : Prop where
  holds :
    Patient h → History.Each Cond h →
      History.Each Good h ∧ P h

namespace Guarded

variable {Cond Good : Event K → List (Event K) → Prop}
variable {P Q : List (Event K) → Prop} {h : List (Event K)}

theorem imp
    (hGuarded : Guarded Cond Good P h)
    (hImp : Patient h → P h → Q h) : Guarded Cond Good Q h := by
  constructor
  intro hPatient hCond
  rcases hGuarded.holds hPatient hCond with ⟨hGood, hHolds⟩
  exact ⟨hGood, hImp hPatient hHolds⟩

theorem cons
    {event : Event K}
    (hGuarded : Guarded Cond Good P h)
    (hEvent :
      Cond event h → P h → Good event h ∧ Q (event :: h)) :
    Guarded Cond Good Q (event :: h) := by
  constructor
  intro hPatient hCond
  rcases hGuarded.holds hPatient.tail hCond.2 with
    ⟨hGood, hHolds⟩
  rcases hEvent hCond.1 hHolds with ⟨hGood', hHolds'⟩
  exact ⟨⟨hGood', hGood⟩, hHolds'⟩

/- Events that never matter. -/
theorem append
    {events : List (Event K)}
    (hGuarded : Guarded Cond Good P h)
    (hEvents :
      ∀ event ∈ events, ∀ h, P h → Good event h ∧ P (event :: h)) :
    Guarded Cond Good P (events ++ h) := by
  induction events with
  | nil => exact hGuarded
  | cons event events ih =>
      have hRest :=
        ih fun e hMember => hEvents e (List.mem_cons_of_mem _ hMember)
      apply hRest.cons
      intro _ hHolds
      exact hEvents event List.mem_cons_self _ hHolds

theorem steady
    [Field K] [LinearOrder K]
    {late : Prop} {mine : Option (Nat × Goal K)}
    (hStep :
      ∀ h goal data event,
        (data.Arm → mine = some (goal, data)) →
          Emits h goal data event → Cond event h → P h →
            Good event h ∧ P (event :: h))
    (hStray :
      late → ∀ h event, Stray event → Cond event h → P h →
        Good event h ∧ P (event :: h)) :
    Steady late mine (Guarded Cond Good P) := by
  intro b h event _ hSource hGuarded
  constructor
  intro hPatient hCond
  rcases hSource hPatient.tail with
    ⟨goal, data, hEmits, hArm⟩ | ⟨hLate, hEvent⟩
  · exact (hGuarded.cons
      (hStep h goal data event hArm hEmits)).holds hPatient hCond
  · exact (hGuarded.cons (hStray hLate h event hEvent)).holds
      hPatient hCond

/- The same without late messages. -/
theorem steady_inTime
    [Field K] [LinearOrder K]
    {mine : Option (Nat × Goal K)}
    (hStep :
      ∀ h goal data event,
        (data.Arm → mine = some (goal, data)) →
          Emits h goal data event → Cond event h → P h →
            Good event h ∧ P (event :: h)) :
    Steady False mine (Guarded Cond Good P) :=
  steady hStep False.elim

/- Between the goals of the arm only quiet events happen. -/
theorem idle_steady
    [Field K] [LinearOrder K]
    (hGood :
      ∀ h goal data event, Emits h goal data event →
        ¬ data.Arm → Good event h)
    (hQuiet :
      ∀ h event, ¬ event.Commands → P h → P (event :: h)) :
    Steady False none (Guarded Cond Good P) := by
  apply steady_inTime
  intro h goal data event hArm hEmits _ hHolds
  have hIdle : ¬ data.Arm := fun hMoves => by
    cases hArm hMoves
  exact ⟨hGood h goal data event hEmits hIdle,
    hQuiet h event (quiet_of_emits hEmits hIdle).1 hHolds⟩

/- The last message stays. -/
theorem last_steady
    [Field K] [LinearOrder K]
    (P : Option (Pos (Option K)) → Prop)
    (hGood :
      ∀ h goal data event, Emits h goal data event →
        ¬ data.Arm → Good event h) :
    Steady False none
      (Guarded Cond Good fun h => P (lastCommand h)) := by
  apply idle_steady hGood
  intro h event hQuiet hHolds
  rw [lastCommand_cons hQuiet]
  exact hHolds

end Guarded

------------------------------------------------------------
-- Errands
------------------------------------------------------------

/-
  `Begun` tells from the last message that the errand was
  begun. What is `Good` is to be shown when all events meet
  `Cond`. An approach may begin the errand if it `strays`,
  and the move goals of `during` may go on with it begun.
-/
structure Errand (K : Type) where
  Begun : Option (Pos (Option K)) → Prop
  Cond : Event K → List (Event K) → Prop
  Good : Event K → List (Event K) → Prop
  strays : Prop
  during : Step → Prop

/- Where a cycle may stand with the errand begun. -/
def Errand.MayStand
    (e : Errand K) (label : String) : Point → Prop
| .found => e.strays
| .before step => e.during step
| .holding => True
| .sorted => ∀ b : Bin, label ≠ b.label
| _ => False

variable [Field K] [LinearOrder K]

structure Errand.Valid (e : Errand K) : Prop where
  good :
    ∀ h event, ¬ event.Commands →
      (∀ goal, event ≠ .started goal .approach) →
        e.Good event h
  started :
    ∀ h goal, ¬ e.Begun (lastCommand h) →
      e.Good (.started goal .approach) h
  published :
    ∀ h, lastCommand h = none →
      e.Good (.commanded (Move.finite (homePose K))) h ∧
        ¬ e.Begun (some (Move.finite (homePose K)))
  approach :
    ∀ h (pose : Pos K), pose.grip = "open" →
      (e.Begun (lastCommand h) → e.strays) →
        e.Good (.commanded (Move.finite pose)) h ∧
          (e.Begun (some (Move.finite pose)) → e.strays)
  move :
    ∀ h (r : ApproachResult K) step (t : Double K),
      e.Cond (.commanded (Move.message (step.goal r) t)) h →
        (e.Begun (lastCommand h) → e.during step) →
          e.Good (.commanded (Move.message (step.goal r) t)) h ∧
            (e.Begun (some (Move.message (step.goal r) t)) →
              e.during step)
  next :
    ∀ (r : ApproachResult K) (step : Step),
      e.Begun (some (Move.finite (Move.finalPose (step.goal r)))) →
        e.MayStand r.label step.next
  reach : e.strays → e.during (.pick .reach)
  carry : ∀ b, e.during (.bin b .carry)
  approach_failed :
    ∀ h error, e.Cond (.failed .approach error) h →
      e.Begun (lastCommand h) → ¬ e.strays
  move_failed :
    ∀ h step error, e.Cond (.failed (.move step) error) h →
      ¬ e.Begun (lastCommand h)
  label :
    ∀ h label, e.Cond (.readLabel label) h →
      e.Begun (lastCommand h) → ∃ b : Bin, label = b.label

namespace Errand

/-
  Every cycle begins without the errand. An approach begins
  it, if at all, after it was started.
-/
def outline (e : Errand K) : Outline K where
  boot := Guarded e.Cond e.Good fun h => lastCommand h = none
  cycle :=
    Guarded e.Cond e.Good fun h => ¬ e.Begun (lastCommand h)
  approaching := fun goal =>
    Guarded e.Cond e.Good fun h =>
      e.Begun (lastCommand h) →
        e.strays ∧ .started goal .approach ∈ h
  at_ := fun r p =>
    Guarded e.Cond e.Good fun h =>
      e.Begun (lastCommand h) → e.MayStand r.label p
  moving := fun _ step =>
    Guarded e.Cond e.Good fun h =>
      e.Begun (lastCommand h) → e.during step
  conveying := fun _ =>
    Guarded e.Cond e.Good fun h => ¬ e.Begun (lastCommand h)
  safe := Guarded e.Cond e.Good fun _ => True

variable {e : Errand K} {h : List (Event K)}

omit [LinearOrder K] in
/- An event that is neither a message nor a start. -/
theorem quiet
    (hValid : e.Valid)
    {event : Event K} {P Q : List (Event K) → Prop}
    (hCommands : ¬ event.Commands)
    (hStarted : ∀ goal, event ≠ .started goal .approach)
    (hGuarded : Guarded e.Cond e.Good P h)
    (hImp : e.Cond event h → P h → Q (event :: h)) :
    Guarded e.Cond e.Good Q (event :: h) := by
  apply hGuarded.cons
  intro hCond hHolds
  exact ⟨hValid.good h event hCommands hStarted,
    hImp hCond hHolds⟩

omit [LinearOrder K] in
/- The reads for a goal. -/
theorem reads
    (hValid : e.Valid)
    {P : List (Event K) → Prop}
    (p : MovePorts K) (b : Blackboard K)
    (hGuarded : Guarded e.Cond e.Good P h)
    (hRead :
      ∀ key value h, P h → P (.read key value :: h)) :
    Guarded e.Cond e.Good P (p.reads b ++ h) := by
  apply hGuarded.append
  intro event hMember h hHolds
  rcases mem_reads hMember with ⟨key, value, rfl, _⟩
  refine ⟨hValid.good h _ id (fun _ hEvent => ?_),
    hRead key value h hHolds⟩
  cases hEvent

omit [LinearOrder K] in
/- A label is read with the errand begun: it is a bin's. -/
theorem readLabel
    (hValid : e.Valid)
    {label : String} {P Q : List (Event K) → Prop}
    (hGuarded : Guarded e.Cond e.Good P h)
    (hImp :
      P h →
        (e.Begun (lastCommand h) → ∃ b : Bin, label = b.label) →
          Q (.readLabel label :: h)) :
    Guarded e.Cond e.Good Q (.readLabel label :: h) := by
  apply quiet hValid id _ hGuarded
  · intro hCond hHolds
    exact hImp hHolds (hValid.label h label hCond)
  · intro _ hEvent
    cases hEvent

/- Between the goals of the arm nothing happens. -/
theorem rest_steady
    (hValid : e.Valid)
    (P : Option (Pos (Option K)) → Prop) :
    Steady False none
      (Guarded e.Cond e.Good fun h => P (lastCommand h)) := by
  apply Guarded.last_steady
  intro h goal data event hEmits hIdle
  rcases quiet_of_emits hEmits hIdle with ⟨hQuiet, hStarted⟩
  exact hValid.good h event hQuiet hStarted

/- The goal of an approach: once started, it may stray. -/
theorem approach_steady
    (hValid : e.Valid) (goal : Nat) :
    Steady False (some (goal, .approach))
      (e.outline.approaching goal) := by
  apply Guarded.steady_inTime
  intro h other data event hArm hEmits _ hHolds
  by_cases hIdle : data.Arm
  · cases hArm hIdle
    cases hEmits with
    | started hNew =>
        have hNone : ¬ e.Begun (lastCommand h) := fun hBegun =>
          hNew (hHolds hBegun).2
        exact ⟨hValid.started h goal hNone, fun hBegun =>
          absurd hBegun hNone⟩
    | published hStarted hGrip =>
        rcases hValid.approach h _ hGrip
            (fun hBegun => (hHolds hBegun).1) with
          ⟨hGood, hStrays⟩
        exact ⟨hGood, fun hBegun =>
          ⟨hStrays hBegun, List.mem_cons_of_mem _ hStarted⟩⟩
    | ended =>
        refine ⟨hValid.good h _ id (fun _ hEvent => ?_),
          fun hBegun => ?_⟩
        · cases hEvent
        · rcases hHolds hBegun with ⟨hStrays, hStarted⟩
          exact ⟨hStrays, List.mem_cons_of_mem _ hStarted⟩
  · rcases quiet_of_emits hEmits hIdle with ⟨hQuiet, hStarted⟩
    refine ⟨hValid.good h event hQuiet hStarted, ?_⟩
    rw [lastCommand_cons hQuiet]
    intro hBegun
    rcases hHolds hBegun with ⟨hStrays, hStarted⟩
    exact ⟨hStrays, List.mem_cons_of_mem _ hStarted⟩

theorem move_steady
    (hValid : e.Valid)
    (r : ApproachResult K) (step : Step) (goal : Nat) :
    Steady False (some (goal, .move (step.goal r)))
      (e.outline.moving r step) := by
  apply Guarded.steady_inTime
  intro h other data event hArm hEmits hCond hHolds
  by_cases hIdle : data.Arm
  · cases hArm hIdle
    cases hEmits with
    | moved =>
        exact hValid.move h r step _ hCond hHolds
    | started =>
        refine ⟨hValid.good h _ id (fun _ hEvent => ?_), hHolds⟩
        cases hEvent
    | ended =>
        refine ⟨hValid.good h _ id (fun _ hEvent => ?_), hHolds⟩
        cases hEvent
  · rcases quiet_of_emits hEmits hIdle with ⟨hQuiet, hStarted⟩
    refine ⟨hValid.good h event hQuiet hStarted, ?_⟩
    rw [lastCommand_cons hQuiet]
    exact hHolds

/- The outline of an errand meets its obligations. -/
theorem outline_valid (hValid : e.Valid) :
    e.outline.Valid False where
  boot := ⟨fun _ _ => ⟨trivial, rfl⟩⟩
  boot_steady := rest_steady hValid (· = none)
  publish := by
    intro h hBoot
    apply hBoot.cons
    intro _ hNone
    exact hValid.published h hNone
  cycle_steady := rest_steady hValid (¬ e.Begun ·)
  approach_sent := by
    intro h goal hCycle _
    have hBegan :
        e.outline.cycle (.cycleBegan :: h) :=
      quiet hValid id (fun _ hEvent => by cases hEvent) hCycle
        fun _ hNone => hNone
    apply hBegan.cons
    intro _ hNone
    refine ⟨hValid.good _ _ id (fun _ hEvent => ?_),
      fun hBegun => absurd hBegun hNone⟩
    cases hEvent
  approach_unreachable := by
    intro h hCycle
    have hBegan :
        e.outline.cycle (.cycleBegan :: h) :=
      quiet hValid id (fun _ hEvent => by cases hEvent) hCycle
        fun _ hNone => hNone
    exact quiet hValid id (fun _ hEvent => by cases hEvent)
      hBegan fun _ hNone => hNone
  approach_steady := approach_steady hValid
  approach_failed := by
    intro h goal error hApproaching
    apply hApproaching.cons
    intro hCond hHolds
    refine ⟨hValid.good _ _ id (fun _ hEvent => ?_),
      fun hBegun => ?_⟩
    · cases hEvent
    · exact hValid.approach_failed h error hCond hBegun
        (hHolds hBegun).1
  approach_found := by
    intro h goal r hApproaching _
    apply hApproaching.cons
    intro _ hHolds
    refine ⟨hValid.good _ _ id (fun _ hEvent => ?_),
      fun hBegun => (hHolds hBegun).1⟩
    cases hEvent
  at_steady := fun r p =>
    rest_steady hValid (e.Begun · → e.MayStand r.label p)
  pick := by
    intro h r _ hAt
    exact readLabel hValid hAt fun hHolds _ hBegun =>
      hValid.reach (hHolds hBegun)
  noPick := by
    intro h r hNone hAt
    apply readLabel hValid hAt
    intro _ hLabel hBegun
    rcases hLabel hBegun with ⟨b, hLabel⟩
    exact absurd (hNone.symm.trans hLabel) b.label_ne_none.symm
  move_sent := by
    intro h r step goal hAt
    exact quiet hValid id (fun _ hEvent => by cases hEvent)
      (reads hValid _ _ hAt fun _ _ _ hHolds => hHolds)
      fun _ hHolds => hHolds
  move_unreachable := by
    intro h r step hAt
    exact quiet hValid id (fun _ hEvent => by cases hEvent)
      (reads hValid _ _ hAt fun _ _ _ hHolds => hHolds)
      fun hCond _ =>
        hValid.move_failed (step.reads r ++ h) step _ hCond
  move_steady := move_steady hValid
  move_failed := by
    intro h r step error hMoving
    exact quiet hValid id (fun _ hEvent => by cases hEvent)
      hMoving fun hCond _ =>
        hValid.move_failed h step error hCond
  move_done := by
    intro h r step hMoving hArrived
    apply hMoving.imp
    intro hPatient _ hBegun
    rw [hArrived hPatient id] at hBegun
    exact hValid.next r step hBegun
  bin := by
    intro h r b _ hAt
    exact readLabel hValid hAt fun _ _ _ => hValid.carry b
  noBin := by
    intro h r b _ hAt
    exact readLabel hValid hAt fun hHolds _ => hHolds
  otherBin := by
    intro h r b hAt
    exact readLabel hValid hAt fun hHolds _ => hHolds
  unknown := by
    intro h r hUnknown hAt
    exact hAt.imp fun _ _ _ => hUnknown
  stowed := by
    intro h r b _ hAt
    exact hAt.imp fun _ hHolds hBegun => (hHolds hBegun).elim
  convey := by
    intro h r hNone hAt
    apply readLabel hValid hAt
    intro _ hLabel hBegun
    rcases hLabel hBegun with ⟨b, hLabel⟩
    exact absurd (hNone.symm.trans hLabel) b.label_ne_none.symm
  noConvey := by
    intro h r _ hAt
    apply readLabel hValid hAt
    intro hHolds hLabel hBegun
    rcases hLabel hBegun with ⟨b, hLabel⟩
    exact hHolds hBegun b hLabel
  convey_sent := by
    intro h r goal hAt
    exact quiet hValid id (fun _ hEvent => by cases hEvent) hAt
      fun _ hHolds => hHolds
  convey_unreachable := by
    intro h r hAt
    exact quiet hValid id (fun _ hEvent => by cases hEvent) hAt
      fun _ hHolds => hHolds
  convey_steady := fun _ => rest_steady hValid (¬ e.Begun ·)
  convey_failed := by
    intro h r error hConveying
    exact quiet hValid id (fun _ hEvent => by cases hEvent)
      hConveying fun _ hHolds => hHolds
  convey_done := by
    intro h r hConveying
    exact hConveying.imp fun _ hNone hBegun =>
      absurd hBegun hNone
  closing := by
    intro h r hAt
    exact hAt.imp fun _ hHolds hBegun => hHolds hBegun
  boot_safe := by
    intro h hBoot
    exact hBoot.imp fun _ _ => trivial
  cycle_safe := by
    intro h hCycle
    exact hCycle.imp fun _ _ => trivial
  approach_safe := by
    intro h goal hApproaching
    exact hApproaching.imp fun _ _ => trivial
  at_safe := by
    intro h r p hAt
    exact hAt.imp fun _ _ => trivial
  move_safe := by
    intro h r step hMoving
    exact hMoving.imp fun _ _ => trivial
  convey_safe := by
    intro h r hConveying
    exact hConveying.imp fun _ _ => trivial

/- In every run without late messages all events are good. -/
theorem run_good
    (hValid : e.Valid)
    {A : ApproachServer K S I}
    {Allowed : State K S → Input K I → Prop}
    {is : List (Input K I)} {s : State K S}
    (hTimely : ∀ t i, Allowed t i → Timely A t i)
    (hRun :
      ((machine A).restrict Allowed).Run (.init A) is s)
    (hPatient : Patient s.world.history)
    (hCond : History.Each e.Cond s.world.history) :
    History.Each e.Good s.world.history := by
  have hSafe : e.outline.safe s.world.history :=
    Outline.safe_history
      (Outline.restricted_run_safe (outline_valid hValid)
        (inTime_of_timely hTimely) hRun)
  exact (hSafe.holds hPatient hCond).1

end Errand

end Mission

end Manipulator
