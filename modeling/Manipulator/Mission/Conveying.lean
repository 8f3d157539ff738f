import Manipulator.Mission.Errand
import Manipulator.Mission.Exclusion

/-
  The gripper when the conveyor starts.

  A cycle that goes to the conveyor has sent no move goal.
  Since it began only the approach server has published, and
  with an open gripper; when it has published nothing, the
  gripper is as the cycle found it.

  Main declarations:
    * `beforeCycle`, `lastCommand_eq_or`
    * `OpenSince`, `opening`, `opening_valid`
    * `conveyor_starts_open_iff`
    * `conveyor_starts_closed`
-/

------------------------------------------------------------
-- The Last Message And The Cycle
------------------------------------------------------------

namespace Manipulator

namespace Mission

variable {K S I : Type}

/- The last message on `pose_data` has grip 'open'. -/
def Opened (last : Option (Pos (Option K))) : Prop :=
  ∃ pose, last = some pose ∧ pose.grip = "open"

instance (last : Option (Pos (Option K))) :
    Decidable (Opened last) :=
  decidable_of_iff (last.any (fun pose => pose.grip = "open"))
    (by simp [Opened, Option.any_eq_true])

/- The events before an approach node last started. -/
def beforeCycle : List (Event K) → List (Event K)
| [] => []
| .cycleBegan :: earlier => earlier
| _ :: earlier => beforeCycle earlier

theorem beforeCycle_cons
    {event : Event K} {h : List (Event K)}
    (hEvent : event ≠ .cycleBegan) :
    beforeCycle (event :: h) = beforeCycle h := by
  cases event with
  | cycleBegan => exact absurd rfl hEvent
  | read => rfl
  | readLabel => rfl
  | sent => rfl
  | failed => rfl
  | approached => rfl
  | started => rfl
  | commanded => rfl
  | ended => rfl

/- The last message is of this cycle, or from before it. -/
theorem lastCommand_eq_or (h : List (Event K)) :
    lastCommand h =
      (lastCommand (thisCycle h)).or
        (lastCommand (beforeCycle h)) := by
  induction h with
  | nil => rfl
  | cons event h ih =>
      by_cases hBegan : event = .cycleBegan
      · rw [hBegan]
        rfl
      · rw [thisCycle_cons hBegan, beforeCycle_cons hBegan]
        by_cases hCommands : event.Commands
        · cases event with
          | commanded => rfl
          | cycleBegan => exact hCommands.elim
          | read => exact hCommands.elim
          | readLabel => exact hCommands.elim
          | sent => exact hCommands.elim
          | failed => exact hCommands.elim
          | approached => exact hCommands.elim
          | started => exact hCommands.elim
          | ended => exact hCommands.elim
        · rw [lastCommand_cons hCommands,
            lastCommand_cons hCommands, ih]

/- The messages of this cycle, if any, left it open. -/
def OpenSince (h : List (Event K)) : Prop :=
  ∀ pose, lastCommand (thisCycle h) = some pose →
    pose.grip = "open"

/-
  What is open since the cycle began is open if the cycle
  published, or found the gripper open.
-/
theorem OpenSince.opened_iff
    {h : List (Event K)}
    (hOpen : OpenSince h) :
    Opened (lastCommand h) ↔
      (lastCommand (thisCycle h) = none →
        Opened (lastCommand (beforeCycle h))) := by
  rw [lastCommand_eq_or h]
  cases hLast : lastCommand (thisCycle h) with
  | none => simp
  | some pose =>
      constructor
      · intro _ hNone
        cases hNone
      · intro _
        exact ⟨pose, rfl, hOpen pose hLast⟩

theorem OpenSince.cons
    {event : Event K} {h : List (Event K)}
    (hOpen : OpenSince h)
    (hQuiet : ¬ event.Commands) : OpenSince (event :: h) := by
  by_cases hBegan : event = .cycleBegan
  · rw [hBegan]
    intro pose hLast
    cases hLast
  · unfold OpenSince
    rw [thisCycle_cons hBegan, lastCommand_cons hQuiet]
    exact hOpen

theorem OpenSince.commanded
    {pose : Pos (Option K)} {h : List (Event K)}
    (hGrip : pose.grip = "open") :
    OpenSince (.commanded pose :: h) := by
  intro last hLast
  cases hLast
  exact hGrip

------------------------------------------------------------
-- The Outline
------------------------------------------------------------

/- The conveyor is sent a goal only after open messages. -/
def ConveysOpen : Event K → List (Event K) → Prop
| .sent _ .conveyor _, earlier => OpenSince earlier
| _, _ => True

def Conveys : Event K → Prop
| .sent _ .conveyor _ => True
| _ => False

instance : (event : Event K) → Decidable (Conveys event)
| .sent _ .conveyor _ => .isTrue trivial
| .sent _ .approach _ => .isFalse id
| .sent _ (.move _) _ => .isFalse id
| .cycleBegan => .isFalse id
| .read _ _ => .isFalse id
| .readLabel _ => .isFalse id
| .failed _ _ => .isFalse id
| .approached _ => .isFalse id
| .started _ _ => .isFalse id
| .commanded _ => .isFalse id
| .ended _ _ _ _ => .isFalse id

theorem conveysOpen
    {event : Event K}
    (hEvent : ¬ Conveys event)
    (h : List (Event K)) : ConveysOpen event h := by
  unfold ConveysOpen
  split
  · exact absurd trivial hEvent
  · exact trivial

/- A statement, after messages that were all as they should. -/
abbrev Opening (P : List (Event K) → Prop) :
    List (Event K) → Prop :=
  Guarded (fun _ _ => True) ConveysOpen P

/- What is known of the gripper at a point of a cycle. -/
def Point.Grips
    (label : String) : Point → List (Event K) → Prop
| .found => OpenSince
| .before _ => fun _ => label ≠ "none"
| .holding => fun _ => label ≠ "none"
| .stowed _ => fun _ => True
| .sorted => fun h => label = "none" → OpenSince h
| .idle => OpenSince
| .closing => fun _ => True

def opening (K : Type) : Outline K where
  boot := Opening fun _ => True
  cycle := Opening fun _ => True
  approaching := fun _ => Opening OpenSince
  at_ := fun r p => Opening (p.Grips r.label)
  moving := fun r _ => Opening fun _ => r.label ≠ "none"
  conveying := fun _ => Opening fun _ => True
  safe := Opening fun _ => True

section Obligations

variable {event : Event K} {h : List (Event K)}
variable {P Q : List (Event K) → Prop}

/- An event that is no goal for the conveyor. -/
theorem opening_cons
    (hOpening : Opening P h)
    (hEvent : ¬ Conveys event)
    (hImp : P h → Q (event :: h)) :
    Opening Q (event :: h) := by
  apply hOpening.cons
  intro _ hHolds
  exact ⟨conveysOpen hEvent h, hImp hHolds⟩

theorem reads_opening
    (p : MovePorts K) (b : Blackboard K)
    (hOpening : Opening P h)
    (hRead :
      ∀ key value h, P h → P (.read key value :: h)) :
    Opening P (p.reads b ++ h) := by
  apply hOpening.append
  intro event hMember h hHolds
  rcases mem_reads hMember with ⟨key, value, rfl, _⟩
  exact ⟨conveysOpen id h, hRead key value h hHolds⟩

variable [Field K] [LinearOrder K]
variable {mine : Option (Nat × Goal K)}

/- The events of the servers send no goal. -/
theorem not_conveys_of_emits
    {goal : Nat} {data : Goal K}
    (hEmits : Emits h goal data event) : ¬ Conveys event := by
  cases hEmits with
  | started => exact id
  | moved => exact id
  | published => exact id
  | ended => exact id

theorem opening_steady
    (hStep :
      ∀ h goal data event,
        (data.Arm → mine = some (goal, data)) →
          Emits h goal data event → P h → P (event :: h))
    (hOpen :
      ∀ h (pose : Pos K), pose.grip = "open" → P h →
        P (.commanded (Move.finite pose) :: h)) :
    Steady True mine (Opening P) := by
  apply Guarded.steady
  · intro h goal data event hArm hEmits _ hHolds
    exact ⟨conveysOpen (not_conveys_of_emits hEmits) h,
      hStep h goal data event hArm hEmits hHolds⟩
  · intro _ h event hStray _ hHolds
    cases hStray with
    | published hGrip => exact ⟨trivial, hOpen h _ hGrip hHolds⟩

/- A fact that no message changes. -/
theorem constant_steady (c : Prop) :
    Steady True mine (Opening fun _ => c) :=
  opening_steady (fun _ _ _ _ _ _ hHolds => hHolds)
    fun _ _ _ hHolds => hHolds

/- An approach publishes with an open gripper. -/
theorem approaching_steady (goal : Nat) :
    Steady True (some (goal, .approach))
      (Opening (K := K) OpenSince) := by
  apply opening_steady
  · intro h other data event hArm hEmits hOpen
    by_cases hIdle : data.Arm
    · cases hArm hIdle
      cases hEmits with
      | started => exact hOpen.cons id
      | ended => exact hOpen.cons id
      | published _ hGrip => exact .commanded hGrip
    · exact hOpen.cons (quiet_of_emits hEmits hIdle).1
  · exact fun h pose hGrip _ => .commanded hGrip

theorem grips_steady (label : String) (p : Point) :
    Steady True none (Opening (K := K) (p.Grips label)) := by
  apply opening_steady
  · intro h goal data event hArm hEmits hHolds
    have hIdle : ¬ data.Arm := fun hMoves => by
      cases hArm hMoves
    have hQuiet := (quiet_of_emits hEmits hIdle).1
    cases p with
    | found => exact OpenSince.cons hHolds hQuiet
    | before => exact hHolds
    | holding => exact hHolds
    | stowed => exact trivial
    | sorted => exact fun hNone => (hHolds hNone).cons hQuiet
    | idle => exact OpenSince.cons hHolds hQuiet
    | closing => exact trivial
  · intro h pose hGrip hHolds
    cases p with
    | found => exact .commanded hGrip
    | before => exact hHolds
    | holding => exact hHolds
    | stowed => exact trivial
    | sorted => exact fun _ => .commanded hGrip
    | idle => exact .commanded hGrip
    | closing => exact trivial

end Obligations

theorem opening_valid
    [Field K] [LinearOrder K] : (opening K).Valid True where
  boot := ⟨fun _ _ => ⟨trivial, trivial⟩⟩
  boot_steady := constant_steady True
  publish := fun h hBoot => opening_cons hBoot id id
  cycle_steady := constant_steady True
  approach_sent := by
    intro h goal hCycle _
    apply opening_cons (P := OpenSince) _ id
    · exact fun hOpen => hOpen.cons id
    · apply opening_cons hCycle id
      intro _ pose hLast
      cases hLast
  approach_unreachable := fun h hCycle =>
    opening_cons (P := fun _ => True)
      (opening_cons hCycle id id) id id
  approach_steady := approaching_steady
  approach_failed := fun h goal error hOpen =>
    opening_cons hOpen id fun _ => trivial
  approach_found := fun h goal r hOpen _ =>
    opening_cons hOpen id fun hOpen => hOpen.cons id
  at_steady := fun r p => grips_steady r.label p
  pick := fun h r hLabel hAt =>
    opening_cons hAt id fun _ => hLabel
  noPick := fun h r hNone hAt =>
    opening_cons hAt id fun hOpen _ => OpenSince.cons hOpen id
  move_sent := by
    intro h r step goal hAt
    exact opening_cons
      (reads_opening _ _ hAt fun _ _ _ hLabel => hLabel) id id
  move_unreachable := by
    intro h r step hAt
    exact opening_cons
      (reads_opening _ _ hAt fun _ _ _ hLabel => hLabel) id
        fun _ => trivial
  move_steady := fun r step goal => constant_steady _
  move_failed := fun h r step error hMoving =>
    opening_cons hMoving id fun _ => trivial
  move_done := by
    intro h r step hMoving _
    apply hMoving.imp
    intro _ hLabel
    cases step with
    | pick step => cases step <;> exact hLabel
    | bin b step => cases step <;> first | exact hLabel | trivial
  bin := fun h r b _ hAt => opening_cons hAt id id
  noBin := fun h r b _ hAt => opening_cons hAt id id
  otherBin := fun h r b hAt => opening_cons hAt id id
  unknown := fun h r _ hAt =>
    hAt.imp fun _ hLabel hNone => absurd hNone hLabel
  stowed := fun h r b hLabel hAt =>
    hAt.imp fun _ _ hNone =>
      absurd (hLabel.symm.trans hNone) b.label_ne_none
  convey := fun h r hNone hAt =>
    opening_cons hAt id fun hOpen => (hOpen hNone).cons id
  noConvey := fun h r _ hAt =>
    opening_cons hAt id fun _ => trivial
  convey_sent := by
    intro h r goal hAt
    apply hAt.cons
    intro _ hOpen
    exact ⟨hOpen, trivial⟩
  convey_unreachable := fun h r hAt =>
    opening_cons hAt id fun _ => trivial
  convey_steady := fun r => constant_steady True
  convey_failed := fun h r error hConveying =>
    opening_cons hConveying id id
  convey_done := fun h r hConveying => hConveying
  closing := fun h r hAt => hAt
  boot_safe := fun h hBoot => hBoot
  cycle_safe := fun h hCycle => hCycle
  approach_safe := fun h goal hOpen =>
    hOpen.imp fun _ _ => trivial
  at_safe := fun h r p hAt => hAt.imp fun _ _ => trivial
  move_safe := fun h r step hMoving =>
    hMoving.imp fun _ _ => trivial
  convey_safe := fun h r hConveying => hConveying

------------------------------------------------------------
-- Every Run
------------------------------------------------------------

/-
  When the conveyor is sent a goal, the gripper is open
  exactly if the cycle has published or found it open.
-/
theorem conveyor_starts_open_iff
    [Field K] [LinearOrder K]
    {A : ApproachServer K S I}
    {is : List (Input K I)} {s : State K S}
    (hRun : (machine A).Run (.init A) is s)
    (hPatient : Patient s.world.history) :
    History.Each
      (fun event earlier =>
        Conveys event →
          (Opened (lastCommand earlier) ↔
            (lastCommand (thisCycle earlier) = none →
              Opened (lastCommand (beforeCycle earlier)))))
      s.world.history := by
  have hSafe : (opening K).safe s.world.history :=
    Outline.safe_history (Outline.run_safe opening_valid hRun)
  have hCond :
      ∀ h : List (Event K),
        History.Each (fun _ _ => True) h := by
    intro h
    induction h with
    | nil => exact trivial
    | cons _ _ ih => exact ⟨trivial, ih⟩
  apply (hSafe.holds hPatient (hCond _)).1.imp
  intro event earlier hOpen hConveys
  apply OpenSince.opened_iff
  unfold Conveys at hConveys
  split at hConveys
  · exact hOpen
  · exact hConveys.elim

/- A conveyor that starts after an approach found nothing. -/
theorem conveyor_starts_open_iff_none :
    ∃ s : State ℚ (List Nat),
      (∃ event ∈ s.world.history, Conveys event) ∧
        Patient s.world.history ∧
          History.Each
            (fun event earlier =>
              Conveys event →
                (Opened (lastCommand earlier) ↔
                  (lastCommand (thisCycle earlier) = none →
                    Opened (lastCommand (beforeCycle earlier)))))
            s.world.history := by
  have hExec :
      ((machine (anyServer ℚ)).exec (.init (anyServer ℚ))
          (bootRun ++
            approachRun 0 ⟨210, 40, 40, 0, "none", true⟩)).any
        (fun s =>
          s.world.history.all Event.inTime &&
            s.world.history.any (fun event => Conveys event)) =
        true := by
    decide +kernel
  rcases Machine.exists_run_of_exec hExec with ⟨s, hRun, hTest⟩
  rw [Bool.and_eq_true, List.any_eq_true] at hTest
  rcases hTest with ⟨hInTime, event, hMember, hConveys⟩
  have hPatient := patient_of_inTime hInTime
  exact
    ⟨s, ⟨event, hMember, of_decide_eq_true hConveys⟩, hPatient,
      conveyor_starts_open_iff hRun hPatient⟩

------------------------------------------------------------
-- A Closed Gripper
------------------------------------------------------------

/-
  No bin has the label of what was picked, so that it is
  still held when the next approach sees nothing.
-/
def heldRun : List (Input ℚ (Approach.Input ℚ)) :=
  bootRun ++ findRun 0 0 "apple" ++ moveRun 1 ++ moveRun 2 ++
    [Input.env (.timer .grasped), .tick] ++ moveRun 3 ++
      [Input.env (.timer .cycle), .tick] ++ acceptRun 4 ++
        [Input.env
          (.approach (Approach.Input.boundingBox .default))] ++
          List.replicate 30
              (Input.env (.approach Approach.Input.timer)) ++
            [Input.env (.approach (Approach.Input.finish 1))] ++
              resultRun 4

theorem conveyor_starts_closed :
    ¬ ∀ (is : List (Input ℚ (Approach.Input ℚ)))
        (s : State ℚ (ApproachNode ℚ)),
      (machine (approachServer level 0)).Run
          (.init (approachServer level 0)) is s →
        History.Each
          (fun event earlier =>
            Conveys event → Opened (lastCommand earlier))
          s.world.history := by
  intro hClaim
  have hExec :
      ((machine (approachServer level 0)).exec
          (.init (approachServer level 0)) heldRun).any
        (fun s =>
          decide (¬ History.Each
            (fun event earlier =>
              Conveys event → Opened (lastCommand earlier))
            s.world.history)) =
        true := by
    decide +kernel
  rcases Machine.exists_run_of_exec hExec with ⟨s, hRun, hTest⟩
  exact of_decide_eq_true hTest (hClaim _ s hRun)

end Mission

end Manipulator
