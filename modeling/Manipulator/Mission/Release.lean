import Manipulator.Mission.Exclusion
import Manipulator.Mission.Reaction

/-
  Where the gripper opens.

  The errand of a cycle is to hold something. A cycle that
  ends with the gripper closed, because a goal failed or no
  bin has the label, leads to an approach, and that opens the
  gripper wherever the arm stands.

  Main declarations:
    * `AtRelease`, `Released`
    * `Carried`, `Clocked`
    * `numbered_of_run`
    * `released_at_bin`
    * `released_elsewhere`
-/

------------------------------------------------------------
-- Releases
------------------------------------------------------------

namespace Manipulator

namespace Mission

variable {K S I : Type}

/- The last message on `pose_data` closed the gripper. -/
def Closed (last : Option (Pos (Option K))) : Prop :=
  ∃ pose, last = some pose ∧ pose.grip = "close"

instance (last : Option (Pos (Option K))) :
    Decidable (Closed last) :=
  decidable_of_iff (last.any (fun pose => pose.grip = "close"))
    (by simp [Closed, Option.any_eq_true])

/- The release pose of a bin. -/
structure AtRelease
    [Field K] (b : Bin) (pose : Pos (Option K)) : Prop where
  x : pose.x = some (b.x K)
  y : pose.y = some (b.y K)
  z : pose.z = some (-80)

instance
    [Field K] [DecidableEq K]
    (b : Bin) (pose : Pos (Option K)) :
    Decidable (AtRelease b pose) :=
  decidable_of_iff
    (pose.x = some (b.x K) ∧ pose.y = some (b.y K) ∧
      pose.z = some (-80))
    ⟨fun h => ⟨h.1, h.2.1, h.2.2⟩, fun h => ⟨h.x, h.y, h.z⟩⟩

/- The grip passes from 'close' to 'open' at a bin. -/
def Released [Field K] :
    Event K → List (Event K) → Prop
| .commanded pose, earlier =>
    pose.grip = "open" → Closed (lastCommand earlier) →
      ∃ b, AtRelease b pose
| _, _ => True

instance
    [Field K] [DecidableEq K]
    (event : Event K) (earlier : List (Event K)) :
    Decidable (Released event earlier) :=
  match event with
  | .commanded pose =>
      inferInstanceAs (Decidable
        (pose.grip = "open" → Closed (lastCommand earlier) →
          ∃ b, AtRelease b pose))
  | .cycleBegan => .isTrue trivial
  | .read _ _ => .isTrue trivial
  | .readLabel _ => .isTrue trivial
  | .sent _ _ _ => .isTrue trivial
  | .failed _ _ => .isTrue trivial
  | .approached _ => .isTrue trivial
  | .started _ _ => .isTrue trivial
  | .ended _ _ _ _ => .isTrue trivial

/-
  What is gripped is carried to a bin: no move goal fails
  with the gripper closed, and the labels that are read then
  are those of bins.
-/
def Carried : Event K → List (Event K) → Prop
| .failed (.move _) _, earlier =>
    ¬ Closed (lastCommand earlier)
| .readLabel label, earlier =>
    Closed (lastCommand earlier) → ∃ b : Bin, label = b.label
| _, _ => True

instance
    [DecidableEq K]
    (event : Event K) (earlier : List (Event K)) :
    Decidable (Carried event earlier) :=
  match event with
  | .failed (.move _) _ =>
      inferInstanceAs (Decidable (¬ Closed (lastCommand earlier)))
  | .readLabel label =>
      inferInstanceAs (Decidable
        (Closed (lastCommand earlier) →
          ∃ b : Bin, label = b.label))
  | .failed .approach _ => .isTrue trivial
  | .failed .conveyor _ => .isTrue trivial
  | .cycleBegan => .isTrue trivial
  | .read _ _ => .isTrue trivial
  | .sent _ _ _ => .isTrue trivial
  | .approached _ => .isTrue trivial
  | .started _ _ => .isTrue trivial
  | .commanded _ => .isTrue trivial
  | .ended _ _ _ _ => .isTrue trivial

/- A goal of the arm with grip 'open'. -/
def Goal.Opens : Goal K → Prop
| .move data => data.grip = "open"
| _ => False

instance : (goal : Goal K) → Decidable goal.Opens
| .move data => inferInstanceAs (Decidable (data.grip = "open"))
| .approach => .isFalse id
| .conveyor => .isFalse id

/-
  The pass of a goal that opens a closed gripper does not
  divide zero by zero: the clock has advanced.
-/
def Clocked
    [Field K] [LinearOrder K]
    (s : State K S) : Input K I → Prop
| .env (.iterate goal t) =>
    ∀ r ∈ s.world.goals[goal]?, r.goal.Opens →
      Closed (lastCommand s.world.history) →
        t.clampOne.value? ≠ none
| _ => True

instance
    [Field K] [LinearOrder K]
    (s : State K S) : (i : Input K I) → Decidable (Clocked s i)
| .env (.iterate goal t) =>
    inferInstanceAs (Decidable
      (∀ r ∈ s.world.goals[goal]?, r.goal.Opens →
        Closed (lastCommand s.world.history) →
          t.clampOne.value? ≠ none))
| .tick => .isTrue trivial
| .env (.observe _ _) => .isTrue trivial
| .env (.timer _) => .isTrue trivial
| .env (.accept _) => .isTrue trivial
| .env (.respond _) => .isTrue trivial
| .env (.succeed _) => .isTrue trivial
| .env (.abort _) => .isTrue trivial
| .env (.approach _) => .isTrue trivial
| .env (.deliver _) => .isTrue trivial

theorem not_closed_of_open
    {pose : Pos (Option K)}
    (hGrip : pose.grip = "open") : ¬ Closed (some pose) := by
  rintro ⟨_, hPose, hClose⟩
  cases hPose
  rw [hGrip] at hClose
  simp at hClose

/- The goals during which the gripper may be closed. -/
def Step.Holds : Step → Prop
| .pick .reach => False
| .bin _ .lift => False
| .bin _ .home => False
| _ => True

section Opening

variable [Field K] [LinearOrder K]

omit [LinearOrder K] in
/- All messages of a goal have the goal's grip. -/
theorem message_grip
    (r : ApproachResult K) (step : Step) (t : Double K) :
    (Move.message (step.goal r) t).grip =
      (step.ports K).grip := rfl

omit [LinearOrder K] in
/- The goals with an open gripper that may find it closed. -/
theorem release_of_open
    {step : Step}
    (hHolds : step.Holds)
    (hGrip : (step.ports K).grip = "open") :
    ∃ b, step = .bin b .release := by
  cases step with
  | pick step =>
      cases step with
      | reach => exact hHolds.elim
      | grasp => simp [Step.ports] at hGrip
      | raise => simp [Step.ports] at hGrip
  | bin b step =>
      cases step with
      | carry => simp [Step.ports] at hGrip
      | lower => simp [Step.ports] at hGrip
      | release => exact ⟨b, rfl⟩
      | lift => exact hHolds.elim
      | home => exact hHolds.elim

omit [LinearOrder K] in
/-
  A release goal leads from the release pose to itself, so
  that all its passes are there, if they are anywhere.
-/
theorem atRelease_message
    {r : ApproachResult K} {b : Bin} {t : Double K}
    (hNumber :
      (Move.message (Step.goal (.bin b .release) r) t).x ≠ none) :
    AtRelease b
      (Move.message (Step.goal (.bin b .release) r) t) := by
  cases hValue : t.value? with
  | none =>
      simp [Move.message, Move.interpolate, hValue] at hNumber
  | some value =>
      constructor <;>
        simp [Move.message, Move.interpolate, hValue, Step.goal,
          MovePorts.goal, Step.ports, PosePorts.atBin, Port.at_]

/- A message that opens a closed gripper is at a place. -/
def Numbered : Event K → List (Event K) → Prop
| .commanded pose, earlier =>
    pose.grip = "open" → Closed (lastCommand earlier) →
      pose.x ≠ none
| _, _ => True

/- The errand of holding something. -/
def holding (K : Type) [Field K] : Errand K where
  Begun := Closed
  Cond := fun event earlier =>
    Carried event earlier ∧ Numbered event earlier
  Good := Released
  strays := False
  during := Step.Holds

omit [LinearOrder K] in
/- A goal of the arm, from its first message to its last. -/
theorem holding_move
    (h : List (Event K))
    (r : ApproachResult K) (step : Step) (t : Double K)
    (hNumbered :
      Numbered (.commanded (Move.message (step.goal r) t)) h)
    (hHolds : Closed (lastCommand h) → step.Holds) :
    Released (.commanded (Move.message (step.goal r) t)) h ∧
      (Closed (some (Move.message (step.goal r) t)) →
        step.Holds) := by
  constructor
  · intro hOpen hClosed
    have hNumber := hNumbered hOpen hClosed
    rw [message_grip] at hOpen
    rcases release_of_open (hHolds hClosed) hOpen with ⟨b, rfl⟩
    exact ⟨b, atRelease_message hNumber⟩
  · intro hClosed
    by_contra hFree
    refine not_closed_of_open ?_ hClosed
    rw [message_grip]
    cases step with
    | pick step =>
        cases step with
        | reach => rfl
        | grasp => exact absurd trivial hFree
        | raise => exact absurd trivial hFree
    | bin b step =>
        cases step with
        | carry => exact absurd trivial hFree
        | lower => exact absurd trivial hFree
        | release => exact absurd trivial hFree
        | lift => rfl
        | home => rfl

omit [LinearOrder K] in
/- After its last goal a bin has what was held. -/
theorem holding_next
    (r : ApproachResult K) (step : Step)
    (hClosed :
      Closed (some
        (Move.finite (Move.finalPose (step.goal r))))) :
    (holding K).MayStand r.label step.next := by
  have hOpen :
      (step.ports K).grip = "open" →
        (holding K).MayStand r.label step.next :=
    fun hGrip => absurd hClosed (not_closed_of_open hGrip)
  cases step with
  | pick step => cases step <;> trivial
  | bin b step =>
      cases step with
      | carry => trivial
      | lower => trivial
      | release => exact hOpen rfl
      | lift => exact hOpen rfl
      | home => exact hOpen rfl

omit [LinearOrder K] in
theorem holding_valid : (holding K).Valid where
  good := by
    intro h event hCommands _
    cases event <;> first | trivial | exact absurd trivial hCommands
  started := fun _ _ _ => trivial
  published := by
    intro h hNone
    constructor
    · rintro _ ⟨pose, hLast, _⟩
      rw [hNone] at hLast
      cases hLast
    · exact not_closed_of_open rfl
  approach := by
    intro h pose hGrip hStrays
    constructor
    · intro _ hClosed
      exact (hStrays hClosed).elim
    · intro hClosed
      exact absurd hClosed (not_closed_of_open hGrip)
  move := fun h r step t hCond =>
    holding_move h r step t hCond.2
  next := holding_next
  reach := False.elim
  carry := fun _ => trivial
  approach_failed := fun _ _ _ _ => id
  move_failed := fun _ _ _ hCond => hCond.1
  label := fun _ _ hCond => hCond.1

end Opening

------------------------------------------------------------
-- Every Run
------------------------------------------------------------

section Runs

variable [Field K] [LinearOrder K]
variable {A : ApproachServer K S I}
variable {is : List (Input K I)} {s : State K S}

omit [Field K] [LinearOrder K] in
theorem numbered_of_quiet
    {event : Event K}
    (hQuiet : ¬ event.Commands)
    (h : List (Event K)) : Numbered event h := by
  cases event <;> first | trivial | exact absurd trivial hQuiet

omit [Field K] [LinearOrder K] in
theorem numbered_of_finite
    (pose : Pos K) (h : List (Event K)) :
    Numbered (.commanded (Move.finite pose)) h := by
  intro _ _ hNone
  cases hNone

omit [Field K] [LinearOrder K] in
/- The messages of a tick are numbers. -/
theorem Ticked.numbered
    {v w : World K S}
    (hTicked : Ticked v w)
    (hEach : History.Each Numbered v.history) :
    History.Each Numbered w.history := by
  rcases hTicked with ⟨events, hHistory, hEvents⟩
  rw [hHistory]
  clear hHistory
  induction events with
  | nil => exact hEach
  | cons event events ih =>
      refine ⟨?_, ih fun e hMember =>
        hEvents e (List.mem_cons_of_mem _ hMember)⟩
      rcases hEvents event List.mem_cons_self with
        hInner | ⟨pose, rfl⟩
      · exact numbered_of_quiet hInner.1 _
      · exact numbered_of_finite pose _

/- So are those of a step outside the tree. -/
theorem Reaction.numbered
    {t : State K S} {input : EnvInput K I} {w : World K S}
    (hReaction : Reaction A input t.world w)
    (hClocked : Clocked t (.env input))
    (hEach : History.Each Numbered t.world.history) :
    History.Each Numbered w.history := by
  cases hReaction with
  | quiet _ hHistory => rwa [hHistory]
  | started _ _ _ hHistory =>
      rw [hHistory]
      exact ⟨trivial, hEach⟩
  | @moved goal r data time hInput hGoal hData _ _ hHistory =>
      subst hInput
      rw [hHistory]
      refine ⟨?_, hEach⟩
      intro hOpen hClosed hNone
      have hOpens : r.goal.Opens := by
        rw [hData]
        exact hOpen
      apply hClocked r hGoal hOpens hClosed
      simpa [Move.message, Move.interpolate] using hNone
  | ended _ _ hHistory =>
      rw [hHistory]
      exact ⟨trivial, hEach⟩
  | silent _ _ hHistory => rwa [hHistory]
  | published _ _ hHistory =>
      rw [hHistory]
      exact ⟨numbered_of_finite _ _, hEach⟩
  | returned _ _ hHistory =>
      rw [hHistory]
      exact ⟨trivial, hEach⟩

theorem numbered_of_run
    {Allowed : State K S → Input K I → Prop}
    (hClocked : ∀ t i, Allowed t i → Clocked t i)
    (hRun :
      ((machine A).restrict Allowed).Run (.init A) is s) :
    History.Each Numbered s.world.history := by
  apply hRun.invariant (P := fun s =>
    History.Each Numbered s.world.history)
  · exact trivial
  · intro t i u hEach hEnabled hStep
    rcases hEnabled with ⟨hEnabled, hAllowed⟩
    change step A t i = .ok u at hStep
    cases i with
    | tick =>
        rcases bind_eq_ok.mp hStep with
          ⟨⟨r, tree, world⟩, hTick, hReturn⟩
        cases hReturn
        exact (ticked_of_rootTick hTick).numbered hEach
    | env input =>
        rcases Option.isSome_iff_exists.mp hEnabled with
          ⟨w, hReact⟩
        simp only [step, hReact] at hStep
        cases hStep
        exact (reaction_of_react hReact).numbered
          (hClocked t _ hAllowed) hEach

/-
  In every run without late messages in which what is gripped
  is carried, the gripper opens at a bin.
-/
theorem released_at_bin
    (hRun :
      ((machine A).restrict fun s i =>
        Timely A s i ∧ Clocked s i).Run (.init A) is s)
    (hPatient : Patient s.world.history)
    (hCarried : History.Each Carried s.world.history) :
    History.Each Released s.world.history := by
  apply Errand.run_good holding_valid (fun _ _ h => h.1) hRun
    hPatient
  exact hCarried.and (numbered_of_run (fun _ _ h => h.2) hRun)

end Runs

/- A can that reaches its bin. -/
theorem released_at_bin_cola :
    ∃ s : State ℚ (List Nat),
      s.world.goals.length = 9 ∧
        History.Each Released s.world.history := by
  have hExec :
      (((machine (anyServer ℚ)).restrict fun s i =>
        Timely (anyServer ℚ) s i ∧ Clocked s i).exec
          (.init (anyServer ℚ)) colaRun).any
        (fun s =>
          s.world.history.all Event.inTime &&
            decide (s.world.goals.length = 9 ∧
              History.Each Carried s.world.history)) =
        true := by
    decide +kernel
  rcases Machine.exists_run_of_exec hExec with ⟨s, hRun, hTest⟩
  rw [Bool.and_eq_true, decide_eq_true_eq] at hTest
  rcases hTest with ⟨hInTime, hSent, hCarried⟩
  exact ⟨s, hSent,
    released_at_bin hRun (patient_of_inTime hInTime) hCarried⟩

/-
  A target that no bin takes is picked up. The next approach
  opens the gripper where it starts.
-/
def appleRun : List (Input ℚ (Approach.Input ℚ)) :=
  bootRun ++ findRun 0 0 "apple" ++ moveRun 1 ++ moveRun 2 ++
    [Input.env (.timer .grasped), .tick] ++ moveRun 3 ++
      [Input.env (.timer .cycle), .tick] ++ acceptRun 4 ++
        [Input.env (.approach Approach.Input.timer)]

theorem released_elsewhere :
    ¬ ∀ (is : List (Input ℚ (Approach.Input ℚ)))
        (s : State ℚ (ApproachNode ℚ)),
      (machine (approachServer level 0)).Run
          (.init (approachServer level 0)) is s →
        History.Each Released s.world.history := by
  intro hClaim
  have hExec :
      ((machine (approachServer level 0)).exec
          (.init (approachServer level 0)) appleRun).any
        (fun s =>
          decide (¬ History.Each Released s.world.history)) =
        true := by
    decide +kernel
  rcases Machine.exists_run_of_exec hExec with ⟨s, hRun, hTest⟩
  exact of_decide_eq_true hTest (hClaim _ s hRun)

end Mission

end Manipulator
