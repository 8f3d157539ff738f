import Manipulator.Mission.Errand
import Manipulator.Mission.Exclusion

/-
  Where an approach starts.

  The approach node assumes that the arm stands at the home
  pose, and commands that pose never. The errand of a cycle
  is to leave home; only the last goal of a bin leads back.

  Main declarations:
    * `Away`, `StartsAtHome`
    * `BroughtBack`
    * `approach_starts_at_home`
    * `approach_starts_elsewhere`
-/

------------------------------------------------------------
-- Home
------------------------------------------------------------

namespace Manipulator

namespace Mission

variable {K S I : Type} [Field K]

/- The message is at the pose that the approach assumes. -/
def AtHome (pose : Pos (Option K)) : Prop :=
  pose.x = some 210 ∧ pose.y = some 40 ∧ pose.z = some 40

/- The last message on `pose_data` is not at home. -/
def Away (last : Option (Pos (Option K))) : Prop :=
  ∀ pose, last = some pose → ¬ AtHome pose

/- An approach goal starts where it assumes to. -/
def StartsAtHome : Event K → List (Event K) → Prop
| .started _ .approach, earlier => ¬ Away (lastCommand earlier)
| _, _ => True

/-
  The arm is brought back: away from home no goal of the arm
  fails, and the labels that are read are those of bins.
-/
def BroughtBack : Event K → List (Event K) → Prop
| .failed .approach _, earlier => ¬ Away (lastCommand earlier)
| .failed (.move _) _, earlier => ¬ Away (lastCommand earlier)
| .readLabel label, earlier =>
    Away (lastCommand earlier) → ∃ b : Bin, label = b.label
| _, _ => True

section Instances

variable [DecidableEq K]

instance (last : Option (Pos (Option K))) :
    Decidable (Away last) :=
  match last with
  | none => .isTrue fun _ hNone => nomatch hNone
  | some pose =>
      decidable_of_iff
        (¬ (pose.x = some 210 ∧ pose.y = some 40 ∧
          pose.z = some 40))
        ⟨fun hAway _ hPose => Option.some.inj hPose ▸ hAway,
          fun hAway => hAway pose rfl⟩

instance (event : Event K) (earlier : List (Event K)) :
    Decidable (StartsAtHome event earlier) :=
  match event with
  | .started _ .approach =>
      inferInstanceAs (Decidable (¬ Away (lastCommand earlier)))
  | .started _ .move => .isTrue trivial
  | .started _ .conveyor => .isTrue trivial
  | .cycleBegan => .isTrue trivial
  | .read _ _ => .isTrue trivial
  | .readLabel _ => .isTrue trivial
  | .sent _ _ _ => .isTrue trivial
  | .failed _ _ => .isTrue trivial
  | .approached _ => .isTrue trivial
  | .commanded _ => .isTrue trivial
  | .ended _ _ _ _ => .isTrue trivial

instance (event : Event K) (earlier : List (Event K)) :
    Decidable (BroughtBack event earlier) :=
  match event with
  | .failed .approach _ =>
      inferInstanceAs (Decidable (¬ Away (lastCommand earlier)))
  | .failed (.move _) _ =>
      inferInstanceAs (Decidable (¬ Away (lastCommand earlier)))
  | .readLabel label =>
      inferInstanceAs (Decidable
        (Away (lastCommand earlier) →
          ∃ b : Bin, label = b.label))
  | .failed .conveyor _ => .isTrue trivial
  | .started _ _ => .isTrue trivial
  | .cycleBegan => .isTrue trivial
  | .read _ _ => .isTrue trivial
  | .sent _ _ _ => .isTrue trivial
  | .approached _ => .isTrue trivial
  | .commanded _ => .isTrue trivial
  | .ended _ _ _ _ => .isTrue trivial

end Instances

------------------------------------------------------------
-- The Errand
------------------------------------------------------------

/- The errand of leaving home. -/
def leaving (K : Type) [Field K] : Errand K where
  Begun := Away
  Cond := BroughtBack
  Good := StartsAtHome
  strays := True
  during := fun _ => True

theorem not_away
    {pose : Pos (Option K)}
    (hHome : AtHome pose) : ¬ Away (some pose) :=
  fun hAway => hAway pose rfl hHome

/- Only the last goal of a bin leads home. -/
theorem leaving_next
    (r : ApproachResult K) (step : Step)
    (hAway :
      Away (some
        (Move.finite (Move.finalPose (step.goal r))))) :
    (leaving K).MayStand r.label step.next := by
  cases step with
  | pick step => cases step <;> trivial
  | bin b step =>
      cases step with
      | carry => trivial
      | lower => trivial
      | release => trivial
      | lift => trivial
      | home => exact absurd hAway (not_away ⟨rfl, rfl, rfl⟩)

theorem leaving_valid : (leaving K).Valid where
  good := by
    intro h event _ hStarted
    cases event with
    | started goal action =>
        cases action with
        | approach => exact absurd rfl (hStarted goal)
        | move => trivial
        | conveyor => trivial
    | cycleBegan => trivial
    | read => trivial
    | readLabel => trivial
    | sent => trivial
    | failed => trivial
    | approached => trivial
    | commanded => trivial
    | ended => trivial
  started := fun _ _ hHome => hHome
  published := fun _ _ => ⟨trivial, not_away ⟨rfl, rfl, rfl⟩⟩
  approach := fun _ _ _ _ => ⟨trivial, fun _ => trivial⟩
  move := fun _ _ _ _ _ _ => ⟨trivial, fun _ => trivial⟩
  next := leaving_next
  reach := fun _ => trivial
  carry := fun _ => trivial
  approach_failed := fun _ _ hBack hAway =>
    absurd hAway hBack
  move_failed := fun _ _ _ hBack => hBack
  label := fun _ _ hBack => hBack

------------------------------------------------------------
-- Every Run
------------------------------------------------------------

/-
  In every run without late messages in which the arm is
  brought back, an approach goal starts with the arm at home.
-/
theorem approach_starts_at_home
    [LinearOrder K]
    {A : ApproachServer K S I}
    {is : List (Input K I)} {s : State K S}
    (hRun :
      ((machine A).restrict (Timely A)).Run (.init A) is s)
    (hPatient : Patient s.world.history)
    (hBack : History.Each BroughtBack s.world.history) :
    History.Each StartsAtHome s.world.history :=
  Errand.run_good leaving_valid (fun _ _ h => h) hRun hPatient
    hBack

/- A can is brought to its bin, and the next approach starts. -/
theorem approach_starts_at_home_cola :
    ∃ s : State ℚ (List Nat),
      (∃ r, s.world.goals[9]? = some r ∧ r.Executing) ∧
        History.Each StartsAtHome s.world.history := by
  have hExec :
      (((machine (anyServer ℚ)).restrict
          (Timely (anyServer ℚ))).exec (.init (anyServer ℚ))
          (colaRun ++
            [Input.env (.timer .cycle), .tick,
              .env (.accept 9)])).any
        (fun s =>
          s.world.history.all Event.inTime &&
            (s.world.goals[9]?.any (·.stage.isExecuting) &&
              decide (History.Each BroughtBack s.world.history))) =
        true := by
    decide +kernel
  rcases Machine.exists_run_of_exec hExec with ⟨s, hRun, hTest⟩
  rw [Bool.and_eq_true, Bool.and_eq_true, decide_eq_true_eq]
    at hTest
  rcases hTest with ⟨hInTime, hStarted, hBack⟩
  rcases (Option.any_eq_true _ _).mp hStarted with
    ⟨r, hGoal, hStage⟩
  exact
    ⟨s, ⟨r, hGoal, GoalRecord.executing_of_stage hStage⟩,
      approach_starts_at_home hRun (patient_of_inTime hInTime)
        hBack⟩

/- A target that lies off the mark. -/
def offMark : BoundingBox ℚ :=
  { centered "cola" with xyxy := [320, 260, 360, 300] }

/-
  The approach node moves towards a target and loses it. The
  conveyor brings the next one, for which the approach starts
  where the arm was left.
-/
def lostRun : List (Input ℚ (Approach.Input ℚ)) :=
  bootRun ++ acceptRun 0 ++
    [Input.env (.approach (Approach.Input.boundingBox offMark)),
      .env (.approach .timer),
      .env (.approach (.boundingBox .default))] ++
      List.replicate 30
          (Input.env (.approach Approach.Input.timer)) ++
        [Input.env (.approach (Approach.Input.finish 0))] ++
          resultRun 0 ++ acceptRun 1 ++
            [Input.env (.succeed 1)] ++ resultRun 1 ++
              [Input.env (.timer .cycle), .tick,
                .env (.accept 2)]

theorem approach_starts_elsewhere :
    ¬ ∀ (is : List (Input ℚ (Approach.Input ℚ)))
        (s : State ℚ (ApproachNode ℚ)),
      (machine (approachServer level 0)).Run
          (.init (approachServer level 0)) is s →
        History.Each StartsAtHome s.world.history := by
  intro hClaim
  have hExec :
      ((machine (approachServer level 0)).exec
          (.init (approachServer level 0)) lostRun).any
        (fun s =>
          decide (¬ History.Each StartsAtHome s.world.history)) =
        true := by
    decide +kernel
  rcases Machine.exists_run_of_exec hExec with ⟨s, hRun, hTest⟩
  exact of_decide_eq_true hTest (hClaim _ s hRun)

end Mission

end Manipulator
