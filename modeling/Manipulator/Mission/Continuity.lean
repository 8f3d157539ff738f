import Manipulator.Mission.Landing

/-
  Where the goals of the arm start.

  The start of a move goal is written by hand in the tree. It
  is the end of the goal before, and after an approach it is
  the pose that the approach reports, but for one height: the
  first goal of a pick starts at 70, where the approach has
  sent the arm to 40.

  Main declarations:
    * `StartsAt`, `StartsThere`, `EndsAt`, `Point.Stands`
    * `continuity`, `continuity_valid`
    * `moves_continue`, `move_starts_at_last_iff`
    * `move_starts_elsewhere`
-/

------------------------------------------------------------
-- Starts And Ends
------------------------------------------------------------

namespace Manipulator

namespace Mission

variable {K S I : Type}

/- The goal starts where the last message is. -/
def StartsAt
    (data : MoveGoal K) (last : Option (Pos (Option K))) :
    Prop :=
  ∃ pose, last = some pose ∧ pose.x = some data.sX ∧
    pose.y = some data.sY ∧ pose.z = some data.sZ ∧
      pose.yaw = some data.sYaw

instance
    [DecidableEq K]
    (data : MoveGoal K) :
    (last : Option (Pos (Option K))) →
      Decidable (StartsAt data last)
| none =>
    .isFalse fun hStarts => by
      rcases hStarts with ⟨pose, hNone, _⟩
      cases hNone
| some pose =>
    decidable_of_iff
      (pose.x = some data.sX ∧ pose.y = some data.sY ∧
        pose.z = some data.sZ ∧ pose.yaw = some data.sYaw)
      ⟨fun hStarts => ⟨pose, rfl, hStarts⟩, fun hStarts => by
        rcases hStarts with ⟨other, hSame, hStarts⟩
        cases hSame
        exact hStarts⟩

/- A goal of the arm starts where the last message is. -/
def StartsThere : Event K → List (Event K) → Prop
| .sent _ (.move _) (.move data), earlier =>
    StartsAt data (lastCommand earlier)
| _, _ => True

instance
    [DecidableEq K]
    (event : Event K) (earlier : List (Event K)) :
    Decidable (StartsThere event earlier) :=
  match event with
  | .sent _ (.move _) (.move data) =>
      inferInstanceAs
        (Decidable (StartsAt data (lastCommand earlier)))
  | .sent _ (.move _) .approach => .isTrue trivial
  | .sent _ (.move _) .conveyor => .isTrue trivial
  | .sent _ .approach _ => .isTrue trivial
  | .sent _ .conveyor _ => .isTrue trivial
  | .cycleBegan => .isTrue trivial
  | .read _ _ => .isTrue trivial
  | .readLabel _ => .isTrue trivial
  | .failed _ _ => .isTrue trivial
  | .approached _ => .isTrue trivial
  | .started _ _ => .isTrue trivial
  | .commanded _ => .isTrue trivial
  | .ended _ _ _ _ => .isTrue trivial

/- No node fails, and no goal ends but with success. -/
def Event.succeeds : Event K → Bool
| .failed _ _ => false
| .ended _ _ code _ => decide (code = .succeeded)
| _ => true

theorem patient_of_succeeds
    {h : List (Event K)}
    (hSucceed : h.all Event.succeeds = true) : Patient h := by
  apply patient_of_inTime
  rw [List.all_eq_true] at hSucceed ⊢
  intro event hMember
  have hEvent := hSucceed event hMember
  cases event with
  | failed => cases hEvent
  | cycleBegan => rfl
  | read => rfl
  | readLabel => rfl
  | sent => rfl
  | approached => rfl
  | started => rfl
  | commanded => rfl
  | ended => rfl

section Points

variable [Field K]

/- The last message is the end of a goal of the tree. -/
def EndsAt
    (r : ApproachResult K) (step : Step)
    (last : Option (Pos (Option K))) : Prop :=
  last = some (Move.finite (Move.finalPose (step.goal r)))

/- Where the arm was sent to before a goal of the tree. -/
def Step.Stands
    (r : ApproachResult K) :
    Step → Option (Pos (Option K)) → Prop
| .pick .reach => OnTarget r
| .pick .grasp => EndsAt r (.pick .reach)
| .pick .raise => EndsAt r (.pick .grasp)
| .bin _ .carry => EndsAt r (.pick .raise)
| .bin b .lower => EndsAt r (.bin b .carry)
| .bin b .release => EndsAt r (.bin b .lower)
| .bin b .lift => EndsAt r (.bin b .release)
| .bin b .home => EndsAt r (.bin b .lift)

/- What is known of the last message at a point of a cycle. -/
def Point.Stands
    (r : ApproachResult K) :
    Point → Option (Pos (Option K)) → Prop
| .found, last => r.label ≠ "none" → OnTarget r last
| .before step, last => step.Stands r last
| .holding, last => EndsAt r (.pick .raise) last
| _, _ => True

/- The point after a goal is where the goal has ended. -/
theorem EndsAt.stands
    {r : ApproachResult K} {step : Step}
    {last : Option (Pos (Option K))}
    (hEnds : EndsAt r step last) :
    step.next.Stands r last := by
  cases step with
  | pick step => cases step <;> exact hEnds
  | bin b step => cases step <;> first | exact hEnds | trivial

/-
  A goal of the arm starts at the last message; the first one
  of a pick starts above it.
-/
def Continues : Event K → List (Event K) → Prop
| .sent _ (.move step) (.move data), earlier =>
    if step = .pick .reach then
      data.sZ = 70 ∧
        StartsAt { data with sZ := 40 } (lastCommand earlier)
    else StartsAt data (lastCommand earlier)
| _, _ => True

/- The goal that a node sends, by where the arm stands. -/
theorem Step.Stands.continues
    {r : ApproachResult K} {step : Step}
    {h : List (Event K)}
    (hStands : step.Stands r (lastCommand h)) (goal : Nat) :
    Continues
      (.sent goal (.move step) (.move (step.goal r))) h := by
  have hStarts :
      ∀ prior, EndsAt r prior (lastCommand h) →
        (step.goal r).sX = (prior.goal r).gX →
        (step.goal r).sY = (prior.goal r).gY →
        (step.goal r).sZ = (prior.goal r).gZ →
        (step.goal r).sYaw = (prior.goal r).gYaw →
          StartsAt (step.goal r) (lastCommand h) := by
    intro prior hEnds hX hY hZ hYaw
    exact ⟨_, hEnds, congrArg some hX.symm,
      congrArg some hY.symm, congrArg some hZ.symm,
      congrArg some hYaw.symm⟩
  cases step with
  | pick step =>
      cases step with
      | reach =>
          rcases hStands with
            ⟨pose, hLast, ⟨hX, hY, hZ, hYaw⟩, hHeight⟩
          have hBelow :
              StartsAt
                { (Step.pick .reach).goal r with sZ := 40 }
                (lastCommand h) :=
            ⟨_, hLast, congrArg some hX.symm,
              congrArg some hY.symm, congrArg some hHeight,
              congrArg some hYaw.symm⟩
          exact And.intro rfl hBelow
      | grasp =>
          exact hStarts (.pick .reach) hStands rfl rfl rfl rfl
      | raise =>
          exact hStarts (.pick .grasp) hStands rfl rfl rfl rfl
  | bin b step =>
      cases step with
      | carry =>
          exact hStarts (.pick .raise) hStands rfl rfl rfl rfl
      | lower =>
          exact hStarts (.bin b .carry) hStands rfl rfl rfl rfl
      | release =>
          exact hStarts (.bin b .lower) hStands rfl rfl rfl rfl
      | lift =>
          exact hStarts (.bin b .release) hStands rfl rfl rfl rfl
      | home =>
          exact hStarts (.bin b .lift) hStands rfl rfl rfl rfl

end Points

------------------------------------------------------------
-- The Outline
------------------------------------------------------------

/- A statement, after approaches that ended on their target. -/
abbrev Continuing
    [Field K]
    (P : List (Event K) → Prop) : List (Event K) → Prop :=
  Guarded Reported Continues P

/- The approach of this number has ended on its target. -/
def Aimed
    [Field K] (goal : Nat) (h : List (Event K)) : Prop :=
  ∀ r, .ended goal .approach .succeeded r ∈ h →
    r.label ≠ "none" → OnTarget r (lastCommand h)

def continuity (K : Type) [Field K] : Outline K where
  boot := Continuing fun _ => True
  cycle := Continuing fun _ => True
  approaching := fun goal => Continuing (Aimed goal)
  at_ := fun r p => Continuing fun h => p.Stands r (lastCommand h)
  moving := fun _ _ => Continuing fun _ => True
  conveying := fun _ => Continuing fun _ => True
  safe := Continuing fun _ => True

section Obligations

variable [Field K]
variable {event : Event K} {h : List (Event K)}
variable {P Q : List (Event K) → Prop}

/- A step of the mission that sends no goal of the arm. -/
theorem continuing_cons
    (hContinuing : Continuing P h)
    (hEvent : ∀ h, Continues event h)
    (hImp : P h → Q (event :: h)) :
    Continuing Q (event :: h) := by
  apply hContinuing.cons
  intro _ hHolds
  exact ⟨hEvent h, hImp hHolds⟩

theorem reads_continuing
    {P : Option (Pos (Option K)) → Prop}
    (p : MovePorts K) (b : Blackboard K)
    (hContinuing : Continuing (fun h => P (lastCommand h)) h) :
    Continuing (fun h => P (lastCommand h)) (p.reads b ++ h) := by
  apply hContinuing.append
  intro event hMember h hHolds
  rcases mem_reads hMember with ⟨key, value, rfl, _⟩
  exact ⟨trivial, hHolds⟩

variable [LinearOrder K]
variable {mine : Option (Nat × Goal K)}

theorem continues_of_emits
    {goal : Nat} {data : Goal K}
    (hEmits : Emits h goal data event) : Continues event h := by
  cases hEmits with
  | started => trivial
  | moved => trivial
  | published => trivial
  | ended => trivial

theorem true_steady :
    Steady False mine (Continuing (K := K) fun _ => True) := by
  apply Guarded.steady_inTime
  intro h goal data event _ hEmits _ _
  exact ⟨continues_of_emits hEmits, trivial⟩

/- An approach that has ended publishes no more. -/
theorem aimed_steady (goal : Nat) :
    Steady False (some (goal, .approach))
      (Continuing (K := K) (Aimed goal)) := by
  apply Guarded.steady_inTime
  intro h other data event hArm hEmits hReported hAimed
  refine ⟨continues_of_emits hEmits, ?_⟩
  intro r hMember hLabel
  cases hEmits with
  | started hNew =>
      rcases List.mem_cons.mp hMember with hHead | hMember
      · cases hHead
      · exact hAimed r hMember hLabel
  | @moved move t =>
      have hMoves : (Goal.move move).Arm := by
        simp [Goal.Arm, Goal.actionName]
      cases hArm hMoves
  | published _ _ hOpen =>
      have hMoves : (Goal.approach (K := K)).Arm := by
        simp [Goal.Arm, Goal.actionName]
      cases hArm hMoves
      rcases List.mem_cons.mp hMember with hHead | hMember
      · cases hHead
      · exact absurd hMember (hOpen _ _)
  | ended =>
      rcases List.mem_cons.mp hMember with hHead | hMember
      · simp only [Event.ended.injEq] at hHead
        rcases hHead with ⟨_, hAction, _, rfl⟩
        rw [← hAction] at hReported
        exact hReported hLabel
      · exact hAimed r hMember hLabel

end Obligations

theorem continuity_valid
    [Field K] [LinearOrder K] : (continuity K).Valid False where
  boot := ⟨fun _ _ => ⟨trivial, trivial⟩⟩
  boot_steady := true_steady
  publish := fun h hBoot =>
    continuing_cons hBoot (fun _ => trivial) id
  cycle_steady := true_steady
  approach_sent := by
    intro h goal hCycle hNew
    apply continuing_cons (P := fun _ => True)
    · exact continuing_cons hCycle (fun _ => trivial) id
    · exact fun _ => trivial
    · intro _ r hMember
      have hEnded : .ended goal .approach .succeeded r ∈ h := by
        simpa using hMember
      exact absurd ⟨_, _, _, hEnded⟩ hNew
  approach_unreachable := fun h hCycle =>
    continuing_cons (P := fun _ => True)
      (continuing_cons hCycle (fun _ => trivial) id)
      (fun _ => trivial) id
  approach_steady := aimed_steady
  approach_failed := fun h goal error hAimed =>
    continuing_cons hAimed (fun _ => trivial) fun _ => trivial
  approach_found := fun h goal r hAimed hEnded =>
    continuing_cons hAimed (fun _ => trivial) fun hAimed =>
      hAimed r hEnded
  at_steady := fun r p =>
    Guarded.last_steady (p.Stands r) fun _ _ _ _ hEmits _ =>
      continues_of_emits hEmits
  pick := fun h r hLabel hAt =>
    continuing_cons hAt (fun _ => trivial) fun hFound =>
      hFound hLabel
  noPick := fun h r hNone hAt =>
    continuing_cons hAt (fun _ => trivial) fun _ => trivial
  move_sent := by
    intro h r step goal hAt
    apply (reads_continuing (step.ports K) (found r) hAt).cons
    intro _ hStands
    exact ⟨Step.Stands.continues hStands goal, trivial⟩
  move_unreachable := by
    intro h r step hAt
    exact continuing_cons
      (reads_continuing (step.ports K) (found r) hAt)
      (fun _ => trivial) fun _ => trivial
  move_steady := fun r step goal => true_steady
  move_failed := fun h r step error hMoving =>
    continuing_cons hMoving (fun _ => trivial) id
  move_done := by
    intro h r step hMoving hArrived
    apply hMoving.imp
    intro hPatient _
    exact EndsAt.stands (hArrived hPatient id)
  bin := fun h r b _ hAt =>
    continuing_cons hAt (fun _ => trivial) id
  noBin := fun h r b _ hAt =>
    continuing_cons hAt (fun _ => trivial) id
  otherBin := fun h r b hAt =>
    continuing_cons hAt (fun _ => trivial) id
  unknown := fun h r _ hAt => hAt.imp fun _ _ => trivial
  stowed := fun h r b _ hAt => hAt.imp fun _ _ => trivial
  convey := fun h r _ hAt =>
    continuing_cons hAt (fun _ => trivial) id
  noConvey := fun h r _ hAt =>
    continuing_cons hAt (fun _ => trivial) id
  convey_sent := fun h r goal hAt =>
    continuing_cons hAt (fun _ => trivial) id
  convey_unreachable := fun h r hAt =>
    continuing_cons hAt (fun _ => trivial) id
  convey_steady := fun r => true_steady
  convey_failed := fun h r error hConveying =>
    continuing_cons hConveying (fun _ => trivial) id
  convey_done := fun h r hConveying =>
    hConveying.imp fun _ _ => trivial
  closing := fun h r hAt => hAt
  boot_safe := fun h hBoot => hBoot
  cycle_safe := fun h hCycle => hCycle
  approach_safe := fun h goal hAimed =>
    hAimed.imp fun _ _ => trivial
  at_safe := fun h r p hAt => hAt.imp fun _ _ => trivial
  move_safe := fun h r step hMoving => hMoving
  convey_safe := fun h r hConveying => hConveying

------------------------------------------------------------
-- Every Run
------------------------------------------------------------

section Runs

variable [Field K] [LinearOrder K]
variable {trig : Approach.Trig K} {debugMode : Int}
variable {is : List (Input K (ThreadInput K))}
variable {s : State K (OpenNode K)}

/-
  In every orderly run in which no node gives up on a goal,
  the goals of the arm continue where the last message is,
  but for the height of the first one of a pick.
-/
theorem moves_continue
    (hRun :
      ((machine (threadServer trig debugMode)).restrict
        Orderly).Run (.init (threadServer trig debugMode)) is
          s)
    (hPatient : Patient s.world.history) :
    History.Each Continues s.world.history := by
  have hSafe : (continuity K).safe s.world.history :=
    Outline.safe_history
      (Outline.restricted_run_safe continuity_valid
        inTime_of_orderly hRun)
  exact
    (hSafe.holds hPatient (reported_of_run hRun hPatient)).1

end Runs

/- Steps of the approach node. -/
def approachSteps
    (inputs : List (ThreadInput ℚ)) :
    List (Input ℚ (ThreadInput ℚ)) :=
  inputs.map fun i => .env (.approach i)

/- The timer fires, and its callback goes on by `steps`. -/
def callback
    (k steps : Nat) : List (Input ℚ (ThreadInput ℚ)) :=
  approachSteps (.fire :: List.replicate steps (.tick k))

/-
  The first goal of the approach node finds a can, one
  callback after the other.
-/
def canRun : List (Input ℚ (ThreadInput ℚ)) :=
  bootRun ++ acceptRun 0 ++
    approachSteps
      (List.replicate 11 (.goal 0) ++
        [.message (centered "cola")]) ++
      callback 0 32 ++ callback 1 29 ++ callback 2 29 ++
        callback 3 29 ++ callback 4 28 ++ callback 5 17 ++
          approachSteps (List.replicate 9 (.goal 0)) ++
            resultRun 0

end Mission

end Manipulator
