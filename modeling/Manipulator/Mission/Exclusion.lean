import Manipulator.Mission.DataFlow

/-
  The arm has one driver, unless a node gave up on a goal.

  A node whose goal response is late reports a failure and
  forgets its goal, and the next cycle begins. The request is
  still on its way, and nothing recalls it.

  Main declarations:
    * `OneDriver`
    * `one_driver_of_patient`
    * `two_drivers`
-/

------------------------------------------------------------
-- Patient Runs
------------------------------------------------------------

namespace Manipulator

namespace Mission

variable {K S I : Type}

/- No two goals execute that publish on `pose_data`. -/
def OneDriver (w : World K S) : Prop :=
  ∀ (goal goal' : Nat) (r r' : GoalRecord K),
    w.goals[goal]? = some r → w.goals[goal']? = some r' →
      r.goal.Arm → r'.goal.Arm →
        r.Executing → r'.Executing → goal = goal'

theorem GoalRecord.Executing.alive
    {r : GoalRecord K}
    (hExecuting : r.Executing) : r.Alive := by
  rcases hExecuting with ⟨left, hStage⟩
  exact alive_of_executing hStage

section Runs

variable [Field K] [LinearOrder K]
variable {A : ApproachServer K S I} {o : Outline K}
variable {late : Prop}

omit [Field K] [LinearOrder K] in
/-
  While a node waits, the arm has at most the goal of that
  node, and between two goals it has none.
-/
theorem armAlive_unique
    {w : World K S} {goal goal' : Nat}
    (hSafe : Outline.Safe A late o w)
    (hPatient : Patient w.history)
    (hAlive : ArmAlive w goal)
    (hAlive' : ArmAlive w goal') : goal = goal' := by
  rcases hSafe with hRest | ⟨n, mine, data, hBusy⟩
  · exact absurd hAlive (hRest.free hPatient goal)
  · have hMine := hBusy.alone hPatient goal hAlive
    have hMine' := hBusy.alone hPatient goal' hAlive'
    exact hMine.trans hMine'.symm

/-
  The arm has one driver as long as no node gives up on a
  goal of the arm that has not ended.
-/
theorem one_driver_of_patient
    {is : List (Input K I)} {s : State K S}
    (hRun : (machine A).Run (.init A) is s)
    (hPatient : Patient s.world.history) :
    OneDriver s.world := by
  have hSafe := Outline.run_safe (dataFlow_valid True) hRun
  intro goal goal' r r' hGoal hGoal' hArm hArm' hRuns hRuns'
  exact armAlive_unique hSafe hPatient
    ⟨r, hGoal, hArm, hRuns.alive⟩
    ⟨r', hGoal', hArm', hRuns'.alive⟩

end Runs

/- A move goal that executes in a patient run. -/
theorem one_driver_of_patient_move :
    ∃ s : State ℚ (List Nat),
      (∃ r, s.world.goals[1]? = some r ∧ r.Executing) ∧
        Patient s.world.history ∧ OneDriver s.world := by
  have hExec :
      ((machine (anyServer ℚ)).exec (.init (anyServer ℚ))
          (bootRun ++
            approachRun 0 ⟨230, 50, 40, 10, "cola", true⟩ ++
              acceptRun 1)).any
        (fun s =>
          s.world.history.all Event.inTime &&
            s.world.goals[1]?.any (·.stage.isExecuting)) =
        true := by
    decide +kernel
  rcases Machine.exists_run_of_exec hExec with ⟨s, hRun, hTest⟩
  rw [Bool.and_eq_true] at hTest
  have hPatient := patient_of_inTime hTest.1
  rcases (Option.any_eq_true _ _).mp hTest.2 with
    ⟨r, hGoal, hStage⟩
  exact
    ⟨s, ⟨r, hGoal, GoalRecord.executing_of_stage hStage⟩,
      hPatient, one_driver_of_patient hRun hPatient⟩

------------------------------------------------------------
-- A Late Goal
------------------------------------------------------------

/- A target that is right where it should be. -/
def centered (label : String) : BoundingBox ℚ where
  xyxy := [220, 260, 260, 300]
  labels := [label]
  confidence := [1]
  angles := [0]
  hasBox := true

def level : Approach.Trig ℚ := ⟨fun _ _ => 0, 1⟩

/-
  The approach node finds a target for a goal, which is its
  `own` goal of another number.
-/
def findRun
    (goal own : Nat) (label : String) :
    List (Input ℚ (Approach.Input ℚ)) :=
  acceptRun goal ++
    [Input.env
      (.approach (Approach.Input.boundingBox (centered label)))] ++
      List.replicate 6
          (Input.env (.approach Approach.Input.timer)) ++
        [Input.env (.approach (Approach.Input.finish own))] ++
          resultRun goal

/-
  The response of the first approach goal is late. The next
  approach finds a can and the arm moves to it; now the first
  goal reaches the approach node.
-/
def lateRun : List (Input ℚ (Approach.Input ℚ)) :=
  bootRun ++
    [Input.env (.observe (fun _ => true) true), .tick] ++
      findRun 1 0 "cola" ++
        [Input.env (.accept 2), .env (.accept 0)]

/- An approach goal and a move goal execute at once. -/
theorem two_drivers :
    ¬ ∀ (is : List (Input ℚ (Approach.Input ℚ)))
        (s : State ℚ (ApproachNode ℚ)),
      (machine (approachServer level 0)).Run
          (.init (approachServer level 0)) is s →
        OneDriver s.world := by
  intro hClaim
  have hExec :
      ((machine (approachServer level 0)).exec
          (.init (approachServer level 0)) lateRun).any
        (fun s =>
          s.world.goals[0]?.any (fun r =>
              decide (r.goal.actionName = .approach) &&
                r.stage.isExecuting) &&
            s.world.goals[2]?.any (fun r =>
              decide (r.goal.actionName = .move) &&
                r.stage.isExecuting)) =
        true := by
    decide +kernel
  rcases Machine.exists_run_of_exec hExec with ⟨s, hRun, hTest⟩
  rw [Bool.and_eq_true] at hTest
  rcases (Option.any_eq_true _ _).mp hTest.1 with
    ⟨r, hGoal, hApproach⟩
  rcases (Option.any_eq_true _ _).mp hTest.2 with
    ⟨r', hGoal', hMove⟩
  rw [Bool.and_eq_true, decide_eq_true_eq] at hApproach hMove
  have hSame : 0 = 2 := by
    apply hClaim _ s hRun 0 2 r r' hGoal hGoal'
    · simp [Goal.Arm, hApproach.1]
    · simp [Goal.Arm, hMove.1]
    · exact GoalRecord.executing_of_stage hApproach.2
    · exact GoalRecord.executing_of_stage hMove.2
  cases hSame

end Mission

end Manipulator
