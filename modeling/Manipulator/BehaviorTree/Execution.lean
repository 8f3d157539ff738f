import Manipulator.BehaviorTree.Node

/-
  What a tree does over many ticks.

  The engine spreads one execution of a tree over any number
  of ticks, with steps of the environment between them, and
  keeps its place in the statuses and indices of the nodes.
  `Exec` says the same without the place: it composes the
  executions of the leaves as the classes of the nodes
  prescribe. `Resumes` relates the two: it says which states
  of the nodes belong to which point of an execution.

  Main declarations:
    * `ActionRun`, `Attempts`, `TreeNode.Exec`
    * `TreeNode.Resumes`
    * `TreeNode.Resumes.env`, `TreeNode.Resumes.exec`
-/

------------------------------------------------------------
-- Executions
------------------------------------------------------------

namespace Manipulator

namespace BT

/- How far an execution has come. -/
inductive Outcome where
| running
| success
| failure
| threw
deriving DecidableEq, Repr

/- The outcome of a completed status. -/
def NodeStatus.outcome? : NodeStatus → Option Outcome
| .success => some .success
| .failure => some .failure
| _ => none

/-
  The surroundings of a tree: `Env` is one step of the rest
  of the world between two ticks, and `Guard` is what may be
  assumed of the world when the root is ticked.
-/
structure Surroundings (W : Type) where
  Env : W → W → Prop
  Guard : W → Prop

variable {A C W ε : Type}

/- The outcome of one tick of a leaf. -/
inductive LeafTick :
    Except ε (NodeStatus × W) → Outcome → W → Prop where
| running {w : W} : LeafTick (.ok (.running, w)) .running w
| success {w : W} : LeafTick (.ok (.success, w)) .success w
| failure {w : W} : LeafTick (.ok (.failure, w)) .failure w
| threw {e : ε} {w : W} : LeafTick (.error e) .threw w

/-
  The execution of a leaf: a first tick, then steps of the
  environment and further ticks while it is running.
-/
inductive ActionRun
    (M : NodeModel A C W ε)
    (X : Surroundings W)
    (a : A)
    (w₀ : W) : Outcome → W → Prop where
| start
    {o : Outcome} {w : W}
    (hTick : LeafTick (M.tick a .idle w₀) o w) :
    ActionRun M X a w₀ o w
| env
    {w₁ w₂ : W}
    (hRun : ActionRun M X a w₀ .running w₁)
    (hEnv : X.Env w₁ w₂) :
    ActionRun M X a w₀ .running w₂
| resume
    {o : Outcome} {w₁ w : W}
    (hRun : ActionRun M X a w₀ .running w₁)
    (hGuard : X.Guard w₁)
    (hTick : LeafTick (M.tick a .running w₁) o w) :
    ActionRun M X a w₀ o w

/-
  What lies between the start of a retry node and the start
  of one of its attempts: failed attempts, steps of the
  environment and wake-up signals.
-/
inductive Attempts
    (M : NodeModel A C W ε)
    (X : Surroundings W)
    (run : W → Outcome → W → Prop)
    (w₀ : W) : W → Prop where
| refl : Attempts M X run w₀ w₀
| fail
    {w₁ w : W}
    (hAttempts : Attempts M X run w₀ w₁)
    (hRun : run w₁ .failure w) :
    Attempts M X run w₀ w
| wake
    {w : W}
    (hAttempts : Attempts M X run w₀ w) :
    Attempts M X run w₀ (M.emitWakeUpSignal w)
| env
    {w₁ w : W}
    (hAttempts : Attempts M X run w₀ w₁)
    (hEnv : X.Env w₁ w) :
    Attempts M X run w₀ w

/- The execution of a retry node over its attempts. -/
def RetryRun
    (M : NodeModel A C W ε)
    (X : Surroundings W)
    (run : W → Outcome → W → Prop)
    (maxAttempts : Int)
    (w₀ : W)
    (o : Outcome)
    (w : W) : Prop :=
  ∃ w₁, Attempts M X run w₀ w₁ ∧
    match o with
    | .running => run w₁ .running w ∨ w = w₁
    | .success => run w₁ .success w
    | .failure => w = w₁ ∧ maxAttempts ≠ -1
    | .threw => run w₁ .threw w

/- The execution of a precondition node. -/
def PreconditionRun
    (M : NodeModel A C W ε)
    (run : W → Outcome → W → Prop)
    (script : C)
    (elseReturn : NodeStatus)
    (w₀ : W)
    (o : Outcome)
    (w : W) : Prop :=
  (∃ w₁, M.executor script w₀ = .ok (true, w₁) ∧
      run w₁ o w) ∨
    (M.executor script w₀ = .ok (false, w) ∧
      elseReturn.outcome? = some o) ∨
    (∃ e, M.executor script w₀ = .error e ∧ o = .threw)

namespace TreeNode

mutual

/- `Exec M X t w₀ o w`: `t`, started in `w₀`, is at `w`. -/
def Exec
    (M : NodeModel A C W ε)
    (X : Surroundings W) :
    TreeNode A C → W → Outcome → W → Prop
| .action a => ActionRun M X a
| .sequence children => ExecAll M X children
| .retry maxAttempts child =>
    RetryRun M X (Exec M X child) maxAttempts
| .precondition script elseReturn child =>
    PreconditionRun M (Exec M X child) script elseReturn

/- The children one after the other, while they succeed. -/
def ExecAll
    (M : NodeModel A C W ε)
    (X : Surroundings W) :
    List (TreeNode A C) → W → Outcome → W → Prop
| [] => fun w₀ o w => o = .success ∧ w = w₀
| child :: children => fun w₀ o w =>
    (o ≠ .success ∧ Exec M X child w₀ o w) ∨
      ∃ w₁, Exec M X child w₀ .success w₁ ∧
        ExecAll M X children w₁ o w

end

------------------------------------------------------------
-- Resumable States
------------------------------------------------------------

mutual

/-
  `Resumes M X t w₀ s w`: the state `s` is where `t`, started
  in `w₀` and now at `w`, was left RUNNING.
-/
def Resumes
    (M : NodeModel A C W ε)
    (X : Surroundings W) :
    (t : TreeNode A C) → W → State t → W → Prop
| .action a => fun w₀ s w =>
    s = .running ∧ ActionRun M X a w₀ .running w
| .sequence children => fun w₀ s w =>
    s.status = .running ∧ s.skippedCount = 0 ∧
      ResumesAt M X children w₀ s.currentChildIdx s.children w
| .retry maxAttempts child => fun w₀ s w =>
    s.status = .running ∧
      (s.tryCount < maxAttempts ∨ maxAttempts = -1) ∧
      ((s.child = idle child ∧
          Attempts M X (Exec M X child) w₀ w) ∨
        ∃ w₁, Attempts M X (Exec M X child) w₀ w₁ ∧
          Resumes M X child w₁ s.child w)
| .precondition script _ child => fun w₀ s w =>
    s.status = .running ∧ s.childrenRunning = true ∧
      ∃ w₁, M.executor script w₀ = .ok (true, w₁) ∧
        Resumes M X child w₁ s.child w

/-
  The child with index `idx` is running: those before it have
  succeeded, those after it were not started.
-/
def ResumesAt
    (M : NodeModel A C W ε)
    (X : Surroundings W) :
    (ts : List (TreeNode A C)) → W → Nat → States ts → W →
      Prop
| [] => fun _ _ _ _ => False
| child :: children => fun w₀ idx s w =>
    match idx with
    | 0 => Resumes M X child w₀ s.1 w ∧ s.2 = idles children
    | idx + 1 =>
        s.1 = setStatus .success child (idle child) ∧
          ∃ w₁, Exec M X child w₀ .success w₁ ∧
            ResumesAt M X children w₁ idx s.2 w

end

/- No child is running, and none has a place to keep. -/
def Settled :
    (ts : List (TreeNode A C)) → States ts → Prop
| [], _ => True
| child :: children, s =>
    (∃ r, r ≠ .running ∧ s.1 = setStatus r child (idle child)) ∧
      Settled children s.2

mutual

/-
  Sequences have children, and the status that replaces a
  precondition's child is a completed one.
-/
def WellFormed : TreeNode A C → Prop
| .action _ => True
| .sequence children => children ≠ [] ∧ AllWellFormed children
| .retry _ child => WellFormed child
| .precondition _ elseReturn child =>
    elseReturn.isCompleted ∧ WellFormed child

def AllWellFormed : List (TreeNode A C) → Prop
| [] => True
| child :: children => WellFormed child ∧ AllWellFormed children

end

------------------------------------------------------------
-- Statuses And Resets
------------------------------------------------------------

@[simp] theorem status_setStatus
    (r : NodeStatus) (t : TreeNode A C) (s : State t) :
    status t (setStatus r t s) = r := by
  cases t <;> rfl

@[simp] theorem setStatus_setStatus
    (r q : NodeStatus) (t : TreeNode A C) (s : State t) :
    setStatus r t (setStatus q t s) = setStatus r t s := by
  cases t <;> rfl

@[simp] theorem status_idle (t : TreeNode A C) :
    status t (idle t) = .idle := by
  cases t <;> rfl

@[simp] theorem resetStatus_setStatus
    (r : NodeStatus) (t : TreeNode A C) (s : State t) :
    resetStatus t (setStatus r t s) = resetStatus t s :=
  setStatus_setStatus _ _ _ _

@[simp] theorem resetStatus_idle (t : TreeNode A C) :
    resetStatus t (idle t) = idle t := by
  cases t <;> rfl

/- A settled child is IDLE again after a reset. -/
theorem resetChild_settled
    (M : NodeModel A C W ε)
    (t : TreeNode A C)
    {r : NodeStatus}
    (hStatus : r ≠ .running)
    (w : W) :
    resetChild M t (setStatus r t (idle t)) w = (idle t, w) := by
  simp [resetChild, hStatus]

/- Settled children are IDLE again after a reset. -/
theorem resetChildren_settled
    (M : NodeModel A C W ε)
    (ts : List (TreeNode A C))
    {ss : States ts}
    (hSettled : Settled ts ss)
    (w : W) :
    resetChildren M ts ss w = (idles ts, w) := by
  induction ts generalizing w with
  | nil => rfl
  | cons child children ih =>
      obtain ⟨s, ss⟩ := ss
      obtain ⟨⟨r, hStatus, hState⟩, hRest⟩ := hSettled
      simp only at hState
      subst hState
      simp [resetChildren, hStatus, ih hRest, idles]

/- Children that were not started are settled. -/
theorem settled_idles (ts : List (TreeNode A C)) :
    Settled ts (idles ts) := by
  induction ts with
  | nil => exact trivial
  | cons child children ih =>
      refine ⟨⟨.idle, by simp, ?_⟩, ih⟩
      exact (resetStatus_idle child).symm

@[simp] theorem resetCompletedChild_idle (t : TreeNode A C) :
    resetCompletedChild t (idle t) = idle t := by
  simp [resetCompletedChild, NodeStatus.isCompleted]

/- A running child is not reset by its decorator. -/
theorem resetCompletedChild_of_running
    (t : TreeNode A C)
    {s : State t}
    (hStatus : status t s = .running) :
    resetCompletedChild t s = s := by
  simp [resetCompletedChild, hStatus, NodeStatus.isCompleted]

------------------------------------------------------------
-- The Environment Between Ticks
------------------------------------------------------------

variable {M : NodeModel A C W ε} {X : Surroundings W}

/- A resumable node is RUNNING. -/
theorem Resumes.status
    {t : TreeNode A C} {w₀ w : W} {s : State t}
    (hResumes : Resumes M X t w₀ s w) :
    status t s = .running := by
  cases t with
  | action a => exact hResumes.1
  | sequence children => exact hResumes.1
  | retry maxAttempts child => exact hResumes.1
  | precondition script elseReturn child => exact hResumes.1

mutual

/- A resumable state survives a step of the environment. -/
theorem Resumes.env
    {w w' : W}
    (hEnv : X.Env w w') :
    (t : TreeNode A C) → {w₀ : W} → {s : State t} →
      Resumes M X t w₀ s w → Resumes M X t w₀ s w'
| .action _, _, _, ⟨hStatus, hRun⟩ =>
    ⟨hStatus, .env hRun hEnv⟩
| .sequence children, _, _, ⟨hStatus, hSkipped, hAt⟩ =>
    ⟨hStatus, hSkipped, ResumesAt.env hEnv children hAt⟩
| .retry _ child, _, _, ⟨hStatus, hLoop, hChild⟩ => by
    refine ⟨hStatus, hLoop, ?_⟩
    rcases hChild with ⟨hIdle, hAttempts⟩ | ⟨w₁, hAttempts, hRun⟩
    · exact .inl ⟨hIdle, .env hAttempts hEnv⟩
    · exact .inr ⟨w₁, hAttempts, Resumes.env hEnv child hRun⟩
| .precondition _ _ child, _, _,
    ⟨hStatus, hRunning, w₁, hScript, hRun⟩ =>
    ⟨hStatus, hRunning, w₁, hScript,
      Resumes.env hEnv child hRun⟩

theorem ResumesAt.env
    {w w' : W}
    (hEnv : X.Env w w') :
    (ts : List (TreeNode A C)) → {w₀ : W} → {idx : Nat} →
      {ss : States ts} →
      ResumesAt M X ts w₀ idx ss w →
        ResumesAt M X ts w₀ idx ss w'
| [], _, _, _, hAt => hAt.elim
| child :: _, _, 0, _, ⟨hRun, hIdle⟩ =>
    ⟨Resumes.env hEnv child hRun, hIdle⟩
| _ :: children, _, _ + 1, _, ⟨hDone, w₁, hExec, hAt⟩ =>
    ⟨hDone, w₁, hExec, ResumesAt.env hEnv children hAt⟩

end

mutual

/- A resumable state is a running execution. -/
theorem Resumes.exec :
    (t : TreeNode A C) → {w₀ w : W} → {s : State t} →
      Resumes M X t w₀ s w → Exec M X t w₀ .running w
| .action _, _, _, _, hRun => hRun.2
| .sequence children, _, _, _, ⟨_, _, hAt⟩ =>
    ResumesAt.exec children hAt
| .retry _ child, _, w, _, ⟨_, _, hChild⟩ => by
    rcases hChild with ⟨_, hAttempts⟩ | ⟨w₁, hAttempts, hRun⟩
    · exact ⟨w, hAttempts, .inr rfl⟩
    · exact ⟨w₁, hAttempts, .inl (Resumes.exec child hRun)⟩
| .precondition _ _ child, _, _, _,
    ⟨_, _, w₁, hScript, hRun⟩ =>
    .inl ⟨w₁, hScript, Resumes.exec child hRun⟩

theorem ResumesAt.exec :
    (ts : List (TreeNode A C)) → {w₀ w : W} → {idx : Nat} →
      {ss : States ts} →
      ResumesAt M X ts w₀ idx ss w →
        ExecAll M X ts w₀ .running w
| [], _, _, _, _, hAt => hAt.elim
| child :: _, _, _, 0, _, ⟨hRun, _⟩ =>
    .inl ⟨by simp, Resumes.exec child hRun⟩
| _ :: children, _, _, _ + 1, _, ⟨_, w₁, hExec, hAt⟩ =>
    .inr ⟨w₁, hExec, ResumesAt.exec children hAt⟩

end

end TreeNode

end BT

end Manipulator
