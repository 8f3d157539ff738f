import Manipulator.BehaviorTree.Execution
import Manipulator.Machine

/-
  Leaves that record how they are ticked.

  Observing a model adds to its world a record of the ticks
  of the leaves, the newest one first, and the flag that the
  wake-up signal raises. The observed engine computes what
  the engine computes on the world alone.

  Main declarations:
    * `Ticked`, `Observed`, `NodeModel.observe`
    * `NodeModel.Projects`, `TreeNode.executeTick_project`
    * `TreeNode.rootTick_of_observe`
-/

------------------------------------------------------------
-- Observed Models
------------------------------------------------------------

namespace Manipulator

namespace BT

variable {A C W V ε : Type}

/- One tick of a leaf, with its status before and after. -/
structure Ticked (A : Type) where
  action : A
  before : NodeStatus
  after : NodeStatus

/- `wakeUp` is the flag `ready_` of the wake-up signal. -/
structure Observed (A W : Type) where
  world : W
  ticks : List (Ticked A)
  wakeUp : Bool

namespace NodeModel

def observe (M : NodeModel A C W ε) :
    NodeModel A C (Observed A W) ε where
  tick := fun a s v => do
    let (r, w) ← M.tick a s v.world
    return (r,
      { v with world := w, ticks := ⟨a, s, r⟩ :: v.ticks })
  halt := fun a s v => { v with world := M.halt a s v.world }
  executor := fun script v => do
    let (b, w) ← M.executor script v.world
    return (b, { v with world := w })
  emitWakeUpSignal := fun v =>
    { v with
      world := M.emitWakeUpSignal v.world
      wakeUp := true }

/- What `f` keeps of a world is what `M` makes of it. -/
structure Projects
    (f : V → W)
    (N : NodeModel A C V ε)
    (M : NodeModel A C W ε) : Prop where
  tick :
    ∀ a s v, (N.tick a s v).map (Prod.map id f) =
      M.tick a s (f v)
  halt : ∀ a s v, f (N.halt a s v) = M.halt a s (f v)
  executor :
    ∀ script v, (N.executor script v).map (Prod.map id f) =
      M.executor script (f v)
  emitWakeUpSignal :
    ∀ v, f (N.emitWakeUpSignal v) = M.emitWakeUpSignal (f v)

theorem observe_projects (M : NodeModel A C W ε) :
    Projects Observed.world M.observe M where
  tick := by
    intro a s v
    cases hTick : M.tick a s v.world with
    | error e => simp [observe, hTick, bind, Except.bind, Except.map]
    | ok result =>
        simp [observe, hTick, bind, Except.bind, pure,
          Except.pure, Except.map]
  halt := fun _ _ _ => rfl
  executor := by
    intro script v
    cases hScript : M.executor script v.world with
    | error e =>
        simp [observe, hScript, bind, Except.bind, Except.map]
    | ok result =>
        simp [observe, hScript, bind, Except.bind, pure,
          Except.pure, Except.map]
  emitWakeUpSignal := fun _ => rfl

end NodeModel

------------------------------------------------------------
-- Projections
------------------------------------------------------------

namespace TreeNode

variable {f : V → W}
variable {N : NodeModel A C V ε} {M : NodeModel A C W ε}

mutual

theorem haltNode_project
    (hProjects : N.Projects f M) :
    (t : TreeNode A C) → (s : State t) → (v : V) →
      Prod.map id f (haltNode N t s v) = haltNode M t s (f v)
| .action a, s, v => Prod.ext rfl (hProjects.halt a s v)
| .sequence children, s, v => by
    simp only [haltNode,
      ← resetChildren_project hProjects children s.children v]
    rfl
| .retry _ child, s, v => by
    simp only [haltNode,
      ← haltNode_project hProjects child s.child v]
    split <;> rfl
| .precondition _ _ child, s, v => by
    simp only [haltNode,
      ← haltNode_project hProjects child s.child v]
    split <;> rfl

theorem resetChildren_project
    (hProjects : N.Projects f M) :
    (ts : List (TreeNode A C)) → (ss : States ts) → (v : V) →
      Prod.map id f (resetChildren N ts ss v) =
        resetChildren M ts ss (f v)
| [], _, _ => rfl
| child :: children, (s, ss), v => by
    simp only [resetChildren,
      ← haltNode_project hProjects child s v]
    split
    · simp only [Prod.map_snd,
        ← resetChildren_project hProjects children ss]
      rfl
    · simp only [
        ← resetChildren_project hProjects children ss]
      rfl

end

theorem resetChild_project
    (hProjects : N.Projects f M)
    (t : TreeNode A C) (s : State t) (v : V) :
    Prod.map id f (resetChild N t s v) =
      resetChild M t s (f v) := by
  simp only [resetChild, ← haltNode_project hProjects t s v]
  split <;> rfl

/- The loop of a retry node, over a child that projects. -/
theorem retryLoop_project
    {σ : Type}
    {tickN :
      σ → V → Except (TickError ε) (NodeStatus × σ × V)}
    {tickM :
      σ → W → Except (TickError ε) (NodeStatus × σ × W)}
    (childStatus : σ → NodeStatus)
    {resetN : σ → V → σ × V} {resetM : σ → W → σ × W}
    {wakeN : V → V} {wakeM : W → W}
    (hTick :
      ∀ s v, (tickN s v).map (Prod.map id (Prod.map id f)) =
        tickM s (f v))
    (hReset :
      ∀ s v, Prod.map id f (resetN s v) = resetM s (f v))
    (hWake : ∀ v, f (wakeN v) = wakeM (f v))
    (maxAttempts : Int) :
    (fuel : Nat) → (tryCount : Int) → (s : σ) → (v : V) →
      (retryLoop tickN childStatus resetN wakeN maxAttempts fuel
          tryCount s v).map
            (Prod.map id (Prod.map id (Prod.map id f))) =
        retryLoop tickM childStatus resetM wakeM maxAttempts
          fuel tryCount s (f v)
| 0, _, _, _ => rfl
| fuel + 1, tryCount, s, v => by
    simp only [retryLoop, ← hTick s v]
    split
    · cases hResult : tickN s v with
      | error e => rfl
      | ok result =>
          rcases result with ⟨r, c, v'⟩
          have hResetChild := hReset c v'
          cases r with
          | idle => rfl
          | running => rfl
          | success =>
              simp only [bind, Except.bind, Except.map,
                Prod.map_apply, id_eq, ← hResetChild]
              rfl
          | skipped =>
              simp only [bind, Except.bind, Except.map,
                Prod.map_apply, id_eq, ← hResetChild]
              rfl
          | failure =>
              by_cases hYield :
                  childStatus s = .idle ∧
                    (tryCount + 1 < maxAttempts ∨
                      maxAttempts = -1)
              · simp only [bind, Except.bind, Except.map,
                  Prod.map_apply, id_eq, ← hResetChild,
                  if_pos hYield, Prod.map_snd, ← hWake]
                rfl
              · simp only [bind, Except.bind, Prod.map_apply,
                  id_eq, Except.map, ← hResetChild,
                  if_neg hYield]
                exact
                  retryLoop_project childStatus hTick hReset
                    hWake maxAttempts fuel _ _ _
    · rfl

/- What `f` keeps of the result of a tick. -/
def projectTick
    {σ : Type} (f : V → W) :
    Except (TickError ε) (NodeStatus × σ × V) →
      Except (TickError ε) (NodeStatus × σ × W) :=
  Except.map (Prod.map id (Prod.map id f))

def LoopResult.project
    {σ : Type} (f : V → W) (r : LoopResult σ V) :
    LoopResult σ W :=
  ⟨r.stop, r.idx, r.skipped, r.children, f r.world⟩

theorem finishTick_project
    (t : TreeNode A C) (r : NodeStatus) (s : State t) (v : V) :
    projectTick f (finishTick (ε := ε) t r s v) =
      finishTick t r s (f v) := by
  cases r <;> rfl

/- The tick of a precondition that lets its child through. -/
def tickThrough
    (M : NodeModel A C W ε)
    (script : C) (elseReturn status : NodeStatus)
    (child : TreeNode A C) (c : State child) (w : W) :
    Except (TickError ε)
      (NodeStatus × State (.precondition script elseReturn child) ×
        W) := do
  let (r, c, w) ← executeTick M child c w
  if r.isCompleted then
    let (c, w) := resetChild M child c w
    finishTick (.precondition script elseReturn child) r
      ⟨status, false, resetCompletedChild child c⟩ w
  else
    finishTick (.precondition script elseReturn child) r
      ⟨status, true, resetCompletedChild child c⟩ w

theorem tickThrough_project
    (hProjects : N.Projects f M)
    (script : C) (elseReturn status : NodeStatus)
    {child : TreeNode A C} {c : State child} {v : V}
    (hTick :
      projectTick f (executeTick N child c v) =
        executeTick M child c (f v)) :
    projectTick f
        (tickThrough N script elseReturn status child c v) =
      tickThrough M script elseReturn status child c (f v) := by
  simp only [tickThrough, ← hTick]
  cases executeTick N child c v with
  | error e => rfl
  | ok result =>
      rcases result with ⟨r, c', v'⟩
      simp only [projectTick, bind, Except.bind, Except.map,
        Prod.map_apply, id_eq,
        ← resetChild_project hProjects child c' v']
      by_cases hCompleted : r.isCompleted = true
      · simp only [if_pos hCompleted]
        exact finishTick_project _ _ _ _
      · simp only [if_neg hCompleted]
        exact finishTick_project _ _ _ _

mutual

/- The ticks of `M` are what `f` keeps of those of `N`. -/
theorem executeTick_project
    (hProjects : N.Projects f M) :
    (t : TreeNode A C) → (s : State t) → (v : V) →
      projectTick f (executeTick N t s v) =
        executeTick M t s (f v)
| .action a, s, v => by
    have hTick := hProjects.tick a s v
    simp only [executeTick, ← hTick]
    cases N.tick a s v with
    | error e => rfl
    | ok result => exact finishTick_project _ _ _ _
| .sequence children, s, v => by
    simp only [executeTick,
      ← tickChildren_project hProjects children s.children]
    cases tickChildren N children s.children
        s.currentChildIdx
        (if s.status.isActive then s.skippedCount else 0) v with
    | error e => rfl
    | ok r =>
        rcases r with ⟨stop, idx, skipped, ss, v'⟩
        have hReset :=
          resetChildren_project hProjects children ss v'
        simp only [bind, Except.bind, Except.map,
          LoopResult.project, ← hReset]
        split
        · exact finishTick_project _ _ _ _
        · exact finishTick_project _ _ _ _
        · split
          · exact finishTick_project _ _ _ _
          · exact finishTick_project _ _ _ _
| .retry maxAttempts child, s, v => by
    have hLoop :=
      retryLoop_project (status child)
        (executeTick_project hProjects child)
        (resetChild_project hProjects child)
        hProjects.emitWakeUpSignal maxAttempts retryFuel
        s.tryCount s.child v
    simp only [executeTick, ← hLoop]
    cases retryLoop (executeTick N child) (status child)
        (resetChild N child) N.emitWakeUpSignal maxAttempts
        retryFuel s.tryCount s.child v with
    | error e => rfl
    | ok result => exact finishTick_project _ _ _ _
| .precondition script elseReturn child, s, v => by
    have hChild := fun v =>
      tickThrough_project hProjects script elseReturn s.status
        (executeTick_project hProjects child s.child v)
    have hScript := hProjects.executor script v
    simp only [executeTick]
    cases s.childrenRunning with
    | true => exact hChild v
    | false =>
        simp only [Bool.false_eq_true, if_false, ← hScript]
        cases N.executor script v with
        | error e => rfl
        | ok result =>
            rcases result with ⟨condition, v'⟩
            cases condition with
            | false => exact finishTick_project _ _ _ _
            | true => exact hChild v'

theorem tickChildren_project
    (hProjects : N.Projects f M) :
    (ts : List (TreeNode A C)) → (ss : States ts) →
      (idx skipped : Nat) → (v : V) →
        (tickChildren N ts ss idx skipped v).map
            (LoopResult.project f) =
          tickChildren M ts ss idx skipped (f v)
| [], _, _, _, _ => rfl
| _ :: children, (s, ss), idx + 1, skipped, v => by
    simp only [tickChildren,
      ← tickChildren_project hProjects children ss]
    cases tickChildren N children ss idx skipped v <;> rfl
| child :: children, (s, ss), 0, skipped, v => by
    simp only [tickChildren,
      ← executeTick_project hProjects child s v]
    cases executeTick N child s v with
    | error e => rfl
    | ok result =>
        rcases result with ⟨r, c, v'⟩
        cases r with
        | idle => rfl
        | running => rfl
        | failure => rfl
        | success =>
            simp only [projectTick, bind, Except.bind,
              Except.map, Prod.map_apply, id_eq,
              ← tickChildren_project hProjects children ss]
            cases tickChildren N children ss 0 skipped v' <;>
              rfl
        | skipped =>
            simp only [projectTick, bind, Except.bind,
              Except.map, Prod.map_apply, id_eq,
              ← tickChildren_project hProjects children ss]
            cases tickChildren N children ss 0 (skipped + 1)
              v' <;> rfl

end

/- The same for the root. -/
theorem rootTick_project
    (hProjects : N.Projects f M)
    (t : TreeNode A C) (s : State t) (v : V) :
    projectTick f (rootTick N t s v) = rootTick M t s (f v) := by
  simp only [rootTick, ← executeTick_project hProjects t s v]
  cases executeTick N t s v with
  | error e => rfl
  | ok result =>
      rcases result with ⟨r, s', v'⟩
      simp only [projectTick, bind, Except.bind, Except.map,
        Prod.map_apply, id_eq]
      by_cases hCompleted : r.isCompleted = true
      · simp only [if_pos hCompleted]
        rfl
      · simp only [if_neg hCompleted]
        rfl

/- What a tick of the world is, observed. -/
theorem rootTick_of_observe
    {M : NodeModel A C W ε}
    {t : TreeNode A C} {s s' : State t}
    {v v' : Observed A W} {r : NodeStatus}
    (hTick : rootTick M.observe t s v = .ok (r, s', v')) :
    rootTick M t s v.world = .ok (r, s', v'.world) := by
  rw [← rootTick_project M.observe_projects, hTick]
  rfl

/- A tick of the world can be observed. -/
theorem exists_observe_of_rootTick
    {M : NodeModel A C W ε}
    {t : TreeNode A C} {s s' : State t}
    {v : Observed A W} {w : W} {r : NodeStatus}
    (hTick : rootTick M t s v.world = .ok (r, s', w)) :
    ∃ v', rootTick M.observe t s v = .ok (r, s', v') ∧
      v'.world = w := by
  rw [← rootTick_project M.observe_projects] at hTick
  cases hObserved : rootTick M.observe t s v with
  | error e =>
      rw [hObserved] at hTick
      cases hTick
  | ok result =>
      rw [hObserved] at hTick
      cases hTick
      exact ⟨_, rfl, rfl⟩

end TreeNode

end BT

end Manipulator
