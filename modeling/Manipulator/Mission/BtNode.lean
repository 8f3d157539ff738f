import Manipulator.BehaviorTree.Partial
import Manipulator.Mission.DataFlow

/-
  The node that ticks the tree, `bt.cpp`.

  Its timer calls `Tree::tickOnce`, which ticks the root and,
  as long as the root is RUNNING and the wake-up signal was
  emitted, ticks it again. The leaves are observed here, so
  that the record of their ticks and the signal can be spoken
  about; on the world the node does what the mission does.

  Main declarations:
    * `World.signals`, `BtNode`, `BtNode.tickOnce`
    * `watched`, `exists_watched_run`, `exists_run_of_watched`
    * `reach_of_watched`, `pass_ok`
-/

------------------------------------------------------------
-- The Node
------------------------------------------------------------

namespace Manipulator

namespace Mission

variable {K S I : Type}

/- The world, and what the leaves show of their ticks. -/
abbrev View (K S : Type) :=
  BT.Observed (Action K) (World K S)

/-
  The callback emits the wake-up signal: the timer of a node
  that sleeps, and a result that the node takes.
-/
def World.signals (w : World K S) : EnvInput K I → Bool
| .timer id => w.timerWaiting id
| .deliver goal =>
    w.goals[goal]?.any fun r =>
      decide ((w.client r.node).goalHandle = some goal)
| _ => false

structure BtNode (K S : Type) [Field K] where
  tree : (main3 K).State
  view : View K S

section Nodes

variable [Field K] [LinearOrder K]

namespace BtNode

def init (A : ApproachServer K S I) : BtNode K S where
  tree := BT.TreeNode.idle (main3 K)
  view := ⟨.init A.init, [], false⟩

def state (s : BtNode K S) : State K S := ⟨s.tree, s.view.world⟩

/- The flag after `waitFor` has looked at it. -/
def clear (s : BtNode K S) : BtNode K S :=
  { s with view := { s.view with wakeUp := false } }

/- A step outside the tree, where it is possible. -/
def react
    (A : ApproachServer K S I)
    (s : BtNode K S) (input : EnvInput K I) : BtNode K S :=
  match s.view.world.react A input with
  | some w =>
      { s with
        view :=
          { s.view with
            world := w
            wakeUp := s.view.wakeUp || s.view.world.signals input } }
  | none => s

def surround
    (A : ApproachServer K S I)
    (s : BtNode K S) (inputs : List (EnvInput K I)) :
    BtNode K S :=
  inputs.foldl (BtNode.react A) s

/- One `executeTick` of the root. -/
def pass
    (s : BtNode K S) :
    Except (BT.TickError MissionError)
      (BT.NodeStatus × BtNode K S) := do
  let (r, tree, view) ←
    BT.TreeNode.rootTick (mission K S).observe (main3 K) s.tree
      s.view
  return (r, ⟨tree, view⟩)

/-
  `Tree::tickOnce`. Outside the tree `during n` happens
  before the `n`-th `executeTick`, and `late n` between that
  and the look at the signal. The fuel bounds the loop.
-/
def tickOnce
    (A : ApproachServer K S I)
    (during late : Nat → List (EnvInput K I)) :
    Nat → Nat → BtNode K S →
      Except (BT.TickError MissionError)
        (BT.NodeStatus × BtNode K S)
| 0, _, _ => .error .outOfFuel
| fuel + 1, n, s => do
    let (r, s) ← (s.surround A (during n)).pass
    let s := s.surround A (late n)
    if r = .running then
      if s.view.wakeUp then
        tickOnce A during late fuel (n + 1) s.clear
      else return (r, s)
    else return (r, s)

end BtNode

------------------------------------------------------------
-- The Machine
------------------------------------------------------------

/- What the node does: ticks of the root, and `waitFor`. -/
inductive NodeInput (K I : Type) where
| pass
| wait
| env (input : EnvInput K I)

/- The mission with its leaves observed. -/
def watched (A : ApproachServer K S I) :
    Machine (BtNode K S) (NodeInput K I)
      (BT.TickError MissionError) where
  Enabled := fun s i =>
    match i with
    | .pass => True
    | .wait => True
    | .env input => (s.view.world.react A input).isSome
  step := fun s i =>
    match i with
    | .pass => do
        let (_, s) ← s.pass
        return s
    | .wait => .ok s.clear
    | .env input => .ok (s.react A input)

instance (A : ApproachServer K S I) (s : BtNode K S) :
    (i : NodeInput K I) → Decidable ((watched A).Enabled s i)
| .pass => .isTrue trivial
| .wait => .isTrue trivial
| .env input =>
    inferInstanceAs
      (Decidable (s.view.world.react A input).isSome)

/- The step of the node for a step of the mission. -/
def Input.observed : Input K I → NodeInput K I
| .tick => .pass
| .env input => .env input

variable {A : ApproachServer K S I}

omit [LinearOrder K] in
theorem BtNode.pass_state
    {s u : BtNode K S} {r : BT.NodeStatus}
    (hPass : s.pass = .ok (r, u)) :
    BT.TreeNode.rootTick (mission K S) (main3 K) s.tree
        s.view.world =
      .ok (r, u.tree, u.view.world) := by
  rcases bind_eq_ok.mp hPass with
    ⟨⟨q, tree, view⟩, hTick, hReturn⟩
  cases hReturn
  exact BT.TreeNode.rootTick_of_observe hTick

omit [LinearOrder K] in
theorem BtNode.exists_pass
    {s : BtNode K S} {r : BT.NodeStatus}
    {tree : (main3 K).State} {w : World K S}
    (hTick :
      BT.TreeNode.rootTick (mission K S) (main3 K) s.tree
          s.view.world =
        .ok (r, tree, w)) :
    ∃ u : BtNode K S, s.pass = .ok (r, u) ∧
      u.state = ⟨tree, w⟩ := by
  rcases BT.TreeNode.exists_observe_of_rootTick hTick with
    ⟨v, hObserved, rfl⟩
  exact ⟨⟨tree, v⟩, bind_eq_ok.mpr ⟨_, hObserved, rfl⟩, rfl⟩

theorem BtNode.react_of_some
    {s : BtNode K S} {input : EnvInput K I} {w : World K S}
    (hReact : s.view.world.react A input = some w) :
    s.react A input =
      { s with
        view :=
          { s.view with
            world := w
            wakeUp :=
              s.view.wakeUp || s.view.world.signals input } } := by
  simp only [BtNode.react, hReact]

/- On the world, a run of the node is one of the mission. -/
theorem exists_run_of_watched
    {is : List (NodeInput K I)} {s : BtNode K S}
    (hRun : (watched A).Run (.init A) is s) :
    ∃ js, (machine A).Run (.init A) js s.state := by
  apply hRun.invariant (P := fun s =>
    ∃ js, (machine A).Run (.init A) js s.state)
  · exact ⟨[], .nil⟩
  · rintro s i u ⟨js, hMission⟩ hEnabled hStep
    cases i with
    | wait =>
        cases hStep
        exact ⟨js, hMission⟩
    | pass =>
        rcases bind_eq_ok.mp hStep with ⟨⟨r, t⟩, hPass, hReturn⟩
        cases hReturn
        have hTick :
            (machine A).step s.state .tick = .ok u.state :=
          bind_eq_ok.mpr ⟨_, BtNode.pass_state hPass, rfl⟩
        have hTicks : (machine A).Enabled s.state .tick := trivial
        exact ⟨_, .snoc hMission hTicks hTick⟩
    | env input =>
        cases hStep
        rcases Option.isSome_iff_exists.mp hEnabled with
          ⟨w, hReact⟩
        have hReacts :
            (machine A).step s.state (.env input) =
              .ok (s.react A input).state := by
          rw [BtNode.react_of_some hReact]
          change Mission.step A s.state (.env input) = _
          have hWorld : s.state.world.react A input = some w :=
            hReact
          simp only [Mission.step, hWorld]
          rfl
        have hEnabled' :
            (machine A).Enabled s.state (.env input) := hEnabled
        exact ⟨_, .snoc hMission hEnabled' hReacts⟩

/- A step of the mission can be observed. -/
theorem exists_watched_step
    {s : BtNode K S} {i : Input K I} {t : State K S}
    (hEnabled : (machine A).Enabled s.state i)
    (hStep : (machine A).step s.state i = .ok t) :
    (watched A).Enabled s i.observed ∧
      ∃ u : BtNode K S,
        (watched A).step s i.observed = .ok u ∧ u.state = t := by
  cases i with
  | tick =>
      rcases bind_eq_ok.mp hStep with
        ⟨⟨r, tree, w⟩, hTick, hReturn⟩
      cases hReturn
      rcases BtNode.exists_pass hTick with ⟨u, hPass, hState⟩
      exact ⟨trivial, u, bind_eq_ok.mpr ⟨_, hPass, rfl⟩, hState⟩
  | env input =>
      refine ⟨hEnabled, s.react A input, rfl, ?_⟩
      rcases Option.isSome_iff_exists.mp hEnabled with
        ⟨w, hReact⟩
      have hWorld : s.view.world.react A input = some w := hReact
      rw [BtNode.react_of_some hWorld]
      change Mission.step A s.state (.env input) = _ at hStep
      simp only [Mission.step, hReact] at hStep
      cases hStep
      rfl

/- Every run of the mission is one of the node. -/
theorem exists_watched_run
    {is : List (Input K I)} {t : State K S}
    (hRun : (machine A).Run (.init A) is t) :
    ∃ s : BtNode K S,
      (watched A).Run (.init A) (is.map Input.observed) s ∧
        s.state = t := by
  rcases hRun.simulate
      (N := watched A) (R := fun t s => s.state = t)
      (f := Input.observed) (t := BtNode.init A) rfl
      (by
        rintro _ s i u rfl hEnabled hStep
        exact exists_watched_step hEnabled hStep)
    with ⟨s, hOther, hState⟩
  exact ⟨s, hOther, hState⟩

------------------------------------------------------------
-- Reachable States
------------------------------------------------------------

theorem run_pass
    {s u : BtNode K S} {r : BT.NodeStatus}
    (hPass : s.pass = .ok (r, u)) :
    (watched A).Run s [.pass] u := by
  have hStep : (watched A).step s .pass = .ok u :=
    bind_eq_ok.mpr ⟨_, hPass, rfl⟩
  have hEnabled : (watched A).Enabled s .pass := trivial
  exact .single hEnabled hStep

theorem run_wait (s : BtNode K S) :
    (watched A).Run s [.wait] s.clear := by
  have hEnabled : (watched A).Enabled s .wait := trivial
  exact .single hEnabled rfl

/- Outside the tree, its nodes are left alone. -/
theorem surround_tree
    (inputs : List (EnvInput K I)) (s : BtNode K S) :
    (s.surround A inputs).tree = s.tree := by
  induction inputs generalizing s with
  | nil => rfl
  | cons input inputs ih =>
      rw [BtNode.surround, List.foldl_cons]
      refine (ih _).trans ?_
      unfold BtNode.react
      split <;> rfl

/- The signal, as it was and as the callbacks emit it. -/
theorem exists_surround_flag
    (inputs : List (EnvInput K I)) (s : BtNode K S) :
    ∃ (t : BtNode K S) (c : Bool), ∀ b : Bool,
      BtNode.surround A
          { s with view := { s.view with wakeUp := b } } inputs =
        { t with view := { t.view with wakeUp := b || c } } := by
  induction inputs generalizing s with
  | nil =>
      refine ⟨s, false, fun b => ?_⟩
      rw [Bool.or_false]
      rfl
  | cons input inputs ih =>
      cases hReact : s.view.world.react A input with
      | none =>
          rcases ih s with ⟨t, c, hRest⟩
          refine ⟨t, c, fun b => ?_⟩
          rw [← hRest b, BtNode.surround, List.foldl_cons,
            BtNode.react, hReact]
          rfl
      | some w =>
          rcases ih { s with view := { s.view with world := w } }
            with ⟨t, c, hRest⟩
          refine ⟨t, s.view.world.signals input || c, fun b => ?_⟩
          rw [← Bool.or_assoc, ← hRest, BtNode.surround,
            List.foldl_cons, BtNode.react, hReact]
          rfl

theorem surround_wakeUp
    (inputs : List (EnvInput K I)) (s : BtNode K S) :
    (s.surround A inputs).view.wakeUp =
      (s.view.wakeUp ||
        (s.clear.surround A inputs).view.wakeUp) := by
  rcases exists_surround_flag (A := A) inputs s with ⟨t, c, hFlag⟩
  have hSelf :
      s.surround A inputs =
        { t with
          view := { t.view with wakeUp := s.view.wakeUp || c } } :=
    hFlag s.view.wakeUp
  have hClear :
      s.clear.surround A inputs =
        { t with view := { t.view with wakeUp := false || c } } :=
    hFlag false
  rw [hSelf, hClear, Bool.false_or]

/- What happens outside the tree is a run of the node. -/
theorem exists_surround_run
    (inputs : List (EnvInput K I)) (s : BtNode K S) :
    ∃ is, (watched A).Run s is (s.surround A inputs) := by
  induction inputs generalizing s with
  | nil => exact ⟨[], .nil⟩
  | cons input inputs ih =>
      rcases ih (s.react A input) with ⟨is, hRest⟩
      cases hReact : s.view.world.react A input with
      | none =>
          have hSame : s.react A input = s := by
            simp only [BtNode.react, hReact]
          rw [hSame] at hRest
          refine ⟨is, ?_⟩
          simpa only [BtNode.surround, List.foldl_cons, hSame]
            using hRest
      | some w =>
          have hEnabled : (watched A).Enabled s (.env input) :=
            Option.isSome_iff_exists.mpr ⟨w, hReact⟩
          exact
            ⟨_, (Machine.Run.single hEnabled rfl).trans hRest⟩

/- A tick that returns ends with a pass in a reachable state. -/
theorem exists_last_pass
    {during late : Nat → List (EnvInput K I)}
    {fuel n : Nat} {r : BT.NodeStatus} {s s' : BtNode K S}
    {is : List (NodeInput K I)}
    (hRun : (watched A).Run (.init A) is s)
    (hTick :
      BtNode.tickOnce A during late fuel n s = .ok (r, s')) :
    ∃ js u u' m, (watched A).Run (.init A) js u ∧
      u.pass = .ok (r, u') ∧ s' = u'.surround A (late m) := by
  induction fuel generalizing n s is with
  | zero => cases hTick
  | succ fuel ih =>
      rw [BtNode.tickOnce] at hTick
      rcases exists_surround_run (A := A) (during n) s with
        ⟨js, hSurround⟩
      have hReach := hRun.trans hSurround
      rcases bind_eq_ok.mp hTick with ⟨⟨q, u⟩, hPass, hTick⟩
      rcases exists_surround_run (A := A) (late n) u with
        ⟨ks, hLate⟩
      have hNext :=
        ((hReach.trans (run_pass hPass)).trans hLate).trans
          (run_wait (A := A) _)
      simp only at hTick
      split at hTick
      · split at hTick
        · exact ih hNext hTick
        · cases hTick
          exact ⟨_, _, u, n, hReach, hPass, rfl⟩
      · cases hTick
        exact ⟨_, _, u, n, hReach, hPass, rfl⟩

/- The steps outside the tree, as the view sees them. -/
def watchedSurroundings (A : ApproachServer K S I) :
    BT.Surroundings (View K S) where
  Env := fun v v' =>
    EnvStep A (Lately True) v.world v'.world ∧
      v'.ticks = v.ticks
  Guard := fun _ => True

theorem EnvStep.refl
    (Late : World K S → Prop) (w : World K S) :
    EnvStep A Late w w :=
  .quiet rfl

/- A run of the node ticks the root between other steps. -/
theorem reach_of_watched
    {is : List (NodeInput K I)} {s : BtNode K S}
    (hRun : (watched A).Run (.init A) is s) :
    BT.RootReach (mission K S).observe (watchedSurroundings A)
      (main3 K) (fun v => v.ticks = []) s.tree s.view := by
  apply hRun.invariant (P := fun s =>
    BT.RootReach (mission K S).observe (watchedSurroundings A)
      (main3 K) (fun v => v.ticks = []) s.tree s.view)
  · exact .init rfl
  · intro s i u hReach hEnabled hStep
    cases i with
    | pass =>
        rcases bind_eq_ok.mp hStep with ⟨⟨r, t⟩, hPass, hReturn⟩
        rcases bind_eq_ok.mp hPass with
          ⟨⟨q, tree, view⟩, hTick, hPass⟩
        cases hPass
        cases hReturn
        exact .tick hReach trivial hTick
    | wait =>
        cases hStep
        exact .env hReach ⟨EnvStep.refl _ _, rfl⟩
    | env input =>
        cases hStep
        rcases Option.isSome_iff_exists.mp hEnabled with
          ⟨w, hReact⟩
        rw [BtNode.react_of_some hReact]
        have hLate :
            ¬ s.view.world.Timely A input →
              Lately True s.view.world :=
          fun _ _ => trivial
        exact .env hReach ⟨react_cases hLate hReact, rfl⟩

omit [Field K] [LinearOrder K] in
/- The observed leaves return what the engine expects. -/
theorem observe_proper : (mission K S).observe.Proper := by
  intro a status v r v' hTick
  rcases bind_eq_ok.mp hTick with ⟨⟨q, w⟩, hLeaf, hReturn⟩
  cases hReturn
  exact mission_proper a status v.world _ _ hLeaf

/- No pass throws, and each leaves the root RUNNING. -/
theorem pass_ok
    {is : List (NodeInput K I)} {s : BtNode K S}
    (hRun : (watched A).Run (.init A) is s) :
    ∃ u : BtNode K S, s.pass = .ok (.running, u) ∧
      BT.TreeNode.status (main3 K) u.tree = .running := by
  rcases exists_run_of_watched hRun with ⟨js, hMission⟩
  have hValid : (dataFlow K).Valid True := dataFlow_valid True
  have hReach :=
    reach_of_any_run
      (P := Rest A fun _ h => (dataFlow K).boot h)
      (rest_init hValid.boot) hMission
  have hPartial := (Outline.triple (A := A) hValid).partial_
  rcases Outline.tick_ok hValid hMission with
    ⟨t, hStep⟩
  rcases bind_eq_ok.mp hStep with ⟨⟨r, tree, w⟩, hTick, _⟩
  have hSafe :=
    hReach.resumes mission_proper main3_wellFormed hPartial
      (Outline.boot_stable hValid)
  rcases BT.RootReach.running_of_safe mission_proper
      main3_wellFormed hPartial hSafe trivial hTick with
    ⟨rfl, w₀, _, hResumes⟩
  rcases BtNode.exists_pass hTick with ⟨u, hPass, hState⟩
  refine ⟨u, hPass, ?_⟩
  have hTree : u.tree = tree := congrArg State.tree hState
  rw [hTree]
  exact hResumes.status

end Nodes

end Mission

end Manipulator
