import Manipulator.BehaviorTree.Retry
import Manipulator.Mission.Exclusion
import Manipulator.Mission.Loop

/-
  Whether a call of the timer returns.

  `Tree::tickOnce` ticks the root again as long as a tick
  finds the wake-up signal. A callback emits it, and so does
  the retry node when `approach` does not find its server:
  nothing else in the tree does.

  Main declarations:
    * `Begins`, `Wakes`, `ticks_wakes`
    * `Unwoken`, `unwoken_iff`
    * `tickOnce_returns_iff`
    * `tickOnce_never_returns`
-/

------------------------------------------------------------
-- What A Pass Adds
------------------------------------------------------------

namespace Manipulator

namespace Mission

variable {K S I : Type}

/- The approach node is started. -/
def Begins (t : BT.Ticked (Action K)) : Prop :=
  t.action.Approaches ∧ t.before = .idle

/-
  The ticks between two views, and the wake-up signal: it
  was there, or an approach found its server unavailable.
-/
structure Wakes (v v' : View K S) : Prop where
  ready : v'.world.ready = v.world.ready
  signal :
    ∃ new, v'.ticks = new ++ v.ticks ∧
      (v'.wakeUp = true ↔
        v.wakeUp = true ∨
          (v.world.ready .approach = false ∧
            ∃ t ∈ new, Begins t))

theorem Wakes.refl (v : View K S) : Wakes v v :=
  ⟨rfl, [], rfl, by simp⟩

theorem Wakes.trans
    {u v w : View K S}
    (hFirst : Wakes u v)
    (hSecond : Wakes v w) : Wakes u w := by
  rcases hFirst.signal with ⟨new, hTicks, hSignal⟩
  rcases hSecond.signal with ⟨new', hTicks', hSignal'⟩
  refine ⟨hSecond.ready.trans hFirst.ready, new' ++ new, ?_, ?_⟩
  · rw [hTicks', hTicks, List.append_assoc]
  · rw [hSignal', hSignal, hFirst.ready]
    simp only [List.mem_append]
    constructor
    · rintro ((hWoken | ⟨hReady, t, hMember, hBegins⟩) |
        ⟨hReady, t, hMember, hBegins⟩)
      · exact .inl hWoken
      · exact .inr ⟨hReady, t, .inr hMember, hBegins⟩
      · exact .inr ⟨hReady, t, .inl hMember, hBegins⟩
    · rintro (hWoken | ⟨hReady, t, hMember | hMember, hBegins⟩)
      · exact .inl (.inl hWoken)
      · exact .inr ⟨hReady, t, hMember, hBegins⟩
      · exact .inl (.inr ⟨hReady, t, hMember, hBegins⟩)

/- One tick that does not start `approach`. -/
theorem Wakes.tick
    {v : View K S} {w : World K S}
    {t : BT.Ticked (Action K)}
    (hReady : w.ready = v.world.ready)
    (hBegins : ¬ Begins t) :
    Wakes v { v with world := w, ticks := t :: v.ticks } := by
  refine ⟨hReady, [t], rfl, ?_⟩
  constructor
  · exact .inl
  · rintro (hWoken | ⟨_, u, hMember, hStarts⟩)
    · exact hWoken
    · cases List.mem_singleton.mp hMember
      exact absurd hStarts hBegins

theorem RosAction.onStart_ready
    {a : RosAction K} {r : BT.NodeStatus} {w w' : World K S}
    (hTick : a.onStart w = .ok (r, w')) :
    w'.ready = w.ready := by
  rcases bind_eq_ok.mp hTick with ⟨⟨goal, reads⟩, _, hTick⟩
  simp only at hTick
  split at hTick
  · cases hTick
    rfl
  · cases hTick
    rfl

theorem RosAction.onRunning_ready
    {a : RosAction K} {r : BT.NodeStatus} {w w' : World K S}
    (hTick : a.onRunning w = .ok (r, w')) :
    w'.ready = w.ready := by
  rcases bind_eq_ok.mp hTick with ⟨⟨verdict, c⟩, _, hTick⟩
  cases verdict with
  | running =>
      cases hTick
      rfl
  | onFailure error =>
      cases hTick
      rfl
  | onResultReceived result =>
      simp only at hTick
      split at hTick
      · cases hTick
        rfl
      · cases hTick

/- No leaf changes which servers are there. -/
theorem tick_ready
    {a : Action K} {s r : BT.NodeStatus} {w w' : World K S}
    (hTick : tick a s w = .ok (r, w')) : w'.ready = w.ready := by
  cases a with
  | sleep id msec =>
      cases s <;>
        simp only [tick, sleepStart, sleepRunning] at hTick <;>
          split at hTick <;> cases hTick <;> rfl
  | setBlackboard key value =>
      cases hTick
      rfl
  | publish pose =>
      cases hTick
      rfl
  | rosAction a =>
      cases s with
      | idle => exact RosAction.onStart_ready hTick
      | running => exact RosAction.onRunning_ready hTick
      | success => exact RosAction.onRunning_ready hTick
      | failure => exact RosAction.onRunning_ready hTick
      | skipped => exact RosAction.onRunning_ready hTick
  | alwaysFailure =>
      cases hTick
      rfl
  | finish =>
      cases hTick
      rfl

/- The tick of an observed leaf. -/
theorem observe_tick
    {a : Action K} {s r : BT.NodeStatus} {v v' : View K S}
    (hTick : (mission K S).observe.tick a s v = .ok (r, v')) :
    ∃ w, tick a s v.world = .ok (r, w) ∧
      v' = { v with world := w, ticks := ⟨a, s, r⟩ :: v.ticks } := by
  rcases bind_eq_ok.mp hTick with ⟨⟨q, w⟩, hLeaf, hReturn⟩
  cases hReturn
  exact ⟨w, hLeaf, rfl⟩

theorem wakes_of_tick
    {a : Action K} {s r : BT.NodeStatus} {v v' : View K S}
    (hOther : ¬ (a.Approaches ∧ s = .idle))
    (hTick : (mission K S).observe.tick a s v = .ok (r, v')) :
    Wakes v v' := by
  rcases observe_tick hTick with ⟨w, hLeaf, rfl⟩
  exact .tick (tick_ready hLeaf) hOther

theorem readLabel_ready
    {w w' : World K S} {label : String}
    (hLabel : readLabel w = .ok (label, w')) :
    w'.ready = w.ready := by
  unfold readLabel at hLabel
  split at hLabel
  · cases hLabel
    rfl
  · cases hLabel

theorem executor_ready
    {script : Script} {b : Bool} {w w' : World K S}
    (hScript : executor script w = .ok (b, w')) :
    w'.ready = w.ready := by
  cases script with
  | labelIs label =>
      rcases bind_eq_ok.mp hScript with ⟨⟨_, _⟩, hLabel, hReturn⟩
      cases hReturn
      exact readLabel_ready hLabel
  | labelIsNot label =>
      rcases bind_eq_ok.mp hScript with ⟨⟨_, _⟩, hLabel, hReturn⟩
      cases hReturn
      exact readLabel_ready hLabel

theorem wakes_frames : (mission K S).observe.Frames Wakes where
  refl := Wakes.refl
  trans := Wakes.trans
  halt := fun _ _ v => Wakes.refl v
  executor := by
    intro script v b v' hScript
    rcases bind_eq_ok.mp hScript with ⟨⟨c, w⟩, hLabel, hReturn⟩
    cases hReturn
    exact ⟨executor_ready hLabel, [], rfl, by simp⟩

/- An approach fails at once without its server. -/
theorem approach_start (w : World K S) :
    ∃ w', tick (.rosAction approach) .idle w =
      .ok (if w.ready .approach then .running else .failure,
        w') := by
  by_cases hServer : w.ready .approach = true
  · rw [if_pos hServer]
    exact ⟨_, if_pos hServer⟩
  · rw [if_neg hServer]
    exact ⟨_, if_neg hServer⟩

theorem approach_yields :
    BT.TreeNode.Yields (mission K S).observe Wakes
      (.rosAction approach) where
  halt := fun _ _ _ => rfl
  start := by
    intro v r v' hTick
    rcases observe_tick hTick with ⟨w, hLeaf, rfl⟩
    have hReady := tick_ready hLeaf
    rcases approach_start v.world with ⟨w', hStart⟩
    cases hStart.symm.trans hLeaf
    cases hServer : v.world.ready .approach with
    | true =>
        refine .inl ⟨rfl, hReady, [_], rfl, ?_⟩
        simp [hServer]
    | false =>
        refine .inr ⟨rfl, hReady, [_], rfl, ?_⟩
        refine iff_of_true rfl (.inr ⟨hServer, _,
          List.mem_singleton_self _, rfl, rfl⟩)
  resume := by
    intro v r v' hTick
    apply wakes_of_tick _ hTick
    rintro ⟨_, hIdle⟩
    cases hIdle

------------------------------------------------------------
-- The Tree
------------------------------------------------------------

section Trees

variable [Field K]

/- The leaves of an attempt after the first one. -/
theorem cycle_others :
    ∀ a ∈ BT.TreeNode.leavesAll (Mission.cycle K).tail,
      ¬ a.Approaches := by
  simp [Mission.cycle, BT.TreeNode.leavesAll,
    BT.TreeNode.leaves, when_, pickAndPlace, move, Bin.branch,
    Bin.goals, Action.Approaches, smoothMove, conveyor]

theorem cycle_rest_wakes
    (ss : BT.TreeNode.States (Mission.cycle K).tail) :
    BT.TreeNode.AllTicks (mission K S).observe Wakes
      (Mission.cycle K).tail ss := by
  apply BT.TreeNode.allTicks_of_leaves wakes_frames
  · intro a hMember s v r v' hTick
    apply wakes_of_tick _ hTick
    rintro ⟨hApproaches, _⟩
    exact cycle_others a hMember hApproaches
  · intro hRetries
    cases hRetries

omit [Field K] in
theorem leaf_wakes
    {a : Action K} (hOther : ¬ a.Approaches)
    (s : BT.TreeNode.State (C := Script) (.action a)) :
    BT.TreeNode.Ticks (mission K S).observe Wakes (.action a)
      s := by
  apply BT.TreeNode.ticks_action
  intro v r v' hTick
  apply wakes_of_tick _ hTick
  rintro ⟨hApproaches, _⟩
  exact hOther hApproaches

/- A pass over the tree, in the states between two passes. -/
theorem ticks_wakes
    {X : BT.Surroundings (View K S)} {s : (main3 K).State}
    (hResumable :
      BT.TreeNode.Resumable (mission K S).observe X (main3 K) s) :
    BT.TreeNode.Ticks (mission K S).observe Wakes (main3 K)
      s := by
  apply BT.TreeNode.ticks_sequence wakes_frames
  have hTicks :
      ∀ t ∈
        [.action (.sleep .start 1000),
          .action (.setBlackboard .speed 200),
          .action (.publish (homePose K)),
          .action (.sleep .ready 1000),
          .retry (-1) (.sequence (Mission.cycle K)),
          .action .finish],
        ∀ s, BT.TreeNode.Resumable (mission K S).observe X t s →
          BT.TreeNode.Ticks (mission K S).observe Wakes t s := by
    simp only [List.forall_mem_cons]
    refine ⟨fun s _ => leaf_wakes id s, fun s _ => leaf_wakes id s,
      fun s _ => leaf_wakes id s, fun s _ => leaf_wakes id s, ?_,
      fun s _ => leaf_wakes id s, fun t hNone => ?_⟩
    case refine_2 => cases hNone
    intro s hLoop
    exact BT.TreeNode.ticks_retry_placed wakes_frames
      approach_yields cycle_rest_wakes
        (BT.TreeNode.placed_of_resumable hLoop)
  rcases hResumable with rfl | rfl | ⟨w₀, w, _, _, hAt⟩
  · exact BT.TreeNode.allTicks_idles hTicks
  · exact BT.TreeNode.allTicks_idles hTicks
  · exact BT.TreeNode.allTicks_of_resumesAt hTicks hAt

end Trees

------------------------------------------------------------
-- Passes
------------------------------------------------------------

section Passes

variable [Field K] [LinearOrder K]
variable {A : ApproachServer K S I}

/- The next pass starts the approach node. -/
def StartsApproach (s : BtNode K S) : Prop :=
  ∃ r u new, s.pass = .ok (r, u) ∧
    u.view.ticks = new ++ s.view.ticks ∧ ∃ t ∈ new, Begins t

/-
  A round of `tickOnce` from its pass on. No callback has
  emitted the signal before the pass, and none does so after
  it, and the approach node is not started, or its server is
  there.
-/
structure Unwoken
    (A : ApproachServer K S I)
    (late : List (EnvInput K I)) (s : BtNode K S) : Prop where
  signal : s.view.wakeUp = false
  approach :
    StartsApproach s → s.view.world.ready .approach = true
  late :
    ∀ r u, s.pass = .ok (r, u) →
      (u.clear.surround A late).view.wakeUp = false

theorem wakes_of_pass
    {is : List (NodeInput K I)} {s u : BtNode K S}
    {r : BT.NodeStatus}
    (hRun : (watched A).Run (.init A) is s)
    (hPass : s.pass = .ok (r, u)) : Wakes s.view u.view := by
  have hResumable :
      BT.TreeNode.Resumable (mission K S).observe
        (watchedSurroundings A) (main3 K) s.tree := by
    rcases (reach_of_watched hRun).resumes observe_proper
        main3_wellFormed watched_keeps
        (fun v v' hEmpty hEnv => hEnv.2.trans hEmpty) with
      ⟨hIdle, _⟩ | ⟨w₀, _, hResumes⟩
    · exact .inl hIdle
    · exact .inr (.inr ⟨w₀, _, hResumes⟩)
  rcases bind_eq_ok.mp hPass with ⟨⟨q, tree, v⟩, hTick, hReturn⟩
  cases hReturn
  exact BT.TreeNode.rootTick_frame (ticks_wakes hResumable) hTick

/- A round finds no signal exactly if it was not woken. -/
theorem unwoken_iff
    {is : List (NodeInput K I)} {s u : BtNode K S}
    {r : BT.NodeStatus}
    (hRun : (watched A).Run (.init A) is s)
    (hPass : s.pass = .ok (r, u))
    (late : List (EnvInput K I)) :
    (u.surround A late).view.wakeUp = false ↔
      Unwoken A late s := by
  rcases (wakes_of_pass hRun hPass).signal with
    ⟨new, hTicks, hSignal⟩
  rw [surround_wakeUp, Bool.or_eq_false_iff, ← Bool.not_eq_true,
    hSignal, not_or, Bool.not_eq_true]
  constructor
  · rintro ⟨⟨hWoken, hServer⟩, hLate⟩
    refine ⟨hWoken, ?_, ?_⟩
    · rintro ⟨_, _, new', hPass', hTicks', hBegins⟩
      cases hPass.symm.trans hPass'
      cases List.append_cancel_right (hTicks.symm.trans hTicks')
      by_contra hReady
      exact hServer ⟨Bool.eq_false_iff.mpr hReady, hBegins⟩
    · intro r' u' hPass'
      cases hPass.symm.trans hPass'
      exact hLate
  · intro hUnwoken
    refine ⟨⟨hUnwoken.signal, ?_⟩, hUnwoken.late r u hPass⟩
    rintro ⟨hReady, hBegins⟩
    have hServer :=
      hUnwoken.approach ⟨r, u, new, hPass, hTicks, hBegins⟩
    cases hReady.symm.trans hServer

/- Where the `n`-th pass of `tickOnce` would begin. -/
def atPass
    (A : ApproachServer K S I)
    (during late : Nat → List (EnvInput K I))
    (s : BtNode K S) : Nat → BtNode K S
| 0 => s.surround A (during 0)
| n + 1 =>
    match (atPass A during late s n).pass with
    | .ok (_, u) =>
        (u.surround A (late n)).clear.surround A (during (n + 1))
    | .error _ => atPass A during late s n

variable {during late : Nat → List (EnvInput K I)}
variable {is : List (NodeInput K I)} {s : BtNode K S}

theorem atPass_succ
    {n : Nat} {r : BT.NodeStatus} {u : BtNode K S}
    (hPass : (atPass A during late s n).pass = .ok (r, u)) :
    atPass A during late s (n + 1) =
      (u.surround A (late n)).clear.surround A
        (during (n + 1)) := by
  simp only [atPass, hPass]

theorem exists_atPass_run
    (hRun : (watched A).Run (.init A) is s) (n : Nat) :
    ∃ js,
      (watched A).Run (.init A) js (atPass A during late s n) := by
  induction n with
  | zero =>
      rcases exists_surround_run (A := A) (during 0) s with
        ⟨js, hSurround⟩
      exact ⟨_, hRun.trans hSurround⟩
  | succ n ih =>
      rcases ih with ⟨js, hReach⟩
      rcases pass_ok hReach with ⟨u, hPass, _⟩
      rcases exists_surround_run (A := A) (late n) u with
        ⟨ks, hLate⟩
      rcases exists_surround_run (A := A) (during (n + 1))
          (u.surround A (late n)).clear with
        ⟨ls, hDuring⟩
      rw [atPass_succ hPass]
      exact
        ⟨_, (((hReach.trans (run_pass hPass)).trans hLate).trans
          (run_wait _)).trans hDuring⟩

/- Every round has a pass, and its signal is known. -/
theorem exists_round
    (during late : Nat → List (EnvInput K I))
    (hRun : (watched A).Run (.init A) is s) (n : Nat) :
    ∃ u : BtNode K S,
      (atPass A during late s n).pass = .ok (.running, u) ∧
        ((u.surround A (late n)).view.wakeUp = false ↔
          Unwoken A (late n) (atPass A during late s n)) := by
  rcases exists_atPass_run hRun n with ⟨js, hReach⟩
  rcases pass_ok hReach with ⟨u, hPass, _⟩
  exact ⟨u, hPass, unwoken_iff hReach hPass (late n)⟩

/- One round of the loop of `tickOnce`. -/
theorem tickOnce_succ
    {fuel n : Nat} {u : BtNode K S}
    (hPass :
      (s.surround A (during n)).pass = .ok (.running, u)) :
    BtNode.tickOnce A during late (fuel + 1) n s =
      if (u.surround A (late n)).view.wakeUp then
        BtNode.tickOnce A during late fuel (n + 1)
          (u.surround A (late n)).clear
      else .ok (.running, u.surround A (late n)) := by
  rw [BtNode.tickOnce, hPass]
  rfl

/- A call that returns has a round that was not woken. -/
theorem exists_unwoken
    (hRun : (watched A).Run (.init A) is s) :
    ∀ fuel n x r s',
      x.surround A (during n) = atPass A during late s n →
        BtNode.tickOnce A during late fuel n x = .ok (r, s') →
          ∃ m, Unwoken A (late m) (atPass A during late s m) := by
  intro fuel
  induction fuel with
  | zero =>
      intro n x r s' _ hTick
      cases hTick
  | succ fuel ih =>
      intro n x r s' hAt hTick
      rcases exists_round during late hRun n
        with ⟨u, hPass, hSignal⟩
      rw [tickOnce_succ (hAt ▸ hPass)] at hTick
      cases hWoken : (u.surround A (late n)).view.wakeUp with
      | false => exact ⟨n, hSignal.mp hWoken⟩
      | true =>
          rw [if_pos hWoken] at hTick
          exact ih (n + 1) _ r s' (atPass_succ hPass).symm hTick

/- A round that was not woken is the last one. -/
theorem exists_return
    (hRun : (watched A).Run (.init A) is s) :
    ∀ d n x,
      x.surround A (during n) = atPass A during late s n →
        Unwoken A (late (n + d))
            (atPass A during late s (n + d)) →
          ∃ fuel r s',
            BtNode.tickOnce A during late fuel n x =
              .ok (r, s') := by
  intro d
  induction d with
  | zero =>
      intro n x hAt hUnwoken
      rcases exists_round during late hRun n
        with ⟨u, hPass, hSignal⟩
      refine ⟨1, .running, u.surround A (late n), ?_⟩
      rw [tickOnce_succ (hAt ▸ hPass), hSignal.mpr hUnwoken]
      rfl
  | succ d ih =>
      intro n x hAt hUnwoken
      rcases exists_round during late hRun n
        with ⟨u, hPass, hSignal⟩
      cases hWoken : (u.surround A (late n)).view.wakeUp with
      | false =>
          refine ⟨1, .running, u.surround A (late n), ?_⟩
          rw [tickOnce_succ (hAt ▸ hPass), hWoken]
          rfl
      | true =>
          rw [Nat.add_comm d 1, ← Nat.add_assoc] at hUnwoken
          rcases ih (n + 1) _ (atPass_succ hPass).symm hUnwoken
            with ⟨fuel, r, s', hTick⟩
          refine ⟨fuel + 1, r, s', ?_⟩
          rw [tickOnce_succ (hAt ▸ hPass), if_pos hWoken]
          exact hTick

/-
  A call of the timer returns exactly if some round of its
  loop is not woken.
-/
theorem tickOnce_returns_iff
    (hRun : (watched A).Run (.init A) is s)
    (during late : Nat → List (EnvInput K I)) :
    (∃ fuel r s',
        BtNode.tickOnce A during late fuel 0 s = .ok (r, s')) ↔
      ∃ n, Unwoken A (late n) (atPass A during late s n) := by
  constructor
  · rintro ⟨fuel, r, s', hTick⟩
    exact exists_unwoken hRun fuel 0 s r s' rfl hTick
  · rintro ⟨n, hUnwoken⟩
    apply exists_return hRun n 0 s rfl
    rwa [Nat.zero_add]

end Passes

/- The server is there. -/
theorem tickOnce_returns_iff_ready :
    ∃ s : BtNode ℚ (List Nat),
      (∃ fuel r s',
          BtNode.tickOnce (anyServer ℚ) (fun _ => [])
            (fun _ => []) fuel 0 s = .ok (r, s')) ∧
        ∃ n, Unwoken (anyServer ℚ) []
          (atPass (anyServer ℚ) (fun _ => []) (fun _ => []) s
            n) := by
  have hExec :
      ((watched (anyServer ℚ)).exec (.init (anyServer ℚ))
          (bootRun.map Input.observed)).any
        (fun s =>
          (BtNode.tickOnce (anyServer ℚ) (fun _ => [])
            (fun _ => []) 2 0 s).isOk) =
        true := by
    decide +kernel
  rcases Machine.exists_run_of_exec hExec with
    ⟨s, hRun, hReturns⟩
  rcases exists_of_isOk hReturns with ⟨⟨r, s'⟩, hTick⟩
  exact
    ⟨s, ⟨2, r, s', hTick⟩,
      (tickOnce_returns_iff hRun (fun _ => []) fun _ => []).mp
        ⟨2, r, s', hTick⟩⟩

------------------------------------------------------------
-- An Unavailable Server
------------------------------------------------------------

section Spinning

variable [Field K]

/- The members of the root. -/
def root (tree : (main3 K).State) :
    BT.SequenceState
      (BT.TreeNode.States
        [.action (.sleep .start 1000),
          .action (.setBlackboard .speed 200),
          .action (.publish (homePose K)),
          .action (.sleep .ready 1000),
          .retry (-1) (.sequence (Mission.cycle K)),
          .action .finish]) :=
  tree

/- The tree stands at the start of an attempt. -/
structure AtAttempt (tree : (main3 K).State) : Prop where
  idx : (root tree).currentChildIdx = 4
  unstarted :
    BT.TreeNode.Unstarted (root tree).children.2.2.2.2.1.child

instance (tree : (main3 K).State) : Decidable (AtAttempt tree) :=
  have :
      Decidable
        (BT.TreeNode.Unstarted
          (root tree).children.2.2.2.2.1.child) :=
    BT.TreeNode.decidableUnstarted _
  decidable_of_iff
    ((root tree).currentChildIdx = 4 ∧
      BT.TreeNode.Unstarted
        (root tree).children.2.2.2.2.1.child)
    ⟨fun h => ⟨h.1, h.2⟩, fun h => ⟨h.idx, h.unstarted⟩⟩

/- Without its server the approach fails over and over. -/
theorem pass_spins
    {s : BtNode K S}
    (hServer : s.view.world.ready .approach = false)
    (hAt : AtAttempt s.tree) :
    ∃ u : BtNode K S, s.pass = .ok (.running, u) ∧
      u.view.wakeUp = true ∧
        u.view.world.ready .approach = false ∧
          AtAttempt u.tree := by
  have hFails :
      ∃ v', (mission K S).observe.tick (.rosAction approach) .idle
          s.view = .ok (.failure, v') ∧
        v'.world.ready .approach = false := by
    rcases approach_start s.view.world with ⟨w, hStart⟩
    rw [hServer] at hStart
    refine ⟨{ s.view with
      world := w
      ticks :=
        ⟨.rosAction approach, .idle, .failure⟩ :: s.view.ticks },
      bind_eq_ok.mpr ⟨_, hStart, rfl⟩, ?_⟩
    exact (congrFun (tick_ready hStart) .approach).trans hServer
  rcases hFails with ⟨v', hFails, hServer'⟩
  rcases BT.TreeNode.retry_yields (fun _ _ _ => rfl)
      hAt.unstarted hFails with
    ⟨c, hRetry, hNext⟩
  have hLoop (skipped : Nat) :=
    BT.TreeNode.tickChildren_running
      (root s.tree).children.2.2.2.2 hRetry skipped
  have hTick :=
    BT.TreeNode.executeTick_running (s := root s.tree)
      (M := (mission K S).observe) (w := s.view) rfl
      (by
        rw [hAt.idx]
        simp only [BT.TreeNode.tickChildren_succ, hLoop]
        rfl)
  have hRoot :
      BT.TreeNode.rootTick (mission K S).observe (main3 K) s.tree
          s.view = .ok (.running, _, _) :=
    bind_eq_ok.mpr ⟨_, hTick, rfl⟩
  exact
    ⟨_, bind_eq_ok.mpr ⟨_, hRoot, rfl⟩, rfl, hServer', rfl, hNext⟩

/- Each round is woken, so the loop never ends. -/
theorem tickOnce_spins
    [LinearOrder K] {A : ApproachServer K S I} :
    ∀ fuel n (s : BtNode K S) r s',
      s.view.world.ready .approach = false →
        AtAttempt s.tree →
          BtNode.tickOnce A (fun _ => []) (fun _ => []) fuel n
            s ≠ .ok (r, s') := by
  intro fuel
  induction fuel with
  | zero =>
      intro n s r s' _ _ hTick
      cases hTick
  | succ fuel ih =>
      intro n s r s' hServer hAt
      rcases pass_spins hServer hAt with
        ⟨u, hPass, hWoken, hServer', hAt'⟩
      have hRound :
          BtNode.tickOnce A (fun _ => []) (fun _ => [])
              (fuel + 1) n s =
            if u.view.wakeUp then
              BtNode.tickOnce A (fun _ => []) (fun _ => []) fuel
                (n + 1) u.clear
            else .ok (.running, u) :=
        tickOnce_succ hPass
      rw [hRound, if_pos hWoken]
      exact ih (n + 1) u.clear r s' hServer' hAt'

end Spinning

/- The server of `approach` never comes up. -/
def aloneRun : List (Input ℚ (Approach.Input ℚ)) :=
  [.env (.observe (fun _ => false) false), .tick,
    .env (.timer .start), .tick, .env (.timer .ready), .tick]

theorem tickOnce_never_returns :
    ¬ ∀ (is : List (NodeInput ℚ (Approach.Input ℚ)))
        (s : BtNode ℚ (ApproachNode ℚ)),
      (watched (approachServer level 0)).Run
          (.init (approachServer level 0)) is s →
        ∀ during late, ∃ fuel r s',
          BtNode.tickOnce (approachServer level 0) during late
            fuel 0 s = .ok (r, s') := by
  intro hClaim
  have hExec :
      ((watched (approachServer level 0)).exec
          (.init (approachServer level 0))
          (aloneRun.map Input.observed)).any
        (fun s =>
          !s.view.world.ready .approach &&
            decide (AtAttempt s.tree)) =
        true := by
    decide +kernel
  rcases Machine.exists_run_of_exec hExec with ⟨s, hRun, hTest⟩
  rw [Bool.and_eq_true, Bool.not_eq_true', decide_eq_true_eq]
    at hTest
  rcases hClaim _ s hRun (fun _ => []) fun _ => [] with
    ⟨fuel, r, s', hTick⟩
  exact tickOnce_spins fuel 0 s r s' hTest.1 hTest.2 hTick

end Mission

end Manipulator
