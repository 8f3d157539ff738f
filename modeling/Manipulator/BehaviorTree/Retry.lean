import Manipulator.BehaviorTree.Frame

/-
  A retry node whose attempts may fail in their first leaf.

  When the first leaf of an attempt fails in its first tick,
  the retry node yields and emits the wake-up signal. A
  relation that such a failure respects only together with
  the signal is respected by every tick of the retry node,
  because the leaf is started in no other place.

  Main declarations:
    * `TreeNode.Resumable`, `TreeNode.allTicks_of_resumesAt`
    * `TreeNode.Placed`, `NodeModel.Yields`
    * `TreeNode.ticks_retry_placed`
-/

------------------------------------------------------------
-- States Between Ticks
------------------------------------------------------------

namespace Manipulator

namespace BT

variable {A C W ε : Type}

namespace TreeNode

variable {M : NodeModel A C W ε} {X : Surroundings W}
variable {R : W → W → Prop}

/- The states of a child between two ticks of a sequence. -/
def Resumable
    (M : NodeModel A C W ε) (X : Surroundings W)
    (t : TreeNode A C) (s : State t) : Prop :=
  s = idle t ∨ s = setStatus .success t (idle t) ∨
    ∃ w₀ w, Resumes M X t w₀ s w

theorem allTicks_idles
    {ts : List (TreeNode A C)}
    (hTicks :
      ∀ t ∈ ts, ∀ s, Resumable M X t s → Ticks M R t s) :
    AllTicks M R ts (idles ts) := by
  induction ts with
  | nil => exact trivial
  | cons child children ih =>
      refine ⟨hTicks child List.mem_cons_self _ (.inl rfl), ?_⟩
      apply ih
      intro t hMember
      exact hTicks t (List.mem_cons_of_mem _ hMember)

/- It is enough to know the ticks in resumable states. -/
theorem allTicks_of_resumesAt
    {ts : List (TreeNode A C)} {w₀ w : W} {idx : Nat}
    {ss : States ts}
    (hTicks :
      ∀ t ∈ ts, ∀ s, Resumable M X t s → Ticks M R t s)
    (hAt : ResumesAt M X ts w₀ idx ss w) :
    AllTicks M R ts ss := by
  induction ts generalizing w₀ idx with
  | nil => exact hAt.elim
  | cons child children ih =>
      have hChild := hTicks child List.mem_cons_self
      have hRest :
          ∀ t ∈ children, ∀ s, Resumable M X t s →
            Ticks M R t s :=
        fun t hMember => hTicks t (List.mem_cons_of_mem _ hMember)
      rcases ss with ⟨s, ss⟩
      cases idx with
      | zero =>
          rcases hAt with ⟨hRun, hIdle⟩
          cases hIdle
          exact
            ⟨hChild s (.inr (.inr ⟨_, _, hRun⟩)),
              allTicks_idles hRest⟩
      | succ idx =>
          rcases hAt with ⟨hDone, w₁, _, hAt⟩
          exact ⟨hChild s (.inr (.inl hDone)), ih hRest hAt⟩

/- An attempt that was not started. -/
structure Unstarted
    {first : TreeNode A C} {rest : List (TreeNode A C)}
    (s : State (.sequence (first :: rest))) : Prop where
  status : s.status = .idle
  idx : s.currentChildIdx = 0
  first : first.status s.children.1 = .idle

instance decidableUnstarted
    {first : TreeNode A C} {rest : List (TreeNode A C)}
    (s : State (.sequence (first :: rest))) :
    Decidable (Unstarted s) :=
  decidable_of_iff
    (s.status = .idle ∧ s.currentChildIdx = 0 ∧
      first.status s.children.1 = .idle)
    ⟨fun h => ⟨h.1, h.2.1, h.2.2⟩,
      fun h => ⟨h.status, h.idx, h.first⟩⟩

/-
  An attempt that was not started, or one whose first child
  runs as long as the sequence stands at it.
-/
def Placed
    {first : TreeNode A C} {rest : List (TreeNode A C)}
    (s : State (.sequence (first :: rest))) : Prop :=
  Unstarted s ∨
    (s.status = .running ∧
      (s.currentChildIdx = 0 →
        status first s.children.1 = .running))

theorem placed_idle
    {first : TreeNode A C} {rest : List (TreeNode A C)} :
    Placed (idle (.sequence (first :: rest))) :=
  .inl ⟨rfl, rfl, status_idle first⟩

theorem placed_of_resumable
    {first : TreeNode A C} {rest : List (TreeNode A C)}
    {n : Int} {s : State (.retry n (.sequence (first :: rest)))}
    (hResumable :
      Resumable M X (.retry n (.sequence (first :: rest))) s) :
    Placed s.child := by
  rcases hResumable with rfl | rfl | ⟨w₀, w, _, _, hChild⟩
  · exact placed_idle
  · exact placed_idle
  · rcases hChild with ⟨hIdle, _⟩ | ⟨w₁, _, hStatus, _, hAt⟩
    · rw [hIdle]
      exact placed_idle
    · refine .inr ⟨hStatus, fun hFirst => ?_⟩
      rw [hFirst] at hAt
      exact hAt.1.status

------------------------------------------------------------
-- Halting Without Effect
------------------------------------------------------------

mutual

theorem haltNode_world
    (hHalt : ∀ a s w, M.halt a s w = w) :
    (t : TreeNode A C) → (s : State t) → (w : W) →
      (haltNode M t s w).2 = w
| .action a, s, w => hHalt a s w
| .sequence children, s, w =>
    resetChildren_world hHalt children s.children w
| .retry _ child, s, w => by
    simp only [haltNode]
    split
    · exact haltNode_world hHalt child s.child w
    · rfl
| .precondition _ _ child, s, w => by
    simp only [haltNode]
    split
    · exact haltNode_world hHalt child s.child w
    · rfl

theorem resetChildren_world
    (hHalt : ∀ a s w, M.halt a s w = w) :
    (ts : List (TreeNode A C)) → (ss : States ts) → (w : W) →
      (resetChildren M ts ss w).2 = w
| [], _, _ => rfl
| child :: children, (s, ss), w => by
    simp only [resetChildren]
    split
    · rw [resetChildren_world hHalt children ss]
      exact haltNode_world hHalt child s w
    · exact resetChildren_world hHalt children ss w

end

theorem resetChild_world
    (hHalt : ∀ a s w, M.halt a s w = w)
    (t : TreeNode A C) (s : State t) (w : W) :
    (resetChild M t s w).2 = w := by
  simp only [resetChild]
  split
  · exact haltNode_world hHalt t s w
  · rfl

------------------------------------------------------------
-- Attempts
------------------------------------------------------------

/- After a failed attempt the next one is not started. -/
theorem unstarted_of_failure
    {first : TreeNode A C} {rest : List (TreeNode A C)}
    {s s' : State (.sequence (first :: rest))} {w w' : W}
    (hTick :
      executeTick M (.sequence (first :: rest)) s w =
        .ok (.failure, s', w')) :
    Unstarted
      (resetChild M (.sequence (first :: rest)) s' w').1 := by
  rw [executeTick] at hTick
  rcases bind_eq_ok.mp hTick with ⟨loop, _, hTick⟩
  rcases loop with ⟨stop, idx, skipped, ⟨c, cs⟩, w₁⟩
  cases stop with
  | some stop =>
      cases stop with
      | failure =>
          cases hTick
          exact ⟨rfl, rfl, status_setStatus _ _ _⟩
      | idle => cases hTick
      | running => cases hTick
      | success => cases hTick
      | skipped => cases hTick
  | none =>
      simp only at hTick
      split at hTick
      · split at hTick <;> cases hTick
      · split at hTick <;> cases hTick

/-
  What `R` makes of the first leaf of an attempt: it starts
  running, or it fails and `R` asks for the signal.
-/
structure Yields
    (M : NodeModel A C W ε) (R : W → W → Prop) (a : A) :
    Prop where
  halt : ∀ b s w, M.halt b s w = w
  start :
    ∀ w r w', M.tick a .idle w = .ok (r, w') →
      (r = .running ∧ R w w') ∨
        (r = .failure ∧ R w (M.emitWakeUpSignal w'))
  resume :
    ∀ w r w', M.tick a .running w = .ok (r, w') → R w w'

variable {a : A} {rest : List (TreeNode A C)}

/- The first tick of an attempt ends with its first leaf. -/
theorem first_tick
    (hYields : Yields M R a)
    {s s' : State (.sequence (.action a :: rest))}
    {w w' : W} {r : NodeStatus}
    (hUnstarted : Unstarted s)
    (hTick :
      executeTick M (.sequence (.action a :: rest)) s w =
        .ok (r, s', w')) :
    (r = .running ∧ R w w') ∨
      (r = .failure ∧ R w (M.emitWakeUpSignal w')) := by
  rw [executeTick] at hTick
  rcases bind_eq_ok.mp hTick with ⟨loop, hLoop, hTick⟩
  rw [hUnstarted.idx] at hLoop
  rcases bind_eq_ok.mp hLoop with ⟨⟨q, c, w₁⟩, hChild, hLoop⟩
  have hIdle : s.children.1 = NodeStatus.idle := hUnstarted.first
  rw [executeTick, hIdle] at hChild
  cases hLeaf : M.tick a .idle w with
  | error e =>
      rw [hLeaf] at hChild
      cases hChild
  | ok result =>
      rw [hLeaf] at hChild
      rcases hYields.start w _ _ hLeaf with
        ⟨hRunning, hStep⟩ | ⟨hFailure, hStep⟩
      · rcases result with ⟨q', w₂⟩
        cases hRunning
        cases hChild
        cases hLoop
        cases hTick
        exact .inl ⟨rfl, hStep⟩
      · rcases result with ⟨q', w₂⟩
        cases hFailure
        cases hChild
        cases hLoop
        cases hTick
        refine .inr ⟨rfl, ?_⟩
        rw [resetChildren_world hYields.halt]
        exact hStep

/- A later tick of an attempt does not start its first leaf. -/
theorem later_tick
    (hFrames : M.Frames R)
    (hYields : Yields M R a)
    (hRest : ∀ ss, AllTicks M R rest ss)
    {s : State (.sequence (.action a :: rest))}
    (hRunning :
      s.currentChildIdx = 0 →
        status (.action a) s.children.1 = .running) :
    Ticks M R (.sequence (.action a :: rest)) s := by
  apply ticks_sequence_of_loop hFrames
  intro skipped w loop hLoop
  cases hIdx : s.currentChildIdx with
  | zero =>
      have hFirst : s.children.1 = NodeStatus.running :=
        hRunning hIdx
      have hAll : AllTicks M R (.action a :: rest) s.children := by
        refine ⟨ticks_action ?_, hRest _⟩
        rw [hFirst]
        exact hYields.resume
      exact tickChildren_frame hFrames _ hAll _ _ w loop hLoop
  | succ idx =>
      rw [hIdx] at hLoop
      rcases bind_eq_ok.mp hLoop with ⟨loop', hTicked, hLoop⟩
      cases hLoop
      exact
        tickChildren_frame hFrames rest (hRest _) idx _ w loop'
          hTicked

/- The loop of the retry node, from attempt to attempt. -/
theorem retryLoop_placed
    (hFrames : M.Frames R)
    (hYields : Yields M R a)
    (hRest : ∀ ss, AllTicks M R rest ss)
    {maxAttempts : Int}
    (hForever : maxAttempts = -1) :
    ∀ fuel tryCount (s : State (.sequence (.action a :: rest)))
      w r count s' w',
      Placed s →
        retryLoop
            (executeTick M (.sequence (.action a :: rest)))
            (status (.sequence (.action a :: rest)))
            (resetChild M (.sequence (.action a :: rest)))
            M.emitWakeUpSignal maxAttempts fuel tryCount s w =
          .ok (r, count, s', w') →
        R w w' := by
  intro fuel
  induction fuel with
  | zero =>
      intro _ _ _ _ _ _ _ _ hLoop
      cases hLoop
  | succ fuel ih =>
      intro tryCount s w r count s' w' hPlaced hLoop
      rw [retryLoop, if_pos (.inr hForever)] at hLoop
      rcases bind_eq_ok.mp hLoop with ⟨⟨q, c, w₁⟩, hTick, hLoop⟩
      have hReset :
          resetChild M (.sequence (.action a :: rest)) c w₁ =
            ((resetChild M (.sequence (.action a :: rest)) c
              w₁).1, w₁) :=
        Prod.ext rfl (resetChild_world hYields.halt _ c w₁)
      rcases hPlaced with hUnstarted | ⟨hStatus, hRun⟩
      · rcases first_tick hYields hUnstarted hTick with
          ⟨rfl, hStep⟩ | ⟨rfl, hStep⟩
        · cases hLoop
          exact hStep
        · have hYield :
              status (.sequence (.action a :: rest)) s = .idle ∧
                (tryCount + 1 < maxAttempts ∨
                  maxAttempts = -1) :=
            ⟨hUnstarted.status, .inr hForever⟩
          simp only [if_pos hYield] at hLoop
          rw [hReset] at hLoop
          cases hLoop
          exact hStep
      · have hStep :=
          later_tick hFrames hYields hRest hRun w q c w₁ hTick
        have hYield :
            ¬ (status (.sequence (.action a :: rest)) s = .idle ∧
              (tryCount + 1 < maxAttempts ∨
                maxAttempts = -1)) := by
          intro hIdle
          cases hStatus.symm.trans hIdle.1
        cases q with
        | idle => cases hLoop
        | running =>
            cases hLoop
            exact hStep
        | success =>
            simp only at hLoop
            rw [hReset] at hLoop
            cases hLoop
            exact hStep
        | skipped =>
            simp only at hLoop
            rw [hReset] at hLoop
            cases hLoop
            exact hStep
        | failure =>
            simp only [if_neg hYield] at hLoop
            rw [hReset] at hLoop
            exact hFrames.trans hStep
              (ih _ _ _ _ _ _ _ (.inl (unstarted_of_failure hTick))
                hLoop)

/- A tick of the retry node respects `R`. -/
theorem ticks_retry_placed
    (hFrames : M.Frames R)
    (hYields : Yields M R a)
    (hRest : ∀ ss, AllTicks M R rest ss)
    {s : State (.retry (-1) (.sequence (.action a :: rest)))}
    (hPlaced : Placed s.child) :
    Ticks M R (.retry (-1) (.sequence (.action a :: rest))) s := by
  intro w r s' w' hTick
  rw [executeTick] at hTick
  rcases bind_eq_ok.mp hTick with
    ⟨⟨q, count, c, w₁⟩, hLoop, hTick⟩
  rw [world_of_finishTick hTick]
  exact
    retryLoop_placed hFrames hYields hRest rfl _ _ _ _ _ _ _ _
      hPlaced hLoop

------------------------------------------------------------
-- Attempts That Fail At Once
------------------------------------------------------------

/- The first leaf fails in its first tick. -/
theorem attempt_fails
    (hHalt : ∀ b s w, M.halt b s w = w)
    {s : State (.sequence (.action a :: rest))} {w w' : W}
    (hUnstarted : Unstarted s)
    (hFails : M.tick a .idle w = .ok (.failure, w')) :
    ∃ s', executeTick M (.sequence (.action a :: rest)) s w =
      .ok (.failure, s', w') := by
  have hIdle : s.children.1 = NodeStatus.idle := hUnstarted.first
  have hChild :
      executeTick M (.action a) s.children.1 w =
        .ok (.failure, NodeStatus.failure, w') := by
    rw [executeTick, hIdle, hFails]
    rfl
  have hLoop (skipped : Nat) :
      tickChildren M (.action a :: rest) s.children 0 skipped w =
        .ok ⟨some .failure, 0, skipped,
          (NodeStatus.failure, s.children.2), w'⟩ := by
    change (executeTick M (.action a) s.children.1 w >>= _) = _
    rw [hChild]
    rfl
  have hReset :=
    resetChildren_world hHalt (.action a :: rest)
      (NodeStatus.failure, s.children.2) w'
  refine ⟨⟨.failure, 0,
    if s.status.isActive then s.skippedCount else 0,
    (resetChildren M (.action a :: rest)
      (NodeStatus.failure, s.children.2) w').1⟩, ?_⟩
  rw [executeTick, hUnstarted.idx, hLoop]
  exact congrArg Except.ok (Prod.ext rfl (Prod.ext rfl hReset))

/- The retry node yields and is where it was. -/
theorem retry_yields
    (hHalt : ∀ b s w, M.halt b s w = w)
    {s : State (.retry (-1) (.sequence (.action a :: rest)))}
    {w w' : W}
    (hUnstarted : Unstarted s.child)
    (hFails : M.tick a .idle w = .ok (.failure, w')) :
    ∃ s',
      executeTick M (.retry (-1) (.sequence (.action a :: rest)))
          s w =
        .ok (.running, s', M.emitWakeUpSignal w') ∧
        Unstarted s'.child := by
  rcases attempt_fails hHalt hUnstarted hFails with ⟨c, hTick⟩
  have hNext := unstarted_of_failure hTick
  have hReset :=
    resetChild_world hHalt (.sequence (.action a :: rest)) c w'
  rcases hChild :
      resetChild M (.sequence (.action a :: rest)) c w' with
    ⟨c', w₁⟩
  rw [hChild] at hNext hReset
  cases hReset
  have hLoop (n : Int) (hForever : n = -1) :
      retryLoop (executeTick M (.sequence (.action a :: rest)))
          (status (.sequence (.action a :: rest)))
          (resetChild M (.sequence (.action a :: rest)))
          M.emitWakeUpSignal n retryFuel s.tryCount s.child w =
        .ok (.running, s.tryCount + 1, c',
          M.emitWakeUpSignal w₁) := by
    have hYield :
        status (.sequence (.action a :: rest)) s.child = .idle ∧
          (s.tryCount + 1 < n ∨ n = -1) :=
      ⟨hUnstarted.status, .inr hForever⟩
    rw [retryFuel, retryLoop, if_pos (.inr hForever), hTick]
    simp only [bind, Except.bind]
    rw [hChild]
    exact if_pos hYield
  refine ⟨⟨.running, s.tryCount + 1,
    resetCompletedChild _ c'⟩, ?_, ?_⟩
  · rw [executeTick, hLoop (-1) rfl]
    rfl
  · have hStatus :
        status (.sequence (.action a :: rest)) c' = .idle :=
      hNext.status
    change Unstarted (resetCompletedChild _ c')
    rw [resetCompletedChild, hStatus]
    exact hNext

------------------------------------------------------------
-- Children That Run
------------------------------------------------------------

theorem tickChildren_succ
    (M : NodeModel A C W ε)
    (child : TreeNode A C) (children : List (TreeNode A C))
    (ss : States (child :: children))
    (idx skipped : Nat) (w : W) :
    tickChildren M (child :: children) ss (idx + 1) skipped w =
      (tickChildren M children ss.2 idx skipped w).map
        (LoopResult.after ss.1) := by
  rcases ss with ⟨s, ss⟩
  rw [tickChildren]
  cases tickChildren M children ss idx skipped w <;> rfl

theorem tickChildren_running
    {child : TreeNode A C} {children : List (TreeNode A C)}
    (ss : States (child :: children)) {s' : State child}
    {w w' : W}
    (hTick : executeTick M child ss.1 w = .ok (.running, s', w'))
    (skipped : Nat) :
    tickChildren M (child :: children) ss 0 skipped w =
      .ok ⟨some .running, 0, skipped, (s', ss.2), w'⟩ := by
  change (executeTick M child ss.1 w >>= _) = _
  rw [hTick]
  rfl

/- A sequence that stands at a child that runs. -/
theorem executeTick_running
    {children : List (TreeNode A C)}
    {s : State (.sequence children)} {ss : States children}
    {idx skipped : Nat} {w w' : W}
    (hSkipped :
      skipped = if s.status.isActive then s.skippedCount else 0)
    (hLoop :
      tickChildren M children s.children s.currentChildIdx
          skipped w =
        .ok ⟨some .running, idx, skipped, ss, w'⟩) :
    executeTick M (.sequence children) s w =
      .ok (.running, ⟨.running, idx, skipped, ss⟩, w') := by
  rw [executeTick, ← hSkipped, hLoop]
  rfl

end TreeNode

end BT

end Manipulator
