import Manipulator.BehaviorTree.Execution

/-
  The engine runs executions.

  A tick that finds a node idle starts an execution of it,
  and a tick that finds it where an earlier tick left it
  RUNNING continues that execution. In particular a node
  that completes is left without a trace of its run, apart
  from its own status.

  Main declarations:
    * `NodeModel.Proper`
    * `TreeNode.TickSound`
    * `TreeNode.retryLoop_sound`
    * `TreeNode.executeTick_sound`
-/

------------------------------------------------------------
-- Sound Ticks
------------------------------------------------------------

namespace Manipulator

namespace BT

variable {A C W ε : Type}

/- A ticked leaf is running, has succeeded or has failed. -/
def NodeModel.Proper (M : NodeModel A C W ε) : Prop :=
  ∀ a s w r w', M.tick a s w = .ok (r, w') →
    r = .running ∨ r = .success ∨ r = .failure

namespace TreeNode

/- The result of a tick continues an execution from `w₀`. -/
def TickSound
    (M : NodeModel A C W ε)
    (X : Surroundings W)
    (t : TreeNode A C)
    (w₀ : W) :
    Except (TickError ε) (NodeStatus × State t × W) → Prop
| .error _ => ∃ w, Exec M X t w₀ .threw w
| .ok (.running, s, w) => Resumes M X t w₀ s w
| .ok (.success, s, w) =>
    s = setStatus .success t (idle t) ∧
      Exec M X t w₀ .success w
| .ok (.failure, s, w) =>
    s = setStatus .failure t (idle t) ∧
      Exec M X t w₀ .failure w
| .ok _ => False

/- A node at its start, or resumable when it is ticked. -/
def At
    (M : NodeModel A C W ε)
    (X : Surroundings W)
    (t : TreeNode A C)
    (w₀ : W)
    (s : State t)
    (w : W) : Prop :=
  (s = idle t ∧ w = w₀) ∨ (Resumes M X t w₀ s w ∧ X.Guard w)

def AtAll
    (M : NodeModel A C W ε)
    (X : Surroundings W)
    (ts : List (TreeNode A C))
    (w₀ : W)
    (idx : Nat)
    (ss : States ts)
    (w : W) : Prop :=
  (idx = 0 ∧ ss = idles ts ∧ w = w₀) ∨
    (ResumesAt M X ts w₀ idx ss w ∧ X.Guard w)

/- The result of a sequence's loop continues an execution. -/
def LoopSound
    (M : NodeModel A C W ε)
    (X : Surroundings W)
    (ts : List (TreeNode A C))
    (w₀ : W) :
    Except (TickError ε) (LoopResult (States ts) W) → Prop
| .error _ => ∃ w, ExecAll M X ts w₀ .threw w
| .ok r =>
    r.skipped = 0 ∧
      match r.stop with
      | none =>
          r.idx = ts.length ∧ Settled ts r.children ∧
            ExecAll M X ts w₀ .success r.world
      | some .running =>
          ResumesAt M X ts w₀ r.idx r.children r.world
      | some .failure =>
          Settled ts r.children ∧
            ExecAll M X ts w₀ .failure r.world
      | some _ => False

/- The result of a retry's loop continues an execution. -/
def RetrySound
    (M : NodeModel A C W ε)
    (X : Surroundings W)
    (child : TreeNode A C)
    (maxAttempts : Int)
    (w₀ : W) :
    Except (TickError ε) (NodeStatus × Int × State child × W) →
      Prop
| .error _ =>
    ∃ w, RetryRun M X (Exec M X child) maxAttempts w₀ .threw w
| .ok (.running, tryCount, c, w) =>
    (tryCount < maxAttempts ∨ maxAttempts = -1) ∧
      ((c = idle child ∧
          Attempts M X (Exec M X child) w₀ w) ∨
        ∃ w₁, Attempts M X (Exec M X child) w₀ w₁ ∧
          Resumes M X child w₁ c w)
| .ok (.success, tryCount, c, w) =>
    tryCount = 0 ∧ c = idle child ∧
      RetryRun M X (Exec M X child) maxAttempts w₀ .success w
| .ok (.failure, tryCount, c, w) =>
    tryCount = 0 ∧ c = idle child ∧
      RetryRun M X (Exec M X child) maxAttempts w₀ .failure w
| .ok _ => False

variable {M : NodeModel A C W ε} {X : Surroundings W}

------------------------------------------------------------
-- Retry
------------------------------------------------------------

/-
  The loop of a retry node over a sound child that is idle:
  two passes are enough, because a second failure is reached
  only when the attempts are used up.
-/
theorem retryLoop_sound_idle
    {child : TreeNode A C}
    (hChild :
      ∀ w₁ s w, At M X child w₁ s w →
        TickSound M X child w₁ (executeTick M child s w))
    (maxAttempts : Int)
    (fuel : Nat)
    (tryCount : Int)
    {w₀ w : W}
    (hAttempts : Attempts M X (Exec M X child) w₀ w) :
    RetrySound M X child maxAttempts w₀
      (retryLoop (executeTick M child) (status child)
        (resetChild M child) M.emitWakeUpSignal maxAttempts
        (fuel + 2) tryCount (idle child) w) := by
  have hTick := hChild w (idle child) w (.inl ⟨rfl, rfl⟩)
  rw [retryLoop]
  split
  · rename_i hFirst
    cases hResult : executeTick M child (idle child) w with
    | error e =>
        rw [hResult] at hTick
        rcases hTick with ⟨w', hExec⟩
        exact ⟨w', w, hAttempts, hExec⟩
    | ok result =>
        rcases result with ⟨r, c, w'⟩
        rw [hResult] at hTick
        cases r with
        | running =>
            exact ⟨hFirst, .inr ⟨w, hAttempts, hTick⟩⟩
        | success =>
            rcases hTick with ⟨rfl, hExec⟩
            have hReset :=
              resetChild_settled M child
                (r := .success) (by simp) w'
            simp only [bind, Except.bind, hReset]
            exact ⟨rfl, rfl, w, hAttempts, hExec⟩
        | failure =>
            rcases hTick with ⟨rfl, hExec⟩
            have hReset :=
              resetChild_settled M child
                (r := .failure) (by simp) w'
            have hNext := Attempts.fail hAttempts hExec
            by_cases hLoop :
                tryCount + 1 < maxAttempts ∨ maxAttempts = -1
            · simp only [bind, Except.bind, hReset,
                status_idle, hLoop, and_self, if_true]
              exact ⟨hLoop, .inl ⟨rfl, .wake hNext⟩⟩
            · simp only [bind, Except.bind, hReset,
                status_idle, hLoop, and_false, if_false,
                retryLoop]
              exact ⟨rfl, rfl, w', hNext, rfl,
                fun hEq => hLoop (.inr hEq)⟩
        | idle => exact hTick.elim
        | skipped => exact hTick.elim
  · rename_i hLoop
    exact ⟨rfl, rfl, w, hAttempts, rfl,
      fun hEq => hLoop (.inr hEq)⟩

/-
  The loop over a child that is running: its failure does
  not yield, so that one more pass may follow.
-/
theorem retryLoop_sound_running
    {child : TreeNode A C}
    (hChild :
      ∀ w₁ s w, At M X child w₁ s w →
        TickSound M X child w₁ (executeTick M child s w))
    {maxAttempts : Int}
    {tryCount : Int}
    (hLoop : tryCount < maxAttempts ∨ maxAttempts = -1)
    {w₀ w₁ w : W}
    {c : State child}
    (hAttempts : Attempts M X (Exec M X child) w₀ w₁)
    (hResumes : Resumes M X child w₁ c w)
    (hGuard : X.Guard w) :
    RetrySound M X child maxAttempts w₀
      (retryLoop (executeTick M child) (status child)
        (resetChild M child) M.emitWakeUpSignal maxAttempts
        retryFuel tryCount c w) := by
  have hTick := hChild w₁ c w (.inr ⟨hResumes, hGuard⟩)
  have hStatus : status child c = .running := hResumes.status
  rw [retryFuel, retryLoop, if_pos hLoop]
  cases hResult : executeTick M child c w with
  | error e =>
      rw [hResult] at hTick
      rcases hTick with ⟨w', hExec⟩
      exact ⟨w', w₁, hAttempts, hExec⟩
  | ok result =>
      rcases result with ⟨r, c', w'⟩
      rw [hResult] at hTick
      cases r with
      | running =>
          exact ⟨hLoop, .inr ⟨w₁, hAttempts, hTick⟩⟩
      | success =>
          rcases hTick with ⟨rfl, hExec⟩
          have hReset :=
            resetChild_settled M child
              (r := .success) (by simp) w'
          simp only [bind, Except.bind, hReset]
          exact ⟨rfl, rfl, w₁, hAttempts, hExec⟩
      | failure =>
          rcases hTick with ⟨rfl, hExec⟩
          have hReset :=
            resetChild_settled M child
              (r := .failure) (by simp) w'
          simp only [bind, Except.bind, hReset, hStatus,
            reduceCtorEq, false_and, if_false]
          exact retryLoop_sound_idle hChild maxAttempts 0
            (tryCount + 1) (.fail hAttempts hExec)
      | idle => exact hTick.elim
      | skipped => exact hTick.elim

------------------------------------------------------------
-- Node By Node
------------------------------------------------------------

/- A retry node over a sound child. -/
theorem retry_sound
    {child : TreeNode A C}
    (hChild :
      ∀ w₁ s w, At M X child w₁ s w →
        TickSound M X child w₁ (executeTick M child s w))
    (maxAttempts : Int)
    {w₀ w : W}
    {s : State (.retry maxAttempts child : TreeNode A C)}
    (hAt : At M X (.retry maxAttempts child) w₀ s w) :
    TickSound M X (.retry maxAttempts child) w₀
      (executeTick M (.retry maxAttempts child) s w) := by
  have hLoop :
      RetrySound M X child maxAttempts w₀
        (retryLoop (executeTick M child) (status child)
          (resetChild M child) M.emitWakeUpSignal maxAttempts
          retryFuel s.tryCount s.child w) := by
    rcases hAt with ⟨rfl, rfl⟩ | ⟨⟨_, hLoop, hState⟩, hGuard⟩
    · exact retryLoop_sound_idle hChild maxAttempts 1 0 .refl
    · rcases hState with
        ⟨hIdle, hAttempts⟩ | ⟨w₁, hAttempts, hResumes⟩
      · rw [hIdle]
        exact retryLoop_sound_idle hChild maxAttempts 1 _
          hAttempts
      · exact retryLoop_sound_running hChild hLoop hAttempts
          hResumes hGuard
  rw [executeTick]
  cases hResult :
      retryLoop (executeTick M child) (status child)
        (resetChild M child) M.emitWakeUpSignal maxAttempts
        retryFuel s.tryCount s.child w with
  | error e =>
      rw [hResult] at hLoop
      exact hLoop
  | ok result =>
      rcases result with ⟨r, tryCount, c, w'⟩
      rw [hResult] at hLoop
      cases r with
      | running =>
          rcases hLoop with
            ⟨hCount, ⟨rfl, hAttempts⟩ | ⟨w₁, hAttempts, hRun⟩⟩
          · simp only [bind, Except.bind, finishTick,
              resetCompletedChild_idle]
            exact ⟨rfl, hCount, .inl ⟨rfl, hAttempts⟩⟩
          · have hRunning :=
              resetCompletedChild_of_running child hRun.status
            simp only [bind, Except.bind, finishTick, hRunning]
            exact ⟨rfl, hCount, .inr ⟨w₁, hAttempts, hRun⟩⟩
      | success =>
          rcases hLoop with ⟨rfl, rfl, hRun⟩
          simp only [bind, Except.bind, finishTick,
            resetCompletedChild_idle]
          exact ⟨rfl, hRun⟩
      | failure =>
          rcases hLoop with ⟨rfl, rfl, hRun⟩
          simp only [bind, Except.bind, finishTick,
            resetCompletedChild_idle]
          exact ⟨rfl, hRun⟩
      | idle => exact hLoop.elim
      | skipped => exact hLoop.elim

/- The child of a precondition that was let through. -/
private theorem precondition_child_sound
    {child : TreeNode A C}
    {script : C} {elseReturn r : NodeStatus}
    {w₀ w₁ w : W}
    (q : NodeStatus)
    {c : State child}
    (hScript : M.executor script w₀ = .ok (true, w₁))
    (hTick : TickSound M X child w₁ (.ok (r, c, w))) :
    TickSound M X (.precondition script elseReturn child) w₀
      (if r.isCompleted then
        let (c, w) := resetChild M child c w
        finishTick (.precondition script elseReturn child) r
          ⟨q, false, resetCompletedChild child c⟩ w
      else
        finishTick (.precondition script elseReturn child) r
          ⟨q, true, resetCompletedChild child c⟩ w) := by
  cases r with
  | running =>
      have hRunning :=
        resetCompletedChild_of_running child hTick.status
      simp only [NodeStatus.isCompleted, Bool.false_eq_true,
        if_false, finishTick, hRunning]
      exact ⟨rfl, rfl, w₁, hScript, hTick⟩
  | success =>
      rcases hTick with ⟨rfl, hExec⟩
      have hReset :=
        resetChild_settled M child (r := .success) (by simp) w
      simp only [NodeStatus.isCompleted, if_true, hReset,
        finishTick, resetCompletedChild_idle]
      exact ⟨rfl, .inl ⟨w₁, hScript, hExec⟩⟩
  | failure =>
      rcases hTick with ⟨rfl, hExec⟩
      have hReset :=
        resetChild_settled M child (r := .failure) (by simp) w
      simp only [NodeStatus.isCompleted, if_true, hReset,
        finishTick, resetCompletedChild_idle]
      exact ⟨rfl, .inl ⟨w₁, hScript, hExec⟩⟩
  | idle => exact hTick.elim
  | skipped => exact hTick.elim

/-
  A precondition over a sound child: the script is evaluated
  only at the start.
-/
theorem precondition_sound
    {child : TreeNode A C}
    (hChild :
      ∀ w₁ s w, At M X child w₁ s w →
        TickSound M X child w₁ (executeTick M child s w))
    (script : C)
    {elseReturn : NodeStatus}
    (hElse : elseReturn.isCompleted)
    {w₀ w : W}
    {s : State (.precondition script elseReturn child)}
    (hAt :
      At M X (.precondition script elseReturn child) w₀ s w) :
    TickSound M X (.precondition script elseReturn child) w₀
      (executeTick M
        (.precondition script elseReturn child) s w) := by
  rw [executeTick]
  rcases hAt with
    ⟨rfl, rfl⟩ | ⟨⟨_, hRunning, w₁, hScript, hRun⟩, hGuard⟩
  · simp only [idle, Bool.false_eq_true, if_false,
      resetCompletedChild_idle]
    cases hScript : M.executor script w with
    | error e => exact ⟨w, .inr (.inr ⟨e, hScript, rfl⟩)⟩
    | ok result =>
        rcases result with ⟨condition, w₁⟩
        cases condition with
        | false =>
            cases elseReturn with
            | success =>
                exact ⟨rfl, .inr (.inl ⟨hScript, rfl⟩)⟩
            | failure =>
                exact ⟨rfl, .inr (.inl ⟨hScript, rfl⟩)⟩
            | idle => cases hElse
            | running => cases hElse
            | skipped => cases hElse
        | true =>
            have hTick :=
              hChild w₁ (idle child) w₁ (.inl ⟨rfl, rfl⟩)
            cases hResult : executeTick M child (idle child) w₁ with
            | error e =>
                rw [hResult] at hTick
                rcases hTick with ⟨w', hExec⟩
                simp only [bind, Except.bind, hResult]
                exact ⟨w', .inl ⟨w₁, hScript, hExec⟩⟩
            | ok result =>
                rw [hResult] at hTick
                simp only [bind, Except.bind, hResult]
                exact precondition_child_sound _ hScript hTick
  · have hTick := hChild w₁ s.child w (.inr ⟨hRun, hGuard⟩)
    simp only [hRunning, if_true]
    cases hResult : executeTick M child s.child w with
    | error e =>
        rw [hResult] at hTick
        rcases hTick with ⟨w', hExec⟩
        exact ⟨w', .inl ⟨w₁, hScript, hExec⟩⟩
    | ok result =>
        rw [hResult] at hTick
        exact precondition_child_sound _ hScript hTick

/- A leaf. -/
theorem action_sound
    (hProper : M.Proper)
    (a : A)
    {w₀ w : W}
    {s : State (.action a : TreeNode A C)}
    (hAt : At M X (.action a) w₀ s w) :
    TickSound M X (.action a) w₀
      (executeTick M (.action a) s w) := by
  have hRun :
      ∀ {o : Outcome} {w' : W},
        LeafTick (M.tick a s w) o w' →
          ActionRun M X a w₀ o w' := by
    intro o w' hTick
    rcases hAt with ⟨rfl, rfl⟩ | ⟨⟨rfl, hRun⟩, hGuard⟩
    · exact .start hTick
    · exact .resume hRun hGuard hTick
  rw [executeTick]
  cases hTick : M.tick a s w with
  | error e => exact ⟨w, hRun (by rw [hTick]; exact .threw)⟩
  | ok result =>
      rcases result with ⟨r, w'⟩
      rcases hProper a s w r w' hTick with rfl | rfl | rfl
      · exact ⟨rfl, hRun (by rw [hTick]; exact .running)⟩
      · exact ⟨rfl, hRun (by rw [hTick]; exact .success)⟩
      · exact ⟨rfl, hRun (by rw [hTick]; exact .failure)⟩

/- A sequence over a sound loop. -/
theorem sequence_sound
    {children : List (TreeNode A C)}
    (hNonempty : children ≠ [])
    (hLoop :
      ∀ w₁ idx ss w, AtAll M X children w₁ idx ss w →
        LoopSound M X children w₁
          (tickChildren M children ss idx 0 w))
    {w₀ w : W}
    {s : State (.sequence children)}
    (hAt : At M X (.sequence children) w₀ s w) :
    TickSound M X (.sequence children) w₀
      (executeTick M (.sequence children) s w) := by
  have hSkipped :
      (if s.status.isActive then s.skippedCount else 0) = 0 := by
    rcases hAt with ⟨rfl, rfl⟩ | ⟨⟨_, hSkipped, _⟩, _⟩
    · simp [idle, NodeStatus.isActive]
    · simp [hSkipped]
  have hSound :
      LoopSound M X children w₀
        (tickChildren M children s.children s.currentChildIdx
          0 w) := by
    rcases hAt with ⟨rfl, rfl⟩ | ⟨⟨_, _, hAt⟩, hGuard⟩
    · exact hLoop _ _ _ _ (.inl ⟨rfl, rfl, rfl⟩)
    · exact hLoop _ _ _ _ (.inr ⟨hAt, hGuard⟩)
  rw [executeTick, hSkipped]
  cases hResult :
      tickChildren M children s.children s.currentChildIdx
        0 w with
  | error e =>
      rw [hResult] at hSound
      exact hSound
  | ok r =>
      rw [hResult] at hSound
      rcases r with ⟨stop, idx, skipped, ss, w'⟩
      rcases hSound with ⟨hZero, hStop⟩
      simp only at hZero
      subst hZero
      rcases stop with _ | stop
      · rcases hStop with ⟨hIdx, hSettled, hExec⟩
        simp only at hIdx
        have hLength : ¬ 0 = children.length := by
          intro hEq
          exact hNonempty (List.length_eq_zero_iff.mp hEq.symm)
        have hReset :=
          resetChildren_settled M children hSettled w'
        simp only [bind, Except.bind, hLength, if_false, hIdx,
          if_true, hReset, finishTick]
        exact ⟨rfl, hExec⟩
      · cases stop with
        | running => exact ⟨rfl, rfl, hStop⟩
        | failure =>
            rcases hStop with ⟨hSettled, hExec⟩
            have hReset :=
              resetChildren_settled M children hSettled w'
            simp only [bind, Except.bind, hReset, finishTick]
            exact ⟨rfl, hExec⟩
        | idle => exact hStop.elim
        | success => exact hStop.elim
        | skipped => exact hStop.elim

/- One child, and a sound loop over those after it. -/
private theorem child_sound
    {child : TreeNode A C}
    {children : List (TreeNode A C)}
    {w₀ w : W}
    {s : State child} {ss : States children}
    (hLoop :
      ∀ w₁, LoopSound M X children w₁
        (tickChildren M children (idles children) 0 0 w₁))
    (hIdle : ss = idles children)
    (hTick : TickSound M X child w₀ (executeTick M child s w)) :
    LoopSound M X (child :: children) w₀
      (tickChildren M (child :: children) (s, ss) 0 0 w) := by
  subst hIdle
  rw [tickChildren]
  cases hResult : executeTick M child s w with
  | error e =>
      rw [hResult] at hTick
      rcases hTick with ⟨w', hExec⟩
      exact ⟨w', .inl ⟨by simp, hExec⟩⟩
  | ok result =>
      rcases result with ⟨r, c, w'⟩
      rw [hResult] at hTick
      cases r with
      | running => exact ⟨rfl, hTick, rfl⟩
      | failure =>
          rcases hTick with ⟨rfl, hExec⟩
          refine ⟨rfl, ⟨⟨.failure, by simp, rfl⟩, ?_⟩, ?_⟩
          · exact settled_idles children
          · exact .inl ⟨by simp, hExec⟩
      | success =>
          rcases hTick with ⟨rfl, hExec⟩
          have hRest := hLoop w'
          simp only [bind, Except.bind]
          cases hNext :
              tickChildren M children (idles children) 0 0 w' with
          | error e =>
              rw [hNext] at hRest
              rcases hRest with ⟨w'', hAll⟩
              exact ⟨w'', .inr ⟨w', hExec, hAll⟩⟩
          | ok r =>
              rw [hNext] at hRest
              rcases r with ⟨stop, idx, skipped, cs, w''⟩
              rcases hRest with ⟨hZero, hStop⟩
              refine ⟨hZero, ?_⟩
              rcases stop with _ | stop
              · rcases hStop with ⟨hIdx, hSettled, hAll⟩
                refine ⟨congrArg (· + 1) hIdx, ?_, ?_⟩
                · exact ⟨⟨.success, by simp, rfl⟩, hSettled⟩
                · exact .inr ⟨w', hExec, hAll⟩
              · cases stop with
                | running => exact ⟨rfl, w', hExec, hStop⟩
                | failure =>
                    rcases hStop with ⟨hSettled, hAll⟩
                    refine ⟨⟨⟨.success, by simp, rfl⟩, ?_⟩, ?_⟩
                    · exact hSettled
                    · exact .inr ⟨w', hExec, hAll⟩
                | idle => exact hStop.elim
                | success => exact hStop.elim
                | skipped => exact hStop.elim
      | idle => exact hTick.elim
      | skipped => exact hTick.elim

/- The children before the running one are passed over. -/
private theorem passed_sound
    {child : TreeNode A C}
    {children : List (TreeNode A C)}
    {w₀ w₁ w : W}
    {idx : Nat}
    {s : State child} {ss : States children}
    (hDone : s = setStatus .success child (idle child))
    (hExec : Exec M X child w₀ .success w₁)
    (hLoop :
      LoopSound M X children w₁
        (tickChildren M children ss idx 0 w)) :
    LoopSound M X (child :: children) w₀
      (tickChildren M (child :: children) (s, ss) (idx + 1) 0
        w) := by
  rw [tickChildren]
  cases hNext : tickChildren M children ss idx 0 w with
  | error e =>
      rw [hNext] at hLoop
      rcases hLoop with ⟨w', hAll⟩
      exact ⟨w', .inr ⟨w₁, hExec, hAll⟩⟩
  | ok r =>
      rw [hNext] at hLoop
      rcases r with ⟨stop, idx, skipped, cs, w'⟩
      rcases hLoop with ⟨hZero, hStop⟩
      refine ⟨hZero, ?_⟩
      rcases stop with _ | stop
      · rcases hStop with ⟨hIdx, hSettled, hAll⟩
        refine ⟨congrArg (· + 1) hIdx, ?_, ?_⟩
        · exact ⟨⟨.success, by simp, hDone⟩, hSettled⟩
        · exact .inr ⟨w₁, hExec, hAll⟩
      · cases stop with
        | running => exact ⟨hDone, w₁, hExec, hStop⟩
        | failure =>
            rcases hStop with ⟨hSettled, hAll⟩
            refine ⟨⟨⟨.success, by simp, hDone⟩, hSettled⟩, ?_⟩
            exact .inr ⟨w₁, hExec, hAll⟩
        | idle => exact hStop.elim
        | success => exact hStop.elim
        | skipped => exact hStop.elim

------------------------------------------------------------
-- Whole Trees
------------------------------------------------------------

mutual

/-
  Every tick of a well-formed tree starts or continues an
  execution of it. The induction follows the tree.
-/
theorem executeTick_sound
    (hProper : M.Proper) :
    (t : TreeNode A C) → WellFormed t →
      ∀ w₀ s w, At M X t w₀ s w →
        TickSound M X t w₀ (executeTick M t s w)
| .action a, _, _, _, _, hAt => action_sound hProper a hAt
| .sequence children, hWell, _, _, _, hAt =>
    sequence_sound hWell.1
      (tickChildren_sound hProper children hWell.2) hAt
| .retry maxAttempts child, hWell, _, _, _, hAt =>
    retry_sound (executeTick_sound hProper child hWell)
      maxAttempts hAt
| .precondition script _ child, hWell, _, _, _, hAt =>
    precondition_sound
      (executeTick_sound hProper child hWell.2)
      script hWell.1 hAt

theorem tickChildren_sound
    (hProper : M.Proper) :
    (ts : List (TreeNode A C)) → AllWellFormed ts →
      ∀ w₀ idx ss w, AtAll M X ts w₀ idx ss w →
        LoopSound M X ts w₀ (tickChildren M ts ss idx 0 w)
| [], _, w₀, idx, ss, w, hAt => by
    rcases hAt with ⟨rfl, rfl, rfl⟩ | ⟨hAt, _⟩
    · exact ⟨rfl, rfl, trivial, rfl, rfl⟩
    · exact hAt.elim
| child :: children, hWell, w₀, idx, ss, w, hAt => by
    have hLoop :
        ∀ w₁, LoopSound M X children w₁
          (tickChildren M children (idles children) 0 0 w₁) :=
      fun w₁ =>
        tickChildren_sound hProper children hWell.2 w₁ 0 _ w₁
          (.inl ⟨rfl, rfl, rfl⟩)
    rcases hAt with ⟨rfl, rfl, rfl⟩ | ⟨hAt, hGuard⟩
    · exact child_sound hLoop rfl
        (executeTick_sound hProper child hWell.1 w _ w
          (.inl ⟨rfl, rfl⟩))
    · rcases ss with ⟨s, ss⟩
      cases idx with
      | zero =>
          rcases hAt with ⟨hRun, hIdle⟩
          exact child_sound hLoop hIdle
            (executeTick_sound hProper child hWell.1 w₀ s w
              (.inr ⟨hRun, hGuard⟩))
      | succ idx =>
          rcases hAt with ⟨hDone, w₁, hExec, hAt⟩
          exact passed_sound hDone hExec
            (tickChildren_sound hProper children hWell.2 w₁ idx
              ss w (.inr ⟨hAt, hGuard⟩))

end

end TreeNode

end BT

end Manipulator
