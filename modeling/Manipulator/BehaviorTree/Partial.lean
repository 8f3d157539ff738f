import Manipulator.BehaviorTree.Frame
import Manipulator.BehaviorTree.Triple

/-
  Partial correctness of behavior trees.

  A partial triple says nothing about an execution that
  throws. It is what is left of a triple when an assertion
  does not know enough of the world to exclude that, such as
  an assertion about the record of the ticks alone.

  Main declarations:
    * `Partial`, `PartialAll`
    * `Partial.action`, `Partial.sequence`, `Partial.cons`,
      `Partial.retry`, `Partial.precondition`
    * `Partial.of_leaves`, `Partial.recorded`
    * `RootReach.resumes`, `RootReach.running`
-/

------------------------------------------------------------
-- Partial Triples
------------------------------------------------------------

namespace Manipulator

namespace BT

variable {A C W ε : Type}

section Triples

variable (M : NodeModel A C W ε) (X : Surroundings W)

def Partial
    (P : W → Prop)
    (t : TreeNode A C)
    (post : Post W) : Prop :=
  ∀ w₀ o w, P w₀ → o ≠ .threw → TreeNode.Exec M X t w₀ o w →
    post.Holds o w

def PartialAll
    (P : W → Prop)
    (ts : List (TreeNode A C))
    (post : Post W) : Prop :=
  ∀ w₀ o w, P w₀ → o ≠ .threw → TreeNode.ExecAll M X ts w₀ o w →
    post.Holds o w

end Triples

/- The status that a leaf returned. -/
def Outcome.status : Outcome → NodeStatus
| .running => .running
| .success => .success
| .failure => .failure
| .threw => .idle

theorem Outcome.status_eq_failure {o : Outcome} :
    o.status = .failure ↔ o = .failure := by
  cases o <;> simp [Outcome.status]

/- A tick that does not throw returns its outcome. -/
theorem LeafTick.eq_ok
    {x : Except ε (NodeStatus × W)} {o : Outcome} {w : W}
    (hTick : LeafTick x o w)
    (hThrew : o ≠ .threw) : x = .ok (o.status, w) := by
  cases hTick with
  | running => rfl
  | success => rfl
  | failure => rfl
  | threw => exact absurd rfl hThrew

/- Conditions on the record of an observed model. -/
def Post.recorded
    (post : Post (List (Ticked A))) : Post (Observed A W) where
  running := fun v => post.running v.ticks
  success := fun v => post.success v.ticks
  failure := fun v => post.failure v.ticks

theorem Post.recorded_holds
    (post : Post (List (Ticked A)))
    (o : Outcome) (v : Observed A W) :
    post.recorded.Holds o v ↔ post.Holds o v.ticks := by
  cases o <;> exact Iff.rfl

/- A tick of an observed leaf is recorded. -/
theorem LeafTick.of_observe
    {M : NodeModel A C W ε} {a : A} {s : NodeStatus}
    {o : Outcome} {v v' : Observed A W}
    (hTick : LeafTick (M.observe.tick a s v) o v')
    (hThrew : o ≠ .threw) :
    LeafTick (M.tick a s v.world) o v'.world ∧
      v'.ticks = ⟨a, s, o.status⟩ :: v.ticks := by
  cases hLeaf : M.tick a s v.world with
  | error e =>
      simp only [NodeModel.observe, hLeaf] at hTick
      cases hTick
      exact absurd rfl hThrew
  | ok result =>
      rcases result with ⟨r, w⟩
      simp only [NodeModel.observe, hLeaf] at hTick
      cases hTick with
      | running => exact ⟨.running, rfl⟩
      | success => exact ⟨.success, rfl⟩
      | failure => exact ⟨.failure, rfl⟩

/- A triple is a partial one. -/
theorem Triple.partial_
    {M : NodeModel A C W ε} {X : Surroundings W}
    {P : W → Prop} {t : TreeNode A C} {post : Post W}
    (hTriple : Triple M X P t post) : Partial M X P t post :=
  fun w₀ o w hStart _ hExec => hTriple w₀ o w hStart hExec

namespace Partial

variable {M : NodeModel A C W ε} {X : Surroundings W}

theorem consequence
    {P P' : W → Prop}
    {t : TreeNode A C}
    {post post' : Post W}
    (hPartial : Partial M X P t post)
    (hPre : ∀ w, P' w → P w)
    (hPost : post.Implies post') :
    Partial M X P' t post' := by
  intro w₀ o w hStart hThrew hExec
  exact hPost o w (hPartial w₀ o w (hPre w₀ hStart) hThrew hExec)

/- A leaf, by its ticks that do not throw. -/
theorem action
    {P : W → Prop}
    {a : A}
    {post : Post W}
    (hStart :
      ∀ w o w', P w → LeafTick (M.tick a .idle w) o w' →
        o ≠ .threw → post.Holds o w')
    (hEnv :
      ∀ w w', post.running w → X.Env w w' → post.running w')
    (hResume :
      ∀ w o w', post.running w →
        LeafTick (M.tick a .running w) o w' → o ≠ .threw →
          post.Holds o w') :
    Partial M X P (.action a) post := by
  intro w₀ o w hPre hThrew hRun
  induction hRun with
  | start hTick => exact hStart w₀ _ _ hPre hTick hThrew
  | env _ hStep ih => exact hEnv _ _ (ih hThrew) hStep
  | resume _ _ hTick ih =>
      exact hResume _ _ _ (ih (by simp)) hTick hThrew

theorem sequence
    {P : W → Prop}
    {children : List (TreeNode A C)}
    {post : Post W}
    (hAll : PartialAll M X P children post) :
    Partial M X P (.sequence children) post :=
  hAll

theorem cons
    {P Q : W → Prop}
    {child : TreeNode A C}
    {children : List (TreeNode A C)}
    {post : Post W}
    (hChild :
      Partial M X P child { post with success := Q })
    (hRest : PartialAll M X Q children post) :
    PartialAll M X P (child :: children) post := by
  intro w₀ o w hPre hThrew hExec
  rcases hExec with ⟨hStop, hExec⟩ | ⟨w₁, hExec, hRun⟩
  · have hHolds := hChild w₀ o w hPre hThrew hExec
    cases o with
    | running => exact hHolds
    | success => exact absurd rfl hStop
    | failure => exact hHolds
    | threw => exact absurd rfl hThrew
  · exact hRest w₁ o w
      (hChild w₀ .success w₁ hPre (by simp) hExec) hThrew hRun

theorem nil
    {P : W → Prop}
    {post : Post W}
    (hPost : ∀ w, P w → post.success w) :
    PartialAll M X P ([] : List (TreeNode A C)) post := by
  intro w₀ o w hPre _ hExec
  rcases hExec with ⟨rfl, rfl⟩
  exact hPost w hPre

/- The last child. -/
theorem last
    {P : W → Prop}
    {child : TreeNode A C}
    {post : Post W}
    (hChild : Partial M X P child post) :
    PartialAll M X P [child] post :=
  cons hChild (nil fun _ hSuccess => hSuccess)

/- A precondition, by what its script makes of the world. -/
theorem precondition
    {P T : W → Prop}
    {script : C}
    {elseReturn : NodeStatus}
    {child : TreeNode A C}
    {post : Post W}
    (hScript :
      ∀ w b w', P w → M.executor script w = .ok (b, w') →
        if b then T w'
        else ∀ o, elseReturn.outcome? = some o →
          post.Holds o w')
    (hChild : Partial M X T child post) :
    Partial M X P (.precondition script elseReturn child)
      post := by
  intro w₀ o w hPre hThrew hExec
  rcases hExec with
    ⟨w₁, hTrue, hExec⟩ | ⟨hFalse, hElse⟩ | ⟨_, _, rfl⟩
  · exact
      hChild w₁ o w (hScript w₀ true w₁ hPre hTrue) hThrew hExec
  · exact hScript w₀ false w hPre hFalse o hElse
  · exact absurd rfl hThrew

/- Retrying without a limit, from attempt to attempt. -/
theorem retry
    {I : W → Prop}
    {child : TreeNode A C}
    {post : Post W}
    (hChild : Partial M X I child { post with failure := I })
    (hEnv : ∀ w w', I w → X.Env w w' → I w')
    (hWake : ∀ w, I w → I (M.emitWakeUpSignal w))
    (hYield : ∀ w, I w → post.running w) :
    Partial M X I (.retry (-1) child) post := by
  intro w₀ o w hPre hThrew hExec
  rcases hExec with ⟨w₁, hAttempts, hRun⟩
  have hHead : I w₁ := by
    clear hRun
    induction hAttempts with
    | refl => exact hPre
    | fail _ hFail ih =>
        exact hChild _ .failure _ ih (by simp) hFail
    | wake _ ih => exact hWake _ ih
    | env _ hStep ih => exact hEnv _ _ ih hStep
  cases o with
  | running =>
      rcases hRun with hRun | rfl
      · exact hChild w₁ .running w hHead hThrew hRun
      · exact hYield w hHead
  | success => exact hChild w₁ .success w hHead hThrew hRun
  | failure => exact absurd rfl hRun.2
  | threw => exact absurd rfl hThrew

mutual

/-
  A tree that never retries keeps what each of its leaves
  keeps, until one of them fails.
-/
theorem of_leaves
    {P F : W → Prop}
    (hImp : ∀ w, P w → F w)
    (hExecutor :
      ∀ script w b w', P w →
        M.executor script w = .ok (b, w') → P w') :
    (t : TreeNode A C) → t.retries = false →
      (∀ a ∈ t.leaves, Partial M X P (.action a) ⟨P, P, F⟩) →
        Partial M X P t ⟨P, P, F⟩
| .action a, _, hLeaves => hLeaves a List.mem_cons_self
| .sequence children, hRetries, hLeaves =>
    sequence (all_of_leaves hImp hExecutor children hRetries
      hLeaves)
| .retry _ _, hRetries, _ => by cases hRetries
| .precondition script elseReturn child, hRetries, hLeaves => by
    apply precondition (T := P) _
      (of_leaves hImp hExecutor child hRetries hLeaves)
    intro w b w' hHolds hScript
    have hAfter := hExecutor script w b w' hHolds hScript
    cases b with
    | true => exact hAfter
    | false =>
        intro o hElse
        cases elseReturn with
        | success =>
            cases hElse
            exact hAfter
        | failure =>
            cases hElse
            exact hImp w' hAfter
        | idle => cases hElse
        | running => cases hElse
        | skipped => cases hElse

theorem all_of_leaves
    {P F : W → Prop}
    (hImp : ∀ w, P w → F w)
    (hExecutor :
      ∀ script w b w', P w →
        M.executor script w = .ok (b, w') → P w') :
    (ts : List (TreeNode A C)) →
      TreeNode.retriesAny ts = false →
      (∀ a ∈ TreeNode.leavesAll ts,
        Partial M X P (.action a) ⟨P, P, F⟩) →
        PartialAll M X P ts ⟨P, P, F⟩
| [], _, _ => nil fun _ hHolds => hHolds
| child :: children, hRetries, hLeaves => by
    rw [TreeNode.retriesAny, Bool.or_eq_false_iff] at hRetries
    apply cons (Q := P)
    · apply of_leaves hImp hExecutor child hRetries.1
      intro a hMember
      exact hLeaves a (List.mem_append_left _ hMember)
    · apply all_of_leaves hImp hExecutor children hRetries.2
      intro a hMember
      exact hLeaves a (List.mem_append_right _ hMember)

end

------------------------------------------------------------
-- Records Of Ticks
------------------------------------------------------------

/-
  A leaf of an observed model, by what its ticks add to the
  record.
-/
theorem recorded
    {X : Surroundings (Observed A W)}
    {P : List (Ticked A) → Prop}
    {a : A}
    {post : Post (List (Ticked A))}
    (hEnv : ∀ v v', X.Env v v' → v'.ticks = v.ticks)
    (hStart :
      ∀ h o, P h → o ≠ .threw →
        (∃ w w', LeafTick (M.tick a .idle w) o w') →
          post.Holds o (⟨a, .idle, o.status⟩ :: h))
    (hResume :
      ∀ h o, post.running h → o ≠ .threw →
        (∃ w w', LeafTick (M.tick a .running w) o w') →
          post.Holds o (⟨a, .running, o.status⟩ :: h)) :
    Partial M.observe X (fun v => P v.ticks) (.action a)
      post.recorded := by
  apply action
  · intro v o v' hPre hTick hThrew
    rcases LeafTick.of_observe hTick hThrew with
      ⟨hLeaf, hTicks⟩
    rw [Post.recorded_holds, hTicks]
    exact hStart v.ticks o hPre hThrew ⟨_, _, hLeaf⟩
  · intro v v' hRunning hStep
    change post.running v'.ticks
    rw [hEnv v v' hStep]
    exact hRunning
  · intro v o v' hRunning hTick hThrew
    rcases LeafTick.of_observe hTick hThrew with
      ⟨hLeaf, hTicks⟩
    rw [Post.recorded_holds, hTicks]
    exact hResume v.ticks o hRunning hThrew ⟨_, _, hLeaf⟩

end Partial

------------------------------------------------------------
-- The Root
------------------------------------------------------------

namespace RootReach

variable {M : NodeModel A C W ε} {X : Surroundings W}
variable {t : TreeNode A C} {P R : W → Prop}

/- A tick that returns, of a root that never completes. -/
theorem running_of_safe
    (hProper : M.Proper)
    (hWell : TreeNode.WellFormed t)
    (hPartial :
      Partial M X P t ⟨R, fun _ => False, fun _ => False⟩)
    {s s' : TreeNode.State t} {w w' : W} {r : NodeStatus}
    (hSafe : Safe M X t P s w)
    (hGuard : X.Guard w)
    (hTick : TreeNode.rootTick M t s w = .ok (r, s', w')) :
    r = .running ∧
      ∃ w₀, P w₀ ∧ TreeNode.Resumes M X t w₀ s' w' := by
  have hAt :
      ∃ w₀, P w₀ ∧ TreeNode.At M X t w₀ s w := by
    rcases hSafe with ⟨rfl, hPre⟩ | ⟨w₀, hPre, hResumes⟩
    · exact ⟨w, hPre, .inl ⟨rfl, rfl⟩⟩
    · exact ⟨w₀, hPre, .inr ⟨hResumes, hGuard⟩⟩
  rcases hAt with ⟨w₀, hPre, hAt⟩
  have hSound :=
    TreeNode.executeTick_sound hProper t hWell w₀ s w hAt
  unfold TreeNode.rootTick at hTick
  cases hResult : TreeNode.executeTick M t s w with
  | error e =>
      rw [hResult] at hTick
      cases hTick
  | ok result =>
      rcases result with ⟨q, s₁, w₁⟩
      rw [hResult] at hTick hSound
      cases q with
      | running =>
          cases hTick
          exact ⟨rfl, w₀, hPre, hSound⟩
      | success =>
          exact
            (hPartial w₀ .success w₁ hPre (by simp)
              hSound.2).elim
      | failure =>
          exact
            (hPartial w₀ .failure w₁ hPre (by simp)
              hSound.2).elim
      | idle => exact hSound.elim
      | skipped => exact hSound.elim

/- In every state reached the root can go on. -/
theorem resumes
    (hProper : M.Proper)
    (hWell : TreeNode.WellFormed t)
    (hPartial :
      Partial M X P t ⟨R, fun _ => False, fun _ => False⟩)
    (hStable : ∀ w w', P w → X.Env w w' → P w')
    {s : TreeNode.State t} {w : W}
    (hReach : RootReach M X t P s w) :
    Safe M X t P s w := by
  induction hReach with
  | init hInit => exact .inl ⟨rfl, hInit⟩
  | env _ hEnv ih =>
      rcases ih with ⟨rfl, hPre⟩ | ⟨w₀, hPre, hResumes⟩
      · exact .inl ⟨rfl, hStable _ _ hPre hEnv⟩
      · exact .inr ⟨w₀, hPre, hResumes.env hEnv t⟩
  | tick _ hGuard hTick ih =>
      exact .inr
        (running_of_safe hProper hWell hPartial ih hGuard
          hTick).2

/- What holds in every state reached. -/
theorem running
    (hProper : M.Proper)
    (hWell : TreeNode.WellFormed t)
    (hPartial :
      Partial M X P t ⟨R, fun _ => False, fun _ => False⟩)
    (hStable : ∀ w w', P w → X.Env w w' → P w')
    {s : TreeNode.State t} {w : W}
    (hReach : RootReach M X t P s w) :
    P w ∨ R w := by
  rcases resumes hProper hWell hPartial hStable hReach with
    ⟨_, hPre⟩ | ⟨w₀, hPre, hResumes⟩
  · exact .inl hPre
  · exact .inr
      (hPartial w₀ .running w hPre (by simp) (hResumes.exec t))

end RootReach

end BT

end Manipulator
