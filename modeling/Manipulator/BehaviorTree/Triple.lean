import Manipulator.BehaviorTree.Soundness

/-
  A program logic for behavior trees.

  A triple `{P} t {post}` speaks about every execution of
  `t` from a world that satisfies `P`: where it is running,
  where it has succeeded, where it has failed, and that it
  never throws. There is one rule for each class of nodes.
  The rule for the root carries a triple over to the engine,
  for any interleaving of ticks and environment steps.

  Main declarations:
    * `Post`, `Triple`, `TripleAll`
    * `Triple.action`, `Triple.sequence`, `Triple.retry`,
      `Triple.precondition`, `Triple.consequence`
    * `RootReach`, `RootReach.safe`, `RootReach.tick_ok`
-/

------------------------------------------------------------
-- Triples
------------------------------------------------------------

namespace Manipulator

namespace BT

variable {A C W ε : Type}

/- What holds while running, on success and on failure. -/
structure Post (W : Type) where
  running : W → Prop
  success : W → Prop
  failure : W → Prop

namespace Post

def Holds (post : Post W) : Outcome → W → Prop
| .running => post.running
| .success => post.success
| .failure => post.failure
| .threw => fun _ => False

/- Weakening of each of the three conditions. -/
def Implies (post post' : Post W) : Prop :=
  ∀ o w, post.Holds o w → post'.Holds o w

theorem Implies.of_parts
    {post post' : Post W}
    (hRunning : ∀ w, post.running w → post'.running w)
    (hSuccess : ∀ w, post.success w → post'.success w)
    (hFailure : ∀ w, post.failure w → post'.failure w) :
    post.Implies post' := by
  intro o w hHolds
  cases o with
  | running => exact hRunning w hHolds
  | success => exact hSuccess w hHolds
  | failure => exact hFailure w hHolds
  | threw => exact hHolds

end Post

section Triples

variable (M : NodeModel A C W ε) (X : Surroundings W)

def Triple
    (P : W → Prop)
    (t : TreeNode A C)
    (post : Post W) : Prop :=
  ∀ w₀ o w, P w₀ → TreeNode.Exec M X t w₀ o w →
    post.Holds o w

/- Triples of the children of a sequence. -/
def TripleAll
    (P : W → Prop)
    (ts : List (TreeNode A C))
    (post : Post W) : Prop :=
  ∀ w₀ o w, P w₀ → TreeNode.ExecAll M X ts w₀ o w →
    post.Holds o w

end Triples

namespace Triple

variable {M : NodeModel A C W ε} {X : Surroundings W}

------------------------------------------------------------
-- Structural Rules
------------------------------------------------------------

theorem consequence
    {P P' : W → Prop}
    {t : TreeNode A C}
    {post post' : Post W}
    (hTriple : Triple M X P t post)
    (hPre : ∀ w, P' w → P w)
    (hPost : post.Implies post') :
    Triple M X P' t post' := by
  intro w₀ o w hStart hExec
  exact hPost o w (hTriple w₀ o w (hPre w₀ hStart) hExec)

------------------------------------------------------------
-- Leaves
------------------------------------------------------------

/-
  A leaf needs an assertion for the time it is running. The
  first tick establishes it, the environment and the further
  ticks preserve it.
-/
theorem action
    {P : W → Prop}
    {a : A}
    {post : Post W}
    (hStart :
      ∀ w, P w → ∀ o w',
        LeafTick (M.tick a .idle w) o w' → post.Holds o w')
    (hEnv :
      ∀ w w', post.running w → X.Env w w' → post.running w')
    (hResume :
      ∀ w, post.running w → X.Guard w → ∀ o w',
        LeafTick (M.tick a .running w) o w' →
          post.Holds o w') :
    Triple M X P (.action a) post := by
  intro w₀ o w hPre hRun
  induction hRun with
  | start hTick => exact hStart w₀ hPre _ _ hTick
  | env _ hStep ih => exact hEnv _ _ ih hStep
  | resume _ hGuard hTick ih =>
      exact hResume _ ih hGuard _ _ hTick

------------------------------------------------------------
-- Sequences
------------------------------------------------------------

theorem sequence
    {P : W → Prop}
    {children : List (TreeNode A C)}
    {post : Post W}
    (hAll : TripleAll M X P children post) :
    Triple M X P (.sequence children) post :=
  hAll

/-
  The next child starts where the one before it succeeded.
-/
theorem cons
    {P Q : W → Prop}
    {child : TreeNode A C}
    {children : List (TreeNode A C)}
    {post : Post W}
    (hChild :
      Triple M X P child { post with success := Q })
    (hRest : TripleAll M X Q children post) :
    TripleAll M X P (child :: children) post := by
  intro w₀ o w hPre hExec
  rcases hExec with ⟨hStop, hExec⟩ | ⟨w₁, hExec, hRun⟩
  · have hHolds := hChild w₀ o w hPre hExec
    cases o with
    | running => exact hHolds
    | success => exact absurd rfl hStop
    | failure => exact hHolds
    | threw => exact hHolds
  · exact hRest w₁ o w (hChild w₀ .success w₁ hPre hExec) hRun

theorem nil
    {P : W → Prop}
    {post : Post W}
    (hPost : ∀ w, P w → post.success w) :
    TripleAll M X P ([] : List (TreeNode A C)) post := by
  intro w₀ o w hPre hExec
  rcases hExec with ⟨rfl, rfl⟩
  exact hPost w hPre

/- The last child. -/
theorem last
    {P : W → Prop}
    {child : TreeNode A C}
    {post : Post W}
    (hChild : Triple M X P child post) :
    TripleAll M X P [child] post :=
  cons hChild (nil fun _ hSuccess => hSuccess)

------------------------------------------------------------
-- Decorators
------------------------------------------------------------

/-
  A precondition runs its child from where the script left
  the world, or returns its own status there.
-/
theorem precondition
    {P T : W → Prop}
    {script : C}
    {elseReturn : NodeStatus}
    {child : TreeNode A C}
    {post : Post W}
    (hScript :
      ∀ w, P w → ∃ b w', M.executor script w = .ok (b, w') ∧
        if b then T w'
        else ∀ o, elseReturn.outcome? = some o →
          post.Holds o w')
    (hChild : Triple M X T child post) :
    Triple M X P (.precondition script elseReturn child)
      post := by
  intro w₀ o w hPre hExec
  rcases hScript w₀ hPre with ⟨b, w', hRun, hBranch⟩
  rcases hExec with
    ⟨w₁, hTrue, hExec⟩ | ⟨hFalse, hElse⟩ | ⟨e, hError, _⟩
  · rw [hRun] at hTrue
    cases hTrue
    exact hChild w' o w hBranch hExec
  · rw [hRun] at hFalse
    cases hFalse
    exact hBranch o hElse
  · rw [hRun] at hError
    cases hError

/-
  Retrying without a limit needs an invariant at the start
  of every attempt, where the node may also yield.
-/
theorem retry
    {I : W → Prop}
    {child : TreeNode A C}
    {post : Post W}
    (hChild : Triple M X I child { post with failure := I })
    (hEnv : ∀ w w', I w → X.Env w w' → I w')
    (hWake : ∀ w, I w → I (M.emitWakeUpSignal w))
    (hYield : ∀ w, I w → post.running w) :
    Triple M X I (.retry (-1) child) post := by
  intro w₀ o w hPre hExec
  rcases hExec with ⟨w₁, hAttempts, hRun⟩
  have hHead : I w₁ := by
    clear hRun
    induction hAttempts with
    | refl => exact hPre
    | fail _ hFail ih => exact hChild _ .failure _ ih hFail
    | wake _ ih => exact hWake _ ih
    | env _ hStep ih => exact hEnv _ _ ih hStep
  cases o with
  | running =>
      rcases hRun with hRun | rfl
      · exact hChild w₁ .running w hHead hRun
      · exact hYield w hHead
  | success => exact hChild w₁ .success w hHead hRun
  | failure => exact absurd rfl hRun.2
  | threw => exact hChild w₁ .threw w hHead hRun

end Triple

------------------------------------------------------------
-- The Root
------------------------------------------------------------

/-
  The states a tree and its world reach when the root is
  ticked and the environment moves in any order.
-/
inductive RootReach
    (M : NodeModel A C W ε)
    (X : Surroundings W)
    (t : TreeNode A C)
    (Init : W → Prop) : TreeNode.State t → W → Prop where
| init
    {w : W}
    (hInit : Init w) :
    RootReach M X t Init (TreeNode.idle t) w
| env
    {s : TreeNode.State t} {w w' : W}
    (hReach : RootReach M X t Init s w)
    (hEnv : X.Env w w') :
    RootReach M X t Init s w'
| tick
    {s s' : TreeNode.State t} {w w' : W} {r : NodeStatus}
    (hReach : RootReach M X t Init s w)
    (hGuard : X.Guard w)
    (hTick : TreeNode.rootTick M t s w = .ok (r, s', w')) :
    RootReach M X t Init s' w'

namespace RootReach

variable {M : NodeModel A C W ε} {X : Surroundings W}
variable {t : TreeNode A C} {P R : W → Prop}

/- A root that is idle before it starts, or resumable. -/
def Safe
    (M : NodeModel A C W ε)
    (X : Surroundings W)
    (t : TreeNode A C)
    (P : W → Prop)
    (s : TreeNode.State t)
    (w : W) : Prop :=
  (s = TreeNode.idle t ∧ P w) ∨
    ∃ w₀, P w₀ ∧ TreeNode.Resumes M X t w₀ s w

/- One tick of a safe root. -/
theorem tick_sound
    (hProper : M.Proper)
    (hWell : TreeNode.WellFormed t)
    (hTriple : Triple M X P t ⟨R, P, P⟩)
    {s : TreeNode.State t} {w : W}
    (hSafe : Safe M X t P s w)
    (hGuard : X.Guard w) :
    ∃ r s' w', TreeNode.rootTick M t s w = .ok (r, s', w') ∧
      Safe M X t P s' w' := by
  have hAt :
      ∃ w₀, P w₀ ∧ TreeNode.At M X t w₀ s w := by
    rcases hSafe with ⟨rfl, hPre⟩ | ⟨w₀, hPre, hResumes⟩
    · exact ⟨w, hPre, .inl ⟨rfl, rfl⟩⟩
    · exact ⟨w₀, hPre, .inr ⟨hResumes, hGuard⟩⟩
  rcases hAt with ⟨w₀, hPre, hAt⟩
  have hTick :=
    TreeNode.executeTick_sound hProper t hWell w₀ s w hAt
  unfold TreeNode.rootTick
  cases hResult : TreeNode.executeTick M t s w with
  | error e =>
      rw [hResult] at hTick
      rcases hTick with ⟨w', hExec⟩
      exact (hTriple w₀ .threw w' hPre hExec).elim
  | ok result =>
      rcases result with ⟨r, s', w'⟩
      rw [hResult] at hTick
      cases r with
      | running =>
          exact ⟨_, _, _, rfl, .inr ⟨w₀, hPre, hTick⟩⟩
      | success =>
          rcases hTick with ⟨rfl, hExec⟩
          refine ⟨_, _, _, rfl, .inl ⟨?_, ?_⟩⟩
          · simp
          · exact hTriple w₀ .success w' hPre hExec
      | failure =>
          rcases hTick with ⟨rfl, hExec⟩
          refine ⟨_, _, _, rfl, .inl ⟨?_, ?_⟩⟩
          · simp
          · exact hTriple w₀ .failure w' hPre hExec
      | idle => exact hTick.elim
      | skipped => exact hTick.elim

/-
  The rule for the root: a triple that leads from `P` back
  to `P` holds along every interleaving.
-/
theorem safe
    (hProper : M.Proper)
    (hWell : TreeNode.WellFormed t)
    (hTriple : Triple M X P t ⟨R, P, P⟩)
    (hStable : ∀ w w', P w → X.Env w w' → P w')
    {s : TreeNode.State t} {w : W}
    (hReach : RootReach M X t P s w) :
    Safe M X t P s w := by
  induction hReach with
  | init hInit => exact .inl ⟨rfl, hInit⟩
  | env _ hEnv ih =>
      rcases ih with ⟨rfl, hPre⟩ | ⟨w₀, hPre, hResumes⟩
      · exact .inl ⟨rfl, hStable _ _ hPre hEnv⟩
      · exact .inr ⟨w₀, hPre, hResumes.env hEnv t⟩
  | tick _ hGuard hTick ih =>
      rcases tick_sound hProper hWell hTriple ih hGuard with
        ⟨r, s', w', hOk, hSafe⟩
      rw [hTick] at hOk
      cases hOk
      exact hSafe

/- What holds in every state reached. -/
theorem holds
    (hProper : M.Proper)
    (hWell : TreeNode.WellFormed t)
    (hTriple : Triple M X P t ⟨R, P, P⟩)
    (hStable : ∀ w w', P w → X.Env w w' → P w')
    {s : TreeNode.State t} {w : W}
    (hReach : RootReach M X t P s w) :
    P w ∨ R w := by
  rcases safe hProper hWell hTriple hStable hReach with
    ⟨_, hPre⟩ | ⟨w₀, hPre, hResumes⟩
  · exact .inl hPre
  · exact .inr (hTriple w₀ .running w hPre (hResumes.exec t))

/- No tick of the root throws. -/
theorem tick_ok
    (hProper : M.Proper)
    (hWell : TreeNode.WellFormed t)
    (hTriple : Triple M X P t ⟨R, P, P⟩)
    (hStable : ∀ w w', P w → X.Env w w' → P w')
    {s : TreeNode.State t} {w : W}
    (hReach : RootReach M X t P s w)
    (hGuard : X.Guard w) :
    ∃ r s' w', TreeNode.rootTick M t s w = .ok (r, s', w') := by
  rcases tick_sound hProper hWell hTriple
      (safe hProper hWell hTriple hStable hReach) hGuard with
    ⟨r, s', w', hOk, _⟩
  exact ⟨r, s', w', hOk⟩

end RootReach

end BT

end Manipulator
