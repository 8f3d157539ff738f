import Manipulator.BehaviorTree.Observation

/-
  What a tick leaves alone.

  A relation between the world before and after, which holds
  of every step that the engine takes on the leaves of a
  tree, holds of a tick of the whole tree. For a node whose
  state is known it is enough to know it of the children in
  the states they have.

  Main declarations:
    * `TreeNode.leaves`, `TreeNode.retries`
    * `NodeModel.Frames`
    * `TreeNode.Ticks`, `TreeNode.AllTicks`
    * `TreeNode.ticks_of_leaves`, `TreeNode.ticks_sequence`
-/

------------------------------------------------------------
-- Leaves
------------------------------------------------------------

namespace Manipulator

namespace BT

variable {A C W ε : Type}

namespace TreeNode

mutual

def leaves : TreeNode A C → List A
| .action a => [a]
| .sequence children => leavesAll children
| .retry _ child => leaves child
| .precondition _ _ child => leaves child

def leavesAll : List (TreeNode A C) → List A
| [] => []
| child :: children => leaves child ++ leavesAll children

end

mutual

/- The tree has a node that emits the wake-up signal. -/
def retries : TreeNode A C → Bool
| .action _ => false
| .sequence children => retriesAny children
| .retry _ _ => true
| .precondition _ _ child => retries child

def retriesAny : List (TreeNode A C) → Bool
| [] => false
| child :: children => retries child || retriesAny children

end

end TreeNode

------------------------------------------------------------
-- Frames
------------------------------------------------------------

/- A preorder that halting and scripts respect. -/
structure NodeModel.Frames
    (M : NodeModel A C W ε) (R : W → W → Prop) : Prop where
  refl : ∀ w, R w w
  trans : ∀ {u v w}, R u v → R v w → R u w
  halt : ∀ a s w, R w (M.halt a s w)
  executor :
    ∀ script w b w', M.executor script w = .ok (b, w') → R w w'

namespace TreeNode

/- A tick of `t` in the state `s` respects `R`. -/
def Ticks
    (M : NodeModel A C W ε) (R : W → W → Prop)
    (t : TreeNode A C) (s : State t) : Prop :=
  ∀ w r s' w',
    executeTick M t s w = .ok (r, s', w') → R w w'

def AllTicks
    (M : NodeModel A C W ε) (R : W → W → Prop) :
    (ts : List (TreeNode A C)) → States ts → Prop
| [], _ => True
| child :: children, (s, ss) =>
    Ticks M R child s ∧ AllTicks M R children ss

variable {M : NodeModel A C W ε} {R : W → W → Prop}

mutual

theorem haltNode_frame
    (hFrames : M.Frames R) :
    (t : TreeNode A C) → (s : State t) → (w : W) →
      R w (haltNode M t s w).2
| .action a, s, w => hFrames.halt a s w
| .sequence children, s, w =>
    resetChildren_frame hFrames children s.children w
| .retry _ child, s, w => by
    simp only [haltNode]
    split
    · exact haltNode_frame hFrames child s.child w
    · exact hFrames.refl w
| .precondition _ _ child, s, w => by
    simp only [haltNode]
    split
    · exact haltNode_frame hFrames child s.child w
    · exact hFrames.refl w

theorem resetChildren_frame
    (hFrames : M.Frames R) :
    (ts : List (TreeNode A C)) → (ss : States ts) → (w : W) →
      R w (resetChildren M ts ss w).2
| [], _, w => hFrames.refl w
| child :: children, (s, ss), w => by
    simp only [resetChildren]
    split
    · exact hFrames.trans (haltNode_frame hFrames child s w)
        (resetChildren_frame hFrames children ss _)
    · exact resetChildren_frame hFrames children ss w

end

theorem resetChild_frame
    (hFrames : M.Frames R)
    (t : TreeNode A C) (s : State t) (w : W) :
    R w (resetChild M t s w).2 := by
  simp only [resetChild]
  split
  · exact haltNode_frame hFrames t s w
  · exact hFrames.refl w

/- The end of a tick leaves the world alone. -/
theorem world_of_finishTick
    {t : TreeNode A C} {r r' : NodeStatus} {s s' : State t}
    {w w' : W}
    (hFinish :
      finishTick (ε := ε) t r s w = .ok (r', s', w')) :
    w' = w := by
  cases r <;> cases hFinish <;> rfl

------------------------------------------------------------
-- Nodes
------------------------------------------------------------

theorem ticks_action
    {a : A} {s : State (.action a : TreeNode A C)}
    (hTick :
      ∀ w r w', M.tick a s w = .ok (r, w') → R w w') :
    Ticks M R (.action a) s := by
  intro w r s' w' hExecute
  simp only [executeTick] at hExecute
  cases hLeaf : M.tick a s w with
  | error e =>
      rw [hLeaf] at hExecute
      cases hExecute
  | ok result =>
      rw [hLeaf] at hExecute
      rw [world_of_finishTick hExecute]
      exact hTick w _ _ hLeaf

/- The children of a sequence, in the states they have. -/
theorem tickChildren_frame
    (hFrames : M.Frames R) :
    (ts : List (TreeNode A C)) → {ss : States ts} →
      AllTicks M R ts ss →
        ∀ idx skipped w r,
          tickChildren M ts ss idx skipped w = .ok r →
            R w r.world
| [], _, _, _, _, w, _, hTick => by
    cases hTick
    exact hFrames.refl w
| _ :: children, (_, ss), hAll, idx + 1, skipped, w, r,
    hTick => by
    rcases bind_eq_ok.mp hTick with ⟨r', hRest, hTick⟩
    cases hTick
    exact
      tickChildren_frame hFrames children hAll.2 idx skipped w
        r' hRest
| child :: children, (s, ss), hAll, 0, skipped, w, r, hTick => by
    rcases bind_eq_ok.mp hTick with
      ⟨⟨q, c, w'⟩, hChild, hTick⟩
    have hFirst := hAll.1 w q c w' hChild
    cases q with
    | idle => cases hTick
    | running =>
        cases hTick
        exact hFirst
    | failure =>
        cases hTick
        exact hFirst
    | success =>
        rcases bind_eq_ok.mp hTick with ⟨r', hRest, hTick⟩
        cases hTick
        exact hFrames.trans hFirst
          (tickChildren_frame hFrames children hAll.2 0 _ w' r'
            hRest)
    | skipped =>
        rcases bind_eq_ok.mp hTick with ⟨r', hRest, hTick⟩
        cases hTick
        exact hFrames.trans hFirst
          (tickChildren_frame hFrames children hAll.2 0 _ w' r'
            hRest)

/- A sequence, by what its loop leaves of the world. -/
theorem ticks_sequence_of_loop
    (hFrames : M.Frames R)
    {children : List (TreeNode A C)}
    {s : State (.sequence children)}
    (hLoop :
      ∀ skipped w loop,
        tickChildren M children s.children s.currentChildIdx
            skipped w = .ok loop → R w loop.world) :
    Ticks M R (.sequence children) s := by
  intro w r s' w' hExecute
  rw [executeTick] at hExecute
  rcases bind_eq_ok.mp hExecute with ⟨loop, hTicked, hExecute⟩
  have hChildren := hLoop _ w loop hTicked
  have hReset :=
    hFrames.trans hChildren
      (resetChildren_frame hFrames children loop.children
        loop.world)
  split at hExecute
  · rw [world_of_finishTick hExecute]
    exact hReset
  · rw [world_of_finishTick hExecute]
    exact hChildren
  · by_cases hLast : loop.idx = children.length
    · simp only [if_pos hLast] at hExecute
      rw [world_of_finishTick hExecute]
      exact hReset
    · simp only [if_neg hLast] at hExecute
      rw [world_of_finishTick hExecute]
      exact hChildren

theorem ticks_sequence
    (hFrames : M.Frames R)
    {children : List (TreeNode A C)}
    {s : State (.sequence children)}
    (hAll : AllTicks M R children s.children) :
    Ticks M R (.sequence children) s :=
  ticks_sequence_of_loop hFrames fun skipped w loop =>
    tickChildren_frame hFrames children hAll _ skipped w loop

/- The loop of a retry node. -/
theorem retryLoop_frame
    {child : TreeNode A C}
    (hFrames : M.Frames R)
    (hWake : ∀ w, R w (M.emitWakeUpSignal w))
    (hChild : ∀ s, Ticks M R child s)
    (maxAttempts : Int) :
    ∀ fuel tryCount s w r count s' w',
      retryLoop (executeTick M child) (status child)
          (resetChild M child) M.emitWakeUpSignal maxAttempts
          fuel tryCount s w = .ok (r, count, s', w') →
        R w w' := by
  intro fuel
  induction fuel with
  | zero =>
      intro _ _ _ _ _ _ _ hLoop
      cases hLoop
  | succ fuel ih =>
      intro tryCount s w r count s' w' hLoop
      rw [retryLoop] at hLoop
      split at hLoop
      · rcases bind_eq_ok.mp hLoop with
          ⟨⟨q, c, w₁⟩, hTick, hLoop⟩
        have hFirst := hChild s w q c w₁ hTick
        have hReset :=
          hFrames.trans hFirst (resetChild_frame hFrames child c w₁)
        cases q with
        | idle => cases hLoop
        | running =>
            cases hLoop
            exact hFirst
        | success =>
            cases hLoop
            exact hReset
        | skipped =>
            cases hLoop
            exact hReset
        | failure =>
            simp only at hLoop
            split at hLoop
            · cases hLoop
              exact hFrames.trans hReset (hWake _)
            · exact hFrames.trans hReset (ih _ _ _ _ _ _ _ hLoop)
      · cases hLoop
        exact hFrames.refl w

theorem ticks_retry
    {child : TreeNode A C}
    (hFrames : M.Frames R)
    (hWake : ∀ w, R w (M.emitWakeUpSignal w))
    (hChild : ∀ s, Ticks M R child s)
    {maxAttempts : Int}
    (s : State (.retry maxAttempts child)) :
    Ticks M R (.retry maxAttempts child) s := by
  intro w r s' w' hExecute
  rw [executeTick] at hExecute
  rcases bind_eq_ok.mp hExecute with
    ⟨⟨q, count, c, w₁⟩, hLoop, hExecute⟩
  rw [world_of_finishTick hExecute]
  exact
    retryLoop_frame hFrames hWake hChild _ _ _ _ _ _ _ _ _ hLoop

theorem ticks_precondition
    {script : C} {elseReturn : NodeStatus}
    {child : TreeNode A C}
    (hFrames : M.Frames R)
    (hChild : ∀ s, Ticks M R child s)
    (s : State (.precondition script elseReturn child)) :
    Ticks M R (.precondition script elseReturn child) s := by
  have hThrough :
      ∀ c status w r s' w',
        tickThrough M script elseReturn status child c w =
          .ok (r, s', w') → R w w' := by
    intro c status w r s' w' hTick
    rcases bind_eq_ok.mp hTick with ⟨⟨q, c', w₁⟩, hTick, hEnd⟩
    have hFirst := hChild c w q c' w₁ hTick
    simp only at hEnd
    split at hEnd
    · rw [world_of_finishTick hEnd]
      exact hFrames.trans hFirst
        (resetChild_frame hFrames child c' w₁)
    · rw [world_of_finishTick hEnd]
      exact hFirst
  intro w r s' w' hExecute
  simp only [executeTick] at hExecute
  cases hRunning : s.childrenRunning with
  | true =>
      simp only [hRunning, if_true] at hExecute
      exact hThrough _ _ _ _ _ _ hExecute
  | false =>
      simp only [hRunning, Bool.false_eq_true, if_false]
        at hExecute
      cases hScript : M.executor script w with
      | error e =>
          simp only [hScript] at hExecute
          cases hExecute
      | ok result =>
          rcases result with ⟨condition, w₁⟩
          have hFirst := hFrames.executor script w _ w₁ hScript
          simp only [hScript] at hExecute
          cases condition with
          | false =>
              rw [world_of_finishTick hExecute]
              exact hFirst
          | true =>
              exact hFrames.trans hFirst
                (hThrough _ _ _ _ _ _ hExecute)

------------------------------------------------------------
-- Whole Trees
------------------------------------------------------------

mutual

/- A relation that the ticks of all leaves respect. -/
theorem ticks_of_leaves
    (hFrames : M.Frames R) :
    (t : TreeNode A C) →
      (∀ a ∈ leaves t, ∀ s w r w',
        M.tick a s w = .ok (r, w') → R w w') →
      (retries t = true → ∀ w, R w (M.emitWakeUpSignal w)) →
        ∀ s, Ticks M R t s
| .action a, hLeaves, _, s =>
    ticks_action (hLeaves a List.mem_cons_self s)
| .sequence children, hLeaves, hWake, s =>
    ticks_sequence hFrames
      (allTicks_of_leaves hFrames children hLeaves hWake
        s.children)
| .retry _ child, hLeaves, hWake, s =>
    ticks_retry hFrames (hWake rfl)
      (ticks_of_leaves hFrames child hLeaves
        fun _ => hWake rfl) s
| .precondition _ _ child, hLeaves, hWake, s =>
    ticks_precondition hFrames
      (ticks_of_leaves hFrames child hLeaves hWake) s

theorem allTicks_of_leaves
    (hFrames : M.Frames R) :
    (ts : List (TreeNode A C)) →
      (∀ a ∈ leavesAll ts, ∀ s w r w',
        M.tick a s w = .ok (r, w') → R w w') →
      (retriesAny ts = true →
        ∀ w, R w (M.emitWakeUpSignal w)) →
        ∀ ss, AllTicks M R ts ss
| [], _, _, _ => trivial
| child :: children, hLeaves, hWake, (s, ss) => by
    constructor
    · apply ticks_of_leaves hFrames child
      · intro a hMember
        exact hLeaves a (List.mem_append_left _ hMember)
      · intro hRetries
        apply hWake
        rw [retriesAny, hRetries, Bool.true_or]
    · apply allTicks_of_leaves hFrames children
      · intro a hMember
        exact hLeaves a (List.mem_append_right _ hMember)
      · intro hRetries
        apply hWake
        rw [retriesAny, hRetries, Bool.or_true]

end

/- The same for the root. -/
theorem rootTick_frame
    {t : TreeNode A C} {s s' : State t}
    {w w' : W} {r : NodeStatus}
    (hTicks : Ticks M R t s)
    (hTick : rootTick M t s w = .ok (r, s', w')) : R w w' := by
  rcases bind_eq_ok.mp hTick with
    ⟨⟨q, s₁, w₁⟩, hExecute, hTick⟩
  simp only at hTick
  split at hTick
  · cases hTick
    exact hTicks w _ _ _ hExecute
  · cases hTick
    exact hTicks w _ _ _ hExecute

end TreeNode

end BT

end Manipulator
