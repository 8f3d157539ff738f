import Manipulator.Approach.Timer

/-
  Nodes that a tick does not tell apart.

  Where a relation of nodes fixes what a tick reads besides
  the loop over the axes, and the loop and the updates of the
  node keep it, every tick keeps it and sends the same.

  Main declarations:
    * `Congruence`, `RelatedTick`
    * `Congruence.timerCallback`
-/

------------------------------------------------------------
-- Congruences
------------------------------------------------------------

namespace Manipulator

namespace Approach

variable {K : Type} [Field K] [LinearOrder K]

/- What one callback takes to keep a relation of nodes. -/
structure Congruence (R : Node K → Node K → Prop) : Prop where
  reads :
    ∀ {n n'}, R n n' →
      n'.actsOn = n.actsOn ∧ n'.state = n.state ∧
        n'.debugMode = n.debugMode ∧ n'.posData = n.posData ∧
        n'.noBoxCount = n.noBoxCount
  seen : ∀ {n n'}, R n n' → R n.seen n'.seen
  missed : ∀ {n n'}, R n n' → R n.missed n'.missed
  lost : ∀ {n n'}, R n n' → R n.lost n'.lost
  control :
    ∀ {box i error n n' m reached}, R n n' →
      control box i error n = .ok (m, reached) →
        ∃ m', control box i error n' = .ok (m', reached) ∧
          R m m'
  turned :
    ∀ {n n'} yaw, R n n' → n.state = .turn →
      R (n.turned yaw) (n'.turned yaw)

/- Two ticks that send the same and leave related nodes. -/
structure RelatedTick
    {K : Type}
    (R : Node K → Node K → Prop)
    (r r' : TickResult K) : Prop where
  node : R r.node r'.node
  published : r'.published = r.published
  assembled : r'.assembled = r.assembled

namespace Congruence

variable {R : Node K → Node K → Prop}
variable {n n' : Node K} {r : TickResult K}
variable {box : BoundingBox K} {i : Nat}

/- What is drawn depends on the message alone. -/
theorem publish
    {center : Option (K × K)} {assembled : Pos K}
    (hCongruence : Congruence R)
    (hRelated : R n n')
    (hPublish :
      Approach.publish box i center assembled n = .ok r) :
    ∃ r', Approach.publish box i center assembled n' = .ok r' ∧
      RelatedTick R r r' := by
  rcases hCongruence.reads hRelated with
    ⟨_, _, hDebug, hPos, _⟩
  refine ⟨⟨n', some n'.posData, some assembled⟩, ?_, ?_⟩
  · unfold Approach.publish at hPublish ⊢
    rw [hDebug]
    by_cases hMode : n.debugMode = 1
    · rw [if_pos hMode] at hPublish ⊢
      rcases bind_eq_ok.mp hPublish with ⟨_, hDraw, _⟩
      rw [hDraw]
      rfl
    · rw [if_neg hMode]
      rfl
  · rw [publish_cases hPublish]
    exact ⟨hRelated, congrArg some hPos, rfl⟩

theorem noBoxTick
    (hCongruence : Congruence R)
    (hRelated : R n n') :
    R (Approach.noBoxTick n) (Approach.noBoxTick n') := by
  rcases hCongruence.reads hRelated with
    ⟨_, _, _, _, hMisses⟩
  by_cases hCount : n.noBoxCount + 1 ≥ noBoxCountLimit
  · have hLost : Approach.noBoxTick n = n.lost := if_pos hCount
    rw [← hMisses] at hCount
    have hLost' : Approach.noBoxTick n' = n'.lost :=
      if_pos hCount
    rw [hLost, hLost']
    exact hCongruence.lost hRelated
  · have hMissed : Approach.noBoxTick n = n.missed :=
      if_neg hCount
    rw [← hMisses] at hCount
    have hMissed' : Approach.noBoxTick n' = n'.missed :=
      if_neg hCount
    rw [hMissed, hMissed']
    exact hCongruence.missed hRelated

theorem approachTick
    (hCongruence : Congruence R)
    (hRelated : R n n')
    (hTick : Approach.approachTick box i n = .ok r) :
    ∃ r', Approach.approachTick box i n' = .ok r' ∧
      RelatedTick R r r' := by
  simp only [Approach.approachTick, bind_eq_ok] at hTick
  rcases hTick with
    ⟨center, hCenter, ⟨m, reached⟩, hControl, hTick⟩
  rcases hCongruence.control hRelated hControl with
    ⟨m', hControl', hRelated'⟩
  have hPose : poseMsg m' 0 1 = poseMsg m 0 1 := by
    have hPos := (hCongruence.reads hRelated').2.2.2.1
    simp only [poseMsg, hPos]
  simp only [Approach.approachTick, hCenter, hControl', bind,
    Except.bind]
  cases reached with
  | true =>
      cases hTick
      exact ⟨_, rfl, hRelated', rfl, congrArg some hPose⟩
  | false =>
      rw [hPose]
      exact hCongruence.publish hRelated' hTick

theorem turnTick
    {trig : Trig K}
    (hCongruence : Congruence R)
    (hRelated : R n n')
    (hState : n.state = .turn)
    (hTick : Approach.turnTick trig box i n = .ok r) :
    ∃ r', Approach.turnTick trig box i n' = .ok r' ∧
      RelatedTick R r r' := by
  simp only [Approach.turnTick, bind_eq_ok] at hTick
  rcases hTick with ⟨angle, hAngle, hTick⟩
  have hPos := (hCongruence.reads hRelated).2.2.2.1
  have hNext :=
    hCongruence.turned (turnYaw trig n angle) hRelated hState
  rcases hCongruence.publish hNext hTick with
    ⟨r', hTick', hSame⟩
  refine ⟨r', ?_, hSame⟩
  simp only [Approach.turnTick, hAngle, bind, Except.bind,
    poseMsg, hPos]
  rw [← hTick']
  simp only [Node.turned, turnYaw, poseMsg, hPos]

/- A tick sends the same and keeps the relation. -/
theorem timerCallback
    {trig : Trig K}
    (hCongruence : Congruence R)
    (hRelated : R n n')
    (hTick : Approach.timerCallback trig n = .ok r) :
    ∃ r', Approach.timerCallback trig n' = .ok r' ∧
      RelatedTick R r r' := by
  rcases hCongruence.reads hRelated with
    ⟨hSame, hPhase, _, _, _⟩
  rw [timerCallback_eq] at hTick ⊢
  rw [hSame]
  cases hActs : n.actsOn with
  | none =>
      simp only [hActs] at hTick
      cases hTick
      exact ⟨_, rfl, hRelated, rfl, rfl⟩
  | some box =>
      simp only [hActs, actTick] at hTick ⊢
      by_cases hBox : box.hasBox = false
      · rw [if_pos hBox] at hTick ⊢
        cases hTick
        exact
          ⟨_, rfl, hCongruence.noBoxTick hRelated, rfl, rfl⟩
      · rw [if_neg hBox] at hTick ⊢
        rcases bind_eq_ok.mp hTick with ⟨i, hIndex, hTick⟩
        simp only [hIndex, hPhase, bind, Except.bind]
        have hSeen := hCongruence.seen hRelated
        cases hState : n.state with
        | approach =>
            simp only [hState] at hTick
            exact hCongruence.approachTick hSeen hTick
        | turn =>
            simp only [hState] at hTick
            exact hCongruence.turnTick hSeen hState hTick

end Congruence

end Approach

end Manipulator
