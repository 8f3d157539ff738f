import Manipulator.Approach.Congruence
import Manipulator.Approach.Outcome

/-
  Nothing of an approach goal is left for the next one.

  The start of a goal resets most attributes of the node but
  leaves four of them: `has_box`, `label`, `prev_error` and
  `integral`. A callback never reads one of them before it
  was assigned, so that two nodes that differ in their old
  values only go on alike.

  Main declarations:
    * `Node.carrying`, `Agree`
    * `timerCallback_agree`
    * `Callbacks`, `published`, `Parallel`
    * `goals_isolated`
-/

------------------------------------------------------------
-- Nodes That Agree
------------------------------------------------------------

namespace Manipulator

namespace Approach

variable {K : Type}

/- The node with other values in the four attributes. -/
def Node.carrying
    (hasBox : Option Bool)
    (label : Option String)
    (prevError integral : Option (Fin 2 → K))
    (n : Node K) : Node K :=
  { n with
    hasBox := hasBox
    label := label
    prevError := prevError
    integral := integral }

/-
  Two nodes agree when they differ in the four attributes at
  most, and only as long as nothing will read them: the last
  error and the integral before the first pass of the loop,
  the flag and the label before a target is confirmed.
-/
inductive Agree (n : Node K) : Node K → Prop where
| intro
    {hasBox : Option Bool} {label : Option String}
    {prevError integral : Option (Fin 2 → K)}
    (hLoop :
      n.firstLoop = false →
        prevError = n.prevError ∧ integral = n.integral)
    (hFound :
      n.state = .turn ∨ n.finishEvent = true →
        hasBox = n.hasBox ∧
          (n.hasBox = some true → label = n.label)) :
    Agree n (n.carrying hasBox label prevError integral)

/- Two ticks that give the same and leave nodes that agree. -/
structure SameTick (r r' : TickResult K) : Prop where
  node : Agree r.node r'.node
  published : r'.published = r.published
  assembled : r'.assembled = r.assembled

variable [Field K]

/- The start of a goal makes nodes agree. -/
theorem agree_startGoal
    {n n' : Node K}
    (hDebug : n'.debugMode = n.debugMode)
    (hBox : n'.boxData = n.boxData)
    (hMode : n'.posData.mode = n.posData.mode) :
    Agree (startGoal n) (startGoal n') := by
  have hSame :
      startGoal n' =
        (startGoal n).carrying n'.hasBox n'.label n'.prevError
          n'.integral := by
    simp only [startGoal, Node.carrying, hDebug, hBox, hMode]
  rw [hSame]
  constructor
  case hLoop =>
    intro hLoop
    cases hLoop
  case hFound =>
    rintro (hTurn | hEnded)
    · cases hTurn
    · cases hEnded

/- The result of a goal that has ended. -/
theorem finishGoal_agree
    {n n' : Node K}
    (hAgree : Agree n n')
    (hEnded : n.finishEvent = true) :
    finishGoal n' = finishGoal n := by
  cases hAgree with
  | intro _ hFound =>
      rcases hFound (.inr hEnded) with ⟨hBox, hLabel⟩
      unfold finishGoal Node.carrying
      rw [hBox]
      cases hSeen : n.hasBox with
      | none => rfl
      | some seen =>
          cases seen with
          | false => rfl
          | true => rw [hLabel hSeen]

variable [LinearOrder K]

------------------------------------------------------------
-- The Control Loop
------------------------------------------------------------

section Control

variable {n n' m : Node K}
variable {hasBox : Option Bool} {label : Option String}
variable {prevError integral : Option (Fin 2 → K)}

omit [LinearOrder K] in
/- The first pass assigns what the passes read. -/
theorem firstPass_carrying
    (hLoop :
      n.firstLoop = false →
        prevError = n.prevError ∧ integral = n.integral) :
    (n.carrying hasBox label prevError integral).firstPass =
      n.firstPass.carrying hasBox label n.firstPass.prevError
        n.firstPass.integral := by
  cases hFirst : n.firstLoop with
  | true => simp [Node.firstPass, Node.carrying, hFirst]
  | false =>
      rcases hLoop hFirst with ⟨rfl, rfl⟩
      simp [Node.firstPass, Node.carrying, hFirst]

theorem controlAxis_carrying
    {error : Fin 2 → K} {i : Fin 2}
    (hLoop :
      n.firstLoop = false →
        prevError = n.prevError ∧ integral = n.integral)
    (hControl : controlAxis error n i = .ok m) :
    controlAxis error
        (n.carrying hasBox label prevError integral) i =
      .ok (m.carrying hasBox label m.prevError m.integral) := by
  simp only [controlAxis, bind_eq_ok, pure_eq_ok] at hControl
  rcases hControl with
    ⟨integral', hIntegral, prevError', hPrevError, rfl⟩
  simp only [controlAxis, firstPass_carrying hLoop, bind_eq_ok,
    pure_eq_ok]
  exact ⟨integral', hIntegral, prevError', hPrevError, rfl⟩

/- The body of the approach state, on nodes that agree. -/
theorem control_agree
    {box : BoundingBox K} {i : Nat} {error : Fin 2 → K}
    {reached : Bool}
    (hAgree : Agree n n')
    (hControl : control box i error n = .ok (m, reached)) :
    ∃ m', control box i error n' = .ok (m', reached) ∧
      Agree m m' := by
  cases hAgree with
  | @intro hasBox label prevError integral hLoop hFound =>
      simp only [control, bind_eq_ok] at hControl
      rcases hControl with ⟨n₀, hFirst, n₁, hSecond, hRest⟩
      have hFirst' :
          controlAxis error
              (n.carrying hasBox label prevError integral) 0 =
            .ok (n₀.carrying hasBox label n₀.prevError
              n₀.integral) :=
        controlAxis_carrying hLoop hFirst
      have hSecond' :
          controlAxis error
              (n₀.carrying hasBox label n₀.prevError
                n₀.integral) 1 =
            .ok (n₁.carrying hasBox label n₁.prevError
              n₁.integral) :=
        controlAxis_carrying (fun _ => ⟨rfl, rfl⟩) hSecond
      have hKept :
          n₁.state = n.state ∧ n₁.finishEvent = n.finishEvent ∧
            n₁.hasBox = n.hasBox ∧ n₁.label = n.label := by
        rcases controlAxis_cases hFirst with ⟨_, _, rfl⟩
        rcases controlAxis_cases hSecond with ⟨_, _, rfl⟩
        exact ⟨rfl, rfl, rfl, rfl⟩
      rw [← hKept.1, ← hKept.2.1, ← hKept.2.2.1,
        ← hKept.2.2.2] at hFound
      simp only [control, hFirst', hSecond', bind, Except.bind]
      by_cases hTolerance : InTolerance error
      · rw [if_pos hTolerance] at hRest ⊢
        by_cases hCount : n₁.goalCount + 1 ≥ 5
        · simp only [hCount, if_true, bind_eq_ok, pure_eq_ok,
            Prod.mk.injEq] at hRest
          rcases hRest with ⟨found, hLabel, rfl, rfl⟩
          have hCount' :
              (n₁.carrying hasBox label n₁.prevError
                n₁.integral).goalCount + 1 ≥ 5 := hCount
          simp only [hCount', if_true, hLabel]
          refine ⟨_, rfl, ?_⟩
          exact .intro (fun _ => ⟨rfl, rfl⟩)
            (fun _ => ⟨rfl, fun _ => rfl⟩)
        · simp only [hCount, if_false, pure_eq_ok,
            Prod.mk.injEq] at hRest
          rcases hRest with ⟨rfl, rfl⟩
          have hCount' :
              ¬ (n₁.carrying hasBox label n₁.prevError
                n₁.integral).goalCount + 1 ≥ 5 := hCount
          simp only [hCount', if_false]
          refine ⟨_, rfl, ?_⟩
          exact .intro (fun _ => ⟨rfl, rfl⟩) hFound
      · rw [if_neg hTolerance] at hRest ⊢
        cases hRest
        refine ⟨_, rfl, ?_⟩
        exact .intro (fun _ => ⟨rfl, rfl⟩) hFound

end Control

------------------------------------------------------------
-- The Callback
------------------------------------------------------------

section Callback

variable {n n' : Node K} {r : TickResult K}

/- Agreement is kept by what a tick does to a node. -/
theorem agree_congruence :
    Congruence (Agree : Node K → Node K → Prop) where
  reads := by
    intro n n' hAgree
    cases hAgree
    exact ⟨rfl, rfl, rfl, rfl, rfl⟩
  seen := by
    intro n n' hAgree
    cases hAgree with
    | intro hLoop hFound => exact .intro hLoop hFound
  missed := by
    intro n n' hAgree
    cases hAgree with
    | intro hLoop hFound => exact .intro hLoop hFound
  lost := by
    intro n n' hAgree
    cases hAgree with
    | intro hLoop hFound =>
        refine .intro hLoop fun _ => ⟨rfl, fun hBox => ?_⟩
        cases hBox
  control := control_agree
  turned := by
    intro n n' yaw hAgree hTurn
    cases hAgree with
    | intro hLoop hFound =>
        exact .intro hLoop fun _ => hFound (.inl hTurn)

/- A tick gives the same on nodes that agree. -/
theorem timerCallback_agree
    {trig : Trig K}
    (hAgree : Agree n n')
    (hTick : timerCallback trig n = .ok r) :
    ∃ r', timerCallback trig n' = .ok r' ∧
      SameTick r r' := by
  rcases agree_congruence.timerCallback hAgree hTick with
    ⟨r', hTick', hSame⟩
  exact
    ⟨r', hTick', hSame.node, hSame.published, hSame.assembled⟩

end Callback

------------------------------------------------------------
-- Two Servers
------------------------------------------------------------

section Servers

/- The messages since the last start of a goal. -/
def published : List (Event K) → List (Pos K)
| [] => []
| .started _ :: _ => []
| .ticked t :: earlier =>
    t.result.published.toList ++ published earlier
| _ :: earlier => published earlier

/- The result of the goal that has just returned. -/
def lastResult :
    List (Event K) → Option (ApproachResult K)
| .returned _ _ result :: _ => some result
| _ => none

/- The callbacks that drive a running goal. -/
def Callbacks (_ : Server K) : Input K → Prop
| .boundingBox _ => True
| .timer => True
| _ => False

instance (s : Server K) :
    (i : Input K) → Decidable (Callbacks s i)
| .boundingBox _ => .isTrue trivial
| .timer => .isTrue trivial
| .goal => .isFalse id
| .cancel _ => .isFalse id
| .finish _ => .isFalse id

/-
  Two servers that each run one goal, on nodes that agree,
  and have published the same for it.
-/
structure Parallel
    (goal goal' : Nat)
    (s s' : Server K) : Prop where
  node : Agree s.node s'.node
  executions :
    ∃ released,
      s.executions = [⟨goal, .new, released⟩] ∧
        s'.executions = [⟨goal', .new, released⟩] ∧
        (released = true → s.node.finishEvent = true)
  published : published s'.history = published s.history

namespace Parallel

variable {goal goal' : Nat} {s s' t : Server K}

omit [Field K] [LinearOrder K] in
theorem boundingBox
    (msg : BoundingBox K)
    (hParallel : Parallel goal goal' s s') :
    Parallel goal goal' (s.boundingBox msg)
      (s'.boundingBox msg) := by
  constructor
  case node =>
    have hAgree := hParallel.node
    simp only [Server.boundingBox]
    generalize s.node = n, s'.node = n' at hAgree
    cases hAgree with
    | intro hLoop hFound => exact .intro hLoop hFound
  case executions => exact hParallel.executions
  case published => exact hParallel.published

omit [Field K] [LinearOrder K] in
theorem ticked
    {r r' : TickResult K}
    (hParallel : Parallel goal goal' s s')
    (hSame : SameTick r r')
    (hKept :
      s.node.finishEvent = true →
        r.node.finishEvent = true) :
    Parallel goal goal' (s.ticked r) (s'.ticked r') := by
  rcases hParallel.executions with
    ⟨released, hFirst, hSecond, hReleased⟩
  have hEvent : r'.node.finishEvent = r.node.finishEvent := by
    have hAgree := hSame.node
    generalize r.node = n, r'.node = n' at hAgree
    cases hAgree
    rfl
  constructor
  case node => exact hSame.node
  case executions =>
    simp only [Server.ticked, hEvent, hFirst, hSecond]
    by_cases hEnd : r.node.finishEvent = true
    · exact ⟨true, by simp [hEnd], by simp [hEnd], fun _ => hEnd⟩
    · refine ⟨released, by simp [hEnd], by simp [hEnd], ?_⟩
      intro hOld
      exact hKept (hReleased hOld)
  case published =>
    have hBefore := hParallel.published
    have hNow := hSame.published
    simp only [Server.ticked, Approach.published, hBefore, hNow]

/- A callback of one server is a callback of the other. -/
theorem step
    {trig : Trig K} {i : Input K}
    (hParallel : Parallel goal goal' s s')
    (hCallback : Callbacks s i)
    (hStep : Approach.step trig s i = .ok t) :
    ∃ t', Approach.step trig s' i = .ok t' ∧
      Parallel goal goal' t t' := by
  cases i with
  | boundingBox msg =>
      cases hStep
      exact ⟨_, rfl, hParallel.boundingBox msg⟩
  | timer =>
      rcases bind_eq_ok.mp hStep with ⟨r, hTick, hStep⟩
      cases hStep
      rcases timerCallback_agree hParallel.node hTick with
        ⟨r', hTick', hSame⟩
      refine ⟨s'.ticked r', ?_, ?_⟩
      · exact bind_eq_ok.mpr ⟨r', hTick', rfl⟩
      · apply hParallel.ticked hSame
        exact finishEvent_of_tick (timerCallback_cases hTick)
  | goal => exact hCallback.elim
  | cancel goal => exact hCallback.elim
  | finish goal => exact hCallback.elim

/- When one goal returns, so does the other, with its result. -/
theorem finish
    (trig : Trig K)
    (hParallel : Parallel goal goal' s s')
    (hEnabled : Enabled s (.finish goal))
    (hStep : Approach.step trig s (.finish goal) = .ok t) :
    Enabled s' (.finish goal') ∧
      ∃ t', Approach.step trig s' (.finish goal') = .ok t' ∧
        lastResult t'.history = lastResult t.history := by
  rcases hParallel.executions with
    ⟨released, hFirst, hSecond, hReleased⟩
  have hFind :
      s.execution? goal = some ⟨goal, .new, released⟩ := by
    simp [Server.execution?, hFirst]
  have hFind' :
      s'.execution? goal' = some ⟨goal', .new, released⟩ := by
    simp [Server.execution?, hSecond]
  rcases hEnabled with ⟨e, hMember, hEnd⟩
  rw [Option.mem_def, hFind] at hMember
  cases hMember
  obtain rfl : released = true := hEnd
  have hResult :=
    finishGoal_agree hParallel.node (hReleased rfl)
  simp only [Approach.step, hFind] at hStep
  rcases bind_eq_ok.mp hStep with ⟨result, hFinish, hStep⟩
  cases hStep
  rw [hFinish] at hResult
  refine ⟨⟨_, hFind', rfl⟩, ?_⟩
  simp only [Approach.step, hFind', hResult]
  exact ⟨_, rfl, rfl⟩

end Parallel

/- What one callback keeps of the node. -/
theorem constants_of_step
    {trig : Trig K} {s t : Server K} {i : Input K}
    (hStep : step trig s i = .ok t) :
    t.node.debugMode = s.node.debugMode ∧
      t.node.posData.mode = s.node.posData.mode ∧
      (t.node.boxData = s.node.boxData ∨
        ∃ msg, i = .boundingBox msg ∧
          t.node.boxData = some msg) := by
  rcases node_of_step hStep with
    hSame | hStart | ⟨msg, hInput, hMessage⟩ |
      ⟨r, hCase, hTicked⟩
  · rw [hSame]
    exact ⟨rfl, rfl, .inl rfl⟩
  · rw [hStart]
    exact ⟨rfl, rfl, .inl rfl⟩
  · rw [hMessage]
    exact ⟨rfl, rfl, .inr ⟨msg, hInput, rfl⟩⟩
  · rw [hTicked]
    cases hCase with
    | neutral => exact ⟨rfl, rfl, .inl rfl⟩
    | miss => exact ⟨rfl, rfl, .inl rfl⟩
    | lose => exact ⟨rfl, rfl, .inl rfl⟩
    | track _ _ _ _ _ hNode =>
        rw [hNode]
        exact ⟨rfl, rfl, .inl rfl⟩
    | confirm _ _ _ _ _ _ hNode =>
        rw [hNode]
        exact ⟨rfl, rfl, .inl rfl⟩
    | turn _ _ _ _ _ _ hNode =>
        rw [hNode]
        exact ⟨rfl, rfl, .inl rfl⟩

/- What no callback changes, after any history. -/
theorem constants_of_run
    {trig : Trig K} {debugMode : Int}
    {is : List (Input K)} {s : Server K}
    (hRun :
      (machine trig).Run (Server.init debugMode) is s) :
    s.node.debugMode = debugMode ∧ s.node.posData.mode = 0 := by
  apply hRun.invariant
    (P := fun s =>
      s.node.debugMode = debugMode ∧ s.node.posData.mode = 0)
    ⟨rfl, rfl⟩
  intro t i u hConstants _ hStep
  rcases constants_of_step hStep with ⟨hDebug, hMode, _⟩
  rw [hDebug, hMode]
  exact hConstants

/-
  After any two histories that leave no goal running and the
  same message stored, a goal goes on alike: the same
  callbacks return in both nodes, publish the same messages,
  and give the same result when the goal returns.
-/
theorem goals_isolated
    {trig : Trig K} {debugMode : Int}
    {is is' js : List (Input K)} {s s' t : Server K}
    (hRun : (machine trig).Run (Server.init debugMode) is s)
    (hRun' : (machine trig).Run (Server.init debugMode) is' s')
    (hIdle : s.executions = [])
    (hIdle' : s'.executions = [])
    (hBox : s'.node.boxData = s.node.boxData)
    (hGoal :
      ((machine trig).restrict Callbacks).Run s.goal js t) :
    ∃ t', ((machine trig).restrict Callbacks).Run s'.goal js t' ∧
      published t'.history = published t.history ∧
      ∀ u, (machine trig).Enabled t (.finish s.nextGoal) →
        (machine trig).step t (.finish s.nextGoal) = .ok u →
          (machine trig).Enabled t' (.finish s'.nextGoal) ∧
          ∃ u',
            (machine trig).step t' (.finish s'.nextGoal) =
              .ok u' ∧
            lastResult u'.history = lastResult u.history := by
  rcases constants_of_run hRun with ⟨hDebug, hMode⟩
  rcases constants_of_run hRun' with ⟨hDebug', hMode'⟩
  have hStart :
      Parallel s.nextGoal s'.nextGoal s.goal s'.goal := by
    constructor
    case node =>
      apply agree_startGoal
      · rw [hDebug, hDebug']
      · exact hBox
      · rw [hMode, hMode']
    case executions =>
      exact
        ⟨false, by simp [Server.goal, hIdle],
          by simp [Server.goal, hIdle'], nofun⟩
    case published => rfl
  have hAnswer :=
    hGoal.simulate (f := id)
      (N := (machine trig).restrict Callbacks) hStart
      (fun u v i w hParallel hEnabled hStep => by
        rcases hParallel.step hEnabled.2 hStep with
          ⟨w', hStep', hParallel'⟩
        refine ⟨⟨?_, ?_⟩, w', hStep', hParallel'⟩
        · cases i with
          | boundingBox msg => trivial
          | timer => trivial
          | goal => exact hEnabled.2.elim
          | cancel goal => exact hEnabled.2.elim
          | finish goal => exact hEnabled.2.elim
        · exact hEnabled.2)
  rw [List.map_id] at hAnswer
  rcases hAnswer with ⟨t', hOther, hParallel⟩
  refine ⟨t', hOther, hParallel.published, ?_⟩
  intro u hEnabled hStep
  exact hParallel.finish trig hEnabled hStep

/- A can beside the target, and one on it. -/
def canAside : BoundingBox ℚ :=
  ⟨[180, 210, 220, 250], ["can"], [1], [0], true⟩

def canOnTarget : BoundingBox ℚ :=
  ⟨[230, 270, 250, 290], ["can"], [1], [0], true⟩

/- A goal that loses its target, and returns. -/
def losingTarget : List (Input ℚ) :=
  .goal :: (List.replicate 30 .timer ++ [.finish 0])

/- The arm moves to a can, and the goal finds it. -/
def findingCan : List (Input ℚ) :=
  [.boundingBox canAside, .timer, .boundingBox canOnTarget] ++
    List.replicate 6 .timer

/- What the goal then returns. -/
def canFound : ApproachResult ℚ :=
  ⟨210 + 3 / 40, 40 + 3 / 50, 40, 0, "can", true⟩

/-
  A goal that finds the can after a goal that lost its target
  does what the first goal of a node would have done.
-/
theorem goals_isolated_after_lost :
    ∃ s t' u' : Server ℚ,
      (machine ⟨fun _ _ => 0, 1⟩).Run (Server.init 0)
          losingTarget s ∧
        ((machine ⟨fun _ _ => 0, 1⟩).restrict Callbacks).Run
          s.goal findingCan t' ∧
        (published t'.history).length = 6 ∧
        (machine ⟨fun _ _ => 0, 1⟩).step t' (.finish 1) =
          .ok u' ∧
        lastResult u'.history = some canFound := by
  have hFirst :
      (((machine (⟨fun _ _ => 0, 1⟩ : Trig ℚ)).restrict
        Callbacks).exec (Server.init 0).goal findingCan).any
        (fun t =>
          decide
            ((published t.history).length = 6 ∧
              Enabled t (.finish 0)) &&
            match Approach.step ⟨fun _ _ => 0, 1⟩ t
                (.finish 0) with
            | .ok u =>
                decide (lastResult u.history = some canFound)
            | .error _ => false) = true := by
    decide +kernel
  have hLost :
      ((machine (⟨fun _ _ => 0, 1⟩ : Trig ℚ)).exec
        (Server.init 0) losingTarget).any
        (fun s =>
          decide
            (s.executions = [] ∧ s.nextGoal = 1 ∧
              s.node.boxData = some .default)) = true := by
    decide +kernel
  rcases Machine.exists_run_of_exec hFirst with
    ⟨t, hGoal, hFound⟩
  rcases Machine.exists_run_of_exec hLost with
    ⟨s, hRun, hTest⟩
  rcases of_decide_eq_true hTest with ⟨hIdle, hNext, hBox⟩
  rw [Bool.and_eq_true] at hFound
  rcases hFound with ⟨hBefore, hReturn⟩
  rcases of_decide_eq_true hBefore with ⟨hMessages, hEnabled⟩
  rcases goals_isolated .nil hRun rfl hIdle hBox hGoal with
    ⟨t', hOther, hSame, hFinish⟩
  cases hStep :
    Approach.step ⟨fun _ _ => 0, 1⟩ t (.finish 0) with
  | error e =>
      rw [hStep] at hReturn
      cases hReturn
  | ok u =>
      rw [hStep] at hReturn
      rcases hFinish u hEnabled hStep with
        ⟨_, u', hStep', hResult⟩
      rw [hNext] at hStep'
      refine ⟨s, t', u', hRun, hOther, ?_, hStep', ?_⟩
      · rw [hSame]
        exact hMessages
      · rw [hResult]
        exact of_decide_eq_true hReturn

end Servers

end Approach

end Manipulator
