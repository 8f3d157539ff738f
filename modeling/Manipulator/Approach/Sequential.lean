import Manipulator.Approach.Interleaving
import Manipulator.Approach.Server

/-
  Callbacks that nothing interrupts.

  `Server.lean` runs every callback as a whole. Here each of
  its runs with one goal at a time is found again among the
  runs of the process whose callbacks go on by statements:
  each callback is taken from its first statement to its
  last before anything else happens.

  Main declarations:
    * `Alone`, `alone_of_timerCallback`
    * `Process.exists_run_of_alone`
    * `Sequential`, `exists_process_run`
-/

------------------------------------------------------------
-- A Timer Callback On Its Own
------------------------------------------------------------

namespace Manipulator

namespace Approach

variable {K : Type} [Field K] [LinearOrder K]

/-
  From a statement on, a callback that nothing interrupts
  publishes these messages and leaves this node.
-/
inductive Alone
    (trig : Trig K) :
    TickAt K → Node K → List (Pos K) → Node K → Prop where
| last
    {stmt : TickAt K} {n : Node K} {e : Effect K}
    (hStep : stmt.step trig n = .ok e)
    (hLast : e.next = none) :
    Alone trig stmt n e.published.toList e.node
| next
    {stmt stmt' : TickAt K} {n n' : Node K} {e : Effect K}
    {published : List (Pos K)}
    (hStep : stmt.step trig n = .ok e)
    (hNext : e.next = some stmt')
    (hRest : Alone trig stmt' e.node published n') :
    Alone trig stmt n (e.published.toList ++ published) n'

namespace Alone

variable {trig : Trig K} {stmt stmt' : TickAt K}
variable {n m n' : Node K} {published : List (Pos K)}

/- A statement that publishes nothing, and goes on. -/
theorem go
    (hStep : stmt.step trig n = .ok (.go m stmt'))
    (hRest : Alone trig stmt' m published n') :
    Alone trig stmt n published n' :=
  .next hStep rfl hRest

/- A statement that returns. -/
theorem stop
    (hStep : stmt.step trig n = .ok (.stop m)) :
    Alone trig stmt n [] m :=
  .last hStep rfl

end Alone

------------------------------------------------------------
-- The Parts Of The Callback
------------------------------------------------------------

section

variable {trig : Trig K} {n m n' : Node K}
variable {published : List (Pos K)}

/- A statement of a pass that the pass goes on after. -/
theorem alone_axis_next
    {aim : Aim K} {i : Fin 2} {stmt next : AxisAt K}
    (hStep : stmt.step aim.error i n = .ok (m, some next))
    (hRest : Alone trig (.axis aim i next) m published n') :
    Alone trig (.axis aim i stmt) n published n' := by
  refine .go ?_ hRest
  simp only [TickAt.step, hStep]
  rfl

/- The last statement of a pass. -/
theorem alone_axis_last
    {aim : Aim K} {i : Fin 2} {stmt : AxisAt K}
    (hStep : stmt.step aim.error i n = .ok (m, none))
    (hRest :
      Alone trig (TickAt.afterAxis aim i) m published n') :
    Alone trig (.axis aim i stmt) n published n' := by
  refine .go ?_ hRest
  simp only [TickAt.step, hStep]
  rfl

/- The head of a pass does what `firstPass` says. -/
theorem alone_firstPass
    {aim : Aim K} {i : Fin 2}
    (hRest :
      Alone trig (.axis aim i .addIntegral) n.firstPass
        published n') :
    Alone trig (.axis aim i .checkFirst) n published n' := by
  cases hFirst : n.firstLoop with
  | false =>
      have hSame : n.firstPass = n := by
        simp [Node.firstPass, hFirst]
      rw [hSame] at hRest
      refine alone_axis_next ?_ hRest
      simp [AxisAt.step, hFirst]
      rfl
  | true =>
      have hReset :
          n.firstPass =
            { n with
              prevError := some ![0, 0]
              integral := some ![0, 0]
              firstLoop := false } := by
        simp [Node.firstPass, hFirst]
      rw [hReset] at hRest
      have hTest :
          AxisAt.checkFirst.step aim.error i n =
            .ok (n, some .zeroPrevError) := by
        simp [AxisAt.step, hFirst]
        rfl
      exact alone_axis_next hTest
        (alone_axis_next rfl
          (alone_axis_next rfl (alone_axis_next rfl hRest)))

/- A whole pass of the PID loop. -/
theorem alone_controlAxis
    {aim : Aim K} {i : Fin 2}
    (hAxis : controlAxis aim.error n i = .ok m)
    (hRest :
      Alone trig (TickAt.afterAxis aim i) m published n') :
    Alone trig (.axis aim i .checkFirst) n published n' := by
  simp only [controlAxis, bind_eq_ok, pure_eq_ok] at hAxis
  obtain ⟨integral, hIntegral, prevError, hPrev, rfl⟩ := hAxis
  refine alone_firstPass ?_
  generalize n.firstPass = first at hIntegral hPrev hRest ⊢
  let added : Node K :=
    { first with
      integral := some (Function.update integral i
        (integral i + aim.error i * (1 / 10))) }
  have hAdd :
      AxisAt.addIntegral.step aim.error i first =
        .ok (added, some .derive) := by
    simp only [AxisAt.step, hIntegral]
    rfl
  have hDerive :
      AxisAt.derive.step aim.error i added =
        .ok (added, some (.limit
          ((aim.error i - prevError i) / (1 / 10)))) := by
    simp only [AxisAt.step, added, hPrev]
    rfl
  have hKeep :
      ∀ posData : Pos K,
        AxisAt.keepError.step aim.error i
            { added with posData := posData } =
          .ok ({ added with
            posData := posData
            prevError :=
              some (Function.update prevError i
                (aim.error i)) }, none) := by
    intro posData
    simp only [AxisAt.step, added, hPrev]
    rfl
  exact alone_axis_next hAdd
    (alone_axis_next hDerive
      (alone_axis_next rfl
        (alone_axis_next rfl
          (alone_axis_last (hKeep _) hRest))))

/- The search for the leftmost box, from a box on. -/
theorem alone_select
    {box : BoundingBox K} {start count : Nat}
    {acc last : Option K × Nat}
    (hCount : start + count = box.count)
    (hFold :
      (List.range' start count).foldlM (selectStep box.xyxy)
          acc =
        .ok last)
    (hRest :
      Alone trig (.checkMisses ⟨box, last.2⟩) n published n') :
    Alone trig (.select box start acc) n published n' := by
  induction count generalizing start acc with
  | zero =>
      rw [List.range'_zero, List.foldlM_nil, pure_eq_ok] at hFold
      subst hFold
      refine .go ?_ hRest
      have hEnd : ¬ start < box.count := by omega
      simp only [TickAt.step, if_neg hEnd]
      rfl
  | succ count ih =>
      rw [List.range'_succ, List.foldlM_cons, bind_eq_ok]
        at hFold
      obtain ⟨next, hNext, hFold⟩ := hFold
      refine .go ?_ (ih (by omega) hFold)
      have hMore : start < box.count := by omega
      simp only [TickAt.step, if_pos hMore, hNext]
      rfl

/- The end of a callback that publishes. -/
theorem alone_publish
    {s : Sighting K} {center : Option (K × K)}
    {assembled : Pos K} {r : TickResult K}
    (hPublish :
      publish s.box s.minIndex center assembled n = .ok r) :
    Alone trig (.publish s center) n r.published.toList
      r.node := by
  have hDraw :
      (TickAt.debug s center).step trig n = .ok (.stop n) := by
    unfold publish at hPublish
    by_cases hDebug : n.debugMode = 1
    · simp only [hDebug, if_true, bind_eq_ok] at hPublish
      obtain ⟨_, hDrawn, -⟩ := hPublish
      simp only [TickAt.step, hDebug, if_true, hDrawn]
      rfl
    · simp only [TickAt.step, hDebug, if_false]
      rfl
  rw [publish_cases hPublish]
  have hEnd : Alone trig (.debug s center) n [] n := .stop hDraw
  have hSend :
      (TickAt.publish s center).step trig n =
        .ok ⟨n, some (.debug s center), some n.posData⟩ := rfl
  exact .next hSend rfl hEnd

/- Both passes of the PID loop. -/
theorem alone_axes
    {aim : Aim K} {first second : Node K}
    (hFirst : controlAxis aim.error n 0 = .ok first)
    (hSecond : controlAxis aim.error first 1 = .ok second)
    (hRest : Alone trig (.checkTolerance aim) second published n') :
    Alone trig (.axis aim 0 .checkFirst) n published n' := by
  have hAgain :
      TickAt.afterAxis aim 0 = .axis aim 1 .checkFirst := rfl
  have hAfter : TickAt.afterAxis aim 1 = .checkTolerance aim :=
    rfl
  refine alone_controlAxis hFirst ?_
  rw [hAgain]
  refine alone_controlAxis hSecond ?_
  rw [hAfter]
  exact hRest

/-
  The body of the approach state: it returns when the target
  is reached, and goes on to the turn test when not.
-/
theorem alone_control
    {aim : Aim K} {reached : Bool}
    (hControl :
      control aim.box aim.minIndex aim.error n = .ok (m, reached))
    (hReached : reached = true → published = [] ∧ n' = m)
    (hRest :
      reached = false →
        Alone trig (.checkTurn aim.toSighting (some aim.center))
          m published n') :
    Alone trig (.axis aim 0 .checkFirst) n published n' := by
  simp only [control, bind_eq_ok] at hControl
  obtain ⟨first, hFirst, second, hSecond, hTest⟩ := hControl
  refine alone_axes hFirst hSecond ?_
  by_cases hTolerance : InTolerance aim.error
  · rw [if_pos hTolerance] at hTest
    have hHit :
        (TickAt.checkTolerance aim).step trig second =
          .ok (.go second (.countHit aim)) := by
      simp only [TickAt.step, if_pos hTolerance]
      rfl
    refine .go hHit (.go rfl ?_)
    by_cases hCount : second.goalCount + 1 ≥ 5
    · simp only [if_pos hCount, bind_eq_ok, pure_eq_ok,
        Prod.mk.injEq] at hTest
      obtain ⟨label, hLabel, rfl, rfl⟩ := hTest
      obtain ⟨rfl, rfl⟩ := hReached rfl
      have hTurn :
          (TickAt.checkHits aim).step trig
              { second with goalCount := second.goalCount + 1 } =
            .ok (.go
              { second with goalCount := second.goalCount + 1 }
              (.startTurn aim)) := by
        simp only [TickAt.step, if_pos hCount]
        rfl
      refine .go hTurn (.go rfl (.go rfl (.stop ?_)))
      simp only [TickAt.step, hLabel]
      rfl
    · simp only [if_neg hCount, pure_eq_ok, Prod.mk.injEq]
        at hTest
      obtain ⟨rfl, rfl⟩ := hTest
      have hSoon :
          (TickAt.checkHits aim).step trig
              { second with goalCount := second.goalCount + 1 } =
            .ok (.go
              { second with goalCount := second.goalCount + 1 }
              (.endLoop aim)) := by
        simp only [TickAt.step, if_neg hCount]
        rfl
      exact .go hSoon (.go rfl (hRest rfl))
  · rw [if_neg hTolerance, pure_eq_ok, Prod.mk.injEq] at hTest
    obtain ⟨rfl, rfl⟩ := hTest
    have hMiss :
        (TickAt.checkTolerance aim).step trig second =
          .ok (.go second (.endLoop aim)) := by
      simp only [TickAt.step, if_neg hTolerance]
      rfl
    exact .go hMiss (.go rfl (hRest rfl))

/- A tick in the approach state. -/
theorem alone_approachTick
    {s : Sighting K} {r : TickResult K}
    (hState : n.state = .approach)
    (hTick : approachTick s.box s.minIndex n = .ok r) :
    Alone trig (.findCenter s) n r.published.toList r.node := by
  simp only [approachTick, bind_eq_ok] at hTick
  obtain ⟨center, hCenter, ⟨m, reached⟩, hControl, hTick⟩ := hTick
  have hFind :
      (TickAt.findCenter s).step trig n =
        .ok (.go n (.axis ⟨s, center⟩ 0 .checkFirst)) := by
    simp only [TickAt.step, hCenter]
    rfl
  have hAim : (Aim.mk s center).error = controlError center := rfl
  refine .go hFind (alone_control hControl ?_ ?_)
  · rintro rfl
    cases hTick
    exact ⟨rfl, rfl⟩
  · rintro rfl
    refine .go ?_ (alone_publish hTick)
    have hStill : m.state ≠ .turn := by
      obtain ⟨integral, prevError, m', rfl, hCase⟩ :=
        control_cases hControl
      obtain ⟨rfl, -⟩ | ⟨_, _, _, hTrue, _⟩ := hCase
      · simp [Node.tracked, hState]
      · cases hTrue
    simp only [TickAt.step, if_neg hStill]
    rfl

/- A tick in the turn state. -/
theorem alone_turnTick
    {s : Sighting K} {r : TickResult K}
    (hState : n.state = .turn)
    (hTick : turnTick trig s.box s.minIndex n = .ok r) :
    Alone trig (.checkTurn s none) n r.published.toList
      r.node := by
  simp only [turnTick, bind_eq_ok] at hTick
  obtain ⟨angle, hAngle, hTick⟩ := hTick
  have hTurn :
      (TickAt.checkTurn s none).step trig n =
        .ok (.go n (.readAngle s none)) := by
    simp only [TickAt.step, if_pos hState]
    rfl
  have hRead :
      (TickAt.readAngle s none).step trig n =
        .ok (.go n (.readPose s none angle)) := by
    simp only [TickAt.step, hAngle]
    rfl
  exact .go hTurn (.go hRead (.go rfl (.go rfl (.go rfl
    (.go rfl (alone_publish hTick))))))

/- A tick on a message without a box. -/
theorem alone_noBoxTick :
    Alone trig .countMiss n [] (noBoxTick n) := by
  by_cases hCount : n.noBoxCount + 1 ≥ noBoxCountLimit
  · have hLost :
        TickAt.checkLimit.step trig
            { n with noBoxCount := n.noBoxCount + 1 } =
          .ok (.go { n with noBoxCount := n.noBoxCount + 1 }
            .stopLost) := by
      simp only [TickAt.step, if_pos hCount]
      rfl
    simp only [noBoxTick, if_pos hCount]
    exact .go rfl (.go hLost (.go rfl (.go rfl (.go rfl
      (.stop rfl)))))
  · have hSleep :
        TickAt.checkLimit.step trig
            { n with noBoxCount := n.noBoxCount + 1 } =
          .ok (.go { n with noBoxCount := n.noBoxCount + 1 }
            .sleep) := by
      simp only [TickAt.step, if_neg hCount]
      rfl
    simp only [noBoxTick, if_neg hCount]
    exact .go rfl (.go hSleep (.stop rfl))

/- A tick on a message with a box. -/
theorem alone_boxTick
    {box : BoundingBox K} {i : Nat}
    (hIndex : minIndex K box = .ok i)
    (hRest :
      Alone trig (.checkApproach ⟨box, i⟩) n.seen published n') :
    Alone trig (.clearMisses box) n published n' := by
  simp only [minIndex, bind_eq_ok, pure_eq_ok] at hIndex
  obtain ⟨last, hFold, rfl⟩ := hIndex
  rw [List.range_eq_range'] at hFold
  have hSelected :
      (TickAt.checkMisses ⟨box, last.2⟩).step trig n.seen =
        .ok (.go n.seen (.checkApproach ⟨box, last.2⟩)) := by
    simp only [TickAt.step, Node.seen, if_true]
    rfl
  have hSelect :
      Alone trig (.select box 0 (none, 0)) n.seen published n' :=
    alone_select (Nat.zero_add _) hFold (.go hSelected hRest)
  exact .go rfl hSelect

/- A tick on the message that it acts on. -/
theorem alone_actTick
    {box : BoundingBox K} {r : TickResult K}
    (hTick : actTick trig n box = .ok r) :
    Alone trig (.checkBox box) n r.published.toList r.node := by
  unfold actTick at hTick
  by_cases hBox : box.hasBox = false
  · rw [if_pos hBox] at hTick
    cases hTick
    refine .go ?_ alone_noBoxTick
    simp only [TickAt.step, if_pos hBox]
    rfl
  · simp only [if_neg hBox, bind_eq_ok] at hTick
    obtain ⟨i, hIndex, hTick⟩ := hTick
    have hSeen :
        (TickAt.checkBox box).step trig n =
          .ok (.go n (.clearMisses box)) := by
      simp only [TickAt.step, if_neg hBox]
      rfl
    refine .go hSeen (alone_boxTick hIndex ?_)
    cases hState : n.state with
    | approach =>
        have hApproach :
            (TickAt.checkApproach ⟨box, i⟩).step trig n.seen =
              .ok (.go n.seen (.findCenter ⟨box, i⟩)) := by
          simp [TickAt.step, Node.seen, hState]
          rfl
        rw [hState] at hTick
        exact .go hApproach (alone_approachTick hState hTick)
    | turn =>
        have hTurn :
            (TickAt.checkApproach ⟨box, i⟩).step trig n.seen =
              .ok (.go n.seen (.checkTurn ⟨box, i⟩ none)) := by
          simp [TickAt.step, Node.seen, hState]
          rfl
        rw [hState] at hTick
        exact .go hTurn (alone_turnTick hState hTick)

/- A callback that returns does what it does on its own. -/
theorem alone_of_timerCallback
    {r : TickResult K}
    (hTick : timerCallback trig n = .ok r) :
    Alone trig .checkRun n r.published.toList r.node := by
  -- a callback that no message lets act
  have hNeutral :
      n.actsOn = none → Alone trig .checkRun n [] n →
        Alone trig .checkRun n r.published.toList r.node := by
    intro hActs hAlone
    rw [timerCallback_eq, hActs] at hTick
    cases hTick
    exact hAlone
  cases hRun : n.run with
  | false =>
      refine hNeutral (by simp [Node.actsOn, hRun]) (.stop ?_)
      simp only [TickAt.step, hRun, if_true]
      rfl
  | true =>
      have hGo :
          TickAt.checkRun.step trig n =
            .ok (.go n .readBox) := by
        simp [TickAt.step, hRun]
        rfl
      cases hBox : n.boxData with
      | none =>
          have hStop :
              TickAt.readBox.step trig n = .ok (.stop n) := by
            simp only [TickAt.step, hBox]
            rfl
          exact hNeutral (by simp [Node.actsOn, hBox])
            (.go hGo (.stop hStop))
      | some box =>
          have hRead :
              TickAt.readBox.step trig n =
                .ok (.go n (.checkLength box)) := by
            simp only [TickAt.step, hBox]
            rfl
          by_cases hValid : box.Valid
          · have hActs : n.actsOn = some box := by
              simp [Node.actsOn, hRun, hBox, hValid]
            have hLength :
                (TickAt.checkLength box).step trig n =
                  .ok (.go n (.checkBox box)) := by
              simp only [TickAt.step, hValid, not_true_eq_false,
                if_false]
              rfl
            rw [timerCallback_eq, hActs] at hTick
            exact .go hGo (.go hRead
              (.go hLength (alone_actTick hTick)))
          · have hLength :
                (TickAt.checkLength box).step trig n =
                  .ok (.stop n) := by
              simp only [TickAt.step, hValid, not_false_eq_true,
                if_true]
              rfl
            exact hNeutral
              (by simp [Node.actsOn, hBox, hValid])
              (.go hGo (.go hRead (.stop hLength)))

end

------------------------------------------------------------
-- An Execute Callback On Its Own
------------------------------------------------------------

/- A statement that is followed whatever the others do. -/
def GoalAt.isPlain : GoalAt K → Bool
| .idle => false
| .wait => false
| .finish _ => false
| _ => true

omit [Field K] [LinearOrder K] in
theorem GoalAt.isPlain_cases
    {goal : GoalAt K} (hPlain : goal.isPlain = true) :
    goal.isIdle = false ∧ goal.isWaiting = false ∧
      goal.isReturning = false := by
  cases goal with
  | idle | wait | finish result => cases hPlain
  | _ => exact ⟨rfl, rfl, rfl⟩

/-
  `execute_callback` takes this number of plain statements,
  and nothing happens in between.
-/
inductive GoesOn :
    Node K → GoalAt K → Nat → Node K → GoalAt K → Prop where
| done {n : Node K} {goal : GoalAt K} : GoesOn n goal 0 n goal
| next
    {n m n' : Node K} {goal goal' last : GoalAt K} {steps : Nat}
    (hPlain : goal.isPlain = true)
    (hStep : goal.step n = .ok (m, goal'))
    (hRest : GoesOn m goal' steps n' last) :
    GoesOn n goal (steps + 1) n' last

omit [LinearOrder K] in
/- The eleven statements before the wait. -/
theorem goesOn_startGoal {n : Node K} :
    GoesOn n .resetFirst 11 (startGoal n) .wait :=
  .next rfl rfl (.next rfl rfl (.next rfl rfl
    (.next rfl rfl (.next rfl rfl (.next rfl rfl
      (.next rfl rfl (.next rfl rfl (.next rfl rfl
        (.next rfl rfl (.next rfl rfl .done))))))))))

omit [LinearOrder K] in
/- The statements after the wait, up to the return. -/
theorem exists_goesOn_finishGoal
    {n : Node K} {result : ApproachResult K}
    (hFinish : finishGoal n = .ok result) :
    ∃ steps, GoesOn n .succeed steps n (.finish result) := by
  simp only [finishGoal, bind_eq_ok] at hFinish
  obtain ⟨hasBox, hSeen, hFinish⟩ := hFinish
  cases hasBox with
  | false =>
      cases hFinish
      have hCheck :
          GoalAt.checkBox.step n = .ok (n, .finish noneResult) := by
        simp only [GoalAt.step, hSeen]
        rfl
      exact ⟨2, .next rfl rfl (.next rfl hCheck .done)⟩
  | true =>
      simp only [if_true, bind_eq_ok] at hFinish
      obtain ⟨label, hLabel, hFinish⟩ := hFinish
      cases hFinish
      have hCheck :
          GoalAt.checkBox.step n =
            .ok (n,
              .resultX { emptyResult with success := true }) := by
        simp only [GoalAt.step, hSeen]
        rfl
      have hName :
          ∀ result : ApproachResult K,
            (GoalAt.resultLabel result).step n =
              .ok (n, .finish { result with label := label }) := by
        intro result
        simp only [GoalAt.step, hLabel]
        rfl
      exact ⟨7,
        .next rfl rfl (.next rfl hCheck
          (.next rfl rfl (.next rfl rfl (.next rfl rfl
            (.next rfl rfl (.next rfl (hName _) .done))))))⟩

------------------------------------------------------------
-- Callbacks Of The Process
------------------------------------------------------------

namespace Process

variable {trig : Trig K} {s : Process K} {k : Nat}

omit [Field K] [LinearOrder K] in
/- What a callback in flight is to do next. -/
theorem stmt?_resume
    {stmt : TickAt K} (hStmt : s.stmt? k = some stmt)
    (n : Node K)
    (next : Option (TickAt K)) :
    ({ s with node := n, ticks := s.resume k next } :
        Process K).stmt? k =
      next := by
  obtain ⟨c, hCallback, -⟩ := Option.bind_eq_some_iff.mp hStmt
  simp [stmt?, resume, hCallback]

omit [Field K] [LinearOrder K] in
theorem resume_resume
    {next last : Option (TickAt K)} {n : Node K} :
    ({ s with node := n, ticks := s.resume k next } :
        Process K).resume k last =
      s.resume k last := by
  simp only [resume, List.modify_modify_eq]
  rfl

/- One statement of a callback in flight. -/
theorem run_tick
    {stmt : TickAt K} {e : Effect K}
    (hStmt : s.stmt? k = some stmt)
    (hStep : stmt.step trig s.node = .ok e) :
    (process trig).Run s [.tick k]
      { s with node := e.node, ticks := s.resume k e.next } :=
  .single (Option.isSome_of_eq_some hStmt)
    (congrArg Except.ok (stepTick_ok hStmt hStep))

/- A callback in flight goes on to its end. -/
theorem exists_run_of_alone
    {stmt : TickAt K} {n n' : Node K}
    {published : List (Pos K)}
    (hAlone : Alone trig stmt n published n')
    (hNode : s.node = n)
    (hStmt : s.stmt? k = some stmt) :
    ∃ steps,
      (process trig).Run s (List.replicate steps (.tick k))
        { s with node := n', ticks := s.resume k none } := by
  induction hAlone generalizing s with
  | last hStep hLast =>
      subst hNode
      have hRun := run_tick hStmt hStep
      rw [hLast] at hRun
      exact ⟨1, hRun⟩
  | @next stmt stmt' n n' e published hStep hNext hRest ih =>
      subst hNode
      have hRun := run_tick hStmt hStep
      rw [hNext] at hRun
      obtain ⟨steps, hMore⟩ := ih rfl
        (stmt?_resume hStmt e.node (some stmt'))
      rw [resume_resume] at hMore
      exact ⟨steps + 1, hRun.trans hMore⟩

/- The timer fires, and its callback runs on its own. -/
theorem exists_run_of_timerCallback
    {r : TickResult K}
    (hTick : timerCallback trig s.node = .ok r) :
    ∃ actions,
      (process trig).Run s actions
        { s with
          node := r.node
          ticks := s.ticks ++ [⟨s.returned, none⟩] } := by
  have hFire : (process trig).Run s [.fire] s.fire :=
    .single trivial rfl
  have hStmt : s.fire.stmt? s.ticks.length = some .checkRun := by
    simp [stmt?, fire]
  obtain ⟨steps, hRun⟩ := exists_run_of_alone (s := s.fire)
    (alone_of_timerCallback hTick) rfl hStmt
  have hTicks :
      s.fire.resume s.ticks.length none =
        s.ticks ++ [⟨s.returned, none⟩] := by
    rw [resume, fire, List.modify_eq_take_cons_drop (by simp)]
    simp
  rw [hTicks] at hRun
  exact ⟨_, hFire.trans hRun⟩

------------------------------------------------------------
-- Goals Of The Process
------------------------------------------------------------

/- A statement that neither waits nor returns. -/
theorem run_plain
    {n : Node K} {goal : GoalAt K}
    (hPlain : s.goal.isPlain = true)
    (hStep : s.goal.step s.node = .ok (n, goal)) :
    (process trig).Run s [.goal]
      { s with node := n, goal := goal } := by
  obtain ⟨hIdle, hWaiting, hReturning⟩ :=
    GoalAt.isPlain_cases hPlain
  have hEnabled : s.Enabled .goal := by
    refine ⟨hIdle, fun hWait => ?_⟩
    rw [hWaiting] at hWait
    cases hWait
  have hNext : s.stepGoal = { s with node := n, goal := goal } := by
    simp only [stepGoal, hStep, hReturning, Bool.false_eq_true,
      if_false]
  exact .single hEnabled (congrArg Except.ok hNext)

/- Statements that neither wait nor return. -/
theorem run_of_goesOn
    {steps : Nat} {n n' : Node K} {goal goal' : GoalAt K}
    (hGoes : GoesOn n goal steps n' goal')
    (hNode : s.node = n)
    (hGoal : s.goal = goal) :
    (process trig).Run s (List.replicate steps .goal)
      { s with node := n', goal := goal' } := by
  induction hGoes generalizing s with
  | done =>
      subst hNode hGoal
      exact .nil
  | next hPlain hStep hRest ih =>
      subst hNode hGoal
      have hFirst : (process trig).Run s [.goal] _ :=
        run_plain hPlain hStep
      exact hFirst.trans (ih rfl rfl)

/- A goal starts, and its callback runs up to the wait. -/
theorem run_startGoal
    (hIdle : s.goal = .idle) :
    (process trig).Run s beginGoal
      { s with
        node := startGoal s.node
        goal := .wait
        current := s.returned } := by
  have hStart : (process trig).Run s [.start] s.start := by
    refine .single ?_ rfl
    change s.goal.isIdle = true
    rw [hIdle]
    rfl
  exact hStart.trans (run_of_goesOn goesOn_startGoal rfl rfl)

/- A goal goes on after the wait, up to its result. -/
theorem exists_run_of_finishGoal
    {result : ApproachResult K}
    (hWait : s.goal = .wait)
    (hEvent : s.node.finishEvent = true)
    (hFinish : finishGoal s.node = .ok result) :
    ∃ actions,
      (process trig).Run s actions
        { s with goal := .finish result } := by
  obtain ⟨steps, hGoes⟩ := exists_goesOn_finishGoal hFinish
  have hPass :
      (process trig).Run s [.goal] { s with goal := .succeed } := by
    refine .single ⟨?_, fun _ => hEvent⟩ (congrArg Except.ok ?_)
    · rw [hWait]
      rfl
    · simp only [step, stepGoal, hWait]
      rfl
  exact ⟨_, hPass.trans (run_of_goesOn hGoes rfl rfl)⟩

/- A goal returns its result. -/
theorem run_finish
    {result : ApproachResult K}
    (hGoal : s.goal = .finish result) :
    (process trig).Run s [.goal]
      { s with goal := .idle, returned := s.returned + 1 } := by
  refine .single ⟨?_, ?_⟩ (congrArg Except.ok ?_)
  · rw [hGoal]
    rfl
  · intro hWait
    rw [hGoal] at hWait
    cases hWait
  · simp only [step, stepGoal, hGoal]
    rfl

end Process

------------------------------------------------------------
-- The Runs Of The Server
------------------------------------------------------------

/- A goal starts when none runs. -/
def OneGoal (s : Server K) : Input K → Prop
| .goal => s.executions = []
| _ => True

omit [Field K] [LinearOrder K] in
/-
  The server between two callbacks, and the process with
  none in flight but the goal that waits.
-/
structure Sequential (s : Server K) (p : Process K) : Prop where
  node : p.node = s.node
  goal :
    (s.executions = [] ∧ p.goal = .idle) ∨
      ∃ e, s.executions = [e] ∧ p.goal = .wait ∧
        (e.released = true → s.node.finishEvent = true)

namespace Sequential

variable {trig : Trig K} {s t : Server K} {p : Process K}

omit [LinearOrder K] in
theorem init (debugMode : Int) :
    Sequential (Server.init debugMode : Server K)
      (.init debugMode) :=
  ⟨rfl, .inl ⟨rfl, rfl⟩⟩

/- The answer to the start of a goal. -/
theorem startGoal
    (hSequential : Sequential s p)
    (hNone : s.executions = []) :
    ∃ actions p',
      (process trig).Run p actions p' ∧ Sequential s.goal p' := by
  have hIdle : p.goal = .idle := by
    obtain ⟨-, hIdle⟩ | ⟨e, hOne, -⟩ := hSequential.goal
    · exact hIdle
    · rw [hNone] at hOne
      cases hOne
  refine ⟨_, _, Process.run_startGoal hIdle, ?_, .inr ?_⟩
  · simp only [Server.goal, hSequential.node]
  · refine ⟨⟨s.nextGoal, .new, false⟩, ?_, rfl, ?_⟩
    · simp only [Server.goal, hNone]
    · intro hReleased
      cases hReleased

/- The answer to a message. -/
theorem boundingBox
    (hSequential : Sequential s p)
    (msg : BoundingBox K) :
    ∃ actions p',
      (process trig).Run p actions p' ∧
        Sequential (s.boundingBox msg) p' := by
  refine ⟨[.message msg], p.message msg,
    .single trivial rfl, ?_, hSequential.goal⟩
  simp only [Process.message, Server.boundingBox,
    hSequential.node]

/- The answer to a tick: its callback runs on its own. -/
theorem ticked
    {r : TickResult K}
    (hSequential : Sequential s p)
    (hTick : timerCallback trig s.node = .ok r) :
    ∃ actions p',
      (process trig).Run p actions p' ∧
        Sequential (s.ticked r) p' := by
  rw [← hSequential.node] at hTick
  obtain ⟨actions, hRun⟩ :=
    Process.exists_run_of_timerCallback hTick
  refine ⟨actions, _, hRun, rfl, ?_⟩
  obtain ⟨hNone, hIdle⟩ | ⟨e, hOne, hWait, hReleased⟩ :=
    hSequential.goal
  · refine .inl ⟨?_, hIdle⟩
    simp only [Server.ticked, hNone, List.map_nil, ite_self]
  · by_cases hEvent : r.node.finishEvent = true
    · refine .inr ⟨{ e with released := true }, ?_, hWait,
        fun _ => hEvent⟩
      simp only [Server.ticked, hEvent, if_true, hOne,
        List.map_cons, List.map_nil]
    · refine .inr ⟨e, ?_, hWait, fun hSet => ?_⟩
      · simp only [Server.ticked, hEvent, hOne]
        rfl
      · rw [hSequential.node] at hTick
        exact finishEvent_of_tick (timerCallback_cases hTick)
          (hReleased hSet)

omit [Field K] [LinearOrder K] in
/- The answer to a cancel request: the process has none. -/
theorem cancel
    (hSequential : Sequential s p)
    (goal : Nat) :
    Sequential (s.cancel goal) p := by
  refine ⟨hSequential.node, ?_⟩
  obtain ⟨hNone, hIdle⟩ | ⟨e, hOne, hWait, hReleased⟩ :=
    hSequential.goal
  · refine .inl ⟨?_, hIdle⟩
    simp only [Server.cancel, hNone, List.map_nil]
  · refine .inr ⟨if e.goal = goal then
      { e with handle := e.handle.cancel } else e, ?_, hWait, ?_⟩
    · simp only [Server.cancel, hOne, List.map_cons,
        List.map_nil]
    · split
      · exact hReleased
      · exact hReleased

/- The answer to the end of a goal. -/
theorem finish
    {e : Execution} {result : ApproachResult K}
    (hSequential : Sequential s p)
    (hMember : e ∈ s.executions)
    (hReleased : e.released = true)
    (hFinish : finishGoal s.node = .ok result) :
    ∃ actions p',
      (process trig).Run p actions p' ∧
        Sequential (s.finish e result) p' := by
  obtain ⟨hNone, -⟩ | ⟨e', hOne, hWait, hEvent⟩ :=
    hSequential.goal
  · rw [hNone] at hMember
    cases hMember
  · rw [hOne, List.mem_singleton] at hMember
    subst hMember
    have hSet := hEvent hReleased
    rw [← hSequential.node] at hSet hFinish
    obtain ⟨actions, hRun⟩ :=
      Process.exists_run_of_finishGoal hWait hSet hFinish
    refine ⟨_, _, hRun.trans (Process.run_finish rfl),
      hSequential.node, .inl ⟨?_, rfl⟩⟩
    simp only [Server.finish, hOne, List.erase_cons_head]

end Sequential

/-
  The server with one goal at a time, whose callbacks are
  whole, does nothing that the process cannot do.
-/
theorem exists_process_run
    {trig : Trig K} {debugMode : Int} {s : Server K}
    {inputs : List (Input K)}
    (hRun :
      ((machine trig).restrict OneGoal).Run (.init debugMode)
        inputs s) :
    ∃ actions p,
      (process trig).Run (.init debugMode) actions p ∧
        Sequential s p := by
  apply hRun.simulate_runs (Sequential.init debugMode)
  intro s p i t hSequential hEnabled hStep
  cases i with
  | goal =>
      cases hStep
      exact hSequential.startGoal hEnabled.2
  | boundingBox msg =>
      cases hStep
      exact hSequential.boundingBox msg
  | timer =>
      obtain ⟨r, hTick, hStep⟩ := bind_eq_ok.mp hStep
      cases hStep
      exact hSequential.ticked hTick
  | cancel goal =>
      cases hStep
      exact ⟨[], p, .nil, hSequential.cancel goal⟩
  | finish goal =>
      obtain ⟨e, hFind, hReleased⟩ := hEnabled.1
      change Approach.step trig s (.finish goal) = .ok t at hStep
      simp only [Approach.step, Option.mem_def.mp hFind] at hStep
      obtain ⟨result, hFinish, hStep⟩ := bind_eq_ok.mp hStep
      cases hStep
      have hMember : e ∈ s.executions :=
        List.mem_of_find?_eq_some hFind
      exact hSequential.finish hMember hReleased hFinish

instance decidableOneGoal
    (s : Server K) :
    (i : Input K) → Decidable (OneGoal s i)
| .goal => inferInstanceAs (Decidable (s.executions = []))
| .boundingBox _ => .isTrue trivial
| .timer => .isTrue trivial
| .cancel _ => .isTrue trivial
| .finish _ => .isTrue trivial

/- A goal that finds nothing, with its timers. -/
theorem exists_process_run_of_lost :
    ∃ (s : Server ℚ) (actions : List (Action ℚ))
      (p : Process ℚ),
      ((machine ⟨fun _ _ => 0, 1⟩).restrict OneGoal).Run
          (Server.init 0)
          (.goal :: (List.replicate 30 .timer ++ [.finish 0]))
          s ∧
        (process ⟨fun _ _ => 0, 1⟩).Run (.init 0) actions p ∧
          Sequential s p := by
  have hSome :
      (((machine (⟨fun _ _ => 0, 1⟩ : Trig ℚ)).restrict
          OneGoal).exec
        (Server.init 0)
        (.goal ::
          (List.replicate 30 .timer ++ [.finish 0]))).isSome := by
    decide +kernel
  rcases Option.isSome_iff_exists.mp hSome with ⟨s, hExec⟩
  have hRun := Machine.run_of_exec hExec
  rcases exists_process_run hRun with ⟨actions, p, hMore⟩
  exact ⟨s, actions, p, hRun, hMore⟩

end Approach

end Manipulator
