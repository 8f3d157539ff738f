import Manipulator.Approach.Outcome
import Manipulator.Mission.Callbacks

/-
  Where the approach node leaves the arm.

  While a goal waits, at most one timer callback is at work.
  It clears `run` and sets the event before it publishes the
  last message, and the goal goes on when it has ended; so
  the result of a goal that found a target names the pose of
  the last message, and between two goals nothing runs that
  could publish.

  Main declarations:
    * `OnTarget`
    * `Quiet`, `Closing`, `Acting`
    * `Standing`, `Landed`
    * `Landed.step`, `Landed.onTarget`
-/

------------------------------------------------------------
-- Callbacks At Work
------------------------------------------------------------

namespace Manipulator

namespace Mission

open Approach (GoalAt TickAt Trig)

variable {K : Type} [Field K]

/-
  The last message is at the pose that a result reports, at
  the height of an approach.
-/
def OnTarget
    (r : ApproachResult K)
    (last : Option (Pos (Option K))) : Prop :=
  ∃ pose, last = some (Move.finite pose) ∧
    Approach.Reports r pose ∧ pose.z = 40

/- The last message after a step of the approach node. -/
def Report.last
    (last : Option (Pos (Option K))) :
    Report K → Option (Pos (Option K))
| .published pose => some (Move.finite pose)
| _ => last

/- Nothing runs that could publish. -/
structure Quiet
    (n : Approach.Node K) (ticks : List (Option (TickAt K))) :
    Prop where
  stopped : n.run = false
  rest : AllAt AtRest ticks

/- The arm was sent to the target, if there is one. -/
def Targeted
    (n : Approach.Node K) (last : Option (Pos (Option K))) :
    Prop :=
  n.hasBox = some true → last = some (Move.finite n.posData)

/-
  What is to come of a callback after `run` was cleared: it
  gives up the target, or publishes it, or has done so.
-/
def Closing
    (n : Approach.Node K) (last : Option (Pos (Option K))) :
    Option (TickAt K) → Prop
| some .dropBox => True
| some .setLost => n.hasBox = some false
| some (.setTurn _ _) => True
| some (.publish _ _) => True
| next => (∀ stmt ∈ next, AtRest stmt) ∧ Targeted n last

/-
  A goal waits. All callbacks but the one of number `k` are
  at rest, and this one may be at work.
-/
structure Acting
    (n : Approach.Node K) (ticks : List (Option (TickAt K)))
    (last : Option (Pos (Option K))) (k : Nat) : Prop where
  height : n.posData.z = 40
  alone :
    ∀ j stmt, j ≠ k → ticks[j]? = some (some stmt) →
      AtRest stmt
  runs :
    n.run = true → ∀ stmt, ticks[k]? = some (some stmt) →
      stopping stmt = false
  stops : n.run = false → Closing n last ticks[k]?.join

variable {trig : Trig K} {n n' : Approach.Node K}
variable {ticks : List (Option (TickAt K))}
variable {last : Option (Pos (Option K))}
variable {stmt : TickAt K} {e : Approach.Effect K} {j k : Nat}

omit [Field K] in
theorem AtRest.not_stopping
    (hRest : AtRest stmt) : stopping stmt = false := by
  cases stmt with
  | dropBox
  | setLost
  | setTurn s center =>
      rcases hRest with hChecking | hQuiet
      · cases hChecking
      · cases hQuiet
  | _ => rfl

omit [Field K] in
theorem Closing.of_rest
    (hTargeted : Targeted n last)
    {next : Option (TickAt K)}
    (hRest : ∀ stmt ∈ next, AtRest stmt) :
    Closing n last next := by
  unfold Closing
  split
  · trivial
  · have hStops := (hRest _ rfl).not_stopping
    cases hStops
  · trivial
  · trivial
  · exact ⟨hRest, hTargeted⟩

omit [Field K] in
/- A callback at rest has left the arm at the target. -/
theorem Closing.targeted
    {next : Option (TickAt K)}
    (hClosing : Closing n last next)
    (hRest : ∀ stmt ∈ next, AtRest stmt) : Targeted n last := by
  unfold Closing at hClosing
  split at hClosing
  · cases (hRest _ rfl).not_stopping
  · cases (hRest _ rfl).not_stopping
  · cases (hRest _ rfl).not_stopping
  · rcases hRest _ rfl with hChecking | hQuiet
    · cases hChecking
    · cases hQuiet
  · exact hClosing.2

omit [Field K] in
/- Only `has_box` and `pos_data` matter. -/
theorem Closing.congr
    {next : Option (TickAt K)}
    (hClosing : Closing n last next)
    (hBox : n'.hasBox = n.hasBox)
    (hPose : n'.posData = n.posData) :
    Closing n' last next := by
  unfold Closing Targeted at *
  rw [hBox, hPose]
  exact hClosing

namespace Acting

theorem congr
    (hActing : Acting n ticks last k)
    (hRun : n'.run = n.run)
    (hBox : n'.hasBox = n.hasBox)
    (hPose : n'.posData = n.posData) :
    Acting n' ticks last k := by
  refine ⟨?_, hActing.alone, ?_, ?_⟩
  · rw [hPose]
    exact hActing.height
  · rw [hRun]
    exact hActing.runs
  · intro hStopped
    rw [hRun] at hStopped
    exact (hActing.stops hStopped).congr hBox hPose

/- A goal begins to wait. -/
theorem of_quiet
    (hRest : AllAt AtRest ticks)
    (hHeight : n.posData.z = 40)
    (hRun : n.run = true) : Acting n ticks last 0 := by
  refine ⟨hHeight, ?_, ?_, ?_⟩
  · intro j stmt _ hStmt
    exact hRest.at_ hStmt
  · intro _ stmt hStmt
    exact (hRest.at_ hStmt).not_stopping
  · intro hStopped
    rw [hRun] at hStopped
    cases hStopped

theorem fired
    (hActing : Acting n ticks last k) :
    Acting n (ticks ++ [some .checkRun]) last k := by
  have hNew :
      ∀ (i : Nat) (stmt : TickAt K),
        (ticks ++ [some TickAt.checkRun])[i]? =
            some (some stmt) →
          ticks[i]? = some (some stmt) ∨
            (stmt = .checkRun ∧ ticks[i]? = none) := by
    intro i stmt hStmt
    by_cases hLess : i < ticks.length
    · rw [List.getElem?_append_left hLess] at hStmt
      exact .inl hStmt
    · have hLength := not_lt.mp hLess
      rw [List.getElem?_append_right hLength] at hStmt
      have hMember := List.mem_of_getElem? hStmt
      rw [List.mem_singleton, Option.some.injEq] at hMember
      exact .inr ⟨hMember, List.getElem?_eq_none hLength⟩
  refine ⟨hActing.height, ?_, ?_, ?_⟩
  · intro i stmt hOther hStmt
    rcases hNew i stmt hStmt with hOld | ⟨rfl, _⟩
    · exact hActing.alone i stmt hOther hOld
    · exact .inl rfl
  · intro hRun stmt hStmt
    rcases hNew k stmt hStmt with hOld | ⟨rfl, _⟩
    · exact hActing.runs hRun stmt hOld
    · rfl
  · intro hStopped
    have hClosing := hActing.stops hStopped
    by_cases hLess : k < ticks.length
    · rw [List.getElem?_append_left hLess]
      exact hClosing
    · rw [List.getElem?_eq_none (not_lt.mp hLess)] at hClosing
      apply Closing.of_rest hClosing.2
      intro stmt hStmt
      have hHere := Option.join_eq_some_iff.mp
        (Option.mem_def.mp hStmt)
      rcases hNew k stmt hHere with hOld | ⟨rfl, _⟩
      · rw [List.getElem?_eq_none (not_lt.mp hLess)] at hOld
        cases hOld
      · exact .inl rfl

/-
  A callback that is at rest, or raises while it is at work,
  ends.
-/
theorem ended
    (hActing : Acting n ticks last k)
    (hStmt : ticks[j]? = some (some stmt))
    (hRest : n.run = false → j = k → AtRest stmt) :
    Acting n (ticks.set j none) last k := by
  have hOld :
      ∀ (i : Nat) (other : TickAt K),
        (ticks.set j none)[i]? = some (some other) →
          ticks[i]? = some (some other) := by
    intro i other hOther
    by_cases hSame : j = i
    · subst hSame
      rw [List.getElem?_set_self
        (List.getElem?_eq_some_iff.mp hStmt).1] at hOther
      cases hOther
    · rwa [List.getElem?_set_ne hSame] at hOther
  refine ⟨hActing.height, ?_, ?_, ?_⟩
  · intro i other hOther hThere
    exact hActing.alone i other hOther (hOld i other hThere)
  · intro hRun other hThere
    exact hActing.runs hRun other (hOld k other hThere)
  · intro hStopped
    have hClosing := hActing.stops hStopped
    by_cases hSame : j = k
    · have hHere := hRest hStopped hSame
      subst hSame
      rw [hStmt] at hClosing
      rw [List.getElem?_set_self
        (List.getElem?_eq_some_iff.mp hStmt).1]
      apply Closing.of_rest
      · apply hClosing.targeted
        intro other hOther
        cases hOther
        exact hHere
      · intro other hOther
        cases hOther
    · rwa [List.getElem?_set_ne hSame]

end Acting

------------------------------------------------------------
-- A Statement Of The Callback At Work
------------------------------------------------------------

section Statements

variable [LinearOrder K]

/- A callback that clears `run` goes on to close the goal. -/
theorem closing_of_cleared
    (hStep : stmt.step trig n = .ok e)
    (hRun : n.run = true)
    (hCleared : e.node.run = false) :
    Closing e.node last e.next := by
  have hFlags :=
    congrArg Approach.Flags.run
      (Approach.TickAt.step_flags hStep)
  cases stmt with
  | stopLost =>
      cases hStep
      trivial
  | stopTurn s center =>
      cases hStep
      trivial
  | _ =>
      -- no other statement writes `run`
      simp only [TickAt.onFlags, Approach.Node.flags] at hFlags
      simp [hFlags, hRun] at hCleared

/- Timer callbacks never set `run`. -/
theorem run_of_step
    (hStep : stmt.step trig n = .ok e)
    (hRun : n.run = false) : e.node.run = false := by
  have hFlags :=
    congrArg Approach.Flags.run
      (Approach.TickAt.step_flags hStep)
  cases stmt with
  | _ => simpa [TickAt.onFlags, Approach.Node.flags, hRun]
      using hFlags

theorem event_of_step
    (hStep : stmt.step trig n = .ok e)
    (hEvent : e.node.finishEvent = true) :
    n.finishEvent = true ∨ stopping stmt = true := by
  have hFlags :=
    congrArg Approach.Flags.finishEvent
      (Approach.TickAt.step_flags hStep)
  cases stmt with
  | setLost => exact .inr rfl
  | setTurn s center => exact .inr rfl
  | _ =>
      simp only [TickAt.onFlags, Approach.Node.flags] at hFlags
      exact .inl (hFlags.symm.trans hEvent)

/- A callback that closes a goal goes on with it. -/
theorem Closing.step
    (hClosing : Closing n last (some stmt))
    (hRun : n.run = false)
    (hStep : stmt.step trig n = .ok e) :
    Closing e.node ((Report.ofPublished e.published).last last)
      e.next := by
  cases stmt with
  | dropBox =>
      cases hStep
      exact rfl
  | setLost =>
      cases hStep
      apply Closing.of_rest
      · intro hBox
        rw [show n.hasBox = some false from hClosing] at hBox
        cases hBox
      · intro other hOther
        cases hOther
        exact .inr rfl
  | setTurn s center =>
      cases hStep
      trivial
  | publish s center =>
      cases hStep
      apply Closing.of_rest
      · exact fun _ => rfl
      · intro other hOther
        cases hOther
        exact .inr rfl
  | _ =>
      rcases hClosing with ⟨hRest, hTargeted⟩
      have hEnd :=
        (hRest _ rfl).step (fun _ => hRun) hStep
      subst hEnd
      apply Closing.of_rest hTargeted
      intro other hOther
      cases hOther

/- A statement of the callback at work. -/
theorem Acting.of_step
    (hHeight : n.posData.z = 40)
    (hStmt : ticks[j]? = some (some stmt))
    (hStep : stmt.step trig n = .ok e)
    (hAlone :
      ∀ i other, i ≠ j → ticks[i]? = some (some other) →
        AtRest other)
    (hRuns : n.run = true → stopping stmt = false)
    (hStops : n.run = false → Closing n last (some stmt)) :
    Acting e.node (ticks.set j e.next)
      ((Report.ofPublished e.published).last last) j := by
  have hLess := (List.getElem?_eq_some_iff.mp hStmt).1
  have hDoes := does_of_step hStep
  refine ⟨hDoes.height.trans hHeight, ?_, ?_, ?_⟩
  · intro i other hOther hThere
    rw [List.getElem?_set_ne (Ne.symm hOther)] at hThere
    exact hAlone i other hOther hThere
  · intro hRun other hThere
    rw [List.getElem?_set_self hLess, Option.some.injEq]
      at hThere
    have hBefore : n.run = true := by
      by_contra hStopped
      rw [Bool.not_eq_true] at hStopped
      rw [run_of_step hStep hStopped] at hRun
      cases hRun
    by_contra hStopping
    rw [Bool.not_eq_false] at hStopping
    rcases hDoes.next other hThere hStopping with
      hMine | hCleared
    · rw [hRuns hBefore] at hMine
      cases hMine
    · rw [hRun] at hCleared
      cases hCleared
  · intro hCleared
    rw [List.getElem?_set_self hLess]
    by_cases hBefore : n.run = true
    · exact closing_of_cleared hStep hBefore hCleared
    · rw [Bool.not_eq_true] at hBefore
      exact (hStops hBefore).step hBefore hStep

/- A statement of a timer callback, while the goal waits. -/
theorem Acting.ticked
    (hActing : Acting n ticks last k)
    (hStmt : ticks[j]? = some (some stmt))
    (hStep : stmt.step trig n = .ok e)
    (hOrderly :
      stmt.isChecking = true → n.run = true →
        AllAt AtRest ticks) :
    ∃ k', Acting e.node (ticks.set j e.next)
      ((Report.ofPublished e.published).last last) k' := by
  by_cases hStarts : stmt.isChecking = true ∧ n.run = true
  · -- from here on this callback is the one at work
    have hRest := hOrderly hStarts.1 hStarts.2
    refine ⟨j, .of_step hActing.height hStmt hStep ?_ ?_ ?_⟩
    · exact fun _ _ _ hThere => hRest.at_ hThere
    · exact fun _ => (hRest.at_ hStmt).not_stopping
    · intro hStopped
      rw [hStarts.2] at hStopped
      cases hStopped
  by_cases hMine : j = k
  · subst hMine
    refine ⟨j, .of_step hActing.height hStmt hStep hActing.alone
      (fun hRun => hActing.runs hRun stmt hStmt) ?_⟩
    intro hStopped
    have hClosing := hActing.stops hStopped
    rwa [hStmt] at hClosing
  · have hRest := hActing.alone j stmt hMine hStmt
    have hEnd : e = .stop n := by
      apply hRest.step _ hStep
      intro hChecking
      by_contra hRun
      exact hStarts ⟨hChecking, by simpa using hRun⟩
    subst hEnd
    exact ⟨k, hActing.ended hStmt fun _ hSame =>
      absurd hSame hMine⟩

/- A callback that raises is not one that closes a goal. -/
theorem Acting.raised
    {error : Approach.PyError}
    (hActing : Acting n ticks last k)
    (hStmt : ticks[j]? = some (some stmt))
    (hStep : stmt.step trig n = .error error) :
    Acting n (ticks.set j none) last k := by
  apply hActing.ended hStmt
  intro hStopped hMine
  subst hMine
  have hClosing := hActing.stops hStopped
  rw [hStmt] at hClosing
  cases stmt with
  | dropBox => cases hStep
  | setLost => cases hStep
  | setTurn s center => cases hStep
  | publish s center => cases hStep
  | _ => exact hClosing.1 _ rfl

/- While the goal waits, the event says that `run` is clear. -/
def Heard (n : Approach.Node K) : Prop :=
  n.finishEvent = true → n.run = false

theorem Acting.heard
    (hActing : Acting n ticks last k)
    (hHeard : Heard n)
    (hStmt : ticks[j]? = some (some stmt))
    (hStep : stmt.step trig n = .ok e) : Heard e.node := by
  intro hEvent
  apply run_of_step hStep
  rcases event_of_step hStep hEvent with hOld | hStopping
  · exact hHeard hOld
  · by_contra hRun
    rw [Bool.not_eq_false] at hRun
    have hRuns : stopping stmt = false := by
      by_cases hMine : j = k
      · subst hMine
        exact hActing.runs hRun stmt hStmt
      · exact (hActing.alone j stmt hMine hStmt).not_stopping
    rw [hRuns] at hStopping
    cases hStopping

end Statements

------------------------------------------------------------
-- Goals
------------------------------------------------------------

/- A target was found, and the arm was sent to it. -/
structure Sent
    (n : Approach.Node K) (last : Option (Pos (Option K))) :
    Prop where
  height : n.posData.z = 40
  last : last = some (Move.finite n.posData)

/- What holds before a statement of `execute_callback`. -/
def Standing
    (n : Approach.Node K) (ticks : List (Option (TickAt K)))
    (last : Option (Pos (Option K))) : GoalAt K → Prop
| .resetYaw => Quiet n ticks ∧ n.posData.z = 40
| .resetGrip => Quiet n ticks ∧ n.posData.z = 40
| .startRun => Quiet n ticks ∧ n.posData.z = 40
| .clearEvent => ∃ k, Acting n ticks last k
| .wait => (∃ k, Acting n ticks last k) ∧ Heard n
| .succeed =>
    Quiet n ticks ∧ n.posData.z = 40 ∧ Targeted n last
| .checkBox =>
    Quiet n ticks ∧ n.posData.z = 40 ∧ Targeted n last
| .resultX _ => Quiet n ticks ∧ Sent n last
| .resultY r =>
    Quiet n ticks ∧ Sent n last ∧ r.goalX = n.posData.x
| .resultZ r =>
    Quiet n ticks ∧ Sent n last ∧ r.goalX = n.posData.x ∧
      r.goalY = n.posData.y
| .resultYaw r =>
    Quiet n ticks ∧ Sent n last ∧ r.goalX = n.posData.x ∧
      r.goalY = n.posData.y ∧ r.goalZ = n.posData.z
| .resultLabel r =>
    Quiet n ticks ∧ Sent n last ∧ Approach.Reports r n.posData
| .finish r =>
    Quiet n ticks ∧ (r.label ≠ "none" → OnTarget r last)
| _ => Quiet n ticks

variable {stage next : GoalAt K}

/- A statement of `execute_callback`. -/
theorem Standing.advanced
    (hStanding : Standing n ticks last stage)
    (hStep : stage.step n = .ok (n', next))
    (hWait :
      stage.isWaiting = true →
        n.finishEvent = true ∧ AllAt AtRest ticks) :
    Standing n' ticks last next := by
  cases stage with
  | idle
  | resetFirst
  | resetMisses
  | resetHits
  | resetState
  | resetX
  | resetY =>
      cases hStep
      exact ⟨hStanding.stopped, hStanding.rest⟩
  | resetZ =>
      cases hStep
      exact ⟨⟨hStanding.stopped, hStanding.rest⟩, rfl⟩
  | resetYaw
  | resetGrip =>
      cases hStep
      rcases hStanding with ⟨hQuiet, hHeight⟩
      exact ⟨⟨hQuiet.stopped, hQuiet.rest⟩, hHeight⟩
  | startRun =>
      cases hStep
      exact ⟨0, .of_quiet hStanding.1.rest hStanding.2 rfl⟩
  | clearEvent =>
      cases hStep
      rcases hStanding with ⟨k, hActing⟩
      refine ⟨⟨k, hActing.congr rfl rfl rfl⟩, ?_⟩
      intro hEvent
      cases hEvent
  | wait =>
      cases hStep
      rcases hStanding with ⟨⟨k, hActing⟩, hHeard⟩
      rcases hWait rfl with ⟨hEvent, hRest⟩
      have hStopped := hHeard hEvent
      refine ⟨⟨hStopped, hRest⟩, hActing.height, ?_⟩
      apply (hActing.stops hStopped).targeted
      intro stmt hStmt
      exact hRest.at_ (Option.join_eq_some_iff.mp hStmt)
  | succeed =>
      cases hStep
      exact hStanding
  | checkBox =>
      rcases hStanding with ⟨hQuiet, hHeight, hTargeted⟩
      simp only [GoalAt.step, bind_eq_ok] at hStep
      rcases hStep with ⟨hasBox, hBox, hStep⟩
      cases hasBox with
      | false =>
          cases hStep
          exact ⟨hQuiet, fun hLabel => absurd rfl hLabel⟩
      | true =>
          cases hStep
          have hFound : n.hasBox = some true := by
            cases hHere : n.hasBox with
            | none =>
                rw [hHere] at hBox
                cases hBox
            | some value =>
                rw [hHere] at hBox
                cases hBox
                rfl
          exact ⟨hQuiet, hHeight, hTargeted hFound⟩
  | resultX result =>
      cases hStep
      exact ⟨hStanding.1, hStanding.2, rfl⟩
  | resultY result =>
      cases hStep
      rcases hStanding with ⟨hQuiet, hSent, hX⟩
      exact ⟨hQuiet, hSent, hX, rfl⟩
  | resultZ result =>
      cases hStep
      rcases hStanding with ⟨hQuiet, hSent, hX, hY⟩
      exact ⟨hQuiet, hSent, hX, hY, rfl⟩
  | resultYaw result =>
      cases hStep
      rcases hStanding with ⟨hQuiet, hSent, hX, hY, hZ⟩
      exact ⟨hQuiet, hSent, hX, hY, hZ, rfl⟩
  | resultLabel result =>
      rcases hStanding with ⟨hQuiet, hSent, hReports⟩
      simp only [GoalAt.step, bind_eq_ok, pure_eq_ok,
        Prod.mk.injEq] at hStep
      rcases hStep with ⟨label, _, rfl, rfl⟩
      exact ⟨hQuiet, fun _ =>
        ⟨_, hSent.last, hReports, hSent.height⟩⟩
  | finish result =>
      cases hStep
      exact hStanding.1

/- What holds without a goal waiting. -/
theorem Standing.quiet
    (hStanding : Standing n ticks last stage)
    (hClearing : stage.isClearing = false)
    (hWaiting : stage.isWaiting = false) : Quiet n ticks := by
  cases stage with
  | clearEvent => cases hClearing
  | wait => cases hWaiting
  | idle
  | resetFirst
  | resetMisses
  | resetHits
  | resetState
  | resetX
  | resetY
  | resetZ => exact hStanding
  | _ => exact hStanding.1

/- A step that changes none of what the stages speak about. -/
theorem Standing.congr
    {ticks' : List (Option (TickAt K))}
    (hStanding : Standing n ticks last stage)
    (hRun : n'.run = n.run)
    (hBox : n'.hasBox = n.hasBox)
    (hEvent : n'.finishEvent = n.finishEvent)
    (hPose : n'.posData = n.posData)
    (hRest : AllAt AtRest ticks → AllAt AtRest ticks')
    (hActs :
      ∀ k, Acting n ticks last k → Acting n' ticks' last k) :
    Standing n' ticks' last stage := by
  have hQuiet : Quiet n ticks → Quiet n' ticks' :=
    fun hQuiet => ⟨hRun.trans hQuiet.stopped, hRest hQuiet.rest⟩
  have hWaits :
      (∃ k, Acting n ticks last k) → ∃ k, Acting n' ticks' last k :=
    fun ⟨k, hActing⟩ => ⟨k, hActs k hActing⟩
  have hSent : Sent n last → Sent n' last := by
    intro hSent
    refine ⟨?_, ?_⟩
    · rw [hPose]
      exact hSent.height
    · rw [hPose]
      exact hSent.last
  cases stage with
  | clearEvent => exact hWaits hStanding
  | wait =>
      refine ⟨hWaits hStanding.1, ?_⟩
      intro hSet
      rw [hEvent] at hSet
      exact hRun.trans (hStanding.2 hSet)
  | resultX r => exact ⟨hQuiet hStanding.1, hSent hStanding.2⟩
  | resultY r
  | resultZ r
  | resultYaw r
  | resultLabel r =>
      rcases hStanding with ⟨hQuiet', hSent', hParts⟩
      refine ⟨hQuiet hQuiet', hSent hSent', ?_⟩
      rw [hPose]
      exact hParts
  | finish r => exact ⟨hQuiet hStanding.1, hStanding.2⟩
  | succeed
  | checkBox =>
      rcases hStanding with ⟨hQuiet', hHeight, hTargeted⟩
      unfold Standing Targeted at *
      rw [hBox, hPose]
      exact ⟨hQuiet hQuiet', hHeight, hTargeted⟩
  | resetYaw
  | resetGrip
  | startRun =>
      unfold Standing at *
      rw [hPose]
      exact ⟨hQuiet hStanding.1, hStanding.2⟩
  | _ => exact hQuiet hStanding

------------------------------------------------------------
-- The Node
------------------------------------------------------------

/- At most one goal executes, and it stands where it should. -/
def Landed
    (s : ThreadNode K) (last : Option (Pos (Option K))) : Prop :=
  (s.goals = [] ∧ Quiet s.node s.ticks) ∨
    ∃ goal stage, s.goals = [(goal, stage)] ∧
      Standing s.node s.ticks last stage

namespace Landed

variable {s t : ThreadNode K} {i : ThreadInput K}
variable {shown : Report K}

theorem of_idle
    {last' : Option (Pos (Option K))}
    (hLanded : Landed s last)
    (hIdle : s.goals = []) : Landed s last' := by
  rcases hLanded with hQuiet | ⟨goal, stage, hGoals, _⟩
  · exact .inl hQuiet
  · rw [hIdle] at hGoals
    cases hGoals

/- The goal that executes is the only one. -/
theorem only
    {goal : Nat}
    (hLanded : Landed s last)
    (hGoal : s.goals[j]? = some (goal, stage)) :
    j = 0 ∧ s.goals = [(goal, stage)] ∧
      Standing s.node s.ticks last stage := by
  rcases hLanded with
    ⟨hIdle, _⟩ | ⟨goal', stage', hGoals, hStanding⟩
  · rw [hIdle] at hGoal
    cases hGoal
  · rw [hGoals] at hGoal
    cases j with
    | zero =>
        cases hGoal
        exact ⟨rfl, hGoals, hStanding⟩
    | succ j => cases hGoal

theorem accept
    (hLanded : Landed s last)
    (hIdle : s.goals = []) (goal : Nat) :
    Landed (s.accept goal) last := by
  rcases hLanded with ⟨_, hQuiet⟩ | ⟨_, _, hGoals, _⟩
  · refine .inr ⟨goal, .resetFirst, ?_, hQuiet⟩
    rw [ThreadNode.accept, hIdle]
  · rw [hIdle] at hGoals
    cases hGoals

/- A step that changes none of what the stages speak about. -/
theorem congr
    (hLanded : Landed s last)
    (hGoals : t.goals = s.goals)
    (hRun : t.node.run = s.node.run)
    (hBox : t.node.hasBox = s.node.hasBox)
    (hEvent : t.node.finishEvent = s.node.finishEvent)
    (hPose : t.node.posData = s.node.posData)
    (hRest : AllAt AtRest s.ticks → AllAt AtRest t.ticks)
    (hActs :
      ∀ k, Acting s.node s.ticks last k →
        Acting t.node t.ticks last k) :
    Landed t last := by
  rcases hLanded with
    ⟨hIdle, hQuiet⟩ | ⟨goal, stage, hSome, hStanding⟩
  · exact .inl ⟨hGoals.trans hIdle,
      hRun.trans hQuiet.stopped, hRest hQuiet.rest⟩
  · exact .inr ⟨goal, stage, hGoals.trans hSome,
      hStanding.congr hRun hBox hEvent hPose hRest hActs⟩

variable [LinearOrder K]

/- A statement of a timer callback. -/
theorem ticked
    (hLanded : Landed s last)
    (hStmt : s.ticks[k]? = some (some stmt))
    (hStep : stmt.step trig s.node = .ok e)
    (hOrderly : s.Orderly (.tick k)) :
    Landed
      { s with
        node := e.node
        ticks := s.ticks.set k e.next }
      ((Report.ofPublished e.published).last last) := by
  have hAlone :
      stmt.isChecking = true → s.node.run = true →
        AllAt AtRest s.ticks :=
    hOrderly _ hStmt stmt rfl
  have hEnds :
      Quiet s.node s.ticks →
        Landed { s with ticks := s.ticks.set k none } last →
          Landed
            { s with
              node := e.node
              ticks := s.ticks.set k e.next }
            ((Report.ofPublished e.published).last last) := by
    intro hQuiet hEnded
    have hEnd :=
      (hQuiet.rest.at_ hStmt).step (fun _ => hQuiet.stopped) hStep
    subst hEnd
    exact hEnded
  rcases hLanded with
    ⟨hIdle, hQuiet⟩ | ⟨goal, stage, hGoals, hStanding⟩
  · exact hEnds hQuiet
      (.inl ⟨hIdle, hQuiet.stopped, hQuiet.rest.ended⟩)
  · cases stage with
    | clearEvent =>
        rcases hStanding with ⟨j, hActing⟩
        exact .inr ⟨goal, _, hGoals,
          hActing.ticked hStmt hStep hAlone⟩
    | wait =>
        rcases hStanding with ⟨⟨j, hActing⟩, hHeard⟩
        exact .inr ⟨goal, _, hGoals,
          hActing.ticked hStmt hStep hAlone,
          hActing.heard hHeard hStmt hStep⟩
    | _ =>
        have hQuiet := hStanding.quiet rfl rfl
        apply hEnds hQuiet
        refine .inr ⟨goal, _, hGoals,
          hStanding.congr rfl rfl rfl rfl AllAt.ended ?_⟩
        intro j hActing
        exact hActing.ended hStmt fun _ _ =>
          hQuiet.rest.at_ hStmt

/- A step of the node, with what it publishes. -/
theorem step
    (hLanded : Landed s last)
    (hOrderly : s.Orderly i)
    (hStep : ThreadNode.Steps trig s i t shown) :
    Landed t (shown.last last) := by
  cases hStep with
  | received msg =>
      exact hLanded.congr rfl rfl rfl rfl rfl id fun _ hActing =>
        hActing.congr rfl rfl rfl
  | fired =>
      exact hLanded.congr rfl rfl rfl rfl rfl
        (fun hRest => hRest.fire (.inl rfl))
        fun _ hActing => hActing.fired
  | raised hStmt hStep =>
      exact hLanded.congr rfl rfl rfl rfl rfl AllAt.ended
        fun _ hActing => hActing.raised hStmt hStep
  | ticked hStmt hStep =>
      exact hLanded.ticked hStmt hStep hOrderly
  | @advanced j goal stage next node hGoal hWait hStep =>
      rcases hLanded.only hGoal with ⟨rfl, hGoals, hStanding⟩
      refine .inr ⟨goal, next, ?_, ?_⟩
      · rw [hGoals]
        rfl
      · apply hStanding.advanced hStep
        intro hWaiting
        exact ⟨hWait hWaiting,
          hOrderly (goal, stage) hGoal hWaiting⟩
  | returned hGoal =>
      rcases hLanded.only hGoal with ⟨rfl, hGoals, hStanding⟩
      refine .inl ⟨?_, hStanding.1⟩
      rw [hGoals]
      rfl

/- A target that is reported is where the arm was sent to. -/
theorem onTarget
    {goal : Nat} {code : Terminal} {result : ApproachResult K}
    (hLanded : Landed s last)
    (hStep :
      ThreadNode.Steps trig s i t (.returned goal code result))
    (hLabel : result.label ≠ "none") : OnTarget result last := by
  rcases ThreadNode.returned_eq hStep with ⟨k, hGoal, _⟩
  rcases hLanded.only hGoal with ⟨_, _, hStanding⟩
  exact hStanding.2 hLabel

/- Between two goals the node publishes nothing. -/
theorem not_published
    {pose : Pos K}
    (hLanded : Landed s last)
    (hIdle : s.goals = []) :
    ¬ ThreadNode.Steps trig s i t (.published pose) := by
  intro hStep
  rcases ThreadNode.published_eq hStep with
    ⟨_, _, k, stmt, _, hStmt, r, center, rfl⟩
  rcases hLanded with ⟨_, hQuiet⟩ | ⟨_, _, hGoals, _⟩
  · rcases hQuiet.rest.at_ hStmt with hChecking | hRests
    · cases hChecking
    · cases hRests
  · rw [hIdle] at hGoals
    cases hGoals

end Landed

end Mission

end Manipulator
