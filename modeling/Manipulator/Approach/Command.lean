import Manipulator.Approach.Debug

/-
  The message that a tick assembles and the one it publishes.

  A tick fills in `pose_msg` and publishes `pos_data`, whose
  height, yaw, grip and mode are those of the goal's start.

  Main declarations:
    * `assembledIn`
    * `Node.Opened`, `opened_of_run`
    * `published_ne_assembled`
-/

------------------------------------------------------------
-- What The Goal's Start Leaves
------------------------------------------------------------

namespace Manipulator

namespace Approach

variable {K : Type}

/- Until the tick that turns, `pos_data` keeps these fields. -/
def Node.Opened [Field K] (n : Node K) : Prop :=
  n.run = true →
    n.posData.yaw = 0 ∧ n.posData.grip = "open"

variable [Field K] [LinearOrder K]

/- A tick of a node that runs on keeps them. -/
theorem opened_of_tick
    {trig : Trig K} {n : Node K} {r : TickResult K}
    (hCase : TickCase trig n r)
    (hOpened : n.Opened) : r.node.Opened := by
  cases hCase with
  | neutral => exact hOpened
  | miss => exact hOpened
  | lose =>
      intro hRun
      cases hRun
  | track _ _ _ _ _ hNode =>
      subst hNode
      exact hOpened
  | confirm _ _ _ _ _ _ hNode =>
      subst hNode
      exact hOpened
  | turn _ _ _ _ _ _ hNode =>
      subst hNode
      intro hRun
      cases hRun

theorem opened_of_run
    {trig : Trig K} {debugMode : Int}
    {is : List (Input K)} {s : Server K}
    (hRun :
      (machine trig).Run (Server.init debugMode) is s) :
    s.node.Opened := by
  apply node_invariant (P := Node.Opened) hRun
  · intro hStarted
    cases hStarted
  · exact fun _ _ _ => ⟨rfl, rfl⟩
  · exact fun _ _ hOpened => hOpened
  · exact fun _ _ => opened_of_tick

------------------------------------------------------------
-- The Two Messages Of A Tick
------------------------------------------------------------

/-
  What `pose_msg` holds at the end of a tick: the orientation
  of the gripper is fixed in the approach state, and follows
  the box in the turn state.
-/
def assembledIn (phase : Phase) (n : Node K) : Pos K :=
  match phase with
  | .approach => poseMsg n 0 1
  | .turn => poseMsg n n.posData.yaw 0

omit [LinearOrder K] in
/- `pos_data` differs from `pose_msg` in its height and mode. -/
theorem assembledIn_eq
    {phase : Phase} {n : Node K}
    (hYaw : phase = .approach → n.posData.yaw = 0)
    (hGrip : n.posData.grip = "open") :
    { assembledIn phase n with
      z := n.posData.z
      mode := n.posData.mode } = n.posData := by
  cases phase with
  | approach =>
      simp only [assembledIn, poseMsg]
      rw [← hYaw rfl, ← hGrip]
  | turn =>
      simp only [assembledIn, poseMsg]
      rw [← hGrip]

omit [LinearOrder K] in
theorem assembledIn_z (phase : Phase) (n : Node K) :
    (assembledIn phase n).z = approachZ := by
  cases phase with
  | approach => rfl
  | turn => rfl

/- What the tick that publishes leaves in `pos_data`. -/
theorem sent_of_tick
    {trig : Trig K} {n : Node K} {r : TickResult K}
    (hTick : timerCallback trig n = .ok r)
    (hSends : r.published.isSome) :
    r.published = some r.node.posData ∧
      r.assembled = some (assembledIn n.state r.node) ∧
      n.run = true ∧
      (n.state = .approach →
        r.node.posData.yaw = n.posData.yaw) ∧
      r.node.posData.grip = n.posData.grip ∧
      r.node.posData.z = n.posData.z ∧
      r.node.posData.mode = n.posData.mode := by
  cases timerCallback_cases hTick with
  | neutral => cases hSends
  | miss => cases hSends
  | lose => cases hSends
  | track hActs _ hState _ _ hNode =>
      subst hNode
      rw [hState]
      exact
        ⟨rfl, rfl, Tracking.run_of_actsOn hActs, fun _ => rfl,
          rfl, rfl, rfl⟩
  | confirm => cases hSends
  | turn hActs _ hState _ _ _ hNode =>
      subst hNode
      rw [hState]
      refine
        ⟨rfl, rfl, Tracking.run_of_actsOn hActs, ?_, rfl, rfl,
          rfl⟩
      intro hApproach
      cases hApproach

/-
  In every state that is reached, a tick that publishes sends
  its `pose_msg` with another height and always mode 0. What
  a tick publishes does not depend on `debug_mode`: it draws
  later, and may then raise. So the tick is taken in any
  mode.
-/
theorem published_ne_assembled
    [IsStrictOrderedRing K]
    {trig : Trig K} {debugMode mode : Int}
    {is : List (Input K)} {s : Server K} {r : TickResult K}
    (hRun : (machine trig).Run (Server.init debugMode) is s)
    (hTick : timerCallback trig (s.node.inMode mode) = .ok r)
    (hSends : r.published.isSome) :
    r.published ≠ r.assembled ∧
      r.assembled = some (assembledIn s.node.state r.node) ∧
      r.published =
        some
          { assembledIn s.node.state r.node with
            z := 40
            mode := 0 } := by
  rcases sent_of_tick hTick hSends with
    ⟨hPublished, hAssembled, hRunning, hYaw, hGrip, hZ, hMode⟩
  change
    r.assembled = some (assembledIn s.node.state r.node)
    at hAssembled
  have hTracking := Tracking.run hRun
  rcases hTracking.running hRunning with
    ⟨_, ⟨e, hMember, _⟩, _⟩
  have hOpened := opened_of_run hRun hRunning
  have hHeight : r.node.posData.z = 40 :=
    hZ.trans (hTracking.pose (List.ne_nil_of_mem hMember)).2.2
  have hMode : r.node.posData.mode = 0 :=
    hMode.trans (constants_of_run hRun).2
  have hSent :
      { assembledIn s.node.state r.node with
        z := 40
        mode := 0 } = r.node.posData := by
    rw [← hHeight, ← hMode]
    apply assembledIn_eq
    · intro hApproach
      exact (hYaw hApproach).trans hOpened.1
    · exact hGrip.trans hOpened.2
  refine ⟨?_, hAssembled, by rw [hPublished, hSent]⟩
  rw [hPublished, hAssembled]
  intro hSame
  have hSame := congrArg Pos.z (Option.some.inj hSame)
  rw [hHeight, assembledIn_z] at hSame
  have hLess : (40 : K) < 100 := by norm_num
  exact hLess.ne hSame

/- A box in the corner of the image, and a goal. -/
def firstCommand : List (Input ℚ) :=
  [.boundingBox ⟨[0, 0, 2, 2], ["cola"], [1], [0], true⟩, .goal]

/- Its first tick publishes, and not what it assembles. -/
theorem firstCommand_sends :
    ∃ (s : Server ℚ) (r : TickResult ℚ),
      (machine ⟨fun _ _ => 0, 1⟩).Run (Server.init 0)
          firstCommand s ∧
        timerCallback ⟨fun _ _ => 0, 1⟩ s.node = .ok r ∧
        r.published.isSome ∧ r.published ≠ r.assembled := by
  have hSome :
      ((machine (⟨fun _ _ => 0, 1⟩ : Trig ℚ)).exec
        (Server.init 0) firstCommand).any
        (fun s =>
          (timerCallback ⟨fun _ _ => 0, 1⟩ s.node).toOption.any
            fun r =>
              decide
                (r.published.isSome ∧
                  r.published ≠ r.assembled)) = true := by
    decide +kernel
  rcases Machine.exists_run_of_exec hSome with
    ⟨s, hRun, hTest⟩
  cases hTick : timerCallback ⟨fun _ _ => 0, 1⟩ s.node with
  | error e =>
      rw [hTick] at hTest
      cases hTest
  | ok r =>
      rw [hTick] at hTest
      have hTest := of_decide_eq_true hTest
      exact ⟨s, r, hRun, hTick, hTest.1, hTest.2⟩

/- A tick that publishes something else. -/
theorem publishes_another :
    ¬ ∀ (is : List (Input ℚ)) (s : Server ℚ)
        (r : TickResult ℚ),
      (machine ⟨fun _ _ => 0, 1⟩).Run (Server.init 0) is s →
        timerCallback ⟨fun _ _ => 0, 1⟩ s.node = .ok r →
          r.published.isSome → r.published = r.assembled := by
  intro hClaim
  rcases firstCommand_sends with
    ⟨s, r, hRun, hTick, hSends, hOther⟩
  exact hOther (hClaim _ s r hRun hTick hSends)

theorem published_ne_assembled_once :
    ∃ (s : Server ℚ) (r : TickResult ℚ),
      (machine ⟨fun _ _ => 0, 1⟩).Run (Server.init 0)
          firstCommand s ∧
        r.published ≠ r.assembled ∧
        r.assembled =
          some (assembledIn s.node.state r.node) ∧
        r.published =
          some
            { assembledIn s.node.state r.node with
              z := 40
              mode := 0 } := by
  rcases firstCommand_sends with
    ⟨s, r, hRun, hTick, hSends, _⟩
  have hMode : s.node.inMode 0 = s.node := by
    have hDebug := (constants_of_run hRun).1
    rw [← hDebug]
    rfl
  rw [← hMode] at hTick
  exact ⟨s, r, hRun, published_ne_assembled hRun hTick hSends⟩

end Approach

end Manipulator
