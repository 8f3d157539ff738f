import Manipulator.Mission.BtNode

/-
  The loop of the mission never ends.

  The record of the ticks of the leaves keeps one law along
  every run: what is done before the retry node is done once,
  `finish` is never reached, and a leaf that fails is followed
  by the first tick of `approach`.

  Main declarations:
    * `Looping`
    * `main3_keeps`, `looping_of_run`
    * `mission_never_ends`
-/

------------------------------------------------------------
-- The Law Of The Record
------------------------------------------------------------

namespace Manipulator

namespace Mission

variable {K S I : Type}

namespace Action

def Writes : Action K → Prop
| .setBlackboard _ _ => True
| _ => False

def Publishes : Action K → Prop
| .publish _ => True
| _ => False

def Approaches : Action K → Prop
| .rosAction a => a.node = .approach
| _ => False

/- The leaves of an attempt other than `approach`. -/
def Plain : Action K → Prop
| .sleep _ _ => True
| .rosAction a => a.node ≠ .approach
| .alwaysFailure => True
| _ => False

def Finishes : Action K → Prop
| .finish => True
| _ => False

theorem Plain.others
    {a : Action K} (hPlain : a.Plain) :
    ¬ a.Finishes ∧ ¬ a.Writes ∧ ¬ a.Publishes ∧
      ¬ a.Approaches := by
  cases a with
  | sleep => exact ⟨id, id, id, id⟩
  | rosAction => exact ⟨id, id, id, hPlain⟩
  | alwaysFailure => exact ⟨id, id, id, id⟩
  | setBlackboard => exact hPlain.elim
  | publish => exact hPlain.elim
  | finish => exact hPlain.elim

theorem Approaches.others
    {a : Action K} (hApproaches : a.Approaches) :
    ¬ a.Finishes ∧ ¬ a.Writes ∧ ¬ a.Publishes := by
  cases a with
  | rosAction => exact ⟨id, id, id⟩
  | sleep => exact hApproaches.elim
  | setBlackboard => exact hApproaches.elim
  | publish => exact hApproaches.elim
  | alwaysFailure => exact hApproaches.elim
  | finish => exact hApproaches.elim

end Action

/- The leaf that was ticked last has failed. -/
def Failed (h : List (BT.Ticked (Action K))) : Prop :=
  ∃ t, h.head? = some t ∧ t.after = .failure

/- What holds of a tick and of the ticks before it. -/
structure Looping
    (t : BT.Ticked (Action K))
    (earlier : List (BT.Ticked (Action K))) : Prop where
  finish : ¬ t.action.Finishes
  writes :
    t.action.Writes → ∀ u ∈ earlier, ¬ u.action.Writes
  publishes :
    t.action.Publishes → ∀ u ∈ earlier, ¬ u.action.Publishes
  approaches :
    t.action.Approaches →
      (∃ u ∈ earlier, u.action.Writes) ∧
        ∃ u ∈ earlier, u.action.Publishes
  retries :
    Failed earlier → t.action.Approaches ∧ t.before = .idle

------------------------------------------------------------
-- Phases
------------------------------------------------------------

/- Before the blackboard is written. -/
structure Fresh (h : List (BT.Ticked (Action K))) : Prop where
  law : History.Each Looping h
  calm : ¬ Failed h
  written : ∀ u ∈ h, ¬ u.action.Writes
  published : ∀ u ∈ h, ¬ u.action.Publishes

/- Before the message is published. -/
structure Prepared (h : List (BT.Ticked (Action K))) : Prop where
  law : History.Each Looping h
  calm : ¬ Failed h
  written : ∃ u ∈ h, u.action.Writes
  published : ∀ u ∈ h, ¬ u.action.Publishes

/- At the start of an attempt. -/
structure Begun (h : List (BT.Ticked (Action K))) : Prop where
  law : History.Each Looping h
  written : ∃ u ∈ h, u.action.Writes
  published : ∃ u ∈ h, u.action.Publishes

/- Within an attempt. -/
structure Underway (h : List (BT.Ticked (Action K))) : Prop
    extends Begun h where
  calm : ¬ Failed h

theorem not_failed_cons
    {t : BT.Ticked (Action K)}
    {h : List (BT.Ticked (Action K))}
    (hAfter : t.after ≠ .failure) : ¬ Failed (t :: h) := by
  rintro ⟨u, hHead, hFailed⟩
  cases hHead
  exact hAfter hFailed

/- One more tick at the start of an attempt or within it. -/
theorem Begun.cons
    {t : BT.Ticked (Action K)}
    {h : List (BT.Ticked (Action K))}
    (hBegun : Begun h)
    (hLooping : Looping t h) : Begun (t :: h) := by
  rcases hBegun.written with ⟨u, hWritten, hWrites⟩
  rcases hBegun.published with ⟨v, hPublished, hPublishes⟩
  exact
    ⟨⟨hLooping, hBegun.law⟩,
      ⟨u, List.mem_cons_of_mem _ hWritten, hWrites⟩,
      ⟨v, List.mem_cons_of_mem _ hPublished, hPublishes⟩⟩

/- A tick that is neither of the boot nor of an approach. -/
theorem looping_of_plain
    {t : BT.Ticked (Action K)}
    {h : List (BT.Ticked (Action K))}
    (hPlain : t.action.Plain)
    (hCalm : ¬ Failed h) : Looping t h := by
  rcases hPlain.others with
    ⟨hFinish, hWrites, hPublishes, hApproaches⟩
  exact
    ⟨hFinish, fun h => absurd h hWrites,
      fun h => absurd h hPublishes,
      fun h => absurd h hApproaches, fun h => absurd h hCalm⟩

theorem looping_of_approach
    {t : BT.Ticked (Action K)}
    {h : List (BT.Ticked (Action K))}
    (hApproaches : t.action.Approaches)
    (hBegun : Begun h)
    (hRetries : Failed h → t.before = .idle) : Looping t h := by
  rcases hApproaches.others with
    ⟨hFinish, hWrites, hPublishes⟩
  exact
    ⟨hFinish, fun h => absurd h hWrites,
      fun h => absurd h hPublishes,
      fun _ => ⟨hBegun.written, hBegun.published⟩,
      fun h => ⟨hApproaches, hRetries h⟩⟩

------------------------------------------------------------
-- Leaves
------------------------------------------------------------

section Leaves

variable [Field K] [LinearOrder K]
variable {A : ApproachServer K S I}

/- A leaf, by what its ticks add to the record. -/
theorem leaf_keeps
    {P : List (BT.Ticked (Action K)) → Prop}
    {a : Action K}
    {post : BT.Post (List (BT.Ticked (Action K)))}
    (hStart :
      ∀ h o, P h → o ≠ .threw →
        (∃ w w' : World K S,
          BT.LeafTick (tick a .idle w) o w') →
          post.Holds o (⟨a, .idle, o.status⟩ :: h))
    (hResume :
      ∀ h o, post.running h → o ≠ .threw →
        (∃ w w' : World K S,
          BT.LeafTick (tick a .running w) o w') →
          post.Holds o (⟨a, .running, o.status⟩ :: h)) :
    BT.Partial (mission K S).observe (watchedSurroundings A)
      (fun v => P v.ticks) (.action a) post.recorded :=
  BT.Partial.recorded (fun _ _ hEnv => hEnv.2) hStart hResume

/- A leaf whose first tick is like the others. -/
theorem steady_keeps
    {P : List (BT.Ticked (Action K)) → Prop}
    {a : Action K}
    {post : BT.Post (List (BT.Ticked (Action K)))}
    (hRunning : post.running = P)
    (hTicks :
      ∀ h o s, P h → o ≠ .threw →
        (∃ w w' : World K S, BT.LeafTick (tick a s w) o w') →
          post.Holds o (⟨a, s, o.status⟩ :: h)) :
    BT.Partial (mission K S).observe (watchedSurroundings A)
      (fun v => P v.ticks) (.action a) post.recorded := by
  apply leaf_keeps
  · intro h o hPhase
    exact hTicks h o .idle hPhase
  · intro h o hPhase
    rw [hRunning] at hPhase
    exact hTicks h o .running hPhase

------------------------------------------------------------
-- An Attempt
------------------------------------------------------------

/- The record within an attempt, after a tick. -/
def attempt : BT.Post (List (BT.Ticked (Action K))) where
  running := Underway
  success := Underway
  failure := Begun

/- No attempt succeeds. -/
def looped : BT.Post (List (BT.Ticked (Action K))) :=
  { attempt with success := fun _ => False }

omit [Field K] [LinearOrder K] in
theorem attempt_holds
    {t : BT.Ticked (Action K)}
    {h : List (BT.Ticked (Action K))} {o : BT.Outcome}
    (hBegun : Begun h)
    (hLooping : Looping t h)
    (hThrew : o ≠ .threw)
    (hStatus : t.after = o.status) :
    attempt.Holds o (t :: h) := by
  have hNext := hBegun.cons hLooping
  have hCalm (hOther : o ≠ .failure) : ¬ Failed (t :: h) := by
    apply not_failed_cons
    rw [hStatus]
    exact mt BT.Outcome.status_eq_failure.mp hOther
  cases o with
  | running => exact ⟨hNext, hCalm (by simp)⟩
  | success => exact ⟨hNext, hCalm (by simp)⟩
  | failure => exact hNext
  | threw => exact absurd rfl hThrew

theorem plain_keeps
    {a : Action K} (hPlain : a.Plain) :
    BT.Partial (mission K S).observe (watchedSurroundings A)
      (fun v => Underway v.ticks) (.action a)
      (attempt (K := K)).recorded := by
  apply steady_keeps (P := Underway) rfl
  intro h o s hUnderway hThrew _
  exact attempt_holds hUnderway.toBegun
    (looping_of_plain hPlain hUnderway.calm) hThrew rfl

theorem approach_keeps :
    BT.Partial (mission K S).observe (watchedSurroundings A)
      (fun v => Begun v.ticks) (.action (.rosAction approach))
      (attempt (K := K)).recorded := by
  apply leaf_keeps
  · intro h o hBegun hThrew _
    exact attempt_holds hBegun
      (looping_of_approach rfl hBegun fun _ => rfl) hThrew rfl
  · intro h o hUnderway hThrew _
    exact attempt_holds hUnderway.toBegun
      (looping_of_approach rfl hUnderway.toBegun
        fun h => absurd h hUnderway.calm) hThrew rfl

/- The last leaf of an attempt lets no attempt succeed. -/
theorem failure_keeps :
    BT.Partial (mission K S).observe (watchedSurroundings A)
      (fun v => Underway v.ticks) (.action .alwaysFailure)
      (looped (K := K)).recorded := by
  apply steady_keeps (P := Underway) rfl
  rintro h o s hUnderway _ ⟨w, w', hTick⟩
  cases hTick
  exact hUnderway.toBegun.cons
    (looping_of_plain trivial hUnderway.calm)

/- A part of an attempt without its first leaf. -/
theorem part_keeps
    {t : BT.TreeNode (Action K) Script}
    (hRetries : t.retries = false)
    (hPlain : ∀ a ∈ t.leaves, a.Plain) :
    BT.Partial (mission K S).observe (watchedSurroundings A)
      (fun v => Underway v.ticks) t
      (attempt (K := K)).recorded := by
  apply BT.Partial.of_leaves
  · intro v hUnderway
    exact hUnderway.toBegun
  · intro script v b v' hUnderway hScript
    rcases bind_eq_ok.mp hScript with ⟨⟨c, w⟩, _, hReturn⟩
    cases hReturn
    exact hUnderway
  · exact hRetries
  · intro a hMember
    exact plain_keeps (hPlain a hMember)

omit [LinearOrder K] in
theorem pick_plain :
    ∀ a ∈ (when_ (.labelIsNot "none")
      (.sequence (pickAndPlace K))).leaves, a.Plain := by
  simp [BT.TreeNode.leavesAll, BT.TreeNode.leaves, when_,
    pickAndPlace, move, Bin.branch, Bin.goals, Action.Plain,
    smoothMove]

omit [Field K] [LinearOrder K] in
theorem conveyor_plain :
    ∀ a ∈ (when_ (.labelIs "none")
      (.action (Action.rosAction (conveyor (K := K))))).leaves,
      a.Plain := by
  simp [BT.TreeNode.leaves, when_, Action.Plain, conveyor]

theorem cycle_keeps :
    BT.Partial (mission K S).observe (watchedSurroundings A)
      (fun v => Begun v.ticks) (.sequence (Mission.cycle K))
      (looped (K := K)).recorded :=
  .sequence
    (BT.Partial.cons approach_keeps
      (BT.Partial.cons (part_keeps rfl pick_plain)
        (BT.Partial.cons (part_keeps rfl conveyor_plain)
          (BT.Partial.cons (plain_keeps trivial)
            (BT.Partial.last failure_keeps)))))

------------------------------------------------------------
-- The Tree
------------------------------------------------------------

/- The record before the loop, after a tick of its leaf. -/
def booted
    (P Q : List (BT.Ticked (Action K)) → Prop) :
    BT.Post (List (BT.Ticked (Action K))) where
  running := P
  success := Q
  failure := fun _ => False

/- A sleep, in a phase that such ticks do not end. -/
theorem sleep_keeps
    {P : List (BT.Ticked (Action K)) → Prop}
    {id : SleepId} {msec : Nat}
    (hKeeps :
      ∀ t h, P h → t.action = .sleep id msec →
        t.after ≠ .failure → P (t :: h)) :
    BT.Partial (mission K S).observe (watchedSurroundings A)
      (fun v => P v.ticks) (.action (.sleep id msec))
      (booted P P).recorded := by
  apply steady_keeps (P := P) rfl
  rintro h o s hPhase hThrew ⟨w, w', hTick⟩
  have hFails : o ≠ .failure := by
    rintro rfl
    cases s <;>
      simp only [tick, sleepStart, sleepRunning] at hTick <;>
        split at hTick <;> cases hTick
  have hNext :=
    hKeeps ⟨.sleep id msec, s, o.status⟩ h hPhase rfl
      (mt BT.Outcome.status_eq_failure.mp hFails)
  cases o with
  | running => exact hNext
  | success => exact hNext
  | failure => exact absurd rfl hFails
  | threw => exact absurd rfl hThrew

omit [Field K] [LinearOrder K] in
theorem Fresh.sleep
    {t : BT.Ticked (Action K)}
    {h : List (BT.Ticked (Action K))}
    (hFresh : Fresh h)
    (hPlain : t.action.Plain)
    (hAfter : t.after ≠ .failure) : Fresh (t :: h) where
  law := ⟨looping_of_plain hPlain hFresh.calm, hFresh.law⟩
  calm := not_failed_cons hAfter
  written := by
    intro u hMember
    rcases List.mem_cons.mp hMember with rfl | hMember
    · exact hPlain.others.2.1
    · exact hFresh.written u hMember
  published := by
    intro u hMember
    rcases List.mem_cons.mp hMember with rfl | hMember
    · exact hPlain.others.2.2.1
    · exact hFresh.published u hMember

theorem write_keeps
    {key : Key} {value : K} :
    BT.Partial (mission K S).observe (watchedSurroundings A)
      (fun v => Fresh v.ticks)
      (.action (.setBlackboard key value))
      (booted Fresh Prepared).recorded := by
  apply steady_keeps (P := Fresh) rfl
  rintro h o s hFresh _ ⟨w, w', hTick⟩
  cases hTick
  exact
    { law :=
        ⟨⟨id, fun _ => hFresh.written, fun h => h.elim,
            fun h => h.elim,
            fun h => absurd h hFresh.calm⟩, hFresh.law⟩
      calm := not_failed_cons (by simp [BT.Outcome.status])
      written := ⟨_, List.mem_cons_self, trivial⟩
      published := by
        intro u hMember
        rcases List.mem_cons.mp hMember with rfl | hMember
        · exact id
        · exact hFresh.published u hMember }

theorem publish_keeps
    {pose : Pos K} :
    BT.Partial (mission K S).observe (watchedSurroundings A)
      (fun v => Prepared v.ticks) (.action (.publish pose))
      (booted Prepared Underway).recorded := by
  apply steady_keeps (P := Prepared) rfl
  rintro h o s hPrepared _ ⟨w, w', hTick⟩
  cases hTick
  rcases hPrepared.written with ⟨u, hMember, hWrites⟩
  exact
    { law :=
        ⟨⟨id, fun h => h.elim, fun _ => hPrepared.published,
            fun h => h.elim,
            fun h => absurd h hPrepared.calm⟩, hPrepared.law⟩
      written := ⟨u, List.mem_cons_of_mem _ hMember, hWrites⟩
      published := ⟨_, List.mem_cons_self, trivial⟩
      calm := not_failed_cons (by simp [BT.Outcome.status]) }

theorem sleep_fresh
    {id : SleepId} {msec : Nat} :
    BT.Partial (mission K S).observe (watchedSurroundings A)
      (fun v => Fresh v.ticks) (.action (.sleep id msec))
      (booted Fresh Fresh).recorded := by
  apply sleep_keeps
  intro t h hFresh hAction hAfter
  refine hFresh.sleep ?_ hAfter
  rw [hAction]
  exact trivial

theorem sleep_underway
    {id : SleepId} {msec : Nat} :
    BT.Partial (mission K S).observe (watchedSurroundings A)
      (fun v => Underway v.ticks) (.action (.sleep id msec))
      (booted Underway Underway).recorded := by
  apply sleep_keeps
  intro t h hUnderway hAction hAfter
  have hPlain : t.action.Plain := by
    rw [hAction]
    exact trivial
  exact
    ⟨hUnderway.toBegun.cons
        (looping_of_plain hPlain hUnderway.calm),
      not_failed_cons hAfter⟩

omit [Field K] [LinearOrder K] in
theorem fresh_nil : Fresh ([] : List (BT.Ticked (Action K))) where
  law := trivial
  calm := by
    rintro ⟨t, hHead, _⟩
    cases hHead
  written := by simp
  published := by simp

/- The record under the root. -/
def lawful : BT.Post (List (BT.Ticked (Action K))) where
  running := History.Each Looping
  success := fun _ => False
  failure := fun _ => False

/- A child of the root, under the law. -/
theorem child_lawful
    {P I Q : List (BT.Ticked (Action K)) → Prop}
    {t : BT.TreeNode (Action K) Script}
    (hChild :
      BT.Partial (mission K S).observe (watchedSurroundings A)
        (fun v => I v.ticks) t (booted I Q).recorded)
    (hPre : ∀ h, P h → I h)
    (hLaw : ∀ h, I h → History.Each Looping h) :
    BT.Partial (mission K S).observe (watchedSurroundings A)
      (fun v => P v.ticks) t
      { (lawful (K := K)).recorded with
        success := fun v => Q v.ticks } :=
  hChild.consequence (fun v => hPre v.ticks)
    (.of_parts (fun v => hLaw v.ticks) (fun _ => id)
      (fun _ => id))

theorem retry_keeps :
    BT.Partial (mission K S).observe (watchedSurroundings A)
      (fun v => Begun v.ticks)
      (.retry (-1) (.sequence (Mission.cycle K)))
      (booted Begun fun _ => False).recorded := by
  apply BT.Partial.retry
  · apply cycle_keeps.consequence (fun _ => id)
    exact .of_parts (fun _ h => h.toBegun) (fun _ => id)
      (fun _ => id)
  · intro v v' hBegun hEnv
    simpa only [hEnv.2] using hBegun
  · intro v hBegun
    exact hBegun
  · intro v hBegun
    exact hBegun

/- The law holds of the record; the root never completes. -/
theorem main3_keeps :
    BT.Partial (mission K S).observe (watchedSurroundings A)
      (fun v => Fresh v.ticks) (main3 K)
      (lawful (K := K)).recorded := by
  apply BT.Partial.sequence
  apply BT.Partial.cons
  · exact child_lawful sleep_fresh (fun _ => id) fun _ => Fresh.law
  apply BT.Partial.cons
  · exact child_lawful write_keeps (fun _ => id)
      fun _ => Fresh.law
  apply BT.Partial.cons
  · exact child_lawful publish_keeps (fun _ => id)
      fun _ => Prepared.law
  apply BT.Partial.cons
  · exact child_lawful sleep_underway (fun _ => id)
      fun _ h => h.law
  apply BT.Partial.cons
  · exact child_lawful retry_keeps (fun _ => Underway.toBegun)
      fun _ => Begun.law
  -- the retry node does not succeed
  apply BT.Partial.last
  intro v o v' hSuccess
  exact hSuccess.elim

------------------------------------------------------------
-- Runs
------------------------------------------------------------

/- The tree keeps the law from an empty record on. -/
theorem watched_keeps :
    BT.Partial (mission K S).observe (watchedSurroundings A)
      (fun v => v.ticks = []) (main3 K)
      (lawful (K := K)).recorded := by
  apply main3_keeps.consequence
  · intro v hEmpty
    rw [hEmpty]
    exact fresh_nil
  · exact fun _ _ h => h

/- The law holds of the record of every run. -/
theorem looping_of_run
    {is : List (NodeInput K I)} {s : BtNode K S}
    (hRun : (watched A).Run (.init A) is s) :
    History.Each Looping s.view.ticks := by
  have hHolds :=
    (reach_of_watched hRun).running observe_proper
      main3_wellFormed watched_keeps
      fun v v' hEmpty hEnv => hEnv.2.trans hEmpty
  rcases hHolds with hEmpty | hLaw
  · rw [hEmpty]
    exact trivial
  · exact hLaw

/-
  The mission never ends: a tick that returns leaves the root
  RUNNING, and the record of the leaves keeps the law.
-/
theorem mission_never_ends
    {is : List (NodeInput K I)} {s : BtNode K S}
    (hRun : (watched A).Run (.init A) is s) :
    History.Each Looping s.view.ticks ∧
      ∀ during late fuel n r s',
        BtNode.tickOnce A during late fuel n s = .ok (r, s') →
          r = .running ∧
            BT.TreeNode.status (main3 K) s'.tree = .running ∧
              History.Each Looping s'.view.ticks := by
  refine ⟨looping_of_run hRun, ?_⟩
  intro during late fuel n r s' hTick
  rcases exists_last_pass hRun hTick with
    ⟨js, u, u', m, hReach, hPass, rfl⟩
  rcases pass_ok hReach with ⟨v, hRunning, hStatus⟩
  rw [hRunning] at hPass
  cases hPass
  rcases exists_surround_run (A := A) (late m) u' with
    ⟨ks, hLate⟩
  rw [surround_tree]
  exact
    ⟨rfl, hStatus,
      looping_of_run ((hReach.trans (run_pass hRunning)).trans
        hLate)⟩

end Leaves

/- The conveyor fails, and an approach is started. -/
def abortedRun : List (Input ℚ (AnyInput ℚ)) :=
  bootRun ++ approachRun 0 ⟨230, 50, 40, 10, "none", true⟩ ++
    acceptRun 1 ++ [Input.env (.abort 1)] ++ resultRun 1

theorem mission_never_ends_failed :
    ∃ s s' : BtNode ℚ (List Nat),
      (∃ t ∈ s.view.ticks, t.after = .failure) ∧
        BtNode.tickOnce (anyServer ℚ) (fun _ => [])
            (fun _ => []) 2 0 s = .ok (.running, s') ∧
          BT.TreeNode.status (main3 ℚ) s'.tree = .running ∧
            History.Each Looping s'.view.ticks := by
  have hExec :
      ((watched (anyServer ℚ)).exec (.init (anyServer ℚ))
          (abortedRun.map Input.observed)).any
        (fun s =>
          s.view.ticks.any (fun t => t.after = .failure) &&
            (BtNode.tickOnce (anyServer ℚ) (fun _ => [])
              (fun _ => []) 2 0 s).isOk) =
        true := by
    decide +kernel
  rcases Machine.exists_run_of_exec hExec with ⟨s, hRun, hTest⟩
  rw [Bool.and_eq_true, List.any_eq_true] at hTest
  rcases hTest with ⟨⟨t, hMember, hAfter⟩, hReturns⟩
  rcases exists_of_isOk hReturns with ⟨⟨r, s'⟩, hTick⟩
  rcases (mission_never_ends hRun).2 _ _ _ _ _ _ hTick with
    ⟨rfl, hStatus, hLaw⟩
  exact
    ⟨s, s', ⟨t, hMember, of_decide_eq_true hAfter⟩, hTick,
      hStatus, hLaw⟩

end Mission

end Manipulator
