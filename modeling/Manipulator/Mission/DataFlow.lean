import Manipulator.Mission.Outline
import Manipulator.Mission.Servers

/-
  Data flow and branching of the mission.

  What a cycle reads and sends is determined by the result of
  its own approach: the goals of the arm by a label other
  than 'none', the goals of a bin by the bin's label, the
  conveyor by the label 'none'.

  Main declarations:
    * `thisCycle`, `cycleResult`
    * `FromResult`, `OneBranch`
    * `Outline.dataFlow`
    * `mission_data_flow`
-/

------------------------------------------------------------
-- Cycles
------------------------------------------------------------

namespace Manipulator

namespace Mission

variable {K S I : Type}

/- The events since an approach node last started. -/
def thisCycle : List (Event K) → List (Event K)
| [] => []
| .cycleBegan :: _ => []
| event :: earlier => event :: thisCycle earlier

/- The result of this cycle's approach, once it succeeded. -/
def cycleResult :
    List (Event K) → Option (ApproachResult K)
| [] => none
| .cycleBegan :: _ => none
| .approached r :: _ => some r
| _ :: earlier => cycleResult earlier

/- The label selects the branch that the node stands in. -/
def Step.Serves (label : String) : Step → Prop
| .pick _ => label ≠ "none"
| .bin b _ => label ≠ "none" ∧ label = b.label

theorem Step.Serves.ne_none
    {label : String} {step : Step}
    (hServes : step.Serves label) : label ≠ "none" := by
  cases step with
  | pick _ => exact hServes
  | bin _ _ => exact hServes.1

section Sources

variable [Field K]

/-
  What a node reads or sends stems from the result of this
  cycle's approach, and that from the goal that the cycle's
  approach node sent.
-/
def FromResult : Event K → List (Event K) → Prop
| .approached r, earlier =>
    cycleResult earlier = none ∧
      ∃ goal, .sent goal .approach .approach ∈ thisCycle earlier ∧
        .ended goal .approach .succeeded r ∈ earlier
| .read key value, earlier =>
    ∃ r, cycleResult earlier = some r ∧
      value = foundEntry r key
| .readLabel label, earlier =>
    ∃ r, cycleResult earlier = some r ∧ label = r.label
| .sent _ .approach data, earlier =>
    cycleResult earlier = none ∧ data = .approach
| .sent _ (.move step) data, earlier =>
    ∃ r, cycleResult earlier = some r ∧
      step.Serves r.label ∧ data = .move (step.goal r)
| .sent _ .conveyor data, earlier =>
    ∃ r, cycleResult earlier = some r ∧
      r.label = "none" ∧ data = .conveyor
| _, _ => True

/-
  The events of a cycle: not both the arm and the conveyor
  are sent goals, and only one bin is.
-/
structure OneBranch (events : List (Event K)) : Prop where
  armOrConveyor :
    ∀ goal step data goal' data',
      .sent goal (.move step) data ∈ events →
        .sent goal' .conveyor data' ∉ events
  oneBin :
    ∀ goal b step data goal' b' step' data',
      .sent goal (.move (.bin b step)) data ∈ events →
        .sent goal' (.move (.bin b' step')) data' ∈ events →
          b = b'

variable {event : Event K} {h : List (Event K)}

omit [Field K] in
theorem thisCycle_cons
    (hEvent : event ≠ .cycleBegan) :
    thisCycle (event :: h) = event :: thisCycle h := by
  cases event with
  | cycleBegan => exact absurd rfl hEvent
  | read => rfl
  | readLabel => rfl
  | sent => rfl
  | failed => rfl
  | approached => rfl
  | started => rfl
  | commanded => rfl
  | ended => rfl

/- A result stays the result of its cycle. -/
theorem cycleResult_kept
    {r : ApproachResult K}
    (hFrom : FromResult event h)
    (hEvent : event ≠ .cycleBegan)
    (hResult : cycleResult h = some r) :
    cycleResult (event :: h) = some r := by
  cases event with
  | cycleBegan => exact absurd rfl hEvent
  | approached r' =>
      rw [hFrom.1] at hResult
      cases hResult
  | read => exact hResult
  | readLabel => exact hResult
  | sent => exact hResult
  | failed => exact hResult
  | started => exact hResult
  | commanded => exact hResult
  | ended => exact hResult

/- What an event of the cycle stems from is its result. -/
theorem fromResult_of_thisCycle
    (hEach : History.Each FromResult h)
    (hMember : event ∈ thisCycle h) :
    ∃ earlier, FromResult event earlier ∧
      ∀ r, cycleResult earlier = some r →
        cycleResult h = some r := by
  induction h with
  | nil => cases hMember
  | cons new earlier ih =>
      by_cases hBegan : new = .cycleBegan
      · subst hBegan
        cases hMember
      · rw [thisCycle_cons hBegan] at hMember
        rcases List.mem_cons.mp hMember with rfl | hMember
        · exact ⟨earlier, hEach.1, fun r hResult =>
            cycleResult_kept hEach.1 hBegan hResult⟩
        · rcases ih hEach.2 hMember with ⟨source, hFrom, hKept⟩
          exact ⟨source, hFrom, fun r hResult =>
            cycleResult_kept hEach.1 hBegan (hKept r hResult)⟩

/- A cycle has one result, so that it takes one branch. -/
theorem oneBranch_of_each
    (hEach : History.Each FromResult h) :
    OneBranch (thisCycle h) := by
  have hMove :
      ∀ goal step data,
        .sent goal (.move step) data ∈ thisCycle h →
          ∃ r, cycleResult h = some r ∧ step.Serves r.label := by
    intro goal step data hMember
    rcases fromResult_of_thisCycle hEach hMember with
      ⟨_, ⟨r, hResult, hServes, _⟩, hKept⟩
    exact ⟨r, hKept r hResult, hServes⟩
  constructor
  case armOrConveyor =>
    intro goal step data goal' data' hMember hMember'
    rcases hMove _ _ _ hMember with ⟨r, hResult, hServes⟩
    rcases fromResult_of_thisCycle hEach hMember' with
      ⟨_, ⟨r', hResult', hNone, _⟩, hKept⟩
    cases hResult.symm.trans (hKept r' hResult')
    exact hServes.ne_none hNone
  case oneBin =>
    intro goal b step data goal' b' step' data' hMember hMember'
    rcases hMove _ _ _ hMember with ⟨r, hResult, _, hLabel⟩
    rcases hMove _ _ _ hMember' with ⟨r', hResult', _, hLabel'⟩
    cases hResult.symm.trans hResult'
    exact Bin.label_injective (hLabel.symm.trans hLabel')

end Sources

------------------------------------------------------------
-- The Outline
------------------------------------------------------------

section Flow

variable [Field K] [LinearOrder K]

/- The points at which a cycle with this label can stand. -/
def Point.Fits (label : String) : Point → Prop
| .found => True
| .before step => step.Serves label
| .holding => label ≠ "none"
| .stowed _ => True
| .sorted => True
| .idle => label = "none"
| .closing => True

theorem fits_next
    {label : String} {step : Step}
    (hServes : step.Serves label) : step.next.Fits label := by
  cases step with
  | pick step => cases step <;> exact hServes
  | bin b step => cases step <;> first | exact hServes | trivial

/- All events stem from the result of their cycle. -/
def dataFlow (K : Type) [Field K] : Outline K where
  boot := fun h => History.Each FromResult h
  cycle := fun h => History.Each FromResult h
  approaching := fun goal h =>
    History.Each FromResult h ∧ cycleResult h = none ∧
      .sent goal .approach .approach ∈ thisCycle h
  at_ := fun r p h =>
    History.Each FromResult h ∧ cycleResult h = some r ∧
      p.Fits r.label
  moving := fun r step h =>
    History.Each FromResult h ∧ cycleResult h = some r ∧
      step.Serves r.label
  conveying := fun r h =>
    History.Each FromResult h ∧ cycleResult h = some r
  safe := fun h => History.Each FromResult h

/- The events of the servers are no business of the cycle. -/
theorem arises_flow
    {event : Event K} {h : List (Event K)}
    (hArises : Arises h event) :
    FromResult event h ∧ cycleResult (event :: h) = cycleResult h ∧
      thisCycle (event :: h) = event :: thisCycle h := by
  rcases hArises with ⟨_, _, hEmits⟩ | hStray
  · cases hEmits with
    | started => exact ⟨trivial, rfl, rfl⟩
    | moved => exact ⟨trivial, rfl, rfl⟩
    | published => exact ⟨trivial, rfl, rfl⟩
    | ended => exact ⟨trivial, rfl, rfl⟩
  · cases hStray with
    | published => exact ⟨trivial, rfl, rfl⟩

omit [LinearOrder K] in
/-
  What the reads for a goal leave of the cycle: its result,
  and that all events stem from it.
-/
theorem reads_flow
    {r : ApproachResult K} {h : List (Event K)}
    (hEach : History.Each FromResult h)
    (hResult : cycleResult h = some r)
    (p : MovePorts K) :
    History.Each FromResult (p.reads (found r) ++ h) ∧
      cycleResult (p.reads (found r) ++ h) = some r := by
  have hReads :
      ∀ event ∈ p.reads (found r),
        ∃ key, event = .read key (foundEntry r key) := by
    intro event hMember
    rcases mem_reads hMember with ⟨key, value, rfl, hValue⟩
    cases hValue
    exact ⟨key, rfl⟩
  generalize p.reads (found r) = events at hReads
  induction events with
  | nil => exact ⟨hEach, hResult⟩
  | cons event events ih =>
      rcases ih (fun e hMember =>
          hReads e (List.mem_cons_of_mem _ hMember)) with
        ⟨hEach', hResult'⟩
      rcases hReads event List.mem_cons_self with ⟨key, rfl⟩
      exact ⟨⟨⟨r, hResult', rfl⟩, hEach'⟩, hResult'⟩

theorem each_steady
    (late : Prop) (mine : Option (Nat × Goal K)) :
    Steady late mine fun h => History.Each FromResult h := by
  intro _ h event hArises _ hEach
  exact ⟨(arises_flow hArises).1, hEach⟩

theorem result_steady
    (late : Prop) (mine : Option (Nat × Goal K))
    (r : ApproachResult K) :
    Steady late mine fun h =>
      History.Each FromResult h ∧ cycleResult h = some r := by
  intro _ h event hArises _ hHolds
  rcases arises_flow hArises with ⟨hFrom, hResult, _⟩
  exact ⟨⟨hFrom, hHolds.1⟩, hResult.trans hHolds.2⟩

/- A fact about the result alone stays true. -/
theorem branch_steady
    (late : Prop) (mine : Option (Nat × Goal K))
    (r : ApproachResult K) (P : Prop) :
    Steady late mine fun h =>
      History.Each FromResult h ∧ cycleResult h = some r ∧ P := by
  intro b h event hArises hSource hHolds
  rcases result_steady late mine r b h event hArises hSource
      ⟨hHolds.1, hHolds.2.1⟩ with
    ⟨hEach, hResult⟩
  exact ⟨hEach, hResult, hHolds.2.2⟩

/- Late messages stem from no result. -/
theorem dataFlow_valid (late : Prop) :
    (dataFlow K).Valid late where
  boot := trivial
  boot_steady := each_steady late none
  publish := fun h hEach => ⟨trivial, hEach⟩
  cycle_steady := each_steady late none
  approach_sent := fun h goal hEach _ =>
    ⟨⟨⟨rfl, rfl⟩, trivial, hEach⟩, rfl, List.mem_cons_self⟩
  approach_unreachable := fun h hEach =>
    ⟨trivial, trivial, hEach⟩
  approach_steady := by
    intro goal b h event hArises _ hHolds
    rcases hHolds with ⟨hEach, hNone, hSent⟩
    rcases arises_flow hArises with
      ⟨hFrom, hResult, hCycle⟩
    refine ⟨⟨hFrom, hEach⟩, hResult.trans hNone, ?_⟩
    rw [hCycle]
    exact List.mem_cons_of_mem _ hSent
  approach_failed := fun h goal error hHolds =>
    ⟨trivial, hHolds.1⟩
  approach_found := fun h goal r hHolds hEnded =>
    ⟨⟨⟨hHolds.2.1, goal, hHolds.2.2, hEnded⟩, hHolds.1⟩,
      rfl, trivial⟩
  at_steady := fun r p => branch_steady late none r _
  pick := fun h r hLabel hHolds =>
    ⟨⟨⟨r, hHolds.2.1, rfl⟩, hHolds.1⟩, hHolds.2.1, hLabel⟩
  noPick := fun h r hLabel hHolds =>
    ⟨⟨⟨r, hHolds.2.1, rfl⟩, hHolds.1⟩, hHolds.2.1, trivial⟩
  move_sent := by
    intro h r step goal hHolds
    rcases hHolds with ⟨hEach, hResult, hServes⟩
    rcases reads_flow hEach hResult (step.ports K) with
      ⟨hEach, hResult⟩
    exact ⟨⟨⟨r, hResult, hServes, rfl⟩, hEach⟩, hResult,
      hServes⟩
  move_unreachable := by
    intro h r step hHolds
    rcases reads_flow hHolds.1 hHolds.2.1 (step.ports K) with
      ⟨hEach, _⟩
    exact ⟨trivial, hEach⟩
  move_steady := fun r step _ => branch_steady late _ r _
  move_failed := fun h r step error hHolds =>
    ⟨trivial, hHolds.1⟩
  move_done := by
    intro h r step hHolds _
    refine ⟨hHolds.1, hHolds.2.1, ?_⟩
    exact fits_next hHolds.2.2
  bin := by
    intro h r b hLabel hHolds
    exact ⟨⟨⟨r, hHolds.2.1, rfl⟩, hHolds.1⟩, hHolds.2.1,
      hHolds.2.2, hLabel⟩
  noBin := fun h r b hLabel hHolds =>
    ⟨⟨⟨r, hHolds.2.1, rfl⟩, hHolds.1⟩, hHolds.2⟩
  otherBin := fun h r b hHolds =>
    ⟨⟨⟨r, hHolds.2.1, rfl⟩, hHolds.1⟩, hHolds.2⟩
  unknown := fun h r hLabel hHolds =>
    ⟨hHolds.1, hHolds.2.1, trivial⟩
  stowed := fun h r b hLabel hHolds => hHolds
  convey := fun h r hLabel hHolds =>
    ⟨⟨⟨r, hHolds.2.1, rfl⟩, hHolds.1⟩, hHolds.2.1, hLabel⟩
  noConvey := fun h r hLabel hHolds =>
    ⟨⟨⟨r, hHolds.2.1, rfl⟩, hHolds.1⟩, hHolds.2⟩
  convey_sent := fun h r goal hHolds =>
    ⟨⟨⟨r, hHolds.2.1, hHolds.2.2, rfl⟩, hHolds.1⟩, hHolds.2.1⟩
  convey_unreachable := fun h r hHolds => ⟨trivial, hHolds.1⟩
  convey_steady := fun r => result_steady late _ r
  convey_failed := fun h r error hHolds => ⟨trivial, hHolds.1⟩
  convey_done := fun h r hHolds => ⟨hHolds.1, hHolds.2, trivial⟩
  closing := fun h r hHolds => hHolds.1
  boot_safe := fun h hEach => hEach
  cycle_safe := fun h hEach => hEach
  approach_safe := fun h goal hHolds => hHolds.1
  at_safe := fun h r p hHolds => hHolds.1
  move_safe := fun h r step hHolds => hHolds.1
  convey_safe := fun h r hHolds => hHolds.1

------------------------------------------------------------
-- Every Run
------------------------------------------------------------

/-
  In every run, whatever a cycle reads and sends stems from
  the result of its own approach, it takes one branch, and no
  tick finds an entry that was not written.
-/
theorem mission_data_flow
    {A : ApproachServer K S I}
    {is : List (Input K I)} {s : State K S}
    (hRun : (machine A).Run (.init A) is s) :
    History.Each
        (fun event earlier =>
          FromResult event earlier ∧
            OneBranch (thisCycle (event :: earlier)))
        s.world.history ∧
      ∃ s', step A s .tick = .ok s' := by
  have hEach : History.Each FromResult s.world.history :=
    Outline.safe_history (Outline.run_safe (dataFlow_valid True) hRun)
  constructor
  · apply hEach.each.imp
    intro event earlier hEach
    exact ⟨hEach.1, oneBranch_of_each hEach⟩
  · exact Outline.tick_ok (dataFlow_valid True) hRun

end Flow

/- A cycle that brings a can to its bin. -/
def colaRun : List (Input ℚ (AnyInput ℚ)) :=
  bootRun ++ approachRun 0 ⟨230, 50, 40, 10, "cola", true⟩ ++
    moveRun 1 ++ moveRun 2 ++
      [Input.env (.timer .grasped), .tick] ++
      moveRun 3 ++ moveRun 4 ++ moveRun 5 ++ moveRun 6 ++
        moveRun 7 ++ moveRun 8

theorem mission_data_flow_cola :
    ∃ s : State ℚ (List Nat),
      s.world.goals.length = 9 ∧
        History.Each
          (fun event earlier =>
            FromResult event earlier ∧
              OneBranch (thisCycle (event :: earlier)))
          s.world.history ∧
        ∃ s', step (anyServer ℚ) s .tick = .ok s' := by
  have hExec :
      ((machine (anyServer ℚ)).exec (.init (anyServer ℚ))
          colaRun).any
        (fun s => decide (s.world.goals.length = 9)) = true := by
    decide +kernel
  rcases Machine.exists_run_of_exec hExec with ⟨s, hRun, hSent⟩
  exact ⟨s, of_decide_eq_true hSent, mission_data_flow hRun⟩

end Mission

end Manipulator
