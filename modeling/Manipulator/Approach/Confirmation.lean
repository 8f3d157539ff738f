import Manipulator.Approach.Outcome

/-
  When a target is confirmed by consecutive ticks.

  The node counts the ticks within tolerance and resets the
  count at the start of a goal only, so that a target is
  confirmed at the fifth of them, whatever lies between. They
  are consecutive when the ticks of the goal stay within
  tolerance from the first of them on.

  Main declarations:
    * `Node.Counting`, `hits_of_confirm`
    * `Consecutive`, `Steady`
    * `consecutive_iff_steady`
-/

------------------------------------------------------------
-- A Prefix That Holds All Hits
------------------------------------------------------------

namespace Manipulator

section Prefixes

variable {α : Type}

/-
  When `k` elements meet `p`, they are the first `k` elements
  exactly when they form a prefix.
-/
theorem take_iff_prefix
    {p : α → Bool} {xs : List α} {k : Nat}
    (hCount : xs.countP p = k) :
    (k ≤ xs.length ∧ ∀ x ∈ xs.take k, p x = true) ↔
      ∃ later earlier, xs = later ++ earlier ∧
        (∀ x ∈ later, p x = true) ∧
        ∀ x ∈ earlier, p x = false := by
  constructor
  · rintro ⟨hLength, hTake⟩
    have hFirst : (xs.take k).countP p = k := by
      rw [List.countP_eq_length.mpr hTake, List.length_take]
      exact min_eq_left hLength
    have hSum :
        (xs.take k).countP p + (xs.drop k).countP p = k := by
      rw [← List.countP_append, List.take_append_drop]
      exact hCount
    have hRest : (xs.drop k).countP p = 0 := by omega
    refine
      ⟨xs.take k, xs.drop k, (List.take_append_drop k xs).symm,
        hTake, ?_⟩
    intro x hMember
    rw [← Bool.not_eq_true]
    exact List.countP_eq_zero.mp hRest x hMember
  · rintro ⟨later, earlier, rfl, hLater, hEarlier⟩
    have hNone : earlier.countP p = 0 := by
      apply List.countP_eq_zero.mpr
      intro x hMember
      rw [hEarlier x hMember]
      exact Bool.false_ne_true
    have hLength : later.length = k := by
      rw [List.countP_append, List.countP_eq_length.mpr hLater,
        hNone] at hCount
      exact hCount
    subst hLength
    rw [List.take_left]
    exact ⟨by simp, hLater⟩

end Prefixes

------------------------------------------------------------
-- The Fifth Hit
------------------------------------------------------------

namespace Approach

variable {K : Type} [Field K] [LinearOrder K]

/- In the approach state there were less than five hits. -/
def Node.Counting {K : Type} (n : Node K) : Prop :=
  n.state = .approach → n.goalCount < 5

theorem counting_of_tick
    {trig : Trig K} {n : Node K} {r : TickResult K}
    (hCase : TickCase trig n r)
    (hCounting : n.Counting) : r.node.Counting := by
  cases hCase with
  | neutral => exact hCounting
  | miss => exact hCounting
  | lose => exact hCounting
  | @track _ _ center _ _ _ _ _ hState _ _ hNode hCount =>
      intro _
      by_cases hTolerance : InTolerance (controlError center)
      · exact hCount hTolerance
      · subst hNode
        simp only [Node.tracked, hTolerance, if_false]
        exact hCounting hState
  | confirm =>
      intro hState
      cases hState
  | turn _ _ _ _ _ _ hNode =>
      subst hNode
      exact hCounting

theorem counting_of_run
    {trig : Trig K} {debugMode : Int}
    {is : List (Input K)} {s : Server K}
    (hRun :
      (machine trig).Run (Server.init debugMode) is s) :
    s.node.Counting := by
  apply node_invariant (P := Node.Counting) hRun
  · exact fun _ => Nat.zero_lt_succ 4
  · exact fun _ _ _ => Nat.zero_lt_succ 4
  · exact fun _ _ hCounting => hCounting
  · exact fun _ _ => counting_of_tick

/- The tick changes `state` from approach to turn. -/
def Tick.Confirms {K : Type} (t : Tick K) : Prop :=
  t.before.state = .approach ∧ t.result.node.state = .turn

instance {K : Type} (t : Tick K) : Decidable t.Confirms := by
  unfold Tick.Confirms
  infer_instance

/- The tick clears `run` because no box was seen. -/
def Tick.GivesUp {K : Type} (t : Tick K) : Prop :=
  t.before.run = true ∧
    t.result.node.run = false ∧
    t.result.node.hasBox = some false

/- Only a box within tolerance is confirmed. -/
theorem hits_of_confirm
    {trig : Trig K} {s : Server K} {r : TickResult K}
    (hTracking : Tracking s)
    (hCounting : s.node.Counting)
    (hCase : TickCase trig s.node r)
    (hConfirms : (⟨s.node, s.boxId, r⟩ : Tick K).Confirms) :
    hits (⟨s.node, s.boxId, r⟩ :: epoch s.history) = 5 := by
  have hBelow := hCounting hConfirms.1
  have hNext := (hTracking.ticked hCase).hits_eq
  rcases hConfirms with ⟨hBefore, hAfter⟩
  change s.node.state = .approach at hBefore
  change r.node.state = .turn at hAfter
  cases hCase with
  | neutral =>
      cases hBefore.symm.trans hAfter
  | miss =>
      cases hBefore.symm.trans hAfter
  | lose =>
      cases hBefore.symm.trans hAfter
  | track _ _ _ _ _ hNode =>
      subst hNode
      cases hBefore.symm.trans hAfter
  | confirm hActs _ _ _ _ _ hNode hTolerance hCount =>
      rw [Tracking.epoch_ticked hActs] at hNext
      rw [← hNext]
      subst hNode
      simp only [Server.ticked, Node.confirmed, Node.tracked,
        Node.seen, hTolerance, if_true] at hCount ⊢
      omega
  | turn _ _ hState =>
      cases hBefore.symm.trans hState

/- Giving up takes the limit of misses, one after the other. -/
theorem misses_of_giveUp
    {trig : Trig K} {s : Server K} {r : TickResult K}
    (hTracking : Tracking s)
    (hCase : TickCase trig s.node r)
    (hGivesUp : (⟨s.node, s.boxId, r⟩ : Tick K).GivesUp) :
    noBoxCountLimit ≤
      misses (⟨s.node, s.boxId, r⟩ :: epoch s.history) := by
  have hNext := (hTracking.ticked hCase).misses_eq
  rcases hGivesUp with ⟨hRun, hStopped, hLost⟩
  change s.node.run = true at hRun
  change r.node.run = false at hStopped
  change r.node.hasBox = some false at hLost
  cases hCase with
  | neutral => cases hRun.symm.trans hStopped
  | miss => cases hRun.symm.trans hStopped
  | lose hActs _ hCount =>
      rw [Tracking.epoch_ticked hActs] at hNext
      rw [← hNext]
      exact hCount
  | track _ _ _ _ _ hNode =>
      subst hNode
      cases hRun.symm.trans hStopped
  | confirm _ _ _ _ _ _ hNode =>
      subst hNode
      cases hRun.symm.trans hStopped
  | turn _ _ hState _ _ _ hNode =>
      subst hNode
      have hFound := (hTracking.turning hRun hState).1
      cases hFound.symm.trans hLost

------------------------------------------------------------
-- Consecutive And Steady Ticks
------------------------------------------------------------

/-
  The last five of the ticks that acted on a message saw a
  box within tolerance.
-/
def Consecutive (ticks : List (Tick K)) : Prop :=
  5 ≤ ticks.length ∧
    ∀ t ∈ ticks.take 5, t.inTolerance = true

instance (ticks : List (Tick K)) :
    Decidable (Consecutive ticks) := by
  unfold Consecutive
  infer_instance

/-
  From the first tick within tolerance on, no tick missed the
  box or saw it out of tolerance.
-/
def Steady (ticks : List (Tick K)) : Prop :=
  ∃ later earlier, ticks = later ++ earlier ∧
    (∀ t ∈ later, t.inTolerance = true) ∧
    ∀ t ∈ earlier, t.inTolerance = false

/- A target is confirmed by consecutive ticks. -/
def Consecutively : Event K → List (Event K) → Prop
| .ticked t, earlier =>
    t.Confirms → Consecutive (t :: epoch earlier)
| _, _ => True

instance decidableConsecutively :
    (event : Event K) → (earlier : List (Event K)) →
      Decidable (Consecutively event earlier)
| .ticked t, earlier =>
    inferInstanceAs
      (Decidable
        (t.Confirms → Consecutive (t :: epoch earlier)))
| .started _, _ => .isTrue trivial
| .received _, _ => .isTrue trivial
| .cancelAccepted _, _ => .isTrue trivial
| .returned _ _ _, _ => .isTrue trivial

/- The ticks of a goal whose target is confirmed are steady. -/
def Steadily : Event K → List (Event K) → Prop
| .ticked t, earlier =>
    t.Confirms → Steady (t :: epoch earlier)
| _, _ => True

/- A goal gives up after consecutive misses. -/
def Patiently : Event K → List (Event K) → Prop
| .ticked t, earlier =>
    t.GivesUp → noBoxCountLimit ≤ misses (t :: epoch earlier)
| _, _ => True

/- What a tick that changes the state or gives up says. -/
def Accounted (event : Event K) (earlier : List (Event K)) :
    Prop :=
  (Consecutively event earlier ↔ Steadily event earlier) ∧
    Patiently event earlier

theorem accounted_of_tick
    {trig : Trig K} {s : Server K} {r : TickResult K}
    (hTracking : Tracking s)
    (hCounting : s.node.Counting)
    (hCase : TickCase trig s.node r) :
    Accounted (.ticked ⟨s.node, s.boxId, r⟩) s.history := by
  constructor
  · apply forall_congr'
    intro hConfirms
    apply take_iff_prefix
    exact hits_of_confirm hTracking hCounting hCase hConfirms
  · exact misses_of_giveUp hTracking hCase

theorem accounted_of_run
    {trig : Trig K} {debugMode : Int}
    {is : List (Input K)} {s : Server K}
    (hRun :
      (machine trig).Run (Server.init debugMode) is s) :
    History.Each Accounted s.history := by
  apply history_each hRun
  case hStarted => exact fun _ _ => ⟨Iff.rfl, trivial⟩
  case hReceived => exact fun _ _ => ⟨Iff.rfl, trivial⟩
  case hCancel => exact fun _ _ => ⟨Iff.rfl, trivial⟩
  case hTicked =>
    intro _ t r hReached hCase
    exact
      accounted_of_tick (Tracking.run hReached)
        (counting_of_run hReached) hCase
  case hReturned =>
    exact fun _ _ _ _ _ _ _ => ⟨Iff.rfl, trivial⟩

------------------------------------------------------------
-- Every Run
------------------------------------------------------------

/-
  In every run, for each change of state from approach to
  turn: the last five ticks were consecutive exactly when the
  ticks of the goal were steady. So all changes of a run are
  consecutive exactly when all its goals were steady. Giving
  up, in contrast, always takes thirty consecutive misses.
-/
theorem consecutive_iff_steady
    {trig : Trig K} {debugMode : Int}
    {is : List (Input K)} {s : Server K}
    (hRun : (machine trig).Run (Server.init debugMode) is s) :
    (History.Each Consecutively s.history ↔
        History.Each Steadily s.history) ∧
      History.Each
        (fun event earlier =>
          Consecutively event earlier ↔
            Steadily event earlier) s.history ∧
      History.Each Patiently s.history := by
  have hAll := accounted_of_run hRun
  have hEach := hAll.imp fun _ _ hLaw => hLaw.1
  refine ⟨?_, hEach, hAll.imp fun _ _ hLaw => hLaw.2⟩
  exact History.Each.congr hEach

/- A box right where it should be. -/
def onTarget : Input ℚ :=
  .boundingBox ⟨[220, 260, 260, 300], ["cola"], [1], [0], true⟩

/- A hit, a miss, and four more hits. -/
theorem confirmed_after_miss :
    ¬ ∀ (is : List (Input ℚ)) (s : Server ℚ),
      (machine ⟨fun _ _ => 0, 1⟩).Run (Server.init 0) is s →
        History.Each Consecutively s.history := by
  intro hClaim
  have hSome :
      ((machine (⟨fun _ _ => 0, 1⟩ : Trig ℚ)).exec
        (Server.init 0)
        ([.goal, onTarget, .timer, .boundingBox .default,
            .timer, onTarget] ++ List.replicate 4 .timer)).any
        (fun s =>
          !decide (History.Each Consecutively s.history)) =
        true := by
    decide +kernel
  rcases Machine.exists_run_of_exec hSome with
    ⟨s, hRun, hTest⟩
  rw [Bool.not_eq_true', decide_eq_false_iff_not] at hTest
  exact hTest (hClaim _ s hRun)

/- Five hits in a row. -/
theorem consecutive_iff_steady_in_a_row :
    ∃ s : Server ℚ,
      (machine ⟨fun _ _ => 0, 1⟩).Run (Server.init 0)
          (.goal :: onTarget :: List.replicate 5 .timer) s ∧
        s.node.state = .turn ∧
        History.Each Steadily s.history := by
  have hSome :
      ((machine (⟨fun _ _ => 0, 1⟩ : Trig ℚ)).exec
        (Server.init 0)
        (.goal :: onTarget :: List.replicate 5 .timer)).any
        (fun s =>
          decide
            (s.node.state = .turn ∧
              History.Each Consecutively s.history)) =
        true := by
    decide +kernel
  rcases Machine.exists_run_of_exec hSome with
    ⟨s, hRun, hTest⟩
  rcases of_decide_eq_true hTest with ⟨hTurn, hAll⟩
  exact
    ⟨s, hRun, hTurn, (consecutive_iff_steady hRun).1.mp hAll⟩

end Approach

end Manipulator
