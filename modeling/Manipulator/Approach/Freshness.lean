import Manipulator.Approach.Outcome

/-
  When approach goals act on fresh detections only.

  The node never forgets its last message, so that a tick may
  act on a message from before its goal, on the message of
  `__init__`, or twice on the same one. Every tick acts on a
  fresh message exactly when the detector is fast enough to
  supply one before each of them.

  Main declarations:
    * `arrivedSince`, `ActsOnFresh`, `RestsOnDistinct`
    * `Supplied`, `Paced`
    * `fresh_iff_paced`
-/

------------------------------------------------------------
-- Fresh Detections
------------------------------------------------------------

namespace Manipulator

namespace Approach

variable {K : Type}

/- A message arrived since the last selected start of a goal. -/
def arrivedSince
    (stop : Nat → Bool) (id : Nat) : List (Event K) → Prop
| [] => False
| .started goal :: earlier =>
    stop goal = false ∧ arrivedSince stop id earlier
| .received other :: earlier =>
    other = id ∨ arrivedSince stop id earlier
| _ :: earlier => arrivedSince stop id earlier

/- The messages that ticks acted on, the newest first. -/
def actedIds (h : List (Event K)) : List Nat :=
  (ticksSince (fun _ => false) h).map Tick.boxId

/- A tick acts on a message of the goal that runs. -/
def TickFresh : Event K → List (Event K) → Prop
| .ticked t, earlier =>
    t.before.actsOn.isSome →
      arrivedSince (fun _ => true) t.boxId earlier
| _, _ => True

/-
  No tick acts on a message from before the last start, and
  no two ticks act on the same message.
-/
def ActsOnFresh (h : List (Event K)) : Prop :=
  History.Each TickFresh h ∧ (actedIds h).Nodup

/-
  So many ticks of the goal with the property `p` acted on
  distinct messages that arrived during the goal.
-/
def RestsOn
    (p : Tick K → Bool)
    (count goal : Nat)
    (earlier : List (Event K)) : Prop :=
  ∃ ticks : List (Tick K),
    ticks.Sublist (goalTicks goal earlier) ∧
    ticks.length = count ∧
    (∀ t ∈ ticks, p t = true ∧
      arrivedSince (fun g => decide (g = goal)) t.boxId
        earlier) ∧
    (ticks.map Tick.boxId).Nodup

/- What a result rests on. -/
def RestsOnDistinct
    [Field K] [LinearOrder K] :
    Event K → List (Event K) → Prop
| .returned goal _ result, earlier =>
    (result = noneResult →
      RestsOn Tick.missed noBoxCountLimit goal earlier) ∧
    (result ≠ noneResult →
      RestsOn Tick.inTolerance 5 goal earlier)
| _, _ => True

------------------------------------------------------------
-- Paced Detections
------------------------------------------------------------

/-
  A message has arrived since the last start of a goal and
  since the last tick that acted on a message.
-/
def Supplied : List (Event K) → Prop
| [] => False
| .started _ :: _ => False
| .received _ :: _ => True
| .ticked t :: earlier =>
    t.before.actsOn = none ∧ Supplied earlier
| _ :: earlier => Supplied earlier

/- No tick acts on a message before it is supplied. -/
def TickPaced : Event K → List (Event K) → Prop
| .ticked t, earlier =>
    t.before.actsOn.isSome → Supplied earlier
| _, _ => True

def Paced (h : List (Event K)) : Prop :=
  History.Each TickPaced h

/- How message numbers and the history belong together. -/
structure Numbered (s : Server K) : Prop where
  bound : ∀ id ∈ actedIds s.history, id ≤ s.boxId
  supplied :
    Supplied s.history ↔
      arrivedSince (fun _ => true) s.boxId s.history ∧
        s.boxId ∉ actedIds s.history
  paced : Paced s.history ↔ ActsOnFresh s.history

namespace Numbered

variable {s : Server K}

theorem init
    [Field K]
    (debugMode : Int) :
    Numbered (Server.init debugMode : Server K) where
  bound := by simp [Server.init, actedIds, ticksSince]
  supplied := by simp [Server.init, Supplied, arrivedSince]
  paced := by
    simp [Server.init, Paced, ActsOnFresh, History.Each,
      actedIds, ticksSince]

/- A step that is no start, no message and no tick. -/
theorem other
    {s' : Server K} {event : Event K}
    (hNumbered : Numbered s)
    (hBox : s'.boxId = s.boxId)
    (hHistory : s'.history = event :: s.history)
    (hEvent :
      (∃ goal, event = .cancelAccepted goal) ∨
        ∃ goal handle result,
          event = .returned goal handle result) :
    Numbered s' := by
  rcases hEvent with ⟨goal, rfl⟩ | ⟨goal, handle, result, rfl⟩
  · constructor
    · simpa [hHistory, hBox, actedIds] using hNumbered.bound
    · simpa [hHistory, hBox, actedIds, Supplied, arrivedSince]
        using hNumbered.supplied
    · simpa [hHistory, actedIds, Paced, ActsOnFresh, TickPaced,
        TickFresh, History.Each] using hNumbered.paced
  · constructor
    · simpa [hHistory, hBox, actedIds] using hNumbered.bound
    · simpa [hHistory, hBox, actedIds, Supplied, arrivedSince]
        using hNumbered.supplied
    · simpa [hHistory, actedIds, Paced, ActsOnFresh, TickPaced,
        TickFresh, History.Each] using hNumbered.paced

theorem goal
    [Field K]
    (hNumbered : Numbered s) : Numbered s.goal where
  bound := by
    simpa [Server.goal, actedIds] using hNumbered.bound
  supplied := by
    simp [Server.goal, Supplied, arrivedSince]
  paced := by
    simpa [Server.goal, actedIds, Paced, ActsOnFresh,
      TickPaced, TickFresh, History.Each] using
      hNumbered.paced

theorem boundingBox
    (msg : BoundingBox K)
    (hNumbered : Numbered s) :
    Numbered (s.boundingBox msg) where
  bound := by
    intro id hMember
    have hBound := hNumbered.bound id
      (by simpa [Server.boundingBox, actedIds] using hMember)
    exact Nat.le_succ_of_le hBound
  supplied := by
    refine iff_of_true trivial ⟨.inl rfl, ?_⟩
    intro hMember
    have hBound := hNumbered.bound _
      (by simpa [Server.boundingBox, actedIds] using hMember)
    exact absurd hBound (Nat.not_succ_le_self _)
  paced := by
    simpa [Server.boundingBox, actedIds, Paced, ActsOnFresh,
      TickPaced, TickFresh, History.Each] using
      hNumbered.paced

theorem ticked
    (r : TickResult K)
    (hNumbered : Numbered s) : Numbered (s.ticked r) := by
  cases hActs : s.node.actsOn with
  | none =>
      have hIds :
          actedIds (s.ticked r).history = actedIds s.history := by
        unfold actedIds Server.ticked
        rw [ticksSince_neutral _ _ hActs]
      constructor
      case bound =>
        rw [hIds]
        exact hNumbered.bound
      case supplied =>
        rw [hIds]
        simpa [Server.ticked, Supplied, arrivedSince, hActs]
          using hNumbered.supplied
      case paced =>
        unfold ActsOnFresh
        rw [hIds]
        simpa [Server.ticked, Paced, ActsOnFresh, TickPaced,
          TickFresh, History.Each, hActs] using hNumbered.paced
  | some box =>
      have hIds :
          actedIds (s.ticked r).history =
            s.boxId :: actedIds s.history := by
        unfold actedIds Server.ticked
        rw [ticksSince_acting _ _ hActs]
        rfl
      constructor
      case bound =>
        rw [hIds]
        intro id hMember
        rcases List.mem_cons.mp hMember with rfl | hMember
        · exact le_rfl
        · exact hNumbered.bound id hMember
      case supplied =>
        rw [hIds]
        simp [Server.ticked, Supplied, hActs]
      case paced =>
        have hHere :
            (Paced (s.ticked r).history ↔
              Supplied s.history ∧ Paced s.history) := by
          simp [Server.ticked, Paced, History.Each, TickPaced,
            hActs]
        have hFresh :
            ActsOnFresh (s.ticked r).history ↔
              (arrivedSince (fun _ => true) s.boxId s.history ∧
                s.boxId ∉ actedIds s.history) ∧
                ActsOnFresh s.history := by
          unfold ActsOnFresh
          rw [hIds, List.nodup_cons]
          simp only [Server.ticked, History.Each, TickFresh,
            hActs]
          tauto
        rw [hHere, hFresh, hNumbered.supplied, hNumbered.paced]

theorem step
    [Field K] [LinearOrder K]
    {trig : Trig K} {s' : Server K} {i : Input K}
    (hNumbered : Numbered s)
    (hStep : Approach.step trig s i = .ok s') :
    Numbered s' := by
  cases i with
  | goal =>
      cases hStep
      exact hNumbered.goal
  | boundingBox msg =>
      cases hStep
      exact hNumbered.boundingBox msg
  | timer =>
      rcases bind_eq_ok.mp hStep with ⟨r, _, hStep⟩
      cases hStep
      exact hNumbered.ticked r
  | cancel goal =>
      cases hStep
      exact hNumbered.other rfl rfl (.inl ⟨goal, rfl⟩)
  | finish goal =>
      simp only [Approach.step] at hStep
      split at hStep
      · cases hStep
        exact hNumbered
      · rename_i e _
        rcases bind_eq_ok.mp hStep with ⟨result, _, hStep⟩
        cases hStep
        exact hNumbered.other rfl rfl
          (.inr ⟨e.goal, e.handle.succeed, result, rfl⟩)

end Numbered

------------------------------------------------------------
-- What Results Rest On
------------------------------------------------------------

section Evidence

variable [Field K] [LinearOrder K] {s : Server K}

/- Enough ticks of a goal for what the node concluded. -/
def Concludes (n : Node K) (ticks : List (Tick K)) : Prop :=
  (n.hasBox = some true → 5 ≤ hits ticks) ∧
    (n.hasBox = some false →
      noBoxCountLimit ≤ ticks.countP Tick.missed)

/- The same of a result. -/
def Justified : Event K → List (Event K) → Prop
| .returned goal _ result, earlier =>
    (result = noneResult →
      noBoxCountLimit ≤
        (goalTicks goal earlier).countP Tick.missed) ∧
    (result ≠ noneResult → 5 ≤ hits (goalTicks goal earlier))
| _, _ => True

/- Ticks that only become more conclude as before. -/
theorem Concludes.mono
    {n n' : Node K} {ticks ticks' : List (Tick K)}
    (hConcludes : Concludes n ticks)
    (hBox : n'.hasBox = n.hasBox)
    (hTicks : ticks.Sublist ticks') : Concludes n' ticks' := by
  unfold Concludes at hConcludes ⊢
  rw [hBox]
  constructor
  · intro hFound
    exact (hConcludes.1 hFound).trans
      (hTicks.countP_le (p := Tick.inTolerance))
  · intro hLost
    exact (hConcludes.2 hLost).trans
      (hTicks.countP_le (p := Tick.missed))

omit [Field K] [LinearOrder K] in
/- The trailing misses are misses. -/
theorem misses_le_countP (ticks : List (Tick K)) :
    misses ticks ≤ ticks.countP Tick.missed := by
  have hAll :
      (ticks.takeWhile Tick.missed).countP Tick.missed =
        misses ticks := by
    apply List.countP_eq_length.mpr
    exact List.all_eq_true.mp List.all_takeWhile
  rw [← hAll]
  exact (List.takeWhile_sublist _).countP_le

/- A confirmed label rests on five ticks within tolerance. -/
theorem Confirmed.hits
    {label : String} {ticks : List (Tick K)}
    (hConfirmed : Confirmed label ticks) :
    5 ≤ Approach.hits ticks := by
  rcases hConfirmed with ⟨later, t, earlier, rfl, _, hHits⟩
  unfold Approach.hits at hHits ⊢
  rw [List.countP_append]
  omega

/- What the node concluded, for each goal that ended. -/
structure Evidence (s : Server K) : Prop where
  concludes :
    ∀ e ∈ s.executions, e.released = true →
      Concludes s.node (goalTicks e.goal s.history)
  justified : History.Each Justified s.history

namespace Evidence

theorem goal
    (hTracking : Tracking s)
    (hEvidence : Evidence s) : Evidence s.goal where
  concludes := by
    intro e hMember hReleased
    rcases List.mem_cons.mp hMember with rfl | hMember
    · cases hReleased
    · have hOther : s.nextGoal ≠ e.goal :=
        (hTracking.fresh e hMember).ne'
      have hConcludes :=
        hEvidence.concludes e hMember hReleased
      simpa [Server.goal, goalTicks, hOther, startGoal,
        Concludes] using hConcludes
  justified := ⟨trivial, hEvidence.justified⟩

theorem boundingBox
    (msg : BoundingBox K)
    (hEvidence : Evidence s) : Evidence (s.boundingBox msg) where
  concludes := by
    intro e hMember hReleased
    apply (hEvidence.concludes e hMember hReleased).mono
    · rfl
    · simp [Server.boundingBox, goalTicks]
  justified := ⟨trivial, hEvidence.justified⟩

theorem cancel
    (goal : Nat)
    (hEvidence : Evidence s) : Evidence (s.cancel goal) where
  concludes := by
    intro e' hMember hReleased
    rcases List.mem_map.mp hMember with ⟨e, hOld, rfl⟩
    by_cases hGoal : e.goal = goal
    · rw [if_pos hGoal] at hReleased ⊢
      apply (hEvidence.concludes e hOld hReleased).mono
      · rfl
      · simp [Server.cancel, goalTicks]
    · rw [if_neg hGoal] at hReleased ⊢
      apply (hEvidence.concludes e hOld hReleased).mono
      · rfl
      · simp [Server.cancel, goalTicks]
  justified := ⟨trivial, hEvidence.justified⟩

theorem finish
    [IsStrictOrderedRing K]
    {e : Execution} {result : ApproachResult K}
    (hTracking : Tracking s)
    (hEvidence : Evidence s)
    (hMember : e ∈ s.executions)
    (hReleased : e.released = true)
    (hFinish : finishGoal s.node = .ok result) :
    Evidence (s.finish e result) where
  concludes := by
    intro f hOld hWaits
    apply (hEvidence.concludes f
      (List.mem_of_mem_erase hOld) hWaits).mono
    · rfl
    · simp [Server.finish, goalTicks]
  justified := by
    refine ⟨?_, hEvidence.justified⟩
    have hConcludes := hEvidence.concludes e hMember hReleased
    have hPose := hTracking.pose (List.ne_nil_of_mem hMember)
    rcases finishGoal_cases hFinish with
      ⟨hBox, rfl⟩ | ⟨hBox, _, hReports⟩
    · exact ⟨fun _ => hConcludes.2 hBox, fun hNe => absurd rfl hNe⟩
    · have hFound : result ≠ noneResult :=
        ne_noneResult (hReports.2.2.1.trans hPose.2.2)
      exact ⟨fun hNone => absurd hNone hFound,
        fun _ => hConcludes.1 hBox⟩

/-
  A tick that acts either leaves `has_box` and the waiting
  executions alone, or assigns what the ticks of the epoch
  bear out.
-/
theorem acting
    {r : TickResult K}
    (hAfter : Tracking (s.ticked r))
    (hEvidence : Evidence s)
    (hEffect :
      (r.node.hasBox = s.node.hasBox ∧
          r.node.finishEvent = false) ∨
        Concludes r.node (epoch (s.ticked r).history)) :
    Evidence (s.ticked r) where
  concludes := by
    intro e hMember hReleased
    rcases hEffect with ⟨hBox, hEvent⟩ | hConcludes
    · rcases Tracking.mem_ticked hMember with
        ⟨f, hF, _, hSame, _⟩
      have hF' := hSame hEvent
      subst hF'
      apply (hEvidence.concludes f hF hReleased).mono hBox
      unfold goalTicks Server.ticked
      rw [ticksSince]
      split
      · exact List.sublist_cons_self _ _
      · exact List.Sublist.refl _
    · exact hConcludes.mono rfl (hAfter.within e hMember).sublist
  justified := ⟨trivial, hEvidence.justified⟩

theorem ticked
    {trig : Trig K} {r : TickResult K}
    (hTracking : Tracking s)
    (hEvidence : Evidence s)
    (hCase : TickCase trig s.node r) :
    Evidence (s.ticked r) := by
  have hAfter := hTracking.ticked hCase
  have hClear :
      ∀ {box : BoundingBox K}, s.node.actsOn = some box →
        s.node.finishEvent = false :=
    fun hActs =>
      (hTracking.running (Tracking.run_of_actsOn hActs)).1
  cases hCase with
  | neutral hActs =>
      constructor
      · rw [hTracking.executions_neutral]
        intro e hMember hReleased
        apply (hEvidence.concludes e hMember hReleased).mono rfl
        unfold goalTicks Server.ticked
        rw [ticksSince_neutral _ _ hActs]
      · exact ⟨trivial, hEvidence.justified⟩
  | miss hActs hBox hCount =>
      exact hEvidence.acting hAfter (.inl ⟨rfl, hClear hActs⟩)
  | lose hActs hBox hCount =>
      refine hEvidence.acting hAfter (.inr ⟨?_, ?_⟩)
      · intro hFound
        cases hFound
      · intro _
        apply le_trans _ (misses_le_countP _)
        rw [← hAfter.misses_eq]
        exact hCount
  | track hActs hBox hState hIndex hCenter hNode hCount =>
      subst hNode
      exact hEvidence.acting hAfter (.inl ⟨rfl, hClear hActs⟩)
  | confirm hActs hBox hState hIndex hCenter hLabel hNode
      hTolerance hCount =>
      refine hEvidence.acting hAfter (.inr ⟨?_, ?_⟩)
      · intro _
        rw [← hAfter.hits_eq]
        exact hCount
      · intro hLost
        cases hLost
  | turn hActs hBox hState hIndex hAngle hYaw hNode =>
      subst hNode
      rcases hTracking.turning (Tracking.run_of_actsOn hActs)
          hState with ⟨hFound, label, _, hConfirmed⟩
      refine hEvidence.acting hAfter (.inr ⟨?_, ?_⟩)
      · intro _
        exact (hConfirmed.cons _).hits.trans_eq
          (congrArg hits (ticksSince_acting _ _ hActs).symm)
      · intro hLost
        have hLost : s.node.hasBox = some false := hLost
        rw [hFound] at hLost
        cases hLost

theorem init (debugMode : Int) :
    Evidence (Server.init debugMode : Server K) where
  concludes := by simp [Server.init]
  justified := trivial

theorem step
    [IsStrictOrderedRing K]
    {trig : Trig K} {s' : Server K} {i : Input K}
    (hTracking : Tracking s)
    (hEvidence : Evidence s)
    (hEnabled : Enabled s i)
    (hStep : Approach.step trig s i = .ok s') :
    Evidence s' := by
  cases i with
  | goal =>
      cases hStep
      exact hEvidence.goal hTracking
  | boundingBox msg =>
      cases hStep
      exact hEvidence.boundingBox msg
  | timer =>
      rcases bind_eq_ok.mp hStep with ⟨r, hTick, hStep⟩
      cases hStep
      exact hEvidence.ticked hTracking
        (timerCallback_cases hTick)
  | cancel goal =>
      cases hStep
      exact hEvidence.cancel goal
  | finish goal =>
      rcases hEnabled with ⟨e, hFind, hReleased⟩
      rw [Option.mem_def] at hFind
      simp only [Approach.step, hFind] at hStep
      rcases bind_eq_ok.mp hStep with ⟨result, hFinish, hStep⟩
      cases hStep
      exact hEvidence.finish hTracking
        (List.mem_of_find?_eq_some hFind) hReleased hFinish

end Evidence

/- What arrived in the epoch arrived during every goal. -/
theorem arrivedSince_mono
    {K : Type} {stop : Nat → Bool} {id : Nat}
    {h : List (Event K)}
    (hArrived : arrivedSince (fun _ => true) id h) :
    arrivedSince stop id h := by
  induction h with
  | nil => exact hArrived
  | cons event earlier ih =>
      cases event with
      | started goal => cases hArrived.1
      | received other => exact hArrived.imp_right ih
      | ticked t => exact ih hArrived
      | cancelAccepted goal => exact ih hArrived
      | returned goal handle result => exact ih hArrived

/- Fresh ticks of a goal acted on messages of that goal. -/
theorem arrived_of_fresh
    {K : Type} {stop : Nat → Bool} {h : List (Event K)}
    (hFresh : History.Each TickFresh h) :
    ∀ t ∈ ticksSince stop h, arrivedSince stop t.boxId h := by
  induction h with
  | nil => simp [ticksSince]
  | cons event earlier ih =>
      have hEarlier := ih hFresh.2
      intro t hMember
      cases event with
      | started goal =>
          rw [ticksSince_started] at hMember
          by_cases hStop : stop goal = true
          · simp [hStop] at hMember
          · rw [if_neg hStop] at hMember
            exact ⟨by simpa using hStop, hEarlier t hMember⟩
      | received other =>
          rw [ticksSince_received] at hMember
          exact .inr (hEarlier t hMember)
      | ticked u =>
          cases hActs : u.before.actsOn with
          | none =>
              rw [ticksSince_neutral _ _ hActs] at hMember
              exact hEarlier t hMember
          | some box =>
              rw [ticksSince_acting _ _ hActs] at hMember
              rcases List.mem_cons.mp hMember with rfl | hMember
              · have hHere := hFresh.1 (by simp [hActs])
                exact arrivedSince_mono hHere
              · exact hEarlier t hMember
      | cancelAccepted goal =>
          rw [ticksSince_cancelAccepted] at hMember
          exact hEarlier t hMember
      | returned goal handle result =>
          rw [ticksSince_returned] at hMember
          exact hEarlier t hMember

/- The ticks of a goal are among all ticks. -/
theorem goalTicks_sublist
    {K : Type} (stop : Nat → Bool) (h : List (Event K)) :
    (ticksSince stop h).Sublist
      (ticksSince (fun _ => false) h) := by
  induction h with
  | nil => exact List.Sublist.refl _
  | cons event earlier ih =>
      cases event with
      | started goal =>
          rw [ticksSince_started, ticksSince_started]
          split
          · exact List.nil_sublist _
          · simpa using ih
      | received id => simpa using ih
      | ticked t =>
          unfold ticksSince
          split
          · exact ih.cons_cons t
          · exact ih
      | cancelAccepted goal => simpa using ih
      | returned goal handle result => simpa using ih

/- Enough ticks, on fresh messages, are distinct evidence. -/
theorem restsOn_of_fresh
    {K : Type} {p : Tick K → Bool} {count goal : Nat}
    {h : List (Event K)}
    (hFresh : ActsOnFresh h)
    (hCount : count ≤ (goalTicks goal h).countP p) :
    RestsOn p count goal h := by
  rw [List.countP_eq_length_filter] at hCount
  have hSublist :
      (((goalTicks goal h).filter p).take count).Sublist
        (goalTicks goal h) :=
    (List.take_sublist _ _).trans List.filter_sublist
  refine ⟨_, hSublist, by simpa using hCount, ?_, ?_⟩
  · intro t hMember
    have hFilter := List.mem_of_mem_take hMember
    rw [List.mem_filter] at hFilter
    exact ⟨hFilter.2, arrived_of_fresh hFresh.1 t hFilter.1⟩
  · apply List.Nodup.sublist _ hFresh.2
    exact (hSublist.trans (goalTicks_sublist _ _)).map _

/- Fresh histories are fresh at every point. -/
theorem ActsOnFresh.earlier
    {K : Type} {event : Event K} {h : List (Event K)}
    (hFresh : ActsOnFresh (event :: h)) : ActsOnFresh h := by
  refine ⟨hFresh.1.2, List.Nodup.sublist ?_ hFresh.2⟩
  apply List.Sublist.map
  cases event with
  | ticked t =>
      rw [ticksSince]
      split
      · exact List.sublist_cons_self _ _
      · exact List.Sublist.refl _
  | started goal => simp
  | received id => simp
  | cancelAccepted goal => simp
  | returned goal handle result => simp

/- On fresh messages every result rests on distinct ones. -/
theorem restsOnDistinct_of_fresh
    [IsStrictOrderedRing K]
    {h : List (Event K)}
    (hFresh : ActsOnFresh h)
    (hJustified : History.Each Justified h) :
    History.Each RestsOnDistinct h := by
  induction h with
  | nil => exact trivial
  | cons event earlier ih =>
      have hEarlier := hFresh.earlier
      refine ⟨?_, ih hEarlier hJustified.2⟩
      cases event with
      | returned goal handle result =>
          have hHere := hJustified.1
          exact
            ⟨fun hNone => restsOn_of_fresh hEarlier
                (hHere.1 hNone),
              fun hFound => restsOn_of_fresh hEarlier
                (hHere.2 hFound)⟩
      | started goal => exact trivial
      | received id => exact trivial
      | ticked t => exact trivial
      | cancelAccepted goal => exact trivial

end Evidence

------------------------------------------------------------
-- Every Run
------------------------------------------------------------

/-
  In every run, overlapping goals or not: all ticks act on
  fresh messages, so that results rest on distinct ones,
  exactly when no tick acts on a message before another has
  arrived since the last start and the last such tick.
-/
theorem fresh_iff_paced
    [Field K] [LinearOrder K] [IsStrictOrderedRing K]
    {trig : Trig K} {debugMode : Int}
    {is : List (Input K)} {s : Server K}
    (hRun : (machine trig).Run (Server.init debugMode) is s) :
    (ActsOnFresh s.history ∧
        History.Each RestsOnDistinct s.history) ↔
      Paced s.history := by
  have hHolds : Tracking s ∧ Numbered s ∧ Evidence s := by
    apply hRun.invariant
      (P := fun s => Tracking s ∧ Numbered s ∧ Evidence s)
    · exact ⟨.init debugMode, .init debugMode, .init debugMode⟩
    · intro t i u hHolds hEnabled hStep
      rcases hHolds with ⟨hTracking, hNumbered, hEvidence⟩
      exact
        ⟨hTracking.step hEnabled hStep, hNumbered.step hStep,
          hEvidence.step hTracking hEnabled hStep⟩
  rcases hHolds with ⟨_, hNumbered, hEvidence⟩
  rw [hNumbered.paced]
  constructor
  · intro hProperty
    exact hProperty.1
  · intro hFresh
    exact
      ⟨hFresh, restsOnDistinct_of_fresh hFresh
        hEvidence.justified⟩

/- A goal whose first tick acts on the message of `__init__`. -/
theorem first_tick_acts_on_default :
    ¬ ∀ (is : List (Input ℝ)) (s : Server ℝ),
      (machine Trig.real).Run (Server.init 0) is s →
        ActsOnFresh s.history ∧
          History.Each RestsOnDistinct s.history := by
  intro hClaim
  have hStart :
      (machine Trig.real).Run (Server.init 0) [.goal]
        (Server.init 0).goal :=
    .single trivial rfl
  have hTick :
      (machine Trig.real).Run (Server.init 0) [.goal, .timer]
        ((Server.init 0).goal.ticked
          (.silent (noBoxTick (Server.init 0).goal.node))) :=
    .snoc hStart trivial rfl
  have hHere := (hClaim _ _ hTick).1.1.1 rfl
  exact absurd hHere.1 (by decide)

/- A run in which the detector keeps pace with one tick. -/
theorem fresh_iff_paced_one_tick :
    ∃ (is : List (Input ℝ)) (s : Server ℝ),
      (machine Trig.real).Run (Server.init 0) is s ∧
        ((ActsOnFresh s.history ∧
            History.Each RestsOnDistinct s.history) ↔
          Paced s.history) ∧
        Paced s.history := by
  have hRun :
      (machine Trig.real).Run (Server.init 0)
        [.goal, .boundingBox .default, .timer]
        (((Server.init 0).goal.boundingBox .default).ticked
          (.silent (noBoxTick (Server.init 0).goal.node))) :=
    .snoc (.snoc (.single trivial rfl) trivial rfl) trivial rfl
  refine ⟨_, _, hRun, fresh_iff_paced hRun, ?_⟩
  exact ⟨fun _ => trivial, trivial, trivial, trivial⟩

end Approach

end Manipulator
