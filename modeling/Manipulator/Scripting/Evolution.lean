import Manipulator.Scripting.Addressing
import Manipulator.Scripting.Evaluate

/-
  What scripts do to a blackboard.

  A script changes only the entries its assignments lead to,
  as they lead there before it starts. It never removes an
  entry and never changes what an entry was declared as. An
  entry counts its writes, modulo 2^64, and there is at most
  one for each assignment. This holds also of a script that
  throws.

  Main declarations:
    * `Expr.assignments`, `targets`, `Evolves`
    * `assign_kind`
    * `evolves_evaluate`, `evolves_runScript`
    * `evolves_afterScripts`
-/

------------------------------------------------------------
-- Kinds Of Values
------------------------------------------------------------

namespace Manipulator

namespace Scripting

open Xml (Text)
open Effects (exec lift throwIf Keeps KeepsFrom)

inductive Kind where
| empty
| number
| string
| custom (name : Text)
deriving DecidableEq

def Kind.of : TypeIndex → Kind
| .double => .number
| .int64 => .number
| .uint64 => .number
| .string => .string
| .custom name => .custom name
| _ => .empty

namespace Any

def kind (a : Any) : Kind := Kind.of a.held.type

theorem kind_eq_empty_iff (a : Any) :
    a.kind = .empty ↔ a.isEmpty = true := by
  unfold kind isEmpty
  cases a.held <;> simp [Held.type, Kind.of]

theorem kind_eq_number_iff (a : Any) :
    a.kind = .number ↔ a.isNumber = true := by
  unfold kind isNumber
  cases a.held <;> simp [Held.type, Kind.of]

/- A value that is there keeps its kind. -/
theorem kind_of_copyInto
    {round : ℚ → Double ℚ} {a dst result : Any}
    (hCopy : a.copyInto round dst = .ok result)
    (hDst : dst.isEmpty = false) : result.kind = dst.kind := by
  unfold copyInto at hCopy
  rw [if_neg (by simp [hDst])] at hCopy
  split at hCopy
  · next hType =>
      cases hCopy
      exact congrArg Kind.of hType
  · split at hCopy
    · next hNumbers =>
        have hNumber : dst.kind = .number := by
          rw [kind_eq_number_iff]
          simp only [Bool.and_eq_true] at hNumbers
          exact hNumbers.2
        have hResult {α : Type} (r : Except AnyError α)
            (f : α → Any) (hKind : ∀ x, (f x).kind = .number)
            (h : r.map f = .ok result) :
            result.kind = .number := by
          cases r with
          | error e => cases h
          | ok x =>
              cases h
              exact hKind x
        rw [hNumber]
        split at hCopy
        · exact hResult _ _ (fun _ => rfl) hCopy
        · exact hResult _ _ (fun _ => rfl) hCopy
        · exact hResult _ _ (fun _ => rfl) hCopy
    · cases hCopy

end Any

------------------------------------------------------------
-- Assigned Values
------------------------------------------------------------

variable {round : ℚ → Double ℚ} {env : Environment}

/- Where an entry has no converter, kinds do not change. -/
theorem assigned_kind
    {key : Text} {entry : Entry} {value result : Any}
    (hAssigned : assigned round env key entry value = .ok result)
    (hConverter : entry.info.converter = none)
    (hValue : entry.value.isEmpty = false) :
    result.kind = entry.value.kind := by
  simp only [assigned, hValue, hConverter] at hAssigned
  split at hAssigned
  · next hNever => simp at hNever
  · split at hAssigned
    · by_cases hNumber : entry.value.isNumber
      · simp only [hNumber, if_true, bind_eq_ok] at hAssigned
        rcases hAssigned with ⟨d, hDouble, hResult⟩
        cases hResult
        exact ((Any.kind_eq_number_iff _).mpr hNumber).symm
      · simp only [hNumber] at hAssigned
        cases hAssigned
    · exact Any.kind_of_copyInto
        (mapError_eq_ok.mp hAssigned) hValue

theorem accumulated_kind
    {op : BinaryOp} {entry : Entry} {value result : Any}
    (hAccumulated :
      accumulated round op entry value = .ok result)
    (hValue : entry.value.isEmpty = false) :
    result.kind = entry.value.kind := by
  have hCopied (a : Any)
      (hCopy : ofAny (a.copyInto round entry.value) =
        .ok result) : result.kind = entry.value.kind :=
    Any.kind_of_copyInto (mapError_eq_ok.mp hCopy) hValue
  simp only [accumulated] at hAccumulated
  split at hAccumulated
  · split at hAccumulated
    · simp only [bind_eq_ok] at hAccumulated
      rcases hAccumulated with ⟨lv, hLeft, rv, hRight, hCopy⟩
      exact hCopied _ hCopy
    · cases hAccumulated
  · split at hAccumulated
    · split at hAccumulated
      · rcases bind_eq_ok.mp hAccumulated with
          ⟨text, hText, hCopy⟩
        exact hCopied _ hCopy
      · cases hAccumulated
    · exact hCopied _ hAccumulated

theorem assign_kind
    {op : AssignmentOp} {key : Text} {entry : Entry}
    {value result : Any}
    (hAssign : assign round env op key entry value = .ok result)
    (hConverter : entry.info.converter = none)
    (hValue : entry.value.isEmpty = false) :
    result.kind = entry.value.kind := by
  unfold assign at hAssign
  split at hAssign
  · cases hAssign
  · split at hAssign
    · exact assigned_kind hAssign hConverter hValue
    · split at hAssign
      · cases hAssign
      · exact accumulated_kind hAssign hValue

------------------------------------------------------------
-- Evolution
------------------------------------------------------------

/- What may become of an entry in so many writes. -/
structure Entry.Evolves (writes : Nat) (e e' : Entry) : Prop
    where
  info : e'.info = e.info
  sequenceId : e'.sequenceId = e.sequenceId + .ofNat writes
  unwritten : writes = 0 → e' = e
  kind : e.info.converter = none → e.value.isEmpty = false →
    e'.value.kind = e.value.kind

namespace Entry.Evolves

theorem refl (e : Entry) : e.Evolves 0 e :=
  ⟨rfl, by simp, fun _ => rfl, fun _ _ => rfl⟩

theorem trans
    {e e' e'' : Entry} {writes writes' : Nat}
    (hFirst : e.Evolves writes e')
    (hSecond : e'.Evolves writes' e'') :
    e.Evolves (writes + writes') e'' where
  info := hSecond.info.trans hFirst.info
  sequenceId := by
    rw [hSecond.sequenceId, hFirst.sequenceId,
      UInt64.ofNat_add, UInt64.add_assoc]
  unwritten hNone := by
    rcases Nat.add_eq_zero_iff.mp hNone with ⟨hNone, hNone'⟩
    rw [hSecond.unwritten hNone', hFirst.unwritten hNone]
  kind hConverter hValue := by
    have hKind := hFirst.kind hConverter hValue
    have hStill : e'.value.isEmpty = false := by
      rw [← Bool.not_eq_true, ← Any.kind_eq_empty_iff, hKind,
        Any.kind_eq_empty_iff, hValue]
      exact Bool.false_ne_true
    rw [← hKind]
    exact hSecond.kind (hFirst.info ▸ hConverter) hStill

/- Few writes leave a trace, whatever the counter was. -/
theorem eq_of_sequenceId
    {e e' : Entry} {writes : Nat}
    (hEvolves : e.Evolves writes e')
    (hFew : writes < 2 ^ 64)
    (hSame : e'.sequenceId = e.sequenceId) : e' = e := by
  apply hEvolves.unwritten
  have hCount := hEvolves.sequenceId
  rw [hSame] at hCount
  have hZero := congrArg UInt64.toNat hCount
  rw [UInt64.toNat_add, UInt64.toNat_ofNat'] at hZero
  have hRange := e.sequenceId.toNat_lt
  omega

/- The counter goes up, as long as it has the room. -/
theorem toNat_sequenceId
    {e e' : Entry} {writes : Nat}
    (hEvolves : e.Evolves writes e')
    (hRoom : e.sequenceId.toNat + writes < 2 ^ 64) :
    e'.sequenceId.toNat = e.sequenceId.toNat + writes := by
  rw [hEvolves.sequenceId, UInt64.toNat_add,
    UInt64.toNat_ofNat']
  omega

end Entry.Evolves

/- The operators and names of assignments. -/
abbrev Assignments := List (AssignmentOp × Text)

/- The entries that assignments lead to. -/
def targets (assignments : Assignments) (bb : Blackboard) :
    Set Address :=
  { a | ∃ op key, (op, key) ∈ assignments ∧
    (bb.getEntry key = some a ∨
      bb.getEntry key = none ∧ op = .assignCreate ∧
        bb.target key = some a) }

/-
  What assignments may make of a blackboard, of which at most
  `bound` write an entry.
-/
structure Evolves
    (assignments : Assignments) (bound : Nat)
    (bb bb' : Blackboard) : Prop where
  bare : bb'.bare = bb.bare
  kept : ∀ d k e, bb.entryAt d k = some e →
    ∃ e' writes, bb'.entryAt d k = some e' ∧
      writes ≤ bound ∧ e.Evolves writes e'
  added : ∀ d k e', bb.entryAt d k = none →
    bb'.entryAt d k = some e' →
      e'.info = .anyTypeAllowed ∧ bb.externalAt d k = none
  elsewhere : ∀ d k, ⟨d, k⟩ ∉ targets assignments bb →
    bb'.entryAt d k = bb.entryAt d k

namespace Evolves

variable {assignments : Assignments} {bound bound' : Nat}
variable {bb bb' bb'' : Blackboard}

theorem grows (hEvolves : Evolves assignments bound bb bb') :
    bb.Grows bb' where
  bare := hEvolves.bare
  kept d k hEntry := by
    rcases Option.isSome_iff_exists.mp hEntry with ⟨e, hEq⟩
    rcases hEvolves.kept d k e hEq with ⟨e', _, hNow, _⟩
    rw [hNow]
    rfl
  added d k hEntry := by
    rcases Option.isSome_iff_exists.mp hEntry with ⟨e', hEq⟩
    cases hBefore : bb.entryAt d k with
    | some e => exact .inl rfl
    | none => exact .inr (hEvolves.added d k e' hBefore hEq).2

/- Assignments lead nowhere else than before. -/
theorem targets_subset
    (hEvolves : Evolves assignments bound bb bb') :
    targets assignments bb' ⊆ targets assignments bb := by
  rintro a ⟨op, key, hMem, hHere | ⟨hNone, hOp, hTarget⟩⟩
  · by_cases hEntry : (bb.entryAt a.depth a.key).isSome
    · exact ⟨op, key, hMem, .inl
        (hEvolves.grows.getEntry_of_isSome hHere hEntry)⟩
    · by_contra hNot
      rw [← hEvolves.elsewhere a.depth a.key hNot] at hEntry
      exact hEntry (Blackboard.isSome_getEntry hHere)
  · refine ⟨op, key, hMem, .inr ⟨?_, hOp, ?_⟩⟩
    · cases hBefore : bb.getEntry key with
      | none => rfl
      | some a' =>
          rw [hEvolves.grows.getEntry_eq hBefore] at hNone
          cases hNone
    · rw [← hEvolves.grows.target_eq]
      exact hTarget

theorem refl (bb : Blackboard) :
    Evolves assignments bound bb bb :=
  ⟨rfl,
    fun _ _ e hEq => ⟨e, 0, hEq, Nat.zero_le _, .refl e⟩,
    fun d k e' hNone hSome => by simp [hNone] at hSome,
    fun _ _ _ => rfl⟩

theorem trans
    (hFirst : Evolves assignments bound bb bb')
    (hSecond : Evolves assignments bound' bb' bb'') :
    Evolves assignments (bound + bound') bb bb'' where
  bare := hSecond.bare.trans hFirst.bare
  kept d k e hEq := by
    rcases hFirst.kept d k e hEq with
      ⟨e', writes, hEq', hBound, hEntry⟩
    rcases hSecond.kept d k e' hEq' with
      ⟨e'', writes', hEq'', hBound', hEntry'⟩
    exact ⟨e'', writes + writes', hEq'',
      Nat.add_le_add hBound hBound', hEntry.trans hEntry'⟩
  added d k e'' hNone hSome := by
    cases hBetween : bb'.entryAt d k with
    | none =>
        rcases hSecond.added d k e'' hBetween hSome with
          ⟨hInfo, hLocal⟩
        exact ⟨hInfo,
          Blackboard.externalAt_of_bare hFirst.bare d k ▸ hLocal⟩
    | some e' =>
        rcases hFirst.added d k e' hNone hBetween with
          ⟨hInfo, hLocal⟩
        rcases hSecond.kept d k e' hBetween with
          ⟨e, _, hSame, _, hEntry⟩
        rw [hSome] at hSame
        cases hSame
        exact ⟨hEntry.info.trans hInfo, hLocal⟩
  elsewhere d k hNot :=
    (hSecond.elsewhere d k
      fun h => hNot (hFirst.targets_subset h)).trans
        (hFirst.elsewhere d k hNot)

theorem mono
    {more : Assignments}
    (hEvolves : Evolves assignments bound bb bb')
    (hMore : assignments ⊆ more)
    (hBound : bound ≤ bound') : Evolves more bound' bb bb' where
  bare := hEvolves.bare
  kept d k e hEq := by
    rcases hEvolves.kept d k e hEq with
      ⟨e', writes, hEq', hWrites, hEntry⟩
    exact ⟨e', writes, hEq', hWrites.trans hBound, hEntry⟩
  added := hEvolves.added
  elsewhere d k hNot := by
    refine hEvolves.elsewhere d k ?_
    rintro ⟨op, key, hMem, hLeads⟩
    exact hNot ⟨op, key, hMore hMem, hLeads⟩

theorem le
    (hEvolves : Evolves assignments bound bb bb')
    (hBound : bound ≤ bound') : Evolves assignments bound' bb bb' :=
  hEvolves.mono (List.Subset.refl _) hBound

end Evolves

/- The parts of a program write at most so often each. -/
theorem evolves_bind
    {α β : Type} {assignments : Assignments}
    {bound bound' total : Nat}
    {m : ScriptM α} {f : α → ScriptM β}
    (hFirst : Keeps (Evolves assignments bound) m)
    (hNext : ∀ a, Keeps (Evolves assignments bound') (f a))
    (hTotal : bound + bound' ≤ total) :
    Keeps (Evolves assignments total) (m >>= f) :=
  hFirst.bind hNext
    (fun hBefore hAfter => (hBefore.trans hAfter).le hTotal)
    fun hBefore => hBefore.le (Nat.le_of_add_right_le hTotal)

instance {assignments : Assignments} {bound : Nat} :
    Std.Refl (Evolves assignments bound) := ⟨.refl⟩

------------------------------------------------------------
-- Steps Of An Assignment
------------------------------------------------------------

theorem evolves_of_added
    {op : AssignmentOp} {key : Text} {bb bb' : Blackboard}
    {a : Address}
    (hNone : bb.getEntry key = none)
    (hOp : op = .assignCreate)
    (hTarget : bb.target key = some a)
    (hAdded : Blackboard.Added .anyTypeAllowed bb a bb') :
    Evolves [(op, key)] 0 bb bb' where
  bare := hAdded.grows.bare
  kept d k e hEq := by
    refine ⟨e, 0, ?_, le_rfl, .refl e⟩
    rw [hAdded.entryAt, if_neg]
    · exact hEq
    · rintro ⟨rfl, rfl⟩
      rw [hAdded.absent] at hEq
      cases hEq
  added d k e' hBefore hNow := by
    rw [hAdded.entryAt] at hNow
    split at hNow
    · next hHere =>
        rcases hHere with ⟨rfl, rfl⟩
        cases hNow
        exact ⟨rfl, hAdded.local'⟩
    · rw [hBefore] at hNow
      cases hNow
  elsewhere d k hNot := by
    rw [hAdded.entryAt, if_neg]
    rintro ⟨rfl, rfl⟩
    exact hNot ⟨op, key, by simp, .inr ⟨hNone, hOp, hTarget⟩⟩

theorem evolves_entryOf (op : AssignmentOp) (key : Text) :
    Keeps (Evolves [(op, key)] 0) (entryOf op key) := by
  intro bb
  unfold entryOf
  rw [Effects.exec_get_bind]
  cases hGet : bb.getEntry key with
  | some a => exact .refl bb
  | none =>
      by_cases hOp : op = .assignCreate
      · rw [if_pos hOp]
        cases hCreate : bb.createEntry .anyTypeAllowed key with
        | error e => exact .refl bb
        | ok r =>
            rcases r with ⟨a, bb'⟩
            have hEvolves : Evolves [(op, key)] 0 bb bb' := by
              rcases Blackboard.createEntry_spec hCreate with
                ⟨hTarget, ⟨rfl, -⟩ | hAdded⟩
              · exact .refl bb'
              · exact evolves_of_added hGet hOp hTarget hAdded
            simp only [Effects.exec_set_bind]
            cases bb'.getEntry key with
            | some a' => exact hEvolves
            | none => exact hEvolves
      · rw [if_neg hOp]
        exact .refl bb

/- The name leads to the entry that is returned. -/
theorem getEntry_of_entryOf
    {op : AssignmentOp} {key : Text} {bb bb' : Blackboard}
    {a : Address}
    (hExec : exec (entryOf op key) bb = (.ok a, bb')) :
    bb'.getEntry key = some a := by
  unfold entryOf at hExec
  rw [Effects.exec_get_bind] at hExec
  cases hGet : bb.getEntry key with
  | some a' =>
      simp only [hGet, Effects.exec_pure] at hExec
      cases hExec
      exact hGet
  | none =>
      simp only [hGet] at hExec
      split at hExec
      · split at hExec
        · cases hExec
        · next hCreate =>
            simp only [Effects.exec_set_bind] at hExec
            split at hExec
            · next hNow =>
                cases hExec
                exact hNow
            · cases hExec
      · cases hExec

theorem evolves_write
    (op : AssignmentOp) (key : Text) (a : Address)
    (value : Any) :
    KeepsFrom (fun bb => bb.getEntry key = some a)
      (Evolves [(op, key)] 1) (write round env op key a value) := by
  intro bb hGet
  unfold write
  rw [Effects.exec_get_bind]
  cases hEntry : bb.entryAt a.depth a.key with
  | none => exact .refl bb
  | some entry =>
      simp only
      rw [Effects.exec_bind, Effects.exec_lift]
      cases hAssign : assign round env op key entry value with
      | error e => exact .refl bb
      | ok result =>
          simp only [Effects.exec_set_bind, Effects.exec_pure]
          have hBoard := bb.isSome_boardAt a.depth a.key
            (by rw [hEntry]; rfl)
          exact {
            bare := Blackboard.bare_put _ _ _ _
            kept := fun d k e hEq => by
              rw [Blackboard.entryAt_put _ _ _ _ hBoard]
              split
              · next hHere =>
                  rcases hHere with ⟨rfl, rfl⟩
                  rw [hEntry] at hEq
                  cases hEq
                  exact ⟨_, 1, rfl, le_rfl, rfl, rfl,
                    fun hNone => absurd hNone one_ne_zero,
                    assign_kind hAssign⟩
              · exact ⟨e, 0, hEq, Nat.zero_le _, .refl e⟩
            added := fun d k e' hBefore hNow => by
              rw [Blackboard.entryAt_put _ _ _ _ hBoard] at hNow
              split at hNow
              · next hHere =>
                  rcases hHere with ⟨rfl, rfl⟩
                  rw [hEntry] at hBefore
                  cases hBefore
              · rw [hBefore] at hNow
                cases hNow
            elsewhere := fun d k hNot => by
              rw [Blackboard.entryAt_put _ _ _ _ hBoard, if_neg]
              rintro ⟨rfl, rfl⟩
              exact hNot ⟨op, key, by simp, .inl hGet⟩ }

------------------------------------------------------------
-- Expressions And Scripts
------------------------------------------------------------

mutual

/- The assignments of an expression. -/
def Expr.assignments : Expr → Assignments
| .literal _ => []
| .name _ => []
| .unary _ rhs => rhs.assignments
| .binary lhs _ rhs => lhs.assignments ++ rhs.assignments
| .comparison first links =>
    first.assignments ++ linkAssignments links
| .ifElse condition thenExpr elseExpr =>
    condition.assignments ++
      (thenExpr.assignments ++ elseExpr.assignments)
| .assignment lhs op rhs =>
    match lhs with
    | .name key => (op, key) :: rhs.assignments
    | _ => []

def linkAssignments : List (ComparisonOp × Expr) → Assignments
| [] => []
| (_, operand) :: links =>
    operand.assignments ++ linkAssignments links

end

theorem evolves_evaluateName
    (assignments : Assignments) (name : Text) :
    Keeps (Evolves assignments 0)
      (evaluateName round env name) := by
  intro bb
  unfold evaluateName
  cases env.enums name with
  | some i => exact .refl bb
  | none =>
      rw [Effects.exec_bind, Effects.exec_get]
      simp only
      split
      · exact .refl bb
      · exact .refl bb

/-
  The entry of an assignment stays while the value is found,
  and is written once.
-/
theorem evolves_assignment
    {assignments : Assignments} {bound : Nat}
    {op : AssignmentOp} {key : Text} {value : ScriptM Any}
    (hMem : (op, key) ∈ assignments)
    (hValue : Keeps (Evolves assignments bound) value) :
    Keeps (Evolves assignments (bound + 1)) (do
      let a ← entryOf op key
      let v ← value
      write round env op key a v) := by
  have hMore : [(op, key)] ⊆ assignments := by simpa using hMem
  have hFound (a : Address) :
      KeepsFrom (fun bb => bb.getEntry key = some a)
        (Evolves assignments (bound + 1))
        (value >>= write round env op key a) := by
    refine KeepsFrom.bind (fun bb _ => hValue bb) ?_
      (fun v bb hGet =>
        (evolves_write op key a v bb hGet).mono hMore le_rfl)
      (fun hBefore hAfter => hBefore.trans hAfter)
      fun hBefore => hBefore.le (Nat.le_succ _)
    intro bb v bb' hGet hExec
    have hEvolves := hValue bb
    rw [hExec] at hEvolves
    exact hEvolves.grows.getEntry_eq hGet
  refine KeepsFrom.keeps (KeepsFrom.bind
    (fun bb _ => (evolves_entryOf op key bb).mono hMore le_rfl)
    ?_ hFound ?_ ?_)
  · exact fun bb a bb' _ hExec => getEntry_of_entryOf hExec
  · exact fun hBefore hAfter =>
      (hBefore.trans hAfter).le (Nat.zero_add _).le
  · exact fun hBefore => hBefore.le (Nat.zero_le _)

mutual

theorem evolves_evaluate
    (e : Expr) {assignments : Assignments}
    (hMore : e.assignments ⊆ assignments) :
    Keeps (Evolves assignments e.assignments.length)
      (evaluate round env e) := by
  cases e with
  | literal value =>
      rw [evaluate]
      exact Keeps.pure value
  | name name =>
      rw [evaluate]
      exact evolves_evaluateName assignments name
  | unary op rhs =>
      rw [evaluate]
      rw [Expr.assignments] at hMore ⊢
      exact evolves_bind (evolves_evaluate rhs hMore)
        (fun v => Keeps.lift _) (Nat.add_zero _).le
  | binary lhs op rhs =>
      rw [evaluate]
      rw [Expr.assignments, List.append_subset] at hMore
      rw [Expr.assignments, List.length_append]
      exact evolves_bind (evolves_evaluate lhs hMore.1)
        (fun l => evolves_bind (evolves_evaluate rhs hMore.2)
          (fun r => Keeps.lift _) (Nat.add_zero _).le) le_rfl
  | comparison first links =>
      rw [evaluate]
      rw [Expr.assignments, List.append_subset] at hMore
      rw [Expr.assignments, List.length_append]
      exact evolves_bind (evolves_evaluate first hMore.1)
        (fun l => evolves_evaluateLinks l links hMore.2) le_rfl
  | ifElse condition thenExpr elseExpr =>
      rw [evaluate]
      rw [Expr.assignments, List.append_subset,
        List.append_subset] at hMore
      rw [Expr.assignments, List.length_append,
        List.length_append]
      refine evolves_bind (evolves_evaluate condition hMore.1)
        (fun v => evolves_bind (Keeps.lift _) (fun d => ?_)
          (Nat.zero_add _).le) le_rfl
      -- one of the two branches is taken
      split
      · exact (evolves_evaluate thenExpr hMore.2.1).mono
          fun _ _ hEvolves => hEvolves.le (Nat.le_add_right _ _)
      · exact (evolves_evaluate elseExpr hMore.2.2).mono
          fun _ _ hEvolves => hEvolves.le (Nat.le_add_left _ _)
  | assignment lhs op rhs =>
      cases lhs with
      | name key =>
          rw [evaluate]
          rw [Expr.assignments, List.cons_subset] at hMore
          exact evolves_assignment hMore.1
            (evolves_evaluate rhs hMore.2)
      | _ =>
          rw [evaluate]
          · exact Keeps.throw _
          · rintro key hName
            cases hName

theorem evolves_evaluateLinks
    (lhs : Any) (links : List (ComparisonOp × Expr))
    {assignments : Assignments}
    (hMore : linkAssignments links ⊆ assignments) :
    Keeps (Evolves assignments (linkAssignments links).length)
      (evaluateLinks round env lhs links) := by
  cases links with
  | nil =>
      rw [evaluateLinks]
      exact Keeps.pure _
  | cons link links =>
      rcases link with ⟨op, operand⟩
      rw [evaluateLinks]
      rw [linkAssignments, List.append_subset] at hMore
      rw [linkAssignments, List.length_append]
      refine evolves_bind (evolves_evaluate operand hMore.1)
        (fun r => evolves_bind (Keeps.lift _) (fun holds => ?_)
          (Nat.zero_add _).le) le_rfl
      split
      · exact evolves_evaluateLinks r links hMore.2
      · exact Keeps.pure _

end

/- The assignments of a script. -/
def scriptAssignments (script : Expr × List Expr) :
    Assignments :=
  (script.1 :: script.2).flatMap Expr.assignments

theorem evolves_runScript
    (round : ℚ → Double ℚ) (env : Environment)
    (e : Expr) (es : List Expr) {assignments : Assignments}
    (hMore : scriptAssignments (e, es) ⊆ assignments) :
    Keeps
      (Evolves assignments (scriptAssignments (e, es)).length)
      (runScript round env e es) := by
  have hParts : e.assignments ⊆ assignments ∧
      es.flatMap Expr.assignments ⊆ assignments := by
    simpa [scriptAssignments] using hMore
  induction es generalizing e with
  | nil =>
      rw [runScript, scriptAssignments, List.flatMap_singleton]
      exact evolves_evaluate e hParts.1
  | cons e' es ih =>
      rw [runScript, scriptAssignments, List.flatMap_cons,
        List.length_append]
      exact evolves_bind (evolves_evaluate e hParts.1)
        (fun _ => ih e' hParts.2 (by simpa using hParts.2))
        le_rfl

/- The blackboard after scripts, whatever each of them did. -/
def afterScripts
    (round : ℚ → Double ℚ) (env : Environment)
    (scripts : List (Expr × List Expr))
    (bb : Blackboard) : Blackboard :=
  scripts.foldl
    (fun bb script =>
      (exec (runScript round env script.1 script.2) bb).2) bb

/- The assignments of several scripts. -/
def allAssignments (scripts : List (Expr × List Expr)) :
    Assignments :=
  scripts.flatMap scriptAssignments

theorem evolves_scripts
    (round : ℚ → Double ℚ) (env : Environment)
    (scripts : List (Expr × List Expr)) (bb : Blackboard) :
    Evolves (allAssignments scripts)
      (allAssignments scripts).length bb
      (afterScripts round env scripts bb) := by
  induction scripts generalizing bb with
  | nil => exact .refl bb
  | cons script scripts ih =>
      rw [allAssignments, List.flatMap_cons, List.length_append]
      have hFirst := evolves_runScript round env script.1 script.2
        (List.subset_append_left (scriptAssignments script)
          (scripts.flatMap scriptAssignments)) bb
      exact hFirst.trans
        ((ih _).mono (List.subset_append_right _ _) le_rfl)

/-
  In a run of scripts an entry that is there stays there, as
  it was declared. New entries are declared without a type.
  Where no assignment of the scripts leads, nothing changes.
  The counter of an entry shows every change if there are
  fewer than 2^64 assignments, and does not go down if it has
  the room for them.
-/
theorem evolves_afterScripts
    (round : ℚ → Double ℚ) (env : Environment)
    (scripts : List (Expr × List Expr)) (bb : Blackboard) :
    Evolves (allAssignments scripts)
        (allAssignments scripts).length bb
        (afterScripts round env scripts bb) ∧
      ∀ d k e e', bb.entryAt d k = some e →
        (afterScripts round env scripts bb).entryAt d k =
          some e' →
          ((allAssignments scripts).length < 2 ^ 64 →
              e'.sequenceId = e.sequenceId → e' = e) ∧
            (e.sequenceId.toNat + (allAssignments scripts).length <
                2 ^ 64 →
              e.sequenceId ≤ e'.sequenceId) := by
  have hEvolves := evolves_scripts round env scripts bb
  refine ⟨hEvolves, ?_⟩
  intro d k e e' hBefore hAfter
  rcases hEvolves.kept d k e hBefore with
    ⟨e'', writes, hEntry, hBound, hEvolved⟩
  rw [hAfter] at hEntry
  cases hEntry
  constructor
  · intro hFew
    exact hEvolved.eq_of_sequenceId (hBound.trans_lt hFew)
  · intro hRoom
    rw [UInt64.le_iff_toNat_le,
      hEvolved.toNat_sequenceId (by omega)]
    exact Nat.le_add_right _ _

/- A script without assignments leaves the blackboard. -/
theorem exec_runScript_of_pure
    (round : ℚ → Double ℚ) (env : Environment)
    (e : Expr) (es : List Expr) (bb : Blackboard)
    (hPure : scriptAssignments (e, es) = []) :
    (exec (runScript round env e es) bb).2 = bb := by
  have hEvolves := evolves_runScript round env e es
    (List.Subset.refl _) bb
  refine Blackboard.eq_of_bare hEvolves.bare
    fun d k => hEvolves.elsewhere d k ?_
  rintro ⟨op, key, hMem, -⟩
  rw [hPure] at hMem
  cases hMem

end Scripting

end Manipulator
