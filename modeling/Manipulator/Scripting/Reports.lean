import Manipulator.Scripting.Evolution

/-
  The check of the evaluator that reports a bug.

  After an entry was created it is looked up again, and a
  `LogicError` asks for a report when it is not found. It is
  found whenever no remapping leads to a key with `@`.

  Main declarations:
    * `avoids_entryOf`, `avoids_runScript`
    * `noReport_afterScripts`, `report_iff`
-/

------------------------------------------------------------
-- Errors Of Operators
------------------------------------------------------------

namespace Manipulator

namespace Scripting

open Xml (Text)
open Effects (exec lift Avoids)

/- A result that is not this report. -/
abbrev NoReport {α : Type} (r : Except ScriptError α) : Prop :=
  r ≠ .error .bug

namespace NoReport

variable {α β : Type}

theorem ok (a : α) : NoReport (.ok a) := nofun

theorem ofAny (r : Except AnyError α) : NoReport (ofAny r) := by
  cases r with
  | ok a => exact nofun
  | error e => exact nofun

theorem bind
    {r : Except ScriptError α} {f : α → Except ScriptError β}
    (hFirst : NoReport r)
    (hNext : ∀ a, NoReport (f a)) : NoReport (r >>= f) := by
  cases r with
  | ok a => exact hNext a
  | error e =>
      intro hError
      cases hError
      exact hFirst rfl

theorem mapError
    {E : Type} {f : E → ScriptError}
    (hOther : ∀ e, f e ≠ .bug)
    (r : Except E α) : NoReport (r.mapError f) := by
  cases r with
  | ok a => exact nofun
  | error e =>
      intro hError
      injection hError with hBug
      exact hOther e hBug

end NoReport

variable {round : ℚ → Double ℚ} {env : Environment}

theorem noReport_unaryArithmetic (op : UnaryOp) (rhs : Any) :
    NoReport (unaryArithmetic round op rhs) := by
  unfold unaryArithmetic
  split
  · refine (NoReport.ofAny _).bind fun rv => ?_
    cases op with
    | negate => exact nofun
    | complement =>
        simp only
        split
        · exact nofun
        · exact nofun
    | logicalNot => exact nofun
  · split
    · exact nofun
    · exact nofun

theorem noReport_castBoth
    {α : Type} {cast : Any → Except AnyError α}
    {e : ScriptError}
    (hOther : e ≠ .bug)
    (lhs rhs : Any) : NoReport (castBoth cast e lhs rhs) := by
  unfold castBoth
  split
  · exact nofun
  · intro hError
    injection hError with hBug
    exact hOther hBug

theorem noReport_concatenate (lhs rhs : Any) :
    NoReport (concatenate lhs rhs) :=
  (NoReport.ofAny _).bind fun _ =>
    (NoReport.ofAny _).bind fun _ => .ok _

theorem noReport_binaryNumbers
    (op : BinaryOp) (lhs rhs : Any) :
    NoReport (binaryNumbers round op lhs rhs) := by
  refine (NoReport.ofAny _).bind fun lv =>
    (NoReport.ofAny _).bind fun rv => ?_
  split
  · exact nofun
  · split
    · refine NoReport.bind (noReport_castBoth ?_ lhs rhs)
        fun _ => .ok _
      exact nofun
    · refine NoReport.bind (noReport_castBoth ?_ lhs rhs)
        fun _ => .ok _
      exact nofun
    · exact nofun

theorem noReport_binaryArithmetic
    (op : BinaryOp) (lhs rhs : Any) :
    NoReport (binaryArithmetic round op lhs rhs) := by
  unfold binaryArithmetic
  split
  · exact nofun
  · split
    · exact nofun
    · split
      · exact noReport_binaryNumbers op lhs rhs
      · split
        · exact noReport_concatenate lhs rhs
        · split
          · exact noReport_concatenate lhs rhs
          · exact nofun

theorem noReport_stringToDouble (value : Any) :
    NoReport (stringToDouble round env value) := by
  refine (NoReport.ofAny _).bind fun str => ?_
  split
  · exact nofun
  · split
    · exact nofun
    · split
      · exact nofun
      · exact NoReport.ofAny _

theorem noReport_compare
    (op : ComparisonOp) (lhs rhs : Any) :
    NoReport (compare round env op lhs rhs) := by
  have hBoth {α β : Type}
      {a b : Except ScriptError α} {f : α → α → β}
      (hLeft : NoReport a) (hRight : NoReport b) :
      NoReport (do
        let lv ← a
        let rv ← b
        return f lv rv) :=
    hLeft.bind fun _ => hRight.bind fun _ => .ok _
  unfold compare
  split
  · exact nofun
  · split
    · exact nofun
    · split
      · exact hBoth (.ofAny _) (.ofAny _)
      · split
        · exact hBoth (.ofAny _) (.ofAny _)
        · split
          · exact hBoth (noReport_stringToDouble lhs) (.ofAny _)
          · split
            · exact hBoth (.ofAny _)
                (noReport_stringToDouble rhs)
            · exact nofun

theorem noReport_assigned
    (key : Text) (entry : Entry) (value : Any) :
    NoReport (assigned round env key entry value) := by
  simp only [assigned]
  split
  · intro h
    cases h
  · split
    · split
      · exact (NoReport.ofAny _).bind fun _ =>
          NoReport.mapError (fun _ h => by cases h) _
      · split
        · exact (noReport_stringToDouble value).bind
            fun _ => .ok _
        · intro h
          cases h
    · exact NoReport.mapError (fun _ h => by cases h) _

theorem noReport_accumulated
    (op : BinaryOp) (entry : Entry) (value : Any) :
    NoReport (accumulated round op entry value) := by
  simp only [accumulated]
  split
  · split
    · exact (NoReport.ofAny _).bind fun _ =>
        (NoReport.ofAny _).bind fun _ => .ofAny _
    · intro h
      cases h
  · split
    · split
      · exact (noReport_concatenate _ value).bind
          fun _ => .ofAny _
      · intro h
        cases h
    · exact .ofAny _

theorem noReport_assign
    (op : AssignmentOp) (key : Text) (entry : Entry)
    (value : Any) :
    NoReport (assign round env op key entry value) := by
  unfold assign
  split
  · exact nofun
  · split
    · exact noReport_assigned key entry value
    · split
      · exact nofun
      · exact noReport_accumulated _ entry value

------------------------------------------------------------
-- Errors Of Expressions
------------------------------------------------------------

open Blackboard (LocalRemappings)

theorem localRemappings_of_evolves
    {assignments : Assignments} {bound : Nat}
    {bb bb' : Blackboard}
    (hEvolves : Evolves assignments bound bb bb')
    (hLocal : LocalRemappings bb) : LocalRemappings bb' :=
  hLocal.of_bare hEvolves.bare

theorem avoids_entryOf_of_localPath
    (op : AssignmentOp) (key : Text) :
    Avoids
      (fun bb =>
        Blackboard.isGlobal key = false →
          Blackboard.LocalPath bb key)
      .bug (entryOf op key) := by
  intro bb hLocal
  unfold entryOf
  rw [Effects.exec_get_bind]
  cases hGet : bb.getEntry key with
  | some a => exact nofun
  | none =>
      simp only
      split
      · cases hCreate : bb.createEntry .anyTypeAllowed key with
        | error e => cases e <;> exact nofun
        | ok r =>
            simp only [Effects.exec_set_bind]
            rw [Blackboard.getEntry_of_createEntry hLocal hCreate]
            exact nofun
      · exact nofun

theorem avoids_entryOf (op : AssignmentOp) (key : Text) :
    Avoids LocalRemappings .bug (entryOf op key) :=
  fun bb hLocal => avoids_entryOf_of_localPath op key bb
    hLocal.localPath

theorem avoids_write
    (op : AssignmentOp) (key : Text) (a : Address)
    (value : Any) :
    Avoids (fun bb => bb.getEntry key = some a) .bug
      (write round env op key a value) := by
  intro bb hGet
  have hEntry := Blackboard.isSome_getEntry hGet
  unfold write
  rw [Effects.exec_get_bind]
  cases hFound : bb.entryAt a.depth a.key with
  | none => rw [hFound] at hEntry; cases hEntry
  | some entry =>
      simp only
      rw [Effects.exec_bind, Effects.exec_lift]
      have hAssign :
          NoReport (assign round env op key entry value) :=
        noReport_assign op key entry value
      cases hResult : assign round env op key entry value with
      | ok result => exact nofun
      | error e =>
          rw [hResult] at hAssign
          exact hAssign

theorem avoids_evaluateName (name : Text) :
    Avoids LocalRemappings .bug
      (evaluateName round env name) := by
  intro bb hLocal
  unfold evaluateName
  cases env.enums name with
  | some i => exact nofun
  | none =>
      rw [Effects.exec_get_bind]
      split
      · exact nofun
      · exact nofun

theorem avoids_assignment
    {op : AssignmentOp} {key : Text} {rhs : Expr}
    (hValue :
      Avoids LocalRemappings .bug (evaluate round env rhs)) :
    Avoids LocalRemappings .bug
      (evaluate round env (.assignment (.name key) op rhs)) := by
  rw [evaluate]
  refine (avoids_entryOf op key).bind
    (Q := fun a bb =>
      LocalRemappings bb ∧ bb.getEntry key = some a) ?_ ?_
  · intro bb a bb' hLocal hExec
    have hEvolves := evolves_entryOf op key bb
    rw [hExec] at hEvolves
    exact ⟨localRemappings_of_evolves hEvolves hLocal,
      getEntry_of_entryOf hExec⟩
  · intro a
    refine Avoids.bind
      (Q := fun _ bb => bb.getEntry key = some a)
      (fun bb hBoth => hValue bb hBoth.1) ?_
      fun v => avoids_write op key a v
    intro bb v bb' hBoth hExec
    have hEvolves :
        Evolves _ _ bb (exec (evaluate round env rhs) bb).2 :=
      evolves_evaluate rhs (List.Subset.refl _) bb
    rw [hExec] at hEvolves
    exact hEvolves.grows.getEntry_eq hBoth.2

/- What runs after an expression runs on such a blackboard. -/
theorem avoids_after
    {e : Expr} {f : Any → ScriptM Any}
    (hFirst : Avoids LocalRemappings .bug (evaluate round env e))
    (hNext : ∀ v, Avoids LocalRemappings .bug (f v)) :
    Avoids LocalRemappings .bug (evaluate round env e >>= f) :=
  hFirst.bind_of_keeps
    (evolves_evaluate e (List.Subset.refl _))
    (fun _ _ => localRemappings_of_evolves) hNext

theorem avoids_lift_bind
    {α : Type} {r : Except ScriptError α} {f : α → ScriptM Any}
    (hResult : NoReport r)
    (hNext : ∀ v, Avoids LocalRemappings .bug (f v)) :
    Avoids LocalRemappings .bug (lift r >>= f) := by
  refine (Avoids.lift hResult).bind
    (Q := fun _ => LocalRemappings) ?_ hNext
  intro bb v bb' hLocal hExec
  rw [Effects.exec_lift] at hExec
  cases hExec
  exact hLocal

mutual

theorem avoids_evaluate (e : Expr) :
    Avoids LocalRemappings .bug (evaluate round env e) := by
  cases e with
  | literal value =>
      rw [evaluate]
      exact Avoids.pure value
  | name name =>
      rw [evaluate]
      exact avoids_evaluateName name
  | unary op rhs =>
      rw [evaluate]
      exact avoids_after (avoids_evaluate rhs) fun v =>
        Avoids.lift (noReport_unaryArithmetic op v)
  | binary lhs op rhs =>
      rw [evaluate]
      exact avoids_after (avoids_evaluate lhs) fun l =>
        avoids_after (avoids_evaluate rhs) fun r =>
          Avoids.lift (noReport_binaryArithmetic op l r)
  | comparison first links =>
      rw [evaluate]
      exact avoids_after (avoids_evaluate first) fun l =>
        avoids_evaluateLinks l links
  | ifElse condition thenExpr elseExpr =>
      rw [evaluate]
      refine avoids_after (avoids_evaluate condition) fun v =>
        avoids_lift_bind (NoReport.ofAny _) fun d => ?_
      split
      · exact avoids_evaluate thenExpr
      · exact avoids_evaluate elseExpr
  | assignment lhs op rhs =>
      cases lhs with
      | name key => exact avoids_assignment (avoids_evaluate rhs)
      | _ =>
          rw [evaluate]
          · exact fun _ _ => nofun
          · rintro key hName
            cases hName

theorem avoids_evaluateLinks
    (lhs : Any) (links : List (ComparisonOp × Expr)) :
    Avoids LocalRemappings .bug
      (evaluateLinks round env lhs links) := by
  cases links with
  | nil =>
      rw [evaluateLinks]
      exact Avoids.pure _
  | cons link links =>
      rcases link with ⟨op, operand⟩
      rw [evaluateLinks]
      refine avoids_after (avoids_evaluate operand) fun r =>
        avoids_lift_bind (noReport_compare op lhs r)
          fun holds => ?_
      split
      · exact avoids_evaluateLinks r links
      · exact Avoids.pure _

end

theorem avoids_runScript (e : Expr) (es : List Expr) :
    Avoids LocalRemappings .bug (runScript round env e es) := by
  induction es generalizing e with
  | nil =>
      rw [runScript]
      exact avoids_evaluate e
  | cons e' es ih =>
      rw [runScript]
      exact avoids_after (avoids_evaluate e) fun _ => ih e'

------------------------------------------------------------
-- Reports
------------------------------------------------------------

/- However often scripts ran before, no report is made. -/
theorem noReport_afterScripts
    (round : ℚ → Double ℚ) (env : Environment)
    (scripts : List (Expr × List Expr))
    (e : Expr) (es : List Expr)
    (bb : Blackboard)
    (hLocal : LocalRemappings bb) :
    (exec (runScript round env e es)
      (afterScripts round env scripts bb)).1 ≠ .error .bug :=
  avoids_runScript e es _ (localRemappings_of_evolves
    (evolves_scripts round env scripts bb) hLocal)

/- A board without entries, with one remapping. -/
def remapped (key external : Text) : Board where
  storage _ := none
  internalToExternal k := if k = key then some external else none
  autoremapping := false

/- A board without entries. -/
def fresh : Board where
  storage _ := none
  internalToExternal _ := none
  autoremapping := false

theorem localRemappings_remapped
    {key external : Text}
    (hOther : Blackboard.isGlobal external = false) :
    LocalRemappings
      (.child (remapped key external) (.root fresh)) := by
  intro depth b k e hBoard hMapped
  match depth with
  | 0 =>
      cases hBoard
      simp only [remapped] at hMapped
      split at hMapped
      · cases hMapped
        exact hOther
      · cases hMapped
  | 1 =>
      cases hBoard
      cases hMapped

/- The script `x := y := true` where `x` is an entry above. -/
theorem noReport_afterScripts_of_remapped :
    (exec (runScript (fun q => .nonzero q) ⟨fun _ => none⟩
      (.assignment (.name ['x']) .assignCreate
        (.assignment (.name ['y']) .assignCreate
          (.literal (.ofDouble Double.one)))) [])
      (afterScripts (fun q => .nonzero q) ⟨fun _ => none⟩ []
        (.child (remapped ['x'] ['z']) (.root fresh)))).1 ≠
          .error .bug :=
  noReport_afterScripts _ _ _ _ _ _
    (localRemappings_remapped rfl)

/- An entry of the root under a key with `@` is not found. -/
theorem getEntry_root_update
    {r : Board} {name : Text} (entry : Entry)
    (hNew : (Blackboard.root r).getEntry ('@' :: name) = none) :
    (Blackboard.root (r.update ('@' :: name) entry)).getEntry
      ('@' :: name) = none := by
  have hOther : ('@' :: name).dropWhile (· == '@') ≠
      '@' :: name := by
    intro hSame
    have hLength := congrArg List.length hSame
    have hShort := List.length_dropWhile_le (· == '@') name
    simp at hLength
    omega
  simp only [Blackboard.getEntry, Board.update,
    Function.update_of_ne hOther] at hNew ⊢
  exact hNew

/-
  A new name of a subtree of the main tree. It is reported
  exactly when the port is remapped to an entry of the root
  with `@`.
-/
theorem report_iff
    (b r : Board) (key : Text)
    (hRoot : ∀ k, r.externalKey k = none)
    (hKey : Blackboard.isGlobal key = false)
    (hNew : (Blackboard.child b (.root r)).getEntry key = none) :
    (exec (entryOf .assignCreate key) (.child b (.root r))).1 =
        .error .bug ↔
      ∃ name, b.externalKey key = some ('@' :: name) := by
  constructor
  · intro hReport
    by_contra hNo
    refine avoids_entryOf_of_localPath .assignCreate key _ ?_
      hReport
    intro _ external hExternal
    refine ⟨?_, trivial⟩
    cases external with
    | nil => rfl
    | cons c name =>
        have hOther : c ≠ '@' := by
          rintro rfl
          exact hNo ⟨name, hExternal⟩
        simpa [Blackboard.isGlobal] using hOther
  · rintro ⟨name, hExternal⟩
    have hLookup := hNew
    unfold Blackboard.getEntry at hLookup
    rw [if_neg (by simp [hKey])] at hLookup
    split at hLookup
    · cases hLookup
    · next hStored =>
        have hAbove :
            (Blackboard.root r).getEntry ('@' :: name) =
              none := by
          simpa [hExternal] using hLookup
        have hStill (r' : Board)
            (hLost : (Blackboard.root r').getEntry
              ('@' :: name) = none) :
            (Blackboard.child b (.root r')).getEntry key =
              none := by
          unfold Blackboard.getEntry
          rw [if_neg (by simp [hKey]), if_neg hStored]
          simp [hExternal, hLost]
        unfold entryOf
        rw [Effects.exec_get_bind, hNew]
        simp only [if_true]
        have hAbsent : b.storage key = none := by
          simpa using hStored
        cases hAt : r.storage ('@' :: name) with
        | some entry =>
            have hCreate : Blackboard.createEntry .anyTypeAllowed
                (.child b (.root r)) key =
                  .ok (⟨1, '@' :: name⟩, .child b (.root r)) := by
              simp [Blackboard.createEntry, hKey,
                Blackboard.createEntryImpl, hAbsent, hExternal,
                hAt, Blackboard.checkType_anyTypeAllowed]
              rfl
            rw [hCreate]
            simp only [Effects.exec_set_bind]
            rw [hStill r hAbove]
            rfl
        | none =>
            have hCreate : Blackboard.createEntry .anyTypeAllowed
                (.child b (.root r)) key =
                  .ok (⟨1, '@' :: name⟩, .child b (.root
                    (r.update ('@' :: name)
                      (.new .anyTypeAllowed)))) := by
              simp [Blackboard.createEntry, hKey,
                Blackboard.createEntryImpl, hAbsent, hExternal,
                hAt, hRoot]
              rfl
            rw [hCreate]
            simp only [Effects.exec_set_bind]
            rw [hStill _ (getEntry_root_update _ hAbove)]
            rfl

theorem report_iff_of_remapped :
    (exec (entryOf .assignCreate ['x'])
      (.child (remapped ['x'] ['@', 'y']) (.root fresh))).1 =
        .error .bug ↔
      ∃ name, (remapped ['x'] ['@', 'y']).externalKey ['x'] =
        some ('@' :: name) :=
  report_iff _ _ _ (fun _ => rfl) rfl rfl

end Scripting

end Manipulator
