import Manipulator.Mission.World
import Manipulator.Scripting.Evaluate
import Manipulator.Scripting.Lexical

/-
  The conditions of the tree as the script engine sees them.

  A condition of the mission is a text, which is parsed and
  evaluated on the blackboard of the library. It answers what
  the mission reads off its own blackboard.

  Main declarations:
    * `Script.source`, `Script.parseScript_source`
    * `Shows`, `exec_condition`
-/

------------------------------------------------------------
-- Texts
------------------------------------------------------------

namespace Manipulator

namespace Mission

open Xml (Text singleQuote nul)
open Scripting (Lexes Tiles Expr parseScript tokenize)
open Effects (exec)

def labelKey : Text := ['l', 'a', 'b', 'e', 'l']

namespace Script

def label : Script → String
| .labelIs label => label
| .labelIsNot label => label

def operator : Script → Scripting.ComparisonOp
| .labelIs _ => .equal
| .labelIsNot _ => .notEqual

def operatorText : Script → Char × Char
| .labelIs _ => ('=', '=')
| .labelIsNot _ => ('!', '=')

/- The attribute `if`: the label between quotes. -/
def source (script : Script) : Text :=
  labelKey ++ ' ' :: ([script.operatorText.1,
    script.operatorText.2] ++ ' ' ::
      (singleQuote :: script.label.toList ++ [singleQuote] ++ []))

def expr (script : Script) : Expr :=
  .comparison (.name labelKey)
    [(script.operator,
      .literal (.ofString script.label.toList))]

def tokens (script : Script) : List Scripting.Token :=
  let n := script.label.toList.length
  let type := Scripting.matchTwoCharOp script.operatorText.1
    script.operatorText.2
  [⟨⟨.identifier, labelKey⟩, 0⟩,
    ⟨⟨type, [script.operatorText.1, script.operatorText.2]⟩, 6⟩,
    ⟨⟨.string, script.label.toList⟩, 9⟩,
    ⟨⟨.endOfInput, []⟩, 9 + (n + 2)⟩]

theorem lexes_label (rest : Text) :
    Lexes (' ' :: rest) ⟨.identifier, labelKey⟩ :=
  @Lexes.word _ 'l' ['a', 'b', 'e', 'l'] rfl
    (by simp [Scripting.isIdentChar])
    (Decimal.stops_cons rest rfl)

/- The text is made of the tokens. -/
theorem tiles_source
    {script : Script}
    (hQuote : singleQuote ∉ script.label.toList) :
    Tiles Lexes 0 script.source script.tokens := by
  have hBody : ∀ c ∈ script.label.toList,
      (c != singleQuote) = true := by
    intro c hMem
    have hOther : c ≠ singleQuote := by
      rintro rfl
      exact hQuote hMem
    simpa using hOther
  have hString :
      Tiles Lexes 9 (singleQuote :: script.label.toList ++
        [singleQuote] ++ [])
        [⟨⟨.string, script.label.toList⟩, 9⟩,
          ⟨⟨.endOfInput, []⟩,
            9 + (script.label.toList.length + 2)⟩] := by
    have hDone : Tiles Lexes
        (9 + (script.label.toList.length + 2)) []
        [⟨⟨.endOfInput, []⟩, _⟩] := .done
    refine .token (l := ⟨.string, script.label.toList⟩)
      (.string hBody) ?_
    have hLength : (Scripting.Lexeme.spelling
        ⟨.string, script.label.toList⟩).length =
          script.label.toList.length + 2 := by
      simp [Scripting.Lexeme.spelling]
    rw [hLength]
    exact hDone
  refine .token (l := ⟨.identifier, labelKey⟩)
    (lexes_label _) (.blank rfl ?_)
  cases script with
  | labelIs label =>
      exact .token (l := ⟨.equalEqual, ['=', '=']⟩)
        (.two (c := '=') (d := '=') (fun h => by cases h))
        (.blank rfl hString)
  | labelIsNot label =>
      exact .token (l := ⟨.bangEqual, ['!', '=']⟩)
        (.two (c := '!') (d := '=') (fun h => by cases h))
        (.blank rfl hString)

theorem parseScript_source
    (round : ℚ → Double ℚ) {script : Script}
    (hQuote : singleQuote ∉ script.label.toList) :
    parseScript round script.source = .ok (script.expr, []) := by
  have hTokens : tokenize script.source = script.tokens :=
    Scripting.tokenizeFrom_of_tiles le_rfl (tiles_source hQuote)
  have hParse : Scripting.parseStatements round script.source =
      .ok [script.expr] := by
    unfold Scripting.parseStatements
    rw [hTokens]
    cases script with
    | labelIs label => rfl
    | labelIsNot label => rfl
  rw [parseScript, hParse]

end Script

------------------------------------------------------------
-- Values
------------------------------------------------------------

/- What the blackboard of the library has under `label`. -/
def held : Option String → Scripting.Held
| some label => .string label.toList
| none => .empty

/- The two blackboards have the same label. -/
def Shows
    (bb : Scripting.Blackboard) (label : Option String) : Prop :=
  ∃ a entry, bb.getEntry labelKey = some a ∧
    bb.entryAt a.depth a.key = some entry ∧
      entry.value.held = held label

/- Texts without a NUL are compared whole. -/
theorem sameString_iff
    {a b : Text}
    (hNul : nul ∉ b) :
    Scripting.sameString a b = true ↔ a = b := by
  have hWhole : b.takeWhile (· != nul) = b := by
    rw [List.takeWhile_eq_self_iff]
    intro c hMem
    have hOther : c ≠ nul := by
      rintro rfl
      exact hNul hMem
    simpa using hOther
  unfold Scripting.sameString
  rw [hWhole]
  simp only [Bool.and_eq_true, decide_eq_true_eq]
  constructor
  · rintro ⟨hLength, hSame⟩
    have hPrefix := List.takeWhile_prefix (· != nul) (l := a)
    rw [hSame] at hPrefix
    exact (hPrefix.eq_of_length hLength.symm).symm
  · rintro rfl
    exact ⟨rfl, hWhole⟩

open Scripting (Any Environment evaluate evaluateLinks)

variable {round : ℚ → Double ℚ} {env : Environment}

theorem compare_empty
    {v : Any}
    (hHeld : v.held = .empty)
    (op : Scripting.ComparisonOp) (rhs : Any) :
    Scripting.compare round env op v rhs =
      .error (.notInitialized .left op.text) := by
  simp [Scripting.compare, Any.isEmpty, hHeld]

theorem compare_string
    {v : Any} {text : Text}
    (hHeld : v.held = .string text)
    (op : Scripting.ComparisonOp) (other : Text) :
    Scripting.compare round env op v (.ofString other) =
      .ok (Scripting.compareStrings op text other) := by
  simp [Scripting.compare, Any.isEmpty, Any.isNumber,
    Any.isString, Any.castString, Any.ofString, hHeld,
    Scripting.ofAny, mapError_ok, bind, Except.bind, pure,
    Except.pure]

theorem castBool_ofBool (b : Bool) :
    (Any.ofDouble (Double.ofBool b)).castBool = .ok b := by
  cases b with
  | false => rfl
  | true =>
      have hSign : ¬ (1 : ℚ) < 0 := not_lt.mpr zero_le_one
      simp [Any.castBool, Any.ofDouble, Double.ofBool,
        Double.one, Double.lt, Double.toBool, Double.value?,
        hSign]

/- One comparison of an evaluated operand. -/
theorem exec_evaluateLinks
    (op : Scripting.ComparisonOp) (v rhs : Any)
    (bb : Scripting.Blackboard) :
    exec (evaluateLinks round env v [(op, .literal rhs)]) bb =
      ((Scripting.compare round env op v rhs).map
        fun b => Any.ofDouble (Double.ofBool b), bb) := by
  rw [evaluateLinks, Effects.exec_bind, evaluate,
    Effects.exec_pure]
  simp only
  rw [Effects.exec_bind, Effects.exec_lift]
  cases Scripting.compare round env op v rhs with
  | error e => rfl
  | ok b =>
      cases b with
      | false => rfl
      | true =>
          simp only [if_true]
          rw [evaluateLinks]
          rfl

/- What a condition answers to a label. -/
def Script.answer (script : Script) (value : String) : Bool :=
  match script with
  | .labelIs label => decide (value = label)
  | .labelIsNot label => decide (value ≠ label)

theorem compareStrings_label
    (script : Script) (value : String)
    (hNul : nul ∉ script.label.toList) :
    Scripting.compareStrings script.operator value.toList
      script.label.toList = script.answer value := by
  cases script with
  | labelIs label =>
      rw [Bool.eq_iff_iff, Script.answer, decide_eq_true_iff,
        ← String.toList_inj]
      exact sameString_iff hNul
  | labelIsNot label =>
      rw [Bool.eq_iff_iff, Script.answer, decide_eq_true_iff,
        Ne, ← String.toList_inj]
      simpa [Scripting.compareStrings, Scripting.switchImpl,
        Script.operator, Script.label]
          using not_congr (sameString_iff hNul)

variable {K S : Type}

theorem executor_of_none
    (script : Script) {w : World K S}
    (hLabel : w.blackboard.label = none) :
    executor script w = .error .emptyEntry := by
  cases script with
  | labelIs label =>
      simp [executor, readLabel, hLabel, bind, Except.bind]
  | labelIsNot label =>
      simp [executor, readLabel, hLabel, bind, Except.bind]

theorem executor_of_some
    (script : Script) {w : World K S} {value : String}
    (hLabel : w.blackboard.label = some value) :
    executor script w =
      .ok (script.answer value, w.log (.readLabel value)) := by
  cases script with
  | labelIs label =>
      simp only [executor, readLabel, hLabel]
      rfl
  | labelIsNot label =>
      simp only [executor, readLabel, hLabel]
      rfl

/-
  A condition of the mission, as text, answers what the
  mission reads, and leaves the blackboard as it is. A label
  that was never written is an error in both.
-/
theorem exec_condition
    (round : ℚ → Double ℚ) (env : Scripting.Environment)
    (script : Script) (bb : Scripting.Blackboard)
    (w : World K S)
    (hQuote : singleQuote ∉ script.label.toList)
    (hNul : nul ∉ script.label.toList)
    (hEnum : env.enums labelKey = none)
    (hShows : Shows bb w.blackboard.label) :
    ∃ e es,
      parseScript round script.source = .ok (e, es) ∧
        exec (Scripting.condition round env e es) bb =
          match executor script w with
          | .ok (b, _) => (.ok b, bb)
          | .error _ =>
              (.error (.notInitialized .left
                script.operator.text), bb) := by
  refine ⟨script.expr, [],
    Script.parseScript_source round hQuote, ?_⟩
  rcases hShows with ⟨a, entry, hGet, hEntry, hHeld⟩
  have hName :
      exec (Scripting.evaluateName round env labelKey) bb =
        (.ok entry.value, bb) := by
    unfold Scripting.evaluateName
    rw [hEnum, Effects.exec_get_bind, hGet]
    simp only [Option.bind_some, hEntry]
    rfl
  have hRun :
      exec (Scripting.runScript round env script.expr []) bb =
        ((Scripting.compare round env script.operator
          entry.value (.ofString script.label.toList)).map
            fun b => Any.ofDouble (Double.ofBool b), bb) := by
    rw [Scripting.runScript, Script.expr, evaluate,
      Effects.exec_bind, evaluate, hName]
    exact exec_evaluateLinks _ _ _ bb
  rw [Scripting.condition, Effects.exec_bind, hRun]
  cases hLabel : w.blackboard.label with
  | none =>
      rw [hLabel] at hHeld
      rw [compare_empty hHeld, executor_of_none script hLabel]
      rfl
  | some value =>
      rw [hLabel] at hHeld
      rw [compare_string hHeld, compareStrings_label _ _ hNul,
        executor_of_some script hLabel]
      simp only [Except.map]
      rw [Effects.exec_lift, castBool_ofBool]
      rfl

/- A blackboard with the entry of the port `label`. -/
def labelled (value : Any) : Scripting.Blackboard :=
  .root {
    storage := fun key =>
      if key = labelKey then
        some ⟨value, ⟨.string, none⟩, 0⟩
      else
        none
    internalToExternal := fun _ => none
    autoremapping := false }

/- The world once a cola was found. -/
def foundCola : World ℚ Unit :=
  { World.init () with
    blackboard := { Blackboard.init with label := some "cola" } }

theorem exec_condition_of_cola :
    ∃ e es,
      parseScript (fun q => .nonzero q)
          (Script.labelIs "cola").source = .ok (e, es) ∧
        exec (Scripting.condition (fun q => .nonzero q)
          ⟨fun _ => none⟩ e es)
          (labelled (.ofString ['c', 'o', 'l', 'a'])) =
            match executor (.labelIs "cola") foundCola with
            | .ok (b, _) =>
                (.ok b, labelled (.ofString ['c', 'o', 'l', 'a']))
            | .error _ =>
                (.error (.notInitialized .left "=="),
                  labelled (.ofString ['c', 'o', 'l', 'a'])) :=
  exec_condition (fun q => .nonzero q) ⟨fun _ => none⟩
    (.labelIs "cola") (labelled (.ofString ['c', 'o', 'l', 'a']))
    foundCola (by decide) (by decide) rfl
    ⟨⟨0, labelKey⟩, _, rfl, rfl, rfl⟩

end Mission

end Manipulator
