import Manipulator.Decimal
import Manipulator.Scripting.Token

/-
  The lexical grammar of scripts.

  `Lexes rest l` says what the lexeme `l` looks like, and
  what may follow it. `scanToken` reads the lexemes of the
  grammar and flags everything else as an error, and so
  `tokenize` agrees with the grammar on whole sources.

  Main declarations:
    * `Lexes`, `scanToken_eq_iff`
    * `Spells`, `tokenize_eq_iff`
    * `Layout`, `tokenize_layout`
-/

------------------------------------------------------------
-- Runs Of Characters
------------------------------------------------------------

namespace Manipulator

namespace Scripting

open Xml (Text singleQuote)
open Decimal

variable {p q rest : Text} {kind : Char → Bool}

theorem startsWith_eq_false_iff :
    startsWith kind p = false ↔ Stops kind p := by
  cases p with
  | nil => simp [startsWith, Stops]
  | cons c p => simp [startsWith, Stops]

theorem startsWith_eq_true_iff :
    startsWith kind p = true ↔ ∃ c q, p = c :: q ∧ kind c = true := by
  cases p with
  | nil => simp [startsWith]
  | cons c p => simp [startsWith]

/- What `dropWhile` reads is a run that stops. -/
theorem exists_run
    (kind : Char → Bool) (p : Text) :
    ∃ run, (∀ c ∈ run, kind c = true) ∧
      Stops kind (p.dropWhile kind) ∧
        p = run ++ p.dropWhile kind := by
  refine ⟨p.takeWhile kind, ?_, ?_, ?_⟩
  · intro c hc
    exact List.mem_takeWhile_imp hc
  · intro c hc
    have hHead := List.head?_dropWhile_not kind p
    rw [Option.mem_def.mp hc] at hHead
    simpa using hHead
  · exact List.takeWhile_append_dropWhile.symm

/- The run has a character when the text starts with one. -/
theorem exists_run_of_startsWith
    (hStarts : startsWith kind p = true) :
    ∃ run, run ≠ [] ∧ (∀ c ∈ run, kind c = true) ∧
      Stops kind (p.dropWhile kind) ∧
        p = run ++ p.dropWhile kind := by
  rcases exists_run kind p with ⟨run, hRun, hStops, hText⟩
  refine ⟨run, ?_, hRun, hStops, hText⟩
  rintro rfl
  rw [List.nil_append] at hText
  rw [← hText, ← startsWith_eq_false_iff, hStarts] at hStops
  cases hStops

theorem startsWith_append
    {run : Text}
    (hRun : ∀ c ∈ run, kind c = true)
    (hSome : run ≠ []) :
    startsWith kind (run ++ rest) = true := by
  cases run with
  | nil => exact absurd rfl hSome
  | cons c run => exact hRun c List.mem_cons_self

theorem consumed_append (p q : Text) :
    consumed (p ++ q) q = p := by
  simp [consumed]

/- What was read and what is left are the text. -/
theorem consumed_append_of_isSuffix
    (hSuffix : q <:+ p) : consumed p q ++ q = p := by
  rcases hSuffix with ⟨run, rfl⟩
  rw [consumed_append]

------------------------------------------------------------
-- The Lexical Grammar
------------------------------------------------------------

/- Digits, with a fraction or an exponent. -/
structure IsReal (l : Literal) : Prop where
  sign : l.sign = .none
  whole : l.whole ≠ []
  fraction : ∀ digits ∈ l.fraction, digits ≠ []
  marked : l.fraction ≠ none ∨ l.exponent ≠ none

/- No number goes on with such a character. -/
def endsNumber (c : Char) : Bool :=
  c.isDigit || isIdentStart c

/-
  The lexemes, with what may follow them: what would make
  them longer, or an error, may not.
-/
inductive Lexes (rest : Text) : Lexeme → Prop
| string
    {body : Text}
    (hBody : ∀ c ∈ body, (c != singleQuote) = true) :
    Lexes rest ⟨.string, body⟩
| word
    {c : Char} {run : Text}
    (hStart : isIdentStart c = true)
    (hRun : ∀ d ∈ run, isIdentChar d = true)
    (hStops : Stops isIdentChar rest) :
    Lexes rest ⟨wordType (c :: run), c :: run⟩
| hexadecimal
    {x : Char} {digits : Text}
    (hMarker : x = 'x' ∨ x = 'X')
    (hDigits : ∀ c ∈ digits, isHexDigit c = true)
    (hSome : digits ≠ [])
    (hStops : Stops (fun c => c == '.' || isIdentChar c) rest) :
    Lexes rest ⟨.integer, '0' :: x :: digits⟩
| decimal
    {digits : Text}
    (hDigits : ∀ c ∈ digits, c.isDigit = true)
    (hSome : digits ≠ [])
    (hStops : Stops endsNumber rest)
    (hPoint :
      ∀ q, rest = '.' :: q → startsWith (· == '.') q = true) :
    Lexes rest ⟨.integer, digits⟩
| real
    {l : Literal}
    (hReal : IsReal l)
    (hStops : Stops endsNumber rest) :
    Lexes rest ⟨.real, l.unsigned⟩
| two
    {c d : Char}
    (hOperator : matchTwoCharOp c d ≠ .error) :
    Lexes rest ⟨matchTwoCharOp c d, [c, d]⟩
| one
    {c : Char}
    (hOperator : matchSingleCharOp c ≠ .error)
    (hAlone : ∀ d ∈ rest.head?, matchTwoCharOp c d = .error) :
    Lexes rest ⟨matchSingleCharOp c, [c]⟩

------------------------------------------------------------
-- Decimal Numbers
------------------------------------------------------------

/- A fraction that is no error. -/
theorem of_scanFraction
    {result : NumberResult}
    (hScan : scanFraction p = (result, q))
    (hGood : result.hasError = false) :
    (result = ⟨false, false⟩ ∧ q = p ∧
        ∀ q', p = '.' :: q' → startsWith (· == '.') q' = true) ∨
      (result = ⟨true, false⟩ ∧
        ∃ digits, digits ≠ [] ∧
          (∀ c ∈ digits, c.isDigit = true) ∧
            Stops Char.isDigit q ∧ p = '.' :: (digits ++ q)) := by
  unfold scanFraction at hScan
  split at hScan
  · rename_i q'
    split_ifs at hScan with hTwo hDigit
    · cases hScan
      refine .inl ⟨rfl, rfl, ?_⟩
      intro r hr
      cases hr
      exact hTwo
    · cases hScan
      rcases exists_run_of_startsWith hDigit with
        ⟨run, hSome, hRun, hStops, hText⟩
      refine .inr ⟨rfl, run, hSome, hRun, hStops, ?_⟩
      rw [← hText]
    · cases hScan
      cases hGood
  · rename_i hPoint
    cases hScan
    exact .inl ⟨rfl, rfl, fun q' hq' => absurd hq' (hPoint q')⟩

theorem scanFraction_fraction
    {digits : Text}
    (hDigits : ∀ c ∈ digits, c.isDigit = true)
    (hSome : digits ≠ [])
    (hStops : Stops Char.isDigit rest) :
    scanFraction ('.' :: (digits ++ rest)) =
      (⟨true, false⟩, rest) := by
  have hPoint :
      startsWith (· == '.') (digits ++ rest) = false := by
    rw [startsWith_eq_false_iff]
    cases digits with
    | nil => exact absurd rfl hSome
    | cons d digits =>
        apply stops_cons
        have hDigit := hDigits d List.mem_cons_self
        by_contra hDot
        rw [Bool.not_eq_false, beq_iff_eq] at hDot
        subst hDot
        cases hDigit
  simp only [scanFraction, hPoint, Bool.false_eq_true, if_false,
    startsWith_append hDigits hSome, if_true,
    dropWhile_run hDigits hStops]

theorem scanFraction_none
    (hPoint :
      ∀ q, p = '.' :: q → startsWith (· == '.') q = true) :
    scanFraction p = (⟨false, false⟩, p) := by
  unfold scanFraction
  split
  · rename_i q
    rw [if_pos (hPoint q rfl)]
  · rfl

/- The sign of an exponent. -/
theorem exists_sign (p : Text) :
    ∃ sign : Sign, p = sign.text ++ skipSign p := by
  unfold skipSign
  split
  · exact ⟨.plus, rfl⟩
  · exact ⟨.minus, rfl⟩
  · exact ⟨.none, rfl⟩

theorem skipSign_text
    (sign : Sign)
    (hStarts : startsWith Char.isDigit p = true) :
    skipSign (sign.text ++ p) = p := by
  rcases startsWith_eq_true_iff.mp hStarts with
    ⟨c, q, rfl, hDigit⟩
  cases sign with
  | plus => rfl
  | minus => rfl
  | none =>
      rw [Sign.text, List.nil_append]
      unfold skipSign
      split
      · rename_i h
        cases h
        cases hDigit
      · rename_i h
        cases h
        cases hDigit
      · rfl

/- An exponent that is no error. -/
theorem of_scanExponent
    {before result : NumberResult}
    (hScan : scanExponent before p = (result, q))
    (hGood : result.hasError = false) :
    before.hasError = false ∧
      ((result = before ∧ q = p) ∨
        (result = ⟨true, false⟩ ∧
          ∃ e : Exponent, Stops Char.isDigit q ∧
            p = e.text ++ q)) := by
  unfold scanExponent at hScan
  dsimp only at hScan
  split_ifs at hScan with hMarker hDigit
  · cases hScan
    rw [Bool.and_eq_true] at hMarker
    rcases startsWith_eq_true_iff.mp hMarker.2 with
      ⟨c, tail, rfl, hc⟩
    rcases exists_run_of_startsWith hDigit with
      ⟨digits, hSome, hDigits, hStops, hText⟩
    rcases exists_sign tail with ⟨sign, hSign⟩
    have hLetter : c = 'e' ∨ c = 'E' := by simpa using hc
    refine ⟨by simpa using hMarker.1, .inr ⟨rfl, ?_⟩⟩
    refine
      ⟨⟨c, sign, digits, hLetter, hDigits, hSome⟩, hStops, ?_⟩
    rw [List.tail_cons] at hText ⊢
    rw [Exponent.text, List.cons_append, List.append_assoc,
      ← hText, ← hSign]
  · cases hScan
    cases hGood
  · cases hScan
    exact ⟨hGood, .inl ⟨rfl, rfl⟩⟩

theorem scanExponent_text
    (before : NumberResult)
    (hBefore : before.hasError = false)
    (e : Exponent)
    (hStops : Stops Char.isDigit rest) :
    scanExponent before (e.text ++ rest) =
      (⟨true, false⟩, rest) := by
  have hDigits :
      startsWith Char.isDigit (e.digits ++ rest) = true :=
    startsWith_append e.hDigits e.hSome
  have hMarker :
      startsWith (fun c => c == 'e' || c == 'E')
        (e.text ++ rest) = true := by
    simpa [Exponent.text, startsWith] using e.hMarker
  have hTail :
      (e.text ++ rest).tail =
        e.sign.text ++ (e.digits ++ rest) := by
    simp [Exponent.text]
  simp only [scanExponent, hBefore, hMarker, hTail,
    skipSign_text e.sign hDigits, hDigits, Bool.not_false,
    Bool.and_self, if_true, dropWhile_run e.hDigits hStops]

theorem scanExponent_none
    (before : NumberResult)
    (hStops : Stops isIdentStart p) :
    scanExponent before p = (before, p) := by
  have hMarker :
      startsWith (fun c => c == 'e' || c == 'E') p = false := by
    rw [startsWith_eq_false_iff]
    refine hStops.mono ?_
    intro c hc
    rw [Bool.or_eq_true, beq_iff_eq, beq_iff_eq] at hc
    rcases hc with rfl | rfl
    · rfl
    · rfl
  simp [scanExponent, hMarker]

theorem of_scanTrailing
    {before result : NumberResult}
    (hScan : scanTrailing before p = (result, q))
    (hGood : result.hasError = false) :
    result = before ∧ q = p ∧ Stops isIdentStart p := by
  unfold scanTrailing at hScan
  split_ifs at hScan with hTrailing
  · cases hScan
    cases hGood
  · cases hScan
    refine ⟨rfl, rfl, ?_⟩
    rw [← startsWith_eq_false_iff]
    simpa [hGood] using hTrailing

theorem scanTrailing_none
    (before : NumberResult)
    (hStops : Stops isIdentStart p) :
    scanTrailing before p = (before, p) := by
  rw [← startsWith_eq_false_iff] at hStops
  simp [scanTrailing, hStops]

theorem stops_endsNumber
    (hDigit : Stops Char.isDigit p)
    (hStart : Stops isIdentStart p) : Stops endsNumber p := by
  intro c hc
  rw [endsNumber, hDigit c hc, hStart c hc]
  rfl

theorem stops_isDigit
    (hStops : Stops endsNumber p) : Stops Char.isDigit p := by
  refine hStops.mono ?_
  intro c hc
  rw [endsNumber, hc]
  rfl

theorem stops_isIdentStart
    (hStops : Stops endsNumber p) : Stops isIdentStart p := by
  refine hStops.mono ?_
  intro c hc
  rw [endsNumber, hc, Bool.or_true]

/- A decimal number that is no error. -/
theorem of_scanDecimalNumber
    {result : NumberResult}
    (hStarts : startsWith Char.isDigit p = true)
    (hScan : scanDecimalNumber p = (result, q))
    (hGood : result.hasError = false) :
    ∃ text, p = text ++ q ∧
      Lexes q ⟨numberType result, text⟩ := by
  rcases exists_run_of_startsWith hStarts with
    ⟨whole, hSome, hWhole, hWholeStops, hText⟩
  rcases hFraction : scanFraction (p.dropWhile Char.isDigit)
    with ⟨r₁, p₁⟩
  rcases hExponent : scanExponent r₁ p₁ with ⟨r₂, p₂⟩
  simp only [scanDecimalNumber, hFraction, hExponent] at hScan
  rcases of_scanTrailing hScan hGood with ⟨rfl, rfl, hStart⟩
  rcases of_scanExponent hExponent hGood with ⟨hGood₁, hLast⟩
  rcases of_scanFraction hFraction hGood₁ with
    ⟨rfl, rfl, hPoint⟩ |
      ⟨rfl, digits, hDigitsSome, hDigits, hStops, hFractionText⟩
  · rcases hLast with ⟨rfl, rfl⟩ | ⟨rfl, e, hStops, hMarked⟩
    · refine ⟨whole, hText, .decimal hWhole hSome ?_ hPoint⟩
      exact stops_endsNumber hWholeStops hStart
    · refine ⟨whole ++ e.text, ?_, ?_⟩
      · rw [List.append_assoc, ← hMarked]
        exact hText
      · exact
          .real (l := ⟨.none, whole, none, some e, hWhole,
              by simp, by simpa using hSome⟩)
            ⟨rfl, hSome, by simp, by simp⟩
            (stops_endsNumber hStops hStart)
  · have hRuns :
        ∀ ds ∈ some digits, ∀ c ∈ ds, c.isDigit = true := by
      intro ds hds
      cases hds
      exact hDigits
    have hRunsSome : ∀ ds ∈ some digits, ds ≠ [] := by
      intro ds hds
      cases hds
      exact hDigitsSome
    rcases hLast with ⟨rfl, rfl⟩ | ⟨rfl, e, hStops, hMarked⟩
    · refine ⟨whole ++ '.' :: digits, ?_, ?_⟩
      · rw [hText, hFractionText]
        simp
      · have hLexes : Lexes q ⟨.real, _⟩ :=
          .real (l := ⟨.none, whole, some digits, none, hWhole,
              hRuns, by simp [hSome]⟩)
            ⟨rfl, hSome, hRunsSome, by simp⟩
            (stops_endsNumber hStops hStart)
        simpa [Literal.unsigned, Literal.pointed,
          Literal.marked, numberType] using hLexes
    · refine ⟨whole ++ '.' :: (digits ++ e.text), ?_, ?_⟩
      · rw [hText, hFractionText, hMarked]
        simp
      · exact
          .real (l := ⟨.none, whole, some digits, some e, hWhole,
              hRuns, by simp [hSome]⟩)
            ⟨rfl, hSome, hRunsSome, by simp⟩
            (stops_endsNumber hStops hStart)

/- Digits alone are an integer. -/
theorem scanDecimalNumber_digits
    {digits : Text}
    (hDigits : ∀ c ∈ digits, c.isDigit = true)
    (hStops : Stops endsNumber rest)
    (hPoint :
      ∀ q, rest = '.' :: q → startsWith (· == '.') q = true) :
    scanDecimalNumber (digits ++ rest) =
      (⟨false, false⟩, rest) := by
  have hStart := stops_isIdentStart hStops
  simp only [scanDecimalNumber,
    dropWhile_run hDigits (stops_isDigit hStops),
    scanFraction_none hPoint, scanExponent_none _ hStart,
    scanTrailing_none _ hStart]

/- No marker and no point is a digit. -/
theorem stops_isDigit_marked
    (e : Option Exponent)
    (hStops : Stops endsNumber rest) :
    Stops Char.isDigit (Literal.marked e ++ rest) :=
  stops_append (stops_marked _ (by decide) e)
    (stops_isDigit hStops)

/- A fraction or an exponent makes a real number. -/
theorem scanDecimalNumber_unsigned
    {l : Literal}
    (hReal : IsReal l)
    (hStops : Stops endsNumber rest) :
    scanDecimalNumber (l.unsigned ++ rest) =
      (⟨true, false⟩, rest) := by
  have hStart := stops_isIdentStart hStops
  have hWhole :
      (l.unsigned ++ rest).dropWhile Char.isDigit =
        Literal.pointed l.fraction ++
          (Literal.marked l.exponent ++ rest) := by
    rw [Literal.unsigned, List.append_assoc, List.append_assoc]
    refine dropWhile_run l.hWhole ?_
    exact
      stops_append (stops_pointed _ (by decide) l.fraction)
        (stops_isDigit_marked l.exponent hStops)
  have hExponent :
      ∀ before : NumberResult, before.hasError = false →
        (before.isReal = true ∨ l.exponent ≠ none) →
          scanExponent before
              (Literal.marked l.exponent ++ rest) =
            (⟨true, false⟩, rest) := by
    rintro ⟨isReal, hasError⟩ hGood hMarked
    simp only at hGood hMarked
    subst hGood
    cases hCase : l.exponent with
    | none =>
        rw [hCase] at hMarked
        have hTrue := hMarked.resolve_right (by simp)
        subst hTrue
        exact scanExponent_none _ hStart
    | some e =>
        exact scanExponent_text _ rfl e (stops_isDigit hStops)
  cases hFraction : l.fraction with
  | none =>
      have hMarked : l.exponent ≠ none :=
        hReal.marked.resolve_left (by simp [hFraction])
      have hPoint :
          ∀ q, Literal.marked l.exponent ++ rest = '.' :: q →
            startsWith (· == '.') q = true := by
        intro q hq
        cases hCase : l.exponent with
        | none => exact absurd hCase hMarked
        | some e =>
            rw [hCase] at hq
            have hDot := (List.cons.inj hq).1
            rcases e.hMarker with hMarker | hMarker
            · rw [hMarker] at hDot
              cases hDot
            · rw [hMarker] at hDot
              cases hDot
      rw [hFraction, Literal.pointed, List.nil_append] at hWhole
      simp only [scanDecimalNumber, hWhole,
        scanFraction_none hPoint,
        hExponent ⟨false, false⟩ rfl (.inr hMarked),
        scanTrailing_none _ hStart]
  | some digits =>
      rw [hFraction, Literal.pointed, List.cons_append]
        at hWhole
      simp only [scanDecimalNumber, hWhole,
        scanFraction_fraction
          (l.hFraction digits hFraction)
          (hReal.fraction digits hFraction)
          (stops_isDigit_marked l.exponent hStops),
        hExponent ⟨true, false⟩ rfl (.inl rfl),
        scanTrailing_none _ hStart]

------------------------------------------------------------
-- Numbers
------------------------------------------------------------

theorem isHex_append
    {run : Text}
    (hRun : ∀ c ∈ run, c ≠ 'x' ∧ c ≠ 'X')
    (hSome : run ≠ [])
    (hStops : Stops isIdentStart rest) :
    isHex (run ++ rest) = false := by
  have hMarker :
      ∀ {p : Text}, (∀ c ∈ p.head?, c ≠ 'x' ∧ c ≠ 'X') →
        startsWith (fun c => c == 'x' || c == 'X') p = false := by
    intro p hp
    rw [startsWith_eq_false_iff]
    intro c hc
    simpa using hp c hc
  cases run with
  | nil => exact absurd rfl hSome
  | cons c run =>
      rw [List.cons_append]
      unfold isHex
      split
      · rename_i h
        cases h
        apply hMarker
        intro d hd
        cases run with
        | nil =>
            have hNo : isIdentStart d = false := hStops d hd
            constructor <;> rintro rfl <;>
              exact absurd hNo (by decide)
        | cons e run =>
            cases hd
            exact hRun d (by simp)
      · rfl

/- A number that is no error. -/
theorem of_scanNumber
    {result : NumberResult}
    (hStarts : startsWith Char.isDigit p = true)
    (hScan : scanNumber p = (result, q))
    (hGood : result.hasError = false) :
    ∃ text, p = text ++ q ∧
      Lexes q ⟨numberType result, text⟩ := by
  unfold scanNumber at hScan
  split_ifs at hScan with hHex
  · unfold isHex at hHex
    split at hHex
    · rename_i tail
      rcases startsWith_eq_true_iff.mp hHex with
        ⟨x, digits, rfl, hx⟩
      have hMarker : x = 'x' ∨ x = 'X' := by simpa using hx
      simp only [scanHexNumber, List.drop_succ_cons,
        List.drop_zero] at hScan
      split_ifs at hScan with hGarbage
      · cases hScan
        cases hGood
      · cases hScan
        rw [Bool.not_eq_false'] at hGood
        rw [Bool.not_eq_true, startsWith_eq_false_iff]
          at hGarbage
        rcases exists_run_of_startsWith hGood with
          ⟨run, hSome, hRun, hStops, hText⟩
        refine ⟨'0' :: x :: run, ?_, ?_⟩
        · rw [List.cons_append, List.cons_append, ← hText]
        · rw [hGood]
          exact .hexadecimal hMarker hRun hSome hGarbage
    · cases hHex
  · exact of_scanDecimalNumber hStarts hScan hGood

theorem scanNumber_hexadecimal
    {x : Char} {digits : Text}
    (hMarker : x = 'x' ∨ x = 'X')
    (hDigits : ∀ c ∈ digits, isHexDigit c = true)
    (hSome : digits ≠ [])
    (hStops : Stops (fun c => c == '.' || isIdentChar c) rest) :
    scanNumber ('0' :: x :: (digits ++ rest)) =
      (⟨false, false⟩, rest) := by
  have hHex : isHex ('0' :: x :: (digits ++ rest)) = true := by
    simpa [isHex, startsWith] using hMarker
  have hEnds : Stops isHexDigit rest := by
    refine hStops.mono ?_
    intro c hc
    simp only [isHexDigit, Bool.or_eq_true, Bool.and_eq_true,
      decide_eq_true_eq] at hc
    simp only [isIdentChar, Char.isAlphanum, Char.isAlpha,
      Char.isUpper, Char.isLower, Bool.or_eq_true,
      Bool.and_eq_true, decide_eq_true_eq, beq_iff_eq]
    rcases hc with (hDigit | hLower) | hUpper
    · exact .inr (.inl (.inr hDigit))
    · exact
        .inr (.inl (.inl (.inr
          ⟨hLower.1, le_trans hLower.2 (by decide)⟩)))
    · exact
        .inr (.inl (.inl (.inl
          ⟨hUpper.1, le_trans hUpper.2 (by decide)⟩)))
  have hGarbage := startsWith_eq_false_iff.mpr hStops
  simp only [scanNumber, hHex, if_true, scanHexNumber,
    List.drop_succ_cons, List.drop_zero,
    dropWhile_run hDigits hEnds, hGarbage, Bool.false_eq_true,
    if_false, startsWith_append hDigits hSome, Bool.not_true]

theorem isDigit_ne_marker
    {c : Char}
    (hDigit : c.isDigit = true) : c ≠ 'x' ∧ c ≠ 'X' := by
  constructor <;> rintro rfl <;> exact absurd hDigit (by decide)

theorem scanNumber_digits
    {digits : Text}
    (hDigits : ∀ c ∈ digits, c.isDigit = true)
    (hSome : digits ≠ [])
    (hStops : Stops endsNumber rest)
    (hPoint :
      ∀ q, rest = '.' :: q → startsWith (· == '.') q = true) :
    scanNumber (digits ++ rest) = (⟨false, false⟩, rest) := by
  have hHex :=
    isHex_append
      (fun c hc => isDigit_ne_marker (hDigits c hc)) hSome
      (stops_isIdentStart hStops)
  rw [scanNumber, hHex, if_neg Bool.false_ne_true,
    scanDecimalNumber_digits hDigits hStops hPoint]

theorem scanNumber_unsigned
    {l : Literal}
    (hReal : IsReal l)
    (hStops : Stops endsNumber rest) :
    scanNumber (l.unsigned ++ rest) = (⟨true, false⟩, rest) := by
  have hHex : isHex (l.unsigned ++ rest) = false := by
    apply isHex_append _ _ (stops_isIdentStart hStops)
    · intro c hc
      have hKind := l.inUnsigned_of_mem c hc
      constructor <;> rintro rfl <;>
        exact absurd hKind (by decide)
    · simp [Literal.unsigned, hReal.whole]
  rw [scanNumber, hHex, if_neg Bool.false_ne_true,
    scanDecimalNumber_unsigned hReal hStops]

/- The first digit of a number is read. -/
theorem scanNumber_isSuffix
    {c : Char}
    (hDigit : c.isDigit = true)
    (p : Text) :
    (scanNumber (c :: p)).2 <:+ p := by
  have hFraction : ∀ p, (scanFraction p).2 <:+ p := by
    intro p
    unfold scanFraction
    split
    · rename_i q
      have hStep : q <:+ '.' :: q := List.suffix_cons '.' q
      split_ifs
      · exact List.suffix_rfl
      · exact (List.dropWhile_suffix _).trans hStep
      · exact (List.dropWhile_suffix _).trans hStep
    · exact List.suffix_rfl
  have hExponent : ∀ r p, (scanExponent r p).2 <:+ p := by
    intro r p
    rcases exists_sign p.tail with ⟨sign, hSign⟩
    have hStep : skipSign p.tail <:+ p :=
      List.IsSuffix.trans ⟨_, hSign.symm⟩ (List.tail_suffix p)
    unfold scanExponent
    dsimp only
    split_ifs
    · exact (List.dropWhile_suffix _).trans hStep
    · exact hStep
    · exact List.suffix_rfl
  have hTrailing : ∀ r p, (scanTrailing r p).2 <:+ p := by
    intro r p
    unfold scanTrailing
    split_ifs
    · exact List.dropWhile_suffix _
    · exact List.suffix_rfl
  unfold scanNumber
  split_ifs
  · have hDigits :
        ((c :: p).drop 2).dropWhile isHexDigit <:+ p :=
      (List.dropWhile_suffix _).trans (List.drop_suffix 1 p)
    unfold scanHexNumber
    dsimp only
    split_ifs
    · exact (List.dropWhile_suffix _).trans hDigits
    · exact hDigits
  · have hWhole : (c :: p).dropWhile Char.isDigit <:+ p := by
      rw [List.dropWhile_cons_of_pos hDigit]
      exact List.dropWhile_suffix _
    exact
      (hTrailing _ _).trans
        ((hExponent _ _).trans ((hFraction _).trans hWhole))

------------------------------------------------------------
-- One Token
------------------------------------------------------------

theorem mem_wordType (text : Text) :
    wordType text = .boolean ∨ wordType text = .identifier := by
  unfold wordType
  split_ifs
  · exact .inl rfl
  · exact .inr rfl

theorem spelling_of_ne_string
    {l : Lexeme}
    (hType : l.type ≠ .string) : l.spelling = l.text :=
  if_neg hType

theorem matchTwoCharOp_ne_string (c d : Char) :
    matchTwoCharOp c d ≠ .string := by
  unfold matchTwoCharOp
  split <;> decide

theorem matchSingleCharOp_ne_string (c : Char) :
    matchSingleCharOp c ≠ .string := by
  unfold matchSingleCharOp
  split <;> decide

theorem numberType_ne_string (r : NumberResult) :
    numberType r ≠ .string := by
  unfold numberType
  split_ifs <;> decide

/- A token takes its spelling from the source. -/
theorem spelling_scanToken
    {c : Char} {l : Lexeme}
    (hScan : scanToken c p = (l, q)) :
    l.spelling ++ q = c :: p := by
  unfold scanToken at hScan
  split_ifs at hScan with hQuote hDigit hStart
  · rw [beq_iff_eq] at hQuote
    subst hQuote
    unfold scanString at hScan
    split at hScan
    · rename_i hNone
      cases hScan
      simp [Lexeme.spelling]
    · rename_i d tail hSome
      cases hScan
      have hHead := List.head?_dropWhile_not (· != singleQuote) p
      have hText :=
        List.takeWhile_append_dropWhile
          (p := (· != singleQuote)) (l := p)
      rw [hSome] at hHead hText
      have hd : d = singleQuote := by simpa using hHead
      subst hd
      simp only [Lexeme.spelling, if_true, List.cons_append,
        List.append_assoc, List.nil_append]
      rw [hText]
  · rcases hNumber : scanNumber (c :: p) with ⟨result, q'⟩
    rw [hNumber] at hScan
    cases hScan
    rw [spelling_of_ne_string (numberType_ne_string result)]
    apply consumed_append_of_isSuffix
    have hSuffix := scanNumber_isSuffix hDigit p
    rw [hNumber] at hSuffix
    exact hSuffix.trans (List.suffix_cons c p)
  · cases hScan
    have hType :
        wordType (c :: p.takeWhile isIdentChar) ≠ .string := by
      rcases mem_wordType (c :: p.takeWhile isIdentChar) with
        hType | hType <;> rw [hType] <;> decide
    rw [spelling_of_ne_string hType, List.cons_append,
      List.takeWhile_append_dropWhile]
  · unfold scanOperator at hScan
    split at hScan
    · cases hScan
      rw [spelling_of_ne_string (matchSingleCharOp_ne_string c)]
      rfl
    · split_ifs at hScan with hTwo
      · cases hScan
        rw [spelling_of_ne_string (matchTwoCharOp_ne_string c _)]
        rfl
      · cases hScan
        rw [spelling_of_ne_string (matchSingleCharOp_ne_string c)]
        rfl

/- A token that is no error is a lexeme of the grammar. -/
theorem lexes_of_scanToken
    {c : Char} {l : Lexeme}
    (hScan : scanToken c p = (l, q))
    (hGood : l.type ≠ .error) : Lexes q l := by
  unfold scanToken at hScan
  split_ifs at hScan with hQuote hDigit hStart
  · unfold scanString at hScan
    split at hScan
    · cases hScan
      exact absurd rfl hGood
    · cases hScan
      exact
        .string fun c hc =>
          List.mem_takeWhile_imp (p := (· != singleQuote)) hc
  · rcases hNumber : scanNumber (c :: p) with ⟨result, q'⟩
    rw [hNumber] at hScan
    cases hScan
    have hNoError : result.hasError = false := by
      by_contra hError
      rw [Bool.not_eq_false] at hError
      exact hGood (by simp [numberType, hError])
    rcases
        of_scanNumber (p := c :: p) hDigit hNumber hNoError with
      ⟨text, hText, hLexes⟩
    rw [hText, consumed_append]
    exact hLexes
  · cases hScan
    rcases exists_run isIdentChar p with
      ⟨run, hRun, hStops, hText⟩
    exact
      .word hStart (fun d hd => List.mem_takeWhile_imp hd) hStops
  · unfold scanOperator at hScan
    split at hScan
    · cases hScan
      exact .one hGood (by simp)
    · split_ifs at hScan with hTwo
      · cases hScan
        exact .two hTwo
      · cases hScan
        refine .one hGood ?_
        intro d hd
        cases hd
        exact not_not.mp hTwo

/- The characters that begin no operator. -/
def beginsOther (c : Char) : Bool :=
  isBlank c || c == singleQuote || c.isDigit || isIdentStart c

theorem beginsOther_of_two
    {c d : Char}
    (hOperator : matchTwoCharOp c d ≠ .error) :
    beginsOther c = false := by
  unfold matchTwoCharOp at hOperator
  split at hOperator
  case h_13 => exact absurd rfl hOperator
  all_goals decide

theorem beginsOther_of_one
    {c : Char}
    (hOperator : matchSingleCharOp c ≠ .error) :
    beginsOther c = false := by
  unfold matchSingleCharOp at hOperator
  split at hOperator
  case h_18 => exact absurd rfl hOperator
  all_goals decide

theorem isBlank_of_beginsOther
    {c : Char}
    (hOther : beginsOther c = false) : isBlank c = false := by
  simp only [beginsOther, Bool.or_eq_false_iff] at hOther
  exact hOther.1.1.1

theorem scanToken_operator
    {c : Char}
    (hOther : beginsOther c = false) :
    scanToken c p = scanOperator c p := by
  simp only [beginsOther, Bool.or_eq_false_iff] at hOther
  rcases hOther with ⟨⟨⟨-, hQuote⟩, hDigit⟩, hStart⟩
  simp [scanToken, hQuote, hDigit, hStart]

/- Digits are no blanks, quotes or names. -/
theorem of_isDigit
    {c : Char}
    (hDigit : c.isDigit = true) :
    isBlank c = false ∧ (c == singleQuote) = false := by
  have hBounds := isDigit_bounds hDigit
  constructor
  · by_contra hBlank
    simp only [isBlank, Bool.not_eq_false, Bool.or_eq_true,
      beq_iff_eq] at hBlank
    rcases hBlank with ((rfl | rfl) | rfl) | rfl <;>
      exact absurd hDigit (by decide)
  · rw [beq_eq_false_iff_ne]
    rintro rfl
    exact absurd hDigit (by decide)

theorem of_isIdentStart
    {c : Char}
    (hStart : isIdentStart c = true) :
    isBlank c = false ∧ (c == singleQuote) = false ∧
      c.isDigit = false := by
  refine ⟨?_, ?_, ?_⟩
  · by_contra hBlank
    simp only [isBlank, Bool.not_eq_false, Bool.or_eq_true,
      beq_iff_eq] at hBlank
    rcases hBlank with ((rfl | rfl) | rfl) | rfl <;>
      exact absurd hStart (by decide)
  · rw [beq_eq_false_iff_ne]
    rintro rfl
    exact absurd hStart (by decide)
  · by_contra hDigit
    rw [Bool.not_eq_false] at hDigit
    have hBounds := isDigit_bounds hDigit
    simp only [isIdentStart, Char.isAlpha, Char.isUpper,
      Char.isLower, Bool.or_eq_true, Bool.and_eq_true,
      decide_eq_true_eq, beq_iff_eq, UInt32.le_iff_toNat_le]
      at hStart
    have hNat : c.toNat = c.val.toNat := rfl
    rcases hStart with ((hUpper | hLower) | rfl) | rfl
    · have hA : 'A'.val.toNat = 65 := rfl
      omega
    · have hA : 'a'.val.toNat = 97 := rfl
      omega
    · cases hDigit
    · cases hDigit

/- A number, once the scan of it is known. -/
theorem scanToken_number
    {c : Char} {s : Text} {result : NumberResult}
    (hDigit : c.isDigit = true)
    (hScan : scanNumber (c :: (s ++ rest)) = (result, rest)) :
    scanToken c (s ++ rest) =
      (⟨numberType result, c :: s⟩, rest) := by
  have hText : c :: (s ++ rest) = (c :: s) ++ rest := rfl
  simp only [scanToken, (of_isDigit hDigit).2, hDigit, hScan,
    Bool.false_eq_true, if_false, if_true]
  rw [hText, consumed_append]

/- The lexemes of the grammar are read. -/
theorem scanToken_of_lexes
    {l : Lexeme}
    (hLexes : Lexes rest l) :
    ∃ c s, l.spelling = c :: s ∧ isBlank c = false ∧
      scanToken c (s ++ rest) = (l, rest) := by
  cases hLexes with
  | @string body hBody =>
      have hStops :
          Stops (· != singleQuote) (singleQuote :: rest) :=
        stops_cons rest (by simp)
      refine ⟨singleQuote, body ++ [singleQuote], rfl, by decide,
        ?_⟩
      rw [List.append_assoc]
      simp only [scanToken, beq_self_eq_true, if_true, scanString,
        List.singleton_append, dropWhile_run hBody hStops,
        takeWhile_run hBody hStops]
  | @word c run hStart hRun hStops =>
      rcases of_isIdentStart hStart with ⟨hBlank, hQuote, hDigit⟩
      have hType : wordType (c :: run) ≠ .string := by
        rcases mem_wordType (c :: run) with hType | hType <;>
          rw [hType] <;> decide
      refine
        ⟨c, run, spelling_of_ne_string hType, hBlank, ?_⟩
      simp only [scanToken, hQuote, hDigit, hStart,
        Bool.false_eq_true, if_false, if_true,
        takeWhile_run hRun hStops, dropWhile_run hRun hStops]
  | @hexadecimal x digits hMarker hDigits hSome hStops =>
      refine ⟨'0', x :: digits, rfl, by decide, ?_⟩
      exact
        scanToken_number (c := '0') (s := x :: digits) (by decide)
          (scanNumber_hexadecimal hMarker hDigits hSome hStops)
  | @decimal digits hDigits hSome hStops hPoint =>
      cases digits with
      | nil => exact absurd rfl hSome
      | cons c s =>
          have hDigit := hDigits c List.mem_cons_self
          refine ⟨c, s, rfl, (of_isDigit hDigit).1, ?_⟩
          exact
            scanToken_number hDigit
              (scanNumber_digits hDigits hSome hStops hPoint)
  | @real literal hReal hStops =>
      cases hWhole : literal.whole with
      | nil => exact absurd hWhole hReal.whole
      | cons c s =>
          have hDigit :=
            literal.hWhole c (by simp [hWhole])
          have hText :
              literal.unsigned =
                c :: (s ++ (Literal.pointed literal.fraction ++
                  Literal.marked literal.exponent)) := by
            rw [Literal.unsigned, hWhole]
            rfl
          have hScan := scanNumber_unsigned hReal hStops
          rw [hText] at hScan ⊢
          exact
            ⟨c, _, rfl, (of_isDigit hDigit).1,
              scanToken_number hDigit hScan⟩
  | @two c d hOperator =>
      have hOther := beginsOther_of_two hOperator
      refine
        ⟨c, [d],
          spelling_of_ne_string (matchTwoCharOp_ne_string c d),
          isBlank_of_beginsOther hOther, ?_⟩
      rw [scanToken_operator hOther]
      simp [scanOperator, hOperator]
  | @one c hOperator hAlone =>
      have hOther := beginsOther_of_one hOperator
      refine
        ⟨c, [],
          spelling_of_ne_string (matchSingleCharOp_ne_string c),
          isBlank_of_beginsOther hOther, ?_⟩
      rw [scanToken_operator hOther, List.nil_append]
      cases rest with
      | nil => rfl
      | cons d q => simp [scanOperator, hAlone d rfl]

------------------------------------------------------------
-- Whole Sources
------------------------------------------------------------

/-
  From the index `i` on, the source `p` is made of the
  spellings of these tokens, each at its position and as `R`
  wants it before what follows. Between them is white space.
-/
inductive Tiles
    (R : Text → Lexeme → Prop) :
    Nat → Text → List Token → Prop
| done
    {i : Nat} :
    Tiles R i [] [⟨⟨.endOfInput, []⟩, i⟩]
| blank
    {i : Nat} {c : Char} {p : Text} {ts : List Token}
    (hBlank : isBlank c = true)
    (hRest : Tiles R (i + 1) p ts) :
    Tiles R i (c :: p) ts
| token
    {i : Nat} {l : Lexeme} {rest : Text} {ts : List Token}
    (hToken : R rest l)
    (hRest : Tiles R (i + l.spelling.length) rest ts) :
    Tiles R i (l.spelling ++ rest) (⟨l, i⟩ :: ts)

theorem length_spelling
    {c : Char} {l : Lexeme}
    (hScan : scanToken c p = (l, q)) :
    l.spelling.length = p.length + 1 - q.length := by
  have hLength :=
    congrArg List.length (spelling_scanToken hScan)
  rw [List.length_append, List.length_cons] at hLength
  omega

/- A token has a character. -/
theorem length_scanToken_le
    (c : Char) (p : Text) :
    (scanToken c p).2.length ≤ p.length := by
  unfold scanToken
  split_ifs with hQuote hDigit hStart
  · unfold scanString
    split
    · exact Nat.zero_le _
    · rename_i d tail hSome
      have hLength := (List.dropWhile_suffix
        (· != singleQuote) (l := p)).length_le
      rw [hSome, List.length_cons] at hLength
      exact Nat.le_of_succ_le hLength
  · exact (scanNumber_isSuffix hDigit p).length_le
  · exact (List.dropWhile_suffix _).length_le
  · unfold scanOperator
    split
    · exact le_rfl
    · split_ifs
      · simp
      · exact le_rfl

/- The fuel is enough. -/
theorem tiles_tokenizeFrom
    {fuel i : Nat} {R : Text → Lexeme → Prop}
    (hFuel : p.length ≤ fuel)
    (hTokens :
      ∀ t ∈ tokenizeFrom fuel i p, ∀ c q q',
        scanToken c q = (t.toLexeme, q') → R q' t.toLexeme) :
    Tiles R i p (tokenizeFrom fuel i p) := by
  induction fuel generalizing i p with
  | zero =>
      cases p with
      | nil => exact .done
      | cons c p => exact absurd hFuel (Nat.not_succ_le_zero _)
  | succ fuel ih =>
      cases p with
      | nil => exact .done
      | cons c p =>
          have hShort : p.length ≤ fuel := Nat.le_of_succ_le_succ hFuel
          simp only [tokenizeFrom] at hTokens ⊢
          split_ifs at hTokens ⊢ with hBlank
          · exact .blank hBlank (ih hShort hTokens)
          · rcases hScan : scanToken c p with ⟨l, q⟩
            rw [hScan] at hTokens
            have hLess := length_scanToken_le c p
            rw [hScan] at hLess
            simp only [← length_spelling hScan] at hTokens ⊢
            rw [← spelling_scanToken hScan]
            refine .token ?_ (ih (le_trans hLess hShort) ?_)
            · exact hTokens _ List.mem_cons_self c p q hScan
            · intro t ht
              exact hTokens t (List.mem_cons_of_mem _ ht)

/- A tiled source without errors is tiled in one way. -/
theorem tokenizeFrom_of_tiles
    {fuel i : Nat} {ts : List Token}
    (hFuel : p.length ≤ fuel)
    (hTiles : Tiles Lexes i p ts) :
    tokenizeFrom fuel i p = ts := by
  induction hTiles generalizing fuel with
  | done => rw [tokenizeFrom]
  | @blank i c p ts hBlank hRest ih =>
      cases fuel with
      | zero => exact absurd hFuel (Nat.not_succ_le_zero _)
      | succ fuel =>
          rw [tokenizeFrom, if_pos hBlank]
          exact ih (Nat.le_of_succ_le_succ hFuel)
  | @token i l rest ts hToken hRest ih =>
      rcases scanToken_of_lexes hToken with
        ⟨c, s, hSpelling, hBlank, hScan⟩
      rw [hSpelling, List.cons_append] at hFuel ⊢
      cases fuel with
      | zero => exact absurd hFuel (Nat.not_succ_le_zero _)
      | succ fuel =>
          have hLength := length_spelling hScan
          have hShort : rest.length ≤ fuel := by
            simp only [List.length_cons, List.length_append]
              at hFuel
            omega
          rw [tokenizeFrom, hBlank, if_neg Bool.false_ne_true,
            hScan]
          simp only
          rw [← hLength, ih hShort]

theorem type_ne_error_of_lexes
    {l : Lexeme}
    (hLexes : Lexes rest l) : l.type ≠ .error := by
  cases hLexes with
  | @word c run hStart hRun hStops =>
      rcases mem_wordType (c :: run) with hType | hType <;>
        simp [hType]
  | two hOperator => exact hOperator
  | one hOperator hAlone => exact hOperator
  | _ => simp

theorem type_ne_error_of_tiles
    {i : Nat} {ts : List Token}
    (hTiles : Tiles Lexes i p ts) :
    ∀ t ∈ ts, t.type ≠ .error := by
  induction hTiles with
  | done => simp
  | blank hBlank hRest ih => exact ih
  | token hToken hRest ih =>
      intro t ht
      rcases List.mem_cons.mp ht with rfl | ht
      · exact type_ne_error_of_lexes hToken
      · exact ih t ht

theorem type_ne_endOfInput_of_scanToken
    {c : Char} {l : Lexeme}
    (hScan : scanToken c p = (l, q)) :
    l.type ≠ .endOfInput := by
  by_cases hError : l.type = .error
  · rw [hError]
    decide
  · cases lexes_of_scanToken hScan hError with
    | @word c run hStart hRun hStops =>
        rcases mem_wordType (c :: run) with hType | hType <;>
          simp [hType]
    | @two c d hOperator =>
        unfold matchTwoCharOp
        split <;> simp
    | @one c hOperator hAlone =>
        unfold matchSingleCharOp
        split <;> simp
    | _ => simp

/- The last token, and no other one, marks the end. -/
theorem Tiles.exists_ended
    {R : Text → Lexeme → Prop} {i : Nat} {ts : List Token}
    (hTiles : Tiles R i p ts)
    (hTypes : ∀ rest l, R rest l → l.type ≠ .endOfInput) :
    ∃ us, ts = us ++ [⟨⟨.endOfInput, []⟩, i + p.length⟩] ∧
      ∀ t ∈ us, t.type ≠ .endOfInput := by
  induction hTiles with
  | done => exact ⟨[], rfl, by simp⟩
  | @blank i c p ts hBlank hRest ih =>
      rcases ih with ⟨us, rfl, hUs⟩
      refine ⟨us, ?_, hUs⟩
      rw [List.length_cons, Nat.add_assoc, Nat.add_comm 1]
  | @token i l rest ts hToken hRest ih =>
      rcases ih with ⟨us, rfl, hUs⟩
      refine ⟨⟨l, i⟩ :: us, ?_, ?_⟩
      · rw [List.length_append, ← Nat.add_assoc]
        rfl
      · rw [List.forall_mem_cons]
        exact ⟨hTypes rest l hToken, hUs⟩

theorem exists_tokenize (source : Text) :
    ∃ us,
      tokenize source =
          us ++ [⟨⟨.endOfInput, []⟩, source.length⟩] ∧
        ∀ t ∈ us, t.type ≠ .endOfInput := by
  have hTiles :
      Tiles (fun _ l => l.type ≠ .endOfInput) 0 source
        (tokenize source) := by
    apply tiles_tokenizeFrom le_rfl
    intro t _ c q q' hScan
    exact type_ne_endOfInput_of_scanToken hScan
  simpa using hTiles.exists_ended fun _ _ hType => hType

/-
  The tokens of a source, with the white space between them,
  are the source. They are free of errors exactly when the
  source is a text of the lexical grammar, and are then the
  only tokens it can be read as.
-/
theorem tokenize_tiles :
    (∀ source : Text,
        Tiles (fun _ _ => True) 0 source (tokenize source)) ∧
      ∀ (source : Text) (ts : List Token),
        Tiles Lexes 0 source ts ↔
          tokenize source = ts ∧ ∀ t ∈ ts, t.type ≠ .error := by
  refine ⟨?_, ?_⟩
  · intro source
    exact tiles_tokenizeFrom le_rfl (by simp)
  · intro source ts
    constructor
    · intro hTiles
      exact
        ⟨tokenizeFrom_of_tiles le_rfl hTiles,
          type_ne_error_of_tiles hTiles⟩
    · rintro ⟨rfl, hGood⟩
      apply tiles_tokenizeFrom le_rfl
      intro t ht c q q' hScan
      exact lexes_of_scanToken hScan (hGood t ht)

------------------------------------------------------------
-- White Space
------------------------------------------------------------

/- White space, or the end of the source. -/
def Separates (rest : Text) : Prop :=
  Stops (fun c => !isBlank c) rest

theorem Separates.stops
    {kind : Char → Bool}
    (hSeparates : Separates rest)
    (hKind : ∀ c, isBlank c = true → kind c = false) :
    Stops kind rest := by
  intro c hc
  exact hKind c (by simpa using hSeparates c hc)

/- No lexeme goes on with a blank. -/
theorem eq_false_of_isBlank
    {kind : Char → Bool}
    (hAll :
      ([' ', '\t', '\n', '\r'].all fun c => !kind c) = true) :
    ∀ c, isBlank c = true → kind c = false := by
  intro c hBlank
  simp only [isBlank, Bool.or_eq_true, beq_iff_eq] at hBlank
  simp only [List.all_cons, List.all_nil, Bool.and_true,
    Bool.and_eq_true, Bool.not_eq_true'] at hAll
  rcases hBlank with ((rfl | rfl) | rfl) | rfl
  · exact hAll.1
  · exact hAll.2.1
  · exact hAll.2.2.1
  · exact hAll.2.2.2

theorem matchTwoCharOp_of_isBlank
    (c : Char)
    {d : Char}
    (hBlank : isBlank d = true) :
    matchTwoCharOp c d = .error := by
  unfold matchTwoCharOp
  split
  case h_13 => rfl
  all_goals cases hBlank

/- White space may follow every lexeme. -/
theorem Lexes.of_separates
    {rest' : Text} {l : Lexeme}
    (hLexes : Lexes rest l)
    (hSeparates : Separates rest') : Lexes rest' l := by
  have hNumber : Stops endsNumber rest' :=
    hSeparates.stops (eq_false_of_isBlank (by decide))
  cases hLexes with
  | string hBody => exact .string hBody
  | word hStart hRun hStops =>
      exact
        .word hStart hRun
          (hSeparates.stops (eq_false_of_isBlank (by decide)))
  | hexadecimal hMarker hDigits hSome hStops =>
      exact
        .hexadecimal hMarker hDigits hSome
          (hSeparates.stops (eq_false_of_isBlank (by decide)))
  | decimal hDigits hSome hStops hPoint =>
      refine .decimal hDigits hSome hNumber ?_
      rintro q rfl
      cases hSeparates '.' rfl
  | real hReal hStops => exact .real hReal hNumber
  | two hOperator => exact .two hOperator
  | one hOperator hAlone =>
      refine .one hOperator ?_
      intro d hd
      exact
        matchTwoCharOp_of_isBlank _
          (by simpa using hSeparates d hd)

/- A lexeme, and the white space after it. -/
structure Spaced where
  lexeme : Lexeme
  gap : Text
  hLexeme : ∃ rest, Lexes rest lexeme
  hGap : ∀ c ∈ gap, isBlank c = true
  hSome : gap ≠ []

def Spaced.text (s : Spaced) : Text :=
  s.lexeme.spelling ++ s.gap

/- The tokens of a text, from the index `i` on. -/
def tokensAt : Nat → List Spaced → List Token
| i, [] => [⟨⟨.endOfInput, []⟩, i⟩]
| i, s :: ss => ⟨s.lexeme, i⟩ :: tokensAt (i + s.text.length) ss

theorem Tiles.of_blanks
    {R : Text → Lexeme → Prop} {i : Nat} {gap : Text}
    {ts : List Token}
    (hGap : ∀ c ∈ gap, isBlank c = true)
    (hTiles : Tiles R (i + gap.length) p ts) :
    Tiles R i (gap ++ p) ts := by
  induction gap generalizing i with
  | nil => exact hTiles
  | cons c gap ih =>
      refine .blank (hGap c List.mem_cons_self) ?_
      refine ih (fun d hd => hGap d (List.mem_cons_of_mem c hd)) ?_
      rw [List.length_cons] at hTiles
      rwa [Nat.add_assoc, Nat.add_comm 1]

/- Lexemes apart are read as they are written. -/
theorem tiles_spaced
    (i : Nat) (ss : List Spaced) :
    Tiles Lexes i (ss.flatMap Spaced.text) (tokensAt i ss) := by
  induction ss generalizing i with
  | nil => exact .done
  | cons s ss ih =>
      have hSeparates :
          Separates (s.gap ++ ss.flatMap Spaced.text) := by
        cases hCase : s.gap with
        | nil => exact absurd hCase s.hSome
        | cons c gap =>
            refine stops_cons _ ?_
            simp [s.hGap c (by simp [hCase])]
      rcases s.hLexeme with ⟨rest, hLexes⟩
      rw [List.flatMap_cons, Spaced.text, List.append_assoc]
      refine .token (hLexes.of_separates hSeparates) ?_
      refine .of_blanks s.hGap ?_
      have hLength :
          i + s.text.length =
            i + s.lexeme.spelling.length + s.gap.length := by
        rw [Spaced.text, List.length_append, Nat.add_assoc]
      rw [hLength]
      exact ih _

/-
  A source of lexemes with white space after each, whatever
  white space, is read as these lexemes.
-/
theorem tokenize_spaced (ss : List Spaced) :
    tokenize (ss.flatMap Spaced.text) = tokensAt 0 ss :=
  tokenizeFrom_of_tiles le_rfl (tiles_spaced 0 ss)

end Scripting

end Manipulator
