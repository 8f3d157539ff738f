import Mathlib.Algebra.Field.Rat
import Mathlib.Algebra.Order.Ring.Rat

/-
  Numbers written as text.

  The first part reads back what prints a natural number. The
  second part is the number that C's `strtof` finds at the
  start of a text: it passes over blanks, takes the longest
  part that is a number, and ignores what follows. A literal
  is the grammar of one decimal number.

  Main declarations:
    * `Decimal.readNat`, `Decimal.readNat_toDigits`
    * `Decimal.Form.scan`, `Decimal.strtof`
    * `Decimal.Literal`
    * `Decimal.Literal.strtof_text`
-/

------------------------------------------------------------
-- Natural Numbers
------------------------------------------------------------

namespace Manipulator

namespace Decimal

/- A text of digits only, and of at least one. -/
def readNat (cs : List Char) : Option ℕ :=
  if cs ≠ [] ∧ cs.all Char.isDigit then
    some (Nat.ofDigitChars 10 cs 0)
  else
    none

theorem readNat_toDigits
    (n : ℕ) : readNat (Nat.toDigits 10 n) = some n := by
  have hDigits : (Nat.toDigits 10 n).all Char.isDigit := by
    rw [List.all_eq_true]
    intro c hc
    exact Nat.isDigit_of_mem_toDigits (by decide) (by decide) hc
  rw [readNat, if_pos ⟨Nat.toDigits_ne_nil, hDigits⟩]
  exact congrArg some Nat.ofDigitChars_ten_toDigits

/- A character that is no digit is in no printed number. -/
theorem not_mem_toDigits
    {c : Char}
    (n : ℕ)
    (hNo : c.isDigit = false) : c ∉ Nat.toDigits 10 n := by
  intro hc
  have hDigit :=
    Nat.isDigit_of_mem_toDigits (by decide) (by decide) hc
  exact absurd hDigit (by simp [hNo])

------------------------------------------------------------
-- Runs Of Characters
------------------------------------------------------------

/- No character of a kind comes next. -/
def Stops
    (kind : Char → Bool)
    (cs : List Char) : Prop :=
  ∀ c ∈ cs.head?, kind c = false

theorem stops_nil (kind : Char → Bool) : Stops kind [] := by
  intro c hc
  cases hc

theorem stops_cons
    {kind : Char → Bool}
    {c : Char}
    (cs : List Char)
    (hc : kind c = false) : Stops kind (c :: cs) := by
  intro d hd
  cases hd
  exact hc

/- A run that stops is what is taken. -/
theorem takeWhile_run
    {kind : Char → Bool}
    {run rest : List Char}
    (hRun : ∀ c ∈ run, kind c = true)
    (hStops : Stops kind rest) :
    (run ++ rest).takeWhile kind = run := by
  rw [List.takeWhile_append_of_pos hRun]
  cases rest with
  | nil => simp
  | cons c rest =>
      have hc : kind c = false := hStops c rfl
      simp [hc]

theorem dropWhile_run
    {kind : Char → Bool}
    {run rest : List Char}
    (hRun : ∀ c ∈ run, kind c = true)
    (hStops : Stops kind rest) :
    (run ++ rest).dropWhile kind = rest := by
  rw [List.dropWhile_append_of_pos hRun]
  cases rest with
  | nil => rfl
  | cons c rest =>
      have hc : kind c = false := hStops c rfl
      simp [hc]

------------------------------------------------------------
-- Signs And Exponents
------------------------------------------------------------

inductive Sign where
| none
| plus
| minus
deriving DecidableEq, Repr

namespace Sign

def text : Sign → List Char
| .none => []
| .plus => ['+']
| .minus => ['-']

def apply {R : Type} [Neg R] : Sign → R → R
| .none, value => value
| .plus, value => value
| .minus, value => -value

end Sign

def takeSign : List Char → Sign × List Char
| [] => (.none, [])
| c :: rest =>
    if c = '+' then (.plus, rest)
    else if c = '-' then (.minus, rest)
    else (.none, c :: rest)

def isSign (c : Char) : Bool := c == '+' || c == '-'

theorem takeSign_of_stops
    {cs : List Char}
    (hStops : Stops isSign cs) : takeSign cs = (.none, cs) := by
  cases cs with
  | nil => rfl
  | cons c rest =>
      have hc : isSign c = false := hStops c rfl
      simp only [isSign, Bool.or_eq_false_iff,
        beq_eq_false_iff_ne] at hc
      rw [takeSign, if_neg hc.1, if_neg hc.2]

theorem takeSign_text
    (sign : Sign)
    {cs : List Char}
    (hStops : Stops isSign cs) :
    takeSign (sign.text ++ cs) = (sign, cs) := by
  cases sign with
  | none => exact takeSign_of_stops hStops
  | plus => rfl
  | minus => rfl

/- The exponent that a marker opens, else 0. -/
def exponentOf (isMarker : Char → Bool) : List Char → ℤ
| [] => 0
| c :: rest =>
    if isMarker c then
      let signed := takeSign rest
      signed.1.apply
        (Nat.ofDigitChars 10
          (signed.2.takeWhile Char.isDigit) 0 : ℤ)
    else
      0

theorem exponentOf_of_stops
    {isMarker : Char → Bool}
    {cs : List Char}
    (hStops : Stops isMarker cs) :
    exponentOf isMarker cs = 0 := by
  cases cs with
  | nil => rfl
  | cons c rest =>
      have hc : isMarker c = false := hStops c rfl
      simp [exponentOf, hc]

/- Digits, marked as an exponent. -/
structure Exponent where
  marker : Char
  sign : Sign
  digits : List Char
  hMarker : marker = 'e' ∨ marker = 'E'
  hDigits : ∀ c ∈ digits, c.isDigit = true
  hSome : digits ≠ []

namespace Exponent

def text (e : Exponent) : List Char :=
  e.marker :: (e.sign.text ++ e.digits)

def value (e : Exponent) : ℤ :=
  e.sign.apply (Nat.ofDigitChars 10 e.digits 0 : ℤ)

end Exponent

/- A digit is no sign. -/
theorem isSign_of_isDigit
    {c : Char}
    (hDigit : c.isDigit = true) : isSign c = false := by
  by_contra hSign
  simp only [isSign, Bool.not_eq_false, Bool.or_eq_true,
    beq_iff_eq] at hSign
  rcases hSign with hSign | hSign
  · rw [hSign] at hDigit
    exact absurd hDigit (by decide)
  · rw [hSign] at hDigit
    exact absurd hDigit (by decide)

------------------------------------------------------------
-- What `strtof` Reads
------------------------------------------------------------

/- A way to write numbers: decimal or hexadecimal. -/
structure Form where
  isDigit : Char → Bool
  digit : Char → ℕ
  base : ℕ
  isMarker : Char → Bool
  radix : ℕ

namespace Form

def decimal : Form where
  isDigit := Char.isDigit
  digit := fun c => c.toNat - '0'.toNat
  base := 10
  isMarker := fun c => c == 'e' || c == 'E'
  radix := 10

/- The letters of either case follow the digits. -/
def hexDigit (c : Char) : ℕ :=
  if c.isDigit then c.toNat - '0'.toNat
  else if c.isUpper then c.toNat - 'A'.toNat + 10
  else c.toNat - 'a'.toNat + 10

def hexadecimal : Form where
  isDigit := fun c =>
    c.isDigit || ('a' ≤ c && c ≤ 'f') || ('A' ≤ c && c ≤ 'F')
  digit := hexDigit
  base := 16
  isMarker := fun c => c == 'p' || c == 'P'
  radix := 2

def number (form : Form) (digits : List Char) : ℕ :=
  digits.foldl
    (fun value c => form.base * value + form.digit c) 0

/- The digits after a point, and what follows them. -/
def takeFraction
    (form : Form) : List Char → List Char × List Char
| '.' :: rest =>
    (rest.takeWhile form.isDigit, rest.dropWhile form.isDigit)
| cs => ([], cs)

/- Digits with at most one point, then an exponent. -/
def scan (form : Form) (cs : List Char) : Option ℚ :=
  let whole := cs.takeWhile form.isDigit
  let fraction :=
    form.takeFraction (cs.dropWhile form.isDigit)
  let digits := whole ++ fraction.1
  if digits = [] then
    none
  else
    some ((form.number digits : ℚ) /
        (form.base : ℚ) ^ fraction.1.length *
      (form.radix : ℚ) ^ exponentOf form.isMarker fraction.2)

end Form

/- What is left after `0x`. -/
def hexBody : List Char → Option (List Char)
| '0' :: x :: rest =>
    if x = 'x' ∨ x = 'X' then some rest else none
| _ => none

def scanUnsigned (cs : List Char) : Option ℚ :=
  match (hexBody cs).bind Form.hexadecimal.scan with
  | some value => some value
  | none => Form.decimal.scan cs

/- What a text says. A zero does not keep its sign. -/
inductive Reading where
| number (value : ℚ)
| infinity (negative : Bool)
| nan
deriving DecidableEq, Repr

/- The blanks of the C locale. -/
def isSpace (c : Char) : Bool :=
  c ∈ [' ', '\t', '\n', '\x0b', '\x0c', '\r']

def startsWord (word cs : List Char) : Bool :=
  (cs.take word.length).map Char.toLower == word

/- The number at the start of a text, if there is one. -/
def strtof (cs : List Char) : Option Reading :=
  let signed := takeSign (cs.dropWhile isSpace)
  if startsWord ['i', 'n', 'f'] signed.2 then
    some (.infinity (signed.1 = .minus))
  else if startsWord ['n', 'a', 'n'] signed.2 then
    some .nan
  else
    (scanUnsigned signed.2).map
      fun value => .number (signed.1.apply value)

example : strtof [] = none := by decide

------------------------------------------------------------
-- Literals
------------------------------------------------------------

/-
  One decimal number: a sign, digits with at most one point,
  and an exponent.
-/
structure Literal where
  sign : Sign
  whole : List Char
  fraction : Option (List Char)
  exponent : Option Exponent
  hWhole : ∀ c ∈ whole, c.isDigit = true
  hFraction :
    ∀ digits ∈ fraction, ∀ c ∈ digits, c.isDigit = true
  hSome : whole ++ fraction.getD [] ≠ []

namespace Literal

def pointed : Option (List Char) → List Char
| none => []
| some digits => '.' :: digits

def marked : Option Exponent → List Char
| none => []
| some e => e.text

/- The text after the sign. -/
def unsigned (l : Literal) : List Char :=
  l.whole ++ (pointed l.fraction ++ marked l.exponent)

def text (l : Literal) : List Char :=
  l.sign.text ++ l.unsigned

def power : Option Exponent → ℤ
| none => 0
| some e => e.value

def magnitude (l : Literal) : ℚ :=
  let digits := l.fraction.getD []
  (Nat.ofDigitChars 10 (l.whole ++ digits) 0 : ℚ) /
      10 ^ digits.length *
    10 ^ power l.exponent

def value (l : Literal) : ℚ := l.sign.apply l.magnitude

end Literal

/- What may not follow a number that ends. -/
def continues (c : Char) : Bool :=
  c.isDigit || c == '.' || c == 'e' || c == 'E' ||
    c == 'x' || c == 'X'

theorem Stops.mono
    {kind wider : Char → Bool}
    {cs : List Char}
    (hStops : Stops wider cs)
    (hKind : ∀ c, kind c = true → wider c = true) :
    Stops kind cs := by
  intro c hc
  by_contra hNo
  have hWider := hKind c (Bool.of_not_eq_false hNo)
  exact absurd (hStops c hc) (by simp [hWider])

/- A text stops where its first part does. -/
theorem stops_append
    {kind : Char → Bool}
    {cs rest : List Char}
    (hStops : Stops kind cs)
    (hRest : Stops kind rest) : Stops kind (cs ++ rest) := by
  cases cs with
  | nil => exact hRest
  | cons c cs => exact stops_cons (cs ++ rest) (hStops c rfl)

theorem isMarker_of_exponent
    (e : Exponent) : Form.decimal.isMarker e.marker = true := by
  rcases e.hMarker with hMarker | hMarker <;>
    rw [hMarker] <;> rfl

theorem stops_marked
    (kind : Char → Bool)
    (hMarkers : kind 'e' = false ∧ kind 'E' = false)
    (e : Option Exponent) : Stops kind (Literal.marked e) := by
  cases e with
  | none => exact stops_nil kind
  | some e =>
      apply stops_cons
      rcases e.hMarker with hMarker | hMarker
      · rw [hMarker]
        exact hMarkers.1
      · rw [hMarker]
        exact hMarkers.2

theorem stops_pointed
    (kind : Char → Bool)
    (hPoint : kind '.' = false)
    (fraction : Option (List Char)) :
    Stops kind (Literal.pointed fraction) := by
  cases fraction with
  | none => exact stops_nil kind
  | some digits => exact stops_cons digits hPoint

/- Reading an exponent that ends. -/
theorem exponentOf_marked
    (e : Option Exponent)
    {rest : List Char}
    (hStops : Stops continues rest) :
    exponentOf Form.decimal.isMarker
      (Literal.marked e ++ rest) = Literal.power e := by
  cases e with
  | none =>
      apply exponentOf_of_stops
      apply hStops.mono
      intro c hc
      simp only [Form.decimal, Bool.or_eq_true] at hc
      rcases hc with hc | hc <;> simp [continues, hc]
  | some e =>
      have hDigits :
          (e.digits ++ rest).takeWhile Char.isDigit =
            e.digits := by
        apply takeWhile_run e.hDigits
        apply hStops.mono
        intro c hc
        simp [continues, hc]
      have hSign : Stops isSign (e.digits ++ rest) := by
        cases hText : e.digits with
        | nil => exact absurd hText e.hSome
        | cons d ds =>
            apply stops_cons
            apply isSign_of_isDigit
            exact e.hDigits d (by simp [hText])
      simp only [Literal.marked, Exponent.text,
        List.cons_append, List.append_assoc, exponentOf,
        isMarker_of_exponent, if_true,
        takeSign_text e.sign hSign, hDigits]
      rfl

/- Reading the digits after a point. -/
theorem takeFraction_pointed
    (fraction : Option (List Char))
    (hFraction :
      ∀ digits ∈ fraction, ∀ c ∈ digits, c.isDigit = true)
    {rest : List Char}
    (hDigit : Stops Char.isDigit rest)
    (hPoint : Stops (· == '.') rest) :
    Form.decimal.takeFraction
      (Literal.pointed fraction ++ rest) =
        (fraction.getD [], rest) := by
  cases fraction with
  | none =>
      cases rest with
      | nil => rfl
      | cons c rest =>
          have hc := hPoint c rfl
          simp only [beq_eq_false_iff_ne] at hc
          unfold Form.takeFraction
          split
          · rename_i hText
            exact absurd (List.cons.inj hText).1 hc
          · rfl
  | some digits =>
      have hRun := hFraction digits rfl
      exact Prod.ext (takeWhile_run hRun hDigit)
        (dropWhile_run hRun hDigit)

/- The characters of an unsigned literal. -/
def inUnsigned (c : Char) : Bool :=
  c.isDigit || c == '.' || c == 'e' || c == 'E' || isSign c

theorem hexBody_eq_none
    {c d : Char}
    {cs : List Char}
    (hNo : d ≠ 'x' ∧ d ≠ 'X') :
    hexBody (c :: d :: cs) = none := by
  unfold hexBody
  split
  · rename_i hText
    simp only [List.cons.injEq] at hText
    rw [← hText.2.1, if_neg (not_or.mpr hNo)]
  · rfl

theorem isDigit_bounds
    {c : Char}
    (hDigit : c.isDigit = true) :
    48 ≤ c.toNat ∧ c.toNat ≤ 57 := by
  simpa [Char.isDigit, UInt32.le_iff_toNat_le] using hDigit

/- Numbers do not start with a blank. -/
theorem isSpace_of_head
    {c : Char}
    (hHead : c.isDigit = true ∨ c = '.') :
    isSpace c = false := by
  rcases hHead with hHead | hHead
  · have hBounds := isDigit_bounds hHead
    by_contra hSpace
    simp only [isSpace, Bool.not_eq_false, decide_eq_true_eq,
      List.mem_cons, List.not_mem_nil, or_false] at hSpace
    rcases hSpace with h | h | h | h | h | h <;>
      rw [h] at hBounds <;> exact absurd hBounds (by decide)
  · rw [hHead]
    decide

/- Numbers do not start with a letter. -/
theorem startsWord_of_head
    {c w : Char}
    {word cs : List Char}
    (hHead : c.isDigit = true ∨ c = '.')
    (hLetter : w.isDigit = false)
    (hPoint : w ≠ '.') :
    startsWord (w :: word) (c :: cs) = false := by
  have hLower : c.toLower = c := by
    rcases hHead with hHead | hHead
    · have hBounds := isDigit_bounds hHead
      have hLow : ¬ ('A'.val ≤ c.val ∧ c.val ≤ 'Z'.val) := by
        intro hUpper
        have hLetter : 65 ≤ c.toNat := hUpper.1
        omega
      exact dif_neg hLow
    · rw [hHead]
      decide
  have hNe : c ≠ w := by
    rintro rfl
    rcases hHead with hHead | hHead
    · exact absurd hHead (by simp [hLetter])
    · exact hPoint hHead
  simp [startsWord, hLower, hNe]

namespace Literal

/- A literal is scanned to its end. -/
theorem scan_unsigned
    (l : Literal)
    {rest : List Char}
    (hStops : Stops continues rest) :
    Form.decimal.scan (l.unsigned ++ rest) =
      some l.magnitude := by
  have hRestDigit : Stops Char.isDigit rest := by
    apply hStops.mono
    intro c hc
    simp [continues, hc]
  have hRestPoint : Stops (· == '.') rest := by
    apply hStops.mono
    intro c hc
    simp only [beq_iff_eq] at hc
    simp [continues, hc]
  have hMarkedDigit :
      Stops Char.isDigit (marked l.exponent ++ rest) :=
    stops_append
      (stops_marked Char.isDigit ⟨by decide, by decide⟩ _)
      hRestDigit
  have hMarkedPoint :
      Stops (· == '.') (marked l.exponent ++ rest) :=
    stops_append (stops_marked _ ⟨by decide, by decide⟩ _)
      hRestPoint
  have hPointedDigit :
      Stops Char.isDigit
        (pointed l.fraction ++ (marked l.exponent ++ rest)) :=
    stops_append (stops_pointed Char.isDigit (by decide) _)
      hMarkedDigit
  have hTake := takeWhile_run l.hWhole hPointedDigit
  have hDrop := dropWhile_run l.hWhole hPointedDigit
  have hPoint :=
    takeFraction_pointed l.fraction l.hFraction hMarkedDigit
      hMarkedPoint
  have hExponent := exponentOf_marked l.exponent hStops
  have hKind : Form.decimal.isDigit = Char.isDigit := rfl
  simp only [Form.scan, unsigned, List.append_assoc, hKind,
    hTake, hDrop, hPoint, hExponent, if_neg l.hSome]
  rfl

/- What an unsigned text starts with. -/
theorem exists_head
    (l : Literal) :
    ∃ c cs, l.unsigned = c :: cs ∧
      (c.isDigit = true ∨ c = '.') := by
  cases hWhole : l.whole with
  | cons c cs =>
      have hDigit := l.hWhole c (by simp [hWhole])
      exact ⟨c, _, by simp [unsigned, hWhole]; rfl, .inl hDigit⟩
  | nil =>
      cases hFraction : l.fraction with
      | none =>
          have hSome := l.hSome
          simp [hWhole, hFraction] at hSome
      | some digits =>
          exact ⟨'.', digits ++ marked l.exponent,
            by simp [unsigned, hWhole, hFraction, pointed],
            .inr rfl⟩

/- The characters of an unsigned text. -/
theorem inUnsigned_of_mem
    (l : Literal) :
    ∀ c ∈ l.unsigned, inUnsigned c = true := by
  have hRun :
      ∀ digits : List Char,
        (∀ c ∈ digits, c.isDigit = true) →
        ∀ c ∈ digits, inUnsigned c = true := by
    intro digits hDigits c hc
    simp [inUnsigned, hDigits c hc]
  have hPointed :
      ∀ c ∈ pointed l.fraction, inUnsigned c = true := by
    cases hFraction : l.fraction with
    | none =>
        intro c hc
        cases hc
    | some digits =>
        intro c hc
        rcases List.mem_cons.mp hc with hc | hc
        · simp [inUnsigned, hc]
        · exact hRun digits (l.hFraction digits hFraction) c hc
  have hMarked :
      ∀ c ∈ marked l.exponent, inUnsigned c = true := by
    cases l.exponent with
    | none =>
        intro c hc
        cases hc
    | some e =>
        intro c hc
        simp only [marked, Exponent.text, List.mem_cons,
          List.mem_append] at hc
        rcases hc with hc | hc | hc
        · rcases e.hMarker with hMarker | hMarker <;>
            simp [inUnsigned, hc, hMarker]
        · cases hKind : e.sign <;> rw [hKind] at hc <;>
            simp [Sign.text] at hc <;>
            simp [inUnsigned, isSign, hc]
        · exact hRun e.digits e.hDigits c hc
  intro c hc
  simp only [unsigned, List.mem_append] at hc
  rcases hc with hc | hc | hc
  · exact hRun l.whole l.hWhole c hc
  · exact hPointed c hc
  · exact hMarked c hc

/- A decimal number is not taken for a hexadecimal one. -/
theorem hexBody_unsigned
    (l : Literal)
    {rest : List Char}
    (hStops : Stops continues rest) :
    hexBody (l.unsigned ++ rest) = none := by
  rcases l.exists_head with ⟨c, cs, hText, hHead⟩
  rw [hText, List.cons_append]
  cases hTail : cs ++ rest with
  | nil => simp [hexBody]
  | cons d tail =>
      apply hexBody_eq_none
      cases cs with
      | nil =>
          have hd : continues d = false :=
            hStops d (by simpa using congrArg List.head? hTail)
          constructor <;> rintro rfl <;>
            exact absurd hd (by decide)
      | cons e cs =>
          have hMem : d ∈ l.unsigned := by
            rw [hText, (List.cons.inj hTail).1.symm]
            simp
          have hd := l.inUnsigned_of_mem d hMem
          constructor <;> rintro rfl <;>
            exact absurd hd (by decide)

/- `strtof` reads a literal to its end. -/
theorem strtof_text
    (l : Literal)
    {rest : List Char}
    (hStops : Stops continues rest) :
    strtof (l.text ++ rest) = some (.number l.value) := by
  rcases l.exists_head with ⟨c, cs, hText, hHead⟩
  have hSign : Stops isSign (l.unsigned ++ rest) := by
    rw [hText]
    apply stops_cons
    rcases hHead with hHead | hHead
    · exact isSign_of_isDigit hHead
    · rw [hHead]
      decide
  have hBlank :
      (l.text ++ rest).dropWhile isSpace = l.text ++ rest := by
    have hStart : Stops isSpace (l.text ++ rest) := by
      unfold text
      cases l.sign with
      | none =>
          rw [hText]
          exact stops_cons _ (isSpace_of_head hHead)
      | plus => exact stops_cons _ (by decide)
      | minus => exact stops_cons _ (by decide)
    exact @dropWhile_run isSpace [] _ (by simp) hStart
  have hTake :
      takeSign (l.text ++ rest) =
        (l.sign, l.unsigned ++ rest) := by
    rw [text, List.append_assoc]
    exact takeSign_text l.sign hSign
  have hInf :
      startsWord ['i', 'n', 'f'] (l.unsigned ++ rest) =
        false := by
    rw [hText]
    exact startsWord_of_head hHead (by decide) (by decide)
  have hNan :
      startsWord ['n', 'a', 'n'] (l.unsigned ++ rest) =
        false := by
    rw [hText]
    exact startsWord_of_head hHead (by decide) (by decide)
  have hScan :
      scanUnsigned (l.unsigned ++ rest) = some l.magnitude := by
    rw [scanUnsigned, l.hexBody_unsigned hStops]
    exact l.scan_unsigned hStops
  simp only [strtof, hBlank, hTake, hInf, hNan, hScan]
  rfl

end Literal

end Decimal

end Manipulator
