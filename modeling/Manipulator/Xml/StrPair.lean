import Manipulator.Occurrence
import Mathlib.Data.List.TakeWhile

/-
  The strings of the XML library: how a piece of the buffer
  is delimited, and what the library makes of it when it is
  read.

  A text is a list of bytes, each of them a character below
  256. The library reads a buffer up to its first NUL, and
  a pointer into the buffer is the part of it from there on.

  Main declarations:
    * `StrPair`, `StrPair.parseText`, `StrPair.parseName`
    * `getCharacterRef`, `reference`
    * `StrPair.getStr`, `Verbatim`, `getStr_eq_text_iff`
-/

------------------------------------------------------------
-- Bytes
------------------------------------------------------------

namespace Manipulator

namespace Xml

open Occurrence

abbrev Text := List Char

def nul : Char := Char.ofNat 0

def doubleQuote : Char := Char.ofNat 34

def singleQuote : Char := Char.ofNat 39

def lineFeed : Char := Char.ofNat 10

def carriageReturn : Char := Char.ofNat 13

/- The test `!*p`. -/
def atEnd : Text → Bool
  | [] => true
  | c :: _ => c == nul

/- `IsWhiteSpace`: the bytes from 128 on are never spaces. -/
def isWhiteSpace (c : Char) : Bool :=
  c == ' ' || (9 ≤ c.toNat && c.toNat ≤ 13)

def isNameStartChar (c : Char) : Bool :=
  128 ≤ c.toNat || c.isAlpha || c == ':' || c == '_'

def isNameChar (c : Char) : Bool :=
  isNameStartChar c || c.isDigit || c == '.' || c == '-'

def skipWhiteSpace (p : Text) : Text :=
  p.dropWhile isWhiteSpace

theorem skipWhiteSpace_isSuffix
    (p : Text) : skipWhiteSpace p <:+ p :=
  List.dropWhile_suffix isWhiteSpace

------------------------------------------------------------
-- Delimited Strings
------------------------------------------------------------

/-
  A string of the buffer: what stands between `_start` and
  `_end`, and the buffer from `_end` on.
-/
structure StrPair where
  text : Text
  rest : Text
  deriving DecidableEq

namespace StrPair

/- The pointer `_start`. -/
def start (pair : StrPair) : Text :=
  pair.text ++ pair.rest

/- The text up to an end tag, and the pointer past the tag. -/
def parseText (endTag : Text) :
    Text → Option (StrPair × Text)
  | [] => none
  | c :: p =>
      if c == nul then
        none
      else if endTag.isPrefixOf (c :: p) then
        some (⟨[], c :: p⟩, (c :: p).drop endTag.length)
      else
        match parseText endTag p with
        | none => none
        | some (pair, q) => some (⟨c :: pair.text, pair.rest⟩, q)

/- A name; the pointer past it is where the name ends. -/
def parseName : Text → Option StrPair
  | [] => none
  | c :: p =>
      if isNameStartChar c then
        some ⟨c :: p.takeWhile isNameChar, p.dropWhile isNameChar⟩
      else
        none

/- One byte that `ParseText` passes over. -/
theorem parseText_cons
    {endTag p q : Text} {c : Char} {pair : StrPair}
    (hParse : parseText endTag (c :: p) = some (pair, q)) :
    c ≠ nul ∧
      ((pair = ⟨[], c :: p⟩ ∧ endTag ++ q = c :: p) ∨
        (¬ endTag <+: c :: p ∧
          ∃ tail, parseText endTag p = some (tail, q) ∧
            pair = ⟨c :: tail.text, tail.rest⟩)) := by
  rw [parseText] at hParse
  split_ifs at hParse with hNul hTag
  · refine ⟨by simpa using hNul, .inl ?_⟩
    rw [List.isPrefixOf_iff_prefix] at hTag
    cases hParse
    exact ⟨rfl, List.prefix_iff_eq_append.mp hTag⟩
  · refine ⟨by simpa using hNul, .inr ⟨?_, ?_⟩⟩
    · simpa [List.isPrefixOf_iff_prefix] using hTag
    · split at hParse
      · cases hParse
      · rename_i tail q' hTail
        cases hParse
        exact ⟨tail, hTail, rfl⟩

/- The string begins where the parse did. -/
theorem start_of_parseText
    {endTag p q : Text} {pair : StrPair}
    (hParse : parseText endTag p = some (pair, q)) :
    pair.start = p := by
  induction p generalizing pair with
  | nil => cases hParse
  | cons c p ih =>
      obtain ⟨-, ⟨rfl, -⟩ | ⟨-, tail, hTail, rfl⟩⟩ :=
        parseText_cons hParse
      · rfl
      · rw [← ih hTail]
        rfl

/- The end tag stands between the string and the pointer. -/
theorem rest_of_parseText
    {endTag p q : Text} {pair : StrPair}
    (hParse : parseText endTag p = some (pair, q)) :
    pair.rest = endTag ++ q := by
  induction p generalizing pair with
  | nil => cases hParse
  | cons c p ih =>
      obtain ⟨-, ⟨rfl, hTag⟩ | ⟨-, tail, hTail, rfl⟩⟩ :=
        parseText_cons hParse
      · exact hTag.symm
      · exact (ih hTail : tail.rest = endTag ++ q)

theorem nul_notMem_of_parseText
    {endTag p q : Text} {pair : StrPair}
    (hParse : parseText endTag p = some (pair, q)) :
    nul ∉ pair.text := by
  induction p generalizing pair with
  | nil => cases hParse
  | cons c p ih =>
      obtain ⟨hNul, ⟨rfl, -⟩ | ⟨-, tail, hTail, rfl⟩⟩ :=
        parseText_cons hParse
      · exact List.not_mem_nil
      · rw [List.mem_cons, not_or]
        exact ⟨Ne.symm hNul, ih hTail⟩

/- A string that one byte ends does not hold that byte. -/
theorem delimiter_notMem_of_parseText
    {p q : Text} {quote : Char} {pair : StrPair}
    (hParse : parseText [quote] p = some (pair, q)) :
    quote ∉ pair.text := by
  induction p generalizing pair with
  | nil => cases hParse
  | cons c p ih =>
      obtain ⟨-, ⟨rfl, -⟩ | ⟨hTag, tail, hTail, rfl⟩⟩ :=
        parseText_cons hParse
      · exact List.not_mem_nil
      · rw [List.mem_cons, not_or]
        refine ⟨?_, ih hTail⟩
        rintro rfl
        exact hTag ⟨p, rfl⟩

/- The end tag ends where the pointer is. -/
theorem endsAt_of_parseText
    {endTag p q : Text} {pair : StrPair}
    (hParse : parseText endTag p = some (pair, q)) :
    EndsAt endTag q p := by
  refine ⟨pair.text, ?_⟩
  rw [← rest_of_parseText hParse]
  exact start_of_parseText hParse

/- A string that holds no delimiter is parsed up to it. -/
theorem parseText_delimiter
    {quote : Char} {text rest : Text} (hQuote : quote ≠ nul)
    (hText : quote ∉ text) (hNul : nul ∉ text) :
    parseText [quote] (text ++ quote :: rest) =
      some (⟨text, quote :: rest⟩, rest) := by
  induction text with
  | nil => simp [parseText, hQuote]
  | cons c text ih =>
      rw [List.mem_cons, not_or] at hText hNul
      rw [List.cons_append, parseText,
        ih hText.2 hNul.2]
      simp [hText.1, Ne.symm hNul.1]

theorem past_of_parseName
    {p : Text} {pair : StrPair}
    (hParse : parseName p = some pair) : Past p pair.rest := by
  cases p with
  | nil => cases hParse
  | cons c p =>
      rw [parseName] at hParse
      split_ifs at hParse
      cases hParse
      exact (Past.of_cons_suffix List.suffix_rfl).trans_suffix
        (List.dropWhile_suffix isNameChar)

end StrPair

------------------------------------------------------------
-- References
------------------------------------------------------------

structure Entity where
  pattern : Text
  value : Char

def entities : List Entity :=
  [⟨['q', 'u', 'o', 't'], doubleQuote⟩,
    ⟨['a', 'm', 'p'], '&'⟩,
    ⟨['a', 'p', 'o', 's'], singleQuote⟩,
    ⟨['l', 't'], '<'⟩,
    ⟨['g', 't'], '>'⟩]

def maxCodePoint : UInt32 := 0x10FFFF

def continuationByte (input : Nat) : Char :=
  Char.ofNat ((input ||| 0x80) &&& 0xBF)

def firstByte (mark input : Nat) : Char :=
  Char.ofNat ((input ||| mark) % 256)

def convertUTF32ToUTF8 (input : Nat) : Text :=
  if input < 0x80 then
    [firstByte 0x00 input]
  else if input < 0x800 then
    [firstByte 0xC0 (input >>> 6), continuationByte input]
  else if input < 0x10000 then
    [firstByte 0xE0 (input >>> 12),
      continuationByte (input >>> 6), continuationByte input]
  else if input < 0x200000 then
    [firstByte 0xF0 (input >>> 18),
      continuationByte (input >>> 12),
      continuationByte (input >>> 6), continuationByte input]
  else
    []

def digitValue (hex : Bool) (c : Char) : Option UInt32 :=
  if c.isDigit then
    some (c.val - '0'.val)
  else if hex && ('a'.val ≤ c.val && c.val ≤ 'f'.val) then
    some (c.val - 'a'.val + 10)
  else if hex && ('A'.val ≤ c.val && c.val ≤ 'F'.val) then
    some (c.val - 'A'.val + 10)
  else
    none

/- The digits are read from the last one to the first. -/
def readDigits (hex : Bool) :
    Text → UInt32 → UInt32 → Option UInt32
  | [], ucs, _ => some ucs
  | c :: digits, ucs, mult =>
      match digitValue hex c with
      | none => none
      | some digit =>
          let next := mult * (if hex then 16 else 10)
          readDigits hex digits (ucs + mult * digit)
            (if maxCodePoint < next then maxCodePoint else next)

/-
  The character that the reference at the pointer stands
  for, and the pointer past the reference. The digits go
  back from the semicolon to the nearest terminator.
-/
def getCharacterRef (p : Text) : Option (Text × Text) :=
  match p.drop 1 with
  | '#' :: c :: q =>
      let hex := c == 'x'
      let terminator := if hex then 'x' else '#'
      let q := if hex then q else c :: q
      if ';' ∈ q then
        let digits :=
          (textUpTo ';' q).reverse.takeWhile (· ≠ terminator)
        match readDigits hex digits 0 1 with
        | none => none
        | some ucs =>
            if maxCodePoint < ucs then
              none
            else
              some (convertUTF32ToUTF8 ucs.toNat,
                (q.dropWhile (· ≠ ';')).drop 1)
      else
        none
  | _ => some ([], p.drop 1)

/- An ampersand that is replaced, and the pointer past it. -/
def reference (p : Text) : Option (Text × Text) :=
  if (p.drop 1).head? = some '#' then
    getCharacterRef p
  else
    entities.findSome? fun entity =>
      if (entity.pattern ++ [';']).isPrefixOf (p.drop 1) then
        some ([entity.value], p.drop (entity.pattern.length + 2))
      else
        none

theorem length_convertUTF32ToUTF8_le
    (input : Nat) : (convertUTF32ToUTF8 input).length ≤ 4 := by
  unfold convertUTF32ToUTF8
  split_ifs <;> simp

theorem length_convertUTF32ToUTF8_of_lt
    {input : Nat} (hInput : input < 0x80) :
    (convertUTF32ToUTF8 input).length = 1 := by
  simp [convertUTF32ToUTF8, hInput]

theorem toNat_sub_le
    {low c high : UInt32} (hLow : low ≤ c) (hHigh : c ≤ high) :
    (c - low).toNat ≤ high.toNat - low.toNat := by
  rw [UInt32.toNat_sub_of_le _ _ hLow]
  exact Nat.sub_le_sub_right (UInt32.le_iff_toNat_le.mp hHigh) _

theorem digitValue_lt
    {hex : Bool} {c : Char} {digit : UInt32}
    (hDigit : digitValue hex c = some digit) :
    digit.toNat < 16 := by
  have hTen : ∀ value : UInt32, value.toNat ≤ 5 →
      (value + 10).toNat < 16 := by
    intro value hValue
    rw [UInt32.toNat_add]
    have hLiteral : (10 : UInt32).toNat = 10 := rfl
    omega
  unfold digitValue at hDigit
  split_ifs at hDigit with hDecimal hLower hUpper
  · cases hDigit
    simp only [Char.isDigit, Bool.and_eq_true,
      decide_eq_true_eq] at hDecimal
    have hNine := toNat_sub_le hDecimal.1 hDecimal.2
    exact Nat.lt_of_le_of_lt hNine (by decide)
  · cases hDigit
    simp only [Bool.and_eq_true, decide_eq_true_eq] at hLower
    exact hTen _ (toNat_sub_le hLower.2.1 hLower.2.2)
  · cases hDigit
    simp only [Bool.and_eq_true, decide_eq_true_eq] at hUpper
    exact hTen _ (toNat_sub_le hUpper.2.1 hUpper.2.2)

/- A reference of at most one digit is a short character. -/
theorem readDigits_lt
    {hex : Bool} {digits : Text} {ucs : UInt32}
    (hLength : digits.length ≤ 1)
    (hRead : readDigits hex digits 0 1 = some ucs) :
    ucs.toNat < 0x80 := by
  cases digits with
  | nil =>
      cases hRead
      decide
  | cons c digits =>
      have hNil : digits = [] := by
        simpa using hLength
      subst hNil
      rw [readDigits] at hRead
      split at hRead
      · cases hRead
      · rename_i digit hDigit
        cases hRead
        have hLt := digitValue_lt hDigit
        simp only [UInt32.zero_add, UInt32.one_mul]
        omega

theorem length_dropWhile_of_mem
    {q : Text} (hMem : ';' ∈ q) :
    q.length = (textUpTo ';' q).length + 1 +
      ((q.dropWhile (· ≠ ';')).drop 1).length := by
  have hSplit := List.takeWhile_append_dropWhile
    (p := fun c => decide (c ≠ ';')) (l := q)
  have hLength := congrArg List.length hSplit
  have hNonempty : q.dropWhile (· ≠ ';') ≠ [] := by
    intro hNil
    rw [List.dropWhile_eq_nil_iff] at hNil
    simpa using hNil _ hMem
  have hPos := List.length_pos_iff.mpr hNonempty
  simp only [List.length_append] at hLength
  simp only [textUpTo, List.length_drop]
  omega

/- What replaces a character reference is shorter than it. -/
theorem length_of_getCharacterRef
    {q written adjusted : Text}
    (hRef :
      getCharacterRef ('&' :: q) = some (written, adjusted)) :
    written.length + adjusted.length < q.length + 1 := by
  unfold getCharacterRef at hRef
  simp only [List.drop_succ_cons, List.drop_zero] at hRef
  split at hRef
  · rename_i c digits
    generalize hText :
      (if c == 'x' then digits else c :: digits) = text at hRef
    generalize
      (if c == 'x' then 'x' else '#') = terminator at hRef
    have hLength : text.length ≤ (c :: digits).length := by
      rw [← hText]
      split_ifs <;> simp
    split_ifs at hRef with hMem
    split at hRef
    · cases hRef
    · rename_i ucs hRead
      split_ifs at hRef
      cases hRef
      have hConsumed := length_dropWhile_of_mem hMem
      simp only [List.length_cons] at hLength ⊢
      by_cases hShort : (textUpTo ';' text).length ≤ 1
      · have hDigits := readDigits_lt
          (Nat.le_trans
            ((List.takeWhile_sublist _).length_le)
            (by simpa using hShort)) hRead
        rw [length_convertUTF32ToUTF8_of_lt hDigits]
        omega
      · have hFour := length_convertUTF32ToUTF8_le ucs.toNat
        omega
  · cases hRef
    simp

theorem length_of_reference
    {q written adjusted : Text}
    (hRef : reference ('&' :: q) = some (written, adjusted)) :
    written.length + adjusted.length < q.length + 1 := by
  unfold reference at hRef
  split_ifs at hRef with hSharp
  · exact length_of_getCharacterRef hRef
  · obtain ⟨entity, -, hEntity⟩ :=
      List.exists_of_findSome?_eq_some hRef
    split_ifs at hEntity with hPrefix
    cases hEntity
    have hLength :=
      (List.isPrefixOf_iff_prefix.mp hPrefix).length_le
    simp only [List.length_append, List.length_cons,
      List.length_nil, List.length_drop] at hLength ⊢
    omega

------------------------------------------------------------
-- Reading A String
------------------------------------------------------------

/-
  One turn of the loop of `GetStr`: what is written, and the
  next read pointer. An entity that is not known moves both
  pointers and writes nothing, so that the byte which the
  buffer holds at the write pointer stays.
-/
def flushStep
    (processEntities : Bool) (stale : Text) :
    Text → Text × Text
  | [] => ([], [])
  | c :: q =>
      if c == carriageReturn then
        ([lineFeed],
          if q.head? = some lineFeed then q.drop 1 else q)
      else if c == lineFeed then
        ([lineFeed],
          if q.head? = some carriageReturn then q.drop 1 else q)
      else if processEntities && c == '&' then
        match reference (c :: q) with
        | some (written, adjusted) => (written, adjusted)
        | none =>
            (if q.head? = some '#' then ['&'] else stale, q)
      else
        ([c], q)

/- The loop, with what is written so far. -/
def flush (processEntities : Bool) (raw : Text) :
    Nat → Text → Text → Text
  | 0, _, written => written
  | _ + 1, [], written => written
  | fuel + 1, c :: p, written =>
      let step := flushStep processEntities
        ((raw.drop written.length).take 1) (c :: p)
      flush processEntities raw fuel step.2 (written ++ step.1)

/- `GetStr` of a string whose line ends are normalised. -/
def StrPair.getStr
    (processEntities : Bool) (pair : StrPair) : Text :=
  textUpTo nul (flush processEntities pair.text pair.text.length
    pair.text [])

/- A string that nothing is replaced in. -/
def Verbatim : Text → Prop
  | [] => True
  | c :: p =>
      c ≠ carriageReturn ∧
        (c = '&' → reference (c :: p) = none) ∧ Verbatim p

theorem flushStep_of_reference
    {stale q written adjusted : Text}
    (hRef : reference ('&' :: q) = some (written, adjusted)) :
    flushStep true stale ('&' :: q) = (written, adjusted) := by
  have hReturn : '&' ≠ carriageReturn := by decide
  have hFeed : '&' ≠ lineFeed := by decide
  simp [flushStep, hReturn, hFeed, hRef]

/-
  What a turn does: it reads more than it writes, which no
  verbatim text lets it do, or it makes a line feed of a
  carriage return, or it leaves the byte.
-/
theorem flushStep_cases
    (stale q : Text)
    (c : Char) :
    ((flushStep true stale (c :: q)).1.length +
          (flushStep true stale (c :: q)).2.length <
        q.length + 1 ∧
      ¬ Verbatim (c :: q)) ∨
    (c = carriageReturn ∧
      flushStep true stale (c :: q) = ([lineFeed], q)) ∨
    ((flushStep true stale (c :: q) = ([c], q) ∨
        flushStep true stale (c :: q) = (stale, q)) ∧
      c ≠ carriageReturn ∧
      (c = '&' → reference (c :: q) = none)) := by
  by_cases hReturn : c = carriageReturn
  · subst hReturn
    cases q with
    | nil => exact .inr (.inl ⟨rfl, rfl⟩)
    | cons d q =>
        by_cases hFeed : d = lineFeed
        · left
          subst hFeed
          refine ⟨?_, fun hText => hText.1 rfl⟩
          simp [flushStep, Nat.add_comm 1]
        · exact .inr (.inl ⟨rfl, by simp [flushStep, hFeed]⟩)
  · by_cases hFeed : c = lineFeed
    · subst hFeed
      have hOther :
          lineFeed = '&' →
            reference (lineFeed :: q) = none :=
        fun hSame => absurd hSame (by decide)
      cases q with
      | nil =>
          exact .inr (.inr ⟨.inl rfl, hReturn, hOther⟩)
      | cons d q =>
          by_cases hPair : d = carriageReturn
          · left
            subst hPair
            refine ⟨?_, fun hText => hText.2.2.1 rfl⟩
            simp [flushStep, hReturn, Nat.add_comm 1]
          · refine .inr (.inr ⟨.inl ?_, hReturn, hOther⟩)
            simp [flushStep, hReturn, hPair]
    · by_cases hRef : c = '&'
      · subst hRef
        cases hReference : reference ('&' :: q) with
        | some pair =>
            rw [flushStep_of_reference hReference]
            refine .inl ⟨length_of_reference hReference, ?_⟩
            intro hText
            have hNone := hText.2.1 rfl
            rw [hReference] at hNone
            cases hNone
        | none =>
            refine .inr (.inr ⟨?_, hReturn, fun _ => rfl⟩)
            by_cases hSharp : q.head? = some '#'
            · left
              simp [flushStep, hReturn, hFeed, hReference,
                hSharp]
            · right
              simp [flushStep, hReturn, hFeed, hReference,
                hSharp]
      · refine .inr (.inr ⟨.inl ?_, hReturn, ?_⟩)
        · simp [flushStep, hReturn, hFeed, hRef]
        · exact fun hSame => absurd hSame hRef

/- No turn of the loop writes more than it reads. -/
theorem length_flushStep_le
    {stale : Text} (hStale : stale.length ≤ 1)
    (q : Text)
    (c : Char) :
    (flushStep true stale (c :: q)).1.length +
        (flushStep true stale (c :: q)).2.length ≤
      q.length + 1 := by
  obtain ⟨hLess, -⟩ | ⟨-, hStep⟩ | ⟨hStep | hStep, -⟩ :=
    flushStep_cases stale q c
  · exact Nat.le_of_lt hLess
  · simp [hStep, Nat.add_comm]
  · simp [hStep, Nat.add_comm]
  · simp only [hStep]
    omega

theorem length_flush_le
    (raw p written : Text)
    (fuel : Nat) :
    (flush true raw fuel p written).length ≤
      written.length + p.length := by
  induction fuel generalizing p written with
  | zero =>
      rw [flush]
      omega
  | succ fuel ih =>
      cases p with
      | nil => simp [flush]
      | cons c q =>
          rw [flush]
          refine Nat.le_trans (ih _ _) ?_
          have hStep := length_flushStep_le
            (List.length_take_le 1 (raw.drop written.length))
            q c
          rw [List.length_append, List.length_cons]
          omega

/- What is written stays at the head. -/
theorem prefix_flush
    (raw p written : Text)
    (fuel : Nat) :
    written <+: flush true raw fuel p written := by
  induction fuel generalizing p written with
  | zero => exact List.prefix_rfl
  | succ fuel ih =>
      cases p with
      | nil => exact List.prefix_rfl
      | cons c q =>
          rw [flush]
          exact (List.prefix_append _ _).trans (ih _ _)

/-
  As long as nothing was replaced, the loop leaves the text
  as it is exactly when nothing is replaced in the rest.
-/
theorem flush_eq_iff
    {raw p written : Text} {fuel : Nat}
    (hRaw : raw = written ++ p) (hFuel : p.length ≤ fuel) :
    flush true raw fuel p written = raw ↔ Verbatim p := by
  induction p generalizing written fuel with
  | nil =>
      have hSame : flush true raw fuel [] written = written := by
        cases fuel <;> rfl
      rw [hSame, hRaw, List.append_nil]
      exact iff_of_true rfl trivial
  | cons c q ih =>
      cases fuel with
      | zero => simp at hFuel
      | succ fuel =>
          have hStale :
              (raw.drop written.length).take 1 = [c] := by
            simp [hRaw]
          rw [flush, hStale]
          obtain ⟨hLess, hText⟩ | ⟨rfl, hStep⟩ |
            ⟨hStep, hReturn, hRef⟩ :=
              flushStep_cases [c] q c
          · refine iff_of_false ?_ hText
            intro hSame
            have hLength := length_flush_le raw
              (flushStep true [c] (c :: q)).2
              (written ++ (flushStep true [c] (c :: q)).1)
              fuel
            rw [hSame, hRaw] at hLength
            simp only [List.length_append,
              List.length_cons] at hLength
            omega
          · refine iff_of_false ?_ fun hText => hText.1 rfl
            rw [hStep]
            intro hSame
            have hHead := prefix_flush raw q
              (written ++ [lineFeed]) fuel
            rw [hSame, hRaw, List.prefix_append_right_inj,
              List.cons_prefix_cons] at hHead
            exact absurd hHead.1 (by decide)
          · have hCopy :
                flushStep true [c] (c :: q) = ([c], q) :=
              hStep.elim id id
            rw [hCopy, Verbatim,
              ih (by simp [hRaw])
                (Nat.le_of_succ_le_succ hFuel)]
            exact ⟨fun hRest => ⟨hReturn, hRef, hRest⟩,
              fun hText => hText.2.2⟩

/-
  The library gives a string back as it stands in the buffer
  exactly when it is verbatim.
-/
theorem getStr_eq_text_iff
    {pair : StrPair} (hNul : nul ∉ pair.text) :
    pair.getStr true = pair.text ↔ Verbatim pair.text := by
  have hFlush :
      flush true pair.text pair.text.length pair.text [] =
          pair.text ↔ Verbatim pair.text :=
    flush_eq_iff rfl (Nat.le_refl _)
  rw [← hFlush]
  have hWhole : textUpTo nul pair.text = pair.text :=
    textUpTo_eq_iff.mpr ⟨hNul, .inl rfl⟩
  constructor
  · intro hSame
    -- a string cut at a NUL would be shorter than the text
    have hCut :
        pair.getStr true <+:
          flush true pair.text pair.text.length pair.text [] :=
      List.takeWhile_prefix _
    have hLength := length_flush_le pair.text pair.text []
      pair.text.length
    have hEq := hCut.eq_of_length_le (by
      rw [hSame]
      simpa using hLength)
    rw [← hEq, hSame]
  · intro hSame
    rw [StrPair.getStr, hSame, hWhole]

end Xml

end Manipulator
