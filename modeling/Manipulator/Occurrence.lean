import Mathlib.Data.List.Basic
import Mathlib.Data.List.Infix

/-
  Occurrences of a pattern in a text.

  A place in a text is written as the part of the text that
  follows it, so that the places of one text are its
  suffixes and a later place is a suffix of an earlier one.

  Main declarations:
    * `EndsAt`, the places where a pattern ends
    * `Past`, the later places
    * `afterFirst`, `afterFirst_eq_some_iff`
    * `textUpTo`, `Delimits`, `textUpTo_eq_iff`
-/

------------------------------------------------------------
-- Places
------------------------------------------------------------

namespace Manipulator

namespace Occurrence

variable {α : Type}

/- The pattern is in the text, and the place follows it. -/
def EndsAt (pattern place text : List α) : Prop :=
  pattern ++ place <:+ text

theorem EndsAt.isSuffix
    {pattern place text : List α}
    (hEnds : EndsAt pattern place text) : place <:+ text :=
  (List.suffix_append pattern place).trans hEnds

theorem EndsAt.of_suffix
    {pattern place text whole : List α}
    (hEnds : EndsAt pattern place text)
    (hSuffix : text <:+ whole) :
    EndsAt pattern place whole :=
  hEnds.trans hSuffix

theorem endsAt_drop
    {pattern text : List α} (hPattern : pattern <+: text) :
    EndsAt pattern (text.drop pattern.length) text :=
  ⟨[], List.prefix_iff_eq_append.mp hPattern⟩

theorem endsAt_cons_iff
    {pattern place text : List α} {c : α} :
    EndsAt pattern place (c :: text) ↔
      pattern ++ place = c :: text ∨
        EndsAt pattern place text :=
  List.suffix_cons_iff

/- One character stands before a place. -/
theorem EndsAt.last_eq
    {pattern place text : List α} {c d : α}
    (hEnds : EndsAt (pattern ++ [c]) place text)
    (hBefore : d :: place <:+ text) :
    d = c := by
  have hLast : c :: place <:+ text := by
    refine List.IsSuffix.trans ⟨pattern, ?_⟩ hEnds
    simp
  have hSame : d :: place <:+ c :: place :=
    List.suffix_of_suffix_length_le hBefore hLast
      (by simp)
  have hEq := hSame.eq_of_length (by simp)
  exact (List.cons.inj hEq).1

/- A place that comes after another one. -/
structure Past (text place : List α) : Prop where
  isSuffix : place <:+ text
  length_lt : place.length < text.length

theorem Past.of_cons_suffix
    {text place : List α} {c : α}
    (hSuffix : c :: place <:+ text) : Past text place :=
  ⟨(List.suffix_cons c place).trans hSuffix,
    hSuffix.length_le⟩

theorem Past.of_suffix
    {text place whole : List α}
    (hPast : Past text place) (hSuffix : text <:+ whole) :
    Past whole place :=
  ⟨hPast.isSuffix.trans hSuffix,
    Nat.lt_of_lt_of_le hPast.length_lt hSuffix.length_le⟩

theorem Past.trans_suffix
    {text place later : List α}
    (hPast : Past text place) (hSuffix : later <:+ place) :
    Past text later :=
  ⟨hSuffix.trans hPast.isSuffix,
    Nat.lt_of_le_of_lt hSuffix.length_le hPast.length_lt⟩

theorem EndsAt.past
    {pattern place text : List α}
    (hEnds : EndsAt pattern place text)
    (hPattern : pattern ≠ []) : Past text place := by
  refine ⟨hEnds.isSuffix, ?_⟩
  have hLength := hEnds.length_le
  have hPos := List.length_pos_iff.mpr hPattern
  rw [List.length_append] at hLength
  omega

------------------------------------------------------------
-- First Occurrence
------------------------------------------------------------

variable [DecidableEq α]

/- The place that follows the first occurrence. -/
def afterFirst (pattern : List α) : List α → Option (List α)
  | [] => if pattern = [] then some [] else none
  | c :: text =>
      if pattern.isPrefixOf (c :: text) then
        some ((c :: text).drop pattern.length)
      else
        afterFirst pattern text

theorem afterFirst_cons_of_isPrefix
    {pattern text : List α} {c : α}
    (hPrefix : pattern <+: c :: text) :
    afterFirst pattern (c :: text) =
      some ((c :: text).drop pattern.length) := by
  simp [afterFirst, List.isPrefixOf_iff_prefix, hPrefix]

theorem afterFirst_cons_of_not_isPrefix
    {pattern text : List α} {c : α}
    (hPrefix : ¬ pattern <+: c :: text) :
    afterFirst pattern (c :: text) =
      afterFirst pattern text := by
  simp [afterFirst, List.isPrefixOf_iff_prefix, hPrefix]

omit [DecidableEq α] in
theorem endsAt_cons_of_not_isPrefix
    {pattern place text : List α} {c : α}
    (hPrefix : ¬ pattern <+: c :: text) :
    EndsAt pattern place (c :: text) ↔
      EndsAt pattern place text := by
  rw [endsAt_cons_iff, or_iff_right]
  rintro hWhole
  exact hPrefix ⟨place, hWhole⟩

/-
  The scan finds the first place where the pattern ends: no
  other one is before it.
-/
theorem afterFirst_eq_some_iff
    {pattern place text : List α} :
    afterFirst pattern text = some place ↔
      EndsAt pattern place text ∧
        ∀ other, EndsAt pattern other text → other <:+ place := by
  induction text with
  | nil =>
      cases pattern with
      | nil =>
          simp only [afterFirst, if_true, Option.some.injEq,
            EndsAt, List.nil_append, List.suffix_nil]
          constructor
          · rintro rfl
            exact ⟨rfl, fun other hOther => hOther ▸ List.suffix_rfl⟩
          · rintro ⟨rfl, -⟩
            rfl
      | cons a pattern =>
          simp [afterFirst, EndsAt]
  | cons c text ih =>
      by_cases hPrefix : pattern <+: c :: text
      · rw [afterFirst_cons_of_isPrefix hPrefix,
          Option.some.injEq]
        have hEnds := endsAt_drop hPrefix
        have hLater :
            ∀ other, EndsAt pattern other (c :: text) →
              other <:+ (c :: text).drop pattern.length := by
          intro other hOther
          refine List.suffix_of_suffix_length_le
            hOther.isSuffix hEnds.isSuffix ?_
          have hLength := hOther.length_le
          simp only [List.length_append] at hLength
          rw [List.length_drop]
          omega
        constructor
        · rintro rfl
          exact ⟨hEnds, hLater⟩
        · rintro ⟨hPlace, hFirstPlace⟩
          have hTo := hFirstPlace _ hEnds
          exact hTo.eq_of_length_le
            (hLater _ hPlace).length_le
      · rw [afterFirst_cons_of_not_isPrefix hPrefix, ih]
        simp only [endsAt_cons_of_not_isPrefix hPrefix]

------------------------------------------------------------
-- Delimited Text
------------------------------------------------------------

/- The text up to a delimiter, or all of it. -/
def textUpTo (delimiter : α) (text : List α) : List α :=
  text.takeWhile (· ≠ delimiter)

/-
  The text begins with a name that the delimiter, or the end
  of the text, follows.
-/
def Delimits (delimiter : α) (text name : List α) : Prop :=
  delimiter ∉ name ∧
    (text = name ∨ name ++ [delimiter] <+: text)

omit [DecidableEq α] in
theorem delimits_cons_iff
    {delimiter c d : α} {text name : List α} :
    Delimits delimiter (c :: text) (d :: name) ↔
      d = c ∧ d ≠ delimiter ∧ Delimits delimiter text name := by
  simp only [Delimits, List.mem_cons, not_or, List.cons.injEq,
    List.cons_append, List.cons_prefix_cons, ne_eq]
  constructor
  · rintro ⟨⟨hOther, hName⟩, ⟨rfl, hEnd⟩ | ⟨rfl, hEnd⟩⟩
    · exact ⟨rfl, Ne.symm hOther, hName, .inl hEnd⟩
    · exact ⟨rfl, Ne.symm hOther, hName, .inr hEnd⟩
  · rintro ⟨rfl, hOther, hName, hEnd⟩
    refine ⟨⟨Ne.symm hOther, hName⟩, ?_⟩
    exact hEnd.imp (fun hText => ⟨rfl, hText⟩)
      (fun hText => ⟨rfl, hText⟩)

theorem textUpTo_cons_self
    {delimiter : α} {text : List α} :
    textUpTo delimiter (delimiter :: text) = [] := by
  simp [textUpTo]

theorem textUpTo_cons_of_ne
    {delimiter c : α} {text : List α}
    (hOther : c ≠ delimiter) :
    textUpTo delimiter (c :: text) = c :: textUpTo delimiter text := by
  simp [textUpTo, hOther]

/- What stands before the delimiter is what it delimits. -/
theorem textUpTo_eq_iff
    {delimiter : α} {text name : List α} :
    textUpTo delimiter text = name ↔
      Delimits delimiter text name := by
  induction text generalizing name with
  | nil =>
      cases name with
      | nil => simp [textUpTo, Delimits]
      | cons d name => simp [textUpTo, Delimits]
  | cons c text ih =>
      cases name with
      | nil =>
          by_cases hOther : c = delimiter
          · subst hOther
            simp [textUpTo_cons_self, Delimits]
          · simp [textUpTo_cons_of_ne hOther, Delimits,
              Ne.symm hOther]
      | cons d name =>
          rw [delimits_cons_iff]
          by_cases hOther : c = delimiter
          · subst hOther
            rw [textUpTo_cons_self]
            constructor
            · intro hName
              cases hName
            · rintro ⟨hSame, hNe, -⟩
              exact absurd hSame hNe
          · rw [textUpTo_cons_of_ne hOther, List.cons.injEq, ih]
            constructor
            · rintro ⟨rfl, hName⟩
              exact ⟨rfl, hOther, hName⟩
            · rintro ⟨rfl, -, hName⟩
              exact ⟨rfl, hName⟩

theorem textUpTo_append_delimiter
    {delimiter : α} {name rest : List α}
    (hName : delimiter ∉ name) :
    textUpTo delimiter (name ++ delimiter :: rest) = name :=
  textUpTo_eq_iff.mpr ⟨hName, .inr ⟨rest, by simp⟩⟩

end Occurrence

end Manipulator
