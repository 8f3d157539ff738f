import Manipulator.Numerals
import Mathlib

/-
  Division with the special values of floating point.

  Numbers are exact, in an ordered field `K`, so that nothing
  is rounded and nothing overflows. What remains of floating
  point are the results that are no numbers: the infinities,
  the two zeros, and not-a-number.

  Main declarations:
    * `Double`, `Double.ofField`, `Double.div`
    * `Double.clampOne`, `Double.value?`
    * `Double.value_clampOne`
-/

------------------------------------------------------------
-- Values
------------------------------------------------------------

namespace Manipulator

/- A value is zero or `nonzero`, never both. -/
inductive Double (K : Type) where
| nan
| infinite (negative : Bool)
| zero (negative : Bool)
| nonzero (value : K)
deriving DecidableEq, Repr

namespace Double

variable {K : Type} [Field K] [LinearOrder K]

def ofField (value : K) : Double K :=
  if value = 0 then .zero false else .nonzero value

/- The number, when it is one. -/
def value? : Double K → Option K
| .nan => none
| .infinite _ => none
| .zero _ => some 0
| .nonzero value => some value

def isNegative : Double K → Bool
| .nan => false
| .infinite negative => negative
| .zero negative => negative
| .nonzero value => decide (value < 0)

------------------------------------------------------------
-- Division And Comparison
------------------------------------------------------------

/- Zero by zero and infinite by infinite are no numbers. -/
def div (a b : Double K) : Double K :=
  let negative := a.isNegative ^^ b.isNegative
  match a, b with
  | .nan, _ => .nan
  | _, .nan => .nan
  | .infinite _, .infinite _ => .nan
  | .infinite _, _ => .infinite negative
  | .zero _, .zero _ => .nan
  | .zero _, _ => .zero negative
  | .nonzero _, .infinite _ => .zero negative
  | .nonzero _, .zero _ => .infinite negative
  | .nonzero x, .nonzero y => .nonzero (x / y)

/- `t > 1.0`. -/
def GtOne : Double K → Prop
| .infinite negative => negative = false
| .nonzero value => 1 < value
| _ => False

/- `t >= 1.0`. -/
def GeOne : Double K → Prop
| .infinite negative => negative = false
| .nonzero value => 1 ≤ value
| _ => False

instance (t : Double K) : Decidable t.GtOne := by
  unfold GtOne
  cases t <;> infer_instance

instance (t : Double K) : Decidable t.GeOne := by
  unfold GeOne
  cases t <;> infer_instance

/- `if (t > 1.0) t = 1.0`. -/
def clampOne (t : Double K) : Double K :=
  if t.GtOne then .nonzero 1 else t

/- A clamped value that is at least 1 is 1. -/
theorem value_clampOne
    {t : Double K}
    (hEnd : t.clampOne.GeOne) : t.clampOne.value? = some 1 := by
  unfold clampOne at hEnd ⊢
  by_cases hAbove : t.GtOne
  · rw [if_pos hAbove]
    rfl
  · rw [if_neg hAbove] at hEnd ⊢
    cases t with
    | nan => exact hEnd.elim
    | infinite negative => exact absurd hEnd hAbove
    | zero negative => exact hEnd.elim
    | nonzero value =>
        have hOne : value = 1 :=
          le_antisymm (not_lt.mp hAbove) hEnd
        rw [hOne]
        rfl

end Double

end Manipulator
