import Mathlib.Algebra.GroupWithZero.Nat
import Mathlib.Data.Nat.Cast.Defs

/-
  The facts behind the numerals of the source.

  A numeral of a field rests on the fact that it is at least
  two, and a numeral of `Fin n` on the fact that `n` is not
  zero. Lean gives a proof that has parts a name, after the
  definition where it needs the fact first. The facts here
  are found by evaluation, and their proofs have no parts, so
  that all modules write the same term.

  Main declarations:
    * `Evaluates`
    * `atLeastTwo`, `neZero`
-/

------------------------------------------------------------
-- Numerals
------------------------------------------------------------

namespace Manipulator

/- A test that evaluates to `true`. -/
class Evaluates {test : Bool} : Prop where
  eq_true : test = true

instance evaluates : @Evaluates true := ⟨rfl⟩

instance atLeastTwo
    {n : Nat} [hTest : @Evaluates (Nat.ble 2 n)] :
    Nat.AtLeastTwo n :=
  ⟨Nat.le_of_ble_eq_true hTest.eq_true⟩

instance neZero
    {n : Nat} [hTest : @Evaluates (Nat.ble 1 n)] :
    NeZero (no_index (OfNat.ofNat n) : Nat) :=
  ⟨Nat.ne_of_gt (Nat.le_of_ble_eq_true hTest.eq_true)⟩

end Manipulator
