import Manipulator.Decimal
import Manipulator.Double
import Manipulator.Xml.StrPair

/-
  The values of scripts.

  A number of type `double` is an exact rational or one of
  the special values. `round` is the rounding to the nearest
  double, with the overflow to infinity: an operation is the
  exact one, rounded.

  Main declarations:
    * `Double.add`, `Double.mul`, `Double.quotient`
    * `Double.fromChars`, `Double.toText`
    * `Held`, `Any`, `AnyError`
    * `Any.castDouble`, `Any.castString`, `Any.copyInto`
-/

------------------------------------------------------------
-- Doubles
------------------------------------------------------------

namespace Manipulator

open Xml (Text)

namespace Double

variable (round : ℚ → Double ℚ)

def one : Double ℚ := .nonzero 1

def ofBool (b : Bool) : Double ℚ :=
  if b then one else .zero false

def ofInt (i : Int) : Double ℚ :=
  if i = 0 then .zero false else round i

def neg : Double ℚ → Double ℚ
| .nan => .nan
| .infinite negative => .infinite !negative
| .zero negative => .zero !negative
| .nonzero value => .nonzero (-value)

def add : Double ℚ → Double ℚ → Double ℚ
| .nan, _ => .nan
| _, .nan => .nan
| .infinite s, .infinite t => if s = t then .infinite s else .nan
| .infinite s, _ => .infinite s
| _, .infinite t => .infinite t
| .zero s, .zero t => .zero (s && t)
| .zero _, b => b
| a, .zero _ => a
| .nonzero x, .nonzero y =>
    if x + y = 0 then .zero false else round (x + y)

def sub (a b : Double ℚ) : Double ℚ := add round a (neg b)

def mul (a b : Double ℚ) : Double ℚ :=
  let negative := a.isNegative ^^ b.isNegative
  match a, b with
  | .nan, _ => .nan
  | _, .nan => .nan
  | .infinite _, .zero _ => .nan
  | .zero _, .infinite _ => .nan
  | .infinite _, _ => .infinite negative
  | _, .infinite _ => .infinite negative
  | .zero _, _ => .zero negative
  | _, .zero _ => .zero negative
  | .nonzero x, .nonzero y => round (x * y)

def quotient (a b : Double ℚ) : Double ℚ :=
  match a.div b with
  | .nonzero value => round value
  | special => special

/- `a < b`, which is false when one of them is no number. -/
def lt : Double ℚ → Double ℚ → Bool
| .nan, _ => false
| _, .nan => false
| .infinite s, .infinite t => s && !t
| .infinite s, _ => s
| _, .infinite t => !t
| a, b => decide (a.value?.getD 0 < b.value?.getD 0)

/- `a <= b`. -/
def le : Double ℚ → Double ℚ → Bool
| .nan, _ => false
| _, .nan => false
| .infinite s, .infinite t => s || !t
| .infinite s, _ => s
| _, .infinite t => !t
| a, b => decide (a.value?.getD 0 ≤ b.value?.getD 0)

def abs : Double ℚ → Double ℚ
| .nan => .nan
| .infinite _ => .infinite false
| .zero _ => .zero false
| .nonzero value => .nonzero |value|

/- The smallest step of `float` above 1. -/
def epsilon : Double ℚ := .nonzero (1 / 2 ^ 23)

/- `IsSame`: two numbers so close are the same. -/
def isSame (a b : Double ℚ) : Bool :=
  le (abs (sub round a b)) epsilon

/- `static_cast<bool>`. -/
def toBool : Double ℚ → Bool
| .zero _ => false
| _ => true

def int64Limit : Int := 2 ^ 63

/-
  `static_cast<int64_t>`: towards zero. What has no such
  value is what the processor makes of it.
-/
def toInt64 (d : Double ℚ) : Int :=
  match d.value? with
  | none => -int64Limit
  | some value =>
      let whole := Int.tdiv value.num value.den
      if -int64Limit ≤ whole ∧ whole < int64Limit then
        whole
      else
        -int64Limit

/- `from != std::nearbyint(from)`. -/
def isWhole (d : Double ℚ) : Bool :=
  match d with
  | .nan => false
  | .infinite _ => true
  | .zero _ => true
  | .nonzero value => value.den = 1

/- `std::from_chars`: no blanks and no plus come first. -/
def fromChars (text : Text) : Option (Double ℚ) :=
  let negative := text.head? = some '-'
  let p := if negative then text.tail else text
  let signed := fun d : Double ℚ => if negative then neg d else d
  if Decimal.startsWord ['i', 'n', 'f'] p then
    some (signed (.infinite false))
  else if Decimal.startsWord ['n', 'a', 'n'] p then
    some .nan
  else
    match Decimal.Form.decimal.scan p with
    | none => none
    | some value =>
        if value = 0 then
          some (signed (.zero false))
        else
          -- the result is out of range, or too small
          match round value with
          | .nonzero rounded => some (signed (.nonzero rounded))
          | _ => none

/- To six decimals, and a tie to the even one. -/
def micros (value : ℚ) : Nat :=
  let scaled : ℚ := |value| * 10 ^ 6
  let below : Nat := scaled.floor.toNat
  let part := scaled - (below : ℚ)
  if part < 1 / 2 ∨ (part = 1 / 2 ∧ below % 2 = 0) then
    below
  else
    below + 1

def digitsOf (n : Nat) : Text := Nat.toDigits 10 n

/- `std::to_string`. -/
def toText (d : Double ℚ) : Text :=
  let sign := if d.isNegative then ['-'] else []
  match d with
  | .nan => ['n', 'a', 'n']
  | .infinite _ => sign ++ ['i', 'n', 'f']
  | _ =>
      let n := micros (d.value?.getD 0)
      let decimals := digitsOf (n % 10 ^ 6)
      sign ++ digitsOf (n / 10 ^ 6) ++
        '.' :: (List.replicate (6 - decimals.length) '0' ++ decimals)

end Double

------------------------------------------------------------
-- Any
------------------------------------------------------------

namespace Scripting

/- `std::type_index`: the types that are told apart. -/
inductive TypeIndex where
-- `UndefinedAnyType`
| undefined
-- `AnyTypeAllowed`
| anyTypeAllowed
-- `BT::Any` itself
| any
| double
| float
| int64
| uint64
-- the other integral types and the enumerations
| integral (name : Text)
| string
| custom (name : Text)
deriving DecidableEq, Repr

/- `_any`: numbers are kept as one of three types. -/
inductive Held where
| empty
| int64 (value : Int)
| uint64 (value : Nat)
| double (value : Double ℚ)
| string (value : Text)
-- an object of another type, as an opaque handle
| custom (name : Text) (handle : Nat)
deriving DecidableEq, Repr

structure Any where
  held : Held
  -- `_original_type`
  type : TypeIndex
deriving DecidableEq, Repr

/- What `Any` throws: `std::runtime_error`. -/
inductive AnyError where
| castEmpty
| lossOfPrecision (value : Int)
| invalidFloatToInt
| boolNotAllowed
| outsideUpperLimit
| negativeToUnsigned
| stringToNumber
| noConversion (source target : TypeIndex)
| copyInto
deriving DecidableEq, Repr

namespace Held

def type : Held → TypeIndex
| .empty => .undefined
| .int64 _ => .int64
| .uint64 _ => .uint64
| .double _ => .double
| .string _ => .string
| .custom name _ => .custom name

end Held

namespace Any

def ofDouble (d : Double ℚ) : Any := ⟨.double d, .double⟩

def ofInt64 (i : Int) : Any := ⟨.int64 i, .int64⟩

def ofString (text : Text) : Any := ⟨.string text, .string⟩

/- `Any(const std::type_index&)`: a type, and no value. -/
def ofType (type : TypeIndex) : Any := ⟨.empty, type⟩

def isEmpty (a : Any) : Bool :=
  match a.held with
  | .empty => true
  | _ => false

def isNumber (a : Any) : Bool :=
  match a.held with
  | .int64 _ => true
  | .uint64 _ => true
  | .double _ => true
  | _ => false

def isString (a : Any) : Bool :=
  match a.held with
  | .string _ => true
  | _ => false

variable (round : ℚ → Double ℚ)

/- The integers up to this one are doubles. -/
def maxExact : Int := 2 ^ 53 - 1

/- `cast<double>()`. -/
def castDouble (a : Any) : Except AnyError (Double ℚ) :=
  match a.held with
  | .empty => .error .castEmpty
  | .double d => .ok d
  | .int64 i =>
      if maxExact < |i| then
        .error (.lossOfPrecision i)
      else
        .ok (Double.ofInt round i)
  | .uint64 n =>
      if maxExact < n then
        .error (.lossOfPrecision n)
      else
        .ok (Double.ofInt round n)
  | .string text =>
      match Double.fromChars round text with
      | some d => .ok d
      | none => .error .stringToNumber
  | .custom _ _ => .error (.noConversion a.type .double)

/- `cast<int64_t>()` of a number. -/
def castInt64 (a : Any) : Except AnyError Int :=
  match a.held with
  | .empty => .error .castEmpty
  | .int64 i => .ok i
  | .uint64 n =>
      if Double.int64Limit ≤ n then
        .error .outsideUpperLimit
      else
        .ok n
  | .double d =>
      let limit : Double ℚ := .nonzero Double.int64Limit
      if Double.lt limit d || Double.lt d (Double.neg limit) ||
          !d.isWhole then
        .error .invalidFloatToInt
      else
        .ok d.toInt64
  | _ => .error (.noConversion a.type .int64)

/- `cast<uint64_t>()` of a number. -/
def castUInt64 (a : Any) : Except AnyError Nat :=
  match a.held with
  | .empty => .error .castEmpty
  | .int64 i =>
      if i < 0 then
        .error .negativeToUnsigned
      else
        .ok i.toNat
  | .uint64 n => .ok n
  | .double d =>
      let limit : Double ℚ := .nonzero (2 ^ 64)
      if Double.lt d (.zero false) then
        .error .negativeToUnsigned
      else if Double.lt limit d || !d.isWhole then
        .error .invalidFloatToInt
      else
        .ok ((d.value?.getD 0).num.toNat % 2 ^ 64)
  | _ => .error (.noConversion a.type .uint64)

def boolText : Text := ['b', 'o', 'o', 'l']

/- `cast<bool>()`: `bool` is unsigned. -/
def castBool (a : Any) : Except AnyError Bool :=
  match a.held with
  | .empty => .error .castEmpty
  | .int64 i =>
      if i < 0 then
        .error .negativeToUnsigned
      else if i ≠ 0 ∧ i ≠ 1 then
        .error .boolNotAllowed
      else
        .ok (i = 1)
  | .uint64 n =>
      if n ≠ 0 ∧ n ≠ 1 then
        .error .boolNotAllowed
      else
        .ok (n = 1)
  | .double d =>
      if Double.lt d (.zero false) then
        .error .negativeToUnsigned
      else
        .ok d.toBool
  | _ => .error (.noConversion a.type (.integral boolText))

/- `cast<std::string>()`. -/
def castString (a : Any) : Except AnyError Text :=
  match a.held with
  | .empty => .error .castEmpty
  | .string text => .ok text
  | .int64 i =>
      .ok ((if i < 0 then ['-'] else []) ++
        Double.digitsOf i.natAbs)
  | .uint64 n => .ok (Double.digitsOf n)
  | .double d => .ok d.toText
  | .custom _ _ => .error (.noConversion a.type .string)

/-
  `copyInto`: the destination keeps its type, unless it is
  empty.
-/
def copyInto (a dst : Any) : Except AnyError Any :=
  if dst.isEmpty then
    .ok a
  else if a.held.type = dst.held.type then
    .ok { dst with held := a.held }
  else if a.isNumber && dst.isNumber then
    match dst.held with
    | .int64 _ =>
        a.castInt64.map fun i => { dst with held := .int64 i }
    | .uint64 _ =>
        a.castUInt64.map fun n => { dst with held := .uint64 n }
    | _ =>
        (a.castDouble round).map
          fun d => { dst with held := .double d }
  else
    .error .copyInto

end Any

/-
  `SimpleString::operator==`: `strncmp` stops at a NUL that
  both of the strings have.
-/
def sameString (a b : Text) : Bool :=
  a.length = b.length &&
    a.takeWhile (· != Xml.nul) = b.takeWhile (· != Xml.nul)

/- `memcmp` on the common length, then the lengths. -/
def lessString : Text → Text → Bool
| _, [] => false
| [], _ :: _ => true
| c :: a, d :: b =>
    if c = d then lessString a b else c.toNat < d.toNat

end Scripting

end Manipulator
