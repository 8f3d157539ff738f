import Manipulator.Effects
import Manipulator.Scripting.Blackboard
import Manipulator.Scripting.Parser

/-
  The evaluation of scripts on a blackboard.

  An expression returns a value or throws, and what it wrote
  to the blackboard before it threw stays written.

  Main declarations:
    * `ScriptError`, `Environment`, `ScriptM`
    * `unaryArithmetic`, `binaryArithmetic`, `compare`
    * `assign`, `evaluate`, `runScript`
-/

------------------------------------------------------------
-- Errors
------------------------------------------------------------

namespace Manipulator

namespace Scripting

open Xml (Text)
open Effects (exec lift throwIf)

inductive Side where
| left
| right
deriving DecidableEq

/- What an evaluation throws. -/
inductive ScriptError where
-- `RuntimeError`
| variableNotFound (name : Text)
| outOfRange
| invalidForString
| unaryUndefined
| notInitialized (side : Side) (op : String)
| notInteger
| notBool
| notPermitted
| mixedTypes (left right : TypeIndex)
| notAnEntry
| noEntry (key : Text)
| stringNotConverted (key : Text) (type : TypeIndex)
| notConverted (key : Text) (type value : TypeIndex)
| nonNumeric
| notForStrings
| missingParent
-- `LogicError`
| bug
| blackboard (e : BlackboardError)
-- `std::runtime_error`
| any (e : AnyError)
-- what a string converter throws
| converter (what : Text)
deriving DecidableEq

/- The names and values of the enumerations. -/
structure Environment where
  enums : Text → Option Int

abbrev ScriptM (α : Type) := Effects ScriptError Blackboard α

def ofAny {α : Type} (r : Except AnyError α) :
    Except ScriptError α :=
  r.mapError .any

/- A missing parent is a `RuntimeError`. -/
def ofBlackboard : BlackboardError → ScriptError
| .missingParent => .missingParent
| e => .blackboard e

------------------------------------------------------------
-- Operators
------------------------------------------------------------

section Operators

variable (round : ℚ → Double ℚ) (env : Environment)

/- The doubles that are integers of 64 bits, and one more. -/
def inInt64Range (d : Double ℚ) : Bool :=
  let limit : Double ℚ := .nonzero Double.int64Limit
  !(Double.lt limit d || Double.lt d (Double.neg limit))

def unaryArithmetic
    (op : UnaryOp) (rhs : Any) : Except ScriptError Any :=
  if rhs.isNumber then do
    let rv ← ofAny (rhs.castDouble round)
    match op with
    | .negate => .ok (.ofDouble rv.neg)
    | .complement =>
        if inInt64Range rv then
          .ok (.ofDouble (Double.ofInt round (-rv.toInt64 - 1)))
        else
          .error .outOfRange
    | .logicalNot => .ok (.ofDouble (Double.ofBool !rv.toBool))
  else if rhs.isString then
    .error .invalidForString
  else
    .error .unaryUndefined

def BinaryOp.text : BinaryOp → String
| .plus => "+"
| .minus => "-"
| .times => "*"
| .div => "/"
| .concat => ".."
| .bitAnd => "&"
| .bitOr => "|"
| .bitXor => "^"
| .logicAnd => "&&"
| .logicOr => "||"

/- The arithmetic of two numbers, if `op` is arithmetic. -/
def arithmetic (op : BinaryOp) (lv rv : Double ℚ) :
    Option (Double ℚ) :=
  match op with
  | .plus => some (Double.add round lv rv)
  | .minus => some (Double.sub round lv rv)
  | .times => some (Double.mul round lv rv)
  | .div => some (Double.quotient round lv rv)
  | _ => none

def bitwise (op : BinaryOp) (li ri : Int) : Option Int :=
  let a := BitVec.ofInt 64 li
  let b := BitVec.ofInt 64 ri
  match op with
  | .bitAnd => some (a &&& b).toInt
  | .bitOr => some (a ||| b).toInt
  | .bitXor => some (a ^^^ b).toInt
  | _ => none

def logic (op : BinaryOp) (lb rb : Bool) : Option Bool :=
  match op with
  | .logicAnd => some (lb && rb)
  | .logicOr => some (lb || rb)
  | _ => none

/- Both casts, and one error for what either throws. -/
def castBoth {α : Type}
    (cast : Any → Except AnyError α) (e : ScriptError)
    (lhs rhs : Any) : Except ScriptError (α × α) :=
  match cast lhs, cast rhs with
  | .ok a, .ok b => .ok (a, b)
  | _, _ => .error e

/- Two numbers; `..` of two numbers is an empty value. -/
def binaryNumbers
    (op : BinaryOp) (lhs rhs : Any) : Except ScriptError Any := do
  let lv ← ofAny (lhs.castDouble round)
  let rv ← ofAny (rhs.castDouble round)
  match arithmetic round op lv rv with
  | some d => return .ofDouble d
  | none =>
      match bitwise op 0 0, logic op true true with
      | some _, _ => do
          let (li, ri) ←
            castBoth Any.castInt64 .notInteger lhs rhs
          let bits := (bitwise op li ri).getD 0
          return .ofDouble (Double.ofInt round bits)
      | none, some _ => do
          let (lb, rb) ← castBoth Any.castBool .notBool lhs rhs
          let b := (logic op lb rb).getD false
          return .ofDouble (Double.ofBool b)
      | none, none => return .ofType .undefined

def concatenate (lhs rhs : Any) : Except ScriptError Any := do
  let a ← ofAny lhs.castString
  let b ← ofAny rhs.castString
  return .ofString (a ++ b)

def binaryArithmetic
    (op : BinaryOp) (lhs rhs : Any) : Except ScriptError Any :=
  if lhs.isEmpty then
    .error (.notInitialized .left op.text)
  else if rhs.isEmpty then
    .error (.notInitialized .right op.text)
  else if rhs.isNumber && lhs.isNumber then
    binaryNumbers round op lhs rhs
  else if rhs.isString && lhs.isString && op = .plus then
    concatenate lhs rhs
  else if op = .concat &&
      ((rhs.isString && lhs.isString) ||
        (rhs.isString && lhs.isNumber) ||
          (rhs.isNumber && lhs.isString)) then
    concatenate lhs rhs
  else
    .error .notPermitted

def ComparisonOp.text : ComparisonOp → String
| .equal => "=="
| .notEqual => "!="
| .less => "<"
| .greater => ">"
| .lessEqual => "<="
| .greaterEqual => ">="

/- `SwitchImpl`, on what the type says of two values. -/
def switchImpl (op : ComparisonOp) (same ge le gt lt : Bool) :
    Bool :=
  match op with
  | .equal => same
  | .notEqual => !same
  | .less => !ge
  | .greater => !le
  | .lessEqual => !gt
  | .greaterEqual => !lt

def compareDoubles (op : ComparisonOp) (lv rv : Double ℚ) : Bool :=
  switchImpl op (Double.isSame round lv rv) (Double.le rv lv)
    (Double.le lv rv) (Double.lt rv lv) (Double.lt lv rv)

def compareStrings (op : ComparisonOp) (lv rv : Text) : Bool :=
  switchImpl op (sameString lv rv) (!lessString lv rv)
    (!lessString rv lv) (lessString rv lv) (lessString lv rv)

/- `StringToDouble`: booleans and enumerations have names. -/
def stringToDouble (value : Any) :
    Except ScriptError (Double ℚ) := do
  let str ← ofAny value.castString
  if str = trueText then
    .ok Double.one
  else if str = falseText then
    .ok (.zero false)
  else
    match env.enums str with
    | some i => .ok (Double.ofInt round i)
    | none => ofAny (value.castDouble round)

def compare
    (op : ComparisonOp) (lhs rhs : Any) :
    Except ScriptError Bool :=
  if lhs.isEmpty then
    .error (.notInitialized .left op.text)
  else if rhs.isEmpty then
    .error (.notInitialized .right op.text)
  else if lhs.isNumber && rhs.isNumber then do
    let lv ← ofAny (lhs.castDouble round)
    let rv ← ofAny (rhs.castDouble round)
    return compareDoubles round op lv rv
  else if lhs.isString && rhs.isString then do
    let lv ← ofAny lhs.castString
    let rv ← ofAny rhs.castString
    return compareStrings op lv rv
  else if lhs.isString && rhs.isNumber then do
    let lv ← stringToDouble round env lhs
    let rv ← ofAny (rhs.castDouble round)
    return compareDoubles round op lv rv
  else if lhs.isNumber && rhs.isString then do
    let lv ← ofAny (lhs.castDouble round)
    let rv ← stringToDouble round env rhs
    return compareDoubles round op lv rv
  else
    .error (.mixedTypes lhs.type rhs.type)

end Operators

------------------------------------------------------------
-- Assignments
------------------------------------------------------------

def AssignmentOp.text : AssignmentOp → String
| .assignCreate => ":="
| .assignExisting => "="
| .assignPlus => "+="
| .assignMinus => "-="
| .assignTimes => "*="
| .assignDiv => "/="

/- The operator of a compound assignment. -/
def AssignmentOp.compound : AssignmentOp → Option BinaryOp
| .assignPlus => some .plus
| .assignMinus => some .minus
| .assignTimes => some .times
| .assignDiv => some .div
| _ => none

section Assignments

variable (round : ℚ → Double ℚ) (env : Environment)

/- What `:=` and `=` make of the value of an entry. -/
def assigned
    (key : Text) (entry : Entry) (value : Any) :
    Except ScriptError Any :=
  let dst := entry.value
  if dst.isEmpty && entry.info.type = .anyTypeAllowed then
    .ok value
  else if value.isString && !dst.isString then
    match entry.info.converter with
    | some converter => do
        let str ← ofAny value.castString
        (converter str).mapError .converter
    | none =>
        if dst.isNumber then do
          let d ← stringToDouble round env value
          return .ofDouble d
        else
          .error (.stringNotConverted key dst.type)
  else
    (value.copyInto round dst).mapError
      fun _ => .notConverted key dst.type value.type

/- What a compound assignment makes of the value of an entry. -/
def accumulated
    (op : BinaryOp) (entry : Entry) (value : Any) :
    Except ScriptError Any :=
  let dst := entry.value
  if value.isNumber then
    if dst.isNumber then do
      let lv ← ofAny (dst.castDouble round)
      let rv ← ofAny (value.castDouble round)
      let d := (arithmetic round op lv rv).getD lv
      ofAny ((Any.ofDouble d).copyInto round dst)
    else
      .error .nonNumeric
  else if value.isString then
    if op = .plus then do
      let text ← concatenate dst value
      ofAny (text.copyInto round dst)
    else
      .error .notForStrings
  else
    ofAny (dst.copyInto round dst)

/- The value of an entry after an assignment to it. -/
def assign
    (op : AssignmentOp) (key : Text) (entry : Entry)
    (value : Any) : Except ScriptError Any :=
  if value.isEmpty then
    .error (.notInitialized .right op.text)
  else
    match op.compound with
    | none => assigned round env key entry value
    | some binary =>
        if entry.value.isEmpty then
          .error (.notInitialized .left op.text)
        else
          accumulated round binary entry value

/- The entry of a name; `:=` creates it when there is none. -/
def entryOf (op : AssignmentOp) (key : Text) : ScriptM Address := do
  let bb ← get
  match bb.getEntry key with
  | some a => return a
  | none =>
      if op = .assignCreate then
        match bb.createEntry .anyTypeAllowed key with
        | .error e => throw (ofBlackboard e)
        | .ok (_, bb) => do
            set bb
            match bb.getEntry key with
            | some a => return a
            | none => throw .bug
      else
        throw (.noEntry key)

/- Write to an entry that is there. -/
def write
    (op : AssignmentOp) (key : Text) (a : Address)
    (value : Any) : ScriptM Any := do
  let bb ← get
  match bb.entryAt a.depth a.key with
  | none => throw .bug
  | some entry => do
      let result ← lift (assign round env op key entry value)
      set (bb.put
        { entry with
          value := result
          sequenceId := entry.sequenceId + 1 }
        a.depth a.key)
      return result

------------------------------------------------------------
-- Expressions
------------------------------------------------------------

/- An enumeration, or a variable. -/
def evaluateName (name : Text) : ScriptM Any := do
  match env.enums name with
  | some i => return .ofDouble (Double.ofInt round i)
  | none => do
      let bb ← get
      match (bb.getEntry name).bind
          fun a => bb.entryAt a.depth a.key with
      | some entry => return entry.value
      | none => throw (.variableNotFound name)

mutual

def evaluate : Expr → ScriptM Any
| .literal value => pure value
| .name name => evaluateName round env name
| .unary op rhs => do
    let rhs ← evaluate rhs
    lift (unaryArithmetic round op rhs)
| .binary lhs op rhs => do
    let lhs ← evaluate lhs
    let rhs ← evaluate rhs
    lift (binaryArithmetic round op lhs rhs)
| .comparison first links => do
    let lhs ← evaluate first
    evaluateLinks lhs links
| .ifElse condition thenExpr elseExpr => do
    let v ← evaluate condition
    -- no value has the type `SimpleString`
    let d ← lift (ofAny (v.castDouble round))
    if d.toBool then evaluate thenExpr else evaluate elseExpr
| .assignment lhs op rhs =>
    match lhs with
    | .name key => do
        let a ← entryOf op key
        let value ← evaluate rhs
        write round env op key a value
    | _ => throw .notAnEntry

/- The loop of a comparison: it ends at the first that fails. -/
def evaluateLinks :
    Any → List (ComparisonOp × Expr) → ScriptM Any
| _, [] => pure (.ofDouble Double.one)
| lhs, (op, operand) :: links => do
    let rhs ← evaluate operand
    let holds ← lift (compare round env op lhs rhs)
    if holds then
      evaluateLinks rhs links
    else
      return .ofDouble (.zero false)

end

/- The function that `ParseScript` returns. -/
def runScript : Expr → List Expr → ScriptM Any
| e, [] => evaluate round env e
| e, e' :: es => do
    let _ ← evaluate round env e
    runScript e' es

/- What a `PreconditionNode` asks: `cast<bool>()`. -/
def condition (e : Expr) (es : List Expr) : ScriptM Bool := do
  let v ← runScript round env e es
  lift (ofAny v.castBool)

/- Why `ParseScript` returns no function. -/
inductive ScriptRefused where
| parse (error : ParseError)
| emptyScript
deriving DecidableEq

/- `ParseScript`: the statements, when there is one. -/
def parseScript (script : Text) :
    Except ScriptRefused (Expr × List Expr) :=
  match parseStatements round script with
  | .error e => .error (.parse e)
  | .ok [] => .error .emptyScript
  | .ok (e :: es) => .ok (e, es)

end Assignments

end Scripting

end Manipulator
