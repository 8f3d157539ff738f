import Manipulator.Machine
import Manipulator.Scripting.Token
import Manipulator.Scripting.Value

/-
  The parser of scripts: how a list of tokens becomes a list
  of expressions.

  The parser is a Pratt parser. `parseExpr` reads an operand
  and goes on while the next token binds at least as tight as
  its argument says. What `current_` points at is the list of
  the tokens from there on.

  Main declarations:
    * `Expr`, `ParseError`, `leftBP`
    * `parsePrefix`, `parseExpr`, `parseLoop`
    * `parseAll`, `parseStatements`
-/

------------------------------------------------------------
-- Expressions
------------------------------------------------------------

namespace Manipulator

namespace Scripting

open Xml (Text)

inductive UnaryOp where
| negate
| complement
| logicalNot
deriving DecidableEq, Repr

inductive BinaryOp where
| plus
| minus
| times
| div
| concat
| bitAnd
| bitOr
| bitXor
| logicAnd
| logicOr
deriving DecidableEq, Repr

inductive ComparisonOp where
| equal
| notEqual
| less
| greater
| lessEqual
| greaterEqual
deriving DecidableEq, Repr

inductive AssignmentOp where
| assignCreate
| assignExisting
| assignPlus
| assignMinus
| assignTimes
| assignDiv
deriving DecidableEq, Repr

/-
  The tree. A comparison holds its first operand, and the
  others with the operator before each.
-/
inductive Expr where
| literal (value : Any)
| name (name : Text)
| unary (op : UnaryOp) (rhs : Expr)
| binary (lhs : Expr) (op : BinaryOp) (rhs : Expr)
| comparison (first : Expr) (links : List (ComparisonOp × Expr))
| ifElse (condition thenExpr elseExpr : Expr)
| assignment (lhs : Expr) (op : AssignmentOp) (rhs : Expr)

------------------------------------------------------------
-- Binding Powers
------------------------------------------------------------

def kAssignmentBP : Int := 2

def kTernaryBP : Int := 4

def kComparisonBP : Int := 10

def kMulDivBP : Int := 18

/- Tighter than any infix. -/
def kPrefixBP : Int := 20

/- -1 when the token is no infix operator. -/
def leftBP : TokenType → Int
| .colonEqual => kAssignmentBP
| .equal => kAssignmentBP
| .plusEqual => kAssignmentBP
| .minusEqual => kAssignmentBP
| .starEqual => kAssignmentBP
| .slashEqual => kAssignmentBP
| .question => kTernaryBP
| .pipePipe => 6
| .ampAmp => 8
| .equalEqual => kComparisonBP
| .bangEqual => kComparisonBP
| .less => kComparisonBP
| .greater => kComparisonBP
| .lessEqual => kComparisonBP
| .greaterEqual => kComparisonBP
| .pipe => 12
| .caret => 12
| .ampersand => 14
| .plus => 16
| .minus => 16
| .dotDot => 16
| .star => kMulDivBP
| .slash => kMulDivBP
| _ => -1

def isComparison : TokenType → Bool
| .equalEqual => true
| .bangEqual => true
| .less => true
| .greater => true
| .lessEqual => true
| .greaterEqual => true
| _ => false

def isAssignment : TokenType → Bool
| .colonEqual => true
| .equal => true
| .plusEqual => true
| .minusEqual => true
| .starEqual => true
| .slashEqual => true
| _ => false

------------------------------------------------------------
-- Errors And Tokens
------------------------------------------------------------

inductive ParseError where
-- `expect`
| expected (pos : Nat) (msg : String) (got : Text)
| invalidToken (text : Text) (pos : Nat)
| expectedOperand (pos : Nat) (got : Text)
-- `convertFromString<double>`
| notDouble (text : Text)
| internal (msg : String)
| outOfFuel
deriving DecidableEq, Repr

/- What is written into the exception. -/
def ParseError.what : ParseError → String
| .expected pos msg got =>
    "Parse error at position " ++ toString pos ++ ": " ++ msg ++
      " (got '" ++ String.ofList got ++ "')"
| .invalidToken text pos =>
    "Invalid token '" ++ String.ofList text ++
      "' at position " ++ toString pos
| .expectedOperand pos got =>
    "Expected operand at position " ++ toString pos ++
      " (got '" ++ String.ofList got ++ "')"
| .notDouble text =>
    "Can't convert string [" ++ String.ofList text ++
      "] to double"
| .internal msg => "Internal error: " ++ msg
| .outOfFuel => ""

/- The list ends with the sentinel, and is never empty. -/
def peek : List Token → Token
| [] => ⟨⟨.error, []⟩, 0⟩
| t :: _ => t

def atEnd (ts : List Token) : Bool :=
  (peek ts).type == .endOfInput

def advance (ts : List Token) : List Token :=
  if atEnd ts then ts else ts.tail

def check (type : TokenType) (ts : List Token) : Bool :=
  (peek ts).type == type

def expect
    (type : TokenType) (msg : String) (ts : List Token) :
    Except ParseError (List Token) :=
  if check type ts then
    .ok (advance ts)
  else
    .error (.expected (peek ts).pos msg (peek ts).text)

------------------------------------------------------------
-- Literals And Operators
------------------------------------------------------------

/- `std::from_chars` leaves 0 where the number is too large. -/
def int64OfNat (n : Nat) : Int :=
  if n < 2 ^ 63 then n else 0

def hexNumber (text : Text) : Nat :=
  Decimal.Form.hexadecimal.number (text.takeWhile isHexDigit)

def decimalNumber (text : Text) : Nat :=
  Decimal.Form.decimal.number (text.takeWhile Char.isDigit)

def integerValue (text : Text) : Int :=
  if text.length > 2 && isHex text then
    int64OfNat (hexNumber (text.drop 2))
  else
    int64OfNat (decimalNumber text)

/- The tokens that are operands by themselves. -/
def operand
    (round : ℚ → Double ℚ) (l : Lexeme) :
    Option (Except ParseError Expr) :=
  match l.type with
  | .boolean =>
      let value := Double.ofBool (l.text == trueText)
      some (.ok (.literal (.ofDouble value)))
  | .integer =>
      some (.ok (.literal (.ofInt64 (integerValue l.text))))
  | .real =>
      match Double.fromChars round l.text with
      | some value => some (.ok (.literal (.ofDouble value)))
      | none => some (.error (.notDouble l.text))
  | .string => some (.ok (.literal (.ofString l.text)))
  | .identifier => some (.ok (.name l.text))
  | _ => none

def unaryOp : TokenType → Option UnaryOp
| .minus => some .negate
| .tilde => some .complement
| .bang => some .logicalNot
| _ => none

def mapAssignmentOp : TokenType → Except ParseError AssignmentOp
| .colonEqual => .ok .assignCreate
| .equal => .ok .assignExisting
| .plusEqual => .ok .assignPlus
| .minusEqual => .ok .assignMinus
| .starEqual => .ok .assignTimes
| .slashEqual => .ok .assignDiv
| _ => .error (.internal "unexpected assignment op")

def mapComparisonOp : TokenType → Except ParseError ComparisonOp
| .equalEqual => .ok .equal
| .bangEqual => .ok .notEqual
| .less => .ok .less
| .greater => .ok .greater
| .lessEqual => .ok .lessEqual
| .greaterEqual => .ok .greaterEqual
| _ => .error (.internal "not a comparison op")

def mapBinaryOp : TokenType → Except ParseError BinaryOp
| .plus => .ok .plus
| .minus => .ok .minus
| .star => .ok .times
| .slash => .ok .div
| .dotDot => .ok .concat
| .ampersand => .ok .bitAnd
| .pipe => .ok .bitOr
| .caret => .ok .bitXor
| .ampAmp => .ok .logicAnd
| .pipePipe => .ok .logicOr
| _ => .error (.internal "unknown binary operator")

def makeBinary
    (lhs : Expr) (type : TokenType) (rhs : Expr) :
    Except ParseError Expr := do
  let op ← mapBinaryOp type
  return .binary lhs op rhs

------------------------------------------------------------
-- The Parser
------------------------------------------------------------

abbrev Parsed := Except ParseError (Expr × List Token)

mutual

/- Atoms and unary prefix operators. -/
def parsePrefix
    (round : ℚ → Double ℚ) : Nat → List Token → Parsed
| 0, _ => .error .outOfFuel
| fuel + 1, ts =>
    let tok := peek ts
    match unaryOp tok.type with
    | some op => do
        let (rhs, ts) ← parseExpr round fuel kPrefixBP (advance ts)
        return (.unary op rhs, ts)
    | none =>
        if tok.type = .leftParen then do
          let (expr, ts) ← parseExpr round fuel 0 (advance ts)
          let ts ← expect .rightParen "expected ')'" ts
          return (expr, ts)
        else
          match operand round tok.toLexeme with
          | some atom => do
              let expr ← atom
              return (expr, advance ts)
          | none =>
              if tok.type = .error then
                .error (.invalidToken tok.text tok.pos)
              else
                .error (.expectedOperand tok.pos tok.text)

def parseExpr
    (round : ℚ → Double ℚ) :
    Nat → Int → List Token → Parsed
| 0, _, _ => .error .outOfFuel
| fuel + 1, minBP, ts => do
    let (left, ts) ← parsePrefix round fuel ts
    parseLoop round fuel minBP left ts

/- The loop of `parseExpr`. -/
def parseLoop
    (round : ℚ → Double ℚ) :
    Nat → Int → Expr → List Token → Parsed
| 0, _, _, _ => .error .outOfFuel
| fuel + 1, minBP, left, ts =>
    let tokType := (peek ts).type
    let lbp := leftBP tokType
    if lbp < 0 ∨ lbp < minBP then
      .ok (left, ts)
    else if isAssignment tokType then
      parseAssignment round fuel left ts
    else if tokType = .question then
      parseTernary round fuel left ts
    else if isComparison tokType then do
      let (left, ts) ← parseChainedComparison round fuel left ts
      parseLoop round fuel minBP left ts
    else do
      -- one more than on the left, for left-associativity
      let (right, ts) ← parseExpr round fuel (lbp + 1) (advance ts)
      let left ← makeBinary left tokType right
      parseLoop round fuel minBP left ts

def parseAssignment
    (round : ℚ → Double ℚ) :
    Nat → Expr → List Token → Parsed
| 0, _, _ => .error .outOfFuel
| fuel + 1, left, ts => do
    let op ← mapAssignmentOp (peek ts).type
    let (right, ts) ← parseExpr round fuel 0 (advance ts)
    return (.assignment left op right, ts)

def parseTernary
    (round : ℚ → Double ℚ) :
    Nat → Expr → List Token → Parsed
| 0, _, _ => .error .outOfFuel
| fuel + 1, condition, ts => do
    let (thenExpr, ts) ← parseExpr round fuel 0 (advance ts)
    let ts ←
      expect .colon "expected ':' in ternary expression" ts
    let (elseExpr, ts) ← parseExpr round fuel kTernaryBP ts
    return (.ifElse condition thenExpr elseExpr, ts)

def parseChainedComparison
    (round : ℚ → Double ℚ) :
    Nat → Expr → List Token → Parsed
| 0, _, _ => .error .outOfFuel
| fuel + 1, first, ts => do
    let (links, ts) ← parseLinks round fuel ts
    return (.comparison first links, ts)

/- The loop of `parseChainedComparison`. -/
def parseLinks
    (round : ℚ → Double ℚ) :
    Nat → List Token →
      Except ParseError (List (ComparisonOp × Expr) × List Token)
| 0, _ => .error .outOfFuel
| fuel + 1, ts =>
    if isComparison (peek ts).type then do
      let op ← mapComparisonOp (peek ts).type
      let (expr, ts) ←
        parseExpr round fuel (kComparisonBP + 1) (advance ts)
      let (links, ts) ← parseLinks round fuel ts
      return ((op, expr) :: links, ts)
    else
      .ok ([], ts)

end

/- Optional semicolons between statements. -/
def skipSemicolons (ts : List Token) : List Token :=
  ts.dropWhile fun t => t.type == .semicolon

def parseAll
    (round : ℚ → Double ℚ) :
    Nat → List Token → Except ParseError (List Expr)
| 0, _ => .error .outOfFuel
| fuel + 1, ts =>
    if atEnd ts then
      .ok []
    else do
      let (expr, ts) ← parseExpr round fuel 0 ts
      let rest ← parseAll round fuel (skipSemicolons ts)
      return expr :: rest

/- Three nested calls a token, at most. -/
def parseFuel (ts : List Token) : Nat := 3 * ts.length + 3

def parseStatements
    (round : ℚ → Double ℚ) (script : Text) :
    Except ParseError (List Expr) :=
  let tokens := tokenize script
  parseAll round (parseFuel tokens) tokens

end Scripting

end Manipulator
