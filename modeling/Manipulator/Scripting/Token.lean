import Manipulator.Xml.StrPair
import Mathlib

/-
  The tokens of a script: how `tokenize` cuts the source.

  The source is a list of bytes, and the index `i` of the
  source is the part of it from there on. Nothing but white
  space lies between two tokens.

  Main declarations:
    * `TokenType`, `Lexeme`, `Token`
    * `scanHexNumber`, `scanDecimalNumber`, `scanToken`
    * `tokenize`
-/

------------------------------------------------------------
-- Tokens
------------------------------------------------------------

namespace Manipulator

namespace Scripting

open Xml (Text singleQuote)

inductive TokenType where
-- literals
| integer
| real
| string
| boolean
| identifier
-- arithmetic
| plus
| minus
| star
| slash
| dotDot
-- bitwise
| ampersand
| pipe
| caret
| tilde
-- logical
| ampAmp
| pipePipe
| bang
-- comparison
| equalEqual
| bangEqual
| less
| greater
| lessEqual
| greaterEqual
-- assignment
| colonEqual
| equal
| plusEqual
| minusEqual
| starEqual
| slashEqual
-- ternary
| question
| colon
-- delimiters
| leftParen
| rightParen
| semicolon
-- control
| endOfInput
| error
deriving DecidableEq, Repr

/- A token without its place. -/
structure Lexeme where
  type : TokenType
  text : Text
deriving DecidableEq, Repr

structure Token extends Lexeme where
  pos : Nat
deriving DecidableEq, Repr

/- A string is written between quotes. -/
def Lexeme.spelling (l : Lexeme) : Text :=
  if l.type = .string then
    singleQuote :: l.text ++ [singleQuote]
  else
    l.text

------------------------------------------------------------
-- Characters
------------------------------------------------------------

/- The white space that `tokenize` skips. -/
def isBlank (c : Char) : Bool :=
  c == ' ' || c == '\t' || c == '\n' || c == '\r'

def isIdentStart (c : Char) : Bool :=
  c.isAlpha || c == '_' || c == '@'

def isIdentChar (c : Char) : Bool :=
  c.isAlphanum || c == '_'

def isHexDigit (c : Char) : Bool :=
  c.isDigit || ('a' ≤ c && c ≤ 'f') || ('A' ≤ c && c ≤ 'F')

/- The test `i < len && is(source[i])`. -/
def startsWith (is : Char → Bool) : Text → Bool
| [] => false
| c :: _ => is c

/- What was read of `p` when `q` is left of it. -/
def consumed (p q : Text) : Text :=
  p.take (p.length - q.length)

------------------------------------------------------------
-- Numbers
------------------------------------------------------------

/- Consume trailing garbage after a malformed number token. -/
def consumeTrailingGarbage (p : Text) : Text :=
  p.dropWhile fun c => isIdentChar c || c == '.'

structure NumberResult where
  isReal : Bool
  hasError : Bool
deriving DecidableEq

/- `p` starts with `0x`. -/
def scanHexNumber (p : Text) : NumberResult × Text :=
  let digits := p.drop 2
  let q := digits.dropWhile isHexDigit
  if startsWith (fun c => c == '.' || isIdentChar c) q then
    (⟨false, true⟩, consumeTrailingGarbage q)
  else
    (⟨false, !startsWith isHexDigit digits⟩, q)

/- `65..` is a number and an operator, `65.` is an error. -/
def scanFraction (p : Text) : NumberResult × Text :=
  match p with
  | '.' :: q =>
      if startsWith (· == '.') q then
        (⟨false, false⟩, p)
      else if startsWith Char.isDigit q then
        (⟨true, false⟩, q.dropWhile Char.isDigit)
      else
        (⟨false, true⟩, consumeTrailingGarbage q)
  | _ => (⟨false, false⟩, p)

def skipSign : Text → Text
| '+' :: p => p
| '-' :: p => p
| p => p

def scanExponent
    (result : NumberResult) (p : Text) : NumberResult × Text :=
  if !result.hasError &&
      startsWith (fun c => c == 'e' || c == 'E') p then
    let q := skipSign p.tail
    if startsWith Char.isDigit q then
      (⟨true, false⟩, q.dropWhile Char.isDigit)
    else
      (⟨true, true⟩, q)
  else
    (result, p)

/- `3foo` is an error. -/
def scanTrailing
    (result : NumberResult) (p : Text) : NumberResult × Text :=
  if !result.hasError && startsWith isIdentStart p then
    (⟨result.isReal, true⟩, p.dropWhile isIdentChar)
  else
    (result, p)

def scanDecimalNumber (p : Text) : NumberResult × Text :=
  let (result, p) := scanFraction (p.dropWhile Char.isDigit)
  let (result, p) := scanExponent result p
  scanTrailing result p

def isHex : Text → Bool
| '0' :: p => startsWith (fun c => c == 'x' || c == 'X') p
| _ => false

def numberType (result : NumberResult) : TokenType :=
  if result.hasError then
    .error
  else if result.isReal then
    .real
  else
    .integer

def scanNumber (p : Text) : NumberResult × Text :=
  if isHex p then scanHexNumber p else scanDecimalNumber p

------------------------------------------------------------
-- Operators
------------------------------------------------------------

def matchTwoCharOp (c next : Char) : TokenType :=
  match c, next with
  | '.', '.' => .dotDot
  | '&', '&' => .ampAmp
  | '|', '|' => .pipePipe
  | '=', '=' => .equalEqual
  | '!', '=' => .bangEqual
  | '<', '=' => .lessEqual
  | '>', '=' => .greaterEqual
  | ':', '=' => .colonEqual
  | '+', '=' => .plusEqual
  | '-', '=' => .minusEqual
  | '*', '=' => .starEqual
  | '/', '=' => .slashEqual
  | _, _ => .error

def matchSingleCharOp : Char → TokenType
| '+' => .plus
| '-' => .minus
| '*' => .star
| '/' => .slash
| '&' => .ampersand
| '|' => .pipe
| '^' => .caret
| '~' => .tilde
| '!' => .bang
| '<' => .less
| '>' => .greater
| '=' => .equal
| '?' => .question
| ':' => .colon
| '(' => .leftParen
| ')' => .rightParen
| ';' => .semicolon
| _ => .error

------------------------------------------------------------
-- The Source
------------------------------------------------------------

/- The word `true`, and the word `false`. -/
def trueText : Text := ['t', 'r', 'u', 'e']

def falseText : Text := ['f', 'a', 'l', 's', 'e']

def wordType (text : Text) : TokenType :=
  if text = trueText ∨ text = falseText then
    .boolean
  else
    .identifier

def scanString (p : Text) : Lexeme × Text :=
  match p.dropWhile (· != singleQuote) with
  | [] => (⟨.error, singleQuote :: p⟩, [])
  | _ :: q => (⟨.string, p.takeWhile (· != singleQuote)⟩, q)

/- An operator of one character, unless it is one of two. -/
def scanOperator (c : Char) (p : Text) : Lexeme × Text :=
  match p with
  | [] => (⟨matchSingleCharOp c, [c]⟩, [])
  | d :: q =>
      if matchTwoCharOp c d ≠ .error then
        (⟨matchTwoCharOp c d, [c, d]⟩, q)
      else
        (⟨matchSingleCharOp c, [c]⟩, p)

/- The token that `c` begins, and the source past it. -/
def scanToken (c : Char) (p : Text) : Lexeme × Text :=
  if c == singleQuote then
    scanString p
  else if c.isDigit then
    let (result, q) := scanNumber (c :: p)
    (⟨numberType result, consumed (c :: p) q⟩, q)
  else if isIdentStart c then
    let text := c :: p.takeWhile isIdentChar
    (⟨wordType text, text⟩, p.dropWhile isIdentChar)
  else
    scanOperator c p

/- `i` is the index where `p` begins. -/
def tokenizeFrom : Nat → Nat → Text → List Token
| _, i, [] => [⟨⟨.endOfInput, []⟩, i⟩]
| 0, _, _ :: _ => []
| fuel + 1, i, c :: p =>
    if isBlank c then
      tokenizeFrom fuel (i + 1) p
    else
      let (lexeme, q) := scanToken c p
      ⟨lexeme, i⟩ ::
        tokenizeFrom fuel (i + (p.length + 1 - q.length)) q

/- A token has a character, so the length is fuel enough. -/
def tokenize (source : Text) : List Token :=
  tokenizeFrom source.length 0 source

end Scripting

end Manipulator
