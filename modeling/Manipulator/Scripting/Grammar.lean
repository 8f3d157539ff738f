import Manipulator.Scripting.Parser

/-
  The grammar of scripts, and the parser against it.

  `Derives` is the stratified grammar: an expression of a
  level is made of operators that bind at least as tight.
  What the parser accepts is derived by the grammar, with
  the tree that the parser returns.

  Main declarations:
    * `Derives`, `DerivesScript`
    * `Follow`, `Stop`
    * `SoundAt`, `soundAt`, `derivesScript_of_parseAll`
-/

------------------------------------------------------------
-- The Grammar
------------------------------------------------------------

namespace Manipulator

namespace Scripting

/- One comparison of a chain: the operator and its operand. -/
structure Link where
  token : Lexeme
  op : ComparisonOp
  lexemes : List Lexeme
  operand : Expr

namespace Link

def text (k : Link) : List Lexeme := k.token :: k.lexemes

def pair (k : Link) : ComparisonOp × Expr := (k.op, k.operand)

end Link

/-
  `Derives round l us e`: the lexemes `us` are the expression
  `e`, none of whose operators outside of parentheses binds
  less tight than `l`.

  The operands of a comparison are one level up, so that
  comparisons chain. The right operand of every other binary
  operator is one level up, which makes it left-associative.
  Both sides of a conditional are cut off from what is around
  them, but for its last part.
-/
inductive Derives (round : ℚ → Double ℚ) :
    Int → List Lexeme → Expr → Prop
| atom
    {t : Lexeme} {e : Expr}
    (hAtom : operand round t = some (.ok e)) :
    Derives round kPrefixBP [t] e
| unary
    {t : Lexeme} {op : UnaryOp} {us : List Lexeme} {e : Expr}
    (hOp : unaryOp t.type = some op)
    (hOperand : Derives round kPrefixBP us e) :
    Derives round kPrefixBP (t :: us) (.unary op e)
| paren
    {lp rp : Lexeme} {us : List Lexeme} {e : Expr}
    (hLeft : lp.type = .leftParen)
    (hRight : rp.type = .rightParen)
    (hInner : Derives round 0 us e) :
    Derives round kPrefixBP (lp :: (us ++ [rp])) e
| binary
    {t : Lexeme} {op : BinaryOp} {us vs : List Lexeme}
    {e e' : Expr}
    (hOp : mapBinaryOp t.type = .ok op)
    (hLeft : Derives round (leftBP t.type) us e)
    (hRight : Derives round (leftBP t.type + 1) vs e') :
    Derives round (leftBP t.type) (us ++ t :: vs)
      (.binary e op e')
| comparison
    {us : List Lexeme} {e : Expr} {links : List Link}
    (hFirst : Derives round (kComparisonBP + 1) us e)
    (hSome : links ≠ [])
    (hOps : ∀ k ∈ links, mapComparisonOp k.token.type = .ok k.op)
    (hLinks :
      ∀ k ∈ links,
        Derives round (kComparisonBP + 1) k.lexemes k.operand) :
    Derives round kComparisonBP (us ++ links.flatMap Link.text)
      (.comparison e (links.map Link.pair))
| ifElse
    {q c : Lexeme} {us vs ws : List Lexeme} {e e' e'' : Expr}
    (hQuestion : q.type = .question)
    (hColon : c.type = .colon)
    (hCondition : Derives round (kTernaryBP + 1) us e)
    (hThen : Derives round 0 vs e')
    (hElse : Derives round kTernaryBP ws e'') :
    Derives round kTernaryBP (us ++ q :: (vs ++ c :: ws))
      (.ifElse e e' e'')
| assignment
    {t : Lexeme} {op : AssignmentOp} {us vs : List Lexeme}
    {e e' : Expr}
    (hOp : mapAssignmentOp t.type = .ok op)
    (hLeft : Derives round (kTernaryBP + 1) us e)
    (hRight : Derives round 0 vs e') :
    Derives round kAssignmentBP (us ++ t :: vs)
      (.assignment e op e')
| weaken
    {l l' : Int} {us : List Lexeme} {e : Expr}
    (hLevel : l ≤ l')
    (hTighter : Derives round l' us e) :
    Derives round l us e

/-
  A script: statements, with any number of semicolons after
  each. A statement that begins with a minus would go on the
  one before it, and needs a semicolon in between.
-/
inductive DerivesScript (round : ℚ → Double ℚ) :
    List Lexeme → List Expr → Prop
| nil : DerivesScript round [] []
| cons
    {us ss vs : List Lexeme} {e : Expr} {es : List Expr}
    (hStatement : Derives round 0 us e)
    (hSemicolons : ∀ t ∈ ss, t.type = .semicolon)
    (hRest : DerivesScript round vs es)
    (hApart : ss = [] → ∀ t ∈ vs.head?, t.type ≠ .minus) :
    DerivesScript round (us ++ (ss ++ vs)) (e :: es)

------------------------------------------------------------
-- Operators
------------------------------------------------------------

/- The binding powers of the operators, sort by sort. -/
theorem of_mapBinaryOp
    {type : TokenType} {op : BinaryOp}
    (hOp : mapBinaryOp type = .ok op) :
    kTernaryBP + 1 ≤ leftBP type ∧ leftBP type < kPrefixBP ∧
      leftBP type ≠ kComparisonBP ∧ isAssignment type = false ∧
        type ≠ .question ∧ isComparison type = false := by
  cases type <;> first | decide | cases hOp

theorem of_mapComparisonOp
    {type : TokenType} {op : ComparisonOp}
    (hOp : mapComparisonOp type = .ok op) :
    leftBP type = kComparisonBP ∧ isAssignment type = false ∧
      type ≠ .question ∧ isComparison type = true := by
  cases type <;> first | decide | cases hOp

theorem of_mapAssignmentOp
    {type : TokenType} {op : AssignmentOp}
    (hOp : mapAssignmentOp type = .ok op) :
    leftBP type = kAssignmentBP ∧ isAssignment type = true := by
  cases type <;> first | decide | cases hOp

theorem isComparison_iff
    {type : TokenType} :
    isComparison type = true ↔ leftBP type = kComparisonBP := by
  cases type <;> decide

theorem exists_of_isComparison
    {type : TokenType}
    (hComparison : isComparison type = true) :
    ∃ op, mapComparisonOp type = .ok op := by
  cases type <;> first | exact ⟨_, rfl⟩ | cases hComparison

theorem exists_of_isAssignment
    {type : TokenType}
    (hAssignment : isAssignment type = true) :
    ∃ op, mapAssignmentOp type = .ok op := by
  cases type <;> first | exact ⟨_, rfl⟩ | cases hAssignment

/- Every infix operator is of one of the sorts. -/
theorem exists_of_leftBP
    {type : TokenType}
    (hInfix : ¬leftBP type < 0)
    (hAssignment : isAssignment type = false)
    (hQuestion : type ≠ .question)
    (hComparison : isComparison type = false) :
    ∃ op, mapBinaryOp type = .ok op := by
  cases type <;>
    first
    | exact ⟨_, rfl⟩
    | exact absurd (by decide) hInfix
    | exact absurd rfl hQuestion
    | exact absurd hAssignment (by decide)
    | exact absurd hComparison (by decide)

theorem leftBP_lt (type : TokenType) :
    leftBP type < kPrefixBP := by
  cases type <;> decide

/- No operator binds less than an assignment. -/
theorem leftBP_neg
    {type : TokenType}
    (hLess : leftBP type < kAssignmentBP) : leftBP type < 0 := by
  cases type <;> first | decide | exact absurd hLess (by decide)

/- The tokens that are neither infix nor markers. -/
theorem of_leftBP
    {type : TokenType}
    (hInfix : ¬leftBP type < 0) :
    type ≠ .error ∧ type ≠ .endOfInput := by
  constructor <;> rintro rfl <;> exact hInfix (by decide)

------------------------------------------------------------
-- Tokens
------------------------------------------------------------

abbrev lexemes (ts : List Token) : List Lexeme :=
  ts.map Token.toLexeme

/- No error, and no sentinel. -/
def Lexeme.Proper (t : Lexeme) : Prop :=
  t.type ≠ .error ∧ t.type ≠ .endOfInput

instance (t : Lexeme) : Decidable t.Proper := by
  unfold Lexeme.Proper
  infer_instance

theorem proper_of_type
    {t : Lexeme} {type : TokenType}
    (hType : t.type = type)
    (hProper : type ≠ .error ∧ type ≠ .endOfInput) : t.Proper := by
  rwa [Lexeme.Proper, hType]

/- A token that is no marker is passed over. -/
theorem exists_of_peek
    {ts : List Token}
    (hError : (peek ts).type ≠ .error)
    (hEnd : (peek ts).type ≠ .endOfInput) :
    ∃ t tail, ts = t :: tail ∧ peek ts = t ∧ advance ts = tail := by
  cases ts with
  | nil => exact absurd rfl hError
  | cons t tail =>
      refine ⟨t, tail, rfl, rfl, ?_⟩
      rw [advance, atEnd, beq_eq_false_iff_ne.mpr hEnd]
      rfl

theorem advance_cons
    {t : Token} {ts : List Token}
    (hEnd : t.type ≠ .endOfInput) : advance (t :: ts) = ts := by
  rw [advance, atEnd, peek, beq_eq_false_iff_ne.mpr hEnd]
  rfl

theorem exists_of_expect
    {type : TokenType} {msg : String} {ts rest : List Token}
    (hError : type ≠ .error)
    (hEnd : type ≠ .endOfInput)
    (hExpect : expect type msg ts = .ok rest) :
    ∃ t, ts = t :: rest ∧ t.type = type := by
  unfold expect at hExpect
  split_ifs at hExpect with hCheck
  cases hExpect
  have hType : (peek ts).type = type := by
    simpa [check] using hCheck
  have hProper := proper_of_type hType ⟨hError, hEnd⟩
  rcases exists_of_peek hProper.1 hProper.2 with
    ⟨t, tail, rfl, hPeek, hAdvance⟩
  rw [hAdvance]
  exact ⟨t, rfl, hPeek ▸ hType⟩

theorem expect_cons
    {type : TokenType} {msg : String} {t : Token}
    {rest : List Token}
    (hType : t.type = type)
    (hEnd : type ≠ .endOfInput) :
    expect type msg (t :: rest) = .ok rest := by
  have hCheck : check type (t :: rest) = true := by
    simp [check, peek, hType]
  rw [expect, hCheck, if_pos rfl, advance_cons (by rwa [hType])]

theorem of_unaryOp
    {type : TokenType} {op : UnaryOp}
    (hOp : unaryOp type = some op) :
    type ≠ .error ∧ type ≠ .endOfInput := by
  constructor <;> rintro rfl <;> cases hOp

theorem of_operand
    {round : ℚ → Double ℚ} {l : Lexeme}
    {atom : Except ParseError Expr}
    (hAtom : operand round l = some atom) :
    l.type ≠ .error ∧ l.type ≠ .endOfInput := by
  constructor <;> intro hType <;> simp [operand, hType] at hAtom

theorem of_isAssignment
    {type : TokenType}
    (hAssignment : isAssignment type = true) :
    type ≠ .error ∧ type ≠ .endOfInput := by
  constructor <;> rintro rfl <;> cases hAssignment

theorem of_isComparison
    {type : TokenType}
    (hComparison : isComparison type = true) :
    type ≠ .error ∧ type ≠ .endOfInput := by
  constructor <;> rintro rfl <;> cases hComparison

/- What is left does not go on an expression of a level. -/
def Stop (minBP : Int) (rest : List Token) : Prop :=
  leftBP (peek rest).type < max minBP kTernaryBP

/-
  What may come after an expression that is read up to a
  level: an operator that binds no tighter, and no comparison
  after a comparison.
-/
def Follow (l : Int) (rest : List Token) : Prop :=
  leftBP (peek rest).type ≤ l ∧
    (l = kComparisonBP →
      leftBP (peek rest).type ≠ kComparisonBP)

theorem Follow.mono
    {l l' : Int} {rest : List Token}
    (hFollow : Follow l rest)
    (hLevel : l ≤ l') : Follow l' rest := by
  rcases hFollow with ⟨hLess, hApart⟩
  refine ⟨hLess.trans hLevel, ?_⟩
  rintro rfl hComparison
  have hEq : l = kComparisonBP :=
    le_antisymm hLevel (hComparison ▸ hLess)
  exact hApart hEq hComparison

------------------------------------------------------------
-- Soundness
------------------------------------------------------------

variable {round : ℚ → Double ℚ}

/- The tokens of some links, and what they are parsed to. -/
structure Linked
    (round : ℚ → Double ℚ) (us : List Token)
    (pairs : List (ComparisonOp × Expr))
    (links : List Link) : Prop where
  text : lexemes us = links.flatMap Link.text
  pairs : pairs = links.map Link.pair
  ops : ∀ k ∈ links, mapComparisonOp k.token.type = .ok k.op
  operands :
    ∀ k ∈ links,
      Derives round (kComparisonBP + 1) k.lexemes k.operand

theorem Linked.cons
    {t : Token} {op : ComparisonOp} {us vs : List Token}
    {e : Expr} {pairs : List (ComparisonOp × Expr)}
    {links : List Link}
    (hOp : mapComparisonOp t.type = .ok op)
    (hOperand : Derives round (kComparisonBP + 1) (lexemes us) e)
    (hLinked : Linked round vs pairs links) :
    Linked round (t :: (us ++ vs)) ((op, e) :: pairs)
      (⟨t.toLexeme, op, lexemes us, e⟩ :: links) where
  text := by
    rw [List.flatMap_cons, ← hLinked.text]
    simp [Link.text]
  pairs := by
    rw [hLinked.pairs]
    rfl
  ops := by
    intro k hk
    rcases List.mem_cons.mp hk with rfl | hk
    · exact hOp
    · exact hLinked.ops k hk
  operands := by
    intro k hk
    rcases List.mem_cons.mp hk with rfl | hk
    · exact hOperand
    · exact hLinked.operands k hk

/- What the functions of the parser return with this fuel. -/
structure SoundAt (round : ℚ → Double ℚ) (fuel : Nat) : Prop where
  operand :
    ∀ {ts rest : List Token} {e : Expr},
      parsePrefix round fuel ts = .ok (e, rest) →
        ∃ us, ts = us ++ rest ∧
          Derives round kPrefixBP (lexemes us) e
  expr :
    ∀ {minBP : Int} {ts rest : List Token} {e : Expr},
      minBP ≤ kPrefixBP →
      parseExpr round fuel minBP ts = .ok (e, rest) →
        ∃ us, ts = us ++ rest ∧
          Derives round minBP (lexemes us) e ∧ Stop minBP rest
  loop :
    ∀ {minBP l : Int} {left e : Expr} {vs : List Lexeme}
      {ts rest : List Token},
      minBP ≤ l → kTernaryBP < l →
      Derives round l vs left → Follow l ts →
      parseLoop round fuel minBP left ts = .ok (e, rest) →
        ∃ us, ts = us ++ rest ∧
          Derives round minBP (vs ++ lexemes us) e ∧
            Stop minBP rest
  assignment :
    ∀ {left e : Expr} {vs : List Lexeme} {ts rest : List Token},
      isAssignment (peek ts).type = true →
      Derives round (kTernaryBP + 1) vs left →
      parseAssignment round fuel left ts = .ok (e, rest) →
        ∃ us, ts = us ++ rest ∧
          Derives round kAssignmentBP (vs ++ lexemes us) e ∧
            Stop kAssignmentBP rest
  ternary :
    ∀ {left e : Expr} {vs : List Lexeme} {ts rest : List Token},
      (peek ts).type = .question →
      Derives round (kTernaryBP + 1) vs left →
      parseTernary round fuel left ts = .ok (e, rest) →
        ∃ us, ts = us ++ rest ∧
          Derives round kTernaryBP (vs ++ lexemes us) e ∧
            Stop kTernaryBP rest
  chained :
    ∀ {left e : Expr} {vs : List Lexeme} {ts rest : List Token},
      isComparison (peek ts).type = true →
      Derives round (kComparisonBP + 1) vs left →
      parseChainedComparison round fuel left ts = .ok (e, rest) →
        ∃ us, ts = us ++ rest ∧
          Derives round kComparisonBP (vs ++ lexemes us) e ∧
            Follow kComparisonBP rest
  links :
    ∀ {pairs : List (ComparisonOp × Expr)}
      {ts rest : List Token},
      leftBP (peek ts).type ≤ kComparisonBP →
      parseLinks round fuel ts = .ok (pairs, rest) →
        ∃ us links, ts = us ++ rest ∧
          Linked round us pairs links ∧
            (isComparison (peek ts).type = true → links ≠ []) ∧
              leftBP (peek rest).type < kComparisonBP

/- One operand, with the parser of expressions beneath. -/
theorem sound_parsePrefix
    {fuel : Nat} {ts rest : List Token} {e : Expr}
    (hSound : SoundAt round fuel)
    (hParse : parsePrefix round (fuel + 1) ts = .ok (e, rest)) :
    ∃ us, ts = us ++ rest ∧
      Derives round kPrefixBP (lexemes us) e := by
  rw [parsePrefix] at hParse
  dsimp only at hParse
  cases hUnary : unaryOp (peek ts).type with
  | some op =>
      rw [hUnary] at hParse
      rcases bind_eq_ok.mp hParse with
        ⟨⟨rhs, ts'⟩, hExpr, hReturn⟩
      cases hReturn
      have hType := of_unaryOp hUnary
      rcases exists_of_peek hType.1 hType.2 with
        ⟨t, tail, rfl, hPeek, hAdvance⟩
      rw [hAdvance] at hExpr
      rw [hPeek] at hUnary
      rcases hSound.expr le_rfl hExpr with ⟨us, rfl, hDerives, -⟩
      exact ⟨t :: us, rfl, .unary hUnary hDerives⟩
  | none =>
      rw [hUnary] at hParse
      dsimp only at hParse
      split_ifs at hParse with hParen hError
      · rcases bind_eq_ok.mp hParse with
          ⟨⟨expr, ts'⟩, hExpr, hRest⟩
        rcases bind_eq_ok.mp hRest with ⟨ts'', hExpect, hReturn⟩
        cases hReturn
        have hProper := proper_of_type hParen (by decide)
        rcases exists_of_peek hProper.1 hProper.2 with
          ⟨t, tail, rfl, hPeek, hAdvance⟩
        rw [hAdvance] at hExpr
        rw [hPeek] at hParen
        rcases hSound.expr (by decide) hExpr with
          ⟨us, rfl, hDerives, -⟩
        rcases
            exists_of_expect (by decide) (by decide) hExpect with
          ⟨rp, rfl, hRight⟩
        refine ⟨t :: (us ++ [rp]), by simp, ?_⟩
        simpa [lexemes] using
          Derives.paren hParen hRight hDerives
      all_goals
        cases hAtom : operand round (peek ts).toLexeme with
        | none =>
            rw [hAtom] at hParse
            cases hParse
        | some atom =>
            rw [hAtom] at hParse
            rcases bind_eq_ok.mp hParse with ⟨expr, hOk, hReturn⟩
            cases hReturn
            have hType := of_operand hAtom
            rcases exists_of_peek hType.1 hType.2 with
              ⟨t, tail, rfl, hPeek, hAdvance⟩
            rw [hAdvance]
            rw [hPeek, hOk] at hAtom
            exact ⟨[t], rfl, .atom hAtom⟩

theorem sound_parseExpr
    {fuel : Nat} {minBP : Int} {ts rest : List Token} {e : Expr}
    (hSound : SoundAt round fuel)
    (hLevel : minBP ≤ kPrefixBP)
    (hParse :
      parseExpr round (fuel + 1) minBP ts = .ok (e, rest)) :
    ∃ us, ts = us ++ rest ∧
      Derives round minBP (lexemes us) e ∧ Stop minBP rest := by
  rw [parseExpr] at hParse
  rcases bind_eq_ok.mp hParse with ⟨⟨left, ts'⟩, hOperand, hLoop⟩
  rcases hSound.operand hOperand with ⟨us, rfl, hLeft⟩
  have hFollow : Follow kPrefixBP ts' :=
    ⟨(leftBP_lt _).le, fun h => absurd h (by decide)⟩
  rcases hSound.loop hLevel (by decide) hLeft hFollow hLoop with
    ⟨vs, rfl, hDerives, hStop⟩
  refine ⟨us ++ vs, by simp, ?_, hStop⟩
  simpa [lexemes] using hDerives

/- What stops above the ternary stops in the plain sense. -/
theorem Stop.lt
    {minBP : Int} {rest : List Token}
    (hStop : Stop minBP rest)
    (hLevel : kTernaryBP ≤ minBP) :
    leftBP (peek rest).type < minBP := by
  rwa [Stop, max_eq_left hLevel] at hStop

theorem Stop.mono
    {minBP minBP' : Int} {rest : List Token}
    (hStop : Stop minBP rest)
    (hLevel : minBP ≤ kTernaryBP) : Stop minBP' rest := by
  rw [Stop, max_eq_right hLevel] at hStop
  exact lt_of_lt_of_le hStop (le_max_right _ _)

theorem sound_parseLoop
    {fuel : Nat} {minBP l : Int} {left e : Expr}
    {vs : List Lexeme} {ts rest : List Token}
    (hSound : SoundAt round fuel)
    (hLevel : minBP ≤ l)
    (hTernary : kTernaryBP < l)
    (hLeft : Derives round l vs left)
    (hFollow : Follow l ts)
    (hParse :
      parseLoop round (fuel + 1) minBP left ts =
        .ok (e, rest)) :
    ∃ us, ts = us ++ rest ∧
      Derives round minBP (vs ++ lexemes us) e ∧
        Stop minBP rest := by
  rw [parseLoop] at hParse
  dsimp only at hParse
  split_ifs at hParse with hEnd hAssignment hQuestion hComparison
  · cases hParse
    refine ⟨[], rfl, by simpa using .weaken hLevel hLeft, ?_⟩
    rcases hEnd with hNone | hLess
    · exact lt_of_lt_of_le (hNone.trans (by decide))
        (le_max_right _ _)
    · exact lt_of_lt_of_le hLess (le_max_left _ _)
  all_goals
    rcases not_or.mp hEnd with ⟨hInfix, hTight⟩
    rw [not_lt] at hTight
  · rcases exists_of_isAssignment hAssignment with ⟨op, hOp⟩
    have hLow : minBP ≤ kAssignmentBP :=
      hTight.trans (of_mapAssignmentOp hOp).1.le
    rcases hSound.assignment hAssignment (.weaken hTernary hLeft)
        hParse with
      ⟨us, hText, hDerives, hStop⟩
    exact
      ⟨us, hText, .weaken hLow hDerives,
        hStop.mono (by decide)⟩
  · have hLow : minBP ≤ kTernaryBP := by
      rw [hQuestion] at hTight
      exact hTight
    rcases
        hSound.ternary hQuestion (.weaken hTernary hLeft) hParse with
      ⟨us, hText, hDerives, hStop⟩
    exact
      ⟨us, hText, .weaken hLow hDerives, hStop.mono le_rfl⟩
  · rcases bind_eq_ok.mp hParse with
      ⟨⟨left', ts'⟩, hChained, hLoop⟩
    have hPower := isComparison_iff.mp hComparison
    rw [hPower] at hTight
    -- the operand was no comparison itself
    have hAbove : kComparisonBP + 1 ≤ l := by
      rcases hFollow with ⟨hLess, hApart⟩
      rw [hPower] at hLess
      exact lt_of_le_of_ne hLess fun h => hApart h.symm hPower
    rcases
        hSound.chained hComparison (.weaken hAbove hLeft) hChained with
      ⟨us, rfl, hDerives, hNext⟩
    rcases
        hSound.loop hTight (by decide) hDerives hNext hLoop with
      ⟨us', rfl, hAll, hStop⟩
    refine ⟨us ++ us', by simp, ?_, hStop⟩
    simpa [lexemes] using hAll
  · rcases bind_eq_ok.mp hParse with ⟨⟨right, ts'⟩, hExpr, hRest⟩
    rcases bind_eq_ok.mp hRest with ⟨left', hMake, hLoop⟩
    rcases bind_eq_ok.mp hMake with ⟨op, hOp, hReturn⟩
    cases hReturn
    rcases of_mapBinaryOp hOp with ⟨hLow, hHigh, hApart, -⟩
    rcases of_leftBP hInfix with ⟨hError, hNoEnd⟩
    rcases exists_of_peek hError hNoEnd with
      ⟨t, tail, rfl, hPeek, hAdvance⟩
    rw [hAdvance, hPeek] at hExpr
    rw [hPeek] at hOp hTight hLow hHigh hApart
    have hBelow : leftBP t.type ≤ l := hFollow.1
    rcases hSound.expr (Int.add_one_le_of_lt hHigh) hExpr with
      ⟨us, rfl, hRight, hStopRight⟩
    have hNext : Follow (leftBP t.type) ts' := by
      have hLess := hStopRight.lt (by omega)
      exact ⟨Int.lt_add_one_iff.mp hLess,
        fun h => absurd h hApart⟩
    rcases hSound.loop hTight hLow
        (.binary hOp (.weaken hBelow hLeft) hRight) hNext hLoop with
      ⟨us', rfl, hAll, hStop⟩
    refine ⟨t :: (us ++ us'), by simp, ?_, hStop⟩
    simpa [lexemes] using hAll

theorem sound_parseAssignment
    {fuel : Nat} {left e : Expr} {vs : List Lexeme}
    {ts rest : List Token}
    (hSound : SoundAt round fuel)
    (hAssignment : isAssignment (peek ts).type = true)
    (hLeft : Derives round (kTernaryBP + 1) vs left)
    (hParse :
      parseAssignment round (fuel + 1) left ts =
        .ok (e, rest)) :
    ∃ us, ts = us ++ rest ∧
      Derives round kAssignmentBP (vs ++ lexemes us) e ∧
        Stop kAssignmentBP rest := by
  rw [parseAssignment] at hParse
  rcases bind_eq_ok.mp hParse with ⟨op, hOp, hRest⟩
  rcases bind_eq_ok.mp hRest with ⟨⟨right, ts'⟩, hExpr, hReturn⟩
  cases hReturn
  rcases of_isAssignment hAssignment with ⟨hError, hNoEnd⟩
  rcases exists_of_peek hError hNoEnd with
    ⟨t, tail, rfl, hPeek, hAdvance⟩
  rw [hAdvance] at hExpr
  rw [hPeek] at hOp
  rcases hSound.expr (by decide) hExpr with
    ⟨us, rfl, hRight, hStop⟩
  exact
    ⟨t :: us, rfl, .assignment hOp hLeft hRight,
      hStop.mono (by decide)⟩

theorem sound_parseTernary
    {fuel : Nat} {left e : Expr} {vs : List Lexeme}
    {ts rest : List Token}
    (hSound : SoundAt round fuel)
    (hQuestion : (peek ts).type = .question)
    (hLeft : Derives round (kTernaryBP + 1) vs left)
    (hParse :
      parseTernary round (fuel + 1) left ts = .ok (e, rest)) :
    ∃ us, ts = us ++ rest ∧
      Derives round kTernaryBP (vs ++ lexemes us) e ∧
        Stop kTernaryBP rest := by
  rw [parseTernary] at hParse
  rcases bind_eq_ok.mp hParse with ⟨⟨e₁, ts₁⟩, hThen, hRest⟩
  rcases bind_eq_ok.mp hRest with ⟨ts₂, hExpect, hRest⟩
  rcases bind_eq_ok.mp hRest with ⟨⟨e₂, ts₃⟩, hElse, hReturn⟩
  cases hReturn
  have hProper := proper_of_type hQuestion (by decide)
  rcases exists_of_peek hProper.1 hProper.2 with
    ⟨q, tail, rfl, hPeek, hAdvance⟩
  rw [hAdvance] at hThen
  rw [hPeek] at hQuestion
  rcases hSound.expr (by decide) hThen with ⟨us, rfl, hFirst, -⟩
  rcases exists_of_expect (by decide) (by decide) hExpect with
    ⟨c, rfl, hColon⟩
  rcases hSound.expr (by decide) hElse with
    ⟨us', rfl, hSecond, hStop⟩
  refine ⟨q :: (us ++ c :: us'), by simp, ?_, hStop⟩
  simpa [lexemes] using
    Derives.ifElse hQuestion hColon hLeft hFirst hSecond

theorem sound_parseLinks
    {fuel : Nat} {pairs : List (ComparisonOp × Expr)}
    {ts rest : List Token}
    (hSound : SoundAt round fuel)
    (hFollow : leftBP (peek ts).type ≤ kComparisonBP)
    (hParse :
      parseLinks round (fuel + 1) ts = .ok (pairs, rest)) :
    ∃ us links, ts = us ++ rest ∧
      Linked round us pairs links ∧
        (isComparison (peek ts).type = true → links ≠ []) ∧
          leftBP (peek rest).type < kComparisonBP := by
  rw [parseLinks] at hParse
  split_ifs at hParse with hComparison
  · rcases bind_eq_ok.mp hParse with ⟨op, hOp, hRest⟩
    rcases bind_eq_ok.mp hRest with ⟨⟨expr, ts₁⟩, hExpr, hRest⟩
    rcases bind_eq_ok.mp hRest with
      ⟨⟨pairs', ts₂⟩, hLinks, hReturn⟩
    cases hReturn
    rcases of_isComparison hComparison with ⟨hError, hNoEnd⟩
    rcases exists_of_peek hError hNoEnd with
      ⟨t, tail, rfl, hPeek, hAdvance⟩
    rw [hAdvance] at hExpr
    rw [hPeek] at hOp
    rcases hSound.expr (by decide) hExpr with
      ⟨us, rfl, hOperand, hStop⟩
    rcases hSound.links
        (Int.lt_add_one_iff.mp (hStop.lt (by decide))) hLinks with
      ⟨vs, links, rfl, hLinked, -, hEnd⟩
    exact
      ⟨t :: (us ++ vs), _, by simp,
        hLinked.cons hOp hOperand, by simp, hEnd⟩
  · cases hParse
    refine
      ⟨[], [], rfl, ⟨rfl, rfl, by simp, by simp⟩,
        fun h => absurd h hComparison, ?_⟩
    rw [isComparison_iff] at hComparison
    exact lt_of_le_of_ne hFollow hComparison

theorem sound_parseChainedComparison
    {fuel : Nat} {left e : Expr} {vs : List Lexeme}
    {ts rest : List Token}
    (hSound : SoundAt round fuel)
    (hComparison : isComparison (peek ts).type = true)
    (hLeft : Derives round (kComparisonBP + 1) vs left)
    (hParse :
      parseChainedComparison round (fuel + 1) left ts =
        .ok (e, rest)) :
    ∃ us, ts = us ++ rest ∧
      Derives round kComparisonBP (vs ++ lexemes us) e ∧
        Follow kComparisonBP rest := by
  rw [parseChainedComparison] at hParse
  rcases bind_eq_ok.mp hParse with
    ⟨⟨pairs, ts₁⟩, hLinks, hReturn⟩
  cases hReturn
  have hPower := isComparison_iff.mp hComparison
  rcases hSound.links hPower.le hLinks with
    ⟨us, links, hText, hLinked, hSome, hEnd⟩
  refine ⟨us, hText, ?_, hEnd.le, fun _ => hEnd.ne⟩
  rw [hLinked.text, hLinked.pairs]
  exact
    .comparison hLeft (hSome hComparison) hLinked.ops
      hLinked.operands

/- The parser is sound, whatever its fuel. -/
theorem soundAt (fuel : Nat) : SoundAt round fuel := by
  induction fuel with
  | zero =>
      constructor
      · intro ts rest e hParse
        cases hParse
      · intro minBP ts rest e hLevel hParse
        cases hParse
      · intro minBP l left e vs ts rest _ _ _ _ hParse
        cases hParse
      · intro left e vs ts rest _ _ hParse
        cases hParse
      · intro left e vs ts rest _ _ hParse
        cases hParse
      · intro left e vs ts rest _ _ hParse
        cases hParse
      · intro pairs ts rest _ hParse
        cases hParse
  | succ fuel ih =>
      exact
        { operand := sound_parsePrefix ih
          expr := sound_parseExpr ih
          loop := sound_parseLoop ih
          assignment := sound_parseAssignment ih
          ternary := sound_parseTernary ih
          chained := sound_parseChainedComparison ih
          links := sound_parseLinks ih }

------------------------------------------------------------
-- Scripts
------------------------------------------------------------

/- The tokens of a source: the last one is the sentinel. -/
structure Ended (ts : List Token) (sentinel : Token) : Prop where
  inside : ∀ t ∈ ts, t.type ≠ .endOfInput
  sentinel : sentinel.type = .endOfInput

theorem skipSemicolons_append
    {ss ts : List Token}
    (hSemicolons : ∀ t ∈ ss, t.type = .semicolon)
    (hNext : ∀ t ∈ ts.head?, t.type ≠ .semicolon) :
    skipSemicolons (ss ++ ts) = ts := by
  unfold skipSemicolons
  rw [List.dropWhile_append_of_pos (by simpa using hSemicolons)]
  cases ts with
  | nil => rfl
  | cons t ts =>
      have hType := hNext t rfl
      simp [hType]

theorem exists_skipSemicolons (ts : List Token) :
    ∃ ss, (∀ t ∈ ss, t.type = .semicolon) ∧
      ts = ss ++ skipSemicolons ts ∧
        ∀ t ∈ (skipSemicolons ts).head?, t.type ≠ .semicolon := by
  refine
    ⟨ts.takeWhile fun t => t.type == .semicolon, ?_,
      List.takeWhile_append_dropWhile.symm, ?_⟩
  · intro t ht
    simpa using List.mem_takeWhile_imp ht
  · intro t ht
    have hHead :=
      List.head?_dropWhile_not
        (fun t : Token => t.type == .semicolon) ts
    rw [skipSemicolons] at ht
    rw [Option.mem_def.mp ht] at hHead
    simpa using hHead

/- Expressions are made of proper tokens. -/
theorem Derives.proper
    {l : Int} {us : List Lexeme} {e : Expr}
    (hDerives : Derives round l us e) :
    ∀ t ∈ us, t.Proper := by
  induction hDerives with
  | atom hAtom =>
      intro t ht
      rw [List.mem_singleton.mp ht]
      exact of_operand hAtom
  | unary hOp _ ih =>
      rw [List.forall_mem_cons]
      exact ⟨of_unaryOp hOp, ih⟩
  | paren hLeft hRight _ ih =>
      simp only [List.forall_mem_cons, List.forall_mem_append]
      exact
        ⟨proper_of_type hLeft (by decide), ih,
          proper_of_type hRight (by decide), by simp⟩
  | @binary t op us vs e e' hOp _ _ ihLeft ihRight =>
      rw [List.forall_mem_append, List.forall_mem_cons]
      refine ⟨ihLeft, of_leftBP ?_, ihRight⟩
      have hFive : kTernaryBP + 1 = 5 := rfl
      have hLow := (of_mapBinaryOp hOp).1
      omega
  | @comparison us e links _ _ hOps _ ihFirst ihLinks =>
      rw [List.forall_mem_append]
      refine ⟨ihFirst, ?_⟩
      intro t ht
      rcases List.mem_flatMap.mp ht with ⟨k, hk, hMem⟩
      rcases List.mem_cons.mp hMem with rfl | hMem
      · exact of_isComparison (of_mapComparisonOp (hOps k hk)).2.2.2
      · exact ihLinks k hk t hMem
  | ifElse hQuestion hColon _ _ _ ih₁ ih₂ ih₃ =>
      simp only [List.forall_mem_append, List.forall_mem_cons]
      exact
        ⟨ih₁, proper_of_type hQuestion (by decide), ih₂,
          proper_of_type hColon (by decide), ih₃⟩
  | @assignment t op us vs e e' hOp _ _ ihLeft ihRight =>
      rw [List.forall_mem_append, List.forall_mem_cons]
      exact
        ⟨ihLeft, of_isAssignment (of_mapAssignmentOp hOp).2,
          ihRight⟩
  | weaken _ _ ih => exact ih

/- What comes first of a source leaves the sentinel. -/
theorem exists_of_ended
    {ts us rest : List Token} {sentinel : Token}
    (hSentinel : sentinel.type = .endOfInput)
    (hInside : ∀ t ∈ us, t.type ≠ .endOfInput)
    (hText : ts ++ [sentinel] = us ++ rest) :
    ∃ vs, ts = us ++ vs ∧ rest = vs ++ [sentinel] := by
  rcases List.append_eq_append_iff.mp hText with
    ⟨vs, hUs, hRest⟩ | ⟨vs, hTs, hRest⟩
  · cases vs with
    | nil => exact ⟨[], by simpa using hUs.symm, by simpa using hRest.symm⟩
    | cons t vs =>
        have hHead := (List.cons.inj hRest).1
        have hMem : sentinel ∈ us := by
          rw [hUs, hHead]
          simp
        exact absurd hSentinel (hInside sentinel hMem)
  · exact ⟨vs, hTs, hRest⟩

/- What the parser accepts is a script, with its trees. -/
theorem derivesScript_of_parseAll
    {fuel : Nat} {ts : List Token} {sentinel : Token}
    {es : List Expr}
    (hEnded : Ended ts sentinel)
    (hParse : parseAll round fuel (ts ++ [sentinel]) = .ok es) :
    DerivesScript round (lexemes ts) es := by
  induction fuel generalizing ts es with
  | zero => cases hParse
  | succ fuel ih =>
      rw [parseAll] at hParse
      split_ifs at hParse with hEnd
      · cases hParse
        cases ts with
        | nil => exact .nil
        | cons t ts =>
            have hType := hEnded.inside t List.mem_cons_self
            exact absurd (by simpa [atEnd, peek] using hEnd) hType
      · rcases bind_eq_ok.mp hParse with
          ⟨⟨e, rest⟩, hExpr, hRest⟩
        rcases bind_eq_ok.mp hRest with ⟨es', hMore, hReturn⟩
        cases hReturn
        rcases (soundAt fuel).expr (by decide) hExpr with
          ⟨us, hText, hDerives, hStop⟩
        have hInside : ∀ t ∈ us, t.type ≠ .endOfInput := by
          intro t ht
          exact
            (hDerives.proper _
              (List.mem_map_of_mem (f := Token.toLexeme) ht)).2
        rcases exists_of_ended hEnded.sentinel hInside hText with
          ⟨xs, rfl, rfl⟩
        rcases exists_skipSemicolons (xs ++ [sentinel]) with
          ⟨ss, hSemicolons, hSkip, -⟩
        have hPass : ∀ t ∈ ss, t.type ≠ .endOfInput := by
          intro t ht
          rw [hSemicolons t ht]
          decide
        rcases exists_of_ended hEnded.sentinel hPass hSkip with
          ⟨vs, rfl, hVs⟩
        rw [hVs] at hMore
        have hEndedVs : Ended vs sentinel :=
          ⟨fun t ht => hEnded.inside t (by simp [ht]),
            hEnded.sentinel⟩
        have hScript := ih hEndedVs hMore
        rw [lexemes, List.map_append, List.map_append]
        refine .cons hDerives ?_ hScript ?_
        · simpa using hSemicolons
        · intro hNone t ht hMinus
          rw [List.map_eq_nil_iff] at hNone
          subst hNone
          cases vs with
          | nil => cases ht
          | cons v vs =>
              cases ht
              rw [Stop, List.nil_append, List.cons_append, peek,
                hMinus] at hStop
              exact absurd hStop (by decide)

end Scripting

end Manipulator
