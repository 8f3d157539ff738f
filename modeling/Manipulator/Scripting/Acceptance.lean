import Manipulator.Scripting.Grammar
import Manipulator.Scripting.Lexical

/-
  The parser accepts what the grammar of scripts derives,
  and so the two agree on every list of tokens.

  A tree that the grammar derives is read in front of
  everything that may follow it. The proof goes along the
  derivation: a left operand is read when the loop goes on
  from it as it should.

  Main declarations:
    * `Continues`, `Reads`, `Derives.reads`
    * `parseAll_eq_ok_iff`
    * `parseStatements_ne_outOfFuel`
-/

------------------------------------------------------------
-- Reading Operands
------------------------------------------------------------

namespace Manipulator

namespace Scripting

variable {round : ℚ → Double ℚ}

/- The loop ends at such a token. -/
def Halts (minBP : Int) (rest : List Token) : Prop :=
  leftBP (peek rest).type < 0 ∨ leftBP (peek rest).type < minBP

/- With three steps a token, and one, the tokens are read. -/
def Reads
    (round : ℚ → Double ℚ) (minBP : Int)
    (us rest : List Token) (e : Expr) : Prop :=
  ∀ fuel, 3 * us.length + 1 ≤ fuel →
    parseExpr round fuel minBP (us ++ rest) = .ok (e, rest)

/- The tokens are read, and the loop goes on from there. -/
def Continues
    (round : ℚ → Double ℚ) (l : Int)
    (us : List Token) (e : Expr) : Prop :=
  ∀ (minBP : Int) (rest : List Token) (n : Nat) (r : Parsed),
    minBP ≤ l → Follow l rest → 1 ≤ n →
      (∀ fuel, n ≤ fuel →
        parseLoop round fuel minBP e rest = r) →
        ∀ fuel, n + 3 * us.length ≤ fuel →
          parseExpr round fuel minBP (us ++ rest) = r

theorem parseLoop_of_halts
    {minBP : Int} {e : Expr} {rest : List Token}
    (hHalts : Halts minBP rest) :
    ∀ fuel, 1 ≤ fuel →
      parseLoop round fuel minBP e rest = .ok (e, rest) := by
  intro fuel hFuel
  rcases Nat.exists_eq_add_of_le' hFuel with ⟨fuel, rfl⟩
  rw [parseLoop]
  exact if_pos hHalts

theorem Continues.reads
    {l minBP : Int} {us rest : List Token} {e : Expr}
    (hContinues : Continues round l us e)
    (hLevel : minBP ≤ l)
    (hFollow : Follow l rest)
    (hHalts : Halts minBP rest) : Reads round minBP us rest e := by
  intro fuel hFuel
  refine
    hContinues minBP rest 1 _ hLevel hFollow le_rfl
      (parseLoop_of_halts hHalts) fuel ?_
  omega

theorem Continues.weaken
    {l l' : Int} {us : List Token} {e : Expr}
    (hContinues : Continues round l' us e)
    (hLevel : l ≤ l') : Continues round l us e := by
  intro minBP rest n r hMin hFollow
  exact
    hContinues minBP rest n r (hMin.trans hLevel)
      (hFollow.mono hLevel)

/- An operand is read by `parsePrefix`. -/
theorem continues_of_parsePrefix
    {us : List Token} {e : Expr}
    (hSome : us ≠ [])
    (hOperand :
      ∀ rest fuel, 3 * us.length ≤ fuel →
        parsePrefix round fuel (us ++ rest) = .ok (e, rest)) :
    Continues round kPrefixBP us e := by
  intro minBP rest n r _ _ hOne hLoop fuel hFuel
  have hLength := List.length_pos_of_ne_nil hSome
  rcases Nat.exists_eq_add_of_le' (show 1 ≤ fuel by omega) with
    ⟨fuel, rfl⟩
  rw [parseExpr, hOperand rest fuel (by omega)]
  exact hLoop fuel (by omega)

theorem of_operand_some
    {l : Lexeme} {atom : Except ParseError Expr}
    (hAtom : operand round l = some atom) :
    unaryOp l.type = none ∧ l.type ≠ .leftParen := by
  unfold operand at hAtom
  split at hAtom
  case h_6 => cases hAtom
  all_goals simp_all [unaryOp]

theorem parsePrefix_atom
    {t : Token} {e : Expr}
    (hAtom : operand round t.toLexeme = some (.ok e))
    (rest : List Token) (fuel : Nat) :
    parsePrefix round (fuel + 1) (t :: rest) = .ok (e, rest) := by
  rcases of_operand_some hAtom with ⟨hUnary, hParen⟩
  have hEnd := (of_operand hAtom).2
  rw [parsePrefix]
  simp only [peek, hUnary, if_neg hParen, hAtom,
    advance_cons hEnd]
  rfl

theorem parsePrefix_unary
    {t : Token} {op : UnaryOp} {ts rest : List Token}
    {e : Expr} {fuel : Nat}
    (hOp : unaryOp t.type = some op)
    (hExpr : parseExpr round fuel kPrefixBP ts = .ok (e, rest)) :
    parsePrefix round (fuel + 1) (t :: ts) =
      .ok (.unary op e, rest) := by
  rw [parsePrefix]
  simp only [peek, hOp, advance_cons (of_unaryOp hOp).2, hExpr]
  rfl

theorem parsePrefix_paren
    {lp rp : Token} {ts rest : List Token}
    {e : Expr} {fuel : Nat}
    (hLeft : lp.type = .leftParen)
    (hRight : rp.type = .rightParen)
    (hExpr : parseExpr round fuel 0 ts = .ok (e, rp :: rest)) :
    parsePrefix round (fuel + 1) (lp :: ts) = .ok (e, rest) := by
  have hEnd : lp.type ≠ .endOfInput := by simp [hLeft]
  have hUnary : unaryOp lp.type = none := by simp [hLeft, unaryOp]
  rw [parsePrefix]
  simp only [peek, hUnary, if_pos hLeft, advance_cons hEnd,
    hExpr]
  change
    (do
      let ts ← expect .rightParen "expected ')'" (rp :: rest)
      return (e, ts)) = _
  rw [expect_cons hRight (by decide)]
  rfl

------------------------------------------------------------
-- Going On
------------------------------------------------------------

theorem halts_of_follow
    {l : Int} {rest : List Token}
    (hFollow : Follow l rest) : Halts (l + 1) rest :=
  .inr (Int.lt_add_one_iff.mpr hFollow.1)

/- A binary operator, and its right operand. -/
theorem parseLoop_binary
    {t : Token} {op : BinaryOp} {minBP : Int}
    {left e : Expr} {vs rest : List Token} {n : Nat}
    {r : Parsed}
    (hOp : mapBinaryOp t.type = .ok op)
    (hMin : minBP ≤ leftBP t.type)
    (hRight : Reads round (leftBP t.type + 1) vs rest e)
    (hOne : 1 ≤ n)
    (hLoop :
      ∀ fuel, n ≤ fuel →
        parseLoop round fuel minBP (.binary left op e) rest =
          r) :
    ∀ fuel, n + 3 * vs.length + 1 ≤ fuel →
      parseLoop round fuel minBP left (t :: (vs ++ rest)) = r := by
  intro fuel hFuel
  rcases Nat.exists_eq_add_of_le' (show 1 ≤ fuel by omega) with
    ⟨fuel, rfl⟩
  rcases of_mapBinaryOp hOp with
    ⟨hLow, -, -, hAssignment, hQuestion, hComparison⟩
  have hInfix : ¬leftBP t.type < 0 := by
    have hFour : kTernaryBP + 1 = 5 := rfl
    omega
  have hGoesOn :
      ¬(leftBP t.type < 0 ∨ leftBP t.type < minBP) :=
    not_or.mpr ⟨hInfix, not_lt.mpr hMin⟩
  rw [parseLoop]
  simp only [peek, if_neg hGoesOn, hAssignment, hQuestion,
    hComparison, Bool.false_eq_true, if_false,
    advance_cons (of_leftBP hInfix).2, hRight fuel (by omega)]
  simp only [bind, Except.bind, makeBinary, hOp, pure,
    Except.pure]
  exact hLoop fuel (by omega)

/- The tokens of some links begin with a comparison. -/
theorem leftBP_links
    {links : List Link} {us rest : List Token}
    (hText : lexemes us = links.flatMap Link.text)
    (hOps : ∀ k ∈ links, mapComparisonOp k.token.type = .ok k.op)
    (hEnd : leftBP (peek rest).type < kComparisonBP) :
    leftBP (peek (us ++ rest)).type ≤ kComparisonBP := by
  cases links with
  | nil =>
      rw [List.flatMap_nil, List.map_eq_nil_iff] at hText
      subst hText
      exact hEnd.le
  | cons k links =>
      rw [List.flatMap_cons, Link.text, List.cons_append,
        List.map_eq_cons_iff] at hText
      rcases hText with ⟨t, us, rfl, hToken, -⟩
      have hOp := hOps k List.mem_cons_self
      rw [← hToken] at hOp
      exact (of_mapComparisonOp hOp).1.le

theorem parseLinks_of_continues
    {links : List Link} {us rest : List Token}
    (hText : lexemes us = links.flatMap Link.text)
    (hOps : ∀ k ∈ links, mapComparisonOp k.token.type = .ok k.op)
    (hLinks :
      ∀ k ∈ links, ∀ us, lexemes us = k.lexemes →
        Continues round (kComparisonBP + 1) us k.operand)
    (hEnd : leftBP (peek rest).type < kComparisonBP) :
    ∀ fuel, 1 ≤ fuel → 3 * us.length ≤ fuel + 1 →
      parseLinks round fuel (us ++ rest) =
        .ok (links.map Link.pair, rest) := by
  induction links generalizing us with
  | nil =>
      intro fuel hOne _
      rw [List.flatMap_nil, List.map_eq_nil_iff] at hText
      subst hText
      rcases Nat.exists_eq_add_of_le' hOne with ⟨fuel, rfl⟩
      have hNone : ¬isComparison (peek rest).type = true := by
        rw [isComparison_iff]
        exact hEnd.ne
      rw [List.nil_append, parseLinks, if_neg hNone]
      rfl
  | cons k links ih =>
      intro fuel hOne hFuel
      rw [List.flatMap_cons, Link.text, List.cons_append,
        List.map_eq_cons_iff] at hText
      rcases hText with ⟨t, tail, rfl, hToken, hTail⟩
      rw [List.map_eq_append_iff] at hTail
      rcases hTail with ⟨vs, ws, rfl, hVs, hWs⟩
      rcases Nat.exists_eq_add_of_le' hOne with ⟨fuel, rfl⟩
      have hOp := hOps k List.mem_cons_self
      rw [← hToken] at hOp
      rcases of_mapComparisonOp hOp with ⟨-, -, -, hComparison⟩
      have hMore :=
        fun k' hk' => hOps k' (List.mem_cons_of_mem k hk')
      have hNext := leftBP_links hWs hMore hEnd
      have hFollow : Follow (kComparisonBP + 1) (ws ++ rest) :=
        ⟨hNext.trans (by decide), fun h => absurd h (by decide)⟩
      have hExpr :=
        (hLinks k List.mem_cons_self vs hVs).reads le_rfl hFollow
          (.inr (Int.lt_add_one_iff.mpr hNext))
      have hRest :=
        ih hWs hMore
          fun k' hk' => hLinks k' (List.mem_cons_of_mem k hk')
      simp only [List.length_cons, List.length_append] at hFuel
      rw [List.cons_append, List.append_assoc, parseLinks]
      simp only [peek, hComparison, if_true, hOp,
        advance_cons (of_isComparison hComparison).2]
      simp only [bind, Except.bind, hExpr fuel (by omega),
        hRest fuel (by omega) (by omega), pure, Except.pure,
        List.map_cons]
      rfl

/- A chain of comparisons. -/
theorem parseLoop_comparison
    {links : List Link} {minBP : Int} {left : Expr}
    {us rest : List Token} {n : Nat} {r : Parsed}
    (hSome : links ≠ [])
    (hText : lexemes us = links.flatMap Link.text)
    (hOps : ∀ k ∈ links, mapComparisonOp k.token.type = .ok k.op)
    (hLinks :
      ∀ k ∈ links, ∀ us, lexemes us = k.lexemes →
        Continues round (kComparisonBP + 1) us k.operand)
    (hMin : minBP ≤ kComparisonBP)
    (hEnd : leftBP (peek rest).type < kComparisonBP)
    (hOne : 1 ≤ n)
    (hLoop :
      ∀ fuel, n ≤ fuel →
        parseLoop round fuel minBP
          (.comparison left (links.map Link.pair)) rest = r) :
    ∀ fuel, n + 3 * us.length ≤ fuel →
      parseLoop round fuel minBP left (us ++ rest) = r := by
  intro fuel hFuel
  rcases List.exists_cons_of_ne_nil hSome with ⟨k, links', rfl⟩
  have hFirst := hText
  rw [List.flatMap_cons, Link.text, List.cons_append,
    List.map_eq_cons_iff] at hFirst
  rcases hFirst with ⟨t, tail, rfl, hToken, -⟩
  have hOp := hOps k List.mem_cons_self
  rw [← hToken] at hOp
  rcases of_mapComparisonOp hOp with
    ⟨hPower, hAssignment, hQuestion, hComparison⟩
  have hGoesOn :
      ¬(leftBP t.type < 0 ∨ leftBP t.type < minBP) := by
    rw [hPower]
    exact not_or.mpr ⟨by decide, not_lt.mpr hMin⟩
  rw [List.length_cons] at hFuel
  rcases Nat.exists_eq_add_of_le' (show 2 ≤ fuel by omega) with
    ⟨fuel, rfl⟩
  have hChain :=
    parseLinks_of_continues hText hOps hLinks hEnd fuel
      (by omega) (by rw [List.length_cons]; omega)
  rw [List.cons_append] at hChain ⊢
  rw [parseLoop]
  simp only [peek, if_neg hGoesOn, hAssignment, hQuestion,
    hComparison, Bool.false_eq_true, if_false, if_true]
  rw [parseChainedComparison, hChain]
  exact hLoop (fuel + 1) (by omega)

theorem parseLoop_ternary
    {q c : Token} {minBP : Int} {left e e' : Expr}
    {us vs rest : List Token}
    (hQuestion : q.type = .question)
    (hColon : c.type = .colon)
    (hMin : minBP ≤ kTernaryBP)
    (hThen : Reads round 0 us (c :: (vs ++ rest)) e)
    (hElse : Reads round kTernaryBP vs rest e') :
    ∀ fuel, 3 * (us.length + vs.length) + 3 ≤ fuel →
      parseLoop round fuel minBP left
          (q :: (us ++ c :: (vs ++ rest))) =
        .ok (.ifElse left e e', rest) := by
  intro fuel hFuel
  rcases Nat.exists_eq_add_of_le' (show 2 ≤ fuel by omega) with
    ⟨fuel, rfl⟩
  have hEnd : q.type ≠ .endOfInput := by simp [hQuestion]
  have hAssignment : isAssignment .question = false := rfl
  have hGoesOn :
      ¬(leftBP .question < 0 ∨ leftBP .question < minBP) :=
    not_or.mpr ⟨by decide, not_lt.mpr hMin⟩
  rw [parseLoop]
  simp only [peek, hQuestion, if_neg hGoesOn, hAssignment,
    Bool.false_eq_true, if_false, if_true]
  rw [parseTernary, advance_cons hEnd, hThen fuel (by omega)]
  simp only [bind, Except.bind,
    expect_cons hColon (by decide), hElse fuel (by omega), pure,
    Except.pure]

theorem parseLoop_assignment
    {t : Token} {op : AssignmentOp} {minBP : Int}
    {left e : Expr} {us rest : List Token}
    (hOp : mapAssignmentOp t.type = .ok op)
    (hMin : minBP ≤ kAssignmentBP)
    (hRight : Reads round 0 us rest e) :
    ∀ fuel, 3 * us.length + 3 ≤ fuel →
      parseLoop round fuel minBP left (t :: (us ++ rest)) =
        .ok (.assignment left op e, rest) := by
  intro fuel hFuel
  rcases Nat.exists_eq_add_of_le' (show 2 ≤ fuel by omega) with
    ⟨fuel, rfl⟩
  rcases of_mapAssignmentOp hOp with ⟨hPower, hAssignment⟩
  have hGoesOn :
      ¬(leftBP t.type < 0 ∨ leftBP t.type < minBP) := by
    rw [hPower]
    exact not_or.mpr ⟨by decide, not_lt.mpr hMin⟩
  rw [parseLoop]
  simp only [peek, if_neg hGoesOn, hAssignment, if_true]
  rw [parseAssignment]
  simp only [bind, Except.bind, peek, hOp,
    advance_cons (of_isAssignment hAssignment).2,
    hRight fuel (by omega), pure, Except.pure]

------------------------------------------------------------
-- Completeness
------------------------------------------------------------

/- A token that is no infix operator ends every loop. -/
theorem halts_of_neg
    {minBP : Int} {rest : List Token}
    (hNeg : leftBP (peek rest).type < 0) : Halts minBP rest :=
  .inl hNeg

theorem Halts.neg
    {minBP : Int} {rest : List Token}
    (hHalts : Halts minBP rest)
    (hLevel : minBP ≤ kAssignmentBP) :
    leftBP (peek rest).type < 0 := by
  rcases hHalts with hNeg | hLess
  · exact hNeg
  · exact leftBP_neg (hLess.trans_le hLevel)

theorem Halts.mono
    {minBP minBP' : Int} {rest : List Token}
    (hHalts : Halts minBP rest)
    (hLevel : minBP ≤ minBP') : Halts minBP' rest :=
  hHalts.imp_right fun hLess => hLess.trans_le hLevel

theorem Halts.follow
    {minBP l : Int} {rest : List Token}
    (hHalts : Halts minBP rest)
    (hMin : minBP ≤ kTernaryBP)
    (hLevel : kTernaryBP < l) : Follow l rest := by
  have hLess : leftBP (peek rest).type < kTernaryBP := by
    rcases hHalts with hNeg | hLess
    · exact hNeg.trans (by decide)
    · exact hLess.trans_le hMin
  refine ⟨(hLess.trans hLevel).le, fun _ hComparison => ?_⟩
  rw [hComparison] at hLess
  exact absurd hLess (by decide)

/-
  A derived expression is read: with what follows it, when it
  is no conditional and no assignment, and for itself.
-/
structure Read
    (round : ℚ → Double ℚ) (l : Int)
    (us : List Token) (e : Expr) : Prop where
  continues : kTernaryBP < l → Continues round l us e
  reads :
    l ≤ kTernaryBP → ∀ (minBP : Int) (rest : List Token),
      minBP ≤ l → Halts minBP rest → Reads round minBP us rest e

namespace Read

variable {l : Int} {us : List Token} {e : Expr}

theorem of_continues
    (hTernary : kTernaryBP < l)
    (hContinues : Continues round l us e) : Read round l us e :=
  ⟨fun _ => hContinues, fun hLow => absurd hTernary hLow.not_gt⟩

theorem of_reads
    (hTernary : l ≤ kTernaryBP)
    (hReads :
      ∀ (minBP : Int) (rest : List Token),
        minBP ≤ l → Halts minBP rest →
          Reads round minBP us rest e) : Read round l us e :=
  ⟨fun hHigh => absurd hHigh hTernary.not_gt, fun _ => hReads⟩

theorem weaken
    {l' : Int}
    (hRead : Read round l us e)
    (hLevel : l' ≤ l) : Read round l' us e := by
  refine ⟨fun hHigh => ?_, fun hLow minBP rest hMin hHalts => ?_⟩
  · exact (hRead.continues (hHigh.trans_le hLevel)).weaken hLevel
  · rcases le_or_gt l kTernaryBP with hTernary | hTernary
    · exact
        hRead.reads hTernary minBP rest (hMin.trans hLevel) hHalts
    · exact
        (hRead.continues hTernary).reads (hMin.trans hLevel)
          (hHalts.follow (hMin.trans hLow) hTernary) hHalts

end Read

/- The parser reads what the grammar derives. -/
theorem Derives.read
    {l : Int} {vs : List Lexeme} {e : Expr}
    (hDerives : Derives round l vs e) :
    ∀ us, lexemes us = vs → Read round l us e := by
  induction hDerives with
  | @atom t e hAtom =>
      intro us hText
      rcases List.map_eq_singleton_iff.mp hText with
        ⟨u, rfl, rfl⟩
      refine .of_continues (by decide) ?_
      refine continues_of_parsePrefix (by simp) ?_
      intro rest fuel hFuel
      rcases
          Nat.exists_eq_add_of_le' (show 1 ≤ fuel by simp_all; omega) with
        ⟨fuel, rfl⟩
      exact parsePrefix_atom hAtom rest fuel
  | @unary t op vs e hOp hOperand ih =>
      intro us hText
      rcases List.map_eq_cons_iff.mp hText with
        ⟨u, us, rfl, rfl, hTail⟩
      refine .of_continues (by decide) ?_
      refine continues_of_parsePrefix (by simp) ?_
      intro rest fuel hFuel
      rw [List.length_cons] at hFuel
      rcases
          Nat.exists_eq_add_of_le' (show 1 ≤ fuel by omega) with
        ⟨fuel, rfl⟩
      have hFollow : Follow kPrefixBP rest :=
        ⟨(leftBP_lt _).le, fun h => absurd h (by decide)⟩
      have hReads :=
        ((ih us hTail).continues (by decide)).reads le_rfl hFollow
          (.inr (leftBP_lt _))
      exact parsePrefix_unary hOp (hReads fuel (by omega))
  | @paren lp rp vs e hLeft hRight hInner ih =>
      intro us hText
      rcases List.map_eq_cons_iff.mp hText with
        ⟨lp', us, rfl, rfl, hTail⟩
      rcases List.map_eq_append_iff.mp hTail with
        ⟨us, last, rfl, hInside, hLast⟩
      rcases List.map_eq_singleton_iff.mp hLast with
        ⟨rp', rfl, rfl⟩
      refine .of_continues (by decide) ?_
      refine continues_of_parsePrefix (by simp) ?_
      intro rest fuel hFuel
      simp only [List.length_cons, List.length_append] at hFuel
      rcases
          Nat.exists_eq_add_of_le' (show 1 ≤ fuel by omega) with
        ⟨fuel, rfl⟩
      have hNeg :
          leftBP (peek (rp' :: rest)).type < 0 := by
        rw [peek, hRight]
        decide
      have hReads :=
        (ih us hInside).reads (by decide) 0 (rp' :: rest) le_rfl
          (halts_of_neg hNeg)
      refine parsePrefix_paren hLeft hRight ?_
      change parseExpr round fuel 0 ((us ++ [rp']) ++ rest) = _
      rw [List.append_assoc, List.singleton_append]
      exact hReads fuel (by omega)
  | @binary t op vs ws e e' hOp hLeft hRight ihLeft ihRight =>
      intro us hText
      rcases List.map_eq_append_iff.mp hText with
        ⟨us, tail, rfl, hUs, hTail⟩
      rcases List.map_eq_cons_iff.mp hTail with
        ⟨u, xs, rfl, rfl, hXs⟩
      rcases of_mapBinaryOp hOp with ⟨hLow, -, hApart, -⟩
      refine .of_continues hLow ?_
      intro minBP rest n r hMin hFollow hOne hLoop fuel hFuel
      simp only [List.length_append, List.length_cons] at hFuel
      have hReads :=
        ((ihRight xs hXs).continues (by omega)).reads le_rfl
          (hFollow.mono (by omega)) (halts_of_follow hFollow)
      have hNext : Follow (leftBP u.type) (u :: (xs ++ rest)) :=
        ⟨le_rfl, fun h => absurd h hApart⟩
      rw [List.append_assoc, List.cons_append]
      exact
        (ihLeft us hUs).continues hLow minBP _ _ r hMin hNext
          (by omega)
          (parseLoop_binary hOp hMin hReads hOne hLoop) fuel
          (by omega)
  | @comparison vs e links hFirst hSome hOps hLinks ihFirst ihLinks =>
      intro us hText
      rcases List.map_eq_append_iff.mp hText with
        ⟨us, xs, rfl, hUs, hXs⟩
      refine .of_continues (by decide) ?_
      intro minBP rest n r hMin hFollow hOne hLoop fuel hFuel
      rw [List.length_append] at hFuel
      have hEnd : leftBP (peek rest).type < kComparisonBP :=
        lt_of_le_of_ne hFollow.1 (hFollow.2 rfl)
      have hNext :
          Follow (kComparisonBP + 1) (xs ++ rest) :=
        ⟨(leftBP_links hXs hOps hEnd).trans (by decide),
          fun h => absurd h (by decide)⟩
      have hOperands :=
        fun k hk us hUs =>
          (ihLinks k hk us hUs).continues (by decide)
      rw [List.append_assoc]
      exact
        (ihFirst us hUs).continues (by decide) minBP _ _ r
          (hMin.trans (by decide)) hNext (by omega)
          (parseLoop_comparison hSome hXs hOps hOperands hMin
            hEnd hOne hLoop) fuel (by omega)
  | @ifElse q c vs ws xs e e' e'' hQuestion hColon _ _ _ ih₁ ih₂ ih₃ =>
      intro us hText
      rcases List.map_eq_append_iff.mp hText with
        ⟨us₁, _, rfl, h₁, hAfter⟩
      rcases List.map_eq_cons_iff.mp hAfter with
        ⟨q', _, rfl, rfl, hParts⟩
      rcases List.map_eq_append_iff.mp hParts with
        ⟨us₂, _, rfl, h₂, hLast⟩
      rcases List.map_eq_cons_iff.mp hLast with
        ⟨c', us₃, rfl, rfl, h₃⟩
      refine .of_reads le_rfl ?_
      intro minBP rest hMin hHalts fuel hFuel
      simp only [List.length_append, List.length_cons] at hFuel
      have hNeg :
          leftBP (peek (c' :: (us₃ ++ rest))).type < 0 := by
        rw [peek, hColon]
        decide
      have hThen :=
        (ih₂ us₂ h₂).reads (by decide) 0 (c' :: (us₃ ++ rest))
          le_rfl (halts_of_neg hNeg)
      have hElse :=
        (ih₃ us₃ h₃).reads le_rfl kTernaryBP rest le_rfl
          (hHalts.mono hMin)
      have hNext :
          Follow (kTernaryBP + 1)
            (q' :: (us₂ ++ c' :: (us₃ ++ rest))) := by
        refine ⟨?_, fun h => absurd h (by decide)⟩
        rw [peek, hQuestion]
        decide
      rw [List.append_assoc, List.cons_append, List.append_assoc,
        List.cons_append]
      exact
        (ih₁ us₁ h₁).continues (by decide) minBP _
          (3 * (us₂.length + us₃.length) + 3) _
          (hMin.trans (by decide)) hNext (by omega)
          (parseLoop_ternary hQuestion hColon hMin hThen hElse)
          fuel (by omega)
  | @assignment t op vs ws e e' hOp _ _ ihLeft ihRight =>
      intro us hText
      rcases List.map_eq_append_iff.mp hText with
        ⟨us₁, tail, rfl, h₁, hTail⟩
      rcases List.map_eq_cons_iff.mp hTail with
        ⟨t', us₂, rfl, rfl, h₂⟩
      refine .of_reads (by decide) ?_
      intro minBP rest hMin hHalts fuel hFuel
      simp only [List.length_append, List.length_cons] at hFuel
      have hRight :=
        (ihRight us₂ h₂).reads (by decide) 0 rest le_rfl
          (halts_of_neg (hHalts.neg hMin))
      have hNext :
          Follow (kTernaryBP + 1) (t' :: (us₂ ++ rest)) := by
        refine ⟨?_, fun h => absurd h (by decide)⟩
        rw [peek, (of_mapAssignmentOp hOp).1]
        decide
      rw [List.append_assoc, List.cons_append]
      exact
        (ihLeft us₁ h₁).continues (by decide) minBP _
          (3 * us₂.length + 3) _ (hMin.trans (by decide)) hNext
          (by omega) (parseLoop_assignment hOp hMin hRight) fuel
          (by omega)
  | weaken hLevel _ ih =>
      intro us hText
      exact (ih us hText).weaken hLevel

------------------------------------------------------------
-- Scripts
------------------------------------------------------------

/- How an expression begins: no operator but a minus. -/
theorem Derives.head
    {l : Int} {us : List Lexeme} {e : Expr}
    (hDerives : Derives round l us e) :
    ∃ t tail, us = t :: tail ∧ t.type ≠ .semicolon ∧
      (t.type ≠ .minus → leftBP t.type < 0) := by
  induction hDerives with
  | @atom t e hAtom =>
      refine ⟨t, [], rfl, ?_, ?_⟩
      · intro hType
        simp [operand, hType] at hAtom
      · intro _
        unfold operand at hAtom
        split at hAtom
        case h_6 => cases hAtom
        all_goals simp_all [leftBP]
  | @unary t op us e hOp _ _ =>
      refine ⟨t, us, rfl, ?_, ?_⟩
      · intro hType
        rw [hType] at hOp
        cases hOp
      · intro hMinus
        unfold unaryOp at hOp
        split at hOp
        case h_1 => exact absurd ‹_› hMinus
        case h_4 => cases hOp
        all_goals simp_all [leftBP]
  | @paren lp rp us e hLeft _ _ _ =>
      refine ⟨lp, us ++ [rp], rfl, ?_, ?_⟩
      · simp [hLeft]
      · intro _
        rw [hLeft]
        decide
  | binary _ _ _ ih _ =>
      rcases ih with ⟨t, tail, rfl, hHead⟩
      exact ⟨t, _, rfl, hHead⟩
  | comparison _ _ _ _ ih _ =>
      rcases ih with ⟨t, tail, rfl, hHead⟩
      exact ⟨t, _, rfl, hHead⟩
  | ifElse _ _ _ _ _ ih _ _ =>
      rcases ih with ⟨t, tail, rfl, hHead⟩
      exact ⟨t, _, rfl, hHead⟩
  | assignment _ _ _ ih _ =>
      rcases ih with ⟨t, tail, rfl, hHead⟩
      exact ⟨t, _, rfl, hHead⟩
  | weaken _ _ ih => exact ih

theorem DerivesScript.proper
    {us : List Lexeme} {es : List Expr}
    (hScript : DerivesScript round us es) :
    ∀ t ∈ us, t.Proper := by
  induction hScript with
  | nil => simp
  | cons hStatement hSemicolons _ _ ih =>
      rw [List.forall_mem_append, List.forall_mem_append]
      refine ⟨hStatement.proper, ?_, ih⟩
      intro t ht
      exact proper_of_type (hSemicolons t ht) (by decide)

/- The parser accepts the scripts of the grammar. -/
theorem parseAll_of_derivesScript
    {vs : List Lexeme} {es : List Expr} {sentinel : Token}
    (hSentinel : sentinel.type = .endOfInput)
    (hScript : DerivesScript round vs es) :
    ∀ ts, lexemes ts = vs → ∀ fuel, 3 * ts.length + 2 ≤ fuel →
      parseAll round fuel (ts ++ [sentinel]) = .ok es := by
  induction hScript with
  | nil =>
      intro ts hText fuel hFuel
      rcases
          Nat.exists_eq_add_of_le' (show 1 ≤ fuel by omega) with
        ⟨fuel, rfl⟩
      rw [List.map_eq_nil_iff] at hText
      subst hText
      rw [parseAll, if_pos]
      simpa [atEnd, peek] using hSentinel
  | @cons us ss vs e es hStatement hSemicolons hRest hApart ih =>
      intro ts hText fuel hFuel
      rcases List.map_eq_append_iff.mp hText with
        ⟨xs, _, rfl, hXs, hAfter⟩
      rcases List.map_eq_append_iff.mp hAfter with
        ⟨ys, zs, rfl, hYs, hZs⟩
      rcases
          Nat.exists_eq_add_of_le' (show 1 ≤ fuel by omega) with
        ⟨fuel, rfl⟩
      simp only [List.length_append] at hFuel
      -- what follows the statement does not go on it
      have hSemis : ∀ t ∈ ys, t.type = .semicolon := by
        intro t ht
        apply hSemicolons
        rw [← hYs]
        exact List.mem_map_of_mem (f := Token.toLexeme) ht
      have hNext :
          ∀ t ∈ (zs ++ [sentinel]).head?,
            t.type ≠ .semicolon ∧
              (t.type ≠ .minus → leftBP t.type < 0) := by
        intro t ht
        cases hRest with
        | nil =>
            rw [List.map_eq_nil_iff] at hZs
            subst hZs
            cases ht
            rw [hSentinel]
            decide
        | cons hStatement' _ _ _ =>
            rcases hStatement'.head with ⟨u, tail, rfl, hHead⟩
            rcases List.map_eq_cons_iff.mp hZs with
              ⟨z, zs', rfl, rfl, -⟩
            cases ht
            exact hHead
      have hNeg :
          leftBP (peek (ys ++ (zs ++ [sentinel]))).type < 0 := by
        cases ys with
        | cons y ys =>
            rw [List.cons_append, peek,
              hSemis y List.mem_cons_self]
            decide
        | nil =>
            rw [List.nil_append]
            cases hCase : zs ++ [sentinel] with
            | nil => simp at hCase
            | cons z tail =>
                rw [hCase] at hNext
                refine (hNext z rfl).2 ?_
                have hSs : ss = [] := hYs.symm
                cases zs with
                | nil =>
                    cases hCase
                    simp [hSentinel]
                | cons z' zs =>
                    cases hCase
                    refine hApart hSs z.toLexeme ?_
                    rw [← hZs]
                    rfl
      rcases hStatement.head with ⟨t, tail, hUs, -, -⟩
      have hSome : 1 ≤ xs.length := by
        have hText := congrArg List.length hXs
        rw [List.length_map, hUs, List.length_cons] at hText
        omega
      have hReads :=
        (hStatement.read xs hXs).reads (by decide) 0 _ le_rfl
          (halts_of_neg hNeg)
      have hNoEnd : ¬atEnd (xs ++ (ys ++ (zs ++ [sentinel]))) = true := by
        cases xs with
        | nil => simp at hSome
        | cons x xs =>
            have hProper :=
              hStatement.proper x.toLexeme (by rw [← hXs]; simp)
            simpa [atEnd, peek] using hProper.2
      have hSkip :
          skipSemicolons (ys ++ (zs ++ [sentinel])) =
            zs ++ [sentinel] :=
        skipSemicolons_append hSemis fun t ht => (hNext t ht).1
      rw [List.append_assoc, List.append_assoc, parseAll,
        if_neg hNoEnd]
      simp only [bind, Except.bind, hReads fuel (by omega), hSkip,
        ih zs hZs fuel (by omega), pure, Except.pure]

/- The scripts are what the two grammars describe. -/
inductive IsScript
    (round : ℚ → Double ℚ) (script : Xml.Text)
    (es : List Expr) : Prop
| intro
    {ts : List Token} {sentinel : Token}
    (hTiles : Tiles Lexes 0 script (ts ++ [sentinel]))
    (hScript : DerivesScript round (lexemes ts) es) :
    IsScript round script es

/-
  A text is accepted exactly when it is a script of the
  grammars, and the trees are those of the derivation: the
  precedences, the associativity and the chains are as the
  grammar has them.
-/
theorem parseStatements_eq_ok_iff
    (round : ℚ → Double ℚ) (script : Xml.Text)
    (es : List Expr) :
    parseStatements round script = .ok es ↔
      IsScript round script es := by
  rcases exists_tokenize script with ⟨us, hTokens, hInside⟩
  have hLength : (tokenize script).length = us.length + 1 := by
    rw [hTokens, List.length_append]
    rfl
  constructor
  · intro hParse
    simp only [parseStatements, hTokens] at hParse
    have hScript :=
      derivesScript_of_parseAll ⟨hInside, rfl⟩ hParse
    have hTiles :
        Tiles Lexes 0 script (tokenize script) := by
      apply tiles_tokenizeFrom le_rfl
      intro t ht c q q' hScan
      refine lexes_of_scanToken hScan ?_
      change t ∈ tokenize script at ht
      rw [hTokens, List.mem_append, List.mem_singleton] at ht
      rcases ht with ht | rfl
      · exact
          (hScript.proper _
            (List.mem_map_of_mem (f := Token.toLexeme) ht)).1
      · simp
    rw [hTokens] at hTiles
    exact .intro hTiles hScript
  · rintro ⟨hTiles, hScript⟩
    rename_i ts sentinel
    have hRead : tokenize script = ts ++ [sentinel] :=
      tokenizeFrom_of_tiles le_rfl hTiles
    rw [hRead] at hTokens hLength
    rcases List.append_inj' hTokens rfl with ⟨rfl, hLast⟩
    cases hLast
    simp only [parseStatements, hRead]
    refine
      parseAll_of_derivesScript rfl hScript ts rfl _ ?_
    rw [parseFuel, hLength]
    omega

------------------------------------------------------------
-- Fuel
------------------------------------------------------------

theorem bind_eq_error
    {E α β : Type}
    {x : Except E α} {f : α → Except E β} {e : E}
    (hBind : (x >>= f) = .error e) :
    x = .error e ∨ ∃ a, x = .ok a ∧ f a = .error e := by
  cases x with
  | error e' =>
      cases hBind
      exact .inl rfl
  | ok a => exact .inr ⟨a, rfl, hBind⟩

/- What is left of the tokens after an expression is less. -/
theorem length_lt_of_derives
    {l : Int} {us rest : List Token} {e : Expr}
    (hDerives : Derives round l (lexemes us) e) :
    rest.length + 1 ≤ (us ++ rest).length := by
  rcases hDerives.head with ⟨t, tail, hText, -⟩
  rcases List.map_eq_cons_iff.mp hText with ⟨u, us, rfl, -, -⟩
  simp

theorem length_advance
    {ts : List Token}
    (hProper : (peek ts).toLexeme.Proper) :
    ts.length = (advance ts).length + 1 := by
  rcases exists_of_peek hProper.1 hProper.2 with
    ⟨t, tail, rfl, -, hAdvance⟩
  rw [hAdvance]
  rfl

theorem expect_ne_outOfFuel
    (type : TokenType) (msg : String) (ts : List Token) :
    expect type msg ts ≠ .error .outOfFuel := by
  unfold expect
  split_ifs <;> simp

theorem length_expect
    {type : TokenType} {msg : String} {ts rest : List Token}
    (hError : type ≠ .error)
    (hEnd : type ≠ .endOfInput)
    (hExpect : expect type msg ts = .ok rest) :
    ts.length = rest.length + 1 := by
  rcases exists_of_expect hError hEnd hExpect with ⟨t, rfl, -⟩
  rfl

/- With this fuel, the functions do not run out of it. -/
structure FuelAt (round : ℚ → Double ℚ) (fuel : Nat) : Prop where
  operand :
    ∀ ts : List Token, 1 ≤ fuel → 3 * ts.length ≤ fuel →
      parsePrefix round fuel ts ≠ .error .outOfFuel
  expr :
    ∀ (minBP : Int) (ts : List Token), minBP ≤ kPrefixBP →
      3 * ts.length + 2 ≤ fuel →
        parseExpr round fuel minBP ts ≠ .error .outOfFuel
  loop :
    ∀ (minBP : Int) (left : Expr) (ts : List Token),
      minBP ≤ kPrefixBP → 3 * ts.length + 2 ≤ fuel →
        parseLoop round fuel minBP left ts ≠ .error .outOfFuel
  assignment :
    ∀ (left : Expr) (ts : List Token),
      isAssignment (peek ts).type = true →
        3 * ts.length ≤ fuel →
          parseAssignment round fuel left ts ≠ .error .outOfFuel
  ternary :
    ∀ (left : Expr) (ts : List Token),
      (peek ts).type = .question → 3 * ts.length ≤ fuel →
        parseTernary round fuel left ts ≠ .error .outOfFuel
  chained :
    ∀ (left : Expr) (ts : List Token),
      isComparison (peek ts).type = true →
        3 * ts.length + 1 ≤ fuel →
          parseChainedComparison round fuel left ts ≠
            .error .outOfFuel
  links :
    ∀ ts : List Token, 1 ≤ fuel → 3 * ts.length ≤ fuel →
      parseLinks round fuel ts ≠ .error .outOfFuel

theorem length_parsePrefix
    {fuel : Nat} {ts rest : List Token} {e : Expr}
    (hParse : parsePrefix round fuel ts = .ok (e, rest)) :
    rest.length + 1 ≤ ts.length := by
  rcases (soundAt fuel).operand hParse with ⟨us, rfl, hDerives⟩
  exact length_lt_of_derives hDerives

theorem length_parseExpr
    {fuel : Nat} {minBP : Int} {ts rest : List Token} {e : Expr}
    (hLevel : minBP ≤ kPrefixBP)
    (hParse : parseExpr round fuel minBP ts = .ok (e, rest)) :
    rest.length + 1 ≤ ts.length := by
  rcases (soundAt fuel).expr hLevel hParse with
    ⟨us, rfl, hDerives, -⟩
  exact length_lt_of_derives hDerives

theorem length_parseLinks
    {fuel : Nat} {pairs : List (ComparisonOp × Expr)}
    {ts rest : List Token}
    (hComparison : isComparison (peek ts).type = true)
    (hParse : parseLinks round fuel ts = .ok (pairs, rest)) :
    rest.length + 1 ≤ ts.length := by
  have hPower := isComparison_iff.mp hComparison
  rcases (soundAt fuel).links hPower.le hParse with
    ⟨us, links, rfl, hLinked, hSome, -⟩
  rcases List.exists_cons_of_ne_nil (hSome hComparison) with
    ⟨k, links, rfl⟩
  have hText := congrArg List.length hLinked.text
  rw [List.length_map, List.flatMap_cons, Link.text,
    List.cons_append, List.length_cons] at hText
  rw [List.length_append]
  omega

theorem fuel_parsePrefix
    {fuel : Nat}
    (hFuel : FuelAt round fuel)
    (ts : List Token)
    (hEnough : 3 * ts.length ≤ fuel + 1) :
    parsePrefix round (fuel + 1) ts ≠ .error .outOfFuel := by
  intro hParse
  rw [parsePrefix] at hParse
  dsimp only at hParse
  cases hUnary : unaryOp (peek ts).type with
  | some op =>
      rw [hUnary] at hParse
      have hLength := length_advance (of_unaryOp hUnary)
      rcases bind_eq_error hParse with hExpr | ⟨_, -, hReturn⟩
      · exact hFuel.expr _ _ le_rfl (by omega) hExpr
      · cases hReturn
  | none =>
      rw [hUnary] at hParse
      dsimp only at hParse
      by_cases hParen : (peek ts).type = .leftParen
      · rw [if_pos hParen] at hParse
        have hLength :=
          length_advance (proper_of_type hParen (by decide))
        rcases bind_eq_error hParse with
          hExpr | ⟨⟨e, rest⟩, -, hRest⟩
        · exact hFuel.expr _ _ (by decide) (by omega) hExpr
        · rcases bind_eq_error hRest with
            hExpect | ⟨_, -, hReturn⟩
          · exact expect_ne_outOfFuel _ _ _ hExpect
          · cases hReturn
      · rw [if_neg hParen] at hParse
        cases hAtom : operand round (peek ts).toLexeme with
        | some atom =>
            rw [hAtom] at hParse
            rcases bind_eq_error hParse with
              hError | ⟨_, -, hReturn⟩
            · subst hError
              unfold operand at hAtom
              split at hAtom
              case h_3 => split at hAtom <;> cases hAtom
              all_goals cases hAtom
            · cases hReturn
        | none =>
            rw [hAtom] at hParse
            split_ifs at hParse <;> cases hParse

theorem fuel_parseExpr
    {fuel : Nat} {minBP : Int}
    (hFuel : FuelAt round fuel)
    (ts : List Token)
    (hLevel : minBP ≤ kPrefixBP)
    (hEnough : 3 * ts.length + 2 ≤ fuel + 1) :
    parseExpr round (fuel + 1) minBP ts ≠ .error .outOfFuel := by
  intro hParse
  rw [parseExpr] at hParse
  rcases bind_eq_error hParse with
    hOperand | ⟨⟨e, rest⟩, hOperand, hLoop⟩
  · exact hFuel.operand ts (by omega) (by omega) hOperand
  · have hLength := length_parsePrefix hOperand
    exact hFuel.loop _ _ _ hLevel (by omega) hLoop

theorem fuel_parseLoop
    {fuel : Nat} {minBP : Int} {left : Expr}
    (hFuel : FuelAt round fuel)
    (ts : List Token)
    (hLevel : minBP ≤ kPrefixBP)
    (hEnough : 3 * ts.length + 2 ≤ fuel + 1) :
    parseLoop round (fuel + 1) minBP left ts ≠
      .error .outOfFuel := by
  intro hParse
  rw [parseLoop] at hParse
  dsimp only at hParse
  split_ifs at hParse with hEnd hAssignment hQuestion hComparison
  · exact hFuel.assignment _ _ hAssignment (by omega) hParse
  · exact hFuel.ternary _ _ hQuestion (by omega) hParse
  · rcases bind_eq_error hParse with
      hChained | ⟨⟨e, rest⟩, hChained, hLoop⟩
    · exact hFuel.chained _ _ hComparison (by omega) hChained
    · have hLength : rest.length + 1 ≤ ts.length := by
        cases fuel with
        | zero => cases hChained
        | succ fuel =>
            rw [parseChainedComparison] at hChained
            rcases bind_eq_ok.mp hChained with
              ⟨⟨pairs, rest'⟩, hLinks, hReturn⟩
            cases hReturn
            exact length_parseLinks hComparison hLinks
      exact hFuel.loop _ _ rest hLevel (by omega) hLoop
  · rcases not_or.mp hEnd with ⟨hInfix, -⟩
    rw [Bool.not_eq_true] at hAssignment hComparison
    rcases
        exists_of_leftBP hInfix hAssignment hQuestion hComparison with
      ⟨op, hOp⟩
    have hRight : leftBP (peek ts).type + 1 ≤ kPrefixBP :=
      Int.add_one_le_of_lt (leftBP_lt _)
    have hAdvance := length_advance (of_leftBP hInfix)
    rcases bind_eq_error hParse with
      hExpr | ⟨⟨e, rest⟩, hExpr, hRest⟩
    · exact hFuel.expr _ _ hRight (by omega) hExpr
    · have hLength := length_parseExpr hRight hExpr
      rcases bind_eq_error hRest with hMake | ⟨_, -, hLoop⟩
      · rw [makeBinary, hOp] at hMake
        cases hMake
      · exact hFuel.loop _ _ rest hLevel (by omega) hLoop

theorem fuel_parseAssignment
    {fuel : Nat} {left : Expr}
    (hFuel : FuelAt round fuel)
    (ts : List Token)
    (hAssignment : isAssignment (peek ts).type = true)
    (hEnough : 3 * ts.length ≤ fuel + 1) :
    parseAssignment round (fuel + 1) left ts ≠
      .error .outOfFuel := by
  intro hParse
  rw [parseAssignment] at hParse
  rcases exists_of_isAssignment hAssignment with ⟨op, hOp⟩
  have hLength := length_advance (of_isAssignment hAssignment)
  rcases bind_eq_error hParse with hError | ⟨_, -, hRest⟩
  · rw [hOp] at hError
    cases hError
  · rcases bind_eq_error hRest with hExpr | ⟨_, -, hReturn⟩
    · exact hFuel.expr _ _ (by decide) (by omega) hExpr
    · cases hReturn

theorem fuel_parseTernary
    {fuel : Nat} {left : Expr}
    (hFuel : FuelAt round fuel)
    (ts : List Token)
    (hQuestion : (peek ts).type = .question)
    (hEnough : 3 * ts.length ≤ fuel + 1) :
    parseTernary round (fuel + 1) left ts ≠
      .error .outOfFuel := by
  intro hParse
  rw [parseTernary] at hParse
  have hLength :=
    length_advance (proper_of_type hQuestion (by decide))
  rcases bind_eq_error hParse with
    hThen | ⟨⟨e, rest⟩, hThen, hRest⟩
  · exact hFuel.expr _ _ (by decide) (by omega) hThen
  · have hFirst := length_parseExpr (by decide) hThen
    rcases bind_eq_error hRest with
      hExpect | ⟨rest', hExpect, hRest⟩
    · exact expect_ne_outOfFuel _ _ _ hExpect
    · have hColon := length_expect (by decide) (by decide) hExpect
      rcases bind_eq_error hRest with hElse | ⟨_, -, hReturn⟩
      · exact hFuel.expr _ _ (by decide) (by omega) hElse
      · cases hReturn

theorem fuel_parseLinks
    {fuel : Nat}
    (hFuel : FuelAt round fuel)
    (ts : List Token)
    (hEnough : 3 * ts.length ≤ fuel + 1) :
    parseLinks round (fuel + 1) ts ≠ .error .outOfFuel := by
  intro hParse
  rw [parseLinks] at hParse
  split_ifs at hParse with hComparison
  · rcases exists_of_isComparison hComparison with ⟨op, hOp⟩
    have hLength := length_advance (of_isComparison hComparison)
    rcases bind_eq_error hParse with hError | ⟨_, -, hRest⟩
    · rw [hOp] at hError
      cases hError
    · rcases bind_eq_error hRest with
        hExpr | ⟨⟨e, rest⟩, hExpr, hRest⟩
      · exact hFuel.expr _ _ (by decide) (by omega) hExpr
      · have hMore := length_parseExpr (by decide) hExpr
        rcases bind_eq_error hRest with hLinks | ⟨_, -, hReturn⟩
        · exact hFuel.links _ (by omega) (by omega) hLinks
        · cases hReturn

theorem fuelAt (fuel : Nat) : FuelAt round fuel := by
  induction fuel with
  | zero =>
      constructor
      · intro ts hOne
        omega
      · intro minBP ts _ hEnough
        omega
      · intro minBP left ts _ hEnough
        omega
      · intro left ts hAssignment hEnough
        have hLength :=
          length_advance (of_isAssignment hAssignment)
        omega
      · intro left ts hQuestion hEnough
        have hLength :=
          length_advance (proper_of_type hQuestion (by decide))
        omega
      · intro left ts _ hEnough
        omega
      · intro ts hOne
        omega
  | succ fuel ih =>
      constructor
      · intro ts _ hEnough
        exact fuel_parsePrefix ih ts hEnough
      · intro minBP ts hLevel hEnough
        exact fuel_parseExpr ih ts hLevel hEnough
      · intro minBP left ts hLevel hEnough
        exact fuel_parseLoop ih ts hLevel hEnough
      · intro left ts hAssignment hEnough
        exact fuel_parseAssignment ih ts hAssignment hEnough
      · intro left ts hQuestion hEnough
        exact fuel_parseTernary ih ts hQuestion hEnough
      · intro left ts hComparison hEnough hParse
        rw [parseChainedComparison] at hParse
        have hLength :=
          length_advance (of_isComparison hComparison)
        rcases bind_eq_error hParse with hLinks | ⟨_, -, hReturn⟩
        · exact ih.links ts (by omega) (by omega) hLinks
        · cases hReturn
      · intro ts _ hEnough
        exact fuel_parseLinks ih ts hEnough

theorem parseAll_ne_outOfFuel
    {fuel : Nat} (ts : List Token)
    (hEnough : 3 * ts.length + 3 ≤ fuel) :
    parseAll round fuel ts ≠ .error .outOfFuel := by
  induction fuel generalizing ts with
  | zero => omega
  | succ fuel ih =>
      intro hParse
      rw [parseAll] at hParse
      split_ifs at hParse with hEnd
      rcases bind_eq_error hParse with
        hExpr | ⟨⟨e, rest⟩, hExpr, hRest⟩
      · exact (fuelAt fuel).expr _ _ (by decide) (by omega) hExpr
      · have hLength := length_parseExpr (by decide) hExpr
        have hSkip : (skipSemicolons rest).length ≤ rest.length :=
          (List.dropWhile_suffix _).length_le
        rcases bind_eq_error hRest with hMore | ⟨_, -, hReturn⟩
        · exact ih _ (by omega) hMore
        · cases hReturn

/- The fuel is enough: what is rejected, the source rejects. -/
theorem parseStatements_ne_outOfFuel
    (round : ℚ → Double ℚ) (script : Xml.Text) :
    parseStatements round script ≠ .error .outOfFuel :=
  parseAll_ne_outOfFuel _ le_rfl

end Scripting

end Manipulator
