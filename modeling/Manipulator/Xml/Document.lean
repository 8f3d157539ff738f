import Manipulator.Xml.StrPair
import Manipulator.Machine

/-
  The parser of the XML library: a buffer is read into a
  tree of nodes, or an error is set.

  Main declarations:
    * `XMLAttribute`, `XMLNode`, `XMLElement`, `XMLDocument`
    * `parseTag`, `parseDeep`, `XMLDocument.parse`
    * `Level`, the levels that the parser accepts
    * `parse_ne_outOfFuel`
    * `IsQuotedIn`, `isQuotedIn_of_parse`
-/

------------------------------------------------------------
-- Data Model
------------------------------------------------------------

namespace Manipulator

namespace Xml

/- The errors of a document; the last one is the model's. -/
inductive XMLError
  | fileNotFound
  | parsingElement
  | parsingAttribute
  | parsingText
  | parsingCData
  | parsingComment
  | parsingDeclaration
  | parsingUnknown
  | emptyDocument
  | mismatchedElement
  | parsing
  | elementDepthExceeded
  | outOfFuel
  deriving DecidableEq

structure XMLAttribute where
  name : StrPair
  value : StrPair

inductive XMLNode
  | element
      (name : StrPair)
      (attributes : List XMLAttribute)
      (children : List XMLNode)
  | text (value : StrPair) (cData : Bool)
  | comment (value : StrPair)
  | declaration (value : StrPair)
  | unknown (value : StrPair)

structure XMLElement where
  name : StrPair
  attributes : List XMLAttribute
  children : List XMLNode

structure XMLDocument where
  children : List XMLNode
  hasBOM : Bool

def XMLNode.toElement : XMLNode → Option XMLElement
  | .element name attributes children =>
      some ⟨name, attributes, children⟩
  | .text _ _ => none
  | .comment _ => none
  | .declaration _ => none
  | .unknown _ => none

def XMLNode.isDeclaration : XMLNode → Bool
  | .element _ _ _ => false
  | .text _ _ => false
  | .comment _ => false
  | .declaration _ => true
  | .unknown _ => false

/- `FirstChildElement` and each `NextSiblingElement`. -/
def childElements (nodes : List XMLNode) : List XMLElement :=
  nodes.filterMap XMLNode.toElement

/- The same, of the elements of one name. -/
def childElementsNamed
    (name : Text) (nodes : List XMLNode) : List XMLElement :=
  (childElements nodes).filter (·.name.text = name)

namespace XMLElement

def findAttribute
    (element : XMLElement) (name : Text) :
    Option XMLAttribute :=
  element.attributes.find? (·.name.text = name)

/- `Attribute`: the value under a name, when there is one. -/
def attributeValue
    (element : XMLElement) (name : Text) : Option Text :=
  (element.findAttribute name).map (·.value.getStr true)

end XMLElement

def XMLDocument.rootElement
    (doc : XMLDocument) : Option XMLElement :=
  (childElements doc.children).head?

------------------------------------------------------------
-- Tags
------------------------------------------------------------

inductive ElementClosingType
  | isOpen
  | closed
  | closing
  deriving DecidableEq

def XMLAttribute.parseDeep
    (p : Text) : Option (XMLAttribute × Text) :=
  match StrPair.parseName p with
  | none => none
  | some name =>
      if atEnd name.rest then
        none
      else
        match skipWhiteSpace name.rest with
        | [] => none
        | c :: p =>
            if c == '=' then
              match skipWhiteSpace p with
              | [] => none
              | quote :: p =>
                  if quote == doubleQuote ||
                      quote == singleQuote then
                    match StrPair.parseText [quote] p with
                    | none => none
                    | some (value, p) => some (⟨name, value⟩, p)
                  else
                    none
            else
              none

/- The attributes, how the tag ends, and the rest. -/
def parseAttributes :
    Nat → List XMLAttribute → ElementClosingType → Text →
      Except XMLError
        (List XMLAttribute × ElementClosingType × Text)
  | 0, _, _, _ => .error .outOfFuel
  | fuel + 1, attributes, closingType, p =>
      match skipWhiteSpace p with
      | [] => .error .parsingElement
      | c :: p =>
          if c == nul then
            .error .parsingElement
          else if isNameStartChar c then
            match XMLAttribute.parseDeep (c :: p) with
            | none => .error .parsingAttribute
            | some (attrib, p) =>
                if attributes.any
                    (·.name.text = attrib.name.text) then
                  .error .parsingAttribute
                else
                  parseAttributes fuel (attributes ++ [attrib])
                    closingType p
          else if c == '>' then
            .ok (attributes, closingType, p)
          else if c == '/' && p.head? = some '>' then
            .ok (attributes, .closed, p.drop 1)
          else
            .error .parsingElement

/- An element up to the end of its tag. -/
structure Tag where
  name : StrPair
  attributes : List XMLAttribute
  closingType : ElementClosingType
  rest : Text

/- The part of `XMLElement::ParseDeep` before the children. -/
def parseTag (p : Text) : Except XMLError Tag :=
  let p := skipWhiteSpace p
  let isClosing := p.head? = some '/'
  match StrPair.parseName (if isClosing then p.drop 1 else p) with
  | none => .error .parsing
  | some name =>
      match parseAttributes (name.rest.length + 1) []
          (if isClosing then .closing else .isOpen) name.rest with
      | .error e => .error e
      | .ok (attributes, closingType, p) =>
          .ok ⟨name, attributes, closingType, p⟩

------------------------------------------------------------
-- Nodes
------------------------------------------------------------

/- The nodes that have no children. -/
inductive Leaf
  | declaration
  | comment
  | cData
  | unknown
  | text

/- What `Identify` finds, and the pointer past its header. -/
inductive Identified
  | nothing
  | element (p : Text)
  | leaf (kind : Leaf) (p : Text)

def identify (start : Text) : Identified :=
  let p := skipWhiteSpace start
  if atEnd p then
    .nothing
  else if ['<', '?'].isPrefixOf p then
    .leaf .declaration (p.drop 2)
  else if ['<', '!', '-', '-'].isPrefixOf p then
    .leaf .comment (p.drop 4)
  else if
      ['<', '!', '[', 'C', 'D', 'A', 'T', 'A', '['].isPrefixOf
        p then
    .leaf .cData (p.drop 9)
  else if ['<', '!'].isPrefixOf p then
    .leaf .unknown (p.drop 2)
  else if ['<'].isPrefixOf p then
    .element (p.drop 1)
  else
    .leaf .text start

/- The `ParseDeep` of the nodes that have no children. -/
def parseLeaf
    (kind : Leaf) (p : Text) : Except XMLError (XMLNode × Text) :=
  match kind with
  | .declaration =>
      match StrPair.parseText ['?', '>'] p with
      | none => .error .parsingDeclaration
      | some (value, p) => .ok (.declaration value, p)
  | .comment =>
      match StrPair.parseText ['-', '-', '>'] p with
      | none => .error .parsingComment
      | some (value, p) => .ok (.comment value, p)
  | .cData =>
      match StrPair.parseText [']', ']', '>'] p with
      | none => .error .parsingCData
      | some (value, p) => .ok (.text value true, p)
  | .unknown =>
      match StrPair.parseText ['>'] p with
      | none => .error .parsingUnknown
      | some (value, p) => .ok (.unknown value, p)
  | .text =>
      match StrPair.parseText ['<'] p with
      | none => .error .parsingText
      | some (value, p) =>
          -- the pointer goes back to the opening bracket
          if atEnd p then
            .error .parsing
          else
            .ok (.text value false, value.rest)

def maxElementDepth : Nat := 500

/-
  A declaration is on the level of the document, after
  nothing but declarations.
-/
def wellLocated (depth : Nat) (siblings : List XMLNode) : Bool :=
  depth == 1 &&
    (siblings.isEmpty ||
      (siblings.head?.any (·.isDeclaration) &&
        siblings.getLast?.any (·.isDeclaration)))

/-
  The loop of `XMLNode::ParseDeep` on one level, with the
  nodes that it has inserted. It ends at the end of the
  buffer, or with an end tag, which goes to the parent with
  the pointer past it.
-/
def parseDeep :
    Nat → Nat → List XMLNode → Text →
      Except XMLError (List XMLNode × Option (StrPair × Text))
  | 0, _, _, _ => .error .outOfFuel
  | fuel + 1, depth, siblings, p =>
      match identify p with
      | .nothing => .ok (siblings, none)
      | .leaf kind p =>
          match parseLeaf kind p with
          | .error e => .error e
          | .ok (node, p) =>
              if node.isDeclaration &&
                  !wellLocated depth siblings then
                .error .parsingDeclaration
              else
                parseDeep fuel depth (siblings ++ [node]) p
      | .element p =>
          match parseTag p with
          | .error e => .error e
          | .ok tag =>
              match tag.closingType with
              | .closing =>
                  .ok (siblings, some (tag.name, tag.rest))
              | .closed =>
                  parseDeep fuel depth
                    (siblings ++
                      [.element tag.name tag.attributes []])
                    tag.rest
              | .isOpen =>
                  if atEnd tag.rest then
                    .error .mismatchedElement
                  else if depth + 1 == maxElementDepth then
                    .error .elementDepthExceeded
                  else
                    match parseDeep fuel (depth + 1) []
                        tag.rest with
                    | .error e => .error e
                    | .ok (_, none) => .error .parsing
                    | .ok (children, some (endTag, p)) =>
                        if endTag.text = tag.name.text then
                          parseDeep fuel depth
                            (siblings ++
                              [.element tag.name
                                tag.attributes children])
                            p
                        else
                          .error .mismatchedElement

def byteOrderMark : Text :=
  [Char.ofNat 0xef, Char.ofNat 0xbb, Char.ofNat 0xbf]

namespace XMLDocument

def parse (text : Text) : Except XMLError XMLDocument :=
  let p := skipWhiteSpace text
  let hasBOM := byteOrderMark.isPrefixOf p
  let p := if hasBOM then p.drop 3 else p
  if atEnd p then
    .error .emptyDocument
  else
    match parseDeep (p.length + 1) 1 [] p with
    | .error e => .error e
    | .ok (children, _) => .ok ⟨children, hasBOM⟩

/- `LoadFile`, with the bytes of the file when it is there. -/
def loadFile (file : Option Text) : Except XMLError XMLDocument :=
  match file with
  | none => .error .fileNotFound
  | some text => parse text

end XMLDocument

------------------------------------------------------------
-- Accepted Tags
------------------------------------------------------------

open Occurrence

/-
  The value of an attribute stands in the text between two
  bytes, its quotes, and holds no such byte itself.
-/
structure XMLAttribute.IsQuotedIn
    (text : Text) (attrib : XMLAttribute) : Prop where
  nul_notMem : nul ∉ attrib.value.text
  exists_quote :
    ∃ quote rest,
      quote :: attrib.value.start <:+ text ∧
        attrib.value.rest = quote :: rest ∧
          quote ∉ attrib.value.text

theorem XMLAttribute.IsQuotedIn.of_suffix
    {text whole : Text} {attrib : XMLAttribute}
    (hQuoted : attrib.IsQuotedIn text)
    (hSuffix : text <:+ whole) :
    attrib.IsQuotedIn whole := by
  obtain ⟨hNul, quote, rest, hStart, hRest⟩ := hQuoted
  exact ⟨hNul, quote, rest, hStart.trans hSuffix, hRest⟩

/- An attribute that is accepted, and the pointer past it. -/
theorem isQuotedIn_of_parseDeep
    {p q : Text} {attrib : XMLAttribute}
    (hParse : XMLAttribute.parseDeep p = some (attrib, q)) :
    attrib.IsQuotedIn p ∧ Past p q := by
  unfold XMLAttribute.parseDeep at hParse
  cases hName : StrPair.parseName p with
  | none => simp [hName] at hParse
  | some name =>
      simp only [hName] at hParse
      split_ifs at hParse
      cases hEqual : skipWhiteSpace name.rest with
      | nil => simp [hEqual] at hParse
      | cons c afterEqual =>
          simp only [hEqual] at hParse
          split_ifs at hParse
          cases hQuote : skipWhiteSpace afterEqual with
          | nil => simp [hQuote] at hParse
          | cons quote inside =>
              simp only [hQuote] at hParse
              split_ifs at hParse
              cases hText :
                StrPair.parseText [quote] inside with
              | none => simp [hText] at hParse
              | some pair =>
                  simp only [hText, Option.some.injEq,
                    Prod.mk.injEq] at hParse
                  obtain ⟨rfl, rfl⟩ := hParse
                  have hEqualSuffix : c :: afterEqual <:+ p :=
                    hEqual ▸ (skipWhiteSpace_isSuffix _).trans
                      (StrPair.past_of_parseName hName).isSuffix
                  have hInside : quote :: inside <:+ p :=
                    (hQuote ▸ skipWhiteSpace_isSuffix _).trans
                      ((List.suffix_cons c _).trans
                        hEqualSuffix)
                  refine ⟨⟨?_, quote, pair.2, ?_, ?_, ?_⟩, ?_⟩
                  · exact StrPair.nul_notMem_of_parseText hText
                  · rw [StrPair.start_of_parseText hText]
                    exact hInside
                  · exact StrPair.rest_of_parseText hText
                  · exact StrPair.delimiter_notMem_of_parseText
                      hText
                  · exact (Past.of_cons_suffix
                      hInside).trans_suffix
                        (StrPair.endsAt_of_parseText
                          hText).isSuffix

/- The attributes that are accepted, and the pointer past. -/
theorem isQuotedIn_of_parseAttributes
    {fuel : Nat} {p q : Text}
    {attributes accepted : List XMLAttribute}
    {closingType ending : ElementClosingType}
    (hParse :
      parseAttributes fuel attributes closingType p =
        .ok (accepted, ending, q)) :
    Past p q ∧
      ∀ attrib ∈ accepted,
        attrib ∈ attributes ∨ attrib.IsQuotedIn p := by
  induction fuel generalizing attributes p with
  | zero => cases hParse
  | succ fuel ih =>
      rw [parseAttributes] at hParse
      cases hSkip : skipWhiteSpace p with
      | nil => simp [hSkip] at hParse
      | cons c r =>
          have hHere : c :: r <:+ p :=
            hSkip ▸ skipWhiteSpace_isSuffix p
          have hPast : Past p r := Past.of_cons_suffix hHere
          simp only [hSkip] at hParse
          split_ifs at hParse with hNul hStart hOpen hClosed
          · cases hAttrib : XMLAttribute.parseDeep (c :: r) with
            | none => simp [hAttrib] at hParse
            | some pair =>
                simp only [hAttrib] at hParse
                split_ifs at hParse
                obtain ⟨hQuoted, hAfter⟩ :=
                  isQuotedIn_of_parseDeep hAttrib
                have hBeyond := hAfter.of_suffix hHere
                obtain ⟨hRest, hAll⟩ := ih hParse
                refine ⟨hRest.of_suffix hBeyond.isSuffix, ?_⟩
                intro attrib hMem
                rcases hAll attrib hMem with hOld | hNew
                · rcases List.mem_append.mp hOld with
                    hOlder | hThis
                  · exact .inl hOlder
                  · rw [List.mem_singleton.mp hThis]
                    exact .inr (hQuoted.of_suffix hHere)
                · exact .inr (hNew.of_suffix hBeyond.isSuffix)
          · cases hParse
            exact ⟨hPast, fun attrib hMem => .inl hMem⟩
          · cases hParse
            exact ⟨hPast.trans_suffix (List.drop_suffix 1 r),
              fun attrib hMem => .inl hMem⟩

theorem parseAttributes_ne_outOfFuel
    {fuel : Nat} {p : Text}
    {attributes : List XMLAttribute}
    {closingType : ElementClosingType}
    (hFuel : p.length < fuel) :
    parseAttributes fuel attributes closingType p ≠
      .error .outOfFuel := by
  induction fuel generalizing attributes p with
  | zero => cases hFuel
  | succ fuel ih =>
      intro hParse
      rw [parseAttributes] at hParse
      cases hSkip : skipWhiteSpace p with
      | nil => simp [hSkip] at hParse
      | cons c r =>
          have hHere : c :: r <:+ p :=
            hSkip ▸ skipWhiteSpace_isSuffix p
          simp only [hSkip] at hParse
          split_ifs at hParse
          · cases hParse
          · cases hAttrib : XMLAttribute.parseDeep (c :: r) with
            | none => simp [hAttrib] at hParse
            | some pair =>
                simp only [hAttrib] at hParse
                split_ifs at hParse
                · cases hParse
                · have hAfter :=
                    (isQuotedIn_of_parseDeep
                      hAttrib).2.of_suffix hHere
                  exact ih (Nat.lt_of_lt_of_le hAfter.length_lt
                    (Nat.le_of_lt_succ hFuel)) hParse
          · cases hParse

theorem isQuotedIn_of_parseTag
    {p : Text} {tag : Tag} (hParse : parseTag p = .ok tag) :
    Past p tag.rest ∧
      ∀ attrib ∈ tag.attributes, attrib.IsQuotedIn p := by
  unfold parseTag at hParse
  dsimp only at hParse
  generalize hNamed :
    (if (skipWhiteSpace p).head? = some '/' then
      (skipWhiteSpace p).drop 1
    else skipWhiteSpace p) = named at hParse
  have hSuffix : named <:+ p := by
    rw [← hNamed]
    split_ifs
    · exact (List.drop_suffix 1 _).trans
        (skipWhiteSpace_isSuffix p)
    · exact skipWhiteSpace_isSuffix p
  cases hName : StrPair.parseName named with
  | none => simp [hName] at hParse
  | some name =>
      simp only [hName] at hParse
      split at hParse
      · cases hParse
      · rename_i hAttributes
        cases hParse
        obtain ⟨hPast, hAll⟩ :=
          isQuotedIn_of_parseAttributes hAttributes
        have hAfter := (StrPair.past_of_parseName
          hName).isSuffix.trans hSuffix
        refine ⟨hPast.of_suffix hAfter, ?_⟩
        intro attrib hMem
        rcases hAll attrib hMem with hOld | hQuoted
        · cases hOld
        · exact hQuoted.of_suffix hAfter

theorem parseTag_ne_outOfFuel
    (p : Text) : parseTag p ≠ .error .outOfFuel := by
  intro hParse
  unfold parseTag at hParse
  dsimp only at hParse
  split at hParse
  · cases hParse
  · split at hParse
    · rename_i hAttributes
      cases hParse
      exact parseAttributes_ne_outOfFuel
        (Nat.lt_succ_self _) hAttributes
    · cases hParse

------------------------------------------------------------
-- Accepted Leaves
------------------------------------------------------------

/- The pointer past a header, which spaces may precede. -/
theorem past_header
    {header p : Text} (hHeader : header <+: skipWhiteSpace p)
    (hNonempty : header ≠ []) :
    Past p ((skipWhiteSpace p).drop header.length) :=
  ((endsAt_drop hHeader).past hNonempty).of_suffix
    (skipWhiteSpace_isSuffix p)

theorem identify_element
    {p q : Text} (hFound : identify p = .element q) :
    Past p q := by
  unfold identify at hFound
  dsimp only at hFound
  split_ifs at hFound with hEnd hXml hComment hCData hDtd hElement
  cases hFound
  exact past_header (List.isPrefixOf_iff_prefix.mp hElement)
    (List.cons_ne_nil _ _)

/-
  Where a leaf is read from. A text is read from where the
  search for the node began.
-/
theorem identify_leaf
    {p q : Text} {kind : Leaf}
    (hFound : identify p = .leaf kind q) :
    Past p q ∨ (q = p ∧ ¬ ['<'] <+: p) := by
  unfold identify at hFound
  dsimp only at hFound
  simp only [List.isPrefixOf_iff_prefix] at hFound
  split_ifs at hFound with hEnd hXml hComment hCData hDtd hElement
  · cases hFound
    exact .inl (past_header hXml (List.cons_ne_nil _ _))
  · cases hFound
    exact .inl (past_header hComment (List.cons_ne_nil _ _))
  · cases hFound
    exact .inl (past_header hCData (List.cons_ne_nil _ _))
  · cases hFound
    exact .inl (past_header hDtd (List.cons_ne_nil _ _))
  · cases hFound
    refine .inr ⟨rfl, ?_⟩
    rintro ⟨tail, rfl⟩
    refine hElement ?_
    have hSame : skipWhiteSpace (['<'] ++ tail) = '<' :: tail := by
      simp [skipWhiteSpace, isWhiteSpace]
    rw [hSame]
    exact ⟨tail, rfl⟩

/- The pointer past a leaf that is accepted. -/
theorem past_of_parseLeaf
    {q r : Text} {kind : Leaf} {node : XMLNode}
    (hLeaf : parseLeaf kind q = .ok (node, r)) :
    r <:+ q ∧ (¬ ['<'] <+: q → Past q r) := by
  have hTagged :
      ∀ (endTag : Text) (value : StrPair),
        endTag ≠ [] →
          StrPair.parseText endTag q = some (value, r) →
            r <:+ q ∧ (¬ ['<'] <+: q → Past q r) := by
    intro endTag value hTag hText
    have hPast :=
      (StrPair.endsAt_of_parseText hText).past hTag
    exact ⟨hPast.isSuffix, fun _ => hPast⟩
  have hNonempty : ∀ (c : Char) (text : Text), c :: text ≠ [] :=
    fun c text => List.cons_ne_nil c text
  unfold parseLeaf at hLeaf
  cases kind with
  | declaration
  | comment
  | cData
  | unknown =>
      dsimp only at hLeaf
      split at hLeaf
      · cases hLeaf
      · rename_i hText
        cases hLeaf
        exact hTagged _ _ (hNonempty _ _) hText
  | text =>
      dsimp only at hLeaf
      split at hLeaf
      · cases hLeaf
      · rename_i value q' hText
        split_ifs at hLeaf
        cases hLeaf
        have hStart := StrPair.start_of_parseText hText
        have hRest := StrPair.rest_of_parseText hText
        refine ⟨⟨value.text, hStart⟩, ?_⟩
        -- a text that does not begin with a bracket moves on
        intro hBracket
        refine ⟨⟨value.text, hStart⟩, ?_⟩
        have hText : value.text ≠ [] := by
          intro hNil
          refine hBracket ⟨q', ?_⟩
          rw [← hStart, StrPair.start, hNil, hRest]
          rfl
        rw [← hStart, StrPair.start, List.length_append]
        have hPos := List.length_pos_iff.mpr hText
        omega

theorem past_of_leaf
    {p q r : Text} {kind : Leaf} {node : XMLNode}
    (hFound : identify p = .leaf kind q)
    (hLeaf : parseLeaf kind q = .ok (node, r)) :
    Past p r := by
  obtain ⟨hSuffix, hMoves⟩ := past_of_parseLeaf hLeaf
  rcases identify_leaf hFound with hPast | ⟨rfl, hBracket⟩
  · exact hPast.trans_suffix hSuffix
  · exact hMoves hBracket

theorem parseLeaf_ne_outOfFuel
    (kind : Leaf)
    (q : Text) : parseLeaf kind q ≠ .error .outOfFuel := by
  intro hLeaf
  unfold parseLeaf at hLeaf
  cases kind with
  | declaration | comment | cData | unknown =>
      dsimp only at hLeaf
      split at hLeaf
      · cases hLeaf
      · cases hLeaf
  | text =>
      dsimp only at hLeaf
      split at hLeaf
      · cases hLeaf
      · split_ifs at hLeaf
        cases hLeaf

------------------------------------------------------------
-- Accepted Levels
------------------------------------------------------------

/-
  A level that the parser accepts: the nodes it inserts
  after its siblings, and the end tag it ends with.
-/
inductive Level :
    Nat → List XMLNode → Text → List XMLNode →
      Option (StrPair × Text) → Prop
  | nothing
      {depth : Nat} {siblings : List XMLNode} {p : Text}
      (hFound : identify p = .nothing) :
      Level depth siblings p siblings none
  | leaf
      {depth : Nat} {siblings nodes : List XMLNode}
      {p q r : Text} {ending : Option (StrPair × Text)}
      {kind : Leaf} {node : XMLNode}
      (hFound : identify p = .leaf kind q)
      (hLeaf : parseLeaf kind q = .ok (node, r))
      (hLocated :
        node.isDeclaration = true →
          wellLocated depth siblings = true)
      (hRest : Level depth (siblings ++ [node]) r nodes ending) :
      Level depth siblings p nodes ending
  | endTag
      {depth : Nat} {siblings : List XMLNode} {p q : Text}
      {tag : Tag}
      (hFound : identify p = .element q)
      (hTag : parseTag q = .ok tag)
      (hClosing : tag.closingType = .closing) :
      Level depth siblings p siblings (some (tag.name, tag.rest))
  | closed
      {depth : Nat} {siblings nodes : List XMLNode}
      {p q : Text} {ending : Option (StrPair × Text)}
      {tag : Tag}
      (hFound : identify p = .element q)
      (hTag : parseTag q = .ok tag)
      (hClosed : tag.closingType = .closed)
      (hRest :
        Level depth
          (siblings ++ [.element tag.name tag.attributes []])
          tag.rest nodes ending) :
      Level depth siblings p nodes ending
  | element
      {depth : Nat} {siblings nodes children : List XMLNode}
      {p q r : Text} {ending : Option (StrPair × Text)}
      {tag : Tag} {name : StrPair}
      (hFound : identify p = .element q)
      (hTag : parseTag q = .ok tag)
      (hOpen : tag.closingType = .isOpen)
      (hDepth : depth + 1 ≠ maxElementDepth)
      (hChildren :
        Level (depth + 1) [] tag.rest children (some (name, r)))
      (hName : name.text = tag.name.text)
      (hRest :
        Level depth
          (siblings ++
            [.element tag.name tag.attributes children])
          r nodes ending) :
      Level depth siblings p nodes ending

theorem level_of_parseDeep
    {fuel depth : Nat} {siblings nodes : List XMLNode}
    {p : Text} {ending : Option (StrPair × Text)}
    (hParse :
      parseDeep fuel depth siblings p = .ok (nodes, ending)) :
    Level depth siblings p nodes ending := by
  induction fuel generalizing depth siblings nodes p ending with
  | zero => cases hParse
  | succ fuel ih =>
      rw [parseDeep] at hParse
      cases hFound : identify p with
      | nothing =>
          rw [hFound] at hParse
          cases hParse
          exact .nothing hFound
      | leaf kind q =>
          simp only [hFound] at hParse
          cases hLeaf : parseLeaf kind q with
          | error e => simp [hLeaf] at hParse
          | ok pair =>
              simp only [hLeaf] at hParse
              split_ifs at hParse with hMisplaced
              refine .leaf hFound hLeaf ?_ (ih hParse)
              intro hDeclaration
              simpa [hDeclaration] using hMisplaced
      | element q =>
          simp only [hFound] at hParse
          cases hTag : parseTag q with
          | error e => simp [hTag] at hParse
          | ok tag =>
              simp only [hTag] at hParse
              cases hType : tag.closingType with
              | closing =>
                  simp only [hType] at hParse
                  cases hParse
                  exact .endTag hFound hTag hType
              | closed =>
                  simp only [hType] at hParse
                  exact .closed hFound hTag hType (ih hParse)
              | isOpen =>
                  simp only [hType] at hParse
                  split_ifs at hParse with hEnd hDepth
                  split at hParse
                  · cases hParse
                  · cases hParse
                  · rename_i hChildren
                    split_ifs at hParse with hName
                    exact .element hFound hTag hType
                      (by simpa using hDepth) (ih hChildren)
                      hName (ih hParse)

/- An end tag is read past the place where the level began. -/
theorem Level.past
    {depth : Nat} {siblings nodes : List XMLNode} {p q : Text}
    {ending : Option (StrPair × Text)} {name : StrPair}
    (hLevel : Level depth siblings p nodes ending)
    (hEnding : ending = some (name, q)) : Past p q := by
  induction hLevel generalizing name q with
  | nothing hFound => cases hEnding
  | leaf hFound hLeaf hLocated hRest ih =>
      exact (ih hEnding).of_suffix
        (past_of_leaf hFound hLeaf).isSuffix
  | endTag hFound hTag hClosing =>
      cases hEnding
      exact (isQuotedIn_of_parseTag hTag).1.of_suffix
        (identify_element hFound).isSuffix
  | closed hFound hTag hClosed hRest ih =>
      exact (ih hEnding).of_suffix
        ((isQuotedIn_of_parseTag hTag).1.isSuffix.trans
          (identify_element hFound).isSuffix)
  | element hFound hTag hOpen hDepth hChildren hName hRest
      ihChildren ihRest =>
      exact (ihRest hEnding).of_suffix
        ((ihChildren rfl).isSuffix.trans
          ((isQuotedIn_of_parseTag hTag).1.isSuffix.trans
            (identify_element hFound).isSuffix))

/- The fuel is enough when it exceeds the length. -/
theorem parseDeep_ne_outOfFuel
    {fuel depth : Nat} {siblings : List XMLNode} {p : Text}
    (hFuel : p.length < fuel) :
    parseDeep fuel depth siblings p ≠ .error .outOfFuel := by
  induction fuel generalizing depth siblings p with
  | zero => cases hFuel
  | succ fuel ih =>
      intro hParse
      have hNext : ∀ {q : Text}, Past p q → q.length < fuel :=
        fun hPast => Nat.lt_of_lt_of_le hPast.length_lt
          (Nat.le_of_lt_succ hFuel)
      rw [parseDeep] at hParse
      cases hFound : identify p with
      | nothing => simp [hFound] at hParse
      | leaf kind q =>
          simp only [hFound] at hParse
          cases hLeaf : parseLeaf kind q with
          | error e =>
              simp only [hLeaf, Except.error.injEq] at hParse
              exact parseLeaf_ne_outOfFuel kind q
                (hParse ▸ hLeaf)
          | ok pair =>
              simp only [hLeaf] at hParse
              split_ifs at hParse
              · cases hParse
              · exact ih (hNext (past_of_leaf hFound hLeaf))
                  hParse
      | element q =>
          simp only [hFound] at hParse
          cases hTag : parseTag q with
          | error e =>
              simp only [hTag, Except.error.injEq] at hParse
              exact parseTag_ne_outOfFuel q (hParse ▸ hTag)
          | ok tag =>
              simp only [hTag] at hParse
              have hTagPast : Past p tag.rest :=
                (isQuotedIn_of_parseTag hTag).1.of_suffix
                  (identify_element hFound).isSuffix
              cases hType : tag.closingType with
              | closing => simp [hType] at hParse
              | closed =>
                  simp only [hType] at hParse
                  exact ih (hNext hTagPast) hParse
              | isOpen =>
                  simp only [hType] at hParse
                  split_ifs at hParse
                  · cases hParse
                  · cases hParse
                  · split at hParse
                    · rename_i hChildren
                      cases hParse
                      exact ih (hNext hTagPast) hChildren
                    · cases hParse
                    · rename_i hChildren
                      split_ifs at hParse
                      · have hEnd :=
                          (level_of_parseDeep hChildren).past rfl
                        exact ih (hNext (hEnd.of_suffix
                          hTagPast.isSuffix)) hParse
                      · cases hParse

/- Every text is either parsed or rejected. -/
theorem parse_ne_outOfFuel
    (text : Text) :
    XMLDocument.parse text ≠ .error .outOfFuel := by
  intro hParse
  unfold XMLDocument.parse at hParse
  dsimp only at hParse
  generalize
    (if byteOrderMark.isPrefixOf (skipWhiteSpace text) = true then
      (skipWhiteSpace text).drop 3
    else skipWhiteSpace text) = p at hParse
  split_ifs at hParse
  · cases hParse
  · split at hParse
    · rename_i hLevel
      cases hParse
      exact parseDeep_ne_outOfFuel (Nat.lt_succ_self _) hLevel
    · cases hParse

------------------------------------------------------------
-- Attributes Of A Document
------------------------------------------------------------

/- A property of each attribute of a node and below it. -/
inductive XMLNode.Every
    (Holds : XMLAttribute → Prop) : XMLNode → Prop
  | element
      {name : StrPair} {attributes : List XMLAttribute}
      {children : List XMLNode}
      (hAttributes : ∀ attrib ∈ attributes, Holds attrib)
      (hChildren :
        ∀ child ∈ children, XMLNode.Every Holds child) :
      XMLNode.Every Holds (.element name attributes children)
  | text
      {value : StrPair} {cData : Bool} :
      XMLNode.Every Holds (.text value cData)
  | comment
      {value : StrPair} :
      XMLNode.Every Holds (.comment value)
  | declaration
      {value : StrPair} :
      XMLNode.Every Holds (.declaration value)
  | unknown
      {value : StrPair} :
      XMLNode.Every Holds (.unknown value)

theorem every_of_parseLeaf
    {Holds : XMLAttribute → Prop} {kind : Leaf} {q r : Text}
    {node : XMLNode}
    (hLeaf : parseLeaf kind q = .ok (node, r)) :
    node.Every Holds := by
  unfold parseLeaf at hLeaf
  cases kind with
  | declaration =>
      dsimp only at hLeaf
      split at hLeaf
      · cases hLeaf
      · cases hLeaf
        exact .declaration
  | comment =>
      dsimp only at hLeaf
      split at hLeaf
      · cases hLeaf
      · cases hLeaf
        exact .comment
  | cData =>
      dsimp only at hLeaf
      split at hLeaf
      · cases hLeaf
      · cases hLeaf
        exact .text
  | unknown =>
      dsimp only at hLeaf
      split at hLeaf
      · cases hLeaf
      · cases hLeaf
        exact .unknown
  | text =>
      dsimp only at hLeaf
      split at hLeaf
      · cases hLeaf
      · split_ifs at hLeaf
        cases hLeaf
        exact .text

theorem every_append_singleton
    {Holds : XMLAttribute → Prop} {siblings : List XMLNode}
    {node : XMLNode}
    (hSiblings : ∀ child ∈ siblings, child.Every Holds)
    (hNode : node.Every Holds) :
    ∀ child ∈ siblings ++ [node], child.Every Holds := by
  intro child hMem
  rcases List.mem_append.mp hMem with hOld | hNew
  · exact hSiblings child hOld
  · rw [List.mem_singleton.mp hNew]
    exact hNode

/- The attributes of a level are quoted in its text. -/
theorem Level.every
    {text p : Text} {depth : Nat}
    {siblings nodes : List XMLNode}
    {ending : Option (StrPair × Text)}
    (hLevel : Level depth siblings p nodes ending)
    (hHere : p <:+ text)
    (hSiblings :
      ∀ node ∈ siblings,
        node.Every (·.IsQuotedIn text)) :
    ∀ node ∈ nodes, node.Every (·.IsQuotedIn text) := by
  -- the attributes of a tag that is read on this level
  have hTagged :
      ∀ {p q : Text} {tag : Tag} (_ : p <:+ text),
        identify p = .element q → parseTag q = .ok tag →
          tag.rest <:+ text ∧
            ∀ attrib ∈ tag.attributes,
              attrib.IsQuotedIn text := by
    intro p q tag hSuffix hFound hTag
    obtain ⟨hPast, hAll⟩ := isQuotedIn_of_parseTag hTag
    have hInside := (identify_element hFound).isSuffix.trans
      hSuffix
    exact ⟨hPast.isSuffix.trans hInside,
      fun attrib hMem => (hAll attrib hMem).of_suffix hInside⟩
  induction hLevel with
  | nothing hFound => exact hSiblings
  | leaf hFound hLeaf hLocated hRest ih =>
      exact ih
        ((past_of_leaf hFound hLeaf).isSuffix.trans hHere)
        (every_append_singleton hSiblings
          (every_of_parseLeaf hLeaf))
  | endTag hFound hTag hClosing => exact hSiblings
  | closed hFound hTag hClosed hRest ih =>
      obtain ⟨hAfter, hAll⟩ := hTagged hHere hFound hTag
      exact ih hAfter
        (every_append_singleton hSiblings
          (.element hAll (List.forall_mem_nil _)))
  | element hFound hTag hOpen hDepth hChildren hName hRest
      ihChildren ihRest =>
      obtain ⟨hAfter, hAll⟩ := hTagged hHere hFound hTag
      have hBelow := ihChildren hAfter (List.forall_mem_nil _)
      exact ihRest
        ((hChildren.past rfl).isSuffix.trans hAfter)
        (every_append_singleton hSiblings
          (.element hAll hBelow))

theorem isQuotedIn_of_parse
    {text : Text} {doc : XMLDocument}
    (hParse : XMLDocument.parse text = .ok doc) :
    ∀ node ∈ doc.children, node.Every (·.IsQuotedIn text) := by
  unfold XMLDocument.parse at hParse
  dsimp only at hParse
  generalize hPlace :
    (if byteOrderMark.isPrefixOf (skipWhiteSpace text) = true then
      (skipWhiteSpace text).drop 3
    else skipWhiteSpace text) = p at hParse
  have hSuffix : p <:+ text := by
    rw [← hPlace]
    split_ifs
    · exact (List.drop_suffix 3 _).trans
        (skipWhiteSpace_isSuffix text)
    · exact skipWhiteSpace_isSuffix text
  split_ifs at hParse
  split at hParse
  · cases hParse
  · rename_i hLevel
    cases hParse
    exact (level_of_parseDeep hLevel).every hSuffix
      (List.forall_mem_nil _)

------------------------------------------------------------
-- Elements Of A Document
------------------------------------------------------------

theorem exists_of_mem_childElements
    {nodes : List XMLNode} {element : XMLElement}
    (hMem : element ∈ childElements nodes) :
    .element element.name element.attributes element.children ∈
      nodes := by
  obtain ⟨node, hNode, hElement⟩ := List.mem_filterMap.mp hMem
  cases node with
  | element name attributes children =>
      cases hElement
      exact hNode
  | text | comment | declaration | unknown => cases hElement

theorem mem_of_findAttribute
    {element : XMLElement} {name : Text} {attrib : XMLAttribute}
    (hFind : element.findAttribute name = some attrib) :
    attrib ∈ element.attributes :=
  List.mem_of_find?_eq_some hFind

/- What holds of a node holds of the element and below it. -/
theorem every_of_mem_childElements
    {Holds : XMLAttribute → Prop} {nodes : List XMLNode}
    {element : XMLElement}
    (hEvery : ∀ node ∈ nodes, node.Every Holds)
    (hMem : element ∈ childElements nodes) :
    (∀ attrib ∈ element.attributes, Holds attrib) ∧
      ∀ child ∈ element.children, child.Every Holds := by
  cases hEvery _ (exists_of_mem_childElements hMem) with
  | element hAttributes hChildren =>
      exact ⟨hAttributes, hChildren⟩

end Xml

end Manipulator
