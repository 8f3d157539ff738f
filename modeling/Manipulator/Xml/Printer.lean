import Manipulator.Xml.Document

/-
  The printer of the XML library, which writes a document
  back as a text.

  The text is not the one that was read: space between the
  nodes is new, quotes are double, and references are
  written again. What an attribute stands for is kept.

  Main declarations:
    * `XMLPrinter`, `XMLNode.accept`, `XMLDocument.print`
    * `getStr_printString`, `parseText_printString`
-/

------------------------------------------------------------
-- State Of The Printer
------------------------------------------------------------

namespace Manipulator

namespace Xml

open Occurrence

structure XMLPrinter where
  buffer : Text := []
  stack : List Text := []
  elementJustOpened : Bool := false
  firstElement : Bool := true
  depth : Nat := 0
  textDepth : Int := -1

/-
  A byte of a string. Quotes are only escaped outside of
  restricted strings.
-/
def escape (restricted : Bool) (c : Char) : Text :=
  match entities.find? (·.value == c) with
  | none => [c]
  | some entity =>
      if restricted && (c == doubleQuote || c == singleQuote) then
        [c]
      else
        '&' :: entity.pattern ++ [';']

def printString (restricted : Bool) (text : Text) : Text :=
  text.flatMap (escape restricted)

namespace XMLPrinter

def write (data : Text) (printer : XMLPrinter) : XMLPrinter :=
  { printer with buffer := printer.buffer ++ data }

def printSpace (printer : XMLPrinter) : XMLPrinter :=
  printer.write (List.replicate (4 * printer.depth) ' ')

def sealElementIfJustOpened (printer : XMLPrinter) : XMLPrinter :=
  if printer.elementJustOpened then
    ({ printer with elementJustOpened := false }).write ['>']
  else
    printer

def prepareForNewNode (printer : XMLPrinter) : XMLPrinter :=
  let printer := printer.sealElementIfJustOpened
  let printer :=
    if printer.firstElement then
      printer.printSpace
    else if printer.textDepth < 0 then
      (printer.write [lineFeed]).printSpace
    else
      printer
  { printer with firstElement := false }

def openElement
    (name : Text) (printer : XMLPrinter) : XMLPrinter :=
  let printer := printer.prepareForNewNode
  let printer := printer.write ('<' :: name)
  { printer with
    stack := name :: printer.stack
    elementJustOpened := true
    depth := printer.depth + 1 }

def pushAttribute
    (name value : Text) (printer : XMLPrinter) : XMLPrinter :=
  printer.write
    (' ' :: name ++ ['=', doubleQuote] ++
      printString false value ++ [doubleQuote])

def closeElement (printer : XMLPrinter) : XMLPrinter :=
  let name := printer.stack.headD []
  let printer :=
    { printer with
      stack := printer.stack.tail
      depth := printer.depth - 1 }
  let printer :=
    if printer.elementJustOpened then
      printer.write ['/', '>']
    else
      let printer :=
        if printer.textDepth < 0 then
          (printer.write [lineFeed]).printSpace
        else
          printer
      printer.write (['<', '/'] ++ name ++ ['>'])
  let printer :=
    if printer.textDepth = printer.depth then
      { printer with textDepth := -1 }
    else
      printer
  let printer :=
    if printer.depth = 0 then
      printer.write [lineFeed]
    else
      printer
  { printer with elementJustOpened := false }

def pushText
    (text : Text) (cData : Bool) (printer : XMLPrinter) :
    XMLPrinter :=
  let printer :=
    { printer with textDepth := (printer.depth : Int) - 1 }
  let printer := printer.sealElementIfJustOpened
  if cData then
    printer.write
      (['<', '!', '[', 'C', 'D', 'A', 'T', 'A', '['] ++ text ++
        [']', ']', '>'])
  else
    printer.write (printString true text)

def pushComment
    (comment : Text) (printer : XMLPrinter) : XMLPrinter :=
  printer.prepareForNewNode.write
    (['<', '!', '-', '-'] ++ comment ++ ['-', '-', '>'])

def pushDeclaration
    (value : Text) (printer : XMLPrinter) : XMLPrinter :=
  printer.prepareForNewNode.write
    (['<', '?'] ++ value ++ ['?', '>'])

def pushUnknown
    (value : Text) (printer : XMLPrinter) : XMLPrinter :=
  printer.prepareForNewNode.write
    (['<', '!'] ++ value ++ ['>'])

/- The string of `CStr` and `CStrSize`, with its NUL. -/
def cStr (printer : XMLPrinter) : Text :=
  printer.buffer ++ [nul]

end XMLPrinter

------------------------------------------------------------
-- Visiting A Document
------------------------------------------------------------

mutual

def XMLNode.accept : XMLNode → XMLPrinter → XMLPrinter
  | .element name attributes children, printer =>
      let printer := printer.openElement name.text
      let printer := attributes.foldl
        (fun printer attrib =>
          printer.pushAttribute attrib.name.text
            (attrib.value.getStr true))
        printer
      (acceptAll children printer).closeElement
  | .text value cData, printer =>
      printer.pushText (value.getStr (!cData)) cData
  | .comment value, printer =>
      printer.pushComment (value.getStr false)
  | .declaration value, printer =>
      printer.pushDeclaration (value.getStr false)
  | .unknown value, printer =>
      printer.pushUnknown (value.getStr false)

def acceptAll : List XMLNode → XMLPrinter → XMLPrinter
  | [], printer => printer
  | node :: nodes, printer =>
      acceptAll nodes (node.accept printer)

end

/- `Print` into a new printer. -/
def XMLDocument.print (doc : XMLDocument) : XMLPrinter :=
  let printer : XMLPrinter := {}
  let printer :=
    if doc.hasBOM then
      printer.write byteOrderMark
    else
      printer
  acceptAll doc.children printer

------------------------------------------------------------
-- Values Of Attributes
------------------------------------------------------------

/- A byte that is escaped is escaped as its own entity. -/
theorem escape_cases
    (c : Char) :
    (escape false c = [c] ∧ c ≠ '&' ∧ c ≠ doubleQuote) ∨
      ∃ entity ∈ entities,
        entity.value = c ∧
          escape false c = '&' :: entity.pattern ++ [';'] := by
  unfold escape
  cases hFind : entities.find? (·.value == c) with
  | none =>
      left
      rw [List.find?_eq_none] at hFind
      refine ⟨rfl, ?_, ?_⟩
      · rintro rfl
        exact hFind ⟨['a', 'm', 'p'], '&'⟩ (by simp [entities])
          (by decide)
      · rintro rfl
        exact hFind ⟨['q', 'u', 'o', 't'], doubleQuote⟩
          (by simp [entities]) (by decide)
  | some entity =>
      right
      refine ⟨entity, List.mem_of_find?_eq_some hFind, ?_, rfl⟩
      simpa using List.find?_some hFind

/- An entity is read as the byte it stands for. -/
theorem reference_entity
    {entity : Entity} (hEntity : entity ∈ entities)
    (rest : Text) :
    reference ('&' :: entity.pattern ++ [';'] ++ rest) =
      some ([entity.value], rest) := by
  simp only [entities, List.mem_cons, List.not_mem_nil,
    or_false] at hEntity
  rcases hEntity with rfl | rfl | rfl | rfl | rfl
  all_goals simp [reference, entities]

theorem printString_cons
    (c : Char)
    (text : Text) :
    printString false (c :: text) =
      escape false c ++ printString false text :=
  rfl

/- A printed byte is one of the string or of an entity. -/
theorem mem_printString
    {d : Char} {text : Text}
    (hMem : d ∈ printString false text) :
    (d ∈ text ∧ d ≠ doubleQuote) ∨
      ∃ entity ∈ entities,
        d ∈ '&' :: entity.pattern ++ [';'] := by
  obtain ⟨c, hChar, hEscape⟩ := List.mem_flatMap.mp hMem
  obtain ⟨hSame, -, hQuote⟩ | ⟨entity, hEntity, -, hText⟩ :=
    escape_cases c
  · rw [hSame, List.mem_singleton] at hEscape
    exact .inl ⟨hEscape ▸ hChar, hEscape ▸ hQuote⟩
  · exact .inr ⟨entity, hEntity, hText ▸ hEscape⟩

theorem notMem_entity
    {d : Char} (hByte : d ∈ [carriageReturn, nul, doubleQuote]) :
    ¬ ∃ entity ∈ entities,
        d ∈ '&' :: entity.pattern ++ [';'] := by
  simp only [List.mem_cons, List.not_mem_nil, or_false] at hByte
  rcases hByte with rfl | rfl | rfl
  all_goals
    simp only [entities, List.mem_cons, List.not_mem_nil,
      or_false, exists_eq_or_imp, exists_eq_left]
    decide

theorem carriageReturn_notMem_printString
    {text : Text} (hReturn : carriageReturn ∉ text) :
    carriageReturn ∉ printString false text := by
  intro hMem
  rcases mem_printString hMem with ⟨hText, -⟩ | hEntity
  · exact hReturn hText
  · exact notMem_entity (by simp) hEntity

theorem nul_notMem_printString
    {text : Text} (hNul : nul ∉ text) :
    nul ∉ printString false text := by
  intro hMem
  rcases mem_printString hMem with ⟨hText, -⟩ | hEntity
  · exact hNul hText
  · exact notMem_entity (by simp) hEntity

theorem doubleQuote_notMem_printString
    (text : Text) : doubleQuote ∉ printString false text := by
  intro hMem
  rcases mem_printString hMem with ⟨-, hQuote⟩ | hEntity
  · exact hQuote rfl
  · exact notMem_entity (by simp) hEntity

/- A printed string is read as the string it was made of. -/
theorem flush_printString
    {raw text written : Text} {fuel : Nat}
    (hReturn : carriageReturn ∉ text)
    (hFuel : (printString false text).length ≤ fuel) :
    flush true raw fuel (printString false text) written =
      written ++ text := by
  induction text generalizing written fuel with
  | nil =>
      rw [List.append_nil]
      cases fuel <;> rfl
  | cons c text ih =>
      rw [List.mem_cons, not_or] at hReturn
      have hRest :=
        carriageReturn_notMem_printString hReturn.2
      have hHead :
          (printString false text).head? ≠
            some carriageReturn :=
        fun hSome => hRest (List.mem_of_head? hSome)
      rw [printString_cons] at hFuel ⊢
      obtain ⟨hSame, hAmp, -⟩ | ⟨entity, hEntity, rfl, hText⟩ :=
        escape_cases c
      · rw [hSame] at hFuel ⊢
        cases fuel with
        | zero => simp at hFuel
        | succ fuel =>
            have hStep : ∀ stale : Text,
                flushStep true stale
                    (c :: printString false text) =
                  ([c], printString false text) := by
              intro stale
              by_cases hFeed : c = lineFeed
              · subst hFeed
                simp [flushStep, hHead,
                  Ne.symm hReturn.1]
              · simp [flushStep, hFeed, hAmp,
                  Ne.symm hReturn.1]
            rw [List.singleton_append, flush, hStep,
              ih hReturn.2 (by simpa using hFuel)]
            simp
      · rw [hText] at hFuel ⊢
        cases fuel with
        | zero => simp at hFuel
        | succ fuel =>
            have hStep : ∀ stale : Text,
                flushStep true stale
                    ('&' :: (entity.pattern ++ [';'] ++
                      printString false text)) =
                  ([entity.value], printString false text) :=
              fun stale => flushStep_of_reference
                (reference_entity hEntity _)
            simp only [List.cons_append, List.append_assoc,
              List.length_cons, List.length_append] at hFuel
            rw [List.cons_append, List.cons_append, flush,
              hStep, ih hReturn.2 (by omega)]
            simp

/- The quotes delimit the string that is printed in them. -/
theorem parseText_printString
    {text rest : Text} (hNul : nul ∉ text) :
    StrPair.parseText [doubleQuote]
        (printString false text ++ doubleQuote :: rest) =
      some (⟨printString false text, doubleQuote :: rest⟩,
        rest) :=
  StrPair.parseText_delimiter (by decide)
    (doubleQuote_notMem_printString text)
    (nul_notMem_printString hNul)

/- The value of an attribute outlives printing and reading. -/
theorem getStr_printString
    {text rest : Text} (hReturn : carriageReturn ∉ text)
    (hNul : nul ∉ text) :
    (StrPair.mk (printString false text) rest).getStr true =
      text := by
  rw [StrPair.getStr, flush_printString hReturn (Nat.le_refl _),
    List.nil_append]
  exact textUpTo_eq_iff.mpr ⟨hNul, .inl rfl⟩

end Xml

end Manipulator
