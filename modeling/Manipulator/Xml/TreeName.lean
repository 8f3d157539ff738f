import Manipulator.Xml.Load

/-
  The name of the tree to run, `get_tree_name` of `bt.cpp`.

  The name is scanned out of the bytes of the file, while
  the trees of the file are registered by the parser. The
  scan stops at the first place that looks like the name,
  which need not be where the parser found it, and it takes
  the bytes there as they are.

  Main declarations:
    * `getTreeName`, `namePlace`
    * `mainTreeName`, `nameSource`
    * `ScanAgrees`, `getTreeName_eq_iff`
-/

------------------------------------------------------------
-- Scan
------------------------------------------------------------

namespace Manipulator

namespace Xml

open Occurrence

def mainTreeKey : Text := "main_tree_to_execute".toList

/- What the scan looks for first, up to the quote. -/
def attributePattern : Text :=
  mainTreeKey ++ ['='] ++ [doubleQuote]

/- What the scan looks for when that is nowhere. -/
def treePattern : Text :=
  "<BehaviorTree ID=".toList ++ [doubleQuote]

/- The scan goes on 22 and 18 bytes from what it found. -/
example :
    attributePattern.length = 22 ∧ treePattern.length = 18 := by
  decide

variable {Path : Type}

def getTreeName
    (files : FileSystem Path) (path : Path) : Text :=
  let xml := (files.read path).getD []
  match afterFirst attributePattern xml with
  | some p => textUpTo doubleQuote p
  | none =>
      match afterFirst treePattern xml with
      | some p => textUpTo doubleQuote p
      | none => "Main".toList

/- Where the scan reads the name from. -/
def namePlace (xml : Text) : Option Text :=
  match afterFirst attributePattern xml with
  | some p => some p
  | none => afterFirst treePattern xml

/- A quote stands before the place. -/
theorem exists_endsAt_of_namePlace
    {xml place : Text} (hPlace : namePlace xml = some place) :
    ∃ before, EndsAt (before ++ [doubleQuote]) place xml := by
  unfold namePlace at hPlace
  cases hAttribute : afterFirst attributePattern xml with
  | some p =>
      rw [hAttribute] at hPlace
      cases hPlace
      exact ⟨mainTreeKey ++ ['='],
        (afterFirst_eq_some_iff.mp hAttribute).1⟩
  | none =>
      rw [hAttribute] at hPlace
      exact ⟨"<BehaviorTree ID=".toList,
        (afterFirst_eq_some_iff.mp hPlace).1⟩

theorem getTreeName_of_namePlace
    {files : FileSystem Path} {path : Path} {xml place : Text}
    (hRead : files.read path = some xml)
    (hPlace : namePlace xml = some place) :
    getTreeName files path = textUpTo doubleQuote place := by
  unfold namePlace at hPlace
  unfold getTreeName
  rw [hRead, Option.getD_some]
  cases hAttribute : afterFirst attributePattern xml with
  | some p =>
      simp only [hAttribute, Option.some.injEq] at hPlace
      simp only [hAttribute, hPlace]
  | none =>
      simp only [hAttribute] at hPlace
      simp only [hAttribute, hPlace]

theorem getTreeName_of_nowhere
    {files : FileSystem Path} {path : Path} {xml : Text}
    (hRead : files.read path = some xml)
    (hPlace : namePlace xml = none) :
    getTreeName files path = "Main".toList := by
  unfold namePlace at hPlace
  unfold getTreeName
  rw [hRead, Option.getD_some]
  cases hAttribute : afterFirst attributePattern xml with
  | some p => simp [hAttribute] at hPlace
  | none =>
      simp only [hAttribute] at hPlace
      simp only [hAttribute, hPlace]

------------------------------------------------------------
-- Parser
------------------------------------------------------------

/- The root of a text that the library accepts. -/
def documentRoot (xml : Text) : Option XMLElement :=
  match XMLDocument.parse xml with
  | .error _ => none
  | .ok doc => doc.rootElement

theorem exists_of_documentRoot
    {xml : Text} {xmlRoot : XMLElement}
    (hRoot : documentRoot xml = some xmlRoot) :
    ∃ doc,
      XMLDocument.parse xml = .ok doc ∧
        doc.rootElement = some xmlRoot := by
  unfold documentRoot at hRoot
  cases hParse : XMLDocument.parse xml with
  | error e => simp [hParse] at hRoot
  | ok doc =>
      simp only [hParse] at hRoot
      exact ⟨doc, rfl, hRoot⟩

def behaviorTrees (xmlRoot : XMLElement) : List XMLElement :=
  childElementsNamed "BehaviorTree".toList xmlRoot.children

/-
  The name that the parser gives to the tree of a document,
  after the document is loaded: the attribute of the root,
  or the name that its only tree is registered under, which
  is the last one that the parser has registered.
-/
def mainTreeName
    (state : PImpl Path) (xmlRoot : XMLElement) : Option Text :=
  match xmlRoot.attributeValue mainTreeKey with
  | some name => some name
  | none =>
      match behaviorTrees xmlRoot with
      | [btNode] => some (treeName (state.suffixCount - 1) btNode)
      | _ => none

theorem mainTreeName_of_attribute
    {state : PImpl Path} {xmlRoot : XMLElement} {name : Text}
    (hName : xmlRoot.attributeValue mainTreeKey = some name) :
    mainTreeName state xmlRoot = some name := by
  rw [mainTreeName, hName]

theorem mainTreeName_of_tree
    {state : PImpl Path} {xmlRoot btNode : XMLElement}
    {ID : Text}
    (hKey : xmlRoot.attributeValue mainTreeKey = none)
    (hTrees : behaviorTrees xmlRoot = [btNode])
    (hID : btNode.attributeValue "ID".toList = some ID) :
    mainTreeName state xmlRoot = some ID := by
  simp only [mainTreeName, hKey, hTrees]
  rw [treeName, hID]

/- The string of the document that this name comes from. -/
def nameSource (xmlRoot : XMLElement) : Option StrPair :=
  match xmlRoot.findAttribute mainTreeKey with
  | some attrib => some attrib.value
  | none =>
      match behaviorTrees xmlRoot with
      | [btNode] =>
          (btNode.findAttribute "ID".toList).map (·.value)
      | _ => none

theorem attributeValue_eq
    (element : XMLElement)
    (name : Text) :
    element.attributeValue name =
      (element.findAttribute name).map (·.value.getStr true) :=
  rfl

/- The name is what the library makes of its source. -/
theorem mainTreeName_eq_getStr
    {state : PImpl Path} {xmlRoot : XMLElement} {name : Text}
    {pair : StrPair}
    (hName : mainTreeName state xmlRoot = some name)
    (hSource : nameSource xmlRoot = some pair) :
    name = pair.getStr true := by
  unfold mainTreeName at hName
  unfold nameSource at hSource
  rw [attributeValue_eq] at hName
  cases hAttribute : xmlRoot.findAttribute mainTreeKey with
  | some attrib =>
      simp only [hAttribute, Option.map_some,
        Option.some.injEq] at hName hSource
      rw [← hName, ← hSource]
  | none =>
      simp only [hAttribute, Option.map_none] at hName hSource
      split at hName
      · rename_i btNode hTrees
        simp only [hTrees] at hSource
        rw [treeName, attributeValue_eq] at hName
        cases hID : btNode.findAttribute "ID".toList with
        | none =>
            rw [hID] at hSource
            cases hSource
        | some attrib =>
            simp only [hID, Option.map_some,
              Option.some.injEq] at hName hSource
            rw [← hName, ← hSource]
      · cases hName

/- The source is an attribute that is quoted in the text. -/
theorem exists_isQuotedIn_of_nameSource
    {xml : Text} {xmlRoot : XMLElement} {pair : StrPair}
    (hRoot : documentRoot xml = some xmlRoot)
    (hSource : nameSource xmlRoot = some pair) :
    ∃ attrib : XMLAttribute,
      attrib.value = pair ∧ attrib.IsQuotedIn xml := by
  obtain ⟨doc, hParse, hFirst⟩ := exists_of_documentRoot hRoot
  have hMem : xmlRoot ∈ childElements doc.children :=
    List.mem_of_head? hFirst
  obtain ⟨hAttributes, hChildren⟩ :=
    every_of_mem_childElements (isQuotedIn_of_parse hParse) hMem
  unfold nameSource at hSource
  split at hSource
  · rename_i attrib hAttribute
    cases hSource
    exact ⟨attrib, rfl,
      hAttributes attrib (mem_of_findAttribute hAttribute)⟩
  · split at hSource
    · rename_i btNode hTrees
      have hTree : btNode ∈ childElements xmlRoot.children := by
        have hOnly : btNode ∈ behaviorTrees xmlRoot := by
          rw [hTrees]
          exact List.mem_singleton_self btNode
        exact List.mem_of_mem_filter hOnly
      obtain ⟨attrib, hID, rfl⟩ :=
        Option.map_eq_some_iff.mp hSource
      exact ⟨attrib, rfl,
        (every_of_mem_childElements hChildren hTree).1 attrib
          (mem_of_findAttribute hID)⟩
    · cases hSource

------------------------------------------------------------
-- Agreement
------------------------------------------------------------

/-
  When the scan reads the name from where the parser does,
  nothing in it may be written as a reference or as another
  line end. When it reads it from elsewhere, the same name
  has to be quoted there. When it finds no place, the name
  has to be the default.
-/
inductive ScanAgrees
    (xml : Text)
    (source : Option StrPair)
    (name : Text) : Prop
  | atSource
      {pair : StrPair}
      (hSource : source = some pair)
      (hPlace : namePlace xml = some pair.start)
      (hVerbatim : Verbatim pair.text)
  | elsewhere
      {place : Text}
      (hPlace : namePlace xml = some place)
      (hSource : ∀ pair, source = some pair → pair.start ≠ place)
      (hQuoted : Delimits doubleQuote place name)
  | nowhere
      (hPlace : namePlace xml = none)
      (hDefault : name = "Main".toList)

/- At the source, the scan reads the bytes of the value. -/
theorem textUpTo_of_isQuotedIn
    {xml : Text} {attrib : XMLAttribute}
    (hQuoted : attrib.IsQuotedIn xml)
    (hPlace : namePlace xml = some attrib.value.start) :
    textUpTo doubleQuote attrib.value.start =
      attrib.value.text := by
  obtain ⟨-, quote, rest, hStart, hRest, hQuote⟩ := hQuoted
  obtain ⟨before, hEnds⟩ := exists_endsAt_of_namePlace hPlace
  have hDouble : quote = doubleQuote := hEnds.last_eq hStart
  subst hDouble
  rw [StrPair.start, hRest]
  exact textUpTo_append_delimiter hQuote

/- The scan and the parser, on a document and its name. -/
theorem getTreeName_eq_iff_scanAgrees
    {files : FileSystem Path} {path : Path} {xml name : Text}
    {xmlRoot : XMLElement} {state : PImpl Path}
    (hRead : files.read path = some xml)
    (hRoot : documentRoot xml = some xmlRoot)
    (hName : mainTreeName state xmlRoot = some name) :
    getTreeName files path = name ↔
      ScanAgrees xml (nameSource xmlRoot) name := by
  cases hPlace : namePlace xml with
  | none =>
      rw [getTreeName_of_nowhere hRead hPlace]
      constructor
      · intro hDefault
        exact .nowhere hPlace hDefault.symm
      · rintro (⟨-, hSome, -⟩ | ⟨hSome, -, -⟩ | ⟨-, hDefault⟩)
        · rw [hPlace] at hSome
          cases hSome
        · rw [hPlace] at hSome
          cases hSome
        · exact hDefault.symm
  | some place =>
      rw [getTreeName_of_namePlace hRead hPlace]
      by_cases hHere :
          ∃ pair, nameSource xmlRoot = some pair ∧
            pair.start = place
      · obtain ⟨pair, hSource, rfl⟩ := hHere
        obtain ⟨attrib, rfl, hQuoted⟩ :=
          exists_isQuotedIn_of_nameSource hRoot hSource
        have hValue := getStr_eq_text_iff hQuoted.nul_notMem
        rw [textUpTo_of_isQuotedIn hQuoted hPlace,
          mainTreeName_eq_getStr hName hSource, eq_comm, hValue]
        constructor
        · intro hVerbatim
          exact .atSource hSource hPlace hVerbatim
        · rintro (⟨hSame, -, hVerbatim⟩ | ⟨hSame, hOther, -⟩ |
            ⟨hNone, -⟩)
          · cases hSource.symm.trans hSame
            exact hVerbatim
          · cases hPlace.symm.trans hSame
            exact absurd rfl (hOther _ hSource)
          · rw [hPlace] at hNone
            cases hNone
      · rw [textUpTo_eq_iff]
        constructor
        · intro hQuoted
          refine .elsewhere hPlace ?_ hQuoted
          intro pair hSource hStart
          exact hHere ⟨pair, hSource, hStart⟩
        · rintro (⟨hSource, hSame, -⟩ | ⟨hSame, -, hQuoted⟩ |
            ⟨hNone, -⟩)
          · cases hPlace.symm.trans hSame
            exact absurd ⟨_, hSource, rfl⟩ hHere
          · cases hPlace.symm.trans hSame
            exact hQuoted
          · rw [hPlace] at hNone
            cases hNone

------------------------------------------------------------
-- Loaded Files
------------------------------------------------------------

/- The only tree of a document is registered last. -/
theorem treeRoots_mainTreeName
    {mid : PImpl Path} {xmlRoot : XMLElement} {name : Text}
    (hKey : xmlRoot.attributeValue mainTreeKey = none)
    (hName :
      mainTreeName
          ((behaviorTrees xmlRoot).foldl registerTree mid)
          xmlRoot =
        some name) :
    ∃ btNode,
      behaviorTrees xmlRoot = [btNode] ∧
        ((behaviorTrees xmlRoot).foldl registerTree
            mid).treeRoots name =
          some btNode := by
  unfold mainTreeName at hName
  rw [hKey] at hName
  dsimp only at hName
  split at hName
  · rename_i btNode hTrees
    rw [hTrees, Option.some.injEq] at hName
    refine ⟨btNode, hTrees, ?_⟩
    rw [hTrees, ← hName]
    have hCount :
        treeName
            ((registerTree mid btNode).suffixCount - 1) btNode =
          treeName mid.suffixCount btNode := by
      unfold treeName registerTree
      cases btNode.attributeValue "ID".toList with
      | none => rfl
      | some ID => rfl
    exact hCount ▸ treeRoots_registerTree mid btNode
  · cases hName

/-
  Of a file that is accepted, the scan gives the name that
  the parser gives exactly when the two agree on its place
  and on how it is written.
-/
theorem getTreeName_eq_iff
    {files : FileSystem Path} {registered : Registered}
    {fuel : Nat} {path : Path} {xml : Text}
    {state last : PImpl Path}
    (hRead : files.read path = some xml)
    (hLoad :
      loadFromFile files registered fuel path state = .ok last) :
    ∃ xmlRoot,
      documentRoot xml = some xmlRoot ∧
        ∀ name, mainTreeName last xmlRoot = some name →
          (xmlRoot.attributeValue mainTreeKey = none →
            ∃ btNode,
              behaviorTrees xmlRoot = [btNode] ∧
                last.treeRoots name = some btNode) ∧
          (getTreeName files path = name ↔
            ScanAgrees xml (nameSource xmlRoot) name) := by
  obtain ⟨doc, xmlRoot, mid, hDoc, hFirst, -, rfl⟩ :=
    exists_of_loadDocImpl hLoad
  rw [hRead] at hDoc
  have hParse : XMLDocument.parse xml = .ok doc := hDoc
  have hRoot : documentRoot xml = some xmlRoot := by
    rw [documentRoot, hParse]
    exact hFirst
  refine ⟨xmlRoot, hRoot, ?_⟩
  intro name hName
  exact ⟨fun hKey => treeRoots_mainTreeName hKey hName,
    getTreeName_eq_iff_scanAgrees hRead hRoot hName⟩

------------------------------------------------------------
-- One File
------------------------------------------------------------

/- A file system with a single file. -/
def singleFile (xml : Text) : FileSystem Unit where
  path := fun _ => ()
  isAbsolute := fun _ => true
  append := fun _ _ => ()
  parentPath := fun _ => ()
  absolute := fun _ => ()
  getPackageShareDirectory := fun _ => none
  read := fun _ => some xml

/- A parser that has loaded nothing. -/
def emptyParser : PImpl Unit where
  treeRoots := fun _ => none
  currentPath := ()
  suffixCount := 0

/- The node `finish` of `bt.cpp`, an action. -/
def finishNode : Registered :=
  fun name => if name = "finish".toList then some .action else none

/- A tree that only finishes. -/
def finishTree (ID : String) : List String :=
  ["<BehaviorTree ID=\"", ID, "\">", "<finish/>",
    "</BehaviorTree>"]

def joinLines (lines : List String) : Text :=
  lines.flatMap String.toList

/- The root of `main3.xml`, with a shorter tree. -/
def singleTree : Text :=
  joinLines
    (["<root BTCPP_", "format='4'>"] ++
      finishTree "MainTree" ++ ["</root>"])

/- A main tree that is chosen in single quotes. -/
def quotedTree : Text :=
  joinLines
    (["<root main_tree", "_to_execute='A'>"] ++
      finishTree "B" ++ finishTree "A" ++ ["</root>"])

/- In a file with a single tree, the two agree on its name. -/
theorem getTreeName_agrees_of_single_tree :
    ∃ (last : PImpl Unit) (xmlRoot : XMLElement),
      loadFromFile (singleFile singleTree) finishNode 1 ()
          emptyParser =
        .ok last ∧
      documentRoot singleTree = some xmlRoot ∧
      mainTreeName last xmlRoot = some "MainTree".toList ∧
      ScanAgrees singleTree (nameSource xmlRoot)
        "MainTree".toList := by
  obtain ⟨last, hLoad⟩ :=
    exists_of_isOk
      (x := loadFromFile (singleFile singleTree) finishNode 1 ()
        emptyParser)
      (by decide +kernel)
  obtain ⟨xmlRoot, hRoot, hNames⟩ := getTreeName_eq_iff rfl hLoad
  have hKey :
      (documentRoot singleTree).map
          (·.attributeValue mainTreeKey) =
        some none := by
    decide +kernel
  have hTrees :
      (documentRoot singleTree).map
          (fun xmlRoot =>
            (behaviorTrees xmlRoot).map
              (·.attributeValue "ID".toList)) =
        some [some "MainTree".toList] := by
    decide +kernel
  have hScan :
      getTreeName (singleFile singleTree) () =
        "MainTree".toList := by
    decide +kernel
  rw [hRoot, Option.map_some, Option.some.injEq] at hKey hTrees
  obtain ⟨btNode, hTree, hID⟩ :=
    List.map_eq_singleton_iff.mp hTrees
  have hName :
      mainTreeName last xmlRoot = some "MainTree".toList :=
    mainTreeName_of_tree hKey hTree hID
  exact ⟨last, xmlRoot, hLoad, hRoot, hName,
    (hNames _ hName).2.mp hScan⟩

/-
  The main tree is chosen in single quotes: the parser takes
  the tree that is chosen, the scan takes the first one.
-/
theorem getTreeName_misses_single_quotes :
    ∃ (last : PImpl Unit) (xmlRoot : XMLElement),
      loadFromFile (singleFile quotedTree) finishNode 1 ()
          emptyParser =
        .ok last ∧
      documentRoot quotedTree = some xmlRoot ∧
      mainTreeName last xmlRoot = some "A".toList ∧
      getTreeName (singleFile quotedTree) () = "B".toList := by
  obtain ⟨last, hLoad⟩ :=
    exists_of_isOk
      (x := loadFromFile (singleFile quotedTree) finishNode 1 ()
        emptyParser)
      (by decide +kernel)
  have hKey :
      (documentRoot quotedTree).bind
          (·.attributeValue mainTreeKey) =
        some "A".toList := by
    decide +kernel
  obtain ⟨xmlRoot, hRoot, hName⟩ :=
    Option.bind_eq_some_iff.mp hKey
  have hScan :
      getTreeName (singleFile quotedTree) () = "B".toList := by
    decide +kernel
  exact ⟨last, xmlRoot, hLoad, hRoot,
    mainTreeName_of_attribute hName, hScan⟩

end Xml

end Manipulator
