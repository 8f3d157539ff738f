import Manipulator.Xml.Verify
import Mathlib.Data.Set.Finite.Basic
import Mathlib.Logic.Function.Basic

/-
  Loading a file into the behavior tree parser: the files it
  includes are loaded first, then its own text is verified,
  and last each of its trees is registered under a name.

  The file system and the package index are parameters.

  Main declarations:
    * `FileSystem`, `PImpl`, `registerTree`
    * `loadDocImpl`, `loadFromFile`
    * `exists_of_loadDocImpl`
    * `isSome_of_loadDocImpl`, `isSome_of_mem_trees`
    * `finite_of_loadDocImpl`
-/

------------------------------------------------------------
-- State Of The Parser
------------------------------------------------------------

namespace Manipulator

namespace Xml

/-
  What the parser asks of the file system. A file that
  cannot be opened has no bytes.
-/
structure FileSystem (Path : Type) where
  path : Text → Path
  isAbsolute : Path → Bool
  append : Path → Path → Path
  parentPath : Path → Path
  absolute : Path → Path
  getPackageShareDirectory : Text → Option Path
  read : Path → Option Text

structure PImpl (Path : Type) where
  treeRoots : Text → Option XMLElement
  currentPath : Path
  suffixCount : Nat

variable {Path : Type}

/- The name that a tree is registered under. -/
def treeName (suffixCount : Nat) (btNode : XMLElement) : Text :=
  match btNode.attributeValue "ID".toList with
  | some ID => ID
  | none =>
      "BehaviorTree_".toList ++ (toString suffixCount).toList

def registerTree
    (state : PImpl Path) (btNode : XMLElement) : PImpl Path :=
  { state with
    treeRoots :=
      Function.update state.treeRoots
        (treeName state.suffixCount btNode) (some btNode)
    suffixCount :=
      if (btNode.attributeValue "ID".toList).isSome then
        state.suffixCount
      else
        state.suffixCount + 1 }

------------------------------------------------------------
-- Loading
------------------------------------------------------------

/- The file that an `include` stands for. -/
def includePath
    (files : FileSystem Path)
    (currentPath : Path)
    (inclNode : XMLElement) :
    Except LoadError Path :=
  match inclNode.attributeValue "path".toList with
  | none => .error .includeWithoutPath
  | some pathAttr => do
      let filePath := files.path pathAttr
      let filePath ←
        match inclNode.attributeValue "ros_pkg".toList with
        | none => pure filePath
        | some package =>
            if files.isAbsolute filePath then
              pure filePath
            else
              match files.getPackageShareDirectory package with
              | none => .error (.packageNotFound package)
              | some share => pure (files.append share filePath)
      if files.isAbsolute filePath then
        pure filePath
      else
        pure (files.append currentPath filePath)

/-
  `loadDocImpl`. The fuel bounds how deep files include each
  other; the code does not end on files that include
  themselves.
-/
def loadDocImpl
    (files : FileSystem Path)
    (registered : Registered) :
    Nat → Bool → Except XMLError XMLDocument → PImpl Path →
      Except LoadError (PImpl Path)
  | 0, _, _, _ => .error .outOfFuel
  | fuel + 1, addIncludes, doc, state =>
      match doc with
      | .error e => .error (.errorParsing e)
      | .ok doc =>
          match doc.rootElement with
          | none => .error .missingRootElement
          | some xmlRoot => do
              let includes :=
                if addIncludes then
                  childElementsNamed "include".toList
                    xmlRoot.children
                else
                  []
              let state ← includes.foldlM
                (fun state inclNode => do
                  let filePath ←
                    includePath files state.currentPath inclNode
                  let next ← loadDocImpl files registered fuel
                    addIncludes
                    (XMLDocument.loadFile (files.read filePath))
                    { state with
                      currentPath :=
                        files.absolute
                          (files.parentPath filePath) }
                  pure
                    { next with currentPath := state.currentPath })
                state
              verifyXML registered doc.print.cStr
              loadSubtreeModel xmlRoot
              pure
                ((childElementsNamed "BehaviorTree".toList
                  xmlRoot.children).foldl registerTree state)

/- `registerBehaviorTreeFromFile`, which adds the includes. -/
def loadFromFile
    (files : FileSystem Path)
    (registered : Registered)
    (fuel : Nat)
    (filepath : Path)
    (state : PImpl Path) :
    Except LoadError (PImpl Path) :=
  loadDocImpl files registered fuel true
    (XMLDocument.loadFile (files.read filepath))
    { state with
      currentPath := files.absolute (files.parentPath filepath) }

------------------------------------------------------------
-- Loaded Documents
------------------------------------------------------------

/- A document that is loaded registers its trees last. -/
theorem exists_of_loadDocImpl
    {files : FileSystem Path} {registered : Registered}
    {fuel : Nat} {addIncludes : Bool}
    {doc : Except XMLError XMLDocument}
    {state last : PImpl Path}
    (hLoad :
      loadDocImpl files registered fuel addIncludes doc state =
        .ok last) :
    ∃ parsed xmlRoot mid,
      doc = .ok parsed ∧
        parsed.rootElement = some xmlRoot ∧
        verifyXML registered parsed.print.cStr = .ok () ∧
        last =
          (childElementsNamed "BehaviorTree".toList
            xmlRoot.children).foldl registerTree mid := by
  cases fuel with
  | zero => cases hLoad
  | succ fuel =>
      cases doc with
      | error e => cases hLoad
      | ok parsed =>
          rw [loadDocImpl] at hLoad
          cases hRoot : parsed.rootElement with
          | none => simp [hRoot] at hLoad
          | some xmlRoot =>
              simp only [hRoot, bind_eq_ok, pure_eq_ok] at hLoad
              obtain ⟨mid, -, ⟨⟩, hVerify, ⟨⟩, -, rfl⟩ :=
                hLoad
              exact ⟨parsed, xmlRoot, mid, rfl, hRoot, hVerify,
                rfl⟩

theorem treeRoots_registerTree
    (state : PImpl Path)
    (btNode : XMLElement) :
    (registerTree state btNode).treeRoots
        (treeName state.suffixCount btNode) =
      some btNode :=
  Function.update_self _ _ _

/- A name that is registered stays registered. -/
theorem isSome_registerTree
    {state : PImpl Path} {name : Text}
    (hName : (state.treeRoots name).isSome = true)
    (btNode : XMLElement) :
    ((registerTree state btNode).treeRoots name).isSome =
      true := by
  by_cases hSame : name = treeName state.suffixCount btNode
  · subst hSame
    rw [treeRoots_registerTree]
    rfl
  · simpa [registerTree, Function.update_of_ne hSame]
      using hName

theorem isSome_foldl_registerTree
    {state : PImpl Path} {name : Text}
    (hName : (state.treeRoots name).isSome = true)
    (trees : List XMLElement) :
    ((trees.foldl registerTree state).treeRoots name).isSome =
      true := by
  induction trees generalizing state with
  | nil => exact hName
  | cons tree trees ih =>
      exact ih (isSome_registerTree hName tree)

/- What each turn of a fallible loop keeps. -/
theorem foldlM_invariant
    {α S E : Type} {turn : S → α → Except E S}
    (Holds : S → Prop)
    (hTurn :
      ∀ state item next, Holds state →
        turn state item = .ok next → Holds next)
    {items : List α} {state last : S} (hState : Holds state)
    (hRun : items.foldlM turn state = .ok last) :
    Holds last := by
  induction items generalizing state with
  | nil =>
      rw [List.foldlM_nil, pure_eq_ok] at hRun
      exact hRun ▸ hState
  | cons item items ih =>
      rw [List.foldlM_cons, bind_eq_ok] at hRun
      obtain ⟨next, hNext, hRest⟩ := hRun
      exact ih (hTurn state item next hState hNext) hRest

/- Loading a document unregisters no name. -/
theorem isSome_of_loadDocImpl
    {files : FileSystem Path} {registered : Registered}
    {fuel : Nat} {addIncludes : Bool}
    {doc : Except XMLError XMLDocument}
    {state last : PImpl Path} {name : Text}
    (hName : (state.treeRoots name).isSome = true)
    (hLoad :
      loadDocImpl files registered fuel addIncludes doc state =
        .ok last) :
    (last.treeRoots name).isSome = true := by
  induction fuel generalizing doc state last with
  | zero => cases hLoad
  | succ fuel ih =>
      cases doc with
      | error e => cases hLoad
      | ok parsed =>
          rw [loadDocImpl] at hLoad
          cases hRoot : parsed.rootElement with
          | none => simp [hRoot] at hLoad
          | some xmlRoot =>
              simp only [hRoot, bind_eq_ok, pure_eq_ok] at hLoad
              obtain ⟨mid, hIncludes, ⟨⟩, -, ⟨⟩, -, rfl⟩ :=
                hLoad
              refine isSome_foldl_registerTree ?_ _
              refine foldlM_invariant
                (fun state : PImpl Path =>
                  (state.treeRoots name).isSome = true)
                ?_ hName hIncludes
              intro state inclNode next hState hTurn
              simp only [bind_eq_ok, pure_eq_ok] at hTurn
              obtain ⟨filePath, -, loaded, hLoaded, rfl⟩ := hTurn
              have hNext :
                  (loaded.treeRoots name).isSome = true := by
                refine ih ?_ hLoaded
                exact hState
              exact hNext

/- The names of the trees, which are finitely many. -/
def PImpl.Names (state : PImpl Path) : Set Text :=
  {name | (state.treeRoots name).isSome = true}

theorem finite_foldl_registerTree
    {state : PImpl Path}
    (hFinite : state.Names.Finite)
    (trees : List XMLElement) :
    (trees.foldl registerTree state).Names.Finite := by
  induction trees generalizing state with
  | nil => exact hFinite
  | cons tree trees ih =>
      refine ih (Set.Finite.subset
        (hFinite.insert (treeName state.suffixCount tree)) ?_)
      intro name hName
      by_cases hSame : name = treeName state.suffixCount tree
      · exact .inl hSame
      · have hOld : name ∈ state.Names := by
          simpa [PImpl.Names, registerTree,
            Function.update_of_ne hSame] using hName
        exact .inr hOld

theorem finite_of_loadDocImpl
    {files : FileSystem Path} {registered : Registered}
    {fuel : Nat} {addIncludes : Bool}
    {doc : Except XMLError XMLDocument}
    {state last : PImpl Path}
    (hFinite : state.Names.Finite)
    (hLoad :
      loadDocImpl files registered fuel addIncludes doc state =
        .ok last) :
    last.Names.Finite := by
  induction fuel generalizing doc state last with
  | zero => cases hLoad
  | succ fuel ih =>
      cases doc with
      | error e => cases hLoad
      | ok parsed =>
          rw [loadDocImpl] at hLoad
          cases hRoot : parsed.rootElement with
          | none => simp [hRoot] at hLoad
          | some xmlRoot =>
              simp only [hRoot, bind_eq_ok, pure_eq_ok] at hLoad
              rcases hLoad with
                ⟨mid, hIncludes, ⟨⟩, -, ⟨⟩, -, rfl⟩
              refine finite_foldl_registerTree ?_ _
              refine foldlM_invariant
                (fun state : PImpl Path => state.Names.Finite)
                ?_ hFinite hIncludes
              intro state inclNode next hState hTurn
              simp only [bind_eq_ok, pure_eq_ok] at hTurn
              rcases hTurn with ⟨filePath, -, loaded, hLoaded, rfl⟩
              have hNext : loaded.Names.Finite := by
                refine ih ?_ hLoaded
                exact hState
              exact hNext

/- Each tree with an ID is registered under it. -/
theorem isSome_of_mem_trees
    {trees : List XMLElement} {tree : XMLElement} {ID : Text}
    (hMem : tree ∈ trees)
    (hID : tree.attributeValue "ID".toList = some ID)
    (state : PImpl Path) :
    ((trees.foldl registerTree state).treeRoots ID).isSome =
      true := by
  induction trees generalizing state with
  | nil => cases hMem
  | cons head trees ih =>
      rcases List.mem_cons.mp hMem with rfl | hLater
      · have hName : treeName state.suffixCount tree = ID := by
          rw [treeName, hID]
        refine isSome_foldl_registerTree ?_ trees
        rw [← hName, treeRoots_registerTree]
        rfl
      · exact ih hLater _

end Xml

end Manipulator
