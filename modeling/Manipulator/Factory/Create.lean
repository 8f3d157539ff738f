import Manipulator.Factory.Nodes
import Manipulator.Xml.Load

/-
  The trees that the factory makes of the documents it has
  loaded: `recursivelyCreateSubtree` and `instantiateTree`.

  A tree is the nodes of its own elements and, at each
  SubTree, the nodes of the tree that it names, on a
  blackboard of its own.

  Main declarations:
    * `Parser`, `Built`
    * `remapSubtree`, `enterSubtree`
    * `recursiveStep`, `recursivelyCreateSubtree`
    * `instantiateTree`
-/

------------------------------------------------------------
-- Trees
------------------------------------------------------------

namespace Manipulator

namespace Factory

open Xml (Text XMLElement)
open Scripting (Blackboard Board SetValue)

/- What the parser has loaded. The trees are in a map. -/
structure Parser where
  treeRoots : Text → Option XMLElement
  finite : {treeID | (treeRoots treeID).isSome = true}.Finite
  -- the ports of a subtree model, with their defaults
  subtreeModels : Text → Option (List (Text × Text))

/- The parser after it has loaded a file. -/
def Parser.ofLoaded
    {Path : Type} {files : Xml.FileSystem Path}
    {registered : Xml.Registered} {fuel : Nat}
    {addIncludes : Bool}
    {doc : Except Xml.XMLError Xml.XMLDocument}
    {state loaded : Xml.PImpl Path}
    (hFinite : state.Names.Finite)
    (hLoad :
      Xml.loadDocImpl files registered fuel addIncludes doc
        state = .ok loaded)
    (subtreeModels : Text → Option (List (Text × Text))) :
    Parser where
  treeRoots := loaded.treeRoots
  finite := Xml.finite_of_loadDocImpl hFinite hLoad
  subtreeModels := subtreeModels

/-
  A node with the nodes that are created below it, or a
  SubTree with the tree that it stands for.
-/
inductive Built where
| node (object : NodeObject) (children : List Built)
| subtree
    (object : NodeObject)
    (path treeID : Text)
    (board : Board)
    (root : Built)

def Built.object : Built → NodeObject
| .node object _ => object
| .subtree object _ _ _ _ => object

------------------------------------------------------------
-- Subtrees
------------------------------------------------------------

/- `convertFromString<bool>`. -/
def boolOfText (text : Text) : Option Bool :=
  if text ∈ ["1".toList, "true".toList, "TRUE".toList,
      "True".toList] then
    some true
  else if text ∈ ["0".toList, "false".toList, "FALSE".toList,
      "False".toList] then
    some false
  else
    none

def autoremapName : Text := "_autoremap".toList

/- The value of an attribute of a SubTree. -/
def subtreeValue (att : Text × Text) : Text :=
  if att.2 = [openBrace, '=', closeBrace] then
    openBrace :: att.1 ++ [closeBrace]
  else
    att.2

/- `_autoremap`, of the attributes in their order. -/
def doAutoremap (atts : List (Text × Text)) :
    Except CreateError Bool :=
  atts.foldlM
    (fun before att =>
      if att.1 = autoremapName then
        match boolOfText (subtreeValue att) with
        | some autoremap => .ok autoremap
        | none => .error (.invalidBool (subtreeValue att))
      else
        .ok before)
    false

/- `insert`: a key that is there already stays as it is. -/
def insert (map : List (Text × Text)) (att : Text × Text) :
    List (Text × Text) :=
  if (map.lookup att.1).isSome then map else map ++ [att]

def subtreeRemapping (atts : List (Text × Text)) :
    List (Text × Text) :=
  (atts.filter fun att =>
    att.1 ≠ autoremapName && isAllowedPortName att.1).foldl
      (fun map att => insert map (att.1, subtreeValue att)) []

/- The ports of the model that the SubTree does not remap. -/
def addModelPorts
    (subtreeID : Text) (autoremap : Bool)
    (model : List (Text × Text)) (remapping : List (Text × Text)) :
    Except CreateError (List (Text × Text)) :=
  model.foldlM
    (fun remapping port =>
      if (remapping.lookup port.1).isNone ∧ !autoremap then
        if port.2 = [] then
          .error (.mandatoryPort subtreeID port.1)
        else
          .ok (insert remapping port)
      else
        .ok remapping)
    remapping

/- A remapping to the parent, or a constant on the board. -/
def remapPort
    (factory : NodeFactory) (bb : Blackboard)
    (att : Text × Text) : Except CreateError Blackboard :=
  match blackboardPointer att.2 with
  | some port => .ok (bb.addSubtreeRemapping att.1 port)
  | none =>
      match bb.set factory.round (SetValue.ofString att.2)
          att.1 with
      | .ok bb => .ok bb
      | .error e => .error (.set e)

/- `Blackboard::create`, below the one of the parent tree. -/
def newBoard (parent : Blackboard) : Blackboard :=
  .child ⟨fun _ => none, fun _ => none, false⟩ parent

/-
  The blackboard of a SubTree. It is remapped automatically
  only when its constants are there.
-/
def remapSubtree
    (factory : NodeFactory) (parser : Parser)
    (subtreeID : Text) (element : XMLElement)
    (parent : Blackboard) : Except CreateError Blackboard := do
  let atts := attributePairs element
  let autoremap ← doAutoremap atts
  let remapping ←
    match parser.subtreeModels subtreeID with
    | none => pure (subtreeRemapping atts)
    | some model =>
        addModelPorts subtreeID autoremap model
          (subtreeRemapping atts)
  let bb ← remapping.foldlM (remapPort factory)
    (newBoard parent)
  pure (bb.enableAutoRemapping autoremap)

/- The prefix of the paths of the nodes of a tree. -/
def prefixPath (path : Text) : Text :=
  if path = [] then [] else path ++ ['/']

/- The path of a SubTree, below that of its own tree. -/
def subtreePath
    (path subtreeID : Text) (element : XMLElement) (uid : Nat) :
    Text :=
  prefixPath path ++
    match element.attributeValue "name".toList with
    | some name => name
    | none => subtreeID ++ "::".toList ++ (toString uid).toList

------------------------------------------------------------
-- Creating A Tree
------------------------------------------------------------

/- How the tree of a SubTree is created. -/
abbrev Enter :=
  Text → Text → Building → Except CreateError (Built × Building)

/- A SubTree, with the tree it stands for. -/
def enterSubtree
    (factory : NodeFactory) (parser : Parser) (enter : Enter)
    (path : Text) (element : XMLElement) (object : NodeObject)
    (state : Building) :
    Except CreateError (Built × Building) :=
  match element.attributeValue "ID".toList with
  | none => .error .noSubtreeID
  | some subtreeID => do
      let bb ← remapSubtree factory parser subtreeID element
        state.blackboard
      let inner :=
        subtreePath path subtreeID element object.config.uid
      if inner ∈ state.subtrees then
        .error (.duplicatePath inner)
      else do
        let (root, next) ← enter subtreeID inner
          { state with blackboard := bb }
        pure
          (.subtree object inner subtreeID next.blackboard.board
            root,
          { next with blackboard := next.blackboard.parent })

/- The children of an element, one after the other. -/
def createChildren
    (create :
      Bool → XMLElement → Building →
        Except CreateError (Built × Building))
    (isDecorator : Bool) :
    Bool → List XMLElement → Building →
      Except CreateError (List Built × Building)
| _, [], state => .ok ([], state)
| hasChild, element :: elements, state => do
    let (child, state) ← create hasChild element state
    let (children, state) ← createChildren create isDecorator
      isDecorator elements state
    pure (child :: children, state)

/-
  `recursiveStep` of the tree with a path. The number counts
  the levels that are left.
-/
def recursiveStep
    (factory : NodeFactory) (parser : Parser) (enter : Enter)
    (path : Text) :
    Nat → Bool → XMLElement → Building →
      Except CreateError (Built × Building)
| 0, _, _, _ => .error .nestedTooDeep
| levels + 1, hasChild, element, state => do
    let (object, state) ← createNodeFromXML factory hasChild
      (prefixPath path) element state
    if object.type = .subtree then
      enterSubtree factory parser enter path element object state
    else do
      let (children, state) ← createChildren
        (recursiveStep factory parser enter path levels)
        (object.type = .decorator) false
        (Xml.childElements element.children) state
      pure (.node object children, state)

def kMaxNestingDepth : Nat := 256

/-
  `recursivelyCreateSubtree`. The fuel bounds how deep trees
  stand in each other.
-/
def recursivelyCreateSubtree
    (factory : NodeFactory) (parser : Parser) :
    Nat → List Text → Enter
| 0, _, _, _, _ => .error .outOfFuel
| fuel + 1, ancestors, treeID, path, state =>
    if treeID ∈ ancestors then
      .error (.cycle treeID)
    else
      match parser.treeRoots treeID with
      | none => .error (.treeNotFound treeID)
      | some tree =>
          match Xml.childElements tree.children with
          | [] => .error .noRootNode
          | element :: _ =>
              recursiveStep factory parser
                (recursivelyCreateSubtree factory parser fuel
                  (treeID :: ancestors))
                path (kMaxNestingDepth + 1) false element
                { state with
                  subtrees := state.subtrees ++ [path] }

/- `instantiateTree`, on the blackboard of the caller. -/
def instantiateTree
    (factory : NodeFactory) (parser : Parser)
    (fuel : Nat) (mainTreeID : Text) (bb : Blackboard) :
    Except CreateError (Built × Building) :=
  recursivelyCreateSubtree factory parser fuel [] mainTreeID []
    ⟨0, [], bb⟩

------------------------------------------------------------
-- A Tree With A Subtree
------------------------------------------------------------

/- A tag, with its attributes. -/
def tag
    (name : String) (atts : List (String × String))
    (children : List Xml.XMLNode) : Xml.XMLNode :=
  .element ⟨name.toList, []⟩
    (atts.map fun att =>
      ⟨⟨att.1.toList, []⟩, ⟨att.2.toList, []⟩⟩)
    children

def treeOf (child : Xml.XMLNode) : XMLElement where
  name := ⟨"BehaviorTree".toList, []⟩
  attributes := []
  children := [child]

/- The nodes of `t06_subtree_port_remapping.cpp`. -/
def portRemappingFactory : NodeFactory where
  manifests name :=
    [("Sequence".toList, ⟨.control, []⟩),
      ("Fallback".toList, ⟨.control, []⟩),
      ("ForceFailure".toList, ⟨.decorator, []⟩),
      ("SubTree".toList, ⟨.subtree, []⟩),
      ("Script".toList, ⟨.action,
        [("code".toList, ⟨⟨.string, none⟩, .input, []⟩)]⟩),
      ("SaySomething".toList, ⟨.action,
        [("message".toList, ⟨⟨.string, none⟩, .input, []⟩)]⟩),
      ("MoveBase".toList, (⟨.action,
        [("goal".toList,
          ⟨⟨.custom "Pose2D".toList, none⟩, .input, []⟩)]⟩ :
        TreeNodeManifest))].lookup name
  builder _ _ _ := .ok ()
  isConvertible _ _ := false
  round q := Double.ofField q

/- Its trees. -/
def portRemappingTrees : List (Text × XMLElement) :=
  [("MainTree".toList,
      treeOf (tag "Sequence" []
        [tag "Script" [("code", " move_goal='1;2;3' ")] [],
          tag "SubTree"
            [("ID", "MoveRobot"), ("target", "\x7bmove_goal\x7d"),
              ("result", "\x7bmove_result\x7d")] [],
          tag "SaySomething"
            [("message", "\x7bmove_result\x7d")] []])),
    ("MoveRobot".toList,
      treeOf (tag "Fallback" []
        [tag "Sequence" []
          [tag "MoveBase" [("goal", "\x7btarget\x7d")] [],
            tag "Script" [("code", " result:='goal reached' ")]
              []],
          tag "ForceFailure" []
            [tag "Script" [("code", " result:='error' ")]
              []]]))]

/- What is looked up in a list of pairs is one of its keys. -/
theorem finite_lookup (trees : List (Text × XMLElement)) :
    {treeID | (trees.lookup treeID).isSome = true}.Finite := by
  refine Set.Finite.subset (trees.map (·.1)).finite_toSet ?_
  intro treeID hSome
  change (trees.lookup treeID).isSome = true at hSome
  rw [List.lookup_isSome_iff] at hSome
  rcases hSome with ⟨pair, hMem, hKey⟩
  exact List.mem_map.mpr ⟨pair, hMem, (eq_of_beq hKey).symm⟩

def portRemappingParser : Parser where
  treeRoots treeID := portRemappingTrees.lookup treeID
  finite := finite_lookup portRemappingTrees
  subtreeModels _ := none

def portRemappingTree : Except CreateError (Built × Building) :=
  instantiateTree portRemappingFactory portRemappingParser 2
    "MainTree".toList
    (.root ⟨fun _ => none, fun _ => none, false⟩)

end Factory

end Manipulator
