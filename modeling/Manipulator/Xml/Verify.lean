import Manipulator.Xml.Printer

/-
  What the behavior tree parser checks in a document before
  it registers a tree: `VerifyXML`, on the printed text of
  the document, and `loadSubtreeModel`, on the document.

  The types of the registered nodes are a parameter.

  Main declarations:
    * `LoadError`, `Registered`
    * `checkNode`, `recursiveStep`, `verifyXML`
    * `Below`, `checkNode_of_verifyXML`
    * `Arity`, `arity_of_checkNode`
-/

------------------------------------------------------------
-- Names
------------------------------------------------------------

namespace Manipulator

namespace Xml

/- `NodeType`. -/
inductive NodeType
  | undefined
  | action
  | condition
  | control
  | decorator
  | subtree
  deriving DecidableEq

/- The nodes that are registered with the factory. -/
abbrev Registered := Text → Option NodeType

/- What is thrown while a file is loaded, in source order. -/
inductive LoadError
  | emptyModelName
  | reservedModelName
  | forbiddenModelName (name : Text)
  | emptyPortName
  | digitPortName (name : Text)
  | forbiddenPortName (name : Text)
  | reservedPortName (name : Text)
  | portWithoutName
  | subtreeModelWithoutID
  | errorParsing (error : XMLError)
  | missingRootElement
  | includeWithoutPath
  | packageNotFound (package : Text)
  | notRoot
  | secondTreeNodesModel
  | mandatoryID (name : Text)
  | nestedTooDeep
  | tagWithoutID (name : Text)
  | treeWithoutID
  | treeNamedAsNode (name : Text)
  | treeChildren (name : Text)
  | subtreeChildren (name : Text)
  | subtreeNamedAsNode (name : Text)
  | notRecognized (name : Text)
  | decoratorChildren (name : Text)
  | controlChildren (name : Text)
  | tryCatchChildren
  | unknownNodeType (name : Text)
  | reactiveSequenceAsync
  | leafChildren (name : Text)
  | outOfFuel
  deriving DecidableEq

def throwIf
    (condition : Prop)
    [Decidable condition]
    (e : LoadError) :
    Except LoadError Unit :=
  if condition then .error e else .ok ()

def forbiddenChars : Text :=
  [' ', Char.ofNat 9, lineFeed, carriageReturn, '<', '>', '&',
    doubleQuote, singleQuote, '/', Char.ofNat 92, ':', '*', '?',
    '|', '.']

def isForbiddenChar (c : Char) : Bool :=
  if 0x80 ≤ c.toNat then
    false
  else
    c.toNat < 32 || c.toNat == 127 || forbiddenChars.contains c

/- A NUL stands for no forbidden character. -/
def findForbiddenChar (name : Text) : Char :=
  (name.find? isForbiddenChar).getD nul

def validateModelName (name : Text) : Except LoadError Unit :=
  if name = [] then
    .error .emptyModelName
  else if name = "Root".toList ∨ name = "root".toList then
    .error .reservedModelName
  else if findForbiddenChar name ≠ nul then
    .error (.forbiddenModelName name)
  else
    .ok ()

def isReservedAttribute (name : Text) : Bool :=
  ["_failureIf".toList, "_successIf".toList, "_skipIf".toList,
    "_while".toList, "_onHalted".toList, "_onFailure".toList,
    "_onSuccess".toList, "_post".toList, "name".toList,
    "ID".toList, "_autoremap".toList].contains name

def validatePortName (name : Text) : Except LoadError Unit :=
  if name = [] then
    .error .emptyPortName
  else if name.head?.any Char.isDigit then
    .error (.digitPortName name)
  else if findForbiddenChar name ≠ nul then
    .error (.forbiddenPortName name)
  else if isReservedAttribute name then
    .error (.reservedPortName name)
  else
    .ok ()

------------------------------------------------------------
-- Verifying One Node
------------------------------------------------------------

/- The checks of a tag `BehaviorTree`. -/
def checkBehaviorTree
    (registered : Registered)
    (behaviorTreeCount : Nat)
    (ID : Text)
    (children : List XMLElement) :
    Except LoadError Unit := do
  throwIf (ID = [] ∧ 1 < behaviorTreeCount) .treeWithoutID
  (if ID = [] then .ok () else validateModelName ID)
  throwIf ((registered ID).isSome = true) (.treeNamedAsNode ID)
  throwIf (children.length ≠ 1) (.treeChildren ID)

/- The checks of a tag `SubTree`. -/
def checkSubTree
    (registered : Registered)
    (ID : Text)
    (children : List XMLElement) :
    Except LoadError Unit := do
  throwIf (children.length ≠ 0) (.subtreeChildren ID)
  validateModelName ID
  throwIf ((registered ID).isSome = true)
    (.subtreeNamedAsNode ID)

def asyncNames : List Text :=
  ["ThreadedAction".toList, "StatefulActionNode".toList,
    "CoroActionNode".toList, "AsyncSequence".toList]

/- The children of a `ReactiveSequence`, from a count on. -/
def checkAsync
    (registered : Registered) :
    Nat → List XMLElement → Except LoadError Unit
  | _, [] => .ok ()
  | asyncCount, child :: children =>
      match registered child.name.text with
      | none => .error (.unknownNodeType child.name.text)
      | some childType =>
          if childType = .control ∧
              asyncNames.contains child.name.text then
            if 1 < asyncCount + 1 then
              .error .reactiveSequenceAsync
            else
              checkAsync registered (asyncCount + 1) children
          else
            checkAsync registered asyncCount children

/- The checks of a node that the factory has to know. -/
def checkRegistered
    (registered : Registered)
    (lookupName : Text)
    (children : List XMLElement) :
    Except LoadError Unit :=
  match registered lookupName with
  | none => .error (.notRecognized lookupName)
  | some .decorator =>
      throwIf (children.length ≠ 1)
        (.decoratorChildren lookupName)
  | some .control => do
      throwIf (children.length = 0) (.controlChildren lookupName)
      throwIf
        (lookupName = "TryCatch".toList ∧ children.length < 2)
        .tryCatchChildren
      if lookupName = "ReactiveSequence".toList then
        checkAsync registered 0 children
      else
        .ok ()
  | some .action =>
      throwIf (children.length ≠ 0) (.leafChildren lookupName)
  | some .condition =>
      throwIf (children.length ≠ 0) (.leafChildren lookupName)
  | some .subtree => .ok ()
  | some .undefined => .ok ()

/- The tags that need an ID. -/
def builtinTags : List Text :=
  ["Decorator".toList, "Action".toList, "Condition".toList,
    "Control".toList, "SubTree".toList]

/- One call of `recursiveStep`, without its recursion. -/
def checkNode
    (registered : Registered)
    (behaviorTreeCount : Nat)
    (node : XMLElement) :
    Except LoadError Unit :=
  let children := childElements node.children
  let name := node.name.text
  let ID := (node.attributeValue "ID".toList).getD []
  let isBuiltin := builtinTags.contains name
  if isBuiltin ∧ ID = [] then
    .error (.tagWithoutID name)
  else if name = "BehaviorTree".toList then
    checkBehaviorTree registered behaviorTreeCount ID children
  else if name = "SubTree".toList then
    checkSubTree registered ID children
  else if isBuiltin then
    checkRegistered registered ID children
  else do
    validateModelName name
    checkRegistered registered name children

------------------------------------------------------------
-- Verifying A Document
------------------------------------------------------------

def maxNestingDepth : Nat := 256

/- The number counts the levels that are left. -/
def recursiveStep
    (registered : Registered)
    (behaviorTreeCount : Nat) :
    Nat → XMLElement → Except LoadError Unit
  | 0, _ => .error .nestedTooDeep
  | levels + 1, node => do
      checkNode registered behaviorTreeCount node
      (childElements node.children).forM
        (recursiveStep registered behaviorTreeCount levels)

/- The tags that need an ID next to a `TreeNodesModel`. -/
def modelTags : List Text :=
  ["Action".toList, "Decorator".toList, "SubTree".toList,
    "Condition".toList, "Control".toList]

def checkMandatoryID (node : XMLElement) : Except LoadError Unit :=
  throwIf
    (modelTags.contains node.name.text = true ∧
      (node.findAttribute "ID".toList).isNone = true)
    (.mandatoryID node.name.text)

def verifyXML
    (registered : Registered)
    (xmlText : Text) :
    Except LoadError Unit :=
  match XMLDocument.parse xmlText with
  | .error e => .error (.errorParsing e)
  | .ok doc =>
      match doc.rootElement with
      | none => .error .notRoot
      | some xmlRoot => do
          throwIf (xmlRoot.name.text ≠ "root".toList) .notRoot
          let models := childElementsNamed
            "TreeNodesModel".toList xmlRoot.children
          throwIf (1 < models.length) .secondTreeNodesModel
          let children := childElements xmlRoot.children
          (if models.isEmpty then
            .ok ()
          else
            children.forM checkMandatoryID)
          (childElementsNamed "BehaviorTree".toList
            xmlRoot.children).forM
              (recursiveStep registered children.length
                (maxNestingDepth + 1))

------------------------------------------------------------
-- Models Of Subtrees
------------------------------------------------------------

def checkPort (port : XMLElement) : Except LoadError Unit :=
  match port.attributeValue "name".toList with
  | none => .error .portWithoutName
  | some name => validatePortName name

/- The ports of one direction after those of another. -/
def parseSubtreeModelPorts
    (subNode : XMLElement) : Except LoadError Unit :=
  ["input_port".toList, "output_port".toList,
    "inout_port".toList].forM fun name =>
      (childElementsNamed name subNode.children).forM checkPort

def checkSubtreeModel
    (subNode : XMLElement) : Except LoadError Unit :=
  match subNode.attributeValue "ID".toList with
  | none => .error .subtreeModelWithoutID
  | some _ => parseSubtreeModelPorts subNode

def loadSubtreeModel
    (xmlRoot : XMLElement) : Except LoadError Unit :=
  (childElementsNamed "TreeNodesModel".toList
    xmlRoot.children).forM fun modelsNode =>
      (childElementsNamed "SubTree".toList
        modelsNode.children).forM checkSubtreeModel

------------------------------------------------------------
-- Verified Documents
------------------------------------------------------------

theorem throwIf_eq_ok_iff
    {condition : Prop} [Decidable condition] {e : LoadError} :
    throwIf condition e = .ok () ↔ ¬ condition := by
  by_cases hCondition : condition
  · simp [throwIf, hCondition]
  · simp [throwIf, hCondition]

/- A loop of checks passes when each of its checks does. -/
theorem forM_eq_ok_iff
    {α E : Type} {check : α → Except E Unit} {items : List α} :
    items.forM check = .ok () ↔
      ∀ item ∈ items, check item = .ok () := by
  induction items with
  | nil => exact iff_of_true rfl (List.forall_mem_nil _)
  | cons item items ih =>
      change (check item >>= fun _ => items.forM check) = _ ↔ _
      rw [List.forall_mem_cons, ← ih, bind_eq_ok]
      exact ⟨fun ⟨_, hItem, hRest⟩ => ⟨hItem, hRest⟩,
        fun ⟨hItem, hRest⟩ => ⟨(), hItem, hRest⟩⟩

/- An element of a tree, or the root of it. -/
inductive Below (tree : XMLElement) : XMLElement → Prop
  | root : Below tree tree
  | child
      {node child : XMLElement}
      (hNode : Below tree node)
      (hChild : child ∈ childElements node.children) :
      Below tree child

/- A level that is left for each element on the way. -/
theorem exists_levels_of_below
    {registered : Registered} {count levels : Nat}
    {tree node : XMLElement}
    (hStep : recursiveStep registered count levels tree = .ok ())
    (hBelow : Below tree node) :
    ∃ left, recursiveStep registered count left node = .ok () := by
  induction hBelow with
  | root => exact ⟨levels, hStep⟩
  | child hNode hChild ih =>
      obtain ⟨left, hLeft⟩ := ih
      cases left with
      | zero => cases hLeft
      | succ left =>
          rw [recursiveStep, bind_eq_ok] at hLeft
          obtain ⟨-, -, hChildren⟩ := hLeft
          exact ⟨left, forM_eq_ok_iff.mp hChildren _ hChild⟩

theorem checkNode_of_recursiveStep
    {registered : Registered} {count levels : Nat}
    {node : XMLElement}
    (hStep :
      recursiveStep registered count levels node = .ok ()) :
    checkNode registered count node = .ok () := by
  cases levels with
  | zero => cases hStep
  | succ levels =>
      rw [recursiveStep, bind_eq_ok] at hStep
      obtain ⟨⟨⟩, hCheck, -⟩ := hStep
      exact hCheck

/- Every node of every tree has passed its checks. -/
theorem checkNode_of_verifyXML
    {registered : Registered} {xmlText : Text}
    (hVerify : verifyXML registered xmlText = .ok ()) :
    ∃ doc xmlRoot,
      XMLDocument.parse xmlText = .ok doc ∧
        doc.rootElement = some xmlRoot ∧
        xmlRoot.name.text = "root".toList ∧
        ∀ tree ∈ childElementsNamed "BehaviorTree".toList
            xmlRoot.children,
          ∀ node, Below tree node →
            checkNode registered
              (childElements xmlRoot.children).length node =
                .ok () := by
  unfold verifyXML at hVerify
  cases hParse : XMLDocument.parse xmlText with
  | error e => simp [hParse] at hVerify
  | ok doc =>
      simp only [hParse] at hVerify
      cases hRoot : doc.rootElement with
      | none => simp [hRoot] at hVerify
      | some xmlRoot =>
          simp only [hRoot, bind_eq_ok] at hVerify
          obtain ⟨⟨⟩, hName, ⟨⟩, -, ⟨⟩, -, hTrees⟩ := hVerify
          have hNamed : xmlRoot.name.text = "root".toList :=
            not_not.mp (throwIf_eq_ok_iff.mp hName)
          refine ⟨doc, xmlRoot, rfl, hRoot, hNamed, ?_⟩
          intro tree hTree node hBelow
          obtain ⟨left, hLeft⟩ := exists_levels_of_below
            (forM_eq_ok_iff.mp hTrees tree hTree) hBelow
          exact checkNode_of_recursiveStep hLeft

/- How many children a registered node may have. -/
def Arity : NodeType → Nat → Prop
  | .undefined, _ => True
  | .action, count => count = 0
  | .condition, count => count = 0
  | .control, count => 0 < count
  | .decorator, count => count = 1
  | .subtree, _ => True

theorem arity_of_checkRegistered
    {registered : Registered} {lookupName : Text}
    {children : List XMLElement}
    (hCheck :
      checkRegistered registered lookupName children = .ok ()) :
    ∃ nodeType,
      registered lookupName = some nodeType ∧
        Arity nodeType children.length := by
  unfold checkRegistered at hCheck
  cases hType : registered lookupName with
  | none => simp [hType] at hCheck
  | some nodeType =>
      rw [hType] at hCheck
      refine ⟨nodeType, rfl, ?_⟩
      cases nodeType with
      | undefined | subtree => trivial
      | action | condition | decorator =>
          have hChildren := throwIf_eq_ok_iff.mp hCheck
          exact not_not.mp hChildren
      | control =>
          dsimp only at hCheck
          rw [bind_eq_ok] at hCheck
          obtain ⟨⟨⟩, hSome, -⟩ := hCheck
          exact Nat.pos_of_ne_zero (throwIf_eq_ok_iff.mp hSome)

/-
  A node that passes is a tree or a call of one, or the
  factory knows it and it has the children it needs.
-/
theorem arity_of_checkNode
    {registered : Registered} {count : Nat} {node : XMLElement}
    (hCheck : checkNode registered count node = .ok ()) :
    (node.name.text = "BehaviorTree".toList ∧
      (childElements node.children).length = 1) ∨
    (node.name.text = "SubTree".toList ∧
      (childElements node.children).length = 0) ∨
    ∃ lookupName nodeType,
      (lookupName = node.name.text ∨
        node.attributeValue "ID".toList = some lookupName) ∧
      registered lookupName = some nodeType ∧
        Arity nodeType (childElements node.children).length := by
  unfold checkNode at hCheck
  dsimp only at hCheck
  split_ifs at hCheck with hTag hTree hSubtree hBuiltin
  · unfold checkBehaviorTree at hCheck
    simp only [bind_eq_ok] at hCheck
    obtain ⟨⟨⟩, -, ⟨⟩, -, ⟨⟩, -, hChildren⟩ := hCheck
    exact .inl ⟨hTree,
      not_not.mp (throwIf_eq_ok_iff.mp hChildren)⟩
  · unfold checkSubTree at hCheck
    simp only [bind_eq_ok] at hCheck
    obtain ⟨⟨⟩, hChildren, -⟩ := hCheck
    exact .inr (.inl ⟨hSubtree,
      not_not.mp (throwIf_eq_ok_iff.mp hChildren)⟩)
  · obtain ⟨nodeType, hType, hArity⟩ :=
      arity_of_checkRegistered hCheck
    refine .inr (.inr ⟨_, nodeType, .inr ?_, hType, hArity⟩)
    cases hID : node.attributeValue "ID".toList with
    | none => exact absurd ⟨hBuiltin, by rw [hID]; rfl⟩ hTag
    | some ID => rfl
  · rw [bind_eq_ok] at hCheck
    obtain ⟨⟨⟩, -, hCheck⟩ := hCheck
    obtain ⟨nodeType, hType, hArity⟩ :=
      arity_of_checkRegistered hCheck
    exact .inr (.inr ⟨_, nodeType, .inl rfl, hType, hArity⟩)

end Xml

end Manipulator
