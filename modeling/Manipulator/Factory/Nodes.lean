import Manipulator.Xml.Verify
import Manipulator.Scripting.Evaluate
import Manipulator.Scripting.Store

/-
  The nodes that the factory makes of the elements of a
  document: `createNodeFromXML` and `instantiateTreeNode`.

  The registered node types are a parameter, and so is the
  order in which the ports of a manifest are visited. No
  substitution rule is registered.

  Main declarations:
    * `PortInfo`, `TreeNodeManifest`, `NodeFactory`
    * `getRemappedKey`, `declarePort`
    * `NodeObject`, `createNodeFromXML`
    * `elementType`, `uid_of_createNodeFromXML`
-/

------------------------------------------------------------
-- Ports And Manifests
------------------------------------------------------------

namespace Manipulator

namespace Factory

open Xml (Text XMLElement NodeType)
open Scripting (TypeInfo TypeIndex Blackboard)

inductive PortDirection where
| input
| output
| inout
deriving DecidableEq

structure PortInfo extends TypeInfo where
  direction : PortDirection
  -- empty when there is no default
  defaultValueString : Text

structure TreeNodeManifest where
  -- also `type()` of the nodes that are built
  type : NodeType
  ports : List (Text × PortInfo)

structure NodeConfig where
  path : Text
  uid : Nat
  preConditions : List (Text × Text)
  postConditions : List (Text × Text)
  otherAttributes : List (Text × Text)
  inputPorts : List (Text × Text)
  outputPorts : List (Text × Text)

/-
  What is registered with the factory. The constructor of a
  node type may throw.
-/
structure NodeFactory where
  manifests : Text → Option TreeNodeManifest
  builder : Text → Text → NodeConfig → Except Text Unit
  -- `polymorphicCastRegistry().isConvertible`
  isConvertible : TypeIndex → TypeIndex → Bool
  -- the rounding of the numbers in scripts
  round : ℚ → Double ℚ

/- What is thrown while a tree is created. -/
inductive CreateError where
| notRegistered (name : Text)
| idNotAllowed (name : Text)
| idMandatory
| instanceName (name : Text)
| unknownPort (name : Text)
| notConvertible (name value : Text)
| missingManifest
| portType (key : Text) (previous current : TypeIndex)
| blackboard (error : Scripting.BlackboardError)
| set (error : Scripting.SetError)
| builder (text : Text)
| script (script : Text) (error : Scripting.ScriptRefused)
| decoratorHasChild
| nestedTooDeep
-- a null pointer is read: a tree without a node
| noRootNode
-- a null pointer is read: a SubTree without an ID
| noSubtreeID
| invalidBool (text : Text)
| mandatoryPort (subtree port : Text)
| duplicatePath (path : Text)
| cycle (tree : Text)
| treeNotFound (tree : Text)
| outOfFuel

------------------------------------------------------------
-- Attributes
------------------------------------------------------------

def openBrace : Char := Char.ofNat 123

def closeBrace : Char := Char.ofNat 125

def isAllowedPortName (name : Text) : Bool :=
  name.head?.any Char.isAlpha &&
    Xml.findForbiddenChar name = Xml.nul &&
      !Xml.isReservedAttribute name

/- `convertFromString<NodeType>`. -/
def nodeTypeOf (name : Text) : NodeType :=
  if name = "Action".toList then .action
  else if name = "Condition".toList then .condition
  else if name = "Control".toList then .control
  else if name = "Decorator".toList then .decorator
  else if name = "SubTree".toList then .subtree
  else .undefined

/- A control character that no document holds. -/
def isInvalidControl (c : Char) : Bool :=
  (c.toNat < 32 && c.toNat ≠ 9 && c.toNat ≠ 10 &&
    c.toNat ≠ 13) || c.toNat = 127

/- A name that the element gives is checked. -/
def validateInstanceName (element : XMLElement) :
    Except CreateError Unit :=
  match element.attributeValue "name".toList with
  | none => .ok ()
  | some name =>
      if name.any isInvalidControl then
        .error (.instanceName name)
      else
        .ok ()

/- The names and values of the attributes. -/
def attributePairs (element : XMLElement) : List (Text × Text) :=
  element.attributes.map fun att =>
    (att.name.text, att.value.getStr true)

/- `isBlackboardPointer`, with the stripped pointer. -/
def blackboardPointer (str : Text) : Option Text :=
  let str := str.dropWhile (· = ' ')
  let str := (str.reverse.dropWhile (· = ' ')).reverse
  if 3 ≤ str.length ∧ str.head? = some openBrace ∧
      str.getLast? = some closeBrace then
    some str.tail.dropLast
  else
    none

def getRemappedKey (portName remapped : Text) : Option Text :=
  if remapped = [openBrace, '=', closeBrace] ∨
      remapped = ['='] then
    some portName
  else
    blackboardPointer remapped

------------------------------------------------------------
-- Checks Of The Attributes
------------------------------------------------------------

/- The node type of a tag, and the name of its manifest. -/
def resolveID (factory : NodeFactory) (element : XMLElement) :
    Except CreateError (NodeType × Text) :=
  let name := element.name.text
  let nodeType := nodeTypeOf name
  match element.attributeValue "ID".toList with
  | none =>
      if nodeType ≠ .undefined then
        .error .idMandatory
      else if (factory.manifests name).isNone then
        .error (.notRegistered name)
      else
        .ok (nodeType, name)
  | some ID =>
      if nodeType ≠ .undefined then
        .ok (nodeType, ID)
      else if (factory.manifests name).isNone then
        .error (.notRegistered name)
      else
        .error (.idNotAllowed name)

/- A value that is no pointer has to be converted. -/
def checkValue (name value : Text) (port : PortInfo) :
    Except CreateError Unit :=
  let isBlackboard :=
    3 ≤ value.length ∧ value.head? = some openBrace ∧
      value.getLast? = some closeBrace
  match port.converter with
  | none => .ok ()
  | some converter =>
      if ¬ isBlackboard ∧ port.isStronglyTyped then
        match converter value with
        | .ok _ => .ok ()
        | .error _ => .error (.notConvertible name value)
      else
        .ok ()

def checkPort
    (manifest : Option TreeNodeManifest) (name value : Text) :
    Except CreateError Unit :=
  match manifest with
  | none => .ok ()
  | some manifest =>
      match manifest.ports.lookup name with
      | none => .error (.unknownPort name)
      | some port => checkValue name value port

/- `port_remap[port_name] = port_value`. -/
def assign (map : List (Text × Text)) (att : Text × Text) :
    List (Text × Text) :=
  map.filter (·.1 ≠ att.1) ++ [att]

def portRemap (element : XMLElement) : List (Text × Text) :=
  ((attributePairs element).filter
    (isAllowedPortName ·.1)).foldl assign []

def otherAttributes (element : XMLElement) :
    List (Text × Text) :=
  ((attributePairs element).filter fun att =>
    !isAllowedPortName att.1 &&
      !Xml.isReservedAttribute att.1).foldl assign []

/- The ports of the attributes, each checked in its turn. -/
def checkPorts
    (manifest : Option TreeNodeManifest) (element : XMLElement) :
    Except CreateError Unit :=
  (attributePairs element).forM fun att =>
    if isAllowedPortName att.1 then
      checkPort manifest att.1 att.2
    else
      .ok ()

def preCondNames : List Text :=
  ["_failureIf".toList, "_successIf".toList, "_skipIf".toList,
    "_while".toList]

def postCondNames : List Text :=
  ["_onHalted".toList, "_onFailure".toList,
    "_onSuccess".toList, "_post".toList]

/- `AddCondition`, of each name. -/
def conditions (names : List Text) (element : XMLElement) :
    List (Text × Text) :=
  names.filterMap fun name =>
    (element.attributeValue name).map fun script =>
      (name, script)

------------------------------------------------------------
-- Ports Of A Node
------------------------------------------------------------

/- A port that an attribute has connected to a value. -/
structure Connection where
  port : Text
  info : PortInfo
  value : Text

def connections
    (manifest : TreeNodeManifest) (remap : List (Text × Text)) :
    List Connection :=
  manifest.ports.filterMap fun (port, info) =>
    (remap.lookup port).map fun value => ⟨port, info, value⟩

/- The types of a port and of the entry it leads to. -/
def portTypeMismatch
    (factory : NodeFactory) (previous : TypeInfo)
    (port : PortInfo) : Bool :=
  previous.isStronglyTyped && port.isStronglyTyped &&
    previous.type ≠ port.type &&
      !(port.direction = .input &&
        factory.isConvertible previous.type port.type)

/-
  A port that leads to a key gets an entry there, or has to
  agree with the one that is there.
-/
def declarePort
    (factory : NodeFactory) (bb : Blackboard) (c : Connection) :
    Except CreateError Blackboard :=
  match getRemappedKey c.port c.value with
  | none => .ok bb
  | some key =>
      match (bb.getEntry key).bind
          fun a => bb.entryAt a.depth a.key with
      | some previous =>
          if portTypeMismatch factory previous.info c.info &&
              previous.info.type ≠ .string then
            .error
              (.portType key previous.info.type c.info.type)
          else
            .ok bb
      | none =>
          match bb.createEntry c.info.toTypeInfo key with
          | .ok (_, bb) => .ok bb
          | .error e => .error (.blackboard e)

/- The ports of a direction, then the defaults of the rest. -/
def portsOf
    (excluded : PortDirection) (usable : Text → Bool)
    (manifest : TreeNodeManifest) (remap : List (Text × Text)) :
    List (Text × Text) :=
  let given := remap.filter fun att =>
    (manifest.ports.lookup att.1).any (·.direction ≠ excluded)
  given ++ manifest.ports.filterMap fun (port, info) =>
    if info.defaultValueString ≠ [] ∧
        info.direction ≠ excluded ∧
        given.lookup port = none ∧
        usable info.defaultValueString then
      some (port, info.defaultValueString)
    else
      none

/- A default of an output has to be a pointer. -/
def inputPorts := portsOf .output fun _ => true

def outputPorts :=
  portsOf .input fun value => (blackboardPointer value).isSome

------------------------------------------------------------
-- Nodes
------------------------------------------------------------

structure NodeObject where
  name : Text
  registrationID : Text
  -- the ID of a SubTree, and else the registration ID
  typeID : Text
  type : NodeType
  config : NodeConfig
  -- the ports that were declared on the blackboard
  connections : List Connection

/-
  A tree while it is created: `uid_counter_`, the names of
  its subtrees, and the blackboard of the one at hand.
-/
structure Building where
  uidCounter : Nat
  subtrees : List Text
  blackboard : Blackboard

/- `instantiateTreeNode`; the result is the node's type. -/
def instantiateTreeNode
    (factory : NodeFactory)
    (name ID : Text) (config : NodeConfig) :
    Except CreateError NodeType :=
  match factory.manifests ID with
  | none => .error (.notRegistered ID)
  | some manifest =>
      match factory.builder ID name config with
      | .error text => .error (.builder text)
      | .ok () => do
          (config.preConditions ++ config.postConditions).forM
            fun cond =>
              match Scripting.parseScript factory.round
                  cond.2 with
              | .ok _ => .ok ()
              | .error e => .error (.script cond.2 e)
          pure manifest.type

/- The ports, and what they leave on the blackboard. -/
def declarePorts
    (factory : NodeFactory) (bb : Blackboard)
    (cs : List Connection) : Except CreateError Blackboard :=
  cs.foldlM (declarePort factory) bb

/- The path of a node that has no name of its own ends in it. -/
def nodePath (path typeID name : Text) (uid : Nat) : Text :=
  path ++ name ++
    if typeID = name then
      "::".toList ++ (toString uid).toList
    else
      []

/- `getUID`: the counter has 16 bits. -/
def nextUID (state : Building) : Nat :=
  (state.uidCounter + 1) % 2 ^ 16

/- The configuration of a node, but for its ports. -/
def nodeConfig
    (element : XMLElement) (path typeID name : Text) (uid : Nat)
    (inputs outputs : List (Text × Text)) : NodeConfig where
  path := nodePath path typeID name uid
  uid := uid
  preConditions := conditions preCondNames element
  postConditions := conditions postCondNames element
  otherAttributes := otherAttributes element
  inputPorts := inputs
  outputPorts := outputs

/- `name`, and the type ID when there is none. -/
def instanceName (element : XMLElement) (typeID : Text) : Text :=
  (element.attributeValue "name".toList).getD typeID

/- A node for a tag `SubTree`, whose ports are not declared. -/
def createSubtreeNode
    (factory : NodeFactory)
    (path : Text) (element : XMLElement) (typeID : Text)
    (state : Building) :
    Except CreateError (NodeObject × Building) := do
  let name := instanceName element typeID
  let uid := nextUID state
  let config := nodeConfig element path typeID name uid
    (portRemap element) []
  let type ← instantiateTreeNode factory name
    "SubTree".toList config
  pure
    (⟨name, "SubTree".toList, typeID, type, config, []⟩,
      { state with uidCounter := uid })

/- A node for every other tag. -/
def createTreeNode
    (factory : NodeFactory)
    (path : Text) (element : XMLElement) (typeID : Text)
    (state : Building) :
    Except CreateError (NodeObject × Building) := do
  let name := instanceName element typeID
  let uid := nextUID state
  match factory.manifests typeID with
  | none => .error .missingManifest
  | some manifest => do
      let remap := portRemap element
      let cs := connections manifest remap
      let bb ← declarePorts factory state.blackboard cs
      let config := nodeConfig element path typeID name uid
        (inputPorts manifest remap) (outputPorts manifest remap)
      let type ← instantiateTreeNode factory name typeID config
      pure
        (⟨name, typeID, typeID, type, config, cs⟩,
          { state with uidCounter := uid, blackboard := bb })

def createNode
    (factory : NodeFactory)
    (path : Text) (element : XMLElement)
    (resolved : NodeType × Text) (state : Building) :
    Except CreateError (NodeObject × Building) :=
  if resolved.1 = .subtree then
    createSubtreeNode factory path element resolved.2 state
  else
    createTreeNode factory path element resolved.2 state

/- `setChild`: a decorator that has a child refuses another. -/
def attach
    (hasChild : Bool) (created : NodeObject × Building) :
    Except CreateError (NodeObject × Building) :=
  if hasChild then .error .decoratorHasChild else .ok created

/- `createNodeFromXML`. -/
def createNodeFromXML
    (factory : NodeFactory)
    (hasChild : Bool) (path : Text) (element : XMLElement)
    (state : Building) :
    Except CreateError (NodeObject × Building) := do
  let resolved ← resolveID factory element
  validateInstanceName element
  checkPorts (factory.manifests resolved.2) element
  let created ← createNode factory path element resolved state
  attach hasChild created

------------------------------------------------------------
-- What Is Created
------------------------------------------------------------

/- The type of the node that an element becomes. -/
def elementType (factory : NodeFactory) (element : XMLElement) :
    Option NodeType :=
  match resolveID factory element with
  | .error _ => none
  | .ok (nodeType, typeID) =>
      (factory.manifests
        (if nodeType = .subtree then "SubTree".toList
          else typeID)).map (·.type)

variable {factory : NodeFactory}

theorem type_of_instantiateTreeNode
    {name ID : Text} {config : NodeConfig} {type : NodeType}
    (hNode :
      instantiateTreeNode factory name ID config = .ok type) :
    (factory.manifests ID).map (·.type) = some type := by
  unfold instantiateTreeNode at hNode
  cases hManifest : factory.manifests ID with
  | none => simp only [hManifest] at hNode; cases hNode
  | some manifest =>
      simp only [hManifest] at hNode
      cases hBuilt : factory.builder ID name config with
      | error text => simp only [hBuilt] at hNode; cases hNode
      | ok u =>
          simp only [hBuilt, bind_eq_ok, pure_eq_ok] at hNode
          rcases hNode with ⟨-, -, rfl⟩
          rfl

/- What a node for a tag `SubTree` is. -/
theorem createSubtreeNode_eq_ok
    {path : Text} {element : XMLElement} {typeID : Text}
    {object : NodeObject} {s s' : Building}
    (hNode :
      createSubtreeNode factory path element typeID s =
        .ok (object, s')) :
    (factory.manifests "SubTree".toList).map (·.type) =
        some object.type ∧
      object.config.uid = nextUID s ∧
      object.config.path =
        nodePath path object.typeID object.name (nextUID s) ∧
      object.connections = [] ∧
      s' = { s with uidCounter := nextUID s } := by
  unfold createSubtreeNode at hNode
  simp only [bind_eq_ok, pure_eq_ok] at hNode
  rcases hNode with ⟨type, hType, hSame⟩
  cases hSame
  exact ⟨type_of_instantiateTreeNode hType, rfl, rfl, rfl, rfl⟩

/- What a node for another tag is. -/
theorem createTreeNode_eq_ok
    {path : Text} {element : XMLElement} {typeID : Text}
    {object : NodeObject} {s s' : Building}
    (hNode :
      createTreeNode factory path element typeID s =
        .ok (object, s')) :
    ∃ manifest bb,
      factory.manifests typeID = some manifest ∧
        object.type = manifest.type ∧
        object.config.uid = nextUID s ∧
        object.config.path =
          nodePath path object.typeID object.name (nextUID s) ∧
        object.connections =
          connections manifest (portRemap element) ∧
        declarePorts factory s.blackboard object.connections =
          .ok bb ∧
        s' =
          { s with uidCounter := nextUID s, blackboard := bb } := by
  unfold createTreeNode at hNode
  cases hManifest : factory.manifests typeID with
  | none => simp only [hManifest] at hNode; cases hNode
  | some manifest =>
      simp only [hManifest, bind_eq_ok, pure_eq_ok] at hNode
      rcases hNode with ⟨bb, hPorts, type, hType, hSame⟩
      cases hSame
      have hSome := type_of_instantiateTreeNode hType
      rw [hManifest] at hSome
      exact ⟨manifest, bb, rfl, (Option.some.inj hSome).symm,
        rfl, rfl, rfl, hPorts, rfl⟩

/- A node that is created was resolved and attached. -/
theorem createNode_of_createNodeFromXML
    {hasChild : Bool} {path : Text} {element : XMLElement}
    {object : NodeObject} {s s' : Building}
    (hNode :
      createNodeFromXML factory hasChild path element s =
        .ok (object, s')) :
    ∃ resolved,
      resolveID factory element = .ok resolved ∧
        createNode factory path element resolved s =
          .ok (object, s') := by
  unfold createNodeFromXML at hNode
  simp only [bind_eq_ok] at hNode
  rcases hNode with
    ⟨resolved, hResolved, -, -, -, -, created, hCreated, hAttach⟩
  unfold attach at hAttach
  split at hAttach
  · cases hAttach
  · cases hAttach
    exact ⟨resolved, hResolved, hCreated⟩

theorem elementType_of_createNodeFromXML
    {hasChild : Bool} {path : Text} {element : XMLElement}
    {object : NodeObject} {s s' : Building}
    (hNode :
      createNodeFromXML factory hasChild path element s =
        .ok (object, s')) :
    elementType factory element = some object.type := by
  rcases createNode_of_createNodeFromXML hNode with
    ⟨⟨nodeType, typeID⟩, hResolved, hCreated⟩
  unfold elementType
  rw [hResolved]
  unfold createNode at hCreated
  simp only at hCreated ⊢
  split at hCreated
  · next hSubtree =>
      rw [if_pos hSubtree]
      exact (createSubtreeNode_eq_ok hCreated).1
  · next hOther =>
      rw [if_neg hOther]
      rcases createTreeNode_eq_ok hCreated with
        ⟨manifest, bb, hManifest, hType, -⟩
      rw [hManifest, hType]
      rfl

/- Each node takes the next number. -/
theorem uid_of_createNodeFromXML
    {hasChild : Bool} {path : Text} {element : XMLElement}
    {object : NodeObject} {s s' : Building}
    (hNode :
      createNodeFromXML factory hasChild path element s =
        .ok (object, s')) :
    object.config.uid = nextUID s ∧
      s'.uidCounter = nextUID s ∧
      s'.subtrees = s.subtrees := by
  rcases createNode_of_createNodeFromXML hNode with
    ⟨resolved, -, hCreated⟩
  unfold createNode at hCreated
  split at hCreated
  · rcases createSubtreeNode_eq_ok hCreated with
      ⟨-, hUID, -, -, rfl⟩
    exact ⟨hUID, rfl, rfl⟩
  · rcases createTreeNode_eq_ok hCreated with
      ⟨manifest, bb, -, -, hUID, -, -, -, rfl⟩
    exact ⟨hUID, rfl, rfl⟩

theorem path_of_createNodeFromXML
    {hasChild : Bool} {path : Text} {element : XMLElement}
    {object : NodeObject} {s s' : Building}
    (hNode :
      createNodeFromXML factory hasChild path element s =
        .ok (object, s')) :
    object.config.path =
      nodePath path object.typeID object.name
        object.config.uid := by
  rcases createNode_of_createNodeFromXML hNode with
    ⟨resolved, -, hCreated⟩
  unfold createNode at hCreated
  split at hCreated
  · rcases createSubtreeNode_eq_ok hCreated with
      ⟨-, hUID, hPath, -⟩
    rw [hPath, hUID]
  · rcases createTreeNode_eq_ok hCreated with
      ⟨manifest, bb, -, -, hUID, hPath, -⟩
    rw [hPath, hUID]

end Factory

end Manipulator
