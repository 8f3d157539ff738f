import Manipulator.Scripting.Value
import Mathlib.Logic.Function.Basic

/-
  The blackboard: entries under keys, and parents in which a
  key is looked up under another name.

  A blackboard is itself and its ancestors up to the root. A
  pointer to an entry is the depth of the board that stores
  it and the key it is stored under there.

  Main declarations:
    * `Entry`, `Board`, `Blackboard`, `Address`
    * `Blackboard.getEntry`
    * `Blackboard.createEntryImpl`, `Blackboard.createEntry`
-/

------------------------------------------------------------
-- Entries And Boards
------------------------------------------------------------

namespace Manipulator

namespace Scripting

open Xml (Text)

/- `converter` may throw, with some text. -/
structure TypeInfo where
  type : TypeIndex
  converter : Option (Text → Except Text Any)

namespace TypeInfo

/- `TypeInfo()`, and with it `PortInfo()`. -/
def anyTypeAllowed : TypeInfo := ⟨.anyTypeAllowed, none⟩

def isStronglyTyped (info : TypeInfo) : Bool :=
  info.type ≠ .anyTypeAllowed && info.type ≠ .any

end TypeInfo

structure Entry where
  value : Any
  info : TypeInfo
  sequenceId : UInt64

/- `createEntryImpl` gives a new entry a type, and no value. -/
def Entry.new (info : TypeInfo) : Entry where
  value := .ofType info.type
  info := info
  sequenceId := 0

/- One blackboard, without its parent. -/
structure Board where
  storage : Text → Option Entry
  internalToExternal : Text → Option Text
  autoremapping : Bool

def isPrivateKey (key : Text) : Bool :=
  key.head? = some '_'

namespace Board

/-
  The key under which the parent is asked: the remapping
  first, then the same key.
-/
def externalKey (b : Board) (key : Text) : Option Text :=
  match b.internalToExternal key with
  | some external => some external
  | none =>
      if b.autoremapping && !isPrivateKey key then
        some key
      else
        none

def update (b : Board) (key : Text) (entry : Entry) : Board :=
  { b with storage := Function.update b.storage key (some entry) }

end Board

/- A root has no parent. -/
inductive Blackboard where
| root (board : Board)
| child (board : Board) (parent : Blackboard)

/- Where an entry is: the board, counted from below, and key. -/
structure Address where
  depth : Nat
  key : Text
deriving DecidableEq

def Address.up (a : Address) : Address := ⟨a.depth + 1, a.key⟩

inductive BlackboardError where
| multipleAt
| typeChanged (key : Text) (previous current : TypeIndex)
| missingParent
deriving DecidableEq

namespace Blackboard

def entryAt : Blackboard → Nat → Text → Option Entry
| .root b, 0, key => b.storage key
| .root _, _ + 1, _ => none
| .child b _, 0, key => b.storage key
| .child _ parent, depth + 1, key => parent.entryAt depth key

/- Write an entry at an address. -/
def put (entry : Entry) : Blackboard → Nat → Text → Blackboard
| .root b, 0, key => .root (b.update key entry)
| .root b, _ + 1, _ => .root b
| .child b parent, 0, key => .child (b.update key entry) parent
| .child b parent, depth + 1, key =>
    .child b (put entry parent depth key)

/- `StartWith(key, '@')`. -/
def isGlobal (key : Text) : Bool := key.head? = some '@'

/-
  `getEntry`: a key with `@` refers to the root, which takes
  off every `@`. Another key is looked up here and then, with
  the external key, in the parent.
-/
def getEntry : Blackboard → Text → Option Address
| .root b, key =>
    let key := key.dropWhile (· == '@')
    if (b.storage key).isSome then some ⟨0, key⟩ else none
| .child b parent, key =>
    if isGlobal key then
      (parent.getEntry key).map Address.up
    else if (b.storage key).isSome then
      some ⟨0, key⟩
    else
      match b.externalKey key with
      | some external => (parent.getEntry external).map Address.up
      | none => none

/- An entry that is there already may not change its type. -/
def checkType
    (key : Text) (info : TypeInfo) (entry : Entry) :
    Except BlackboardError Unit :=
  if entry.info.type ≠ info.type && entry.info.isStronglyTyped &&
      info.isStronglyTyped then
    .error (.typeChanged key entry.info.type info.type)
  else
    .ok ()

/- `createEntryImpl`, with the address of the entry. -/
def createEntryImpl (info : TypeInfo) :
    Blackboard → Text →
      Except BlackboardError (Address × Blackboard)
| .root b, key =>
    match b.storage key with
    | some entry =>
        (checkType key info entry).map
          fun _ => (⟨0, key⟩, .root b)
    | none =>
        match b.externalKey key with
        | some _ => .error .missingParent
        | none =>
            .ok (⟨0, key⟩, .root (b.update key (.new info)))
| .child b parent, key =>
    match b.storage key with
    | some entry =>
        (checkType key info entry).map
          fun _ => (⟨0, key⟩, .child b parent)
    | none =>
        match b.externalKey key with
        | some external =>
            (createEntryImpl info parent external).map
              fun r => (r.1.up, .child b r.2)
        | none =>
            .ok (⟨0, key⟩,
              .child (b.update key (.new info)) parent)

/- `rootBlackboard()->createEntryImpl`. -/
def createAtRoot (info : TypeInfo) :
    Blackboard → Text →
      Except BlackboardError (Address × Blackboard)
| .root b, key => createEntryImpl info (.root b) key
| .child b parent, key =>
    (createAtRoot info parent key).map
      fun r => (r.1.up, .child b r.2)

def createEntry
    (info : TypeInfo) (bb : Blackboard) (key : Text) :
    Except BlackboardError (Address × Blackboard) :=
  if isGlobal key then
    if '@' ∈ key.tail then
      .error .multipleAt
    else
      createAtRoot info bb key.tail
  else
    createEntryImpl info bb key

end Blackboard

end Scripting

end Manipulator
