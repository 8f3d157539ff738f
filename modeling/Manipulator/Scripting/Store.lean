import Manipulator.Machine
import Manipulator.Scripting.Addressing

/-
  Writing to a blackboard from a node: `Blackboard::set`.

  A key that is stored on the board itself is checked against
  the type of its entry. A key that is not stored there goes
  to `createEntryImpl`, and the value that it has is replaced
  without a check of the value.

  Main declarations:
    * `SetValue`, `Blackboard.set`
    * `Blackboard.addSubtreeRemapping`
    * `Settles`, `settles_set`
-/

------------------------------------------------------------
-- Types That Are Set
------------------------------------------------------------

namespace Manipulator

namespace Scripting

open Xml (Text)

/- What `set<T>` asks of its type besides its name. -/
inductive SetForm where
-- `std::string`
| string
-- a number, with `isCastingSafe` of it
| arithmetic (isCastingSafe : TypeIndex → Bool)
-- `BT::Any`
| any
| other

/- A value of a type `T`, as an `Any`. -/
structure SetValue where
  form : SetForm
  -- `TypeInfo::Create<T>()`
  info : TypeInfo
  value : Any

inductive SetError where
| blackboard (error : BlackboardError)
-- the type of a port shall not change
| typeChanged (key : Text) (previous current : TypeIndex)
| converter (text : Text)
| any (error : AnyError)
deriving DecidableEq

/- `set<std::string>`. -/
def SetValue.ofString (text : Text) : SetValue where
  form := .string
  info := ⟨.string, some fun str => .ok (.ofString str)⟩
  value := .ofString text

/- The type of an entry that is created by `set`. -/
def SetValue.created (v : SetValue) : TypeInfo :=
  match v.form with
  | .string => .anyTypeAllowed
  | _ => ⟨v.value.type, v.info.converter⟩

/-
  A value of another type than that of its entry: a text is
  parsed, and a number may be cast.
-/
def SetValue.convert
    (v : SetValue) (key : Text) (previous : TypeInfo) :
    Except SetError Any :=
  let mismatch : Except SetError Any :=
    .error (.typeChanged key previous.type v.info.type)
  match v.form, v.value.held with
  | .string, .string text =>
      match previous.converter with
      | none => mismatch
      | some converter =>
          match converter text with
          | .error text => .error (.converter text)
          | .ok parsed =>
              if parsed.isEmpty then mismatch else .ok parsed
  | .arithmetic isCastingSafe, _ =>
      if isCastingSafe previous.type then
        .ok v.value
      else
        mismatch
  | _, _ => mismatch

/- The type check of an entry with a declared type. -/
def SetValue.checked
    (v : SetValue) (key : Text) (entry : Entry) :
    Except SetError Any :=
  if entry.info.type ≠ v.info.type ∧
      entry.info.type ≠ v.value.type then
    v.convert key entry.info
  else
    .ok v.value

variable (round : ℚ → Double ℚ)

/- `set<BT::Any>` replaces the value. -/
def SetValue.written
    (v : SetValue) (value : Any) (entry : Entry) :
    Except SetError Any :=
  match v.form with
  | .any => .ok value
  | _ => (value.copyInto round entry.value).mapError SetError.any

/- An entry that is on the board already. -/
def SetValue.update
    (v : SetValue) (key : Text) (entry : Entry) :
    Except SetError Entry :=
  if !entry.info.isStronglyTyped then
    .ok
      { value := v.value
        info := v.info
        sequenceId := entry.sequenceId + 1 }
  else do
    let value ← v.checked key entry
    let value ← v.written round value entry
    pure
      { entry with
        value := value
        sequenceId := entry.sequenceId + 1 }

namespace Blackboard

/- `rootBlackboard()` and what is done there. -/
def atRoot
    {ε : Type} (change : Blackboard → Except ε Blackboard) :
    Blackboard → Except ε Blackboard
| .root b => change (.root b)
| .child b parent =>
    (atRoot change parent).map (Blackboard.child b)

/- `set`, of a key without `@`. -/
def setLocal
    (v : SetValue) (key : Text) (bb : Blackboard) :
    Except SetError Blackboard :=
  match bb.entryAt 0 key with
  | some entry =>
      (v.update round key entry).map
        fun entry => bb.put entry 0 key
  | none =>
      match createEntryImpl v.created bb key with
      | .error e => .error (.blackboard e)
      | .ok (a, bb) =>
          match bb.entryAt a.depth a.key with
          | none => .ok bb
          | some entry =>
              .ok (bb.put
                { entry with
                  value := v.value
                  sequenceId := entry.sequenceId + 1 }
                a.depth a.key)

def set
    (v : SetValue) (key : Text) (bb : Blackboard) :
    Except SetError Blackboard :=
  if isGlobal key then
    -- the root takes off every `@`
    atRoot (setLocal round v (key.dropWhile (· == '@'))) bb
  else
    setLocal round v key bb

------------------------------------------------------------
-- Boards Of Subtrees
------------------------------------------------------------

def board : Blackboard → Board
| .root b => b
| .child b _ => b

/- The root is left as it is. -/
def parent : Blackboard → Blackboard
| .root b => .root b
| .child _ parent => parent

def withBoard (change : Board → Board) :
    Blackboard → Blackboard
| .root b => .root (change b)
| .child b parent => .child (change b) parent

/- `insert`: a key that is remapped already stays so. -/
def addSubtreeRemapping
    (bb : Blackboard) (internal external : Text) :
    Blackboard :=
  bb.withBoard fun b =>
    if (b.internalToExternal internal).isSome then
      b
    else
      { b with
        internalToExternal := Function.update
          b.internalToExternal internal (some external) }

def enableAutoRemapping
    (bb : Blackboard) (remapping : Bool) : Blackboard :=
  bb.withBoard fun b => { b with autoremapping := remapping }

------------------------------------------------------------
-- Declared Types
------------------------------------------------------------

/-
  Entries are added, and a declared type stays: only an entry
  without one may be given a type, one that is allowed.
-/
structure Settles
    (allowed : TypeInfo → Prop)
    (bb bb' : Blackboard) : Prop where
  grows : Grows bb bb'
  info : ∀ d k entry, bb.entryAt d k = some entry →
    ∃ entry', bb'.entryAt d k = some entry' ∧
      (entry'.info = entry.info ∨
        entry.info.isStronglyTyped = false ∧
          allowed entry'.info)

namespace Settles

variable {allowed : TypeInfo → Prop}

theorem refl (bb : Blackboard) : Settles allowed bb bb where
  grows := .refl bb
  info _ _ entry hEntry := ⟨entry, hEntry, .inl rfl⟩

theorem trans
    {bb bb' bb'' : Blackboard}
    (hFirst : Settles allowed bb bb')
    (hSecond : Settles allowed bb' bb'') :
    Settles allowed bb bb'' where
  grows := hFirst.grows.trans hSecond.grows
  info d k entry hEntry := by
    rcases hFirst.info d k entry hEntry with
      ⟨entry', hEntry', hInfo⟩
    rcases hSecond.info d k entry' hEntry' with
      ⟨entry'', hEntry'', hInfo'⟩
    refine ⟨entry'', hEntry'', ?_⟩
    rcases hInfo with hSame | ⟨hFree, hAllowed⟩
    · rw [hSame] at hInfo'
      exact hInfo'
    · rcases hInfo' with hSame' | ⟨-, hAllowed'⟩
      · exact .inr ⟨hFree, hSame' ▸ hAllowed⟩
      · exact .inr ⟨hFree, hAllowed'⟩

theorem child
    {parent parent' : Blackboard}
    (hSettles : Settles allowed parent parent')
    (b : Board) :
    Settles allowed (.child b parent) (.child b parent') where
  grows := hSettles.grows.child b
  info d k entry hEntry := by
    cases d with
    | zero => exact ⟨entry, hEntry, .inl rfl⟩
    | succ d => exact hSettles.info d k entry hEntry

/- What has a parent keeps it, and the parent settles. -/
theorem parent
    {b : Board} {parent bb : Blackboard}
    (hSettles : Settles allowed (.child b parent) bb) :
    ∃ b' parent',
      bb = .child b' parent' ∧
        Settles allowed parent parent' := by
  cases bb with
  | root b' => cases hSettles.grows.bare
  | child b' parent' =>
      exact ⟨b', parent', rfl, hSettles.grows.parent,
        fun d => hSettles.info (d + 1)⟩

end Settles

variable {allowed : TypeInfo → Prop}

/- An entry is written over. -/
theorem settles_put
    {bb : Blackboard} {depth : Nat} {key : Text}
    {entry entry' : Entry}
    (hEntry : bb.entryAt depth key = some entry)
    (hInfo : entry'.info = entry.info ∨
      entry.info.isStronglyTyped = false ∧
        allowed entry'.info) :
    Settles allowed bb (bb.put entry' depth key) := by
  have hBoard : (bb.boardAt depth).isSome :=
    isSome_boardAt bb depth key (by rw [hEntry]; rfl)
  have hPut := entryAt_put entry' bb depth key hBoard
  exact {
    grows := {
      bare := bare_put entry' bb depth key
      kept := fun d k hSome => by
        rw [hPut]
        split
        · rfl
        · exact hSome
      added := fun d k hSome => by
        rw [hPut] at hSome
        split at hSome
        · next hHere =>
            rcases hHere with ⟨rfl, rfl⟩
            exact .inl (by rw [hEntry]; rfl)
        · exact .inl hSome }
    info := fun d k old hOld => by
      rw [hPut]
      by_cases hHere : d = depth ∧ k = key
      · rw [if_pos hHere]
        rcases hHere with ⟨rfl, rfl⟩
        rw [hEntry] at hOld
        cases hOld
        exact ⟨entry', rfl, hInfo⟩
      · rw [if_neg hHere]
        exact ⟨old, hOld, .inl rfl⟩ }

theorem settles_of_added
    {info : TypeInfo} {bb bb' : Blackboard} {a : Address}
    (hAdded : Added info bb a bb') : Settles allowed bb bb' where
  grows := hAdded.grows
  info d k entry hEntry := by
    rw [hAdded.entryAt]
    by_cases hHere : d = a.depth ∧ k = a.key
    · rcases hHere with ⟨rfl, rfl⟩
      rw [hAdded.absent] at hEntry
      cases hEntry
    · rw [if_neg hHere]
      exact ⟨entry, hEntry, .inl rfl⟩

/- What is created or found, and that it is there. -/
theorem settles_of_effect
    {info : TypeInfo} {bb bb' : Blackboard} {a : Address}
    (hEffect :
      bb' = bb ∧ (bb.entryAt a.depth a.key).isSome ∨
        Added info bb a bb') :
    Settles allowed bb bb' ∧
      (bb'.entryAt a.depth a.key).isSome := by
  rcases hEffect with ⟨rfl, hEntry⟩ | hAdded
  · exact ⟨.refl bb', hEntry⟩
  · refine ⟨settles_of_added hAdded, ?_⟩
    rw [hAdded.entryAt, if_pos ⟨rfl, rfl⟩]
    rfl

theorem info_update
    {v : SetValue} {key : Text} {entry entry' : Entry}
    (hUpdate : v.update round key entry = .ok entry') :
    entry'.info = entry.info ∨
      entry.info.isStronglyTyped = false ∧
        entry'.info = v.info := by
  unfold SetValue.update at hUpdate
  split at hUpdate
  · next hFree =>
      cases hUpdate
      exact .inr ⟨by simpa using hFree, rfl⟩
  · simp only [bind_eq_ok, pure_eq_ok] at hUpdate
    rcases hUpdate with ⟨value, -, written, -, rfl⟩
    exact .inl rfl

theorem settles_setLocal
    {v : SetValue} {key : Text} {bb bb' : Blackboard}
    (hAllowed : allowed v.info)
    (hSet : setLocal round v key bb = .ok bb') :
    Settles allowed bb bb' := by
  unfold setLocal at hSet
  cases hEntry : bb.entryAt 0 key with
  | some entry =>
      simp only [hEntry] at hSet
      cases hUpdate : v.update round key entry with
      | error e => rw [hUpdate] at hSet; cases hSet
      | ok entry' =>
          rw [hUpdate] at hSet
          cases hSet
          refine settles_put hEntry ?_
          rcases info_update round hUpdate with
            hSame | ⟨hFree, hNew⟩
          · exact .inl hSame
          · exact .inr ⟨hFree, hNew ▸ hAllowed⟩
  | none =>
      simp only [hEntry] at hSet
      cases hCreate : createEntryImpl v.created bb key with
      | error e => rw [hCreate] at hSet; cases hSet
      | ok r =>
          rcases r with ⟨a, mid⟩
          have hEffect := (createEntryImpl_spec hCreate).2
          rcases settles_of_effect hEffect with
            ⟨hSettles, hSome⟩
          simp only [hCreate] at hSet
          cases hFound : mid.entryAt a.depth a.key with
          | none => rw [hFound] at hSome; cases hSome
          | some entry =>
              simp only [hFound] at hSet
              cases hSet
              exact hSettles.trans
                (settles_put hFound (.inl rfl))

theorem settles_atRoot
    {ε : Type} {change : Blackboard → Except ε Blackboard}
    (hChange : ∀ bb bb', change bb = .ok bb' →
      Settles allowed bb bb')
    {bb bb' : Blackboard}
    (hAtRoot : atRoot change bb = .ok bb') :
    Settles allowed bb bb' := by
  induction bb generalizing bb' with
  | root b => exact hChange _ _ hAtRoot
  | child b parent ih =>
      unfold atRoot at hAtRoot
      cases hParent : atRoot change parent with
      | error e => rw [hParent] at hAtRoot; cases hAtRoot
      | ok parent' =>
          rw [hParent] at hAtRoot
          cases hAtRoot
          exact (ih hParent).child b

/- A declared type is never changed by `set`. -/
theorem settles_set
    {v : SetValue} {key : Text} {bb bb' : Blackboard}
    (hAllowed : allowed v.info)
    (hSet : set round v key bb = .ok bb') :
    Settles allowed bb bb' := by
  unfold set at hSet
  split at hSet
  · exact settles_atRoot
      (fun _ _ => settles_setLocal round hAllowed) hSet
  · exact settles_setLocal round hAllowed hSet

end Blackboard

end Scripting

end Manipulator
