import Manipulator.Scripting.Blackboard

/-
  Where the keys of a blackboard lead.

  The remappings never change. While entries are only added,
  and only where a key leads to no other board, a key that
  is found goes on being found at the same address, and a
  key that is not found goes on leading to the same place.

  Main declarations:
    * `Blackboard.entryAt_put`, `Blackboard.eq_of_bare`
    * `Blackboard.createEntry_spec`
    * `Grows.getEntry_eq`, `Grows.target_eq`
    * `LocalPath`, `getEntry_of_createEntry`
-/

------------------------------------------------------------
-- Boards Without Entries
------------------------------------------------------------

namespace Manipulator

namespace Scripting

open Xml (Text)

namespace Board

def bare (b : Board) : Board := { b with storage := fun _ => none }

theorem externalKey_bare (b : Board) (key : Text) :
    b.bare.externalKey key = b.externalKey key := rfl

theorem externalKey_of_bare
    {b b' : Board}
    (hBare : b'.bare = b.bare)
    (key : Text) : b'.externalKey key = b.externalKey key := by
  rw [← externalKey_bare b', hBare, externalKey_bare]

end Board

namespace Blackboard

/- A blackboard without its entries: what is never changed. -/
def bare : Blackboard → Blackboard
| .root b => .root b.bare
| .child b parent => .child b.bare parent.bare

def boardAt : Blackboard → Nat → Option Board
| .root b, 0 => some b
| .root _, _ + 1 => none
| .child b _, 0 => some b
| .child _ parent, depth + 1 => parent.boardAt depth

/- The external key of a key at a depth. -/
def externalAt (bb : Blackboard) (depth : Nat) (key : Text) :
    Option Text :=
  (bb.boardAt depth).bind fun b => b.externalKey key

theorem boardAt_bare (bb : Blackboard) (depth : Nat) :
    bb.bare.boardAt depth = (bb.boardAt depth).map Board.bare := by
  induction bb generalizing depth with
  | root b =>
      cases depth with
      | zero => rfl
      | succ depth => rfl
  | child b parent ih =>
      cases depth with
      | zero => rfl
      | succ depth => exact ih depth

theorem externalAt_bare
    (bb : Blackboard) (depth : Nat) (key : Text) :
    bb.bare.externalAt depth key = bb.externalAt depth key := by
  unfold externalAt
  rw [boardAt_bare]
  cases bb.boardAt depth with
  | none => rfl
  | some b => rfl

theorem externalAt_of_bare
    {bb bb' : Blackboard}
    (hBare : bb'.bare = bb.bare)
    (depth : Nat) (key : Text) :
    bb'.externalAt depth key = bb.externalAt depth key := by
  rw [← externalAt_bare bb', hBare, externalAt_bare]

------------------------------------------------------------
-- Reading And Writing
------------------------------------------------------------

theorem bare_put
    (entry : Entry) (bb : Blackboard)
    (depth : Nat) (key : Text) :
    (bb.put entry depth key).bare = bb.bare := by
  induction bb generalizing depth with
  | root b =>
      cases depth with
      | zero => rfl
      | succ depth => rfl
  | child b parent ih =>
      cases depth with
      | zero => rfl
      | succ depth =>
          exact congrArg (Blackboard.child b.bare) (ih depth)

/- What is written is read, and nothing else changes. -/
theorem entryAt_put
    (entry : Entry) (bb : Blackboard)
    (depth : Nat) (key : Text)
    (hBoard : (bb.boardAt depth).isSome)
    (d : Nat) (k : Text) :
    (bb.put entry depth key).entryAt d k =
      if d = depth ∧ k = key then some entry
      else bb.entryAt d k := by
  induction bb generalizing depth d with
  | root b =>
      cases depth with
      | succ depth => cases hBoard
      | zero =>
          cases d with
          | succ d => simp [put, entryAt]
          | zero =>
              simp [put, entryAt, Board.update,
                Function.update_apply]
  | child b parent ih =>
      cases depth with
      | zero =>
          cases d with
          | succ d => simp [put, entryAt]
          | zero =>
              simp [put, entryAt, Board.update,
                Function.update_apply]
      | succ depth =>
          cases d with
          | zero => simp [put, entryAt]
          | succ d =>
              simpa [put, entryAt] using ih depth hBoard d

theorem isSome_boardAt
    (bb : Blackboard) (depth : Nat) (key : Text)
    (hEntry : (bb.entryAt depth key).isSome) :
    (bb.boardAt depth).isSome := by
  induction bb generalizing depth with
  | root b =>
      cases depth with
      | zero => rfl
      | succ depth => cases hEntry
  | child b parent ih =>
      cases depth with
      | zero => rfl
      | succ depth => exact ih depth hEntry

/- Two blackboards are their boards and their entries. -/
theorem eq_of_bare
    {bb bb' : Blackboard}
    (hBare : bb'.bare = bb.bare)
    (hEntries : ∀ d k, bb'.entryAt d k = bb.entryAt d k) :
    bb' = bb := by
  have hBoard (b b' : Board) (hEq : b'.bare = b.bare)
      (hStorage : ∀ k, b'.storage k = b.storage k) :
      b' = b := by
    cases b
    cases b'
    simp only [Board.bare, Board.mk.injEq, true_and] at hEq
    rcases hEq with ⟨rfl, rfl⟩
    rw [Board.mk.injEq]
    exact ⟨funext hStorage, rfl, rfl⟩
  induction bb generalizing bb' with
  | root b =>
      cases bb' with
      | child b' parent' => cases hBare
      | root b' =>
          injection hBare with hEq
          rw [hBoard b b' hEq (hEntries 0)]
  | child b parent ih =>
      cases bb' with
      | root b' => cases hBare
      | child b' parent' =>
          injection hBare with hEq hParent
          rw [hBoard b b' hEq (hEntries 0),
            ih hParent fun d => hEntries (d + 1)]

------------------------------------------------------------
-- Where Entries Are Found
------------------------------------------------------------

theorem isSome_getEntry
    {bb : Blackboard} {key : Text} {a : Address}
    (hGet : bb.getEntry key = some a) :
    (bb.entryAt a.depth a.key).isSome := by
  induction bb generalizing key a with
  | root b =>
      simp only [getEntry] at hGet
      split at hGet
      · next hStored =>
          cases hGet
          exact hStored
      · cases hGet
  | child b parent ih =>
      have hUp (external : Text)
          (h : (parent.getEntry external).map Address.up =
            some a) :
          ((child b parent).entryAt a.depth a.key).isSome := by
        rcases Option.map_eq_some_iff.mp h with ⟨a', hParent, rfl⟩
        exact ih hParent
      unfold getEntry at hGet
      split at hGet
      · exact hUp key hGet
      · split at hGet
        · next hStored =>
            cases hGet
            exact hStored
        · split at hGet
          · exact hUp _ hGet
          · cases hGet

------------------------------------------------------------
-- Where Entries Are Created
------------------------------------------------------------

/- An untyped declaration agrees with every other. -/
@[simp] theorem checkType_anyTypeAllowed
    (key : Text) (entry : Entry) :
    checkType key .anyTypeAllowed entry = .ok () := by
  simp [checkType, TypeInfo.anyTypeAllowed,
    TypeInfo.isStronglyTyped]

/- Where `createEntryImpl` finds an entry, or adds one. -/
def place : Blackboard → Text → Option Address
| .root b, key =>
    if (b.storage key).isSome || (b.externalKey key).isNone then
      some ⟨0, key⟩
    else
      none
| .child b parent, key =>
    if (b.storage key).isSome then
      some ⟨0, key⟩
    else
      match b.externalKey key with
      | some external => (parent.place external).map Address.up
      | none => some ⟨0, key⟩

def placeAtRoot : Blackboard → Text → Option Address
| .root b, key => place (.root b) key
| .child _ parent, key =>
    (parent.placeAtRoot key).map Address.up

/- Where `createEntry` ends. -/
def target (bb : Blackboard) (key : Text) : Option Address :=
  if isGlobal key then
    if '@' ∈ key.tail then none else bb.placeAtRoot key.tail
  else
    bb.place key

/- A new entry, where nothing leads to another board. -/
structure Added
    (info : TypeInfo) (bb : Blackboard) (a : Address)
    (bb' : Blackboard) : Prop where
  board : (bb.boardAt a.depth).isSome
  absent : bb.entryAt a.depth a.key = none
  local' : bb.externalAt a.depth a.key = none
  eq_put : bb' = bb.put (.new info) a.depth a.key

theorem Added.entryAt
    {info : TypeInfo} {bb bb' : Blackboard} {a : Address}
    (hAdded : Added info bb a bb')
    (d : Nat) (k : Text) :
    bb'.entryAt d k =
      if d = a.depth ∧ k = a.key then some (.new info)
      else bb.entryAt d k := by
  rw [hAdded.eq_put,
    entryAt_put (.new info) bb a.depth a.key hAdded.board]

theorem Added.child
    {info : TypeInfo} {parent parent' : Blackboard} {a : Address}
    (hAdded : Added info parent a parent')
    (b : Board) :
    Added info (.child b parent) a.up (.child b parent') :=
  ⟨hAdded.board, hAdded.absent, hAdded.local',
    congrArg _ hAdded.eq_put⟩

/- `createEntryImpl` finds an entry or adds one. -/
theorem createEntryImpl_spec
    {info : TypeInfo} {bb : Blackboard} {key : Text}
    {a : Address} {bb' : Blackboard}
    (hCreate : createEntryImpl info bb key = .ok (a, bb')) :
    bb.place key = some a ∧
      (bb' = bb ∧ (bb.entryAt a.depth a.key).isSome ∨
        Added info bb a bb') := by
  induction bb generalizing key a bb' with
  | root b =>
      unfold createEntryImpl at hCreate
      cases hStored : b.storage key with
      | some entry =>
          simp only [hStored] at hCreate
          cases hType : checkType key info entry with
          | error e => rw [hType] at hCreate; cases hCreate
          | ok u =>
              rw [hType] at hCreate
              cases hCreate
              exact ⟨by simp [place, hStored],
                .inl ⟨rfl, by simp [entryAt, hStored]⟩⟩
      | none =>
          simp only [hStored] at hCreate
          cases hExternal : b.externalKey key with
          | some external =>
              simp only [hExternal] at hCreate
              cases hCreate
          | none =>
              simp only [hExternal] at hCreate
              cases hCreate
              exact ⟨by simp [place, hExternal],
                .inr ⟨rfl, hStored, hExternal, rfl⟩⟩
  | child b parent ih =>
      unfold createEntryImpl at hCreate
      cases hStored : b.storage key with
      | some entry =>
          simp only [hStored] at hCreate
          cases hType : checkType key info entry with
          | error e => rw [hType] at hCreate; cases hCreate
          | ok u =>
              rw [hType] at hCreate
              cases hCreate
              exact ⟨by simp [place, hStored],
                .inl ⟨rfl, by simp [entryAt, hStored]⟩⟩
      | none =>
          simp only [hStored] at hCreate
          cases hExternal : b.externalKey key with
          | none =>
              simp only [hExternal] at hCreate
              cases hCreate
              exact ⟨by simp [place, hStored, hExternal],
                .inr ⟨rfl, hStored, hExternal, rfl⟩⟩
          | some external =>
              simp only [hExternal] at hCreate
              cases hParent :
                  createEntryImpl info parent external with
              | error e => rw [hParent] at hCreate; cases hCreate
              | ok r =>
                  rw [hParent] at hCreate
                  cases hCreate
                  rcases ih hParent with ⟨hPlace, hEffect⟩
                  refine ⟨by simp [place, hStored, hExternal,
                    hPlace], hEffect.imp ?_ (·.child b)⟩
                  rintro ⟨hSame, hEntry⟩
                  exact ⟨congrArg _ hSame, hEntry⟩

theorem createAtRoot_spec
    {info : TypeInfo} {bb : Blackboard} {key : Text}
    {a : Address} {bb' : Blackboard}
    (hCreate : createAtRoot info bb key = .ok (a, bb')) :
    bb.placeAtRoot key = some a ∧
      (bb' = bb ∧ (bb.entryAt a.depth a.key).isSome ∨
        Added info bb a bb') := by
  induction bb generalizing a bb' with
  | root b => exact createEntryImpl_spec hCreate
  | child b parent ih =>
      unfold createAtRoot at hCreate
      cases hParent : createAtRoot info parent key with
      | error e => rw [hParent] at hCreate; cases hCreate
      | ok r =>
          rw [hParent] at hCreate
          cases hCreate
          rcases ih hParent with ⟨hPlace, hEffect⟩
          refine ⟨by simp [placeAtRoot, hPlace],
            hEffect.imp ?_ (·.child b)⟩
          rintro ⟨hSame, hEntry⟩
          exact ⟨congrArg _ hSame, hEntry⟩

theorem createEntry_spec
    {info : TypeInfo} {bb : Blackboard} {key : Text}
    {a : Address} {bb' : Blackboard}
    (hCreate : createEntry info bb key = .ok (a, bb')) :
    bb.target key = some a ∧
      (bb' = bb ∧ (bb.entryAt a.depth a.key).isSome ∨
        Added info bb a bb') := by
  unfold createEntry at hCreate
  unfold target
  split at hCreate
  · split at hCreate
    · cases hCreate
    · next hGlobal hOnce =>
        rw [if_pos hGlobal, if_neg hOnce]
        exact createAtRoot_spec hCreate
  · next hLocal =>
      rw [if_neg hLocal]
      exact createEntryImpl_spec hCreate


------------------------------------------------------------
-- Growing Blackboards
------------------------------------------------------------

/- Entries stay, and come where nothing leads further. -/
structure Grows (bb bb' : Blackboard) : Prop where
  bare : bb'.bare = bb.bare
  kept : ∀ d k,
    (bb.entryAt d k).isSome → (bb'.entryAt d k).isSome
  added : ∀ d k,
    (bb'.entryAt d k).isSome → (bb.entryAt d k).isSome ∨
      bb.externalAt d k = none

namespace Grows

theorem refl (bb : Blackboard) : Grows bb bb :=
  ⟨rfl, fun _ _ => id, fun _ _ => .inl⟩

theorem board
    {b b' : Board}
    (hGrows : Grows (.root b) (.root b'))
    (key : Text) : b'.externalKey key = b.externalKey key := by
  injection hGrows.bare with hBoard
  exact Board.externalKey_of_bare hBoard key

theorem below
    {b b' : Board} {parent parent' : Blackboard}
    (hGrows : Grows (.child b parent) (.child b' parent'))
    (key : Text) : b'.externalKey key = b.externalKey key := by
  injection hGrows.bare with hBoard
  exact Board.externalKey_of_bare hBoard key

theorem parent
    {b b' : Board} {parent parent' : Blackboard}
    (hGrows : Grows (.child b parent) (.child b' parent')) :
    Grows parent parent' := by
  injection hGrows.bare with hBoard hParent
  exact ⟨hParent, fun d => hGrows.kept (d + 1),
    fun d => hGrows.added (d + 1)⟩

theorem isSome_storage
    {b b' : Board} {parent parent' : Blackboard}
    (hGrows : Grows (.child b parent) (.child b' parent'))
    {key : Text}
    (hStored : (b.storage key).isSome) :
    (b'.storage key).isSome :=
  hGrows.kept 0 key hStored

/- What leads to a parent is not stored meanwhile. -/
theorem storage_eq_none
    {b b' : Board} {parent parent' : Blackboard}
    (hGrows : Grows (.child b parent) (.child b' parent'))
    {key external : Text}
    (hExternal : b.externalKey key = some external)
    (hStored : ¬ (b.storage key).isSome) :
    ¬ (b'.storage key).isSome := by
  intro hNow
  rcases hGrows.added 0 key hNow with hBefore | hLocal
  · exact hStored hBefore
  · exact absurd (hExternal.symm.trans hLocal) (by simp)

theorem trans
    {bb bb' bb'' : Blackboard}
    (hFirst : Grows bb bb')
    (hSecond : Grows bb' bb'') : Grows bb bb'' where
  bare := hSecond.bare.trans hFirst.bare
  kept d k hEntry := hSecond.kept d k (hFirst.kept d k hEntry)
  added d k hEntry := by
    rcases hSecond.added d k hEntry with hBefore | hLocal
    · exact hFirst.added d k hBefore
    · rw [externalAt_of_bare hFirst.bare] at hLocal
      exact .inr hLocal

theorem child
    {parent parent' : Blackboard}
    (hGrows : Grows parent parent')
    (b : Board) :
    Grows (.child b parent) (.child b parent') where
  bare := congrArg (Blackboard.child b.bare) hGrows.bare
  kept d k hEntry := by
    cases d with
    | zero => exact hEntry
    | succ d => exact hGrows.kept d k hEntry
  added d k hEntry := by
    cases d with
    | zero => exact .inl hEntry
    | succ d => exact hGrows.added d k hEntry

/- A name that is found goes on being found there. -/
theorem getEntry_eq
    {bb bb' : Blackboard}
    (hGrows : Grows bb bb')
    {key : Text} {a : Address}
    (hGet : bb.getEntry key = some a) :
    bb'.getEntry key = some a := by
  induction bb generalizing bb' key a with
  | root b =>
      cases bb' with
      | child b' parent' => cases hGrows.bare
      | root b' =>
          simp only [getEntry] at hGet ⊢
          split at hGet
          · next hStored =>
              have hNow := hGrows.kept 0 _ hStored
              rw [if_pos (by exact hNow)]
              exact hGet
          · cases hGet
  | child b parent ih =>
      cases bb' with
      | root b' => cases hGrows.bare
      | child b' parent' =>
          have hUp (external : Text)
              (h : (parent.getEntry external).map Address.up =
                some a) :
              (parent'.getEntry external).map Address.up =
                some a := by
            rcases Option.map_eq_some_iff.mp h with
              ⟨a', hParent, rfl⟩
            rw [ih hGrows.parent hParent]
            rfl
          unfold getEntry at hGet ⊢
          split at hGet
          · next hGlobal => rw [if_pos hGlobal]; exact hUp _ hGet
          · next hGlobal =>
              rw [if_neg hGlobal]
              split at hGet
              · next hStored =>
                  rw [if_pos (hGrows.isSome_storage hStored)]
                  exact hGet
              · next hStored =>
                  split at hGet
                  · next external hExternal =>
                      rw [if_neg (hGrows.storage_eq_none
                        hExternal hStored), hGrows.below key]
                      simp only [hExternal]
                      exact hUp _ hGet
                  · cases hGet

/- A name finds no other entry that was there before. -/
theorem getEntry_of_isSome
    {bb bb' : Blackboard}
    (hGrows : Grows bb bb')
    {key : Text} {a : Address}
    (hGet : bb'.getEntry key = some a)
    (hEntry : (bb.entryAt a.depth a.key).isSome) :
    bb.getEntry key = some a := by
  induction bb generalizing bb' key a with
  | root b =>
      cases bb' with
      | child b' parent' => cases hGrows.bare
      | root b' =>
          simp only [getEntry] at hGet ⊢
          split at hGet
          · cases hGet
            rw [if_pos (by exact hEntry)]
          · cases hGet
  | child b parent ih =>
      cases bb' with
      | root b' => cases hGrows.bare
      | child b' parent' =>
          have hUp (external : Text)
              (h : (parent'.getEntry external).map Address.up =
                some a) :
              (parent.getEntry external).map Address.up =
                some a := by
            rcases Option.map_eq_some_iff.mp h with
              ⟨a', hParent, rfl⟩
            rw [ih hGrows.parent hParent hEntry]
            rfl
          unfold getEntry at hGet ⊢
          split at hGet
          · next hGlobal => rw [if_pos hGlobal]; exact hUp _ hGet
          · next hGlobal =>
              rw [if_neg hGlobal]
              split at hGet
              · cases hGet
                rw [if_pos (by exact hEntry)]
              · next hStored =>
                  have hBefore : ¬ (b.storage key).isSome :=
                    fun h => hStored (hGrows.isSome_storage h)
                  rw [if_neg hBefore]
                  split at hGet
                  · next external hExternal =>
                      rw [hGrows.below key] at hExternal
                      simp only [hExternal]
                      exact hUp _ hGet
                  · cases hGet

theorem place_eq
    {bb bb' : Blackboard}
    (hGrows : Grows bb bb')
    (key : Text) : bb'.place key = bb.place key := by
  induction bb generalizing bb' key with
  | root b =>
      cases bb' with
      | child b' parent' => cases hGrows.bare
      | root b' =>
          unfold place
          rw [hGrows.board key]
          cases hExternal : b.externalKey key with
          | none => simp
          | some external =>
              have hSame : (b'.storage key).isSome =
                  (b.storage key).isSome := by
                rw [Bool.eq_iff_iff]
                refine ⟨fun hNow => ?_, hGrows.kept 0 key⟩
                rcases hGrows.added 0 key hNow with
                  hBefore | hLocal
                · exact hBefore
                · exact absurd (hExternal.symm.trans hLocal)
                    (by simp)
              rw [hSame]
  | child b parent ih =>
      cases bb' with
      | root b' => cases hGrows.bare
      | child b' parent' =>
          unfold place
          rw [hGrows.below key]
          by_cases hStored : (b.storage key).isSome
          · rw [if_pos hStored,
              if_pos (hGrows.isSome_storage hStored)]
          · rw [if_neg hStored]
            cases hExternal : b.externalKey key with
            | none => simp
            | some external =>
                rw [if_neg (hGrows.storage_eq_none
                  hExternal hStored)]
                simp only [ih hGrows.parent]

theorem placeAtRoot_eq
    {bb bb' : Blackboard}
    (hGrows : Grows bb bb')
    (key : Text) :
    bb'.placeAtRoot key = bb.placeAtRoot key := by
  induction bb generalizing bb' with
  | root b =>
      cases bb' with
      | child b' parent' => cases hGrows.bare
      | root b' => exact hGrows.place_eq key
  | child b parent ih =>
      cases bb' with
      | root b' => cases hGrows.bare
      | child b' parent' =>
          exact congrArg _ (ih hGrows.parent)

theorem target_eq
    {bb bb' : Blackboard}
    (hGrows : Grows bb bb')
    (key : Text) : bb'.target key = bb.target key := by
  unfold target
  rw [hGrows.placeAtRoot_eq, hGrows.place_eq]

end Grows

theorem Added.grows
    {info : TypeInfo} {bb bb' : Blackboard} {a : Address}
    (hAdded : Added info bb a bb') : Grows bb bb' where
  bare := by rw [hAdded.eq_put, bare_put]
  kept d k hEntry := by
    rw [hAdded.entryAt]
    split
    · rfl
    · exact hEntry
  added d k hEntry := by
    rw [hAdded.entryAt] at hEntry
    split at hEntry
    · next hHere =>
        rcases hHere with ⟨rfl, rfl⟩
        exact .inr hAdded.local'
    · exact .inl hEntry

------------------------------------------------------------
-- Creating And Finding
------------------------------------------------------------

/-
  No remapping leads to a key with `@`. `createEntryImpl`
  takes such a key as it is, and `getEntry` as one of the
  root.
-/
def LocalRemappings (bb : Blackboard) : Prop :=
  ∀ depth b key external,
    bb.boardAt depth = some b →
      b.internalToExternal key = some external →
        isGlobal external = false

theorem LocalRemappings.parent
    {b : Board} {parent : Blackboard}
    (hLocal : LocalRemappings (.child b parent)) :
    LocalRemappings parent :=
  fun depth => hLocal (depth + 1)

theorem LocalRemappings.of_bare
    {bb bb' : Blackboard}
    (hBare : bb'.bare = bb.bare)
    (hLocal : LocalRemappings bb) : LocalRemappings bb' := by
  intro depth b' key external hBoard hMapped
  have hSame := boardAt_bare bb' depth
  rw [hBare, boardAt_bare, hBoard] at hSame
  rcases Option.map_eq_some_iff.mp hSame with ⟨b, hBefore, hEq⟩
  refine hLocal depth b key external hBefore ?_
  rw [← hMapped]
  exact congrArg (fun c => c.internalToExternal key) hEq

theorem LocalRemappings.external
    {b : Board} {parent : Blackboard}
    (hLocal : LocalRemappings (.child b parent))
    {key external : Text}
    (hKey : isGlobal key = false)
    (hExternal : b.externalKey key = some external) :
    isGlobal external = false := by
  unfold Board.externalKey at hExternal
  split at hExternal
  · next mapped hMapped =>
      cases hExternal
      exact hLocal 0 b key external rfl hMapped
  · split at hExternal
    · cases hExternal
      exact hKey
    · cases hExternal

theorem dropWhile_at
    {key : Text}
    (hKey : isGlobal key = false) :
    key.dropWhile (· == '@') = key := by
  cases key with
  | nil => rfl
  | cons c key =>
      have hHead : c ≠ '@' := by simpa [isGlobal] using hKey
      simp [hHead]

/- The remappings that a key meets lead to no such key. -/
def LocalPath : Blackboard → Text → Prop
| .root _, _ => True
| .child b parent, key =>
    ∀ external, b.externalKey key = some external →
      isGlobal external = false ∧ LocalPath parent external

theorem LocalRemappings.localPath
    {bb : Blackboard}
    (hLocal : LocalRemappings bb)
    {key : Text}
    (hKey : isGlobal key = false) : LocalPath bb key := by
  induction bb generalizing key with
  | root b => trivial
  | child b parent ih =>
      intro external hExternal
      have hOther := hLocal.external hKey hExternal
      exact ⟨hOther, ih hLocal.parent hOther⟩

theorem LocalPath.of_bare
    {bb bb' : Blackboard}
    (hBare : bb'.bare = bb.bare)
    {key : Text}
    (hLocal : LocalPath bb key) : LocalPath bb' key := by
  induction bb generalizing bb' key with
  | root b =>
      cases bb' with
      | root b' => trivial
      | child b' parent' => cases hBare
  | child b parent ih =>
      cases bb' with
      | root b' => cases hBare
      | child b' parent' =>
          injection hBare with hBoard hParent
          intro external hExternal
          rw [Board.externalKey_of_bare hBoard] at hExternal
          rcases hLocal external hExternal with ⟨hOther, hAbove⟩
          exact ⟨hOther, ih hParent hAbove⟩

/- A key that leads to the parent is looked up there. -/
theorem getEntry_of_external
    {b : Board} {key external : Text}
    (hKey : isGlobal key = false)
    (hStored : ¬ (b.storage key).isSome)
    (hExternal : b.externalKey key = some external)
    (parent : Blackboard) :
    (child b parent).getEntry key =
      (parent.getEntry external).map Address.up := by
  rw [getEntry, if_neg (by simp [hKey]), if_neg hStored,
    hExternal]

/- An entry at the place of a key is found under the key. -/
theorem getEntry_of_place
    {bb : Blackboard} {key : Text} {a : Address}
    (hLocal : LocalPath bb key)
    (hKey : isGlobal key = false)
    (hPlace : bb.place key = some a)
    (hEntry : (bb.entryAt a.depth a.key).isSome) :
    bb.getEntry key = some a := by
  induction bb generalizing key a with
  | root b =>
      unfold place at hPlace
      split at hPlace
      · cases hPlace
        simp only [getEntry, dropWhile_at hKey]
        rw [if_pos (by exact hEntry)]
      · cases hPlace
  | child b parent ih =>
      unfold place at hPlace
      by_cases hStored : (b.storage key).isSome
      · rw [if_pos hStored] at hPlace
        rw [getEntry, if_neg (by simp [hKey]), if_pos hStored]
        exact hPlace
      · rw [if_neg hStored] at hPlace
        cases hExternal : b.externalKey key with
        | none =>
            rw [hExternal] at hPlace
            cases hPlace
            exact absurd hEntry hStored
        | some external =>
            rw [hExternal] at hPlace
            rcases Option.map_eq_some_iff.mp hPlace with
              ⟨a', hParent, rfl⟩
            rcases hLocal external hExternal with
              ⟨hOther, hAbove⟩
            rw [getEntry_of_external hKey hStored hExternal,
              ih hAbove hOther hParent hEntry]
            rfl

theorem getEntry_of_placeAtRoot
    {bb : Blackboard} {key : Text} {a : Address}
    (hKey : '@' ∉ key)
    (hPlace : bb.placeAtRoot key = some a)
    (hEntry : (bb.entryAt a.depth a.key).isSome) :
    bb.getEntry ('@' :: key) = some a := by
  have hSame : isGlobal key = false := by
    cases key with
    | nil => rfl
    | cons c key =>
        have hHead : '@' ≠ c ∧ '@' ∉ key := by simpa using hKey
        simp [isGlobal, hHead.1.symm]
  induction bb generalizing a with
  | root b =>
      simp only [placeAtRoot, place] at hPlace
      split at hPlace
      · cases hPlace
        simp only [getEntry, List.dropWhile_cons_of_pos,
          BEq.rfl, dropWhile_at hSame]
        rw [if_pos (by exact hEntry)]
      · cases hPlace
  | child b parent ih =>
      rcases Option.map_eq_some_iff.mp hPlace with
        ⟨a', hParent, rfl⟩
      unfold getEntry
      rw [if_pos (by rfl), ih hParent hEntry]
      rfl

/- What `createEntry` creates is found. -/
theorem getEntry_of_createEntry
    {info : TypeInfo} {bb : Blackboard} {key : Text}
    {a : Address} {bb' : Blackboard}
    (hLocal : isGlobal key = false → LocalPath bb key)
    (hCreate : createEntry info bb key = .ok (a, bb')) :
    bb'.getEntry key = some a := by
  rcases createEntry_spec hCreate with ⟨hTarget, hEffect⟩
  have hGrows : Grows bb bb' ∧
      (bb'.entryAt a.depth a.key).isSome := by
    rcases hEffect with ⟨rfl, hEntry⟩ | hAdded
    · exact ⟨.refl bb', hEntry⟩
    · refine ⟨hAdded.grows, ?_⟩
      rw [hAdded.entryAt, if_pos ⟨rfl, rfl⟩]
      rfl
  rw [← hGrows.1.target_eq] at hTarget
  unfold target at hTarget
  split at hTarget
  · next hGlobal =>
      split at hTarget
      · cases hTarget
      · next hOnce =>
          cases key with
          | nil => cases hGlobal
          | cons c key =>
              have hAt : c = '@' := by simpa [isGlobal] using hGlobal
              subst hAt
              exact getEntry_of_placeAtRoot hOnce hTarget hGrows.2
  · next hKey =>
      have hHere : isGlobal key = false := by simpa using hKey
      exact getEntry_of_place
        ((hLocal hHere).of_bare hGrows.1.bare) hHere
        hTarget hGrows.2

end Blackboard

end Scripting

end Manipulator
