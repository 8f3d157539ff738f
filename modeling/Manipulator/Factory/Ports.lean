import Manipulator.Factory.Creation

/-
  The types of the ports of a tree that was created.

  A port that leads to a key finds an entry there. The port
  agrees with its type when it is connected, and also later:
  while a tree is created, entries are only added, and only
  one without a declared type may be given one, by a constant
  of a SubTree.

  Main declarations:
    * `Agrees`, `Declared`, `NodeAt`
    * `declared_of_declarePorts`, `settles_remapSubtree`
    * `declared_of_creates`, `declared_of_instantiateTree`
-/

------------------------------------------------------------
-- Declared Ports
------------------------------------------------------------

namespace Manipulator

namespace Factory

open Xml (Text XMLElement)
open Scripting (TypeInfo Blackboard Board SetValue)
open Scripting.Blackboard

/- An entry may be the one of a port. -/
def Agrees
    (factory : NodeFactory) (entry : TypeInfo)
    (port : PortInfo) : Prop :=
  entry.isStronglyTyped = false ∨
    port.isStronglyTyped = false ∨
    entry.type = port.type ∨
    entry.type = .string ∨
    port.direction = .input ∧
      factory.isConvertible entry.type port.type = true

/-
  The key of a connection is that of an entry. Its path may
  have no remapping to a key with `@`.
-/
def Declared
    (factory : NodeFactory) (bb : Blackboard)
    (c : Connection) : Prop :=
  ∀ key, getRemappedKey c.port c.value = some key →
    (isGlobal key = false → LocalPath bb key) →
      ∃ a entry,
        bb.getEntry key = some a ∧
          bb.entryAt a.depth a.key = some entry ∧
          Agrees factory entry.info c.info

/- Only a text is given to an entry without a type. -/
abbrev IsString (info : TypeInfo) : Prop := info.type = .string

variable {factory : NodeFactory} {parser : Parser}

theorem Declared.of_settles
    {bb bb' : Blackboard} {c : Connection}
    (hDeclared : Declared factory bb c)
    (hSettles : Settles IsString bb bb') :
    Declared factory bb' c := by
  intro key hKey hLocal
  have hBefore : isGlobal key = false → LocalPath bb key :=
    fun hOwn => (hLocal hOwn).of_bare hSettles.grows.bare.symm
  rcases hDeclared key hKey hBefore with
    ⟨a, entry, hGet, hEntry, hAgrees⟩
  rcases hSettles.info _ _ _ hEntry with
    ⟨entry', hEntry', hInfo⟩
  refine ⟨a, entry', hSettles.grows.getEntry_eq hGet, hEntry',
    ?_⟩
  rcases hInfo with hSame | ⟨-, hString⟩
  · rw [hSame]
    exact hAgrees
  · exact .inr (.inr (.inr (.inl hString)))

theorem agrees_of_not_mismatch
    {entry : TypeInfo} {port : PortInfo}
    (hMatch :
      ¬ (portTypeMismatch factory entry port = true ∧
        entry.type ≠ .string)) :
    Agrees factory entry port := by
  unfold Agrees
  unfold portTypeMismatch at hMatch
  by_contra hOther
  simp only [not_or, Bool.not_eq_false] at hOther
  rcases hOther with ⟨hEntry, hPort, hType, hString, hInput⟩
  refine hMatch ⟨?_, hString⟩
  have hNot :
      (decide (port.direction = .input) &&
        factory.isConvertible entry.type port.type) = false := by
    simpa using hInput
  simp [hEntry, hPort, hType, hNot]

theorem declared_of_declarePort
    {bb bb' : Blackboard} {c : Connection}
    (hDeclare : declarePort factory bb c = .ok bb') :
    Settles IsString bb bb' ∧ Declared factory bb' c := by
  unfold declarePort at hDeclare
  cases hKey : getRemappedKey c.port c.value with
  | none =>
      simp only [hKey] at hDeclare
      cases hDeclare
      refine ⟨.refl bb, fun key hSome => ?_⟩
      rw [hKey] at hSome
      cases hSome
  | some key =>
      simp only [hKey] at hDeclare
      cases hFound : (bb.getEntry key).bind
          fun a => bb.entryAt a.depth a.key with
      | some previous =>
          simp only [hFound] at hDeclare
          split at hDeclare
          · cases hDeclare
          · next hMatch =>
              cases hDeclare
              refine ⟨.refl bb, fun key' hSome _ => ?_⟩
              rw [hKey] at hSome
              cases hSome
              rcases Option.bind_eq_some_iff.mp hFound with
                ⟨a, hGet, hEntry⟩
              refine ⟨a, previous, hGet, hEntry, ?_⟩
              exact agrees_of_not_mismatch
                (by simpa using hMatch)
      | none =>
          simp only [hFound] at hDeclare
          cases hCreate : bb.createEntry c.info.toTypeInfo key with
          | error e => rw [hCreate] at hDeclare; cases hDeclare
          | ok r =>
              rcases r with ⟨a, bb'⟩
              rw [hCreate] at hDeclare
              cases hDeclare
              have hEffect := (createEntry_spec hCreate).2
              have hSettles : Settles IsString bb bb' :=
                (settles_of_effect hEffect).1
              refine ⟨hSettles, fun key' hSome hLocal => ?_⟩
              rw [hKey] at hSome
              cases hSome
              have hGet := getEntry_of_createEntry
                (fun hOwn => (hLocal hOwn).of_bare
                  hSettles.grows.bare.symm) hCreate
              rcases hEffect with ⟨rfl, hOld⟩ | hAdded
              · rw [hGet, Option.bind_some] at hFound
                rw [hFound] at hOld
                cases hOld
              · refine ⟨a, .new c.info.toTypeInfo, hGet, ?_,
                  .inr (.inr (.inl rfl))⟩
                rw [hAdded.entryAt, if_pos ⟨rfl, rfl⟩]

/- Each connection of a node, in the end. -/
theorem declared_of_declarePorts
    {cs : List Connection} {bb bb' : Blackboard}
    (hDeclare : declarePorts factory bb cs = .ok bb') :
    Settles IsString bb bb' ∧
      ∀ c ∈ cs, Declared factory bb' c := by
  unfold declarePorts at hDeclare
  induction cs generalizing bb with
  | nil =>
      cases hDeclare
      exact ⟨.refl _, fun c hMem => by cases hMem⟩
  | cons c cs ih =>
      rw [List.foldlM_cons, bind_eq_ok] at hDeclare
      rcases hDeclare with ⟨next, hFirst, hRest⟩
      rcases declared_of_declarePort hFirst with
        ⟨hBefore, hHere⟩
      rcases ih hRest with ⟨hAfter, hLater⟩
      refine ⟨hBefore.trans hAfter, fun c' hMem => ?_⟩
      rcases List.mem_cons.mp hMem with rfl | hOther
      · exact hHere.of_settles hAfter
      · exact hLater c' hOther

theorem declared_of_createNodeFromXML
    {hasChild : Bool} {path : Text} {element : XMLElement}
    {object : NodeObject} {s s' : Building}
    (hNode :
      createNodeFromXML factory hasChild path element s =
        .ok (object, s')) :
    Settles IsString s.blackboard s'.blackboard ∧
      ∀ c ∈ object.connections,
        Declared factory s'.blackboard c := by
  rcases createNode_of_createNodeFromXML hNode with
    ⟨resolved, -, hCreated⟩
  unfold createNode at hCreated
  split at hCreated
  · rcases createSubtreeNode_eq_ok hCreated with
      ⟨-, -, -, hNone, rfl⟩
    rw [hNone]
    exact ⟨.refl _, fun c hMem => by cases hMem⟩
  · rcases createTreeNode_eq_ok hCreated with
      ⟨manifest, bb, -, -, -, -, -, hDeclare, rfl⟩
    exact declared_of_declarePorts hDeclare

------------------------------------------------------------
-- Blackboards Of Subtrees
------------------------------------------------------------

/- A board of its own, and a parent that settles. -/
def Below (parent bb : Blackboard) : Prop :=
  ∃ b parent', bb = .child b parent' ∧
    Settles IsString parent parent'

theorem below_withBoard
    {parent bb : Blackboard}
    (hBelow : Below parent bb) (change : Board → Board) :
    Below parent (bb.withBoard change) := by
  rcases hBelow with ⟨b, parent', rfl, hSettles⟩
  exact ⟨change b, parent', rfl, hSettles⟩

theorem below_of_settles
    {parent bb bb' : Blackboard}
    (hBelow : Below parent bb)
    (hSettles : Settles IsString bb bb') : Below parent bb' := by
  rcases hBelow with ⟨b, parent', rfl, hBefore⟩
  rcases hSettles.parent with ⟨b', parent'', rfl, hAfter⟩
  exact ⟨b', parent'', rfl, hBefore.trans hAfter⟩

theorem below_remapPort
    {parent bb bb' : Blackboard} {att : Text × Text}
    (hBelow : Below parent bb)
    (hRemap : remapPort factory bb att = .ok bb') :
    Below parent bb' := by
  unfold remapPort at hRemap
  split at hRemap
  · cases hRemap
    exact below_withBoard hBelow _
  · cases hSet : bb.set factory.round (SetValue.ofString att.2)
        att.1 with
    | error e => rw [hSet] at hRemap; cases hRemap
    | ok next =>
        rw [hSet] at hRemap
        cases hRemap
        exact below_of_settles hBelow
          (settles_set factory.round rfl hSet)

/- The constants of a SubTree may be written to its parents. -/
theorem below_remapSubtree
    {subtreeID : Text} {element : XMLElement}
    {parent bb : Blackboard}
    (hRemap :
      remapSubtree factory parser subtreeID element parent =
        .ok bb) : Below parent bb := by
  unfold remapSubtree at hRemap
  simp only [bind_eq_ok] at hRemap
  rcases hRemap with ⟨autoremap, -, hRemap⟩
  have hPorts : ∃ (remapping : List (Text × Text))
      (last : Blackboard),
      remapping.foldlM (remapPort factory) (newBoard parent) =
          .ok last ∧
        last.enableAutoRemapping autoremap = bb := by
    split at hRemap
    · simp only [bind_eq_ok, pure_eq_ok] at hRemap
      rcases hRemap with ⟨remapping, -, last, hFold, hLast⟩
      exact ⟨remapping, last, hFold, hLast⟩
    · simp only [bind_eq_ok, pure_eq_ok] at hRemap
      rcases hRemap with ⟨remapping, -, last, hFold, hLast⟩
      exact ⟨remapping, last, hFold, hLast⟩
  rcases hPorts with ⟨remapping, last, hFold, rfl⟩
  refine below_withBoard ?_ _
  have hNew : Below parent (newBoard parent) :=
    ⟨_, parent, rfl, .refl parent⟩
  generalize newBoard parent = first at hFold hNew
  induction remapping generalizing first with
  | nil =>
      cases hFold
      exact hNew
  | cons att remapping ih =>
      rw [List.foldlM_cons, bind_eq_ok] at hFold
      rcases hFold with ⟨next, hFirst, hRest⟩
      exact ih next hRest (below_remapPort hNew hFirst)

------------------------------------------------------------
-- Nodes On Their Blackboards
------------------------------------------------------------

/- A node of a list of trees, with the blackboard it is on. -/
inductive NodeAt :
    List Built → Blackboard → NodeObject → Blackboard → Prop
| here
    {built : Built} {rest : List Built} {bb : Blackboard} :
    NodeAt (built :: rest) bb built.object bb
| child
    {parent object : NodeObject} {children rest : List Built}
    {bb board : Blackboard}
    (hChild : NodeAt children bb object board) :
    NodeAt (.node parent children :: rest) bb object board
| inside
    {parent object : NodeObject} {path treeID : Text}
    {own : Board} {root : Built} {rest : List Built}
    {bb board : Blackboard}
    (hInside : NodeAt [root] (.child own bb) object board) :
    NodeAt (.subtree parent path treeID own root :: rest) bb
      object board
| later
    {built : Built} {object : NodeObject} {rest : List Built}
    {bb board : Blackboard}
    (hLater : NodeAt rest bb object board) :
    NodeAt (built :: rest) bb object board

/- What the blackboard was, when it was less. -/
theorem NodeAt.before
    {bs : List Built} {bb bb' : Blackboard}
    {object : NodeObject} {board' : Blackboard}
    (hAt : NodeAt bs bb' object board')
    (hSettles : Settles IsString bb bb') :
    ∃ board, NodeAt bs bb object board ∧
      Settles IsString board board' := by
  induction hAt generalizing bb with
  | here => exact ⟨bb, .here, hSettles⟩
  | child hChild ih =>
      rcases ih hSettles with ⟨board, hBefore, hBoard⟩
      exact ⟨board, .child hBefore, hBoard⟩
  | inside hInside ih =>
      rcases ih (hSettles.child _) with ⟨board, hBefore, hBoard⟩
      exact ⟨board, .inside hBefore, hBoard⟩
  | later hLater ih =>
      rcases ih hSettles with ⟨board, hBefore, hBoard⟩
      exact ⟨board, .later hBefore, hBoard⟩

/- The ports of all nodes of the trees are declared. -/
def AllDeclared
    (factory : NodeFactory) (bs : List Built)
    (bb : Blackboard) : Prop :=
  ∀ object board, NodeAt bs bb object board →
    ∀ c ∈ object.connections, Declared factory board c

theorem AllDeclared.of_settles
    {bs : List Built} {bb bb' : Blackboard}
    (hAll : AllDeclared factory bs bb)
    (hSettles : Settles IsString bb bb') :
    AllDeclared factory bs bb' := by
  intro object board' hAt c hMem
  rcases hAt.before hSettles with ⟨board, hBefore, hBoard⟩
  exact (hAll object board hBefore c hMem).of_settles hBoard

theorem declared_of_creates
    {path : Text} {elements : List XMLElement}
    {bs : List Built} {s s' : Building}
    (hCreates : Creates factory parser path elements s bs s') :
    Settles IsString s.blackboard s'.blackboard ∧
      AllDeclared factory bs s'.blackboard := by
  induction hCreates with
  | nil => exact ⟨.refl _, fun _ _ hAt => by cases hAt⟩
  | node hNode hType hChildren hRest ihChildren ihRest =>
      rcases declared_of_createNodeFromXML hNode with
        ⟨hFirst, hPorts⟩
      rcases ihChildren with ⟨hBelow, hInside⟩
      rcases ihRest with ⟨hAfter, hLater⟩
      refine ⟨hFirst.trans (hBelow.trans hAfter), ?_⟩
      intro object board hAt c hMem
      cases hAt with
      | here =>
          exact (hPorts c hMem).of_settles (hBelow.trans hAfter)
      | child hChild =>
          exact hInside.of_settles hAfter object board hChild c
            hMem
      | later hOther => exact hLater object board hOther c hMem
  | subtree hNode hType hID hBoard hFresh hTree hRoot hInside
      hRest ihInside ihRest =>
      rcases declared_of_createNodeFromXML hNode with
        ⟨hFirst, hPorts⟩
      rcases ihInside with ⟨hBelow, hDeclared⟩
      rcases ihRest with ⟨hAfter, hLater⟩
      rcases below_of_settles (below_remapSubtree hBoard) hBelow
        with ⟨own, parent, hChild, hParent⟩
      rw [hChild] at hAfter hDeclared ⊢
      refine ⟨hFirst.trans (hParent.trans hAfter), ?_⟩
      intro object board hAt c hMem
      cases hAt with
      | here =>
          exact (hPorts c hMem).of_settles
            (hParent.trans hAfter)
      | inside hIn =>
          exact hDeclared.of_settles (hAfter.child own) object
            board hIn c hMem
      | later hOther => exact hLater object board hOther c hMem

/-
  The ports of a tree that was created agree with the types of
  the entries they lead to, also those of subtrees, and the
  types that the blackboard had declared before are kept.
-/
theorem declared_of_instantiateTree
    {fuel : Nat} {mainTreeID : Text} {bb : Blackboard}
    {tree : Built} {s : Building}
    (hCreate :
      instantiateTree factory parser fuel mainTreeID bb =
        .ok (tree, s)) :
    Settles IsString bb s.blackboard ∧
      ∀ object board, NodeAt [tree] s.blackboard object board →
        ∀ c ∈ object.connections, Declared factory board c := by
  rcases creates_of_instantiateTree hCreate with
    ⟨_, _, -, -, hCreates⟩
  exact declared_of_creates hCreates

/- The goal of the subtree is declared in the main tree. -/
theorem declared_of_portRemapping :
    ∃ tree s,
      portRemappingTree = .ok (tree, s) ∧
      (s.blackboard.entryAt 0 "move_goal".toList).map
          (·.info.type) = some (.custom "Pose2D".toList) ∧
      Settles IsString
        (.root ⟨fun _ => none, fun _ => none, false⟩)
        s.blackboard ∧
      ∀ object board, NodeAt [tree] s.blackboard object board →
        ∀ c ∈ object.connections,
          Declared portRemappingFactory board c := by
  have hGoal :
      (portRemappingTree.toOption.bind fun r =>
        (r.2.blackboard.entryAt 0 "move_goal".toList).map
          (·.info.type)) = some (.custom "Pose2D".toList) := rfl
  cases hCreate : portRemappingTree with
  | error e => rw [hCreate] at hGoal; cases hGoal
  | ok result =>
      rcases result with ⟨tree, s⟩
      rw [hCreate] at hGoal
      exact ⟨tree, s, rfl, hGoal,
        declared_of_instantiateTree hCreate⟩

end Factory

end Manipulator
