import Manipulator.Factory.Create
import Manipulator.Effects
import Mathlib.Logic.Relation

/-
  What a tree that was created is made of.

  The creation of a tree is a derivation, `Creates`, in which
  neither the depth of the nesting nor the trees above play a
  part. A tree that was created unfolds the trees that it
  names, so that none of them names itself. The other way
  round, a cycle is only reported where there is one, and the
  creation always ends.

  Main declarations:
    * `Creates`, `creates_of_instantiateTree`
    * `Refers`, `acc_of_creates`
    * `error_of_recursivelyCreateSubtree`
    * `cycle_of_error`, `instantiateTree_ne_outOfFuel`
    * `instantiateTree_nests`
-/

------------------------------------------------------------
-- Derivations
------------------------------------------------------------

namespace Manipulator

namespace Factory

open Xml (Text XMLElement NodeType childElements)
open Scripting (Blackboard)

/- The elements below a path become nodes, one by one. -/
inductive Creates (factory : NodeFactory) (parser : Parser) :
    Text → List XMLElement → Building → List Built → Building →
      Prop
| nil {path : Text} {s : Building} :
    Creates factory parser path [] s [] s
| node
    {path : Text} {element : XMLElement}
    {elements : List XMLElement} {hasChild : Bool}
    {object : NodeObject} {children rest : List Built}
    {s s₁ s₂ s₃ : Building}
    (hNode :
      createNodeFromXML factory hasChild (prefixPath path)
        element s = .ok (object, s₁))
    (hType : object.type ≠ .subtree)
    (hChildren :
      Creates factory parser path
        (childElements element.children) s₁ children s₂)
    (hRest : Creates factory parser path elements s₂ rest s₃) :
    Creates factory parser path (element :: elements) s
      (.node object children :: rest) s₃
| subtree
    {path : Text} {element : XMLElement}
    {elements : List XMLElement} {hasChild : Bool}
    {object : NodeObject} {treeID : Text}
    {tree rootElement : XMLElement} {bb : Blackboard}
    {root : Built} {rest : List Built}
    {s s₁ s₂ s₃ : Building}
    (hNode :
      createNodeFromXML factory hasChild (prefixPath path)
        element s = .ok (object, s₁))
    (hType : object.type = .subtree)
    (hID : element.attributeValue "ID".toList = some treeID)
    (hBoard :
      remapSubtree factory parser treeID element
        s₁.blackboard = .ok bb)
    (hFresh :
      subtreePath path treeID element object.config.uid ∉
        s₁.subtrees)
    (hTree : parser.treeRoots treeID = some tree)
    (hRoot :
      (childElements tree.children).head? = some rootElement)
    (hInside :
      Creates factory parser
        (subtreePath path treeID element object.config.uid)
        [rootElement]
        { s₁ with
          blackboard := bb
          subtrees := s₁.subtrees ++
            [subtreePath path treeID element
              object.config.uid] }
        [root] s₂)
    (hRest :
      Creates factory parser path elements
        { s₂ with blackboard := s₂.blackboard.parent } rest
        s₃) :
    Creates factory parser path (element :: elements) s
      (.subtree object
        (subtreePath path treeID element object.config.uid)
        treeID s₂.blackboard.board root :: rest)
      s₃

variable {factory : NodeFactory} {parser : Parser}

theorem Creates.cons
    {path : Text} {element : XMLElement}
    {elements : List XMLElement} {built : Built}
    {rest : List Built} {s s₁ s₂ : Building}
    (hFirst :
      Creates factory parser path [element] s [built] s₁)
    (hRest : Creates factory parser path elements s₁ rest s₂) :
    Creates factory parser path (element :: elements) s
      (built :: rest) s₂ := by
  cases hFirst with
  | node hNode hType hChildren hNil =>
      cases hNil
      exact .node hNode hType hChildren hRest
  | subtree hNode hType hID hBoard hFresh hTree hRoot hInside
      hNil =>
      cases hNil
      exact .subtree hNode hType hID hBoard hFresh hTree hRoot
        hInside hRest

/- What is created where a tree is entered. -/
def CreatesTree
    (factory : NodeFactory) (parser : Parser)
    (treeID path : Text) (s : Building) (root : Built)
    (s' : Building) : Prop :=
  ∃ tree element,
    parser.treeRoots treeID = some tree ∧
      (childElements tree.children).head? = some element ∧
      Creates factory parser path [element]
        { s with subtrees := s.subtrees ++ [path] } [root] s'

theorem creates_of_createChildren
    {path : Text} {isDecorator : Bool}
    {create :
      Bool → XMLElement → Building →
        Except CreateError (Built × Building)}
    (hCreate : ∀ hasChild element s built s',
      create hasChild element s = .ok (built, s') →
        Creates factory parser path [element] s [built] s')
    {hasChild : Bool} {elements : List XMLElement}
    {children : List Built} {s s' : Building}
    (hChildren :
      createChildren create isDecorator hasChild elements s =
        .ok (children, s')) :
    Creates factory parser path elements s children s' := by
  induction elements generalizing hasChild children s with
  | nil =>
      cases hChildren
      exact .nil
  | cons element elements ih =>
      rw [createChildren] at hChildren
      simp only [bind_eq_ok, pure_eq_ok] at hChildren
      rcases hChildren with
        ⟨⟨child, mid⟩, hChild, ⟨rest, last⟩, hRest, hSame⟩
      cases hSame
      exact (hCreate _ _ _ _ _ hChild).cons (ih hRest)

theorem creates_of_enterSubtree
    {enter : Enter} {path : Text} {element : XMLElement}
    {object : NodeObject} {hasChild : Bool} {built : Built}
    {s s₁ s' : Building}
    (hEnter : ∀ treeID inner s root s',
      enter treeID inner s = .ok (root, s') →
        CreatesTree factory parser treeID inner s root s')
    (hNode :
      createNodeFromXML factory hasChild (prefixPath path)
        element s = .ok (object, s₁))
    (hType : object.type = .subtree)
    (hSubtree :
      enterSubtree factory parser enter path element object s₁ =
        .ok (built, s')) :
    Creates factory parser path [element] s [built] s' := by
  unfold enterSubtree at hSubtree
  cases hID : element.attributeValue "ID".toList with
  | none => simp only [hID] at hSubtree; cases hSubtree
  | some treeID =>
      simp only [hID, bind_eq_ok] at hSubtree
      rcases hSubtree with ⟨bb, hBoard, hSubtree⟩
      split at hSubtree
      · cases hSubtree
      · next hFresh =>
          simp only [bind_eq_ok, pure_eq_ok] at hSubtree
          rcases hSubtree with ⟨⟨root, next⟩, hInside, hSame⟩
          cases hSame
          rcases hEnter _ _ _ _ _ hInside with
            ⟨tree, rootElement, hTree, hRoot, hCreates⟩
          exact .subtree hNode hType hID hBoard hFresh hTree
            hRoot hCreates .nil

theorem creates_of_recursiveStep
    {enter : Enter}
    (hEnter : ∀ treeID inner s root s',
      enter treeID inner s = .ok (root, s') →
        CreatesTree factory parser treeID inner s root s')
    {path : Text} {levels : Nat} {hasChild : Bool}
    {element : XMLElement} {built : Built} {s s' : Building}
    (hStep :
      recursiveStep factory parser enter path levels hasChild
        element s = .ok (built, s')) :
    Creates factory parser path [element] s [built] s' := by
  induction levels generalizing hasChild element built s s' with
  | zero => cases hStep
  | succ levels ih =>
      rw [recursiveStep] at hStep
      simp only [bind_eq_ok] at hStep
      rcases hStep with ⟨⟨object, s₁⟩, hNode, hStep⟩
      split at hStep
      · next hType =>
          exact creates_of_enterSubtree hEnter hNode hType hStep
      · next hType =>
          simp only [bind_eq_ok, pure_eq_ok] at hStep
          rcases hStep with ⟨⟨children, s₂⟩, hChildren, hSame⟩
          cases hSame
          exact .node hNode hType
            (creates_of_createChildren
              (fun _ _ _ _ _ => ih) hChildren) .nil

/- A tree that is created is derived. -/
theorem creates_of_recursivelyCreateSubtree
    {fuel : Nat} {ancestors : List Text} {treeID path : Text}
    {s s' : Building} {root : Built}
    (hCreate :
      recursivelyCreateSubtree factory parser fuel ancestors
        treeID path s = .ok (root, s')) :
    CreatesTree factory parser treeID path s root s' := by
  induction fuel
    generalizing ancestors treeID path s s' root with
  | zero => cases hCreate
  | succ fuel ih =>
      rw [recursivelyCreateSubtree] at hCreate
      split at hCreate
      · cases hCreate
      · cases hTree : parser.treeRoots treeID with
        | none => simp only [hTree] at hCreate; cases hCreate
        | some tree =>
            simp only [hTree] at hCreate
            cases hElements : childElements tree.children with
            | nil =>
                simp only [hElements] at hCreate
                cases hCreate
            | cons element elements =>
                simp only [hElements] at hCreate
                exact ⟨tree, element, hTree,
                  by rw [hElements]; rfl,
                  creates_of_recursiveStep
                    (fun _ _ _ _ _ => ih) hCreate⟩

theorem creates_of_instantiateTree
    {fuel : Nat} {mainTreeID : Text} {bb : Blackboard}
    {tree : Built} {s : Building}
    (hCreate :
      instantiateTree factory parser fuel mainTreeID bb =
        .ok (tree, s)) :
    CreatesTree factory parser mainTreeID [] ⟨0, [], bb⟩ tree
      s :=
  creates_of_recursivelyCreateSubtree hCreate

------------------------------------------------------------
-- References Between Trees
------------------------------------------------------------

/-
  A SubTree among elements or below them names a tree. Nothing
  is created of what stands below a SubTree.
-/
inductive SubtreeIn (factory : NodeFactory) :
    List XMLElement → Text → Prop
| here
    {element : XMLElement} {elements : List XMLElement}
    {treeID : Text}
    (hType : elementType factory element = some .subtree)
    (hID : element.attributeValue "ID".toList = some treeID) :
    SubtreeIn factory (element :: elements) treeID
| inside
    {element : XMLElement} {elements : List XMLElement}
    {treeID : Text}
    (hType : elementType factory element ≠ some .subtree)
    (hBelow :
      SubtreeIn factory (childElements element.children)
        treeID) :
    SubtreeIn factory (element :: elements) treeID
| later
    {element : XMLElement} {elements : List XMLElement}
    {treeID : Text}
    (hLater : SubtreeIn factory elements treeID) :
    SubtreeIn factory (element :: elements) treeID

/- One tree has a SubTree that names another. -/
def Refers
    (factory : NodeFactory) (parser : Parser) (a b : Text) :
    Prop :=
  ∃ tree element,
    parser.treeRoots a = some tree ∧
      (childElements tree.children).head? = some element ∧
      SubtreeIn factory [element] b

theorem acc_of_creates
    {path : Text} {elements : List XMLElement}
    {bs : List Built} {s s' : Building}
    (hCreates : Creates factory parser path elements s bs s')
    {treeID : Text}
    (hIn : SubtreeIn factory elements treeID) :
    Acc (fun b a => Refers factory parser a b) treeID := by
  induction hCreates generalizing treeID with
  | nil => cases hIn
  | node hNode hType hChildren hRest ihChildren ihRest =>
      cases hIn with
      | here hSubtree hID =>
          rw [elementType_of_createNodeFromXML hNode] at hSubtree
          exact absurd (Option.some.inj hSubtree) hType
      | inside hOther hBelow => exact ihChildren hBelow
      | later hLater => exact ihRest hLater
  | subtree hNode hType hID hBoard hFresh hTree hRoot hInside
      hRest ihInside ihRest =>
      cases hIn with
      | here hSubtree hNamed =>
          rw [hID] at hNamed
          cases hNamed
          refine Acc.intro _ ?_
          rintro b ⟨tree', element', hTree', hRoot', hIn'⟩
          rw [hTree] at hTree'
          cases hTree'
          rw [hRoot] at hRoot'
          cases hRoot'
          exact ihInside hIn'
      | inside hOther hBelow =>
          rw [elementType_of_createNodeFromXML hNode, hType]
            at hOther
          exact absurd rfl hOther
      | later hLater => exact ihRest hLater

/- A tree that was created is reached by no endless chain. -/
theorem acc_of_createsTree
    {treeID path : Text} {s s' : Building} {root : Built}
    (hCreates : CreatesTree factory parser treeID path s root s') :
    Acc (fun b a => Refers factory parser a b) treeID := by
  rcases hCreates with ⟨tree, element, hTree, hRoot, hInside⟩
  refine Acc.intro _ ?_
  rintro b ⟨tree', element', hTree', hRoot', hIn⟩
  rw [hTree] at hTree'
  cases hTree'
  rw [hRoot] at hRoot'
  cases hRoot'
  exact acc_of_creates hInside hIn

/- There is no cycle below what is well founded. -/
theorem not_cycle_of_acc
    {α : Type} {r : α → α → Prop} {a b : α}
    (hAcc : Acc (fun y x => r x y) a)
    (hReach : Relation.ReflTransGen r a b) :
    ¬ Relation.TransGen r b b := by
  have hBelow : Acc (fun y x => r x y) b := by
    induction hReach with
    | refl => exact hAcc
    | tail hFirst hLast ih => exact ih.inv hLast
  have hTrans : Acc (Relation.TransGen fun y x => r x y) b :=
    hBelow.transGen
  induction hTrans with
  | intro b hInside ih =>
      intro hCycle
      have hSwap :
          Relation.TransGen (fun y x => r x y) b b :=
        Relation.transGen_swap.mpr hCycle
      exact ih b hSwap hReach hBelow hCycle

------------------------------------------------------------
-- Errors
------------------------------------------------------------

/- An error that is of one tree, and not of their nesting. -/
def Local : CreateError → Prop
| .cycle _ => False
| .outOfFuel => False
| _ => True

theorem raises_checkValue
    (name value : Text) (port : PortInfo) :
    Raises Local (checkValue name value port) := by
  unfold checkValue
  simp only
  split
  · exact .ok _
  · split
    · split
      · exact .ok _
      · exact .error trivial
    · exact .ok _

theorem raises_checkPorts
    (manifest : Option TreeNodeManifest) (element : XMLElement) :
    Raises Local (checkPorts manifest element) := by
  refine Raises.forM (fun att => ?_) _
  split
  · unfold checkPort
    split
    · exact .ok _
    · split
      · exact .error trivial
      · exact raises_checkValue _ _ _
  · exact .ok _

theorem raises_resolveID (element : XMLElement) :
    Raises Local (resolveID factory element) := by
  unfold resolveID
  simp only
  split
  · split
    · exact .error trivial
    · split
      · exact .error trivial
      · exact .ok _
  · split
    · exact .ok _
    · split
      · exact .error trivial
      · exact .error trivial

theorem raises_declarePort (bb : Blackboard) (c : Connection) :
    Raises Local (declarePort factory bb c) := by
  unfold declarePort
  split
  · exact .ok _
  · split
    · split
      · exact .error trivial
      · exact .ok _
    · split
      · exact .ok _
      · exact .error trivial

theorem raises_instantiateTreeNode
    (name ID : Text) (config : NodeConfig) :
    Raises Local (instantiateTreeNode factory name ID config) := by
  unfold instantiateTreeNode
  split
  · exact .error trivial
  · split
    · exact .error trivial
    · refine Raises.bind (Raises.forM (fun cond => ?_) _)
        fun _ _ => .ok _
      split
      · exact .ok _
      · exact .error trivial

theorem raises_createNode
    (path : Text) (element : XMLElement)
    (resolved : NodeType × Text) (s : Building) :
    Raises Local (createNode factory path element resolved s) := by
  unfold createNode
  split
  · exact (raises_instantiateTreeNode _ _ _).bind
      fun _ _ => .ok _
  · unfold createTreeNode
    simp only
    split
    · exact .error trivial
    · exact (Raises.foldlM raises_declarePort _ _).bind
        fun _ _ => (raises_instantiateTreeNode _ _ _).bind
          fun _ _ => .ok _

theorem raises_createNodeFromXML
    (hasChild : Bool) (path : Text) (element : XMLElement)
    (s : Building) :
    Raises Local
      (createNodeFromXML factory hasChild path element s) := by
  unfold createNodeFromXML
  refine (raises_resolveID element).bind fun resolved _ => ?_
  refine Raises.bind ?_ fun _ _ => ?_
  · unfold validateInstanceName
    split
    · exact .ok _
    · split
      · exact .error trivial
      · exact .ok _
  · refine (raises_checkPorts _ element).bind fun _ _ => ?_
    refine (raises_createNode path element resolved s).bind
      fun created _ => ?_
    unfold attach
    split
    · exact .error trivial
    · exact .ok _

theorem raises_remapSubtree
    (subtreeID : Text) (element : XMLElement)
    (bb : Blackboard) :
    Raises Local
      (remapSubtree factory parser subtreeID element bb) := by
  unfold remapSubtree
  simp only
  refine Raises.bind (Raises.foldlM (fun before att => ?_) _ _)
    fun autoremap _ => ?_
  · split
    · split
      · exact .ok _
      · exact .error trivial
    · exact .ok _
  · have hRest (remapping : List (Text × Text)) :
        Raises Local (do
          let bb ← remapping.foldlM (remapPort factory)
            (newBoard bb)
          pure (bb.enableAutoRemapping autoremap) :
            Except CreateError Blackboard) := by
      refine Raises.bind (Raises.foldlM (fun bb att => ?_) _ _)
        fun _ _ => .ok _
      unfold remapPort
      split
      · exact .ok _
      · split
        · exact .ok _
        · exact .error trivial
    split
    · exact hRest _
    · refine Raises.bind
        (Raises.foldlM (fun remapping port => ?_) _ _)
        fun remapping _ => hRest remapping
      split
      · split
        · exact .error trivial
        · exact .ok _
      · exact .ok _

/- The error is local, or of a tree that is entered. -/
def OfEntered
    (factory : NodeFactory) (enter : Enter)
    (elements : List XMLElement) (e : CreateError) : Prop :=
  Local e ∨ ∃ treeID inner s,
    SubtreeIn factory elements treeID ∧
      enter treeID inner s = .error e

theorem subtreeIn_of_mem
    {element : XMLElement} {elements : List XMLElement}
    {treeID : Text}
    (hMem : element ∈ elements)
    (hIn : SubtreeIn factory [element] treeID) :
    SubtreeIn factory elements treeID := by
  induction elements with
  | nil => cases hMem
  | cons head elements ih =>
      rcases List.mem_cons.mp hMem with rfl | hLater
      · cases hIn with
        | here hType hID => exact .here hType hID
        | inside hType hBelow => exact .inside hType hBelow
        | later hNil => cases hNil
      · exact .later (ih hLater)

theorem raises_createChildren
    {P : CreateError → Prop} {isDecorator : Bool}
    {create :
      Bool → XMLElement → Building →
        Except CreateError (Built × Building)}
    {elements : List XMLElement}
    (hCreate : ∀ element ∈ elements, ∀ hasChild s,
      Raises P (create hasChild element s))
    (hasChild : Bool) (s : Building) :
    Raises P
      (createChildren create isDecorator hasChild elements s) := by
  induction elements generalizing hasChild s with
  | nil => exact .ok _
  | cons element elements ih =>
      rw [createChildren]
      refine (hCreate element List.mem_cons_self hasChild s).bind
        fun _ _ => ?_
      exact (ih (fun e hMem => hCreate e
        (List.mem_cons_of_mem _ hMem)) _ _).bind fun _ _ => .ok _

theorem raises_enterSubtree
    {enter : Enter} {path : Text} {element : XMLElement}
    (hType : elementType factory element = some .subtree)
    (object : NodeObject) (s : Building) :
    Raises (OfEntered factory enter [element])
      (enterSubtree factory parser enter path element object
        s) := by
  unfold enterSubtree
  cases hID : element.attributeValue "ID".toList with
  | none => exact .error (.inl trivial)
  | some treeID =>
      refine ((raises_remapSubtree treeID element _).mono
        fun _ => .inl).bind fun bb _ => ?_
      simp only
      split
      · exact .error (.inl trivial)
      · refine Raises.bind ?_ fun _ _ => .ok _
        intro e hError
        exact .inr ⟨_, _, _, .here hType hID, hError⟩

theorem raises_recursiveStep
    {enter : Enter} {path : Text} {levels : Nat}
    (hasChild : Bool) (element : XMLElement) (s : Building) :
    Raises (OfEntered factory enter [element])
      (recursiveStep factory parser enter path levels hasChild
        element s) := by
  induction levels generalizing hasChild element s with
  | zero => exact .error (.inl trivial)
  | succ levels ih =>
      rw [recursiveStep]
      refine ((raises_createNodeFromXML hasChild _ element
        s).mono fun _ => .inl).bind fun created hNode => ?_
      rcases created with ⟨object, s₁⟩
      have hElement := elementType_of_createNodeFromXML hNode
      simp only
      split
      · next hType =>
          rw [hType] at hElement
          exact raises_enterSubtree hElement object s₁
      · next hType =>
          refine Raises.bind (raises_createChildren ?_ _ _)
            fun _ _ => .ok _
          intro child hMem hasChild' s'
          refine (ih hasChild' child s').mono fun e hError => ?_
          rcases hError with hLocal |
            ⟨treeID, inner, s'', hIn, hEnter⟩
          · exact .inl hLocal
          · refine .inr ⟨treeID, inner, s'', ?_, hEnter⟩
            refine .inside ?_ (subtreeIn_of_mem hMem hIn)
            rw [hElement]
            exact fun hSame => hType (Option.some.inj hSame)

/-
  An error of a tree is local, or a cycle, or of a tree that
  it refers to.
-/
theorem error_of_recursivelyCreateSubtree
    {fuel : Nat} {ancestors : List Text} {treeID path : Text}
    {s : Building} {e : CreateError}
    (hError :
      recursivelyCreateSubtree factory parser (fuel + 1)
        ancestors treeID path s = .error e) :
    Local e ∨
      treeID ∈ ancestors ∧ e = .cycle treeID ∨
      ∃ b inner s',
        treeID ∉ ancestors ∧ (parser.treeRoots treeID).isSome ∧
          Refers factory parser treeID b ∧
          recursivelyCreateSubtree factory parser fuel
            (treeID :: ancestors) b inner s' = .error e := by
  rw [recursivelyCreateSubtree] at hError
  split at hError
  · next hMem =>
      cases hError
      exact .inr (.inl ⟨hMem, rfl⟩)
  · next hMem =>
      cases hTree : parser.treeRoots treeID with
      | none =>
          simp only [hTree] at hError
          cases hError
          exact .inl trivial
      | some tree =>
          simp only [hTree] at hError
          cases hElements : childElements tree.children with
          | nil =>
              simp only [hElements] at hError
              cases hError
              exact .inl trivial
          | cons element elements =>
              simp only [hElements] at hError
              rcases raises_recursiveStep _ _ _ e hError with
                hLocal | ⟨b, inner, s', hIn, hEnter⟩
              · exact .inl hLocal
              · exact .inr (.inr ⟨b, inner, s', hMem, rfl,
                  ⟨tree, element, hTree, by rw [hElements]; rfl,
                    hIn⟩, hEnter⟩)

/- The trees above lead to a tree, and to what it names. -/
theorem cycle_of_error
    {fuel : Nat} {ancestors : List Text}
    {treeID path tree : Text} {s : Building}
    (hAbove : ∀ a ∈ ancestors,
      Relation.TransGen (Refers factory parser) a treeID)
    (hError :
      recursivelyCreateSubtree factory parser fuel ancestors
        treeID path s = .error (.cycle tree)) :
    Relation.ReflTransGen (Refers factory parser) treeID tree ∧
      Relation.TransGen (Refers factory parser) tree tree := by
  induction fuel generalizing ancestors treeID path s with
  | zero => cases hError
  | succ fuel ih =>
      rcases error_of_recursivelyCreateSubtree hError with
        hLocal | ⟨hMem, hSame⟩ |
        ⟨b, inner, s', -, -, hRefers, hInside⟩
      · exact hLocal.elim
      · cases hSame
        exact ⟨.refl, hAbove tree hMem⟩
      · have hBelow : ∀ a ∈ treeID :: ancestors,
            Relation.TransGen (Refers factory parser) a b := by
          intro a hMem
          rcases List.mem_cons.mp hMem with rfl | hOld
          · exact .single hRefers
          · exact (hAbove a hOld).tail hRefers
        rcases ih hBelow hInside with ⟨hReach, hCycle⟩
        exact ⟨hReach.head hRefers, hCycle⟩

/- The trees above are distinct and registered. -/
theorem ne_outOfFuel
    {names : Finset Text}
    (hNames : ∀ treeID, (parser.treeRoots treeID).isSome →
      treeID ∈ names)
    {fuel : Nat} {ancestors : List Text} {treeID path : Text}
    {s : Building}
    (hNodup : ancestors.Nodup)
    (hAncestors : ∀ a ∈ ancestors, a ∈ names)
    (hFuel : names.card < fuel + ancestors.length) :
    recursivelyCreateSubtree factory parser fuel ancestors
      treeID path s ≠ .error .outOfFuel := by
  induction fuel generalizing ancestors treeID path s with
  | zero =>
      have hFew : ancestors.length ≤ names.card := by
        rw [← List.toFinset_card_of_nodup hNodup]
        refine Finset.card_le_card fun a hMem => ?_
        exact hAncestors a (List.mem_toFinset.mp hMem)
      omega
  | succ fuel ih =>
      intro hError
      rcases error_of_recursivelyCreateSubtree hError with
        hLocal | ⟨-, hSame⟩ |
        ⟨b, inner, s', hNew, hSome, -, hInside⟩
      · exact hLocal
      · cases hSame
      · refine ih (List.nodup_cons.mpr ⟨hNew, hNodup⟩) ?_ ?_
          hInside
        · intro a hMem
          rcases List.mem_cons.mp hMem with rfl | hOld
          · exact hNames a hSome
          · exact hAncestors a hOld
        · rw [List.length_cons]
          omega

/- No more trees stand in each other than are registered. -/
theorem instantiateTree_ne_outOfFuel
    (factory : NodeFactory) (parser : Parser) :
    ∃ enough, ∀ fuel ≥ enough, ∀ mainTreeID bb,
      instantiateTree factory parser fuel mainTreeID bb ≠
        .error .outOfFuel := by
  refine ⟨parser.finite.toFinset.card + 1, ?_⟩
  intro fuel hFuel mainTreeID bb
  have hNames : ∀ treeID, (parser.treeRoots treeID).isSome →
      treeID ∈ parser.finite.toFinset :=
    fun treeID => parser.finite.mem_toFinset.mpr
  refine ne_outOfFuel hNames List.nodup_nil
    (fun a hMem => by cases hMem) ?_
  rw [List.length_nil]
  omega

------------------------------------------------------------
-- Nesting
------------------------------------------------------------

theorem createsTree_of_subtreeIn
    {path : Text} {elements : List XMLElement}
    {bs : List Built} {s s' : Building}
    (hCreates : Creates factory parser path elements s bs s')
    {treeID : Text}
    (hIn : SubtreeIn factory elements treeID) :
    ∃ inner before root after,
      CreatesTree factory parser treeID inner before root
        after := by
  induction hCreates generalizing treeID with
  | nil => cases hIn
  | node hNode hType hChildren hRest ihChildren ihRest =>
      cases hIn with
      | here hSubtree hID =>
          rw [elementType_of_createNodeFromXML hNode] at hSubtree
          exact absurd (Option.some.inj hSubtree) hType
      | inside hOther hBelow => exact ihChildren hBelow
      | later hLater => exact ihRest hLater
  | @subtree _ _ _ _ _ _ _ _ bb _ _ _ s₁ _ _ hNode hType hID
      hBoard hFresh hTree hRoot hInside hRest ihInside ihRest =>
      cases hIn with
      | here hSubtree hNamed =>
          rw [hID] at hNamed
          cases hNamed
          exact ⟨_, { s₁ with blackboard := bb }, _, _, _, _,
            hTree, hRoot, hInside⟩
      | inside hOther hBelow =>
          rw [elementType_of_createNodeFromXML hNode, hType]
            at hOther
          exact absurd rfl hOther
      | later hLater => exact ihRest hLater

/- What a tree that was created refers to was created too. -/
theorem isSome_of_createsTree
    {treeID path b : Text} {s s' : Building} {root : Built}
    (hCreates : CreatesTree factory parser treeID path s root s')
    (hReach :
      Relation.ReflTransGen (Refers factory parser) treeID b) :
    (parser.treeRoots b).isSome := by
  have hCreated : ∃ inner before root after,
      CreatesTree factory parser b inner before root after := by
    induction hReach with
    | refl => exact ⟨path, s, root, s', hCreates⟩
    | tail hFirst hLast ih =>
        rcases ih with ⟨_, _, _, _, tree, element, hTree, hRoot,
          hInside⟩
        rcases hLast with ⟨tree', element', hTree', hRoot', hIn⟩
        rw [hTree] at hTree'
        cases hTree'
        rw [hRoot] at hRoot'
        cases hRoot'
        exact createsTree_of_subtreeIn hInside hIn
  rcases hCreated with ⟨_, _, _, _, tree, element, hTree, -⟩
  rw [hTree]
  rfl

/-
  The creation of a tree ends. When it succeeds, the trees
  that are named, also by others, are there and name no cycle;
  a cycle that is reported is there, and below the main tree.
-/
theorem instantiateTree_nests
    (factory : NodeFactory) (parser : Parser) :
    ∃ enough, ∀ fuel ≥ enough, ∀ mainTreeID bb,
      match instantiateTree factory parser fuel mainTreeID bb with
      | .ok _ =>
          ∀ treeID,
            Relation.ReflTransGen (Refers factory parser)
                mainTreeID treeID →
              (parser.treeRoots treeID).isSome ∧
                ¬ Relation.TransGen (Refers factory parser)
                  treeID treeID
      | .error e =>
          e ≠ .outOfFuel ∧
            ∀ treeID, e = .cycle treeID →
              Relation.ReflTransGen (Refers factory parser)
                  mainTreeID treeID ∧
                Relation.TransGen (Refers factory parser)
                  treeID treeID := by
  rcases instantiateTree_ne_outOfFuel factory parser with
    ⟨enough, hEnds⟩
  refine ⟨enough, fun fuel hFuel mainTreeID bb => ?_⟩
  cases hCreate :
      instantiateTree factory parser fuel mainTreeID bb with
  | ok result =>
      rcases result with ⟨tree, s⟩
      have hCreates := creates_of_instantiateTree hCreate
      intro treeID hReach
      exact ⟨isSome_of_createsTree hCreates hReach,
        not_cycle_of_acc (acc_of_createsTree hCreates) hReach⟩
  | error e =>
      refine ⟨fun hSame => ?_, fun treeID hSame => ?_⟩
      · rw [hSame] at hCreate
        exact hEnds fuel hFuel mainTreeID bb hCreate
      · rw [hSame] at hCreate
        exact cycle_of_error (fun a hMem => by cases hMem)
          hCreate

end Factory

end Manipulator
