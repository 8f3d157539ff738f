import Manipulator.Factory.Creation
import Manipulator.Decimal

/-
  How the nodes and the subtrees of a tree are told apart.

  Nodes are numbered as they are created, by a counter of 16
  bits. A node without a name of its own ends its path in its
  number, and each subtree has a path of its own.

  Main declarations:
    * `Built.objects`, `Built.paths`
    * `numbers_of_creates`, `paths_of_creates`
    * `identities_of_instantiateTree`
-/

------------------------------------------------------------
-- Nodes And Subtrees Of A Tree
------------------------------------------------------------

namespace Manipulator

namespace Factory

open Xml (Text XMLElement)
open Scripting (Blackboard)
open Decimal

mutual

/- The nodes, each before those below it. -/
def Built.objects : Built → List NodeObject
| .node object children => object :: objectsAll children
| .subtree object _ _ _ root => object :: root.objects

def objectsAll : List Built → List NodeObject
| [] => []
| built :: rest => built.objects ++ objectsAll rest

end

mutual

/- The paths of the subtrees, in the same order. -/
def Built.paths : Built → List Text
| .node _ children => pathsAll children
| .subtree _ path _ _ root => path :: root.paths

def pathsAll : List Built → List Text
| [] => []
| built :: rest => built.paths ++ pathsAll rest

end

/- The numbers that are given after a count. -/
def numbers (count n : Nat) : List Nat :=
  (List.range n).map fun i => (count + 1 + i) % 2 ^ 16

theorem numbers_add (count m n : Nat) :
    numbers count (m + n) =
      numbers count m ++ numbers (count + m) n := by
  unfold numbers
  rw [List.range_add, List.map_append, List.map_map]
  congr 1
  refine List.map_congr_left fun i _ => ?_
  rw [Function.comp_apply]
  congr 1
  omega

theorem numbers_congr
    {count count' : Nat}
    (hCount : count % 2 ^ 16 = count' % 2 ^ 16)
    (n : Nat) : numbers count n = numbers count' n := by
  refine List.map_congr_left fun i _ => ?_
  omega

theorem numbers_one (count : Nat) :
    numbers count 1 = [(count + 1) % 2 ^ 16] := rfl

------------------------------------------------------------
-- Numbers
------------------------------------------------------------

variable {factory : NodeFactory} {parser : Parser}

theorem numbers_of_creates
    {path : Text} {elements : List XMLElement}
    {bs : List Built} {s s' : Building}
    (hCreates : Creates factory parser path elements s bs s') :
    (objectsAll bs).map (·.config.uid) =
        numbers s.uidCounter (objectsAll bs).length ∧
      s'.uidCounter % 2 ^ 16 =
        (s.uidCounter + (objectsAll bs).length) % 2 ^ 16 := by
  induction hCreates with
  | nil => exact ⟨rfl, rfl⟩
  | @node _ _ _ _ object children rest s s₁ s₂ s₃ hNode hType
      hChildren hRest ihChildren ihRest =>
      rcases uid_of_createNodeFromXML hNode with ⟨hUID, hNext, -⟩
      have hCount : s₁.uidCounter % 2 ^ 16 =
          (s.uidCounter + 1) % 2 ^ 16 := by
        rw [hNext, nextUID, Nat.mod_mod]
      have hLater : s₂.uidCounter % 2 ^ 16 =
          (s.uidCounter + (1 + (objectsAll children).length)) %
            2 ^ 16 := by
        rw [ihChildren.2]
        omega
      have hLength :
          (objectsAll (.node object children :: rest)).length =
            1 + (objectsAll children).length +
              (objectsAll rest).length := by
        simp only [objectsAll, Built.objects, List.cons_append,
          List.length_cons, List.length_append]
        omega
      refine ⟨?_, ?_⟩
      · rw [hLength, numbers_add, numbers_add, numbers_one,
          ← numbers_congr hCount, ← numbers_congr hLater,
          ← ihChildren.1, ← ihRest.1, objectsAll, Built.objects,
          List.map_append, List.map_cons, hUID]
        rfl
      · rw [hLength, ihRest.2]
        omega
  | @subtree _ _ _ _ object _ _ _ bb root rest s s₁ s₂ s₃ hNode
      hType hID hBoard hFresh hTree hRoot hInside hRest ihInside
      ihRest =>
      rcases uid_of_createNodeFromXML hNode with ⟨hUID, hNext, -⟩
      have hCount : s₁.uidCounter % 2 ^ 16 =
          (s.uidCounter + 1) % 2 ^ 16 := by
        rw [hNext, nextUID, Nat.mod_mod]
      simp only [objectsAll, List.append_nil] at ihInside ihRest
      have hLater : s₂.uidCounter % 2 ^ 16 =
          (s.uidCounter + (1 + root.objects.length)) %
            2 ^ 16 := by
        rw [ihInside.2]
        omega
      simp only [objectsAll, Built.objects, List.cons_append,
        List.length_cons, List.length_append, List.map_cons,
        List.map_append]
      have hLength :
          root.objects.length + (objectsAll rest).length + 1 =
            1 + root.objects.length +
              (objectsAll rest).length := by
        omega
      refine ⟨?_, ?_⟩
      · rw [hLength, numbers_add, numbers_add, numbers_one,
          ← numbers_congr hCount, ← numbers_congr hLater,
          ← ihInside.1, ← ihRest.1, hUID]
        rfl
      · rw [ihRest.2]
        omega

/- Up to 2^16 nodes have numbers of their own. -/
theorem nodup_numbers_iff (count n : Nat) :
    (numbers count n).Nodup ↔ n ≤ 2 ^ 16 := by
  constructor
  · intro hNodup
    by_contra hMany
    have hInj := (List.nodup_map_iff_inj_on
      List.nodup_range).mp hNodup
    have hSame := hInj 0 (List.mem_range.mpr (by omega))
      (2 ^ 16) (List.mem_range.mpr (by omega)) (by omega)
    omega
  · intro hFew
    refine (List.nodup_map_iff_inj_on List.nodup_range).mpr ?_
    intro i hI j hJ hSame
    rw [List.mem_range] at hI hJ
    omega

------------------------------------------------------------
-- Paths
------------------------------------------------------------

theorem paths_of_creates
    {path : Text} {elements : List XMLElement}
    {bs : List Built} {s s' : Building}
    (hCreates : Creates factory parser path elements s bs s')
    (hNodup : s.subtrees.Nodup) :
    s'.subtrees = s.subtrees ++ pathsAll bs ∧
      s'.subtrees.Nodup := by
  induction hCreates with
  | nil => exact ⟨by simp [pathsAll], hNodup⟩
  | node hNode hType hChildren hRest ihChildren ihRest =>
      rcases uid_of_createNodeFromXML hNode with ⟨-, -, hSame⟩
      rw [hSame] at ihChildren
      rcases ihChildren hNodup with ⟨hBelow, hDistinct⟩
      rcases ihRest hDistinct with ⟨hAfter, hLast⟩
      refine ⟨?_, hLast⟩
      rw [hAfter, hBelow, List.append_assoc]
      rfl
  | subtree hNode hType hID hBoard hFresh hTree hRoot hInside
      hRest ihInside ihRest =>
      rcases uid_of_createNodeFromXML hNode with ⟨-, -, hSame⟩
      rw [hSame] at hFresh ihInside
      have hNew := hNodup.concat hFresh
      rw [List.concat_eq_append] at hNew
      rcases ihInside hNew with ⟨hBelow, hDistinct⟩
      rcases ihRest hDistinct with ⟨hAfter, hLast⟩
      refine ⟨?_, hLast⟩
      simp only [hAfter, hBelow, pathsAll, Built.paths,
        List.append_assoc, List.append_nil, List.cons_append,
        List.nil_append]

/- A path ends in the number of a node without a name. -/
theorem paths_of_objects
    {path : Text} {elements : List XMLElement}
    {bs : List Built} {s s' : Building}
    (hCreates : Creates factory parser path elements s bs s') :
    ∀ object ∈ objectsAll bs, ∃ before,
      object.config.path =
        nodePath before object.typeID object.name
          object.config.uid := by
  induction hCreates with
  | nil => intro object hMem; cases hMem
  | node hNode hType hChildren hRest ihChildren ihRest =>
      intro object hMem
      simp only [objectsAll, Built.objects, List.cons_append,
        List.mem_cons, List.mem_append] at hMem
      rcases hMem with rfl | hBelow | hAfter
      · exact ⟨_, path_of_createNodeFromXML hNode⟩
      · exact ihChildren object hBelow
      · exact ihRest object hAfter
  | subtree hNode hType hID hBoard hFresh hTree hRoot hInside
      hRest ihInside ihRest =>
      intro object hMem
      simp only [objectsAll, Built.objects, List.cons_append,
        List.append_nil, List.mem_cons, List.mem_append]
        at hMem ihInside
      rcases hMem with rfl | hBelow | hAfter
      · exact ⟨_, path_of_createNodeFromXML hNode⟩
      · exact ihInside object hBelow
      · exact ihRest object hAfter

/- The digits at the end, read from there. -/
theorem readNat_nodePath (path name : Text) (uid : Nat) :
    readNat ((nodePath path name name uid).reverse.takeWhile
      Char.isDigit).reverse = some uid := by
  have hReverse :
      (nodePath path name name uid).reverse =
        (Nat.toDigits 10 uid).reverse ++
          ':' :: ':' :: (path ++ name).reverse := by
    simp [nodePath]
  have hDigits : ∀ c ∈ (Nat.toDigits 10 uid).reverse,
      Char.isDigit c = true := by
    intro c hMem
    exact Nat.isDigit_of_mem_toDigits (by decide) (by decide)
      (List.mem_reverse.mp hMem)
  rw [hReverse, takeWhile_run hDigits (stops_cons _ (by decide)),
    List.reverse_reverse, readNat_toDigits]

------------------------------------------------------------
-- Identities
------------------------------------------------------------

/-
  The subtrees of a tree have paths of their own. The nodes
  are numbered from one on, so that their numbers differ as
  long as there are at most 2^16 of them, and so do then the
  paths of the nodes without names of their own.
-/
theorem identities_of_instantiateTree
    {fuel : Nat} {mainTreeID : Text} {bb : Blackboard}
    {tree : Built} {s : Building}
    (hCreate :
      instantiateTree factory parser fuel mainTreeID bb =
        .ok (tree, s)) :
    ([] :: tree.paths).Nodup ∧
      tree.objects.map (·.config.uid) =
        (List.range tree.objects.length).map
          (fun i => (i + 1) % 2 ^ 16) ∧
      ((tree.objects.map (·.config.uid)).Nodup ↔
        tree.objects.length ≤ 2 ^ 16) ∧
      (tree.objects.length ≤ 2 ^ 16 →
        tree.objects.Pairwise fun a b =>
          a.typeID = a.name → b.typeID = b.name →
            a.config.path ≠ b.config.path) := by
  rcases creates_of_instantiateTree hCreate with
    ⟨_, element, -, -, hCreates⟩
  have hUIDs := (numbers_of_creates hCreates).1
  have hPaths := paths_of_creates hCreates
    (List.nodup_singleton _)
  have hEnds := paths_of_objects hCreates
  simp only [objectsAll, pathsAll, List.append_nil,
    List.nil_append, List.singleton_append] at hUIDs hPaths hEnds
  have hDistinct :
      (tree.objects.map (·.config.uid)).Nodup ↔
        tree.objects.length ≤ 2 ^ 16 := by
    rw [hUIDs]
    exact nodup_numbers_iff 0 _
  refine ⟨hPaths.1 ▸ hPaths.2, ?_, hDistinct, ?_⟩
  · rw [hUIDs]
    refine List.map_congr_left fun i _ => ?_
    rw [Nat.zero_add, Nat.add_comm]
  · intro hFew
    have hPairwise := List.pairwise_map.mp (hDistinct.mpr hFew)
    refine hPairwise.imp_of_mem ?_
    intro a b hA hB hUID hNoA hNoB hSame
    rcases hEnds a hA with ⟨beforeA, hPathA⟩
    rcases hEnds b hB with ⟨beforeB, hPathB⟩
    have hReadA := readNat_nodePath beforeA a.name a.config.uid
    have hReadB := readNat_nodePath beforeB b.name b.config.uid
    rw [hNoA] at hPathA
    rw [hNoB] at hPathB
    rw [← hPathA, hSame, hPathB, hReadB] at hReadA
    exact hUID (Option.some.inj hReadA).symm

/- Ten nodes of two trees, the second one a subtree. -/
theorem identities_of_portRemapping :
    ∃ tree s,
      portRemappingTree = .ok (tree, s) ∧
      tree.objects.length = 10 ∧
      ([] :: tree.paths).Nodup ∧
      tree.objects.map (·.config.uid) =
        (List.range tree.objects.length).map
          (fun i => (i + 1) % 2 ^ 16) ∧
      ((tree.objects.map (·.config.uid)).Nodup ↔
        tree.objects.length ≤ 2 ^ 16) ∧
      (tree.objects.length ≤ 2 ^ 16 →
        tree.objects.Pairwise fun a b =>
          a.typeID = a.name → b.typeID = b.name →
            a.config.path ≠ b.config.path) := by
  have hLength :
      (portRemappingTree.toOption.map
        (·.1.objects.length)) = some 10 := rfl
  cases hCreate : portRemappingTree with
  | error e => rw [hCreate] at hLength; cases hLength
  | ok result =>
      rcases result with ⟨tree, s⟩
      rw [hCreate] at hLength
      exact ⟨tree, s, rfl, Option.some.inj hLength,
        identities_of_instantiateTree hCreate⟩

end Factory

end Manipulator
