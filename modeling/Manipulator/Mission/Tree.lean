import Manipulator.Mission.World

/-
  The mission tree, `main3.xml`.

  The four branches for the bins differ in the label they
  test and in the place of the bin; each is `Bin.branch` of
  its bin.

  Main declarations:
    * `Bin.label`, `Bin.x`, `Bin.y`
    * `Step.ports`, `Step.goal`
    * `Bin.branch`, `cycle`, `main3`
-/

------------------------------------------------------------
-- Poses
------------------------------------------------------------

namespace Manipulator

namespace Mission

namespace Bin

def all : List Bin := [.strawberry, .cola, .orange, .grape]

theorem mem_all (b : Bin) : b ∈ all := by
  cases b <;> simp [all]

def label : Bin → String
| .strawberry => "strawberry"
| .cola => "cola"
| .orange => "orange"
| .grape => "grape"

instance {P : Bin → Prop} [DecidablePred P] :
    Decidable (∃ b, P b) :=
  decidable_of_iff (∃ b ∈ all, P b)
    ⟨fun ⟨b, _, hHolds⟩ => ⟨b, hHolds⟩,
      fun ⟨b, hHolds⟩ => ⟨b, b.mem_all, hHolds⟩⟩

theorem label_injective
    {b b' : Bin} (hLabel : b.label = b'.label) : b = b' := by
  cases b <;> cases b' <;> simp [label] at hLabel ⊢

theorem label_ne_none (b : Bin) : b.label ≠ "none" := by
  cases b <;> simp [label]

variable (K : Type) [Field K]

def x : Bin → K
| .strawberry => -20
| .cola => -20
| .orange => 70
| .grape => 40

def y : Bin → K
| .strawberry => -130
| .cola => -260
| .orange => -240
| .grape => -120

end Bin

variable (K : Type) [Field K]

namespace PosePorts

/- The place that the approach found, at a height. -/
def atTarget (z : K) : PosePorts K where
  x := .entry .goalX
  y := .entry .goalY
  z := .value z
  yaw := .entry .goalYaw

/- The place of a bin, at a height. -/
def atBin (b : Bin) (z : K) : PosePorts K where
  x := .value (b.x K)
  y := .value (b.y K)
  z := .value z
  yaw := .value 0

/- Where every bin's last goal leads. -/
def atHome : PosePorts K where
  x := .value 210
  y := .value 40
  z := .value 40
  yaw := .value (-(88 / 5))

end PosePorts

/- The message of the publisher `move`. -/
def homePose : Pos K where
  x := 210
  y := 40
  z := 40
  yaw := 0
  grip := "open"
  mode := 1

------------------------------------------------------------
-- Goals Of The Tree
------------------------------------------------------------

open PosePorts in
/- The ports of the `smooth_move` nodes. -/
def Step.ports : Step → MovePorts K
| .pick .reach =>
    ⟨atTarget K 70, atTarget K (-105), .value 100, "open"⟩
| .pick .grasp =>
    ⟨atTarget K (-105), atTarget K (-105), .entry .speed,
      "close"⟩
| .pick .raise =>
    ⟨atTarget K (-105), atTarget K 0, .entry .speed, "close"⟩
| .bin b .carry =>
    ⟨atTarget K 0, atBin K b (-10), .entry .speed, "close"⟩
| .bin b .lower =>
    ⟨atBin K b (-10), atBin K b (-80), .entry .speed, "close"⟩
| .bin b .release =>
    ⟨atBin K b (-80), atBin K b (-80), .entry .speed, "open"⟩
| .bin b .lift =>
    ⟨atBin K b (-80), atBin K b (-10), .entry .speed, "open"⟩
| .bin b .home =>
    ⟨atBin K b (-10), atHome K, .entry .speed, "open"⟩

------------------------------------------------------------
-- The Tree
------------------------------------------------------------

open BT.TreeNode

/- A `smooth_move` node. -/
def move (step : Step) : BT.TreeNode (Action K) Script :=
  action (.rosAction (smoothMove step (step.ports K)))

/- A `Precondition` node of the tree; each returns SUCCESS. -/
def when_
    {A : Type}
    (script : Script)
    (child : BT.TreeNode A Script) : BT.TreeNode A Script :=
  precondition script .success child

/- The goals of a bin. -/
def Bin.goals (b : Bin) : List (BT.TreeNode (Action K) Script) :=
  [move K (.bin b .carry), move K (.bin b .lower),
    move K (.bin b .release), move K (.bin b .lift),
    move K (.bin b .home)]

/- The branch of the tree for a bin. -/
def Bin.branch (b : Bin) : BT.TreeNode (Action K) Script :=
  when_ (.labelIs b.label) (sequence (b.goals K))

/- What is done with a target that was found. -/
def pickAndPlace : List (BT.TreeNode (Action K) Script) :=
  [move K (.pick .reach),
    move K (.pick .grasp),
    action (.sleep .grasped 300),
    move K (.pick .raise),
    Bin.strawberry.branch K,
    Bin.cola.branch K,
    Bin.orange.branch K,
    Bin.grape.branch K]

/- One attempt of the retry node. -/
def cycle : List (BT.TreeNode (Action K) Script) :=
  [action (.rosAction approach),
    when_ (.labelIsNot "none") (sequence (pickAndPlace K)),
    when_ (.labelIs "none") (action (.rosAction conveyor)),
    action (.sleep .cycle 1000),
    action .alwaysFailure]

/- `MainTree`. -/
def main3 : BT.TreeNode (Action K) Script :=
  sequence
    [action (.sleep .start 1000),
      action (.setBlackboard .speed 200),
      action (.publish (homePose K)),
      action (.sleep .ready 1000),
      retry (-1) (sequence (cycle K)),
      action .finish]

end Mission

end Manipulator
