import Manipulator.Numerals
import Mathlib.Data.Int.Cast.Defs

/-
  The messages and action types of `custom_msgs`, over a
  type `K` for the floating-point fields.

  Main declarations:
    * `Pos`, `BoundingBox`
    * `ApproachResult`, `MoveGoal`
    * `GoalHandle`
-/

------------------------------------------------------------
-- Topics
------------------------------------------------------------

namespace Manipulator

/- `Pos.msg`: a commanded pose on `pose_data`. -/
structure Pos (K : Type) where
  x : K
  y : K
  z : K
  yaw : K
  grip : String
  mode : Int
deriving DecidableEq, Repr

/-
  `BoundingBox.msg`: the detections of one camera image.
  Four entries of `xyxy` belong to each box.
-/
structure BoundingBox (K : Type) where
  xyxy : List Int32
  labels : List String
  confidence : List K
  angles : List K
  hasBox : Bool
deriving DecidableEq, Repr

namespace BoundingBox

variable {K : Type}

/- `BoundingBox()`: every field has its default. -/
def default : BoundingBox K where
  xyxy := []
  labels := []
  confidence := []
  angles := []
  hasBox := false

/- The whole boxes in the flat array of corners. -/
def count (box : BoundingBox K) : Nat :=
  box.xyxy.length / 4

/- The test that `timer_callback` makes of the array. -/
def Valid (box : BoundingBox K) : Prop :=
  box.xyxy.length % 4 = 0

instance (box : BoundingBox K) : Decidable box.Valid := by
  unfold Valid
  infer_instance

/-
  What the detector promises: a message that reports a box
  carries one, and the arrays run in parallel.
-/
def WellFormed (box : BoundingBox K) : Prop :=
  (box.hasBox = true → 0 < box.count) ∧
    box.labels.length = box.count ∧
    box.angles.length = box.count

instance (box : BoundingBox K) : Decidable box.WellFormed := by
  unfold WellFormed
  infer_instance

end BoundingBox

------------------------------------------------------------
-- Actions
------------------------------------------------------------

/- The result of `Approach.action`. -/
structure ApproachResult (K : Type) where
  goalX : K
  goalY : K
  goalZ : K
  goalYaw : K
  label : String
  success : Bool
deriving DecidableEq, Repr

/- The goal of `Move.action`. -/
structure MoveGoal (K : Type) where
  sX : K
  sY : K
  sZ : K
  sYaw : K
  speed : K
  gX : K
  gY : K
  gZ : K
  gYaw : K
  grip : String
deriving DecidableEq, Repr

/- The calls with which a server ends a goal. -/
inductive Terminal where
| succeeded
| canceled
| aborted
deriving DecidableEq, Repr

/-
  What the servers' goal handles keep: whether a cancel
  request was accepted, and how the goal ended.
-/
structure GoalHandle where
  cancelRequested : Bool
  ended : Option Terminal
deriving DecidableEq, Repr

namespace GoalHandle

def new : GoalHandle := ⟨false, none⟩

/- A goal that was accepted and has not ended. -/
def Executing (handle : GoalHandle) : Prop :=
  handle.ended = none

instance (handle : GoalHandle) :
    Decidable handle.Executing := by
  unfold Executing
  infer_instance

def cancel (handle : GoalHandle) : GoalHandle :=
  { handle with cancelRequested := true }

def succeed (handle : GoalHandle) : GoalHandle :=
  { handle with ended := some .succeeded }

end GoalHandle

end Manipulator
