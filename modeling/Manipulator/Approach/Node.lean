import Manipulator.Messages
import Mathlib

/-
  The callbacks of the approach node, `approach.py`.

  Floating-point arithmetic is exact arithmetic in an
  ordered field `K`; `atan2` and `pi` are a parameter,
  because they need not be values of `K`. A callback either
  returns or raises: Python's out-of-range index, missing
  attribute and unbound local variable are errors.

  Main declarations:
    * `Node`, `Node.init`
    * `minIndex`, `controlAxis`, `control`
    * `timerCallback`, `boundingBoxCallback`
    * `startGoal`, `finishGoal`
-/

------------------------------------------------------------
-- Parameters
------------------------------------------------------------

namespace Manipulator

namespace Approach

def noBoxCountLimit : Nat := 30

def targetY : Int := 480 - 200

/- `IMAGE_SIZE[1]`. -/
def imageWidth : Int := 640

def approachZ {K : Type} [Field K] : K := 100

def speedLimit {K : Type} [Field K] : K := 10000000

def scaling {K : Type} [Field K] : K := 1 / 1000

/- `X_GAIN` and `Y_GAIN`: P, I and D, in this order. -/
def xGain {K : Type} [Field K] : Fin 3 → K := ![3 / 2, 0, 0]

def yGain {K : Type} [Field K] : Fin 3 → K := ![3 / 2, 0, 0]

/- `[X_GAIN[k]*SCALING, Y_GAIN[k]*SCALING]`. -/
def gain {K : Type} [Field K] (k : Fin 3) : Fin 2 → K :=
  ![xGain k * scaling, yGain k * scaling]

def xTolerance {K : Type} [Field K] : K := 10

def yTolerance {K : Type} [Field K] : K := 10

/- The functions of `math` that the node calls. -/
structure Trig (K : Type) where
  atan2 : K → K → K
  pi : K

------------------------------------------------------------
-- State
------------------------------------------------------------

inductive PyError where
| indexError
| attributeError (name : String)
| unboundLocal (name : String)
deriving DecidableEq, Repr

/- The two values of `self.state`. -/
inductive Phase where
| approach
| turn
deriving DecidableEq, Repr

/-
  The attributes of the node. Those that `__init__` does not
  set are options.
-/
structure Node (K : Type) where
  debugMode : Int
  boxData : Option (BoundingBox K)
  posData : Pos K
  finishEvent : Bool
  noBoxCount : Nat
  goalCount : Nat
  state : Phase
  firstLoop : Bool
  run : Bool
  hasBox : Option Bool
  label : Option String
  prevError : Option (Fin 2 → K)
  integral : Option (Fin 2 → K)

variable {K : Type} [Field K] [LinearOrder K]

/- `__init__`, for a value of the parameter `debug_mode`. -/
def Node.init (debugMode : Int) : Node K where
  debugMode := debugMode
  boxData := some .default
  posData := ⟨0, 0, 0, 0, "", 0⟩
  finishEvent := false
  noBoxCount := 0
  goalCount := 0
  state := .approach
  firstLoop := true
  run := false
  hasBox := none
  label := none
  prevError := none
  integral := none

/- `xs[i]` for an index that is not negative. -/
def index {α : Type} (xs : List α) (i : Nat) : Except PyError α :=
  match xs[i]? with
  | some x => .ok x
  | none => .error .indexError

/- Reading an attribute that may not exist yet. -/
def getAttribute {α : Type}
    (name : String) : Option α → Except PyError α
| some value => .ok value
| none => .error (.attributeError name)

------------------------------------------------------------
-- Selecting A Box
------------------------------------------------------------

/- `(xyxy[i] + xyxy[j]) / 2`. -/
def midpoint
    (xyxy : List Int32)
    (i j : Nat) : Except PyError K := do
  let a ← index xyxy i
  let b ← index xyxy j
  return ((a.toInt + b.toInt : Int) : K) / 2

/- One pass of the loop that looks for the leftmost box. -/
def selectStep
    (xyxy : List Int32)
    (acc : Option K × Nat)
    (i : Nat) : Except PyError (Option K × Nat) := do
  let center ← midpoint xyxy (i * 4) (i * 4 + 2)
  if i = 0 then
    return (some center, acc.2)
  else
    match acc.1 with
    | none => .error (.unboundLocal "min_x")
    | some minX =>
        if center < minX then return (some center, i)
        else return acc

/- The index of the leftmost box. -/
def minIndex
    (K : Type) [Field K] [LinearOrder K]
    (box : BoundingBox K) : Except PyError Nat := do
  let acc ← (List.range box.count).foldlM
    (selectStep box.xyxy) ((none : Option K), 0)
  return acc.2

------------------------------------------------------------
-- The Control Loop
------------------------------------------------------------

/- The centre of box `i`, in image coordinates. -/
def boxCenter
    (box : BoundingBox K)
    (i : Nat) : Except PyError (K × K) := do
  let centerX ← midpoint box.xyxy (i * 4) (i * 4 + 2)
  let centerY ← midpoint box.xyxy (i * 4 + 1) (i * 4 + 3)
  return (centerX, centerY)

/-
  `error`: the image's y axis drives the robot's x axis, and
  the other way round.
-/
def controlError (center : K × K) : Fin 2 → K :=
  ![targetY - center.2, (imageWidth : K) / 2 - 80 - center.1]

/- The clamp to `SPEED_LIMIT`. -/
def clampSpeed (output : K) : K :=
  let output := if output > speedLimit then speedLimit else output
  if output < -speedLimit then -speedLimit else output

/- The head of the PID loop. -/
def Node.firstPass (n : Node K) : Node K :=
  if n.firstLoop then
    { n with
      prevError := some ![0, 0]
      integral := some ![0, 0]
      firstLoop := false }
  else n

/- One pass of the PID loop, for axis `i`. -/
def controlAxis
    (error : Fin 2 → K)
    (n : Node K)
    (i : Fin 2) : Except PyError (Node K) := do
  let n := n.firstPass
  let integral ← getAttribute "integral" n.integral
  let integral :=
    Function.update integral i (integral i + error i * (1 / 10))
  let prevError ← getAttribute "prev_error" n.prevError
  let derivative := (error i - prevError i) / (1 / 10)
  let output := clampSpeed
    (gain 0 i * error i + gain 1 i * integral i +
      gain 2 i * derivative)
  let posData :=
    if i = 0 then { n.posData with x := n.posData.x + output }
    else { n.posData with y := n.posData.y + output }
  return { n with
    integral := some integral
    posData := posData
    prevError := some (Function.update prevError i (error i)) }

/- The goal test on the two errors. -/
def InTolerance (error : Fin 2 → K) : Prop :=
  |error 0| < yTolerance ∧ |error 1| < xTolerance

instance (error : Fin 2 → K) :
    Decidable (InTolerance error) := by
  unfold InTolerance
  infer_instance

/- The message that a tick assembles in `pose_msg`. -/
def poseMsg (n : Node K) (yaw : K) (mode : Int) : Pos K where
  x := n.posData.x
  y := n.posData.y
  z := approachZ
  yaw := yaw
  grip := "open"
  mode := mode

/-
  The body of the approach state. The flag says whether the
  tick returns because the target was reached.
-/
def control
    (box : BoundingBox K)
    (minIndex : Nat)
    (error : Fin 2 → K)
    (n : Node K) : Except PyError (Node K × Bool) := do
  let n ← controlAxis error n 0
  let n ← controlAxis error n 1
  if InTolerance error then
    let n := { n with goalCount := n.goalCount + 1 }
    if n.goalCount ≥ 5 then
      let label ← index box.labels minIndex
      return ({ n with
        state := .turn
        hasBox := some true
        label := some label }, true)
    else
      return ({ n with firstLoop := false }, false)
  else
    return ({ n with firstLoop := false }, false)

------------------------------------------------------------
-- Debug Drawing
------------------------------------------------------------

/-
  The drawing block. Only what it reads can fail: the
  corners of every box and of the selected one, and the
  local variable `center_x`, which only the approach state
  assigns.
-/
def drawDebug
    (box : BoundingBox K)
    (minIndex : Nat)
    (center : Option (K × K)) : Except PyError Unit := do
  for i in List.range box.count do
    let _ ← index box.xyxy (i * 4)
    let _ ← index box.xyxy (i * 4 + 1)
    let _ ← index box.xyxy (i * 4 + 2)
    let _ ← index box.xyxy (i * 4 + 3)
  let _ ← index box.xyxy (minIndex * 4)
  let _ ← index box.xyxy (minIndex * 4 + 1)
  let _ ← index box.xyxy (minIndex * 4 + 2)
  let _ ← index box.xyxy (minIndex * 4 + 3)
  match center with
  | some _ => return ()
  | none => .error (.unboundLocal "center_x")

------------------------------------------------------------
-- Callbacks
------------------------------------------------------------

/- What a tick leaves, publishes and puts in `pose_msg`. -/
structure TickResult (K : Type) where
  node : Node K
  published : Option (Pos K)
  assembled : Option (Pos K)

/- A tick that returns without publishing. -/
def TickResult.silent (n : Node K) : TickResult K :=
  ⟨n, none, none⟩

/- The end of a tick: publish `pos_data`, then draw. -/
def publish
    (box : BoundingBox K)
    (minIndex : Nat)
    (center : Option (K × K))
    (assembled : Pos K)
    (n : Node K) : Except PyError (TickResult K) := do
  if n.debugMode = 1 then
    drawDebug box minIndex center
  return ⟨n, some n.posData, some assembled⟩

/- A tick on a message without a box. -/
def noBoxTick (n : Node K) : Node K :=
  let n := { n with noBoxCount := n.noBoxCount + 1 }
  if n.noBoxCount ≥ noBoxCountLimit then
    { n with
      run := false
      hasBox := some false
      finishEvent := true }
  else n

/- A tick in the approach state. -/
def approachTick
    (box : BoundingBox K)
    (minIndex : Nat)
    (n : Node K) : Except PyError (TickResult K) := do
  let center ← boxCenter box minIndex
  let (n, reached) ← control box minIndex (controlError center) n
  if reached then
    return ⟨n, none, some (poseMsg n 0 1)⟩
  else
    publish box minIndex (some center) (poseMsg n 0 1) n

/- A tick in the turn state, which ends the goal. -/
def turnTick
    (trig : Trig K)
    (box : BoundingBox K)
    (minIndex : Nat)
    (n : Node K) : Except PyError (TickResult K) := do
  let angle ← index box.angles minIndex
  let nowAngle :=
    -(trig.atan2 n.posData.y n.posData.x * 180 / trig.pi)
  let n :=
    { n with posData := { n.posData with yaw := nowAngle + angle } }
  let assembled := poseMsg n n.posData.yaw 0
  let n := { n with run := false, finishEvent := true }
  publish box minIndex none assembled n

/-
  `timer_callback`. The test of `no_box_count` after a box
  was seen is always met, and the approach state is left
  only by a tick that returns.
-/
def timerCallback
    (trig : Trig K)
    (n : Node K) : Except PyError (TickResult K) :=
  if n.run = false then
    .ok (.silent n)
  else
    match n.boxData with
    | none => .ok (.silent n)
    | some box =>
        if ¬ box.Valid then
          .ok (.silent n)
        else if box.hasBox = false then
          .ok (.silent (noBoxTick n))
        else do
          let n := { n with noBoxCount := 0 }
          let i ← minIndex K box
          match n.state with
          | .approach => approachTick box i n
          | .turn => turnTick trig box i n

/- `bounding_box_callback`. -/
def boundingBoxCallback
    (msg : BoundingBox K) (n : Node K) : Node K :=
  { n with boxData := some msg }

/- `execute_callback` up to `finish_event.wait()`. -/
def startGoal (n : Node K) : Node K :=
  { n with
    firstLoop := true
    noBoxCount := 0
    goalCount := 0
    state := .approach
    posData :=
      { n.posData with
        x := 210
        y := 40
        z := 40
        yaw := 0
        grip := "open" }
    run := true
    finishEvent := false }

/- The result that stands for a lost target. -/
def noneResult : ApproachResult K where
  goalX := 0
  goalY := 0
  goalZ := 0
  goalYaw := 0
  label := "none"
  success := true

/- `execute_callback` after `finish_event.wait()`. -/
def finishGoal
    (n : Node K) : Except PyError (ApproachResult K) := do
  let hasBox ← getAttribute "has_box" n.hasBox
  if hasBox then
    let label ← getAttribute "label" n.label
    return {
      goalX := n.posData.x
      goalY := n.posData.y
      goalZ := n.posData.z
      goalYaw := n.posData.yaw
      label := label
      success := true }
  else
    return noneResult

end Approach

end Manipulator
