import Manipulator.Approach.Node
import Manipulator.Machine

/-
  The statements of `timer_callback` and `execute_callback`.

  `Node.lean` runs a callback as a whole. Here a callback is
  a sequence of statements, and another callback may run
  between any two of them. A statement that reads and writes
  attributes of the node is one step; statements that touch
  local variables only belong to the step before them. Local
  variables stand in the constructors from the statement
  that assigns them on. `pose_msg`, which no statement
  reads, is left out.

  Main declarations:
    * `AxisAt`, `AxisAt.step`
    * `TickAt`, `TickAt.step`
    * `GoalAt`, `GoalAt.step`
    * `Flags`, `Node.flags`
    * `TickAt.onFlags`, `TickAt.step_flags`
-/

------------------------------------------------------------
-- One Pass Of The PID Loop
------------------------------------------------------------

namespace Manipulator

namespace Approach

/- The next statement of a pass of the PID loop. -/
inductive AxisAt (K : Type) where
-- `if self.first_loop == True:`
| checkFirst
-- `self.prev_error = [0,0]`
| zeroPrevError
-- `self.integral = [0,0]`
| zeroIntegral
-- `self.first_loop = False`
| clearFirst
-- `self.integral[i] += error[i] * 0.1`
| addIntegral
-- `derivative = (error[i] - self.prev_error[i]) / 0.1`
| derive
-- `output = ...`, and the two clamps
| limit (derivative : K)
-- `self.pos_data.x += output`, or `y`
| move (output : K)
-- `self.prev_error[i] = error[i]`
| keepError

variable {K : Type} [Field K] [LinearOrder K]

/- What a statement leaves; `none` ends the pass. -/
def AxisAt.step
    (error : Fin 2 → K)
    (i : Fin 2)
    (n : Node K) :
    AxisAt K → Except PyError (Node K × Option (AxisAt K))
| .checkFirst =>
    if n.firstLoop then return (n, some .zeroPrevError)
    else return (n, some .addIntegral)
| .zeroPrevError =>
    return ({ n with prevError := some ![0, 0] },
      some .zeroIntegral)
| .zeroIntegral =>
    return ({ n with integral := some ![0, 0] },
      some .clearFirst)
| .clearFirst =>
    return ({ n with firstLoop := false }, some .addIntegral)
| .addIntegral => do
    let integral ← getAttribute "integral" n.integral
    let integral :=
      Function.update integral i (integral i + error i * (1 / 10))
    return ({ n with integral := some integral }, some .derive)
| .derive => do
    let prevError ← getAttribute "prev_error" n.prevError
    return (n,
      some (.limit ((error i - prevError i) / (1 / 10))))
| .limit derivative => do
    let integral ← getAttribute "integral" n.integral
    let output := clampSpeed
      (gain 0 i * error i + gain 1 i * integral i +
        gain 2 i * derivative)
    return (n, some (.move output))
| .move output =>
    let posData :=
      if i = 0 then { n.posData with x := n.posData.x + output }
      else { n.posData with y := n.posData.y + output }
    return ({ n with posData := posData }, some .keepError)
| .keepError => do
    let prevError ← getAttribute "prev_error" n.prevError
    return (
      { n with
        prevError := some (Function.update prevError i (error i)) },
      none)

------------------------------------------------------------
-- The Timer Callback
------------------------------------------------------------

/- The local variables once the leftmost box is chosen. -/
structure Sighting (K : Type) where
  box : BoundingBox K
  minIndex : Nat

/- Those of the approach state, which knows the centre. -/
structure Aim (K : Type) extends Sighting K where
  center : K × K

def Aim.error (aim : Aim K) : Fin 2 → K :=
  controlError aim.center

/- The next statement of a `timer_callback`. -/
inductive TickAt (K : Type) where
-- `if self.run == False:`
| checkRun
-- `with self.lock:`
| readBox
-- `if len(box_data.xyxy) % 4 != 0:`
| checkLength (box : BoundingBox K)
-- `if box_data.has_box == False:`
| checkBox (box : BoundingBox K)
-- `self.no_box_count += 1`
| countMiss
-- `if self.no_box_count >= NO_BOX_COUNT_LIMIT:`
| checkLimit
-- `self.run = False`
| stopLost
-- `self.has_box = False`
| dropBox
-- `self.finish_event.set()`
| setLost
-- `time.sleep(0.3)`
| sleep
-- `else: self.no_box_count = 0`
| clearMisses (box : BoundingBox K)
-- a pass of the loop over the boxes
| select (box : BoundingBox K) (i : Nat) (acc : Option K × Nat)
-- `if self.no_box_count == 0:`
| checkMisses (s : Sighting K)
-- `if self.state == "approach":`
| checkApproach (s : Sighting K)
-- `center_x = ...`, `center_y = ...`, `error = ...`
| findCenter (s : Sighting K)
-- a statement of the PID loop
| axis (aim : Aim K) (i : Fin 2) (stmt : AxisAt K)
-- `if abs(error[0]) < Y_TOLERANCE and ...:`
| checkTolerance (aim : Aim K)
-- `self.goal_count += 1`
| countHit (aim : Aim K)
-- `if self.goal_count >= 5:`
| checkHits (aim : Aim K)
-- `self.state = "turn"`
| startTurn (aim : Aim K)
-- `self.has_box = True`
| keepBox (aim : Aim K)
-- `self.label = box_data.labels[min_index]`
| setLabel (aim : Aim K)
-- `self.first_loop = False`
| endLoop (aim : Aim K)
-- `if self.state == "turn":`
| checkTurn (s : Sighting K) (center : Option (K × K))
-- `angle = box_data.angles[min_index]`
| readAngle (s : Sighting K) (center : Option (K × K))
-- `now_angle = ...`
| readPose
    (s : Sighting K) (center : Option (K × K)) (angle : K)
-- `self.pos_data.yaw = now_angle + angle`
| setYaw
    (s : Sighting K) (center : Option (K × K)) (yaw : K)
-- `self.run = False`
| stopTurn (s : Sighting K) (center : Option (K × K))
-- `self.finish_event.set()`
| setTurn (s : Sighting K) (center : Option (K × K))
-- `self.pub.publish(self.pos_data)`
| publish (s : Sighting K) (center : Option (K × K))
-- `if self.debug_mode == 1:`
| debug (s : Sighting K) (center : Option (K × K))

/-
  What a statement does: the node it leaves, the statement
  that follows in its callback, and what it publishes.
-/
structure Effect (K : Type) where
  node : Node K
  next : Option (TickAt K)
  published : Option (Pos K)

/- The callback goes on. -/
def Effect.go (n : Node K) (stmt : TickAt K) : Effect K :=
  ⟨n, some stmt, none⟩

/- The callback returns. -/
def Effect.stop (n : Node K) : Effect K :=
  ⟨n, none, none⟩

/- The statement after a pass of the PID loop. -/
def TickAt.afterAxis (aim : Aim K) (i : Fin 2) : TickAt K :=
  if i = 0 then .axis aim 1 .checkFirst else .checkTolerance aim

open Effect in
/- `timer_callback`, one statement. -/
def TickAt.step
    (trig : Trig K)
    (n : Node K) : TickAt K → Except PyError (Effect K)
| .checkRun =>
    if n.run = false then return stop n
    else return go n .readBox
| .readBox =>
    match n.boxData with
    | none => return stop n
    | some box => return go n (.checkLength box)
| .checkLength box =>
    if ¬ box.Valid then return stop n
    else return go n (.checkBox box)
| .checkBox box =>
    if box.hasBox = false then return go n .countMiss
    else return go n (.clearMisses box)
| .countMiss =>
    return go { n with noBoxCount := n.noBoxCount + 1 }
      .checkLimit
| .checkLimit =>
    if n.noBoxCount ≥ noBoxCountLimit then
      return go n .stopLost
    else
      return go n .sleep
| .stopLost => return go { n with run := false } .dropBox
| .dropBox => return go { n with hasBox := some false } .setLost
| .setLost => return go { n with finishEvent := true } .sleep
| .sleep => return stop n
| .clearMisses box =>
    return go { n with noBoxCount := 0 }
      (.select box 0 (none, 0))
| .select box i acc =>
    if i < box.count then do
      let acc ← selectStep box.xyxy acc i
      return go n (.select box (i + 1) acc)
    else
      return go n (.checkMisses ⟨box, acc.2⟩)
| .checkMisses s =>
    if n.noBoxCount = 0 then return go n (.checkApproach s)
    else return stop n
| .checkApproach s =>
    if n.state = .approach then return go n (.findCenter s)
    else return go n (.checkTurn s none)
| .findCenter s => do
    let center ← boxCenter s.box s.minIndex
    return go n (.axis ⟨s, center⟩ 0 .checkFirst)
| .axis aim i stmt => do
    let (n, next) ← stmt.step aim.error i n
    match next with
    | some stmt => return go n (.axis aim i stmt)
    | none => return go n (TickAt.afterAxis aim i)
| .checkTolerance aim =>
    if InTolerance aim.error then return go n (.countHit aim)
    else return go n (.endLoop aim)
| .countHit aim =>
    return go { n with goalCount := n.goalCount + 1 }
      (.checkHits aim)
| .checkHits aim =>
    if n.goalCount ≥ 5 then return go n (.startTurn aim)
    else return go n (.endLoop aim)
| .startTurn aim =>
    return go { n with state := .turn } (.keepBox aim)
| .keepBox aim =>
    return go { n with hasBox := some true } (.setLabel aim)
| .setLabel aim => do
    let label ← index aim.box.labels aim.minIndex
    return stop { n with label := some label }
| .endLoop aim =>
    return go { n with firstLoop := false }
      (.checkTurn aim.toSighting (some aim.center))
| .checkTurn s center =>
    if n.state = .turn then return go n (.readAngle s center)
    else return go n (.publish s center)
| .readAngle s center => do
    let angle ← index s.box.angles s.minIndex
    return go n (.readPose s center angle)
| .readPose s center angle =>
    let nowAngle :=
      -(trig.atan2 n.posData.y n.posData.x * 180 / trig.pi)
    return go n (.setYaw s center (nowAngle + angle))
| .setYaw s center yaw =>
    return go { n with posData := { n.posData with yaw := yaw } }
      (.stopTurn s center)
| .stopTurn s center =>
    return go { n with run := false } (.setTurn s center)
| .setTurn s center =>
    return go { n with finishEvent := true } (.publish s center)
| .publish s center =>
    return ⟨n, some (.debug s center), some n.posData⟩
| .debug s center => do
    if n.debugMode = 1 then
      drawDebug s.box s.minIndex center
    return stop n

------------------------------------------------------------
-- The Execute Callback
------------------------------------------------------------

/- The next statement of the `execute_callback`, if one runs. -/
inductive GoalAt (K : Type) where
| idle
-- `self.first_loop = True`
| resetFirst
-- `self.no_box_count = 0`
| resetMisses
-- `self.goal_count = 0`
| resetHits
-- `self.state = "approach"`
| resetState
-- `self.pos_data.x = 210.0`, and the other four
| resetX
| resetY
| resetZ
| resetYaw
| resetGrip
-- `self.run = True`
| startRun
-- `self.finish_event.clear()`
| clearEvent
-- `self.finish_event.wait()`
| wait
-- `goal_handle.succeed()`
| succeed
-- `if self.has_box == True:`
| checkBox
-- `result.goal_x = self.pos_data.x`, and so on
| resultX (result : ApproachResult K)
| resultY (result : ApproachResult K)
| resultZ (result : ApproachResult K)
| resultYaw (result : ApproachResult K)
| resultLabel (result : ApproachResult K)
-- `return result`
| finish (result : ApproachResult K)

def GoalAt.isIdle : GoalAt K → Bool
| .idle => true
| _ => false

def GoalAt.isClearing : GoalAt K → Bool
| .clearEvent => true
| _ => false

def GoalAt.isWaiting : GoalAt K → Bool
| .wait => true
| _ => false

def GoalAt.isReturning : GoalAt K → Bool
| .finish _ => true
| _ => false

/- `Approach.Result()`. -/
def emptyResult : ApproachResult K where
  goalX := 0
  goalY := 0
  goalZ := 0
  goalYaw := 0
  label := ""
  success := false

/-
  `execute_callback`, one statement. `wait` is only passed
  once the event is set.
-/
def GoalAt.step
    (n : Node K) : GoalAt K → Except PyError (Node K × GoalAt K)
| .idle => return (n, .idle)
| .resetFirst => return ({ n with firstLoop := true }, .resetMisses)
| .resetMisses => return ({ n with noBoxCount := 0 }, .resetHits)
| .resetHits => return ({ n with goalCount := 0 }, .resetState)
| .resetState => return ({ n with state := .approach }, .resetX)
| .resetX =>
    return ({ n with posData := { n.posData with x := 210 } },
      .resetY)
| .resetY =>
    return ({ n with posData := { n.posData with y := 40 } },
      .resetZ)
| .resetZ =>
    return ({ n with posData := { n.posData with z := 40 } },
      .resetYaw)
| .resetYaw =>
    return ({ n with posData := { n.posData with yaw := 0 } },
      .resetGrip)
| .resetGrip =>
    return ({ n with posData := { n.posData with grip := "open" } },
      .startRun)
| .startRun => return ({ n with run := true }, .clearEvent)
| .clearEvent => return ({ n with finishEvent := false }, .wait)
| .wait => return (n, .succeed)
| .succeed => return (n, .checkBox)
| .checkBox => do
    let hasBox ← getAttribute "has_box" n.hasBox
    if hasBox then
      return (n, .resultX { emptyResult with success := true })
    else
      return (n,
        .finish { emptyResult with label := "none", success := true })
| .resultX result =>
    return (n, .resultY { result with goalX := n.posData.x })
| .resultY result =>
    return (n, .resultZ { result with goalY := n.posData.y })
| .resultZ result =>
    return (n, .resultYaw { result with goalZ := n.posData.z })
| .resultYaw result =>
    return (n, .resultLabel { result with goalYaw := n.posData.yaw })
| .resultLabel result => do
    let label ← getAttribute "label" n.label
    return (n, .finish { result with label := label })
| .finish _ => return (n, .idle)

omit [LinearOrder K] in
/-
  Where a statement of `execute_callback` can lead: only
  `run = True` leads to `clear()`, and only that to `wait()`.
-/
theorem GoalAt.step_at
    {n n' : Node K} {goal goal' : GoalAt K}
    (hStep : goal.step n = .ok (n', goal')) :
    (goal'.isClearing = true → n'.run = true) ∧
      (goal'.isWaiting = true →
        goal.isClearing = true ∧
          n' = { n with finishEvent := false }) := by
  cases goal with
  | startRun =>
      cases hStep
      refine ⟨fun _ => rfl, ?_⟩
      intro hWaiting
      cases hWaiting
  | clearEvent =>
      cases hStep
      refine ⟨?_, fun _ => ⟨rfl, rfl⟩⟩
      intro hClearing
      cases hClearing
  | checkBox =>
      simp only [step, bind_eq_ok] at hStep
      rcases hStep with ⟨hasBox, _, hStep⟩
      cases hasBox with
      | false =>
          cases hStep
          simp [isClearing, isWaiting]
      | true =>
          cases hStep
          simp [isClearing, isWaiting]
  | resultLabel result =>
      simp only [step, bind_eq_ok, pure_eq_ok, Prod.mk.injEq]
        at hStep
      rcases hStep with ⟨_, _, rfl, rfl⟩
      simp [isClearing, isWaiting]
  | _ =>
      cases hStep
      simp [isClearing, isWaiting]

------------------------------------------------------------
-- What A Goal Is Judged By
------------------------------------------------------------

/- The attributes that decide how a goal goes on and ends. -/
structure Flags where
  run : Bool
  state : Phase
  hasBox : Option Bool
  label : Option String
  noBoxCount : Nat
  goalCount : Nat
  finishEvent : Bool
deriving DecidableEq, Repr

def Node.flags (n : Node K) : Flags where
  run := n.run
  state := n.state
  hasBox := n.hasBox
  label := n.label
  noBoxCount := n.noBoxCount
  goalCount := n.goalCount
  finishEvent := n.finishEvent

------------------------------------------------------------
-- What A Statement Does To Them
------------------------------------------------------------

/- A pass of the PID loop leaves the flags alone. -/
theorem AxisAt.step_flags
    {error : Fin 2 → K} {i : Fin 2} {n n' : Node K}
    {stmt : AxisAt K} {next : Option (AxisAt K)}
    (hStep : stmt.step error i n = .ok (n', next)) :
    n'.flags = n.flags := by
  cases stmt with
  | checkFirst =>
      simp only [step] at hStep
      split at hStep
      · cases hStep
        rfl
      · cases hStep
        rfl
  | zeroPrevError
  | zeroIntegral
  | clearFirst
  | move output =>
      cases hStep
      rfl
  | addIntegral
  | derive
  | limit derivative
  | keepError =>
      simp only [step, bind_eq_ok, pure_eq_ok, Prod.mk.injEq]
        at hStep
      rcases hStep with ⟨_, _, rfl, rfl⟩
      rfl

/- What a statement of the timer callback does to the flags. -/
def TickAt.onFlags : TickAt K → Flags → Flags
| .countMiss, f => { f with noBoxCount := f.noBoxCount + 1 }
| .stopLost, f => { f with run := false }
| .dropBox, f => { f with hasBox := some false }
| .setLost, f => { f with finishEvent := true }
| .clearMisses _, f => { f with noBoxCount := 0 }
| .countHit _, f => { f with goalCount := f.goalCount + 1 }
| .startTurn _, f => { f with state := .turn }
| .keepBox _, f => { f with hasBox := some true }
| .setLabel aim, f =>
    { f with label := aim.box.labels[aim.minIndex]? }
| .stopTurn _ _, f => { f with run := false }
| .setTurn _ _, f => { f with finishEvent := true }
| _, f => f

theorem index_eq_ok
    {α : Type} {xs : List α} {i : Nat} {x : α} :
    index xs i = .ok x ↔ xs[i]? = some x := by
  unfold index
  cases xs[i]? with
  | none => simp
  | some y => simp

theorem TickAt.step_flags
    {trig : Trig K} {n : Node K}
    {stmt : TickAt K} {e : Effect K}
    (hStep : stmt.step trig n = .ok e) :
    e.node.flags = stmt.onFlags n.flags := by
  cases stmt with
  | checkRun
  | readBox
  | checkLength box
  | checkBox box
  | checkLimit
  | checkMisses s
  | checkApproach s
  | checkTolerance aim
  | checkHits aim
  | checkTurn s center =>
      -- a test leaves the node alone
      simp only [step] at hStep
      split at hStep
      · cases hStep
        rfl
      · cases hStep
        rfl
  | countMiss
  | stopLost
  | dropBox
  | setLost
  | sleep
  | clearMisses box
  | countHit aim
  | startTurn aim
  | keepBox aim
  | endLoop aim
  | readPose s center angle
  | setYaw s center yaw
  | stopTurn s center
  | setTurn s center
  | publish s center =>
      cases hStep
      rfl
  | findCenter s
  | readAngle s center =>
      simp only [step, bind_eq_ok, pure_eq_ok] at hStep
      rcases hStep with ⟨_, _, rfl⟩
      rfl
  | setLabel aim =>
      simp only [step, bind_eq_ok, pure_eq_ok] at hStep
      rcases hStep with ⟨label, hLabel, rfl⟩
      simp only [onFlags, index_eq_ok.mp hLabel]
      rfl
  | select box i acc
  | debug s center =>
      simp only [step] at hStep
      split at hStep
      · simp only [bind_eq_ok, pure_eq_ok] at hStep
        rcases hStep with ⟨_, _, rfl⟩
        rfl
      · cases hStep
        rfl
  | axis aim i stmt =>
      simp only [step, bind_eq_ok] at hStep
      rcases hStep with ⟨⟨n', next⟩, hAxis, hNext⟩
      have hFlags := AxisAt.step_flags hAxis
      cases next with
      | none =>
          cases hNext
          exact hFlags
      | some next =>
          cases hNext
          exact hFlags

end Approach

end Manipulator
