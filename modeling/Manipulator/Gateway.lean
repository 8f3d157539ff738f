import Manipulator.Machine
import Manipulator.Numerals
import Mathlib.Algebra.Order.Floor.Semiring
import Mathlib.Algebra.Order.Field.Basic
import Mathlib.Data.Fin.VecNotation
import Mathlib.Tactic.Linarith

/-
  The gateway node, `gateway.cpp`.

  Numbers of the messages are elements of an ordered field
  `K`. Casting one to `uint16_t` truncates it, and is
  undefined when the result does not fit.

  Main declarations:
    * `Gateway`, `Gateway.init`
    * `toUInt16`, `servoValues`
    * `Gateway.rpmCallback`, `Gateway.anglesCallback`
    * `Gateway.frame`
-/

------------------------------------------------------------
-- State
------------------------------------------------------------

namespace Manipulator

/- The members that the serial frame carries. -/
structure Gateway where
  angles : Fin 6 → UInt16
  rpm : UInt16

inductive GatewayError where
| undefinedCast
deriving DecidableEq, Repr

namespace Gateway

def init : Gateway where
  angles := ![135, 90, 90, 90, 90, 90]
  rpm := 0

variable {K : Type} [Field K] [LinearOrder K]

------------------------------------------------------------
-- Servo Values
------------------------------------------------------------

/- `angles_data[0]` before the cast. -/
def servo0 (angle : K) : K := angle + 135

/- Away from its middle position, servo 1 has two scales. -/
def servo1 (angle : K) : K :=
  let value := 180 - (angle + 7) - 90
  if value < 0 then value * (64 / 90) + 90
  else value * (65 / 90) + 90

def servo2 (angle : K) : K := angle + 5

def servo3 (angle : K) : K :=
  (180 - (angle + 4) - 90) * (63 / 90) + 90

def servo4 (angle : K) : K :=
  (180 - (angle + 90) - 90) * (63 / 90) + 90

def servo5 (angle : K) : K :=
  (angle - 90) * (63 / 90) + 90

/- The six values of `angles_callback` before the casts. -/
def servoValues (angles : Fin 6 → K) : Fin 6 → K :=
  ![servo0 (angles 0), servo1 (angles 1), servo2 (angles 2),
    servo3 (angles 3), servo4 (angles 4), servo5 (angles 5)]

------------------------------------------------------------
-- Callbacks
------------------------------------------------------------

variable [FloorSemiring K]

/- `static_cast<uint16_t>`. -/
def toUInt16 (value : K) : Except GatewayError UInt16 :=
  if -1 < value ∧ value < 65536 then
    .ok (UInt16.ofNat ⌊value⌋₊)
  else
    .error .undefinedCast

def rpmCallback
    (msg : K) (g : Gateway) : Except GatewayError Gateway := do
  let rpm ← toUInt16 msg
  return { g with rpm := rpm }

def anglesCallback
    (msg : Fin 6 → K)
    (g : Gateway) : Except GatewayError Gateway := do
  let values := servoValues msg
  let a₀ ← toUInt16 (values 0)
  let a₁ ← toUInt16 (values 1)
  let a₂ ← toUInt16 (values 2)
  let a₃ ← toUInt16 (values 3)
  let a₄ ← toUInt16 (values 4)
  let a₅ ← toUInt16 (values 5)
  return { g with angles := ![a₀, a₁, a₂, a₃, a₄, a₅] }

/- The line that `timer_callback` writes. -/
def frame (g : Gateway) : String :=
  toString (g.angles 0) ++ "," ++ toString (g.angles 1) ++
    "," ++ toString (g.angles 2) ++ "," ++
    toString (g.angles 3) ++ "," ++ toString (g.angles 4) ++
    "," ++ toString (g.angles 5) ++ "," ++ toString g.rpm ++
    "\n"

example :
    frame .init = "135,90,90,90,90,90,0\n" := by decide

/- New angles do not change the speed of the belt. -/
theorem rpm_anglesCallback
    {msg : Fin 6 → K} {g g' : Gateway}
    (hCallback : g.anglesCallback msg = .ok g') :
    g'.rpm = g.rpm := by
  simp only [anglesCallback, bind_eq_ok] at hCallback
  rcases hCallback with
    ⟨_, _, _, _, _, _, _, _, _, _, _, _, hGateway⟩
  cases hGateway
  rfl

/- A frame ends with the commanded speed of the belt. -/
theorem frame_ends (g : Gateway) :
    ∃ servos, g.frame = servos ++ "," ++ toString g.rpm ++ "\n" :=
  ⟨_, rfl⟩

/- The two speeds that are ever commanded. -/
theorem toUInt16_zero
    [IsStrictOrderedRing K] : toUInt16 (0 : K) = .ok 0 := by
  simp [toUInt16]

end Gateway

end Manipulator
