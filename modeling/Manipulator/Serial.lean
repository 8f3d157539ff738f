import Manipulator.Gateway
import Manipulator.Decimal
import Mathlib.Data.Fintype.Basic
import Mathlib.Data.Int.Log
import Mathlib.Data.Rat.Floor
import Mathlib.Tactic.FinCases

/-
  The serial side of the gateway node, `timer_callback`.

  Each call writes one frame. When the port has something to
  read, it then reads a line and publishes the number that
  `std::stof` finds in it. An exception that `std::stof`
  throws is not caught: it leaves the callback, and no later
  call is made.

  Main declarations:
    * `Gateway.stream`, `Gateway.decode`
    * `Gateway.decode_stream`
    * `FloatFormat`, `stof`
    * `Gateway.timerCallback`, `Gateway.spin`
    * `Gateway.Survives`, `Gateway.survives_iff`
-/

------------------------------------------------------------
-- Frames
------------------------------------------------------------

namespace Manipulator

namespace Gateway

/- The numbers of a frame, in their order. -/
def fields (g : Gateway) : List UInt16 :=
  [g.angles 0, g.angles 1, g.angles 2, g.angles 3, g.angles 4,
    g.angles 5, g.rpm]

/- What the port carries after a frame for each state. -/
def stream (states : List Gateway) : String :=
  String.join (states.map frame)

/- A number that fits `uint16_t`. -/
def readField (cs : List Char) : Option UInt16 :=
  match Decimal.readNat cs with
  | none => none
  | some n => if n < 65536 then some (UInt16.ofNat n) else none

/- The state that a line of seven numbers stands for. -/
def readLine (line : List Char) : Option Gateway :=
  match (line.splitOn ',').mapM readField with
  | some [a₀, a₁, a₂, a₃, a₄, a₅, rpm] =>
      some { angles := ![a₀, a₁, a₂, a₃, a₄, a₅], rpm := rpm }
  | _ => none

/- Each line of a stream is ended. -/
def lines (s : String) : List (List Char) :=
  (s.toList.splitOn '\n').dropLast

def decode (s : String) : Option (List Gateway) :=
  (lines s).mapM readLine

/- The characters of a number of a frame. -/
def digits (value : UInt16) : List Char :=
  Nat.toDigits 10 value.toNat

/- A frame without the end of its line. -/
def body (g : Gateway) : List Char :=
  [','].intercalate (g.fields.map digits)

theorem toList_frame
    (g : Gateway) : g.frame.toList = g.body ++ ['\n'] := by
  have hText :
      ∀ value : UInt16,
        (toString value).toList = digits value := by
    intro value
    exact Nat.toList_repr
  simp only [frame, body, fields, String.toList_append, hText,
    List.map_cons, List.map_nil]
  simp [List.intercalate]

theorem not_mem_digits
    {c : Char}
    (value : UInt16)
    (hNo : c.isDigit = false) : c ∉ digits value :=
  Decimal.not_mem_toDigits value.toNat hNo

/- A line end occurs in a frame at its end only. -/
theorem newline_not_mem_body (g : Gateway) : '\n' ∉ g.body := by
  intro hMem
  have hDigits :
      ∀ value : UInt16, '\n' ∉ digits value := by
    intro value
    exact not_mem_digits value (by decide)
  simp [body, fields, List.intercalate, hDigits] at hMem

theorem readField_digits
    (value : UInt16) : readField (digits value) = some value := by
  have hFits : value.toNat < 65536 := value.toNat_lt
  simp [readField, digits, Decimal.readNat_toDigits, hFits]

/- A line is read back. -/
theorem readLine_body (g : Gateway) : readLine g.body = some g := by
  have hSplit : g.body.splitOn ',' = g.fields.map digits := by
    apply List.splitOn_intercalate
    · intro text hText
      rcases List.mem_map.mp hText with ⟨value, -, rfl⟩
      exact not_mem_digits value (by decide)
    · simp [fields]
  have hAngles :
      ![g.angles 0, g.angles 1, g.angles 2, g.angles 3,
        g.angles 4, g.angles 5] = g.angles := by
    funext i
    fin_cases i <;> rfl
  rw [readLine, hSplit]
  simp [fields, readField_digits, hAngles]

/- The lines of a stream are the frames. -/
theorem lines_stream
    (states : List Gateway) :
    lines (stream states) = states.map body := by
  have hSplit :
      (stream states).toList.splitOn '\n' =
        states.map body ++ [[]] := by
    rw [stream, String.toList_join]
    induction states with
    | nil => rfl
    | cons g states ih =>
        have hStep :=
          List.splitOn_append_cons_self_of_not_mem
            g.newline_not_mem_body
            ((states.map frame).flatMap String.toList)
        simp only [List.map_cons, List.flatMap_cons,
          toList_frame, List.append_assoc, List.cons_append,
          List.nil_append, hStep, ih]
  rw [lines, hSplit, List.dropLast_concat]

/- A stream is decoded to the states it was made from. -/
theorem decode_stream
    (states : List Gateway) :
    decode (stream states) = some states := by
  rw [decode, lines_stream]
  induction states with
  | nil => rfl
  | cons g states ih =>
      rw [List.map_cons, List.mapM_cons, readLine_body, ih]
      rfl

/-
  Splitting a stream of frames into lines and fields recovers
  the states, and no two sequences share a stream.
-/
theorem stream_decodable :
    (∀ states, decode (stream states) = some states) ∧
      Function.Injective stream := by
  refine ⟨decode_stream, ?_⟩
  intro states others hSame
  have hDecode := decode_stream others
  rw [← hSame, decode_stream states] at hDecode
  exact Option.some.inj hDecode

end Gateway

------------------------------------------------------------
-- `std::stof`
------------------------------------------------------------

/- Rounding to a format; none is a value out of its range. -/
structure FloatFormat where
  nearest : ℚ → Option ℚ

/- The nearest integer; a tie goes to the even one. -/
def roundEven (x : ℚ) : ℤ :=
  let below := ⌊x⌋
  let excess := x - below
  if excess < 1 / 2 then below
  else if 1 / 2 < excess then below + 1
  else if below % 2 = 0 then below
  else below + 1

/-
  `float`. A result that overflows is out of range, and so is
  a value below the normal numbers that is not a `float`,
  even if it is rounded up to the least of them.
-/
def binary32 : FloatFormat where
  nearest value :=
    let unit : ℚ := 2 ^ max (Int.log 2 |value| - 23) (-149)
    let rounded : ℚ := roundEven (value / unit) * unit
    if 2 ^ 128 ≤ |rounded| then
      none
    else if |value| < 1 / 2 ^ 126 ∧ rounded ≠ value then
      none
    else
      some rounded

inductive StofError where
| invalidArgument
| outOfRange
deriving DecidableEq, Repr

def stof
    (format : FloatFormat)
    (str : List Char) : Except StofError Decimal.Reading :=
  match Decimal.strtof str with
  | none => .error .invalidArgument
  | some (.number value) =>
      match format.nearest value with
      | none => .error .outOfRange
      | some rounded => .ok (.number rounded)
  | some (.infinity negative) => .ok (.infinity negative)
  | some .nan => .ok .nan

------------------------------------------------------------
-- `timer_callback`
------------------------------------------------------------

namespace Gateway

/-
  One call: the state it finds, and what `readline` returns
  when something is available.
-/
structure Call where
  state : Gateway
  line : Option (List Char)

/- What a call did. -/
structure Outcome where
  written : String
  published : Option Decimal.Reading
  raised : Option StofError

def timerCallback
    (format : FloatFormat)
    (call : Call) : Outcome :=
  let data := call.state.frame
  match call.line with
  | none =>
      { written := data, published := none, raised := none }
  | some recv =>
      match stof format recv with
      | .ok value =>
          { written := data, published := some value,
            raised := none }
      | .error e =>
          { written := data, published := none,
            raised := some e }

/- The calls of the timer, until one throws. -/
def spin (format : FloatFormat) : List Call → List Outcome
| [] => []
| call :: calls =>
    let outcome := timerCallback format call
    match outcome.raised with
    | none => outcome :: spin format calls
    | some _ => [outcome]

/- Each call that is made writes the frame of its state. -/
theorem written_timerCallback
    (format : FloatFormat)
    (call : Call) :
    (timerCallback format call).written = call.state.frame := by
  unfold timerCallback
  cases call.line with
  | none => rfl
  | some recv =>
      cases hStof : stof format recv with
      | ok value => simp only [hStof]
      | error e => simp only [hStof]

/- What a run wrote is decoded to the states of its calls. -/
theorem decode_written
    (format : FloatFormat)
    (calls : List Call) :
    decode
        (String.join
          ((spin format calls).map Outcome.written)) =
      some ((calls.take (spin format calls).length).map
        Call.state) := by
  have hWritten :
      (spin format calls).map Outcome.written =
        ((calls.take (spin format calls).length).map
          Call.state).map frame := by
    induction calls with
    | nil => rfl
    | cons call calls ih =>
        have hFrame := written_timerCallback format call
        rw [spin]
        cases (timerCallback format call).raised with
        | none =>
            simp only [List.map_cons, List.length_cons,
              List.take_succ_cons, hFrame, ih]
        | some e =>
            simp only [List.map_cons, List.map_nil,
              List.length_cons, List.length_nil,
              List.take_succ_cons, List.take_zero, hFrame]
  rw [hWritten]
  exact decode_stream _

------------------------------------------------------------
-- Lines That Are Numbers
------------------------------------------------------------

def lineEnds : List (List Char) := [['\n'], ['\r', '\n']]

/- A line that is one number up to its end. -/
def IsNumberLine
    (line : List Char)
    (l : Decimal.Literal) : Prop :=
  ∃ lineEnd ∈ lineEnds, line = l.text ++ lineEnd

/-
  The call returns, has written its frame, and has published
  the number of its line when the line is one, and nothing
  otherwise.
-/
def Served
    (format : FloatFormat)
    (call : Call)
    (outcome : Outcome) : Prop :=
  outcome.raised = none ∧
    outcome.written = call.state.frame ∧
    (outcome.published.isSome = true ↔
      ∃ line ∈ call.line, ∃ l, IsNumberLine line l) ∧
    ∀ line ∈ call.line, ∀ l, IsNumberLine line l →
      ∃ rounded, format.nearest l.value = some rounded ∧
        outcome.published = some (.number rounded)

/- Every call is made, and does what it has to. -/
def Survives
    (format : FloatFormat)
    (calls : List Call) : Prop :=
  List.Forall₂ (Served format) calls (spin format calls)

/- What is read is one number that the format can hold. -/
def Readable (format : FloatFormat) (call : Call) : Prop :=
  ∀ line ∈ call.line,
    ∃ l, IsNumberLine line l ∧
      (format.nearest l.value).isSome = true

/- A line end stops a number. -/
theorem stops_lineEnd
    {lineEnd : List Char}
    (hEnd : lineEnd ∈ lineEnds) :
    Decimal.Stops Decimal.continues lineEnd := by
  simp only [lineEnds, List.mem_cons, List.not_mem_nil,
    or_false] at hEnd
  rcases hEnd with hEnd | hEnd <;> rw [hEnd] <;>
    exact Decimal.stops_cons _ (by decide)

theorem strtof_of_isNumberLine
    {line : List Char}
    {l : Decimal.Literal}
    (hLine : IsNumberLine line l) :
    Decimal.strtof line = some (.number l.value) := by
  rcases hLine with ⟨lineEnd, hEnd, rfl⟩
  exact l.strtof_text (stops_lineEnd hEnd)

theorem stof_of_isNumberLine
    {format : FloatFormat}
    {line : List Char}
    {l : Decimal.Literal}
    {rounded : ℚ}
    (hLine : IsNumberLine line l)
    (hRounded : format.nearest l.value = some rounded) :
    stof format line = .ok (.number rounded) := by
  simp [stof, strtof_of_isNumberLine hLine, hRounded]

/- A call is served exactly when its line can be read. -/
theorem served_iff
    (format : FloatFormat)
    (call : Call) :
    Served format call (timerCallback format call) ↔
      Readable format call := by
  rcases call with ⟨state, line⟩
  cases line with
  | none => simp [Served, Readable, timerCallback]
  | some line =>
      constructor
      · rintro ⟨hRaised, -, hIff, hValue⟩ line' hLine'
        cases hLine'
        have hPublished :
            (timerCallback format
              ⟨state, some line⟩).published.isSome = true := by
          unfold timerCallback at hRaised ⊢
          cases hStof : stof format line with
          | ok value => simp [hStof]
          | error e => simp [hStof] at hRaised
        rcases hIff.mp hPublished with ⟨_, hSame, l, hLine⟩
        cases hSame
        rcases hValue line rfl l hLine with ⟨x, hNearest, -⟩
        exact ⟨l, hLine, by simp [hNearest]⟩
      · intro hReadable
        rcases hReadable line rfl with ⟨l, hLine, hSome⟩
        rcases Option.isSome_iff_exists.mp hSome with
          ⟨rounded, hRounded⟩
        have hStof := stof_of_isNumberLine hLine hRounded
        have hCall :
            timerCallback format ⟨state, some line⟩ =
              { written := state.frame,
                published := some (.number rounded),
                raised := none } := by
          simp [timerCallback, hStof]
        rw [hCall]
        refine ⟨rfl, rfl, ⟨?_, fun _ => rfl⟩, ?_⟩
        · intro _
          exact ⟨line, rfl, l, hLine⟩
        · intro line' hLine' l' hNumber
          cases hLine'
          have hSame := strtof_of_isNumberLine hNumber
          rw [strtof_of_isNumberLine hLine] at hSame
          simp only [Option.some.injEq,
            Decimal.Reading.number.injEq] at hSame
          exact ⟨rounded, hSame ▸ hRounded, rfl⟩

/-
  The gateway survives a sequence of lines exactly when each
  line is one number, in range, up to its end.
-/
theorem survives_iff
    (format : FloatFormat)
    (calls : List Call) :
    Survives format calls ↔
      ∀ call ∈ calls, Readable format call := by
  unfold Survives
  induction calls with
  | nil => simp [spin]
  | cons call calls ih =>
      rw [List.forall_mem_cons, ← ih, ← served_iff, spin]
      cases hRaised : (timerCallback format call).raised with
      | none => simp
      | some e =>
          have hUnserved :
              ¬ Served format call
                (timerCallback format call) := by
            intro hServed
            rw [hServed.1] at hRaised
            cases hRaised
          simp [hUnserved]

/- A read that timed out before any character came. -/
theorem survives_fails :
    ¬ Survives binary32 [⟨.init, some []⟩] := by
  intro hSurvives
  cases hSurvives with
  | cons hServed hRest => cases hServed.1

end Gateway

end Manipulator
