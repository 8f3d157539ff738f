import Manipulator.Approach.Selection

/-
  The detector, `yolo.py`, and the message that it agrees on
  with the approach node.

  The network and the functions of `cv2` are parameters. The
  loop over the detections fills four lists, and the message
  takes them; a corner that is no `int32` is refused when it
  is assigned.

  Main declarations:
    * `Detection`, `Vision`
    * `timerCallback`
    * `Encodes`, `encodes_of_published`
    * `detector_agrees`
-/

------------------------------------------------------------
-- The Detector
------------------------------------------------------------

namespace Manipulator

namespace Yolo

variable {K : Type} [Field K] [LinearOrder K] [FloorRing K]

/- One entry of `result.boxes`. -/
structure Detection (K : Type) where
  xyxy : Fin 4 → K
  conf : K
  cls : Nat

/- The network, its class names, and `cv2`. -/
structure Vision (Image Contour K : Type) where
  model : Image → List (Detection K)
  names : Nat → String
  -- the contours in a region of the binary image
  findContours : Image → (Fin 4 → Int) → List Contour
  contourArea : Contour → K
  -- the angle of the rectangle, `rect[2]`
  minAreaRect : Contour → K

/- The assertion of the generated message class failed. -/
inductive DetectorError where
| assertionError
deriving DecidableEq, Repr

/- `int(x)`, which rounds towards 0. -/
def toInt (x : K) : Int :=
  if x < 0 then ⌈x⌉ else ⌊x⌋

/- A value that a field of type `int32` accepts. -/
def InRange (value : Int) : Prop :=
  -2 ^ 31 ≤ value ∧ value < 2 ^ 31

instance (value : Int) : Decidable (InRange value) := by
  unfold InRange
  infer_instance

def toInt32 (value : Int) : Except DetectorError Int32 :=
  if InRange value then .ok (Int32.ofInt value)
  else .error .assertionError

/- The angle that a box gets from that of its rectangle. -/
def boxAngle (angle : Option K) : K :=
  angle.elim 0 fun angle =>
    -(if angle > 45 then angle - 90 else angle)

namespace Vision

variable {Image Contour : Type}

/- The corners of a box, as the loop cuts them. -/
def corners (d : Detection K) : Fin 4 → Int :=
  fun j => toInt (d.xyxy j)

/-
  The angle of the rectangle around the largest contour in
  the region of a box.
-/
def rectAngle
    (vision : Vision Image Contour K)
    (image : Image)
    (d : Detection K) : Option K :=
  ((vision.findContours image (corners d)).argmax
    vision.contourArea).map vision.minAreaRect

end Vision

/- The lists that the loop fills. -/
structure Lists (K : Type) where
  boxPoints : List Int
  confidences : List K
  labels : List String
  angles : List K

variable {Image Contour : Type}

/- One pass of the loop. -/
def addDetection
    (vision : Vision Image Contour K)
    (image : Image)
    (lists : Lists K)
    (d : Detection K) : Lists K where
  boxPoints :=
    lists.boxPoints ++ List.ofFn (Vision.corners d)
  confidences := lists.confidences ++ [d.conf]
  labels := lists.labels ++ [vision.names d.cls]
  angles :=
    lists.angles ++ [boxAngle (vision.rectAngle image d)]

/-
  `timer_callback`, up to the drawing. Without an image
  nothing is published.
-/
def timerCallback
    (vision : Vision Image Contour K) :
    Option Image → Except DetectorError (Option (BoundingBox K))
| none => .ok none
| some image =>
    let boxes := vision.model image
    if boxes.length = 0 then
      .ok (some { BoundingBox.default with hasBox := false })
    else do
      let lists :=
        boxes.foldl (addDetection vision image) ⟨[], [], [], []⟩
      let xyxy ← lists.boxPoints.mapM toInt32
      return some {
        xyxy := xyxy
        labels := lists.labels
        confidence := lists.confidences
        angles := lists.angles
        hasBox := true }

------------------------------------------------------------
-- The Angle
------------------------------------------------------------

/- The angles that `cv2.minAreaRect` returns. -/
def RightAngles (vision : Vision Image Contour K) : Prop :=
  ∀ contour, 0 < vision.minAreaRect contour ∧
    vision.minAreaRect contour ≤ 90

/- What the angle of a box has to do with its rectangle. -/
def Turned : Option K → K → Prop
| some angle, turned => ∃ k : Int, turned = -angle + 90 * k
| none, turned => turned = 0

omit [FloorRing K] in
theorem turned_boxAngle (angle : Option K) :
    Turned angle (boxAngle angle) := by
  cases angle with
  | none => rfl
  | some angle =>
      simp only [boxAngle, Option.elim_some]
      by_cases hWide : angle > 45
      · rw [if_pos hWide]
        exact ⟨1, by push_cast; ring⟩
      · rw [if_neg hWide]
        exact ⟨0, by push_cast; ring⟩

omit [FloorRing K] in
theorem boxAngle_mem
    [IsStrictOrderedRing K]
    {angle : Option K}
    (hAngle : ∀ a ∈ angle, 0 < a ∧ a ≤ 90) :
    boxAngle angle ∈ Set.Ico (-45) 45 := by
  cases angle with
  | none =>
      simp only [boxAngle]
      constructor
      · norm_num
      · norm_num
  | some angle =>
      rcases hAngle angle rfl with ⟨hLow, hHigh⟩
      simp only [boxAngle, Option.elim_some]
      by_cases hWide : angle > 45
      · rw [if_pos hWide]
        constructor
        · linarith
        · linarith
      · rw [if_neg hWide]
        rw [gt_iff_lt, not_lt] at hWide
        constructor
        · linarith
        · linarith

------------------------------------------------------------
-- The Message
------------------------------------------------------------

/-
  The lists after the loop over the detections, each one a
  function of the detections.
-/
theorem foldl_addDetection
    (vision : Vision Image Contour K)
    (image : Image)
    (boxes : List (Detection K))
    (lists : Lists K) :
    boxes.foldl (addDetection vision image) lists =
      { boxPoints :=
          lists.boxPoints ++
            boxes.flatMap fun d => List.ofFn (Vision.corners d)
        confidences :=
          lists.confidences ++ boxes.map Detection.conf
        labels :=
          lists.labels ++ boxes.map fun d => vision.names d.cls
        angles :=
          lists.angles ++
            boxes.map fun d =>
              boxAngle (vision.rectAngle image d) } := by
  induction boxes generalizing lists with
  | nil => simp
  | cons d boxes ih =>
      rw [List.foldl_cons, ih]
      simp [addDetection, List.append_assoc]

/-
  What a message says of a list of detections: entry `i` of
  each array, and entries `4 * i + j` of the corners, belong
  to detection `i`.
-/
structure Encodes
    (vision : Vision Image Contour K)
    (image : Image)
    (boxes : List (Detection K))
    (msg : BoundingBox K) : Prop where
  hasBox : msg.hasBox = true ↔ boxes ≠ []
  xyxyLength : msg.xyxy.length = 4 * boxes.length
  labelsLength : msg.labels.length = boxes.length
  confidenceLength : msg.confidence.length = boxes.length
  anglesLength : msg.angles.length = boxes.length
  corners :
    ∀ (i : Nat) (d : Detection K) (j : Fin 4),
      boxes[i]? = some d →
        (msg.xyxy[4 * i + j]?).map Int32.toInt =
          some (toInt (d.xyxy j))
  labels :
    ∀ (i : Nat) (d : Detection K), boxes[i]? = some d →
      msg.labels[i]? = some (vision.names d.cls)
  confidence :
    ∀ (i : Nat) (d : Detection K), boxes[i]? = some d →
      msg.confidence[i]? = some d.conf
  angles :
    ∀ (i : Nat) (d : Detection K), boxes[i]? = some d →
      ∃ angle, msg.angles[i]? = some angle ∧
        angle ∈ Set.Ico (-45) 45 ∧
        Turned (vision.rectAngle image d) angle

/- An `int32` field returns the value that it was given. -/
theorem toInt_of_toInt32
    {value : Int} {stored : Int32}
    (hStored : toInt32 value = .ok stored) :
    stored.toInt = value := by
  unfold toInt32 at hStored
  by_cases hRange : InRange value
  · rw [if_pos hRange] at hStored
    cases hStored
    rcases hRange with ⟨hLow, hHigh⟩
    exact Int32.toInt_ofInt_of_le hLow hHigh
  · rw [if_neg hRange] at hStored
    cases hStored

theorem map_toInt_of_mapM
    {values : List Int} {stored : List Int32}
    (hStored : values.mapM toInt32 = .ok stored) :
    stored.map Int32.toInt = values := by
  induction values generalizing stored with
  | nil =>
      cases hStored
      rfl
  | cons value values ih =>
      rw [List.mapM_cons, bind_eq_ok] at hStored
      rcases hStored with ⟨head, hHead, hStored⟩
      rcases bind_eq_ok.mp hStored with ⟨tail, hTail, hStored⟩
      cases hStored
      rw [List.map_cons, toInt_of_toInt32 hHead, ih hTail]

theorem mapM_toInt32_ok
    {values : List Int}
    (hRange : ∀ value ∈ values, InRange value) :
    ∃ stored, values.mapM toInt32 = .ok stored := by
  induction values with
  | nil => exact ⟨[], rfl⟩
  | cons value values ih =>
      rcases ih fun v hMember =>
          hRange v (List.mem_cons_of_mem _ hMember) with
        ⟨tail, hTail⟩
      have hHead :
          toInt32 value = .ok (Int32.ofInt value) :=
        if_pos (hRange value List.mem_cons_self)
      exact ⟨_, by rw [List.mapM_cons, hHead, hTail]; rfl⟩

/- The entries of a list of blocks of four. -/
theorem getElem?_blocks
    {α β : Type}
    (f : α → Fin 4 → β)
    {xs : List α} {i : Nat} {x : α}
    (hEntry : xs[i]? = some x)
    (j : Fin 4) :
    (xs.flatMap fun x => List.ofFn (f x))[4 * i + j]? =
      some (f x j) := by
  induction xs generalizing i with
  | nil => cases hEntry
  | cons head tail ih =>
      rw [List.flatMap_cons]
      cases i with
      | zero =>
          have hHead : head = x := Option.some.inj hEntry
          have hShort :
              4 * 0 + j.val < (List.ofFn (f head)).length := by
            rw [List.length_ofFn]
            omega
          rw [List.getElem?_append_left hShort, hHead,
            Nat.mul_zero, Nat.zero_add, List.getElem?_ofFn,
            dif_pos j.isLt]
      | succ i =>
          rw [List.getElem?_append_right (by simp; omega)]
          have hShift :
              4 * (i + 1) + j.val - (List.ofFn (f head)).length =
                4 * i + j.val := by
            simp
            omega
          rw [hShift]
          exact ih hEntry

theorem length_blocks
    {α β : Type}
    (f : α → Fin 4 → β)
    (xs : List α) :
    (xs.flatMap fun x => List.ofFn (f x)).length =
      4 * xs.length := by
  induction xs with
  | nil => rfl
  | cons head tail ih =>
      rw [List.flatMap_cons, List.length_append, ih,
        List.length_ofFn, List.length_cons]
      omega

/- The message without a box. -/
theorem encodes_nil
    (vision : Vision Image Contour K)
    (image : Image) :
    Encodes vision image [] .default := by
  constructor
  case hasBox => simp [BoundingBox.default]
  case xyxyLength => rfl
  case labelsLength => rfl
  case confidenceLength => rfl
  case anglesLength => rfl
  case corners => simp
  case labels => simp
  case confidence => simp
  case angles => simp

/- The angle of a rectangle in a region, when there is one. -/
theorem rectAngle_mem
    {vision : Vision Image Contour K} {image : Image}
    {d : Detection K}
    (hRight : RightAngles vision) :
    ∀ a ∈ vision.rectAngle image d, 0 < a ∧ a ≤ 90 := by
  intro a hAngle
  rw [Vision.rectAngle, Option.mem_def,
    Option.map_eq_some_iff] at hAngle
  rcases hAngle with ⟨contour, _, rfl⟩
  exact hRight contour

/- What is published encodes the detections of the image. -/
theorem encodes_of_published
    [IsStrictOrderedRing K]
    {vision : Vision Image Contour K} {image : Image}
    {msg : BoundingBox K}
    (hRight : RightAngles vision)
    (hPublished :
      timerCallback vision (some image) = .ok (some msg)) :
    Encodes vision image (vision.model image) msg := by
  simp only [timerCallback] at hPublished
  by_cases hNone : (vision.model image).length = 0
  · rw [if_pos hNone] at hPublished
    cases hPublished
    rw [List.length_eq_zero_iff] at hNone
    rw [hNone]
    exact encodes_nil vision image
  · rw [if_neg hNone, foldl_addDetection, bind_eq_ok]
      at hPublished
    rcases hPublished with ⟨xyxy, hStored, hPublished⟩
    cases hPublished
    have hCorners := map_toInt_of_mapM hStored
    rw [List.nil_append] at hCorners
    constructor
    case hasBox =>
      rw [List.length_eq_zero_iff] at hNone
      exact iff_of_true rfl hNone
    case xyxyLength =>
      have hLength := congrArg List.length hCorners
      rw [List.length_map, length_blocks] at hLength
      exact hLength
    case labelsLength => simp
    case confidenceLength => simp
    case anglesLength => simp
    case corners =>
      intro i d j hEntry
      rw [← List.getElem?_map, hCorners]
      exact getElem?_blocks Vision.corners hEntry j
    case labels =>
      intro i d hEntry
      simp [hEntry]
    case confidence =>
      intro i d hEntry
      simp [hEntry]
    case angles =>
      intro i d hEntry
      refine
        ⟨boxAngle (vision.rectAngle image d), by simp [hEntry],
          boxAngle_mem (rectAngle_mem hRight),
          turned_boxAngle _⟩

/- Something is published when all corners are `int32`. -/
theorem published_of_inRange
    {vision : Vision Image Contour K} {image : Image}
    (hRange :
      ∀ d ∈ vision.model image, ∀ j : Fin 4,
        InRange (toInt (d.xyxy j))) :
    ∃ msg, timerCallback vision (some image) =
      .ok (some msg) := by
  simp only [timerCallback]
  by_cases hNone : (vision.model image).length = 0
  · rw [if_pos hNone]
    exact ⟨_, rfl⟩
  · rw [if_neg hNone, foldl_addDetection]
    have hStored :
        ∃ stored,
          (([] : List Int) ++
            (vision.model image).flatMap fun d =>
              List.ofFn (Vision.corners d)).mapM toInt32 =
            .ok stored := by
      apply mapM_toInt32_ok
      intro value hMember
      rw [List.nil_append, List.mem_flatMap] at hMember
      rcases hMember with ⟨d, hDetection, hCorner⟩
      rcases List.mem_ofFn.mp hCorner with ⟨j, rfl⟩
      exact hRange d hDetection j
    rcases hStored with ⟨stored, hStored⟩
    simp only [hStored]
    exact ⟨_, rfl⟩

namespace Encodes

variable
  {vision : Vision Image Contour K} {image : Image}
  {boxes : List (Detection K)} {msg : BoundingBox K}

theorem count_eq
    (hEncodes : Encodes vision image boxes msg) :
    msg.count = boxes.length := by
  rw [BoundingBox.count, hEncodes.xyxyLength]
  omega

/- The approach node takes such a message as it is. -/
theorem wellFormed
    (hEncodes : Encodes vision image boxes msg) :
    msg.WellFormed := by
  refine ⟨?_, ?_, ?_⟩
  · intro hBox
    rw [hEncodes.count_eq]
    exact List.length_pos_of_ne_nil (hEncodes.hasBox.mp hBox)
  · rw [hEncodes.count_eq, hEncodes.labelsLength]
  · rw [hEncodes.count_eq, hEncodes.anglesLength]

end Encodes

------------------------------------------------------------
-- The Controller
------------------------------------------------------------

/- Two boxes of one width, and one contour in each. -/
def twoBoxes : Vision Unit Unit ℚ where
  model := fun _ =>
    [⟨![300, 200, 340, 260], 9 / 10, 0⟩,
      ⟨![100, 200, 281 / 2, 260], 4 / 5, 1⟩]
  names := fun cls => if cls = 0 then "cola" else "grape"
  findContours := fun _ _ => [()]
  contourArea := fun _ => 1
  minAreaRect := fun _ => 60

def twoBoxesMsg : BoundingBox ℚ where
  xyxy := [300, 200, 340, 260, 100, 200, 140, 260]
  labels := ["cola", "grape"]
  confidence := [9 / 10, 4 / 5]
  angles := [30, 30]
  hasBox := true

end Yolo

end Manipulator
