import EconRos2Driver.OpencvBackend
import EconRos2Driver.Library.Decimal

/-!
# The subscribers

`image_viewer.cpp` and `image_saver.cpp` lay a matrix header over the data of a message and hand it
to OpenCV without copying. What publishes on the topic is not known, so a `ReceivedImage` is any
`sensor_msgs/Image`. The constructor of `cv::Mat` is a parameter: `accepts` tells for which
arguments it returns and does not throw.
-/

namespace EconRos2Driver

/-- `null` tells whether `data()` of the vector is the null pointer. -/
structure ReceivedImage where
  encoding : String
  height : UInt32
  width : UInt32
  step : UInt32
  data : List UInt8
  null : Bool := false
  data_of_null : null = true → data = [] := by simp

/-- A `CV_8UC3` matrix over the bytes of a message. -/
structure MatHeader where
  rows : Int
  cols : Int
  step : Nat
  null : Bool
  deriving DecidableEq, Repr

/-- The arguments of the constructor: rows, columns, a null pointer or not, and the step. -/
abbrev Accepts : Type := Int → Int → Bool → Nat → Bool

variable (accepts : Accepts)

/-- A step of 0 is `AUTO_STEP`, for rows without padding. -/
def ReceivedImage.mat (msg : ReceivedImage) : Option MatHeader :=
  let rows := staticCastInt msg.height
  let cols := staticCastInt msg.width
  let step := msg.step.toNat
  if accepts rows cols msg.null step then
    some { rows, cols, step := if step = 0 then 3 * cols.toNat else step, null := msg.null }
  else none

def MatHeader.empty (img : MatHeader) : Bool := img.null || img.rows * img.cols == 0

structure ImageViewer where
  windowCount : UInt32 := 0
  windowBytes : UInt64 := 0
  deriving DecidableEq, Repr

inductive RawOutcome where
  | threw
  | empty
  | imshow (img : MatHeader)
  deriving DecidableEq, Repr

/-- An encoding other than `bgr8` is logged, and the frame is shown as it is. -/
def ImageViewer.onRaw (v : ImageViewer) (msg : ReceivedImage) : RawOutcome × ImageViewer :=
  let v := { v with windowCount := v.windowCount + 1
                    windowBytes := v.windowBytes + UInt64.ofNat msg.data.length }
  match msg.mat accepts with
  | none => (.threw, v)
  | some img => if img.empty then (.empty, v) else (.imshow img, v)

inductive CompressedOutcome where
  | threw
  | empty
  | imshow (img : Mat)

/-- What the viewer asks of OpenCV for a compressed frame: the constructor of a `CV_8UC1` matrix of
one row, by its columns and a null pointer or not, and `imdecode`, where `none` is an exception and
an empty matrix stands for data it cannot decode. -/
structure JpegCv where
  accepts : Int → Bool → Bool
  imdecode : List UInt8 → Option Mat

/-- The length of the data becomes an `int`. -/
def ImageViewer.onCompressed (cv : JpegCv) (v : ImageViewer) (data : List UInt8) :
    CompressedOutcome × ImageViewer :=
  let v := { v with windowCount := v.windowCount + 1
                    windowBytes := v.windowBytes + UInt64.ofNat data.length }
  let cols := staticCastInt (UInt32.ofNat data.length)
  if cv.accepts cols data.isEmpty then
    match cv.imdecode (data.take cols.toNat) with
    | none => (.threw, v)
    | some img => if img.total = 0 then (.empty, v) else (.imshow img, v)
  else (.threw, v)

def ImageViewer.report (v : ImageViewer) : ImageViewer :=
  { v with windowCount := 0, windowBytes := 0 }

structure ImageSaver where
  saveDir : String
  latest : Option ReceivedImage := none
  count : UInt32 := 0

inductive SaveOutcome where
  | noFrame
  | notBgr8
  | threw
  | imwrite (path : String) (img : MatHeader)
  deriving DecidableEq, Repr

namespace ImageSaver

def sizeofBuf : Nat := 8

/-- `snprintf` with `%05u` into a buffer of `size` bytes, the last of which is for the NUL. -/
def snprintf05u (size : Nat) (value : UInt32) : String :=
  String.ofList (Decimal.cut 5 (size - 1) value.toNat)

def nextIndex (s : ImageSaver) : String × ImageSaver :=
  let s := { s with count := s.count + 1 }
  (snprintf05u sizeofBuf s.count, s)

def saveLatest (s : ImageSaver) : SaveOutcome × ImageSaver :=
  match s.latest with
  | none => (.noFrame, s)
  | some msg =>
      if msg.encoding ≠ "bgr8" then (.notBgr8, s)
      else match msg.mat accepts with
        | none => (.threw, s)
        | some img =>
            let (index, s) := s.nextIndex
            (.imwrite (s.saveDir ++ "/frame_" ++ index ++ ".png") img, s)

end ImageSaver

inductive ImwriteAnswer where
  | written
  | failed
  | threw
  deriving DecidableEq, Repr

inductive SaverEvent where
  | image (msg : ReceivedImage)
  | timer (answer : ImwriteAnswer)

/-- The saver with the paths it has built. An exception that nothing catches ends the process. -/
structure SaverRun where
  saver : ImageSaver
  paths : List String := []
  running : Bool := true

namespace SaverRun

def init (saveDir : String) : SaverRun := { saver := { saveDir } }

def step (s : SaverRun) : SaverEvent → Option SaverRun
  | .image msg => if s.running then some { s with saver := { s.saver with latest := some msg } }
      else none
  | .timer answer =>
      if s.running then
        match s.saver.saveLatest accepts with
        | (.noFrame, saver) | (.notBgr8, saver) => some { s with saver }
        | (.threw, saver) => some { s with saver, running := false }
        | (.imwrite path _, saver) =>
            some { saver, paths := s.paths ++ [path], running := decide (answer ≠ .threw) }
      else none

end SaverRun

end EconRos2Driver
