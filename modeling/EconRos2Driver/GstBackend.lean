import EconRos2Driver.System

/-!
# The GStreamer backend

`gst_backend.cpp` over the pipeline it builds. Frames are numbered by the runs of the probe on the
source pad: frame `k` is the `k`-th buffer `v4l2src` pushes. The streaming thread runs `on_src_push`
(two stores) and then lets the buffer go downstream; the elements between the source and the sink
keep the order and may drop a buffer; the appsink holds one buffer and lets a newer one overwrite
it.

`times`, `counted`, `delivered` and `lost` record the probe times, the number of counted pushes, the
frames returned as valid by `grab` and the frames that can no longer be; `calls` records the calls
of the backend that take or give back a reference or a mapping.
-/

namespace EconRos2Driver

inductive GstCall where
  | pullSample (k : Nat)
  | sampleUnref (k : Nat)
  | getMemory (k : Nat)
  | memoryUnref (k : Nat)
  | memoryMap (k : Nat)
  | memoryUnmap (k : Nat)
  deriving DecidableEq, Repr

/-- A sample and its memory are named by the frame they carry. -/
structure GstBackend where
  sample : Option Nat := none
  memory : Option Nat := none
  info : Frame Nat := {}
  nPush : UInt64 := 0
  tPushNs : UInt64 := 0

/-- Where the streaming thread is: out of the probe, between its two stores, or behind them with the
buffer not yet downstream. -/
inductive SrcPad where
  | idle
  | stamped
  | counted
  deriving DecidableEq, Repr

structure GstWorld where
  backend : GstBackend := {}
  srcPad : SrcPad := .idle
  pipe : List Nat := []
  sink : Option Nat := none
  times : List UInt64 := []
  counted : Nat := 0
  delivered : List Nat := []
  lost : List Nat := []
  calls : List GstCall := []
  timeshare : Option Timeshare := none

inductive GstMove where
  | pushTime (now : UInt64)
  | pushCount
  | pushOn
  | drop (position : Nat)
  | arrive
  | timeshare (file : Option Timeshare)

/-- What the outside answers to one `grab`: no sample within the timeout, or a sample with the
results of `get_buffer`, `get_memory` and the memory map (the mapped size). -/
inductive PullAnswer where
  | timeout
  | sample (buffer memory : Bool) (map : Option Nat)

namespace GstWorld

def move (w : GstWorld) : GstMove → Option GstWorld
  | .pushTime now => match w.srcPad with
      | .idle => some { w with backend := { w.backend with tPushNs := now }
                               times := w.times ++ [now], srcPad := .stamped }
      | _ => none
  | .pushCount => match w.srcPad with
      | .stamped => some { w with backend := { w.backend with nPush := w.backend.nPush + 1 }
                                  counted := w.counted + 1, srcPad := .counted }
      | _ => none
  | .pushOn => match w.srcPad with
      | .counted => some { w with pipe := w.pipe ++ [w.counted - 1], srcPad := .idle }
      | _ => none
  | .drop position => w.pipe[position]?.map fun k =>
      { w with pipe := w.pipe.eraseIdx position, lost := w.lost ++ [k] }
  | .arrive => match w.pipe with
      | [] => none
      | k :: rest => some { w with pipe := rest, sink := some k, lost := w.lost ++ w.sink.toList }
  | .timeshare file => some { w with timeshare := file }

def discardSample (w : GstWorld) (k : Nat) : GstWorld :=
  { w with backend := { w.backend with sample := none }
           calls := w.calls ++ [.sampleUnref k], lost := w.lost ++ [k] }

def getMemory (w : GstWorld) (k : Nat) : GstWorld :=
  { w with backend := { w.backend with memory := some k }, calls := w.calls ++ [.getMemory k] }

def memoryUnref (w : GstWorld) (k : Nat) : GstWorld :=
  { w with backend := { w.backend with memory := none }, calls := w.calls ++ [.memoryUnref k] }

/-- A mapped memory is handed out as a frame; an empty one makes a frame that is not valid. -/
def memoryMap (w : GstWorld) (k size : Nat) : Frame Nat × GstWorld :=
  let frame : Frame Nat := { data := some k, size }
  let w : GstWorld :=
    { w with backend := { w.backend with info := frame }, calls := w.calls ++ [.memoryMap k] }
  (frame, if frame.valid then { w with delivered := w.delivered ++ [k] }
          else { w with lost := w.lost ++ [k] })

def grab (w : GstWorld) : PullAnswer → Option (Frame Nat × GstWorld)
  | .timeout => some ({}, { w with backend := { w.backend with sample := none } })
  | .sample buffer memory map => w.sink.map fun k =>
      let w : GstWorld :=
        { w with sink := none, backend := { w.backend with sample := some k }
                 calls := w.calls ++ [.pullSample k] }
      if !buffer then ({}, w.discardSample k)
      else if !memory then
        let w : GstWorld := { w with backend := { w.backend with memory := none } }
        ({}, w.discardSample k)
      else
        let w := w.getMemory k
        match map with
        | none => ({}, (w.memoryUnref k).discardSample k)
        | some size => w.memoryMap k size

def release (w : GstWorld) : GstWorld :=
  let w : GstWorld := match w.backend.memory with
    | some k => { w with backend := { w.backend with memory := none }
                         calls := w.calls ++ [.memoryUnmap k, .memoryUnref k] }
    | none => w
  match w.backend.sample with
  | some k => { w with backend := { w.backend with sample := none }
                       calls := w.calls ++ [.sampleUnref k] }
  | none => w

/-- With the pipeline go all frames in it. -/
def stop (w : GstWorld) : GstWorld :=
  let w := w.release
  let entering := if w.srcPad = .counted then [w.counted - 1] else []
  { w with srcPad := .idle, pipe := [], sink := none
           lost := w.lost ++ w.sink.toList ++ w.pipe ++ entering }

end GstWorld

/-- The node over this backend; `content k` are the bytes of frame `k`, which nobody writes to while
a reference to it is held. -/
def gstEnv (content : Nat → Nat → UInt8) : Env GstWorld Nat GstMove PullAnswer Unit where
  grab := GstWorld.grab
  release := fun w _ => some w.release
  pushCount := fun w => w.backend.nPush
  tCaptureNs := fun w => w.backend.tPushNs
  byteAt := fun _ k => content k
  move := GstWorld.move
  timeshare := GstWorld.timeshare

theorem gstEnv_stableViews (content : Nat → Nat → UInt8) :
    (gstEnv content).StableViews fun _ => True where
  move := fun _ _ _ _ _ => trivial
  grab := fun _ _ _ _ _ _ => trivial
  release := fun _ _ _ _ _ => trivial
  stable := fun _ _ _ _ _ _ _ _ _ => rfl

end EconRos2Driver
