import EconRos2Driver.CameraBackend
import EconRos2Driver.MmapStamper
import EconRos2Driver.Blackbox
import Mathlib.Algebra.Group.Int.Defs
import Mathlib.Algebra.Group.Nat.Defs

/-!
# The state of the node

The members of the class `EconRos2Driver` that the grab thread works on, and one function for each
stretch of `loop` and `publish` between two points where the rest of the world can act: the end of
`grab`, the sample of `push_count`, `try_open`, `read_low_ns`, the copy, `log_cbk`, the publication,
`log_pub` and `release`.
-/

namespace EconRos2Driver

open Blackbox

structure Image where
  stamp : Int := 0
  frameId : String := ""
  encoding : String := ""
  isBigendian : UInt8 := 0
  width : Nat := 0
  height : Nat := 0
  step : Nat := 0
  data : List UInt8 := []

structure CompressedImage where
  stamp : Int := 0
  frameId : String := ""
  format : String := ""
  data : List UInt8 := []

inductive Message where
  | image (msg : Image)
  | compressed (msg : CompressedImage)

def Message.data : Message → List UInt8
  | .image msg => msg.data
  | .compressed msg => msg.data

def Message.stamp : Message → Int
  | .image msg => msg.stamp
  | .compressed msg => msg.stamp

/-- `std::vector::resize`: cut off, or extend by zeros. -/
def resize (data : List UInt8) (size : Nat) : List UInt8 :=
  data.take size ++ List.replicate (size - data.length) 0

/-- `std::memcpy` of all of `src` to the front of `dst`. -/
def memcpy (dst src : List UInt8) : List UInt8 := src ++ dst.drop src.length

@[simp]
theorem length_resize (data : List UInt8) (size : Nat) : (resize data size).length = size := by
  simp only [resize, List.length_append, List.length_take, List.length_replicate]
  omega

theorem memcpy_of_length_eq {dst src : List UInt8} (h : dst.length = src.length) :
    memcpy dst src = src := by
  simp [memcpy, ← h]

inductive StampSource where
  | mapped
  | fallback
  deriving DecidableEq, Repr

/-- The stamp `publish` computes, with the state of the world it was read in. -/
structure Stamp (S : Type) where
  ns : Int
  source : StampSource
  seenAt : S

/-- A message handed to the publisher, with the frame it was made from, its stamp, the index of its
record, what that record held at the time, and the state of the world `t_capture_ns` was read in. -/
structure Published (S P : Type) where
  frame : Frame P
  stamp : Stamp S
  message : Message
  recordIdx : UInt64
  record : ImagePubRecord
  capturedAt : S

/-- The calls of the grab thread that the backend and the subscribers can tell apart. A `grab` comes
with the bytes its frame showed when it returned. -/
inductive Call (P : Type) where
  | grab (frame : Frame P) (bytes : List UInt8)
  | copy (bytes : List UInt8)
  | publish (data : List UInt8)
  | release
  deriving DecidableEq, Repr

def grabs {P : Type} : List (Call P) → List (Frame P × List UInt8) :=
  List.filterMap fun
    | .grab frame bytes => some (frame, bytes)
    | _ => none

/-- How far the current iteration of `loop` has come, named by the last thing done. -/
inductive Pc (S P : Type) where
  | head
  | grabbed (frame : Frame P)
  | counted (frame : Frame P)
  | opened (frame : Frame P)
  | stamped (frame : Frame P) (stamp : Stamp S)
  | copied (frame : Frame P) (stamp : Stamp S)
  | recorded (frame : Frame P) (stamp : Stamp S) (recordIdx : UInt64) (capturedAt : S)
  | sent (frame : Frame P) (recordIdx : UInt64)
  | releasing (frame : Frame P)
  | exited
  | sigbus

def Pc.held {S P : Type} : Pc S P → Option (Frame P)
  | .grabbed frame | .counted frame | .opened frame | .stamped frame _ | .copied frame _
  | .recorded frame _ _ _ | .sent frame _ | .releasing frame => some frame
  | .head | .exited | .sigbus => none

/-- Whether the loop has a frame that it has yet to release. -/
def Pc.inHand {S P : Type} : Pc S P → Bool
  | .head | .exited => false
  | .grabbed _ | .counted _ | .opened _ | .stamped _ _ | .copied _ _ | .recorded _ _ _ _
  | .sent _ _ | .releasing _ | .sigbus => true

def Pc.hasExited {S P : Type} : Pc S P → Bool
  | .exited => true
  | _ => false

/-- `stamps`, `published` and `calls` are not members: they record what has happened. -/
structure Node (S P : Type) where
  p : Params
  stamper : MmapStamper := {}
  nPull : UInt64 := 0
  lastPushSeen : UInt64 := 0
  totalDrops : UInt64 := 0
  msg : Image := {}
  cmsg : CompressedImage := {}
  box : Box := {}
  pc : Pc S P := .head
  stamps : List (Stamp S) := []
  published : List (Published S P) := []
  calls : List (Call P) := []

/-- Only the active format's message is set up. -/
def setupPublisher (p : Params) : Image × CompressedImage :=
  if p.compressed then ({}, { frameId := p.frameId, format := "jpeg" })
  else
    ({ frameId := p.frameId, encoding := "bgr8", isBigendian := 0, width := p.pubWidth
       height := p.pubHeight, step := p.pubWidth * 3, data := resize [] p.expectedSize }, {})

def imageFormat (p : Params) : ImageFormat := if p.compressed then .kJpeg else .kRawBgr8

namespace Node

variable {S P : Type}

/-- The node as the constructor leaves it when it starts the grab thread; `boxFd` is the descriptor
of the log, which `init` has opened. -/
def init (p : Params) (stamper : MmapStamper := {}) (boxFd : Nat := 3) : Node S P :=
  { p, stamper, msg := (setupPublisher p).1, cmsg := (setupPublisher p).2, box := { fd := boxFd } }

def grabbed (n : Node S P) (frame : Frame P) (bytes : List UInt8) : Node S P :=
  { n with pc := if frame.valid then .grabbed frame else .head
           calls := n.calls ++ [.grab frame bytes] }

def account (n : Node S P) (pushNow : UInt64) : Node S P :=
  let pushedSince := pushNow - n.lastPushSeen
  let n := { n with nPull := n.nPull + 1, lastPushSeen := pushNow }
  if pushedSince > 1 then { n with totalDrops := n.totalDrops + (pushedSince - 1) } else n

def counted (n : Node S P) (frame : Frame P) (pushNow : UInt64) : Node S P :=
  { n.account pushNow with pc := .counted frame }

def opened (n : Node S P) (frame : Frame P) (file : Option Timeshare) (answer : OpenAnswer) :
    Node S P :=
  { n with stamper := n.stamper.tryOpen file answer, pc := .opened frame }

/-- `rclcpp::Time` as its nanoseconds. The header of a message holds it as seconds and nanoseconds,
with the seconds an `int32`; below 2^31 seconds that is the same time. -/
def stampOf (seenAt : S) (ns now : Int) : Stamp S :=
  if ns > 0 then ⟨ns, .mapped, seenAt⟩ else ⟨now, .fallback, seenAt⟩

/-- `now` is what `now()` returns if it is called. -/
def stamped (n : Node S P) (frame : Frame P) (seenAt : S) (file : Option Timeshare) (now : Int) :
    Node S P :=
  match n.stamper.readLowNs file with
  | none => { n with pc := .sigbus }
  | some ns =>
      { n with pc := .stamped frame (stampOf seenAt ns now)
               stamps := n.stamps ++ [stampOf seenAt ns now] }

/-- `bytes` are the first bytes at the frame's pointer, as many as the copy asks for. -/
def copied (n : Node S P) (frame : Frame P) (stamp : Stamp S) (bytes : Nat → List UInt8) :
    Node S P :=
  if n.p.compressed then
    { n with cmsg := { n.cmsg with
               stamp := stamp.ns
               data := memcpy (resize n.cmsg.data frame.size) (bytes frame.size) }
             pc := .copied frame stamp
             calls := n.calls ++ [.copy (bytes frame.size)] }
  else if frame.size < n.p.expectedSize then { n with pc := .releasing frame }
  else
    { n with msg := { n.msg with stamp := stamp.ns
                                 data := memcpy n.msg.data (bytes n.p.expectedSize) }
             pc := .copied frame stamp
             calls := n.calls ++ [.copy (bytes n.p.expectedSize)] }

/-- `static_cast<uint64_t>` of a signed nanosecond count. -/
def headerStampNs (ns : Int) : UInt64 := UInt64.ofNat (ns % 2 ^ 64).toNat

def recorded (n : Node S P) (frame : Frame P) (stamp : Stamp S) (capturedAt : S)
    (tCaptureNs now : UInt64) : Node S P :=
  let record := logCbk n.box (headerStampNs stamp.ns) tCaptureNs now
  { n with box := record.2, pc := .recorded frame stamp record.1 capturedAt }

def message (n : Node S P) : Message :=
  if n.p.compressed then .compressed n.cmsg else .image n.msg

def sent (n : Node S P) (frame : Frame P) (stamp : Stamp S) (recordIdx : UInt64) (capturedAt : S) :
    Node S P :=
  { n with pc := .sent frame recordIdx
           published := n.published ++
             [⟨frame, stamp, n.message, recordIdx, n.box.base recordIdx.toNat, capturedAt⟩]
           calls := n.calls ++ [.publish n.message.data] }

def logged (n : Node S P) (frame : Frame P) (recordIdx now : UInt64) : Node S P :=
  { n with box := logPub n.box recordIdx now, pc := .releasing frame }

def released (n : Node S P) : Node S P := { n with pc := .head, calls := n.calls ++ [.release] }

theorem account_eq (n : Node S P) (pushNow : UInt64) :
    n.account pushNow = { n with nPull := n.nPull + 1, lastPushSeen := pushNow
                                 totalDrops := (n.account pushNow).totalDrops } := by
  unfold account
  dsimp only
  split_ifs <;> rfl

structure SameCounters (n m : Node S P) : Prop where
  nPull : m.nPull = n.nPull
  lastPushSeen : m.lastPushSeen = n.lastPushSeen
  totalDrops : m.totalDrops = n.totalDrops

/-- What a step of the grab thread that is neither `grab`, the sample of `push_count` nor `release`
leaves alone: the frames grabbed, the counters, and the frame held unless the process is killed. -/
structure Inside (n m : Node S P) : Prop where
  p : m.p = n.p
  stamper : m.stamper = n.stamper ∨ ∃ file answer, m.stamper = n.stamper.tryOpen file answer
  grabs : grabs m.calls = grabs n.calls
  counters : n.SameCounters m
  held : m.pc.held = n.pc.held ∨ m.pc = .sigbus
  ne_head : m.pc ≠ .head
  not_grabbed : ∀ frame, n.pc ≠ .grabbed frame ∧ m.pc ≠ .grabbed frame
  running : n.pc ≠ .sigbus

theorem Inside.held_of_held {n m : Node S P} {frame : Frame P} (h : n.Inside m)
    (hframe : m.pc.held = some frame) : n.pc.held = some frame := by
  rcases h.held with hheld | hkilled
  · exact hheld ▸ hframe
  · rw [hkilled] at hframe
    cases hframe

end Node

end EconRos2Driver
