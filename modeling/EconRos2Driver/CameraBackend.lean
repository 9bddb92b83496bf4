import EconRos2Driver.Config

/-!
# The interface between the node and a backend

`camera_backend.hpp`: the node drives a backend by `grab`, `release`, `pushCount` and `tCaptureNs`,
and borrows the bytes of a frame between a `grab` and its `release`. A backend is a record of these
four operations over its own state `S`, its pointers `P`, and what the outside answers to one `grab`
(`G`) and to one `release` (`R`); an operation is `none` where no such answer can be given.
-/

namespace EconRos2Driver

inductive ImageFormat where
  | kRawBgr8
  | kJpeg
  deriving DecidableEq, Repr

/-- A borrowed view of one captured frame; `none` is the null pointer. -/
structure Frame (P : Type) where
  data : Option P := none
  size : Nat := 0
  deriving DecidableEq, Repr

def Frame.valid {P : Type} (frame : Frame P) : Bool := frame.data.isSome && decide (frame.size > 0)

theorem Frame.valid_iff {P : Type} {frame : Frame P} :
    frame.valid = true ↔ (∃ ptr, frame.data = some ptr) ∧ 0 < frame.size := by
  simp [Frame.valid, Option.isSome_iff_exists]

structure CameraBackend (S P G R : Type) where
  grab : S → G → Option (Frame P × S)
  release : S → R → Option S
  pushCount : S → UInt64
  tCaptureNs : S → UInt64
  /-- The byte at an offset from a pointer, as the memory stands in this state. -/
  byteAt : S → P → Nat → UInt8

variable {S P G R : Type}

def CameraBackend.bytes (B : CameraBackend S P G R) (s : S) (ptr : P) (size : Nat) : List UInt8 :=
  (List.range size).map (B.byteAt s ptr)

@[simp]
theorem CameraBackend.length_bytes (B : CameraBackend S P G R) (s : S) (ptr : P) (size : Nat) :
    (B.bytes s ptr size).length = size := by
  simp [bytes]

theorem CameraBackend.take_bytes (B : CameraBackend S P G R) (s : S) (ptr : P) {n size : Nat}
    (h : n ≤ size) : (B.bytes s ptr size).take n = B.bytes s ptr n := by
  rw [bytes, bytes, ← List.map_take, List.take_range, Nat.min_eq_left h]

/-- The bytes a frame shows; an invalid frame shows none. -/
def CameraBackend.view (B : CameraBackend S P G R) (s : S) (frame : Frame P) : List UInt8 :=
  match frame.data with
  | some ptr => B.bytes s ptr frame.size
  | none => []

end EconRos2Driver
