import Mathlib.Algebra.Ring.Int.Defs
import Mathlib.Tactic.Common

/-!
# The shared timestamp

`mmap_stamper.hpp`: the LiDAR process keeps a nanosecond timestamp in a 16 byte file, and the node
maps that file when it first can. The file may not exist yet, may be shorter than the mapping, and
changes at any time; `tryOpen` and `readLowNs` take it as it is at the moment of the call.

A mapping is made of pages. As long as the file has a byte, the page under the mapping exists, and
what lies in it behind the end of the file reads as zero.
-/

namespace EconRos2Driver

structure SharedTimestamp where
  high : Int
  low : Int
  deriving DecidableEq, Repr

def sizeofSharedTimestamp : Nat := 16

def offsetofLow : Nat := 8

structure Timeshare where
  length : Nat
  content : SharedTimestamp
  deriving DecidableEq, Repr

/-- The word `low` as the page has it: the bytes of it that the file is too short for are zero. -/
def Timeshare.low (f : Timeshare) : Int :=
  if sizeofSharedTimestamp ≤ f.length then f.content.low
  else f.content.low % 256 ^ (f.length - offsetofLow)

theorem Timeshare.low_of_length {f : Timeshare} (h : sizeofSharedTimestamp ≤ f.length) :
    f.low = f.content.low := if_pos h

example : (⟨10, ⟨0, 0x123456⟩⟩ : Timeshare).low = 0x3456 := rfl

/-- What `open` and `mmap` answer to one `tryOpen`; `none` is the failure. -/
structure OpenAnswer where
  fd : Option Nat
  mapping : Option Nat
  deriving DecidableEq, Repr

/-- The last two fields are not members: they list the descriptors and the mappings the object has
obtained and not given back. -/
structure MmapStamper where
  stamp : Option Nat := none
  fd : Int := -1
  opened : Bool := false
  descriptors : List Int := []
  mappings : List Nat := []
  deriving DecidableEq, Repr

namespace MmapStamper

/-- `open` can only succeed on a file that exists. -/
def tryOpen (m : MmapStamper) (file : Option Timeshare) (answer : OpenAnswer) : MmapStamper :=
  if m.opened then m
  else match file, answer.fd with
    | some _, some fd =>
        let m := { m with fd := (fd : Int), descriptors := (fd : Int) :: m.descriptors }
        match answer.mapping with
        | none => { m with fd := -1, descriptors := m.descriptors.erase m.fd }
        | some address =>
            { m with stamp := some address, opened := true, mappings := address :: m.mappings }
    | _, _ => { m with fd := -1 }

/-- `none` is the fault of a read from an empty file, which has no page under the mapping. -/
def readLowNs (m : MmapStamper) (file : Option Timeshare) : Option Int :=
  match m.stamp with
  | none => some 0
  | some _ => match file with
      | some f => if f.length = 0 then none else some f.low
      | none => none

theorem readLowNs_eq_none_iff {m : MmapStamper} {f : Timeshare} :
    m.readLowNs (some f) = none ↔ m.stamp ≠ none ∧ f.length = 0 := by
  unfold readLowNs
  cases m.stamp with
  | none => simp
  | some address => by_cases hlength : f.length = 0 <;> simp [hlength]

theorem readLowNs_of_length {m : MmapStamper} {f : Timeshare} (hstamp : m.stamp ≠ none)
    (hlength : sizeofSharedTimestamp ≤ f.length) : m.readLowNs (some f) = some f.content.low := by
  obtain ⟨address, haddress⟩ := Option.ne_none_iff_exists'.mp hstamp
  have hpos : f.length ≠ 0 := by
    rw [sizeofSharedTimestamp] at hlength
    omega
  simp [readLowNs, haddress, hpos, Timeshare.low_of_length hlength]

def close (m : MmapStamper) : MmapStamper :=
  let m := match m.stamp with
    | some address => { m with stamp := none, mappings := m.mappings.erase address }
    | none => m
  let m := if 0 ≤ m.fd then { m with fd := -1, descriptors := m.descriptors.erase m.fd } else m
  { m with opened := false }

/-- The three members agree, and the object has exactly the descriptor and the mapping they name. -/
structure Agrees (m : MmapStamper) : Prop where
  stamp_iff : m.opened = true ↔ m.stamp ≠ none
  fd_iff : m.opened = true ↔ 0 ≤ m.fd
  fd_closed : m.opened = false → m.fd = -1
  descriptors_eq : m.descriptors = if m.opened then [m.fd] else []
  mappings_eq : m.mappings = m.stamp.toList

theorem agrees_closed : Agrees {} := ⟨by decide, by decide, fun _ => rfl, rfl, rfl⟩

theorem tryOpen_of_opened {m : MmapStamper} (h : m.opened = true) (file : Option Timeshare)
    (answer : OpenAnswer) : m.tryOpen file answer = m := by
  simp [tryOpen, h]

theorem Agrees.eq_closed {m : MmapStamper} (h : Agrees m) (hopened : m.opened = false) :
    m = {} := by
  obtain ⟨stamp, fd, opened, descriptors, mappings⟩ := m
  obtain ⟨hstamp, -, hfd, hdescriptors, hmappings⟩ := h
  dsimp only at *
  subst hopened
  have hnone : stamp = none := by simpa using hstamp
  subst hnone
  rw [hfd rfl, hdescriptors, hmappings]
  rfl

theorem Agrees.tryOpen {m : MmapStamper} (h : Agrees m) (file : Option Timeshare)
    (answer : OpenAnswer) : Agrees (m.tryOpen file answer) := by
  cases hopened : m.opened with
  | true => rwa [tryOpen_of_opened hopened]
  | false =>
      rw [h.eq_closed hopened]
      rcases file with _ | file <;> rcases hfd : answer.fd with _ | fd <;>
        rcases hmap : answer.mapping with _ | address <;>
        constructor <;> simp [MmapStamper.tryOpen, hfd, hmap]

theorem Agrees.isSome_stamp_tryOpen {m : MmapStamper} (h : Agrees m) (file : Option Timeshare)
    (answer : OpenAnswer) :
    (m.tryOpen file answer).stamp.isSome =
      (m.stamp.isSome || (file.isSome && answer.fd.isSome && answer.mapping.isSome)) := by
  cases hopened : m.opened with
  | true =>
      have hstamp : m.stamp.isSome = true := by
        rw [Option.isSome_iff_ne_none]
        exact h.stamp_iff.mp hopened
      rw [tryOpen_of_opened hopened, hstamp, Bool.true_or]
  | false =>
      rw [h.eq_closed hopened]
      rcases file with _ | file <;> rcases hfd : answer.fd with _ | fd <;>
        rcases hmap : answer.mapping with _ | address <;> simp [MmapStamper.tryOpen, hfd, hmap]

theorem stamp_tryOpen {m : MmapStamper} (h : Agrees m) {address : Nat}
    (hstamp : m.stamp = some address) (file : Option Timeshare) (answer : OpenAnswer) :
    (m.tryOpen file answer).stamp = some address := by
  rw [tryOpen_of_opened (h.stamp_iff.mpr (by simp [hstamp])), hstamp]

theorem Agrees.close {m : MmapStamper} (h : Agrees m) : m.close = {} := by
  cases hopened : m.opened with
  | false =>
      rw [h.eq_closed hopened]
      rfl
  | true =>
      obtain ⟨address, hstamp⟩ := Option.ne_none_iff_exists'.mp (h.stamp_iff.mp hopened)
      have hfd := h.fd_iff.mp hopened
      have hdescriptors := h.descriptors_eq
      have hmappings := h.mappings_eq
      simp only [hopened, if_true] at hdescriptors
      simp [MmapStamper.close, hstamp, hfd, hdescriptors, hmappings]

end MmapStamper

end EconRos2Driver
