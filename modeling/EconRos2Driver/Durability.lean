import EconRos2Driver.PublishLog
import EconRos2Driver.Library.LittleEndian
import EconRos2Driver.Library.PageCache

/-!
# The log on the disk

The bytes of the log file, and what a power loss leaves of them. `ImagePubRecord` is 48 bytes long:
five words, two flags and six bytes of padding that nobody writes. `init` has allocated the file, so
it reads as zeros; the stores go to a shared mapping, the system copies its pages to the disk when
it likes, and the writer thread and `shutdown` call `fdatasync`, whose result nobody looks at.

A record need not lie in one page. A store marks the pages of its record, which is more than it
touches; to copy a page that has not changed changes nothing.
-/

namespace EconRos2Driver

open Blackbox

namespace Blackbox.ImagePubRecord

def size : Nat := 48

def byte (r : ImagePubRecord) (offset : Nat) : UInt8 :=
  match offset / 8 with
  | 0 => LittleEndian.byte r.seq.toNat (offset % 8)
  | 1 => LittleEndian.byte r.headerStamp.toNat (offset % 8)
  | 2 => LittleEndian.byte r.tCaptureNs.toNat (offset % 8)
  | 3 => LittleEndian.byte r.tCbkNs.toNat (offset % 8)
  | 4 => LittleEndian.byte r.tPubNs.toNat (offset % 8)
  | _ => if offset = 40 then r.capDone else if offset = 41 then r.rosDone else 0

def word (bytes : Nat → UInt8) (index : Nat) : UInt64 :=
  UInt64.ofNat (LittleEndian.value (fun k => bytes (8 * index + k)) 8)

/-- The record that a reader of the file finds. -/
def ofBytes (bytes : Nat → UInt8) : ImagePubRecord where
  seq := word bytes 0
  headerStamp := word bytes 1
  tCaptureNs := word bytes 2
  tCbkNs := word bytes 3
  tPubNs := word bytes 4
  capDone := bytes 40
  rosDone := bytes 41

end Blackbox.ImagePubRecord

def fileByte (image : Nat → ImagePubRecord) (address : Nat) : UInt8 :=
  (image (address / ImagePubRecord.size)).byte (address % ImagePubRecord.size)

def recovered (stored : Nat → UInt8) (j : Nat) : ImagePubRecord :=
  .ofBytes fun offset => stored (ImagePubRecord.size * j + offset)

/-- `began` and `synced` are the log as it was when the sync in progress began, and when the last
one that succeeded did. -/
structure DurableLog (S P : Type) where
  log : LogSystem S P
  disk : Disk Nat UInt8 Nat
  began : LogSystem S P
  synced : LogSystem S P

inductive DurableEvent (M G R : Type) where
  | log (event : LogEvent M G R)
  | copyPage (k : Nat)
  | beginSync
  | endSync
  | failSync

variable {S P M G R : Type}

def DurableEvent.entersPublish : DurableEvent M G R → Bool
  | .log event => event.entersPublish
  | _ => false

/-- The pages a record lies on. -/
def pagesOf (pageSize j : Nat) : List Nat :=
  let first := ImagePubRecord.size * j / pageSize
  let last := (ImagePubRecord.size * j + (ImagePubRecord.size - 1)) / pageSize
  List.range' first (last - first + 1)

namespace DurableLog

variable (E : ClockedEnv S P M G R) (pageSize : Nat)

def init (p : Params) (stamper : MmapStamper) (boxFd : Nat) (w : S) : DurableLog S P where
  log := LogSystem.init E p stamper boxFd w
  disk := { stored := fun _ => 0 }
  began := LogSystem.init E p stamper boxFd w
  synced := LogSystem.init E p stamper boxFd w

def touched (s : DurableLog S P) : LogEvent M G R → List Nat
  | .store => pagesOf pageSize s.log.record
  | .sys _ => []

def step (s : DurableLog S P) : DurableEvent M G R → Option (DurableLog S P)
  | .log event => (LogSystem.step E s.log event).map fun log =>
      { s with log, disk := s.disk.touch (s.touched pageSize event) }
  | .copyPage k => some
      { s with disk := s.disk.copyPage (· / pageSize) (fileByte s.log.image) k }
  | .beginSync => s.disk.beginSync.map fun disk => { s with disk, began := s.log }
  | .endSync => s.disk.endSync.map fun disk => { s with disk, synced := s.began }
  | .failSync => some { s with disk := s.disk.failSync }

end DurableLog

end EconRos2Driver
