import Mathlib.Logic.Function.Basic
import Mathlib.Tactic.Common

/-!
# The blackbox log

`blackbox.hpp`: a memory mapped array of `N` records, filled by `logCbk` before a message is
published and completed by `logPub` after it. The two write a record field by field; `cbkStores` and
`pubStores` list the stores in program order.
-/

namespace EconRos2Driver.Blackbox

structure ImagePubRecord where
  seq : UInt64 := 0
  headerStamp : UInt64 := 0
  tCaptureNs : UInt64 := 0
  tCbkNs : UInt64 := 0
  tPubNs : UInt64 := 0
  capDone : UInt8 := 0
  rosDone : UInt8 := 0
  deriving DecidableEq, Repr

/-- `idx` and `seq` are the two atomic counters; `fd` is negative until `init` has succeeded. -/
structure Box where
  base : Nat → ImagePubRecord := fun _ => {}
  fd : Int := -1
  idx : UInt64 := 0
  seq : UInt64 := 0

def sizeMax : UInt64 := 0xFFFFFFFFFFFFFFFF

def kBufN : Nat := 1 <<< 20

namespace Box

def store (b : Box) (i : Nat) (stores : List (ImagePubRecord → ImagePubRecord)) : Box :=
  { b with base := Function.update b.base i (stores.foldl (fun r write => write r) (b.base i)) }

def nextIdx (b : Box) (N : Nat) : UInt64 × Box :=
  (if b.idx.toNat < N then b.idx else sizeMax, { b with idx := b.idx + 1 })

def nextSeq (b : Box) : UInt64 × Box := (b.seq + 1, { b with seq := b.seq + 1 })

end Box

def cbkStores (seq headerStampNs tCaptureNs now : UInt64) :
    List (ImagePubRecord → ImagePubRecord) :=
  [fun r => { r with seq },
   fun r => { r with headerStamp := headerStampNs },
   fun r => { r with tCaptureNs },
   fun r => { r with tCbkNs := now },
   fun r => { r with tPubNs := 0 },
   fun r => { r with capDone := 1 },
   fun r => { r with rosDone := 0 }]

def pubStores (now : UInt64) : List (ImagePubRecord → ImagePubRecord) :=
  [fun r => { r with tPubNs := now }, fun r => { r with rosDone := 1 }]

/-- `now` is the clock `log_cbk` reads; the result is the record's index, or `sizeMax`. -/
def logCbk (b : Box) (headerStampNs tCaptureNs now : UInt64) : UInt64 × Box :=
  if b.fd < 0 then (sizeMax, b)
  else
    let (i, b) := b.nextIdx kBufN
    if i = sizeMax then (sizeMax, b)
    else
      let (seq, b) := b.nextSeq
      (i, b.store i.toNat (cbkStores seq headerStampNs tCaptureNs now))

def logPub (b : Box) (i now : UInt64) : Box :=
  if b.fd < 0 ∨ i = sizeMax ∨ kBufN ≤ i.toNat then b else b.store i.toNat (pubStores now)

theorem logCbk_record {b : Box} {headerStampNs tCaptureNs now : UInt64}
    (h : (logCbk b headerStampNs tCaptureNs now).1 ≠ sizeMax) :
    (logCbk b headerStampNs tCaptureNs now).2.base (logCbk b headerStampNs tCaptureNs now).1.toNat
      = { seq := b.seq + 1, headerStamp := headerStampNs, tCaptureNs, tCbkNs := now
          tPubNs := 0, capDone := 1, rosDone := 0 } := by
  unfold logCbk at h ⊢
  split_ifs at h ⊢ with hfd
  · exact absurd rfl h
  · dsimp only at h ⊢
    split_ifs at h ⊢ with hfull
    · exact absurd rfl h
    · simp [Box.store, Box.nextSeq, Box.nextIdx, cbkStores]

end EconRos2Driver.Blackbox
