import EconRos2Driver.Blackbox
import EconRos2Driver.Library.Runs

/-!
# The log under any number of threads

The counters `idx` and `seq` of the log are atomic so that several threads can fill it at once. Here
every number names a thread; a thread calls `log_cbk` as often as it likes, and `log_pub` with the
index that its last `log_cbk` has returned. One step of a thread is one access to what is shared:
the `fetch_add` of either counter, or one store to a record. As in `LogSystem`, a call that reads
the clock reads it when it is first in the order of the stores.

`tickets` lists the calls of `log_cbk` in the order in which they draw from `idx`, and `numbered`
the records in the order in which their calls draw from `seq`.
-/

namespace EconRos2Driver.Blackbox

structure Ticket where
  thread : Nat
  headerStampNs : UInt64
  tCaptureNs : UInt64
  deriving DecidableEq, Repr

/-- Where a thread is: out of the log with the index it could complete, between the two counters of
`log_cbk`, or with the stores of a call still to be made. -/
inductive LogPc where
  | outside (i : UInt64)
  | indexed (i headerStampNs tCaptureNs : UInt64)
  | filling (i : UInt64) (rest : List (ImagePubRecord → ImagePubRecord))
  | completing (i : UInt64) (rest : List (ImagePubRecord → ImagePubRecord))

inductive LogAction where
  | cbk (headerStampNs tCaptureNs : UInt64)
  | number (now : UInt64)
  | store
  | pub (now : UInt64)
  deriving DecidableEq, Repr

def LogAction.isCbk : LogAction → Bool
  | .cbk _ _ => true
  | _ => false

structure ConcurrentLog where
  box : Box
  threads : Nat → LogPc := fun _ => .outside sizeMax
  tickets : List Ticket := []
  numbered : List Nat := []

/-- A call of `log_cbk` returns its index after the last store, a call of `log_pub` nothing. -/
def LogPc.stored : LogPc → LogPc
  | .filling i [] => .outside i
  | .completing _ [] => .outside sizeMax
  | pc => pc

namespace ConcurrentLog

def init (fd : Nat) : ConcurrentLog := { box := { fd := fd } }

def setPc (s : ConcurrentLog) (t : Nat) (pc : LogPc) : ConcurrentLog :=
  { s with threads := Function.update s.threads t pc }

def cbk (s : ConcurrentLog) (t : Nat) (headerStampNs tCaptureNs : UInt64) : ConcurrentLog :=
  if s.box.fd < 0 then s.setPc t (.outside sizeMax)
  else
    let (i, box) := s.box.nextIdx kBufN
    let s : ConcurrentLog :=
      { s with box, tickets := s.tickets ++ [⟨t, headerStampNs, tCaptureNs⟩] }
    s.setPc t (if i = sizeMax then .outside sizeMax else .indexed i headerStampNs tCaptureNs)

def number (s : ConcurrentLog) (t : Nat) (i headerStampNs tCaptureNs now : UInt64) :
    ConcurrentLog :=
  let (seq, box) := s.box.nextSeq
  let s : ConcurrentLog := { s with box, numbered := s.numbered ++ [i.toNat] }
  s.setPc t (.filling i (cbkStores seq headerStampNs tCaptureNs now))

def pub (s : ConcurrentLog) (t : Nat) (i now : UInt64) : ConcurrentLog :=
  if s.box.fd < 0 ∨ i = sizeMax ∨ kBufN ≤ i.toNat then s
  else s.setPc t (.completing i (pubStores now))

def storeTo (s : ConcurrentLog) (t : Nat) (i : UInt64) (write : ImagePubRecord → ImagePubRecord)
    (pc : LogPc) : ConcurrentLog :=
  setPc { s with box := s.box.store i.toNat [write] } t pc.stored

def step (s : ConcurrentLog) (e : Nat × LogAction) : Option ConcurrentLog :=
  match s.threads e.1, e.2 with
  | .outside _, .cbk headerStampNs tCaptureNs => some (s.cbk e.1 headerStampNs tCaptureNs)
  | .indexed i headerStampNs tCaptureNs, .number now =>
      some (s.number e.1 i headerStampNs tCaptureNs now)
  | .outside i, .pub now => some (s.pub e.1 i now)
  | .filling i (write :: rest), .store => some (s.storeTo e.1 i write (.filling i rest))
  | .completing i (write :: rest), .store => some (s.storeTo e.1 i write (.completing i rest))
  | _, _ => none

end ConcurrentLog

end EconRos2Driver.Blackbox
