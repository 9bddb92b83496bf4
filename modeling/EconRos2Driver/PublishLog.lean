import EconRos2Driver.GstBackend
import EconRos2Driver.OpencvBackend
import EconRos2Driver.Library.Stores

/-!
# The log between two stores

`System` lets a call of `log_cbk` or `log_pub` write its record at once. `LogSystem` puts the file
beside it: the call issues its stores, and these reach the file one at a time, while the other
threads go on and the grab thread does not. Whenever the process is cut off, the file holds what
some state of the `LogSystem` says.

`readings` are the times that anybody has read so far. The log never reads an earlier one; what the
backend reads is not constrained. The clock of `log_cbk` is read between two of its stores; to have
it read at the call only drops the readings that others make in between.
-/

namespace EconRos2Driver

open Blackbox

/-- A backend whose `t_capture_ns` is the clock as it was read at some capture. -/
structure ClockedEnv (S P M G R : Type) extends Env S P M G R where
  moveReads : M → List UInt64
  grabReads : G → List UInt64
  tCaptureNs_move : ∀ s m t, move s m = some t →
    tCaptureNs t = tCaptureNs s ∨ tCaptureNs t ∈ moveReads m
  tCaptureNs_grab : ∀ s g frame t, grab s g = some (frame, t) →
    tCaptureNs t = tCaptureNs s ∨ tCaptureNs t ∈ grabReads g
  tCaptureNs_release : ∀ s r t, release s r = some t → tCaptureNs t = tCaptureNs s

/-- The arguments of one call of `log_cbk`, and the clock it reads. -/
structure CbkCall where
  headerStampNs : UInt64
  tCaptureNs : UInt64
  tCbkNs : UInt64
  deriving DecidableEq, Repr

/-- `pending` are the stores of the last call that have yet to reach the record `record` of the
file. `cbks` and `pubs` are the calls of `log_cbk`, and the clocks read by those of `log_pub`. -/
structure LogSystem (S P : Type) where
  sys : System S P
  readings : List UInt64
  image : Nat → ImagePubRecord := fun _ => {}
  record : Nat := 0
  pending : List (ImagePubRecord → ImagePubRecord) := []
  cbks : List CbkCall := []
  pubs : List UInt64 := []

inductive LogEvent (M G R : Type) where
  | sys (event : Event M G R)
  | store

/-- Every call of `publish` begins by `try_open`. -/
def LogEvent.entersPublish {M G R : Type} : LogEvent M G R → Bool
  | .sys (.tryOpen _) => true
  | _ => false

variable {S P M G R : Type}

/-- The stores that a call of `log_cbk` issues, with the index of the record. -/
def cbkIssues (b : Box) (c : CbkCall) : Nat × List (ImagePubRecord → ImagePubRecord) :=
  let i := (logCbk b c.headerStampNs c.tCaptureNs c.tCbkNs).1
  if i = sizeMax then (0, [])
  else (i.toNat, cbkStores b.nextSeq.1 c.headerStampNs c.tCaptureNs c.tCbkNs)

def pubIssues (b : Box) (i now : UInt64) : Nat × List (ImagePubRecord → ImagePubRecord) :=
  if b.fd < 0 ∨ i = sizeMax ∨ kBufN ≤ i.toNat then (0, []) else (i.toNat, pubStores now)

namespace LogSystem

variable (E : ClockedEnv S P M G R)

def init (p : Params) (stamper : MmapStamper) (boxFd : Nat) (w : S) : LogSystem S P where
  sys := ⟨Node.init p stamper boxFd, w⟩
  readings := [E.tCaptureNs w]

def reads : Event M G R → List UInt64
  | .env m => E.moveReads m
  | .grab g => E.grabReads g
  | .logCbk now | .logPub now => [now]
  | _ => []

def mayTake (s : LogSystem S P) : Event M G R → Bool
  | .env _ => true
  | .logCbk now | .logPub now => s.pending.isEmpty && s.readings.all (· ≤ now)
  | .exit | .grab _ | .count | .tryOpen _ | .readLow _ | .copy | .publish | .release _ =>
      s.pending.isEmpty

/-- What a step of the grab thread does besides. -/
def logged (s : LogSystem S P) : Event M G R → LogSystem S P
  | .logCbk now => match s.sys.node.pc with
      | .copied _ stamp =>
          let c : CbkCall := ⟨Node.headerStampNs stamp.ns, E.tCaptureNs s.sys.env, now⟩
          let (record, pending) := cbkIssues s.sys.node.box c
          { s with record, pending, cbks := s.cbks ++ [c] }
      | _ => s
  | .logPub now => match s.sys.node.pc with
      | .sent _ i =>
          let (record, pending) := pubIssues s.sys.node.box i now
          { s with record, pending, pubs := s.pubs ++ [now] }
      | _ => s
  | _ => s

def step (s : LogSystem S P) : LogEvent M G R → Option (LogSystem S P)
  | .sys event =>
      if s.mayTake event then
        (System.step E.toEnv s.sys event).map fun sys =>
          { s.logged E event with sys, readings := s.readings ++ reads E event }
      else none
  | .store => match s.pending with
      | [] => none
      | write :: rest =>
          some { s with image := Stores.put s.image s.record [write], pending := rest }

end LogSystem

end EconRos2Driver
