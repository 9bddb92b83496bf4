import EconRos2Driver.Library.Ledger
import EconRos2Driver.PublishLog
import Mathlib.Data.List.Infix

/-!
# The file of the log

`mkdir_for_file`, `Box::init` and `Box::shutdown` of `blackbox.hpp`, and the calls of `log_cbk` and
`log_pub` between them, in whatever order one thread makes them. A path is the list of its
characters. What the system calls answer is up to the outside; a file that has been truncated and
extended by `fallocate` is all zero.

`ledger` lists what `init` takes and `shutdown` gives back, `touched` the records accessed, each
with whether `base` pointed to the table at the time, `cbks` the calls of `log_cbk` made while a
file was open, and `opened` how many of them came before that file.
-/

namespace EconRos2Driver

open Blackbox Ledger

/-- `find('/', pos)`. -/
def findSlash (path : List Char) (pos : Nat) : Option Nat :=
  ((path.drop pos).findIdx? (· == '/')).map (pos + ·)

/-- `find_last_of('/')`. -/
def findLastSlash (path : List Char) : Option Nat :=
  (path.reverse.findIdx? (· == '/')).map (path.length - 1 - ·)

/-- The loop of `mkdir_for_file`, with `rounds` as a bound on the slashes still to come. -/
def mkdirLoop (dir : List Char) : Nat → Nat → List (List Char)
  | 0, _ => []
  | rounds + 1, pos => match findSlash dir (pos + 1) with
      | none => []
      | some pos => dir.take pos :: mkdirLoop dir rounds pos

/-- The directories that `mkdir` is called for. -/
def mkdirForFile (path : List Char) : List (List Char) :=
  match findLastSlash path with
  | none | some 0 => []
  | some (slash + 1) =>
      let dir := path.take (slash + 1)
      mkdirLoop dir dir.length 0 ++ [dir]

inductive LogResource where
  | file (fd : Int)
  | mapping
  | writer
  deriving DecidableEq, Repr

/-- The results of the system calls of one `init`; `none` and `false` are failures. -/
structure InitAnswer where
  openFd : Option Nat
  fallocate : Bool
  mmap : Bool

structure LogFile where
  box : Box := {}
  mapped : Bool := false
  joinable : Bool := false
  made : List (List Char) := []
  ledger : List (Entry LogResource) := []
  touched : List (Nat × Bool) := []
  cbks : List CbkCall := []
  opened : Nat := 0

inductive LogCall where
  | init (path : String) (answer : InitAnswer)
  | shutdown
  | cbk (call : CbkCall)
  | pub (i now : UInt64)

def LogCall.isCbk : LogCall → Bool
  | .cbk _ => true
  | .init _ _ | .shutdown | .pub _ _ => false

namespace LogFile

def close (s : LogFile) : LogFile :=
  { s with box := { s.box with fd := -1 }, ledger := s.ledger ++ [.give (.file s.box.fd)] }

/-- The text is that of the exception, where one is thrown. -/
def init (s : LogFile) (path : String) (answer : InitAnswer) : Option String × LogFile :=
  if 0 ≤ s.box.fd then (none, s)
  else
    let s : LogFile := { s with made := s.made ++ mkdirForFile path.toList }
    match answer.openFd with
    | none => (some ("blackbox: open failed: " ++ path), { s with box := { s.box with fd := -1 } })
    | some fd =>
        let s : LogFile := { s with box := { s.box with fd := (fd : Int) }
                                    ledger := s.ledger ++ [.take (.file fd)] }
        if !answer.fallocate then (some ("blackbox: fallocate failed: " ++ path), s.close)
        else if !answer.mmap then (some ("blackbox: mmap failed: " ++ path), s.close)
        else
          (none, { s with box := { s.box with base := fun _ => {} }
                          mapped := true, joinable := true
                          ledger := s.ledger ++ [.take .mapping, .take .writer]
                          opened := s.cbks.length })

/-- The counters `idx` and `seq` stay as they are. -/
def shutdown (s : LogFile) : LogFile :=
  if s.box.fd < 0 then s
  else
    let s : LogFile := if s.joinable then
      { s with joinable := false, ledger := s.ledger ++ [.give .writer] } else s
    let s : LogFile := if s.mapped then
      { s with mapped := false, ledger := s.ledger ++ [.give .mapping] } else s
    s.close

def cbk (s : LogFile) (c : CbkCall) : LogFile :=
  let (i, box) := logCbk s.box c.headerStampNs c.tCaptureNs c.tCbkNs
  { s with box
           touched := if i = sizeMax then s.touched else s.touched ++ [(i.toNat, s.mapped)]
           cbks := if s.box.fd < 0 then s.cbks else s.cbks ++ [c] }

def pub (s : LogFile) (i now : UInt64) : LogFile :=
  { s with box := logPub s.box i now
           touched := if s.box.fd < 0 ∨ i = sizeMax ∨ kBufN ≤ i.toNat then s.touched
                      else s.touched ++ [(i.toNat, s.mapped)] }

def step (s : LogFile) : LogCall → LogFile
  | .init path answer => (s.init path answer).2
  | .shutdown => s.shutdown
  | .cbk c => s.cbk c
  | .pub i now => s.pub i now

end LogFile

end EconRos2Driver
