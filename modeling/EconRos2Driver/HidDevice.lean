import EconRos2Driver.HidControl

/-!
# The camera at the other end of the hidraw device

The second party of the handshake, and the two queues between it and the driver. The camera takes
the 65-byte reports of its `inbox` in their order; its answers wait in `outbox` until it sends them
into `queue`, from which `read` takes them. Reports and answers remember whether they belong to the
session that `open_and_init_trigger` opens, which neither party can see.

What the camera does between two system calls is a list of moves, and what a system call returns is
up to the `turns` as well, so a line is run by arbitrary lists of both. A move the camera's contract
rules out does nothing.
-/

namespace EconRos2Driver.Hid

structure Device where
  exposure : Nat
  mode : UInt8
  afl : UInt8
  deriving DecidableEq, Repr

structure Report where
  session : Bool
  bytes : List UInt8
  deriving DecidableEq, Repr

def code : List UInt8 → Option UInt8
  | unit :: code :: _ => if unit = kCameraControl24CUG then some code else none
  | _ => none

/-- The report number comes before the code bytes. -/
def reportCode (report : List UInt8) : Option UInt8 := code report.tail

def status (packet : List UInt8) : UInt8 := packet.getD 6 0

def exposureOf (b₃ b₄ b₅ b₆ : UInt8) : Nat :=
  ((b₃.toNat * 256 + b₄.toNat) * 256 + b₅.toNat) * 256 + b₆.toNat

def exposureField (report : List UInt8) : Nat :=
  exposureOf (report.getD 3 0) (report.getD 4 0) (report.getD 5 0) (report.getD 6 0)

/-- **The contract of the camera** for one report: what the report may change, and what may be said
in answer to it. -/
structure Conforms (report : List UInt8) (old new : Device) (answers : List (List UInt8)) :
    Prop where
  exposure : reportCode report ≠ some kSetExposureComp → new.exposure = old.exposure
  stream : reportCode report ≠ some kSetStreamMode → new.mode = old.mode ∧ new.afl = old.afl
  answered : ∀ p ∈ answers, code p = none ∨ code p = reportCode report
  exposureSet : ∀ p ∈ answers, code p = some kSetExposureComp → status p = 0x01 →
    new.exposure = exposureField report
  streamSet : ∀ p ∈ answers, code p = some kSetStreamMode → status p = 0x01 →
    new.mode = report.getD 3 0 ∧ new.afl = report.getD 4 0
  streamGot : ∀ p ∈ answers, code p = some kGetStreamMode → p.getD 2 0 = new.mode

instance (report : List UInt8) (old new : Device) (answers : List (List UInt8)) :
    Decidable (Conforms report old new answers) :=
  decidable_of_iff
    ((reportCode report ≠ some kSetExposureComp → new.exposure = old.exposure) ∧
      (reportCode report ≠ some kSetStreamMode → new.mode = old.mode ∧ new.afl = old.afl) ∧
      (∀ p ∈ answers, code p = none ∨ code p = reportCode report) ∧
      (∀ p ∈ answers, code p = some kSetExposureComp → status p = 0x01 →
        new.exposure = exposureField report) ∧
      (∀ p ∈ answers, code p = some kSetStreamMode → status p = 0x01 →
        new.mode = report.getD 3 0 ∧ new.afl = report.getD 4 0) ∧
      ∀ p ∈ answers, code p = some kGetStreamMode → p.getD 2 0 = new.mode)
    ⟨fun ⟨h₁, h₂, h₃, h₄, h₅, h₆⟩ => ⟨h₁, h₂, h₃, h₄, h₅, h₆⟩,
      fun ⟨h₁, h₂, h₃, h₄, h₅, h₆⟩ => ⟨h₁, h₂, h₃, h₄, h₅, h₆⟩⟩

/-- One thing that happens at the camera's end: it takes a report, sends an answer, sends a packet
that answers nothing, or an answer gets lost. -/
inductive Move where
  | handle (device : Device) (answers : List (List UInt8))
  | send
  | emit (packet : List UInt8)
  | lose
  deriving DecidableEq, Repr

structure Turn where
  moves : List Move := []
  result : Int := 0
  errno : Option Nat := none
  deriving DecidableEq, Repr

/-- `drained` is set by the first read that fails, the last of the initial drain. -/
structure Line where
  device : Device
  inbox : List Report
  outbox : List Report
  queue : List (List UInt8)
  drained : Bool
  turns : List Turn
  deriving DecidableEq, Repr

/-- Before the session: reports, answers and packets of whoever had the device open before. -/
def Line.start (device : Device) (reports answers queue : List (List UInt8)) (turns : List Turn) :
    Line where
  device
  inbox := reports.map fun bytes => ⟨false, bytes⟩
  outbox := answers.map fun bytes => ⟨false, bytes⟩
  queue
  drained := false
  turns

def Line.move (line : Line) : Move → Line
  | .handle device answers => match line.inbox with
      | [] => line
      | report :: inbox =>
          if Conforms report.bytes line.device device answers then
            { line with
              device
              inbox
              outbox := line.outbox ++ answers.map fun bytes => ⟨report.session, bytes⟩ }
          else line
  | .send => match line.outbox with
      | [] => line
      | answer :: outbox =>
          -- After the drain only answers of this session begin with a command's code.
          if line.drained ∧ answer.session = false ∧ code answer.bytes ≠ none then line
          else { line with outbox, queue := line.queue ++ [answer.bytes] }
  | .emit packet =>
      if line.drained ∧ code packet ≠ none then line
      else { line with queue := line.queue ++ [packet] }
  | .lose => { line with outbox := line.outbox.tail }

def Line.advance (line : Line) (moves : List Move) : Line := moves.foldl Line.move line

inductive Line.Moved (line : Line) : Line → Prop where
  | still : line.Moved line
  | handled {report inbox device answers} (hinbox : line.inbox = report :: inbox)
      (hconforms : Conforms report.bytes line.device device answers) :
      line.Moved { line with
        device
        inbox
        outbox := line.outbox ++ answers.map fun bytes => ⟨report.session, bytes⟩ }
  | sent {answer outbox} (houtbox : line.outbox = answer :: outbox)
      (hown : line.drained = true → answer.session = false → code answer.bytes = none) :
      line.Moved { line with outbox, queue := line.queue ++ [answer.bytes] }
  | emitted {packet} (hforeign : line.drained = true → code packet = none) :
      line.Moved { line with queue := line.queue ++ [packet] }
  | lost : line.Moved { line with outbox := line.outbox.tail }

theorem Line.moved_move (line : Line) (m : Move) : line.Moved (line.move m) := by
  cases m with
  | handle device answers =>
      simp only [Line.move]
      split
      · exact .still
      · rename_i report inbox hinbox
        split_ifs with hconforms
        · exact .handled hinbox hconforms
        · exact .still
  | send =>
      simp only [Line.move]
      split
      · exact .still
      · rename_i answer outbox houtbox
        split_ifs with hforeign
        · exact .still
        · exact .sent houtbox fun hdrained hown => by simpa [hdrained, hown] using hforeign
  | emit packet =>
      simp only [Line.move]
      split_ifs with hforeign
      · exact .still
      · exact .emitted fun hdrained => by simpa [hdrained] using hforeign
  | lose => exact .lost

def Line.next (line : Line) : Turn × Line :=
  match line.turns with
  | [] => ({}, line)
  | turn :: turns => (turn, { line with turns }.advance turn.moves)

/-- A read passes over empty packets. It can fail at any time, for want of a packet or not. -/
def Line.read (line : Line) : ReadResult × Line :=
  let (turn, line) := line.next
  match line.queue.dropWhile List.isEmpty with
  | [] => (.error (turn.errno.getD eagain), { line with queue := [], drained := true })
  | packet :: queue => match turn.errno with
      | some errno => (.error errno, { line with drained := true })
      | none => (.data packet, { line with queue })

def Line.write (report : List UInt8) (line : Line) : Int × Line :=
  let (turn, line) := line.next
  (turn.result,
    if turn.result = kHidPkt then { line with inbox := line.inbox ++ [⟨true, report⟩] } else line)

def Line.hidraw : Hidraw Line where
  openDevice _ line := (line.next.1.result, line.next.2)
  ioctl _ line := line.next.2
  write := Line.write
  select _ line := (line.next.1.result, line.next.2)
  read := Line.read

/-- The drain of the handshake leaves nothing queued: the read that ends it has failed for want of a
packet. `hidraw` sees to that, since it hands out what it has before it looks for another reason to
fail. -/
def DrainsDry (fuel : Nat) (path : String) (line : Line) : Prop :=
  ∀ line' ∈ drain Line.hidraw fuel (Line.hidraw.openDevice path line).2, line'.queue = []

instance (fuel : Nat) (path : String) (line : Line) : Decidable (DrainsDry fuel path line) :=
  inferInstanceAs (Decidable (∀ line' ∈ drain Line.hidraw fuel _, line'.queue = []))

end EconRos2Driver.Hid
