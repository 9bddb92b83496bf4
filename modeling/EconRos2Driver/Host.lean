import EconRos2Driver.HidDevice
import EconRos2Driver.Process
import EconRos2Driver.Library.Ledger

/-!
# The process and the camera

`Process` leaves open what `init_hid` returns and what `hid::close` closes. Here the camera stands
at the other end of the hidraw device: `init_hid` runs the handshake with it, the result decides how
the constructor goes on, and the camera moves whenever it likes. `hidCalls` lists the descriptors
that have been opened and closed.
-/

namespace EconRos2Driver

open Ledger

structure Host (S P : Type) where
  process : Process S P
  line : Hid.Line
  hidFd : Int := -1
  hidCalls : List (Entry Int) := []

inductive HostEvent (M G R A : Type) where
  | process (event : ProcessEvent M G R A)
  | camera (move : Hid.Move)
  | initHid (fuel : Nat)
  | closeHid

variable {S P M G R A : Type}

def ProcessEvent.isHid : ProcessEvent M G R A → Bool
  | .main (.initHid _) | .main .closeHid => true
  | _ => false

/-- `open_and_init_trigger` as `init_hid` calls it; an `int` becomes a `uint32_t`. -/
def initHid (p : Params) (fuel : Nat) (line : Hid.Line) : Option (Bool × Int × Hid.Line) :=
  Hid.openAndInitTrigger Hid.Line.hidraw fuel p.hidDevice (UInt32.ofInt p.exposureUs) kAflMode line

namespace Host

def init (p : Params) (w : S) (line : Hid.Line) : Host S P := { process := .init p w, line }

variable (D : Device S P M G R A)

def step (s : Host S P) : HostEvent M G R A → Option (Host S P)
  | .process event =>
      if event.isHid then none
      else (s.process.step D event).map fun process => { s with process }
  | .camera move => some { s with line := s.line.move move }
  | .initHid fuel => (initHid s.process.sys.node.p fuel s.line).bind fun (ok, fd, line) =>
      (s.process.step D (.main (.initHid ok))).map fun process =>
        { process, line, hidFd := fd
          hidCalls := if fd < 0 then s.hidCalls else s.hidCalls ++ [.take fd] }
  | .closeHid => (s.process.step D (.main .closeHid)).map fun process =>
      { s with process, hidFd := Hid.close s.hidFd
               hidCalls := if s.hidFd < 0 then s.hidCalls else s.hidCalls ++ [.give s.hidFd] }

end Host

end EconRos2Driver
