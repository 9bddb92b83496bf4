import EconRos2Driver.GstBackend
import EconRos2Driver.OpencvBackend

/-!
# The process

The three threads of one process: the main thread, which constructs the node, spins and destroys it;
the grab thread, which is the `System`; and the writer thread of the log. `trace` lists the calls of
the grab thread and the calls of the others that free or flush something, in the order they begin.

The condition of `loop` reads `stop_` and then `rclcpp::ok()`; `gate` says how far it has come. The
steps of the destructor are those of `shutdown`, of `blackbox::image::shutdown` and of the members
that are destroyed afterwards. If the log cannot be opened, the constructor throws and there is
neither thread; a process killed by a fault takes no further step.
-/

namespace EconRos2Driver

/-- A backend with the two calls that the main thread makes. -/
structure Device (S P M G R A : Type) extends Env S P M G R where
  start : Params → ImageFormat → S → A → Bool × S
  stop : S → S

/-- Whether the pipeline could be built and set playing is up to the outside. -/
def gstDevice (content : Nat → Nat → UInt8) :
    Device GstWorld Nat GstMove PullAnswer Unit Bool :=
  { gstEnv content with
    start := fun _ _ w playing => (playing, w)
    stop := GstWorld.stop }

def v4l2Device (cv : OpenCv) :
    Device V4l2World V4l2Ptr V4l2Move DqbufAnswer Bool StartAnswer :=
  { v4l2Env cv with
    start := fun p format w answer => w.start p format answer
    stop := V4l2World.stop }

/-- What the main thread does next. -/
inductive MainPc where
  | initLog
  | initHid
  | initBackend
  | startThread
  | spin
  | setStop
  | joinGrab
  | stopBackend
  | closeStamper
  | closeHid
  | stopWriter
  | joinWriter
  | syncLog
  | unmapLog
  | closeLog
  | destroyBackend
  | destroyStamper
  | done
  deriving DecidableEq, Repr

/-- What the writer thread does next. -/
inductive WriterPc where
  | notStarted
  | testing
  | sleeping
  | retesting
  | checking
  | syncing
  | finished
  deriving DecidableEq, Repr

inductive Gate where
  | head
  | stopRead
  | entered
  deriving DecidableEq, Repr

inductive GrabCall where
  | grab (valid : Bool)
  | pushCount
  | tryOpen
  | readLow
  | copy
  | tCaptureNs
  | logCbk
  | publish
  | logPub
  | release
  deriving DecidableEq, Repr

inductive Action where
  | grabThread (call : GrabCall)
  | stopBackend
  | closeStamper
  | writerSync
  | syncLog
  | unmapLog
  | closeLog
  deriving DecidableEq, Repr

structure Process (S P : Type) where
  sys : System S P
  main : MainPc := .initLog
  writer : WriterPc := .notStarted
  gate : Gate := .head
  stop : Bool := false
  ok : Bool := true
  hasBackend : Bool := false
  hasThread : Bool := false
  running : Bool := false
  trace : List Action := []

inductive MainEvent (A : Type) where
  | initLog (fd : Nat)
  | initHid (ok : Bool)
  | unknownBackend
  | initBackend (answer : A)
  | startThread
  | endSpin
  | setStop
  | joinGrab
  | stopBackend
  | closeStamper
  | closeHid
  | stopWriter
  | joinWriter
  | syncLog
  | unmapLog
  | closeLog
  | destroyBackend
  | destroyStamper

inductive ProcessEvent (M G R A : Type) where
  | sys (event : Event M G R)
  | testStop
  | testOk
  | shutdownRequested
  | main (event : MainEvent A)
  | writer

variable {S P M G R A : Type}

/-- The calls of the grab thread in a step that led to `t`. -/
def grabCalls (event : Event M G R) (t : System S P) : List GrabCall :=
  match event with
  | .env _ | .exit => []
  | .grab _ => [.grab t.node.pc.inHand]
  | .count => [.pushCount]
  | .tryOpen _ => [.tryOpen]
  | .readLow _ => [.readLow]
  | .copy => [.copy]
  | .logCbk _ => [.tCaptureNs, .logCbk]
  | .publish => [.publish]
  | .logPub _ => [.logPub]
  | .release _ => [.release]

namespace Process

/-- The process when the constructor starts; the log is not open yet. -/
def init (p : Params) (w : S) : Process S P where
  sys := { node := { Node.init p with box := {} }, env := w }

def setBoxFd (s : System S P) (fd : Int) : System S P :=
  { s with node := { s.node with box := { s.node.box with fd } } }

def closeStamper (s : System S P) : System S P :=
  { s with node := { s.node with stamper := s.node.stamper.close } }

variable (D : Device S P M G R A)

def stopDevice (s : Process S P) : Process S P :=
  if s.hasBackend then
    { s with sys := { s.sys with env := D.stop s.sys.env }, trace := s.trace ++ [.stopBackend] }
  else s

def mainStep (s : Process S P) : MainEvent A → Option (Process S P)
  | .initLog fd =>
      if s.main = .initLog then
        some { s with sys := setBoxFd s.sys fd, running := true, writer := .testing
                      main := .initHid }
      else none
  | .initHid ok =>
      if s.main = .initHid then some { s with main := if ok then .initBackend else .spin }
      else none
  | .unknownBackend =>
      if s.main = .initBackend ∧ s.sys.node.p.backend ≠ "gstreamer"
          ∧ s.sys.node.p.backend ≠ "opencv" then
        some { s with main := .spin }
      else none
  | .initBackend answer =>
      if s.main = .initBackend ∧ (s.sys.node.p.backend = "gstreamer"
          ∨ s.sys.node.p.backend = "opencv") then
        let (ok, env) := D.start s.sys.node.p (imageFormat s.sys.node.p) s.sys.env answer
        some { s with sys := { s.sys with env }, hasBackend := true
                      main := if ok then .startThread else .spin }
      else none
  | .startThread =>
      if s.main = .startThread then some { s with hasThread := true, main := .spin } else none
  | .endSpin => if s.main = .spin then some { s with main := .setStop } else none
  | .setStop =>
      if s.main = .setStop then some { s with stop := true, main := .joinGrab } else none
  | .joinGrab =>
      if s.main = .joinGrab ∧ (s.hasThread = true → s.sys.node.pc.hasExited = true) then
        some { s with main := .stopBackend }
      else none
  | .stopBackend =>
      if s.main = .stopBackend then some { s.stopDevice D with main := .closeStamper } else none
  | .closeStamper =>
      if s.main = .closeStamper then
        some { s with sys := closeStamper s.sys, trace := s.trace ++ [.closeStamper]
                      main := .closeHid }
      else none
  | .closeHid => if s.main = .closeHid then some { s with main := .stopWriter } else none
  | .stopWriter =>
      if s.main = .stopWriter then
        if s.sys.node.box.fd < 0 then some { s with main := .destroyBackend }
        else some { s with running := false, main := .joinWriter }
      else none
  | .joinWriter =>
      if s.main = .joinWriter ∧ s.writer = .finished then some { s with main := .syncLog }
      else none
  | .syncLog =>
      if s.main = .syncLog then
        some { s with trace := s.trace ++ [.syncLog], main := .unmapLog }
      else none
  | .unmapLog =>
      if s.main = .unmapLog then
        some { s with trace := s.trace ++ [.unmapLog], main := .closeLog }
      else none
  | .closeLog =>
      if s.main = .closeLog then
        some { s with sys := setBoxFd s.sys (-1), trace := s.trace ++ [.closeLog]
                      main := .destroyBackend }
      else none
  | .destroyBackend =>
      if s.main = .destroyBackend then some { s.stopDevice D with main := .destroyStamper }
      else none
  | .destroyStamper =>
      if s.main = .destroyStamper then
        some { s with sys := closeStamper s.sys, trace := s.trace ++ [.closeStamper]
                      main := .done }
      else none

def writerStep (s : Process S P) : Option (Process S P) :=
  match s.writer with
  | .notStarted | .finished => none
  | .testing => some { s with writer := if s.running then .sleeping else .finished }
  | .sleeping => some { s with writer := .retesting }
  | .retesting => some { s with writer := if s.running then .checking else .finished }
  | .checking =>
      some { s with writer := if 0 ≤ s.sys.node.box.fd then .syncing else .testing }
  | .syncing => some { s with writer := .testing, trace := s.trace ++ [.writerSync] }

/-- The grab thread leaves `loop` where a test of the condition says so, not by itself. -/
def mayTake (s : Process S P) : Event M G R → Bool
  | .env _ => true
  | .exit => false
  | .grab _ => s.hasThread && s.gate == .entered
  | .count | .tryOpen _ | .readLow _ | .copy | .logCbk _ | .publish | .logPub _ | .release _ =>
      s.hasThread

def gateAfter (gate : Gate) : Event M G R → Gate
  | .grab _ => .head
  | _ => gate

def sysStep (s : Process S P) (event : Event M G R) : Option (Process S P) :=
  if s.mayTake event then
    (System.step D.toEnv s.sys event).map fun sys =>
      { s with sys, gate := gateAfter s.gate event
               trace := s.trace ++ (grabCalls event sys).map .grabThread }
  else none

/-- One half of the condition of `loop`, which is read when `gate` stands at `before`. -/
def testStep (s : Process S P) (before after : Gate) (goOn : Bool) : Option (Process S P) :=
  match s.sys.node.pc with
  | .head =>
      if s.hasThread = true ∧ s.gate = before then
        if goOn then some { s with gate := after }
        else (System.step D.toEnv s.sys .exit).map fun sys => { s with sys }
      else none
  | _ => none

def step (s : Process S P) (event : ProcessEvent M G R A) : Option (Process S P) :=
  match s.sys.node.pc with
  | .sigbus => none
  | _ => match event with
    | .sys event => s.sysStep D event
    | .testStop => s.testStep D .head .stopRead !s.stop
    | .testOk => s.testStep D .stopRead .entered s.ok
    | .shutdownRequested => some { s with ok := false }
    | .main event => s.mainStep D event
    | .writer => s.writerStep

end Process

end EconRos2Driver
