import EconRos2Driver.System
import EconRos2Driver.Library.LossyChannel

/-!
# The LiDAR side

The process that writes the shared timestamp is outside the repository; the node only knows the
file. Three worlds say what is taken for granted about it.

`Shared` puts a file beside any backend. Under `sharedEnv` the file may come into being at any
time, is then never shorter than the mapping, and its low word starts at zero or above and is
positive once stored. Under `restartEnv` it is created empty, extended to its full length, and
truncated and extended again when its owner restarts.
`TriggerWorld` is a triggered camera: the writer stores `T k` at trigger `k`, and only then can
frame `k` be exposed and start on its way to the node, a way that keeps the order and may lose
frames anywhere.
-/

namespace EconRos2Driver

structure Shared (S : Type) where
  base : S
  file : Option Timeshare

inductive SharedMove (M : Type) where
  | backend (move : M)
  | create (length : Nat) (content : SharedTimestamp)
  | store (content : SharedTimestamp)

variable {S P M G R : Type}

def Shared.move (E : Env S P M G R) (w : Shared S) : SharedMove M → Option (Shared S)
  | .backend move => (E.move w.base move).map fun base => { w with base }
  | .create length content => match w.file with
      | none =>
          if sizeofSharedTimestamp ≤ length ∧ 0 ≤ content.low then
            some { w with file := some ⟨length, content⟩ }
          else none
      | some _ => none
  | .store content => match w.file with
      | some f =>
          if 0 < content.low then some { w with file := some { f with content } } else none
      | none => none

def sharedEnv (E : Env S P M G R) : Env (Shared S) P (SharedMove M) G R where
  grab := fun w answer => (E.grab w.base answer).map fun (frame, base) => (frame, { w with base })
  release := fun w answer => (E.release w.base answer).map fun base => { w with base }
  pushCount := fun w => E.pushCount w.base
  tCaptureNs := fun w => E.tCaptureNs w.base
  byteAt := fun w => E.byteAt w.base
  move := Shared.move E
  timeshare := Shared.file

inductive RestartMove (M : Type) where
  | backend (move : M)
  | create
  | extend
  | truncate
  | store (content : SharedTimestamp)

/-- Extending an empty file fills it with zeros. -/
def Shared.restart (E : Env S P M G R) (w : Shared S) : RestartMove M → Option (Shared S)
  | .backend move => (E.move w.base move).map fun base => { w with base }
  | .create => match w.file with
      | none => some { w with file := some ⟨0, ⟨0, 0⟩⟩ }
      | some _ => none
  | .extend => w.file.map fun f =>
      { w with file := some { f with length := sizeofSharedTimestamp } }
  | .truncate => w.file.map fun _ => { w with file := some ⟨0, ⟨0, 0⟩⟩ }
  | .store content => match w.file with
      | some f => if f.length = 0 then none else some { w with file := some { f with content } }
      | none => none

def restartEnv (E : Env S P M G R) : Env (Shared S) P (RestartMove M) G R where
  toCameraBackend := (sharedEnv E).toCameraBackend
  move := Shared.restart E
  timeshare := Shared.file

/-- `fired` triggers have been fired; the frames of the first `channel.entered` of them are exposed.
-/
structure TriggerWorld where
  fired : Nat := 0
  low : Int := 0
  channel : LossyChannel.Channel := {}

inductive TriggerMove where
  | trigger
  | expose
  | lose (position : Nat)

inductive CameraAnswer where
  | timeout
  | frame (size : Nat)

namespace TriggerWorld

def move (T : Nat → Int) (w : TriggerWorld) : TriggerMove → Option TriggerWorld
  | .trigger => some { w with fired := w.fired + 1, low := T w.fired }
  | .expose =>
      if w.channel.entered < w.fired then
        (LossyChannel.step w.channel .enter).map fun channel => { w with channel }
      else none
  | .lose position =>
      (LossyChannel.step w.channel (.lose position)).map fun channel => { w with channel }

def grab (w : TriggerWorld) : CameraAnswer → Option (Frame Nat × TriggerWorld)
  | .timeout => some ({}, w)
  | .frame size => match w.channel.inflight with
      | [] => none
      | k :: _ => (LossyChannel.step w.channel .deliver).map fun channel =>
          ({ data := some k, size }, { w with channel })

end TriggerWorld

def triggerEnv (T : Nat → Int) (content : Nat → Nat → UInt8) :
    Env TriggerWorld Nat TriggerMove CameraAnswer Unit where
  grab := TriggerWorld.grab
  release := fun w _ => some w
  pushCount := fun w => UInt64.ofNat w.channel.entered
  tCaptureNs := fun _ => 0
  byteAt := fun _ k => content k
  move := TriggerWorld.move T
  timeshare := fun w => some ⟨sizeofSharedTimestamp, ⟨0, w.low⟩⟩

theorem triggerEnv_stableViews (T : Nat → Int) (content : Nat → Nat → UInt8) :
    (triggerEnv T content).StableViews fun _ => True where
  move := fun _ _ _ _ _ => trivial
  grab := fun _ _ _ _ _ _ => trivial
  release := fun _ _ _ _ _ => trivial
  stable := fun _ _ _ _ _ _ _ _ _ => rfl

end EconRos2Driver
