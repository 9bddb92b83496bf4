import Mathlib.Tactic.Common

/-!
# The HID extension unit

The functions of `hid_control.hpp` over the system calls they make on the hidraw device. The calls
are a parameter, a state `σ` and what each call returns in it, so that one text serves both the
sequences of arbitrary results and the camera of `HidDevice`. Nothing reads the results of the
`ioctl` calls, so a device only has to say what they do to its state. The log texts are left out.
-/

namespace EconRos2Driver.Hid

def kCameraControl24CUG : UInt8 := 0xA8

def kGetStreamMode : UInt8 := 0x1B

def kSetStreamMode : UInt8 := 0x1C

def kOsCode : UInt8 := 0x70

def kLinuxOs : UInt8 := 0x01

def kSetExposureComp : UInt8 := 0x12

def kHidPkt : Nat := 65

def kHidResp : Nat := 64

def eagain : Nat := 11

/-- What `read` returns: the bytes of one report, or `-1` with an `errno`. -/
inductive ReadResult where
  | data (bytes : List UInt8)
  | error (errno : Nat)
  deriving DecidableEq, Repr

/-- The requests `HIDIOCGRDESCSIZE`, `HIDIOCGRDESC`, `HIDIOCGRAWNAME` and `HIDIOCGRAWINFO`. -/
inductive Inquiry where
  | grdescsize
  | grdesc
  | grawname
  | grawinfo
  deriving DecidableEq, Repr

/-- The system calls on the device. `select` has its time limit in seconds. -/
structure Hidraw (σ : Type*) where
  openDevice : String → σ → Int × σ
  ioctl : Inquiry → σ → σ
  write : List UInt8 → σ → Int × σ
  select : Nat → σ → Int × σ
  read : σ → ReadResult × σ

/-- A command of 65 bytes: the report number 0, two code bytes, the data, and zeros. -/
def command (code₁ code₂ : UInt8) (data : List UInt8) : List UInt8 :=
  (0 :: code₁ :: code₂ :: data ++ List.replicate kHidPkt 0).take kHidPkt

/-- `read` stores the packet at the front of the buffer and leaves the rest of it as it was. -/
def store (resp pkt : List UInt8) : List UInt8 := pkt ++ resp.drop pkt.length

variable {σ : Type*} (hidraw : Hidraw σ)

def readLoop (cmd : List UInt8) : Nat → List UInt8 → σ → Bool × List UInt8 × σ
  | 0, resp, s => (false, resp, s)
  | rounds + 1, resp, s =>
      match hidraw.read s with
      | (.error errno, s) =>
          if errno = eagain then readLoop cmd rounds resp s else (false, resp, s)
      | (.data bytes, s) =>
          let pkt := bytes.take kHidResp
          let resp := store resp pkt
          if kHidResp ≤ pkt.length ∧ resp.getD 0 0 = cmd.getD 1 0
              ∧ resp.getD 1 0 = cmd.getD 2 0 then (true, resp, s)
          else if 0 < pkt.length then readLoop cmd rounds resp s
          else (false, resp, s)

def writeRead (cmd resp : List UInt8) (timeoutSec : Nat) (s : σ) : Bool × List UInt8 × σ :=
  let (written, s) := hidraw.write cmd s
  if written ≠ kHidPkt then (false, resp, s)
  else
    let (ret, s) := hidraw.select timeoutSec s
    if ret ≤ 0 then (false, resp, s) else readLoop hidraw cmd 10 resp s

/-- The loop of `drain`; `none` when the packets outlast the fuel. -/
def drain : Nat → σ → Option σ
  | 0, _ => none
  | fuel + 1, s =>
      match hidraw.read s with
      | (.data (_ :: _), s) => drain fuel s
      | (.data [], s) => some s
      | (.error _, s) => some s

def inquiries : List Inquiry := [.grdescsize, .grdesc, .grawname, .grawinfo]

/-- What `init` asks about the device before it writes to it. -/
def inquire (s : σ) : σ := inquiries.foldl (fun s request => hidraw.ioctl request s) s

/-- The reads of `init` that look for the answer to the OS code and do nothing about it. -/
def osCodeReads : Nat → σ → σ
  | 0, s => s
  | attempts + 1, s => osCodeReads attempts (hidraw.read s).2

def init (fuel : Nat) (s : σ) : Option (Bool × σ) :=
  (drain hidraw fuel s).map fun s =>
    let s := inquire hidraw s
    let (written, s) := hidraw.write (command kOsCode kLinuxOs []) s
    if written ≠ kHidPkt then (false, s) else (true, osCodeReads hidraw 3 s)

def setStreamMode (mode afl : UInt8) (s : σ) : Bool × σ :=
  let cmd := command kCameraControl24CUG kSetStreamMode [mode, afl]
  let (answered, resp, s) := writeRead hidraw cmd (List.replicate kHidResp 0) 5 s
  if answered then (resp.getD 6 0 == 0x01, s) else (false, s)

def exposureBytes (exposureUs : UInt32) : List UInt8 :=
  [(exposureUs >>> 24).toUInt8, (exposureUs >>> 16).toUInt8, (exposureUs >>> 8).toUInt8,
    exposureUs.toUInt8]

def setExposure (exposureUs : UInt32) (s : σ) : Bool × σ :=
  let cmd := command kCameraControl24CUG kSetExposureComp (exposureBytes exposureUs)
  let (answered, resp, s) := writeRead hidraw cmd (List.replicate kHidResp 0) 7 s
  if answered then (resp.getD 6 0 == 0x01, s) else (false, s)

/-- `mode` and `afl` are variables of the caller, which keep their values without an answer. -/
def getStreamMode (mode afl : UInt8) (s : σ) : Bool × UInt8 × UInt8 × σ :=
  let cmd := command kCameraControl24CUG kGetStreamMode []
  let (answered, resp, s) := writeRead hidraw cmd (List.replicate kHidResp 0) 5 s
  if answered then (resp.getD 6 0 == 0x01, resp.getD 2 0, resp.getD 3 0, s)
  else (false, mode, afl, s)

/-- The verdict is that of `mode`: what `get_stream_mode` returns is not looked at. -/
def openAndInitTrigger (fuel : Nat) (device : String) (exposureUs : UInt32) (aflMode : UInt8)
    (s : σ) : Option (Bool × Int × σ) :=
  let (fd, s) := hidraw.openDevice device s
  if fd < 0 then some (false, fd, s)
  else
    (init hidraw fuel s).map fun (ok, s) =>
      if !ok then (false, fd, s)
      else
        let (ok, s) := setExposure hidraw exposureUs s
        if !ok then (false, fd, s)
        else
          let (ok, s) := setStreamMode hidraw 0x01 aflMode s
          if !ok then (false, fd, s)
          else
            let (_, mode, _, s) := getStreamMode hidraw 0 0 s
            (mode == 0x01, fd, s)

/-- What `close` leaves in the variable of its caller. The system call is made where it changes. -/
def close (fd : Int) : Int := if fd < 0 then fd else -1

theorem length_store {resp pkt : List UInt8} (h : pkt.length ≤ resp.length) :
    (store resp pkt).length = resp.length := by
  simp [store]
  omega

theorem store_full {resp pkt : List UInt8} (h : resp.length ≤ pkt.length) :
    store resp pkt = pkt := by
  simp [store, List.drop_eq_nil_of_le h]

variable {hidraw}

structure Matches (cmd resp : List UInt8) : Prop where
  length : resp.length = kHidResp
  code₁ : resp.getD 0 0 = cmd.getD 1 0
  code₂ : resp.getD 1 0 = cmd.getD 2 0

theorem init_true {fuel : Nat} {s s' : σ} (h : init hidraw fuel s = some (true, s')) :
    ∃ t, drain hidraw fuel s = some t ∧
      (hidraw.write (command kOsCode kLinuxOs []) (inquire hidraw t)).1 = kHidPkt ∧
      s' = osCodeReads hidraw 3
        (hidraw.write (command kOsCode kLinuxOs []) (inquire hidraw t)).2 := by
  obtain ⟨t, hdrain, ht⟩ := Option.map_eq_some_iff.mp h
  dsimp only at ht
  split_ifs at ht with hwritten
  · simp at ht
  · exact ⟨t, hdrain, not_not.mp hwritten, (Prod.mk.inj ht).2.symm⟩

theorem openAndInitTrigger_true {fuel : Nat} {device : String} {exposureUs : UInt32}
    {aflMode : UInt8} {s s' : σ} {fd : Int}
    (h : openAndInitTrigger hidraw fuel device exposureUs aflMode s = some (true, fd, s')) :
    ∃ s₁ s₂ s₃ ok afl, init hidraw fuel (hidraw.openDevice device s).2 = some (true, s₁) ∧
      setExposure hidraw exposureUs s₁ = (true, s₂) ∧
      setStreamMode hidraw 0x01 aflMode s₂ = (true, s₃) ∧
      getStreamMode hidraw 0 0 s₃ = (ok, 0x01, afl, s') := by
  unfold openAndInitTrigger at h
  dsimp only at h
  split_ifs at h with hfd
  · simp at h
  · obtain ⟨⟨ok, s₁⟩, hinit, hrest⟩ := Option.map_eq_some_iff.mp h
    dsimp only at hrest
    split_ifs at hrest with hok hexposure hstream
    · simp at hrest
    · simp at hrest
    · simp at hrest
    · simp only [Bool.not_eq_eq_eq_not, Bool.not_true, Bool.not_eq_false] at hok hexposure hstream
      simp only [Prod.mk.injEq, beq_iff_eq] at hrest
      exact ⟨s₁, _, _, _, _, hok ▸ hinit, Prod.ext hexposure rfl, Prod.ext hstream rfl,
        Prod.ext rfl (Prod.ext hrest.1 (Prod.ext rfl hrest.2.2))⟩

end EconRos2Driver.Hid
