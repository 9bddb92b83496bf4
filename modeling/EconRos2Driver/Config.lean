import Mathlib.Data.Nat.Notation
import Mathlib.Tactic.Common

/-!
# Runtime parameters

The resolution profiles and the parameter loader of `config.hpp`. A ROS parameter is an optional
override of a default; everything below `flipMethod` in `Params` is derived and cannot be set.
-/

namespace EconRos2Driver

structure Resolution where
  captureWidth : Nat := 0
  captureHeight : Nat := 0
  outputWidth : Nat := 0
  outputHeight : Nat := 0
  fps : Nat := 0
  deriving DecidableEq, Repr

def isQuarterTurn (flipMethod : Int) : Bool := flipMethod == 1 || flipMethod == 3

def resolveProfileUyvy (profile : String) : Resolution :=
  if profile = "hd" then ⟨1280, 720, 1280, 720, 60⟩
  else if profile = "fhd" then ⟨1920, 1080, 1920, 1080, 60⟩
  else if profile = "wuxga" then ⟨1920, 1200, 1920, 1200, 55⟩
  else ⟨1280, 720, 640, 360, 60⟩

def resolveProfileMjpg (profile : String) : Resolution :=
  if profile = "hd" then ⟨1280, 720, 1280, 720, 60⟩
  else if profile = "fhd" then ⟨1920, 1080, 1920, 1080, 60⟩
  else if profile = "wuxga" then ⟨1920, 1200, 1920, 1200, 60⟩
  else ⟨1280, 720, 640, 360, 60⟩

/-- Not a ROS parameter: Auto Frame Length is off. -/
def kAflMode : UInt8 := 0x00

structure Params where
  device : String
  hidDevice : String
  backend : String
  resolution : String
  res : Resolution
  flipMethod : Int
  pubWidth : Nat
  pubHeight : Nat
  expectedSize : Nat
  exposureUs : Int
  compressed : Bool
  topicName : String
  frameId : String

/-- What yaml or launch sets; `none` leaves the default of `config.hpp`. -/
structure Overrides where
  device : Option String := none
  hidDevice : Option String := none
  backend : Option String := none
  resolution : Option String := none
  exposureUs : Option Int := none
  compressed : Option Bool := none
  flipMethod : Option Int := none
  topicName : Option String := none
  frameId : Option String := none

def loadParams (node : Overrides) : Params :=
  let resolution := node.resolution.getD "sd"
  let compressed := node.compressed.getD false
  let flipMethod := node.flipMethod.getD 0
  let res := if compressed then resolveProfileMjpg resolution else resolveProfileUyvy resolution
  let quarter := isQuarterTurn flipMethod
  let pubWidth := if quarter then res.outputHeight else res.outputWidth
  let pubHeight := if quarter then res.outputWidth else res.outputHeight
  { device := node.device.getD "/dev/24cug"
    hidDevice := node.hidDevice.getD "/dev/24cug_hid"
    backend := node.backend.getD "gstreamer"
    resolution
    res
    flipMethod
    pubWidth
    pubHeight
    expectedSize := pubWidth * pubHeight * 3
    exposureUs := node.exposureUs.getD 10000
    compressed
    topicName := node.topicName.getD "/camera/image"
    frameId := node.frameId.getD "camera_init" }

structure Resolution.Positive (res : Resolution) : Prop where
  captureWidth : 0 < res.captureWidth
  captureHeight : 0 < res.captureHeight
  outputWidth : 0 < res.outputWidth
  outputHeight : 0 < res.outputHeight

theorem resolveProfileUyvy_positive (profile : String) : (resolveProfileUyvy profile).Positive := by
  unfold resolveProfileUyvy
  split_ifs <;> exact ⟨by decide, by decide, by decide, by decide⟩

theorem resolveProfileMjpg_positive (profile : String) : (resolveProfileMjpg profile).Positive := by
  unfold resolveProfileMjpg
  split_ifs <;> exact ⟨by decide, by decide, by decide, by decide⟩

theorem loadParams_res_positive (node : Overrides) : (loadParams node).res.Positive := by
  unfold loadParams
  dsimp only
  split_ifs
  · exact resolveProfileMjpg_positive _
  · exact resolveProfileUyvy_positive _

end EconRos2Driver
