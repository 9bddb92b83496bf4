import EconRos2Driver.GstBackend
import EconRos2Driver.Library.Ledger
import Mathlib.Logic.Function.Iterate

/-!
# Building and freeing the pipeline

`start`, `stop` and `drain_bus` of `gst_backend.cpp` by the references they take and give back. A
factory hands out an element that nobody owns but the caller; `gst_bin_add_many` makes the pipeline
its owner, and who frees the pipeline frees what it owns. Caps, the pad, the bus and its messages
are given back where they are taken. What a factory answers and whether the chain links and starts
playing is up to the outside.
-/

namespace EconRos2Driver

open Ledger

inductive GstElement where
  | pipeline
  | src
  | sink
  | capsCapture
  | nvconv
  | capsOutput
  | vidconv
  | capsBgr
  | capsJpeg
  deriving DecidableEq, Repr

/-- What a `capsfilter` lets through; a field that is `none` is left open. -/
structure GstCaps where
  mediaType : String
  format : Option String := none
  size : Option (Nat × Nat) := none
  framerate : Option Nat := none
  deriving DecidableEq, Repr

inductive GstObject where
  | element (e : GstElement)
  | caps (c : GstCaps)
  | srcPad
  | bus
  | message
  | error
  | debugText
  deriving DecidableEq, Repr

structure GstStartAnswer where
  make : GstElement → Bool
  link : Bool
  playing : Bool

/-- What `gst_bus_pop_filtered` finds, and which texts an error comes with. -/
inductive GstBusAnswer where
  | nothing
  | eos
  | error (gerr dbg : Bool)
  deriving DecidableEq, Repr

/-- The pointers `pipeline_` and `sink_`, null or not, what each filter has been set to, the chain
that has been linked, and the references taken and given back so far. -/
structure GstObjects where
  pipeline : Bool := false
  sink : Bool := false
  caps : List (GstElement × GstCaps) := []
  chain : List GstElement := []
  ledger : List (Entry GstObject) := []

def makeUyvyCaps (res : Resolution) : GstCaps where
  mediaType := "video/x-raw"
  format := some "UYVY"
  size := some (res.captureWidth, res.captureHeight)
  framerate := some res.fps

namespace GstObjects

variable (answer : GstStartAnswer)

/-- The calls of the factories, one after the other; the pointers are looked at afterwards. -/
def makeAll (o : GstObjects) (elements : List GstElement) : Bool × GstObjects :=
  (elements.all answer.make,
    { o with ledger := o.ledger
               ++ (elements.filter answer.make).map fun e => .take (.element e) })

def setCaps (o : GstObjects) (e : GstElement) (c : GstCaps) : GstObjects :=
  { o with caps := o.caps ++ [(e, c)], ledger := o.ledger ++ [.take (.caps c), .give (.caps c)] }

/-- `gst_bin_add_many` and `gst_element_link_many` over the same elements. -/
def addAndLink (o : GstObjects) (elements : List GstElement) : Bool × GstObjects :=
  (answer.link,
    { o with chain := elements
             ledger := o.ledger ++ elements.map fun e => .give (.element e) })

def buildRawChain (o : GstObjects) (p : Params) : Bool × GstObjects :=
  match o.makeAll answer [.capsCapture, .nvconv, .capsOutput, .vidconv, .capsBgr] with
  | (false, o) => (false, o)
  | (true, o) =>
      let o := o.setCaps .capsCapture (makeUyvyCaps p.res)
      let o := o.setCaps .capsOutput { mediaType := "video/x-raw", format := some "BGRx"
                                       size := some (p.pubWidth, p.pubHeight) }
      let o := o.setCaps .capsBgr { mediaType := "video/x-raw", format := some "BGR" }
      o.addAndLink answer [.src, .capsCapture, .nvconv, .capsOutput, .vidconv, .capsBgr, .sink]

def buildJpegChain (o : GstObjects) (res : Resolution) : Bool × GstObjects :=
  match o.makeAll answer [.capsJpeg] with
  | (false, o) => (false, o)
  | (true, o) =>
      let o := o.setCaps .capsJpeg { mediaType := "image/jpeg"
                                     size := some (res.captureWidth, res.captureHeight)
                                     framerate := some res.fps }
      o.addAndLink answer [.src, .capsJpeg, .sink]

def buildChain (o : GstObjects) (p : Params) (format : ImageFormat) : Bool × GstObjects :=
  match format with
  | .kJpeg => o.buildJpegChain answer p.res
  | .kRawBgr8 => o.buildRawChain answer p

/-- What `start` does with a chain that has been linked: the probe on the pad, then `PLAYING`. -/
def play : Bool × GstObjects → Bool × GstObjects
  | (false, o) => (false, o)
  | (true, o) => (answer.playing, { o with ledger := o.ledger ++ [.take .srcPad, .give .srcPad] })

def start (o : GstObjects) (p : Params) (format : ImageFormat) : Bool × GstObjects :=
  match o.makeAll answer [.pipeline, .src, .sink] with
  | (false, o) => (false, { o with pipeline := answer.make .pipeline })
  | (true, o) =>
      play answer ({ o with pipeline := true, sink := true }.buildChain answer p format)

def drainBus (o : GstObjects) : GstBusAnswer → GstObjects
  | .nothing => { o with ledger := o.ledger ++ [.take .bus, .give .bus] }
  | .eos =>
      { o with ledger := o.ledger ++ [.take .bus, .take .message, .give .message, .give .bus] }
  | .error gerr dbg =>
      let texts := (if gerr then [.error] else []) ++ (if dbg then [.debugText] else [])
      { o with ledger := o.ledger ++ [.take .bus, .take .message] ++ texts.map .take
                 ++ texts.map .give ++ [.give .message, .give .bus] }

def stop (o : GstObjects) : GstObjects :=
  if o.pipeline then
    { o with pipeline := false, sink := false
             ledger := o.ledger ++ [.give (.element .pipeline)] }
  else { o with sink := false }

/-- One `start`; if it succeeds, a `grab` for each bus answer; then `stop` as often as it is called,
by `shutdown` and by the destructor. -/
def session (p : Params) (format : ImageFormat) (bus : List GstBusAnswer) (stops : Nat) :
    GstObjects :=
  let (ok, o) := start answer {} p format
  let o := if ok then bus.foldl drainBus o else o
  stop^[stops] o

end GstObjects

end EconRos2Driver
