import EconRos2Driver.Subscribers
import EconRos2Driver.Library.Link

/-!
# The driver and a subscriber

`publish` hands a message to the middleware, which delivers it to a subscription of the same topic
and type. All three nodes ask for best effort, and the subscribers keep the last five: a message may
get lost, but those that arrive do so in order. A `Subscriber` is a node with one subscription and
one timer, run by `rclcpp::spin` one callback after the other; an exception ends it.
-/

namespace EconRos2Driver

inductive MessageType where
  | image
  | compressedImage
  deriving DecidableEq, Repr

structure Topic where
  name : String
  type : MessageType
  deriving DecidableEq, Repr

/-- What `setup_publisher` advertises. -/
def publication (p : Params) : Topic :=
  if p.compressed then ⟨p.topicName ++ "/compressed", .compressedImage⟩
  else ⟨p.topicName, .image⟩

/-- The constructor of the viewer, by the two parameters it declares first. -/
def ImageViewer.subscription (encoding topic : Option String) : Except String Topic :=
  let encoding := encoding.getD "raw"
  let defaultTopic :=
    if encoding = "compressed" then "/camera/image/compressed" else "/camera/image"
  let topic := topic.getD defaultTopic
  if encoding = "raw" then .ok ⟨topic, .image⟩
  else if encoding = "compressed" then .ok ⟨topic, .compressedImage⟩
  else .error "invalid encoding parameter"

def ImageSaver.subscription (topic : Option String) : Topic :=
  ⟨topic.getD "/camera/image", .image⟩

/-- The message as it comes out of the middleware; only an empty vector has no data pointer. -/
def Image.received (msg : Image) : ReceivedImage where
  encoding := msg.encoding
  height := UInt32.ofNat msg.height
  width := UInt32.ofNat msg.width
  step := UInt32.ofNat msg.step
  data := msg.data
  null := msg.data.isEmpty
  data_of_null := List.isEmpty_iff.mp

structure Subscriber (V T : Type) where
  receive : V → Message → V
  timer : V → T → V

structure Monitor (S P V : Type) where
  sys : System S P
  link : Link Message := {}
  subscriber : V

inductive MonitorEvent (M G R T : Type) where
  | sys (event : Event M G R)
  | lose (position : Nat)
  | deliver
  | timer (answer : T)

variable {S P M G R V T : Type}

def Node.messages (n : Node S P) : List Message := n.published.map fun sent => sent.message

namespace Monitor

def init (p : Params) (stamper : MmapStamper) (boxFd : Nat) (env : S) (subscriber : V) :
    Monitor S P V := { sys := ⟨Node.init p stamper boxFd, env⟩, subscriber }

variable (E : Env S P M G R) (B : Subscriber V T) (topic : Topic)

def step (s : Monitor S P V) : MonitorEvent M G R T → Option (Monitor S P V)
  | .sys event => (System.step E s.sys event).map fun sys =>
      { s with
        sys
        link := if publication s.sys.node.p = topic then
            s.link.send (sys.node.messages.drop s.sys.node.messages.length)
          else s.link }
  | .lose position => some { s with link := s.link.lose position }
  | .deliver => s.link.deliver.map fun (message, link) =>
      { s with link, subscriber := B.receive s.subscriber message }
  | .timer answer => some { s with subscriber := B.timer s.subscriber answer }

end Monitor

inductive Shown where
  | raw (img : MatHeader) (data : List UInt8)
  | decoded (img : Mat)

/-- Whether `imshow` and then `waitKey` return, by the pictures shown so far and the next one. -/
abbrev Shows : Type := List Shown → Shown → Bool

/-- `shown` are the pictures in the window, one after the other, and `reports` the counts that
`report` has logged. -/
structure ViewerRun where
  viewer : ImageViewer := {}
  shown : List Shown := []
  reports : List ImageViewer := []
  running : Bool := true

variable (accepts : Accepts) (cv : JpegCv) (shows : Shows)

/-- Nothing catches an exception of the window either. -/
def ViewerRun.imshow (v : ViewerRun) (img : Shown) : ViewerRun :=
  if shows v.shown img then { v with shown := v.shown ++ [img] } else { v with running := false }

def ViewerRun.receive (v : ViewerRun) (message : Message) : ViewerRun :=
  if v.running then
    match message with
    | .image msg => match v.viewer.onRaw accepts msg.received with
        | (.threw, viewer) => { v with viewer, running := false }
        | (.empty, viewer) => { v with viewer }
        | (.imshow img, viewer) => { v with viewer }.imshow shows (.raw img msg.data)
    | .compressed msg => match v.viewer.onCompressed cv msg.data with
        | (.threw, viewer) => { v with viewer, running := false }
        | (.empty, viewer) => { v with viewer }
        | (.imshow img, viewer) => { v with viewer }.imshow shows (.decoded img)
  else v

def ViewerRun.report (v : ViewerRun) (_ : Unit) : ViewerRun :=
  if v.running then { v with viewer := v.viewer.report, reports := v.reports ++ [v.viewer] } else v

def viewer : Subscriber ViewerRun Unit where
  receive := ViewerRun.receive accepts cv shows
  timer := ViewerRun.report

/-- The saver with the disk: `files` are the pictures on it, `saved` the writes that succeeded. -/
structure Gallery where
  run : SaverRun
  files : String → Option ReceivedImage := fun _ => none
  saved : List (String × ReceivedImage) := []

def Gallery.image (g : Gallery) (msg : ReceivedImage) : Gallery :=
  match g.run.step accepts (.image msg) with
  | some run => { g with run }
  | none => g

/-- It is taken for granted of `imwrite` that it leaves the whole picture under its path when it
returns `true`, and no file touched when it returns `false` or throws. -/
def Gallery.timer (g : Gallery) (answer : ImwriteAnswer) : Gallery :=
  match g.run.step accepts (.timer answer) with
  | none => g
  | some run =>
      match (g.run.saver.saveLatest accepts).1, g.run.saver.latest, answer with
      | .imwrite path _, some msg, .written =>
          { run
            files := Function.update g.files path (some msg)
            saved := g.saved ++ [(path, msg)] }
      | _, _, _ => { g with run }

def saver : Subscriber Gallery ImwriteAnswer where
  receive g message := match message with
    | .image msg => g.image accepts msg.received
    | .compressed _ => g
  timer := Gallery.timer accepts

end EconRos2Driver
