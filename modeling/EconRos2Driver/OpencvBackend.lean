import EconRos2Driver.System

/-!
# The V4L2 and OpenCV backend

`opencv_backend.cpp` over the part of the kernel it talks to: the queue of buffers the driver may
fill, the memory behind the buffers, and the mappings of the process. A mapping is named by the
buffer it maps. OpenCV is a parameter: `cvtColor` and `resize` are functions of the source matrix.

`bufs_` has `kBufCount` entries, and the code does not check its index. What lies behind them are
other members of the object: an entry read there points astray, one written there is lost, and what
the code does from then on is undefined. The model goes on as if the other members had kept their
values; it stops where a picture is converted from such a pointer.

`calls` records the system calls on the device, `touched` the positions at which `bufs_` was
accessed, each with `n_bufs_` at the time, and `deliveries` the buffers `DQBUF` returned, each with
its first `bytesused` bytes.
-/

namespace EconRos2Driver

structure Mat where
  rows : Nat
  cols : Nat
  elemSize : Nat
  data : List UInt8
  length_data : data.length = rows * cols * elemSize

def Mat.total (m : Mat) : Nat := m.rows * m.cols

def Mat.empty : Mat := ⟨0, 0, 0, [], rfl⟩

def Mat.ofMemory (rows cols elemSize : Nat) (memory : Nat → UInt8) : Mat where
  rows
  cols
  elemSize
  data := (List.range (rows * cols * elemSize)).map memory
  length_data := by simp

/-- `cv::Mat(rows, cols, type, data)` over memory it does not own: where its rows lie. -/
structure MatView where
  rows : Nat
  cols : Nat
  elemSize : Nat
  step : Nat
  deriving DecidableEq, Repr

/-- The bytes that are read through the view, row by row. -/
def MatView.offsets (m : MatView) : List Nat :=
  (List.range m.rows).flatMap fun row =>
    (List.range (m.cols * m.elemSize)).map fun byte => row * m.step + byte

def MatView.load (m : MatView) (memory : Nat → UInt8) : Mat where
  rows := m.rows
  cols := m.cols
  elemSize := m.elemSize
  data := m.offsets.map memory
  length_data := by simp [MatView.offsets, Nat.mul_assoc]

/-- `cv::cvtColor` with `COLOR_YUV2BGR_UYVY` and `cv::resize`, and the shapes of their results. -/
structure OpenCv where
  cvtColor : Mat → Mat
  resize : Mat → Nat → Nat → Mat
  rows_cvtColor : ∀ m, (cvtColor m).rows = m.rows
  cols_cvtColor : ∀ m, (cvtColor m).cols = m.cols
  elemSize_cvtColor : ∀ m, (cvtColor m).elemSize = 3
  rows_resize : ∀ m width height, (resize m width height).rows = height
  cols_resize : ∀ m width height, (resize m width height).cols = width
  elemSize_resize : ∀ m width height, (resize m width height).elemSize = m.elemSize

inductive MapStart where
  | null
  | failed
  | mapped (i : Nat)
  | stray
  deriving DecidableEq, Repr

inductive V4l2Ptr where
  | mapped (i : Nat)
  | mapFailed
  | stray
  | bgr
  deriving DecidableEq, Repr

def MapStart.ptr : MapStart → Option V4l2Ptr
  | .null => none
  | .failed => some .mapFailed
  | .mapped i => some (.mapped i)
  | .stray => some .stray

structure MmapBuf where
  start : MapStart := .null
  length : Nat := 0
  deriving DecidableEq, Repr

def kBufCount : Nat := 4

structure V4l2OpencvBackend where
  fd : Int := -1
  format : ImageFormat := .kRawBgr8
  res : Resolution := {}
  needResize : Bool := false
  bufs : Fin kBufCount → MmapBuf := fun _ => {}
  nBufs : Int := 0
  currentIndex : Int := -1
  conv : Mat := .empty
  bgr : Mat := .empty
  nPush : UInt64 := 0
  tCaptureNs : UInt64 := 0

namespace V4l2OpencvBackend

/-- The entry at `bufs_[i]`. -/
def bufAt (b : V4l2OpencvBackend) (i : Nat) : MmapBuf :=
  if h : i < kBufCount then b.bufs ⟨i, h⟩ else { start := .stray }

def setBuf (b : V4l2OpencvBackend) (i : Nat) (buf : MmapBuf) : V4l2OpencvBackend :=
  { b with bufs := fun j => if j.val = i then buf else b.bufs j }

theorem bufAt_of_le {i : Nat} (b : V4l2OpencvBackend) (h : kBufCount ≤ i) :
    b.bufAt i = { start := .stray } := dif_neg (Nat.not_lt.mpr h)

theorem bufAt_setBuf_self {i : Nat} (b : V4l2OpencvBackend) (buf : MmapBuf) (h : i < kBufCount) :
    (b.setBuf i buf).bufAt i = buf := by
  simp [bufAt, setBuf, h]

theorem bufAt_setBuf_of_ne {i j : Nat} (b : V4l2OpencvBackend) (buf : MmapBuf) (h : j ≠ i) :
    (b.setBuf i buf).bufAt j = b.bufAt j := by
  simp [bufAt, setBuf, h]

/-- The matrix `uyvy` of `grab`: `CV_8UC2`, with the rows one behind the other. -/
def uyvy (b : V4l2OpencvBackend) : MatView where
  rows := b.res.captureHeight
  cols := b.res.captureWidth
  elemSize := 2
  step := b.res.captureWidth * 2

end V4l2OpencvBackend

def v4l2PixFmtUyvy : UInt32 := 0x59565955

def v4l2PixFmtMjpeg : UInt32 := 0x47504A4D

structure PixFormat where
  width : Nat
  height : Nat
  pixelformat : UInt32
  bytesperline : Nat := 0
  deriving DecidableEq, Repr

inductive V4l2Call where
  | openDevice (fd : Nat)
  | mmap (i length : Nat)
  | qbuf (i : Nat)
  | dqbuf (i : Nat)
  | streamoff
  | munmap (i length : Nat)
  | closeDevice (fd : Int)
  deriving DecidableEq, Repr

structure Delivery where
  index : Nat
  sequence : UInt32
  bytesused : Nat
  data : List UInt8
  deriving DecidableEq, Repr

structure V4l2World where
  backend : V4l2OpencvBackend := {}
  queue : List Nat := []
  memory : Nat → Nat → UInt8 := fun _ _ => 0
  maps : List (Nat × Nat) := []
  negotiated : Option PixFormat := none
  calls : List V4l2Call := []
  touched : List (Nat × Int) := []
  deliveries : List Delivery := []
  timeshare : Option Timeshare := none

structure BufferAnswer where
  querybuf : Bool
  length : Nat
  mmap : Bool
  qbuf : Bool

/-- The results of the system calls of one `start`; `none` and `false` are failures. -/
structure StartAnswer where
  openFd : Option Nat
  sFmt : Option PixFormat
  reqbufs : Option UInt32
  buffer : Nat → BufferAnswer
  streamon : Bool

inductive DqbufAnswer where
  | selectFailed
  | dqbufFailed
  | buffer (index : Nat) (sequence : UInt32) (bytesused : Nat) (now : UInt64)

/-- The driver fills a buffer it holds, or the LiDAR process changes its file. -/
inductive V4l2Move where
  | fill (i : Nat) (content : Nat → UInt8)
  | timeshare (file : Option Timeshare)

/-- `static_cast<int>` of a 32 bit count. -/
def staticCastInt (n : UInt32) : Int := n.toInt32.toInt

namespace V4l2World

def move (w : V4l2World) : V4l2Move → Option V4l2World
  | .fill i content =>
      if i ∈ w.queue then some { w with memory := Function.update w.memory i content } else none
  | .timeshare file => some { w with timeshare := file }

def requestedFormat (b : V4l2OpencvBackend) : PixFormat :=
  { width := b.res.captureWidth, height := b.res.captureHeight
    pixelformat := if b.format = .kJpeg then v4l2PixFmtMjpeg else v4l2PixFmtUyvy }

/-- The answer of the driver is stored by the kernel and not looked at. -/
def setFormat (w : V4l2World) (answer : Option PixFormat) : Bool × V4l2World :=
  match answer with
  | none => (false, w)
  | some reply => (true, { w with negotiated := some reply })

def setBuf (w : V4l2World) (i : Nat) (buf : MmapBuf) : V4l2World :=
  { w with backend := w.backend.setBuf i buf
           touched := w.touched ++ [(i, w.backend.nBufs)] }

def requestBuffer (w : V4l2World) (i : Nat) (answer : BufferAnswer) : Bool × V4l2World :=
  if !answer.querybuf then (false, w)
  else if !answer.mmap then (false, w.setBuf i { start := .failed, length := answer.length })
  else
    let w := w.setBuf i { start := .mapped i, length := answer.length }
    let w : V4l2World :=
      { w with maps := (i, answer.length) :: w.maps
               calls := w.calls ++ [.mmap i answer.length, .qbuf i] }
    if !answer.qbuf then (false, w) else (true, { w with queue := w.queue ++ [i] })

/-- The loop of `request_buffers` from buffer `i` on, with `rounds` still to go. -/
def requestBuffersFrom (answer : Nat → BufferAnswer) : Nat → Nat → V4l2World → Bool × V4l2World
  | _, 0, w => (true, w)
  | i, rounds + 1, w => match w.requestBuffer i (answer i) with
      | (false, w) => (false, w)
      | (true, w) => requestBuffersFrom answer (i + 1) rounds w

def requestBuffers (w : V4l2World) (answer : StartAnswer) : Bool × V4l2World :=
  match answer.reqbufs with
  | none => (false, w)
  | some count =>
      let w : V4l2World :=
        { w with backend := { w.backend with nBufs := staticCastInt count } }
      requestBuffersFrom answer.buffer 0 w.backend.nBufs.toNat w

def start (w : V4l2World) (p : Params) (format : ImageFormat) (answer : StartAnswer) :
    Bool × V4l2World :=
  let w : V4l2World :=
    { w with backend := { w.backend with
        format, res := p.res
        needResize := decide (p.res.outputWidth ≠ p.res.captureWidth
          ∨ p.res.outputHeight ≠ p.res.captureHeight) } }
  if p.flipMethod ≠ 0 then (false, w)
  else match answer.openFd with
    | none => (false, { w with backend := { w.backend with fd := -1 } })
    | some fd =>
        let w : V4l2World :=
          { w with backend := { w.backend with fd := (fd : Int) }
                   calls := w.calls ++ [.openDevice fd] }
        match w.setFormat answer.sFmt with
        | (false, w) => (false, w)
        | (true, w) => match w.requestBuffers answer with
            | (false, w) => (false, w)
            | (true, w) => (answer.streamon, w)

def memoryAt (w : V4l2World) : MapStart → Nat → UInt8
  | .mapped i => w.memory i
  | _ => fun _ => 0

/-- The raw branch of `grab`: convert the whole capture area, then downscale where needed. -/
def convert (cv : OpenCv) (w : V4l2World) (src : MapStart) : V4l2World :=
  let res := w.backend.res
  let uyvy := w.backend.uyvy.load (w.memoryAt src)
  if w.backend.needResize then
    let conv := cv.cvtColor uyvy
    { w with backend := { w.backend with
        conv, bgr := cv.resize conv res.outputWidth res.outputHeight } }
  else { w with backend := { w.backend with bgr := cv.cvtColor uyvy } }

/-- `DQBUF` takes the buffer out of the kernel's queue; the kernel returns only what it holds. -/
def dequeue (w : V4l2World) (index : Nat) (sequence : UInt32) (bytesused : Nat) (now : UInt64) :
    V4l2World :=
  { w with
    backend := { w.backend with
      tCaptureNs := now, nPush := sequence.toUInt64 + 1, currentIndex := (index : Int) }
    queue := w.queue.erase index
    calls := w.calls ++ [.dqbuf index]
    touched := w.touched ++ [(index, w.backend.nBufs)]
    deliveries := w.deliveries ++
      [⟨index, sequence, bytesused, (List.range bytesused).map (w.memory index)⟩] }

/-- The kernel returns only buffers that are queued. A stray pointer can be handed on, but nothing
is said about what a conversion reads there. -/
def grab (cv : OpenCv) (w : V4l2World) : DqbufAnswer → Option (Frame V4l2Ptr × V4l2World)
  | .selectFailed => some ({}, w)
  | .dqbufFailed => some ({}, w)
  | .buffer index sequence bytesused now =>
      if index ∈ w.queue then
        let w := w.dequeue index sequence bytesused now
        let src := (w.backend.bufAt index).start
        match w.backend.format with
        | .kJpeg => some ({ data := src.ptr, size := bytesused }, w)
        | .kRawBgr8 =>
            if src = .stray then none
            else
              let w := w.convert cv src
              let bgr := w.backend.bgr
              some ({ data := some .bgr, size := bgr.total * bgr.elemSize }, w)
      else none

def releaseIndex (w : V4l2World) : Option Nat :=
  if w.backend.currentIndex < 0 then none else some w.backend.currentIndex.toNat

/-- `qbuf` tells whether `VIDIOC_QBUF` succeeds. -/
def release (w : V4l2World) (qbuf : Bool) : V4l2World :=
  match w.releaseIndex with
  | none => w
  | some i =>
      { w with backend := { w.backend with currentIndex := -1 }
               queue := if qbuf then w.queue ++ [i] else w.queue
               calls := w.calls ++ [.qbuf i] }

/-- A `munmap` at a stray pointer is left out. -/
def unmapBuffer (w : V4l2World) (i : Nat) : V4l2World :=
  let buf := w.backend.bufAt i
  let w : V4l2World := match buf.start with
    | .mapped j => { w with maps := w.maps.erase (j, buf.length)
                            calls := w.calls ++ [.munmap j buf.length] }
    | _ => w
  w.setBuf i {}

/-- `STREAMOFF` takes every buffer from the kernel's queue. -/
def stop (w : V4l2World) : V4l2World :=
  if w.backend.fd < 0 then w
  else
    let w : V4l2World := { w with queue := [], calls := w.calls ++ [.streamoff] }
    let w := (List.range w.backend.nBufs.toNat).foldl unmapBuffer w
    { w with backend := { w.backend with nBufs := 0, currentIndex := -1, fd := -1 }
             calls := w.calls ++ [.closeDevice w.backend.fd] }

def byteAt (w : V4l2World) : V4l2Ptr → Nat → UInt8
  | .mapped i => w.memory i
  | .mapFailed | .stray => fun _ => 0
  | .bgr => fun offset => w.backend.bgr.data.getD offset 0

end V4l2World

def v4l2Env (cv : OpenCv) : Env V4l2World V4l2Ptr V4l2Move DqbufAnswer Bool where
  grab := V4l2World.grab cv
  release := fun w qbuf => some (w.release qbuf)
  pushCount := fun w => w.backend.nPush
  tCaptureNs := fun w => w.backend.tCaptureNs
  byteAt := V4l2World.byteAt
  move := V4l2World.move
  timeshare := V4l2World.timeshare

end EconRos2Driver
