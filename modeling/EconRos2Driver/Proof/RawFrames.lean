import EconRos2Driver.Proof.BufferOwnership
import Mathlib.Tactic.Ring

/-!
# What a raw frame is made of

The raw branch of `grab` converts the whole capture area of a mapping, whatever `bytesused` says.
When a delivery fills that area, the picture is a function of the delivered bytes, and so is every
sequence of frames. When it does not, the rest of the area is what earlier captures left in the
buffer.
-/

namespace EconRos2Driver

open V4l2World

theorem Mat.ext {m m' : Mat} (hrows : m.rows = m'.rows) (hcols : m.cols = m'.cols)
    (helemSize : m.elemSize = m'.elemSize) (hdata : m.data = m'.data) : m = m' := by
  cases m
  cases m'
  simp_all

/-- Where the rows lie one behind the other, every byte is read once and in order. -/
theorem MatView.offsets_eq_range {m : MatView} (h : m.step = m.cols * m.elemSize) :
    m.offsets = List.range (m.rows * m.cols * m.elemSize) := by
  rw [offsets, h, Nat.mul_assoc]
  generalize m.cols * m.elemSize = line
  induction m.rows with
  | zero => simp
  | succ rows ih =>
      rw [List.range_succ, List.flatMap_append, ih, Nat.succ_mul, List.range_add]
      simp

theorem MatView.load_eq_ofMemory {m : MatView} (h : m.step = m.cols * m.elemSize)
    (memory : Nat → UInt8) : m.load memory = Mat.ofMemory m.rows m.cols m.elemSize memory :=
  Mat.ext rfl rfl rfl (by simp only [load, Mat.ofMemory, offsets_eq_range h])

theorem Mat.getD_ofMemory {rows cols elemSize offset : Nat} {memory : Nat → UInt8}
    (h : offset < rows * cols * elemSize) :
    (Mat.ofMemory rows cols elemSize memory).data.getD offset 0 = memory offset := by
  simp [Mat.ofMemory, h]

theorem Mat.head?_ofMemory {rows cols elemSize : Nat} {memory : Nat → UInt8}
    (h : 0 < rows * cols * elemSize) :
    (Mat.ofMemory rows cols elemSize memory).data.head? = some (memory 0) := by
  rw [Mat.ofMemory, List.head?_map, List.head?_range, if_neg (Nat.ne_of_gt h)]
  rfl

def configured (p : Params) : V4l2OpencvBackend where
  res := p.res
  needResize := decide (p.res.outputWidth ≠ p.res.captureWidth
    ∨ p.res.outputHeight ≠ p.res.captureHeight)

theorem V4l2World.Setup.converted_eq {p : Params} {format : ImageFormat} {w : V4l2World}
    (h : w.Setup p format) (cv : OpenCv) (memory : Nat → UInt8) :
    converted cv w.backend memory = converted cv (configured p) memory := by
  have huyvy : w.backend.uyvy = (configured p).uyvy := by
    simp only [V4l2OpencvBackend.uyvy, configured, h.res]
  unfold converted
  rw [huyvy, h.res, h.needResize]
  rfl

/-- The bytes a capture area takes: UYVY has two for a pixel. -/
def captureSize (p : Params) : Nat := p.res.captureHeight * p.res.captureWidth * 2

theorem offsets_uyvy (p : Params) :
    (configured p).uyvy.offsets = List.range (captureSize p) :=
  MatView.offsets_eq_range rfl

/-- A conversion sees the bytes of its view and no others. -/
theorem converted_congr {b : V4l2OpencvBackend} {cv : OpenCv} {memory memory' : Nat → UInt8}
    (h : ∀ offset ∈ b.uyvy.offsets, memory offset = memory' offset) :
    converted cv b memory = converted cv b memory' := by
  have hdata : b.uyvy.offsets.map memory = b.uyvy.offsets.map memory' := List.map_congr_left h
  simp only [converted, MatView.load, hdata]

def bgrFrame (bgr : Mat) : Frame V4l2Ptr × List UInt8 :=
  ({ data := some .bgr, size := bgr.total * bgr.elemSize }, bgr.data)

/-- The frame of a delivery, from its own bytes. -/
def ownFrame (cv : OpenCv) (p : Params) (d : Delivery) : Frame V4l2Ptr × List UInt8 :=
  bgrFrame (converted cv (configured p) fun offset => d.data.getD offset 0)

def validFrames (calls : List (Call V4l2Ptr)) : List (Frame V4l2Ptr × List UInt8) :=
  (grabs calls).filter fun grabbed => grabbed.1.valid

variable {cv : OpenCv} {p : Params} {s t : System V4l2World V4l2Ptr}

structure Faithful (cv : OpenCv) (p : Params) (s : System V4l2World V4l2Ptr) : Prop where
  holding : Holding p s
  frames : (∀ d ∈ s.env.deliveries, captureSize p ≤ d.bytesused) →
    validFrames s.node.calls = s.env.deliveries.map (ownFrame cv p)

theorem view_bgrFrame (w : V4l2World) :
    (v4l2Env cv).view w { data := some .bgr, size := w.backend.bgr.total * w.backend.bgr.elemSize }
      = w.backend.bgr.data := by
  have hlength := w.backend.bgr.length_data
  apply List.ext_getElem
  · simp [CameraBackend.view, hlength, Mat.total]
  · intro i hi hi'
    simp [CameraBackend.view, CameraBackend.bytes, v4l2Env, byteAt,
      List.getElem?_eq_getElem hi']

theorem validFrames_append (calls : List (Call V4l2Ptr)) (frame : Frame V4l2Ptr)
    (bytes : List UInt8) : validFrames (calls ++ [.grab frame bytes])
      = validFrames calls ++ if frame.valid then [(frame, bytes)] else [] := by
  unfold validFrames grabs
  rw [List.filterMap_append, List.filter_append]
  cases hvalid : frame.valid <;> simp [hvalid]

/-- **A raw frame shows the capture area as it stands.** -/
theorem Holding.raw_frame (h : Holding p s) (hres : p.res.Positive) (hraw : p.compressed = false)
    {w : V4l2World} {frame : Frame V4l2Ptr} {d : Delivery} (hqueued : d.index ∈ s.env.queue)
    (hjpeg : s.env.backend.format = .kJpeg →
      frame = { data := (s.env.backend.bufAt d.index).start.ptr, size := d.bytesused })
    (hbgr : s.env.backend.format = .kRawBgr8 →
      (s.env.backend.bufAt d.index).start ≠ .stray ∧
      w.backend.bgr = converted cv s.env.backend
        (s.env.memoryAt (s.env.backend.bufAt d.index).start) ∧
      frame = { data := some .bgr, size := w.backend.bgr.total * w.backend.bgr.elemSize }) :
    frame.valid = true ∧ (frame, (v4l2Env cv).view w frame)
      = bgrFrame (converted cv (configured p) (s.env.memory d.index)) := by
  have hvalid := h.valid_iff hres hqueued hjpeg hbgr
  rw [hraw] at hvalid
  refine ⟨hvalid, ?_⟩
  have hformat : s.env.backend.format = .kRawBgr8 := by
    rw [h.setup.format, imageFormat, hraw]
    rfl
  obtain ⟨hstray, hpicture, hframe⟩ := hbgr hformat
  have hin : d.index < kBufCount := by
    by_contra hnot
    exact hstray (by rw [V4l2OpencvBackend.bufAt_of_le _ (Nat.le_of_not_lt hnot)])
  rw [h.setup.converted_eq, (h.owned.mapped d.index (h.owned.bounded _ (.inl hqueued)) hin).1]
    at hpicture
  have harea : w.backend.bgr = converted cv (configured p) (s.env.memory d.index) := hpicture
  rw [← harea, bgrFrame, hframe, view_bgrFrame]

theorem Faithful.grab (h : Faithful cv p s) (hres : p.res.Positive)
    (hraw : p.compressed = false) {answer : DqbufAnswer} {frame : Frame V4l2Ptr} {w : V4l2World}
    (hgrab : s.env.grab cv answer = some (frame, w)) :
    Faithful cv p ⟨s.node.grabbed frame ((v4l2Env cv).view w frame), w⟩ := by
  refine ⟨h.holding.grab hgrab _, fun hfull => ?_⟩
  simp only [Node.grabbed]
  rw [validFrames_append]
  cases grab_spec hgrab with
  | nothing hframe hworld =>
      subst hframe hworld
      rw [h.frames hfull]
      simp [Frame.valid]
  | buffer d hqueued hdata _ _ _ hdeliveries hjpeg hbgr =>
      obtain ⟨hvalid, hshown⟩ := h.holding.raw_frame hres hraw hqueued hjpeg hbgr
      rw [hdeliveries] at hfull
      have hbefore : ∀ d ∈ s.env.deliveries, captureSize p ≤ d.bytesused := fun d hd =>
        hfull d (List.mem_append_left _ hd)
      have hsize : captureSize p ≤ d.bytesused :=
        hfull d (List.mem_append_right _ (List.mem_singleton_self d))
      -- the area converted is the beginning of the delivered bytes
      have hown : converted cv (configured p) (s.env.memory d.index)
          = converted cv (configured p) fun offset => d.data.getD offset 0 := by
        apply converted_congr
        intro offset hoffset
        rw [offsets_uyvy, List.mem_range] at hoffset
        have hlt : offset < d.bytesused := Nat.lt_of_lt_of_le hoffset hsize
        simp [hdata, hlt]
      rw [h.frames hbefore, hdeliveries, List.map_append, hvalid, hshown, hown]
      rfl

theorem Faithful.step (h : Faithful cv p s) (hres : p.res.Positive) (hraw : p.compressed = false)
    {e : Event V4l2Move DqbufAnswer Bool} (hturn : System.Turn (v4l2Env cv) s e t) :
    Faithful cv p t := by
  have hholding := h.holding.step hturn
  obtain ⟨node, env⟩ := t
  cases hturn with
  | env move hmove hnode =>
      obtain rfl : node = s.node := hnode
      refine ⟨hholding, ?_⟩
      rw [(untouched_move hmove).deliveries]
      exact h.frames
  | grab answer frame hpc hgrab hnode =>
      dsimp only at hgrab hnode
      subst hnode
      exact h.grab hres hraw hgrab
  | count frame _ hpc henv hnode =>
      obtain rfl : env = s.env := henv
      obtain rfl : node = _ := hnode
      refine ⟨hholding, ?_⟩
      rw [Node.counted, Node.account_eq]
      exact h.frames
  | release frame qbuf _ hpc hrelease hnode =>
      obtain rfl : node = s.node.released := hnode
      obtain rfl : s.env.release qbuf = env := Option.some.inj hrelease
      have hdeliveries : (s.env.release qbuf).deliveries = s.env.deliveries := by
        cases release_spec s.env qbuf with
        | nothing _ hworld => rw [hworld]
        | queued i _ _ _ _ hdeliveries => exact hdeliveries
      have hcalls : validFrames s.node.released.calls = validFrames s.node.calls := by
        simp [validFrames, grabs, Node.released]
      refine ⟨hholding, ?_⟩
      rw [hdeliveries, hcalls]
      exact h.frames
  | inside henv hinside =>
      obtain rfl : env = s.env := henv
      refine ⟨hholding, ?_⟩
      rw [validFrames, hinside.grabs]
      exact h.frames

theorem faithful_reachable (hres : p.res.Positive) (hraw : p.compressed = false)
    {stamper : MmapStamper} {boxFd : Nat} {memory : Nat → Nat → UInt8} {answer : StartAnswer}
    (hstart : ((fresh memory).start p (imageFormat p) answer).1 = true)
    (h : Runs.Reachable (System.step (v4l2Env cv))
      ⟨Node.init p stamper boxFd, ((fresh memory).start p (imageFormat p) answer).2⟩ s) :
    Faithful cv p s := by
  refine System.invariant (I := Faithful cv p) (fun _ _ _ hs hstep => hs.step hres hraw hstep.turn)
    ⟨holding_init stamper boxFd (start_spec hstart), fun _ => ?_⟩ h
  rw [(start_spec hstart).deliveries]
  rfl

/-- **Full captures make frames of their own bytes.** Two runs over started backends, whatever their
memories held, hand over the same raw frames when the kernel delivered the same buffers and each
delivery filled the capture area. -/
theorem raw_frames_eq (cv : OpenCv) (node : Overrides) (stamper stamper' : MmapStamper)
    (boxFd boxFd' : Nat) (memory memory' : Nat → Nat → UInt8) (answer answer' : StartAnswer)
    (hraw : (loadParams node).compressed = false)
    (hstart : ((fresh memory).start (loadParams node) (imageFormat (loadParams node)) answer).1
      = true)
    (hstart' : ((fresh memory').start (loadParams node) (imageFormat (loadParams node)) answer').1
      = true)
    (s s' : System V4l2World V4l2Ptr)
    (h : Runs.Reachable (System.step (v4l2Env cv))
      ⟨Node.init (loadParams node) stamper boxFd,
        ((fresh memory).start (loadParams node) (imageFormat (loadParams node)) answer).2⟩ s)
    (h' : Runs.Reachable (System.step (v4l2Env cv))
      ⟨Node.init (loadParams node) stamper' boxFd',
        ((fresh memory').start (loadParams node) (imageFormat (loadParams node)) answer').2⟩ s')
    (hdeliveries : s.env.deliveries = s'.env.deliveries)
    (hfull : ∀ d ∈ s.env.deliveries,
      2 * (loadParams node).res.captureWidth * (loadParams node).res.captureHeight ≤ d.bytesused) :
    validFrames s.node.calls = validFrames s'.node.calls := by
  have hsize : captureSize (loadParams node)
      = 2 * (loadParams node).res.captureWidth * (loadParams node).res.captureHeight := by
    unfold captureSize
    ring
  rw [← hsize] at hfull
  have hres := loadParams_res_positive node
  calc validFrames s.node.calls
      = s.env.deliveries.map (ownFrame cv (loadParams node)) :=
        (faithful_reachable hres hraw hstart h).frames hfull
    _ = s'.env.deliveries.map (ownFrame cv (loadParams node)) := by rw [hdeliveries]
    _ = validFrames s'.node.calls :=
        ((faithful_reachable hres hraw hstart' h').frames (hdeliveries ▸ hfull)).symm

/-- A raw `grab` of a queued buffer adds one delivery, and a frame of whatever the buffer holds. -/
theorem Holding.raw_grab (h : Holding p s) (cv : OpenCv) (hres : p.res.Positive)
    (hraw : p.compressed = false) (hpc : s.node.pc = .head) (index : Nat)
    (hqueued : index ∈ s.env.queue) (hin : index < kBufCount) (sequence : UInt32)
    (bytesused : Nat) (now : UInt64) :
    ∃ t, Runs.run (System.step (v4l2Env cv)) s [.grab (.buffer index sequence bytesused now)]
        = some t ∧
      t.env.deliveries = s.env.deliveries ++
        [⟨index, sequence, bytesused, (List.range bytesused).map (s.env.memory index)⟩] ∧
      validFrames t.node.calls = validFrames s.node.calls ++
        [bgrFrame (converted cv (configured p) (s.env.memory index))] := by
  have hformat : s.env.backend.format = .kRawBgr8 := by
    rw [h.setup.format, imageFormat, hraw]
    rfl
  have hstart : ((s.env.dequeue index sequence bytesused now).backend.bufAt index).start
      = .mapped index := (h.owned.mapped index (h.owned.bounded _ (.inl hqueued)) hin).1
  let w := (s.env.dequeue index sequence bytesused now).convert cv (.mapped index)
  let frame : Frame V4l2Ptr :=
    { data := some .bgr, size := w.backend.bgr.total * w.backend.bgr.elemSize }
  have hgrab : s.env.grab cv (.buffer index sequence bytesused now) = some (frame, w) := by
    have hsetup : (s.env.dequeue index sequence bytesused now).backend.format = .kRawBgr8 :=
      hformat
    simp only [V4l2World.grab, if_pos hqueued, hsetup, hstart]
    rfl
  refine ⟨⟨s.node.grabbed frame ((v4l2Env cv).view w frame), w⟩, ?_, ?_⟩
  · have hstep : (v4l2Env cv).grab s.env (.buffer index sequence bytesused now) = some (frame, w) :=
      hgrab
    simp [Runs.run, System.step, hpc, hstep]
  · cases grab_spec hgrab with
    | nothing hframe _ =>
        exact absurd (congrArg Frame.data hframe) (Option.some_ne_none V4l2Ptr.bgr)
    | buffer d hqueued' hdata _ _ _ hdeliveries hjpeg hbgr =>
        obtain ⟨-, conv, bgr, hworld⟩ := grab_eq hgrab
        have hlast : w.deliveries = s.env.deliveries ++
            [⟨index, sequence, bytesused, (List.range bytesused).map (s.env.memory index)⟩] := by
          rw [hworld]
          rfl
        obtain rfl : (⟨index, sequence, bytesused, _⟩ : Delivery) = d := by
          simpa using hlast.symm.trans hdeliveries
        obtain ⟨hvalid, hshown⟩ := h.raw_frame hres hraw hqueued' hjpeg hbgr
        refine ⟨hlast, ?_⟩
        simp only [Node.grabbed]
        rw [validFrames_append, hvalid, if_pos rfl, hshown]

/-- **Short captures do not.** Let the conversion look at the last byte of the capture area.
Wherever the kernel is about to deliver a buffer that it has not filled to that byte, the run has
another one beside it, with the same deliveries and other frames. -/
theorem raw_frames_differ_of_short (cv : OpenCv) (node : Overrides) (stamper : MmapStamper)
    (boxFd : Nat) (memory : Nat → Nat → UInt8) (answer : StartAnswer)
    (hraw : (loadParams node).compressed = false)
    (hlast : ∀ memory, ∃ byte, (converted cv (configured (loadParams node))
      (Function.update memory (captureSize (loadParams node) - 1) byte)).data
        ≠ (converted cv (configured (loadParams node)) memory).data)
    (hstart : ((fresh memory).start (loadParams node) (imageFormat (loadParams node)) answer).1
      = true)
    (s : System V4l2World V4l2Ptr)
    (h : Runs.Reachable (System.step (v4l2Env cv))
      ⟨Node.init (loadParams node) stamper boxFd,
        ((fresh memory).start (loadParams node) (imageFormat (loadParams node)) answer).2⟩ s)
    (hpc : s.node.pc = .head) (index : Nat) (hqueued : index ∈ s.env.queue)
    (hin : index < kBufCount) (sequence : UInt32) (bytesused : Nat) (now : UInt64)
    (hshort : bytesused < captureSize (loadParams node)) :
    ∃ content t t',
      Runs.run (System.step (v4l2Env cv)) s [.grab (.buffer index sequence bytesused now)]
        = some t ∧
      Runs.run (System.step (v4l2Env cv)) s
        [.env (.fill index content), .grab (.buffer index sequence bytesused now)] = some t' ∧
      t.env.deliveries = t'.env.deliveries ∧
      validFrames t.node.calls ≠ validFrames t'.node.calls := by
  have hres := loadParams_res_positive node
  have hholding := holding_reachable hstart h
  obtain ⟨byte, hbyte⟩ := hlast (s.env.memory index)
  let content := Function.update (s.env.memory index) (captureSize (loadParams node) - 1) byte
  let filled : System V4l2World V4l2Ptr :=
    { s with env := { s.env with memory := Function.update s.env.memory index content } }
  have hfill : System.step (v4l2Env cv) s (.env (.fill index content)) = some filled := by
    simp [System.step, v4l2Env, V4l2World.move, hqueued, filled]
  have hfilled := holding_reachable hstart (h.trans (.of_step hfill))
  obtain ⟨t, ht, hdeliveries, hframes⟩ :=
    hholding.raw_grab cv hres hraw hpc index hqueued hin sequence bytesused now
  obtain ⟨t', ht', hdeliveries', hframes'⟩ :=
    hfilled.raw_grab cv hres hraw hpc index hqueued hin sequence bytesused now
  refine ⟨content, t, t', ht, (Runs.run_cons hfill _).trans ht', ?_, ?_⟩
  · -- the byte that differs lies behind what is delivered
    have hsame : (List.range bytesused).map (s.env.memory index)
        = (List.range bytesused).map content := by
      apply List.map_congr_left
      intro offset hoffset
      have hne : offset ≠ captureSize (loadParams node) - 1 := by
        have := List.mem_range.mp hoffset
        omega
      exact (Function.update_of_ne hne _ _).symm
    rw [hdeliveries, hdeliveries', hsame]
    simp [filled]
  · rw [hframes, hframes']
    intro heq
    have hpicture := List.append_cancel_left heq
    apply hbyte
    simpa [filled, bgrFrame, content] using (congrArg (List.map Prod.snd) hpicture).symm

/-! ### Two captures that share nothing but what was delivered -/

/-- One channel of `COLOR_YUV2BGR_UYVY` in the fixed point of BT.601: 0 is blue, 1 green, 2 red. -/
def bt601 (y u v : UInt8) (channel : Nat) : UInt8 :=
  let luma : Int := max 0 ((y.toNat : Int) - 16) * 1220542
  let chroma : Int := match channel with
    | 0 => 2116026 * ((u.toNat : Int) - 128)
    | 1 => -409993 * ((u.toNat : Int) - 128) - 852492 * ((v.toNat : Int) - 128)
    | _ => 1673527 * ((v.toNat : Int) - 128)
  UInt8.ofNat (min 255 ((luma + chroma + 2 ^ 19) / 2 ^ 20).toNat)

theorem bt601_red_ne (u v : UInt8) : bt601 16 u v 2 ≠ bt601 255 u v 2 := by
  intro heq
  have hnat := congrArg UInt8.toNat heq
  have hv := v.toNat_lt
  simp only [bt601, UInt8.toNat_ofNat'] at hnat
  have h16 : (16 : UInt8).toNat = 16 := rfl
  have h255 : (255 : UInt8).toNat = 255 := rfl
  rw [h16, h255] at hnat
  omega

/-- Two pixels share four bytes, `U Y V Y`. -/
def uyvyToBgr (data : List UInt8) (offset : Nat) : UInt8 :=
  let pixel := offset / 3
  bt601 (data.getD (2 * pixel + 1) 0) (data.getD (4 * (pixel / 2)) 0)
    (data.getD (4 * (pixel / 2) + 2) 0) (offset % 3)

def openCv : OpenCv where
  cvtColor := fun m => Mat.ofMemory m.rows m.cols 3 (uyvyToBgr m.data)
  resize := fun m width height => Mat.ofMemory height width m.elemSize fun offset =>
    let pixel := offset / m.elemSize
    let row := pixel / width * m.rows / height
    let col := pixel % width * m.cols / width
    m.data.getD ((row * m.cols + col) * m.elemSize + offset % m.elemSize) 0
  rows_cvtColor := fun _ => rfl
  cols_cvtColor := fun _ => rfl
  elemSize_cvtColor := fun _ => rfl
  rows_resize := fun _ _ _ => rfl
  cols_resize := fun _ _ _ => rfl
  elemSize_resize := fun _ _ _ => rfl

def hd : Overrides := { resolution := some "hd" }

/-- A run that gets buffer 0 once, with the given number of bytes. -/
def oneDelivery (bytesused : Nat) : List (Event V4l2Move DqbufAnswer Bool) :=
  [.grab (.buffer 0 0 bytesused 5)]

def hdWorld (memory : Nat → Nat → UInt8) : V4l2World :=
  ((fresh memory).start (loadParams hd) .kRawBgr8 fullStart).2

def twoValues (inside outside : UInt8) (_ offset : Nat) : UInt8 :=
  if offset < 1843200 then inside else outside

theorem raw_frames_eq_oneDelivery : ∃ s s',
    Runs.run (System.step (v4l2Env openCv))
        ⟨Node.init (loadParams hd), hdWorld (twoValues 16 16)⟩ (oneDelivery 1843200) = some s ∧
      Runs.run (System.step (v4l2Env openCv))
        ⟨Node.init (loadParams hd), hdWorld (twoValues 16 128)⟩ (oneDelivery 1843200) = some s' ∧
      validFrames s.node.calls = validFrames s'.node.calls := by
  refine ⟨_, _, rfl, rfl, ?_⟩
  refine raw_frames_eq openCv hd {} {} 3 3 (twoValues 16 16) (twoValues 16 128) fullStart fullStart
    rfl rfl rfl _ _ ⟨oneDelivery 1843200, rfl⟩ ⟨oneDelivery 1843200, rfl⟩ ?_ ?_
  · refine congrArg (fun data => [(⟨0, 0, 1843200, data⟩ : Delivery)]) ?_
    apply List.map_congr_left
    intro offset hoffset
    have hlt := List.mem_range.mp hoffset
    show twoValues 16 16 0 offset = twoValues 16 128 0 offset
    simp [twoValues, hlt]
  · intro d hd'
    obtain rfl := List.mem_singleton.mp hd'
    decide

theorem hd_picture (memory : Nat → UInt8) :
    converted openCv (configured (loadParams hd)) memory
      = Mat.ofMemory 720 1280 3 (uyvyToBgr (Mat.ofMemory 720 1280 2 memory).data) := by
  have hres : (loadParams hd).res = ⟨1280, 720, 1280, 720, 60⟩ := by decide
  have huyvy : (configured (loadParams hd)).uyvy.load memory = Mat.ofMemory 720 1280 2 memory := by
    rw [MatView.load_eq_ofMemory rfl]
    simp only [V4l2OpencvBackend.uyvy, configured, hres]
  simp only [converted, huyvy]
  exact if_neg (by decide)

/-- The last byte is the luma of the last pixel, and red tells the darkest from the brightest. -/
theorem hd_picture_of_last_byte (memory : Nat → UInt8) : ∃ byte,
    (converted openCv (configured (loadParams hd))
        (Function.update memory (captureSize (loadParams hd) - 1) byte)).data
      ≠ (converted openCv (configured (loadParams hd)) memory).data := by
  have hsize : captureSize (loadParams hd) = 720 * 1280 * 2 := by decide
  have hred : ∀ byte : UInt8, (converted openCv (configured (loadParams hd))
      (Function.update memory (captureSize (loadParams hd) - 1) byte)).data.getD 2764799 0
        = bt601 byte (memory 1843196) (memory 1843198) 2 := by
    intro byte
    rw [hd_picture, Mat.getD_ofMemory (by omega), uyvyToBgr, Mat.getD_ofMemory (by omega),
      Mat.getD_ofMemory (by omega), Mat.getD_ofMemory (by omega), hsize]
    simp [Function.update]
  by_contra hsame
  push Not at hsame
  have hequal := (hred 16).symm.trans ((congrArg (·.getD 2764799 0)
    ((hsame 16).trans (hsame 255).symm)).trans (hred 255))
  exact bt601_red_ne _ _ hequal

example : ∃ content t t',
    Runs.run (System.step (v4l2Env openCv)) ⟨Node.init (loadParams hd), hdWorld (twoValues 0 0)⟩
        [.grab (.buffer 3 0 1843199 5)] = some t ∧
      Runs.run (System.step (v4l2Env openCv)) ⟨Node.init (loadParams hd), hdWorld (twoValues 0 0)⟩
        [.env (.fill 3 content), .grab (.buffer 3 0 1843199 5)] = some t' ∧
      t.env.deliveries = t'.env.deliveries ∧
      validFrames t.node.calls ≠ validFrames t'.node.calls :=
  raw_frames_differ_of_short openCv hd {} 3 (twoValues 0 0) fullStart rfl hd_picture_of_last_byte
    rfl _ (.refl _) rfl 3 (show 3 ∈ [0, 1, 2, 3] by decide) (by decide) 0 1843199 5 (by decide)

theorem head?_hd_picture (memory : Nat → UInt8) :
    (bgrFrame (converted openCv (configured (loadParams hd)) memory)).2.head?
      = some (bt601 (memory 1) (memory 0) (memory 2) 0) := by
  simp only [bgrFrame, hd_picture]
  have hlarge : 2 < 720 * 1280 * 2 := by omega
  calc (Mat.ofMemory 720 1280 3 (uyvyToBgr (Mat.ofMemory 720 1280 2 memory).data)).data.head?
      = some (uyvyToBgr (Mat.ofMemory 720 1280 2 memory).data 0) :=
        Mat.head?_ofMemory (by omega)
    _ = some (bt601 (memory 1) (memory 0) (memory 2) 0) := by
        rw [uyvyToBgr, Mat.getD_ofMemory (by omega), Mat.getD_ofMemory (by omega),
          Mat.getD_ofMemory (by omega)]

/-- A delivery without a byte still makes a full picture, of what the buffer held before. -/
theorem first_blue_of_empty (memory : Nat → Nat → UInt8) : ∃ s,
    Runs.run (System.step (v4l2Env openCv)) ⟨Node.init (loadParams hd), hdWorld memory⟩
        (oneDelivery 0) = some s ∧
      s.env.deliveries = [⟨0, 0, 0, []⟩] ∧
      (validFrames s.node.calls).map (fun grabbed => grabbed.2.head?)
        = [some (bt601 (memory 0 1) (memory 0 0) (memory 0 2) 0)] := by
  have hholding : Holding (loadParams hd) ⟨Node.init (loadParams hd), hdWorld memory⟩ :=
    holding_init {} 3 (start_spec rfl)
  obtain ⟨s, hrun, hdeliveries, hframes⟩ := hholding.raw_grab openCv
    (loadParams_res_positive hd) rfl rfl 0 List.mem_cons_self (by decide) 0 0 5
  refine ⟨s, hrun, hdeliveries, ?_⟩
  rw [hframes]
  exact congrArg (fun first => [first]) (head?_hd_picture (memory 0))

/-- Two runs deliver buffer 0 without a byte, and hand over different pictures. -/
theorem raw_frames_differ_of_empty : ∃ s s',
    Runs.run (System.step (v4l2Env openCv))
        ⟨Node.init (loadParams hd), hdWorld (twoValues 16 16)⟩ (oneDelivery 0) = some s ∧
      Runs.run (System.step (v4l2Env openCv))
        ⟨Node.init (loadParams hd), hdWorld (twoValues 128 128)⟩ (oneDelivery 0) = some s' ∧
      s.env.deliveries = s'.env.deliveries ∧
      validFrames s.node.calls ≠ validFrames s'.node.calls := by
  obtain ⟨s, hrun, hdeliveries, hblue⟩ := first_blue_of_empty (twoValues 16 16)
  obtain ⟨s', hrun', hdeliveries', hblue'⟩ := first_blue_of_empty (twoValues 128 128)
  refine ⟨s, s', hrun, hrun', hdeliveries.trans hdeliveries'.symm, ?_⟩
  intro heq
  rw [heq, hblue'] at hblue
  revert hblue
  decide

end EconRos2Driver
