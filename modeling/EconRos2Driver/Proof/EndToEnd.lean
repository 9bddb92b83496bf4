import EconRos2Driver.Proof.GstPipeline
import EconRos2Driver.Proof.GstStart
import EconRos2Driver.Proof.Messages
import EconRos2Driver.Proof.Passage
import EconRos2Driver.Proof.RawFrames

/-!
# From the camera to the topic

What is published, said in terms of what the camera has captured. Over the pipeline of GStreamer
every message is the content of one frame the source has pushed, and later messages are of later
frames; over V4L2 the messages are the captures the kernel has delivered, one for one.
-/

namespace EconRos2Driver

open V4l2World

variable {P : Type}

/-! ### GStreamer -/

theorem filterMap_data_validGrabs (calls : List (Call Nat)) :
    (validGrabs calls).filterMap (fun frame => frame.data) = handed calls := by
  unfold validGrabs handed
  induction grabs calls with
  | nil => rfl
  | cons grabbed frames ih =>
      cases hvalid : grabbed.1.valid with
      | false => simpa [hvalid] using ih
      | true =>
          obtain ⟨⟨k, hk⟩, -⟩ := Frame.valid_iff.mp hvalid
          simpa [hvalid, hk] using ih

/-- The bytes of a frame that a message carries: all of a compressed one, the first `expected_size`
of a raw one, which may have more. -/
def carried (p : Params) (frame : Frame P) : Nat :=
  if p.compressed then frame.size else p.expectedSize

theorem data_of_carries {content : Nat → Nat → UInt8} {p : Params}
    {calls : List (Call Nat)} {frame : Frame Nat} {stamp : Stamp GstWorld} {message : Message}
    (hgrabbed : ∀ grabbed ∈ grabs calls, ∃ w, grabbed.2 = (gstEnv content).view w grabbed.1)
    (h : Carries p (grabs calls) frame stamp message) {k : Nat} (hk : frame.data = some k) :
    message.data = (List.range (carried p frame)).map (content k) := by
  obtain ⟨bytes, hmem, -, hpayload, -⟩ := h
  obtain ⟨w, hbytes⟩ := hgrabbed _ hmem
  have hview : bytes = (List.range frame.size).map (content k) := by
    rw [show bytes = _ from hbytes]
    simp [CameraBackend.view, hk, CameraBackend.bytes, gstEnv]
  unfold payload at hpayload
  unfold carried
  rw [hview] at hpayload
  split_ifs at hpayload ⊢ with hcompressed hshort
  · exact (Option.some.inj hpayload).symm
  · rw [← Option.some.inj hpayload, ← List.map_take, List.take_range,
      Nat.min_eq_left (Nat.not_lt.mp hshort)]

/-- The frames of the source that the messages are made of. -/
def sources (n : Node GstWorld Nat) : List Nat := n.published.filterMap fun sent => sent.frame.data

theorem forall₂_sources {content : Nat → Nat → UInt8} {p : Params} {stamper : MmapStamper}
    {boxFd : Nat} {s : System GstWorld Nat}
    (h : Runs.Reachable (System.step (gstEnv content)) ⟨Node.init p stamper boxFd, {}⟩ s) :
    List.Forall₂ (fun k sent => sent.frame ∈ validGrabs s.node.calls ∧ sent.frame.data = some k ∧
        sent.message.data = (List.range (carried p sent.frame)).map (content k))
      (sources s.node) s.node.published := by
  obtain ⟨hdelivering, hlineage⟩ := lineage_reachable (gstEnv_stableViews content) trivial h
  have hsource : ∀ sent ∈ s.node.published,
      sent.frame.data = some (sent.frame.data.getD 0) := by
    intro sent hsent
    obtain ⟨bytes, -, hvalid, -⟩ := hlineage.published sent hsent
    obtain ⟨⟨k, hk⟩, -⟩ := Frame.valid_iff.mp hvalid
    simp [hk]
  have hmap : sources s.node = s.node.published.map fun sent => sent.frame.data.getD 0 := by
    rw [← List.filterMap_eq_map]
    exact List.filterMap_congr hsource
  rw [hmap, List.forall₂_map_left_iff, List.forall₂_same]
  intro sent hsent
  have hmem : sent.frame ∈ s.node.published.map fun sent => sent.frame :=
    List.mem_map_of_mem hsent
  refine ⟨(published_sublist h).subset hmem, hsource sent hsent, ?_⟩
  have hcarries := hlineage.published sent hsent
  rw [hdelivering.params] at hcarries
  exact data_of_carries hlineage.grabbed hcarries (hsource sent hsent)

theorem delivered_eq_validGrabs {content : Nat → Nat → UInt8} {p : Params} {stamper : MmapStamper}
    {boxFd : Nat} {s : System GstWorld Nat}
    (h : Runs.Reachable (System.step (gstEnv content)) ⟨Node.init p stamper boxFd, {}⟩ s) :
    s.env.delivered = (validGrabs s.node.calls).filterMap fun frame => frame.data := by
  rw [filterMap_data_validGrabs, ← (tracks_reachable h).delivered]

/-- What is published is of frames that the source has pushed, later messages of later frames. -/
def Pushed (content : Nat → Nat → UInt8) (p : Params) (s : System GstWorld Nat) : Prop :=
  ∃ ks : List Nat, ks.Pairwise (· < ·) ∧ (∀ k ∈ ks, k < s.env.counted) ∧
    List.Forall₂ (fun k sent => sent.frame.data = some k ∧
      sent.message.data = (List.range (carried p sent.frame)).map (content k))
      ks s.node.published

/-- The size of a `BGR` frame of the pipeline. -/
def bgrSize (size : Nat × Nat) : Nat := (size.1 * 3 + 3) / 4 * 4 * size.2

theorem dvd_pubWidth (node : Overrides) : 4 ∣ (loadParams node).pubWidth := by
  unfold loadParams resolveProfileMjpg resolveProfileUyvy
  dsimp only
  split_ifs <;> decide

theorem bgrSize_pinned {node : Overrides} (hraw : (loadParams node).compressed = false) :
    bgrSize (GstObjects.pinned (loadParams node) (imageFormat (loadParams node)))
      = (loadParams node).expectedSize := by
  have hformat : imageFormat (loadParams node) = .kRawBgr8 := by simp [imageFormat, hraw]
  have hstride : ((loadParams node).pubWidth * 3 + 3) / 4 * 4 = (loadParams node).pubWidth * 3 := by
    obtain ⟨quarter, hquarter⟩ := dvd_pubWidth node
    omega
  rw [hformat, GstObjects.pinned, bgrSize, hstride, (loadParams_shaped node).size,
    Nat.mul_right_comm]

/-- **Every delivered frame is published.** Over a pipeline that has started and delivers raw frames
of the size its filters pin: the messages published so far are the first frames the appsink has
delivered, each as a whole, and at the head of the loop they are all of them. -/
theorem gst_publishes_every_delivered (content : Nat → Nat → UInt8) (node : Overrides)
    (stamper : MmapStamper) (boxFd : Nat) (answer : GstStartAnswer)
    (hstart : (GstObjects.start answer {} (loadParams node) (imageFormat (loadParams node))).1
      = true)
    (s : System GstWorld Nat)
    (h : Runs.Reachable (System.step (gstEnv content))
      ⟨Node.init (loadParams node) stamper boxFd, {}⟩ s)
    (hpinned : (loadParams node).compressed = false → ∀ frame ∈ validGrabs s.node.calls,
      ((GstObjects.start answer {} (loadParams node)
        (imageFormat (loadParams node))).2.negotiated.map bgrSize) = some frame.size) :
    ∃ ks : List Nat, ks <+: s.env.delivered ∧
      (s.node.pc = .head ∨ s.node.pc = .exited → ks = s.env.delivered) ∧
      List.Forall₂ (fun k sent => sent.frame.data = some k ∧
        sent.message.data = (List.range sent.frame.size).map (content k))
        ks s.node.published := by
  have hsize : (loadParams node).compressed = false → ∀ frame ∈ validGrabs s.node.calls,
      frame.size = (loadParams node).expectedSize := by
    intro hraw frame hframe
    have hnegotiated := hpinned hraw frame hframe
    rw [GstObjects.negotiated_start hstart, Option.map_some, bgrSize_pinned hraw] at hnegotiated
    exact (Option.some.inj hnegotiated).symm
  obtain ⟨hpre, hall⟩ := published_frames_isPrefix h fun frame hframe hraw =>
    (hsize hraw frame hframe).ge
  refine ⟨sources s.node, ?_, fun hpc => ?_, ?_⟩
  · have hdata := hpre.filterMap fun frame => frame.data
    rwa [← delivered_eq_validGrabs h, List.filterMap_map] at hdata
  · rw [delivered_eq_validGrabs h, ← hall hpc, List.filterMap_map]
    rfl
  · refine (forall₂_sources h).imp fun k sent ⟨hmem, hdata, hmessage⟩ => ⟨hdata, ?_⟩
    have hcarried : carried (loadParams node) sent.frame = sent.frame.size := by
      unfold carried
      split_ifs with hcompressed
      · rfl
      · exact (hsize (Bool.not_eq_true _ ▸ hcompressed) sent.frame hmem).symm
    rw [hmessage, hcarried]

/-- One raw frame comes through. -/
def rawRun : List (Event GstMove PullAnswer Unit) :=
  [.env (.pushTime 1), .env .pushCount, .env .pushOn, .env .arrive,
    .grab (.sample true true (some 691200)), .count, .tryOpen ⟨none, none⟩, .readLow 9,
    .copy, .logCbk 3, .publish, .logPub 4, .release ()]

theorem gst_publishes_every_delivered_rawRun : ∃ s,
    Runs.run (System.step (gstEnv rampContent)) ⟨Node.init (loadParams {}), {}⟩ rawRun = some s ∧
      s.env.delivered.length = 1 ∧ s.node.published.length = 1 := by
  obtain ⟨s, hrun, hpc, hdelivered, hgrabs⟩ : ∃ s,
      Runs.run (System.step (gstEnv rampContent)) ⟨Node.init (loadParams {}), {}⟩ rawRun = some s ∧
      s.node.pc = .head ∧ s.env.delivered.length = 1 ∧
      validGrabs s.node.calls = [⟨some 0, 691200⟩] := ⟨_, rfl, rfl, rfl, rfl⟩
  obtain ⟨ks, -, hall, hpublished⟩ := gst_publishes_every_delivered rampContent {} {} 3
    ⟨fun _ => true, true, true⟩ rfl s ⟨rawRun, hrun⟩ (by
      intro _ frame hframe
      rw [hgrabs] at hframe
      obtain rfl := List.mem_singleton.mp hframe
      decide)
  refine ⟨s, hrun, hdelivered, ?_⟩
  rw [← hpublished.length_eq, hall (.inl hpc), hdelivered]

/-! ### V4L2 -/

variable {cv : OpenCv} {p : Params}

/-- What a delivery becomes: the picture of the capture area, or the bytes if there are any. -/
def captured (cv : OpenCv) (p : Params) (d : Delivery) : Option (List UInt8) :=
  if p.compressed then if d.bytesused = 0 then none else some d.data
  else some (converted cv (configured p) fun offset => d.data.getD offset 0).data

structure Passed (p : Params) (s : System V4l2World V4l2Ptr) : Prop where
  holding : Holding p s
  fits : s.env.backend.nBufs ≤ kBufCount
  payloads : payloads p (grabs s.node.calls)
    = s.env.deliveries.filterMap fun d => if d.bytesused = 0 then none else some d.data

theorem payloads_append (p : Params) (calls : List (Call P)) (frame : Frame P)
    (bytes : List UInt8) : payloads p (grabs (calls ++ [.grab frame bytes]))
      = payloads p (grabs calls)
        ++ (if frame.valid then payload p frame bytes else none).toList := by
  unfold payloads grabs
  rw [List.filterMap_append, List.filterMap_append]
  cases hpayload : if frame.valid then payload p frame bytes else none with
  | none => simp [hpayload]
  | some data => simp [hpayload]

theorem Passed.grab {s : System V4l2World V4l2Ptr} (h : Passed p s) (hres : p.res.Positive)
    (hcompressed : p.compressed = true) {answer : DqbufAnswer} {frame : Frame V4l2Ptr}
    {w : V4l2World} (hgrab : s.env.grab cv answer = some (frame, w)) :
    Passed p ⟨s.node.grabbed frame ((v4l2Env cv).view w frame), w⟩ := by
  have hhoused : s.env.Housed := ⟨h.holding.owned, h.fits⟩
  refine ⟨h.holding.grab hgrab _, (hhoused.grab hgrab).fits, ?_⟩
  simp only [Node.grabbed]
  rw [payloads_append, h.payloads]
  cases grab_spec hgrab with
  | nothing hframe hworld =>
      subst hframe hworld
      simp [Frame.valid]
  | buffer d hqueued hdata hsame _ _ hdeliveries hjpeg hbgr =>
      have hvalid := h.holding.valid_iff hres hqueued hjpeg hbgr
      have hformat : s.env.backend.format = .kJpeg := by
        rw [h.holding.setup.format, imageFormat, hcompressed]
        rfl
      have hview : (v4l2Env cv).view w frame = d.data := by
        rw [hjpeg hformat, hhoused.start (.inl hqueued), hdata]
        simp [CameraBackend.view, MapStart.ptr, CameraBackend.bytes, v4l2Env, V4l2World.byteAt,
          hsame.memory]
      rw [hdeliveries, List.filterMap_append, hview, hvalid, hcompressed]
      by_cases hempty : d.bytesused = 0
      · simp [hempty]
      · simp [hempty, payload, hcompressed]

theorem deliveries_release (w : V4l2World) (qbuf : Bool) :
    (w.release qbuf).deliveries = w.deliveries := by
  cases release_spec w qbuf with
  | nothing _ hworld => rw [hworld]
  | queued i _ _ _ _ hdeliveries => exact hdeliveries

theorem Passed.step {s t : System V4l2World V4l2Ptr} (h : Passed p s) (hres : p.res.Positive)
    (hcompressed : p.compressed = true) {e : Event V4l2Move DqbufAnswer Bool}
    (hturn : System.Turn (v4l2Env cv) s e t) : Passed p t := by
  have hholding := h.holding.step hturn
  have hfits := (nBufs_of_turn hturn).symm ▸ h.fits
  obtain ⟨node, env⟩ := t
  cases hturn with
  | env move hmove hnode =>
      obtain rfl : node = s.node := hnode
      refine ⟨hholding, hfits, ?_⟩
      rw [(untouched_move hmove).deliveries]
      exact h.payloads
  | grab answer frame hpc hgrab hnode =>
      dsimp only at hgrab hnode
      subst hnode
      exact h.grab hres hcompressed hgrab
  | count frame _ hpc henv hnode =>
      obtain rfl : env = s.env := henv
      obtain rfl : node = _ := hnode
      refine ⟨hholding, hfits, ?_⟩
      rw [Node.counted, Node.account_eq]
      exact h.payloads
  | release frame qbuf _ hpc hrelease hnode =>
      obtain rfl : node = s.node.released := hnode
      obtain rfl : s.env.release qbuf = env := Option.some.inj hrelease
      have hgrabs : grabs s.node.released.calls = grabs s.node.calls := by
        simp [grabs, Node.released]
      refine ⟨hholding, hfits, ?_⟩
      rw [deliveries_release, hgrabs]
      exact h.payloads
  | inside henv hinside =>
      obtain rfl : env = s.env := henv
      refine ⟨hholding, hfits, ?_⟩
      rw [hinside.grabs]
      exact h.payloads

theorem flipMethod_of_start {w : V4l2World} {format : ImageFormat} {answer : StartAnswer}
    (h : (w.start p format answer).1 = true) : p.flipMethod = 0 := by
  unfold V4l2World.start at h
  dsimp only at h
  split_ifs at h with hflip
  exact not_not.mp hflip

/-- A picture has the size of a message. -/
theorem size_converted (cv : OpenCv) (node : Overrides) (hflip : (loadParams node).flipMethod = 0)
    (memory : Nat → UInt8) :
    (converted cv (configured (loadParams node)) memory).total
        * (converted cv (configured (loadParams node)) memory).elemSize
      = (loadParams node).expectedSize := by
  have hquarter : isQuarterTurn (node.flipMethod.getD 0) = false := by
    have hzero : node.flipMethod.getD 0 = 0 := hflip
    rw [hzero]
    rfl
  have hwidth : (loadParams node).pubWidth = (loadParams node).res.outputWidth :=
    if_neg (by simp [hquarter])
  have hheight : (loadParams node).pubHeight = (loadParams node).res.outputHeight :=
    if_neg (by simp [hquarter])
  rw [(loadParams_shaped node).size, hwidth, hheight,
    Nat.mul_comm (loadParams node).res.outputWidth]
  unfold converted configured
  dsimp only
  by_cases hresize : (loadParams node).res.outputWidth ≠ (loadParams node).res.captureWidth
      ∨ (loadParams node).res.outputHeight ≠ (loadParams node).res.captureHeight
  · simp [hresize, Mat.total, cv.rows_resize, cv.cols_resize, cv.elemSize_resize,
      cv.elemSize_cvtColor]
  · simp only [hresize, decide_false]
    rw [not_or, not_not, not_not] at hresize
    rw [hresize.1, hresize.2]
    simp [Mat.total, cv.rows_cvtColor, cv.cols_cvtColor, cv.elemSize_cvtColor, MatView.load,
      V4l2OpencvBackend.uyvy]

theorem payload_bgrFrame (hraw : p.compressed = false) {bgr : Mat}
    (hsize : bgr.total * bgr.elemSize = p.expectedSize) (hpos : 0 < p.expectedSize) :
    (bgrFrame bgr).1.valid = true ∧
      payload p (bgrFrame bgr).1 (bgrFrame bgr).2 = some bgr.data := by
  have hlength : bgr.data.length = p.expectedSize := bgr.length_data.trans hsize
  have htake : bgr.data.take p.expectedSize = bgr.data := by
    rw [← hlength]
    exact List.take_length
  constructor
  · simp [bgrFrame, Frame.valid, hsize, hpos]
  · simp [bgrFrame, payload, hraw, hsize, htake]

theorem payloads_map_ownFrame (cv : OpenCv) (hraw : p.compressed = false)
    (hsize : ∀ memory, (converted cv (configured p) memory).total
      * (converted cv (configured p) memory).elemSize = p.expectedSize)
    (hpos : 0 < p.expectedSize) (deliveries : List Delivery) :
    payloads p (deliveries.map (ownFrame cv p)) = deliveries.filterMap (captured cv p) := by
  unfold payloads
  rw [List.filterMap_map]
  apply List.filterMap_congr
  intro d _
  obtain ⟨hvalid, hpayload⟩ := payload_bgrFrame hraw (hsize fun offset => d.data.getD offset 0) hpos
  rw [captured, if_neg (by simp [hraw]), ← hpayload]
  exact if_pos hvalid

theorem payloads_validFrames (p : Params) (calls : List (Call V4l2Ptr)) :
    payloads p (validFrames calls) = payloads p (grabs calls) := by
  unfold payloads validFrames
  rw [List.filterMap_filter]
  apply List.filterMap_congr
  intro grabbed _
  cases grabbed.1.valid <;> simp

theorem payloads_eq_captured {node : Overrides} {stamper : MmapStamper} {boxFd : Nat}
    {memory : Nat → Nat → UInt8} {answer : StartAnswer} {s : System V4l2World V4l2Ptr}
    (hgranted : granted (loadParams node) answer ≤ kBufCount)
    (hstart : ((fresh memory).start (loadParams node) (imageFormat (loadParams node)) answer).1
      = true)
    (h : Runs.Reachable (System.step (v4l2Env cv)) ⟨Node.init (loadParams node) stamper boxFd,
      ((fresh memory).start (loadParams node) (imageFormat (loadParams node)) answer).2⟩ s)
    (hfull : (loadParams node).compressed = false → ∀ d ∈ s.env.deliveries,
      captureSize (loadParams node) ≤ d.bytesused) :
    payloads (loadParams node) (grabs s.node.calls)
      = s.env.deliveries.filterMap (captured cv (loadParams node)) := by
  have hres := loadParams_res_positive node
  cases hcompressed : (loadParams node).compressed with
  | true =>
      have hpassed : Passed (loadParams node) s := by
        refine System.invariant (I := Passed (loadParams node))
          (fun _ _ _ hs hstep => hs.step hres hcompressed hstep.turn)
          ⟨holding_init stamper boxFd (start_spec hstart), ?_, ?_⟩ h
        · exact (housed_of_start hgranted hstart).fits
        · rw [(start_spec hstart).deliveries]
          rfl
      rw [hpassed.payloads]
      apply List.filterMap_congr
      intro d _
      simp [captured, hcompressed]
  | false =>
      have hfaithful := faithful_reachable hres hcompressed hstart h
      have hshaped := loadParams_shaped node
      have hpos : 0 < (loadParams node).expectedSize := by
        rw [hshaped.size]
        exact Nat.mul_pos (Nat.mul_pos hshaped.width.1 hshaped.height.1) (by decide)
      rw [← payloads_validFrames, hfaithful.frames (hfull hcompressed),
        payloads_map_ownFrame cv hcompressed
          (size_converted cv node (flipMethod_of_start hstart)) hpos]

/-- What is published is what the kernel has delivered, as long as the buffers of a raw camera come
back full. -/
def Conveyed (cv : OpenCv) (p : Params) (s : System V4l2World V4l2Ptr) : Prop :=
  (p.compressed = false → ∀ d ∈ s.env.deliveries, captureSize p ≤ d.bytesused) →
    s.node.published.map (fun sent => sent.message.data)
        <+: s.env.deliveries.filterMap (captured cv p) ∧
      (s.node.pc = .head ∨ s.node.pc = .exited →
        s.node.published.map (fun sent => sent.message.data)
          = s.env.deliveries.filterMap (captured cv p))

theorem conveyed_reachable {node : Overrides} {stamper : MmapStamper} {boxFd : Nat}
    {memory : Nat → Nat → UInt8} {answer : StartAnswer} {s : System V4l2World V4l2Ptr}
    (hgranted : granted (loadParams node) answer ≤ kBufCount)
    (hstart : ((fresh memory).start (loadParams node) (imageFormat (loadParams node)) answer).1
      = true)
    (h : Runs.Reachable (System.step (v4l2Env cv)) ⟨Node.init (loadParams node) stamper boxFd,
      ((fresh memory).start (loadParams node) (imageFormat (loadParams node)) answer).2⟩ s) :
    Conveyed cv (loadParams node) s := by
  intro hfull
  have hhoused := housed_of_start hgranted hstart
  rw [← payloads_eq_captured hgranted hstart h hfull]
  exact ⟨published_isPrefix (v4l2Env_stableViews cv) hhoused h,
    published_eq_of_idle (v4l2Env_stableViews cv) hhoused h⟩

/-- **Every capture is published once.** Over a backend that has started with no more than
`kBufCount` buffers, as long as those of a raw camera come back full: the messages published so far
are the deliveries of the kernel, first come first, each as the picture of its own bytes or as these
bytes themselves if there are any; and at the head of the loop none is left. -/
theorem v4l2_publishes_captures (cv : OpenCv) (node : Overrides) (stamper : MmapStamper)
    (boxFd : Nat) (memory : Nat → Nat → UInt8) (answer : StartAnswer)
    (hgranted : granted (loadParams node) answer ≤ kBufCount)
    (hstart : ((fresh memory).start (loadParams node) (imageFormat (loadParams node)) answer).1
      = true)
    (s : System V4l2World V4l2Ptr)
    (h : Runs.Reachable (System.step (v4l2Env cv)) ⟨Node.init (loadParams node) stamper boxFd,
      ((fresh memory).start (loadParams node) (imageFormat (loadParams node)) answer).2⟩ s)
    (hfull : (loadParams node).compressed = false → ∀ d ∈ s.env.deliveries,
      captureSize (loadParams node) ≤ d.bytesused) :
    s.node.published.map (fun sent => sent.message.data)
        <+: s.env.deliveries.filterMap (captured cv (loadParams node)) ∧
      (s.node.pc = .head ∨ s.node.pc = .exited →
        s.node.published.map (fun sent => sent.message.data)
          = s.env.deliveries.filterMap (captured cv (loadParams node))) :=
  conveyed_reachable hgranted hstart h hfull

theorem v4l2_publishes_captures_fullRun : ∃ s,
    Runs.run (System.step (v4l2Env noShapes)) ⟨Node.init jpegParams, startedWorld⟩ fullRun
        = some s ∧
      s.node.published.map (fun sent => sent.message.data)
        = s.env.deliveries.filterMap (captured noShapes jpegParams) := by
  obtain ⟨s, hrun, hpc⟩ : ∃ s,
      Runs.run (System.step (v4l2Env noShapes)) ⟨Node.init jpegParams, startedWorld⟩ fullRun
        = some s ∧ s.node.pc = .head := ⟨_, rfl, rfl⟩
  refine ⟨s, hrun, ?_⟩
  exact (v4l2_publishes_captures noShapes { compressed := some true } {} 3 (fun _ _ => 7) fullStart
    (by decide) rfl s ⟨fullRun, hrun⟩ (fun hraw => absurd hraw (by decide))).2 (.inl hpc)

end EconRos2Driver
