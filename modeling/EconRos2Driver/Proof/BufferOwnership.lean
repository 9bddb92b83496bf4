import EconRos2Driver.Proof.V4l2Queue
import Mathlib.Data.List.Nodup
import Mathlib.Data.List.Perm.Subperm

/-!
# Buffers over whole runs

While the node holds a frame, the buffer it came from is the recorded one, which the kernel does not
hold. A buffer comes back through `release` only, and the loop releases valid frames only: a
delivery without bytes makes an invalid JPEG frame, and its buffer is forgotten at the next `DQBUF`.
The number of such deliveries is exactly what the queue is short of at the head of the loop.
-/

namespace EconRos2Driver

open V4l2World

variable {cv : OpenCv} {p : Params} {s t : System V4l2World V4l2Ptr}

/-- The frame in hand comes from the recorded buffer, and a JPEG frame is where its entry points. -/
structure Holding (p : Params) (s : System V4l2World V4l2Ptr) : Prop where
  owned : s.env.Owned
  setup : s.env.Setup p (imageFormat p)
  held : ∀ frame, s.node.pc.held = some frame → ∃ i, s.env.releaseIndex = some i ∧
    (imageFormat p = .kJpeg → frame.data = (s.env.backend.bufAt i).start.ptr)

theorem holding_init (stamper : MmapStamper) (boxFd : Nat) {w : V4l2World}
    (h : Started p (imageFormat p) w) : Holding p ⟨Node.init p stamper boxFd, w⟩ where
  owned := h.owned
  setup := h.toSetup
  held := by
    intro frame hframe
    cases hframe

theorem V4l2World.Setup.of_sameTable {format : ImageFormat} {w u : V4l2World}
    (h : w.Setup p format) (hsame : SameTable w u) : u.Setup p format :=
  ⟨hsame.format.trans h.format, hsame.res.trans h.res, hsame.needResize.trans h.needResize⟩

theorem Holding.grab (h : Holding p s) {answer : DqbufAnswer} {frame : Frame V4l2Ptr}
    {w : V4l2World} (hgrab : s.env.grab cv answer = some (frame, w)) (bytes : List UInt8) :
    Holding p ⟨s.node.grabbed frame bytes, w⟩ := by
  have hsetup : w.Setup p (imageFormat p) := by
    cases grab_spec hgrab with
    | nothing _ hworld => exact hworld ▸ h.setup
    | buffer d _ _ hsame _ _ _ _ _ => exact h.setup.of_sameTable hsame
  refine ⟨h.owned.grab hgrab, hsetup, ?_⟩
  intro other hother
  by_cases hvalid : frame.valid = true
  · obtain rfl : frame = other := by simpa [Node.grabbed, hvalid, Pc.held] using hother
    cases grab_spec hgrab with
    | nothing hframe _ => simp [hframe, Frame.valid] at hvalid
    | buffer d _ _ hsame _ hcurrent _ hjpeg _ =>
        refine ⟨d.index, releaseIndex_of_current hcurrent, ?_⟩
        intro hformat
        rw [hjpeg (h.setup.format.trans hformat), hsame.bufAt]
  · simp [Node.grabbed, hvalid, Pc.held] at hother

theorem Holding.step (h : Holding p s) {e : Event V4l2Move DqbufAnswer Bool}
    (hturn : System.Turn (v4l2Env cv) s e t) : Holding p t := by
  obtain ⟨node, env⟩ := t
  cases hturn with
  | env move hmove hnode =>
      obtain rfl : node = s.node := hnode
      have huntouched := untouched_move hmove
      refine ⟨h.owned.move hmove, ⟨?_, ?_, ?_⟩, ?_⟩
      · rw [huntouched.backend, h.setup.format]
      · rw [huntouched.backend, h.setup.res]
      · rw [huntouched.backend, h.setup.needResize]
      · intro frame hframe
        obtain ⟨i, hindex, hdata⟩ := h.held frame hframe
        rw [releaseIndex, huntouched.backend]
        exact ⟨i, hindex, hdata⟩
  | grab answer frame hpc hgrab hnode =>
      dsimp only at hgrab hnode
      subst hnode
      exact h.grab hgrab _
  | count frame _ hpc henv hnode =>
      obtain rfl : env = s.env := henv
      obtain rfl : node = _ := hnode
      refine ⟨h.owned, h.setup, ?_⟩
      intro other hother
      exact h.held other (by simpa [hpc, Node.counted, Pc.held] using hother)
  | release frame qbuf _ hpc hrelease hnode =>
      obtain rfl : node = s.node.released := hnode
      obtain rfl : s.env.release qbuf = env := Option.some.inj hrelease
      refine ⟨h.owned.release qbuf, ?_, ?_⟩
      · cases release_spec s.env qbuf with
        | nothing _ hworld => exact hworld.symm ▸ h.setup
        | queued i _ hsame _ _ _ => exact h.setup.of_sameTable hsame
      · intro other hother
        cases hother
  | inside henv hinside =>
      obtain rfl : env = s.env := henv
      refine ⟨h.owned, h.setup, ?_⟩
      intro frame hframe
      exact h.held frame (hinside.held_of_held hframe)

/-! ### The kernel never writes into the frame being read -/

/-- The states of the backend that the calls of the node lead to. -/
inductive Lifecycle (cv : OpenCv) (p : Params) (stamper : MmapStamper) (boxFd : Nat) :
    V4l2World → Prop where
  | fresh (memory : Nat → Nat → UInt8) : Lifecycle cv p stamper boxFd (fresh memory)
  | started (memory : Nat → Nat → UInt8) (answer : StartAnswer) :
      Lifecycle cv p stamper boxFd ((fresh memory).start p (imageFormat p) answer).2
  | looping (memory : Nat → Nat → UInt8) (answer : StartAnswer) (s : System V4l2World V4l2Ptr)
      (hstart : ((fresh memory).start p (imageFormat p) answer).1 = true)
      (hloop : Runs.Reachable (System.step (v4l2Env cv))
        ⟨Node.init p stamper boxFd, ((fresh memory).start p (imageFormat p) answer).2⟩ s) :
      Lifecycle cv p stamper boxFd s.env
  | stopped {w : V4l2World} (h : Lifecycle cv p stamper boxFd w) :
      Lifecycle cv p stamper boxFd w.stop

theorem holding_reachable {stamper : MmapStamper} {boxFd : Nat} {memory : Nat → Nat → UInt8}
    {answer : StartAnswer} (hstart : ((fresh memory).start p (imageFormat p) answer).1 = true)
    (h : Runs.Reachable (System.step (v4l2Env cv))
      ⟨Node.init p stamper boxFd, ((fresh memory).start p (imageFormat p) answer).2⟩ s) :
    Holding p s :=
  System.invariant (I := Holding p) (fun _ _ _ hs hstep => hs.step hstep.turn)
    (holding_init stamper boxFd (start_spec hstart)) h

theorem nBufs_of_turn {e : Event V4l2Move DqbufAnswer Bool}
    (hturn : System.Turn (v4l2Env cv) s e t) : t.env.backend.nBufs = s.env.backend.nBufs := by
  cases hturn with
  | env _ hmove _ => rw [(untouched_move hmove).backend]
  | grab _ _ _ hgrab _ =>
      cases grab_spec hgrab with
      | nothing _ hworld => rw [hworld]
      | buffer _ _ _ hsame _ _ _ _ _ => exact hsame.nBufs
  | release _ qbuf _ _ hrelease _ =>
      have hreleased : s.env.release qbuf = t.env := Option.some.inj hrelease
      rw [← hreleased]
      cases release_spec s.env qbuf with
      | nothing _ hworld => rw [hworld]
      | queued _ _ hsame _ _ _ => exact hsame.nBufs
  | count _ _ _ henv _ | inside henv _ => rw [henv]

theorem housed_reachable {stamper : MmapStamper} {boxFd : Nat} {memory : Nat → Nat → UInt8}
    {answer : StartAnswer} (hgranted : granted p answer ≤ kBufCount)
    (hstart : ((fresh memory).start p (imageFormat p) answer).1 = true)
    (h : Runs.Reachable (System.step (v4l2Env cv))
      ⟨Node.init p stamper boxFd, ((fresh memory).start p (imageFormat p) answer).2⟩ s) :
    s.env.Housed := by
  refine ⟨(holding_reachable hstart h).owned, ?_⟩
  exact System.invariant (I := fun s => s.env.backend.nBufs ≤ (kBufCount : Int))
    (fun _ _ _ hs hstep => Int.le_trans (Int.le_of_eq (nBufs_of_turn hstep.turn)) hs)
    (housed_of_start hgranted hstart).fits h

theorem Lifecycle.apart {stamper : MmapStamper} {boxFd : Nat} {w : V4l2World}
    (h : Lifecycle cv p stamper boxFd w) : ∀ i, w.releaseIndex = some i → i ∉ w.queue := by
  induction h with
  | fresh memory =>
      intro i hi
      cases hi
  | started memory answer =>
      intro i hi
      rw [releaseIndex, start_currentIndex] at hi
      cases hi
  | looping memory answer s hstart hloop => exact (holding_reachable hstart hloop).owned.apart
  | @stopped w h ih =>
      unfold stop
      split_ifs with hfd
      · exact ih
      · intro i hi
        cases hi

theorem apart_releases {w : V4l2World} (h : ∀ i, w.releaseIndex = some i → i ∉ w.queue)
    (qbufs : List Bool) : ∀ i, (qbufs.foldl release w).releaseIndex = some i →
      i ∉ (qbufs.foldl release w).queue := by
  induction qbufs generalizing w with
  | nil => exact h
  | cons qbuf qbufs ih =>
      apply ih
      cases release_spec w qbuf with
      | nothing _ hworld => rwa [hworld]
      | queued i _ _ _ hcurrent _ =>
          intro j hj
          simp [releaseIndex, hcurrent] at hj

/-- **When the kernel never fills a buffer that is being read.** Let `REQBUFS` grant no more than
`kBufCount` buffers. While the node holds a JPEG frame, the frame points into a buffer that is
mapped and not queued. And in every state of the backend, after any number of further `release`
calls, the index the next one hands to `QBUF` is not queued. -/
theorem held_buffer_not_queued (cv : OpenCv) (p : Params) (stamper : MmapStamper) (boxFd : Nat) :
    (∀ memory answer s, granted p answer ≤ kBufCount →
      ((fresh memory).start p (imageFormat p) answer).1 = true →
      Runs.Reachable (System.step (v4l2Env cv))
        ⟨Node.init p stamper boxFd, ((fresh memory).start p (imageFormat p) answer).2⟩ s →
      imageFormat p = .kJpeg → ∀ frame, s.node.pc.held = some frame →
        ∃ i length, frame.data = some (.mapped i) ∧ (i, length) ∈ s.env.maps ∧ i ∉ s.env.queue) ∧
    ∀ w, Lifecycle cv p stamper boxFd w → ∀ qbufs : List Bool, ∀ i,
      (qbufs.foldl release w).releaseIndex = some i → i ∉ (qbufs.foldl release w).queue := by
  refine ⟨?_, ?_⟩
  · intro memory answer s hgranted hstart hloop hjpeg frame hframe
    have hholding := holding_reachable hstart hloop
    have hhoused := housed_reachable hgranted hstart hloop
    obtain ⟨i, hindex, hdata⟩ := hholding.held frame hframe
    obtain ⟨hmapped, hmaps⟩ :=
      hhoused.mapped i (hhoused.bounded i (.inr hindex)) (hhoused.lt (.inr hindex))
    refine ⟨i, _, ?_, hmaps, hhoused.apart i hindex⟩
    rw [hdata hjpeg, hmapped]
    rfl
  · intro w hw qbufs
    exact apart_releases hw.apart qbufs

def fullStart : StartAnswer where
  openFd := some 3
  sFmt := some { width := 640, height := 480, pixelformat := v4l2PixFmtMjpeg }
  reqbufs := some 4
  buffer := fun _ => ⟨true, 4096, true, true⟩
  streamon := true

def jpegParams : Params := loadParams { compressed := some true }

def noShapes : OpenCv where
  cvtColor := fun m => Mat.ofMemory m.rows m.cols 3 fun _ => 0
  resize := fun m width height => Mat.ofMemory height width m.elemSize fun _ => 0
  rows_cvtColor := fun _ => rfl
  cols_cvtColor := fun _ => rfl
  elemSize_cvtColor := fun _ => rfl
  rows_resize := fun _ _ _ => rfl
  cols_resize := fun _ _ _ => rfl
  elemSize_resize := fun _ _ _ => rfl

def startedWorld : V4l2World := ((fresh fun _ _ => 7).start jpegParams .kJpeg fullStart).2

theorem held_buffer_not_queued_of_grab : ∃ s,
    Runs.run (System.step (v4l2Env noShapes)) ⟨Node.init jpegParams, startedWorld⟩
        [.grab (.buffer 2 0 3 5), .count] = some s ∧
      s.node.pc.held = some ⟨some (.mapped 2), 3⟩ ∧ s.env.queue = [0, 1, 3] ∧
      ∃ i length, some (V4l2Ptr.mapped 2) = some (.mapped i) ∧ (i, length) ∈ s.env.maps ∧
        i ∉ s.env.queue := by
  refine ⟨_, rfl, rfl, rfl, ?_⟩
  exact (held_buffer_not_queued noShapes jpegParams {} 3).1 (fun _ _ => 7) fullStart _
    (by decide) rfl ⟨[.grab (.buffer 2 0 3 5), .count], rfl⟩ rfl ⟨some (.mapped 2), 3⟩ rfl

/-- The driver grants five buffers, and the fifth is the first to be filled: the frame in hand
points into none that is mapped. -/
theorem held_frame_stray_of_five : ∃ s,
    ((fresh fun _ _ => 7).start jpegParams .kJpeg { fullStart with reqbufs := some 5 }).1 = true ∧
      Runs.run (System.step (v4l2Env noShapes))
        ⟨Node.init jpegParams,
          ((fresh fun _ _ => 7).start jpegParams .kJpeg { fullStart with reqbufs := some 5 }).2⟩
        [.grab (.buffer 4 0 3 5)] = some s ∧
      s.node.pc.held = some ⟨some .stray, 3⟩ ∧
      ¬ ∃ i length, some V4l2Ptr.stray = some (.mapped i) ∧ (i, length) ∈ s.env.maps ∧
        i ∉ s.env.queue := by
  refine ⟨_, rfl, rfl, rfl, ?_⟩
  rintro ⟨i, length, hdata, -⟩
  cases hdata

/-! ### What the queue is short of -/

def empties (p : Params) (deliveries : List Delivery) : Nat :=
  deliveries.countP fun d => p.compressed && d.bytesused == 0

/-- Every buffer is queued, in hand, or was delivered without a byte and is forgotten. -/
structure Balance (p : Params) (s : System V4l2World V4l2Ptr) : Prop where
  holding : Holding p s
  balance : s.node.pc ≠ .sigbus → s.env.queue.length + s.node.pc.held.toList.length
    + empties p s.env.deliveries = s.env.backend.nBufs.toNat

theorem balance_init (stamper : MmapStamper) (boxFd : Nat) {w : V4l2World}
    (h : Started p (imageFormat p) w) : Balance p ⟨Node.init p stamper boxFd, w⟩ where
  holding := holding_init stamper boxFd h
  balance := by
    intro _
    simp [h.requested.queue, h.deliveries, empties, Node.init, Pc.held]

theorem converted_pos {w : V4l2World} {format : ImageFormat} (h : w.Setup p format)
    (hres : p.res.Positive) (memory : Nat → UInt8) :
    0 < (converted cv w.backend memory).total * (converted cv w.backend memory).elemSize := by
  have houtput := Nat.mul_pos hres.outputHeight hres.outputWidth
  have hcapture := Nat.mul_pos hres.captureHeight hres.captureWidth
  unfold converted
  dsimp only
  split_ifs
  · simp [Mat.total, cv.rows_resize, cv.cols_resize, cv.elemSize_resize, cv.elemSize_cvtColor,
      h.res, houtput]
  · simp [Mat.total, cv.rows_cvtColor, cv.cols_cvtColor, cv.elemSize_cvtColor, MatView.load,
      V4l2OpencvBackend.uyvy, h.res, hcapture]

theorem Holding.valid_iff (h : Holding p s) (hres : p.res.Positive) {w : V4l2World}
    {frame : Frame V4l2Ptr} {d : Delivery} (hqueued : d.index ∈ s.env.queue)
    (hjpeg : s.env.backend.format = .kJpeg →
      frame = { data := (s.env.backend.bufAt d.index).start.ptr, size := d.bytesused })
    (hraw : s.env.backend.format = .kRawBgr8 →
      (s.env.backend.bufAt d.index).start ≠ .stray ∧
      w.backend.bgr = converted cv s.env.backend
        (s.env.memoryAt (s.env.backend.bufAt d.index).start) ∧
      frame = { data := some .bgr, size := w.backend.bgr.total * w.backend.bgr.elemSize }) :
    frame.valid = !(p.compressed && d.bytesused == 0) := by
  have hformat := h.setup.format
  cases hcompressed : p.compressed with
  | true =>
      have hptr := h.owned.isSome_ptr (.inl hqueued)
      rw [hjpeg (by rw [hformat, imageFormat, hcompressed]; rfl)]
      by_cases hempty : d.bytesused = 0
      · simp [Frame.valid, hempty]
      · simp [Frame.valid, hptr, hempty, Nat.pos_of_ne_zero hempty]
  | false =>
      obtain ⟨-, hbgr, hframe⟩ := hraw (by rw [hformat, imageFormat, hcompressed]; rfl)
      rw [hframe, hbgr]
      simpa [Frame.valid] using converted_pos h.setup hres _

theorem Balance.grab (h : Balance p s) (hres : p.res.Positive) {answer : DqbufAnswer}
    {frame : Frame V4l2Ptr} {w : V4l2World} (hpc : s.node.pc = .head)
    (hgrab : s.env.grab cv answer = some (frame, w)) (bytes : List UInt8) :
    Balance p ⟨s.node.grabbed frame bytes, w⟩ := by
  refine ⟨h.holding.grab hgrab bytes, fun _ => ?_⟩
  have hbalance := h.balance (by rw [hpc]; simp)
  rw [hpc] at hbalance
  cases grab_spec hgrab with
  | nothing hframe hworld =>
      subst hframe hworld
      exact hbalance
  | buffer d hqueued _ hsame hqueue _ hdeliveries hjpeg hraw =>
      have hvalid := h.holding.valid_iff hres hqueued hjpeg hraw
      have hlength := List.length_erase_of_mem hqueued
      have hpos := List.length_pos_of_mem hqueued
      have hempties : empties p w.deliveries
          = empties p s.env.deliveries + if frame.valid then 0 else 1 := by
        rw [hdeliveries, empties, List.countP_append, hvalid]
        cases hcount : p.compressed && d.bytesused == 0 <;> simp [empties, hcount]
      simp only [hqueue, hempties, hlength, hsame.nBufs, Node.grabbed]
      simp only [Pc.held, Option.toList_none, List.length_nil] at hbalance
      cases frame.valid with
      | true =>
          simp only [if_true, Pc.held, Option.toList_some, List.length_singleton]
          omega
      | false =>
          simp only [Bool.false_eq_true, if_false, Pc.held, Option.toList_none, List.length_nil]
          omega

theorem Balance.release (h : Balance p s) {frame : Frame V4l2Ptr}
    (hpc : s.node.pc = .releasing frame) : Balance p ⟨s.node.released, s.env.release true⟩ := by
  have hheld : s.node.pc.held = some frame := by rw [hpc]; rfl
  obtain ⟨i, hindex, -⟩ := h.holding.held frame hheld
  have hbalance := h.balance (by rw [hpc]; simp)
  rw [hheld] at hbalance
  cases release_spec s.env true with
  | nothing hnone _ =>
      rw [hnone] at hindex
      cases hindex
  | queued j _ hsame hqueue _ hdeliveries =>
      refine ⟨⟨h.holding.owned.release true, h.holding.setup.of_sameTable hsame, ?_⟩, fun _ => ?_⟩
      · intro other hother
        cases hother
      · rw [hqueue, hdeliveries, hsame.nBufs]
        simp only [if_true, List.length_append, List.length_singleton, Node.released, Pc.held,
          Option.toList_none, List.length_nil, Option.toList_some] at hbalance ⊢
        omega

theorem Balance.step (h : Balance p s) (hres : p.res.Positive)
    {e : Event V4l2Move DqbufAnswer Bool} (hqbuf : e ≠ .release false)
    (hturn : System.Turn (v4l2Env cv) s e t) : Balance p t := by
  have hholding := h.holding.step hturn
  obtain ⟨node, env⟩ := t
  cases hturn with
  | env move hmove hnode =>
      obtain rfl : node = s.node := hnode
      have huntouched := untouched_move hmove
      refine ⟨hholding, ?_⟩
      rw [huntouched.queue, huntouched.deliveries, huntouched.backend]
      exact h.balance
  | grab answer frame hpc hgrab hnode =>
      dsimp only at hgrab hnode
      subst hnode
      exact h.grab hres hpc hgrab _
  | count frame _ hpc henv hnode =>
      obtain rfl : env = s.env := henv
      obtain rfl : node = _ := hnode
      refine ⟨hholding, fun _ => ?_⟩
      have hbalance := h.balance (by rw [hpc]; simp)
      rw [hpc] at hbalance
      exact hbalance
  | release frame qbuf he hpc hrelease hnode =>
      obtain rfl : node = s.node.released := hnode
      obtain rfl : s.env.release qbuf = env := Option.some.inj hrelease
      cases qbuf with
      | false => exact absurd he hqbuf
      | true => exact h.release hpc
  | inside henv hinside =>
      obtain rfl : env = s.env := henv
      refine ⟨hholding, fun halive => ?_⟩
      have hheld : node.pc.held = s.node.pc.held := hinside.held.resolve_right halive
      rw [hheld]
      exact h.balance hinside.running

theorem balance_run {stamper : MmapStamper} {boxFd : Nat} {w : V4l2World}
    (hres : p.res.Positive) (hstarted : Started p (imageFormat p) w)
    {events : List (Event V4l2Move DqbufAnswer Bool)} (hqbuf : ∀ e ∈ events, e ≠ .release false)
    (h : Runs.run (System.step (v4l2Env cv)) ⟨Node.init p stamper boxFd, w⟩ events = some s) :
    Balance p s :=
  Runs.invariant_of_eachStep (C := fun _ e => e ≠ .release false)
    (fun _ _ _ hs hqbuf hstep => hs.step hres hqbuf (System.Step.of_step hstep).turn)
    (balance_init stamper boxFd hstarted)
    (Runs.eachStep_of_forall (D := fun e => e ≠ Event.release false) _ hqbuf) h

theorem empties_eq_zero_iff {deliveries : List Delivery} :
    empties p deliveries = 0 ↔ p.compressed = false ∨ ∀ d ∈ deliveries, 0 < d.bytesused := by
  rw [empties, List.countP_eq_zero]
  cases hcompressed : p.compressed with
  | true => simp [Nat.pos_iff_ne_zero]
  | false => simp

/-- Numbers below `n` without a repetition are all of them exactly when they are `n`. -/
theorem all_mem_iff_length {l : List Nat} {n : Nat} (hnodup : l.Nodup) (hlt : ∀ i ∈ l, i < n) :
    (∀ i < n, i ∈ l) ↔ l.length = n := by
  have hsub : l ⊆ List.range n := fun i hi => List.mem_range.mpr (hlt i hi)
  have hle := (List.subperm_of_subset hnodup hsub).length_le
  rw [List.length_range] at hle
  constructor
  · intro hall
    have hrange : List.range n ⊆ l := fun i hi => hall i (List.mem_range.mp hi)
    have hge := (List.subperm_of_subset List.nodup_range hrange).length_le
    rw [List.length_range] at hge
    omega
  · intro hlength i hi
    have hperm : l.Perm (List.range n) := by
      apply (List.subperm_of_subset hnodup hsub).perm_of_length_le
      rw [List.length_range]
      exact Nat.le_of_eq hlength.symm
    exact hperm.symm.subset (List.mem_range.mpr hi)

/-- **When the queue is full again.** Over a started backend whose `QBUF` succeeds, every one of the
`n_bufs_` buffers is queued at the head of the loop exactly when the pictures are raw or no buffer
was delivered without a byte. -/
theorem all_queued_iff (cv : OpenCv) (node : Overrides) (stamper : MmapStamper) (boxFd : Nat)
    (memory : Nat → Nat → UInt8) (answer : StartAnswer)
    (hstart :
      ((fresh memory).start (loadParams node) (imageFormat (loadParams node)) answer).1 = true)
    (events : List (Event V4l2Move DqbufAnswer Bool)) (hqbuf : ∀ e ∈ events, e ≠ .release false)
    (h : Runs.run (System.step (v4l2Env cv))
      ⟨Node.init (loadParams node) stamper boxFd,
        ((fresh memory).start (loadParams node) (imageFormat (loadParams node)) answer).2⟩ events
      = some s)
    (hpc : s.node.pc = .head) :
    (∀ i < s.env.backend.nBufs.toNat, i ∈ s.env.queue) ↔
      (loadParams node).compressed = false ∨ ∀ d ∈ s.env.deliveries, 0 < d.bytesused := by
  have hbalance := balance_run (loadParams_res_positive node) (start_spec hstart) hqbuf h
  have howned := hbalance.holding.owned
  have hcount := hbalance.balance (by rw [hpc]; simp)
  rw [hpc] at hcount
  simp only [Pc.held, Option.toList_none, List.length_nil, Nat.add_zero] at hcount
  rw [← empties_eq_zero_iff, all_mem_iff_length howned.nodup fun i hi => howned.bounded i (.inl hi)]
  omega

/-- Two JPEG frames of three bytes go through, in buffers 2 and 0. -/
def fullRun : List (Event V4l2Move DqbufAnswer Bool) :=
  [.grab (.buffer 2 0 3 5), .count, .tryOpen ⟨none, none⟩, .readLow 7, .copy, .logCbk 9, .publish,
   .logPub 11, .release true,
   .grab (.buffer 0 1 3 15), .count, .tryOpen ⟨none, none⟩, .readLow 17, .copy, .logCbk 19,
   .publish, .logPub 21, .release true]

theorem all_queued_iff_fullRun : ∃ s,
    Runs.run (System.step (v4l2Env noShapes)) ⟨Node.init jpegParams, startedWorld⟩ fullRun
        = some s ∧
      s.env.queue = [1, 3, 2, 0] ∧
      ((∀ i < s.env.backend.nBufs.toNat, i ∈ s.env.queue) ↔
        jpegParams.compressed = false ∨ ∀ d ∈ s.env.deliveries, 0 < d.bytesused) := by
  refine ⟨_, rfl, rfl, ?_⟩
  exact all_queued_iff noShapes { compressed := some true } {} 3 (fun _ _ => 7) fullStart rfl
    fullRun (by simp [fullRun]) rfl rfl

/-- A delivery without a byte, then a timeout: buffer 0 is neither queued nor in hand. -/
theorem lost_buffer_of_empty : ∃ s,
    Runs.run (System.step (v4l2Env noShapes)) ⟨Node.init jpegParams, startedWorld⟩
        [.grab (.buffer 0 0 0 5), .grab .selectFailed] = some s ∧
      s.node.pc = .head ∧ s.env.backend.nBufs = 4 ∧ s.env.queue = [1, 2, 3] ∧
      ¬ ∀ i < s.env.backend.nBufs.toNat, i ∈ s.env.queue := by
  refine ⟨_, rfl, rfl, rfl, rfl, ?_⟩
  intro hall
  have hmem : 0 ∈ [1, 2, 3] := hall 0 (by decide)
  simp at hmem

end EconRos2Driver
