import EconRos2Driver.Proof.V4l2Session
import EconRos2Driver.Proof.RawFrames

/-!
# The format the driver agreed to

`VIDIOC_S_FMT` may change what it was asked for and still succeed. `set_format` does not look at the
reply, and `grab` builds its matrix from the resolution that was asked for: rows of two bytes a
pixel, one after the other, over a buffer whose length the driver chose for its own format.
-/

namespace EconRos2Driver

open V4l2World

/-- The format of a picture that `COLOR_YUV2BGR_UYVY` is given through a view. -/
def MatView.format (m : MatView) : PixFormat where
  width := m.cols
  height := m.rows
  pixelformat := v4l2PixFmtUyvy
  bytesperline := m.step

/-- What a raw `grab` of the buffer reads lies in its mapping and is read in the negotiated
format. -/
structure ReadsNegotiated (w : V4l2World) (index : Nat) : Prop where
  mapped : (w.backend.bufAt index).start = .mapped index
  inside : ∀ offset ∈ w.backend.uyvy.offsets, offset < (w.backend.bufAt index).length
  negotiated : w.negotiated = some w.backend.uyvy.format

theorem requestBuffer_negotiated (w : V4l2World) (i : Nat) (answer : BufferAnswer) :
    (w.requestBuffer i answer).2.negotiated = w.negotiated := by
  unfold V4l2World.requestBuffer
  split_ifs <;> rfl

theorem start_negotiated {memory : Nat → Nat → UInt8} {p : Params} {format : ImageFormat}
    {answer : StartAnswer} {reply : PixFormat}
    (hstart : ((fresh memory).start p format answer).1 = true) (hreply : answer.sFmt = some reply) :
    ((fresh memory).start p format answer).2.negotiated = some reply := by
  by_cases hflip : p.flipMethod ≠ 0
  · rw [start, if_pos hflip] at hstart
    cases hstart
  · cases hopen : answer.openFd with
    | none =>
        rw [start, if_neg hflip, hopen] at hstart
        cases hstart
    | some fd =>
        rw [start_of_formatted hflip hopen hreply]
        unfold requestBuffers
        cases answer.reqbufs with
        | none => rfl
        | some count =>
            exact requestBuffersFrom_keeps (I := fun w => w.negotiated = some reply)
              (fun w i answer h => (requestBuffer_negotiated w i answer).trans h) _ _ _ rfl

/-- A session whose `start` succeeded. -/
structure Streaming (p : Params) (format : ImageFormat) (reply : PixFormat) (w : V4l2World) :
    Prop where
  owned : w.Owned
  setup : w.Setup p format
  negotiated : w.negotiated = some reply

theorem Streaming.step {cv : OpenCv} {p : Params} {format : ImageFormat} {reply : PixFormat}
    {w t : V4l2World} {call : BackendCall} (h : Streaming p format reply w)
    (hstep : backendStep cv w call = some t) : Streaming p format reply t := by
  cases call with
  | grab dqbuf =>
      obtain ⟨⟨frame, u⟩, hgrab, rfl⟩ := Option.map_eq_some_iff.mp hstep
      refine ⟨h.owned.grab hgrab, ?_, ?_⟩
      · cases grab_spec hgrab with
        | nothing _ hworld => exact hworld ▸ h.setup
        | buffer _ _ _ hsame _ _ _ _ _ => exact h.setup.of_sameTable hsame
      · cases dqbuf with
        | selectFailed | dqbufFailed =>
            cases hgrab
            exact h.negotiated
        | buffer index sequence bytesused now =>
            obtain ⟨-, conv, bgr, rfl⟩ := grab_eq hgrab
            exact h.negotiated
  | release qbuf =>
      obtain rfl := Option.some.inj hstep
      refine ⟨h.owned.release qbuf, ?_, ?_⟩
      · cases release_spec w qbuf with
        | nothing _ hworld => exact hworld.symm ▸ h.setup
        | queued _ _ hsame _ _ _ => exact h.setup.of_sameTable hsame
      · unfold V4l2World.release
        cases w.releaseIndex <;> exact h.negotiated
  | kernel move =>
      have huntouched := untouched_move hstep
      refine ⟨h.owned.move hstep, ⟨?_, ?_, ?_⟩, ?_⟩
      · rw [huntouched.backend, h.setup.format]
      · rw [huntouched.backend, h.setup.res]
      · rw [huntouched.backend, h.setup.needResize]
      · cases move with
        | fill i content =>
            simp only [backendStep, V4l2World.move] at hstep
            split_ifs at hstep
            rw [← Option.some.inj hstep]
            exact h.negotiated
        | timeshare file =>
            rw [← Option.some.inj hstep]
            exact h.negotiated

theorem streaming_reachable {cv : OpenCv} {memory : Nat → Nat → UInt8} {p : Params}
    {format : ImageFormat} {answer : StartAnswer} {reply : PixFormat} {w : V4l2World}
    (hstart : ((fresh memory).start p format answer).1 = true) (hreply : answer.sFmt = some reply)
    (h : Runs.Reachable (backendStep cv) ((fresh memory).start p format answer).2 w) :
    Streaming p format reply w := by
  have hstarted := start_spec hstart
  exact h.invariant (fun _ _ _ hs hstep => Streaming.step hs hstep)
    ⟨hstarted.owned, hstarted.toSetup, start_negotiated hstart hreply⟩

/-- What was asked for, with no padding at the end of a line. -/
def askedFormat (p : Params) : PixFormat where
  width := p.res.captureWidth
  height := p.res.captureHeight
  pixelformat := v4l2PixFmtUyvy
  bytesperline := 2 * p.res.captureWidth

theorem Streaming.format_uyvy {p : Params} {reply : PixFormat} {w : V4l2World}
    (h : Streaming p .kRawBgr8 reply w) : w.backend.uyvy.format = askedFormat p := by
  simp only [MatView.format, V4l2OpencvBackend.uyvy, h.setup.res, askedFormat, Nat.mul_comm]

theorem Streaming.mem_offsets {p : Params} {reply : PixFormat} {w : V4l2World}
    (h : Streaming p .kRawBgr8 reply w) {offset : Nat} (hoffset : offset ∈ w.backend.uyvy.offsets) :
    offset < (askedFormat p).bytesperline * (askedFormat p).height := by
  rw [MatView.offsets_eq_range rfl, List.mem_range] at hoffset
  calc offset < p.res.captureHeight * p.res.captureWidth * 2 := by
        rwa [← h.setup.res]
    _ = 2 * p.res.captureWidth * p.res.captureHeight := by ring

/-- The entry of a queued buffer is the mapping that `start` has made of it. -/
theorem bufAt_of_queued {p : Params} {answer : StartAnswer} {reply : PixFormat} {w : V4l2World}
    (hstreaming : Streaming p .kRawBgr8 reply w) (hsession : Session p answer w)
    (hgranted : granted p answer ≤ kBufCount) {index : Nat} (hqueued : index ∈ w.queue) :
    w.backend.bufAt index = ⟨.mapped index, (answer.buffer index).length⟩ := by
  obtain ⟨hi, -, htable⟩ := hsession.table hgranted
  have hin := hsession.bounded.queue index hqueued
  have hstart := (hstreaming.owned.mapped index (hstreaming.owned.bounded _ (.inl hqueued))
    (by omega)).1
  have hlt : index < hi := by
    by_contra hnot
    exact htable.unmapped index (.inr (by omega)) index hstart
  exact htable.mapped index (Nat.zero_le _) hlt

/-- **When the pictures are read in the negotiated format.** Let `start` have succeeded with a reply
whose buffers hold all its lines. Whichever buffer a raw `grab` of the session may get, it reads
inside the mapping of that buffer and in the negotiated format, exactly when `REQBUFS` has granted
no more than `kBufCount` buffers and, if any, the reply has the width and the height asked for, in
UYVY, without padding. -/
theorem raw_grab_negotiated_iff (cv : OpenCv) (memory : Nat → Nat → UInt8) (p : Params)
    (answer : StartAnswer) (reply : PixFormat)
    (hstart : ((fresh memory).start p .kRawBgr8 answer).1 = true)
    (hreply : answer.sFmt = some reply)
    (hfit : ∀ i : Nat, (i : Int) < granted p answer →
      reply.bytesperline * reply.height ≤ (answer.buffer i).length) :
    (∀ calls w, Runs.run (backendStep cv) ((fresh memory).start p .kRawBgr8 answer).2 calls
        = some w → ∀ index ∈ w.queue, ReadsNegotiated w index) ↔
      granted p answer ≤ kBufCount ∧ (0 < granted p answer →
        reply = { width := p.res.captureWidth, height := p.res.captureHeight
                  pixelformat := v4l2PixFmtUyvy, bytesperline := 2 * p.res.captureWidth }) := by
  have hsession : ∀ calls w, Runs.run (backendStep cv)
      ((fresh memory).start p .kRawBgr8 answer).2 calls = some w →
        Session p answer w ∧ Streaming p .kRawBgr8 reply w :=
    fun calls w h => ⟨session_reachable ⟨calls, h⟩, streaming_reachable hstart hreply ⟨calls, h⟩⟩
  constructor
  · intro hall
    have hqueue := (start_spec hstart).requested.queue
    rw [start_nBufs] at hqueue
    have hfirst : ∀ index : Nat, (index : Int) < granted p answer →
        ReadsNegotiated ((fresh memory).start p .kRawBgr8 answer).2 index := by
      intro index hindex
      apply hall [] _ rfl
      rw [hqueue, List.mem_range]
      omega
    constructor
    · by_contra hmore
      have hstray := (hfirst kBufCount (by omega)).mapped
      rw [V4l2OpencvBackend.bufAt_of_le _ (Nat.le_refl _)] at hstray
      cases hstray
    · intro hpos
      obtain ⟨-, hstreaming⟩ := hsession [] _ rfl
      have hnegotiated := (hfirst 0 hpos).negotiated
      rw [hstreaming.negotiated, hstreaming.format_uyvy] at hnegotiated
      exact Option.some.inj hnegotiated
  · rintro ⟨hgranted, hexact⟩ calls w h index hqueued
    obtain ⟨hsession, hstreaming⟩ := hsession calls w h
    have hindex := hsession.bounded.queue index hqueued
    have hreply' : reply = askedFormat p := hexact (by omega)
    have hentry := bufAt_of_queued hstreaming hsession hgranted hqueued
    refine ⟨?_, ?_, ?_⟩
    · rw [hentry]
    · intro offset hoffset
      rw [hentry]
      have hlines := hfit index hindex
      rw [hreply'] at hlines
      exact (hstreaming.mem_offsets hoffset).trans_le hlines
    · rw [hstreaming.negotiated, hstreaming.format_uyvy, hreply']

/-- A driver that answers `S_FMT` with UYVY of the given size, in buffers of just that size. -/
def replyStart (width height : Nat) : StartAnswer :=
  { fullStart with
    sFmt := some { width, height, pixelformat := v4l2PixFmtUyvy, bytesperline := 2 * width }
    buffer := fun _ => ⟨true, 2 * width * height, true, true⟩ }

theorem raw_grab_negotiated_hd : ∃ w,
    (fresh fun _ _ => 0).start (loadParams hd) .kRawBgr8 (replyStart 1280 720) = (true, w) ∧
      w.queue = [0, 1, 2, 3] ∧ ReadsNegotiated w 0 := by
  refine ⟨_, rfl, rfl, ?_⟩
  exact (raw_grab_negotiated_iff openCv (fun _ _ => 0) (loadParams hd) (replyStart 1280 720) _ rfl
    rfl (fun _ _ => Nat.le_refl _)).mpr ⟨by decide, fun _ => rfl⟩ [] _ rfl 0 List.mem_cons_self

/-- Asked for 1280 x 720, the driver answers with 640 x 480. -/
theorem raw_grab_overrun_vga : ∃ w,
    (fresh fun _ _ => 0).start (loadParams hd) .kRawBgr8 (replyStart 640 480) = (true, w) ∧
      0 ∈ w.queue ∧
      w.negotiated = some { width := 640, height := 480, pixelformat := v4l2PixFmtUyvy
                            bytesperline := 1280 } ∧
      (w.backend.bufAt 0).length = 614400 ∧ 614400 ∈ w.backend.uyvy.offsets ∧
      ¬ ReadsNegotiated w 0 := by
  refine ⟨_, rfl, List.mem_cons_self, rfl, rfl, ?_, ?_⟩
  · rw [MatView.offsets_eq_range rfl, List.mem_range]
    decide
  · intro hreads
    have hformat := hreads.negotiated
    revert hformat
    decide

end EconRos2Driver
