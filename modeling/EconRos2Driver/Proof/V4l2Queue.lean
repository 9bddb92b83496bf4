import EconRos2Driver.OpencvBackend
import EconRos2Driver.Proof.Delivery

/-!
# Who holds a capture buffer

A buffer of the V4L2 backend is in the kernel's queue, recorded in `current_index_`, or forgotten.
`Owned` keeps the first two apart: the queue has no duplicates, and the recorded index is not in it.
This makes the frames of the backend stable views, since the driver fills only what is queued.
-/

namespace EconRos2Driver

/-- The buffers `n_bufs_` counts; none if `start` ends before it is set. -/
def granted (p : Params) (answer : StartAnswer) : Int :=
  if p.flipMethod ≠ 0 then 0
  else match answer.openFd, answer.sFmt, answer.reqbufs with
    | some _, some _, some count => staticCastInt count
    | _, _, _ => 0

namespace V4l2World

/-! ### What `start` leaves behind -/

structure SameSetup (w t : V4l2World) : Prop where
  format : t.backend.format = w.backend.format
  res : t.backend.res = w.backend.res
  needResize : t.backend.needResize = w.backend.needResize
  currentIndex : t.backend.currentIndex = w.backend.currentIndex
  deliveries : t.deliveries = w.deliveries

theorem SameSetup.refl (w : V4l2World) : SameSetup w w := ⟨rfl, rfl, rfl, rfl, rfl⟩

theorem SameSetup.trans {w t u : V4l2World} (h : SameSetup w t) (h' : SameSetup t u) :
    SameSetup w u :=
  ⟨h'.format.trans h.format, h'.res.trans h.res, h'.needResize.trans h.needResize,
    h'.currentIndex.trans h.currentIndex, h'.deliveries.trans h.deliveries⟩

structure Requested (w : V4l2World) (i : Nat) : Prop where
  queue : w.queue = List.range i
  mapped : ∀ j < i, j < kBufCount → (w.backend.bufAt j).start = .mapped j ∧
    (j, (w.backend.bufAt j).length) ∈ w.maps

theorem requestBuffer_sameSetup (w : V4l2World) (i : Nat) (answer : BufferAnswer) :
    SameSetup w (w.requestBuffer i answer).2 := by
  unfold requestBuffer
  split_ifs <;> exact ⟨rfl, rfl, rfl, rfl, rfl⟩

theorem Requested.requestBuffer {w t : V4l2World} {i : Nat} {answer : BufferAnswer}
    (h : Requested w i) (hok : w.requestBuffer i answer = (true, t)) :
    Requested t (i + 1) ∧ t.backend.nBufs = w.backend.nBufs := by
  unfold V4l2World.requestBuffer at hok
  split_ifs at hok with hquery hmmap hqbuf
  · simp at hok
  · simp at hok
  · simp at hok
  · obtain rfl : _ = t := congrArg Prod.snd hok
    refine ⟨⟨?_, ?_⟩, rfl⟩
    · simp [setBuf, h.queue, List.range_succ]
    · intro j hj hin
      by_cases heq : j = i
      · subst heq
        simp [setBuf, V4l2OpencvBackend.bufAt_setBuf_self _ _ hin]
      · obtain ⟨hstart, hmaps⟩ := h.mapped j (by omega) hin
        simp [setBuf, V4l2OpencvBackend.bufAt_setBuf_of_ne _ _ heq, hstart, hmaps]

/-- What each round keeps, the loop of `request_buffers` keeps, wherever it stops. -/
theorem requestBuffersFrom_keeps {I : V4l2World → Prop}
    (hround : ∀ w i answer, I w → I (w.requestBuffer i answer).2) (answer : Nat → BufferAnswer)
    (rounds i : Nat) {w : V4l2World} (h : I w) : I (requestBuffersFrom answer i rounds w).2 := by
  induction rounds generalizing i w with
  | zero => exact h
  | succ rounds ih =>
      have hnext := hround w i (answer i) h
      unfold requestBuffersFrom
      split
      · rename_i t heq
        rw [heq] at hnext
        exact hnext
      · rename_i t heq
        rw [heq] at hnext
        exact ih (i + 1) hnext

theorem Requested.requestBuffersFrom (answer : Nat → BufferAnswer) :
    ∀ rounds i w t, Requested w i → requestBuffersFrom answer i rounds w = (true, t) →
      Requested t (i + rounds) ∧ t.backend.nBufs = w.backend.nBufs := by
  intro rounds
  induction rounds with
  | zero =>
      intro i w t h hok
      cases hok
      exact ⟨h, rfl⟩
  | succ rounds ih =>
      intro i w t h hok
      unfold V4l2World.requestBuffersFrom at hok
      split at hok
      · cases hok
      · rename_i u heq
        obtain ⟨hrequested, hnBufs⟩ := h.requestBuffer heq
        obtain ⟨hrest, hnBufs'⟩ := ih (i + 1) u t hrequested hok
        have hsum : i + (rounds + 1) = i + 1 + rounds := by omega
        rw [hsum]
        exact ⟨hrest, hnBufs'.trans hnBufs⟩

def fresh (memory : Nat → Nat → UInt8) : V4l2World := { memory }

theorem requestBuffers_nBufs (w : V4l2World) (answer : StartAnswer) :
    (w.requestBuffers answer).2.backend.nBufs
      = answer.reqbufs.elim w.backend.nBufs staticCastInt := by
  unfold requestBuffers
  cases answer.reqbufs with
  | none => rfl
  | some count =>
      refine requestBuffersFrom_keeps (I := fun u => u.backend.nBufs = staticCastInt count) ?_
        answer.buffer (staticCastInt count).toNat 0 rfl
      intro u i answer h
      unfold requestBuffer
      split_ifs <;> exact h

/-- However `start` ends, `n_bufs_` is what `REQBUFS` has granted. -/
theorem start_nBufs (memory : Nat → Nat → UInt8) (p : Params) (format : ImageFormat)
    (answer : StartAnswer) :
    ((fresh memory).start p format answer).2.backend.nBufs = granted p answer := by
  unfold start granted
  split_ifs
  · rfl
  · cases answer.openFd with
    | none => rfl
    | some fd =>
        cases answer.sFmt with
        | none => rfl
        | some reply =>
            simp only [setFormat]
            split
            all_goals
              rename_i t heq
              obtain rfl : _ = t := congrArg Prod.snd heq
              rw [requestBuffers_nBufs]
              cases answer.reqbufs <;> rfl

structure Setup (p : Params) (format : ImageFormat) (w : V4l2World) : Prop where
  format : w.backend.format = format
  res : w.backend.res = p.res
  needResize : w.backend.needResize = decide (p.res.outputWidth ≠ p.res.captureWidth
    ∨ p.res.outputHeight ≠ p.res.captureHeight)

/-- A `start` that returned true: the `n_bufs_` buffers are mapped and queued. -/
structure Started (p : Params) (format : ImageFormat) (w : V4l2World) : Prop
    extends Setup p format w where
  currentIndex : w.backend.currentIndex = -1
  requested : Requested w w.backend.nBufs.toNat
  deliveries : w.deliveries = []

theorem requestBuffers_sameSetup {w t : V4l2World} {answer : StartAnswer} {ok : Bool}
    (h : w.requestBuffers answer = (ok, t)) : SameSetup w t := by
  obtain rfl : _ = t := congrArg Prod.snd h
  unfold requestBuffers
  cases answer.reqbufs with
  | none => exact SameSetup.refl w
  | some count =>
      exact requestBuffersFrom_keeps (I := SameSetup w)
        (fun u i answer hsame => hsame.trans (requestBuffer_sameSetup u i answer))
        answer.buffer (staticCastInt count).toNat 0 ⟨rfl, rfl, rfl, rfl, rfl⟩

theorem requestBuffers_spec {w t : V4l2World} {answer : StartAnswer} (hqueue : w.queue = [])
    (hok : w.requestBuffers answer = (true, t)) :
    SameSetup w t ∧ Requested t t.backend.nBufs.toNat := by
  refine ⟨requestBuffers_sameSetup hok, ?_⟩
  unfold requestBuffers at hok
  cases hreq : answer.reqbufs with
  | none =>
      rw [hreq] at hok
      cases hok
  | some count =>
      rw [hreq] at hok
      dsimp only at hok
      have hempty :
          Requested { w with backend := { w.backend with nBufs := staticCastInt count } } 0 :=
        ⟨hqueue, by omega⟩
      obtain ⟨hrequested, hnBufs⟩ := hempty.requestBuffersFrom _ _ _ _ _ hok
      rw [hnBufs]
      simpa using hrequested

theorem start_spec {memory : Nat → Nat → UInt8} {p : Params} {format : ImageFormat}
    {answer : StartAnswer} (h : ((fresh memory).start p format answer).1 = true) :
    Started p format ((fresh memory).start p format answer).2 := by
  unfold start at h ⊢
  dsimp only at h ⊢
  split_ifs at h ⊢ with hflip
  cases hopen : answer.openFd with
  | none => simp [hopen] at h
  | some fd =>
      cases hfmt : answer.sFmt with
      | none => simp [hopen, hfmt, setFormat] at h
      | some reply =>
          simp only [hopen, hfmt, setFormat] at h ⊢
          split at h
          · cases h
          · rename_i t heq
            obtain ⟨hsame, hrequested⟩ := requestBuffers_spec rfl heq
            exact ⟨⟨hsame.format, hsame.res, hsame.needResize⟩, hsame.currentIndex, hrequested,
              hsame.deliveries⟩

theorem start_kept (w : V4l2World) (p : Params) (format : ImageFormat) (answer : StartAnswer) :
    (w.start p format answer).2.backend.currentIndex = w.backend.currentIndex ∧
      (w.start p format answer).2.deliveries = w.deliveries := by
  unfold start
  dsimp only
  split_ifs
  · exact ⟨rfl, rfl⟩
  · cases answer.openFd with
    | none => exact ⟨rfl, rfl⟩
    | some fd =>
        cases answer.sFmt with
        | none => exact ⟨rfl, rfl⟩
        | some reply =>
            simp only [setFormat]
            split
            all_goals
              rename_i t heq
              have hsame := requestBuffers_sameSetup heq
              exact ⟨hsame.currentIndex, hsame.deliveries⟩

theorem start_currentIndex (w : V4l2World) (p : Params) (format : ImageFormat)
    (answer : StartAnswer) :
    (w.start p format answer).2.backend.currentIndex = w.backend.currentIndex :=
  (start_kept w p format answer).1

/-! ### The queue and the recorded index -/

/-- The queue has no duplicates, the recorded index is not in it, and both are buffers that
`n_bufs_` counts; the table maps those it has an entry for. -/
structure Owned (w : V4l2World) : Prop where
  nodup : w.queue.Nodup
  apart : ∀ i, w.releaseIndex = some i → i ∉ w.queue
  bounded : ∀ i, i ∈ w.queue ∨ w.releaseIndex = some i → i < w.backend.nBufs.toNat
  mapped : ∀ i < w.backend.nBufs.toNat, i < kBufCount →
    (w.backend.bufAt i).start = .mapped i ∧ (i, (w.backend.bufAt i).length) ∈ w.maps

theorem Started.owned {p : Params} {format : ImageFormat} {w : V4l2World} (h : Started p format w) :
    Owned w where
  nodup := by
    rw [h.requested.queue]
    exact List.nodup_range
  apart := by
    intro i hi
    simp [releaseIndex, h.currentIndex] at hi
  bounded := by
    rintro i (hi | hi)
    · rw [h.requested.queue] at hi
      exact List.mem_range.mp hi
    · simp [releaseIndex, h.currentIndex] at hi
  mapped := h.requested.mapped

theorem Owned.move {w t : V4l2World} {m : V4l2Move} (h : Owned w) (hm : w.move m = some t) :
    Owned t := by
  cases m with
  | fill i content =>
      simp only [V4l2World.move] at hm
      split_ifs at hm
      obtain rfl := Option.some.inj hm
      exact ⟨h.nodup, h.apart, h.bounded, h.mapped⟩
  | timeshare file =>
      obtain rfl := Option.some.inj hm
      exact ⟨h.nodup, h.apart, h.bounded, h.mapped⟩

structure SameTable (w t : V4l2World) : Prop where
  bufs : t.backend.bufs = w.backend.bufs
  nBufs : t.backend.nBufs = w.backend.nBufs
  maps : t.maps = w.maps
  memory : t.memory = w.memory
  format : t.backend.format = w.backend.format
  res : t.backend.res = w.backend.res
  needResize : t.backend.needResize = w.backend.needResize

theorem SameTable.bufAt {w t : V4l2World} (h : SameTable w t) (i : Nat) :
    t.backend.bufAt i = w.backend.bufAt i := by
  simp only [V4l2OpencvBackend.bufAt, h.bufs]

def converted (cv : OpenCv) (b : V4l2OpencvBackend) (memory : Nat → UInt8) : Mat :=
  let uyvy := b.uyvy.load memory
  if b.needResize then cv.resize (cv.cvtColor uyvy) b.res.outputWidth b.res.outputHeight
  else cv.cvtColor uyvy

/-- The conversion touches nothing but the two matrices. -/
theorem convert_eq (cv : OpenCv) (w : V4l2World) (src : MapStart) : ∃ conv, w.convert cv src
    = { w with backend := { w.backend with
          conv, bgr := converted cv w.backend (w.memoryAt src) } } := by
  unfold convert converted
  dsimp only
  split_ifs
  · exact ⟨_, rfl⟩
  · exact ⟨_, rfl⟩

/-- **What one `grab` can do.** It takes nothing, or the buffer of one delivery out of the queue. -/
inductive Dequeued (cv : OpenCv) (w : V4l2World) (frame : Frame V4l2Ptr) (t : V4l2World) :
    Prop where
  | nothing (hframe : frame = {}) (hworld : t = w)
  | buffer (d : Delivery) (hqueued : d.index ∈ w.queue)
      (hdata : d.data = (List.range d.bytesused).map (w.memory d.index)) (hsame : SameTable w t)
      (hqueue : t.queue = w.queue.erase d.index) (hcurrent : t.backend.currentIndex = d.index)
      (hdeliveries : t.deliveries = w.deliveries ++ [d])
      (hjpeg : w.backend.format = .kJpeg →
        frame = { data := (w.backend.bufAt d.index).start.ptr, size := d.bytesused })
      (hraw : w.backend.format = .kRawBgr8 → (w.backend.bufAt d.index).start ≠ .stray ∧
        t.backend.bgr = converted cv w.backend (w.memoryAt (w.backend.bufAt d.index).start) ∧
        frame = { data := some .bgr, size := t.backend.bgr.total * t.backend.bgr.elemSize })

theorem mem_queue_of_grab {cv : OpenCv} {w t : V4l2World} {index : Nat} {sequence : UInt32}
    {bytesused : Nat} {now : UInt64} {frame : Frame V4l2Ptr}
    (h : w.grab cv (.buffer index sequence bytesused now) = some (frame, t)) :
    index ∈ w.queue := by
  by_contra hnot
  simp [grab, hnot] at h

theorem grab_spec {cv : OpenCv} {w t : V4l2World} {answer : DqbufAnswer} {frame : Frame V4l2Ptr}
    (h : w.grab cv answer = some (frame, t)) : Dequeued cv w frame t := by
  cases answer with
  | selectFailed | dqbufFailed =>
      cases h
      exact .nothing rfl rfl
  | buffer index sequence bytesused now =>
      have hqueued := mem_queue_of_grab h
      have hsetup : (w.dequeue index sequence bytesused now).backend.format
          = w.backend.format := rfl
      simp only [grab, if_pos hqueued, hsetup] at h
      cases hformat : w.backend.format with
      | kJpeg =>
          rw [hformat] at h
          cases h
          refine .buffer ⟨index, sequence, bytesused, _⟩ hqueued rfl
            ⟨rfl, rfl, rfl, rfl, rfl, rfl, rfl⟩ rfl rfl rfl (fun _ => rfl) ?_
          intro hraw
          simp [hformat] at hraw
      | kRawBgr8 =>
          obtain ⟨conv, hconvert⟩ := convert_eq cv (w.dequeue index sequence bytesused now)
            ((w.dequeue index sequence bytesused now).backend.bufAt index).start
          rw [hformat] at h
          dsimp only at h
          split_ifs at h with hstray
          rw [hconvert] at h
          cases h
          refine .buffer ⟨index, sequence, bytesused, _⟩ hqueued rfl
            ⟨rfl, rfl, rfl, rfl, rfl, rfl, rfl⟩ rfl rfl rfl ?_ fun _ => ⟨hstray, rfl, rfl⟩
          intro hjpeg
          simp [hformat] at hjpeg

theorem grab_eq {cv : OpenCv} {w t : V4l2World} {index : Nat} {sequence : UInt32}
    {bytesused : Nat} {now : UInt64} {frame : Frame V4l2Ptr}
    (h : w.grab cv (.buffer index sequence bytesused now) = some (frame, t)) :
    index ∈ w.queue ∧ ∃ conv bgr, t = { w.dequeue index sequence bytesused now with
      backend := { (w.dequeue index sequence bytesused now).backend with conv, bgr } } := by
  have hqueued := mem_queue_of_grab h
  refine ⟨hqueued, ?_⟩
  simp only [grab, if_pos hqueued] at h
  split at h
  · cases h
    exact ⟨_, _, rfl⟩
  · obtain ⟨conv, hconvert⟩ := convert_eq cv (w.dequeue index sequence bytesused now)
      ((w.dequeue index sequence bytesused now).backend.bufAt index).start
    split_ifs at h
    rw [hconvert] at h
    cases h
    exact ⟨_, _, rfl⟩

theorem releaseIndex_of_current {w : V4l2World} {i : Nat} (h : w.backend.currentIndex = i) :
    w.releaseIndex = some i := by
  simp [releaseIndex, h]

theorem Owned.grab {cv : OpenCv} {w t : V4l2World} {answer : DqbufAnswer} {frame : Frame V4l2Ptr}
    (h : Owned w) (hgrab : w.grab cv answer = some (frame, t)) : Owned t := by
  cases grab_spec hgrab with
  | nothing _ hworld => exact hworld ▸ h
  | buffer d hqueued _ hsame hqueue hcurrent _ _ _ =>
      refine ⟨?_, ?_, ?_, ?_⟩
      · rw [hqueue]
        exact h.nodup.erase _
      · intro i hi
        rw [releaseIndex_of_current hcurrent] at hi
        obtain rfl := Option.some.inj hi
        rw [hqueue]
        exact h.nodup.not_mem_erase
      · rw [hsame.nBufs]
        rintro i (hi | hi)
        · rw [hqueue] at hi
          exact h.bounded i (.inl (List.mem_of_mem_erase hi))
        · rw [releaseIndex_of_current hcurrent] at hi
          obtain rfl := Option.some.inj hi
          exact h.bounded _ (.inl hqueued)
      · rw [hsame.nBufs, hsame.maps]
        intro i hi hin
        rw [hsame.bufAt]
        exact h.mapped i hi hin

/-- The entry of a buffer is never null: it is mapped, or it is no entry of the table. -/
theorem Owned.isSome_ptr {w : V4l2World} (h : Owned w) {i : Nat}
    (hi : i ∈ w.queue ∨ w.releaseIndex = some i) :
    (w.backend.bufAt i).start.ptr.isSome = true := by
  by_cases hin : i < kBufCount
  · rw [(h.mapped i (h.bounded i hi) hin).1]
    rfl
  · rw [V4l2OpencvBackend.bufAt_of_le _ (Nat.le_of_not_lt hin)]
    rfl

/-- **What one `release` can do.** It does nothing, or it hands the recorded index to `QBUF`. -/
inductive Released (w : V4l2World) (qbuf : Bool) (t : V4l2World) : Prop where
  | nothing (hindex : w.releaseIndex = none) (hworld : t = w)
  | queued (i : Nat) (hindex : w.releaseIndex = some i) (hsame : SameTable w t)
      (hqueue : t.queue = if qbuf then w.queue ++ [i] else w.queue)
      (hcurrent : t.backend.currentIndex = -1) (hdeliveries : t.deliveries = w.deliveries)

theorem release_spec (w : V4l2World) (qbuf : Bool) : Released w qbuf (w.release qbuf) := by
  cases hindex : w.releaseIndex with
  | none => exact .nothing hindex (by simp [release, hindex])
  | some i =>
      have hrelease : w.release qbuf
          = { w with backend := { w.backend with currentIndex := -1 }
                     queue := if qbuf then w.queue ++ [i] else w.queue
                     calls := w.calls ++ [.qbuf i] } := by
        simp [release, hindex]
      rw [hrelease]
      exact .queued i hindex ⟨rfl, rfl, rfl, rfl, rfl, rfl, rfl⟩ rfl rfl rfl

theorem Owned.release {w : V4l2World} (h : Owned w) (qbuf : Bool) : Owned (w.release qbuf) := by
  cases release_spec w qbuf with
  | nothing _ hworld => exact hworld.symm ▸ h
  | queued i hindex hsame hqueue hcurrent _ =>
      refine ⟨?_, ?_, ?_, ?_⟩
      · rw [hqueue]
        split_ifs
        · refine List.nodup_append.mpr ⟨h.nodup, List.pairwise_singleton _ _, ?_⟩
          intro a ha b hb
          rw [List.mem_singleton.mp hb]
          rintro rfl
          exact h.apart _ hindex ha
        · exact h.nodup
      · intro j hj
        simp [releaseIndex, hcurrent] at hj
      · rw [hsame.nBufs]
        rintro j (hj | hj)
        · rw [hqueue] at hj
          split_ifs at hj
          · rcases List.mem_append.mp hj with hj | hj
            · exact h.bounded j (.inl hj)
            · rw [List.mem_singleton.mp hj]
              exact h.bounded i (.inr hindex)
          · exact h.bounded j (.inl hj)
        · simp [releaseIndex, hcurrent] at hj
      · rw [hsame.nBufs, hsame.maps]
        intro i hi hin
        rw [hsame.bufAt]
        exact h.mapped i hi hin

/-! ### Stable views -/

structure Untouched (w u : V4l2World) : Prop where
  backend : u.backend = w.backend
  queue : u.queue = w.queue
  maps : u.maps = w.maps
  deliveries : u.deliveries = w.deliveries
  memory : ∀ i, i ∉ w.queue → u.memory i = w.memory i

theorem untouched_move {w t : V4l2World} {m : V4l2Move} (h : w.move m = some t) :
    Untouched w t := by
  cases m with
  | fill i content =>
      simp only [V4l2World.move] at h
      split_ifs at h with hqueued
      obtain rfl := Option.some.inj h
      refine ⟨rfl, rfl, rfl, rfl, ?_⟩
      intro j hj
      have hne : j ≠ i := fun heq => hj (heq ▸ hqueued)
      simp [hne]
  | timeshare file =>
      obtain rfl := Option.some.inj h
      exact ⟨rfl, rfl, rfl, rfl, fun _ _ => rfl⟩

theorem untouched_moves {w u : V4l2World} (h : Runs.Reachable V4l2World.move w u) :
    Untouched w u := by
  refine h.invariant (I := Untouched w) ?_ ⟨rfl, rfl, rfl, rfl, fun _ _ => rfl⟩
  intro x m y hx hm
  have hy := untouched_move hm
  refine ⟨hy.backend.trans hx.backend, hy.queue.trans hx.queue, hy.maps.trans hx.maps,
    hy.deliveries.trans hx.deliveries, ?_⟩
  intro i hi
  rw [hy.memory i (hx.queue ▸ hi), hx.memory i hi]

/-- The table has an entry for every buffer. -/
structure Housed (w : V4l2World) : Prop extends Owned w where
  fits : w.backend.nBufs ≤ kBufCount

theorem housed_of_start {memory : Nat → Nat → UInt8} {p : Params} {format : ImageFormat}
    {answer : StartAnswer} (hgranted : granted p answer ≤ kBufCount)
    (hstart : ((fresh memory).start p format answer).1 = true) :
    Housed ((fresh memory).start p format answer).2 where
  toOwned := (start_spec hstart).owned
  fits := by rwa [start_nBufs]

theorem Housed.lt {w : V4l2World} (h : Housed w) {i : Nat}
    (hi : i ∈ w.queue ∨ w.releaseIndex = some i) : i < kBufCount := by
  have hlt := h.bounded i hi
  have hfits := h.fits
  omega

theorem Housed.start {w : V4l2World} (h : Housed w) {i : Nat}
    (hi : i ∈ w.queue ∨ w.releaseIndex = some i) : (w.backend.bufAt i).start = .mapped i :=
  (h.mapped i (h.bounded i hi) (h.lt hi)).1

theorem Housed.grab {cv : OpenCv} {w t : V4l2World} {answer : DqbufAnswer}
    {frame : Frame V4l2Ptr} (h : Housed w) (hgrab : w.grab cv answer = some (frame, t)) :
    Housed t := by
  refine ⟨h.toOwned.grab hgrab, ?_⟩
  cases grab_spec hgrab with
  | nothing _ hworld => exact hworld ▸ h.fits
  | buffer _ _ _ hsame _ _ _ _ _ => exact hsame.nBufs ▸ h.fits

theorem Housed.release {w : V4l2World} (h : Housed w) (qbuf : Bool) :
    Housed (w.release qbuf) := by
  refine ⟨h.toOwned.release qbuf, ?_⟩
  cases release_spec w qbuf with
  | nothing _ hworld => exact hworld.symm ▸ h.fits
  | queued _ _ hsame _ _ _ => exact hsame.nBufs ▸ h.fits

theorem Housed.jpeg_ptr {cv : OpenCv} {w t : V4l2World} {answer : DqbufAnswer}
    {frame : Frame V4l2Ptr} (h : Housed w) (hjpeg : w.backend.format = .kJpeg)
    (hgrab : w.grab cv answer = some (frame, t)) (hvalid : frame.valid = true) :
    ∃ i, frame.data = some (.mapped i) ∧ t.releaseIndex = some i := by
  cases grab_spec hgrab with
  | nothing hframe _ => simp [hframe, Frame.valid] at hvalid
  | buffer d hqueued _ _ _ hcurrent _ hframe _ =>
      refine ⟨d.index, ?_, releaseIndex_of_current hcurrent⟩
      rw [hframe hjpeg, h.start (.inl hqueued)]
      rfl

end V4l2World

/-- **The backend keeps the contract of `Frame`** where the table has an entry for every buffer. -/
theorem v4l2Env_stableViews (cv : OpenCv) : (v4l2Env cv).StableViews V4l2World.Housed where
  move := fun _ _ _ h hm => ⟨h.toOwned.move hm, (V4l2World.untouched_move hm).backend ▸ h.fits⟩
  grab := fun _ _ _ _ h hgrab => h.grab hgrab
  release := by
    intro w qbuf t h hrelease
    obtain rfl := Option.some.inj hrelease
    exact h.release qbuf
  stable := by
    intro w answer frame t h hgrab hvalid u hu
    have huntouched := V4l2World.untouched_moves hu
    have hhoused : t.Housed := h.grab hgrab
    cases hformat : w.backend.format with
    | kJpeg =>
        obtain ⟨i, hdata, hindex⟩ := h.jpeg_ptr hformat hgrab hvalid
        have hmemory := huntouched.memory i (hhoused.apart i hindex)
        simp [CameraBackend.view, CameraBackend.bytes, hdata, v4l2Env, V4l2World.byteAt, hmemory]
    | kRawBgr8 =>
        cases V4l2World.grab_spec hgrab with
        | nothing hframe _ => simp [hframe, Frame.valid] at hvalid
        | buffer d _ _ _ _ _ _ _ hraw =>
            have hdata : frame.data = some .bgr := by rw [(hraw hformat).2.2]
            simp [CameraBackend.view, CameraBackend.bytes, hdata, v4l2Env, V4l2World.byteAt,
              huntouched.backend]

end EconRos2Driver
