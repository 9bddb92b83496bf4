import EconRos2Driver.Proof.BufferOwnership

/-!
# A requeue that fails

`release` clears `current_index_` whether or not `QBUF` took the buffer. When no frame is empty the
node releases every buffer it is given, so this is the only way to forget one: the buffers that are
neither queued nor recorded are as many as the requeues that have failed.
-/

namespace EconRos2Driver

open V4l2World

variable {cv : OpenCv} {p : Params} {s t : System V4l2World V4l2Ptr} {failures : Nat}

def Event.requeueFailed : Event V4l2Move DqbufAnswer Bool → Bool
  | .release qbuf => !qbuf
  | _ => false

def NoEmptyFrame (p : Params) (deliveries : List Delivery) : Prop :=
  p.compressed = false ∨ ∀ d ∈ deliveries, 0 < d.bytesused

structure Accounted (p : Params) (s : System V4l2World V4l2Ptr) (failures : Nat) : Prop where
  holding : Holding p s
  emptyHanded : s.node.pc = .head → s.env.releaseIndex = none
  count : s.env.queue.length + s.env.releaseIndex.toList.length + failures
    = s.env.backend.nBufs.toNat

theorem accounted_init (stamper : MmapStamper) (boxFd : Nat) {w : V4l2World}
    (h : Started p (imageFormat p) w) : Accounted p ⟨Node.init p stamper boxFd, w⟩ 0 where
  holding := holding_init stamper boxFd h
  emptyHanded := by
    intro _
    simp [releaseIndex, h.currentIndex]
  count := by simp [releaseIndex, h.currentIndex, h.requested.queue]

theorem NoEmptyFrame.of_subset {deliveries deliveries' : List Delivery}
    (h : NoEmptyFrame p deliveries') (hsub : deliveries ⊆ deliveries') :
    NoEmptyFrame p deliveries :=
  h.imp_right fun hpos d hd => hpos d (hsub hd)

theorem deliveries_subset {e : Event V4l2Move DqbufAnswer Bool}
    (hturn : System.Turn (v4l2Env cv) s e t) : s.env.deliveries ⊆ t.env.deliveries := by
  obtain ⟨node, env⟩ := t
  cases hturn with
  | env move hmove hnode =>
      rw [(untouched_move hmove).deliveries]
      exact List.Subset.refl _
  | grab answer frame hpc hgrab hnode =>
      cases grab_spec hgrab with
      | nothing _ hworld =>
          rw [hworld]
          exact List.Subset.refl _
      | buffer d _ _ _ _ _ hdeliveries _ _ =>
          rw [hdeliveries]
          exact List.subset_append_left _ _
  | release frame qbuf he hpc hrelease hnode =>
      obtain rfl : s.env.release qbuf = env := Option.some.inj hrelease
      cases release_spec s.env qbuf with
      | nothing _ hworld =>
          rw [hworld]
          exact List.Subset.refl _
      | queued _ _ _ _ _ hdeliveries =>
          rw [hdeliveries]
          exact List.Subset.refl _
  | count frame he hpc henv hnode =>
      obtain rfl : env = s.env := henv
      exact List.Subset.refl _
  | inside henv hinside =>
      obtain rfl : env = s.env := henv
      exact List.Subset.refl _

theorem Accounted.of_env (h : Accounted p s failures) {node : Node V4l2World V4l2Ptr}
    (hholding : Holding p ⟨node, s.env⟩) (hpc : node.pc = .head → s.node.pc = .head) :
    Accounted p ⟨node, s.env⟩ failures :=
  ⟨hholding, fun hhead => h.emptyHanded (hpc hhead), h.count⟩

theorem Accounted.grab (h : Accounted p s failures) (hres : p.res.Positive) {answer : DqbufAnswer}
    {frame : Frame V4l2Ptr} {w : V4l2World} (hpc : s.node.pc = .head)
    (hgrab : s.env.grab cv answer = some (frame, w)) (bytes : List UInt8)
    (hnonempty : NoEmptyFrame p w.deliveries) :
    Accounted p ⟨s.node.grabbed frame bytes, w⟩ failures := by
  have hholding := h.holding.grab hgrab bytes
  have hnone := h.emptyHanded hpc
  have hcount := h.count
  cases grab_spec hgrab with
  | nothing _ hworld =>
      subst hworld
      exact ⟨hholding, fun _ => hnone, hcount⟩
  | buffer d hqueued _ hsame hqueue hcurrent hdeliveries hjpeg hraw =>
      have hvalid : frame.valid = true := by
        rw [h.holding.valid_iff hres hqueued hjpeg hraw]
        rcases hnonempty with hformat | hpos
        · simp [hformat]
        · have hd := hpos d (by simp [hdeliveries])
          simp [Nat.pos_iff_ne_zero.mp hd]
      have hlength := List.length_erase_of_mem hqueued
      have hpos := List.length_pos_of_mem hqueued
      refine ⟨hholding, ?_, ?_⟩
      · intro hhead
        simp [Node.grabbed, hvalid] at hhead
      · rw [hnone] at hcount
        rw [hsame.nBufs, hqueue, hlength, releaseIndex_of_current hcurrent]
        simp only [Option.toList_none, List.length_nil, Option.toList_some,
          List.length_singleton] at hcount ⊢
        omega

theorem Accounted.release (h : Accounted p s failures) {frame : Frame V4l2Ptr}
    (hpc : s.node.pc = .releasing frame) (qbuf : Bool)
    (hholding : Holding p ⟨s.node.released, s.env.release qbuf⟩) :
    Accounted p ⟨s.node.released, s.env.release qbuf⟩ (failures + if qbuf then 0 else 1) := by
  obtain ⟨i, hindex, -⟩ := h.holding.held frame (by rw [hpc]; rfl)
  have hcount := h.count
  rw [hindex] at hcount
  cases release_spec s.env qbuf with
  | nothing hnone _ =>
      rw [hnone] at hindex
      cases hindex
  | queued j _ hsame hqueue hcurrent _ =>
      have hnone : (s.env.release qbuf).releaseIndex = none := by simp [releaseIndex, hcurrent]
      refine ⟨hholding, fun _ => hnone, ?_⟩
      rw [hnone, hqueue, hsame.nBufs]
      simp only [Option.toList_some, Option.toList_none, List.length_singleton,
        List.length_nil] at hcount ⊢
      cases qbuf with
      | true =>
          simp only [if_true, List.length_append, List.length_singleton]
          omega
      | false =>
          simp only [Bool.false_eq_true, if_false]
          omega

theorem Accounted.step (h : Accounted p s failures) (hres : p.res.Positive)
    {e : Event V4l2Move DqbufAnswer Bool} (hstep : System.Step (v4l2Env cv) s e t)
    (hnonempty : NoEmptyFrame p t.env.deliveries) :
    Accounted p t (failures + if e.requeueFailed then 1 else 0) := by
  have hturn := hstep.turn
  have hholding := h.holding.step hturn
  by_cases hrelease : ∃ qbuf, e = .release qbuf
  · obtain ⟨qbuf, rfl⟩ := hrelease
    cases hstep with
    | release hpc hqbuf =>
        obtain rfl := Option.some.inj hqbuf
        have hreleased := h.release hpc qbuf hholding
        cases qbuf <;> exact hreleased
  · have hfailed : e.requeueFailed = false := by
      cases e with
      | release qbuf => exact absurd ⟨qbuf, rfl⟩ hrelease
      | _ => rfl
    rw [hfailed, if_neg Bool.false_ne_true, Nat.add_zero]
    obtain ⟨node, env⟩ := t
    cases hturn with
    | env move hmove hnode =>
        obtain rfl : node = s.node := hnode
        have huntouched := untouched_move hmove
        refine ⟨hholding, ?_, ?_⟩
        · rw [releaseIndex, huntouched.backend]
          exact h.emptyHanded
        · rw [huntouched.queue, releaseIndex, huntouched.backend]
          exact h.count
    | grab answer frame hpc hgrab hnode =>
        dsimp only at hgrab hnode
        subst hnode
        exact h.grab hres hpc hgrab _ hnonempty
    | release frame qbuf he _ _ _ => exact absurd ⟨qbuf, he⟩ hrelease
    | count frame _ hpc henv hnode =>
        obtain rfl : env = s.env := henv
        obtain rfl : node = _ := hnode
        exact h.of_env hholding fun hhead => by simp [Node.counted] at hhead
    | inside henv hinside =>
        obtain rfl : env = s.env := henv
        exact h.of_env hholding fun hhead => absurd hhead hinside.ne_head

def failedRequeues (events : List (Event V4l2Move DqbufAnswer Bool)) : Nat :=
  events.countP Event.requeueFailed

theorem failedRequeues_concat (events : List (Event V4l2Move DqbufAnswer Bool))
    (e : Event V4l2Move DqbufAnswer Bool) :
    failedRequeues (events ++ [e]) = failedRequeues events + if e.requeueFailed then 1 else 0 := by
  rw [failedRequeues, List.countP_append, List.countP_singleton]
  rfl

theorem failedRequeues_eq_zero_iff {events : List (Event V4l2Move DqbufAnswer Bool)} :
    failedRequeues events = 0 ↔ .release false ∉ events := by
  rw [failedRequeues, List.countP_eq_zero]
  constructor
  · intro h hmem
    exact h _ hmem rfl
  · intro h e he hfailed
    cases e with
    | release qbuf =>
        cases qbuf with
        | true => cases hfailed
        | false => exact h he
    | _ => cases hfailed

theorem accounted_run {stamper : MmapStamper} {boxFd : Nat} {w : V4l2World}
    (hres : p.res.Positive) (hstarted : Started p (imageFormat p) w)
    {events : List (Event V4l2Move DqbufAnswer Bool)}
    (h : Runs.run (System.step (v4l2Env cv)) ⟨Node.init p stamper boxFd, w⟩ events = some s)
    (hnonempty : NoEmptyFrame p s.env.deliveries) : Accounted p s (failedRequeues events) := by
  have hstep : ∀ s past e t,
      (NoEmptyFrame p s.env.deliveries → Accounted p s (failedRequeues past)) →
      System.step (v4l2Env cv) s e = some t → NoEmptyFrame p t.env.deliveries →
        Accounted p t (failedRequeues (past ++ [e])) := by
    intro s past e t hs hstep hnonempty
    have hstep := System.Step.of_step hstep
    rw [failedRequeues_concat]
    exact (hs (hnonempty.of_subset (deliveries_subset hstep.turn))).step hres hstep hnonempty
  have hinit : NoEmptyFrame p w.deliveries →
      Accounted p ⟨Node.init p stamper boxFd, w⟩ (failedRequeues []) := by
    intro _
    exact accounted_init stamper boxFd hstarted
  exact Runs.invariant_of_history
    (I := fun s past => NoEmptyFrame p s.env.deliveries → Accounted p s (failedRequeues past))
    hstep hinit h hnonempty

/-- **What a failed requeue forgets.** When every delivered frame has bytes, each of the `n_bufs_`
buffers is queued or recorded exactly as long as no `QBUF` of a `release` has failed. -/
theorem queued_or_recorded_iff (cv : OpenCv) (node : Overrides) (stamper : MmapStamper)
    (boxFd : Nat) (memory : Nat → Nat → UInt8) (answer : StartAnswer)
    (hstart :
      ((fresh memory).start (loadParams node) (imageFormat (loadParams node)) answer).1 = true)
    (events : List (Event V4l2Move DqbufAnswer Bool))
    (h : Runs.run (System.step (v4l2Env cv))
      ⟨Node.init (loadParams node) stamper boxFd,
        ((fresh memory).start (loadParams node) (imageFormat (loadParams node)) answer).2⟩ events
      = some s)
    (hnonempty : NoEmptyFrame (loadParams node) s.env.deliveries) :
    (∀ i < s.env.backend.nBufs.toNat, i ∈ s.env.queue ∨ s.env.releaseIndex = some i) ↔
      .release false ∉ events := by
  have haccounted := accounted_run (loadParams_res_positive node) (start_spec hstart) h hnonempty
  have hcount := haccounted.count
  have howned := haccounted.holding.owned
  have hnodup : (s.env.queue ++ s.env.releaseIndex.toList).Nodup := by
    refine List.nodup_append.mpr ⟨howned.nodup, by cases s.env.releaseIndex <;> simp, ?_⟩
    intro i hi j hj
    rintro rfl
    exact howned.apart i (Option.mem_toList.mp hj) hi
  have hlt : ∀ i ∈ s.env.queue ++ s.env.releaseIndex.toList, i < s.env.backend.nBufs.toNat := by
    intro i hi
    rcases List.mem_append.mp hi with hi | hi
    · exact howned.bounded i (.inl hi)
    · exact howned.bounded i (.inr (Option.mem_toList.mp hi))
  rw [← failedRequeues_eq_zero_iff]
  calc (∀ i < s.env.backend.nBufs.toNat, i ∈ s.env.queue ∨ s.env.releaseIndex = some i)
      ↔ ∀ i < s.env.backend.nBufs.toNat, i ∈ s.env.queue ++ s.env.releaseIndex.toList := by
        simp only [List.mem_append, Option.mem_toList]
    _ ↔ (s.env.queue ++ s.env.releaseIndex.toList).length = s.env.backend.nBufs.toNat :=
        all_mem_iff_length hnodup hlt
    _ ↔ failedRequeues events = 0 := by
        rw [List.length_append]
        omega

/-- A JPEG frame in buffer 2 goes through; its buffer is queued again, and the next wait fails. -/
def requeuedRun : List (Event V4l2Move DqbufAnswer Bool) :=
  [.grab (.buffer 2 0 3 5), .count, .tryOpen ⟨none, none⟩, .readLow 7, .copy, .logCbk 9, .publish,
   .logPub 11, .release true, .grab .selectFailed]

theorem queued_or_recorded_requeuedRun : ∃ s,
    Runs.run (System.step (v4l2Env noShapes)) ⟨Node.init jpegParams, startedWorld⟩ requeuedRun
        = some s ∧
      s.env.queue = [0, 1, 3, 2] ∧
      ((∀ i < s.env.backend.nBufs.toNat, i ∈ s.env.queue ∨ s.env.releaseIndex = some i) ↔
        .release false ∉ requeuedRun) := by
  refine ⟨_, rfl, rfl, ?_⟩
  exact queued_or_recorded_iff noShapes { compressed := some true } {} 3 (fun _ _ => 7) fullStart
    rfl requeuedRun rfl (.inr (by decide))

/-- The same frame with a `QBUF` that fails: buffer 2 is in neither place. -/
theorem forgotten_buffer_of_failed_requeue : ∃ s,
    Runs.run (System.step (v4l2Env noShapes)) ⟨Node.init jpegParams, startedWorld⟩
        [.grab (.buffer 2 0 3 5), .count, .tryOpen ⟨none, none⟩, .readLow 7, .copy, .logCbk 9,
         .publish, .logPub 11, .release false] = some s ∧
      s.env.backend.nBufs = 4 ∧ (∀ d ∈ s.env.deliveries, 0 < d.bytesused) ∧
      s.env.queue = [0, 1, 3] ∧ s.env.releaseIndex = none ∧
      ¬ ∀ i < s.env.backend.nBufs.toNat, i ∈ s.env.queue ∨ s.env.releaseIndex = some i := by
  refine ⟨_, rfl, rfl, by decide, rfl, rfl, ?_⟩
  intro hall
  have hmem : 2 ∈ [0, 1, 3] ∨ (none : Option Nat) = some 2 := hall 2 (by decide)
  simp at hmem

end EconRos2Driver
