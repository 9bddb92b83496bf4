import EconRos2Driver.Proof.DropTotals

/-!
# The same camera on the two backends

A camera history is what the kernel hands to user space: buffers with increasing sequence numbers,
where a number left out is a frame lost below. The V4L2 backend counts by these numbers; the
GStreamer backend counts the buffers its source pushes, so a frame lost below it is never counted.
Frame by frame the two totals agree exactly as long as the history has no gap.
-/

namespace EconRos2Driver

open GapCount LossyChannel V4l2World

/-! ### Frames received in step with the source -/

section Gst

variable {content : Nat → Nat → UInt8} {s t : System GstWorld Nat}

/-- The source pushes a buffer only after the loop has accounted for all before it. -/
def Lockstep (s : System GstWorld Nat) (e : Event GstMove PullAnswer Unit) : Prop :=
  match e with
  | .env .pushCount => accounted s = s.env.counted
  | _ => True

instance (s : System GstWorld Nat) : ∀ e, Decidable (Lockstep s e)
  | .env .pushCount => inferInstanceAs (Decidable (accounted s = s.env.counted))
  | .env (.pushTime _) | .env .pushOn | .env (.drop _) | .env .arrive | .env (.timeshare _)
  | .exit | .grab _ | .count | .tryOpen _ | .readLow _ | .copy | .logCbk _ | .publish | .logPub _
  | .release _ => inferInstanceAs (Decidable True)

structure InStep (s : System GstWorld Nat) : Prop where
  tracks : Tracks s
  ordered : Ordered s.env.channel
  lead : s.env.counted ≤ accounted s + 1

theorem counted_move {w u : GstWorld} {m : GstMove} (h : w.move m = some u) :
    u.counted = w.counted ∨ m = .pushCount ∧ u.counted = w.counted + 1 := by
  cases m with
  | pushTime now | pushOn =>
      cases hpad : w.srcPad <;> simp only [GstWorld.move, hpad] at h <;> cases h
      exact .inl rfl
  | pushCount =>
      cases hpad : w.srcPad <;> simp only [GstWorld.move, hpad] at h <;> cases h
      exact .inr ⟨rfl, rfl⟩
  | drop position =>
      obtain ⟨k, -, rfl⟩ := Option.map_eq_some_iff.mp h
      exact .inl rfl
  | arrive =>
      cases hpipe : w.pipe <;> simp only [GstWorld.move, hpipe] at h <;> cases h
      exact .inl rfl
  | timeshare file =>
      cases h
      exact .inl rfl

theorem counted_step {e : Event GstMove PullAnswer Unit} (h : System.Step (gstEnv content) s e t) :
    t.env.counted = s.env.counted ∨
      e = .env .pushCount ∧ t.env.counted = s.env.counted + 1 := by
  cases h with
  | env hmove =>
      rcases counted_move hmove with hsame | ⟨rfl, hnext⟩
      · exact .inl hsame
      · exact .inr ⟨rfl, hnext⟩
  | grab _ hgrab =>
      apply Or.inl
      cases GstWorld.grab_spec hgrab <;> exact (‹GstWorld.SamePush _ _›).counted
  | release _ hrelease =>
      apply Or.inl
      rw [← Option.some.inj hrelease]
      exact s.env.release_spec.1.counted
  | exit | count | tryOpen | readLow | copy | logCbk | publish | logPub => exact .inl rfl

theorem inStep_init (p : Params) (stamper : MmapStamper) (boxFd : Nat) :
    InStep ⟨Node.init p stamper boxFd, {}⟩ :=
  ⟨tracks_init p stamper boxFd, ordered_empty, Nat.zero_le _⟩

theorem InStep.step (h : InStep s) {e : Event GstMove PullAnswer Unit} (hlock : Lockstep s e)
    (hstep : System.Step (gstEnv content) s e t) : InStep t := by
  have hordered : Ordered t.env.channel := h.ordered.run (channel_step hstep.turn)
  refine ⟨h.tracks.step hstep.turn, hordered, ?_⟩
  have hgrows : accounted s ≤ accounted t := by
    cases accounting h.tracks hstep.turn with
    | count ds k _ _ hbefore hafter _ _ => omega
    | move _ haccounted _ => exact haccounted.ge
  rcases counted_step hstep with hsame | ⟨rfl, hnext⟩
  · have hlead := h.lead
    omega
  · have hlock : accounted s = s.env.counted := hlock
    omega

/-- When the loop samples the counter, everything pushed has been handed over. -/
theorem InStep.samplesIdle (h : InStep s) {e : Event GstMove PullAnswer Unit}
    (hstep : System.Step (gstEnv content) s e t) : SamplesIdle s e := by
  by_cases he : e = .count
  · subst he
    cases hstep with
    | count hpc =>
        obtain ⟨ds, k, hdelivered, hbefore⟩ := accounted_of_grabbed h.tracks hpc
        have hconserved : s.env.delivered.length + s.env.inflight.length + s.env.lost.length
            = s.env.counted := h.ordered.length_eq
        have hlength : s.env.delivered.length = ds.length + 1 := by simp [hdelivered]
        have hlead := h.lead
        apply List.eq_nil_of_length_eq_zero
        omega
  · cases e with
    | count => exact absurd rfl he
    | env | exit | grab | tryOpen | readLow | copy | logCbk | publish | logPub | release => trivial

theorem totalDrops_eq_zero_of_lockstep {p : Params} {stamper : MmapStamper} {boxFd : Nat}
    {events : List (Event GstMove PullAnswer Unit)}
    (h : Runs.run (System.step (gstEnv content)) ⟨Node.init p stamper boxFd, {}⟩ events = some t)
    (hlock : Runs.EachStep (System.step (gstEnv content)) Lockstep
      ⟨Node.init p stamper boxFd, {}⟩ events)
    (hall : accounted t = t.env.counted) : t.node.totalDrops = 0 := by
  have hinit : InStep ⟨Node.init p stamper boxFd, {}⟩ := inStep_init p stamper boxFd
  have hinStep : InStep t := Runs.invariant_of_eachStep
    (fun _ _ _ hs hlock hstep => hs.step hlock (.of_step hstep)) hinit hlock h
  have hidle := hlock.of_invariant (D := SamplesIdle)
    (fun _ _ _ hs hlock hstep => InStep.step hs hlock (.of_step hstep))
    (fun _ _ _ hs _ hstep => InStep.samplesIdle hs (.of_step hstep)) hinit h
  obtain ⟨seen, hseen⟩ := (soundDrops_run h hidle).counted
  have hlost : seen ≤ accounted t + t.env.lost.length := hseen.since.le_lost
  have htotal := hseen.total
  have hconserved : t.env.delivered.length + t.env.inflight.length + t.env.lost.length
      = t.env.counted := hinStep.ordered.length_eq
  have hle : accounted t ≤ t.env.delivered.length := by
    unfold accounted
    split <;> omega
  apply UInt64.toNat_inj.mp
  show t.node.totalDrops.toNat = 0
  omega

end Gst

/-! ### The comparison -/

theorem toNat_sample (sequence : UInt32) : (sequence.toUInt64 + 1).toNat = sequence.toNat + 1 := by
  have hlt := sequence.toNat_lt
  rw [UInt64.toNat_add, UInt32.toNat_toUInt64, UInt64.toNat_one]
  exact Nat.mod_eq_of_lt (by omega)

theorem growing_samples {ds : List Delivery}
    (h : (ds.map Delivery.sequence).Pairwise (· < ·)) :
    (0 :: ds.map fun d => d.sequence.toUInt64 + 1).Pairwise (· < ·) := by
  refine List.pairwise_cons.mpr ⟨?_, ?_⟩
  · intro a ha
    obtain ⟨d, -, rfl⟩ := List.mem_map.mp ha
    rw [UInt64.lt_iff_toNat_lt, toNat_sample]
    exact Nat.succ_pos _
  · rw [List.pairwise_map] at h ⊢
    apply h.imp
    intro a b hlt
    rw [UInt64.lt_iff_toNat_lt, toNat_sample, toNat_sample]
    exact Nat.succ_lt_succ (UInt32.lt_iff_toNat_lt.mp hlt)

theorem samples_eq_range_iff (ds : List Delivery) :
    ((ds.map fun d => d.sequence.toUInt64 + 1).map UInt64.toNat) = List.range' 1 ds.length
      ↔ (ds.map fun d => d.sequence.toNat) = List.range ds.length := by
  have hsplit : ((ds.map fun d => d.sequence.toUInt64 + 1).map UInt64.toNat)
      = (ds.map fun d => d.sequence.toNat).map (1 + ·) := by
    rw [List.map_map, List.map_map]
    apply List.map_congr_left
    intro d _
    exact (toNat_sample d.sequence).trans (Nat.add_comm _ _)
  rw [hsplit, List.range'_eq_map_range]
  exact List.map_inj_right fun _ _ heq => Nat.add_left_cancel heq

theorem totalDrops_eq_zero_iff {cv : OpenCv} {p : Params} (hres : p.res.Positive)
    {stamper : MmapStamper} {boxFd : Nat} {w : V4l2World} (hstarted : Started p (imageFormat p) w)
    {events : List (Event V4l2Move DqbufAnswer Bool)} {s : System V4l2World V4l2Ptr}
    (h : Runs.run (System.step (v4l2Env cv)) ⟨Node.init p stamper boxFd, w⟩ events = some s)
    (hpc : ∀ frame, s.node.pc ≠ .grabbed frame)
    (hgrow : (s.env.deliveries.map Delivery.sequence).Pairwise (· < ·))
    (hvalid : ∀ d ∈ s.env.deliveries, makesFrame p d = true) :
    s.node.totalDrops = 0 ↔
      (s.env.deliveries.map fun d => d.sequence.toNat) = List.range s.env.deliveries.length := by
  have htally := tally_run h
  have hframes := (samplesFrames_run hres hstarted h).frames
  rw [uncounted_eq_zero hpc, List.replicate_zero, List.append_nil,
    List.filter_eq_self.mpr hvalid] at hframes
  rw [← hframes] at htally
  have hgrow' := growing_samples hgrow
  obtain ⟨htotal, hpull⟩ := htally.exact_of_growing hgrow'
  have hgap := getLastD_eq_iff (pairwise_toNat hgrow')
  rw [toNat_getLastD, ← htally.lastPushSeen, List.length_map, Nat.add_zero] at hgap
  rw [List.length_map] at hpull hgap
  rw [← samples_eq_range_iff, ← hgap, ← UInt64.toNat_inj]
  show s.node.totalDrops.toNat = 0 ↔ _
  omega

/-- **The two totals agree exactly on histories without a gap.** Let the V4L2 backend have delivered
buffers with increasing sequence numbers, each a valid frame, and let the GStreamer backend have
pushed as many, each received before the next. After the last of them the totals are equal exactly
when the sequence numbers are 0, 1, 2 and so on. -/
theorem totalDrops_eq_iff_no_gap (cv : OpenCv) (content : Nat → Nat → UInt8) (node : Overrides)
    (stamper : MmapStamper) (boxFd : Nat) (memory : Nat → Nat → UInt8) (answer : StartAnswer)
    (hstart :
      ((fresh memory).start (loadParams node) (imageFormat (loadParams node)) answer).1 = true)
    (events : List (Event V4l2Move DqbufAnswer Bool)) (s : System V4l2World V4l2Ptr)
    (h : Runs.run (System.step (v4l2Env cv))
      ⟨Node.init (loadParams node) stamper boxFd,
        ((fresh memory).start (loadParams node) (imageFormat (loadParams node)) answer).2⟩ events
      = some s)
    (hpc : ∀ frame, s.node.pc ≠ .grabbed frame)
    (hgrow : (s.env.deliveries.map Delivery.sequence).Pairwise (· < ·))
    (hvalid : ∀ d ∈ s.env.deliveries, makesFrame (loadParams node) d = true)
    (gstEvents : List (Event GstMove PullAnswer Unit)) (t : System GstWorld Nat)
    (hgst : Runs.run (System.step (gstEnv content))
      ⟨Node.init (loadParams node) stamper boxFd, {}⟩ gstEvents = some t)
    (hlock : Runs.EachStep (System.step (gstEnv content)) Lockstep
      ⟨Node.init (loadParams node) stamper boxFd, {}⟩ gstEvents)
    (hall : accounted t = t.env.counted) (hsame : t.env.counted = s.env.deliveries.length) :
    s.node.totalDrops = t.node.totalDrops ↔
      (s.env.deliveries.map fun d => d.sequence.toNat) = List.range t.env.counted := by
  rw [totalDrops_eq_zero_of_lockstep hgst hlock hall, hsame]
  exact totalDrops_eq_zero_iff (loadParams_res_positive node) (start_spec hstart) h hpc hgrow hvalid

/-- Two JPEG frames go through the pipeline, the second after the first is released. -/
def lockstepRun : List (Event GstMove PullAnswer Unit) :=
  lockstepIteration ++ lockstepIteration
where
  lockstepIteration : List (Event GstMove PullAnswer Unit) :=
    [.env (.pushTime 5), .env .pushCount, .env .pushOn, .env .arrive,
     .grab (.sample true true (some 3)), .count, .tryOpen ⟨none, none⟩, .readLow 7, .copy,
     .logCbk 9, .publish, .logPub 11, .release ()]

theorem totalDrops_eq_iff_no_gap_lockstepRun : ∃ s t,
    Runs.run (System.step (v4l2Env noShapes)) ⟨Node.init jpegParams, startedWorld⟩
        (iterationRun 0 0 ++ iterationRun 1 1) = some s ∧
      Runs.run (System.step (gstEnv rampContent)) ⟨Node.init jpegParams, {}⟩ lockstepRun = some t ∧
      t.env.counted = 2 ∧
      (s.node.totalDrops = t.node.totalDrops ↔
        (s.env.deliveries.map fun d => d.sequence.toNat) = List.range t.env.counted) := by
  refine ⟨_, _, rfl, rfl, rfl, ?_⟩
  exact totalDrops_eq_iff_no_gap noShapes rampContent { compressed := some true } {} 3
    (fun _ _ => 7) fullStart rfl (iterationRun 0 0 ++ iterationRun 1 1) _ rfl
    (by intro frame hpc; cases hpc) (by decide) (by decide) lockstepRun _ rfl (by decide) rfl rfl

/-- Frames 1 and 4 of the driver are all that reach user space. -/
theorem totals_differ_gapRun : ∃ s t,
    Runs.run (System.step (v4l2Env noShapes)) ⟨Node.init jpegParams, startedWorld⟩ gapRun
        = some s ∧
      Runs.run (System.step (gstEnv rampContent)) ⟨Node.init jpegParams, {}⟩ lockstepRun = some t ∧
      s.env.deliveries.map Delivery.sequence = [1, 4] ∧ t.env.counted = 2 ∧ s.node.nPull = 2 ∧
      t.node.nPull = 2 ∧ s.node.totalDrops = 3 ∧ t.node.totalDrops = 0 ∧
      s.node.totalDrops ≠ t.node.totalDrops := by
  refine ⟨_, _, rfl, rfl, rfl, rfl, rfl, rfl, rfl, rfl, ?_⟩
  decide

end EconRos2Driver
