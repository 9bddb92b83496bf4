import EconRos2Driver.Proof.EndToEnd

/-!
# What the blackbox measures over the OpenCV backend

`V4l2OpencvBackend::grab` reads the clock for `t_capture_ns_` itself, right after `DQBUF`, and the
cell keeps the reading until the next `grab`: nothing else writes it. So the record of a message
holds the time at which the very buffer that the message shows was dequeued.
-/

namespace EconRos2Driver

open Blackbox V4l2World

variable {S P M G R : Type}

/-! ### The capture time in the records -/

/-- A record holds the capture time of the world in which it was made. -/
structure Dated (E : Env S P M G R) (s : System S P) : Prop where
  recorded : ∀ frame stamp recordIdx w, s.node.pc = .recorded frame stamp recordIdx w →
    recordIdx ≠ sizeMax → (s.node.box.base recordIdx.toNat).tCaptureNs = E.tCaptureNs w
  published : ∀ sent ∈ s.node.published, sent.recordIdx ≠ sizeMax →
    sent.record.tCaptureNs = E.tCaptureNs sent.capturedAt

variable {E : Env S P M G R} {s t : System S P} {e : Event M G R}

theorem Dated.step (h : Dated E s) (hstep : System.Step E s e t) : Dated E t := by
  constructor
  · intro frame stamp recordIdx w hpc hrecord
    cases hstep with
    | env _ => exact h.recorded frame stamp recordIdx w hpc hrecord
    | logCbk _ =>
        cases hpc
        simp only [Node.recorded]
        rw [logCbk_record hrecord]
    | grab _ hgrab =>
        simp only [Node.grabbed] at hpc
        split at hpc <;> cases hpc
    | readLow _ =>
        simp only [Node.stamped] at hpc
        split at hpc <;> cases hpc
    | copy _ =>
        simp only [Node.copied] at hpc
        split_ifs at hpc
    | exit _ | count _ | tryOpen _ | publish _ | logPub _ | release _ _ => cases hpc
  · have hkeep : t.node.published = s.node.published → ∀ sent ∈ t.node.published,
        sent.recordIdx ≠ sizeMax → sent.record.tCaptureNs = E.tCaptureNs sent.capturedAt := by
      intro hpublished
      rw [hpublished]
      exact h.published
    cases hstep with
    | publish hrecorded =>
        intro sent hsent
        rcases List.mem_append.mp hsent with hsent | hsent
        · exact h.published sent hsent
        · obtain rfl := List.mem_singleton.mp hsent
          exact h.recorded _ _ _ _ hrecorded
    | count _ =>
        apply hkeep
        rw [Node.counted, Node.account_eq]
    | readLow _ =>
        apply hkeep
        unfold Node.stamped
        split <;> rfl
    | copy _ =>
        apply hkeep
        unfold Node.copied
        split_ifs <;> rfl
    | env _ | exit _ | grab _ _ | tryOpen _ | logCbk _ | logPub _ | release _ _ => exact hkeep rfl

theorem dated_reachable {p : Params} {stamper : MmapStamper} {boxFd : Nat} {env : S}
    (h : Runs.Reachable (System.step E) ⟨Node.init p stamper boxFd, env⟩ s) : Dated E s := by
  refine System.invariant (I := Dated E) (fun _ _ _ hs hstep => hs.step hstep) ⟨?_, ?_⟩ h
  · intro frame stamp recordIdx w hpc
    cases hpc
  · intro sent hsent
    cases hsent

/-! ### The captures of the kernel -/

variable {cv : OpenCv} {p : Params}

/-- The last delivery so far and the time at which it was dequeued. -/
def lastCapture (w : V4l2World) : Option Delivery × UInt64 :=
  (w.deliveries.getLast?, w.backend.tCaptureNs)

/-- The delivery that a `grab` makes a valid frame of, and the clock reading after `DQBUF`. -/
def dequeued (cv : OpenCv) (s : System V4l2World V4l2Ptr) :
    Event V4l2Move DqbufAnswer Bool → List (Delivery × UInt64)
  | .grab (.buffer index sequence bytesused now) =>
      match s.env.grab cv (.buffer index sequence bytesused now) with
      | some (frame, _) =>
          if frame.valid then
            [(⟨index, sequence, bytesused, (List.range bytesused).map (s.env.memory index)⟩, now)]
          else []
      | none => []
  | _ => []

theorem lastCapture_move {w u : V4l2World} {m : V4l2Move} (h : w.move m = some u) :
    lastCapture u = lastCapture w := by
  have hsame := untouched_move h
  rw [lastCapture, hsame.deliveries, hsame.backend, lastCapture]

theorem lastCapture_grab {w u : V4l2World} {index : Nat} {sequence : UInt32} {bytesused : Nat}
    {now : UInt64} {frame : Frame V4l2Ptr}
    (h : w.grab cv (.buffer index sequence bytesused now) = some (frame, u)) : lastCapture u
      = (some ⟨index, sequence, bytesused, (List.range bytesused).map (w.memory index)⟩, now) := by
  obtain ⟨-, conv, bgr, rfl⟩ := grab_eq h
  simp [lastCapture, dequeue]

theorem captures_dequeued (s : System V4l2World V4l2Ptr) (e : Event V4l2Move DqbufAnswer Bool) :
    (captures (v4l2Env cv) lastCapture s e).map Prod.snd
      = (dequeued cv s e).map fun capture => (some capture.1, capture.2) := by
  cases e with
  | grab answer =>
      cases answer with
      | selectFailed | dqbufFailed => rfl
      | buffer index sequence bytesused now =>
          simp only [captures, dequeued, v4l2Env]
          cases hgrab : s.env.grab cv (.buffer index sequence bytesused now) with
          | none => rfl
          | some grabbed =>
              obtain ⟨frame, w⟩ := grabbed
              dsimp only
              split_ifs
              · simp [lastCapture_grab hgrab]
              · rfl
  | env _ | exit | count | tryOpen _ | readLow _ | copy | logCbk _ | publish | logPub _
  | release _ => rfl

theorem isSome_captured (cv : OpenCv) (p : Params) (d : Delivery) :
    (captured cv p d).isSome = !(p.compressed && d.bytesused == 0) := by
  unfold captured
  split_ifs with hcompressed hempty <;> simp_all

theorem dequeued_grab {s : System V4l2World V4l2Ptr} {answer : DqbufAnswer}
    {frame : Frame V4l2Ptr} {w : V4l2World} (h : s.env.grab cv answer = some (frame, w)) :
    frame.valid = false ∧ dequeued cv s (.grab answer) = [] ∨
      frame.valid = true ∧ ∃ d now, dequeued cv s (.grab answer) = [(d, now)] ∧
        w.deliveries = s.env.deliveries ++ [d] := by
  cases answer with
  | selectFailed | dqbufFailed =>
      cases h
      exact .inl ⟨rfl, rfl⟩
  | buffer index sequence bytesused now =>
      cases hvalid : frame.valid with
      | false => exact .inl ⟨rfl, by simp [dequeued, h, hvalid]⟩
      | true =>
          obtain ⟨-, conv, bgr, rfl⟩ := grab_eq h
          refine .inr ⟨rfl, _, now, ?_, rfl⟩
          simp only [dequeued, h, hvalid, if_true]

/-- The captures put out are the deliveries that a message is made of. -/
structure Collected (cv : OpenCv) (p : Params) (s : System V4l2World V4l2Ptr)
    (past : List (Delivery × UInt64)) : Prop where
  holding : Holding p s
  captures : past.filterMap (fun capture => captured cv p capture.1)
    = s.env.deliveries.filterMap (captured cv p)
  shown : ∀ capture ∈ past, (captured cv p capture.1).isSome = true

variable {s t : System V4l2World V4l2Ptr} {past : List (Delivery × UInt64)}

theorem Collected.grab (h : Collected cv p s past) (hres : p.res.Positive) {answer : DqbufAnswer}
    {frame : Frame V4l2Ptr} {w : V4l2World} (hgrab : s.env.grab cv answer = some (frame, w))
    (bytes : List UInt8) : Collected cv p ⟨s.node.grabbed frame bytes, w⟩
      (past ++ dequeued cv s (.grab answer)) := by
  have hholding := h.holding.grab hgrab bytes
  cases grab_spec hgrab with
  | nothing hframe hworld =>
      rcases dequeued_grab hgrab with ⟨-, hdequeued⟩ | ⟨hvalid, -⟩
      · rw [hdequeued, List.append_nil]
        exact ⟨hholding, hworld ▸ h.captures, h.shown⟩
      · simp [hframe, Frame.valid] at hvalid
  | buffer d hqueued _ _ _ _ hdeliveries hjpeg hbgr =>
      have hshown : (captured cv p d).isSome = frame.valid := by
        rw [isSome_captured, h.holding.valid_iff hres hqueued hjpeg hbgr]
      rcases dequeued_grab hgrab with ⟨hvalid, hdequeued⟩ | ⟨hvalid, d', now, hdequeued, hnext⟩
      · have hnone : captured cv p d = none := by simpa [hvalid] using hshown
        rw [hdequeued, List.append_nil]
        refine ⟨hholding, ?_, h.shown⟩
        rw [hdeliveries, List.filterMap_append, h.captures]
        simp [hnone]
      · obtain rfl : d = d' := by simpa using hdeliveries.symm.trans hnext
        rw [hdequeued]
        refine ⟨hholding, ?_, ?_⟩
        · rw [hdeliveries, List.filterMap_append, List.filterMap_append, h.captures]
          rfl
        · intro capture hcapture
          rcases List.mem_append.mp hcapture with hcapture | hcapture
          · exact h.shown capture hcapture
          · obtain rfl := List.mem_singleton.mp hcapture
            exact hshown.trans hvalid

theorem Collected.step (h : Collected cv p s past) (hres : p.res.Positive)
    {e : Event V4l2Move DqbufAnswer Bool} (hstep : System.Step (v4l2Env cv) s e t) :
    Collected cv p t (past ++ dequeued cv s e) := by
  have hkeep : dequeued cv s e = [] → t.env.deliveries = s.env.deliveries →
      Collected cv p t (past ++ dequeued cv s e) := by
    intro hnone hdeliveries
    rw [hnone, List.append_nil]
    exact ⟨h.holding.step hstep.turn, hdeliveries ▸ h.captures, h.shown⟩
  cases hstep with
  | grab _ hgrab => exact h.grab hres hgrab _
  | env hmove => exact hkeep rfl (untouched_move hmove).deliveries
  | @release _ qbuf env _ hrelease =>
      obtain rfl : s.env.release qbuf = env := Option.some.inj hrelease
      exact hkeep rfl (deliveries_release s.env qbuf)
  | exit _ | count _ | tryOpen _ | readLow _ | copy _ | logCbk _ | publish _ | logPub _ =>
      exact hkeep rfl rfl

theorem outputs_captures (s : System V4l2World V4l2Ptr)
    (events : List (Event V4l2Move DqbufAnswer Bool)) :
    (Runs.outputs (System.step (v4l2Env cv)) (captures (v4l2Env cv) lastCapture) s events).map
        Prod.snd
      = (Runs.outputs (System.step (v4l2Env cv)) (dequeued cv) s events).map
          fun capture => (some capture.1, capture.2) :=
  Runs.outputs_map_congr captures_dequeued s events

theorem forall₂_of_prefixes {α β γ δ : Type} {own : α → γ} {shown : α → δ} {f : β → Option δ}
    {key : β → γ} {xs : List α} {ys : List β} (hall : ∀ y ∈ ys, (f y).isSome = true)
    (hown : xs.map own <+: ys.map key) (hshown : xs.map shown <+: ys.filterMap f) :
    List.Forall₂ (fun y x => f y = some (shown x) ∧ key y = own x) (ys.take xs.length) xs := by
  induction xs generalizing ys with
  | nil => exact .nil
  | cons x xs ih =>
      cases ys with
      | nil => simp at hown
      | cons y ys =>
          obtain ⟨shownY, hy⟩ := Option.isSome_iff_exists.mp (hall y List.mem_cons_self)
          rw [List.filterMap_cons_some hy, List.map_cons, List.cons_prefix_cons] at hshown
          rw [List.map_cons, List.map_cons, List.cons_prefix_cons] at hown
          refine .cons ⟨hy.trans (congrArg some hshown.1.symm), hown.1.symm⟩ ?_
          exact ih (fun z hz => hall z (List.mem_cons_of_mem _ hz)) hown.2 hshown.2

/-- The node at the head of its loop, over the backend that `start` has left behind. -/
def launched (node : Overrides) (stamper : MmapStamper) (boxFd : Nat) (memory : Nat → Nat → UInt8)
    (answer : StartAnswer) : System V4l2World V4l2Ptr where
  node := Node.init (loadParams node) stamper boxFd
  env := ((fresh memory).start (loadParams node) (imageFormat (loadParams node)) answer).2

theorem collected_run {node : Overrides} {stamper : MmapStamper} {boxFd : Nat}
    {memory : Nat → Nat → UInt8} {answer : StartAnswer}
    {events : List (Event V4l2Move DqbufAnswer Bool)}
    (hstart : ((fresh memory).start (loadParams node) (imageFormat (loadParams node)) answer).1
      = true)
    (h : Runs.run (System.step (v4l2Env cv)) (launched node stamper boxFd memory answer) events
      = some s) :
    Collected cv (loadParams node) s (Runs.outputs (System.step (v4l2Env cv)) (dequeued cv)
      (launched node stamper boxFd memory answer) events) := by
  have hstarted := start_spec hstart
  have hinit : Collected cv (loadParams node) (launched node stamper boxFd memory answer) [] := by
    refine ⟨holding_init stamper boxFd hstarted, ?_, by simp⟩
    rw [launched, hstarted.deliveries]
    rfl
  exact Runs.invariant_of_outputs (I := Collected cv (loadParams node))
    (fun _ _ _ _ hs hstep => hs.step (loadParams_res_positive node) (.of_step hstep)) hinit h

/-- A raw frame has the size of a message. -/
theorem accepted_of_started {node : Overrides} {stamper : MmapStamper} {boxFd : Nat}
    {memory : Nat → Nat → UInt8} {answer : StartAnswer}
    (hstart : ((fresh memory).start (loadParams node) (imageFormat (loadParams node)) answer).1
      = true)
    (h : Runs.Reachable (System.step (v4l2Env cv)) (launched node stamper boxFd memory answer) s)
    (hfull : (loadParams node).compressed = false → ∀ d ∈ s.env.deliveries,
      captureSize (loadParams node) ≤ d.bytesused) :
    ∀ frame ∈ validGrabs s.node.calls, Accepted (loadParams node) frame := by
  intro frame hframe hraw
  have hframes := (faithful_reachable (loadParams_res_positive node) hraw hstart h).frames
    (hfull hraw)
  obtain ⟨hmem, hvalid⟩ := List.mem_filter.mp hframe
  obtain ⟨grabbed, hgrabbed, rfl⟩ := List.mem_map.mp hmem
  have hown : grabbed ∈ validFrames s.node.calls := List.mem_filter.mpr ⟨hgrabbed, hvalid⟩
  rw [hframes] at hown
  obtain ⟨d, -, rfl⟩ := List.mem_map.mp hown
  exact (size_converted cv node (flipMethod_of_start hstart) _).ge

/-- **The blackbox measures every message against its own capture.** Over a backend that has started
with no more than `kBufCount` buffers, as long as those of a raw camera come back full: the messages
published so far are made of the first deliveries that a valid frame came of, each of one, and a
record holds the clock reading that followed the very `DQBUF`; at the head of the loop none of these
deliveries is left. -/
theorem v4l2_records_own_capture (cv : OpenCv) (node : Overrides) (stamper : MmapStamper)
    (boxFd : Nat) (memory : Nat → Nat → UInt8) (answer : StartAnswer)
    (hgranted : granted (loadParams node) answer ≤ kBufCount)
    (hstart : ((fresh memory).start (loadParams node) (imageFormat (loadParams node)) answer).1
      = true)
    (events : List (Event V4l2Move DqbufAnswer Bool)) (s : System V4l2World V4l2Ptr)
    (h : Runs.run (System.step (v4l2Env cv)) (launched node stamper boxFd memory answer) events
      = some s)
    (hfull : (loadParams node).compressed = false → ∀ d ∈ s.env.deliveries,
      captureSize (loadParams node) ≤ d.bytesused) :
    ∃ own : List (Delivery × UInt64),
      own <+: Runs.outputs (System.step (v4l2Env cv)) (dequeued cv)
        (launched node stamper boxFd memory answer) events ∧
      (s.node.pc = .head ∨ s.node.pc = .exited →
        own = Runs.outputs (System.step (v4l2Env cv)) (dequeued cv)
          (launched node stamper boxFd memory answer) events) ∧
      List.Forall₂ (fun capture sent =>
          captured cv (loadParams node) capture.1 = some sent.message.data ∧
          (sent.recordIdx ≠ sizeMax → sent.record.tCaptureNs = capture.2))
        own s.node.published := by
  have hreachable : Runs.Reachable _ _ s := ⟨events, h⟩
  have hcollected := collected_run hstart h
  have hgapless := gapless_run lastCapture (fun _ _ _ hmove => lastCapture_move hmove) h
  obtain ⟨hpre, hall⟩ := hgapless.tagged (accepted_of_started hstart hreachable hfull)
  have hown := hpre.map Prod.snd
  rw [outputs_captures, Node.tagged, List.map_map] at hown
  have hshown := published_isPrefix (v4l2Env_stableViews cv) (housed_of_start hgranted hstart)
    hreachable
  rw [payloads_eq_captured hgranted hstart hreachable hfull, ← hcollected.captures] at hshown
  have hpaired := forall₂_of_prefixes hcollected.shown hown hshown
  have hdated := (dated_reachable hreachable).published
  refine ⟨_, List.take_prefix s.node.published.length _, fun hpc => ?_, ?_⟩
  · have hsame := congrArg (List.map Prod.snd) (hall hpc)
    rw [outputs_captures] at hsame
    have hlength := congrArg List.length hsame
    rw [List.length_map, List.length_map, Node.tagged, List.length_map] at hlength
    exact List.take_of_length_le hlength.ge
  · refine ((List.forall₂_and_left _ _).mpr ⟨hdated, hpaired.flip⟩).flip.imp ?_
    rintro ⟨d, now⟩ sent ⟨hrecord, hshows, hcapture⟩
    refine ⟨hshows, fun hidx => (hrecord hidx).trans ?_⟩
    exact (congrArg Prod.snd hcapture).symm

theorem v4l2_records_own_capture_fullRun : ∃ s,
    Runs.run (System.step (v4l2Env noShapes)) ⟨Node.init jpegParams, startedWorld⟩ fullRun
        = some s ∧
      List.Forall₂ (fun capture sent => sent.recordIdx ≠ sizeMax →
          sent.record.tCaptureNs = capture)
        [5, 15] s.node.published := by
  obtain ⟨s, hrun, hpc⟩ : ∃ s,
      Runs.run (System.step (v4l2Env noShapes)) ⟨Node.init jpegParams, startedWorld⟩ fullRun
        = some s ∧ s.node.pc = .head := ⟨_, rfl, rfl⟩
  obtain ⟨own, -, hall, hpublished⟩ := v4l2_records_own_capture noShapes
    { compressed := some true } {} 3 (fun _ _ => 7) fullStart (by decide) rfl fullRun s hrun
    (fun hraw => absurd hraw (by decide))
  have hown : own.map Prod.snd = [5, 15] := by
    rw [hall (.inl hpc)]
    rfl
  refine ⟨s, hrun, ?_⟩
  rw [← hown, List.forall₂_map_left_iff]
  exact hpublished.imp fun _ _ hsent => hsent.2

end EconRos2Driver
