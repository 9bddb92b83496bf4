import EconRos2Driver.Proof.GstPipeline
import EconRos2Driver.Proof.Lineage

/-!
# What the blackbox measures over the GStreamer backend

`t_push_ns_` is one cell, overwritten by every run of the probe, and `publish` reads it when the
frame in hand may be several pushes old. The record therefore holds the probe time of the last frame
that entered the probe before the read: the frame in hand, or a later one.
-/

namespace EconRos2Driver

open LossyChannel Blackbox

variable {content : Nat → Nat → UInt8} {s t : System GstWorld Nat}

/-- What a record made in the world `capturedAt` says about its frame, seen from a later world. -/
structure Measured (now capturedAt : GstWorld) (frame : Frame Nat) (recordIdx : UInt64)
    (record : ImagePubRecord) : Prop where
  cells : capturedAt.Cells
  past : capturedAt.times <+: now.times
  frame : ∃ k, frame.data = some k ∧ k < capturedAt.counted
  record : recordIdx ≠ sizeMax → record.tCaptureNs = capturedAt.backend.tPushNs

theorem Measured.later {now next capturedAt : GstWorld} {frame : Frame Nat} {recordIdx : UInt64}
    {record : ImagePubRecord} (h : Measured now capturedAt frame recordIdx record)
    (hpast : now.times <+: next.times) : Measured next capturedAt frame recordIdx record :=
  ⟨h.cells, h.past.trans hpast, h.frame, h.record⟩

theorem GstWorld.times_move {w u : GstWorld} {m : GstMove} (h : w.move m = some u) :
    w.times <+: u.times := by
  cases m with
  | pushTime now =>
      cases hpad : w.srcPad <;> simp only [move, hpad] at h <;> cases h
      exact List.prefix_append _ _
  | pushCount | pushOn =>
      cases hpad : w.srcPad <;> simp only [move, hpad] at h <;> cases h
      exact List.prefix_refl _
  | drop position =>
      obtain ⟨k, -, rfl⟩ := Option.map_eq_some_iff.mp h
      exact List.prefix_refl _
  | arrive =>
      rcases hpipe : w.pipe with _ | ⟨k, rest⟩ <;> simp only [move, hpipe] at h <;> cases h
      exact List.prefix_refl _
  | timeshare file =>
      cases h
      exact List.prefix_refl _

theorem times_step {e : Event GstMove PullAnswer Unit} (h : System.Turn (gstEnv content) s e t) :
    s.env.times <+: t.env.times := by
  cases h with
  | env _ hmove _ => exact GstWorld.times_move hmove
  | grab _ _ _ hgrab _ =>
      have hsame : GstWorld.SamePush s.env t.env := by
        cases GstWorld.grab_spec hgrab <;> assumption
      rw [hsame.times]
  | release _ _ _ _ hrelease _ =>
      rw [← Option.some.inj hrelease, s.env.release_spec.1.times]
  | count _ _ _ henv _ | inside henv _ => rw [henv]

structure Measuring (s : System GstWorld Nat) : Prop where
  tracks : Tracks s
  ordered : Ordered s.env.channel
  recorded : ∀ frame stamp recordIdx w, s.node.pc = .recorded frame stamp recordIdx w →
    Measured s.env w frame recordIdx (s.node.box.base recordIdx.toNat)
  published : ∀ sent ∈ s.node.published,
    Measured s.env sent.capturedAt sent.frame sent.recordIdx sent.record

theorem measuring_init (p : Params) (stamper : MmapStamper) (boxFd : Nat) :
    Measuring ⟨Node.init p stamper boxFd, {}⟩ where
  tracks := tracks_init p stamper boxFd
  ordered := ordered_empty
  recorded := by
    intro frame stamp recordIdx w hpc
    cases hpc
  published := by
    intro sent hsent
    cases hsent

theorem Measuring.logCbk (h : Measuring s) {frame : Frame Nat} {stamp : Stamp GstWorld}
    {now : UInt64} (hpc : s.node.pc = .copied frame stamp) :
    let record :=
      Blackbox.logCbk s.node.box (Node.headerStampNs stamp.ns) s.env.backend.tPushNs now
    Measured s.env s.env frame record.1 (record.2.base record.1.toNat) where
  cells := h.tracks.cells
  past := List.prefix_refl _
  frame := by
    obtain ⟨ds, k, hdelivered, hdata⟩ := h.tracks.held frame (by rw [hpc]; rfl)
    exact ⟨k, hdata, h.ordered.last_lt hdelivered⟩
  record := fun hrecord => by rw [logCbk_record hrecord]

theorem Measuring.step (h : Measuring s) {e : Event GstMove PullAnswer Unit}
    (hstep : System.Step (gstEnv content) s e t) : Measuring t := by
  have hpast := times_step hstep.turn
  refine ⟨h.tracks.step hstep.turn, h.ordered.run (channel_step hstep.turn), ?_, ?_⟩
  · intro frame stamp recordIdx w hpc
    cases hstep with
    | env hmove => exact (h.recorded frame stamp recordIdx w hpc).later hpast
    | logCbk hcopied =>
        cases hpc
        exact h.logCbk hcopied
    | grab _ hgrab =>
        simp only [Node.grabbed] at hpc
        split at hpc <;> cases hpc
    | readLow _ =>
        simp only [Node.stamped] at hpc
        split at hpc <;> cases hpc
    | copy _ =>
        simp only [Node.copied] at hpc
        split_ifs at hpc
    | exit _ | count _ | tryOpen _ | publish _ | logPub _ | release _ _ => cases hpc
  · have hkeep : t.node.published = s.node.published →
        ∀ sent ∈ t.node.published,
          Measured t.env sent.capturedAt sent.frame sent.recordIdx sent.record := by
      intro hpublished sent hsent
      rw [hpublished] at hsent
      exact (h.published sent hsent).later hpast
    cases hstep with
    | publish hrecorded =>
        intro sent hsent
        rcases List.mem_append.mp hsent with hsent | hsent
        · exact h.published sent hsent
        · obtain rfl := List.mem_singleton.mp hsent
          exact h.recorded _ _ _ _ hrecorded
    | count _ =>
        apply hkeep
        rw [Node.counted, Node.account_eq]
    | readLow _ =>
        apply hkeep
        unfold Node.stamped
        split <;> rfl
    | copy _ =>
        apply hkeep
        unfold Node.copied
        split_ifs <;> rfl
    | env _ | exit _ | grab _ _ | tryOpen _ | logCbk _ | logPub _ | release _ _ => exact hkeep rfl

theorem measuring_reachable {p : Params} {stamper : MmapStamper} {boxFd : Nat}
    (h : Runs.Reachable (System.step (gstEnv content)) ⟨Node.init p stamper boxFd, {}⟩ s) :
    Measuring s :=
  System.invariant (I := Measuring) (fun _ _ _ hs hstep => hs.step hstep)
    (measuring_init p stamper boxFd) h

theorem Measured.time {now capturedAt : GstWorld} {frame : Frame Nat} {recordIdx : UInt64}
    {record : ImagePubRecord} (h : Measured now capturedAt frame recordIdx record)
    (hrecord : recordIdx ≠ sizeMax) {k : Nat} (hdata : frame.data = some k) :
    ∃ j, k ≤ j ∧ capturedAt.times.length = j + 1 ∧ now.times[j]? = some record.tCaptureNs := by
  obtain ⟨k', hdata', hlt⟩ := h.frame
  obtain rfl : k = k' := Option.some.inj (hdata.symm.trans hdata')
  have hlength := h.cells.length_times
  have hpos : k + 1 ≤ capturedAt.times.length := by
    rw [hlength]
    split_ifs <;> omega
  obtain ⟨rest, hrest⟩ := h.past
  refine ⟨capturedAt.times.length - 1, by omega, by omega, ?_⟩
  have hlast : capturedAt.times[capturedAt.times.length - 1]? = some record.tCaptureNs := by
    rw [h.record hrecord, h.cells.tPushNs, ← List.getLast?_eq_getElem?, List.getLastD_eq_getLast?]
    cases hnil : capturedAt.times with
    | nil =>
        rw [hnil] at hpos
        simp at hpos
    | cons a l => rw [List.getLast?_cons, Option.getD_some]
  rw [← hrest, List.getElem?_append_left (by omega)]
  exact hlast

/-- **The record holds the time of the last push before the read.** A published message carries
frame `k`, and its record the probe time of the last frame `j` that had entered the probe when
`publish` read the cell. This is `k` or a later frame, and with distinct probe times the record
holds the time of `k` exactly when it is `k`. -/
theorem record_tCaptureNs (content : Nat → Nat → UInt8) (p : Params) (stamper : MmapStamper)
    (boxFd : Nat)
    (h : Runs.Reachable (System.step (gstEnv content)) ⟨Node.init p stamper boxFd, {}⟩ s) :
    ∀ sent ∈ s.node.published, sent.recordIdx ≠ sizeMax →
      ∃ k j, sent.frame.data = some k ∧
        payload p sent.frame ((List.range sent.frame.size).map (content k))
          = some sent.message.data ∧
        k ≤ j ∧ sent.capturedAt.times.length = j + 1 ∧
        s.env.times[j]? = some sent.record.tCaptureNs ∧
        (s.env.times.Nodup → (s.env.times[k]? = some sent.record.tCaptureNs ↔ j = k)) := by
  intro sent hsent hrecord
  have hmeasured := (measuring_reachable h).published sent hsent
  obtain ⟨k, hdata, -⟩ := hmeasured.frame
  obtain ⟨j, hle, hlength, htime⟩ := hmeasured.time hrecord hdata
  refine ⟨k, j, hdata, ?_, hle, hlength, htime, ?_⟩
  · obtain ⟨hdelivering, hlineage⟩ := lineage_reachable (gstEnv_stableViews content) trivial h
    exact hlineage.payload_eq hdelivering (fun _ _ => rfl) hsent hdata
  · intro hnodup
    refine ⟨fun hown => ?_, fun heq => heq ▸ htime⟩
    obtain ⟨hj, hjtime⟩ := List.getElem?_eq_some_iff.mp htime
    obtain ⟨hk, hktime⟩ := List.getElem?_eq_some_iff.mp hown
    exact (List.Nodup.getElem_inj_iff hnodup).mp (hjtime.trans hktime.symm)

/-- Frame 0 is grabbed and copied, and the probe sees frame 1 before `publish` reads its cell. -/
def lateProbeRun : List (Event GstMove PullAnswer Unit) :=
  [.env (.pushTime 5), .env .pushCount, .env .pushOn, .env .arrive,
   .grab (.sample true true (some 3)), .count, .tryOpen ⟨none, none⟩, .readLow 7, .copy,
   .env (.pushTime 6), .logCbk 9, .publish, .logPub 11, .release ()]

theorem lateProbeRun_eq : ∃ s,
    Runs.run (System.step (gstEnv rampContent))
        ⟨Node.init (loadParams { compressed := some true }), {}⟩ lateProbeRun = some s ∧
      s.env.times = [5, 6] ∧
      s.node.published.map (fun sent => (sent.frame.data, sent.recordIdx, sent.record.tCaptureNs))
        = [(some 0, 0, 6)] :=
  ⟨_, rfl, rfl, by decide⟩

theorem record_tCaptureNs_lateProbeRun : ∃ s,
    Runs.run (System.step (gstEnv rampContent))
        ⟨Node.init (loadParams { compressed := some true }), {}⟩ lateProbeRun = some s ∧
      s.node.published.length = 1 ∧
      ∀ sent ∈ s.node.published, sent.recordIdx ≠ sizeMax →
        ∃ k j, sent.frame.data = some k ∧ k ≤ j ∧
          s.env.times[j]? = some sent.record.tCaptureNs := by
  obtain ⟨s, hrun, -, hrecords⟩ := lateProbeRun_eq
  refine ⟨s, hrun, ?_, ?_⟩
  · simpa using congrArg List.length hrecords
  · intro sent hsent hrecord
    obtain ⟨k, j, hdata, -, hle, -, htime, -⟩ :=
      record_tCaptureNs rampContent (loadParams { compressed := some true }) {} 3
        ⟨lateProbeRun, hrun⟩ sent hsent hrecord
    exact ⟨k, j, hdata, hle, htime⟩

theorem wrong_tCaptureNs_lateProbeRun : ∃ s,
    Runs.run (System.step (gstEnv rampContent))
        ⟨Node.init (loadParams { compressed := some true }), {}⟩ lateProbeRun = some s ∧
      ¬ ∀ sent ∈ s.node.published, sent.recordIdx ≠ sizeMax → ∀ k, sent.frame.data = some k →
        s.env.times[k]? = some sent.record.tCaptureNs := by
  obtain ⟨s, hrun, htimes, hrecords⟩ := lateProbeRun_eq
  refine ⟨s, hrun, fun hall => ?_⟩
  obtain ⟨sent, hsent, hsame⟩ := List.mem_map.mp (hrecords ▸ List.mem_singleton_self _)
  obtain ⟨hdata, hidx, htime⟩ : sent.frame.data = some 0 ∧ sent.recordIdx = 0 ∧
      sent.record.tCaptureNs = 6 := by simpa using hsame
  have hown := hall sent hsent (by rw [hidx]; decide) 0 hdata
  rw [htimes, htime] at hown
  revert hown
  decide

end EconRos2Driver
