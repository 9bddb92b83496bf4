import EconRos2Driver.Library.LossyChannel
import EconRos2Driver.Proof.Delivery

/-!
# The pipeline is a lossy channel

Seen from the counter of the probe, the source pad, the elements behind it, the appsink and the
failed pulls together are a channel that keeps its order: a counted frame enters, an element that
drops a frame, an overwrite in the appsink and a pull that does not yield a valid frame lose one,
and a pull that does delivers the oldest. Every step of the system is one event of that channel or
none, so what is delivered, what is lost and what is still in flight add up to what was counted.
-/

namespace EconRos2Driver

open LossyChannel

namespace GstWorld

def inflight (w : GstWorld) : List Nat :=
  w.sink.toList ++ w.pipe ++ (if w.srcPad = .counted then [w.counted - 1] else [])

def channel (w : GstWorld) : Channel where
  entered := w.counted
  inflight := w.inflight
  delivered := w.delivered
  lost := w.lost

theorem channel_move {w t : GstWorld} {m : GstMove} (h : w.move m = some t) :
    Runs.Reachable LossyChannel.step w.channel t.channel := by
  cases m with
  | pushTime now =>
      cases hpad : w.srcPad <;> simp only [move, hpad] at h <;> cases h
      simpa [channel, inflight, hpad] using Runs.Reachable.refl _
  | pushCount =>
      cases hpad : w.srcPad <;> simp only [move, hpad] at h <;> cases h
      apply Runs.Reachable.of_step (e := LossyChannel.Event.enter)
      simp [LossyChannel.step, channel, inflight, hpad]
  | pushOn =>
      cases hpad : w.srcPad <;> simp only [move, hpad] at h <;> cases h
      simpa [channel, inflight, hpad] using Runs.Reachable.refl _
  | drop position =>
      obtain ⟨k, hk, rfl⟩ := Option.map_eq_some_iff.mp h
      have hlt : position < w.pipe.length := (List.getElem?_eq_some_iff.mp hk).1
      refine Runs.Reachable.of_step
        (e := LossyChannel.Event.lose (w.sink.toList.length + position)) ?_
      have hget : w.inflight[w.sink.toList.length + position]? = some k := by
        rw [inflight, List.append_assoc, List.getElem?_append_right (Nat.le_add_right _ _),
          Nat.add_sub_cancel_left, List.getElem?_append_left hlt, hk]
      have herase : w.inflight.eraseIdx (w.sink.toList.length + position)
          = w.sink.toList ++ w.pipe.eraseIdx position
            ++ (if w.srcPad = .counted then [w.counted - 1] else []) := by
        rw [inflight, List.append_assoc, List.eraseIdx_append_of_length_le (Nat.le_add_right _ _),
          Nat.add_sub_cancel_left, List.eraseIdx_append_of_lt_length hlt, List.append_assoc]
      simp only [LossyChannel.step, channel, hget, Option.map_some, herase]
      rfl
  | arrive =>
      rcases hpipe : w.pipe with _ | ⟨k, rest⟩ <;> simp only [move, hpipe] at h <;> cases h
      cases hsink : w.sink with
      | none => simpa [channel, inflight, hsink, hpipe] using Runs.Reachable.refl _
      | some j =>
          apply Runs.Reachable.of_step (e := LossyChannel.Event.lose 0)
          simp [LossyChannel.step, channel, inflight, hsink, hpipe]
  | timeshare file =>
      cases h
      exact Runs.Reachable.refl _

structure SamePush (w t : GstWorld) : Prop where
  srcPad : t.srcPad = w.srcPad
  pipe : t.pipe = w.pipe
  times : t.times = w.times
  counted : t.counted = w.counted
  nPush : t.backend.nPush = w.backend.nPush
  tPushNs : t.backend.tPushNs = w.backend.tPushNs

/-- **What one `grab` can do.** It delivers the frame in the appsink, takes it without delivering
it, or takes none. -/
inductive Grabbed (w : GstWorld) (frame : Frame Nat) (t : GstWorld) : Prop where
  | delivered (k : Nat) (hsame : SamePush w t) (hsink : w.sink = some k)
      (hdata : frame.data = some k) (hvalid : frame.valid = true) (hempty : t.sink = none)
      (hdelivered : t.delivered = w.delivered ++ [k]) (hlost : t.lost = w.lost)
  | discarded (k : Nat) (hsame : SamePush w t) (hsink : w.sink = some k)
      (hinvalid : frame.valid = false) (hempty : t.sink = none)
      (hdelivered : t.delivered = w.delivered) (hlost : t.lost = w.lost ++ [k])
  | none (hsame : SamePush w t) (hinvalid : frame.valid = false) (hsink : t.sink = w.sink)
      (hdelivered : t.delivered = w.delivered) (hlost : t.lost = w.lost)

theorem grab_spec {w t : GstWorld} {answer : PullAnswer} {frame : Frame Nat}
    (h : w.grab answer = some (frame, t)) : Grabbed w frame t := by
  cases answer with
  | timeout =>
      cases h
      exact .none ⟨rfl, rfl, rfl, rfl, rfl, rfl⟩ rfl rfl rfl rfl
  | sample buffer memory map =>
      obtain ⟨k, hsink, hresult⟩ := Option.map_eq_some_iff.mp h
      have hsame : ∀ {u : GstWorld}, u.srcPad = w.srcPad → u.pipe = w.pipe → u.times = w.times →
          u.counted = w.counted → u.backend.nPush = w.backend.nPush →
          u.backend.tPushNs = w.backend.tPushNs → SamePush w u :=
        fun h₁ h₂ h₃ h₄ h₅ h₆ => ⟨h₁, h₂, h₃, h₄, h₅, h₆⟩
      cases buffer with
      | false =>
          cases hresult
          exact .discarded k (hsame rfl rfl rfl rfl rfl rfl) hsink rfl rfl rfl rfl
      | true => cases memory with
          | false =>
              cases hresult
              exact .discarded k (hsame rfl rfl rfl rfl rfl rfl) hsink rfl rfl rfl rfl
          | true => cases map with
              | none =>
                  cases hresult
                  exact .discarded k (hsame rfl rfl rfl rfl rfl rfl) hsink rfl rfl rfl rfl
              | some size => cases size with
                  | zero =>
                      cases hresult
                      exact .discarded k (hsame rfl rfl rfl rfl rfl rfl) hsink rfl rfl rfl rfl
                  | succ size =>
                      cases hresult
                      have hvalid : Frame.valid ⟨some k, size + 1⟩ = true := by simp [Frame.valid]
                      exact .delivered k (hsame rfl rfl rfl rfl rfl rfl) hsink rfl hvalid
                        rfl rfl rfl

theorem channel_grab {w t : GstWorld} {answer : PullAnswer} {frame : Frame Nat}
    (h : w.grab answer = some (frame, t)) :
    Runs.Reachable LossyChannel.step w.channel t.channel := by
  cases grab_spec h with
  | delivered k hsame hsink _ _ hempty hdelivered hlost =>
      apply Runs.Reachable.of_step (e := LossyChannel.Event.deliver)
      simp [LossyChannel.step, channel, hsame.srcPad, hsame.pipe, hsame.counted, inflight, hsink,
        hempty, hdelivered, hlost]
  | discarded k hsame hsink _ hempty hdelivered hlost =>
      apply Runs.Reachable.of_step (e := LossyChannel.Event.lose 0)
      simp [LossyChannel.step, channel, hsame.srcPad, hsame.pipe, hsame.counted, inflight, hsink,
        hempty, hdelivered, hlost]
  | none hsame _ hsink hdelivered hlost =>
      have heq : t.channel = w.channel := by
        simp [channel, hsame.srcPad, hsame.pipe, hsame.counted, inflight, hsink, hdelivered, hlost]
      rw [heq]
      exact Runs.Reachable.refl _

theorem release_spec (w : GstWorld) : SamePush w w.release ∧ w.release.sink = w.sink ∧
    w.release.delivered = w.delivered ∧ w.release.lost = w.lost := by
  cases hmemory : w.backend.memory <;> cases hsample : w.backend.sample <;>
    simp only [release, hmemory, hsample] <;>
    exact ⟨⟨rfl, rfl, rfl, rfl, rfl, rfl⟩, by simp⟩

theorem channel_release (w : GstWorld) : w.release.channel = w.channel := by
  obtain ⟨hsame, hsink, hdelivered, hlost⟩ := w.release_spec
  simp [channel, hsame.srcPad, hsame.pipe, hsame.counted, inflight, hsink, hdelivered, hlost]

theorem delivered_move {w t : GstWorld} {m : GstMove} (h : w.move m = some t) :
    t.delivered = w.delivered := by
  cases m with
  | pushTime now | pushCount | pushOn =>
      cases hpad : w.srcPad <;> simp only [move, hpad] at h <;> cases h
      rfl
  | drop position =>
      obtain ⟨k, -, rfl⟩ := Option.map_eq_some_iff.mp h
      rfl
  | arrive =>
      rcases hpipe : w.pipe with _ | ⟨k, rest⟩ <;> simp only [move, hpipe] at h <;> cases h
      rfl
  | timeshare file =>
      cases h
      rfl

structure Cells (w : GstWorld) : Prop where
  nPush : w.backend.nPush = UInt64.ofNat w.counted
  tPushNs : w.backend.tPushNs = w.times.getLastD 0
  length_times : w.times.length = if w.srcPad = .stamped then w.counted + 1 else w.counted

theorem cells_init : Cells {} := ⟨rfl, rfl, rfl⟩

theorem Cells.of_same {w t : GstWorld} (h : Cells w) (hsame : SamePush w t) : Cells t := by
  refine ⟨?_, ?_, ?_⟩
  · rw [hsame.nPush, hsame.counted, h.nPush]
  · rw [hsame.tPushNs, hsame.times, h.tPushNs]
  · rw [hsame.times, hsame.srcPad, hsame.counted, h.length_times]

theorem Cells.move {w t : GstWorld} {m : GstMove} (h : Cells w) (hm : w.move m = some t) :
    Cells t := by
  obtain ⟨hnPush, htPush, hlength⟩ := h
  cases m with
  | pushTime now =>
      cases hpad : w.srcPad <;> simp only [GstWorld.move, hpad] at hm <;> cases hm
      refine ⟨hnPush, by simp, ?_⟩
      simpa [hpad] using hlength
  | pushCount =>
      cases hpad : w.srcPad <;> simp only [GstWorld.move, hpad] at hm <;> cases hm
      refine ⟨?_, htPush, ?_⟩
      · dsimp only
        rw [hnPush, UInt64.ofNat_add]
        rfl
      · simpa [hpad] using hlength
  | pushOn =>
      cases hpad : w.srcPad <;> simp only [GstWorld.move, hpad] at hm <;> cases hm
      exact ⟨hnPush, htPush, by simpa [hpad] using hlength⟩
  | drop position =>
      obtain ⟨k, -, rfl⟩ := Option.map_eq_some_iff.mp hm
      exact ⟨hnPush, htPush, hlength⟩
  | arrive =>
      rcases hpipe : w.pipe with _ | ⟨k, rest⟩ <;> simp only [GstWorld.move, hpipe] at hm
        <;> cases hm
      exact ⟨hnPush, htPush, hlength⟩
  | timeshare file =>
      cases hm
      exact ⟨hnPush, htPush, hlength⟩

end GstWorld

variable {content : Nat → Nat → UInt8} {s t : System GstWorld Nat}

/-- **One step of the system is a run of the channel.** -/
theorem channel_step {e : Event GstMove PullAnswer Unit}
    (h : System.Turn (gstEnv content) s e t) :
    Runs.Reachable LossyChannel.step s.env.channel t.env.channel := by
  cases h with
  | env _ hmove _ => exact GstWorld.channel_move hmove
  | grab _ _ _ hgrab _ => exact GstWorld.channel_grab hgrab
  | release _ _ _ _ hrelease _ =>
      rw [← Option.some.inj hrelease, GstWorld.channel_release]
      exact Runs.Reachable.refl _
  | count _ _ _ henv _ | inside henv _ =>
      rw [henv]
      exact Runs.Reachable.refl _

/-- **The system refines the channel.** -/
theorem channel_reachable (h : Runs.Reachable (System.step (gstEnv content)) s t) :
    Runs.Reachable LossyChannel.step s.env.channel t.env.channel :=
  Runs.run_simulates (fun s : System GstWorld Nat => s.env.channel) (I := fun _ => True)
    (fun _ _ _ _ _ => trivial)
    (fun _ _ _ _ hstep => channel_step (System.Step.of_step hstep).turn) trivial h

def handed (calls : List (Call Nat)) : List Nat :=
  (grabs calls).filterMap fun grabbed => if grabbed.1.valid then grabbed.1.data else none

/-- What the node and the backend agree on: the frames handed over, the last of which the node holds
while it holds any, and what the probe has stored. -/
structure Tracks (s : System GstWorld Nat) : Prop where
  cells : s.env.Cells
  delivered : s.env.delivered = handed s.node.calls
  held : ∀ frame, s.node.pc.held = some frame →
    ∃ ds k, s.env.delivered = ds ++ [k] ∧ frame.data = some k

theorem tracks_init (p : Params) (stamper : MmapStamper) (boxFd : Nat) :
    Tracks ⟨Node.init p stamper boxFd, {}⟩ where
  cells := GstWorld.cells_init
  delivered := rfl
  held := by
    intro frame hframe
    cases hframe

theorem handed_append_grab (calls : List (Call Nat)) (frame : Frame Nat) (bytes : List UInt8) :
    handed (calls ++ [.grab frame bytes])
      = handed calls ++ (if frame.valid then frame.data else none).toList := by
  unfold handed grabs
  rw [List.filterMap_append, List.filterMap_append]
  cases hvalid : frame.valid with
  | false => simp [hvalid]
  | true => cases hdata : frame.data <;> simp [hvalid, hdata]

theorem Tracks.grab_step (h : Tracks s) {answer : PullAnswer} {frame : Frame Nat} {w : GstWorld}
    (hgrab : s.env.grab answer = some (frame, w)) (bytes : List UInt8) :
    Tracks ⟨s.node.grabbed frame bytes, w⟩ := by
  have hspec := GstWorld.grab_spec hgrab
  have hsame : GstWorld.SamePush s.env w := by
    cases hspec <;> assumption
  refine ⟨h.cells.of_same hsame, ?_, ?_⟩
  · simp only [Node.grabbed]
    rw [handed_append_grab, ← h.delivered]
    cases hspec with
    | delivered k _ _ hdata hvalid _ hdelivered _ => simp [hdata, hvalid, hdelivered]
    | discarded k _ _ hinvalid _ hdelivered _ => simp [hinvalid, hdelivered]
    | none _ hinvalid _ hdelivered _ => simp [hinvalid, hdelivered]
  · intro other hother
    cases hspec with
    | delivered k _ _ hdata hvalid _ hdelivered _ =>
        obtain rfl : frame = other := by simpa [Node.grabbed, hvalid, Pc.held] using hother
        exact ⟨_, k, hdelivered, hdata⟩
    | discarded k _ _ hinvalid _ _ _ => simp [Node.grabbed, hinvalid, Pc.held] at hother
    | none _ hinvalid _ _ _ => simp [Node.grabbed, hinvalid, Pc.held] at hother

theorem Tracks.step (h : Tracks s) {e : Event GstMove PullAnswer Unit}
    (hturn : System.Turn (gstEnv content) s e t) : Tracks t := by
  obtain ⟨node, env⟩ := t
  cases hturn with
  | env move hmove hnode =>
      obtain rfl : node = s.node := hnode
      have hdelivered := GstWorld.delivered_move hmove
      refine ⟨h.cells.move hmove, hdelivered.trans h.delivered, ?_⟩
      intro frame hframe
      rw [hdelivered]
      exact h.held frame hframe
  | grab answer frame hpc hgrab hnode =>
      dsimp only at hgrab hnode
      subst hnode
      exact h.grab_step hgrab _
  | count frame _ hpc henv hnode =>
      obtain rfl : env = s.env := henv
      obtain rfl : node = _ := hnode
      refine ⟨h.cells, ?_, ?_⟩
      · rw [h.delivered, Node.counted, Node.account_eq]
      · intro other hother
        exact h.held other (by simpa [hpc, Node.counted, Pc.held] using hother)
  | release frame answer _ hpc hrelease hnode =>
      obtain rfl : node = s.node.released := hnode
      obtain rfl : s.env.release = env := Option.some.inj hrelease
      obtain ⟨hsame, -, hdelivered, -⟩ := s.env.release_spec
      refine ⟨h.cells.of_same hsame, ?_, ?_⟩
      · rw [hdelivered, h.delivered]
        simp [handed, grabs, Node.released]
      · intro frame hframe
        cases hframe
  | inside henv hinside =>
      obtain rfl : env = s.env := henv
      refine ⟨h.cells, ?_, ?_⟩
      · rw [handed, hinside.grabs]
        exact h.delivered
      · intro frame hframe
        exact h.held frame (hinside.held_of_held hframe)

theorem tracks_reachable {p : Params} {stamper : MmapStamper} {boxFd : Nat}
    (h : Runs.Reachable (System.step (gstEnv content)) ⟨Node.init p stamper boxFd, {}⟩ s) :
    Tracks s :=
  System.invariant (I := Tracks) (fun _ _ _ hs hstep => hs.step hstep.turn)
    (tracks_init p stamper boxFd) h

end EconRos2Driver
