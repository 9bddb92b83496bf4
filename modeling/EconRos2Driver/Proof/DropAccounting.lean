import EconRos2Driver.Library.GapCount
import EconRos2Driver.Proof.GstPipeline

/-!
# Drop accounting over the GStreamer backend

The loop samples the probe's counter once for every valid frame and adds the excess over one to
`totalDrops`. The counter runs ahead of the frame in hand by what is still in flight, so a sample
can count a frame as dropped that arrives later; and since a difference of zero adds nothing, the
total never comes back down. It therefore never misses a dropped frame, and it is sound exactly
while no counted frame is in flight at a sample.
-/

namespace EconRos2Driver

open LossyChannel

section Account

variable {S P : Type} (n : Node S P) (pushNow : UInt64)

def gaps (n : Node S P) : GapCount.Gaps where
  seen := n.lastPushSeen.toNat
  received := n.nPull.toNat
  missed := n.totalDrops.toNat

@[simp]
theorem account_lastPushSeen : (n.account pushNow).lastPushSeen = pushNow := by
  unfold Node.account
  dsimp only
  split_ifs <;> rfl

@[simp]
theorem account_nPull : (n.account pushNow).nPull = n.nPull + 1 := by
  unfold Node.account
  dsimp only
  split_ifs <;> rfl

theorem account_totalDrops : (n.account pushNow).totalDrops.toNat
    = (n.totalDrops.toNat + ((pushNow - n.lastPushSeen).toNat - 1)) % 2 ^ 64 := by
  unfold Node.account
  dsimp only
  split_ifs with hgap
  · have hone : (1 : UInt64) ≤ pushNow - n.lastPushSeen := UInt64.le_of_lt hgap
    dsimp only
    rw [UInt64.toNat_add, UInt64.toNat_sub_of_le _ _ hone]
    rfl
  · have hle : (pushNow - n.lastPushSeen).toNat ≤ 1 := by
      simpa [UInt64.lt_iff_toNat_lt] using hgap
    have hlt := n.totalDrops.toNat_lt
    dsimp only
    omega

variable {n pushNow}

/-- **While the counter does not go back, the loop counts gaps.** -/
theorem gaps_account (hseen : n.lastPushSeen.toNat ≤ pushNow.toNat)
    (hpull : n.nPull.toNat + 1 < 2 ^ 64) (htotal : n.totalDrops.toNat ≤ n.lastPushSeen.toNat) :
    gaps (n.account pushNow) = GapCount.observe (gaps n) pushNow.toNat := by
  have hgap : (pushNow - n.lastPushSeen).toNat = pushNow.toNat - n.lastPushSeen.toNat :=
    UInt64.toNat_sub_of_le _ _ (UInt64.le_iff_toNat_le.mpr hseen)
  have hlt := pushNow.toNat_lt
  have hreceived : (n.nPull + 1).toNat = n.nPull.toNat + 1 := by
    rw [UInt64.toNat_add]
    exact Nat.mod_eq_of_lt hpull
  have hmissed : (n.account pushNow).totalDrops.toNat
      = n.totalDrops.toNat + (pushNow.toNat - n.lastPushSeen.toNat - 1) := by
    rw [account_totalDrops, hgap]
    exact Nat.mod_eq_of_lt (by omega)
  simp only [gaps, GapCount.observe, account_lastPushSeen, account_nPull, hreceived, hmissed]

end Account

theorem gaps_of_sameCounters {m n : Node S P} (h : n.SameCounters m) : gaps m = gaps n := by
  simp only [gaps, h.nPull, h.lastPushSeen, h.totalDrops]

variable {content : Nat → Nat → UInt8} {s t : System GstWorld Nat}

/-- The frames whose drops have been accounted for: all that were delivered, except one that `grab`
has just returned. -/
def accounted (s : System GstWorld Nat) : Nat :=
  match s.node.pc with
  | .grabbed _ => s.env.delivered.length - 1
  | _ => s.env.delivered.length

/-- **What a step does to the accounting.** It counts the frame in hand, or it leaves the counters
alone and moves the channel. -/
inductive Accounting (s : System GstWorld Nat) (e : Event GstMove PullAnswer Unit)
    (t : System GstWorld Nat) : Prop where
  | count (ds : List Nat) (k : Nat) (he : e = .count) (hdelivered : s.env.delivered = ds ++ [k])
      (hbefore : accounted s = ds.length) (hafter : accounted t = ds.length + 1)
      (henv : t.env = s.env)
      (hcounters : (s.node.account s.env.backend.nPush).SameCounters t.node)
  | move (hcounters : s.node.SameCounters t.node) (haccounted : accounted t = accounted s)
      (hchannel : Runs.Reachable LossyChannel.step s.env.channel t.env.channel)

theorem accounted_of_grabbed (hs : Tracks s) {frame : Frame Nat}
    (hpc : s.node.pc = .grabbed frame) :
    ∃ ds k, s.env.delivered = ds ++ [k] ∧ accounted s = ds.length := by
  obtain ⟨ds, k, hdelivered, -⟩ := hs.held frame (by rw [hpc]; rfl)
  exact ⟨ds, k, hdelivered, by simp [accounted, hpc, hdelivered]⟩

theorem accounting {e : Event GstMove PullAnswer Unit} (hs : Tracks s)
    (h : System.Turn (gstEnv content) s e t) : Accounting s e t := by
  have hchannel := channel_step h
  cases h with
  | env move hmove hnode =>
      have hdelivered := GstWorld.delivered_move hmove
      have haccounted : accounted t = accounted s := by simp only [accounted, hnode, hdelivered]
      exact .move (by rw [hnode]; exact ⟨rfl, rfl, rfl⟩) haccounted hchannel
  | grab answer frame hpc hgrab hnode =>
      refine .move (by rw [hnode]; exact ⟨rfl, rfl, rfl⟩) ?_ hchannel
      have hbefore : accounted s = s.env.delivered.length := by simp only [accounted, hpc]
      rw [hbefore, accounted, hnode]
      cases GstWorld.grab_spec hgrab with
      | delivered k _ _ _ hvalid _ hdelivered _ => simp [Node.grabbed, hvalid, hdelivered]
      | discarded k _ _ hinvalid _ hdelivered _ => simp [Node.grabbed, hinvalid, hdelivered]
      | none _ hinvalid _ hdelivered _ => simp [Node.grabbed, hinvalid, hdelivered]
  | count frame he hpc henv hnode =>
      obtain ⟨ds, k, hdelivered, hbefore⟩ := accounted_of_grabbed hs hpc
      refine .count ds k he hdelivered hbefore ?_ henv ?_
      · simp [accounted, hnode, henv, Node.counted, hdelivered]
      · rw [hnode]
        exact ⟨rfl, rfl, rfl⟩
  | release frame answer _ hpc hrelease hnode =>
      refine .move (by rw [hnode]; exact ⟨rfl, rfl, rfl⟩) ?_ hchannel
      have hdelivered : t.env.delivered = s.env.delivered := by
        rw [← Option.some.inj hrelease]
        exact s.env.release_spec.2.2.1
      simp only [accounted, hpc, hnode, Node.released, hdelivered]
  | inside henv hinside =>
      refine .move hinside.counters ?_ hchannel
      have hlength : ∀ u : System GstWorld Nat, (∀ frame, u.node.pc ≠ .grabbed frame) →
          accounted u = u.env.delivered.length := by
        intro u hu
        unfold accounted
        split
        · exact absurd ‹_› (hu _)
        · rfl
      rw [hlength t fun frame => (hinside.not_grabbed frame).2,
        hlength s fun frame => (hinside.not_grabbed frame).1, henv]

theorem counted_le (h : Runs.Reachable LossyChannel.step s.env.channel t.env.channel) :
    s.env.counted ≤ t.env.counted := (Grows.run h).entered

/-! ### No missed drop -/

structure Covering (s : System GstWorld Nat) : Prop where
  tracks : Tracks s
  ordered : Ordered s.env.channel
  pulls : s.node.nPull.toNat = accounted s
  seen : s.node.lastPushSeen.toNat ≤ s.env.counted
  total : s.node.totalDrops.toNat ≤ s.node.lastPushSeen.toNat
  covers : GapCount.Covers (gaps s.node)
  before : ∀ j ∈ s.env.delivered.take (accounted s), j < s.node.lastPushSeen.toNat

theorem covering_init (p : Params) (stamper : MmapStamper) (boxFd : Nat) :
    Covering ⟨Node.init p stamper boxFd, {}⟩ where
  tracks := tracks_init p stamper boxFd
  ordered := ordered_empty
  pulls := rfl
  seen := Nat.le_refl 0
  total := Nat.le_refl 0
  covers := Nat.le_refl 0
  before := by
    intro j hj
    cases hj

theorem Tracks.toNat_nPush (h : Tracks s) (hpushes : s.env.counted < 2 ^ 64) :
    s.env.backend.nPush.toNat = s.env.counted := by
  rw [h.cells.nPush, UInt64.toNat_ofNat']
  exact Nat.mod_eq_of_lt hpushes

theorem Covering.count (h : Covering s) (hpushes : s.env.counted < 2 ^ 64) {ds : List Nat}
    {k : Nat} (htracks : Tracks t) (hdelivered : s.env.delivered = ds ++ [k])
    (hbefore : accounted s = ds.length) (hafter : accounted t = ds.length + 1)
    (henv : t.env = s.env)
    (hcounters : (s.node.account s.env.backend.nPush).SameCounters t.node) : Covering t := by
  have hnPush := h.tracks.toNat_nPush hpushes
  have hconserved := h.ordered.length_eq
  have hlength : s.env.delivered.length = ds.length + 1 := by simp [hdelivered]
  have hpull : s.node.nPull.toNat + 1 < 2 ^ 64 := by
    have : s.env.delivered.length ≤ s.env.counted := by
      have : s.env.delivered.length + s.env.inflight.length + s.env.lost.length = s.env.counted :=
        hconserved
      omega
    rw [h.pulls, hbefore]
    omega
  have hgaps : gaps t.node = GapCount.observe (gaps s.node) s.env.counted := by
    rw [gaps_of_sameCounters hcounters,
      gaps_account (by rw [hnPush]; exact h.seen) hpull h.total, hnPush]
  have hseen : t.node.lastPushSeen.toNat = s.env.counted := congrArg GapCount.Gaps.seen hgaps
  have hreceived : t.node.nPull.toNat = s.node.nPull.toNat + 1 :=
    congrArg GapCount.Gaps.received hgaps
  refine ⟨htracks, by rw [henv]; exact h.ordered, ?_, ?_, ?_, ?_, ?_⟩
  · rw [hreceived, h.pulls, hbefore, hafter]
  · rw [hseen, henv]
  · have hmissed : t.node.totalDrops.toNat
        = (GapCount.observe (gaps s.node) s.env.counted).missed :=
      congrArg GapCount.Gaps.missed hgaps
    rw [hmissed, hseen]
    exact GapCount.missed_observe_le h.total h.seen
  · rw [hgaps]
    exact h.covers.observe _
  · intro j hj
    rw [hseen]
    rw [henv] at hj
    exact h.ordered.bounded j (List.mem_append_left _ (List.mem_of_mem_take hj))

theorem Covering.step (h : Covering s) (hpushes : s.env.counted < 2 ^ 64)
    {e : Event GstMove PullAnswer Unit} (hturn : System.Turn (gstEnv content) s e t) :
    Covering t := by
  have htracks := h.tracks.step hturn
  cases accounting h.tracks hturn with
  | count ds k _ hdelivered hbefore hafter henv hcounters =>
      exact h.count hpushes htracks hdelivered hbefore hafter henv hcounters
  | move hcounters haccounted hchannel =>
      have hgrows := Grows.run hchannel
      refine ⟨htracks, h.ordered.run hchannel, ?_, ?_, ?_, ?_, ?_⟩
      · rw [hcounters.nPull, haccounted, h.pulls]
      · rw [hcounters.lastPushSeen]
        exact h.seen.trans hgrows.entered
      · rw [hcounters.totalDrops, hcounters.lastPushSeen]
        exact h.total
      · rw [gaps_of_sameCounters hcounters]
        exact h.covers
      · have hle : accounted s ≤ s.env.delivered.length := by
          unfold accounted
          split <;> omega
        intro j hj
        obtain ⟨rest, hrest⟩ := hgrows.delivered
        rw [hcounters.lastPushSeen]
        apply h.before j
        have hrest : t.env.delivered = s.env.delivered ++ rest := hrest.symm
        rwa [haccounted, hrest, List.take_append_of_le_length hle] at hj

theorem covering_reachable {p : Params} {stamper : MmapStamper} {boxFd : Nat}
    (h : Runs.Reachable (System.step (gstEnv content)) ⟨Node.init p stamper boxFd, {}⟩ s)
    (hpushes : s.env.counted < 2 ^ 64) : Covering s := by
  refine System.invariant (I := fun s => s.env.counted < 2 ^ 64 → Covering s) ?_
    (fun _ => covering_init p stamper boxFd) h hpushes
  intro s e t hs hstep ht
  have hle : s.env.counted ≤ t.env.counted := counted_le (channel_step hstep.turn)
  exact (hs (hle.trans_lt ht)).step (hle.trans_lt ht) hstep.turn

/-- **No missed drop.** The sample never runs behind the counter, and once the last frame `k` handed
to the loop is accounted for, the total covers every frame before `k` that was not handed over. -/
theorem missed_le_totalDrops (content : Nat → Nat → UInt8) (p : Params) (stamper : MmapStamper)
    (boxFd : Nat)
    (h : Runs.Reachable (System.step (gstEnv content)) ⟨Node.init p stamper boxFd, {}⟩ s)
    (hpushes : s.env.counted < 2 ^ 64) :
    s.node.lastPushSeen ≤ (gstEnv content).pushCount s.env ∧
    ∀ ds k, handed s.node.calls = ds ++ [k] → (∀ frame, s.node.pc ≠ .grabbed frame) →
      ((Finset.range k).filter (· ∉ handed s.node.calls)).card ≤ s.node.totalDrops.toNat := by
  have hcovering := covering_reachable h hpushes
  have hnPush := hcovering.tracks.toNat_nPush hpushes
  refine ⟨?_, ?_⟩
  · rw [UInt64.le_iff_toNat_le]
    exact hcovering.seen.trans hnPush.ge
  · intro ds k hhanded hpc
    rw [← hcovering.tracks.delivered] at hhanded ⊢
    have haccounted : accounted s = s.env.delivered.length := by
      unfold accounted
      split
      · exact absurd ‹_› (hpc _)
      · rfl
    have hbefore : k < s.node.lastPushSeen.toNat := by
      apply hcovering.before k
      rw [haccounted, List.take_length, hhanded]
      exact List.mem_append_right _ (List.mem_singleton_self k)
    have hcovers : s.node.lastPushSeen.toNat ≤ s.node.nPull.toNat + s.node.totalDrops.toNat :=
      hcovering.covers
    have hmissed : missedBefore s.env.channel k + s.env.delivered.length = k + 1 :=
      hcovering.ordered.missedBefore_add hhanded
    have hpulls := hcovering.pulls
    show missedBefore s.env.channel k ≤ s.node.totalDrops.toNat
    omega

/-- Frame 0 is overwritten in the appsink by frame 1, which is grabbed and published. -/
def overwriteRun : List (Event GstMove PullAnswer Unit) :=
  [.env (.pushTime 5), .env .pushCount, .env .pushOn, .env .arrive,
   .env (.pushTime 6), .env .pushCount, .env .pushOn, .env .arrive,
   .grab (.sample true true (some 3)), .count, .tryOpen ⟨none, none⟩, .readLow 7, .copy,
   .logCbk 9, .publish, .logPub 11, .release ()]

theorem missed_le_totalDrops_overwriteRun : ∃ s,
    Runs.run (System.step (gstEnv rampContent))
        ⟨Node.init (loadParams { compressed := some true }), {}⟩ overwriteRun = some s ∧
      handed s.node.calls = [] ++ [1] ∧ s.node.totalDrops = 1 ∧
      ((Finset.range 1).filter (· ∉ handed s.node.calls)).card ≤ s.node.totalDrops.toNat := by
  refine ⟨_, rfl, rfl, rfl, ?_⟩
  have hrun := missed_le_totalDrops rampContent (loadParams { compressed := some true }) {} 3
    ⟨overwriteRun, rfl⟩ (by decide)
  exact hrun.2 [] 1 rfl (by intro frame hpc; cases hpc)

/-! ### No false drop, while nothing is in flight at a sample -/

/-- When the loop samples the counter, no counted frame is in flight. -/
def SamplesIdle (s : System GstWorld Nat) (e : Event GstMove PullAnswer Unit) : Prop :=
  match e with
  | .count => s.env.inflight = []
  | _ => True

instance (s : System GstWorld Nat) : ∀ e, Decidable (SamplesIdle s e)
  | .count => inferInstanceAs (Decidable (s.env.inflight = []))
  | .env _ | .exit | .grab _ | .tryOpen _ | .readLow _ | .copy | .logCbk _ | .publish | .logPub _
  | .release _ => inferInstanceAs (Decidable True)

/-- `seen` counts the frames the total has accounted for: every one of them was handed over or is
lost. The last field is the other half, which holds while the push counter has not wrapped. -/
structure Counted (s : System GstWorld Nat) (seen : Nat) : Prop where
  lastPushSeen : s.node.lastPushSeen = UInt64.ofNat seen
  total : s.node.totalDrops.toNat + accounted s ≤ seen
  since : Since s.env.channel (accounted s) seen
  exact : s.env.counted < 2 ^ 64 → s.node.totalDrops.toNat + accounted s = seen

structure SoundDrops (s : System GstWorld Nat) : Prop where
  tracks : Tracks s
  ordered : Ordered s.env.channel
  counted : ∃ seen, Counted s seen

theorem soundDrops_init (p : Params) (stamper : MmapStamper) (boxFd : Nat) :
    SoundDrops ⟨Node.init p stamper boxFd, {}⟩ where
  tracks := tracks_init p stamper boxFd
  ordered := ordered_empty
  counted := ⟨0, rfl, Nat.le_refl 0, ordered_empty.since rfl, fun _ => rfl⟩

theorem Counted.fresh {seen : Nat} (h : Counted s seen) {ds : List Nat} {k : Nat}
    (hdelivered : s.env.delivered = ds ++ [k]) (hbefore : accounted s = ds.length) : seen ≤ k := by
  refine h.since.fresh k (List.mem_append_left _ ?_)
  have hchannel : s.env.channel.delivered = ds ++ [k] := hdelivered
  rw [hchannel, hbefore, List.drop_left]
  exact List.mem_singleton_self k

theorem Counted.sample {seen : Nat} (h : Counted s seen) (hs : SoundDrops s) {ds : List Nat}
    {k : Nat} (hdelivered : s.env.delivered = ds ++ [k]) (hbefore : accounted s = ds.length)
    (hcounters : (s.node.account s.env.backend.nPush).SameCounters t.node) :
    t.node.totalDrops.toNat + (ds.length + 1) ≤ s.env.counted ∧
    (s.env.counted < 2 ^ 64 → t.node.totalDrops.toNat + (ds.length + 1) = s.env.counted) := by
  have hfresh : seen ≤ k := h.fresh hdelivered hbefore
  have hk : k < s.env.counted := hs.ordered.last_lt hdelivered
  have htotal := h.total
  rw [hbefore] at htotal
  have hgap : (s.env.backend.nPush - s.node.lastPushSeen).toNat
      = (2 ^ 64 - seen % 2 ^ 64 + s.env.counted % 2 ^ 64) % 2 ^ 64 := by
    rw [hs.tracks.cells.nPush, h.lastPushSeen, UInt64.toNat_sub, UInt64.toNat_ofNat',
      UInt64.toNat_ofNat']
  have hdrops := account_totalDrops s.node s.env.backend.nPush
  rw [← hcounters.totalDrops] at hdrops
  refine ⟨?_, ?_⟩
  · have hle : (s.env.backend.nPush - s.node.lastPushSeen).toNat ≤ s.env.counted - seen := by
      rw [hgap]
      omega
    omega
  · intro hpushes
    have hexact := h.exact hpushes
    rw [hbefore] at hexact
    have heq : (s.env.backend.nPush - s.node.lastPushSeen).toNat = s.env.counted - seen := by
      rw [hgap]
      omega
    omega

theorem SoundDrops.step (h : SoundDrops s) {e : Event GstMove PullAnswer Unit}
    (hidle : SamplesIdle s e) (hturn : System.Turn (gstEnv content) s e t) : SoundDrops t := by
  obtain ⟨seen, hseen⟩ := h.counted
  have htracks := h.tracks.step hturn
  have hordered : Ordered t.env.channel := h.ordered.run (channel_step hturn)
  cases accounting h.tracks hturn with
  | count ds k he hdelivered hbefore hafter henv hcounters =>
      obtain ⟨hle, hexact⟩ := hseen.sample h hdelivered hbefore hcounters
      have hinflight : s.env.channel.inflight = [] := by
        rw [he] at hidle
        exact hidle
      refine ⟨htracks, hordered, s.env.counted, ?_, ?_, ?_, ?_⟩
      · rw [hcounters.lastPushSeen, account_lastPushSeen, h.tracks.cells.nPush]
      · rw [hafter]
        exact hle
      · have hlength : s.env.channel.delivered.length = ds.length + 1 := by
          simp [GstWorld.channel, hdelivered]
        rw [henv, hafter, ← hlength]
        exact h.ordered.since hinflight
      · rw [henv, hafter]
        exact hexact
  | move hcounters haccounted hchannel =>
      refine ⟨htracks, hordered, seen, ?_, ?_, ?_, ?_⟩
      · rw [hcounters.lastPushSeen, hseen.lastPushSeen]
      · rw [hcounters.totalDrops, haccounted]
        exact hseen.total
      · rw [haccounted]
        exact hseen.since.run hchannel
      · intro hpushes
        rw [hcounters.totalDrops, haccounted]
        exact hseen.exact ((counted_le hchannel).trans_lt hpushes)

theorem soundDrops_run {p : Params} {stamper : MmapStamper} {boxFd : Nat}
    {events : List (Event GstMove PullAnswer Unit)}
    (h : Runs.run (System.step (gstEnv content)) ⟨Node.init p stamper boxFd, {}⟩ events = some s)
    (hidle : Runs.EachStep (System.step (gstEnv content)) SamplesIdle
      ⟨Node.init p stamper boxFd, {}⟩ events) : SoundDrops s :=
  Runs.invariant_of_eachStep
    (fun _ _ _ hs hidle hstep => hs.step hidle (System.Step.of_step hstep).turn)
    (soundDrops_init p stamper boxFd) hidle h

/-- **No false drop while the samples are idle.** If no counted frame is in flight whenever the loop
samples the counter, the total never exceeds the number of lost frames. These were counted, and none
of them is ever handed to the loop; when every counted frame is handed over, the total is zero. -/
theorem totalDrops_le_lost (content : Nat → Nat → UInt8) (p : Params) (stamper : MmapStamper)
    (boxFd : Nat) (events : List (Event GstMove PullAnswer Unit))
    (h : Runs.run (System.step (gstEnv content)) ⟨Node.init p stamper boxFd, {}⟩ events = some s)
    (hidle : Runs.EachStep (System.step (gstEnv content)) SamplesIdle
      ⟨Node.init p stamper boxFd, {}⟩ events) :
    s.node.totalDrops.toNat ≤ s.env.lost.length ∧
    s.env.lost.Nodup ∧
    (∀ k ∈ s.env.lost, k < s.env.counted ∧
      ∀ u, Runs.Reachable (System.step (gstEnv content)) s u → k ∉ handed u.node.calls) ∧
    ∀ u, Runs.Reachable (System.step (gstEnv content)) s u →
      (handed u.node.calls).length = u.env.counted → s.node.totalDrops = 0 := by
  have hsound := soundDrops_run h hidle
  obtain ⟨seen, hseen⟩ := hsound.counted
  have htotal : s.node.totalDrops.toNat ≤ s.env.lost.length := by
    have hlost : seen ≤ accounted s + s.env.lost.length := hseen.since.le_lost
    have := hseen.total
    omega
  have hlater : ∀ u, Runs.Reachable (System.step (gstEnv content)) s u →
      u.env.delivered = handed u.node.calls := fun u hu =>
    (tracks_reachable (Runs.Reachable.trans ⟨events, h⟩ hu)).delivered
  refine ⟨htotal, ?_, ?_, ?_⟩
  · exact (List.nodup_append.mp (hsound.ordered.conserved.nodup_iff.mpr List.nodup_range)).2.1
  · intro k hk
    refine ⟨?_, ?_⟩
    · exact List.mem_range.mp (hsound.ordered.conserved.subset (List.mem_append_right _ hk))
    · intro u hu
      rw [← hlater u hu]
      exact hsound.ordered.not_delivered_of_lost (channel_reachable hu) hk
  · intro u hu hall
    have hconserved := (hsound.ordered.run (channel_reachable hu)).length_eq
    have hgrows : s.env.lost.length ≤ u.env.lost.length :=
      (Grows.run (channel_reachable hu)).lost.length_le
    rw [← hlater u hu] at hall
    have hzero : s.node.totalDrops.toNat = 0 := by
      have : u.env.delivered.length + u.env.inflight.length + u.env.lost.length = u.env.counted :=
        hconserved
      omega
    exact UInt64.toNat_inj.mp hzero

theorem totalDrops_le_lost_overwriteRun : ∃ s,
    Runs.run (System.step (gstEnv rampContent))
        ⟨Node.init (loadParams { compressed := some true }), {}⟩ overwriteRun = some s ∧
      s.env.lost = [0] ∧ s.node.totalDrops = 1 ∧ s.node.totalDrops.toNat ≤ s.env.lost.length := by
  refine ⟨_, rfl, rfl, rfl, ?_⟩
  exact (totalDrops_le_lost rampContent (loadParams { compressed := some true }) {} 3 overwriteRun
    rfl (by decide)).1

/-- **The condition is exact.** After a run of idle samples, a sample with a frame in flight makes
the total too large at once. -/
theorem lost_lt_totalDrops_of_inflight {p : Params} {stamper : MmapStamper} {boxFd : Nat}
    {events : List (Event GstMove PullAnswer Unit)}
    (h : Runs.run (System.step (gstEnv content)) ⟨Node.init p stamper boxFd, {}⟩ events = some s)
    (hidle : Runs.EachStep (System.step (gstEnv content)) SamplesIdle
      ⟨Node.init p stamper boxFd, {}⟩ events)
    (hstep : System.step (gstEnv content) s .count = some t) (hpushes : s.env.counted < 2 ^ 64)
    (hinflight : s.env.inflight ≠ []) : t.env.lost.length < t.node.totalDrops.toNat := by
  have hsound := soundDrops_run h hidle
  obtain ⟨seen, hseen⟩ := hsound.counted
  cases System.Step.of_step hstep with
  | @count frame hpc =>
      obtain ⟨ds, k, hdelivered, hbefore⟩ := accounted_of_grabbed hsound.tracks hpc
      obtain ⟨-, hexact⟩ := hseen.sample
        (t := ⟨s.node.counted frame s.env.backend.nPush, s.env⟩) hsound hdelivered hbefore
        ⟨rfl, rfl, rfl⟩
      have htotal : (s.node.counted frame s.env.backend.nPush).totalDrops.toNat + (ds.length + 1)
          = s.env.counted := hexact hpushes
      have hconserved : s.env.delivered.length + s.env.inflight.length + s.env.lost.length
          = s.env.counted := hsound.ordered.length_eq
      have hlength : s.env.delivered.length = ds.length + 1 := by simp [hdelivered]
      have hpos : 0 < s.env.inflight.length := List.length_pos_of_ne_nil hinflight
      show s.env.lost.length < (s.node.counted frame s.env.backend.nPush).totalDrops.toNat
      omega

/-- Frame 1 is counted between the `grab` of frame 0 and the sample, and handed over afterwards. -/
def earlySampleRun : List (Event GstMove PullAnswer Unit) :=
  [.env (.pushTime 5), .env .pushCount, .env .pushOn, .env .arrive,
   .grab (.sample true true (some 3)),
   .env (.pushTime 6), .env .pushCount, .count, .tryOpen ⟨none, none⟩, .readLow 7, .copy,
   .logCbk 9, .publish, .logPub 11, .release (),
   .env .pushOn, .env .arrive, .grab (.sample true true (some 3)), .count, .tryOpen ⟨none, none⟩,
   .readLow 8, .copy, .logCbk 12, .publish, .logPub 13, .release ()]

/-- Both frames pushed are handed over, nothing is lost or in flight, and the total is one. -/
theorem false_drop_earlySampleRun : ∃ s,
    Runs.run (System.step (gstEnv rampContent))
        ⟨Node.init (loadParams { compressed := some true }), {}⟩ earlySampleRun = some s ∧
      s.env.counted = 2 ∧ handed s.node.calls = [0, 1] ∧ s.env.inflight = [] ∧ s.env.lost = [] ∧
      ¬ s.node.totalDrops.toNat ≤ s.env.lost.length := by
  refine ⟨_, rfl, rfl, rfl, rfl, rfl, ?_⟩
  decide

end EconRos2Driver
