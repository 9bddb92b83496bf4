import EconRos2Driver.Proof.BufferOwnership
import EconRos2Driver.Proof.DropAccounting

/-!
# What the drop total is, over any backend

The loop samples `push_count` once for every valid frame. In the arithmetic of `uint64_t` each
sample moves `total_drops_ + n_pull_` by what it moves `last_push_seen_`, except that a sample equal
to the one before moves the sum by one. So over any backend and any run the sum exceeds
`last_push_seen_` by the number of repeated samples, and everything known about the total on one
backend follows from what its samples are.
-/

namespace EconRos2Driver

open GapCount

section Tally

variable {S P M G R : Type} (E : Env S P M G R)

/-- What `push_count` returns in a step of the loop. -/
def sampled (s : System S P) : Event M G R → List UInt64
  | .count => [E.pushCount s.env]
  | _ => []

def samples (s : System S P) (events : List (Event M G R)) : List UInt64 :=
  Runs.outputs (System.step E) (sampled E) s events

theorem account_sum (n : Node S P) (pushNow : UInt64) :
    (n.account pushNow).totalDrops + (n.account pushNow).nPull + n.lastPushSeen
      = n.totalDrops + n.nPull + pushNow + if pushNow = n.lastPushSeen then 1 else 0 := by
  rw [account_nPull]
  unfold Node.account
  dsimp only
  by_cases hrepeat : pushNow = n.lastPushSeen
  · have hgap : ¬ pushNow - n.lastPushSeen > 1 := by
      rw [hrepeat, UInt64.sub_self]
      decide
    rw [if_neg hgap, if_pos hrepeat, hrepeat]
    grind
  · rw [if_neg hrepeat]
    by_cases hgap : pushNow - n.lastPushSeen > 1
    · rw [if_pos hgap]
      grind
    · have hone : pushNow - n.lastPushSeen = 1 := by
        have hne : pushNow - n.lastPushSeen ≠ 0 := by
          intro hzero
          exact hrepeat (by grind)
        have hpos : (pushNow - n.lastPushSeen).toNat ≠ 0 := by
          intro hzero
          exact hne (UInt64.toNat_inj.mp hzero)
        rw [gt_iff_lt, UInt64.lt_iff_toNat_lt] at hgap
        apply UInt64.toNat_inj.mp
        simp only [UInt64.toNat_one] at hgap ⊢
        omega
      rw [if_neg hgap]
      grind

/-- The counters after the samples `past`; this holds whatever the samples are. -/
structure Tally (n : Node S P) (past : List UInt64) : Prop where
  nPull : n.nPull = UInt64.ofNat past.length
  lastPushSeen : n.lastPushSeen = past.getLastD 0
  total : n.totalDrops + n.nPull = n.lastPushSeen + UInt64.ofNat (repeats 0 past)

theorem tally_init (p : Params) (stamper : MmapStamper) (boxFd : Nat) :
    Tally (Node.init p stamper boxFd : Node S P) [] := ⟨rfl, rfl, rfl⟩

theorem Tally.of_sameCounters {n m : Node S P} {past : List UInt64} (h : Tally n past)
    (hsame : n.SameCounters m) : Tally m past := by
  refine ⟨?_, ?_, ?_⟩
  · rw [hsame.nPull, h.nPull]
  · rw [hsame.lastPushSeen, h.lastPushSeen]
  · rw [hsame.totalDrops, hsame.nPull, hsame.lastPushSeen, h.total]

theorem Tally.account {n : Node S P} {past : List UInt64} (h : Tally n past) (pushNow : UInt64) :
    Tally (n.account pushNow) (past ++ [pushNow]) := by
  refine ⟨?_, ?_, ?_⟩
  · rw [account_nPull, h.nPull, List.length_append, UInt64.ofNat_add]
    rfl
  · rw [account_lastPushSeen, List.getLastD_concat]
  · have hsum := account_sum n pushNow
    have htotal := h.total
    rw [repeats_append, ← h.lastPushSeen, account_lastPushSeen, UInt64.ofNat_add]
    by_cases hrepeat : pushNow = n.lastPushSeen
    · rw [if_pos hrepeat] at hsum ⊢
      grind
    · rw [if_neg hrepeat] at hsum ⊢
      grind

variable {E}

theorem sampled_of_ne (s : System S P) {e : Event M G R} (he : e ≠ .count) :
    sampled E s e = [] := by
  cases e with
  | count => exact absurd rfl he
  | env | exit | grab | tryOpen | readLow | copy | logCbk | publish | logPub | release => rfl

theorem System.Step.sameCounters {s t : System S P} {e : Event M G R} (h : System.Step E s e t)
    (he : e ≠ .count) : s.node.SameCounters t.node := by
  cases h.turn with
  | env _ _ hnode | grab _ _ _ _ hnode | release _ _ _ _ _ hnode =>
      rw [hnode]
      exact ⟨rfl, rfl, rfl⟩
  | count _ hcount _ _ _ => exact absurd hcount he
  | inside _ hinside => exact hinside.counters

theorem Tally.step {s t : System S P} {past : List UInt64} {e : Event M G R}
    (h : Tally s.node past) (hstep : System.Step E s e t) :
    Tally t.node (past ++ sampled E s e) := by
  by_cases he : e = .count
  · subst he
    cases hstep with
    | count hpc => exact (h.account _).of_sameCounters ⟨rfl, rfl, rfl⟩
  · rw [sampled_of_ne s he, List.append_nil]
    exact h.of_sameCounters (hstep.sameCounters he)

theorem tally_run {p : Params} {stamper : MmapStamper} {boxFd : Nat} {w : S} {s : System S P}
    {events : List (Event M G R)}
    (h : Runs.run (System.step E) ⟨Node.init p stamper boxFd, w⟩ events = some s) :
    Tally s.node (samples E ⟨Node.init p stamper boxFd, w⟩ events) :=
  Runs.invariant_of_outputs (I := fun s past => Tally s.node past)
    (fun _ _ _ _ hs hstep => hs.step (.of_step hstep)) (tally_init p stamper boxFd) h

/-! ### Samples that only grow -/

theorem Tally.exact {n : Node S P} {past : List UInt64} (h : Tally n past)
    (hrepeats : repeats 0 past = 0) (hlength : past.length ≤ n.lastPushSeen.toNat) :
    n.totalDrops.toNat + n.nPull.toNat = n.lastPushSeen.toNat ∧ n.nPull.toNat = past.length := by
  have hpull : n.nPull.toNat = past.length := by
    have hlt := n.lastPushSeen.toNat_lt
    rw [h.nPull, UInt64.toNat_ofNat']
    exact Nat.mod_eq_of_lt (by omega)
  have htotal := h.total
  rw [hrepeats] at htotal
  have hsub : n.totalDrops = n.lastPushSeen - n.nPull := by grind
  have hle : n.nPull ≤ n.lastPushSeen := UInt64.le_iff_toNat_le.mpr (by omega)
  refine ⟨?_, hpull⟩
  rw [hsub, UInt64.toNat_sub_of_le _ _ hle]
  omega

theorem toNat_getLastD (past : List UInt64) :
    (past.map UInt64.toNat).getLastD 0 = (past.getLastD 0).toNat := by
  rw [List.getLastD_eq_getLast?, List.getLast?_map, List.getLastD_eq_getLast?]
  cases past.getLast? <;> rfl

theorem pairwise_toNat {past : List UInt64} (h : (0 :: past).Pairwise (· < ·)) :
    (0 :: past.map UInt64.toNat).Pairwise (· < ·) := by
  have hmap := h.map UInt64.toNat fun _ _ hlt => UInt64.lt_iff_toNat_lt.mp hlt
  simpa using hmap

theorem Tally.exact_of_growing {n : Node S P} {past : List UInt64} (h : Tally n past)
    (hgrow : (0 :: past).Pairwise (· < ·)) :
    n.totalDrops.toNat + n.nPull.toNat = n.lastPushSeen.toNat ∧ n.nPull.toNat = past.length := by
  apply h.exact (repeats_eq_zero (fun a => UInt64.lt_irrefl a) hgrow)
  have hlength := length_add_le_getLastD (pairwise_toNat hgrow)
  rwa [toNat_getLastD, ← h.lastPushSeen, List.length_map, Nat.add_zero] at hlength

def received (calls : List (Call P)) : Nat := (grabs calls).countP fun grab => grab.1.valid

def uncounted (pc : Pc S P) : Nat :=
  match pc with
  | .grabbed _ => 1
  | _ => 0

theorem uncounted_eq_zero {pc : Pc S P} (h : ∀ frame, pc ≠ .grabbed frame) : uncounted pc = 0 := by
  unfold uncounted
  split
  · exact absurd rfl (h _)
  · rfl

theorem uncounted_grabbed (n : Node S P) (frame : Frame P) (bytes : List UInt8) :
    uncounted (n.grabbed frame bytes).pc = if frame.valid then 1 else 0 := by
  unfold Node.grabbed
  cases frame.valid <;> rfl

theorem received_append_grab (calls : List (Call P)) (frame : Frame P) (bytes : List UInt8) :
    received (calls ++ [.grab frame bytes]) = received calls + if frame.valid then 1 else 0 := by
  rw [received, grabs, List.filterMap_append, List.countP_append]
  simp [received, grabs, List.countP_cons]

theorem received_step {s t : System S P} {past : List UInt64} {e : Event M G R}
    (h : received s.node.calls = past.length + uncounted s.node.pc)
    (hstep : System.Step E s e t) :
    received t.node.calls = (past ++ sampled E s e).length + uncounted t.node.pc := by
  by_cases he : e = .count
  · subst he
    cases hstep with
    | count hpc =>
        rw [hpc] at h
        rw [Node.counted, Node.account_eq, List.length_append]
        exact h
  · rw [sampled_of_ne s he, List.append_nil]
    cases hstep.turn with
    | env _ _ hnode => rwa [hnode]
    | grab answer frame hpc _ hnode =>
        rw [hnode, uncounted_grabbed, Node.grabbed, received_append_grab, h, hpc]
        rfl
    | count _ hcount _ _ _ => exact absurd hcount he
    | release frame _ _ hpc _ hnode =>
        rw [hpc] at h
        rw [hnode, Node.released, received, grabs, List.filterMap_append]
        simpa [received, grabs, uncounted] using h
    | inside _ hinside =>
        have hbefore := uncounted_eq_zero fun frame => (hinside.not_grabbed frame).1
        have hafter := uncounted_eq_zero fun frame => (hinside.not_grabbed frame).2
        rw [received, hinside.grabs, hafter]
        rwa [hbefore] at h

theorem received_run {p : Params} {stamper : MmapStamper} {boxFd : Nat} {w : S} {s : System S P}
    {events : List (Event M G R)}
    (h : Runs.run (System.step E) ⟨Node.init p stamper boxFd, w⟩ events = some s) :
    received s.node.calls
      = (samples E ⟨Node.init p stamper boxFd, w⟩ events).length + uncounted s.node.pc := by
  have hinit : received (Node.init p stamper boxFd : Node S P).calls
      = ([] : List UInt64).length + uncounted (Node.init p stamper boxFd : Node S P).pc := rfl
  exact Runs.invariant_of_outputs
    (I := fun s past => received s.node.calls = past.length + uncounted s.node.pc)
    (fun _ _ _ _ hs hstep => received_step hs (.of_step hstep)) hinit h

/-- **The drop total is exact over a well-behaved backend.** If every value that `push_count`
returns is larger than the one before, and the first is not zero, then in every state of every run
the total and the number of pulls make up the last value seen; and between two iterations the pulls
are the valid frames received. -/
theorem totalDrops_add_nPull (E : Env S P M G R) (p : Params) (stamper : MmapStamper) (boxFd : Nat)
    (w : S) (events : List (Event M G R)) (s : System S P)
    (h : Runs.run (System.step E) ⟨Node.init p stamper boxFd, w⟩ events = some s)
    (hgrow : (0 :: samples E ⟨Node.init p stamper boxFd, w⟩ events).Pairwise (· < ·)) :
    s.node.totalDrops.toNat + s.node.nPull.toNat = s.node.lastPushSeen.toNat ∧
    s.node.lastPushSeen = (samples E ⟨Node.init p stamper boxFd, w⟩ events).getLastD 0 ∧
    ((∀ frame, s.node.pc ≠ .grabbed frame) → s.node.nPull.toNat = received s.node.calls) := by
  have htally := tally_run h
  obtain ⟨htotal, hpull⟩ := htally.exact_of_growing hgrow
  refine ⟨htotal, htally.lastPushSeen, ?_⟩
  intro hpc
  rw [hpull, received_run h, uncounted_eq_zero hpc, Nat.add_zero]

end Tally

/-- One whole iteration on a JPEG frame of three bytes in a buffer of the V4L2 backend. -/
def iterationRun (index : Nat) (sequence : UInt32) : List (Event V4l2Move DqbufAnswer Bool) :=
  [.grab (.buffer index sequence 3 5), .count, .tryOpen ⟨none, none⟩, .readLow 7, .copy, .logCbk 9,
   .publish, .logPub 11, .release true]

/-- Frames 1 and 4 of the driver come through, with a timeout in between. -/
def gapRun : List (Event V4l2Move DqbufAnswer Bool) :=
  iterationRun 0 1 ++ [.grab .selectFailed] ++ iterationRun 1 4

theorem totalDrops_add_nPull_gapRun : ∃ s,
    Runs.run (System.step (v4l2Env noShapes)) ⟨Node.init jpegParams, startedWorld⟩ gapRun
        = some s ∧
      samples (v4l2Env noShapes) ⟨Node.init jpegParams, startedWorld⟩ gapRun = [2, 5] ∧
      s.node.totalDrops = 3 ∧
      s.node.totalDrops.toNat + s.node.nPull.toNat = s.node.lastPushSeen.toNat := by
  refine ⟨_, rfl, rfl, rfl, ?_⟩
  exact (totalDrops_add_nPull (v4l2Env noShapes) jpegParams {} 3 startedWorld gapRun _ rfl
    (by decide)).1

/-! ### The samples of the V4L2 backend -/

open V4l2World

variable {cv : OpenCv} {p : Params} {s t : System V4l2World V4l2Ptr}

theorem nPush_grab {w u : V4l2World} {answer : DqbufAnswer} {frame : Frame V4l2Ptr} {d : Delivery}
    (h : w.grab cv answer = some (frame, u)) (hdeliveries : u.deliveries = w.deliveries ++ [d]) :
    u.backend.nPush = d.sequence.toUInt64 + 1 := by
  cases answer with
  | selectFailed | dqbufFailed =>
      cases h
      simp at hdeliveries
  | buffer index sequence bytesused now =>
      obtain ⟨-, conv, bgr, rfl⟩ := grab_eq h
      rw [← List.singleton_inj.mp (List.append_cancel_left hdeliveries)]
      rfl

/-- Whether `grab` makes a valid frame of the delivery. -/
def makesFrame (p : Params) (d : Delivery) : Bool := !(p.compressed && d.bytesused == 0)

/-- The samples taken, and the one due for the frame in hand, are those of the valid frames. -/
structure SamplesFrames (p : Params) (s : System V4l2World V4l2Ptr) (past : List UInt64) :
    Prop where
  holding : Holding p s
  frames : (s.env.deliveries.filter (makesFrame p)).map (fun d => d.sequence.toUInt64 + 1)
    = past ++ List.replicate (uncounted s.node.pc) s.env.backend.nPush

theorem SamplesFrames.grab {past : List UInt64} (h : SamplesFrames p s past)
    (hres : p.res.Positive) {answer : DqbufAnswer} {frame : Frame V4l2Ptr} {w : V4l2World}
    (hpc : s.node.pc = .head) (hgrab : s.env.grab cv answer = some (frame, w))
    (bytes : List UInt8) : SamplesFrames p ⟨s.node.grabbed frame bytes, w⟩ past := by
  refine ⟨h.holding.grab hgrab bytes, ?_⟩
  have hframes := h.frames
  rw [hpc] at hframes
  rw [uncounted_grabbed]
  cases grab_spec hgrab with
  | nothing hframe hworld =>
      subst hframe hworld
      exact hframes
  | buffer d hqueued _ _ _ _ hdeliveries hjpeg hraw =>
      have hvalid : frame.valid = makesFrame p d := h.holding.valid_iff hres hqueued hjpeg hraw
      dsimp only
      rw [hdeliveries, List.filter_append, List.map_append, hframes, hvalid]
      cases hmakes : makesFrame p d with
      | true => simp [hmakes, uncounted, nPush_grab hgrab hdeliveries]
      | false => simp [hmakes, uncounted]

theorem SamplesFrames.step {past : List UInt64} {e : Event V4l2Move DqbufAnswer Bool}
    (h : SamplesFrames p s past) (hres : p.res.Positive)
    (hstep : System.Step (v4l2Env cv) s e t) :
    SamplesFrames p t (past ++ sampled (v4l2Env cv) s e) := by
  have hholding := h.holding.step hstep.turn
  by_cases he : e = .count
  · subst he
    cases hstep with
    | count hpc =>
        have hframes := h.frames
        rw [hpc] at hframes
        refine ⟨hholding, ?_⟩
        rw [hframes, List.append_assoc]
        rfl
  · rw [sampled_of_ne s he, List.append_nil]
    obtain ⟨node, env⟩ := t
    cases hstep.turn with
    | env move hmove hnode =>
        obtain rfl : node = s.node := hnode
        have huntouched := untouched_move hmove
        refine ⟨hholding, ?_⟩
        rw [huntouched.deliveries, huntouched.backend]
        exact h.frames
    | grab answer frame hpc hgrab hnode =>
        dsimp only at hgrab hnode
        subst hnode
        exact h.grab hres hpc hgrab _
    | count _ hcount _ _ _ => exact absurd hcount he
    | release frame qbuf _ hpc hrelease hnode =>
        obtain rfl : node = s.node.released := hnode
        obtain rfl : s.env.release qbuf = env := Option.some.inj hrelease
        have hframes := h.frames
        rw [hpc] at hframes
        have hdeliveries : (s.env.release qbuf).deliveries = s.env.deliveries := by
          cases release_spec s.env qbuf with
          | nothing _ hworld => rw [hworld]
          | queued _ _ _ _ _ hdeliveries => exact hdeliveries
        refine ⟨hholding, ?_⟩
        rw [hdeliveries, hframes]
        rfl
    | inside henv hinside =>
        obtain rfl : env = s.env := henv
        have hbefore := uncounted_eq_zero fun frame => (hinside.not_grabbed frame).1
        have hafter := uncounted_eq_zero fun frame => (hinside.not_grabbed frame).2
        have hframes := h.frames
        rw [hbefore] at hframes
        refine ⟨hholding, ?_⟩
        rw [hafter, hframes]

theorem samplesFrames_run {stamper : MmapStamper} {boxFd : Nat} {w : V4l2World}
    (hres : p.res.Positive) (hstarted : Started p (imageFormat p) w)
    {events : List (Event V4l2Move DqbufAnswer Bool)}
    (h : Runs.run (System.step (v4l2Env cv)) ⟨Node.init p stamper boxFd, w⟩ events = some s) :
    SamplesFrames p s (samples (v4l2Env cv) ⟨Node.init p stamper boxFd, w⟩ events) := by
  have hinit : SamplesFrames p ⟨Node.init p stamper boxFd, w⟩ [] := by
    refine ⟨holding_init stamper boxFd hstarted, ?_⟩
    rw [hstarted.deliveries]
    rfl
  exact Runs.invariant_of_outputs (I := SamplesFrames p)
    (fun _ _ _ _ hs hstep => hs.step hres (.of_step hstep)) hinit h

/-! ### Numbered frames -/

/-- The sample that frame `k` of the driver makes. -/
def sampleOf (k : Nat) : UInt64 := (UInt32.ofNat k).toUInt64 + 1

theorem toNat_sampleOf (k : Nat) : (sampleOf k).toNat = k % 2 ^ 32 + 1 := by
  have hlt := Nat.mod_lt k (Nat.two_pow_pos 32)
  rw [sampleOf, UInt64.toNat_add, UInt32.toNat_toUInt64, UInt32.toNat_ofNat']
  exact Nat.mod_eq_of_lt (by rw [UInt64.toNat_one]; omega)

/-- The numbers of the deliveries that make a frame, when `ks` numbers all of them. -/
def handled (p : Params) (ks : List Nat) (ds : List Delivery) : List Nat :=
  ((ks.zip ds).filter fun numbered => makesFrame p numbered.2).map Prod.fst

theorem handled_sublist {ks : List Nat} {ds : List Delivery} (hle : ks.length ≤ ds.length) :
    (handled p ks ds).Sublist ks := by
  have hzip : (ks.zip ds).map Prod.fst = ks := List.map_fst_zip hle
  have hsub := (List.filter_sublist (p := fun numbered => makesFrame p numbered.2)
    (l := ks.zip ds)).map Prod.fst
  rwa [hzip] at hsub

theorem map_sampleOf_handled {ks : List Nat} {ds : List Delivery}
    (hseq : ds.map Delivery.sequence = ks.map UInt32.ofNat) :
    (handled p ks ds).map sampleOf
      = (ds.filter (makesFrame p)).map fun d => d.sequence.toUInt64 + 1 := by
  induction ds generalizing ks with
  | nil =>
      have hks : ks = [] := by simpa using hseq.symm
      rw [hks]
      rfl
  | cons d ds ih =>
      cases ks with
      | nil => cases hseq
      | cons k ks =>
          obtain ⟨hd, hrest⟩ := List.cons.inj hseq
          have htail := ih hrest
          cases hmakes : makesFrame p d with
          | true => simpa [handled, hmakes, sampleOf, hd] using htail
          | false => simpa [handled, hmakes] using htail

/-- What the samples of frames `ks` say about the last of them. -/
theorem samples_of_growing {ks : List Nat} {k : Nat} {pre : List Nat} (hks : ks = pre ++ [k])
    (hgrow : ks.Pairwise (· < ·)) :
    (ks.map sampleOf).getLastD 0 = sampleOf k ∧ ks.length ≤ k + 1 ∧
      repeats 0 (ks.map sampleOf) * 2 ^ 32 ≤ k := by
  have hlast : ks.getLastD 0 = k := by rw [hks, List.getLastD_concat]
  have hwrap : ∀ a b, a < b → sampleOf b = sampleOf a → a + 2 ^ 32 ≤ b := by
    intro a b hlt heq
    have hmod := congrArg UInt64.toNat heq
    rw [toNat_sampleOf, toNat_sampleOf] at hmod
    omega
  refine ⟨?_, ?_, ?_⟩
  · rw [hks, List.map_append, List.map_singleton, List.getLastD_concat]
  · cases ks with
    | nil => simp
    | cons a rest =>
        have hlength := length_add_le_getLastD hgrow
        rw [List.getLastD_cons] at hlast
        rw [hlast] at hlength
        rw [List.length_cons]
        omega
  · cases ks with
    | nil => simp [repeats]
    | cons a rest =>
        have hne : sampleOf a ≠ 0 := by
          intro hzero
          have hnat := congrArg UInt64.toNat hzero
          rw [toNat_sampleOf] at hnat
          simp at hnat
        have hrepeats := repeats_map_mul_le hwrap hgrow
        rw [List.getLastD_cons] at hlast
        rw [hlast] at hrepeats
        rw [List.map_cons, repeats, if_neg hne, Nat.zero_add]
        exact (Nat.le_add_right _ _).trans hrepeats

/-- **The total over the V4L2 backend, and where it stops being right.** Let `ks` number the
frames that `DQBUF` returned, in the driver's own unbounded count, and let `k` be the last that made
a valid frame. The total accounts for the `k + 1` frames of the driver exactly while `k` is below
`2 ^ 32`. -/
theorem totalDrops_eq_iff (cv : OpenCv) (node : Overrides) (stamper : MmapStamper) (boxFd : Nat)
    (memory : Nat → Nat → UInt8) (answer : StartAnswer)
    (hstart :
      ((fresh memory).start (loadParams node) (imageFormat (loadParams node)) answer).1 = true)
    (events : List (Event V4l2Move DqbufAnswer Bool))
    (h : Runs.run (System.step (v4l2Env cv))
      ⟨Node.init (loadParams node) stamper boxFd,
        ((fresh memory).start (loadParams node) (imageFormat (loadParams node)) answer).2⟩ events
      = some s)
    (hpc : ∀ frame, s.node.pc ≠ .grabbed frame)
    (ks : List Nat) (hgrow : ks.Pairwise (· < ·))
    (hseq : s.env.deliveries.map Delivery.sequence = ks.map UInt32.ofNat)
    (pre : List Nat) (k : Nat)
    (hlast : handled (loadParams node) ks s.env.deliveries = pre ++ [k]) (hk : k < 2 ^ 64) :
    s.node.totalDrops.toNat + s.node.nPull.toNat = k + 1 ↔ k < 2 ^ 32 := by
  have htally := tally_run h
  have hframes := (samplesFrames_run (loadParams_res_positive node) (start_spec hstart) h).frames
  rw [uncounted_eq_zero hpc, List.replicate_zero, List.append_nil,
    ← map_sampleOf_handled hseq] at hframes
  rw [← hframes] at htally
  have hle : ks.length ≤ s.env.deliveries.length := by
    have hlength := congrArg List.length hseq
    rw [List.length_map, List.length_map] at hlength
    exact hlength.ge
  obtain ⟨hseen, hlength, hrepeats⟩ :=
    samples_of_growing hlast (hgrow.sublist (handled_sublist hle))
  rw [← htally.lastPushSeen] at hseen
  generalize hc : repeats 0 ((handled (loadParams node) ks s.env.deliveries).map sampleOf) = c
    at hrepeats
  constructor
  · intro htotal
    have hsum := htally.total
    rw [hc, hseen] at hsum
    have hnat := congrArg UInt64.toNat hsum
    rw [UInt64.toNat_add, UInt64.toNat_add, htotal, toNat_sampleOf, UInt64.toNat_ofNat'] at hnat
    omega
  · intro hsmall
    have hzero : c = 0 := by omega
    have hnat := congrArg UInt64.toNat hseen
    rw [toNat_sampleOf, Nat.mod_eq_of_lt hsmall] at hnat
    have hexact := htally.exact (hc.trans hzero) (by rw [List.length_map, hnat]; exact hlength)
    rw [hexact.1, hnat]

theorem totalDrops_eq_iff_gapRun : ∃ s,
    Runs.run (System.step (v4l2Env noShapes)) ⟨Node.init jpegParams, startedWorld⟩ gapRun
        = some s ∧
      s.env.deliveries.map Delivery.sequence = [1, 4].map UInt32.ofNat ∧ s.node.nPull = 2 ∧
      (s.node.totalDrops.toNat + s.node.nPull.toNat = 4 + 1 ↔ 4 < 2 ^ 32) := by
  refine ⟨_, rfl, rfl, rfl, ?_⟩
  exact totalDrops_eq_iff noShapes { compressed := some true } {} 3 (fun _ _ => 7) fullStart rfl
    gapRun rfl (by intro frame hpc; cases hpc) [1, 4] (by decide) rfl [1] 4 rfl (by decide)

/-- Frames `2 ^ 32 - 1` and `2 ^ 32` come through one after the other. -/
def wrapRun : List (Event V4l2Move DqbufAnswer Bool) :=
  iterationRun 0 (UInt32.ofNat (2 ^ 32 - 1)) ++ iterationRun 1 (UInt32.ofNat (2 ^ 32))

theorem wrong_total_wrapRun : ∃ s,
    Runs.run (System.step (v4l2Env noShapes)) ⟨Node.init jpegParams, startedWorld⟩ wrapRun
        = some s ∧
      s.node.pc = .head ∧
      s.env.deliveries.map Delivery.sequence = [2 ^ 32 - 1, 2 ^ 32].map UInt32.ofNat ∧
      s.node.nPull = 2 ∧ s.node.totalDrops = UInt64.ofNat (2 ^ 64 - 1) ∧
      ¬ s.node.totalDrops.toNat + s.node.nPull.toNat = 2 ^ 32 + 1 := by
  refine ⟨_, rfl, rfl, rfl, rfl, rfl, ?_⟩
  decide

end EconRos2Driver
