import EconRos2Driver.PublishLog
import EconRos2Driver.Proof.BufferOwnership
import EconRos2Driver.Proof.GstPipeline

/-!
# The log at every cut

The file is described by two growing lists, the calls of `log_cbk` and the clocks of the calls of
`log_pub`: `content` is the file when all of these have taken effect. `Writing` says where the
stores of the one call in progress stand, and what the file tells at a cut is read off from there.
-/

namespace EconRos2Driver

open Blackbox Stores

variable {S P M G R : Type}

def content (cbks : List CbkCall) (pubs : List UInt64) (j : Nat) : ImagePubRecord :=
  if j < kBufN then match cbks[j]? with
    | none => {}
    | some c =>
        { seq := UInt64.ofNat (j + 1), headerStamp := c.headerStampNs, tCaptureNs := c.tCaptureNs
          tCbkNs := c.tCbkNs, tPubNs := pubs.getD j 0, capDone := 1
          rosDone := if j < pubs.length then 1 else 0 }
  else {}

theorem content_nil : content [] [] = fun _ => {} := by
  funext j
  simp [content]

theorem content_length (cbks : List CbkCall) (pubs : List UInt64) :
    content cbks pubs cbks.length = {} := by
  simp [content]

theorem content_of_ge {cbks : List CbkCall} {pubs : List UInt64} {j : Nat}
    (h : cbks.length ≤ j ∨ kBufN ≤ j) : content cbks pubs j = {} := by
  unfold content
  by_cases hj : j < kBufN
  · rw [if_pos hj, List.getElem?_eq_none (h.resolve_right (Nat.not_le.mpr hj))]
  · rw [if_neg hj]

theorem content_of_lt {cbks : List CbkCall} {pubs : List UInt64} {j : Nat} {c : CbkCall}
    (hj : j < kBufN) (hc : cbks[j]? = some c) :
    content cbks pubs j =
      { seq := UInt64.ofNat (j + 1), headerStamp := c.headerStampNs, tCaptureNs := c.tCaptureNs
        tCbkNs := c.tCbkNs, tPubNs := pubs.getD j 0, capDone := 1
        rosDone := if j < pubs.length then 1 else 0 } := by
  simp only [content, if_pos hj, hc]

/-- A record that no call of `log_cbk` has filled is as the file was created. -/
theorem content_cases (cbks : List CbkCall) (pubs : List UInt64) (j : Nat) :
    content cbks pubs j = {} ∨ ∃ c, j < kBufN ∧ cbks[j]? = some c := by
  by_cases hj : j < kBufN
  · cases hc : cbks[j]? with
    | none => exact .inl (content_of_ge (.inl (List.getElem?_eq_none_iff.mp hc)))
    | some c => exact .inr ⟨c, hj, rfl⟩
  · exact .inl (content_of_ge (.inr (Nat.not_lt.mp hj)))

theorem toNat_seq {j : Nat} (hj : j < kBufN) : (UInt64.ofNat (j + 1)).toNat = j + 1 := by
  apply UInt64.toNat_ofNat_of_lt'
  exact Nat.lt_of_le_of_lt (Nat.succ_le_of_lt hj) (by decide)

theorem content_congr {cbks cbks' : List CbkCall} {pubs pubs' : List UInt64} {j : Nat}
    (hcbks : cbks'[j]? = cbks[j]?) (hpubs : pubs'[j]? = pubs[j]?) :
    content cbks' pubs' j = content cbks pubs j := by
  have hlength : j < pubs'.length ↔ j < pubs.length := by
    rw [← Nat.not_le, ← Nat.not_le, ← List.getElem?_eq_none_iff, ← List.getElem?_eq_none_iff, hpubs]
  simp only [content, hcbks, List.getD_eq_getElem?_getD, hpubs, hlength]

theorem getElem?_concat_of_ne {α : Type} {l : List α} {a : α} {j : Nat} (h : j ≠ l.length) :
    (l ++ [a])[j]? = l[j]? := by
  by_cases hlt : j < l.length
  · rw [List.getElem?_append_left hlt]
  · rw [List.getElem?_eq_none (by simp; omega), List.getElem?_eq_none (by omega)]

theorem content_cbk {past : List CbkCall} {pubs : List UInt64} (c : CbkCall)
    (hlength : pubs.length = past.length) (hlt : past.length < kBufN) :
    content (past ++ [c]) pubs = put (content past pubs) past.length
      (cbkStores (UInt64.ofNat (past.length + 1)) c.headerStampNs c.tCaptureNs c.tCbkNs) := by
  funext j
  by_cases hj : j = past.length
  · rw [hj, put_self, content_length, content_of_lt hlt List.getElem?_concat_length]
    simp [cbkStores, apply, hlength]
  · rw [put_of_ne _ _ hj]
    exact content_congr (getElem?_concat_of_ne hj) rfl

theorem content_cbk_full {past : List CbkCall} (pubs : List UInt64) (c : CbkCall)
    (hle : kBufN ≤ past.length) : content (past ++ [c]) pubs = content past pubs := by
  funext j
  by_cases hj : j < kBufN
  · exact content_congr (getElem?_concat_of_ne (by omega)) rfl
  · rw [content_of_ge (.inr (Nat.not_lt.mp hj)), content_of_ge (.inr (Nat.not_lt.mp hj))]

theorem content_pub {cbks : List CbkCall} {past : List UInt64} (now : UInt64)
    (hlength : cbks.length = past.length + 1) (hlt : past.length < kBufN) :
    content cbks (past ++ [now]) = put (content cbks past) past.length (pubStores now) := by
  funext j
  by_cases hj : j = past.length
  · obtain ⟨c, hc⟩ : ∃ c, cbks[past.length]? = some c :=
      ⟨_, List.getElem?_eq_getElem (by omega)⟩
    rw [hj, put_self, content_of_lt hlt hc, content_of_lt hlt hc]
    simp [pubStores, apply]
  · rw [put_of_ne _ _ hj]
    exact content_congr rfl (getElem?_concat_of_ne hj)

theorem content_pub_full (cbks : List CbkCall) {past : List UInt64} (now : UInt64)
    (hle : kBufN ≤ past.length) : content cbks (past ++ [now]) = content cbks past := by
  funext j
  by_cases hj : j < kBufN
  · exact content_congr rfl (getElem?_concat_of_ne (by omega))
  · rw [content_of_ge (.inr (Nat.not_lt.mp hj)), content_of_ge (.inr (Nat.not_lt.mp hj))]

/-! ### The calls -/

theorem ne_sizeMax {i : UInt64} (h : i.toNat < kBufN) : i ≠ sizeMax := by
  rintro rfl
  exact absurd h (by decide)

theorem logCbk_of_lt {b : Box} (c : CbkCall) (hfd : 0 ≤ b.fd) (hlt : b.idx.toNat < kBufN) :
    logCbk b c.headerStampNs c.tCaptureNs c.tCbkNs = (b.idx,
      { b with
        base := put b.base b.idx.toNat
          (cbkStores (b.seq + 1) c.headerStampNs c.tCaptureNs c.tCbkNs)
        idx := b.idx + 1, seq := b.seq + 1 }) := by
  unfold logCbk Box.nextIdx Box.nextSeq
  rw [if_neg (Int.not_lt.mpr hfd), if_pos hlt]
  dsimp only
  rw [if_neg (ne_sizeMax hlt)]
  rfl

theorem logCbk_of_ge {b : Box} (c : CbkCall) (hfd : 0 ≤ b.fd) (hle : kBufN ≤ b.idx.toNat) :
    logCbk b c.headerStampNs c.tCaptureNs c.tCbkNs = (sizeMax, { b with idx := b.idx + 1 }) := by
  unfold logCbk Box.nextIdx
  rw [if_neg (Int.not_lt.mpr hfd), if_neg (Nat.not_lt.mpr hle)]
  dsimp only
  rw [if_pos rfl]

theorem cbkIssues_of_lt {b : Box} (c : CbkCall) (hfd : 0 ≤ b.fd) (hlt : b.idx.toNat < kBufN) :
    cbkIssues b c = (b.idx.toNat,
      cbkStores (b.seq + 1) c.headerStampNs c.tCaptureNs c.tCbkNs) := by
  unfold cbkIssues
  rw [logCbk_of_lt c hfd hlt]
  exact if_neg (ne_sizeMax hlt)

theorem cbkIssues_of_ge {b : Box} (c : CbkCall) (hfd : 0 ≤ b.fd) (hle : kBufN ≤ b.idx.toNat) :
    cbkIssues b c = (0, []) := by
  unfold cbkIssues
  rw [logCbk_of_ge c hfd hle]
  exact if_pos rfl

/-- The index that the call of `log_cbk` numbered `k` returns. -/
def indexOf (k : Nat) : UInt64 := if k < kBufN then UInt64.ofNat k else sizeMax

theorem toNat_ofNat_of_lt {k : Nat} (h : k < kBufN) : (UInt64.ofNat k).toNat = k := by
  apply UInt64.toNat_ofNat_of_lt'
  exact h.trans (by decide)

theorem pubIssues_of_lt {b : Box} {k : Nat} (now : UInt64) (hfd : 0 ≤ b.fd) (hlt : k < kBufN) :
    pubIssues b (indexOf k) now = (k, pubStores now) ∧
      logPub b (indexOf k) now = { b with base := put b.base k (pubStores now) } := by
  have hindex : (indexOf k).toNat = k := by rw [indexOf, if_pos hlt, toNat_ofNat_of_lt hlt]
  have hne : indexOf k ≠ sizeMax := by
    apply ne_sizeMax
    rw [hindex]
    exact hlt
  have hopen : ¬ (b.fd < 0 ∨ indexOf k = sizeMax ∨ kBufN ≤ (indexOf k).toNat) := by
    rw [hindex]
    rintro (hneg | hmax | hge)
    · exact absurd hneg (Int.not_lt.mpr hfd)
    · exact hne hmax
    · exact absurd hge (Nat.not_le.mpr hlt)
  rw [pubIssues, logPub, if_neg hopen, if_neg hopen, hindex]
  exact ⟨rfl, rfl⟩

theorem pubIssues_of_ge (b : Box) {k : Nat} (now : UInt64) (hle : kBufN ≤ k) :
    pubIssues b (indexOf k) now = (0, []) ∧ logPub b (indexOf k) now = b := by
  have hindex : indexOf k = sizeMax := if_neg (Nat.not_lt.mpr hle)
  rw [pubIssues, logPub, hindex, if_pos (.inr (.inl rfl)), if_pos (.inr (.inl rfl))]
  exact ⟨rfl, rfl⟩

/-! ### The invariant -/

def Pc.recordIdx : Pc S P → Option UInt64
  | .recorded _ _ recordIdx _ | .sent _ recordIdx => some recordIdx
  | _ => none

def Pc.isRecorded : Pc S P → Bool
  | .recorded _ _ _ _ => true
  | _ => false

def LogSystem.inCbk (s : LogSystem S P) : Bool := !s.pending.isEmpty && s.sys.node.pc.isRecorded

def LogSystem.inPub (s : LogSystem S P) : Bool := !s.pending.isEmpty && !s.sys.node.pc.isRecorded

def LogSystem.cbksCompleted (s : LogSystem S P) : Nat := s.cbks.length - s.inCbk.toNat

/-- The completed calls of `publish` that have come as far as `log_pub`. -/
def LogSystem.publishesCompleted (s : LogSystem S P) : Nat := s.pubs.length - s.inPub.toNat

/-- The messages whose stamps the log has been told, in the order of their publication. -/
def announced (n : Node S P) : List Message :=
  n.published.map (fun sent => sent.message) ++ if n.pc.isRecorded then [n.message] else []

def stampsOf (messages : List Message) : List UInt64 :=
  messages.map fun msg => Node.headerStampNs msg.stamp

/-- Where the stores of the call in progress stand. -/
inductive Writing (s : LogSystem S P) : Prop where
  | idle (hpending : s.pending = []) (himage : s.image = content s.cbks s.pubs)
  | cbk (past : List CbkCall) (c : CbkCall) (done : List (ImagePubRecord → ImagePubRecord))
      (hpc : s.sys.node.pc.isRecorded = true) (hcbks : s.cbks = past ++ [c])
      (hlength : s.pubs.length = past.length) (hlt : past.length < kBufN)
      (hrecord : s.record = past.length) (hpending : s.pending ≠ [])
      (hstores : done ++ s.pending = cbkStores (UInt64.ofNat (past.length + 1)) c.headerStampNs
        c.tCaptureNs c.tCbkNs)
      (himage : s.image = put (content past s.pubs) past.length done)
  | pub (past : List UInt64) (now : UInt64) (done : List (ImagePubRecord → ImagePubRecord))
      (hpc : s.sys.node.pc.isRecorded = false) (hpubs : s.pubs = past ++ [now])
      (hlength : s.cbks.length = past.length + 1) (hlt : past.length < kBufN)
      (hrecord : s.record = past.length) (hpending : s.pending ≠ [])
      (hstores : done ++ s.pending = pubStores now)
      (himage : s.image = put (content s.cbks past) past.length done)

/-- The log as the calls so far leave it; `recordIdx` is the index that `publish` has in hand. -/
structure Booked (b : Box) (recordIdx : Option UInt64) (cbks : List CbkCall)
    (pubs : List UInt64) : Prop where
  fd : 0 ≤ b.fd
  idx : b.idx = UInt64.ofNat cbks.length
  seq : b.seq = UInt64.ofNat (min cbks.length kBufN)
  base : b.base = content cbks pubs
  between : recordIdx = none → cbks.length = pubs.length
  inside : ∀ i, recordIdx = some i → cbks.length = pubs.length + 1 ∧ i = indexOf pubs.length

structure Announcing (n : Node S P) (cbks : List CbkCall) : Prop where
  stamps : stampsOf (announced n) = cbks.map fun c => c.headerStampNs
  copied : ∀ frame stamp, n.pc = .copied frame stamp → n.message.stamp = stamp.ns

structure Timed (tCaptureNs : UInt64) (readings : List UInt64) (cbks : List CbkCall)
    (pubs : List UInt64) : Prop where
  capture : tCaptureNs ∈ readings
  cbk : ∀ c ∈ cbks, c.tCaptureNs ≤ c.tCbkNs ∧ c.tCbkNs ∈ readings
  pub : ∀ (j : Nat) (c : CbkCall) (now : UInt64), cbks[j]? = some c → pubs[j]? = some now →
    c.tCbkNs ≤ now

variable (E : ClockedEnv S P M G R)

structure Keeping (s : LogSystem S P) : Prop where
  booked : Booked s.sys.node.box s.sys.node.pc.recordIdx s.cbks s.pubs
  announcing : Announcing s.sys.node s.cbks
  timed : Timed (E.tCaptureNs s.sys.env) s.readings s.cbks s.pubs
  writing : Writing s

/-- What a step of the log system can do. -/
inductive LogTurn (s t : LogSystem S P) : Prop where
  | env (m : M) (env : S) (hmove : E.move s.sys.env m = some env)
      (ht : t = { s with sys := ⟨s.sys.node, env⟩, readings := s.readings ++ E.moveReads m })
  | quiet (node : Node S P) (env : S) (read : List UInt64)
      (ht : t = { s with sys := ⟨node, env⟩, readings := s.readings ++ read })
      (hpending : s.pending = [])
      (hbox : node.box = s.sys.node.box) (hpublished : node.published = s.sys.node.published)
      (hidx : s.sys.node.pc.recordIdx = none) (hidx' : node.pc.recordIdx = none)
      (hcopied : ∀ frame stamp, node.pc = .copied frame stamp → node.message.stamp = stamp.ns)
      (hcapture : E.tCaptureNs env = E.tCaptureNs s.sys.env ∨ E.tCaptureNs env ∈ read)
  | cbk (frame : Frame P) (stamp : Stamp S) (now : UInt64) (hpending : s.pending = [])
      (hpc : s.sys.node.pc = .copied frame stamp) (hnow : ∀ r ∈ s.readings, r ≤ now)
      (ht : t = { s.logged E (.logCbk now : Event M G R) with
        sys := ⟨s.sys.node.recorded frame stamp s.sys.env (E.tCaptureNs s.sys.env) now, s.sys.env⟩
        readings := s.readings ++ [now] })
  | publish (frame : Frame P) (stamp : Stamp S) (i : UInt64) (w : S) (hpending : s.pending = [])
      (hpc : s.sys.node.pc = .recorded frame stamp i w)
      (ht : t = { s with sys := ⟨s.sys.node.sent frame stamp i w, s.sys.env⟩
                         readings := s.readings ++ [] })
  | pub (frame : Frame P) (i now : UInt64) (hpending : s.pending = [])
      (hpc : s.sys.node.pc = .sent frame i) (hnow : ∀ r ∈ s.readings, r ≤ now)
      (ht : t = { s.logged E (.logPub now : Event M G R) with
        sys := ⟨s.sys.node.logged frame i now, s.sys.env⟩
        readings := s.readings ++ [now] })
  | store (write : ImagePubRecord → ImagePubRecord) (rest : List (ImagePubRecord → ImagePubRecord))
      (hpending : s.pending = write :: rest)
      (ht : t = { s with image := put s.image s.record [write], pending := rest })

variable {E}

theorem logTurn_of_step {s t : LogSystem S P} {e : LogEvent M G R}
    (h : LogSystem.step E s e = some t) : LogTurn E s t := by
  cases e with
  | store =>
      simp only [LogSystem.step] at h
      split at h
      · cases h
      · rename_i write rest hpending
        exact .store write rest hpending (Option.some.inj h).symm
  | sys event =>
      simp only [LogSystem.step] at h
      split_ifs at h with hmay
      obtain ⟨sys, hsys, rfl⟩ := Option.map_eq_some_iff.mp h
      cases System.Step.of_step hsys with
      | env hmove => exact .env _ _ hmove rfl
      | logCbk hpc =>
          simp only [LogSystem.mayTake, Bool.and_eq_true, List.isEmpty_iff, List.all_eq_true,
            decide_eq_true_eq] at hmay
          exact .cbk _ _ _ hmay.1 hpc hmay.2 rfl
      | logPub hpc =>
          simp only [LogSystem.mayTake, Bool.and_eq_true, List.isEmpty_iff, List.all_eq_true,
            decide_eq_true_eq] at hmay
          exact .pub _ _ _ hmay.1 hpc hmay.2 rfl
      | publish hpc => exact .publish _ _ _ _ (List.isEmpty_iff.mp hmay) hpc rfl
      | grab hpc hgrab =>
          have hcapture := E.tCaptureNs_grab _ _ _ _ hgrab
          unfold Node.grabbed
          split_ifs
          all_goals
            exact .quiet _ _ _ rfl (List.isEmpty_iff.mp hmay) rfl rfl (by rw [hpc]; rfl) rfl
              (by rintro _ _ ⟨⟩) hcapture
      | release hpc hrelease =>
          exact .quiet _ _ _ rfl (List.isEmpty_iff.mp hmay) rfl rfl (by rw [hpc]; rfl) rfl
            (by rintro _ _ ⟨⟩) (.inl (E.tCaptureNs_release _ _ _ hrelease))
      | exit hpc | tryOpen hpc =>
          exact .quiet _ _ _ rfl (List.isEmpty_iff.mp hmay) rfl rfl (by rw [hpc]; rfl) rfl
            (by rintro _ _ ⟨⟩) (.inl rfl)
      | count hpc =>
          rw [Node.counted, Node.account_eq]
          exact .quiet _ _ _ rfl (List.isEmpty_iff.mp hmay) rfl rfl (by rw [hpc]; rfl) rfl
            (by rintro _ _ ⟨⟩) (.inl rfl)
      | readLow hpc =>
          unfold Node.stamped
          split
          all_goals
            exact .quiet _ _ _ rfl (List.isEmpty_iff.mp hmay) rfl rfl (by rw [hpc]; rfl) rfl
              (by rintro _ _ ⟨⟩) (.inl rfl)
      | copy hpc =>
          unfold Node.copied
          split_ifs with hcompressed hshort
          all_goals
            refine .quiet _ _ _ rfl (List.isEmpty_iff.mp hmay) rfl rfl (by rw [hpc]; rfl) rfl ?_
              (.inl rfl)
            rintro frame stamp ⟨⟩ <;> simp [Node.message, hcompressed, Message.stamp]

variable {s t : LogSystem S P}

/-- The calls of `log_cbk` and of `log_pub` that the log system makes in a step. -/
theorem logged_logCbk {frame : Frame P} {stamp : Stamp S} {now : UInt64}
    (hpc : s.sys.node.pc = .copied frame stamp) (c : CbkCall)
    (hc : c = ⟨Node.headerStampNs stamp.ns, E.tCaptureNs s.sys.env, now⟩) :
    s.logged E (.logCbk now : Event M G R) =
      { s with record := (cbkIssues s.sys.node.box c).1
               pending := (cbkIssues s.sys.node.box c).2
               cbks := s.cbks ++ [c] } := by
  simp only [LogSystem.logged, hpc, hc]

theorem logged_logPub {frame : Frame P} {i now : UInt64} (hpc : s.sys.node.pc = .sent frame i) :
    s.logged E (.logPub now : Event M G R) =
      { s with record := (pubIssues s.sys.node.box i now).1
               pending := (pubIssues s.sys.node.box i now).2
               pubs := s.pubs ++ [now] } := by
  simp only [LogSystem.logged, hpc]

theorem Booked.toNat_idx {b : Box} {recordIdx : Option UInt64} {cbks : List CbkCall}
    {pubs : List UInt64} (h : Booked b recordIdx cbks pubs) (hbound : cbks.length < 2 ^ 64) :
    b.idx.toNat = cbks.length := by
  rw [h.idx]
  exact UInt64.toNat_ofNat_of_lt' hbound

theorem Booked.seq_succ {b : Box} {recordIdx : Option UInt64} {cbks : List CbkCall}
    {pubs : List UInt64} (h : Booked b recordIdx cbks pubs) (hlt : cbks.length < kBufN) :
    b.seq + 1 = UInt64.ofNat (cbks.length + 1) := by
  rw [h.seq, Nat.min_eq_left hlt.le, UInt64.ofNat_add]
  rfl

theorem Booked.logCbk {b : Box} {cbks : List CbkCall} {pubs : List UInt64}
    (h : Booked b none cbks pubs) (hbound : cbks.length < 2 ^ 64) (c : CbkCall) :
    Booked (logCbk b c.headerStampNs c.tCaptureNs c.tCbkNs).2
      (some (logCbk b c.headerStampNs c.tCaptureNs c.tCbkNs).1) (cbks ++ [c]) pubs := by
  have hlength := h.between rfl
  have hidx := h.toNat_idx hbound
  have hnext : b.idx + 1 = UInt64.ofNat (cbks ++ [c]).length := by
    rw [h.idx, List.length_append, UInt64.ofNat_add]
    rfl
  by_cases hlt : cbks.length < kBufN
  · rw [logCbk_of_lt c h.fd (hidx ▸ hlt)]
    refine ⟨h.fd, hnext, ?_, ?_, by rintro ⟨⟩, ?_⟩
    · rw [List.length_append, List.length_singleton, Nat.min_eq_left hlt]
      exact h.seq_succ hlt
    · rw [content_cbk c hlength.symm hlt, ← h.seq_succ hlt, ← h.base, hidx]
    · rintro i ⟨⟩
      refine ⟨by simp [hlength], ?_⟩
      rw [indexOf, ← hlength, if_pos hlt, h.idx]
  · have hle := Nat.not_lt.mp hlt
    rw [logCbk_of_ge c h.fd (hidx ▸ hle)]
    refine ⟨h.fd, hnext, ?_, ?_, by rintro ⟨⟩, ?_⟩
    · rw [h.seq, List.length_append, Nat.min_eq_right hle,
        Nat.min_eq_right (Nat.le_add_right_of_le hle)]
    · rw [content_cbk_full pubs c hle, ← h.base]
    · rintro i ⟨⟩
      refine ⟨by simp [hlength], ?_⟩
      rw [indexOf, ← hlength, if_neg hlt]

theorem Booked.logPub {b : Box} {i : UInt64} {cbks : List CbkCall} {pubs : List UInt64}
    (h : Booked b (some i) cbks pubs) (now : UInt64) :
    Booked (logPub b i now) none cbks (pubs ++ [now]) := by
  obtain ⟨hlength, rfl⟩ := h.inside i rfl
  have hbetween : cbks.length = (pubs ++ [now]).length := by simp [hlength]
  by_cases hlt : pubs.length < kBufN
  · rw [(pubIssues_of_lt now h.fd hlt).2]
    refine ⟨h.fd, h.idx, h.seq, ?_, fun _ => hbetween, by rintro _ ⟨⟩⟩
    rw [content_pub now hlength hlt, ← h.base]
  · have hle := Nat.not_lt.mp hlt
    rw [(pubIssues_of_ge b now hle).2]
    refine ⟨h.fd, h.idx, h.seq, ?_, fun _ => hbetween, by rintro _ ⟨⟩⟩
    rw [content_pub_full cbks now hle, ← h.base]

theorem Timed.read {tCaptureNs tCaptureNs' : UInt64} {readings more : List UInt64}
    {cbks : List CbkCall} {pubs : List UInt64} (h : Timed tCaptureNs readings cbks pubs)
    (hcapture : tCaptureNs' = tCaptureNs ∨ tCaptureNs' ∈ more) :
    Timed tCaptureNs' (readings ++ more) cbks pubs where
  capture := by
    obtain rfl | hmem := hcapture
    · exact List.mem_append_left _ h.capture
    · exact List.mem_append_right _ hmem
  cbk := fun c hc => ⟨(h.cbk c hc).1, List.mem_append_left _ (h.cbk c hc).2⟩
  pub := h.pub

theorem Timed.logCbk {readings : List UInt64} {cbks : List CbkCall} {pubs : List UInt64}
    {c : CbkCall} (h : Timed c.tCaptureNs readings cbks pubs)
    (hlength : cbks.length = pubs.length) (hnow : ∀ r ∈ readings, r ≤ c.tCbkNs) :
    Timed c.tCaptureNs (readings ++ [c.tCbkNs]) (cbks ++ [c]) pubs where
  capture := List.mem_append_left _ h.capture
  cbk := by
    intro d hd
    obtain hd | hd := List.mem_append.mp hd
    · exact ⟨(h.cbk d hd).1, List.mem_append_left _ (h.cbk d hd).2⟩
    · rw [List.mem_singleton.mp hd]
      exact ⟨hnow _ h.capture, List.mem_append_right _ List.mem_cons_self⟩
  pub := by
    intro j d now hd hj
    apply h.pub j d now _ hj
    have hlt : j < cbks.length := by
      rw [hlength]
      exact (List.getElem?_eq_some_iff.mp hj).1
    rwa [List.getElem?_append_left hlt] at hd

theorem Timed.logPub {tCaptureNs now : UInt64} {readings : List UInt64} {cbks : List CbkCall}
    {pubs : List UInt64} (h : Timed tCaptureNs readings cbks pubs)
    (hnow : ∀ r ∈ readings, r ≤ now) :
    Timed tCaptureNs (readings ++ [now]) cbks (pubs ++ [now]) where
  capture := List.mem_append_left _ h.capture
  cbk := fun c hc => ⟨(h.cbk c hc).1, List.mem_append_left _ (h.cbk c hc).2⟩
  pub := by
    intro j c later hc hj
    by_cases hlast : j = pubs.length
    · rw [hlast, List.getElem?_concat_length] at hj
      rw [← Option.some.inj hj]
      exact hnow _ (h.cbk c (List.mem_of_getElem? hc)).2
    · rw [getElem?_concat_of_ne hlast] at hj
      exact h.pub j c later hc hj

theorem Pc.not_isRecorded {pc : Pc S P} (h : pc.recordIdx = none) : pc.isRecorded = false := by
  cases pc <;> first | rfl | cases h

theorem announced_of_not_isRecorded {n : Node S P} (h : n.pc.isRecorded = false) :
    announced n = n.published.map fun sent => sent.message := by
  rw [announced, if_neg (by rw [h]; exact Bool.false_ne_true), List.append_nil]

theorem Announcing.quiet {n m : Node S P} {cbks : List CbkCall} (h : Announcing n cbks)
    (hpublished : m.published = n.published) (hn : n.pc.isRecorded = false)
    (hm : m.pc.isRecorded = false)
    (hcopied : ∀ frame stamp, m.pc = .copied frame stamp → m.message.stamp = stamp.ns) :
    Announcing m cbks where
  stamps := by
    have hsame : announced m = announced n := by
      rw [announced_of_not_isRecorded hm, hpublished, announced_of_not_isRecorded hn]
    rw [hsame, h.stamps]
  copied := hcopied

theorem Announcing.recorded {n : Node S P} {cbks : List CbkCall} (h : Announcing n cbks)
    {frame : Frame P} {stamp : Stamp S} (hpc : n.pc = .copied frame stamp) (capturedAt : S)
    (tCaptureNs now : UInt64) :
    Announcing (n.recorded frame stamp capturedAt tCaptureNs now)
      (cbks ++ [⟨Node.headerStampNs stamp.ns, tCaptureNs, now⟩]) where
  stamps := by
    have hbefore : announced n = n.published.map fun sent => sent.message :=
      announced_of_not_isRecorded (by rw [hpc]; rfl)
    have hafter : announced (n.recorded frame stamp capturedAt tCaptureNs now)
        = announced n ++ [n.message] := by
      rw [hbefore]
      rfl
    rw [hafter, stampsOf, List.map_append, List.map_append, ← h.stamps, ← h.copied frame stamp hpc]
    rfl
  copied := by
    intro _ _ hcopied
    cases hcopied

theorem Announcing.sent {n : Node S P} {cbks : List CbkCall} (h : Announcing n cbks)
    {frame : Frame P} {stamp : Stamp S} {i : UInt64} {capturedAt : S}
    (hpc : n.pc = .recorded frame stamp i capturedAt) :
    Announcing (n.sent frame stamp i capturedAt) cbks where
  stamps := by
    rw [← h.stamps, announced, announced, hpc, Node.sent, List.map_append]
    exact congrArg stampsOf (List.append_nil _)
  copied := by
    intro _ _ hcopied
    cases hcopied

theorem Writing.image_of_idle (h : Writing s) (hpending : s.pending = []) :
    s.image = content s.cbks s.pubs := by
  cases h with
  | idle _ himage => exact himage
  | cbk _ _ _ _ _ _ _ _ hne => exact absurd hpending hne
  | pub _ _ _ _ _ _ _ _ hne => exact absurd hpending hne

theorem Writing.env (h : Writing s) (env : S) (readings : List UInt64) :
    Writing { s with sys := ⟨s.sys.node, env⟩, readings } := by
  cases h with
  | idle hpending himage => exact .idle hpending himage
  | cbk past c done hpc hcbks hlength hlt hrecord hne hstores himage =>
      exact .cbk past c done hpc hcbks hlength hlt hrecord hne hstores himage
  | pub past now done hpc hpubs hlength hlt hrecord hne hstores himage =>
      exact .pub past now done hpc hpubs hlength hlt hrecord hne hstores himage

theorem Writing.store (h : Writing s) {write : ImagePubRecord → ImagePubRecord}
    {rest : List (ImagePubRecord → ImagePubRecord)} (hpending : s.pending = write :: rest) :
    Writing { s with image := put s.image s.record [write], pending := rest } := by
  cases h with
  | idle hidle _ =>
      rw [hpending] at hidle
      cases hidle
  | cbk past c done hpc hcbks hlength hlt hrecord _ hstores himage =>
      have himage' : put s.image s.record [write]
          = put (content past s.pubs) past.length (done ++ [write]) := by
        rw [put_append, himage, hrecord]
      rw [hpending, List.append_cons] at hstores
      by_cases hrest : rest = []
      · subst hrest
        refine .idle rfl (himage'.trans ?_)
        rw [List.append_nil] at hstores
        rw [hstores, hcbks, content_cbk c hlength hlt]
      · exact .cbk past c (done ++ [write]) hpc hcbks hlength hlt hrecord hrest hstores himage'
  | pub past now done hpc hpubs hlength hlt hrecord _ hstores himage =>
      have himage' : put s.image s.record [write]
          = put (content s.cbks past) past.length (done ++ [write]) := by
        rw [put_append, himage, hrecord]
      rw [hpending, List.append_cons] at hstores
      by_cases hrest : rest = []
      · subst hrest
        refine .idle rfl (himage'.trans ?_)
        rw [List.append_nil] at hstores
        rw [hstores, hpubs, content_pub now hlength hlt]
      · exact .pub past now (done ++ [write]) hpc hpubs hlength hlt hrecord hrest hstores himage'

theorem Keeping.cbk (h : Keeping E s) {frame : Frame P} {stamp : Stamp S} {now : UInt64}
    (hbound : s.cbks.length < 2 ^ 64) (hpending : s.pending = [])
    (hpc : s.sys.node.pc = .copied frame stamp) (hnow : ∀ r ∈ s.readings, r ≤ now) :
    Keeping E { s.logged E (.logCbk now : Event M G R) with
      sys := ⟨s.sys.node.recorded frame stamp s.sys.env (E.tCaptureNs s.sys.env) now, s.sys.env⟩
      readings := s.readings ++ [now] } := by
  have hbooked := h.booked
  rw [hpc] at hbooked
  have hlength := hbooked.between rfl
  have hidx := hbooked.toNat_idx hbound
  have himage := h.writing.image_of_idle hpending
  obtain ⟨c, hc⟩ : ∃ c : CbkCall,
      c = ⟨Node.headerStampNs stamp.ns, E.tCaptureNs s.sys.env, now⟩ := ⟨_, rfl⟩
  rw [logged_logCbk hpc c hc]
  refine ⟨?_, ?_, ?_, ?_⟩
  · have hnext := hbooked.logCbk hbound c
    rw [hc] at hnext ⊢
    exact hnext
  · rw [hc]
    exact h.announcing.recorded hpc _ _ _
  · rw [hc]
    exact Timed.logCbk (c := ⟨Node.headerStampNs stamp.ns, E.tCaptureNs s.sys.env, now⟩) h.timed
      hlength hnow
  · by_cases hlt : s.cbks.length < kBufN
    · rw [cbkIssues_of_lt c hbooked.fd (hidx ▸ hlt), hidx, hbooked.seq_succ hlt]
      exact .cbk s.cbks c [] rfl rfl hlength.symm hlt rfl (List.cons_ne_nil _ _) rfl
        (by rw [put_nil]; exact himage)
    · have hle := Nat.not_lt.mp hlt
      rw [cbkIssues_of_ge c hbooked.fd (hidx ▸ hle)]
      exact .idle rfl (himage.trans (content_cbk_full _ c hle).symm)

theorem Keeping.pub (h : Keeping E s) {frame : Frame P} {i now : UInt64}
    (hpending : s.pending = []) (hpc : s.sys.node.pc = .sent frame i)
    (hnow : ∀ r ∈ s.readings, r ≤ now) :
    Keeping E { s.logged E (.logPub now : Event M G R) with
      sys := ⟨s.sys.node.logged frame i now, s.sys.env⟩
      readings := s.readings ++ [now] } := by
  have hbooked := h.booked
  rw [hpc] at hbooked
  obtain ⟨hlength, hi⟩ := hbooked.inside i rfl
  have himage := h.writing.image_of_idle hpending
  rw [logged_logPub hpc]
  refine ⟨hbooked.logPub now, ?_, h.timed.logPub hnow, ?_⟩
  · refine h.announcing.quiet rfl (by rw [hpc]; rfl) rfl ?_
    intro _ _ hcopied
    cases hcopied
  · rw [hi]
    by_cases hlt : s.pubs.length < kBufN
    · rw [(pubIssues_of_lt now hbooked.fd hlt).1]
      exact .pub s.pubs now [] rfl rfl hlength hlt rfl (List.cons_ne_nil _ _) rfl
        (by rw [put_nil]; exact himage)
    · have hle := Nat.not_lt.mp hlt
      rw [(pubIssues_of_ge _ now hle).1]
      exact .idle rfl (himage.trans (content_pub_full _ now hle).symm)

theorem Keeping.turn (h : Keeping E s) (hturn : LogTurn E s t) (hbound : t.cbks.length < 2 ^ 64) :
    Keeping E t := by
  cases hturn with
  | env m env hmove ht =>
      subst ht
      exact ⟨h.booked, h.announcing, h.timed.read (E.tCaptureNs_move _ _ _ hmove),
        h.writing.env _ _⟩
  | quiet node env read ht hpending hbox hpublished hidx hidx' hcopied hcapture =>
      subst ht
      refine ⟨?_, ?_, h.timed.read hcapture, ?_⟩
      · rw [hbox, hidx', ← hidx]
        exact h.booked
      · exact h.announcing.quiet hpublished (Pc.not_isRecorded hidx) (Pc.not_isRecorded hidx')
          hcopied
      · exact .idle hpending (h.writing.image_of_idle hpending)
  | cbk frame stamp now hpending hpc hnow ht =>
      subst ht
      refine h.cbk ?_ hpending hpc hnow
      rw [logged_logCbk hpc _ rfl, List.length_append] at hbound
      exact lt_of_le_of_lt (Nat.le_add_right _ _) hbound
  | publish frame stamp i w hpending hpc ht =>
      subst ht
      refine ⟨?_, h.announcing.sent hpc, h.timed.read (.inl rfl),
        .idle hpending (h.writing.image_of_idle hpending)⟩
      have hbooked := h.booked
      rw [hpc] at hbooked
      exact hbooked
  | pub frame i now hpending hpc hnow ht =>
      subst ht
      exact h.pub hpending hpc hnow
  | store write rest hpending ht =>
      subst ht
      exact ⟨h.booked, h.announcing, h.timed, h.writing.store hpending⟩

theorem keeping_init (p : Params) (stamper : MmapStamper) (boxFd : Nat) (w : S) :
    Keeping E (LogSystem.init E p stamper boxFd w) where
  booked := by
    refine ⟨Int.natCast_nonneg boxFd, rfl, rfl, content_nil.symm, fun _ => rfl, ?_⟩
    intro i hi
    cases hi
  announcing := by
    refine ⟨rfl, ?_⟩
    intro _ _ hcopied
    cases hcopied
  timed := by
    refine ⟨List.mem_cons_self, ?_, ?_⟩
    · intro c hc
      cases hc
    · intro j c now hc
      cases hc
  writing := .idle rfl content_nil.symm

/-! ### What the file tells -/

/-- The call of `log_cbk` that a record shows. -/
def callOf (r : ImagePubRecord) : CbkCall := ⟨r.headerStamp, r.tCaptureNs, r.tCbkNs⟩

/-- A file that tells of `m` completed calls of `log_cbk` and `n` of `log_pub`. -/
structure Tells (image : Nat → ImagePubRecord) (cbks : List CbkCall) (pubs : List UInt64)
    (m n : Nat) : Prop where
  captured : ∀ j, j < m → j < kBufN → (image j).capDone = 1
  completed : ∀ j, j < n → image j = content cbks pubs j
  capDone : ∀ j, (image j).capDone = 1 →
    (image j).seq.toNat = j + 1 ∧ cbks[j]? = some (callOf (image j))
  rosDone : ∀ j, (image j).rosDone = 1 → pubs[j]? = some (image j).tPubNs
  untouched : ∀ j, m < j ∨ kBufN ≤ j → image j = {}

theorem content_capDone {cbks : List CbkCall} {pubs : List UInt64} {j : Nat}
    (h : (content cbks pubs j).capDone = 1) :
    (content cbks pubs j).seq.toNat = j + 1 ∧
      cbks[j]? = some (callOf (content cbks pubs j)) := by
  rcases content_cases cbks pubs j with hempty | ⟨c, hj, hc⟩
  · rw [hempty] at h
    cases h
  · rw [content_of_lt hj hc]
    exact ⟨toNat_seq hj, hc⟩

theorem content_rosDone {cbks : List CbkCall} {pubs : List UInt64} {j : Nat}
    (h : (content cbks pubs j).rosDone = 1) : pubs[j]? = some (content cbks pubs j).tPubNs := by
  rcases content_cases cbks pubs j with hempty | ⟨c, hj, hc⟩
  · rw [hempty] at h
    cases h
  · rw [content_of_lt hj hc] at h ⊢
    by_cases hlt : j < pubs.length
    · rw [List.getD_eq_getElem?_getD, List.getElem?_eq_getElem hlt]
      rfl
    · rw [if_neg hlt] at h
      cases h

theorem tells_content {cbks : List CbkCall} {pubs : List UInt64} :
    Tells (content cbks pubs) cbks pubs cbks.length pubs.length where
  captured := by
    intro j hj hlt
    rw [content_of_lt hlt (List.getElem?_eq_getElem hj)]
  completed := fun _ _ => rfl
  capDone := fun _ => content_capDone
  rosDone := fun _ => content_rosDone
  untouched := by
    intro j hj
    exact content_of_ge (hj.imp Nat.le_of_lt id)

theorem cbkStores_cut {done rest : List (ImagePubRecord → ImagePubRecord)}
    {seq headerStampNs tCaptureNs now : UInt64}
    (h : done ++ rest = cbkStores seq headerStampNs tCaptureNs now) :
    (apply done {}).rosDone = 0 ∧ ((apply done {}).capDone = 1 →
      (apply done {}).seq = seq ∧ callOf (apply done {}) = ⟨headerStampNs, tCaptureNs, now⟩) := by
  have hmem := mem_inits_of_append h
  simp only [cbkStores, List.inits, List.map_cons, List.map_nil, List.mem_cons, List.not_mem_nil,
    or_false] at hmem
  rcases hmem with rfl | rfl | rfl | rfl | rfl | rfl | rfl | rfl <;> simp [apply, callOf]

theorem pubStores_cut {done rest : List (ImagePubRecord → ImagePubRecord)} {now : UInt64}
    (h : done ++ rest = pubStores now) (hrest : rest ≠ []) (r : ImagePubRecord) :
    apply done r = { r with tPubNs := (apply done r).tPubNs } := by
  have hmem := mem_inits_of_append h
  simp only [pubStores, List.inits, List.map_cons, List.map_nil, List.mem_cons, List.not_mem_nil,
    or_false] at hmem
  rcases hmem with rfl | rfl | rfl
  · rfl
  · rfl
  · exact absurd (List.append_right_eq_self.mp h) hrest

/-- A cut inside `log_cbk`: its record is not marked, or it is filled. -/
theorem tells_cbk {past : List CbkCall} {pubs : List UInt64} {c : CbkCall}
    {done rest : List (ImagePubRecord → ImagePubRecord)} (hlength : pubs.length = past.length)
    (hlt : past.length < kBufN)
    (hstores : done ++ rest = cbkStores (UInt64.ofNat (past.length + 1)) c.headerStampNs
      c.tCaptureNs c.tCbkNs) :
    Tells (put (content past pubs) past.length done) (past ++ [c]) pubs past.length
      pubs.length := by
  have hself : put (content past pubs) past.length done past.length = apply done {} := by
    rw [put_self, content_length]
  have hother : ∀ j, j ≠ past.length →
      put (content past pubs) past.length done j = content past pubs j :=
    fun j hj => put_of_ne _ _ hj _
  obtain ⟨hros, hcap⟩ := cbkStores_cut hstores
  refine ⟨?_, ?_, ?_, ?_, ?_⟩
  · intro j hj hbuf
    rw [hother j hj.ne]
    exact tells_content.captured j hj hbuf
  · intro j hj
    have hne : j ≠ past.length := by omega
    rw [hother j hne]
    exact (content_congr (getElem?_concat_of_ne hne) rfl).symm
  · intro j hj
    by_cases hlast : j = past.length
    · subst hlast
      rw [hself] at hj ⊢
      obtain ⟨hseq, hcall⟩ := hcap hj
      rw [hseq, hcall, List.getElem?_concat_length]
      exact ⟨toNat_seq hlt, rfl⟩
    · rw [hother j hlast] at hj ⊢
      rw [getElem?_concat_of_ne hlast]
      exact content_capDone hj
  · intro j hj
    by_cases hlast : j = past.length
    · rw [hlast, hself, hros] at hj
      cases hj
    · rw [hother j hlast] at hj ⊢
      exact content_rosDone hj
  · intro j hj
    rw [hother j (by omega)]
    exact content_of_ge (hj.imp Nat.le_of_lt id)

/-- A cut inside `log_pub`: its record is what `log_cbk` has made of it, but for `t_pub_ns`. -/
theorem tells_pub {cbks : List CbkCall} {past : List UInt64} {now : UInt64}
    {done rest : List (ImagePubRecord → ImagePubRecord)} (hlength : cbks.length = past.length + 1)
    (hlt : past.length < kBufN)
    (hstores : done ++ rest = pubStores now) (hrest : rest ≠ []) :
    Tells (put (content cbks past) past.length done) cbks (past ++ [now]) cbks.length
      past.length := by
  have hself := pubStores_cut hstores hrest (content cbks past past.length)
  rw [← put_self] at hself
  have hother : ∀ j, j ≠ past.length →
      put (content cbks past) past.length done j = content cbks past j :=
    fun j hj => put_of_ne _ _ hj _
  refine ⟨?_, ?_, ?_, ?_, ?_⟩
  · intro j hj hbuf
    have hwhole : Tells (content cbks past) cbks past cbks.length past.length := tells_content
    have hcap := hwhole.captured j hj hbuf
    by_cases hlast : j = past.length
    · subst hlast
      rw [hself]
      exact hcap
    · rw [hother j hlast]
      exact hcap
  · intro j hj
    rw [hother j hj.ne]
    exact (content_congr rfl (getElem?_concat_of_ne hj.ne)).symm
  · intro j hj
    by_cases hlast : j = past.length
    · subst hlast
      rw [hself] at hj ⊢
      exact content_capDone hj
    · rw [hother j hlast] at hj ⊢
      exact content_capDone hj
  · intro j hj
    by_cases hlast : j = past.length
    · subst hlast
      rw [hself] at hj
      have hnone : past[past.length]? = _ := content_rosDone hj
      rw [List.getElem?_eq_none (Nat.le_refl _)] at hnone
      cases hnone
    · rw [hother j hlast] at hj ⊢
      rw [getElem?_concat_of_ne hlast]
      exact content_rosDone hj
  · intro j hj
    rw [hother j (by omega)]
    exact content_of_ge (hj.imp Nat.le_of_lt id)

theorem publishesCompleted_of_idle (hpending : s.pending = []) :
    s.publishesCompleted = s.pubs.length := by
  simp [LogSystem.publishesCompleted, LogSystem.inPub, hpending]

theorem publishesCompleted_of_isRecorded (hpc : s.sys.node.pc.isRecorded = true) :
    s.publishesCompleted = s.pubs.length := by
  simp [LogSystem.publishesCompleted, LogSystem.inPub, hpc]

theorem cbksCompleted_of_idle (hpending : s.pending = []) : s.cbksCompleted = s.cbks.length := by
  simp [LogSystem.cbksCompleted, LogSystem.inCbk, hpending]

theorem cbksCompleted_of_not_isRecorded (hpc : s.sys.node.pc.isRecorded = false) :
    s.cbksCompleted = s.cbks.length := by
  simp [LogSystem.cbksCompleted, LogSystem.inCbk, hpc]

theorem cbksCompleted_of_append {past : List CbkCall} {c : CbkCall} (hne : s.pending ≠ [])
    (hpc : s.sys.node.pc.isRecorded = true) (hcbks : s.cbks = past ++ [c]) :
    s.cbksCompleted = past.length := by
  simp [LogSystem.cbksCompleted, LogSystem.inCbk, List.isEmpty_eq_false_iff.mpr hne, hpc, hcbks]

theorem publishesCompleted_of_append {past : List UInt64} {now : UInt64} (hne : s.pending ≠ [])
    (hpc : s.sys.node.pc.isRecorded = false) (hpubs : s.pubs = past ++ [now]) :
    s.publishesCompleted = past.length := by
  simp [LogSystem.publishesCompleted, LogSystem.inPub, List.isEmpty_eq_false_iff.mpr hne, hpc,
    hpubs]

theorem Keeping.tells (h : Keeping E s) :
    Tells s.image s.cbks s.pubs s.cbksCompleted s.publishesCompleted := by
  cases h.writing with
  | idle hpending himage =>
      rw [himage, cbksCompleted_of_idle hpending, publishesCompleted_of_idle hpending]
      exact tells_content
  | cbk past c done hpc hcbks hlength hlt hrecord hne hstores himage =>
      rw [himage, cbksCompleted_of_append hne hpc hcbks, publishesCompleted_of_isRecorded hpc,
        hcbks]
      exact tells_cbk hlength hlt hstores
  | pub past now done hpc hpubs hlength hlt hrecord hne hstores himage =>
      rw [himage, cbksCompleted_of_not_isRecorded hpc, publishesCompleted_of_append hne hpc hpubs,
        hpubs]
      exact tells_pub hlength hlt hstores hne

/-- The log system is the system, with the file beside it. -/
theorem sys_reachable (h : Runs.Reachable (LogSystem.step E) s t) :
    Runs.Reachable (System.step E.toEnv) s.sys t.sys := by
  refine Runs.run_simulates LogSystem.sys (I := fun _ => True) (fun _ _ _ _ _ => trivial) ?_
    trivial h
  intro s e t _ hstep
  cases e with
  | store =>
      simp only [LogSystem.step] at hstep
      split at hstep <;> cases hstep
      exact Runs.Reachable.refl _
  | sys event =>
      simp only [LogSystem.step] at hstep
      split_ifs at hstep
      obtain ⟨sys, hsys, rfl⟩ := Option.map_eq_some_iff.mp hstep
      exact Runs.Reachable.of_step hsys

/-- What the file says at a cut is true of the run that led there. -/
structure Truthful (s : LogSystem S P) : Prop where
  logged : ∀ j, j < min s.cbksCompleted kBufN →
    (s.image j).seq.toNat = j + 1 ∧ (s.image j).capDone = 1 ∧
      ∃ msg, (announced s.sys.node)[j]? = some msg ∧
        (s.image j).headerStamp = Node.headerStampNs msg.stamp
  completed : ∀ j, j < min s.publishesCompleted kBufN →
    (s.image j).rosDone = 1 ∧ (s.image j).tCaptureNs ≤ (s.image j).tCbkNs ∧
      (s.image j).tCbkNs ≤ (s.image j).tPubNs
  capDone : ∀ j, (s.image j).capDone = 1 →
    (s.image j).seq.toNat = j + 1 ∧ s.cbks[j]? = some (callOf (s.image j))
  rosDone : ∀ j, (s.image j).rosDone = 1 → s.pubs[j]? = some (s.image j).tPubNs
  untouched : ∀ j, s.cbksCompleted < j ∨ kBufN ≤ j → s.image j = {}

theorem Booked.length_le {b : Box} {recordIdx : Option UInt64} {cbks : List CbkCall}
    {pubs : List UInt64} (h : Booked b recordIdx cbks pubs) : pubs.length ≤ cbks.length := by
  cases recordIdx with
  | none => exact (h.between rfl).ge
  | some i =>
      rw [(h.inside i rfl).1]
      exact Nat.le_succ _

theorem Booked.length_le_succ {b : Box} {recordIdx : Option UInt64} {cbks : List CbkCall}
    {pubs : List UInt64} (h : Booked b recordIdx cbks pubs) : cbks.length ≤ pubs.length + 1 := by
  cases recordIdx with
  | none =>
      rw [h.between rfl]
      exact Nat.le_succ _
  | some i => exact (h.inside i rfl).1.le

theorem LogSystem.publishesCompleted_le (s : LogSystem S P) :
    s.publishesCompleted ≤ s.pubs.length := Nat.sub_le _ _

theorem Announcing.stamp_of_getElem? {n : Node S P} {cbks : List CbkCall} (h : Announcing n cbks)
    {j : Nat} {c : CbkCall} (hc : cbks[j]? = some c) :
    ∃ msg, (announced n)[j]? = some msg ∧ c.headerStampNs = Node.headerStampNs msg.stamp := by
  have hj := congrArg (fun l => l[j]?) h.stamps
  simp only [stampsOf, List.getElem?_map, hc, Option.map_some] at hj
  obtain ⟨msg, hmsg, hstamp⟩ := Option.map_eq_some_iff.mp hj
  exact ⟨msg, hmsg, hstamp.symm⟩

theorem Keeping.truthful (h : Keeping E s) : Truthful s where
  logged := by
    intro j hj
    rw [Nat.lt_min] at hj
    have hcap := h.tells.captured j hj.1 hj.2
    obtain ⟨hseq, hcall⟩ := h.tells.capDone j hcap
    exact ⟨hseq, hcap, h.announcing.stamp_of_getElem? hcall⟩
  completed := by
    intro j hj
    rw [Nat.lt_min] at hj
    have hpub : j < s.pubs.length := hj.1.trans_le s.publishesCompleted_le
    have hc := List.getElem?_eq_getElem (hpub.trans_le h.booked.length_le)
    have hnow := List.getElem?_eq_getElem hpub
    rw [h.tells.completed j hj.1, content_of_lt hj.2 hc]
    refine ⟨if_pos hpub, (h.timed.cbk _ (List.mem_of_getElem? hc)).1, ?_⟩
    rw [List.getD_eq_getElem?_getD, hnow]
    exact h.timed.pub j _ _ hc hnow
  capDone := h.tells.capDone
  rosDone := h.tells.rosDone
  untouched := h.tells.untouched

/-! ### Runs -/

/-- What a step adds to, and never takes away. -/
structure Progress (s t : LogSystem S P) : Prop where
  cbks : s.cbks <+: t.cbks
  pubs : s.pubs <+: t.pubs
  published : s.publishesCompleted ≤ t.publishesCompleted

theorem Progress.refl (s : LogSystem S P) : Progress s s :=
  ⟨List.prefix_rfl, List.prefix_rfl, Nat.le_refl _⟩

theorem publishesCompleted_le_of_idle {t : LogSystem S P} (hs : s.pending = [])
    (ht : t.pending = []) (hpubs : t.pubs = s.pubs) :
    s.publishesCompleted ≤ t.publishesCompleted := by
  rw [publishesCompleted_of_idle hs, publishesCompleted_of_idle ht, hpubs]

theorem Progress.trans {s t u : LogSystem S P} (h : Progress s t) (h' : Progress t u) :
    Progress s u :=
  ⟨h.cbks.trans h'.cbks, h.pubs.trans h'.pubs, h.published.trans h'.published⟩

theorem LogTurn.progress (h : LogTurn E s t) : Progress s t := by
  cases h with
  | env m env hmove ht =>
      subst ht
      exact ⟨List.prefix_rfl, List.prefix_rfl, Nat.le_refl _⟩
  | quiet node env read ht hpending _ _ _ _ _ _ =>
      subst ht
      exact ⟨List.prefix_rfl, List.prefix_rfl, publishesCompleted_le_of_idle hpending hpending rfl⟩
  | cbk frame stamp now hpending hpc _ ht =>
      rw [logged_logCbk hpc _ rfl] at ht
      subst ht
      refine ⟨List.prefix_append _ _, List.prefix_rfl, ?_⟩
      rw [publishesCompleted_of_idle hpending, publishesCompleted_of_isRecorded rfl]
  | publish frame stamp i w hpending hpc ht =>
      subst ht
      exact ⟨List.prefix_rfl, List.prefix_rfl, publishesCompleted_le_of_idle hpending hpending rfl⟩
  | pub frame i now hpending hpc _ ht =>
      rw [logged_logPub hpc] at ht
      subst ht
      refine ⟨List.prefix_rfl, List.prefix_append _ _, ?_⟩
      rw [publishesCompleted_of_idle hpending]
      apply Nat.le_sub_of_add_le
      rw [List.length_append]
      exact Nat.add_le_add_left (Bool.toNat_le _) _
  | store write rest hpending ht =>
      subst ht
      refine ⟨List.prefix_rfl, List.prefix_rfl, ?_⟩
      apply Nat.sub_le_sub_left
      apply Bool.toNat_le_toNat
      simp only [LogSystem.inPub, hpending]
      cases s.sys.node.pc.isRecorded <;> cases rest <;> simp

theorem progress_of_reachable (h : Runs.Reachable (LogSystem.step E) s t) : Progress s t :=
  h.invariant (fun _ _ _ hs hstep => hs.trans (logTurn_of_step hstep).progress) (Progress.refl s)

/-- Whether the call of `publish` in progress has yet to reach `log_cbk`. -/
def Pc.unlogged : Pc S P → Nat
  | .opened _ | .stamped _ _ | .copied _ _ => 1
  | _ => 0

theorem cbks_le_of_step {e : LogEvent M G R} (h : LogSystem.step E s e = some t) :
    t.cbks.length + t.sys.node.pc.unlogged ≤
      s.cbks.length + s.sys.node.pc.unlogged + e.entersPublish.toNat := by
  cases e with
  | store =>
      simp only [LogSystem.step] at h
      split at h <;> cases h
      exact Nat.le_refl _
  | sys event =>
      simp only [LogSystem.step] at h
      split_ifs at h with hmay
      obtain ⟨sys, hsys, rfl⟩ := Option.map_eq_some_iff.mp h
      cases System.Step.of_step hsys with
      | env hmove => exact Nat.le_refl _
      | logCbk hpc =>
          rw [logged_logCbk hpc _ rfl, hpc, List.length_append]
          exact Nat.le_refl _
      | logPub hpc =>
          rw [logged_logPub hpc, hpc]
          exact Nat.le_refl _
      | grab hpc hgrab =>
          rw [hpc, Node.grabbed]
          split_ifs <;> exact Nat.le_refl _
      | readLow hpc =>
          rw [hpc, Node.stamped]
          split
          · exact Nat.le_succ _
          · exact Nat.le_refl _
      | copy hpc =>
          rw [hpc, Node.copied]
          split_ifs
          · exact Nat.le_refl _
          · exact Nat.le_succ _
          · exact Nat.le_refl _
      | tryOpen hpc | count hpc | exit hpc | publish hpc | release hpc hrelease =>
          rw [hpc]
          exact Nat.le_refl _

theorem keeping_of_run {p : Params} {stamper : MmapStamper} {boxFd : Nat} {w : S}
    {events : List (LogEvent M G R)}
    (h : Runs.run (LogSystem.step E) (LogSystem.init E p stamper boxFd w) events = some s)
    (hcalls : events.countP LogEvent.entersPublish < 2 ^ 64) : Keeping E s := by
  let I (s : LogSystem S P) (past : List (LogEvent M G R)) : Prop :=
    s.cbks.length + s.sys.node.pc.unlogged ≤ past.countP LogEvent.entersPublish ∧
      (past.countP LogEvent.entersPublish < 2 ^ 64 → Keeping E s)
  have hinit : I (LogSystem.init E p stamper boxFd w) [] :=
    ⟨Nat.le_refl 0, fun _ => keeping_init p stamper boxFd w⟩
  have hstep : ∀ s past e t, I s past → LogSystem.step E s e = some t → I t (past ++ [e]) := by
    intro s past e t hs hstep
    have hcount : (past ++ [e]).countP LogEvent.entersPublish
        = past.countP LogEvent.entersPublish + e.entersPublish.toNat := by
      rw [List.countP_append, List.countP_singleton]
      cases e.entersPublish <;> rfl
    have hle := cbks_le_of_step hstep
    have hlength := hs.1
    refine ⟨by omega, ?_⟩
    intro hbound
    exact (hs.2 (by omega)).turn (logTurn_of_step hstep) (by omega)
  exact (Runs.invariant_of_history hstep hinit h).2 hcalls

theorem getElem?_extends {α : Type} {l m : List α} (h : l <+: m) {j : Nat} (hj : j < l.length) :
    m[j]? = l[j]? := by
  obtain ⟨rest, rfl⟩ := h
  exact List.getElem?_append_left hj

/-- A record whose `publish` is over does not change again. -/
theorem Keeping.image_eq (hs : Keeping E s) (ht : Keeping E t) (h : Progress s t) {j : Nat}
    (hj : j < s.publishesCompleted) : t.image j = s.image j := by
  have hpub : j < s.pubs.length := hj.trans_le s.publishesCompleted_le
  have hcbk : j < s.cbks.length := hpub.trans_le hs.booked.length_le
  calc t.image j = content t.cbks t.pubs j :=
        ht.tells.completed j (hj.trans_le h.published)
    _ = content s.cbks s.pubs j :=
        content_congr (getElem?_extends h.cbks hcbk) (getElem?_extends h.pubs hpub)
    _ = s.image j := (hs.tells.completed j hj).symm

theorem Keeping.image_eq_of_ge (hs : Keeping E s) (ht : Keeping E t) {j : Nat}
    (hj : kBufN ≤ j) : t.image j = s.image j := by
  rw [hs.tells.untouched j (.inr hj), ht.tells.untouched j (.inr hj)]

/-- At most one call of `log_cbk` is ahead of the calls of `publish` that are over. -/
theorem Keeping.cbksCompleted_le (h : Keeping E s) :
    s.cbksCompleted ≤ s.publishesCompleted + 1 := by
  cases h.writing with
  | idle hpending himage =>
      rw [cbksCompleted_of_idle hpending, publishesCompleted_of_idle hpending]
      exact h.booked.length_le_succ
  | cbk past c done hpc hcbks hlength hlt hrecord hne hstores himage =>
      rw [cbksCompleted_of_append hne hpc hcbks, publishesCompleted_of_isRecorded hpc, hlength]
      exact Nat.le_succ _
  | pub past now done hpc hpubs hlength hlt hrecord hne hstores himage =>
      rw [cbksCompleted_of_not_isRecorded hpc, publishesCompleted_of_append hne hpc hpubs, hlength]

/-- **The publish log is truthful at every cut.** In every run of fewer than `2 ^ 64` calls of
`publish`, whatever the other threads do in between: what the file says at any cut is true of the
run, and once all records are used no later `publish` changes any of them. -/
theorem publishLog_truthful (E : ClockedEnv S P M G R) (p : Params) (stamper : MmapStamper)
    (boxFd : Nat) (w : S) (events more : List (LogEvent M G R)) (s t : LogSystem S P)
    (h : Runs.run (LogSystem.step E) (LogSystem.init E p stamper boxFd w) events = some s)
    (hmore : Runs.run (LogSystem.step E) s more = some t)
    (hcalls : (events ++ more).countP LogEvent.entersPublish < 2 ^ 64) :
    Truthful s ∧
      (kBufN ≤ s.cbksCompleted → ∀ j, j + 1 ≠ kBufN → t.image j = s.image j) ∧
      (kBufN ≤ s.publishesCompleted → t.image = s.image) := by
  have hs : Keeping E s := by
    apply keeping_of_run h
    rw [List.countP_append] at hcalls
    exact Nat.lt_of_le_of_lt (Nat.le_add_right _ _) hcalls
  have ht : Keeping E t := keeping_of_run ((Runs.run_append h more).trans hmore) hcalls
  have hprogress := progress_of_reachable ⟨more, hmore⟩
  refine ⟨hs.truthful, ?_, ?_⟩
  · intro hused j hj
    have hle := hs.cbksCompleted_le
    by_cases hbuf : kBufN ≤ j
    · exact hs.image_eq_of_ge ht hbuf
    · exact hs.image_eq ht hprogress (by omega)
  · intro hused
    funext j
    by_cases hbuf : kBufN ≤ j
    · exact hs.image_eq_of_ge ht hbuf
    · exact hs.image_eq ht hprogress (by omega)

/-! ### The two backends -/

theorem GstWorld.tPushNs_move {w t : GstWorld} {m : GstMove} (h : w.move m = some t) :
    t.backend.tPushNs = w.backend.tPushNs ∨ m = .pushTime t.backend.tPushNs := by
  cases m with
  | pushTime now =>
      cases hpad : w.srcPad <;> simp only [move, hpad] at h <;> cases h
      exact .inr rfl
  | pushCount | pushOn =>
      cases hpad : w.srcPad <;> simp only [move, hpad] at h <;> cases h
      exact .inl rfl
  | drop position =>
      obtain ⟨k, -, rfl⟩ := Option.map_eq_some_iff.mp h
      exact .inl rfl
  | arrive =>
      rcases hpipe : w.pipe with _ | ⟨k, rest⟩ <;> simp only [move, hpipe] at h <;> cases h
      exact .inl rfl
  | timeshare file =>
      cases h
      exact .inl rfl

/-- The probe reads the clock. -/
def gstClocked (content : Nat → Nat → UInt8) : ClockedEnv GstWorld Nat GstMove PullAnswer Unit :=
  { gstEnv content with
    moveReads := fun
      | .pushTime now => [now]
      | _ => []
    grabReads := fun _ => []
    tCaptureNs_move := by
      intro w m t h
      obtain hsame | rfl := GstWorld.tPushNs_move h
      · exact .inl hsame
      · exact .inr List.mem_cons_self
    tCaptureNs_grab := by
      intro w answer frame t h
      left
      cases GstWorld.grab_spec h with
      | delivered _ hsame _ _ _ _ _ _ => exact hsame.tPushNs
      | discarded _ hsame _ _ _ _ _ => exact hsame.tPushNs
      | none hsame _ _ _ _ => exact hsame.tPushNs
    tCaptureNs_release := by
      rintro w _ t ⟨⟩
      exact w.release_spec.1.tPushNs }

/-- `grab` reads the clock when `DQBUF` has returned. -/
def v4l2Clocked (cv : OpenCv) : ClockedEnv V4l2World V4l2Ptr V4l2Move DqbufAnswer Bool :=
  { v4l2Env cv with
    moveReads := fun _ => []
    grabReads := fun
      | .buffer _ _ _ now => [now]
      | _ => []
    tCaptureNs_move := by
      intro w m t h
      left
      cases m with
      | fill i content =>
          simp only [v4l2Env, V4l2World.move] at h
          split_ifs at h
          cases h
          rfl
      | timeshare file =>
          cases h
          rfl
    tCaptureNs_grab := by
      intro w answer frame t h
      cases answer with
      | selectFailed | dqbufFailed =>
          cases h
          exact .inl rfl
      | buffer index sequence bytesused now =>
          obtain ⟨-, conv, bgr, rfl⟩ := V4l2World.grab_eq h
          exact .inr List.mem_cons_self
    tCaptureNs_release := by
      rintro w qbuf t ⟨⟩
      simp only [v4l2Env, V4l2World.release]
      split <;> rfl }

/-- The process is cut off between the two stores of `log_pub`. -/
def cutRun : List (LogEvent V4l2Move DqbufAnswer Bool) :=
  [.sys (.grab (.buffer 2 0 3 5)), .sys .count, .sys (.tryOpen ⟨none, none⟩), .sys (.readLow 7),
   .sys .copy, .sys (.logCbk 9), .store, .store, .store, .store, .store, .store, .store,
   .sys .publish, .sys (.logPub 11), .store]

/-- The process is cut off in the middle of `log_cbk`, while the next frame passes the probe. -/
def probeCutRun : List (LogEvent GstMove PullAnswer Unit) :=
  (pulled 3).map .sys ++ [.sys (.tryOpen ⟨none, none⟩), .sys (.readLow 7), .sys .copy,
    .sys (.logCbk 9), .store, .store, .sys (.env (.pushTime 8)), .store]

theorem publishLog_truthful_cutRun :
    (∃ s, Runs.run (LogSystem.step (v4l2Clocked noShapes))
        (LogSystem.init (v4l2Clocked noShapes) jpegParams {} 3 startedWorld) cutRun = some s ∧
      s.cbksCompleted = 1 ∧ s.publishesCompleted = 0 ∧
      s.image 0 = { seq := 1, headerStamp := 7, tCaptureNs := 5, tCbkNs := 9, tPubNs := 11
                    capDone := 1, rosDone := 0 } ∧
      Truthful s) ∧
    ∃ s, Runs.run (LogSystem.step (gstClocked rampContent))
        (LogSystem.init (gstClocked rampContent) (loadParams { compressed := some true }) {} 3 {})
        probeCutRun = some s ∧
      s.cbksCompleted = 0 ∧ s.image 0 = { seq := 1, headerStamp := 7, tCaptureNs := 5 } ∧
      Truthful s := by
  constructor
  · refine ⟨_, rfl, rfl, rfl, rfl, ?_⟩
    exact (publishLog_truthful (v4l2Clocked noShapes) jpegParams {} 3 startedWorld cutRun
      [.store, .sys (.release true)] _ _ rfl rfl (by decide)).1
  · refine ⟨_, rfl, rfl, rfl, ?_⟩
    exact (publishLog_truthful (gstClocked rampContent) (loadParams { compressed := some true })
      {} 3 {} probeCutRun [] _ _ rfl rfl (by decide)).1

end EconRos2Driver
