import EconRos2Driver.Durability
import EconRos2Driver.Proof.PublishLog

/-!
# What a power loss leaves of the log

`publishLog_truthful` is about the file as the process sees it. The disk lags behind: each of its
pages is as the file was at some earlier moment, and another moment for another page. What follows
for a record depends on where it lies. Since records and pages are both multiples of 16 bytes long,
the time of publication and the flags always come from one moment, and they can be believed; the
rest of the record may be older than its flags when a page ends inside it.

Once an `fdatasync` has succeeded, the calls that were over when it began are on the disk for good.
-/

namespace EconRos2Driver

open Blackbox Stores

/-! ### The bytes of a record -/

namespace Blackbox.ImagePubRecord

variable {bytes other : Nat → UInt8}

theorem word_congr {index : Nat} (h : ∀ k < 8, bytes (8 * index + k) = other (8 * index + k)) :
    word bytes index = word other index := by
  rw [word, word, LittleEndian.value_congr h]

theorem ofBytes_congr (h : ∀ k < size, bytes k = other k) : ofBytes bytes = ofBytes other := by
  have hword : ∀ index < 5, word bytes index = word other index := fun index hindex =>
    word_congr fun k hk => h _ (by unfold size; omega)
  rw [ofBytes, ofBytes, hword 0 (by decide), hword 1 (by decide), hword 2 (by decide),
    hword 3 (by decide), hword 4 (by decide), h 40 (by decide), h 41 (by decide)]

theorem word_of_bytes {index : Nat} {x : UInt64}
    (h : ∀ k < 8, bytes (8 * index + k) = LittleEndian.byte x.toNat k) : word bytes index = x := by
  rw [word, LittleEndian.value_congr h, LittleEndian.ofNat_value_byte]

/-- **Round trip.** A reader of the 48 bytes finds the record. -/
theorem ofBytes_byte (r : ImagePubRecord) : ofBytes r.byte = r := by
  have hpos : ∀ index k, k < 8 → (8 * index + k) / 8 = index ∧ (8 * index + k) % 8 = k := by
    omega
  have hseq : word r.byte 0 = r.seq := word_of_bytes fun k hk => by
    simp only [byte, (hpos 0 k hk).1, (hpos 0 k hk).2]
  have hheader : word r.byte 1 = r.headerStamp := word_of_bytes fun k hk => by
    simp only [byte, (hpos 1 k hk).1, (hpos 1 k hk).2]
  have hcapture : word r.byte 2 = r.tCaptureNs := word_of_bytes fun k hk => by
    simp only [byte, (hpos 2 k hk).1, (hpos 2 k hk).2]
  have hcbk : word r.byte 3 = r.tCbkNs := word_of_bytes fun k hk => by
    simp only [byte, (hpos 3 k hk).1, (hpos 3 k hk).2]
  have hpub : word r.byte 4 = r.tPubNs := word_of_bytes fun k hk => by
    simp only [byte, (hpos 4 k hk).1, (hpos 4 k hk).2]
  rw [ofBytes, hseq, hheader, hcapture, hcbk, hpub]
  rfl

end Blackbox.ImagePubRecord

theorem fileByte_add (image : Nat → ImagePubRecord) (j : Nat) {offset : Nat}
    (h : offset < ImagePubRecord.size) :
    fileByte image (ImagePubRecord.size * j + offset) = (image j).byte offset := by
  unfold fileByte ImagePubRecord.size at *
  have hdiv : (48 * j + offset) / 48 = j := by omega
  have hmod : (48 * j + offset) % 48 = offset := by omega
  rw [hdiv, hmod]

theorem recovered_fileByte (image : Nat → ImagePubRecord) (j : Nat) :
    recovered (fileByte image) j = image j := by
  rw [recovered, ImagePubRecord.ofBytes_congr fun k hk => fileByte_add image j hk,
    ImagePubRecord.ofBytes_byte]

theorem recovered_congr {stored stored' : Nat → UInt8} {j : Nat}
    (h : ∀ k < ImagePubRecord.size,
      stored (ImagePubRecord.size * j + k) = stored' (ImagePubRecord.size * j + k)) :
    recovered stored j = recovered stored' j := ImagePubRecord.ofBytes_congr h

/-! ### The disk follows the file -/

variable {S P M G R : Type} {E : ClockedEnv S P M G R} {pageSize : Nat}

/-- An earlier state of the log. -/
structure Past (E : ClockedEnv S P M G R) (u s : LogSystem S P) : Prop where
  keeping : Keeping E u
  progress : Progress u s

/-- The bytes of the records whose `publish` is over. -/
def Finished (s : LogSystem S P) (address : Nat) : Prop :=
  address / ImagePubRecord.size < s.publishesCompleted

structure Durable (E : ClockedEnv S P M G R) (pageSize : Nat) (s : DurableLog S P) : Prop where
  log : Keeping E s.log
  began : Past E s.began s.log
  synced : Past E s.synced s.log
  clean : s.disk.Current (· / pageSize) (fileByte s.log.image) s.disk.dirty fun _ => True
  old : s.disk.Snapshots (· / pageSize) fun memory =>
    ∃ u, Past E u s.log ∧ memory = fileByte u.image
  syncing : ∀ todo, s.disk.todo = some todo →
    s.disk.Current (· / pageSize) (fileByte s.log.image) todo (Finished s.began)
  safe : s.disk.Current (· / pageSize) (fileByte s.log.image) [] (Finished s.synced)

variable {s t : DurableLog S P}

theorem fileByte_init : fileByte (fun _ => {}) = fun _ => 0 := by
  funext address
  unfold fileByte ImagePubRecord.byte
  split <;> simp [LittleEndian.byte]

theorem durable_init (p : Params) (stamper : MmapStamper) (boxFd : Nat) (w : S) :
    Durable E pageSize (DurableLog.init E p stamper boxFd w) := by
  have hkeeping : Keeping E (LogSystem.init E p stamper boxFd w) := keeping_init p stamper boxFd w
  have hpast : Past E (LogSystem.init E p stamper boxFd w) (LogSystem.init E p stamper boxFd w) :=
    ⟨hkeeping, .refl _⟩
  have hzero : fileByte (LogSystem.init E p stamper boxFd w).image = fun _ => 0 := fileByte_init
  refine ⟨hkeeping, hpast, hpast, ?_, ?_, ?_, ?_⟩
  · exact fun address _ _ => (congrFun hzero address).symm
  · exact fun k => ⟨_, ⟨_, hpast, rfl⟩, fun address _ => (congrFun hzero address).symm⟩
  · intro todo htodo
    cases htodo
  · exact fun address _ _ => (congrFun hzero address).symm

/-- A store reaches no byte outside the pages of its record. -/
theorem fileByte_of_step {log : LogSystem S P} {e : LogEvent M G R}
    (h : LogSystem.step E s.log e = some log) {address : Nat}
    (hpage : address / pageSize ∉ s.touched pageSize e) :
    fileByte log.image address = fileByte s.log.image address := by
  cases e with
  | sys event =>
      simp only [LogSystem.step] at h
      split_ifs at h
      obtain ⟨sys, -, rfl⟩ := Option.map_eq_some_iff.mp h
      cases event with
      | logCbk now =>
          simp only [LogSystem.logged]
          split <;> rfl
      | logPub now =>
          simp only [LogSystem.logged]
          split <;> rfl
      | env _ | exit | grab _ | count | tryOpen _ | readLow _ | copy | publish | release _ => rfl
  | store =>
      simp only [LogSystem.step] at h
      split at h <;> cases h
      have hother : address / ImagePubRecord.size ≠ s.log.record := by
        intro hrecord
        apply hpage
        simp only [DurableLog.touched, pagesOf, List.mem_range'_1]
        have hfirst : ImagePubRecord.size * s.log.record ≤ address := by
          rw [← hrecord]
          exact Nat.mul_div_le address _
        have hlast : address ≤ ImagePubRecord.size * s.log.record + (ImagePubRecord.size - 1) := by
          unfold ImagePubRecord.size at hrecord ⊢
          omega
        have hge := Nat.div_le_div_right (c := pageSize) hfirst
        have hle := Nat.div_le_div_right (c := pageSize) hlast
        omega
      unfold fileByte
      dsimp only
      rw [put_of_ne _ _ hother]

theorem fileByte_of_finished {u v w : LogSystem S P} (hu : Past E u v) (hv : Keeping E v)
    (hw : Keeping E w) (hprogress : Progress v w) {address : Nat} (h : Finished u address) :
    fileByte w.image address = fileByte v.image address := by
  have hfinished : address / ImagePubRecord.size < v.publishesCompleted :=
    h.trans_le hu.progress.published
  unfold fileByte
  rw [hv.image_eq hw hprogress hfinished]

theorem Durable.log_step (h : Durable E pageSize s) {log : LogSystem S P} {e : LogEvent M G R}
    (hstep : LogSystem.step E s.log e = some log) (hkeeping : Keeping E log) :
    Durable E pageSize { s with log, disk := s.disk.touch (s.touched pageSize e) } := by
  have hprogress : Progress s.log log := progress_of_reachable (.of_step hstep)
  have hpast : ∀ {u}, Past E u s.log → Past E u log := fun hu =>
    ⟨hu.keeping, hu.progress.trans hprogress⟩
  refine ⟨hkeeping, hpast h.began, hpast h.synced, ?_, ?_, ?_, ?_⟩
  · have hclean : s.disk.Current (· / pageSize) (fileByte s.log.image)
        (s.touched pageSize e ++ s.disk.dirty) fun _ => True :=
      h.clean.mono (List.subset_append_right _ _) fun _ => id
    refine hclean.write fun address _ hpage => ?_
    have htouched : address / pageSize ∉ s.touched pageSize e := fun hmem =>
      hpage (List.mem_append_left _ hmem)
    exact fileByte_of_step hstep htouched
  · refine h.old.mono ?_
    rintro memory ⟨u, hu, rfl⟩
    exact ⟨u, hpast hu, rfl⟩
  · intro todo htodo
    exact (h.syncing todo htodo).write fun address hfinished _ =>
      fileByte_of_finished h.began h.log hkeeping hprogress hfinished
  · exact h.safe.write fun address hfinished _ =>
      fileByte_of_finished h.synced h.log hkeeping hprogress hfinished

theorem Durable.copyPage (h : Durable E pageSize s) (k : Nat) :
    Durable E pageSize
      { s with disk := s.disk.copyPage (· / pageSize) (fileByte s.log.image) k } := by
  refine ⟨h.log, h.began, h.synced, h.clean.copyPage k, ?_, ?_, h.safe.copyPage k⟩
  · exact h.old.copyPage ⟨s.log, ⟨h.log, .refl _⟩, rfl⟩ k
  · intro todo htodo
    obtain ⟨before, hbefore, rfl⟩ := Option.map_eq_some_iff.mp htodo
    exact (h.syncing before hbefore).copyPage k

theorem Durable.beginSync (h : Durable E pageSize s) {disk : Disk Nat UInt8 Nat}
    (hdisk : s.disk.beginSync = some disk) :
    Durable E pageSize { s with disk, began := s.log } := by
  unfold Disk.beginSync at hdisk
  split at hdisk <;> cases hdisk
  refine ⟨h.log, ⟨h.log, .refl _⟩, h.synced, h.clean, h.old, ?_, h.safe⟩
  rintro todo ⟨⟩
  exact h.clean.mono (List.Subset.refl _) fun _ _ => trivial

theorem Durable.endSync (h : Durable E pageSize s) {disk : Disk Nat UInt8 Nat}
    (hdisk : s.disk.endSync = some disk) :
    Durable E pageSize { s with disk, synced := s.began } := by
  unfold Disk.endSync at hdisk
  split at hdisk
  · next htodo =>
      cases hdisk
      refine ⟨h.log, h.began, h.began, h.clean, h.old, ?_, h.syncing [] htodo⟩
      rintro todo ⟨⟩
  · cases hdisk

theorem Durable.failSync (h : Durable E pageSize s) :
    Durable E pageSize { s with disk := s.disk.failSync } := by
  refine ⟨h.log, h.began, h.synced, h.clean, h.old, ?_, h.safe⟩
  rintro todo ⟨⟩

theorem cbks_le_of_durableStep {e : DurableEvent M G R}
    (hstep : DurableLog.step E pageSize s e = some t) :
    t.log.cbks.length + t.log.sys.node.pc.unlogged
      ≤ s.log.cbks.length + s.log.sys.node.pc.unlogged + e.entersPublish.toNat := by
  cases e with
  | log event =>
      obtain ⟨log, hlog, rfl⟩ := Option.map_eq_some_iff.mp hstep
      exact cbks_le_of_step hlog
  | copyPage _ | failSync =>
      obtain rfl := Option.some.inj hstep
      exact Nat.le_refl _
  | beginSync | endSync =>
      obtain ⟨disk, -, rfl⟩ := Option.map_eq_some_iff.mp hstep
      exact Nat.le_refl _

theorem Durable.step (h : Durable E pageSize s) {e : DurableEvent M G R}
    (hcalls : s.log.cbks.length + s.log.sys.node.pc.unlogged + e.entersPublish.toNat < 2 ^ 64)
    (hstep : DurableLog.step E pageSize s e = some t) : Durable E pageSize t := by
  cases e with
  | log event =>
      obtain ⟨log, hlog, rfl⟩ := Option.map_eq_some_iff.mp hstep
      have hle := cbks_le_of_step hlog
      have hlt : log.cbks.length + log.sys.node.pc.unlogged < 2 ^ 64 := hle.trans_lt hcalls
      exact h.log_step hlog (h.log.turn (logTurn_of_step hlog) (by omega))
  | copyPage k =>
      obtain rfl := Option.some.inj hstep
      exact h.copyPage k
  | beginSync =>
      obtain ⟨disk, hdisk, rfl⟩ := Option.map_eq_some_iff.mp hstep
      exact h.beginSync hdisk
  | endSync =>
      obtain ⟨disk, hdisk, rfl⟩ := Option.map_eq_some_iff.mp hstep
      exact h.endSync hdisk
  | failSync =>
      obtain rfl := Option.some.inj hstep
      exact h.failSync

theorem durable_of_run {p : Params} {stamper : MmapStamper} {boxFd : Nat} {w : S}
    {events : List (DurableEvent M G R)}
    (h : Runs.run (DurableLog.step E pageSize) (DurableLog.init E p stamper boxFd w) events
      = some s)
    (hcalls : events.countP DurableEvent.entersPublish < 2 ^ 64) : Durable E pageSize s :=
  Runs.invariant_of_countP (I := Durable E pageSize)
    (μ := fun s => s.log.cbks.length + s.log.sys.node.pc.unlogged)
    (fun _ _ _ hstep => cbks_le_of_durableStep hstep)
    (fun _ _ _ hs hlt hstep => hs.step hlt hstep) (durable_init p stamper boxFd w) rfl h hcalls

/-! ### What is found after a power loss -/

/-- A record whose `publish` is over, as the log should have it. -/
structure Complete (s : LogSystem S P) (j : Nat) (r : ImagePubRecord) : Prop where
  seq : r.seq.toNat = j + 1
  capDone : r.capDone = 1
  rosDone : r.rosDone = 1
  ordered : r.tCaptureNs ≤ r.tCbkNs ∧ r.tCbkNs ≤ r.tPubNs
  message : ∃ msg, (announced s.sys.node)[j]? = some msg ∧
    r.headerStamp = Node.headerStampNs msg.stamp

theorem Keeping.publishesCompleted_le_cbksCompleted {s : LogSystem S P} (h : Keeping E s) :
    s.publishesCompleted ≤ s.cbksCompleted := by
  cases h.writing with
  | idle hpending himage =>
      rw [cbksCompleted_of_idle hpending, publishesCompleted_of_idle hpending]
      exact h.booked.length_le
  | cbk past c done hpc hcbks hlength hlt hrecord hne hstores himage =>
      rw [cbksCompleted_of_append hne hpc hcbks, publishesCompleted_of_isRecorded hpc, hlength]
  | pub past now done hpc hpubs hlength hlt hrecord hne hstores himage =>
      rw [cbksCompleted_of_not_isRecorded hpc, publishesCompleted_of_append hne hpc hpubs, hlength]
      exact Nat.le_succ _

theorem Keeping.complete {s : LogSystem S P} (h : Keeping E s) {j : Nat}
    (hj : j < s.publishesCompleted) (hlt : j < kBufN) : Complete s j (s.image j) := by
  have htruthful := h.truthful
  have hcbk : j < s.cbksCompleted := hj.trans_le h.publishesCompleted_le_cbksCompleted
  obtain ⟨hseq, hcap, hmessage⟩ := htruthful.logged j (Nat.lt_min.mpr ⟨hcbk, hlt⟩)
  obtain ⟨hros, hcapture, hpub⟩ := htruthful.completed j (Nat.lt_min.mpr ⟨hj, hlt⟩)
  exact ⟨hseq, hcap, hros, ⟨hcapture, hpub⟩, hmessage⟩

/-- **What `fdatasync` has synced survives.** In every run of fewer than `2 ^ 64` calls of
`publish`, whenever the power goes: the records of all calls that were over when the last successful
`fdatasync` began are found on the disk, complete, and as the process last saw them. -/
theorem synced_records_survive (E : ClockedEnv S P M G R) (pageSize : Nat) (p : Params)
    (stamper : MmapStamper) (boxFd : Nat) (w : S) (events : List (DurableEvent M G R))
    (s : DurableLog S P)
    (h : Runs.run (DurableLog.step E pageSize) (DurableLog.init E p stamper boxFd w) events
      = some s)
    (hcalls : events.countP DurableEvent.entersPublish < 2 ^ 64) :
    ∀ j < min s.synced.publishesCompleted kBufN,
      recovered s.disk.stored j = s.log.image j ∧
        Complete s.log j (recovered s.disk.stored j) := by
  have hdurable := durable_of_run h hcalls
  intro j hj
  rw [Nat.lt_min] at hj
  have hrecovered : recovered s.disk.stored j = s.log.image j := by
    rw [← recovered_fileByte s.log.image j]
    refine recovered_congr fun k hk => hdurable.safe _ ?_ List.not_mem_nil
    unfold Finished ImagePubRecord.size at *
    omega
  refine ⟨hrecovered, ?_⟩
  rw [hrecovered]
  exact hdurable.log.complete (hj.1.trans_le hdurable.synced.progress.published) hj.2

/-- Positions in one block of 16 bytes lie on one page. -/
theorem page_of_block (hpage : 16 ∣ pageSize) (block : Nat) {k : Nat} (hk : k < 16) :
    (16 * block + k) / pageSize = 16 * block / pageSize := by
  obtain ⟨m, rfl⟩ := hpage
  rw [← Nat.div_div_eq_div_mul, ← Nat.div_div_eq_div_mul]
  have hsame : (16 * block + k) / 16 = 16 * block / 16 := by omega
  rw [hsame]

/-- One message is published and logged, its page is copied, and the sync comes to its end. -/
def syncedRun : List (DurableEvent V4l2Move DqbufAnswer Bool) :=
  cutRun.map .log ++ [.log .store, .beginSync, .copyPage 0, .endSync]

theorem synced_records_survive_syncedRun : ∃ s,
    Runs.run (DurableLog.step (v4l2Clocked noShapes) 4096)
        (DurableLog.init (v4l2Clocked noShapes) jpegParams {} 3 startedWorld) syncedRun = some s ∧
      s.synced.publishesCompleted = 1 ∧ Complete s.log 0 (recovered s.disk.stored 0) := by
  refine ⟨_, rfl, rfl, ?_⟩
  exact (synced_records_survive (v4l2Clocked noShapes) 4096 jpegParams {} 3 startedWorld syncedRun _
    rfl (by decide) 0 (by decide)).2

theorem Durable.snapshot (h : Durable E pageSize s) (k : Nat) : ∃ u, Past E u s.log ∧
    ∀ address, address / pageSize = k → s.disk.stored address = fileByte u.image address := by
  obtain ⟨_, ⟨u, hu, rfl⟩, hstored⟩ := h.old k
  exact ⟨u, hu, hstored⟩

/-- The time of publication and the flags lie in one block. -/
theorem Durable.last_block (h : Durable E pageSize s) (hpage : 16 ∣ pageSize) (j : Nat) :
    ∃ u, Past E u s.log ∧ (recovered s.disk.stored j).tPubNs = (u.image j).tPubNs ∧
      (recovered s.disk.stored j).capDone = (u.image j).capDone ∧
      (recovered s.disk.stored j).rosDone = (u.image j).rosDone := by
  obtain ⟨u, hu, hstored⟩ := h.snapshot (16 * (3 * j + 2) / pageSize)
  have hblock : ∀ offset, 32 ≤ offset → offset < 48 →
      s.disk.stored (ImagePubRecord.size * j + offset)
        = fileByte u.image (ImagePubRecord.size * j + offset) := by
    intro offset hge hlt
    apply hstored
    have haddress : ImagePubRecord.size * j + offset = 16 * (3 * j + 2) + (offset - 32) := by
      unfold ImagePubRecord.size
      omega
    rw [haddress]
    exact page_of_block hpage _ (by omega)
  have hword : ImagePubRecord.word (fun offset => s.disk.stored (ImagePubRecord.size * j + offset))
      4 = ImagePubRecord.word (fun offset => fileByte u.image (ImagePubRecord.size * j + offset)) 4
      := ImagePubRecord.word_congr fun k hk => hblock _ (by omega) (by omega)
  have himage := recovered_fileByte u.image j
  refine ⟨u, hu, ?_, ?_, ?_⟩
  · exact hword.trans (congrArg ImagePubRecord.tPubNs himage)
  · exact (hblock 40 (by decide) (by decide)).trans (congrArg ImagePubRecord.capDone himage)
  · exact (hblock 41 (by decide) (by decide)).trans (congrArg ImagePubRecord.rosDone himage)

/-- The record does not reach over the end of a page. -/
def OnOnePage (pageSize j : Nat) : Prop :=
  ImagePubRecord.size * j / pageSize
    = (ImagePubRecord.size * j + (ImagePubRecord.size - 1)) / pageSize

theorem Durable.whole_record (h : Durable E pageSize s) {j : Nat} (hj : OnOnePage pageSize j) :
    ∃ u, Past E u s.log ∧ recovered s.disk.stored j = u.image j := by
  obtain ⟨u, hu, hstored⟩ := h.snapshot (ImagePubRecord.size * j / pageSize)
  refine ⟨u, hu, ?_⟩
  rw [← recovered_fileByte u.image j]
  refine recovered_congr fun k hk => hstored _ ?_
  have hle : ImagePubRecord.size * j ≤ ImagePubRecord.size * j + k := Nat.le_add_right _ _
  have hge : ImagePubRecord.size * j + k ≤ ImagePubRecord.size * j + (ImagePubRecord.size - 1) :=
    Nat.add_le_add_left (Nat.le_sub_one_of_lt hk) _
  refine Nat.le_antisymm ?_ (Nat.div_le_div_right hle)
  rw [hj]
  exact Nat.div_le_div_right hge

theorem Past.pubs {u s : LogSystem S P} (h : Past E u s) {j : Nat} {now : UInt64}
    (hnow : u.pubs[j]? = some now) : s.pubs[j]? = some now := by
  rw [getElem?_extends h.progress.pubs (List.getElem?_eq_some_iff.mp hnow).1, hnow]

theorem Past.cbks {u s : LogSystem S P} (h : Past E u s) {j : Nat} {c : CbkCall}
    (hc : u.cbks[j]? = some c) : s.cbks[j]? = some c := by
  rw [getElem?_extends h.progress.cbks (List.getElem?_eq_some_iff.mp hc).1, hc]

/-- **What is on the disk can be believed, up to the end of a page.** In every run of fewer than
`2 ^ 64` calls of `publish`, on pages of a multiple of 16 bytes, whenever the power goes: a record
found marked as published has the time of its publication, and one that lies on one page and is
found marked as captured is the record of its call of `log_cbk`. -/
theorem recovered_truthful (E : ClockedEnv S P M G R) (pageSize : Nat) (hpage : 16 ∣ pageSize)
    (p : Params) (stamper : MmapStamper) (boxFd : Nat) (w : S)
    (events : List (DurableEvent M G R)) (s : DurableLog S P)
    (h : Runs.run (DurableLog.step E pageSize) (DurableLog.init E p stamper boxFd w) events
      = some s)
    (hcalls : events.countP DurableEvent.entersPublish < 2 ^ 64) (j : Nat) :
    ((recovered s.disk.stored j).rosDone = 1 →
      s.log.pubs[j]? = some (recovered s.disk.stored j).tPubNs) ∧
    (OnOnePage pageSize j → (recovered s.disk.stored j).capDone = 1 →
      (recovered s.disk.stored j).seq.toNat = j + 1 ∧
        s.log.cbks[j]? = some (callOf (recovered s.disk.stored j))) := by
  have hdurable := durable_of_run h hcalls
  constructor
  · intro hros
    obtain ⟨u, hu, hpub, -, hros'⟩ := hdurable.last_block hpage j
    rw [hpub]
    exact hu.pubs (hu.keeping.tells.rosDone j (hros' ▸ hros))
  · intro hone hcap
    obtain ⟨u, hu, hrecord⟩ := hdurable.whole_record hone
    rw [hrecord] at hcap ⊢
    obtain ⟨hseq, hcall⟩ := hu.keeping.tells.capDone j hcap
    exact ⟨hseq, hu.cbks hcall⟩

/-- The page is copied before the process is cut off between the two stores of `log_pub`. -/
def copiedRun : List (DurableEvent V4l2Move DqbufAnswer Bool) := cutRun.map .log ++ [.copyPage 0]

theorem recovered_truthful_copiedRun : ∃ s,
    Runs.run (DurableLog.step (v4l2Clocked noShapes) 4096)
        (DurableLog.init (v4l2Clocked noShapes) jpegParams {} 3 startedWorld) copiedRun = some s ∧
      (recovered s.disk.stored 0).seq.toNat = 1 ∧
      s.log.cbks[0]? = some (callOf (recovered s.disk.stored 0)) := by
  refine ⟨_, rfl, ?_⟩
  exact (recovered_truthful (v4l2Clocked noShapes) 4096 (by decide) jpegParams {} 3 startedWorld
    copiedRun _ rfl (by decide) 0).2 rfl rfl

/-- One frame up to the end of `log_cbk`, and the rest of its `publish`. -/
def capturedFrame : List (LogEvent V4l2Move DqbufAnswer Bool) :=
  [.sys (.grab (.buffer 2 0 3 5)), .sys .count, .sys (.tryOpen ⟨none, none⟩), .sys (.readLow 7),
   .sys .copy, .sys (.logCbk 9), .store, .store, .store, .store, .store, .store, .store]

def publishedRest : List (LogEvent V4l2Move DqbufAnswer Bool) :=
  [.sys .publish, .sys (.logPub 9), .store, .store, .sys (.release true)]

/-- Record 85 begins on the first page of 4096 bytes and ends on the second, and the second alone is
copied once it is captured. -/
def crossingRun : List (DurableEvent V4l2Move DqbufAnswer Bool) :=
  let frames := (List.replicate 85 (capturedFrame ++ publishedRest)).flatten ++ capturedFrame
  frames.map .log ++ [.copyPage 1]

/-- A record that reaches over the end of a page can be found marked as captured without a sequence
number. -/
theorem torn_of_crossingRun : ∃ s,
    Runs.run (DurableLog.step (v4l2Clocked noShapes) 4096)
        (DurableLog.init (v4l2Clocked noShapes) jpegParams {} 3 startedWorld) crossingRun = some s ∧
      (recovered s.disk.stored 85).capDone = 1 ∧ (recovered s.disk.stored 85).seq = 0 := by
  have hmap : (Runs.run (DurableLog.step (v4l2Clocked noShapes) 4096)
      (DurableLog.init (v4l2Clocked noShapes) jpegParams {} 3 startedWorld) crossingRun).map
      (fun s => ((recovered s.disk.stored 85).capDone, (recovered s.disk.stored 85).seq))
        = some (1, 0) := by decide +kernel
  obtain ⟨s, hrun, hrecord⟩ := Option.map_eq_some_iff.mp hmap
  exact ⟨s, hrun, congrArg Prod.fst hrecord, congrArg Prod.snd hrecord⟩

end EconRos2Driver
