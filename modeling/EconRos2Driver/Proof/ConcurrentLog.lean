import EconRos2Driver.ConcurrentLog
import EconRos2Driver.Proof.PublishLog
import Mathlib.Data.List.Perm.Basic
import Mathlib.Data.List.Nodup

/-!
# Threads never share a record

A `fetch_add` gives every call of `log_cbk` a number of its own, so the record with that number is
its thread's alone until the thread draws another one. `SlotView` says what a record holds by how
far its thread has come with it, and every step of a thread changes the view of at most its own
record.
-/

namespace EconRos2Driver.Blackbox

open Stores

/-- The record whose stores a thread is in the middle of. -/
def LogPc.busy : LogPc → Option Nat
  | .outside _ => none
  | .indexed i _ _ | .filling i _ | .completing i _ => some i.toNat

/-- The record a thread may still store to without another `log_cbk`. -/
def LogPc.slot : LogPc → Option Nat
  | .outside i => if i = sizeMax then none else some i.toNat
  | .indexed i _ _ | .filling i _ | .completing i _ => some i.toNat

def seqOf (numbered : List Nat) (k : Nat) : UInt64 := UInt64.ofNat (numbered.idxOf k + 1)

/-- A record that `log_cbk` has filled. -/
def Ticket.captured (ticket : Ticket) (seq now : UInt64) : ImagePubRecord :=
  { seq, headerStamp := ticket.headerStampNs, tCaptureNs := ticket.tCaptureNs, tCbkNs := now
    tPubNs := 0, capDone := 1, rosDone := 0 }

/-- What the record `k` of a call holds, by the place of its thread. -/
inductive SlotView (numbered : List Nat) (k : Nat) (ticket : Ticket) (pc : LogPc) :
    ImagePubRecord → Prop where
  | indexed {i : UInt64} (hi : i.toNat = k)
      (hpc : pc = .indexed i ticket.headerStampNs ticket.tCaptureNs) (hk : k ∉ numbered) :
      SlotView numbered k ticket pc {}
  | filling {i : UInt64} (now : UInt64) (done rest : List (ImagePubRecord → ImagePubRecord))
      (hi : i.toNat = k) (hpc : pc = .filling i rest) (hrest : rest ≠ []) (hk : k ∈ numbered)
      (hstores : done ++ rest
        = cbkStores (seqOf numbered k) ticket.headerStampNs ticket.tCaptureNs now) :
      SlotView numbered k ticket pc (apply done {})
  | filled (now : UInt64) (hpc : pc.busy ≠ some k) (hk : k ∈ numbered) :
      SlotView numbered k ticket pc (ticket.captured (seqOf numbered k) now)
  | completing {i : UInt64} (now sent : UInt64)
      (done rest : List (ImagePubRecord → ImagePubRecord)) (hi : i.toNat = k)
      (hpc : pc = .completing i rest) (hrest : rest ≠ []) (hk : k ∈ numbered)
      (hstores : done ++ rest = pubStores sent) :
      SlotView numbered k ticket pc (apply done (ticket.captured (seqOf numbered k) now))
  | completed (now sent : UInt64) (hpc : pc.slot ≠ some k) (hk : k ∈ numbered) :
      SlotView numbered k ticket pc
        (apply (pubStores sent) (ticket.captured (seqOf numbered k) now))

structure Sound (s : ConcurrentLog) : Prop where
  fd : 0 ≤ s.box.fd
  idx : s.box.idx = UInt64.ofNat s.tickets.length
  seq : s.box.seq = UInt64.ofNat s.numbered.length
  nodup : s.numbered.Nodup
  numbered : ∀ k ∈ s.numbered, k < s.tickets.length ∧ k < kBufN
  owned : ∀ t k, (s.threads t).slot = some k →
    k < kBufN ∧ ∃ ticket, s.tickets[k]? = some ticket ∧ ticket.thread = t
  view : ∀ k ticket, k < kBufN → s.tickets[k]? = some ticket →
    SlotView s.numbered k ticket (s.threads ticket.thread) (s.box.base k)
  free : ∀ k, s.tickets.length ≤ k ∨ kBufN ≤ k → s.box.base k = {}
  inOrder : ∀ k k' ticket ticket', k < k' → s.tickets[k]? = some ticket →
    s.tickets[k']? = some ticket' → ticket.thread = ticket'.thread → k' ∈ s.numbered →
    s.numbered.idxOf k < s.numbered.idxOf k'

variable {s u : ConcurrentLog} {numbered : List Nat} {k : Nat} {ticket : Ticket} {pc pc' : LogPc}
  {r : ImagePubRecord}

theorem slot_outside_sizeMax : (LogPc.outside sizeMax).slot = none := by
  rw [LogPc.slot, if_pos rfl]

theorem LogPc.slot_of_busy (h : pc.busy = some k) : pc.slot = some k := by
  cases pc with
  | outside i => cases h
  | indexed | filling | completing => exact h

theorem SlotView.of_ne (h : SlotView numbered k ticket pc r) (hpc : pc.busy ≠ some k)
    (hpc' : pc'.slot ≠ some k) : SlotView numbered k ticket pc' r := by
  have hbusy : pc'.busy ≠ some k := mt LogPc.slot_of_busy hpc'
  cases h with
  | indexed hi heq =>
      rw [heq] at hpc
      exact absurd (congrArg some hi) hpc
  | filling _ _ _ hi heq | completing _ _ _ _ hi heq =>
      rw [heq] at hpc
      exact absurd (congrArg some hi) hpc
  | filled now _ hk => exact .filled now hbusy hk
  | completed now sent _ hk => exact .completed now sent hpc' hk

theorem SlotView.mem (h : SlotView numbered k ticket pc r) (hpc : pc.busy ≠ some k) :
    k ∈ numbered := by
  cases h with
  | indexed hi heq =>
      rw [heq] at hpc
      exact absurd (congrArg some hi) hpc
  | filling _ _ _ _ _ _ hk | completing _ _ _ _ _ _ _ hk => exact hk
  | filled _ _ hk | completed _ _ _ hk => exact hk

theorem seqOf_append {j : Nat} (h : k ∈ numbered) :
    seqOf (numbered ++ [j]) k = seqOf numbered k := by
  rw [seqOf, seqOf, List.idxOf_append_of_mem h]

theorem SlotView.numbered_append (h : SlotView numbered k ticket pc r) {j : Nat} (hj : k ≠ j) :
    SlotView (numbered ++ [j]) k ticket pc r := by
  have hmem : k ∈ numbered → k ∈ numbered ++ [j] := List.mem_append_left _
  cases h with
  | indexed hi hpc hk => exact .indexed hi hpc (by simp [hk, hj])
  | filling now done rest hi hpc hrest hk hstores =>
      rw [← seqOf_append (j := j) hk] at hstores
      exact .filling now done rest hi hpc hrest (hmem hk) hstores
  | filled now hpc hk =>
      rw [← seqOf_append (j := j) hk]
      exact .filled now hpc (hmem hk)
  | completing now sent done rest hi hpc hrest hk hstores =>
      rw [← seqOf_append (j := j) hk]
      exact .completing now sent done rest hi hpc hrest (hmem hk) hstores
  | completed now sent hpc hk =>
      rw [← seqOf_append (j := j) hk]
      exact .completed now sent hpc (hmem hk)

/-- A thread that has nothing to do with a record changes its place in the program. -/
theorem SlotView.update {threads : Nat → LogPc}
    (h : SlotView numbered k ticket (threads ticket.thread) r) {t : Nat}
    (hbusy : (threads t).busy ≠ some k) (hslot : pc.slot ≠ some k) :
    SlotView numbered k ticket (Function.update threads t pc ticket.thread) r := by
  by_cases ht : ticket.thread = t
  · rw [ht] at h ⊢
    rw [Function.update_self]
    exact h.of_ne hbusy hslot
  · rwa [Function.update_of_ne ht]

/-- The record that draws the next sequence number is the last of its thread so far. -/
theorem Sound.inOrder_concat (h : Sound s) {k₀ : Nat} (hk₀ : k₀ < kBufN)
    (hticket : s.tickets[k₀]? = some ticket) (hnew : k₀ ∉ s.numbered)
    (hbusy : ∀ k, (s.threads ticket.thread).busy = some k → k = k₀) {k k' : Nat} {a b : Ticket}
    (hlt : k < k') (ha : s.tickets[k]? = some a) (hb : s.tickets[k']? = some b)
    (hsame : a.thread = b.thread) (hk' : k' ∈ s.numbered ++ [k₀]) :
    (s.numbered ++ [k₀]).idxOf k < (s.numbered ++ [k₀]).idxOf k' := by
  rcases List.mem_append.mp hk' with hold | hlast
  · have hbefore := h.inOrder k k' a b hlt ha hb hsame hold
    have hk : k ∈ s.numbered :=
      List.idxOf_lt_length_iff.mp (hbefore.trans (List.idxOf_lt_length_iff.mpr hold))
    rwa [List.idxOf_append_of_mem hk, List.idxOf_append_of_mem hold]
  · obtain rfl := List.mem_singleton.mp hlast
    obtain rfl : ticket = b := Option.some.inj (hticket.symm.trans hb)
    have hk : k ∈ s.numbered := by
      refine (h.view k a (hlt.trans hk₀) ha).mem fun hpc => ?_
      rw [hsame] at hpc
      exact absurd (hbusy k hpc) (Nat.ne_of_lt hlt)
    have hbefore := List.idxOf_lt_length_iff.mpr hk
    rw [List.idxOf_append_of_mem hk, List.idxOf_append_of_notMem hnew]
    omega

/-- A step of a thread with its own record `k₀`. -/
theorem Sound.act (h : Sound s) {t k₀ : Nat} {box : Box} (hk₀ : k₀ < kBufN)
    (hticket : s.tickets[k₀]? = some ticket) (hthread : ticket.thread = t)
    (hbusy : ∀ k, (s.threads t).busy = some k → k = k₀) (hslot : ∀ k, pc.slot = some k → k = k₀)
    (hfd : box.fd = s.box.fd) (hidx : box.idx = s.box.idx)
    (hbase : ∀ k, k ≠ k₀ → box.base k = s.box.base k)
    (hnumbered : (numbered = s.numbered ∧ box.seq = s.box.seq) ∨
      (numbered = s.numbered ++ [k₀] ∧ k₀ ∉ s.numbered ∧ box.seq = s.box.seq + 1))
    (hview : SlotView numbered k₀ ticket pc (box.base k₀)) :
    Sound (ConcurrentLog.setPc { s with box, numbered } t pc) := by
  have hlength : k₀ < s.tickets.length := (List.getElem?_eq_some_iff.mp hticket).1
  refine ⟨hfd ▸ h.fd, hidx.trans h.idx, ?_, ?_, ?_, ?_, ?_, ?_, ?_⟩
  · rcases hnumbered with ⟨rfl, hseq⟩ | ⟨rfl, -, hseq⟩
    · exact hseq.trans h.seq
    · show box.seq = UInt64.ofNat (s.numbered ++ [k₀]).length
      rw [hseq, h.seq, List.length_append, UInt64.ofNat_add]
      rfl
  · rcases hnumbered with ⟨rfl, -⟩ | ⟨rfl, hnew, -⟩
    · exact h.nodup
    · show (s.numbered ++ [k₀]).Nodup
      rw [← List.concat_eq_append]
      exact h.nodup.concat hnew
  · rcases hnumbered with ⟨rfl, -⟩ | ⟨rfl, -, -⟩
    · exact h.numbered
    · intro k hk
      rcases List.mem_append.mp hk with hold | hnew
      · exact h.numbered k hold
      · obtain rfl := List.mem_singleton.mp hnew
        exact ⟨hlength, hk₀⟩
  · intro t' k hk
    by_cases ht : t' = t
    · subst ht
      change (Function.update s.threads t' pc t').slot = some k at hk
      rw [Function.update_self] at hk
      obtain rfl := hslot k hk
      exact ⟨hk₀, ticket, hticket, hthread⟩
    · change (Function.update s.threads t pc t').slot = some k at hk
      rw [Function.update_of_ne ht] at hk
      exact h.owned t' k hk
  · intro k other hk hother
    by_cases heq : k = k₀
    · subst heq
      obtain rfl : ticket = other := Option.some.inj (hticket.symm.trans hother)
      show SlotView numbered k ticket (Function.update s.threads t pc ticket.thread) (box.base k)
      rw [hthread, Function.update_self]
      exact hview
    · have hold : SlotView numbered k other (s.threads other.thread) (s.box.base k) := by
        rcases hnumbered with ⟨rfl, -⟩ | ⟨rfl, -, -⟩
        · exact h.view k other hk hother
        · exact (h.view k other hk hother).numbered_append heq
      show SlotView numbered k other (Function.update s.threads t pc other.thread) (box.base k)
      rw [hbase k heq]
      exact hold.update (fun hpc => heq (hbusy k hpc)) fun hpc => heq (hslot k hpc)
  · intro k hk
    change s.tickets.length ≤ k ∨ kBufN ≤ k at hk
    have hne : k ≠ k₀ := by omega
    exact (hbase k hne).trans (h.free k hk)
  · intro k k' a b hlt ha hb hsame hk'
    rcases hnumbered with ⟨rfl, -⟩ | ⟨rfl, hnew, -⟩
    · exact h.inOrder k k' a b hlt ha hb hsame hk'
    · subst hthread
      exact h.inOrder_concat hk₀ hticket hnew hbusy hlt ha hb hsame hk'

/-- A thread that is out of the log draws the next index. -/
theorem Sound.draw (h : Sound s) (ticket : Ticket) {box : Box}
    (hbusy : (s.threads ticket.thread).busy = none) (hfd : box.fd = s.box.fd)
    (hidx : box.idx = s.box.idx + 1) (hseq : box.seq = s.box.seq)
    (hbase : box.base = s.box.base)
    (hslot : ∀ k, pc.slot = some k → k = s.tickets.length ∧ k < kBufN)
    (hview : s.tickets.length < kBufN → SlotView s.numbered s.tickets.length ticket pc {}) :
    Sound (ConcurrentLog.setPc { s with box, tickets := s.tickets ++ [ticket] } ticket.thread
      pc) := by
  have hlookup : ∀ (k : Nat) (other : Ticket), (s.tickets ++ [ticket])[k]? = some other →
      s.tickets[k]? = some other ∨ (k = s.tickets.length ∧ other = ticket) := by
    intro k other hk
    rcases Nat.lt_trichotomy k s.tickets.length with hlt | rfl | hgt
    · exact .inl (by rwa [List.getElem?_append_left hlt] at hk)
    · exact .inr ⟨rfl, by simpa using hk.symm⟩
    · rw [List.getElem?_eq_none (by simp; omega)] at hk
      cases hk
  have hold : ∀ (k : Nat) (other : Ticket), s.tickets[k]? = some other →
      (s.tickets ++ [ticket])[k]? = some other := by
    intro k other hk
    rwa [List.getElem?_append_left (List.getElem?_eq_some_iff.mp hk).1]
  refine ⟨hfd ▸ h.fd, ?_, hseq.trans h.seq, h.nodup, ?_, ?_, ?_, ?_, ?_⟩
  · show box.idx = UInt64.ofNat (s.tickets ++ [ticket]).length
    rw [hidx, h.idx, List.length_append, UInt64.ofNat_add]
    rfl
  · intro k hk
    obtain ⟨hlt, hN⟩ := h.numbered k hk
    exact ⟨by show k < (s.tickets ++ [ticket]).length; rw [List.length_append]; omega, hN⟩
  · intro t k hk
    change (Function.update s.threads ticket.thread pc t).slot = some k at hk
    by_cases ht : t = ticket.thread
    · rw [ht, Function.update_self] at hk
      obtain ⟨rfl, hN⟩ := hslot k hk
      exact ⟨hN, ticket, by simp [ConcurrentLog.setPc], ht.symm⟩
    · rw [Function.update_of_ne ht] at hk
      obtain ⟨hN, other, hother, hthread⟩ := h.owned t k hk
      exact ⟨hN, other, hold k other hother, hthread⟩
  · intro k other hk hother
    show SlotView s.numbered k other (Function.update s.threads ticket.thread pc other.thread)
      (box.base k)
    rw [hbase]
    rcases hlookup k other hother with hearlier | ⟨rfl, rfl⟩
    · have hidle : (s.threads ticket.thread).busy ≠ some k := by
        rw [hbusy]
        exact (Option.some_ne_none k).symm
      refine (h.view k other hk hearlier).update hidle fun hpc => ?_
      have hearly := (List.getElem?_eq_some_iff.mp hearlier).1
      have hlast := (hslot k hpc).1
      omega
    · rw [Function.update_self, h.free _ (.inl (Nat.le_refl _))]
      exact hview hk
  · intro k hk
    change (s.tickets ++ [ticket]).length ≤ k ∨ kBufN ≤ k at hk
    rw [List.length_append] at hk
    exact (congrFun hbase k).trans (h.free k (by omega))
  · intro k k' a b hlt ha hb hsame hk'
    have hk'lt := (h.numbered k' hk').1
    rcases hlookup k a ha with ha' | ⟨hk, -⟩
    · rcases hlookup k' b hb with hb' | ⟨hk'', -⟩
      · exact h.inOrder k k' a b hlt ha' hb' hsame hk'
      · omega
    · omega

theorem Sound.init (fd : Nat) : Sound (ConcurrentLog.init fd) where
  fd := Int.natCast_nonneg fd
  idx := rfl
  seq := rfl
  nodup := List.nodup_nil
  numbered k hk := absurd hk List.not_mem_nil
  owned t k hk := by
    rw [ConcurrentLog.init, slot_outside_sizeMax] at hk
    cases hk
  view k ticket _ hticket := by cases hticket
  free _ _ := rfl
  inOrder k k' ticket _ _ hticket := by cases hticket

theorem Sound.idx_toNat (h : Sound s) (hsize : s.tickets.length < 2 ^ 64) :
    s.box.idx.toNat = s.tickets.length := by
  rw [h.idx, UInt64.toNat_ofNat_of_lt' hsize]

theorem Sound.cbk (h : Sound s) (hsize : s.tickets.length < 2 ^ 64) {t : Nat} {i : UInt64}
    (hpc : s.threads t = .outside i) (headerStampNs tCaptureNs : UInt64) :
    Sound (s.cbk t headerStampNs tCaptureNs) := by
  have hidx := h.idx_toNat hsize
  have hbusy : (s.threads t).busy = none := by rw [hpc]; rfl
  rw [ConcurrentLog.cbk, if_neg (Int.not_lt.mpr h.fd)]
  dsimp only [Box.nextIdx]
  by_cases hN : s.box.idx.toNat < kBufN
  · have hne : s.box.idx ≠ sizeMax := by
      intro heq
      rw [heq] at hN
      exact absurd hN (by decide)
    rw [if_pos hN, if_neg hne]
    refine h.draw ⟨t, headerStampNs, tCaptureNs⟩ hbusy rfl rfl rfl rfl ?_ fun _ => ?_
    · intro k hk
      obtain rfl := Option.some.inj hk
      exact ⟨hidx, hN⟩
    · refine .indexed hidx rfl fun hmem => ?_
      exact absurd (h.numbered _ hmem).1 (Nat.lt_irrefl _)
  · rw [if_neg hN, if_pos rfl]
    refine h.draw ⟨t, headerStampNs, tCaptureNs⟩ hbusy rfl rfl rfl rfl ?_ fun hlt => ?_
    · intro k hk
      rw [slot_outside_sizeMax] at hk
      cases hk
    · omega

theorem Sound.number (h : Sound s) {t : Nat} {i headerStampNs tCaptureNs : UInt64}
    (hpc : s.threads t = .indexed i headerStampNs tCaptureNs) (now : UInt64) :
    Sound (s.number t i headerStampNs tCaptureNs now) := by
  obtain ⟨hN, ticket, hticket, rfl⟩ := h.owned t i.toNat (by rw [hpc]; rfl)
  have hview := h.view i.toNat ticket hN hticket
  rw [hpc] at hview
  generalize hr : s.box.base i.toNat = r at hview
  cases hview with
  | indexed hi heq hk =>
      injection heq with _ hstamp hcapture
      refine h.act hN hticket rfl (fun k hbusy => ?_) (fun k hslot => ?_) rfl rfl
        (fun _ _ => rfl) (.inr ⟨rfl, hk, rfl⟩) ?_
      · rw [hpc] at hbusy
        exact (Option.some.inj hbusy).symm
      · exact (Option.some.inj hslot).symm
      · change SlotView _ _ _ _ (s.box.base i.toNat)
        rw [hr]
        refine .filling now [] _ rfl rfl (List.cons_ne_nil _ _) (by simp) ?_
        have hseq : seqOf (s.numbered ++ [i.toNat]) i.toNat = s.box.seq + 1 := by
          rw [seqOf, List.idxOf_append_of_notMem hk, h.seq]
          simp [UInt64.ofNat_add]
        rw [hseq, ← hstamp, ← hcapture]
        rfl
  | filling _ _ _ _ heq | completing _ _ _ _ _ heq => cases heq
  | filled _ hne | completed _ _ hne => exact absurd rfl hne

theorem write_apply (write : ImagePubRecord → ImagePubRecord)
    (done : List (ImagePubRecord → ImagePubRecord)) (r : ImagePubRecord) :
    write (apply done r) = apply (done ++ [write]) r := by
  rw [apply, apply, List.foldl_append]
  rfl

theorem Sound.storeFilling (h : Sound s) {t : Nat} {i : UInt64}
    {write : ImagePubRecord → ImagePubRecord} {rest : List (ImagePubRecord → ImagePubRecord)}
    (hpc : s.threads t = .filling i (write :: rest)) :
    Sound (s.storeTo t i write (.filling i rest)) := by
  obtain ⟨hN, ticket, hticket, rfl⟩ := h.owned t i.toNat (by rw [hpc]; rfl)
  have hview := h.view i.toNat ticket hN hticket
  rw [hpc] at hview
  generalize hr : s.box.base i.toNat = r at hview
  cases hview with
  | filling now done rest' hi heq hrest hk hstores =>
      injection heq with hindex hrest'
      subst hindex hrest'
      have hslot : ∀ k, (LogPc.filling i rest).stored.slot = some k → k = i.toNat := by
        intro k hk
        cases rest with
        | nil =>
            change (if i = sizeMax then none else some i.toNat) = some k at hk
            split at hk
            · cases hk
            · exact (Option.some.inj hk).symm
        | cons w ws => exact (Option.some.inj hk).symm
      refine h.act hN hticket rfl (fun k hbusy => ?_) hslot rfl rfl
        (fun k hne => Function.update_of_ne hne _ _) (.inl ⟨rfl, rfl⟩) ?_
      · rw [hpc] at hbusy
        exact (Option.some.inj hbusy).symm
      · change SlotView _ _ _ _ (Function.update s.box.base i.toNat (write (s.box.base i.toNat)) _)
        rw [Function.update_self, hr, write_apply write]
        cases rest with
        | nil =>
            rw [hstores]
            exact .filled _ (Option.some_ne_none _).symm hk
        | cons w ws =>
            refine .filling now (done ++ [write]) (w :: ws) hi rfl (List.cons_ne_nil _ _) hk ?_
            rw [List.append_assoc]
            exact hstores
  | indexed _ heq | completing _ _ _ _ _ heq => cases heq
  | filled _ hne | completed _ _ hne => exact absurd rfl hne

theorem Sound.storeCompleting (h : Sound s) {t : Nat} {i : UInt64}
    {write : ImagePubRecord → ImagePubRecord} {rest : List (ImagePubRecord → ImagePubRecord)}
    (hpc : s.threads t = .completing i (write :: rest)) :
    Sound (s.storeTo t i write (.completing i rest)) := by
  obtain ⟨hN, ticket, hticket, rfl⟩ := h.owned t i.toNat (by rw [hpc]; rfl)
  have hview := h.view i.toNat ticket hN hticket
  rw [hpc] at hview
  generalize hr : s.box.base i.toNat = r at hview
  cases hview with
  | completing now sent done rest' hi heq hrest hk hstores =>
      injection heq with hindex hrest'
      subst hindex hrest'
      have hslot : ∀ k, (LogPc.completing i rest).stored.slot = some k → k = i.toNat := by
        intro k hk
        cases rest with
        | nil =>
            rw [LogPc.stored, slot_outside_sizeMax] at hk
            cases hk
        | cons w ws => exact (Option.some.inj hk).symm
      refine h.act hN hticket rfl (fun k hbusy => ?_) hslot rfl rfl
        (fun k hne => Function.update_of_ne hne _ _) (.inl ⟨rfl, rfl⟩) ?_
      · rw [hpc] at hbusy
        exact (Option.some.inj hbusy).symm
      · change SlotView _ _ _ _ (Function.update s.box.base i.toNat (write (s.box.base i.toNat)) _)
        rw [Function.update_self, hr, write_apply write]
        cases rest with
        | nil =>
            rw [hstores]
            refine .completed now sent ?_ hk
            rw [LogPc.stored, slot_outside_sizeMax]
            exact (Option.some_ne_none _).symm
        | cons w ws =>
            refine .completing now sent (done ++ [write]) (w :: ws) hi rfl (List.cons_ne_nil _ _)
              hk ?_
            rw [List.append_assoc]
            exact hstores
  | indexed _ heq | filling _ _ _ _ heq => cases heq
  | filled _ hne | completed _ _ hne => exact absurd rfl hne

theorem Sound.pub (h : Sound s) {t : Nat} {i : UInt64} (hpc : s.threads t = .outside i)
    (now : UInt64) : Sound (s.pub t i now) := by
  rw [ConcurrentLog.pub]
  split
  · exact h
  · next hguard =>
      obtain ⟨-, hne, -⟩ := not_or.mp hguard |>.imp_right not_or.mp
      have hslot : (s.threads t).slot = some i.toNat := by
        rw [hpc]
        exact if_neg hne
      obtain ⟨hN, ticket, hticket, rfl⟩ := h.owned t i.toNat hslot
      have hview := h.view i.toNat ticket hN hticket
      generalize hr : s.box.base i.toNat = r at hview
      cases hview with
      | filled now' _ hk =>
          refine h.act hN hticket rfl (fun k hbusy => ?_) (fun k hk => ?_) rfl rfl
            (fun _ _ => rfl) (.inl ⟨rfl, rfl⟩) ?_
          · rw [hpc] at hbusy
            cases hbusy
          · exact (Option.some.inj hk).symm
          · rw [hr]
            exact .completing now' now [] (pubStores now) rfl rfl (List.cons_ne_nil _ _) hk rfl
      | completed _ _ hne' => exact absurd hslot hne'
      | indexed _ heq | filling _ _ _ _ heq | completing _ _ _ _ _ heq =>
          rw [hpc] at heq
          cases heq

theorem Sound.step (h : Sound s) (hsize : s.tickets.length < 2 ^ 64) {e : Nat × LogAction}
    (hstep : s.step e = some u) : Sound u := by
  obtain ⟨t, action⟩ := e
  rw [ConcurrentLog.step] at hstep
  split at hstep
  · next hpc _ => exact Option.some.inj hstep ▸ h.cbk hsize hpc _ _
  · next hpc _ => exact Option.some.inj hstep ▸ h.number hpc _
  · next hpc _ => exact Option.some.inj hstep ▸ h.pub hpc _
  · next hpc _ => exact Option.some.inj hstep ▸ h.storeFilling hpc
  · next hpc _ => exact Option.some.inj hstep ▸ h.storeCompleting hpc
  · cases hstep

theorem tickets_of_step {e : Nat × LogAction} (hstep : s.step e = some u) :
    u.tickets.length ≤ s.tickets.length + e.2.isCbk.toNat := by
  obtain ⟨t, action⟩ := e
  rw [ConcurrentLog.step] at hstep
  split at hstep
  · next haction =>
      obtain rfl := Option.some.inj hstep
      rw [show action = .cbk _ _ from haction, ConcurrentLog.cbk]
      split
      · exact Nat.le_add_right _ _
      · show (s.tickets ++ [_]).length ≤ _
        rw [List.length_append]
        rfl
  · exact Option.some.inj hstep ▸ Nat.le_add_right _ _
  · obtain rfl := Option.some.inj hstep
    rw [ConcurrentLog.pub]
    split
    · exact Nat.le_add_right _ _
    · exact Nat.le_add_right _ _
  · exact Option.some.inj hstep ▸ Nat.le_add_right _ _
  · exact Option.some.inj hstep ▸ Nat.le_add_right _ _
  · cases hstep

theorem sound_of_run {fd : Nat} {events : List (Nat × LogAction)}
    (hcount : events.countP (·.2.isCbk) < 2 ^ 64)
    (h : Runs.run ConcurrentLog.step (ConcurrentLog.init fd) events = some s) : Sound s :=
  Runs.invariant_of_countP (I := Sound) (μ := fun s => s.tickets.length)
    (fun _ _ _ hstep => tickets_of_step hstep)
    (fun _ _ _ hs hlt hstep => hs.step ((Nat.le_add_right _ _).trans_lt hlt) hstep)
    (Sound.init fd) rfl h hcount

theorem SlotView.truth (h : SlotView numbered k ticket pc r) :
    (r.capDone = 1 → k ∈ numbered ∧ r.seq = seqOf numbered k ∧
      r.headerStamp = ticket.headerStampNs ∧ r.tCaptureNs = ticket.tCaptureNs) ∧
    (r.rosDone = 1 → r.capDone = 1) := by
  cases h with
  | indexed => exact ⟨fun hcap => absurd hcap (by decide), fun hros => absurd hros (by decide)⟩
  | filling now done rest hi hpc hrest hk hstores =>
      obtain ⟨hros, hcap⟩ := cbkStores_cut hstores
      refine ⟨fun h1 => ?_, fun h1 => by rw [hros] at h1; cases h1⟩
      obtain ⟨hseq, hcall⟩ := hcap h1
      exact ⟨hk, hseq, congrArg CbkCall.headerStampNs hcall, congrArg CbkCall.tCaptureNs hcall⟩
  | filled now hpc hk => exact ⟨fun _ => ⟨hk, rfl, rfl, rfl⟩, fun _ => rfl⟩
  | completing now sent done rest hi hpc hrest hk hstores =>
      rw [pubStores_cut hstores hrest]
      exact ⟨fun _ => ⟨hk, rfl, rfl, rfl⟩, fun _ => rfl⟩
  | completed now sent hpc hk => exact ⟨fun _ => ⟨hk, rfl, rfl, rfl⟩, fun _ => rfl⟩

theorem SlotView.quiet (h : SlotView numbered k ticket pc r) (hpc : pc.busy = none) :
    r.capDone = 1 := by
  cases h with
  | indexed hi heq | filling _ _ _ hi heq | completing _ _ _ _ hi heq =>
      rw [heq] at hpc
      cases hpc
  | filled | completed => rfl

theorem Sound.numbered_length (h : Sound s) : s.numbered.length ≤ kBufN := by
  have hsub : s.numbered ⊆ List.range kBufN := fun k hk => List.mem_range.mpr (h.numbered k hk).2
  have := (h.nodup.subperm hsub).length_le
  rwa [List.length_range] at this

theorem Sound.seqOf_toNat (h : Sound s) (hk : k ∈ s.numbered) :
    (seqOf s.numbered k).toNat = s.numbered.idxOf k + 1 := by
  have hlength := h.numbered_length
  have hlt := List.idxOf_lt_length_iff.mpr hk
  have hN : kBufN = 1048576 := rfl
  have hsize : UInt64.size = 2 ^ 64 := rfl
  exact UInt64.toNat_ofNat_of_lt' (by omega)

theorem Sound.ticket_of_capDone (h : Sound s) (hcap : (s.box.base k).capDone = 1) :
    k < kBufN ∧ ∃ ticket, s.tickets[k]? = some ticket := by
  by_cases hk : s.tickets.length ≤ k ∨ kBufN ≤ k
  · rw [h.free k hk] at hcap
    exact absurd hcap (by decide)
  · have hlt : k < s.tickets.length := by omega
    exact ⟨by omega, s.tickets[k], List.getElem?_eq_getElem hlt⟩

/-- **A record belongs to one thread and tells the truth.** In every state of every run, whatever
the number of threads and the order of their accesses, no two threads may store to one record, and
a record that is marked holds the arguments of the one call that has drawn its index. -/
theorem records_under_any_threads {fd : Nat} {events : List (Nat × LogAction)}
    (hcount : events.countP (·.2.isCbk) < 2 ^ 64)
    (h : Runs.run ConcurrentLog.step (ConcurrentLog.init fd) events = some s) :
    (∀ t t' k, (s.threads t).slot = some k → (s.threads t').slot = some k → t = t') ∧
    ∀ k, ((s.box.base k).rosDone = 1 → (s.box.base k).capDone = 1) ∧
      ((s.box.base k).capDone = 1 → ∃ ticket, s.tickets[k]? = some ticket ∧
        (s.box.base k).headerStamp = ticket.headerStampNs ∧
        (s.box.base k).tCaptureNs = ticket.tCaptureNs) := by
  have hs := sound_of_run hcount h
  constructor
  · intro t t' k ht ht'
    obtain ⟨-, ticket, hticket, rfl⟩ := hs.owned t k ht
    obtain ⟨-, other, hother, rfl⟩ := hs.owned t' k ht'
    exact congrArg Ticket.thread (Option.some.inj (hticket.symm.trans hother))
  · intro k
    constructor
    · intro hros
      by_cases hk : s.tickets.length ≤ k ∨ kBufN ≤ k
      · rw [hs.free k hk] at hros
        exact absurd hros (by decide)
      · have hlt : k < s.tickets.length := by omega
        exact (hs.view k _ (by omega) (List.getElem?_eq_getElem hlt)).truth.2 hros
    · intro hcap
      obtain ⟨hN, ticket, hticket⟩ := hs.ticket_of_capDone hcap
      obtain ⟨-, -, hstamp, hcapture⟩ := (hs.view k ticket hN hticket).truth.1 hcap
      exact ⟨ticket, hticket, hstamp, hcapture⟩

/-- Two threads draw their indices, and the second one its number first. -/
def crossedRun : List (Nat × LogAction) :=
  [(0, .cbk 10 1), (1, .cbk 20 2), (1, .number 5), (1, .store), (0, .number 6), (0, .store),
   (1, .store), (1, .store), (1, .store), (1, .store), (1, .store), (1, .store), (0, .store),
   (0, .store), (0, .store), (0, .store), (0, .store), (0, .store), (1, .pub 9), (1, .store),
   (1, .store)]

theorem records_of_crossedRun : ∃ s,
    Runs.run ConcurrentLog.step (ConcurrentLog.init 3) crossedRun = some s ∧
      s.box.base 0 = { seq := 2, headerStamp := 10, tCaptureNs := 1, tCbkNs := 6, capDone := 1 } ∧
      s.box.base 1 = { seq := 1, headerStamp := 20, tCaptureNs := 2, tCbkNs := 5, tPubNs := 9
                       capDone := 1, rosDone := 1 } ∧
      ∃ ticket, s.tickets[1]? = some ticket ∧ (s.box.base 1).headerStamp = ticket.headerStampNs ∧
        (s.box.base 1).tCaptureNs = ticket.tCaptureNs := by
  refine ⟨_, rfl, rfl, rfl, ?_⟩
  exact ((@records_under_any_threads _ 3 crossedRun (by decide) rfl).2 1).2 rfl

/-- **The numbers of the records.** The marked records of one thread are numbered in the order of
its calls, and when no thread is inside a call, the first records are all marked, their numbers are
`1`, `2`, … in some order, and the others are as `fallocate` has left them. -/
theorem seq_under_any_threads {fd : Nat} {events : List (Nat × LogAction)}
    (hcount : events.countP (·.2.isCbk) < 2 ^ 64)
    (h : Runs.run ConcurrentLog.step (ConcurrentLog.init fd) events = some s) :
    (∀ k k' ticket ticket', k < k' → s.tickets[k]? = some ticket → s.tickets[k']? = some ticket' →
      ticket.thread = ticket'.thread → (s.box.base k).capDone = 1 → (s.box.base k').capDone = 1 →
      (s.box.base k).seq < (s.box.base k').seq) ∧
    ((∀ t, (s.threads t).busy = none) →
      let n := min s.tickets.length kBufN
      (∀ k < n, (s.box.base k).capDone = 1) ∧
      ((List.range n).map fun k => (s.box.base k).seq).Perm
        ((List.range n).map fun j => UInt64.ofNat (j + 1)) ∧
      ∀ k, n ≤ k → s.box.base k = {}) := by
  have hs := sound_of_run hcount h
  constructor
  · intro k k' ticket ticket' hlt hticket hticket' hsame hcap hcap'
    obtain ⟨hN, -⟩ := hs.ticket_of_capDone hcap
    obtain ⟨hN', -⟩ := hs.ticket_of_capDone hcap'
    obtain ⟨hk, hseq, -⟩ := (hs.view k ticket hN hticket).truth.1 hcap
    obtain ⟨hk', hseq', -⟩ := (hs.view k' ticket' hN' hticket').truth.1 hcap'
    have horder := hs.inOrder k k' ticket ticket' hlt hticket hticket' hsame hk'
    rw [hseq, hseq', UInt64.lt_iff_toNat_lt, hs.seqOf_toNat hk, hs.seqOf_toNat hk']
    omega
  · intro hquiet n
    have hn : n = min s.tickets.length kBufN := rfl
    have hmarked : ∀ k < n, (s.box.base k).capDone = 1 ∧ k ∈ s.numbered ∧
        (s.box.base k).seq = seqOf s.numbered k := by
      intro k hk
      have hlt : k < s.tickets.length := by omega
      have hview := hs.view k _ (by omega) (List.getElem?_eq_getElem hlt)
      have hcap := hview.quiet (hquiet _)
      obtain ⟨hmem, hseq, -⟩ := hview.truth.1 hcap
      exact ⟨hcap, hmem, hseq⟩
    have hperm : s.numbered.Perm (List.range n) := by
      refine (List.perm_ext_iff_of_nodup hs.nodup List.nodup_range).mpr fun k => ?_
      rw [List.mem_range]
      refine ⟨fun hk => ?_, fun hk => (hmarked k hk).2.1⟩
      have := hs.numbered k hk
      omega
    refine ⟨fun k hk => (hmarked k hk).1, ?_, fun k hk => hs.free k (by omega)⟩
    have hseqs : ((List.range n).map fun k => (s.box.base k).seq)
        = (List.range n).map (seqOf s.numbered) :=
      List.map_congr_left fun k hk => (hmarked k (List.mem_range.mp hk)).2.2
    have hnumbered : s.numbered.map (seqOf s.numbered)
        = (List.range n).map fun j => UInt64.ofNat (j + 1) := by
      have hlength : s.numbered.length = n := by rw [hperm.length_eq, List.length_range]
      refine List.ext_getElem (by simp [hlength]) fun j hj _ => ?_
      rw [List.length_map] at hj
      simp [seqOf, hs.nodup.idxOf_getElem j hj]
    rw [hseqs, ← hnumbered]
    exact (hperm.map _).symm

theorem seq_of_crossedRun : ∃ s,
    Runs.run ConcurrentLog.step (ConcurrentLog.init 3) crossedRun = some s ∧
      ((List.range 2).map fun k => (s.box.base k).seq).Perm [1, 2] := by
  refine ⟨_, rfl, ?_⟩
  refine ((@seq_under_any_threads _ 3 crossedRun (by decide) rfl).2 ?_).2.1
  intro t
  rcases t with _ | _ | t
  · rfl
  · rfl
  · rfl

end EconRos2Driver.Blackbox
