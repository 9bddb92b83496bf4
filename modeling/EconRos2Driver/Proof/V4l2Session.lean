import EconRos2Driver.Library.Ledger
import EconRos2Driver.Proof.BufferOwnership
import Mathlib.Logic.Function.Iterate

/-!
# One session of the V4L2 backend

From one `start`, whichever of its system calls fails, through any `grab` and `release` to the calls
of `stop`. The buffers that are mapped are the first `hi` of the table, where `hi` is how far the
loop of `request_buffers` came; `stop` walks over all `n_bufs_` positions and finds just these, as
long as `REQBUFS` has granted no more of them than the table has entries.
-/

namespace EconRos2Driver

open Ledger

inductive V4l2Ref where
  | device (fd : Int)
  | mapping (i length : Nat)
  deriving DecidableEq, Repr

def V4l2Call.entry : V4l2Call → Option (Entry V4l2Ref)
  | .openDevice fd => some (.take (.device fd))
  | .mmap i length => some (.take (.mapping i length))
  | .munmap i length => some (.give (.mapping i length))
  | .closeDevice fd => some (.give (.device fd))
  | .qbuf _ | .dqbuf _ | .streamoff => none

/-- What happens to the backend between `start` and `stop`. -/
inductive BackendCall where
  | grab (answer : DqbufAnswer)
  | release (qbuf : Bool)
  | kernel (move : V4l2Move)

def openedFd (p : Params) (answer : StartAnswer) : Option Nat :=
  if p.flipMethod ≠ 0 then none else answer.openFd

def devices (opened : Option Nat) : List V4l2Ref := opened.toList.map fun fd => .device fd

def mappings (answer : StartAnswer) (lo hi : Nat) : List (Nat × Nat) :=
  (List.range' lo (hi - lo)).map fun i => (i, (answer.buffer i).length)

namespace V4l2World

def ledger (w : V4l2World) : List (Entry V4l2Ref) := w.calls.filterMap V4l2Call.entry

def backendStep (cv : OpenCv) (w : V4l2World) : BackendCall → Option V4l2World
  | .grab answer => (w.grab cv answer).map Prod.snd
  | .release qbuf => some (w.release qbuf)
  | .kernel move => w.move move

/-- The buffers from `lo` to `hi` are mapped, and the open devices and these mappings are all that
is outstanding. -/
structure Table (answer : StartAnswer) (opened : Option Nat) (lo hi : Nat) (w : V4l2World) :
    Prop where
  mapped : ∀ i, lo ≤ i → i < hi → w.backend.bufAt i = ⟨.mapped i, (answer.buffer i).length⟩
  unmapped : ∀ i, i < lo ∨ hi ≤ i → ∀ j, (w.backend.bufAt i).start ≠ .mapped j
  maps : w.maps.Perm (mappings answer lo hi)
  ledger : ∃ held, outstanding w.ledger = some held ∧
    held.Perm (devices opened ++ (mappings answer lo hi).map fun m => .mapping m.1 m.2)

/-- Every access to the table has been below `n_bufs_`, and so are the buffers that the kernel holds
and the recorded one. -/
structure Bounded (n : Int) (w : V4l2World) : Prop where
  nBufs : w.backend.nBufs = n
  queue : ∀ i ∈ w.queue, (i : Int) < n
  recorded : ∀ i, w.releaseIndex = some i → (i : Int) < n
  touched : ∀ access ∈ w.touched, access.2 = n ∧ (access.1 : Int) < n

theorem mappings_succ (answer : StartAnswer) (hi : Nat) :
    mappings answer 0 (hi + 1) = mappings answer 0 hi ++ [(hi, (answer.buffer hi).length)] := by
  simp [mappings, List.range'_concat]

theorem mappings_cons {answer : StartAnswer} {lo hi : Nat} (h : lo < hi) :
    mappings answer lo hi = (lo, (answer.buffer lo).length) :: mappings answer (lo + 1) hi := by
  have hlength : hi - lo = hi - (lo + 1) + 1 := by omega
  rw [mappings, hlength, List.range'_succ]
  rfl

theorem mappings_self (answer : StartAnswer) (hi : Nat) : mappings answer hi hi = [] := by
  simp [mappings]

/-! ### `start`, whatever fails -/

theorem Table.of_same {answer : StartAnswer} {opened : Option Nat} {lo hi : Nat} {w t : V4l2World}
    (h : Table answer opened lo hi w) (hbufs : t.backend.bufs = w.backend.bufs)
    (hmaps : t.maps = w.maps) (hledger : t.ledger = w.ledger) : Table answer opened lo hi t := by
  have hsame : ∀ i, t.backend.bufAt i = w.backend.bufAt i := by
    intro i
    simp only [V4l2OpencvBackend.bufAt, hbufs]
  refine ⟨?_, ?_, ?_, ?_⟩
  · intro i hlo hhi
    rw [hsame]
    exact h.mapped i hlo hhi
  · intro i hout
    rw [hsame]
    exact h.unmapped i hout
  · rw [hmaps]
    exact h.maps
  · rw [hledger]
    exact h.ledger

theorem Table.setBuf {answer : StartAnswer} {opened : Option Nat} {lo hi i : Nat} {w : V4l2World}
    (h : Table answer opened lo hi w) (hi' : i < lo ∨ hi ≤ i) {buf : MmapBuf}
    (hbuf : ∀ j, buf.start ≠ .mapped j) : Table answer opened lo hi (w.setBuf i buf) := by
  refine ⟨?_, ?_, h.maps, h.ledger⟩
  · intro j hlo hhi
    rw [← h.mapped j hlo hhi]
    exact V4l2OpencvBackend.bufAt_setBuf_of_ne _ _ (by omega)
  · intro j hj k
    by_cases heq : j = i
    · subst heq
      by_cases hin : j < kBufCount
      · simpa [V4l2World.setBuf, V4l2OpencvBackend.bufAt_setBuf_self _ _ hin] using hbuf k
      · simp [V4l2OpencvBackend.bufAt_of_le _ (Nat.le_of_not_lt hin)]
    · simpa [V4l2World.setBuf, V4l2OpencvBackend.bufAt_setBuf_of_ne _ _ heq]
        using h.unmapped j hj k

theorem ledger_append {w t : V4l2World} {calls : List V4l2Call} (h : t.calls = w.calls ++ calls) :
    t.ledger = w.ledger ++ calls.filterMap V4l2Call.entry := by
  rw [ledger, ledger, h, List.filterMap_append]

/-- One more buffer is mapped. -/
theorem Table.mmap {answer : StartAnswer} {opened : Option Nat} {hi : Nat} {w t : V4l2World}
    (h : Table answer opened 0 hi w)
    (hself : t.backend.bufAt hi = ⟨.mapped hi, (answer.buffer hi).length⟩)
    (hother : ∀ i, i ≠ hi → t.backend.bufAt i = w.backend.bufAt i)
    (hmaps : t.maps = (hi, (answer.buffer hi).length) :: w.maps)
    (hcalls : t.calls = w.calls ++ [.mmap hi (answer.buffer hi).length, .qbuf hi]) :
    Table answer opened 0 (hi + 1) t := by
  obtain ⟨held, hheld, hperm⟩ := h.ledger
  refine ⟨?_, ?_, ?_, ?_⟩
  · intro i hlo hlt
    by_cases heq : i = hi
    · rw [heq, hself]
    · rw [hother i heq]
      exact h.mapped i hlo (by omega)
  · intro i hout j
    rw [hother i (by omega)]
    exact h.unmapped i (by omega) j
  · rw [hmaps, mappings_succ]
    exact (h.maps.cons _).trans (List.perm_append_singleton _ _).symm
  · refine ⟨.mapping hi (answer.buffer hi).length :: held, ?_, ?_⟩
    · rw [ledger_append hcalls, outstanding_append hheld]
      rfl
    · rw [mappings_succ, List.map_append, ← List.append_assoc]
      exact (hperm.cons _).trans (List.perm_append_singleton _ _).symm

theorem Table.requestBuffer {answer : StartAnswer} {opened : Option Nat} {hi : Nat}
    {w : V4l2World} (h : Table answer opened 0 hi w) (hin : hi < kBufCount) :
    (w.requestBuffer hi (answer.buffer hi)).1 = true ∧
        Table answer opened 0 (hi + 1) (w.requestBuffer hi (answer.buffer hi)).2 ∨
      (w.requestBuffer hi (answer.buffer hi)).1 = false ∧ ∃ hi' ≤ hi + 1,
        Table answer opened 0 hi' (w.requestBuffer hi (answer.buffer hi)).2 := by
  unfold V4l2World.requestBuffer
  by_cases hquery : (answer.buffer hi).querybuf = true
  · by_cases hmmap : (answer.buffer hi).mmap = true
    · by_cases hqbuf : (answer.buffer hi).qbuf = true
      · simp only [hquery, hmmap, hqbuf, Bool.not_true, Bool.false_eq_true, if_false]
        exact .inl ⟨trivial, h.mmap (V4l2OpencvBackend.bufAt_setBuf_self _ _ hin)
          (fun _ hne => V4l2OpencvBackend.bufAt_setBuf_of_ne _ _ hne) rfl rfl⟩
      · simp only [hquery, hmmap, hqbuf, Bool.not_true, Bool.false_eq_true, if_false,
          Bool.not_false, if_true]
        exact .inr ⟨trivial, hi + 1, Nat.le_refl _,
          h.mmap (V4l2OpencvBackend.bufAt_setBuf_self _ _ hin)
            (fun _ hne => V4l2OpencvBackend.bufAt_setBuf_of_ne _ _ hne) rfl rfl⟩
    · simp only [hquery, hmmap, Bool.not_true, Bool.false_eq_true, if_false, Bool.not_false,
        if_true]
      refine .inr ⟨trivial, hi, Nat.le_succ hi, h.setBuf (.inr (Nat.le_refl hi)) ?_⟩
      intro j hj
      cases hj
  · simp only [hquery, Bool.not_false, if_true]
    exact .inr ⟨trivial, hi, Nat.le_succ hi, h⟩

theorem Bounded.requestBuffer {n : Int} {w : V4l2World} (h : Bounded n w) {i : Nat}
    (hi : (i : Int) < n) (answer : BufferAnswer) : Bounded n (w.requestBuffer i answer).2 := by
  have htouched : ∀ access ∈ w.touched ++ [(i, w.backend.nBufs)],
      access.2 = n ∧ (access.1 : Int) < n := by
    intro access haccess
    rcases List.mem_append.mp haccess with hold | hnew
    · exact h.touched access hold
    · rw [List.mem_singleton.mp hnew]
      exact ⟨h.nBufs, hi⟩
  unfold V4l2World.requestBuffer
  split_ifs
  · exact h
  · exact ⟨h.nBufs, h.queue, h.recorded, htouched⟩
  · exact ⟨h.nBufs, h.queue, h.recorded, htouched⟩
  · refine ⟨h.nBufs, ?_, h.recorded, htouched⟩
    intro j hj
    rcases List.mem_append.mp hj with hold | hnew
    · exact h.queue j hold
    · rw [List.mem_singleton.mp hnew]
      exact hi

theorem requestBuffer_fd (w : V4l2World) (i : Nat) (answer : BufferAnswer) :
    (w.requestBuffer i answer).2.backend.fd = w.backend.fd := by
  unfold requestBuffer
  split_ifs <;> rfl

/-- What the loop of `request_buffers` leaves behind, wherever it ends. -/
theorem Table.requestBuffersFrom {answer : StartAnswer} {opened : Option Nat} :
    ∀ (rounds hi : Nat) (w : V4l2World), Table answer opened 0 hi w → hi + rounds ≤ kBufCount →
      ∃ hi' ≤ hi + rounds,
        Table answer opened 0 hi' (requestBuffersFrom answer.buffer hi rounds w).2 := by
  intro rounds
  induction rounds with
  | zero =>
      intro hi w htable _
      exact ⟨hi, Nat.le_refl hi, htable⟩
  | succ rounds ih =>
      intro hi w htable hin
      have hround := htable.requestBuffer (by omega)
      unfold V4l2World.requestBuffersFrom
      split
      · rename_i t heq
        rw [heq] at hround
        rcases hround with ⟨hok, -⟩ | ⟨-, hi', hle, htable'⟩
        · cases hok
        · exact ⟨hi', by omega, htable'⟩
      · rename_i t heq
        rw [heq] at hround
        rcases hround with ⟨-, htable'⟩ | ⟨hfailed, -⟩
        · obtain ⟨hi', hle, hrest⟩ := ih (hi + 1) t htable' (by omega)
          exact ⟨hi', by omega, hrest⟩
        · cases hfailed

theorem Bounded.requestBuffersFrom {n : Int} (answer : Nat → BufferAnswer) :
    ∀ (rounds i : Nat) (w : V4l2World), Bounded n w → ((i + rounds : Nat) : Int) ≤ n →
      Bounded n (requestBuffersFrom answer i rounds w).2 := by
  intro rounds
  induction rounds with
  | zero => exact fun _ _ hbounded _ => hbounded
  | succ rounds ih =>
      intro i w hbounded hn
      have hnext := hbounded.requestBuffer (i := i) (by omega) (answer i)
      unfold V4l2World.requestBuffersFrom
      split
      all_goals
        rename_i t heq
        rw [heq] at hnext
      · exact hnext
      · exact ih (i + 1) t hnext (by omega)

/-- The state of the backend between `start`, whatever it returned, and `stop`. -/
structure Session (p : Params) (answer : StartAnswer) (w : V4l2World) : Prop where
  fd : w.backend.fd = (openedFd p answer).elim (-1) Int.ofNat
  unopened : openedFd p answer = none → w.backend.currentIndex = -1 ∧ w.queue = []
  bounded : Bounded (granted p answer) w
  table : granted p answer ≤ kBufCount →
    ∃ hi ≤ (granted p answer).toNat, Table answer (openedFd p answer) 0 hi w

theorem bounded_empty {n : Int} {w : V4l2World} (hnBufs : w.backend.nBufs = n)
    (hqueue : w.queue = []) (hindex : w.backend.currentIndex = -1) (htouched : w.touched = []) :
    Bounded n w := by
  refine ⟨hnBufs, ?_, ?_, ?_⟩
  · rw [hqueue]
    intro i hi
    cases hi
  · intro i hi
    simp [releaseIndex, hindex] at hi
  · rw [htouched]
    intro access haccess
    cases haccess

theorem table_empty {answer : StartAnswer} {opened : Option Nat} {w : V4l2World}
    (hbufs : w.backend.bufs = fun _ => {}) (hmaps : w.maps = [])
    (hcalls : w.calls = opened.toList.map .openDevice) : Table answer opened 0 0 w := by
  refine ⟨?_, ?_, ?_, ?_⟩
  · intro i _ hlt
    omega
  · intro i _ j hj
    simp only [V4l2OpencvBackend.bufAt, hbufs] at hj
    split_ifs at hj
  · rw [hmaps, mappings_self]
  · refine ⟨devices opened, ?_, ?_⟩
    · rw [ledger, hcalls]
      cases opened <;> rfl
    · rw [mappings_self, List.map_nil, List.append_nil]

theorem session_of_opened {p : Params} {answer : StartAnswer} {fd : Nat} {w : V4l2World}
    (hopened : openedFd p answer = some fd) (hfd : w.backend.fd = fd)
    (hbounded : Bounded (granted p answer) w)
    (htable : granted p answer ≤ kBufCount →
      ∃ hi ≤ (granted p answer).toNat, Table answer (some fd) 0 hi w) :
    Session p answer w := by
  refine ⟨?_, ?_, hbounded, ?_⟩
  · rw [hopened, hfd]
    rfl
  · rw [hopened]
    intro hnone
    cases hnone
  · rw [hopened]
    exact htable

/-- The backend when `request_buffers` is called. -/
def formatted (memory : Nat → Nat → UInt8) (p : Params) (format : ImageFormat) (fd : Nat)
    (reply : PixFormat) : V4l2World where
  backend :=
    { fd := (fd : Int), format, res := p.res
      needResize := decide (p.res.outputWidth ≠ p.res.captureWidth
        ∨ p.res.outputHeight ≠ p.res.captureHeight) }
  memory
  negotiated := some reply
  calls := [.openDevice fd]

theorem start_of_formatted {memory : Nat → Nat → UInt8} {p : Params} {format : ImageFormat}
    {answer : StartAnswer} {fd : Nat} {reply : PixFormat} (hflip : ¬ p.flipMethod ≠ 0)
    (hopen : answer.openFd = some fd) (hfmt : answer.sFmt = some reply) :
    ((fresh memory).start p format answer).2
      = ((formatted memory p format fd reply).requestBuffers answer).2 := by
  unfold start
  rw [if_neg hflip, hopen, hfmt]
  dsimp only [setFormat]
  split
  · rename_i hfailed
    exact (congrArg Prod.snd hfailed).symm
  · rename_i hgranted
    exact (congrArg Prod.snd hgranted).symm

theorem session_requestBuffers {memory : Nat → Nat → UInt8} {p : Params} {format : ImageFormat}
    {answer : StartAnswer} {fd : Nat} {reply : PixFormat} (hflip : ¬ p.flipMethod ≠ 0)
    (hopen : answer.openFd = some fd) (hfmt : answer.sFmt = some reply) :
    Session p answer ((formatted memory p format fd reply).requestBuffers answer).2 := by
  have hopened : openedFd p answer = some fd := (if_neg hflip).trans hopen
  have hempty : Table answer (some fd) 0 0 (formatted memory p format fd reply) :=
    table_empty rfl rfl rfl
  cases hreqbufs : answer.reqbufs with
  | none =>
      have hgranted : granted p answer = 0 := by
        rw [granted, if_neg hflip, hopen, hfmt, hreqbufs]
      rw [requestBuffers, hreqbufs]
      apply session_of_opened hopened rfl
      · rw [hgranted]
        exact bounded_empty rfl rfl rfl rfl
      · exact fun _ => ⟨0, Nat.zero_le _, hempty⟩
  | some count =>
      have hgranted : granted p answer = staticCastInt count := by
        rw [granted, if_neg hflip, hopen, hfmt, hreqbufs]
      rw [requestBuffers, hreqbufs]
      by_cases hpos : 0 ≤ staticCastInt count
      · have hcounted : Table answer (some fd) 0 0
            { formatted memory p format fd reply with
              backend := { (formatted memory p format fd reply).backend with
                nBufs := staticCastInt count } } := hempty.of_same rfl rfl rfl
        apply session_of_opened hopened
        · exact requestBuffersFrom_keeps (I := fun w => w.backend.fd = fd)
            (fun w i answer h => (requestBuffer_fd w i answer).trans h) answer.buffer
            (staticCastInt count).toNat 0 rfl
        · rw [hgranted]
          exact Bounded.requestBuffersFrom (n := staticCastInt count) answer.buffer _ 0 _
            (bounded_empty rfl rfl rfl rfl)
            (by rw [Nat.zero_add]; exact Int.le_of_eq (Int.toNat_of_nonneg hpos))
        · rw [hgranted]
          intro hle
          obtain ⟨hi, hhi, htable⟩ :=
            hcounted.requestBuffersFrom (staticCastInt count).toNat 0 _ (by omega)
          exact ⟨hi, by omega, htable⟩
      · -- A count of `2 ^ 31` and more is negative as an `int`, and no loop runs.
        have hzero : (staticCastInt count).toNat = 0 := by omega
        dsimp only
        rw [hzero]
        apply session_of_opened hopened rfl
        · rw [hgranted]
          exact bounded_empty rfl rfl rfl rfl
        · exact fun _ => ⟨0, Nat.zero_le _, hempty.of_same rfl rfl rfl⟩

theorem granted_of_unopened {p : Params} {answer : StartAnswer} (h : openedFd p answer = none) :
    granted p answer = 0 := by
  unfold openedFd at h
  unfold granted
  split_ifs at h ⊢
  · rfl
  · rw [h]

theorem session_of_unopened {p : Params} {answer : StartAnswer} {w : V4l2World}
    (hopened : openedFd p answer = none) (hfd : w.backend.fd = -1)
    (hbounded : Bounded 0 w) (hidle : w.backend.currentIndex = -1 ∧ w.queue = [])
    (htable : Table answer none 0 0 w) : Session p answer w := by
  refine ⟨?_, fun _ => hidle, ?_, fun _ => ⟨0, Nat.zero_le _, ?_⟩⟩
  · rw [hopened, hfd]
    rfl
  · rw [granted_of_unopened hopened]
    exact hbounded
  · rw [hopened]
    exact htable

theorem session_start (memory : Nat → Nat → UInt8) (p : Params) (format : ImageFormat)
    (answer : StartAnswer) : Session p answer ((fresh memory).start p format answer).2 := by
  by_cases hflip : p.flipMethod ≠ 0
  · have hopened : openedFd p answer = none := if_pos hflip
    rw [start, if_pos hflip]
    exact session_of_unopened hopened rfl (bounded_empty rfl rfl rfl rfl) ⟨rfl, rfl⟩
      (table_empty rfl rfl rfl)
  · have hopened : openedFd p answer = answer.openFd := if_neg hflip
    cases hopen : answer.openFd with
    | none =>
        rw [hopen] at hopened
        rw [start, if_neg hflip, hopen]
        exact session_of_unopened hopened rfl (bounded_empty rfl rfl rfl rfl) ⟨rfl, rfl⟩
          (table_empty rfl rfl rfl)
    | some fd =>
        rw [hopen] at hopened
        cases hfmt : answer.sFmt with
        | none =>
            have hgranted : granted p answer = 0 := by rw [granted, if_neg hflip, hopen, hfmt]
            rw [start, if_neg hflip, hopen, hfmt]
            apply session_of_opened hopened rfl
            · rw [hgranted]
              exact bounded_empty rfl rfl rfl rfl
            · exact fun _ => ⟨0, Nat.zero_le _, table_empty rfl rfl rfl⟩
        | some reply =>
            rw [start_of_formatted hflip hopen hfmt]
            exact session_requestBuffers hflip hopen hfmt

/-! ### `grab` and `release` -/

theorem Session.next {p : Params} {answer : StartAnswer} {w t : V4l2World}
    (h : Session p answer w) (hfd : t.backend.fd = w.backend.fd)
    (hbufs : t.backend.bufs = w.backend.bufs) (hmaps : t.maps = w.maps)
    (hledger : t.ledger = w.ledger) (hbounded : Bounded (granted p answer) t)
    (hunopened : openedFd p answer = none → t.backend.currentIndex = -1 ∧ t.queue = []) :
    Session p answer t := by
  refine ⟨hfd.trans h.fd, hunopened, hbounded, fun hgranted => ?_⟩
  obtain ⟨hi, hle, htable⟩ := h.table hgranted
  exact ⟨hi, hle, htable.of_same hbufs hmaps hledger⟩

theorem Session.grab {cv : OpenCv} {p : Params} {answer : StartAnswer} {w t : V4l2World}
    {dqbuf : DqbufAnswer} {frame : Frame V4l2Ptr} (h : Session p answer w)
    (hgrab : w.grab cv dqbuf = some (frame, t)) : Session p answer t := by
  cases dqbuf with
  | selectFailed | dqbufFailed =>
      cases hgrab
      exact h
  | buffer index sequence bytesused now =>
      obtain ⟨hqueued, conv, bgr, rfl⟩ := grab_eq hgrab
      have hindex := h.bounded.queue index hqueued
      refine h.next rfl rfl rfl ?_ ⟨h.bounded.nBufs, ?_, ?_, ?_⟩ ?_
      · simp [ledger, dequeue, V4l2Call.entry]
      · intro i hi
        exact h.bounded.queue i (List.mem_of_mem_erase hi)
      · intro i hi
        have hcurrent : some index = some i := hi
        rwa [← Option.some.inj hcurrent]
      · intro access haccess
        rcases List.mem_append.mp haccess with hold | hnew
        · exact h.bounded.touched access hold
        · rw [List.mem_singleton.mp hnew]
          exact ⟨h.bounded.nBufs, hindex⟩
      · intro hnone
        rw [(h.unopened hnone).2] at hqueued
        cases hqueued

theorem Session.release {p : Params} {answer : StartAnswer} {w : V4l2World}
    (h : Session p answer w) (qbuf : Bool) : Session p answer (w.release qbuf) := by
  unfold V4l2World.release
  cases hindex : w.releaseIndex with
  | none => exact h
  | some i =>
      have hi := h.bounded.recorded i hindex
      refine h.next rfl rfl rfl ?_ ⟨h.bounded.nBufs, ?_, ?_, h.bounded.touched⟩ ?_
      · simp [ledger, V4l2Call.entry]
      · intro j hj
        dsimp only at hj
        split_ifs at hj
        · rcases List.mem_append.mp hj with hold | hnew
          · exact h.bounded.queue j hold
          · rwa [List.mem_singleton.mp hnew]
        · exact h.bounded.queue j hj
      · intro j hj
        cases hj
      · intro hnone
        rw [releaseIndex, (h.unopened hnone).1] at hindex
        cases hindex

theorem Session.move {p : Params} {answer : StartAnswer} {w t : V4l2World} {m : V4l2Move}
    (h : Session p answer w) (hmove : w.move m = some t) : Session p answer t := by
  cases m with
  | fill i content =>
      simp only [V4l2World.move] at hmove
      split_ifs at hmove
      obtain rfl := Option.some.inj hmove
      exact h.next rfl rfl rfl rfl
        ⟨h.bounded.nBufs, h.bounded.queue, h.bounded.recorded, h.bounded.touched⟩ h.unopened
  | timeshare file =>
      obtain rfl := Option.some.inj hmove
      exact h.next rfl rfl rfl rfl
        ⟨h.bounded.nBufs, h.bounded.queue, h.bounded.recorded, h.bounded.touched⟩ h.unopened

theorem session_reachable {cv : OpenCv} {memory : Nat → Nat → UInt8} {p : Params}
    {format : ImageFormat} {answer : StartAnswer} {w : V4l2World}
    (h : Runs.Reachable (backendStep cv) ((fresh memory).start p format answer).2 w) :
    Session p answer w := by
  refine h.invariant ?_ (session_start memory p format answer)
  intro u call t hu hstep
  cases call with
  | grab dqbuf =>
      obtain ⟨⟨frame, t'⟩, hgrab, rfl⟩ := Option.map_eq_some_iff.mp hstep
      exact hu.grab hgrab
  | release qbuf =>
      obtain rfl := Option.some.inj hstep
      exact hu.release qbuf
  | kernel move => exact hu.move hstep

/-! ### `stop` -/

theorem unmapBuffer_backend (w : V4l2World) (i : Nat) :
    (w.unmapBuffer i).backend = w.backend.setBuf i {} := by
  unfold unmapBuffer
  dsimp only
  split <;> rfl

theorem unmapBuffer_frame (w : V4l2World) (i : Nat) :
    (w.unmapBuffer i).backend.fd = w.backend.fd ∧
      (w.unmapBuffer i).backend.nBufs = w.backend.nBufs ∧
      (w.unmapBuffer i).touched = w.touched ++ [(i, w.backend.nBufs)] := by
  unfold unmapBuffer
  dsimp only
  split <;> exact ⟨rfl, rfl, rfl⟩

theorem Table.unmapBuffer {answer : StartAnswer} {opened : Option Nat} {lo hi : Nat}
    {w : V4l2World} (h : Table answer opened lo hi w) (hlt : lo < hi) :
    Table answer opened (lo + 1) hi (w.unmapBuffer lo) := by
  have hbuf := h.mapped lo (Nat.le_refl lo) hlt
  obtain ⟨held, hheld, hperm⟩ := h.ledger
  have hmaps := h.maps
  rw [mappings_cons hlt] at hmaps hperm
  have hperm : held.Perm (.mapping lo (answer.buffer lo).length ::
      (devices opened ++ (mappings answer (lo + 1) hi).map fun m => .mapping m.1 m.2)) :=
    hperm.trans List.perm_middle
  have hcalls : (w.unmapBuffer lo).calls = w.calls ++ [.munmap lo (answer.buffer lo).length] := by
    simp [V4l2World.unmapBuffer, hbuf, V4l2World.setBuf]
  have hin : lo < kBufCount := by
    by_contra hnot
    rw [V4l2OpencvBackend.bufAt_of_le _ (Nat.le_of_not_lt hnot)] at hbuf
    cases hbuf
  refine ⟨?_, ?_, ?_, ?_⟩
  · intro i hlo hhi
    rw [unmapBuffer_backend, V4l2OpencvBackend.bufAt_setBuf_of_ne _ _ (by omega)]
    exact h.mapped i (by omega) hhi
  · intro i hout j
    by_cases heq : i = lo
    · subst heq
      simp [unmapBuffer_backend, V4l2OpencvBackend.bufAt_setBuf_self _ _ hin]
    · rw [unmapBuffer_backend, V4l2OpencvBackend.bufAt_setBuf_of_ne _ _ heq]
      exact h.unmapped i (by omega) j
  · have herase := hmaps.erase (lo, (answer.buffer lo).length)
    rw [List.erase_cons_head] at herase
    simpa [V4l2World.unmapBuffer, hbuf, V4l2World.setBuf] using herase
  · refine ⟨held.erase (.mapping lo (answer.buffer lo).length), ?_, ?_⟩
    · rw [ledger_append hcalls, outstanding_append hheld]
      have hmem : V4l2Ref.mapping lo (answer.buffer lo).length ∈ held :=
        hperm.symm.subset List.mem_cons_self
      simp [V4l2Call.entry, Runs.run, Ledger.step, hmem]
    · have herase := hperm.erase (.mapping lo (answer.buffer lo).length)
      rwa [List.erase_cons_head] at herase

theorem Table.skipBuffer {answer : StartAnswer} {opened : Option Nat} {lo hi i : Nat}
    {w : V4l2World} (h : Table answer opened lo hi w) (hi' : i < lo ∨ hi ≤ i) :
    Table answer opened lo hi (w.unmapBuffer i) := by
  have hstart := h.unmapped i hi'
  have hskip : w.unmapBuffer i = w.setBuf i {} := by
    cases hbuf : (w.backend.bufAt i).start with
    | null | failed | stray => simp only [V4l2World.unmapBuffer, hbuf]
    | mapped j => exact absurd hbuf (hstart j)
  rw [hskip]
  apply h.setBuf hi'
  intro j hj
  cases hj

theorem unmapBuffers_frame (w : V4l2World) (k : Nat) :
    ((List.range k).foldl V4l2World.unmapBuffer w).backend.fd = w.backend.fd ∧
    ((List.range k).foldl V4l2World.unmapBuffer w).backend.nBufs = w.backend.nBufs ∧
    ((List.range k).foldl V4l2World.unmapBuffer w).touched
      = w.touched ++ (List.range k).map fun i => (i, w.backend.nBufs) := by
  induction k with
  | zero => exact ⟨rfl, rfl, (List.append_nil _).symm⟩
  | succ k ih =>
      obtain ⟨hfd, hnBufs, htouched⟩ := ih
      rw [List.range_succ, List.foldl_append, List.foldl_cons, List.foldl_nil]
      obtain ⟨hfd', hnBufs', htouched'⟩ :=
        unmapBuffer_frame ((List.range k).foldl V4l2World.unmapBuffer w) k
      refine ⟨hfd'.trans hfd, hnBufs'.trans hnBufs, ?_⟩
      rw [htouched', htouched, hnBufs, List.map_append, List.append_assoc]
      rfl

theorem Table.unmapBuffers {answer : StartAnswer} {opened : Option Nat} {hi : Nat}
    {w : V4l2World} (h : Table answer opened 0 hi w) (k : Nat) :
    Table answer opened (min k hi) hi ((List.range k).foldl V4l2World.unmapBuffer w) := by
  induction k with
  | zero =>
      rw [Nat.zero_min]
      exact h
  | succ k ih =>
      rw [List.range_succ, List.foldl_append, List.foldl_cons, List.foldl_nil]
      by_cases hlt : k < hi
      · rw [Nat.min_eq_left (by omega)] at ih
        rw [Nat.min_eq_left (by omega)]
        exact ih.unmapBuffer hlt
      · rw [Nat.min_eq_right (by omega)] at ih
        rw [Nat.min_eq_right (by omega)]
        exact ih.skipBuffer (by omega)

/-- After a walk over all the buffers, only the device is left to be given back. -/
theorem Table.emptied {answer : StartAnswer} {fd : Nat} {hi k : Nat} {w : V4l2World}
    (h : Table answer (some fd) 0 hi w) (hle : hi ≤ k) :
    ((List.range k).foldl V4l2World.unmapBuffer w).maps = [] ∧
    outstanding ((List.range k).foldl V4l2World.unmapBuffer w).ledger = some [.device fd] := by
  have htable := h.unmapBuffers k
  rw [Nat.min_eq_right hle] at htable
  obtain ⟨held, hheld, hperm⟩ := htable.ledger
  have hmaps := htable.maps
  rw [mappings_self] at hperm hmaps
  have hdevice : held = [.device fd] := List.perm_singleton.mp hperm
  exact ⟨hmaps.eq_nil, hdevice ▸ hheld⟩

def streamedOff (w : V4l2World) : V4l2World :=
  { w with queue := [], calls := w.calls ++ [.streamoff] }

theorem stop_of_open {w t : V4l2World} (hopen : ¬ w.backend.fd < 0)
    (ht : (List.range w.backend.nBufs.toNat).foldl unmapBuffer w.streamedOff = t) :
    w.stop = { t with backend := { t.backend with nBufs := 0, currentIndex := -1, fd := -1 }
                      calls := t.calls ++ [.closeDevice t.backend.fd] } := by
  rw [V4l2World.stop, if_neg hopen, ← ht]
  rfl

/-- The state after `stop`. -/
structure Stopped (n : Int) (w t : V4l2World) : Prop where
  fd : t.backend.fd = -1
  nBufs : t.backend.nBufs = 0
  currentIndex : t.backend.currentIndex = -1
  touched : t.touched = w.touched ++ (List.range n.toNat).map fun i => (i, n)
  maps : n ≤ kBufCount → t.maps = []
  settled : n ≤ kBufCount → outstanding t.ledger = some []

theorem Session.stop {p : Params} {answer : StartAnswer} {w : V4l2World}
    (h : Session p answer w) : Stopped (granted p answer) w w.stop := by
  have hfd := h.fd
  cases hopened : openedFd p answer with
  | none =>
      have hzero := granted_of_unopened hopened
      obtain ⟨hi, hle, htable⟩ := h.table (by rw [hzero]; decide)
      rw [hzero] at hle
      obtain rfl : hi = 0 := Nat.le_zero.mp hle
      obtain ⟨held, hheld, hperm⟩ := htable.ledger
      have hmaps := htable.maps
      rw [hopened, mappings_self] at hperm
      rw [mappings_self] at hmaps
      rw [hopened] at hfd
      have hsame : w.stop = w := if_pos (by rw [hfd]; decide)
      rw [hsame, hzero]
      refine ⟨hfd, h.bounded.nBufs.trans hzero, (h.unopened hopened).1, (List.append_nil _).symm,
        fun _ => hmaps.eq_nil, fun _ => ?_⟩
      rw [hheld, hperm.eq_nil]
  | some fd =>
      rw [hopened] at hfd
      have hopen : ¬ w.backend.fd < 0 := by
        rw [hfd]
        exact Int.not_lt.mpr (Int.natCast_nonneg fd)
      have hframe := unmapBuffers_frame w.streamedOff w.backend.nBufs.toNat
      have hempty : ∀ hi ≤ w.backend.nBufs.toNat, Table answer (some fd) 0 hi w → _ :=
        fun hi hle htable => Table.emptied (w := w.streamedOff)
          (htable.of_same rfl rfl (by simp [ledger, streamedOff, V4l2Call.entry])) hle
      generalize ht : (List.range w.backend.nBufs.toNat).foldl unmapBuffer w.streamedOff = t
        at hframe hempty
      obtain ⟨hfd', -, htouched⟩ := hframe
      rw [stop_of_open hopen ht]
      have hreturned : granted p answer ≤ kBufCount →
          t.maps = [] ∧ outstanding t.ledger = some [.device fd] := by
        intro hgranted
        obtain ⟨hi, hle, htable⟩ := h.table hgranted
        rw [← h.bounded.nBufs] at hle
        exact hempty hi hle (hopened ▸ htable)
      refine ⟨rfl, rfl, rfl, ?_, fun hgranted => (hreturned hgranted).1, fun hgranted => ?_⟩
      · have hnBufs : w.streamedOff.backend.nBufs = granted p answer := h.bounded.nBufs
        rw [htouched, hnBufs, h.bounded.nBufs]
        rfl
      · have hdevice : t.backend.fd = fd := hfd'.trans hfd
        rw [ledger_append rfl, outstanding_append (hreturned hgranted).2, hdevice]
        simp [V4l2Call.entry, Runs.run, Ledger.step]

theorem Stopped.stops {n : Int} {w t : V4l2World} (h : Stopped n w t) (k : Nat) :
    V4l2World.stop^[k] t = t := by
  have hsame : t.stop = t := if_pos (by rw [h.fd]; decide)
  exact Function.iterate_fixed hsame k

theorem session_stops {cv : OpenCv} {memory : Nat → Nat → UInt8} {p : Params}
    {format : ImageFormat} {answer : StartAnswer} {w : V4l2World}
    (h : Runs.Reachable (backendStep cv) ((fresh memory).start p format answer).2 w) (k : Nat) :
    Stopped (granted p answer) w (V4l2World.stop^[k + 1] w) := by
  have hstop := (session_reachable h).stop
  rw [Function.iterate_succ_apply, hstop.stops]
  exact hstop

end V4l2World

open V4l2World

/-- Four buffers are granted, and the third cannot be mapped. -/
def brokenStart : StartAnswer :=
  { fullStart with buffer := fun i => ⟨true, 4096, decide (i ≠ 2), true⟩ }

theorem granted_le_iff {p : Params} {answer : StartAnswer} :
    granted p answer ≤ kBufCount ↔ ∀ fd reply count, p.flipMethod = 0 →
      answer.openFd = some fd → answer.sFmt = some reply → answer.reqbufs = some count →
      staticCastInt count ≤ kBufCount := by
  have hzero : (0 : Int) ≤ kBufCount := by decide
  unfold granted
  by_cases hflip : p.flipMethod = 0
  · rw [if_neg (not_not.mpr hflip)]
    cases answer.openFd <;> cases answer.sFmt <;> cases answer.reqbufs <;> simp [hflip, hzero]
  · rw [if_pos hflip]
    simp [hflip, hzero]

/-- **When the table is never indexed out of range.** In a session of one `start` that ends with
`stop`, every access to `bufs_` is at a position below `kBufCount` and `n_bufs_` exactly when
`REQBUFS`, if `start` comes so far, grants no more than `kBufCount` buffers. That an index from
`DQBUF` is in range rests on its being queued. -/
theorem touched_in_range_iff (cv : OpenCv) (memory : Nat → Nat → UInt8) (p : Params)
    (format : ImageFormat) (answer : StartAnswer) (calls : List BackendCall) (w : V4l2World)
    (h : Runs.run (backendStep cv) ((fresh memory).start p format answer).2 calls = some w)
    (n : Nat) :
    (∀ access ∈ (V4l2World.stop^[n + 1] w).touched,
        access.1 < kBufCount ∧ (access.1 : Int) < access.2) ↔
      ∀ fd reply count, p.flipMethod = 0 → answer.openFd = some fd → answer.sFmt = some reply →
        answer.reqbufs = some count → staticCastInt count ≤ kBufCount := by
  have hbounded := (session_reachable ⟨calls, h⟩).bounded
  rw [(session_stops ⟨calls, h⟩ n).touched, ← granted_le_iff]
  constructor
  · intro hall
    by_contra hmore
    have hlast : (kBufCount, granted p answer)
        ∈ (List.range (granted p answer).toNat).map fun i => (i, granted p answer) :=
      List.mem_map.mpr ⟨kBufCount, List.mem_range.mpr (by omega), rfl⟩
    exact Nat.lt_irrefl _ (hall _ (List.mem_append_right _ hlast)).1
  · intro hle access haccess
    rcases List.mem_append.mp haccess with hbefore | hstop
    · obtain ⟨heq, hlt⟩ := hbounded.touched access hbefore
      rw [heq]
      exact ⟨by omega, hlt⟩
    · obtain ⟨i, hi, rfl⟩ := List.mem_map.mp hstop
      have hlt := List.mem_range.mp hi
      dsimp only
      exact ⟨by omega, by omega⟩

theorem touched_in_range_brokenStart : ∃ w,
    ((fresh fun _ _ => 0).start jpegParams .kJpeg brokenStart)
        = (false, w) ∧
      w.stop.touched = [(0, 4), (1, 4), (2, 4), (0, 4), (1, 4), (2, 4), (3, 4)] ∧
      ((∀ access ∈ (V4l2World.stop^[0 + 1] w).touched,
          access.1 < kBufCount ∧ (access.1 : Int) < access.2) ↔
        ∀ fd reply count, jpegParams.flipMethod = 0 →
          brokenStart.openFd = some fd → brokenStart.sFmt = some reply →
          brokenStart.reqbufs = some count → staticCastInt count ≤ kBufCount) := by
  refine ⟨_, rfl, rfl, ?_⟩
  exact touched_in_range_iff noShapes (fun _ _ => 0) jpegParams
    .kJpeg brokenStart [] _ rfl 0

/-- The driver grants five buffers. -/
theorem touched_out_of_range_of_five : ∃ w,
    ((fresh fun _ _ => 0).start jpegParams .kJpeg
        { fullStart with reqbufs := some 5 })
        = (true, w) ∧
      (4, 5) ∈ w.touched ∧
      ¬ ∀ access ∈ w.stop.touched, access.1 < kBufCount ∧ (access.1 : Int) < access.2 := by
  refine ⟨_, rfl, by decide, ?_⟩
  decide

end EconRos2Driver
