import EconRos2Driver.HidControl
import Mathlib.Logic.Function.Iterate

/-!
# What counts as an answer

The retry loop of `write_read` reads on over what it may skip and stops at the first full packet
that begins with the command's two code bytes. `FirstReply` says so in terms of what the reads
return, with nothing of the loop in it, and the loop returns true exactly on a first reply within
its ten rounds.
-/

namespace EconRos2Driver.Hid

variable {σ : Type*} {hidraw : Hidraw σ} {cmd packet : List UInt8} {s t : σ} {k rounds : Nat}

def afterReads (hidraw : Hidraw σ) (k : Nat) (s : σ) : σ := (fun s => (hidraw.read s).2)^[k] s

/-- What the next read returns after `k` others. -/
def readResult (hidraw : Hidraw σ) (s : σ) (k : Nat) : ReadResult :=
  (hidraw.read (afterReads hidraw k s)).1

def Skipped (cmd : List UInt8) : ReadResult → Prop
  | .error errno => errno = eagain
  | .data bytes => bytes ≠ [] ∧ ¬ Matches cmd (bytes.take kHidResp)

structure FirstReply (hidraw : Hidraw σ) (cmd : List UInt8) (s : σ) (k : Nat)
    (packet : List UInt8) : Prop where
  read : ∃ bytes, readResult hidraw s k = .data bytes ∧ packet = bytes.take kHidResp
  reply : Matches cmd packet
  skipped : ∀ j < k, Skipped cmd (readResult hidraw s j)

theorem afterReads_succ (hidraw : Hidraw σ) (k : Nat) (s : σ) :
    afterReads hidraw (k + 1) s = afterReads hidraw k (hidraw.read s).2 :=
  Function.iterate_succ_apply _ k s

theorem afterReads_succ' (hidraw : Hidraw σ) (k : Nat) (s : σ) :
    afterReads hidraw (k + 1) s = (hidraw.read (afterReads hidraw k s)).2 :=
  Function.iterate_succ_apply' _ k s

theorem afterReads_keeps {I : σ → Prop} (hread : ∀ s, I s → I (hidraw.read s).2) (hs : I s) :
    I (afterReads hidraw k s) := by
  induction k with
  | zero => exact hs
  | succ k ih =>
      rw [afterReads_succ']
      exact hread _ ih

theorem readResult_succ (hidraw : Hidraw σ) (s : σ) (k : Nat) :
    readResult hidraw s (k + 1) = readResult hidraw (hidraw.read s).2 k := by
  rw [readResult, afterReads_succ, readResult]

theorem firstReply_zero_iff : FirstReply hidraw cmd s 0 packet ↔
    (∃ bytes, (hidraw.read s).1 = .data bytes ∧ packet = bytes.take kHidResp) ∧
      Matches cmd packet := by
  constructor
  · intro h
    exact ⟨h.read, h.reply⟩
  · rintro ⟨hread, hreply⟩
    exact ⟨hread, hreply, fun j hj => absurd hj (Nat.not_lt_zero j)⟩

theorem firstReply_succ_iff : FirstReply hidraw cmd s (k + 1) packet ↔
    Skipped cmd (hidraw.read s).1 ∧ FirstReply hidraw cmd (hidraw.read s).2 k packet := by
  constructor
  · rintro ⟨⟨bytes, hread, hpacket⟩, hreply, hskipped⟩
    refine ⟨hskipped 0 (Nat.succ_pos k), ⟨bytes, ?_, hpacket⟩, hreply, ?_⟩
    · rw [← readResult_succ]
      exact hread
    · intro j hj
      rw [← readResult_succ]
      exact hskipped (j + 1) (Nat.succ_lt_succ hj)
  · rintro ⟨hfirst, ⟨bytes, hread, hpacket⟩, hreply, hskipped⟩
    refine ⟨⟨bytes, ?_, hpacket⟩, hreply, ?_⟩
    · rw [readResult_succ]
      exact hread
    · intro j hj
      cases j with
      | zero => exact hfirst
      | succ j =>
          rw [readResult_succ]
          exact hskipped j (Nat.lt_of_succ_lt_succ hj)

/-! ### One round of the loop -/

theorem length_store_take {resp : List UInt8} (bytes : List UInt8)
    (hresp : resp.length = kHidResp) : (store resp (bytes.take kHidResp)).length = kHidResp := by
  rw [length_store, hresp]
  rw [hresp, List.length_take]
  exact Nat.min_le_left _ _

/-- The loop looks at the buffer after the read, where a full packet has replaced everything. -/
theorem match_iff {resp bytes : List UInt8} (hresp : resp.length = kHidResp) :
    (kHidResp ≤ (bytes.take kHidResp).length ∧
        (store resp (bytes.take kHidResp)).getD 0 0 = cmd.getD 1 0 ∧
        (store resp (bytes.take kHidResp)).getD 1 0 = cmd.getD 2 0) ↔
      Matches cmd (bytes.take kHidResp) := by
  have hle : (bytes.take kHidResp).length ≤ kHidResp := by
    rw [List.length_take]
    exact Nat.min_le_left _ _
  constructor
  · rintro ⟨hfull, hcode₁, hcode₂⟩
    rw [store_full (Nat.le_trans (Nat.le_of_eq hresp) hfull)] at hcode₁ hcode₂
    exact ⟨Nat.le_antisymm hle hfull, hcode₁, hcode₂⟩
  · rintro ⟨hlength, hcode₁, hcode₂⟩
    rw [store_full (Nat.le_of_eq (hresp.trans hlength.symm))]
    exact ⟨Nat.le_of_eq hlength.symm, hcode₁, hcode₂⟩

theorem readLoop_reply {resp bytes : List UInt8} (hresp : resp.length = kHidResp)
    (hread : (hidraw.read s).1 = .data bytes) (hmatch : Matches cmd (bytes.take kHidResp)) :
    readLoop hidraw cmd (rounds + 1) resp s
      = (true, bytes.take kHidResp, (hidraw.read s).2) := by
  have hs : hidraw.read s = (.data bytes, (hidraw.read s).2) := Prod.ext hread rfl
  rw [readLoop, hs]
  dsimp only
  rw [if_pos ((match_iff hresp).mpr hmatch),
    store_full (Nat.le_of_eq (hresp.trans hmatch.length.symm))]

theorem readLoop_skipped (rounds : Nat) {resp : List UInt8} (hresp : resp.length = kHidResp)
    (hskipped : Skipped cmd (hidraw.read s).1) : ∃ resp₁, resp₁.length = kHidResp ∧
      readLoop hidraw cmd (rounds + 1) resp s = readLoop hidraw cmd rounds resp₁ (hidraw.read s).2
      := by
  rcases hres : hidraw.read s with ⟨bytes | errno, t⟩ <;> rw [hres] at hskipped
  · obtain ⟨hne, hmatch⟩ := hskipped
    refine ⟨_, length_store_take bytes hresp, ?_⟩
    have hpos : 0 < (bytes.take kHidResp).length := by
      rw [List.length_take]
      exact Nat.lt_min.mpr ⟨by decide, List.length_pos_iff.mpr hne⟩
    rw [readLoop, hres]
    dsimp only
    rw [if_neg (mt (match_iff hresp).mp hmatch), if_pos hpos]
  · refine ⟨resp, hresp, ?_⟩
    rw [readLoop, hres]
    exact if_pos hskipped

theorem readLoop_stopped (rounds : Nat) {resp : List UInt8} (hresp : resp.length = kHidResp)
    (hskipped : ¬ Skipped cmd (hidraw.read s).1)
    (hreply : ∀ bytes, (hidraw.read s).1 = .data bytes → ¬ Matches cmd (bytes.take kHidResp)) :
    (readLoop hidraw cmd (rounds + 1) resp s).1 = false := by
  rcases hres : hidraw.read s with ⟨bytes | errno, t⟩ <;> rw [hres] at hskipped hreply
  · have hmatch := hreply bytes rfl
    have hnil : bytes = [] := by
      by_contra hne
      exact hskipped ⟨hne, hmatch⟩
    rw [readLoop, hres]
    dsimp only
    rw [if_neg (mt (match_iff hresp).mp hmatch), hnil]
    rfl
  · rw [readLoop, hres]
    dsimp only
    rw [if_neg (show ¬ errno = eagain from hskipped)]

/-- **The retry loop finds the first reply.** It returns true on a first reply within its rounds and
on nothing else, with that packet in the buffer and nothing read after it. -/
theorem readLoop_true_iff {resp : List UInt8} (hresp : resp.length = kHidResp) :
    readLoop hidraw cmd rounds resp s = (true, packet, t) ↔
      ∃ k < rounds, FirstReply hidraw cmd s k packet ∧ t = afterReads hidraw (k + 1) s := by
  induction rounds generalizing resp s with
  | zero => simp [readLoop]
  | succ rounds ih =>
      by_cases hskipped : Skipped cmd (hidraw.read s).1
      · obtain ⟨resp₁, hresp₁, hloop⟩ := readLoop_skipped rounds hresp hskipped
        rw [hloop, ih hresp₁]
        constructor
        · rintro ⟨k, hk, hfirst, rfl⟩
          exact ⟨k + 1, Nat.succ_lt_succ hk, firstReply_succ_iff.mpr ⟨hskipped, hfirst⟩,
            (afterReads_succ hidraw (k + 1) s).symm⟩
        · rintro ⟨k, hk, hfirst, rfl⟩
          cases k with
          | zero =>
              obtain ⟨⟨bytes, hread, rfl⟩, hmatch⟩ := firstReply_zero_iff.mp hfirst
              rw [hread] at hskipped
              exact absurd hmatch hskipped.2
          | succ k =>
              exact ⟨k, Nat.lt_of_succ_lt_succ hk, (firstReply_succ_iff.mp hfirst).2,
                afterReads_succ hidraw (k + 1) s⟩
      · constructor
        · intro h
          by_cases hreply : ∃ bytes, (hidraw.read s).1 = .data bytes ∧
              Matches cmd (bytes.take kHidResp)
          · obtain ⟨bytes, hread, hmatch⟩ := hreply
            rw [readLoop_reply hresp hread hmatch] at h
            cases h
            exact ⟨0, Nat.succ_pos rounds,
              firstReply_zero_iff.mpr ⟨⟨bytes, hread, rfl⟩, hmatch⟩, rfl⟩
          · have hstopped := readLoop_stopped rounds hresp hskipped
              fun bytes hread hmatch => hreply ⟨bytes, hread, hmatch⟩
            rw [h] at hstopped
            cases hstopped
        · rintro ⟨k, hk, hfirst, rfl⟩
          cases k with
          | zero =>
              obtain ⟨⟨bytes, hread, rfl⟩, hmatch⟩ := firstReply_zero_iff.mp hfirst
              exact readLoop_reply hresp hread hmatch
          | succ k => exact absurd (firstReply_succ_iff.mp hfirst).1 hskipped

/-! ### One exchange -/

/-- The state in which the reads of an exchange begin. -/
def afterSelect (hidraw : Hidraw σ) (cmd : List UInt8) (timeoutSec : Nat) (s : σ) : σ :=
  (hidraw.select timeoutSec (hidraw.write cmd s).2).2

/-- The command is written and answered by `packet`, and `t` is the state right after that read. -/
structure Answers (hidraw : Hidraw σ) (cmd : List UInt8) (timeoutSec : Nat) (s : σ)
    (packet : List UInt8) (t : σ) : Prop where
  written : (hidraw.write cmd s).1 = kHidPkt
  ready : 0 < (hidraw.select timeoutSec (hidraw.write cmd s).2).1
  replied : ∃ k < 10, FirstReply hidraw cmd (afterSelect hidraw cmd timeoutSec s) k packet ∧
    t = afterReads hidraw (k + 1) (afterSelect hidraw cmd timeoutSec s)

theorem writeRead_eq {timeoutSec : Nat} (hwritten : (hidraw.write cmd s).1 = kHidPkt)
    (hready : 0 < (hidraw.select timeoutSec (hidraw.write cmd s).2).1) (resp : List UInt8) :
    writeRead hidraw cmd resp timeoutSec s
      = readLoop hidraw cmd 10 resp (afterSelect hidraw cmd timeoutSec s) := by
  unfold writeRead
  dsimp only
  rw [if_neg (not_not.mpr hwritten), if_neg (Int.not_le.mpr hready)]
  rfl

theorem writeRead_true_iff {resp : List UInt8} {timeoutSec : Nat} (hresp : resp.length = kHidResp) :
    writeRead hidraw cmd resp timeoutSec s = (true, packet, t) ↔
      Answers hidraw cmd timeoutSec s packet t := by
  by_cases hwritten : (hidraw.write cmd s).1 = kHidPkt
  · by_cases hready : 0 < (hidraw.select timeoutSec (hidraw.write cmd s).2).1
    · rw [writeRead_eq hwritten hready, readLoop_true_iff hresp]
      exact ⟨fun hreplied => ⟨hwritten, hready, hreplied⟩, Answers.replied⟩
    · refine ⟨fun h => ?_, fun h => absurd h.ready hready⟩
      unfold writeRead at h
      dsimp only at h
      rw [if_neg (not_not.mpr hwritten), if_pos (Int.not_lt.mp hready)] at h
      cases h
  · refine ⟨fun h => ?_, fun h => absurd h.written hwritten⟩
    unfold writeRead at h
    dsimp only at h
    rw [if_pos hwritten] at h
    cases h

theorem Answers.unique {timeoutSec : Nat} {packet' : List UInt8} {u : σ}
    (h : Answers hidraw cmd timeoutSec s packet t)
    (h' : Answers hidraw cmd timeoutSec s packet' u) : packet = packet' := by
  have hanswered := (writeRead_true_iff (List.length_replicate (a := 0))).mpr h
  have hanswered' := (writeRead_true_iff (List.length_replicate (a := 0))).mpr h'
  exact (Prod.mk.inj (Prod.mk.inj (hanswered.symm.trans hanswered')).2).1

/-- What the calls of an exchange keep still holds before the read that ends it. -/
theorem Answers.last_read {I : σ → Prop} {timeoutSec : Nat}
    (h : Answers hidraw cmd timeoutSec s packet t)
    (hwrite : (hidraw.write cmd s).1 = kHidPkt → I (hidraw.write cmd s).2)
    (hselect : ∀ seconds u, I u → I (hidraw.select seconds u).2)
    (hread : ∀ u, I u → I (hidraw.read u).2) :
    ∃ u bytes, I u ∧ hidraw.read u = (.data bytes, t) ∧ packet = bytes.take kHidResp ∧
      Matches cmd packet := by
  obtain ⟨k, -, hfirst, rfl⟩ := h.replied
  obtain ⟨bytes, hbytes, hpacket⟩ := hfirst.read
  have hkept : I (afterReads hidraw k (afterSelect hidraw cmd timeoutSec s)) :=
    afterReads_keeps hread (hselect _ _ (hwrite h.written))
  exact ⟨_, bytes, hkept, Prod.ext hbytes (afterReads_succ' hidraw k _).symm, hpacket,
    hfirst.reply⟩

/-! ### The three commands -/

def setExposureCommand (exposureUs : UInt32) : List UInt8 :=
  command kCameraControl24CUG kSetExposureComp (exposureBytes exposureUs)

def setStreamModeCommand (mode afl : UInt8) : List UInt8 :=
  command kCameraControl24CUG kSetStreamMode [mode, afl]

def getStreamModeCommand : List UInt8 := command kCameraControl24CUG kGetStreamMode []

/-- What the two setters make of an exchange. -/
def acknowledged (exchange : Bool × List UInt8 × σ) : Bool × σ :=
  if exchange.1 then (exchange.2.1.getD 6 0 == 0x01, exchange.2.2) else (false, exchange.2.2)

theorem acknowledged_true_iff {timeoutSec : Nat} :
    acknowledged (writeRead hidraw cmd (List.replicate kHidResp 0) timeoutSec s) = (true, t) ↔
      ∃ packet, Answers hidraw cmd timeoutSec s packet t ∧ packet.getD 6 0 = 0x01 := by
  have hiff : ∀ packet t, writeRead hidraw cmd (List.replicate kHidResp 0) timeoutSec s
      = (true, packet, t) ↔ Answers hidraw cmd timeoutSec s packet t :=
    fun _ _ => writeRead_true_iff List.length_replicate
  constructor
  · intro h
    unfold acknowledged at h
    split_ifs at h with hanswered
    · obtain ⟨hstatus, rfl⟩ := Prod.mk.inj h
      exact ⟨_, (hiff _ _).mp (Prod.ext hanswered rfl), beq_iff_eq.mp hstatus⟩
    · cases h
  · rintro ⟨packet, hanswers, hstatus⟩
    rw [(hiff packet t).mpr hanswers, acknowledged, if_pos rfl]
    exact Prod.ext (beq_iff_eq.mpr hstatus) rfl

theorem setExposure_true_iff {exposureUs : UInt32} : setExposure hidraw exposureUs s = (true, t) ↔
    ∃ packet, Answers hidraw (setExposureCommand exposureUs) 7 s packet t ∧
      packet.getD 6 0 = 0x01 := acknowledged_true_iff

theorem setStreamMode_true_iff {mode afl : UInt8} :
    setStreamMode hidraw mode afl s = (true, t) ↔
      ∃ packet, Answers hidraw (setStreamModeCommand mode afl) 5 s packet t ∧
        packet.getD 6 0 = 0x01 := acknowledged_true_iff

theorem getStreamMode_of_answers (mode afl : UInt8)
    (h : Answers hidraw getStreamModeCommand 5 s packet t) :
    getStreamMode hidraw mode afl s
      = (packet.getD 6 0 == 0x01, packet.getD 2 0, packet.getD 3 0, t) := by
  have hanswered := (writeRead_true_iff (List.length_replicate (a := 0))).mpr h
  rw [getStreamModeCommand] at hanswered
  simp only [getStreamMode]
  rw [hanswered]
  rfl

theorem getStreamMode_answered {mode afl mode' afl' : UInt8} {ok : Bool}
    (h : getStreamMode hidraw mode afl s = (ok, mode', afl', t)) (hmode : mode' ≠ mode) :
    ∃ packet, Answers hidraw getStreamModeCommand 5 s packet t ∧ packet.getD 2 0 = mode' := by
  unfold getStreamMode at h
  dsimp only at h
  split_ifs at h with hanswered
  · simp only [Prod.mk.injEq] at h
    have hrun : writeRead hidraw getStreamModeCommand (List.replicate kHidResp 0) 5 s
        = (true, _, t) := Prod.ext hanswered (Prod.ext rfl h.2.2.2)
    exact ⟨_, (writeRead_true_iff List.length_replicate).mp hrun, h.2.1⟩
  · simp only [Prod.mk.injEq] at h
    exact absurd h.2.1.symm hmode

/-- **`write_read` finds the first reply and nothing else.** Once the write and the `select` have
succeeded, it returns true exactly if one of the first ten reads returns a full packet with the two
code bytes of the command and every read before that one may be skipped. The buffer then holds that
packet, whatever it held before, and the packet is the last that was read. -/
theorem writeRead_first_reply (hidraw : Hidraw σ) (cmd resp : List UInt8) (timeoutSec : Nat) (s : σ)
    (hresp : resp.length = kHidResp) (hwritten : (hidraw.write cmd s).1 = kHidPkt)
    (hready : 0 < (hidraw.select timeoutSec (hidraw.write cmd s).2).1) :
    ((writeRead hidraw cmd resp timeoutSec s).1 = true ↔
      ∃ k < 10, ∃ packet, FirstReply hidraw cmd (afterSelect hidraw cmd timeoutSec s) k packet) ∧
    ∀ resp' t, writeRead hidraw cmd resp timeoutSec s = (true, resp', t) →
      ∃ k < 10, FirstReply hidraw cmd (afterSelect hidraw cmd timeoutSec s) k resp' ∧
        t = afterReads hidraw (k + 1) (afterSelect hidraw cmd timeoutSec s) := by
  have hiff : ∀ packet t, writeRead hidraw cmd resp timeoutSec s = (true, packet, t) ↔
      Answers hidraw cmd timeoutSec s packet t := fun _ _ => writeRead_true_iff hresp
  refine ⟨⟨fun h => ?_, ?_⟩, fun packet t h => ((hiff packet t).mp h).replied⟩
  · obtain ⟨k, hk, hfirst, -⟩ := ((hiff _ _).mp (Prod.ext h rfl)).replied
    exact ⟨k, hk, _, hfirst⟩
  · rintro ⟨k, hk, packet, hfirst⟩
    have hanswers : Answers hidraw cmd timeoutSec s packet _ :=
      ⟨hwritten, hready, k, hk, hfirst, rfl⟩
    rw [(hiff packet _).mpr hanswers]

/-- A device whose `open`, `write` and `select` succeed and whose reads return a given list. -/
def scripted : Hidraw (List ReadResult) where
  openDevice _ s := (3, s)
  ioctl _ s := s
  write _ s := (kHidPkt, s)
  select _ s := (1, s)
  read s := (s.headD (.error eagain), s.tail)

/-- A full packet for GET stream mode with nothing but the mode in it. -/
def modePacket (mode : UInt8) : List UInt8 :=
  [kCameraControl24CUG, kGetStreamMode, mode] ++ List.replicate 61 0

/-- A read that would have to wait, the start of an answer, and two answers. -/
def shortThenFull : List ReadResult :=
  [.error eagain, .data [kCameraControl24CUG, kGetStreamMode, 0], .data (modePacket 1),
    .data (modePacket 0)]

theorem writeRead_first_reply_shortThenFull :
    writeRead scripted getStreamModeCommand (List.replicate kHidResp 7) 5 shortThenFull
      = (true, modePacket 1, [.data (modePacket 0)]) ∧
    ∃ k < 10, FirstReply scripted getStreamModeCommand shortThenFull k
      (modePacket 1) := by
  have hrun : writeRead scripted getStreamModeCommand (List.replicate kHidResp 7) 5 shortThenFull
      = (true, modePacket 1, [.data (modePacket 0)]) := rfl
  obtain ⟨k, hk, hfirst, -⟩ := (writeRead_first_reply scripted getStreamModeCommand
    (List.replicate kHidResp 7) 5 shortThenFull List.length_replicate rfl Int.one_pos).2 _ _ hrun
  exact ⟨hrun, k, hk, hfirst⟩

end EconRos2Driver.Hid
