import EconRos2Driver.Proof.HidAcknowledged

/-!
# The calls of a handshake

`recorded` puts a record of the system calls beside any device; the device does not notice it. Over
every device the handshake writes its four commands in their order, up to the one that fails. Apart
from the drain, which goes on as long as there are packets, it makes a bounded number of calls.
-/

namespace EconRos2Driver.Hid

inductive HidCall where
  | openDevice (device : String)
  | ioctl (request : Inquiry)
  | write (report : List UInt8)
  | select (seconds : Nat)
  | read
  deriving DecidableEq, Repr

variable {σ : Type*}

def recorded (hidraw : Hidraw σ) : Hidraw (σ × List HidCall) where
  openDevice device s := ((hidraw.openDevice device s.1).1,
    (hidraw.openDevice device s.1).2, s.2 ++ [.openDevice device])
  ioctl request s := (hidraw.ioctl request s.1, s.2 ++ [.ioctl request])
  write report s := ((hidraw.write report s.1).1, (hidraw.write report s.1).2,
    s.2 ++ [.write report])
  select seconds s := ((hidraw.select seconds s.1).1, (hidraw.select seconds s.1).2,
    s.2 ++ [.select seconds])
  read s := ((hidraw.read s.1).1, (hidraw.read s.1).2, s.2 ++ [.read])

def reports (calls : List HidCall) : List (List UInt8) :=
  calls.filterMap fun
    | .write report => some report
    | .openDevice _ | .ioctl _ | .select _ | .read => none

def waits (calls : List HidCall) : List Nat :=
  calls.filterMap fun
    | .select seconds => some seconds
    | .openDevice _ | .ioctl _ | .write _ | .read => none

def reads (k : Nat) : List HidCall := List.replicate k .read

variable {hidraw : Hidraw σ}

theorem reports_reads (k : Nat) : reports (reads k) = [] := by
  simp [reports, reads]

theorem waits_reads (k : Nat) : waits (reads k) = [] := by
  simp [waits, reads]

theorem append_reads (past : List HidCall) (k : Nat) :
    past ++ [.read] ++ reads k = past ++ reads (k + 1) := by
  rw [List.append_assoc]
  rfl

theorem recorded_read {s t : σ} {result : ReadResult} (h : hidraw.read s = (result, t))
    (past : List HidCall) :
    (recorded hidraw).read (s, past) = (result, t, past ++ [.read]) := by
  simp [recorded, h]

/-- What a function returns on the device, with the calls it has made beside the state. -/
def withCalls {α β : Type} (result : α × β × σ) (calls : List HidCall) :
    α × β × σ × List HidCall := (result.1, result.2.1, result.2.2, calls)

theorem readLoop_recorded (hidraw : Hidraw σ) (cmd : List UInt8) (rounds : Nat)
    (resp : List UInt8) (s : σ) (past : List HidCall) :
    ∃ k ≤ rounds, readLoop (recorded hidraw) cmd rounds resp (s, past)
      = withCalls (readLoop hidraw cmd rounds resp s) (past ++ reads k) := by
  induction rounds generalizing resp s past with
  | zero => exact ⟨0, Nat.le_refl 0, by simp [readLoop, reads, withCalls]⟩
  | succ rounds ih =>
      have hon : ∀ resp₁ t, ∃ k ≤ rounds + 1,
          readLoop (recorded hidraw) cmd rounds resp₁ (t, past ++ [.read])
            = withCalls (readLoop hidraw cmd rounds resp₁ t) (past ++ reads k) := by
        intro resp₁ t
        obtain ⟨k, hk, hrecorded⟩ := ih resp₁ t (past ++ [.read])
        exact ⟨k + 1, Nat.succ_le_succ hk, by rw [hrecorded, append_reads]⟩
      cases hread : hidraw.read s with
      | mk result t =>
          rw [readLoop, readLoop, recorded_read hread, hread]
          cases result with
          | error errno =>
              dsimp only
              split_ifs
              · exact hon resp t
              · exact ⟨1, Nat.le_add_left 1 rounds, rfl⟩
          | data bytes =>
              dsimp only
              split_ifs
              · exact ⟨1, Nat.le_add_left 1 rounds, rfl⟩
              · exact hon _ t
              · exact ⟨1, Nat.le_add_left 1 rounds, rfl⟩

/-- The calls of one command: it is written, and where that succeeds, an answer is waited for and at
most ten packets are read. -/
structure Exchange (cmd : List UInt8) (timeoutSec : Nat) (calls : List HidCall) : Prop where
  reports : reports calls = [cmd]
  waits : waits calls <+: [timeoutSec]
  length : calls.length ≤ 12

theorem writeRead_unfold (hidraw : Hidraw σ) (cmd resp : List UInt8) (timeoutSec : Nat) (s : σ) :
    writeRead hidraw cmd resp timeoutSec s =
      if (hidraw.write cmd s).1 ≠ kHidPkt then (false, resp, (hidraw.write cmd s).2)
      else if (hidraw.select timeoutSec (hidraw.write cmd s).2).1 ≤ 0 then
        (false, resp, (hidraw.select timeoutSec (hidraw.write cmd s).2).2)
      else readLoop hidraw cmd 10 resp (hidraw.select timeoutSec (hidraw.write cmd s).2).2 := rfl

theorem writeRead_recorded (hidraw : Hidraw σ) (cmd resp : List UInt8) (timeoutSec : Nat) (s : σ)
    (past : List HidCall) : ∃ calls, Exchange cmd timeoutSec calls ∧
      ((writeRead hidraw cmd resp timeoutSec s).1 = true → waits calls = [timeoutSec]) ∧
      writeRead (recorded hidraw) cmd resp timeoutSec (s, past)
        = withCalls (writeRead hidraw cmd resp timeoutSec s) (past ++ calls) := by
  rw [writeRead_unfold, writeRead_unfold]
  by_cases hwritten : (hidraw.write cmd s).1 ≠ kHidPkt
  · have hwritten' : ((recorded hidraw).write cmd (s, past)).1 ≠ kHidPkt := hwritten
    rw [if_pos hwritten, if_pos hwritten']
    exact ⟨[.write cmd], ⟨rfl, List.nil_prefix, by simp⟩, by simp, rfl⟩
  · have hwritten' : ¬ ((recorded hidraw).write cmd (s, past)).1 ≠ kHidPkt := hwritten
    rw [if_neg hwritten, if_neg hwritten']
    by_cases hselected : (hidraw.select timeoutSec (hidraw.write cmd s).2).1 ≤ 0
    · have hselected' : ((recorded hidraw).select timeoutSec
          ((recorded hidraw).write cmd (s, past)).2).1 ≤ 0 := hselected
      rw [if_pos hselected, if_pos hselected']
      refine ⟨[.write cmd, .select timeoutSec], ⟨rfl, List.prefix_refl _, by simp⟩,
        fun _ => rfl, ?_⟩
      simp [recorded, withCalls]
    · have hselected' : ¬ ((recorded hidraw).select timeoutSec
          ((recorded hidraw).write cmd (s, past)).2).1 ≤ 0 := hselected
      rw [if_neg hselected, if_neg hselected']
      obtain ⟨k, hk, hloop⟩ := readLoop_recorded hidraw cmd 10 resp
        (hidraw.select timeoutSec (hidraw.write cmd s).2).2
        (past ++ [.write cmd] ++ [.select timeoutSec])
      have hwaits : waits ([.write cmd, .select timeoutSec] ++ reads k) = [timeoutSec] :=
        congrArg (timeoutSec :: ·) (waits_reads k)
      refine ⟨[.write cmd, .select timeoutSec] ++ reads k, ⟨?_, ?_, ?_⟩, fun _ => hwaits, ?_⟩
      · exact congrArg (cmd :: ·) (reports_reads k)
      · exact hwaits ▸ List.prefix_refl _
      · rw [List.length_append, reads, List.length_replicate]
        exact Nat.add_le_add_left hk 2
      · have hpast : past ++ ([.write cmd, .select timeoutSec] ++ reads k)
            = past ++ [.write cmd] ++ [.select timeoutSec] ++ reads k := by simp
        rw [hpast]
        exact hloop

theorem drain_recorded (hidraw : Hidraw σ) (fuel : Nat) (s : σ) (past : List HidCall) :
    ∃ k, drain (recorded hidraw) fuel (s, past)
      = (drain hidraw fuel s).map fun t => (t, past ++ reads k) := by
  induction fuel generalizing s past with
  | zero => exact ⟨0, rfl⟩
  | succ fuel ih =>
      cases hread : hidraw.read s with
      | mk result t =>
          rw [drain, drain, recorded_read hread, hread]
          cases result with
          | error errno => exact ⟨1, rfl⟩
          | data bytes =>
              cases bytes with
              | nil => exact ⟨1, rfl⟩
              | cons b bytes =>
                  obtain ⟨k, hrest⟩ := ih t (past ++ [.read])
                  exact ⟨k + 1, hrest.trans (by rw [append_reads])⟩

theorem osCodeReads_recorded (hidraw : Hidraw σ) (attempts : Nat) (s : σ) (past : List HidCall) :
    osCodeReads (recorded hidraw) attempts (s, past)
      = (osCodeReads hidraw attempts s, past ++ reads attempts) := by
  induction attempts generalizing s past with
  | zero => simp [osCodeReads, reads]
  | succ attempts ih =>
      rw [osCodeReads, osCodeReads, ← append_reads]
      exact ih _ _

def osCodeCommand : List UInt8 := command kOsCode kLinuxOs []

/-- The OS code and the reads that follow it. -/
def announce (hidraw : Hidraw σ) (s : σ) : Bool × σ :=
  if (hidraw.write osCodeCommand s).1 ≠ kHidPkt then (false, (hidraw.write osCodeCommand s).2)
  else (true, osCodeReads hidraw 3 (hidraw.write osCodeCommand s).2)

theorem init_eq (hidraw : Hidraw σ) (fuel : Nat) (s : σ) :
    init hidraw fuel s = (drain hidraw fuel s).map fun t => announce hidraw (inquire hidraw t) :=
  rfl

theorem inquire_recorded (hidraw : Hidraw σ) (s : σ) (past : List HidCall) :
    inquire (recorded hidraw) (s, past)
      = (inquire hidraw s, past ++ inquiries.map HidCall.ioctl) := by
  simp [inquire, inquiries, recorded]

theorem announce_recorded (hidraw : Hidraw σ) (s : σ) (past : List HidCall) :
    ∃ calls, reports calls = [osCodeCommand] ∧ waits calls = [] ∧ calls.length ≤ 4 ∧
      announce (recorded hidraw) (s, past)
        = ((announce hidraw s).1, (announce hidraw s).2, past ++ calls) := by
  unfold announce
  by_cases hwritten : (hidraw.write osCodeCommand s).1 ≠ kHidPkt
  · have hwritten' : ((recorded hidraw).write osCodeCommand (s, past)).1 ≠ kHidPkt := hwritten
    rw [if_pos hwritten, if_pos hwritten']
    exact ⟨[.write osCodeCommand], rfl, rfl, by simp, rfl⟩
  · have hwritten' : ¬ ((recorded hidraw).write osCodeCommand (s, past)).1 ≠ kHidPkt := hwritten
    rw [if_neg hwritten, if_neg hwritten']
    refine ⟨.write osCodeCommand :: reads 3, rfl, rfl, by simp [reads], ?_⟩
    have hreads := osCodeReads_recorded hidraw 3 (hidraw.write osCodeCommand s).2
      (past ++ [.write osCodeCommand])
    rw [List.append_assoc] at hreads
    exact congrArg (Prod.mk true) hreads

/-! ### One step after the other -/

/-- What a step of the handshake does to the line: it begins to write the reports and to wait as
given, and has done all of it if it succeeds. -/
def Traffic (f : σ → Bool × σ) (f' : σ × List HidCall → Bool × σ × List HidCall)
    (written : List (List UInt8)) (waited : List Nat) (bound : Nat) : Prop :=
  ∀ s past, ∃ calls, reports calls <+: written ∧ waits calls <+: waited ∧ calls.length ≤ bound ∧
    ((f s).1 = true → reports calls = written ∧ waits calls = waited) ∧
    f' (s, past) = ((f s).1, (f s).2, past ++ calls)

def andThen {τ : Type*} (f g : τ → Bool × τ) (s : τ) : Bool × τ :=
  if (f s).1 then g (f s).2 else (false, (f s).2)

theorem Traffic.andThen {f g : σ → Bool × σ} {f' g' : σ × List HidCall → Bool × σ × List HidCall}
    {written written' : List (List UInt8)} {waited waited' : List Nat} {bound bound' : Nat}
    (hf : Traffic f f' written waited bound) (hg : Traffic g g' written' waited' bound') :
    Traffic (andThen f g) (andThen f' g') (written ++ written') (waited ++ waited')
      (bound + bound') := by
  intro s past
  obtain ⟨calls, hreports, hwaits, hlength, hdone, hresult⟩ := hf s past
  unfold Hid.andThen
  rw [hresult]
  cases hok : (f s).1 with
  | false =>
      exact ⟨calls, hreports.trans (List.prefix_append _ _), hwaits.trans (List.prefix_append _ _),
        Nat.le_trans hlength (Nat.le_add_right _ _), by simp, rfl⟩
  | true =>
      obtain ⟨hwritten, hwaited⟩ := hdone hok
      obtain ⟨calls', hreports', hwaits', hlength', hdone', hresult'⟩ := hg (f s).2 (past ++ calls)
      have happend : reports (calls ++ calls') = written ++ reports calls' ∧
          waits (calls ++ calls') = waited ++ waits calls' :=
        ⟨hwritten ▸ List.filterMap_append, hwaited ▸ List.filterMap_append⟩
      refine ⟨calls ++ calls', ?_, ?_, ?_, ?_, ?_⟩
      · rw [happend.1]
        exact (List.prefix_append_right_inj _).mpr hreports'
      · rw [happend.2]
        exact (List.prefix_append_right_inj _).mpr hwaits'
      · rw [List.length_append]
        exact Nat.add_le_add hlength hlength'
      · intro hok'
        obtain ⟨hwritten', hwaited'⟩ := hdone' hok'
        rw [happend.1, happend.2, hwritten', hwaited']
        exact ⟨rfl, rfl⟩
      · rw [← List.append_assoc]
        exact hresult'

/-- What `init` does after the drain. -/
def introduce (hidraw : Hidraw σ) (s : σ) : Bool × σ := announce hidraw (inquire hidraw s)

theorem traffic_introduce (hidraw : Hidraw σ) :
    Traffic (introduce hidraw) (introduce (recorded hidraw)) [osCodeCommand] [] 8 := by
  intro s past
  obtain ⟨calls, hreports, hwaits, hlength, hresult⟩ :=
    announce_recorded hidraw (inquire hidraw s) (past ++ inquiries.map HidCall.ioctl)
  have hreports' : reports (inquiries.map HidCall.ioctl ++ calls) = [osCodeCommand] := hreports
  have hwaits' : waits (inquiries.map HidCall.ioctl ++ calls) = [] := hwaits
  refine ⟨inquiries.map HidCall.ioctl ++ calls, hreports' ▸ List.prefix_refl _,
    hwaits' ▸ List.prefix_refl _, ?_, fun _ => ⟨hreports', hwaits'⟩, ?_⟩
  · rw [List.length_append]
    exact Nat.add_le_add_left hlength 4
  · rw [introduce, inquire_recorded, hresult, List.append_assoc]
    rfl

/-- What a setter or a getter makes of an exchange may look at everything but the calls. -/
theorem traffic_of_writeRead (hidraw : Hidraw σ) (cmd : List UInt8) (timeoutSec : Nat)
    (verdict : Bool → List UInt8 → Bool) (hverdict : ∀ resp, verdict false resp = false) :
    Traffic
      (fun s => (verdict (writeRead hidraw cmd (List.replicate kHidResp 0) timeoutSec s).1
          (writeRead hidraw cmd (List.replicate kHidResp 0) timeoutSec s).2.1,
        (writeRead hidraw cmd (List.replicate kHidResp 0) timeoutSec s).2.2))
      (fun s => (verdict
          (writeRead (recorded hidraw) cmd (List.replicate kHidResp 0) timeoutSec s).1
          (writeRead (recorded hidraw) cmd (List.replicate kHidResp 0) timeoutSec s).2.1,
        (writeRead (recorded hidraw) cmd (List.replicate kHidResp 0) timeoutSec s).2.2))
      [cmd] [timeoutSec] 12 := by
  intro s past
  obtain ⟨calls, hexchange, hwaits, hresult⟩ :=
    writeRead_recorded hidraw cmd (List.replicate kHidResp 0) timeoutSec s past
  refine ⟨calls, hexchange.reports ▸ List.prefix_refl _, hexchange.waits, hexchange.length, ?_, ?_⟩
  · intro hok
    refine ⟨hexchange.reports, hwaits ?_⟩
    by_contra hfailed
    rw [Bool.not_eq_true] at hfailed
    dsimp only at hok
    rw [hfailed, hverdict] at hok
    cases hok
  · dsimp only
    rw [hresult]
    rfl

theorem acknowledged_eq (exchange : Bool × List UInt8 × σ) :
    acknowledged exchange
      = (exchange.1 && exchange.2.1.getD 6 0 == 0x01, exchange.2.2) := by
  unfold acknowledged
  cases exchange.1 <;> rfl

theorem traffic_acknowledged (hidraw : Hidraw σ) (cmd : List UInt8) (timeoutSec : Nat) :
    Traffic
      (fun s => acknowledged (writeRead hidraw cmd (List.replicate kHidResp 0) timeoutSec s))
      (fun s => acknowledged
        (writeRead (recorded hidraw) cmd (List.replicate kHidResp 0) timeoutSec s))
      [cmd] [timeoutSec] 12 := by
  simp only [acknowledged_eq]
  exact traffic_of_writeRead hidraw cmd timeoutSec (fun answered resp =>
    answered && resp.getD 6 0 == 0x01) fun _ => rfl

/-- The verdict on the mode that GET stream mode has reported. -/
def verifyMode (hidraw : Hidraw σ) (s : σ) : Bool × σ :=
  ((getStreamMode hidraw 0 0 s).2.1 == 0x01, (getStreamMode hidraw 0 0 s).2.2.2)

theorem verifyMode_eq (hidraw : Hidraw σ) (s : σ) :
    verifyMode hidraw s
      = ((writeRead hidraw getStreamModeCommand (List.replicate kHidResp 0) 5 s).1
          && (writeRead hidraw getStreamModeCommand (List.replicate kHidResp 0) 5 s).2.1.getD 2 0
            == 0x01,
        (writeRead hidraw getStreamModeCommand (List.replicate kHidResp 0) 5 s).2.2) := by
  unfold verifyMode getStreamMode
  rw [← getStreamModeCommand]
  dsimp only
  cases (writeRead hidraw getStreamModeCommand (List.replicate kHidResp 0) 5 s).1 <;> rfl

theorem traffic_verifyMode (hidraw : Hidraw σ) :
    Traffic (verifyMode hidraw) (verifyMode (recorded hidraw)) [getStreamModeCommand] [5] 12 := by
  have hplain := funext (verifyMode_eq hidraw)
  have hrecorded := funext (verifyMode_eq (recorded hidraw))
  rw [hplain, hrecorded]
  exact traffic_of_writeRead hidraw getStreamModeCommand 5 (fun answered resp =>
    answered && resp.getD 2 0 == 0x01) fun _ => rfl

/-! ### The handshake -/

/-- All that follows the drain. -/
def handshake (hidraw : Hidraw σ) (exposureUs : UInt32) (aflMode : UInt8) : σ → Bool × σ :=
  andThen (introduce hidraw) (andThen (setExposure hidraw exposureUs)
    (andThen (setStreamMode hidraw 0x01 aflMode) (verifyMode hidraw)))

def commands (exposureUs : UInt32) (aflMode : UInt8) : List (List UInt8) :=
  [osCodeCommand, setExposureCommand exposureUs, setStreamModeCommand 0x01 aflMode,
    getStreamModeCommand]

theorem andThen_pair {α τ : Type*} (f g : τ → Bool × τ) (s : τ) (a : α) :
    ((andThen f g s).1, a, (andThen f g s).2)
      = if !(f s).1 then (false, a, (f s).2) else ((g (f s).2).1, a, (g (f s).2).2) := by
  unfold andThen
  cases (f s).1 <;> rfl

theorem openAndInitTrigger_eq (hidraw : Hidraw σ) (fuel : Nat) (device : String)
    (exposureUs : UInt32) (aflMode : UInt8) (s : σ) :
    openAndInitTrigger hidraw fuel device exposureUs aflMode s =
      if (hidraw.openDevice device s).1 < 0 then
        some (false, (hidraw.openDevice device s).1, (hidraw.openDevice device s).2)
      else (drain hidraw fuel (hidraw.openDevice device s).2).map fun t =>
        ((handshake hidraw exposureUs aflMode t).1, (hidraw.openDevice device s).1,
          (handshake hidraw exposureUs aflMode t).2) := by
  unfold openAndInitTrigger
  dsimp only
  rw [init_eq, Option.map_map]
  refine if_congr Iff.rfl rfl (congrArg (Option.map · _) (funext fun t => ?_))
  rw [handshake, andThen_pair, andThen_pair, andThen_pair]
  rfl

theorem traffic_handshake (hidraw : Hidraw σ) (exposureUs : UInt32) (aflMode : UInt8) :
    Traffic (handshake hidraw exposureUs aflMode) (handshake (recorded hidraw) exposureUs aflMode)
      (commands exposureUs aflMode) [7, 5, 5] 44 :=
  (traffic_introduce hidraw).andThen ((traffic_acknowledged hidraw _ 7).andThen
    ((traffic_acknowledged hidraw _ 5).andThen (traffic_verifyMode hidraw)))

/-- **The handshake is four commands and at most 44 calls.** Over every device, whatever its calls
answer: a handshake that returns has opened the device, drained it, and then made at most 44 calls,
in which it writes its commands in their order and waits 7, 5 and 5 seconds at most; all of them if
it succeeds, and none if the device could not be opened. -/
theorem handshake_traffic (hidraw : Hidraw σ) (fuel : Nat) (device : String) (exposureUs : UInt32)
    (aflMode : UInt8) (s t : σ) (ok : Bool) (fd : Int)
    (h : openAndInitTrigger hidraw fuel device exposureUs aflMode s = some (ok, fd, t)) :
    ∃ drained calls, openAndInitTrigger (recorded hidraw) fuel device exposureUs aflMode (s, [])
        = some (ok, fd, t, .openDevice device :: reads drained ++ calls) ∧
      calls.length ≤ 44 ∧ reports calls <+: commands exposureUs aflMode ∧
      waits calls <+: [7, 5, 5] ∧
      (ok = true → reports calls = commands exposureUs aflMode ∧ waits calls = [7, 5, 5]) ∧
      (fd < 0 → drained = 0 ∧ calls = []) := by
  have hopen : (recorded hidraw).openDevice device (s, []) = ((hidraw.openDevice device s).1,
      (hidraw.openDevice device s).2, [.openDevice device]) := rfl
  rw [openAndInitTrigger_eq] at h
  rw [openAndInitTrigger_eq, hopen]
  by_cases hfd : (hidraw.openDevice device s).1 < 0
  · rw [if_pos hfd] at h
    have hresult := Option.some.inj h
    obtain rfl : false = ok := congrArg Prod.fst hresult
    obtain rfl : (hidraw.openDevice device s).1 = fd := congrArg (fun r => r.2.1) hresult
    obtain rfl : (hidraw.openDevice device s).2 = t := congrArg (fun r => r.2.2) hresult
    exact ⟨0, [], if_pos hfd, Nat.zero_le 44, List.nil_prefix, List.nil_prefix, by simp,
      fun _ => ⟨rfl, rfl⟩⟩
  · rw [if_neg hfd] at h
    obtain ⟨u, hdrained, hresult⟩ := Option.map_eq_some_iff.mp h
    obtain rfl : (handshake hidraw exposureUs aflMode u).1 = ok := congrArg Prod.fst hresult
    obtain rfl : (hidraw.openDevice device s).1 = fd := congrArg (fun r => r.2.1) hresult
    obtain rfl : (handshake hidraw exposureUs aflMode u).2 = t :=
      congrArg (fun r => r.2.2) hresult
    obtain ⟨drained, hdrain⟩ :=
      drain_recorded hidraw fuel (hidraw.openDevice device s).2 [.openDevice device]
    obtain ⟨calls, hreports, hwaits, hlength, hdone, hcalls⟩ :=
      traffic_handshake hidraw exposureUs aflMode u ([.openDevice device] ++ reads drained)
    refine ⟨drained, calls, ?_, hlength, hreports, hwaits, hdone, fun hneg => absurd hneg hfd⟩
    refine (if_neg hfd).trans ?_
    rw [hdrain, hdrained, Option.map_some, Option.map_some, hcalls]
    rfl

theorem handshake_traffic_acknowledgedScript : ∃ drained calls,
    openAndInitTrigger (recorded scripted) 1 "/dev/24cug_hid" 5000 1 (acknowledgedScript, [])
      = some (true, 3, [], .openDevice "/dev/24cug_hid" :: reads drained ++ calls) ∧
    reports calls = commands 5000 1 ∧ calls.length ≤ 44 := by
  obtain ⟨drained, calls, hrun, hlength, -, -, hdone, -⟩ := handshake_traffic scripted 1
    "/dev/24cug_hid" 5000 1 acknowledgedScript [] true 3 rfl
  exact ⟨drained, calls, hrun, (hdone rfl).1, hlength⟩

end EconRos2Driver.Hid
