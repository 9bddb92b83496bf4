import EconRos2Driver.HidDevice
import EconRos2Driver.Proof.HidReplies

/-!
# A successful handshake means a programmed camera

The argument follows one command code `c` through the line. After the drain nothing on the line
carries `c` (`Quiet`). Once the command is written, it is the only report of this session with that
code and the last one, so a packet that acknowledges it can only come from a camera that has applied
it and has no later command before it (`Sent`). When the driver has read such a packet, the camera
stays as it was programmed (`Settled`), because the code is not written again.

Each of the three is kept by whatever the camera does and by every other call of the driver.
-/

namespace EconRos2Driver.Hid

structure Kept (I : Line → Prop) : Prop where
  moved : ∀ {line line'}, I line → line.Moved line' → I line'
  turns : ∀ {line} turns, I line → I { line with turns }
  taken : ∀ {line queue}, I line → queue ⊆ line.queue → I { line with queue }
  drained : ∀ {line}, I line → I { line with drained := true }

variable {I J : Line → Prop}

theorem Kept.and (hI : Kept I) (hJ : Kept J) : Kept fun line => I line ∧ J line where
  moved h hmoved := ⟨hI.moved h.1 hmoved, hJ.moved h.2 hmoved⟩
  turns turns h := ⟨hI.turns turns h.1, hJ.turns turns h.2⟩
  taken h hqueue := ⟨hI.taken h.1 hqueue, hJ.taken h.2 hqueue⟩
  drained h := ⟨hI.drained h.1, hJ.drained h.2⟩

theorem Kept.advance (hI : Kept I) {line : Line} (h : I line) (moves : List Move) :
    I (line.advance moves) := by
  induction moves generalizing line with
  | nil => exact h
  | cons m moves ih => exact ih (hI.moved h (line.moved_move m))

theorem Kept.next (hI : Kept I) {line : Line} (h : I line) : I line.next.2 := by
  unfold Line.next
  split
  · exact h
  · exact hI.advance (hI.turns _ h) _

theorem Line.read_cases (line : Line) :
    (∃ errno queue, queue ⊆ line.next.2.queue ∧
        line.read = (.error errno, { line.next.2 with queue, drained := true })) ∨
      ∃ packet queue, packet ∈ line.next.2.queue ∧ packet ≠ [] ∧ queue ⊆ line.next.2.queue ∧
        line.read = (.data packet, { line.next.2 with queue }) := by
  unfold Line.read
  dsimp only
  split
  · exact .inl ⟨_, _, List.nil_subset _, rfl⟩
  · rename_i packet queue hqueue
    have hsub : packet :: queue ⊆ line.next.2.queue := hqueue ▸ List.dropWhile_subset _
    have hne : packet ≠ [] := by
      have hhead := List.head_dropWhile_not List.isEmpty (l := line.next.2.queue) (by simp [hqueue])
      simpa [hqueue] using hhead
    split
    · exact .inl ⟨_, _, List.Subset.refl _, rfl⟩
    · exact .inr ⟨packet, queue, hsub List.mem_cons_self, hne,
        fun p hp => hsub (List.mem_cons_of_mem _ hp), rfl⟩

theorem Kept.read (hI : Kept I) {line : Line} (h : I line) : I (Line.hidraw.read line).2 := by
  have hnext := hI.next h
  rcases line.read_cases with ⟨errno, queue, hsub, hread⟩ | ⟨packet, queue, -, -, hsub, hread⟩
  · change I line.read.2
    rw [hread]
    exact hI.drained (hI.taken hnext hsub)
  · change I line.read.2
    rw [hread]
    exact hI.taken hnext hsub

theorem Kept.select (hI : Kept I) (timeoutSec : Nat) {line : Line} (h : I line) :
    I (Line.hidraw.select timeoutSec line).2 := hI.next h

theorem Kept.inquire (hI : Kept I) {line : Line} (h : I line) :
    I (inquire Line.hidraw line) := by
  have hrequests : ∀ requests : List Inquiry, ∀ line, I line →
      I (requests.foldl (fun line request => Line.hidraw.ioctl request line) line) := by
    intro requests
    induction requests with
    | nil => exact fun _ h => h
    | cons request requests ih => exact fun _ h => ih _ (hI.next h)
  exact hrequests _ _ h

theorem Kept.osCodeReads (hI : Kept I) (attempts : Nat) {line : Line} (h : I line) :
    I (osCodeReads Line.hidraw attempts line) := by
  induction attempts generalizing line with
  | zero => exact h
  | succ attempts ih => exact ih (hI.read h)

theorem Line.write_eq {line : Line} {report : List UInt8}
    (h : (Line.hidraw.write report line).1 = kHidPkt) :
    (Line.hidraw.write report line).2
      = { line.next.2 with inbox := line.next.2.inbox ++ [⟨true, report⟩] } := if_pos h

/-! ### A code nobody has used -/

structure Quiet (c : UInt8) (line : Line) : Prop where
  drained : line.drained = true
  inbox : ∀ r ∈ line.inbox, r.session = true → reportCode r.bytes ≠ some c
  outbox : ∀ r ∈ line.outbox, r.session = true → code r.bytes ≠ some c
  queue : ∀ p ∈ line.queue, code p ≠ some c

theorem Conforms.code_eq {report : List UInt8} {old new : Device} {answers : List (List UInt8)}
    {p : List UInt8} {c : UInt8} (h : Conforms report old new answers) (hp : p ∈ answers)
    (hc : code p = some c) : reportCode report = some c := by
  rcases h.answered p hp with hnone | heq
  · simp [hnone] at hc
  · rw [← heq, hc]

theorem Quiet.kept (c : UInt8) : Kept (Quiet c) where
  moved := by
    intro line line' h hmoved
    cases hmoved with
    | still => exact h
    | @handled report inbox device answers hinbox hconforms =>
        have hmem : report ∈ line.inbox := by simp [hinbox]
        refine ⟨h.drained, fun r hr => h.inbox r (by simp_all), fun r hr hsession => ?_, h.queue⟩
        rcases List.mem_append.mp hr with hold | hnew
        · exact h.outbox r hold hsession
        · obtain ⟨p, hp, rfl⟩ := List.mem_map.mp hnew
          intro hc
          exact h.inbox report hmem hsession (hconforms.code_eq hp hc)
    | @sent answer outbox houtbox hown =>
        have hmem : answer ∈ line.outbox := by simp [houtbox]
        refine ⟨h.drained, h.inbox, fun r hr => h.outbox r (by simp_all), fun p hp => ?_⟩
        rcases List.mem_append.mp hp with hold | hnew
        · exact h.queue p hold
        · obtain rfl := List.mem_singleton.mp hnew
          cases hsession : answer.session with
          | false => simp [hown h.drained hsession]
          | true => exact h.outbox answer hmem hsession
    | @emitted packet hforeign =>
        refine ⟨h.drained, h.inbox, h.outbox, fun p hp => ?_⟩
        rcases List.mem_append.mp hp with hold | hnew
        · exact h.queue p hold
        · obtain rfl := List.mem_singleton.mp hnew
          simp [hforeign h.drained]
    | lost => exact ⟨h.drained, h.inbox, fun r hr => h.outbox r (List.mem_of_mem_tail hr), h.queue⟩
  turns _ h := ⟨h.drained, h.inbox, h.outbox, h.queue⟩
  taken h hqueue := ⟨h.drained, h.inbox, h.outbox, fun p hp => h.queue p (hqueue hp)⟩
  drained h := ⟨rfl, h.inbox, h.outbox, h.queue⟩

/-! ### A command and its acknowledgement -/

/-- A command that programs the camera: its code `c`, the report the driver writes, and what holds
of a camera that has applied it. Other reports leave that as it is, and only a camera for which it
holds acknowledges the report. -/
structure Setting where
  c : UInt8
  report : List UInt8
  done : Device → Prop
  keeps : ∀ {r old new answers}, Conforms r old new answers → reportCode r ≠ some c →
    done old → done new
  applies : ∀ {old new answers p}, Conforms report old new answers → p ∈ answers →
    code p = some c → status p = 0x01 → done new

variable {S : Setting}

structure Settled (S : Setting) (line : Line) : Prop where
  done : S.done line.device
  inbox : ∀ r ∈ line.inbox, reportCode r.bytes ≠ some S.c

theorem Settled.kept (S : Setting) : Kept (Settled S) where
  moved := by
    intro line line' h hmoved
    cases hmoved with
    | @handled report inbox device answers hinbox hconforms =>
        have hreport := h.inbox report (by simp [hinbox])
        exact ⟨S.keeps hconforms hreport h.done, fun r hr => h.inbox r (by simp_all)⟩
    | still => exact h
    | sent => exact ⟨h.done, h.inbox⟩
    | emitted => exact ⟨h.done, h.inbox⟩
    | lost => exact ⟨h.done, h.inbox⟩
  turns _ h := ⟨h.done, h.inbox⟩
  taken h _ := ⟨h.done, h.inbox⟩
  drained h := ⟨h.done, h.inbox⟩

/-- The command is written: it is the only report of this session with its code, no report with that
code follows it, and whatever acknowledges it proves it settled. -/
structure Sent (S : Setting) (line : Line) : Prop where
  drained : line.drained = true
  inbox : ∀ r ∈ line.inbox, r.session = true → reportCode r.bytes = some S.c →
    r.bytes = S.report
  last : line.inbox.Pairwise fun r r' => r.session = true → reportCode r.bytes = some S.c →
    reportCode r'.bytes ≠ some S.c
  outbox : ∀ r ∈ line.outbox, r.session = true → code r.bytes = some S.c →
    status r.bytes = 0x01 → Settled S line
  queue : ∀ p ∈ line.queue, code p = some S.c → status p = 0x01 → Settled S line

/-- The camera takes the next report. Taken as the command itself it settles the line with any
acknowledgement; any other report acknowledges nothing. -/
theorem Sent.handled {line : Line} (h : Sent S line) {report : Report} {inbox : List Report}
    {device : Device} {answers : List (List UInt8)} (hinbox : line.inbox = report :: inbox)
    (hconforms : Conforms report.bytes line.device device answers) :
    Sent S { line with
      device
      inbox
      outbox := line.outbox ++ answers.map fun bytes => ⟨report.session, bytes⟩ } := by
  have hmem : report ∈ line.inbox := by simp [hinbox]
  have hlast := h.last
  rw [hinbox, List.pairwise_cons] at hlast
  have hmoved : Settled S line → Settled S { line with
      device
      inbox
      outbox := line.outbox ++ answers.map fun bytes => ⟨report.session, bytes⟩ } :=
    fun hsettled => (Settled.kept S).moved hsettled (.handled hinbox hconforms)
  refine ⟨h.drained, fun r hr => h.inbox r (by simp_all), hlast.2, fun r hr hsession hc hs => ?_,
    fun p hp hc hs => hmoved (h.queue p hp hc hs)⟩
  rcases List.mem_append.mp hr with hold | hnew
  · exact hmoved (h.outbox r hold hsession hc hs)
  · obtain ⟨p, hp, rfl⟩ := List.mem_map.mp hnew
    have hreport : reportCode report.bytes = some S.c := hconforms.code_eq hp hc
    have hbytes := h.inbox report hmem hsession hreport
    rw [hbytes] at hconforms
    exact ⟨S.applies hconforms hp hc hs, fun r' hr' => hlast.1 r' hr' hsession hreport⟩

theorem Sent.kept (S : Setting) : Kept (Sent S) where
  moved := by
    intro line line' h hmoved
    have hsettled : Settled S line → Settled S line' := fun hs => (Settled.kept S).moved hs hmoved
    cases hmoved with
    | still => exact h
    | handled hinbox hconforms => exact h.handled hinbox hconforms
    | @sent answer outbox houtbox hown =>
        have hmem : answer ∈ line.outbox := by simp [houtbox]
        refine ⟨h.drained, h.inbox, h.last,
          fun r hr hsession hc hs => hsettled (h.outbox r (by simp_all) hsession hc hs),
          fun p hp hc hs => hsettled ?_⟩
        rcases List.mem_append.mp hp with hold | hnew
        · exact h.queue p hold hc hs
        · obtain rfl := List.mem_singleton.mp hnew
          cases hsession : answer.session with
          | false => simp [hown h.drained hsession] at hc
          | true => exact h.outbox answer hmem hsession hc hs
    | @emitted packet hforeign =>
        refine ⟨h.drained, h.inbox, h.last,
          fun r hr hsession hc hs => hsettled (h.outbox r hr hsession hc hs),
          fun p hp hc hs => hsettled ?_⟩
        rcases List.mem_append.mp hp with hold | hnew
        · exact h.queue p hold hc hs
        · obtain rfl := List.mem_singleton.mp hnew
          simp [hforeign h.drained] at hc
    | lost =>
        exact ⟨h.drained, h.inbox, h.last,
          fun r hr hsession hc hs => hsettled (h.outbox r (List.mem_of_mem_tail hr) hsession hc hs),
          fun p hp hc hs => hsettled (h.queue p hp hc hs)⟩
  turns turns h :=
    have hs := (Settled.kept S).turns turns
    ⟨h.drained, h.inbox, h.last, fun r hr hr' hc hst => hs (h.outbox r hr hr' hc hst),
      fun p hp hc hst => hs (h.queue p hp hc hst)⟩
  taken h hqueue :=
    have hs := fun hsettled => (Settled.kept S).taken hsettled hqueue
    ⟨h.drained, h.inbox, h.last, fun r hr hr' hc hst => hs (h.outbox r hr hr' hc hst),
      fun p hp hc hst => hs (h.queue p (hqueue hp) hc hst)⟩
  drained h :=
    have hs := (Settled.kept S).drained
    ⟨rfl, h.inbox, h.last, fun r hr hr' hc hst => hs (h.outbox r hr hr' hc hst),
      fun p hp hc hst => hs (h.queue p hp hc hst)⟩

/-! ### The calls that write a report -/

theorem Quiet.write {c : UInt8} {line : Line} (h : Quiet c line) {report : List UInt8}
    (hreport : reportCode report ≠ some c) (hwrite : (Line.hidraw.write report line).1 = kHidPkt) :
    Quiet c (Line.hidraw.write report line).2 := by
  have hnext := (Quiet.kept c).next h
  rw [Line.write_eq hwrite]
  refine ⟨hnext.drained, fun r hr => ?_, hnext.outbox, hnext.queue⟩
  rcases List.mem_append.mp hr with hold | hnew
  · exact hnext.inbox r hold
  · obtain rfl := List.mem_singleton.mp hnew
    exact fun _ => hreport

theorem Settled.write {line : Line} (h : Settled S line) {report : List UInt8}
    (hreport : reportCode report ≠ some S.c)
    (hwrite : (Line.hidraw.write report line).1 = kHidPkt) :
    Settled S (Line.hidraw.write report line).2 := by
  have hnext := (Settled.kept S).next h
  rw [Line.write_eq hwrite]
  refine ⟨hnext.done, fun r hr => ?_⟩
  rcases List.mem_append.mp hr with hold | hnew
  · exact hnext.inbox r hold
  · obtain rfl := List.mem_singleton.mp hnew
    exact hreport

theorem Sent.of_write {line : Line} (h : Quiet S.c line)
    (hwrite : (Line.hidraw.write S.report line).1 = kHidPkt) :
    Sent S (Line.hidraw.write S.report line).2 := by
  have hnext := (Quiet.kept S.c).next h
  rw [Line.write_eq hwrite]
  refine ⟨hnext.drained, fun r hr hsession hc => ?_, ?_,
    fun r hr hsession hc => absurd hc (hnext.outbox r hr hsession),
    fun p hp hc => absurd hc (hnext.queue p hp)⟩
  · rcases List.mem_append.mp hr with hold | hnew
    · exact absurd hc (hnext.inbox r hold hsession)
    · rw [List.mem_singleton.mp hnew]
  · rw [List.pairwise_append]
    refine ⟨?_, List.pairwise_singleton _ _, ?_⟩
    · exact List.pairwise_of_forall_mem_list fun r hr r' _ hsession hc =>
        absurd hc (hnext.inbox r hr hsession)
    · exact fun r hr _ _ hsession hc => absurd hc (hnext.inbox r hr hsession)

theorem Matches.code_eq {data resp : List UInt8} {c : UInt8}
    (h : Matches (command kCameraControl24CUG c data) resp) : code resp = some c := by
  obtain ⟨hlength, hunit, hcode⟩ := h
  match resp, hlength with
  | unit :: code' :: rest, _ =>
      simp only [command, kHidPkt, List.getD_cons_zero, List.getD_cons_succ, List.cons_append,
        List.take_succ_cons] at hunit hcode
      simp [code, hunit, hcode]

theorem code_take (bytes : List UInt8) : code (bytes.take kHidResp) = code bytes := by
  match bytes with
  | [] => rfl
  | [_] => rfl
  | _ :: _ :: _ => rfl

theorem status_take (bytes : List UInt8) : (bytes.take kHidResp).getD 6 0 = status bytes := by
  simp [status, kHidResp, List.getD_eq_getElem?_getD]

/-! ### The drain -/

structure Before (line : Line) : Prop where
  inbox : ∀ r ∈ line.inbox, r.session = false
  outbox : ∀ r ∈ line.outbox, r.session = false

theorem Before.kept : Kept Before where
  moved := by
    intro line line' h hmoved
    cases hmoved with
    | @handled report inbox device answers hinbox hconforms =>
        refine ⟨fun r hr => h.inbox r (by simp_all), fun r hr => ?_⟩
        rcases List.mem_append.mp hr with hold | hnew
        · exact h.outbox r hold
        · obtain ⟨p, _, rfl⟩ := List.mem_map.mp hnew
          exact h.inbox report (by simp [hinbox])
    | still => exact h
    | @sent answer outbox houtbox _ => exact ⟨h.inbox, fun r hr => h.outbox r (by simp_all)⟩
    | emitted => exact ⟨h.inbox, h.outbox⟩
    | lost => exact ⟨h.inbox, fun r hr => h.outbox r (List.mem_of_mem_tail hr)⟩
  turns _ h := ⟨h.inbox, h.outbox⟩
  taken h _ := ⟨h.inbox, h.outbox⟩
  drained h := ⟨h.inbox, h.outbox⟩

theorem Before.quiet {line : Line} (h : Before line) (hdrained : line.drained = true)
    (hqueue : line.queue = []) (c : UInt8) : Quiet c line where
  drained := hdrained
  inbox r hr hsession := by simp [h.inbox r hr] at hsession
  outbox r hr hsession := by simp [h.outbox r hr] at hsession
  queue p hp := by simp [hqueue] at hp

/-- When the drain leaves nothing queued, the line is quiet. -/
theorem quiet_of_drain {fuel : Nat} {line line' : Line} (h : Before line)
    (hdrain : drain Line.hidraw fuel line = some line') (hdry : line'.queue = []) (c : UInt8) :
    Quiet c line' := by
  induction fuel generalizing line with
  | zero => simp [drain] at hdrain
  | succ fuel ih =>
      have hnext := Before.kept.next h
      have hread_eq : Line.hidraw.read line = line.read := rfl
      rw [drain, hread_eq] at hdrain
      rcases line.read_cases with ⟨errno, queue, hsub, hread⟩ | ⟨packet, queue, -, hne, hsub, hread⟩
      · rw [hread] at hdrain
        obtain rfl := Option.some.inj hdrain
        exact (Before.kept.drained (Before.kept.taken hnext hsub)).quiet rfl hdry c
      · obtain ⟨b, packet, rfl⟩ := List.exists_cons_of_ne_nil hne
        rw [hread] at hdrain
        exact ih (Before.kept.taken hnext hsub) hdrain

theorem Before.start (device : Device) (reports answers queue : List (List UInt8))
    (turns : List Turn) : Before (Line.start device reports answers queue turns) := by
  constructor <;> simp [Line.start]

/-! ### The handshake -/

theorem quiet_of_init {fuel : Nat} {line line' : Line} (h : Before line)
    (hdry : ∀ drained ∈ drain Line.hidraw fuel line, drained.queue = [])
    (hinit : init Line.hidraw fuel line = some (true, line')) (c : UInt8) : Quiet c line' := by
  obtain ⟨drained, hdrain, hwrite, rfl⟩ := init_true hinit
  have hquiet := (Quiet.kept c).inquire (quiet_of_drain h hdrain (hdry drained hdrain) c)
  have hos : reportCode (command kOsCode kLinuxOs []) ≠ some c := by
    simp [reportCode, command, code, kHidPkt, kOsCode, kCameraControl24CUG]
  exact (Quiet.kept c).osCodeReads 3 (hquiet.write hos hwrite)

/-- A command that is answered with status 1 is settled, and what the write and the other calls keep
still holds. -/
theorem settled_of_answers {data packet : List UInt8} {timeoutSec : Nat} {line line' : Line}
    (hreport : S.report = command kCameraControl24CUG S.c data) (hI : Kept I)
    (hline : Quiet S.c line)
    (hwrite : (Line.hidraw.write S.report line).1 = kHidPkt →
      I (Line.hidraw.write S.report line).2)
    (h : Answers Line.hidraw S.report timeoutSec line packet line')
    (hstatus : packet.getD 6 0 = 0x01) : Settled S line' ∧ I line' := by
  have hkept := (Sent.kept S).and hI
  obtain ⟨before, bytes, hbefore, hread, rfl, hmatch⟩ :=
    h.last_read (I := fun line => Sent S line ∧ I line)
      (fun hwritten => ⟨Sent.of_write hline hwritten, hwrite hwritten⟩)
      (fun seconds _ hs => hkept.select seconds hs) (fun _ hs => hkept.read hs)
  rw [hreport] at hmatch
  have hcode := (code_take bytes).symm.trans hmatch.code_eq
  have hstatus' := (status_take bytes).symm.trans hstatus
  have hread_eq : before.read = (.data bytes, line') := hread
  rcases before.read_cases with ⟨errno, queue, _, h'⟩ | ⟨packet, queue, hmem, _, hsub, h'⟩
  · simp [hread_eq] at h'
  · rw [hread_eq] at h'
    simp only [Prod.mk.injEq, ReadResult.data.injEq] at h'
    obtain ⟨rfl, rfl⟩ := h'
    have hsent := hkept.next hbefore
    exact ⟨(Settled.kept S).taken (hsent.1.queue bytes hmem hcode hstatus') hsub,
      hI.taken hsent.2 hsub⟩

theorem exposureField_command (exposureUs : UInt32) :
    exposureField (command kCameraControl24CUG kSetExposureComp (exposureBytes exposureUs))
      = exposureUs.toNat := by
  have hlt := exposureUs.toNat_lt
  simp only [exposureField, exposureOf, exposureBytes, command, kHidPkt, List.cons_append,
    List.take_succ_cons, List.getD_cons_succ, List.getD_cons_zero, UInt32.toNat_toUInt8,
    UInt32.toNat_shiftRight, Nat.shiftRight_eq_div_pow]
  simp
  omega

def exposureSetting (exposureUs : UInt32) : Setting where
  c := kSetExposureComp
  report := command kCameraControl24CUG kSetExposureComp (exposureBytes exposureUs)
  done device := device.exposure = exposureUs.toNat
  keeps hconforms hcode hdone := (hconforms.exposure hcode).trans hdone
  applies hconforms hp hc hs :=
    (hconforms.exposureSet _ hp hc hs).trans (exposureField_command exposureUs)

def streamSetting (mode afl : UInt8) : Setting where
  c := kSetStreamMode
  report := command kCameraControl24CUG kSetStreamMode [mode, afl]
  done device := device.mode = mode ∧ device.afl = afl
  keeps hconforms hcode hdone :=
    ⟨(hconforms.stream hcode).1.trans hdone.1, (hconforms.stream hcode).2.trans hdone.2⟩
  applies hconforms hp hc hs := hconforms.streamSet _ hp hc hs

theorem reportCode_command_ne {c c' : UInt8} {data : List UInt8} (h : c ≠ c') :
    reportCode (command kCameraControl24CUG c data) ≠ some c' := by
  simp [reportCode, command, code, kHidPkt, h]

/-- What a handshake that returns true has settled, whoever had the device open before. -/
theorem settled_of_openAndInitTrigger {fuel : Nat} {path : String} {exposureUs : UInt32}
    {aflMode : UInt8} {fd : Int} {line line' : Line} (hbefore : Before line)
    (hdry : DrainsDry fuel path line)
    (h : openAndInitTrigger Line.hidraw fuel path exposureUs aflMode line
      = some (true, fd, line')) :
    Settled (exposureSetting exposureUs) line' ∧ Settled (streamSetting 0x01 aflMode) line' := by
  obtain ⟨line₁, line₂, line₃, ok, afl, hinit, hexposure, hstream, hget⟩ :=
    openAndInitTrigger_true h
  have hquiet := quiet_of_init (Before.kept.next hbefore) hdry hinit
  -- SET exposure, during which the code of SET stream mode stays unused
  obtain ⟨packet₁, hanswers₁, hstatus₁⟩ := setExposure_true_iff.mp hexposure
  obtain ⟨hexposed, hunused⟩ := settled_of_answers (S := exposureSetting exposureUs) rfl
    (Quiet.kept kSetStreamMode) (hquiet kSetExposureComp)
    ((hquiet kSetStreamMode).write
      (reportCode_command_ne (by decide : kSetExposureComp ≠ kSetStreamMode))) hanswers₁ hstatus₁
  -- SET stream mode, during which the exposure stays as it is
  obtain ⟨packet₂, hanswers₂, hstatus₂⟩ := setStreamMode_true_iff.mp hstream
  obtain ⟨hstreaming, hexposed⟩ := settled_of_answers (S := streamSetting 0x01 aflMode) rfl
    (Settled.kept (exposureSetting exposureUs)) hunused
    (hexposed.write (reportCode_command_ne (by decide : kSetStreamMode ≠ kSetExposureComp)))
    hanswers₂ hstatus₂
  -- GET stream mode, which changes neither
  obtain ⟨packet₃, hanswers₃, -⟩ := getStreamMode_answered hget (by decide)
  have hkept := (Settled.kept (exposureSetting exposureUs)).and
    (Settled.kept (streamSetting 0x01 aflMode))
  obtain ⟨before, bytes, hsettled, hread, -⟩ :=
    hanswers₃.last_read (I := fun line => Settled (exposureSetting exposureUs) line ∧
        Settled (streamSetting 0x01 aflMode) line)
      (fun hwritten => ⟨hexposed.write
          (reportCode_command_ne (by decide : kGetStreamMode ≠ kSetExposureComp)) hwritten,
        hstreaming.write
          (reportCode_command_ne (by decide : kGetStreamMode ≠ kSetStreamMode)) hwritten⟩)
      (fun seconds _ hs => hkept.select seconds hs) (fun _ hs => hkept.read hs)
  have hline := hkept.read hsettled
  rwa [hread] at hline

structure Programmed (exposureUs : UInt32) (aflMode : UInt8) (device : Device) : Prop where
  exposure : device.exposure = exposureUs.toNat
  mode : device.mode = 0x01
  afl : device.afl = aflMode

/-- **A successful handshake means a programmed camera.** Let the drain leave nothing queued.
Whatever was on the line before, and whatever the camera and the system calls do within their
contracts, a camera for which `open_and_init_trigger` returns true has the exposure, the trigger
mode and the AFL it was called with, and keeps them whatever it does next. -/
theorem programmed_of_openAndInitTrigger {fuel : Nat} {path : String} {exposureUs : UInt32}
    {aflMode : UInt8} {device : Device} {reports answers queue : List (List UInt8)}
    {turns : List Turn} {fd : Int} {line : Line}
    (hdry : DrainsDry fuel path (Line.start device reports answers queue turns))
    (h : openAndInitTrigger Line.hidraw fuel path exposureUs aflMode
      (Line.start device reports answers queue turns) = some (true, fd, line))
    (moves : List Move) : Programmed exposureUs aflMode (line.advance moves).device := by
  have hsettled := settled_of_openAndInitTrigger (.start device reports answers queue turns) hdry h
  have hend := ((Settled.kept (exposureSetting exposureUs)).and
    (Settled.kept (streamSetting 0x01 aflMode))).advance hsettled moves
  exact ⟨hend.1.done, hend.2.done.1, hend.2.done.2⟩

def acknowledgement (c mode : UInt8) : List UInt8 :=
  [kCameraControl24CUG, c, mode, 0, 0, 0, 0x01] ++ List.replicate 57 0

/-- A stale acknowledgement is drained; the answer to SET exposure comes late, after a read that
would have to wait and a packet too short to be it. -/
def lateAnswerTurns : List Turn :=
  [{ result := 3 }, {}, {}, {}, {}, {}, {}, { result := kHidPkt }, {}, {}, {},
    { result := kHidPkt }, { result := 1 }, {},
    { moves := [.handle ⟨10, 0, 0⟩ [], .handle ⟨5000, 0, 0⟩ [acknowledgement kSetExposureComp 0],
        .emit [1, 2], .send] }, {},
    { result := kHidPkt }, { result := 1 },
    { moves := [.handle ⟨5000, 1, 1⟩ [acknowledgement kSetStreamMode 0], .send] },
    { result := kHidPkt }, { result := 1 },
    { moves := [.handle ⟨5000, 1, 1⟩ [acknowledgement kGetStreamMode 1], .send] }]

theorem programmed_lateAnswerRun : ∃ line,
    openAndInitTrigger Line.hidraw 3 "/dev/24cug_hid" 5000 1 (Line.start ⟨10, 0, 0⟩ [] []
      [acknowledgement kSetExposureComp 0] lateAnswerTurns) = some (true, 3, line) ∧
    Programmed 5000 1 line.device := by
  obtain ⟨line, hrun⟩ : ∃ line, openAndInitTrigger Line.hidraw 3 "/dev/24cug_hid" 5000 1
      (Line.start ⟨10, 0, 0⟩ [] [] [acknowledgement kSetExposureComp 0] lateAnswerTurns)
        = some (true, 3, line) := ⟨_, rfl⟩
  exact ⟨line, hrun, programmed_of_openAndInitTrigger (by decide) hrun []⟩

end EconRos2Driver.Hid
