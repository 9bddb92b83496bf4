import EconRos2Driver.Proof.Termination
import EconRos2Driver.Proof.V4l2Session

/-!
# What the process gives back

`Custody` follows a device through the process: untouched until `init_backend`, in use from a
`start` with any outcome to the first `stop`, and stopped from there on, however often `stop` comes.
Which predicates stand for the three is up to the device.
-/

namespace EconRos2Driver

open Process Ledger

variable {S P M G R A : Type}

structure Device.Uses (D : Device S P M G R A) (p : Params) (Before During After : S → Prop) :
    Prop where
  before_move : ∀ w m t, Before w → D.move w m = some t → Before t
  start : ∀ w answer, Before w → During (D.start p (imageFormat p) w answer).2
  move : ∀ w m t, During w → D.move w m = some t → During t
  grab : ∀ w answer frame t, During w → D.grab w answer = some (frame, t) → During t
  release : ∀ w answer t, During w → D.release w answer = some t → During t
  stop : ∀ w, During w → After (D.stop w)
  after_move : ∀ w m t, After w → D.move w m = some t → After t
  after_stop : ∀ w, After w → After (D.stop w)

/-- The first `stop` has been called, if there is anything to stop. -/
def MainPc.stopped : MainPc → Bool
  | .stopBackend => false
  | main => main.joined

def MainPc.constructed : MainPc → Bool
  | .initLog | .initHid | .initBackend => false
  | _ => true

structure Custody (p : Params) (Before During After : S → Prop) (s : Process S P) : Prop where
  p : s.sys.node.p = p
  thread : s.hasThread = true → s.hasBackend = true
  constructed : s.main.constructed = false → s.hasBackend = false
  ready : s.main = .startThread → s.hasBackend = true
  before : s.hasBackend = false → Before s.sys.env
  during : s.hasBackend = true → s.main.stopped = false → During s.sys.env
  after : s.hasBackend = true → s.main.stopped = true → After s.sys.env

variable {D : Device S P M G R A} {p : Params} {Before During After : S → Prop} {s t : Process S P}

theorem Custody.mainStep (hD : D.Uses p Before During After)
    (h : Custody p Before During After s) {event : MainEvent A}
    (hstep : s.mainStep D event = some t) : Custody p Before During After t := by
  obtain ⟨hp, hthread, hconstructed, hready, hbefore, hduring, hafter⟩ := h
  cases event with
  | initBackend answer =>
      simp only [Process.mainStep] at hstep
      split_ifs at hstep with hmain hok
      all_goals
        obtain rfl := Option.some.inj hstep
        have hnone : s.hasBackend = false := hconstructed (by rw [hmain.1]; rfl)
        have hstart := hD.start s.sys.env answer (hbefore hnone)
        rw [← hp] at hstart
        exact ⟨hp, fun _ => rfl, by simp [MainPc.constructed], fun _ => rfl, by simp,
          fun _ _ => hstart, by simp [MainPc.stopped, MainPc.joined]⟩
  | stopBackend | destroyBackend =>
      simp only [Process.mainStep, Process.stopDevice] at hstep
      split_ifs at hstep with hmain hbackend
      · obtain rfl := Option.some.inj hstep
        refine ⟨hp, hthread, by simp [MainPc.constructed], fun _ => hbackend, by simp [hbackend],
          by simp [MainPc.stopped, MainPc.joined], fun _ _ => ?_⟩
        first
          | exact hD.stop _ (hduring hbackend (by rw [hmain]; rfl))
          | exact hD.after_stop _ (hafter hbackend (by rw [hmain]; rfl))
      · obtain rfl := Option.some.inj hstep
        exact ⟨hp, hthread, by simp [MainPc.constructed], by simp, hbefore,
          fun hone => absurd hone hbackend, fun hone => absurd hone hbackend⟩
  | initLog _ | initHid _ | unknownBackend | startThread | endSpin | setStop | joinGrab
  | closeStamper | closeHid | stopWriter | joinWriter | syncLog | unmapLog | closeLog
  | destroyStamper =>
      simp only [Process.mainStep] at hstep
      split_ifs at hstep with hmain
      all_goals
        obtain rfl := Option.some.inj hstep
        simp only [hmain] at hconstructed hready hduring hafter
        constructor <;>
          simp_all [MainPc.constructed, MainPc.stopped, MainPc.joined, setBoxFd,
            Process.closeStamper]

theorem MainPc.stopped_of_not_joined {main : MainPc} (h : main.joined = false) :
    main.stopped = false := by
  cases main <;> first | rfl | cases h

/-- The grab thread takes its steps before the join. -/
theorem Orderly.not_joined (h : Orderly s) {event : Event M G R} {sys : System S P}
    (hsys : System.Step D.toEnv s.sys event sys) (hevent : ∀ move, event ≠ .env move)
    (hthread : s.hasThread = true) : s.main.joined = false := by
  by_contra hjoined
  have hexit := h.joined (by simpa using hjoined) hthread
  cases hsys with
  | env hmove => exact hevent _ rfl
  | exit hpc | grab hpc _ | count hpc | tryOpen hpc | readLow hpc | copy hpc | logCbk hpc
  | publish hpc | logPub hpc | release hpc _ =>
      rw [hexit] at hpc
      cases hpc

theorem Custody.of_same (h : Custody p Before During After s) (hp : t.sys.node.p = s.sys.node.p)
    (hthread : t.hasThread = s.hasThread) (hbackend : t.hasBackend = s.hasBackend)
    (hmain : t.main = s.main) (henv : t.sys.env = s.sys.env) :
    Custody p Before During After t := by
  refine ⟨hp.trans h.p, ?_, ?_, ?_, ?_, ?_, ?_⟩
  · rw [hthread, hbackend]
    exact h.thread
  · rw [hmain, hbackend]
    exact h.constructed
  · rw [hmain, hbackend]
    exact h.ready
  · rw [hbackend, henv]
    exact h.before
  · rw [hbackend, hmain, henv]
    exact h.during
  · rw [hbackend, hmain, henv]
    exact h.after

/-- What the grab thread does to the device, it does before the first `stop`. -/
theorem Custody.of_sys (hD : D.Uses p Before During After) (h : Custody p Before During After s)
    (horderly : Orderly s) {event : Event M G R} {sys : System S P}
    (hsys : System.Step D.toEnv s.sys event sys)
    (hthread : (∀ move, event ≠ .env move) → s.hasThread = true) (gate : Gate)
    (trace : List Action) : Custody p Before During After { s with sys, gate, trace } := by
  have hp := hsys.node_p
  have hduring : (∀ move, event ≠ .env move) → During sys.env →
      Custody p Before During After { s with sys, gate, trace } := by
    intro hevent henv
    have hbackend := h.thread (hthread hevent)
    have hrunning := MainPc.stopped_of_not_joined
      (horderly.not_joined hsys hevent (hthread hevent))
    refine ⟨hp.trans h.p, h.thread, h.constructed, h.ready, ?_, fun _ _ => henv, ?_⟩
    · intro hnone
      exact absurd (hbackend.symm.trans hnone) (by decide)
    · intro _ hstopped
      exact absurd (hrunning.symm.trans hstopped) (by decide)
  have hlive : (∀ move, event ≠ .env move) → During s.sys.env := fun hevent =>
    h.during (h.thread (hthread hevent))
      (MainPc.stopped_of_not_joined (horderly.not_joined hsys hevent (hthread hevent)))
  cases hsys with
  | env hmove =>
      exact ⟨h.p, h.thread, h.constructed, h.ready,
        fun hnone => hD.before_move _ _ _ (h.before hnone) hmove,
        fun hone hmain => hD.move _ _ _ (h.during hone hmain) hmove,
        fun hone hmain => hD.after_move _ _ _ (h.after hone hmain) hmove⟩
  | grab hpc hgrab => exact hduring (by simp) (hD.grab _ _ _ _ (hlive (by simp)) hgrab)
  | release hpc hrelease => exact hduring (by simp) (hD.release _ _ _ (hlive (by simp)) hrelease)
  | exit | count | tryOpen | readLow | copy | logCbk | publish | logPub =>
      exact h.of_same hp rfl rfl rfl rfl

theorem hasThread_of_mayTake {event : Event M G R} (hmay : s.mayTake event = true)
    (hevent : ∀ move, event ≠ .env move) : s.hasThread = true := by
  cases event with
  | env move => exact absurd rfl (hevent move)
  | exit => cases hmay
  | grab answer => exact (Bool.and_eq_true_iff.mp hmay).1
  | count | tryOpen _ | readLow _ | copy | logCbk _ | publish | logPub _ | release _ => exact hmay

theorem Custody.step (hD : D.Uses p Before During After) (h : Custody p Before During After s)
    (horderly : Orderly s) {event : ProcessEvent M G R A} (hstep : s.step D event = some t) :
    Custody p Before During After t := by
  unfold Process.step at hstep
  split at hstep
  · cases hstep
  · cases event with
    | sys event =>
        dsimp only [Process.sysStep] at hstep
        split_ifs at hstep with hmay
        obtain ⟨sys, hsys, rfl⟩ := Option.map_eq_some_iff.mp hstep
        exact h.of_sys hD horderly (.of_step hsys) (hasThread_of_mayTake hmay) _ _
    | testStop | testOk =>
        dsimp only [Process.testStep] at hstep
        split at hstep
        · split_ifs at hstep with hgate hgo
          · exact Option.some.inj hstep ▸ h.of_same rfl rfl rfl rfl rfl
          · obtain ⟨sys, hsys, rfl⟩ := Option.map_eq_some_iff.mp hstep
            exact h.of_sys hD horderly (.of_step hsys) (fun _ => hgate.1) _ _
        · cases hstep
    | shutdownRequested => exact Option.some.inj hstep ▸ h.of_same rfl rfl rfl rfl rfl
    | main event => exact h.mainStep hD hstep
    | writer =>
        obtain ⟨writer, trace, rfl, -⟩ := writerStep_spec hstep
        exact h.of_same rfl rfl rfl rfl rfl

theorem orderly_reachable {w : S}
    (h : Runs.Reachable (Process.step D) (Process.init p w) s) : Orderly s :=
  h.invariant (fun _ _ _ hs hstep => hs.step hstep) (orderly_init p w)

theorem custody_reachable (hD : D.Uses p Before During After) {w : S} (hw : Before w)
    (h : Runs.Reachable (Process.step D) (Process.init p w) s) :
    Custody p Before During After s := by
  have hinit : Custody p Before During After (Process.init p w : Process S P) :=
    ⟨rfl, by simp [Process.init], fun _ => rfl, by simp [Process.init], fun _ => hw,
      by simp [Process.init], by simp [Process.init]⟩
  refine (h.invariant (I := fun s => Orderly s ∧ Custody p Before During After s) ?_
    ⟨orderly_init p w, hinit⟩).2
  intro s event t hs hstep
  exact ⟨hs.1.step hstep, hs.2.step hD hs.1 hstep⟩

/-! ### What a run may take for granted of `start` -/

/-- The device whose `start` gets answers of one kind only. -/
def Device.answering (D : Device S P M G R A) (Answers : A → Prop) :
    Device S P M G R {answer // Answers answer} :=
  { D.toEnv with
    start := fun p format w answer => D.start p format w answer.val
    stop := D.stop }

/-- If the event is a `start`, its answer is of that kind. -/
def ProcessEvent.Answered (Answers : A → Prop) : ProcessEvent M G R A → Prop
  | .main (.initBackend answer) => Answers answer
  | _ => True

theorem step_answering {Answers : A → Prop} {event : ProcessEvent M G R A}
    (hevent : event.Answered Answers) (hstep : s.step D event = some t) :
    ∃ event', s.step (D.answering Answers) event' = some t := by
  cases event with
  | sys event => exact ⟨.sys event, hstep⟩
  | testStop => exact ⟨.testStop, hstep⟩
  | testOk => exact ⟨.testOk, hstep⟩
  | shutdownRequested => exact ⟨.shutdownRequested, hstep⟩
  | writer => exact ⟨.writer, hstep⟩
  | main event =>
      cases event with
      | initBackend answer => exact ⟨.main (.initBackend ⟨answer, hevent⟩), hstep⟩
      | initLog fd => exact ⟨.main (.initLog fd), hstep⟩
      | initHid ok => exact ⟨.main (.initHid ok), hstep⟩
      | unknownBackend => exact ⟨.main .unknownBackend, hstep⟩
      | startThread => exact ⟨.main .startThread, hstep⟩
      | endSpin => exact ⟨.main .endSpin, hstep⟩
      | setStop => exact ⟨.main .setStop, hstep⟩
      | joinGrab => exact ⟨.main .joinGrab, hstep⟩
      | stopBackend => exact ⟨.main .stopBackend, hstep⟩
      | closeStamper => exact ⟨.main .closeStamper, hstep⟩
      | closeHid => exact ⟨.main .closeHid, hstep⟩
      | stopWriter => exact ⟨.main .stopWriter, hstep⟩
      | joinWriter => exact ⟨.main .joinWriter, hstep⟩
      | syncLog => exact ⟨.main .syncLog, hstep⟩
      | unmapLog => exact ⟨.main .unmapLog, hstep⟩
      | closeLog => exact ⟨.main .closeLog, hstep⟩
      | destroyBackend => exact ⟨.main .destroyBackend, hstep⟩
      | destroyStamper => exact ⟨.main .destroyStamper, hstep⟩

/-- **The restriction rule.** A run in which every `start` gets such an answer is one of the device
that gets no other. -/
theorem reachable_answering {Answers : A → Prop} {events : List (ProcessEvent M G R A)}
    (hevents : ∀ event ∈ events, event.Answered Answers)
    (h : Runs.run (Process.step D) s events = some t) :
    Runs.Reachable (Process.step (D.answering Answers)) s t := by
  induction events generalizing s with
  | nil =>
      cases h
      exact .refl _
  | cons event events ih =>
      obtain ⟨u, hstep, hrest⟩ := Runs.run_cons_eq_some_iff.mp h
      obtain ⟨event', hstep'⟩ := step_answering (hevents event List.mem_cons_self) hstep
      exact (Runs.Reachable.of_step hstep').trans
        (ih (fun event hevent => hevents event (List.mem_cons_of_mem _ hevent)) hrest)

/-! ### The log and the shared timestamp -/

structure Closing (s : Process S P) : Prop where
  agrees : s.sys.node.stamper.Agrees
  closed : s.main.logOpen = false → s.main ≠ .initLog → s.sys.node.box.fd = -1
  ended : s.main = .done → s.sys.node.stamper = {}

theorem stamper_of_step {E : Env S P M G R} {s t : System S P} {event : Event M G R}
    (h : System.Step E s event t) (hagrees : s.node.stamper.Agrees) : t.node.stamper.Agrees := by
  cases h.turn with
  | env _ _ hnode => rwa [hnode]
  | grab _ _ _ _ hnode => rwa [hnode]
  | count _ _ _ _ hnode => rwa [hnode, Node.counted, Node.account_eq]
  | release _ _ _ _ _ hnode => rwa [hnode]
  | inside _ hinside =>
      rcases hinside.stamper with hsame | ⟨file, answer, hopened⟩
      · rwa [hsame]
      · rw [hopened]
        exact hagrees.tryOpen file answer

theorem Closing.of_sys (h : Closing s) (horderly : Orderly s) {event : Event M G R}
    {sys : System S P} (hsys : System.Step D.toEnv s.sys event sys)
    (hthread : (∀ move, event ≠ .env move) → s.hasThread = true) (gate : Gate)
    (trace : List Action) : Closing { s with sys, gate, trace } := by
  refine ⟨stamper_of_step hsys h.agrees, fun hmain hlog => ?_, fun hdone => ?_⟩
  · exact (box_fd_of_step hsys).trans (h.closed hmain hlog)
  · by_cases hevent : ∀ move, event ≠ .env move
    · have := horderly.not_joined hsys hevent (hthread hevent)
      change s.main = .done at hdone
      rw [hdone] at this
      cases this
    · obtain ⟨move, rfl⟩ : ∃ move, event = .env move := by simpa using hevent
      cases hsys with
      | env hmove => exact h.ended hdone

theorem Closing.mainStep (h : Closing s) (hphased : Phased s) {event : MainEvent A}
    (hstep : s.mainStep D event = some t) : Closing t := by
  obtain ⟨hagrees, hclosed, hended⟩ := h
  cases event with
  | stopWriter =>
      simp only [Process.mainStep] at hstep
      split_ifs at hstep with hmain hfd
      · have hopen := hphased.fd (by rw [hmain]; rfl)
        omega
      · obtain rfl := Option.some.inj hstep
        exact ⟨hagrees, by simp [MainPc.logOpen], by simp⟩
  | destroyStamper | closeStamper =>
      simp only [Process.mainStep] at hstep
      split_ifs at hstep with hmain
      obtain rfl := Option.some.inj hstep
      have hstamper : s.sys.node.stamper.close = {} := hagrees.close
      rw [hmain] at hclosed
      refine ⟨?_, ?_, fun _ => hstamper⟩
      · change s.sys.node.stamper.close.Agrees
        rw [hstamper]
        exact MmapStamper.agrees_closed
      · first
          | exact fun _ _ => hclosed rfl (by simp)
          | simp [MainPc.logOpen, MainPc.writing]
  | closeLog =>
      simp only [Process.mainStep] at hstep
      split_ifs at hstep with hmain
      obtain rfl := Option.some.inj hstep
      exact ⟨hagrees, fun _ _ => rfl, by simp⟩
  | initLog _ | initHid _ | unknownBackend | initBackend _ | startThread | endSpin | setStop
  | joinGrab | stopBackend | closeHid | joinWriter | syncLog | unmapLog | destroyBackend =>
      simp only [Process.mainStep, Process.stopDevice] at hstep
      split_ifs at hstep with hmain
      all_goals
        obtain rfl := Option.some.inj hstep
        simp only [hmain] at hclosed hended
        constructor <;>
          simp_all [MainPc.logOpen, MainPc.writing, MainPc.writerJoined, setBoxFd]

theorem Closing.step (h : Closing s) (hphased : Phased s) (horderly : Orderly s)
    {event : ProcessEvent M G R A} (hstep : s.step D event = some t) : Closing t := by
  unfold Process.step at hstep
  split at hstep
  · cases hstep
  · cases event with
    | sys event =>
        dsimp only [Process.sysStep] at hstep
        split_ifs at hstep with hmay
        obtain ⟨sys, hsys, rfl⟩ := Option.map_eq_some_iff.mp hstep
        exact h.of_sys horderly (.of_step hsys) (hasThread_of_mayTake hmay) _ _
    | testStop | testOk =>
        dsimp only [Process.testStep] at hstep
        split at hstep
        · split_ifs at hstep with hgate hgo
          · exact Option.some.inj hstep ▸ ⟨h.agrees, h.closed, h.ended⟩
          · obtain ⟨sys, hsys, rfl⟩ := Option.map_eq_some_iff.mp hstep
            exact h.of_sys horderly (.of_step hsys) (fun _ => hgate.1) _ _
        · cases hstep
    | shutdownRequested => exact Option.some.inj hstep ▸ ⟨h.agrees, h.closed, h.ended⟩
    | main event => exact h.mainStep hphased hstep
    | writer =>
        obtain ⟨writer, trace, rfl, -⟩ := writerStep_spec hstep
        exact ⟨h.agrees, h.closed, h.ended⟩

theorem closing_reachable {w : S}
    (h : Runs.Reachable (Process.step D) (Process.init p w) s) : Closing s := by
  have hinit : Closing (Process.init p w : Process S P) :=
    ⟨MmapStamper.agrees_closed, fun _ hmain => absurd rfl hmain, fun hdone => by cases hdone⟩
  refine (h.invariant (I := fun s => Phased s ∧ Orderly s ∧ Closing s) ?_
    ⟨phased_init p w, orderly_init p w, hinit⟩).2.2
  intro s event t ⟨hphased, horderly, hclosing⟩ hstep
  exact ⟨hphased.step hstep, horderly.step hstep, hclosing.step hphased horderly hstep⟩

/-! ### The V4L2 backend in the process -/

namespace V4l2World

def shared (w : V4l2World) (timeshare : Option Timeshare) : V4l2World := { w with timeshare }

theorem requestBuffer_shared (w : V4l2World) (file : Option Timeshare) (i : Nat)
    (answer : BufferAnswer) : (w.shared file).requestBuffer i answer
      = ((w.requestBuffer i answer).1, (w.requestBuffer i answer).2.shared file) := by
  unfold requestBuffer
  split_ifs <;> rfl

theorem requestBuffersFrom_shared (answer : Nat → BufferAnswer) (file : Option Timeshare)
    (rounds : Nat) : ∀ (i : Nat) (w : V4l2World),
      requestBuffersFrom answer i rounds (w.shared file)
        = ((requestBuffersFrom answer i rounds w).1,
            (requestBuffersFrom answer i rounds w).2.shared file) := by
  induction rounds with
  | zero => exact fun _ _ => rfl
  | succ rounds ih =>
      intro i w
      rw [requestBuffersFrom, requestBuffersFrom, requestBuffer_shared]
      rcases w.requestBuffer i (answer i) with ⟨_ | _, t⟩
      · rfl
      · exact ih (i + 1) t

/-- `start` does not look at the shared timestamp. -/
theorem start_shared (w : V4l2World) (file : Option Timeshare) (p : Params) (format : ImageFormat)
    (answer : StartAnswer) :
    (w.shared file).start p format answer
      = ((w.start p format answer).1, (w.start p format answer).2.shared file) := by
  unfold start
  split_ifs with hflip
  · rfl
  · cases answer.openFd with
    | none => rfl
    | some fd =>
        cases answer.sFmt with
        | none => rfl
        | some reply =>
            dsimp only [setFormat, requestBuffers]
            cases answer.reqbufs with
            | none => rfl
            | some count =>
                have hshared := requestBuffersFrom_shared answer.buffer file
                  (staticCastInt count).toNat 0
                dsimp only [shared] at hshared ⊢
                rw [hshared { w with
                  backend := { w.backend with
                    fd := (fd : Int), format, res := p.res, nBufs := staticCastInt count
                    needResize := decide (p.res.outputWidth ≠ p.res.captureWidth
                      ∨ p.res.outputHeight ≠ p.res.captureHeight) }
                  calls := w.calls ++ [.openDevice fd], negotiated := some reply }]
                rcases requestBuffersFrom answer.buffer 0 (staticCastInt count).toNat _ with
                  ⟨_ | _, t⟩
                · rfl
                · rfl

/-- The device as the process finds it. -/
def Unopened (w : V4l2World) : Prop := ∃ memory file, w = (fresh memory).shared file

def InUse (p : Params) (w : V4l2World) : Prop :=
  ∃ answer, granted p answer ≤ kBufCount ∧ Session p answer w

structure Returned (w : V4l2World) : Prop where
  fd : w.backend.fd = -1
  nBufs : w.backend.nBufs = 0
  currentIndex : w.backend.currentIndex = -1
  maps : w.maps = []
  settled : outstanding w.ledger = some []

theorem v4l2Device_uses (cv : OpenCv) (p : Params) :
    ((v4l2Device cv).answering fun answer => granted p answer ≤ kBufCount).Uses p Unopened
      (InUse p) Returned where
  before_move := by
    rintro w (⟨i, content⟩ | file) t ⟨memory, file', rfl⟩ hmove
    · cases hmove
    · cases hmove
      exact ⟨memory, file, rfl⟩
  start := by
    rintro w ⟨answer, hgranted⟩ ⟨memory, file, rfl⟩
    refine ⟨answer, hgranted, ?_⟩
    have hsession := session_start memory p (imageFormat p) answer
    show Session p answer (((fresh memory).shared file).start p (imageFormat p) answer).2
    rw [start_shared]
    exact hsession.next rfl rfl rfl rfl
      ⟨hsession.bounded.nBufs, hsession.bounded.queue, hsession.bounded.recorded,
        hsession.bounded.touched⟩ hsession.unopened
  move := by
    rintro w m t ⟨answer, hgranted, h⟩ hmove
    exact ⟨answer, hgranted, h.move hmove⟩
  grab := by
    rintro w dqbuf frame t ⟨answer, hgranted, h⟩ hgrab
    exact ⟨answer, hgranted, h.grab hgrab⟩
  release := by
    rintro w qbuf t ⟨answer, hgranted, h⟩ hrelease
    cases hrelease
    exact ⟨answer, hgranted, h.release qbuf⟩
  stop := by
    rintro w ⟨answer, hgranted, h⟩
    have hstopped := h.stop
    exact ⟨hstopped.fd, hstopped.nBufs, hstopped.currentIndex, hstopped.maps hgranted,
      hstopped.settled hgranted⟩
  after_move := by
    rintro w (⟨i, content⟩ | file) t h hmove
    · change (if i ∈ w.queue then _ else none) = some t at hmove
      split_ifs at hmove
      cases hmove
      exact ⟨h.fd, h.nBufs, h.currentIndex, h.maps, h.settled⟩
    · cases hmove
      exact ⟨h.fd, h.nBufs, h.currentIndex, h.maps, h.settled⟩
  after_stop := by
    intro w h
    have hsame : w.stop = w := if_pos (by rw [h.fd]; decide)
    show Returned w.stop
    rwa [hsame]

end V4l2World

/-- **The process gives back everything.** Let `REQBUFS` grant no more than `kBufCount` buffers, if
it comes to that. However the constructor ended and whatever failed on the way, when the destructor
has run to its end both threads are gone, the log is closed, the stamper has closed its file and
unmapped it, and every buffer the V4L2 backend ever mapped has been unmapped and its device closed,
each exactly once. -/
theorem process_gives_back (cv : OpenCv) (p : Params) (memory : Nat → Nat → UInt8)
    {s : Process V4l2World V4l2Ptr}
    (events : List (ProcessEvent V4l2Move DqbufAnswer Bool StartAnswer))
    (hevents : ∀ event ∈ events, event.Answered fun answer => granted p answer ≤ kBufCount)
    (hrun : Runs.run (Process.step (v4l2Device cv)) (Process.init p (V4l2World.fresh memory)) events
      = some s)
    (hdone : s.main = .done) :
    (s.hasThread = true → s.sys.node.pc = .exited) ∧ s.writer = .finished ∧
    s.sys.node.box.fd = -1 ∧ s.sys.node.stamper = {} ∧
    outstanding s.sys.env.ledger = some [] ∧ s.sys.env.maps = [] := by
  have h : Runs.Reachable (Process.step (v4l2Device cv)) _ s := ⟨events, hrun⟩
  have hphased := phased_reachable h
  have horderly := orderly_reachable h
  have hclosing := closing_reachable h
  have hcustody := custody_reachable (V4l2World.v4l2Device_uses cv p) ⟨memory, none, rfl⟩
    (reachable_answering hevents hrun)
  have hlog : s.main.logOpen = false := by rw [hdone]; rfl
  have hstarted : s.main ≠ .initLog := by simp [hdone]
  refine ⟨horderly.joined (by rw [hdone]; rfl), hphased.ended hlog hstarted,
    hclosing.closed hlog hstarted, hclosing.ended hdone, ?_⟩
  cases hbackend : s.hasBackend with
  | false =>
      obtain ⟨memory, file, henv⟩ := hcustody.before hbackend
      rw [henv]
      exact ⟨rfl, rfl⟩
  | true =>
      have hreturned := hcustody.after hbackend (by rw [hdone]; rfl)
      exact ⟨hreturned.settled, hreturned.maps⟩

/-- `start` fails at the third buffer; the node spins without a backend until it is destroyed. -/
def brokenProcess : List (ProcessEvent V4l2Move DqbufAnswer Bool StartAnswer) :=
  [.main (.initLog 3), .main (.initHid true), .main (.initBackend brokenStart), .writer,
   .main .endSpin, .main .setStop, .main .joinGrab, .main .stopBackend, .main .closeStamper,
   .main .closeHid, .main .stopWriter, .writer, .writer, .main .joinWriter, .main .syncLog,
   .main .unmapLog, .main .closeLog, .main .destroyBackend, .main .destroyStamper]

theorem process_gives_back_broken : ∃ s,
    Runs.run (Process.step (v4l2Device noShapes))
        (Process.init opencvParams (V4l2World.fresh fun _ _ => 7)) brokenProcess = some s ∧
      s.sys.env.calls.length = 9 ∧ outstanding s.sys.env.ledger = some [] := by
  refine ⟨_, rfl, rfl, ?_⟩
  have hgranted : granted opencvParams brokenStart ≤ kBufCount := by decide
  exact (process_gives_back noShapes opencvParams (fun _ _ => 7) brokenProcess
    (by simp [brokenProcess, ProcessEvent.Answered, hgranted]) rfl rfl).2.2.2.2.1

end EconRos2Driver
