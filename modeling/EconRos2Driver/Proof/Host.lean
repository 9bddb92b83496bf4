import EconRos2Driver.Host
import EconRos2Driver.Proof.HidAcknowledged
import EconRos2Driver.Proof.Shutdown

/-!
# No frame before the handshake

The host is the process with the handshake filled in, so it does nothing the process cannot do. What
it adds is the order: a backend exists only after a handshake that has succeeded, and what such a
handshake has settled stays settled, because nothing writes to the camera afterwards.
-/

namespace EconRos2Driver

open Ledger

variable {S P M G R A : Type} {D : Device S P M G R A} {p : Params}

/-! ### The host refines the process -/

theorem process_of_step {s t : Host S P} {event : HostEvent M G R A}
    (h : s.step D event = some t) : Runs.Reachable (Process.step D) s.process t.process := by
  cases event with
  | process event =>
      simp only [Host.step] at h
      split_ifs at h with hhid
      obtain ⟨process, hprocess, rfl⟩ := Option.map_eq_some_iff.mp h
      exact .of_step hprocess
  | camera move =>
      obtain rfl := Option.some.inj h
      exact .refl _
  | initHid fuel =>
      obtain ⟨⟨ok, fd, line⟩, -, hstep⟩ := Option.bind_eq_some_iff.mp h
      obtain ⟨process, hprocess, rfl⟩ := Option.map_eq_some_iff.mp hstep
      exact .of_step hprocess
  | closeHid =>
      obtain ⟨process, hprocess, rfl⟩ := Option.map_eq_some_iff.mp h
      exact .of_step hprocess

theorem process_reachable {s t : Host S P} (h : Runs.Reachable (Host.step D) s t) :
    Runs.Reachable (Process.step D) s.process t.process :=
  Runs.run_simulates Host.process (I := fun _ => True) (fun _ _ _ _ _ => trivial)
    (fun _ _ _ _ hstep => process_of_step hstep) trivial h

/-! ### Calls need a thread -/

/-- Without a grab thread nobody has made its calls. -/
def Silent (s : Process S P) : Prop :=
  s.hasThread = false → ∀ a ∈ s.trace, a.isGrabThread = false

theorem Silent.step {s t : Process S P} (h : Silent s) {event : ProcessEvent M G R A}
    (hstep : s.step D event = some t) : Silent t := by
  unfold Process.step at hstep
  split at hstep
  · cases hstep
  · cases event with
    | sys event =>
        dsimp only [Process.sysStep] at hstep
        split_ifs at hstep with hmay
        obtain ⟨sys, hsys, rfl⟩ := Option.map_eq_some_iff.mp hstep
        intro hthread
        dsimp only at hthread ⊢
        rw [(grabCalls_of_noThread (.of_step hsys) hmay hthread).1, List.map_nil, List.append_nil]
        exact h hthread
    | testStop | testOk =>
        dsimp only [Process.testStep] at hstep
        split at hstep
        · split_ifs at hstep
          · exact Option.some.inj hstep ▸ h
          · obtain ⟨sys, -, rfl⟩ := Option.map_eq_some_iff.mp hstep
            exact h
        · cases hstep
    | shutdownRequested => exact Option.some.inj hstep ▸ h
    | main event =>
        have hturn := mainTurn_of_step hstep
        intro hthread
        have hnone : s.hasThread = false := by
          by_contra hone
          rw [hturn.thread (by simpa using hone)] at hthread
          cases hthread
        rcases hturn.acts with htrace | ⟨a, htrace, -, hgrab, -⟩
        · rw [htrace]
          exact h hnone
        · rw [htrace]
          intro b hb
          rcases List.mem_append.mp hb with hold | hnew
          · exact h hnone b hold
          · rwa [List.mem_singleton.mp hnew]
    | writer =>
        obtain ⟨writer, trace, rfl, -, -, -, htrace⟩ := writerStep_spec hstep
        intro hnone a ha
        rcases htrace with rfl | rfl
        · exact h hnone a ha
        · rcases List.mem_append.mp ha with hold | hnew
          · exact h hnone a hold
          · rw [List.mem_singleton.mp hnew]
            rfl

/-! ### The order of the constructor -/

def MainPc.beforeHid : MainPc → Bool
  | .initLog | .initHid => true
  | _ => false

def MainPc.hidClosed : MainPc → Bool
  | .stopWriter | .joinWriter | .syncLog | .unmapLog | .closeLog | .destroyBackend
  | .destroyStamper | .done => true
  | _ => false

/-- `init_hid` has returned true. -/
def Process.handshaken (s : Process S P) : Bool :=
  s.main == .initBackend || s.main == .startThread || s.hasBackend || s.hasThread

structure Handshaken (p : Params) (s : Host S P) : Prop where
  params : s.process.sys.node.p = p
  early : s.process.main.beforeHid = true → s.process.handshaken = false ∧
    Hid.Before s.line ∧ s.hidFd = -1
  descriptor : outstanding s.hidCalls = some (if s.hidFd < 0 then [] else [s.hidFd])
  closed : s.process.main.hidClosed = true → s.hidFd < 0

/-- What the handshake has settled is settled. -/
def Obeyed (p : Params) (s : Host S P) : Prop :=
  s.process.handshaken = true →
    Hid.Settled (Hid.exposureSetting (UInt32.ofInt p.exposureUs)) s.line ∧
      Hid.Settled (Hid.streamSetting 0x01 kAflMode) s.line

/-- If the event is the handshake, its drain leaves nothing queued. -/
def HostEvent.DrainsDry (s : Host S P) : HostEvent M G R A → Prop
  | .initHid fuel => Hid.DrainsDry fuel s.process.sys.node.p.hidDevice s.line
  | .process _ | .camera _ | .closeHid => True

instance (s : Host S P) : ∀ event : HostEvent M G R A, Decidable (event.DrainsDry s)
  | .initHid fuel => inferInstanceAs (Decidable (Hid.DrainsDry fuel _ s.line))
  | .process _ | .camera _ | .closeHid => isTrue trivial

/-- What the steps of the process that are not about the hidraw device leave alone. -/
structure HidFrame (s t : Process S P) : Prop where
  params : t.sys.node.p = s.sys.node.p
  early : t.main.beforeHid = true → s.main.beforeHid = true
  handshaken : t.handshaken = true → s.handshaken = true
  closed : t.main.hidClosed = true → s.main.hidClosed = true

theorem HidFrame.of_same {s t : Process S P} (hp : t.sys.node.p = s.sys.node.p)
    (hmain : t.main = s.main) (hbackend : t.hasBackend = s.hasBackend)
    (hthread : t.hasThread = s.hasThread) : HidFrame s t := by
  refine ⟨hp, ?_, ?_, ?_⟩
  · rw [hmain]
    exact id
  · rw [Process.handshaken, hmain, hbackend, hthread]
    exact id
  · rw [hmain]
    exact id

theorem hidFrame_mainStep {s t : Process S P} {event : MainEvent A}
    (hevent : (ProcessEvent.main event : ProcessEvent M G R A).isHid = false)
    (hstep : s.mainStep D event = some t) : HidFrame s t := by
  cases event with
  | initHid _ | closeHid => cases hevent
  | initLog _ | unknownBackend | initBackend _ | startThread | endSpin | setStop | joinGrab
  | stopBackend | closeStamper | stopWriter | joinWriter | syncLog | unmapLog | closeLog
  | destroyBackend | destroyStamper =>
      simp only [Process.mainStep, Process.stopDevice] at hstep
      split_ifs at hstep with hmain
      all_goals
        obtain rfl := Option.some.inj hstep
        constructor <;>
          simp [Process.handshaken, MainPc.beforeHid, MainPc.hidClosed, Process.setBoxFd,
            Process.closeStamper, hmain]

theorem hidFrame_of_step {s t : Process S P} {event : ProcessEvent M G R A}
    (hevent : event.isHid = false) (hstep : s.step D event = some t) : HidFrame s t := by
  unfold Process.step at hstep
  split at hstep
  · cases hstep
  · cases event with
    | sys event =>
        dsimp only [Process.sysStep] at hstep
        split_ifs at hstep
        obtain ⟨sys, hsys, rfl⟩ := Option.map_eq_some_iff.mp hstep
        exact .of_same (System.Step.of_step hsys).node_p rfl rfl rfl
    | testStop | testOk =>
        dsimp only [Process.testStep] at hstep
        split at hstep
        · split_ifs at hstep
          · exact Option.some.inj hstep ▸ .of_same rfl rfl rfl rfl
          · obtain ⟨sys, hsys, rfl⟩ := Option.map_eq_some_iff.mp hstep
            exact .of_same (System.Step.of_step hsys).node_p rfl rfl rfl
        · cases hstep
    | shutdownRequested => exact Option.some.inj hstep ▸ .of_same rfl rfl rfl rfl
    | main event => exact hidFrame_mainStep hevent hstep
    | writer =>
        obtain ⟨writer, trace, rfl, -⟩ := writerStep_spec hstep
        exact .of_same rfl rfl rfl rfl

theorem mainStep_of_step {s t : Process S P} {event : MainEvent A}
    (hstep : s.step D (.main event) = some t) : s.mainStep D event = some t := by
  unfold Process.step at hstep
  split at hstep
  · cases hstep
  · exact hstep

theorem initHid_of_mainStep {s t : Process S P} {ok : Bool}
    (hstep : s.mainStep D (.initHid ok) = some t) :
    s.main = .initHid ∧ t = { s with main := if ok then .initBackend else .spin } := by
  simp only [Process.mainStep] at hstep
  by_cases hmain : s.main = .initHid
  · rw [if_pos hmain] at hstep
    exact ⟨hmain, (Option.some.inj hstep).symm⟩
  · rw [if_neg hmain] at hstep
    cases hstep

theorem Handshaken.of_initHid {s t : Host S P} (h : Handshaken p s) {fuel : Nat}
    (hstep : s.step D (.initHid fuel) = some t) : Handshaken p t := by
  obtain ⟨⟨ok, fd, line⟩, hrun, hnext⟩ := Option.bind_eq_some_iff.mp hstep
  obtain ⟨process, hprocess, rfl⟩ := Option.map_eq_some_iff.mp hnext
  obtain ⟨hmain, rfl⟩ := initHid_of_mainStep (mainStep_of_step hprocess)
  obtain ⟨-, -, hfd⟩ := h.early (by rw [hmain]; rfl)
  have hcalls : outstanding s.hidCalls = some [] := by
    rw [h.descriptor, hfd]
    rfl
  refine ⟨h.params, ?_, ?_, ?_⟩
  · dsimp only
    split_ifs <;> simp [MainPc.beforeHid]
  · dsimp only
    split_ifs with hopen
    · exact hcalls
    · rw [outstanding_append hcalls]
      rfl
  · dsimp only
    split_ifs <;> simp [MainPc.hidClosed]

theorem Handshaken.of_closeHid {s t : Host S P} (h : Handshaken p s)
    (hstep : s.step D .closeHid = some t) : Handshaken p t := by
  obtain ⟨process, hprocess, rfl⟩ := Option.map_eq_some_iff.mp hstep
  have hmainStep := mainStep_of_step hprocess
  simp only [Process.mainStep] at hmainStep
  split_ifs at hmainStep with hmain
  obtain rfl := Option.some.inj hmainStep
  have hclosed : Hid.close s.hidFd < 0 := by
    unfold Hid.close
    split_ifs with hfd
    · exact hfd
    · decide
  refine ⟨h.params, by simp [MainPc.beforeHid], ?_, fun _ => hclosed⟩
  have hcalls := h.descriptor
  dsimp only
  rw [if_pos hclosed]
  split_ifs at hcalls ⊢ with hfd
  · exact hcalls
  · rw [outstanding_append hcalls]
    simp [Runs.run, Ledger.step]

theorem Handshaken.step {s t : Host S P} (h : Handshaken p s) {event : HostEvent M G R A}
    (hstep : s.step D event = some t) : Handshaken p t := by
  cases event with
  | initHid fuel => exact h.of_initHid hstep
  | closeHid => exact h.of_closeHid hstep
  | camera move =>
      obtain rfl := Option.some.inj hstep
      refine ⟨h.params, fun hmain => ?_, h.descriptor, h.closed⟩
      obtain ⟨hnone, hbefore, hfd⟩ := h.early hmain
      exact ⟨hnone, Hid.Before.kept.moved hbefore (s.line.moved_move move), hfd⟩
  | process event =>
      simp only [Host.step] at hstep
      split_ifs at hstep with hhid
      obtain ⟨process, hprocess, rfl⟩ := Option.map_eq_some_iff.mp hstep
      have hframe := hidFrame_of_step (Bool.eq_false_iff.mpr hhid) hprocess
      refine ⟨hframe.params.trans h.params, fun hmain => ?_, h.descriptor,
        fun hmain => h.closed (hframe.closed hmain)⟩
      obtain ⟨hnone, hrest⟩ := h.early (hframe.early hmain)
      refine ⟨?_, hrest⟩
      by_contra hshaken
      have := hframe.handshaken (by simpa using hshaken)
      rw [hnone] at this
      cases this

theorem Obeyed.of_initHid {s t : Host S P} (h : Handshaken p s) {fuel : Nat}
    (hdry : Hid.DrainsDry fuel s.process.sys.node.p.hidDevice s.line)
    (hstep : s.step D (.initHid fuel) = some t) : Obeyed p t := by
  obtain ⟨⟨ok, fd, line⟩, hrun, hnext⟩ := Option.bind_eq_some_iff.mp hstep
  obtain ⟨process, hprocess, rfl⟩ := Option.map_eq_some_iff.mp hnext
  obtain ⟨hmain, rfl⟩ := initHid_of_mainStep (mainStep_of_step hprocess)
  obtain ⟨hnone, hbefore, -⟩ := h.early (by rw [hmain]; rfl)
  simp only [Process.handshaken, Bool.or_eq_false_iff] at hnone
  intro hshaken
  cases ok with
  | false => simp [Process.handshaken, hnone] at hshaken
  | true =>
      rw [h.params] at hdry
      rw [initHid, h.params] at hrun
      exact Hid.settled_of_openAndInitTrigger hbefore hdry hrun

theorem Obeyed.step {s t : Host S P} (hs : Obeyed p s) (h : Handshaken p s)
    {event : HostEvent M G R A} (hdry : event.DrainsDry s) (hstep : s.step D event = some t) :
    Obeyed p t := by
  cases event with
  | initHid fuel => exact Obeyed.of_initHid h hdry hstep
  | closeHid =>
      obtain ⟨process, hprocess, rfl⟩ := Option.map_eq_some_iff.mp hstep
      have hmainStep := mainStep_of_step hprocess
      simp only [Process.mainStep] at hmainStep
      split_ifs at hmainStep with hmain
      obtain rfl := Option.some.inj hmainStep
      intro hshaken
      exact hs (by simpa [Process.handshaken, hmain] using hshaken)
  | camera move =>
      obtain rfl := Option.some.inj hstep
      have hmoved := s.line.moved_move move
      intro hshaken
      obtain ⟨hexposed, hstreaming⟩ := hs hshaken
      exact ⟨(Hid.Settled.kept _).moved hexposed hmoved,
        (Hid.Settled.kept _).moved hstreaming hmoved⟩
  | process event =>
      simp only [Host.step] at hstep
      split_ifs at hstep with hhid
      obtain ⟨process, hprocess, rfl⟩ := Option.map_eq_some_iff.mp hstep
      exact fun hshaken =>
        hs ((hidFrame_of_step (Bool.eq_false_iff.mpr hhid) hprocess).handshaken hshaken)

theorem handshaken_init (p : Params) (w : S) (device : Hid.Device)
    (reports answers queue : List (List UInt8)) (turns : List Hid.Turn) :
    Handshaken p (Host.init p w (.start device reports answers queue turns) : Host S P) where
  params := rfl
  early _ := ⟨rfl, Hid.Before.start device reports answers queue turns, rfl⟩
  descriptor := rfl
  closed hmain := by cases hmain

theorem handshaken_reachable {w : S} {device : Hid.Device}
    {reports answers queue : List (List UInt8)} {turns : List Hid.Turn} {s : Host S P}
    (h : Runs.Reachable (Host.step D)
      (Host.init p w (.start device reports answers queue turns)) s) : Handshaken p s :=
  h.invariant (fun _ _ _ hs hstep => hs.step hstep)
    (handshaken_init p w device reports answers queue turns)

theorem obeyed_run {w : S} {device : Hid.Device} {reports answers queue : List (List UInt8)}
    {turns : List Hid.Turn} {s : Host S P} {events : List (HostEvent M G R A)}
    (hdry : Runs.EachStep (Host.step D) (fun s event => event.DrainsDry s)
      (Host.init p w (.start device reports answers queue turns)) events)
    (h : Runs.run (Host.step D) (Host.init p w (.start device reports answers queue turns)) events
      = some s) : Obeyed p s := by
  refine (Runs.invariant_of_eachStep (I := fun s => Handshaken p s ∧ Obeyed p s) ?_
    ⟨handshaken_init p w device reports answers queue turns, fun hshaken => by cases hshaken⟩
    hdry h).2
  intro s event t ⟨hs, hobeyed⟩ hdry hstep
  exact ⟨hs.step hstep, hobeyed.step hs hdry hstep⟩

/-- **No frame before the handshake.** Let the drain of the handshake leave nothing queued. Once the
grab thread has made any call, and for as long as the process lives, the camera is in trigger mode,
with the exposure of the parameters and Auto Frame Length off, whatever was on the line before and
whatever the camera does. -/
theorem programmed_of_grabbed (D : Device S P M G R A) (p : Params) (w : S) (device : Hid.Device)
    (reports answers queue : List (List UInt8)) (turns : List Hid.Turn) {s : Host S P}
    (events : List (HostEvent M G R A))
    (hdry : Runs.EachStep (Host.step D) (fun s event => event.DrainsDry s)
      (Host.init p w (.start device reports answers queue turns)) events)
    (h : Runs.run (Host.step D) (Host.init p w (.start device reports answers queue turns)) events
      = some s)
    (hgrabbed : ∃ a ∈ s.process.trace, a.isGrabThread = true) :
    Hid.Programmed (UInt32.ofInt p.exposureUs) kAflMode s.line.device := by
  have hprocess := process_reachable ⟨events, h⟩
  have hsilent : Silent s.process :=
    hprocess.invariant (fun _ _ _ hs hstep => hs.step hstep) fun _ _ ha => by cases ha
  obtain ⟨a, ha, hcall⟩ := hgrabbed
  have hthread : s.process.hasThread = true := by
    by_contra hnone
    rw [hsilent (by simpa using hnone) a ha] at hcall
    cases hcall
  obtain ⟨hexposed, hstreaming⟩ := obeyed_run hdry h (by simp [Process.handshaken, hthread])
  exact ⟨hexposed.done, hstreaming.done.1, hstreaming.done.2⟩

/-- The three commands are answered at once. -/
def promptTurns : List Hid.Turn :=
  [{ result := 3 }, {}, {}, {}, {}, {}, { result := Hid.kHidPkt }, {}, {}, {},
    { result := Hid.kHidPkt }, { result := 1 },
    { moves := [.handle ⟨10, 0, 1⟩ [],
        .handle ⟨5000, 0, 1⟩ [Hid.acknowledgement Hid.kSetExposureComp 0], .send] },
    { result := Hid.kHidPkt }, { result := 1 },
    { moves := [.handle ⟨5000, 1, 0⟩ [Hid.acknowledgement Hid.kSetStreamMode 0], .send] },
    { result := Hid.kHidPkt }, { result := 1 },
    { moves := [.handle ⟨5000, 1, 0⟩ [Hid.acknowledgement Hid.kGetStreamMode 1], .send] }]

def promptParams : Params :=
  loadParams { backend := some "opencv", compressed := some true, exposureUs := some 5000 }

def promptHost : Host V4l2World V4l2Ptr :=
  Host.init promptParams (V4l2World.fresh fun _ _ => 7) (.start ⟨10, 0, 1⟩ [] [] [] promptTurns)

def promptRun : List (HostEvent V4l2Move DqbufAnswer Bool StartAnswer) :=
  [.process (.main (.initLog 3)), .initHid 3, .process (.main (.initBackend fullStart)),
   .process (.main .startThread), .process .testStop, .process .testOk,
   .process (.sys (.grab .selectFailed)), .camera (.emit [7])]

theorem programmed_of_promptRun : ∃ s,
    Runs.run (Host.step (v4l2Device noShapes)) promptHost promptRun = some s ∧
      s.process.trace = [.grabThread (.grab false)] ∧ s.hidFd = 3 ∧
      Hid.Programmed 5000 0 s.line.device := by
  refine ⟨_, rfl, rfl, rfl, ?_⟩
  exact programmed_of_grabbed (v4l2Device noShapes) promptParams (V4l2World.fresh fun _ _ => 7)
    ⟨10, 0, 1⟩ [] [] [] promptTurns promptRun (by decide) rfl
    ⟨.grabThread (.grab false), List.mem_cons_self, rfl⟩

/-- **The hidraw descriptor is closed once.** At every moment the descriptor in `hid_fd_` is the
one that is open, and when the destructor has run to its end it has been closed exactly once if it
was ever opened. -/
theorem hid_descriptor_settled (D : Device S P M G R A) (p : Params) (w : S) (device : Hid.Device)
    (reports answers queue : List (List UInt8)) (turns : List Hid.Turn) {s : Host S P}
    (h : Runs.Reachable (Host.step D)
      (Host.init p w (.start device reports answers queue turns)) s) :
    outstanding s.hidCalls = some (if s.hidFd < 0 then [] else [s.hidFd]) ∧
      (s.process.main = .done → outstanding s.hidCalls = some []) := by
  have hs := handshaken_reachable h
  refine ⟨hs.descriptor, fun hdone => ?_⟩
  rw [hs.descriptor, if_pos (hs.closed (by rw [hdone]; rfl))]

/-- The camera cannot be opened for writing, and the node is destroyed. -/
def refusedRun : List (HostEvent V4l2Move DqbufAnswer Bool StartAnswer) :=
  [.process (.main (.initLog 3)), .initHid 3, .process (.main .endSpin),
   .process (.main .setStop), .process (.main .joinGrab), .process (.main .stopBackend),
   .process (.main .closeStamper), .closeHid, .process (.main .stopWriter), .process .writer,
   .process (.main .joinWriter), .process (.main .syncLog), .process (.main .unmapLog),
   .process (.main .closeLog), .process (.main .destroyBackend), .process (.main .destroyStamper)]

theorem hid_descriptor_settled_refused : ∃ s,
    Runs.run (Host.step (v4l2Device noShapes))
        (Host.init promptParams (V4l2World.fresh fun _ _ => 7)
          (.start ⟨10, 0, 1⟩ [] [] [] [{ result := 5 }])) refusedRun = some s ∧
      s.hidCalls = [.take 5, .give 5] ∧ outstanding s.hidCalls = some [] := by
  refine ⟨_, rfl, rfl, ?_⟩
  exact (hid_descriptor_settled (v4l2Device noShapes) promptParams (V4l2World.fresh fun _ _ => 7)
    ⟨10, 0, 1⟩ [] [] [] [{ result := 5 }] ⟨refusedRun, rfl⟩).2 rfl

end EconRos2Driver
