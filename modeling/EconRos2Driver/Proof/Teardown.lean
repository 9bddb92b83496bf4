import EconRos2Driver.Process
import EconRos2Driver.Library.Ledger
import EconRos2Driver.Proof.BufferOwnership

/-!
# The teardown

The destructor sets `stop_`, joins the grab thread and only then frees what that thread uses; the
log joins its writer before it closes the file. `Orderly` says what each thread can rely on at every
point of every interleaving, for all the ways the constructor can end.
-/

namespace EconRos2Driver

open Ledger

variable {S P M G R A : Type}

def Action.isGrabThread : Action → Bool
  | .grabThread _ => true
  | _ => false

def Action.frees : Action → Bool
  | .stopBackend | .closeStamper | .unmapLog | .closeLog => true
  | .grabThread _ | .writerSync | .syncLog => false

/-- The valid frames that were grabbed, and those that were released. -/
def frames (trace : List Action) : List (Entry Unit) :=
  trace.filterMap fun
    | .grabThread (.grab true) => some (.take ())
    | .grabThread .release => some (.give ())
    | _ => none

def MainPc.joined : MainPc → Bool
  | .initLog | .initHid | .initBackend | .startThread | .spin | .setStop | .joinGrab => false
  | _ => true

def MainPc.writerJoined : MainPc → Bool
  | .syncLog | .unmapLog | .closeLog => true
  | _ => false

def inHand (held : Bool) : List Unit := if held then [()] else []

structure OrderlyTrace (trace : List Action) (held : Bool) : Prop where
  afterFree : trace.Pairwise fun earlier later =>
    earlier.frees = true → later.isGrabThread = false
  afterClose : trace.Pairwise fun earlier later => earlier = .closeLog → later ≠ .writerSync
  held : outstanding (frames trace) = some (inHand held)
  settled : ∀ earlier, earlier ++ [.stopBackend] <+: trace → outstanding (frames earlier) = some []

/-- What holds between any two steps: before the join nothing is freed, after it the grab thread has
left its loop, and likewise for the writer and the descriptor. -/
structure Orderly (s : Process S P) : Prop where
  noThread : s.hasThread = false → s.sys.node.pc = .head
  joined : s.main.joined = true → s.hasThread = true → s.sys.node.pc = .exited
  freed : ∀ a ∈ s.trace, a.frees = true → s.main.joined = true
  writer : s.main.writerJoined = true ∨ .closeLog ∈ s.trace → s.writer = .finished
  trace : OrderlyTrace s.trace s.sys.node.pc.inHand

theorem frames_append (trace more : List Action) :
    frames (trace ++ more) = frames trace ++ frames more := List.filterMap_append

theorem frames_of_not_grabThread {a : Action} (h : a.isGrabThread = false) : frames [a] = [] := by
  cases a <;> first | rfl | cases h

theorem OrderlyTrace.act {trace : List Action} {held : Bool} (h : OrderlyTrace trace held)
    {a : Action} (hgrab : a.isGrabThread = false) (hsync : a = .writerSync → .closeLog ∉ trace)
    (hstop : a = .stopBackend → held = false) : OrderlyTrace (trace ++ [a]) held where
  afterFree := by
    rw [List.pairwise_append]
    refine ⟨h.afterFree, List.pairwise_singleton _ _, ?_⟩
    intro b _ c hc _
    rw [List.mem_singleton.mp hc]
    exact hgrab
  afterClose := by
    rw [List.pairwise_append]
    refine ⟨h.afterClose, List.pairwise_singleton _ _, ?_⟩
    intro b hb c hc hclose heq
    apply hsync ((List.mem_singleton.mp hc).symm.trans heq)
    exact hclose ▸ hb
  held := by rw [frames_append, frames_of_not_grabThread hgrab, List.append_nil, h.held]
  settled := by
    intro earlier hprefix
    obtain heq | hprefix := List.prefix_concat_iff.mp hprefix
    · obtain ⟨rfl, ha⟩ := List.append_inj' heq rfl
      rw [h.held, hstop (List.singleton_inj.mp ha).symm]
      rfl
    · exact h.settled earlier hprefix

theorem not_mem_calls {calls : List GrabCall} {a : Action} (h : a.isGrabThread = false) :
    a ∉ calls.map Action.grabThread := by
  intro hmem
  obtain ⟨call, -, rfl⟩ := List.mem_map.mp hmem
  cases h

theorem prefix_of_append_singleton {trace more earlier : List Action} {a : Action} (ha : a ∉ more)
    (h : earlier ++ [a] <+: trace ++ more) : earlier ++ [a] <+: trace := by
  obtain hle | hle := List.prefix_or_prefix_of_prefix h (List.prefix_append trace more)
  · exact hle
  · obtain heq | hle := List.prefix_concat_iff.mp hle
    · subst heq
      exact List.prefix_rfl
    · obtain ⟨rest, rfl⟩ := hle
      rw [List.append_assoc, List.prefix_append_right_inj] at h
      exact absurd (h.subset (List.mem_append_right rest List.mem_cons_self)) ha

theorem OrderlyTrace.calls {trace : List Action} {held held' : Bool} (h : OrderlyTrace trace held)
    {calls : List GrabCall} (hfree : ∀ a ∈ trace, a.frees = true → calls = [])
    (hrun : Runs.run Ledger.step (inHand held) (frames (calls.map .grabThread))
      = some (inHand held')) : OrderlyTrace (trace ++ calls.map .grabThread) held' where
  afterFree := by
    rw [List.pairwise_append, List.pairwise_map]
    refine ⟨h.afterFree, List.pairwise_of_forall ?_, ?_⟩
    · intro _ _ hfrees
      cases hfrees
    · intro a ha b hb hfrees
      rw [hfree a ha hfrees] at hb
      cases hb
  afterClose := by
    rw [List.pairwise_append, List.pairwise_map]
    refine ⟨h.afterClose, List.pairwise_of_forall ?_, ?_⟩
    · intro _ _ hclose
      cases hclose
    · intro a _ b hb _ heq
      exact not_mem_calls rfl (heq ▸ hb)
  held := by rw [frames_append, outstanding_append h.held, hrun]
  settled := by
    intro earlier hprefix
    exact h.settled earlier (prefix_of_append_singleton (not_mem_calls rfl) hprefix)

/-- What a step of the main thread can do. -/
structure MainTurn (s t : Process S P) : Prop where
  pc : t.sys.node.pc = s.sys.node.pc
  thread : s.hasThread = true → t.hasThread = true
  joins : t.main.joined = true → t.hasThread = true →
    s.sys.node.pc = .exited ∨ (s.main.joined = true ∧ s.hasThread = true)
  stays : s.main.joined = true → t.main.joined = true ∧ t.writer = s.writer
  writer : t.main.writerJoined = true → t.writer = .finished ∨
    (s.main.writerJoined = true ∧ t.writer = s.writer)
  acts : t.trace = s.trace ∨ ∃ a, t.trace = s.trace ++ [a] ∧ s.main.joined = true ∧
    a.isGrabThread = false ∧ a ≠ .writerSync ∧ (a = .closeLog → s.main.writerJoined = true)

theorem Pc.eq_exited {pc : Pc S P} (h : pc.hasExited = true) : pc = .exited := by
  cases pc <;> first | rfl | cases h

theorem MainPc.joined_of_writerJoined {main : MainPc} (h : main.writerJoined = true) :
    main.joined = true := by
  cases main <;> first | rfl | cases h

theorem MainTurn.before {s t : Process S P} (hs : s.main.joined = false)
    (ht : t.main.joined = false) (hpc : t.sys.node.pc = s.sys.node.pc)
    (hthread : s.hasThread = true → t.hasThread = true) (htrace : t.trace = s.trace) :
    MainTurn s t where
  pc := hpc
  thread := hthread
  joins := by simp [ht]
  stays := by simp [hs]
  writer := by
    intro hwriter
    have hjoined := MainPc.joined_of_writerJoined hwriter
    rw [ht] at hjoined
    cases hjoined
  acts := .inl htrace

theorem MainTurn.after {s t : Process S P} (hs : s.main.joined = true)
    (ht : t.main.joined = true) (hpc : t.sys.node.pc = s.sys.node.pc)
    (hthread : t.hasThread = s.hasThread) (hwriter : t.writer = s.writer)
    (hjoins : t.main.writerJoined = true → s.writer = .finished ∨ s.main.writerJoined = true)
    (hacts : t.trace = s.trace ∨ ∃ a, t.trace = s.trace ++ [a] ∧ a.isGrabThread = false ∧
      a ≠ .writerSync ∧ (a = .closeLog → s.main.writerJoined = true)) :
    MainTurn s t where
  pc := hpc
  thread := by simp [hthread]
  joins := by
    intro _ hone
    exact .inr ⟨hs, hthread ▸ hone⟩
  stays := fun _ => ⟨ht, hwriter⟩
  writer := by
    intro hjoined
    rw [hwriter]
    exact (hjoins hjoined).imp id fun hmain => ⟨hmain, rfl⟩
  acts := by
    refine hacts.imp id ?_
    rintro ⟨a, htrace, hgrab, hsync, hclose⟩
    exact ⟨a, htrace, hs, hgrab, hsync, hclose⟩

theorem mainTurn_of_step {D : Device S P M G R A} {s t : Process S P} {event : MainEvent A}
    (h : s.mainStep D event = some t) : MainTurn s t := by
  cases event with
  | initLog fd | startThread | endSpin | setStop =>
      simp only [Process.mainStep] at h
      split_ifs at h with hmain
      obtain rfl := Option.some.inj h
      apply MainTurn.before <;> simp [MainPc.joined, Process.setBoxFd, hmain]
  | initHid _ | initBackend _ | unknownBackend =>
      simp only [Process.mainStep] at h
      split_ifs at h with hmain
      all_goals
        obtain rfl := Option.some.inj h
        apply MainTurn.before <;> simp [MainPc.joined, hmain]
  | joinGrab =>
      simp only [Process.mainStep] at h
      split_ifs at h with hmain
      obtain rfl := Option.some.inj h
      refine ⟨rfl, id, ?_, ?_, ?_, .inl rfl⟩
      · intro _ hone
        exact .inl (Pc.eq_exited (hmain.2 hone))
      · simp [MainPc.joined, hmain.1]
      · simp [MainPc.writerJoined]
  | stopBackend | destroyBackend =>
      simp only [Process.mainStep, Process.stopDevice] at h
      split_ifs at h with hmain
      all_goals
        obtain rfl := Option.some.inj h
        apply MainTurn.after <;>
          simp [MainPc.joined, MainPc.writerJoined, hmain, Action.isGrabThread]
  | closeStamper | destroyStamper | closeHid | syncLog | unmapLog | closeLog =>
      simp only [Process.mainStep] at h
      split_ifs at h with hmain
      obtain rfl := Option.some.inj h
      apply MainTurn.after <;>
        simp [MainPc.joined, MainPc.writerJoined, hmain, Process.closeStamper, Process.setBoxFd,
          Action.isGrabThread]
  | stopWriter | joinWriter =>
      simp only [Process.mainStep] at h
      split_ifs at h with hmain
      all_goals
        obtain rfl := Option.some.inj h
        apply MainTurn.after <;> simp [MainPc.joined, MainPc.writerJoined, hmain]

theorem Orderly.not_inHand {s : Process S P} (h : Orderly s) (hmain : s.main.joined = true) :
    s.sys.node.pc.inHand = false := by
  cases hthread : s.hasThread with
  | false => rw [h.noThread hthread]; rfl
  | true => rw [h.joined hmain hthread]; rfl

theorem Orderly.main {s t : Process S P} (h : Orderly s) (hturn : MainTurn s t) : Orderly t where
  noThread := by
    intro hthread
    rw [hturn.pc]
    apply h.noThread
    by_contra hone
    rw [Bool.not_eq_false] at hone
    rw [hturn.thread hone] at hthread
    cases hthread
  joined := by
    intro hmain hthread
    rw [hturn.pc]
    obtain hexit | ⟨hmain, hthread⟩ := hturn.joins hmain hthread
    · exact hexit
    · exact h.joined hmain hthread
  freed := by
    intro b hb hfrees
    obtain htrace | ⟨a, htrace, hmain, -⟩ := hturn.acts
    · rw [htrace] at hb
      exact (hturn.stays (h.freed b hb hfrees)).1
    · exact (hturn.stays hmain).1
  writer := by
    have hkept : s.main.writerJoined = true ∨ .closeLog ∈ s.trace → t.writer = .finished := by
      intro hs
      have hmain : s.main.joined = true :=
        hs.elim MainPc.joined_of_writerJoined fun hmem => h.freed _ hmem rfl
      rw [(hturn.stays hmain).2]
      exact h.writer hs
    rintro (hjoined | hmem)
    · exact (hturn.writer hjoined).elim id fun hs => hkept (.inl hs.1)
    · apply hkept
      obtain htrace | ⟨a, htrace, -, -, -, hclose⟩ := hturn.acts
      · exact .inr (htrace ▸ hmem)
      · rw [htrace, List.mem_append, List.mem_singleton] at hmem
        exact hmem.symm.imp (fun ha => hclose ha.symm) id
  trace := by
    rw [hturn.pc]
    obtain htrace | ⟨a, htrace, hmain, hgrab, hsync, -⟩ := hturn.acts
    · rw [htrace]
      exact h.trace
    · rw [htrace]
      exact h.trace.act hgrab (fun ha => absurd ha hsync) fun _ => h.not_inHand hmain

theorem frames_grabCalls {E : Env S P M G R} {s t : System S P} {event : Event M G R}
    (h : System.Step E s event t) :
    Runs.run Ledger.step (inHand s.node.pc.inHand)
        (frames ((grabCalls event t).map .grabThread)) = some (inHand t.node.pc.inHand) := by
  cases h with
  | env hmove => rfl
  | grab hpc hgrab =>
      unfold Node.grabbed
      split_ifs <;> rw [hpc] <;> rfl
  | readLow hpc =>
      unfold Node.stamped
      split <;> rw [hpc] <;> rfl
  | copy hpc =>
      unfold Node.copied
      split_ifs <;> rw [hpc] <;> rfl
  | exit hpc | count hpc | tryOpen hpc | logCbk hpc | publish hpc | logPub hpc
  | release hpc hrelease => rw [hpc]; rfl

/-- A thread that has left `loop` makes no call. -/
theorem grabCalls_of_exited {E : Env S P M G R} {s t : System S P} {event : Event M G R}
    (h : System.Step E s event t) (hexit : s.node.pc = .exited) :
    grabCalls event t = [] ∧ t.node = s.node := by
  cases h with
  | env hmove => exact ⟨rfl, rfl⟩
  | exit hpc | grab hpc hgrab | count hpc | tryOpen hpc | readLow hpc | copy hpc | logCbk hpc
  | publish hpc | logPub hpc | release hpc hrelease =>
      rw [hexit] at hpc
      cases hpc

theorem grabCalls_of_noThread {E : Env S P M G R} {s : Process S P} {t : System S P}
    {event : Event M G R} (h : System.Step E s.sys event t) (hmay : s.mayTake event = true)
    (hthread : s.hasThread = false) : grabCalls event t = [] ∧ t.node = s.sys.node := by
  cases h with
  | env hmove => exact ⟨rfl, rfl⟩
  | exit hpc | grab hpc hgrab | count hpc | tryOpen hpc | readLow hpc | copy hpc | logCbk hpc
  | publish hpc | logPub hpc | release hpc hrelease => simp [Process.mayTake, hthread] at hmay

theorem Orderly.sysStep {D : Device S P M G R A} {s t : Process S P} {event : Event M G R}
    (h : Orderly s) (hstep : s.sysStep D event = some t) : Orderly t := by
  unfold Process.sysStep at hstep
  split_ifs at hstep with hmay
  obtain ⟨sys, hsys, rfl⟩ := Option.map_eq_some_iff.mp hstep
  replace hsys := System.Step.of_step hsys
  have hidle : s.main.joined = true →
      grabCalls event sys = [] ∧ sys.node = s.sys.node := by
    intro hmain
    cases hthread : s.hasThread with
    | false => exact grabCalls_of_noThread hsys hmay hthread
    | true => exact grabCalls_of_exited hsys (h.joined hmain hthread)
  refine ⟨?_, ?_, ?_, ?_, ?_⟩
  · intro hthread
    rw [(grabCalls_of_noThread hsys hmay hthread).2]
    exact h.noThread hthread
  · intro hmain hthread
    rw [(hidle hmain).2]
    exact h.joined hmain hthread
  · intro a ha hfrees
    obtain ha | ha := List.mem_append.mp ha
    · exact h.freed a ha hfrees
    · obtain ⟨call, -, rfl⟩ := List.mem_map.mp ha
      cases hfrees
  · rintro (hjoined | hmem)
    · exact h.writer (.inl hjoined)
    · obtain hmem | hmem := List.mem_append.mp hmem
      · exact h.writer (.inr hmem)
      · exact absurd hmem (not_mem_calls rfl)
  · apply h.trace.calls _ (frames_grabCalls hsys)
    intro a ha hfrees
    exact (hidle (h.freed a ha hfrees)).1

theorem Orderly.testStep {D : Device S P M G R A} {s t : Process S P} {before after : Gate}
    {goOn : Bool} (h : Orderly s) (hstep : s.testStep D before after goOn = some t) :
    Orderly t := by
  unfold Process.testStep at hstep
  split at hstep
  · rename_i hpc
    split_ifs at hstep with hgate hgo
    · obtain rfl := Option.some.inj hstep
      exact ⟨h.noThread, h.joined, h.freed, h.writer, h.trace⟩
    · obtain ⟨sys, hexit, rfl⟩ := Option.map_eq_some_iff.mp hstep
      cases System.Step.of_step hexit
      refine ⟨?_, fun _ _ => rfl, h.freed, h.writer, ?_⟩
      · intro hthread
        rw [hgate.1] at hthread
        cases hthread
      · have htrace := h.trace
        rw [hpc] at htrace
        exact htrace
  · cases hstep

theorem Orderly.writerStep {s t : Process S P} (h : Orderly s)
    (hstep : s.writerStep = some t) : Orderly t := by
  have hopen : s.writer ≠ .finished → ¬ (s.main.writerJoined = true ∨ .closeLog ∈ s.trace) :=
    fun hrunning hs => hrunning (h.writer hs)
  unfold Process.writerStep at hstep
  split at hstep
  case h_1 | h_2 => cases hstep
  case h_3 hwriter | h_4 hwriter | h_5 hwriter | h_6 hwriter =>
    obtain rfl := Option.some.inj hstep
    refine ⟨h.noThread, h.joined, h.freed, ?_, h.trace⟩
    intro hs
    exact absurd hs (hopen (by simp [hwriter]))
  case h_7 hwriter =>
    obtain rfl := Option.some.inj hstep
    have hclosed := hopen (by simp [hwriter])
    rw [not_or] at hclosed
    refine ⟨h.noThread, h.joined, ?_, ?_, ?_⟩
    · intro a ha hfrees
      obtain ha | ha := List.mem_append.mp ha
      · exact h.freed a ha hfrees
      · obtain rfl := List.mem_singleton.mp ha
        cases hfrees
    · rintro (hjoined | hmem)
      · exact absurd hjoined hclosed.1
      · obtain hmem | hmem := List.mem_append.mp hmem
        · exact absurd hmem hclosed.2
        · cases List.mem_singleton.mp hmem
    · apply h.trace.act rfl (fun _ => hclosed.2)
      intro hstop
      cases hstop

theorem Orderly.step {D : Device S P M G R A} {s t : Process S P}
    {event : ProcessEvent M G R A} (h : Orderly s) (hstep : s.step D event = some t) :
    Orderly t := by
  unfold Process.step at hstep
  split at hstep
  · cases hstep
  · cases event with
    | sys event => exact h.sysStep hstep
    | testStop => exact h.testStep hstep
    | testOk => exact h.testStep hstep
    | shutdownRequested =>
        obtain rfl := Option.some.inj hstep
        exact ⟨h.noThread, h.joined, h.freed, h.writer, h.trace⟩
    | main event => exact h.main (mainTurn_of_step hstep)
    | writer => exact h.writerStep hstep

theorem orderly_init (p : Params) (w : S) : Orderly (Process.init p w : Process S P) where
  noThread := fun _ => rfl
  joined := fun hmain => by cases hmain
  freed := fun _ ha => by cases ha
  writer := by
    rintro (hjoined | hmem)
    · cases hjoined
    · cases hmem
  trace := by
    refine ⟨.nil, .nil, rfl, ?_⟩
    intro earlier hprefix
    simp [Process.init] at hprefix

/-- **The teardown never races the workers.** In every interleaving of the three threads, however
the constructor ended, and whenever the destructor began or `ok` turned false: once something is
freed the grab thread makes no call, every valid frame has been released when `stop` is called on
the backend, and the writer does not sync a closed descriptor. -/
theorem teardown_orderly (D : Device S P M G R A) (p : Params) (w : S)
    (events : List (ProcessEvent M G R A)) (s : Process S P)
    (h : Runs.run (Process.step D) (Process.init p w) events = some s) :
    s.trace.Pairwise (fun earlier later => earlier.frees = true → later.isGrabThread = false) ∧
      (∀ earlier, earlier ++ [.stopBackend] <+: s.trace →
        outstanding (frames earlier) = some []) ∧
      s.trace.Pairwise (fun earlier later => earlier = .closeLog → later ≠ .writerSync) := by
  have horderly : Orderly s :=
    Runs.Reachable.invariant (fun _ _ _ hs hstep => hs.step hstep) (orderly_init p w) ⟨events, h⟩
  exact ⟨horderly.trace.afterFree, horderly.trace.settled, horderly.trace.afterClose⟩

def opencvParams : Params := loadParams { backend := some "opencv", compressed := some true }

/-- The destructor begins while a frame is in hand and the writer is about to sync. -/
def busyTeardown : List (ProcessEvent V4l2Move DqbufAnswer Bool StartAnswer) :=
  [.main (.initLog 3), .writer, .main (.initHid true), .main (.initBackend fullStart),
   .main .startThread, .testStop, .testOk, .sys (.grab (.buffer 2 0 3 5)), .main .endSpin,
   .main .setStop, .writer, .writer, .sys .count, .sys (.tryOpen ⟨none, none⟩), .sys (.readLow 9),
   .sys .copy, .sys (.logCbk 9), .writer, .sys .publish, .sys (.logPub 11), .sys (.release true),
   .testStop, .main .joinGrab, .main .stopBackend, .main .closeStamper, .writer, .main .closeHid,
   .main .stopWriter, .writer, .main .joinWriter, .main .syncLog, .main .unmapLog, .main .closeLog,
   .main .destroyBackend, .main .destroyStamper]

theorem teardown_orderly_busy : ∃ s,
    Runs.run (Process.step (v4l2Device noShapes))
        (Process.init opencvParams (V4l2World.fresh fun _ _ => 7)) busyTeardown = some s ∧
      s.main = .done ∧
      s.trace = [.grabThread (.grab true), .grabThread .pushCount, .grabThread .tryOpen,
        .grabThread .readLow, .grabThread .copy, .grabThread .tCaptureNs, .grabThread .logCbk,
        .grabThread .publish, .grabThread .logPub, .grabThread .release, .stopBackend,
        .closeStamper, .writerSync, .syncLog, .unmapLog, .closeLog, .stopBackend,
        .closeStamper] ∧
      s.trace.Pairwise (fun earlier later =>
        earlier.frees = true → later.isGrabThread = false) := by
  refine ⟨_, rfl, rfl, rfl, ?_⟩
  exact (teardown_orderly (v4l2Device noShapes) opencvParams (V4l2World.fresh fun _ _ => 7)
    busyTeardown _ rfl).1

/-! ### The grab thread is the system -/

section System

variable (D : Device S P M G R A) (p : Params) (Before : S → Prop)

/-- `start` succeeded on a device that was as `Before` says, and the system has run from there. -/
def Started (s : Process S P) : Prop :=
  ∃ (fd : Nat) (w : S) (answer : A) (env : S), Before w ∧
    D.start p (imageFormat p) w answer = (true, env) ∧
      Runs.Reachable (System.step D.toEnv) ⟨Node.init p {} fd, env⟩ s.sys

structure Constructing (s : Process S P) : Prop where
  unopened : s.main = .initLog →
    s.hasThread = false ∧ s.sys.node = { Node.init p with box := {} } ∧ Before s.sys.env
  waiting : s.main = .initHid ∨ s.main = .initBackend →
    s.hasThread = false ∧ ∃ fd : Nat, s.sys.node = Node.init p {} fd ∧ Before s.sys.env
  started : s.main = .startThread ∨ s.hasThread = true → s.main.joined = false →
    Started D p Before s

variable {D p Before}

theorem Started.step {s : Process S P} {event : Event M G R} {sys : System S P}
    (h : Started D p Before s) (hstep : System.step D.toEnv s.sys event = some sys) :
    Started D p Before { s with sys } := by
  obtain ⟨fd, w, answer, env, hw, hstart, hreach⟩ := h
  exact ⟨fd, w, answer, env, hw, hstart, hreach.trans (.of_step hstep)⟩

theorem before_of_noThread (hbefore : ∀ w m t, Before w → D.move w m = some t → Before t)
    {s : Process S P} {t : System S P} {event : Event M G R}
    (h : System.Step D.toEnv s.sys event t) (hmay : s.mayTake event = true)
    (hthread : s.hasThread = false) (hw : Before s.sys.env) : Before t.env := by
  cases h with
  | env hmove => exact hbefore _ _ _ hw hmove
  | exit hpc | grab hpc hgrab | count hpc | tryOpen hpc | readLow hpc | copy hpc | logCbk hpc
  | publish hpc | logPub hpc | release hpc hrelease => simp [Process.mayTake, hthread] at hmay

theorem Constructing.sys {s : Process S P} {event : Event M G R} {sys : System S P}
    (h : Constructing D p Before s) (hstep : System.step D.toEnv s.sys event = some sys)
    (hthread : s.hasThread = false →
      sys.node = s.sys.node ∧ (Before s.sys.env → Before sys.env))
    (gate : Gate) (trace : List Action) :
    Constructing D p Before { s with sys, gate, trace } where
  unopened := by
    intro hmain
    obtain ⟨hnone, hnode, hw⟩ := h.unopened hmain
    exact ⟨hnone, (hthread hnone).1.trans hnode, (hthread hnone).2 hw⟩
  waiting := by
    intro hmain
    obtain ⟨hnone, fd, hnode, hw⟩ := h.waiting hmain
    exact ⟨hnone, fd, (hthread hnone).1.trans hnode, (hthread hnone).2 hw⟩
  started := fun hone hmain => (h.started hone hmain).step hstep

theorem Constructing.of_joined {s : Process S P} (h : s.main.joined = true) :
    Constructing D p Before s where
  unopened := by
    intro hmain
    rw [hmain] at h
    cases h
  waiting := by
    rintro (hmain | hmain) <;> rw [hmain] at h <;> cases h
  started := by
    intro _ hmain
    rw [h] at hmain
    cases hmain

theorem Constructing.main {s t : Process S P} {event : MainEvent A} (h : Constructing D p Before s)
    (hstep : s.mainStep D event = some t) : Constructing D p Before t := by
  cases event with
  | initLog fd =>
      simp only [Process.mainStep] at hstep
      split_ifs at hstep with hmain
      obtain rfl := Option.some.inj hstep
      obtain ⟨hnone, hnode, hw⟩ := h.unopened hmain
      refine ⟨by simp, ?_, by simp [hnone]⟩
      intro _
      refine ⟨hnone, fd, ?_, hw⟩
      rw [Process.setBoxFd, hnode]
      rfl
  | initHid ok =>
      simp only [Process.mainStep] at hstep
      split_ifs at hstep with hmain hok
      · obtain rfl := Option.some.inj hstep
        exact ⟨by simp, fun _ => h.waiting (.inl hmain), by simp [(h.waiting (.inl hmain)).1]⟩
      · obtain rfl := Option.some.inj hstep
        exact ⟨by simp, by simp, by simp [(h.waiting (.inl hmain)).1]⟩
  | unknownBackend =>
      simp only [Process.mainStep] at hstep
      split_ifs at hstep with hmain
      obtain rfl := Option.some.inj hstep
      exact ⟨by simp, by simp, by simp [(h.waiting (.inr hmain.1)).1]⟩
  | initBackend answer =>
      simp only [Process.mainStep] at hstep
      split_ifs at hstep with hmain hok
      · obtain rfl := Option.some.inj hstep
        obtain ⟨-, fd, hnode, hw⟩ := h.waiting (.inr hmain.1)
        refine ⟨by simp, by simp, ?_⟩
        intro _ _
        have hp : s.sys.node.p = p := by rw [hnode]; rfl
        rw [hp] at hok ⊢
        refine ⟨fd, s.sys.env, answer, _, hw, Prod.ext hok rfl, ?_⟩
        rw [hnode]
        exact .refl _
      · obtain rfl := Option.some.inj hstep
        exact ⟨by simp, by simp, by simp [(h.waiting (.inr hmain.1)).1]⟩
  | startThread =>
      simp only [Process.mainStep] at hstep
      split_ifs at hstep with hmain
      obtain rfl := Option.some.inj hstep
      refine ⟨by simp, by simp, ?_⟩
      intro _ _
      exact h.started (.inl hmain) (by rw [hmain]; rfl)
  | endSpin | setStop =>
      simp only [Process.mainStep] at hstep
      split_ifs at hstep with hmain
      obtain rfl := Option.some.inj hstep
      refine ⟨by simp, by simp, ?_⟩
      intro hone _
      exact h.started (.inr (by simpa using hone)) (by rw [hmain]; rfl)
  | joinGrab | closeStamper | closeHid | joinWriter | syncLog | unmapLog | closeLog
  | destroyStamper =>
      simp only [Process.mainStep] at hstep
      split_ifs at hstep with hmain
      obtain rfl := Option.some.inj hstep
      exact .of_joined rfl
  | stopBackend | destroyBackend | stopWriter =>
      simp only [Process.mainStep, Process.stopDevice] at hstep
      split_ifs at hstep with hmain
      all_goals
        obtain rfl := Option.some.inj hstep
        exact .of_joined rfl

theorem Constructing.step (hbefore : ∀ w m t, Before w → D.move w m = some t → Before t)
    {s t : Process S P} {event : ProcessEvent M G R A} (h : Constructing D p Before s)
    (hstep : s.step D event = some t) : Constructing D p Before t := by
  unfold Process.step at hstep
  split at hstep
  · cases hstep
  · cases event with
    | sys event =>
        dsimp only [Process.sysStep] at hstep
        split_ifs at hstep with hmay
        obtain ⟨sys, hsys, rfl⟩ := Option.map_eq_some_iff.mp hstep
        apply h.sys hsys
        intro hnone
        exact ⟨(grabCalls_of_noThread (.of_step hsys) hmay hnone).2,
          before_of_noThread hbefore (.of_step hsys) hmay hnone⟩
    | testStop | testOk =>
        dsimp only [Process.testStep] at hstep
        split at hstep
        · split_ifs at hstep with hgate hgo
          · obtain rfl := Option.some.inj hstep
            exact ⟨h.unopened, h.waiting, h.started⟩
          · obtain ⟨sys, hsys, rfl⟩ := Option.map_eq_some_iff.mp hstep
            apply h.sys hsys
            intro hnone
            rw [hgate.1] at hnone
            cases hnone
        · cases hstep
    | shutdownRequested =>
        obtain rfl := Option.some.inj hstep
        exact ⟨h.unopened, h.waiting, h.started⟩
    | main event => exact h.main hstep
    | writer =>
        dsimp only [Process.writerStep] at hstep
        split at hstep
        case h_1 | h_2 => cases hstep
        all_goals
          obtain rfl := Option.some.inj hstep
          exact ⟨h.unopened, h.waiting, h.started⟩

/-- **The grab thread of the process is the system.** From the successful `start` to the join, the
process does to the node and to the backend what some run of the system does, so what holds of every
run of the system holds there. -/
theorem constructing_reachable (hbefore : ∀ w m t, Before w → D.move w m = some t → Before t)
    {w : S} (hw : Before w) {s : Process S P}
    (h : Runs.Reachable (Process.step D) (Process.init p w) s) : Constructing D p Before s := by
  have hinit : Constructing D p Before (Process.init p w) := by
    refine ⟨fun _ => ⟨rfl, rfl, hw⟩, ?_, ?_⟩
    · rintro (hmain | hmain) <;> cases hmain
    · rintro (hmain | hone)
      · cases hmain
      · cases hone
  exact h.invariant (fun _ _ _ hs hstep => hs.step hbefore hstep) hinit

end System

end EconRos2Driver
