import EconRos2Driver.Proof.Teardown

/-!
# The teardown ends

Once the destructor has set `stop_`, every step of the main thread and of the grab thread uses up a
part of `rank`, and so does every step of the writer from the moment `running` is false; before that
the writer goes round its loop as often as it likes. The only waits are the two joins, and whoever
is waited for can go on, provided that `grab` returns, be it without a frame, and `release` returns.
-/

namespace EconRos2Driver

variable {S P M G R A : Type}

def Pc.rank : Pc S P → Nat
  | .exited | .sigbus => 0
  | .head => 1
  | .releasing _ => 2
  | .sent _ _ => 3
  | .recorded _ _ _ _ => 4
  | .copied _ _ => 5
  | .stamped _ _ => 6
  | .opened _ => 7
  | .counted _ => 8
  | .grabbed _ => 9

/-- One more iteration can follow a test of `stop_` that came too early. -/
def Gate.rank : Gate → Nat
  | .head => 0
  | .entered => 9
  | .stopRead => 10

def MainPc.rank : MainPc → Nat
  | .initLog | .initHid | .initBackend | .startThread | .spin | .setStop => 12
  | .joinGrab => 11
  | .stopBackend => 10
  | .closeStamper => 9
  | .closeHid => 8
  | .stopWriter => 7
  | .joinWriter => 6
  | .syncLog => 5
  | .unmapLog => 4
  | .closeLog => 3
  | .destroyBackend => 2
  | .destroyStamper => 1
  | .done => 0

/-- What the writer has still to do when it finds that it is to end. -/
def WriterPc.rank : WriterPc → Nat
  | .notStarted | .finished => 0
  | .testing => 1
  | .retesting | .syncing => 2
  | .sleeping | .checking => 3

def MainPc.stopping (main : MainPc) : Bool := main == .joinGrab || main.joined

/-- From the start of the writer to the end of its join. -/
def MainPc.writing : MainPc → Bool
  | .initHid | .initBackend | .startThread | .spin | .setStop | .joinGrab | .stopBackend
  | .closeStamper | .closeHid | .stopWriter => true
  | _ => false

def MainPc.logOpen (main : MainPc) : Bool :=
  main.writing || main == .joinWriter || main.writerJoined

namespace Process

def rank (s : Process S P) : Nat :=
  s.main.rank + s.sys.node.pc.rank + s.gate.rank + if s.running then 3 else s.writer.rank

/-- How the members of the process go with the place of the main thread. -/
structure Phased (s : Process S P) : Prop where
  stop : s.stop = s.main.stopping
  running : s.running = s.main.writing
  fd : s.main.logOpen = true → 0 ≤ s.sys.node.box.fd
  writer : s.main ≠ .initLog → s.writer ≠ .notStarted
  ended : s.main.logOpen = false → s.main ≠ .initLog → s.writer = .finished
  joined : s.main.writerJoined = true → s.writer = .finished

end Process

open Process

theorem box_fd_of_step {E : Env S P M G R} {s t : System S P} {event : Event M G R}
    (h : System.Step E s event t) : t.node.box.fd = s.node.box.fd := by
  cases h with
  | logCbk =>
      dsimp only [Node.recorded, Blackbox.logCbk]
      split_ifs with hfd hfull
      · rfl
      · rfl
      · rfl
  | logPub =>
      dsimp only [Node.logged, Blackbox.logPub]
      split_ifs
      · rfl
      · rfl
  | readLow =>
      dsimp only [Node.stamped]
      split
      · rfl
      · rfl
  | copy =>
      dsimp only [Node.copied]
      split_ifs
      · rfl
      · rfl
      · rfl
  | count => rw [Node.counted, Node.account_eq]
  | env | exit | grab | tryOpen | publish | release => rfl

variable {D : Device S P M G R A} {s t : Process S P}

theorem phased_init (p : Params) (w : S) : Phased (Process.init p w : Process S P) where
  stop := rfl
  running := rfl
  fd h := by cases h
  writer h := absurd rfl h
  ended _ h := absurd rfl h
  joined h := by cases h

theorem Process.Phased.mainStep (h : Phased s) {event : MainEvent A}
    (hstep : s.mainStep D event = some t) : Phased t := by
  obtain ⟨hstop, hrunning, hfd, hwriter, hended, hjoined⟩ := h
  cases event with
  | initLog fd =>
      simp only [Process.mainStep] at hstep
      split_ifs at hstep with hmain
      obtain rfl := Option.some.inj hstep
      rw [hmain] at hstop
      constructor <;>
        simp [setBoxFd, MainPc.stopping, MainPc.writing, MainPc.logOpen, MainPc.joined,
          MainPc.writerJoined, hstop]
  | joinGrab | joinWriter =>
      simp only [Process.mainStep] at hstep
      split_ifs at hstep with hmain
      obtain rfl := Option.some.inj hstep
      rw [hmain.1] at hstop hrunning hfd hwriter
      constructor <;>
        simp_all [MainPc.stopping, MainPc.writing, MainPc.logOpen, MainPc.joined,
          MainPc.writerJoined]
  | stopWriter =>
      simp only [Process.mainStep] at hstep
      split_ifs at hstep with hmain hclosed
      · rw [hmain] at hfd
        exact absurd hclosed (Int.not_lt.mpr (hfd rfl))
      · obtain rfl := Option.some.inj hstep
        rw [hmain] at hstop hfd hwriter
        constructor <;>
          simp_all [MainPc.stopping, MainPc.writing, MainPc.logOpen, MainPc.joined,
            MainPc.writerJoined]
  | initHid _ | unknownBackend | initBackend _ | startThread | endSpin | setStop | stopBackend
  | closeStamper | closeHid | syncLog | unmapLog | closeLog | destroyBackend | destroyStamper =>
      simp only [Process.mainStep, Process.stopDevice] at hstep
      split_ifs at hstep with hmain
      all_goals
        obtain rfl := Option.some.inj hstep
        simp only [hmain] at hstop hrunning hfd hwriter hended hjoined
        constructor <;>
          simp_all [MainPc.stopping, MainPc.writing, MainPc.logOpen, MainPc.joined,
            MainPc.writerJoined, setBoxFd, Process.closeStamper]

theorem Process.Phased.of_sys (h : Phased s) {event : Event M G R} {sys : System S P}
    (hsys : System.step D.toEnv s.sys event = some sys) (gate : Gate) (trace : List Action) :
    Phased { s with sys, gate, trace } where
  stop := h.stop
  running := h.running
  fd hmain := box_fd_of_step (.of_step hsys) ▸ h.fd hmain
  writer := h.writer
  ended := h.ended
  joined := h.joined

theorem writerStep_spec (hstep : s.writerStep = some t) :
    ∃ writer trace, t = { s with writer, trace } ∧ s.writer ≠ .finished ∧ writer ≠ .notStarted ∧
      (s.running = false → writer.rank < s.writer.rank) ∧
      (trace = s.trace ∨ trace = s.trace ++ [.writerSync]) := by
  unfold Process.writerStep at hstep
  split at hstep
  · cases hstep
  · cases hstep
  · next hwriter =>
      obtain rfl := Option.some.inj hstep
      refine ⟨_, _, rfl, by simp [hwriter], by split_ifs <;> simp, fun hrunning => ?_, .inl rfl⟩
      rw [hrunning, hwriter]
      decide
  · next hwriter =>
      obtain rfl := Option.some.inj hstep
      exact ⟨_, _, rfl, by simp [hwriter], by simp, fun _ => by rw [hwriter]; decide, .inl rfl⟩
  · next hwriter =>
      obtain rfl := Option.some.inj hstep
      refine ⟨_, _, rfl, by simp [hwriter], by split_ifs <;> simp, fun hrunning => ?_, .inl rfl⟩
      rw [hrunning, hwriter]
      decide
  · next hwriter =>
      obtain rfl := Option.some.inj hstep
      refine ⟨_, _, rfl, by simp [hwriter], by split_ifs <;> simp, fun _ => ?_, .inl rfl⟩
      rw [hwriter]
      split_ifs <;> decide
  · next hwriter =>
      obtain rfl := Option.some.inj hstep
      exact ⟨_, _, rfl, by simp [hwriter], by simp, fun _ => by rw [hwriter]; decide, .inr rfl⟩

theorem Process.Phased.writerStep (h : Phased s) (hstep : s.writerStep = some t) : Phased t := by
  obtain ⟨writer, trace, rfl, hnot, hstarted, -⟩ := writerStep_spec hstep
  refine ⟨h.stop, h.running, h.fd, fun _ => hstarted, ?_, ?_⟩
  · intro hlog hmain
    exact absurd (h.ended hlog hmain) hnot
  · intro hjoined
    exact absurd (h.joined hjoined) hnot

theorem Process.Phased.step (h : Phased s) {event : ProcessEvent M G R A}
    (hstep : s.step D event = some t) : Phased t := by
  unfold Process.step at hstep
  split at hstep
  · cases hstep
  · cases event with
    | sys event =>
        dsimp only [Process.sysStep] at hstep
        split_ifs at hstep with hmay
        obtain ⟨sys, hsys, rfl⟩ := Option.map_eq_some_iff.mp hstep
        exact h.of_sys hsys _ _
    | testStop | testOk =>
        dsimp only [Process.testStep] at hstep
        split at hstep
        · split_ifs at hstep with hgate hgo
          · obtain rfl := Option.some.inj hstep
            exact ⟨h.stop, h.running, h.fd, h.writer, h.ended, h.joined⟩
          · obtain ⟨sys, hsys, rfl⟩ := Option.map_eq_some_iff.mp hstep
            exact h.of_sys hsys _ _
        · cases hstep
    | shutdownRequested =>
        obtain rfl := Option.some.inj hstep
        exact ⟨h.stop, h.running, h.fd, h.writer, h.ended, h.joined⟩
    | main event => exact h.mainStep hstep
    | writer => exact h.writerStep hstep

theorem phased_reachable {p : Params} {w : S}
    (h : Runs.Reachable (Process.step D) (Process.init p w) s) : Phased s :=
  h.invariant (fun _ _ _ hs hstep => hs.step hstep) (phased_init p w)

/-- `grab` returns, be it without a frame, and so does `release`. -/
structure Device.Returns (D : Device S P M G R A) : Prop where
  grab : ∀ w, ∃ answer, (D.grab w answer).isSome = true
  release : ∀ w, ∃ answer, (D.release w answer).isSome = true

theorem gstDevice_returns (content : Nat → Nat → UInt8) : (gstDevice content).Returns where
  grab _ := ⟨.timeout, rfl⟩
  release _ := ⟨(), rfl⟩

end EconRos2Driver
