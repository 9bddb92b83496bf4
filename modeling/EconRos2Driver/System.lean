import EconRos2Driver.Node
import EconRos2Driver.Library.Runs

/-!
# The grab thread and the rest of the world

`Env` adds to a backend what else happens around the grab thread: the moves of the other threads and
processes, and the file behind the shared timestamp. `System.step` interleaves these moves with the
steps of `EconRos2Driver::loop`; each event of the grab thread carries what the outside answers to
the calls of that step. A run of the system is a list of events, so a statement about all runs is a
statement about every interleaving and every answer.

`Step` is the same relation as rules, one for each event, and is what proofs split on.
-/

namespace EconRos2Driver

structure Env (S P M G R : Type) extends CameraBackend S P G R where
  move : S → M → Option S
  timeshare : S → Option Timeshare

structure System (S P : Type) where
  node : Node S P
  env : S

inductive Event (M G R : Type) where
  | env (move : M)
  | exit
  | grab (answer : G)
  | count
  | tryOpen (answer : OpenAnswer)
  | readLow (now : Int)
  | copy
  | logCbk (now : UInt64)
  | publish
  | logPub (now : UInt64)
  | release (answer : R)

variable {S P M G R : Type}

def Env.frameBytes (E : Env S P M G R) (s : S) (frame : Frame P) (size : Nat) : List UInt8 :=
  match frame.data with
  | some ptr => E.bytes s ptr size
  | none => []

/-- The contract of `Frame`, on a set of states that the backend does not leave. -/
structure Env.StableViews (E : Env S P M G R) (I : S → Prop) : Prop where
  move : ∀ s m t, I s → E.move s m = some t → I t
  grab : ∀ s g frame t, I s → E.grab s g = some (frame, t) → I t
  release : ∀ s r t, I s → E.release s r = some t → I t
  stable : ∀ s g frame t, I s → E.grab s g = some (frame, t) → frame.valid = true →
    ∀ u, Runs.Reachable E.move t u → E.view u frame = E.view t frame

namespace System

variable (E : Env S P M G R)

def step (s : System S P) : Event M G R → Option (System S P)
  | .env move => (E.move s.env move).map fun env => { s with env }
  | .exit => match s.node.pc with
      | .head => some { s with node := { s.node with pc := .exited } }
      | _ => none
  | .grab answer => match s.node.pc with
      | .head => (E.grab s.env answer).map fun (frame, env) =>
          { node := s.node.grabbed frame (E.view env frame), env }
      | _ => none
  | .count => match s.node.pc with
      | .grabbed frame => some { s with node := s.node.counted frame (E.pushCount s.env) }
      | _ => none
  | .tryOpen answer => match s.node.pc with
      | .counted frame =>
          some { s with node := s.node.opened frame (E.timeshare s.env) answer }
      | _ => none
  | .readLow now => match s.node.pc with
      | .opened frame =>
          some { s with node := s.node.stamped frame s.env (E.timeshare s.env) now }
      | _ => none
  | .copy => match s.node.pc with
      | .stamped frame stamp =>
          some { s with node := s.node.copied frame stamp (E.frameBytes s.env frame) }
      | _ => none
  | .logCbk now => match s.node.pc with
      | .copied frame stamp =>
          some { s with node := s.node.recorded frame stamp s.env (E.tCaptureNs s.env) now }
      | _ => none
  | .publish => match s.node.pc with
      | .recorded frame stamp recordIdx capturedAt =>
          some { s with node := s.node.sent frame stamp recordIdx capturedAt }
      | _ => none
  | .logPub now => match s.node.pc with
      | .sent frame recordIdx => some { s with node := s.node.logged frame recordIdx now }
      | _ => none
  | .release answer => match s.node.pc with
      | .releasing _ => (E.release s.env answer).map fun env => { node := s.node.released, env }
      | _ => none

inductive Step (s : System S P) : Event M G R → System S P → Prop where
  | env {move : M} {env : S} (hmove : E.move s.env move = some env) :
      Step s (.env move) { s with env }
  | exit (hpc : s.node.pc = .head) : Step s .exit { s with node := { s.node with pc := .exited } }
  | grab {answer : G} {frame : Frame P} {env : S} (hpc : s.node.pc = .head)
      (hgrab : E.grab s.env answer = some (frame, env)) :
      Step s (.grab answer) { node := s.node.grabbed frame (E.view env frame), env }
  | count {frame : Frame P} (hpc : s.node.pc = .grabbed frame) :
      Step s .count { s with node := s.node.counted frame (E.pushCount s.env) }
  | tryOpen {frame : Frame P} {answer : OpenAnswer} (hpc : s.node.pc = .counted frame) :
      Step s (.tryOpen answer)
        { s with node := s.node.opened frame (E.timeshare s.env) answer }
  | readLow {frame : Frame P} {now : Int} (hpc : s.node.pc = .opened frame) :
      Step s (.readLow now)
        { s with node := s.node.stamped frame s.env (E.timeshare s.env) now }
  | copy {frame : Frame P} {stamp : Stamp S} (hpc : s.node.pc = .stamped frame stamp) :
      Step s .copy { s with node := s.node.copied frame stamp (E.frameBytes s.env frame) }
  | logCbk {frame : Frame P} {stamp : Stamp S} {now : UInt64}
      (hpc : s.node.pc = .copied frame stamp) :
      Step s (.logCbk now)
        { s with node := s.node.recorded frame stamp s.env (E.tCaptureNs s.env) now }
  | publish {frame : Frame P} {stamp : Stamp S} {recordIdx : UInt64} {capturedAt : S}
      (hpc : s.node.pc = .recorded frame stamp recordIdx capturedAt) :
      Step s .publish { s with node := s.node.sent frame stamp recordIdx capturedAt }
  | logPub {frame : Frame P} {recordIdx now : UInt64} (hpc : s.node.pc = .sent frame recordIdx) :
      Step s (.logPub now) { s with node := s.node.logged frame recordIdx now }
  | release {frame : Frame P} {answer : R} {env : S} (hpc : s.node.pc = .releasing frame)
      (hrelease : E.release s.env answer = some env) :
      Step s (.release answer) { node := s.node.released, env }

variable {E}

theorem Step.of_step {s t : System S P} {e : Event M G R} (h : step E s e = some t) :
    Step E s e t := by
  cases e with
  | env move =>
      obtain ⟨env, hmove, rfl⟩ := Option.map_eq_some_iff.mp h
      exact .env hmove
  | exit =>
      simp only [step] at h
      split at h <;> cases h
      exact .exit ‹_›
  | grab answer =>
      simp only [step] at h
      split at h <;> try cases h
      obtain ⟨⟨frame, env⟩, hgrab, rfl⟩ := Option.map_eq_some_iff.mp h
      exact .grab ‹_› hgrab
  | count =>
      simp only [step] at h
      split at h <;> cases h
      exact .count ‹_›
  | tryOpen answer =>
      simp only [step] at h
      split at h <;> cases h
      exact .tryOpen ‹_›
  | readLow now =>
      simp only [step] at h
      split at h <;> cases h
      exact .readLow ‹_›
  | copy =>
      simp only [step] at h
      split at h <;> cases h
      exact .copy ‹_›
  | logCbk now =>
      simp only [step] at h
      split at h <;> cases h
      exact .logCbk ‹_›
  | publish =>
      simp only [step] at h
      split at h <;> cases h
      exact .publish ‹_›
  | logPub now =>
      simp only [step] at h
      split at h <;> cases h
      exact .logPub ‹_›
  | release answer =>
      simp only [step] at h
      split at h <;> try cases h
      obtain ⟨env, hrelease, rfl⟩ := Option.map_eq_some_iff.mp h
      exact .release ‹_› hrelease

/-- A step as the backend sees it. -/
inductive Turn (E : Env S P M G R) (s : System S P) (e : Event M G R) (t : System S P) : Prop where
  | env (move : M) (hmove : E.move s.env move = some t.env) (hnode : t.node = s.node)
  | grab (answer : G) (frame : Frame P) (hpc : s.node.pc = .head)
      (hgrab : E.grab s.env answer = some (frame, t.env))
      (hnode : t.node = s.node.grabbed frame (E.view t.env frame))
  | count (frame : Frame P) (he : e = .count) (hpc : s.node.pc = .grabbed frame)
      (henv : t.env = s.env) (hnode : t.node = s.node.counted frame (E.pushCount s.env))
  | release (frame : Frame P) (answer : R) (he : e = .release answer)
      (hpc : s.node.pc = .releasing frame) (hrelease : E.release s.env answer = some t.env)
      (hnode : t.node = s.node.released)
  | inside (henv : t.env = s.env) (hinside : s.node.Inside t.node)

theorem Step.turn {s t : System S P} {e : Event M G R} (h : Step E s e t) : Turn E s e t := by
  cases h with
  | env hmove => exact .env _ hmove rfl
  | grab hpc hgrab => exact .grab _ _ hpc hgrab rfl
  | count hpc => exact .count _ rfl hpc rfl rfl
  | release hpc hrelease => exact .release _ _ rfl hpc hrelease rfl
  | tryOpen hpc =>
      refine .inside rfl ⟨rfl, .inr ⟨_, _, rfl⟩, rfl, ⟨rfl, rfl, rfl⟩, .inl ?_, ?_, ?_, ?_⟩
      all_goals simp [hpc, Pc.held, Node.opened]
  | exit hpc | logCbk hpc | logPub hpc =>
      refine .inside rfl ⟨rfl, .inl rfl, rfl, ⟨rfl, rfl, rfl⟩, .inl ?_, ?_, ?_, ?_⟩
      all_goals simp [hpc, Pc.held, Node.recorded, Node.logged]
  | publish hpc =>
      refine .inside rfl ⟨rfl, .inl rfl, ?_, ⟨rfl, rfl, rfl⟩, .inl ?_, ?_, ?_, ?_⟩
      · simp [Node.sent, grabs]
      all_goals simp [hpc, Pc.held, Node.sent]
  | readLow hpc =>
      refine .inside rfl ?_
      unfold Node.stamped
      split
      · exact ⟨rfl, .inl rfl, rfl, ⟨rfl, rfl, rfl⟩, .inr rfl, by simp, by simp [hpc], by simp [hpc]⟩
      · refine ⟨rfl, .inl rfl, rfl, ⟨rfl, rfl, rfl⟩, .inl ?_, ?_, ?_, ?_⟩
        all_goals simp [hpc, Pc.held]
  | copy hpc =>
      refine .inside rfl ?_
      unfold Node.copied
      split_ifs
      all_goals
        refine ⟨rfl, .inl rfl, ?_, ⟨rfl, rfl, rfl⟩, .inl ?_, ?_, ?_, ?_⟩
        all_goals simp [hpc, Pc.held, grabs]

theorem Step.node_p {s t : System S P} {e : Event M G R} (h : Step E s e t) :
    t.node.p = s.node.p := by
  cases h.turn with
  | env _ _ hnode => rw [hnode]
  | grab _ _ _ _ hnode => rw [hnode, Node.grabbed]
  | count _ _ _ _ hnode => rw [hnode, Node.counted, Node.account_eq]
  | release _ _ _ _ _ hnode => rw [hnode, Node.released]
  | inside _ hinside => exact hinside.p

theorem invariant {I : System S P → Prop} (hstep : ∀ s e t, I s → Step E s e t → I t)
    {s t : System S P} (hs : I s) (h : Runs.Reachable (step E) s t) : I t :=
  h.invariant (fun s e t hI hst => hstep s e t hI (.of_step hst)) hs

end System

end EconRos2Driver
