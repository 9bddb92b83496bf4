import EconRos2Driver.LidarWriter
import EconRos2Driver.Proof.BufferOwnership

/-!
# The file under the mapping

`try_open` maps the file as soon as it can be opened, at whatever length it has, and `read_low_ns`
reads through the mapping without another look. Whether a run is killed is a matter of the order of
its events alone. `FileOrder` keeps what that order says: whether the file has been created, whether
it has been extended since it was last empty, and whether the node has mapped it.
-/

namespace EconRos2Driver

structure FileOrder where
  created : Bool := false
  extended : Bool := false
  mapped : Bool := false
  deriving DecidableEq, Repr

variable {S P M G R : Type} {E : Env S P M G R} {s t : System (Shared S) P} {o : FileOrder}

def FileOrder.next (o : FileOrder) : Event (RestartMove M) G R → FileOrder
  | .env .create => { o with created := true, extended := false }
  | .env .extend => { o with extended := true }
  | .env .truncate => { o with extended := false }
  | .tryOpen answer =>
      { o with mapped := o.mapped || (o.created && answer.fd.isSome && answer.mapping.isSome) }
  | _ => o

/-- A read that comes after the mapping was made comes after an extension, with no truncation in
between. -/
def ReadsExtended (o : FileOrder) : Event (RestartMove M) G R → Prop
  | .readLow _ => o.mapped = true → o.extended = true
  | _ => True

structure Follows (s : System (Shared S) P) (o : FileOrder) : Prop where
  agrees : s.node.stamper.Agrees
  created : o.created = s.env.file.isSome
  length : ∀ f, s.env.file = some f → f.length = if o.extended then sizeofSharedTimestamp else 0
  mapped : o.mapped = s.node.stamper.stamp.isSome
  under : o.mapped = true → o.created = true

theorem follows_init (p : Params) (boxFd : Nat) (base : S) :
    Follows (P := P) ⟨Node.init p {} boxFd, ⟨base, none⟩⟩ {} where
  agrees := MmapStamper.agrees_closed
  created := rfl
  length := by
    intro f hf
    cases hf
  mapped := rfl
  under := fun hmapped => hmapped

/-- The file gets another length or other bytes. -/
theorem Follows.replaced (h : Follows s o) {f f' : Timeshare} (hfile : s.env.file = some f)
    (extended : Bool) (hlength : f'.length = if extended then sizeofSharedTimestamp else 0) :
    Follows ⟨s.node, { s.env with file := some f' }⟩ { o with extended } where
  agrees := h.agrees
  created := by
    rw [h.created, hfile]
    rfl
  length := by
    intro g hg
    cases hg
    exact hlength
  mapped := h.mapped
  under := h.under

theorem Follows.move (h : Follows s o) {m : RestartMove M} {env : Shared S}
    (hmove : s.env.restart E m = some env) :
    Follows ⟨s.node, env⟩ (o.next (.env m : Event (RestartMove M) G R)) := by
  cases m with
  | backend move =>
      obtain ⟨base, -, rfl⟩ := Option.map_eq_some_iff.mp hmove
      exact ⟨h.agrees, h.created, h.length, h.mapped, h.under⟩
  | create =>
      simp only [Shared.restart] at hmove
      split at hmove <;> cases hmove
      refine ⟨h.agrees, rfl, ?_, h.mapped, fun _ => rfl⟩
      intro f hf
      cases hf
      rfl
  | extend =>
      obtain ⟨f, hfile, rfl⟩ := Option.map_eq_some_iff.mp hmove
      exact h.replaced hfile true rfl
  | truncate =>
      obtain ⟨f, hfile, rfl⟩ := Option.map_eq_some_iff.mp hmove
      exact h.replaced hfile false rfl
  | store content =>
      simp only [Shared.restart] at hmove
      split at hmove
      · rename_i f hfile
        split_ifs at hmove
        obtain rfl := Option.some.inj hmove
        exact h.replaced hfile o.extended (h.length f hfile)
      · cases hmove

/-- The steps that leave the stamper and the file as they are. -/
theorem Follows.of_stamper (h : Follows s o) {node : Node (Shared S) P} {base : S}
    (hstamper : node.stamper = s.node.stamper) : Follows ⟨node, { s.env with base }⟩ o := by
  refine ⟨?_, h.created, h.length, ?_, h.under⟩
  · rw [hstamper]
    exact h.agrees
  · rw [hstamper]
    exact h.mapped

theorem Follows.tryOpen (h : Follows s o) {frame : Frame P} {answer : OpenAnswer} :
    Follows ⟨s.node.opened frame s.env.file answer, s.env⟩
      (o.next (.tryOpen answer : Event (RestartMove M) G R)) := by
  refine ⟨h.agrees.tryOpen _ _, h.created, h.length, ?_, ?_⟩
  · simp [FileOrder.next, Node.opened, h.agrees.isSome_stamp_tryOpen, h.mapped, h.created]
  · intro hmapped
    simp only [FileOrder.next, Bool.or_eq_true, Bool.and_eq_true] at hmapped
    rcases hmapped with hmapped | ⟨⟨hcreated, -⟩, -⟩
    · exact h.under hmapped
    · exact hcreated

theorem Follows.step (h : Follows s o) {e : Event (RestartMove M) G R}
    (hstep : System.Step (restartEnv E) s e t) : Follows t (o.next e) := by
  cases hstep with
  | env hmove => exact h.move hmove
  | tryOpen hpc => exact h.tryOpen
  | grab hpc hgrab =>
      obtain ⟨⟨frame, base⟩, -, heq⟩ := Option.map_eq_some_iff.mp hgrab
      obtain ⟨rfl, rfl⟩ := Prod.mk.inj heq
      exact h.of_stamper rfl
  | release hpc hrelease =>
      obtain ⟨base, -, rfl⟩ := Option.map_eq_some_iff.mp hrelease
      exact h.of_stamper rfl
  | count hpc =>
      apply h.of_stamper
      rw [Node.counted, Node.account_eq]
  | readLow hpc =>
      apply h.of_stamper
      unfold Node.stamped
      split <;> rfl
  | copy hpc =>
      apply h.of_stamper
      unfold Node.copied
      split_ifs <;> rfl
  | exit hpc | logCbk hpc | publish hpc | logPub hpc => exact h.of_stamper rfl

theorem stamped_alive_iff (n : Node S P) (frame : Frame P) (seenAt : S) (file : Option Timeshare)
    (now : Int) :
    (n.stamped frame seenAt file now).pc ≠ .sigbus ↔ n.stamper.readLowNs file ≠ none := by
  unfold Node.stamped
  cases n.stamper.readLowNs file <;> simp

theorem Follows.readLowNs_iff (h : Follows s o) :
    s.node.stamper.readLowNs s.env.file ≠ none ↔ (o.mapped = true → o.extended = true) := by
  cases hmapped : o.mapped with
  | false =>
      have hstamp : s.node.stamper.stamp = none := by
        rw [← Option.not_isSome_iff_eq_none, ← h.mapped, hmapped]
        exact Bool.false_ne_true
      simp [MmapStamper.readLowNs, hstamp]
  | true =>
      have hstamp : s.node.stamper.stamp ≠ none := by
        rw [← Option.isSome_iff_ne_none, ← h.mapped, hmapped]
      obtain ⟨f, hfile⟩ := Option.isSome_iff_exists.mp (h.created.symm.trans (h.under hmapped))
      have hlength := h.length f hfile
      rw [hfile, Ne, MmapStamper.readLowNs_eq_none_iff, hlength]
      cases o.extended <;> simp [hstamp, sizeofSharedTimestamp]

/-- One step kills the process exactly if it is a read that its place in the order leaves
uncovered. -/
theorem Follows.alive_step_iff (h : Follows s o) {e : Event (RestartMove M) G R}
    (hstep : System.Step (restartEnv E) s e t) :
    t.node.pc ≠ .sigbus ↔ s.node.pc ≠ .sigbus ∧ ReadsExtended o e := by
  cases hstep with
  | env hmove => simp [ReadsExtended]
  | grab hpc hgrab =>
      unfold Node.grabbed
      split <;> simp [ReadsExtended, hpc]
  | @readLow frame now hpc =>
      have hread := (stamped_alive_iff s.node frame s.env s.env.file now).trans h.readLowNs_iff
      exact hread.trans (by simp [ReadsExtended, hpc])
  | copy hpc =>
      unfold Node.copied
      split_ifs <;> simp [ReadsExtended, hpc]
  | count hpc | release hpc hrelease | tryOpen hpc | exit hpc | logCbk hpc | publish hpc
  | logPub hpc =>
      simp [ReadsExtended, hpc, Node.counted, Node.released, Node.opened, Node.recorded, Node.sent,
        Node.logged]

/-- **When a read of the shared timestamp faults.** The process is alive at the end of a run exactly
when the order of the events has every read through the mapping after an extension of the file, with
no truncation in between. -/
theorem alive_iff_reads_extended (E : Env S P M G R) (p : Params) (boxFd : Nat) (base : S)
    (events : List (Event (RestartMove M) G R)) (s : System (Shared S) P)
    (h : Runs.run (System.step (restartEnv E)) ⟨Node.init p {} boxFd, ⟨base, none⟩⟩ events
      = some s) :
    s.node.pc ≠ .sigbus ↔
      Runs.EachStep (fun o e => some (FileOrder.next o e)) ReadsExtended {} events := by
  have hfollows : ∀ (s : System (Shared S) P) o (e : Event (RestartMove M) G R) t, Follows s o →
      System.step (restartEnv E) s e = some t → Follows t (o.next e) := by
    intro s o e t hs hstep
    exact hs.step (.of_step hstep)
  have halive : ∀ (s : System (Shared S) P) o (e : Event (RestartMove M) G R) t, Follows s o →
      System.step (restartEnv E) s e = some t →
        (t.node.pc ≠ .sigbus ↔ s.node.pc ≠ .sigbus ∧ ReadsExtended o e) := by
    intro s o e t hs hstep
    exact hs.alive_step_iff (.of_step hstep)
  have hinit : (Node.init p {} boxFd : Node (Shared S) P).pc ≠ .sigbus := by
    intro hpc
    cases hpc
  have hrun := Runs.good_iff_of_follows hfollows halive (follows_init p boxFd base) h
  exact hrun.trans (and_iff_right hinit)

/-- The owner has created the file, extended it and stored a time before the node reads it. -/
def extendedRun : List (Event (RestartMove V4l2Move) DqbufAnswer Bool) :=
  [.env .create, .env .extend, .env (.store ⟨0, 40⟩), .grab (.buffer 0 0 3 5), .count,
   .tryOpen ⟨some 7, some 64⟩, .readLow 9, .copy]

theorem alive_extendedRun : ∃ s,
    Runs.run (System.step (restartEnv (v4l2Env noShapes)))
        ⟨Node.init jpegParams, ⟨startedWorld, none⟩⟩ extendedRun = some s ∧
      s.node.stamps.map (fun stamp => stamp.ns) = [40] ∧
      (s.node.pc ≠ .sigbus ↔
        Runs.EachStep (fun o e => some (FileOrder.next o e)) ReadsExtended {} extendedRun) := by
  refine ⟨_, rfl, rfl, ?_⟩
  exact alive_iff_reads_extended (v4l2Env noShapes) jpegParams 3 startedWorld extendedRun _ rfl

/-- The node opens the file just after its creation, before it is extended. -/
theorem fault_of_created : ∃ s,
    Runs.run (System.step (restartEnv (v4l2Env noShapes)))
        ⟨Node.init jpegParams, ⟨startedWorld, none⟩⟩
        [.env .create, .grab (.buffer 0 0 3 5), .count, .tryOpen ⟨some 7, some 64⟩, .readLow 9]
        = some s ∧
      ¬ s.node.pc ≠ .sigbus := by
  refine ⟨_, rfl, ?_⟩
  exact not_not.mpr rfl

end EconRos2Driver
