import EconRos2Driver.Proof.Delivery

/-!
# Where a message comes from

`calls_eq_iterations` speaks of the calls as a whole. Here each message is followed on its own: it
carries the payload of the frame it was made from, which `grab` returned as valid, and the stamp the
same call of `publish` computed. What the stamp is worth is a matter of the world it was read in,
and that is what the modules on the two clocks go on from.
-/

namespace EconRos2Driver

variable {S P M G R : Type}

def Pc.filled : Pc S P → Option (Frame P × Stamp S)
  | .copied frame stamp | .recorded frame stamp _ _ => some (frame, stamp)
  | _ => none

/-- The message carries the stamp, and the payload of one of the frames grabbed. -/
def Carries (p : Params) (frames : List (Frame P × List UInt8)) (frame : Frame P) (stamp : Stamp S)
    (message : Message) : Prop :=
  ∃ bytes, (frame, bytes) ∈ frames ∧ frame.valid = true ∧
    payload p frame bytes = some message.data ∧ message.stamp = stamp.ns

theorem Carries.append {p : Params} {frames : List (Frame P × List UInt8)} {frame : Frame P}
    {stamp : Stamp S} {message : Message} (h : Carries p frames frame stamp message)
    (more : List (Frame P × List UInt8)) : Carries p (frames ++ more) frame stamp message := by
  obtain ⟨bytes, hmem, hrest⟩ := h
  exact ⟨bytes, List.mem_append_left _ hmem, hrest⟩

structure Lineage (E : Env S P M G R) (s : System S P) : Prop where
  grabbed : ∀ grabbed ∈ grabs s.node.calls, ∃ env, grabbed.2 = E.view env grabbed.1
  uncopied : ∀ frame, s.node.pc.uncopied = some frame →
    (frame, E.view s.env frame) ∈ grabs s.node.calls
  filled : ∀ frame stamp, s.node.pc.filled = some (frame, stamp) →
    Carries s.node.p (grabs s.node.calls) frame stamp s.node.message
  published : ∀ sent ∈ s.node.published,
    Carries s.node.p (grabs s.node.calls) sent.frame sent.stamp sent.message

variable {E : Env S P M G R} {I : S → Prop} {p : Params} {s t : System S P}

theorem lineage_init (stamper : MmapStamper) (boxFd : Nat) (env : S) :
    Lineage E ⟨Node.init p stamper boxFd, env⟩ where
  grabbed := by
    intro grabbed hgrabbed
    cases hgrabbed
  uncopied := by
    intro frame hframe
    cases hframe
  filled := by
    intro frame stamp hfilled
    cases hfilled
  published := by
    intro sent hsent
    cases hsent

theorem Lineage.silent_step (h : Lineage E s) {node : Node S P} (hp : node.p = s.node.p)
    (hmessage : node.message = s.node.message) (hpublished : node.published = s.node.published)
    (hgrabs : grabs node.calls = grabs s.node.calls)
    (huncopied : ∀ frame, node.pc.uncopied = some frame → s.node.pc.uncopied = some frame)
    (hfilled : ∀ x, node.pc.filled = some x → s.node.pc.filled = some x) :
    Lineage E { s with node } where
  grabbed := by
    rw [hgrabs]
    exact h.grabbed
  uncopied := by
    intro frame hframe
    rw [hgrabs]
    exact h.uncopied frame (huncopied frame hframe)
  filled := by
    intro frame stamp hpc
    rw [hp, hmessage, hgrabs]
    exact h.filled frame stamp (hfilled _ hpc)
  published := by
    intro sent hsent
    rw [hpublished] at hsent
    rw [hp, hgrabs]
    exact h.published sent hsent

theorem Lineage.grab_step (h : Lineage E s) (frame : Frame P) (env : S) :
    Lineage E ⟨s.node.grabbed frame (E.view env frame), env⟩ := by
  have hgrabs : grabs (s.node.grabbed frame (E.view env frame)).calls
      = grabs s.node.calls ++ [(frame, E.view env frame)] := by simp [grabs, Node.grabbed]
  refine ⟨?_, ?_, ?_, ?_⟩
  · rw [hgrabs]
    intro grabbed hgrabbed
    rcases List.mem_append.mp hgrabbed with hgrabbed | hgrabbed
    · exact h.grabbed grabbed hgrabbed
    · obtain rfl := List.mem_singleton.mp hgrabbed
      exact ⟨env, rfl⟩
  · intro other hother
    rw [hgrabs]
    by_cases hvalid : frame.valid = true
    · obtain rfl : frame = other := by simpa [Node.grabbed, hvalid, Pc.uncopied] using hother
      exact List.mem_append_right _ (List.mem_singleton_self _)
    · simp [Node.grabbed, hvalid, Pc.uncopied] at hother
  · intro other stamp hfilled
    by_cases hvalid : frame.valid = true
    · simp [Node.grabbed, hvalid, Pc.filled] at hfilled
    · simp [Node.grabbed, hvalid, Pc.filled] at hfilled
  · intro sent hsent
    rw [hgrabs]
    exact (h.published sent hsent).append _

theorem Lineage.copy_step (h : Lineage E s) (hs : Delivering E I p s) {frame : Frame P}
    {stamp : Stamp S} (hpc : s.node.pc = .stamped frame stamp) :
    Lineage E { s with node := s.node.copied frame stamp (E.frameBytes s.env frame) } := by
  obtain ⟨hvalid, -⟩ := hs.stable frame (by rw [hpc]; rfl)
  have hmem := h.uncopied frame (by rw [hpc]; rfl)
  have hbuffer : s.node.p.compressed = false → s.node.msg.data.length = s.node.p.expectedSize := by
    rw [hs.params]
    exact hs.buffer
  cases copied_spec (E := E) stamp s.env hvalid hbuffer with
  | short hpayload hm =>
      rw [hm]
      refine h.silent_step rfl rfl rfl rfl ?_ ?_
      · intro other hother
        cases hother
      · intro x hx
        cases hx
  | copied data hpayload hm hdata hstamp _ =>
      generalize s.node.copied frame stamp (E.frameBytes s.env frame) = m at *
      have hcalls : grabs m.calls = grabs s.node.calls := by
        rw [hm]
        simp [grabs]
      have hp : m.p = s.node.p := by rw [hm]
      have hpc' : m.pc = .copied frame stamp := by rw [hm]
      have hpublished : m.published = s.node.published := by rw [hm]
      refine ⟨hcalls ▸ h.grabbed, ?_, ?_, ?_⟩
      · intro other hother
        simp [hpc', Pc.uncopied] at hother
      · intro other stamp' hfilled
        obtain ⟨rfl, rfl⟩ : frame = other ∧ stamp = stamp' := by
          simpa [hpc', Pc.filled] using hfilled
        refine ⟨E.view s.env frame, ?_, hvalid, ?_, hstamp⟩
        · rw [hcalls]
          exact hmem
        · rw [hp, hpayload, hdata]
      · intro sent hsent
        rw [hpublished] at hsent
        rw [hp, hcalls]
        exact h.published sent hsent

theorem Lineage.step (h : Lineage E s) (hs : Delivering E I p s) {e : Event M G R}
    (hstep : System.Step E s e t) : Lineage E t := by
  cases hstep with
  | env hmove =>
      refine ⟨h.grabbed, ?_, h.filled, h.published⟩
      intro frame hframe
      rw [(hs.stable frame hframe).2 _ (.of_step hmove)]
      exact h.uncopied frame hframe
  | grab hpc hgrab => exact h.grab_step _ _
  | copy hpc => exact h.copy_step hs hpc
  | publish hpc =>
      have hcarries := h.filled _ _ (by rw [hpc]; rfl)
      have hgrabs : grabs (s.node.calls ++ [.publish s.node.message.data])
          = grabs s.node.calls := by simp [grabs]
      refine ⟨hgrabs ▸ h.grabbed, ?_, ?_, ?_⟩
      · intro other hother
        cases hother
      · intro other stamp hfilled
        cases hfilled
      · intro sent hsent
        simp only [Node.sent, hgrabs]
        rcases List.mem_append.mp hsent with hsent | hsent
        · exact h.published sent hsent
        · obtain rfl := List.mem_singleton.mp hsent
          exact hcarries
  | count hpc =>
      unfold Node.counted
      rw [Node.account_eq]
      refine h.silent_step rfl rfl rfl rfl ?_ ?_
      · intro other hother
        simpa [hpc, Pc.uncopied] using hother
      · intro x hx
        cases hx
  | readLow hpc =>
      unfold Node.stamped
      split
      · refine h.silent_step rfl rfl rfl rfl ?_ ?_ <;> (intro x hx; cases hx)
      · refine h.silent_step rfl rfl rfl rfl ?_ ?_
        · intro other hother
          simpa [hpc, Pc.uncopied] using hother
        · intro x hx
          cases hx
  | tryOpen hpc =>
      refine h.silent_step rfl rfl rfl rfl ?_ ?_
      · intro other hother
        simpa [hpc, Pc.uncopied, Node.opened] using hother
      · intro x hx
        cases hx
  | exit hpc | logPub hpc =>
      refine h.silent_step rfl rfl rfl rfl ?_ ?_ <;> (intro x hx; cases hx)
  | logCbk hpc =>
      refine h.silent_step rfl rfl rfl rfl ?_ ?_
      · intro other hother
        cases hother
      · intro x hx
        simpa [hpc, Pc.filled, Node.recorded] using hx
  | release hpc _ =>
      have hgrabs : grabs (s.node.calls ++ [.release]) = grabs s.node.calls := by simp [grabs]
      refine ⟨hgrabs ▸ h.grabbed, ?_, ?_, ?_⟩
      · intro other hother
        cases hother
      · intro other stamp hfilled
        cases hfilled
      · intro sent hsent
        simp only [Node.released, hgrabs]
        exact h.published sent hsent

/-- **Each message carries the payload of a frame that `grab` returned as valid.** -/
theorem lineage_reachable (hE : E.StableViews I) {stamper : MmapStamper} {boxFd : Nat} {env : S}
    (henv : I env)
    (h : Runs.Reachable (System.step E) ⟨Node.init p stamper boxFd, env⟩ s) :
    Delivering E I p s ∧ Lineage E s := by
  refine System.invariant (I := fun s => Delivering E I p s ∧ Lineage E s) ?_
    ⟨delivering_init stamper boxFd henv, lineage_init stamper boxFd env⟩ h
  intro s e t hs hstep
  exact ⟨hs.1.step hE hstep, hs.2.step hs.1 hstep⟩

theorem Lineage.payload_eq (h : Lineage E s) (hs : Delivering E I p s) {content : P → Nat → UInt8}
    (hcontent : ∀ env ptr, E.byteAt env ptr = content ptr) {sent : Published S P}
    (hsent : sent ∈ s.node.published) {ptr : P} (hdata : sent.frame.data = some ptr) :
    payload p sent.frame ((List.range sent.frame.size).map (content ptr))
      = some sent.message.data := by
  obtain ⟨bytes, hmem, -, hpayload, -⟩ := h.published sent hsent
  obtain ⟨env, hview⟩ := h.grabbed _ hmem
  have hbytes : bytes = (List.range sent.frame.size).map (content ptr) := by
    simpa [CameraBackend.view, CameraBackend.bytes, hdata, hcontent] using hview
  rwa [← hbytes, ← hs.params]

/-! ### Following the stamp -/

def Pc.stamp : Pc S P → Option (Frame P × Stamp S)
  | .stamped frame stamp | .copied frame stamp | .recorded frame stamp _ _ => some (frame, stamp)
  | _ => none

/-- Everything read so far satisfies `Q`: the stamp in hand, and the stamp of every message. -/
structure Stamps (Q : Frame P → Stamp S → Prop) (n : Node S P) : Prop where
  hand : ∀ frame stamp, n.pc.stamp = some (frame, stamp) → Q frame stamp
  published : ∀ sent ∈ n.published, Q sent.frame sent.stamp

theorem Stamps.of_node {Q : Frame P → Stamp S → Prop} {n m : Node S P} (h : Stamps Q n)
    (hstamp : ∀ x, m.pc.stamp = some x → n.pc.stamp = some x)
    (hpublished : m.published = n.published) : Stamps Q m := by
  refine ⟨fun frame stamp hpc => h.hand frame stamp (hstamp _ hpc), ?_⟩
  rw [hpublished]
  exact h.published

/-- **What holds of a stamp when it is read holds of every message.** -/
theorem Stamps.step {Q : Frame P → Stamp S → Prop} (h : Stamps Q s.node) {e : Event M G R}
    (hread : ∀ frame now ns, s.node.pc = .opened frame →
      s.node.stamper.readLowNs (E.timeshare s.env) = some ns → Q frame (Node.stampOf s.env ns now))
    (hstep : System.Step E s e t) : Stamps Q t.node := by
  cases hstep with
  | env _ => exact h
  | @readLow frame now hpc =>
      dsimp only
      unfold Node.stamped
      split
      · exact h.of_node (fun x hx => by cases hx) rfl
      · refine ⟨?_, h.published⟩
        intro other stamp hstamp
        obtain ⟨rfl, rfl⟩ : frame = other ∧ _ = stamp := by simpa [Pc.stamp] using hstamp
        exact hread _ now _ hpc ‹_›
  | copy hpc =>
      dsimp only
      unfold Node.copied
      split_ifs
      · exact h.of_node (by simp [hpc, Pc.stamp]) rfl
      · exact h.of_node (by simp [Pc.stamp]) rfl
      · exact h.of_node (by simp [hpc, Pc.stamp]) rfl
  | logCbk hpc => exact h.of_node (by simp [hpc, Pc.stamp, Node.recorded]) rfl
  | publish hpc =>
      refine ⟨(by intro _ _ hx; cases hx), ?_⟩
      intro sent hsent
      rcases List.mem_append.mp hsent with hsent | hsent
      · exact h.published sent hsent
      · obtain rfl := List.mem_singleton.mp hsent
        exact h.hand _ _ (by rw [hpc]; rfl)
  | grab hpc _ =>
      refine h.of_node ?_ rfl
      intro x hx
      simp only [Node.grabbed] at hx
      split at hx <;> cases hx
  | count _ =>
      apply h.of_node (fun x hx => by cases hx)
      rw [Node.counted, Node.account_eq]
  | exit _ | tryOpen _ | logPub _ | release _ _ => exact h.of_node (fun x hx => by cases hx) rfl

end EconRos2Driver
