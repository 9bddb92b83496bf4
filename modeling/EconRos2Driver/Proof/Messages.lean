import EconRos2Driver.Proof.Lineage
import Mathlib.Algebra.Group.Nat.Defs

/-!
# What every published message looks like

`setup_publisher` fills in the fields of the one message of the active format, and each `publish`
writes the stamp and the data into it and nothing else. So whatever the backend delivers, a message
announces the geometry of the parameters and carries data of just that size, or a compressed frame
that is not empty.
-/

namespace EconRos2Driver

variable {S P M G R : Type}

structure Params.Shaped (p : Params) : Prop where
  width : 0 < p.pubWidth ∧ p.pubWidth < 2 ^ 16
  height : 0 < p.pubHeight ∧ p.pubHeight < 2 ^ 16
  size : p.expectedSize = p.pubWidth * p.pubHeight * 3

theorem loadParams_res_lt (node : Overrides) :
    (loadParams node).res.outputWidth < 2 ^ 16 ∧ (loadParams node).res.outputHeight < 2 ^ 16 := by
  unfold loadParams resolveProfileMjpg resolveProfileUyvy
  dsimp only
  split_ifs <;> decide

theorem loadParams_shaped (node : Overrides) : (loadParams node).Shaped := by
  obtain ⟨-, -, hwidth, hheight⟩ := loadParams_res_positive node
  obtain ⟨hwidth', hheight'⟩ := loadParams_res_lt node
  by_cases hquarter : isQuarterTurn (node.flipMethod.getD 0) = true
  · have hturned : (loadParams node).pubWidth = (loadParams node).res.outputHeight ∧
        (loadParams node).pubHeight = (loadParams node).res.outputWidth :=
      ⟨if_pos hquarter, if_pos hquarter⟩
    refine ⟨?_, ?_, rfl⟩
    · rw [hturned.1]
      exact ⟨hheight, hheight'⟩
    · rw [hturned.2]
      exact ⟨hwidth, hwidth'⟩
  · have hupright : (loadParams node).pubWidth = (loadParams node).res.outputWidth ∧
        (loadParams node).pubHeight = (loadParams node).res.outputHeight :=
      ⟨if_neg hquarter, if_neg hquarter⟩
    refine ⟨?_, ?_, rfl⟩
    · rw [hupright.1]
      exact ⟨hwidth, hwidth'⟩
    · rw [hupright.2]
      exact ⟨hheight, hheight'⟩

/-- The message is what `setup_publisher` has made, up to the stamp and the data. -/
def Labelled (p : Params) : Message → Prop
  | .image msg => p.compressed = false ∧
      msg = { (setupPublisher p).1 with stamp := msg.stamp, data := msg.data }
  | .compressed msg => p.compressed = true ∧
      msg = { (setupPublisher p).2 with stamp := msg.stamp, data := msg.data }

/-- The data fill the geometry, or are not empty where they have none. -/
def Sized (p : Params) (data : List UInt8) : Prop :=
  if p.compressed then 0 < data.length else data.length = p.expectedSize

structure Templates (p : Params) (n : Node S P) : Prop where
  params : n.p = p
  msg : n.msg = { (setupPublisher p).1 with stamp := n.msg.stamp, data := n.msg.data }
  cmsg : n.cmsg = { (setupPublisher p).2 with stamp := n.cmsg.stamp, data := n.cmsg.data }
  published : ∀ sent ∈ n.published, Labelled p sent.message

variable {E : Env S P M G R} {I : S → Prop} {p : Params} {s t : System S P} {n m : Node S P}

theorem templates_init (p : Params) (stamper : MmapStamper) (boxFd : Nat) :
    Templates p (Node.init p stamper boxFd : Node S P) where
  params := rfl
  msg := rfl
  cmsg := rfl
  published := by
    intro sent hsent
    cases hsent

theorem Templates.message (h : Templates p n) : Labelled p n.message := by
  unfold Node.message
  rw [h.params]
  split_ifs with hcompressed
  · exact ⟨hcompressed, h.cmsg⟩
  · exact ⟨Bool.not_eq_true _ ▸ hcompressed, h.msg⟩

theorem Templates.of_eq (h : Templates p n) (hp : m.p = n.p) (hmsg : m.msg = n.msg)
    (hcmsg : m.cmsg = n.cmsg) (hpublished : m.published = n.published) : Templates p m :=
  ⟨hp.trans h.params, hmsg ▸ h.msg, hcmsg ▸ h.cmsg, hpublished ▸ h.published⟩

theorem Templates.copied (h : Templates p n) (frame : Frame P) (stamp : Stamp S)
    (bytes : Nat → List UInt8) : Templates p (n.copied frame stamp bytes) := by
  unfold Node.copied
  split_ifs
  · exact ⟨h.params, h.msg, by rw [h.cmsg], h.published⟩
  · exact h.of_eq rfl rfl rfl rfl
  · exact ⟨h.params, by rw [h.msg], h.cmsg, h.published⟩

theorem Templates.step (h : Templates p s.node) {e : Event M G R}
    (hstep : System.Step E s e t) : Templates p t.node := by
  cases hstep with
  | env _ => exact h
  | copy _ => exact h.copied _ _ _
  | count _ =>
      unfold Node.counted
      rw [Node.account_eq]
      exact h.of_eq rfl rfl rfl rfl
  | readLow _ =>
      unfold Node.stamped
      split
      · exact h.of_eq rfl rfl rfl rfl
      · exact h.of_eq rfl rfl rfl rfl
  | publish _ =>
      refine ⟨h.params, h.msg, h.cmsg, ?_⟩
      intro sent hsent
      rcases List.mem_append.mp hsent with hsent | hsent
      · exact h.published sent hsent
      · obtain rfl := List.mem_singleton.mp hsent
        exact h.message
  | exit _ | grab _ _ | tryOpen _ | logCbk _ | logPub _ | release _ _ =>
      exact h.of_eq rfl rfl rfl rfl

theorem templates_reachable {stamper : MmapStamper} {boxFd : Nat} {env : S}
    (h : Runs.Reachable (System.step E) ⟨Node.init p stamper boxFd, env⟩ s) :
    Templates p s.node :=
  System.invariant (I := fun s => Templates p s.node) (fun _ _ _ hs hstep => hs.step hstep)
    (templates_init p stamper boxFd) h

theorem length_view {env : S} {frame : Frame P} (hvalid : frame.valid = true) :
    (E.view env frame).length = frame.size := by
  obtain ⟨⟨ptr, hptr⟩, -⟩ := Frame.valid_iff.mp hvalid
  rw [CameraBackend.view, hptr]
  exact E.length_bytes env ptr frame.size

theorem sized_of_payload {env : S} {frame : Frame P} {data : List UInt8}
    (hvalid : frame.valid = true) (h : payload p frame (E.view env frame) = some data) :
    Sized p data := by
  have hlength : (E.view env frame).length = frame.size := length_view hvalid
  unfold payload at h
  unfold Sized
  split_ifs at h ⊢ with hcompressed hshort
  · obtain rfl := Option.some.inj h
    rw [hlength]
    exact (Frame.valid_iff.mp hvalid).2
  · obtain rfl := Option.some.inj h
    rw [List.length_take, hlength]
    exact Nat.min_eq_left (Nat.not_lt.mp hshort)

/-- The payloads of the valid frames among those grabbed. -/
def payloads (p : Params) (frames : List (Frame P × List UInt8)) : List (List UInt8) :=
  frames.filterMap fun grabbed => if grabbed.1.valid then payload p grabbed.1 grabbed.2 else none

theorem sentData_append (calls more : List (Call P)) :
    sentData (calls ++ more) = sentData calls ++ sentData more := List.filterMap_append

theorem published_isPrefix (hE : E.StableViews I) {stamper : MmapStamper} {boxFd : Nat} {env : S}
    (henv : I env) (h : Runs.Reachable (System.step E) ⟨Node.init p stamper boxFd, env⟩ s) :
    s.node.published.map (fun sent => sent.message.data) <+: payloads p (grabs s.node.calls) := by
  have hdelivering : Delivering E I p s := delivering_reachable hE henv h
  obtain ⟨rest, -, hcalls⟩ := hdelivering.calls
  refine ⟨sentData rest, ?_⟩
  rw [hdelivering.published, ← sentData_append, hcalls, sentData_flatMap_iteration]
  rfl

theorem published_eq_of_idle (hE : E.StableViews I) {stamper : MmapStamper} {boxFd : Nat} {env : S}
    (henv : I env) (h : Runs.Reachable (System.step E) ⟨Node.init p stamper boxFd, env⟩ s)
    (hpc : s.node.pc = .head ∨ s.node.pc = .exited) :
    s.node.published.map (fun sent => sent.message.data) = payloads p (grabs s.node.calls) := by
  have hdelivering : Delivering E I p s := delivering_reachable hE henv h
  obtain ⟨rest, hrest, hcalls⟩ := hdelivering.calls
  have hnil : rest = [] := by
    rcases hpc with hpc | hpc <;> simpa only [Outstanding, hpc] using hrest
  rw [hnil, List.append_nil] at hcalls
  rw [hdelivering.published, hcalls, sentData_flatMap_iteration, ← hcalls]
  rfl

theorem sized_reachable (hE : E.StableViews I) {stamper : MmapStamper} {boxFd : Nat} {env : S}
    (henv : I env) (h : Runs.Reachable (System.step E) ⟨Node.init p stamper boxFd, env⟩ s) :
    ∀ sent ∈ s.node.published, Sized p sent.message.data := by
  obtain ⟨hdelivering, hlineage⟩ := lineage_reachable hE henv h
  intro sent hsent
  obtain ⟨bytes, hmem, hvalid, hpayload, -⟩ := hlineage.published sent hsent
  obtain ⟨env, hbytes⟩ := hlineage.grabbed _ hmem
  dsimp only at hbytes
  rw [hdelivering.params, hbytes] at hpayload
  exact sized_of_payload hvalid hpayload

/-- **Messages are well formed.** In every run over every backend that keeps the contract of
`Frame`, each message published so far has the fields `setup_publisher` gave it, and data that fill
the geometry it announces. -/
theorem published_well_formed (hE : E.StableViews I) (p : Params) (stamper : MmapStamper)
    (boxFd : Nat) (env : S) (henv : I env) (s : System S P)
    (h : Runs.Reachable (System.step E) ⟨Node.init p stamper boxFd, env⟩ s) :
    ∀ sent ∈ s.node.published, Labelled p sent.message ∧ Sized p sent.message.data :=
  fun sent hsent => ⟨(templates_reachable h).published sent hsent,
    sized_reachable hE henv h sent hsent⟩

theorem published_well_formed_jpegRun : ∃ s,
    Runs.run (System.step (gstEnv rampContent))
        ⟨Node.init (loadParams { compressed := some true }), {}⟩ jpegRun = some s ∧
      s.node.published.length = 3 ∧
      ∀ sent ∈ s.node.published, Labelled (loadParams { compressed := some true }) sent.message ∧
        Sized (loadParams { compressed := some true }) sent.message.data := by
  refine ⟨_, rfl, rfl, ?_⟩
  exact published_well_formed (gstEnv_stableViews rampContent) _ {} 3 {} trivial _ ⟨jpegRun, rfl⟩

end EconRos2Driver
