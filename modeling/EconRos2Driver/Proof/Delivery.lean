import EconRos2Driver.GstBackend

/-!
# The node publishes what the backend delivers

The calls of the grab thread are compared with what the interface asks for: an iteration that got a
valid frame copies its payload, publishes it and releases the frame, and an iteration that got none
does nothing else. The invariant says that the calls made so far, followed by the calls the current
iteration still owes, are exactly the iterations of the frames grabbed so far.

What is asked of a backend is `Env.StableViews`: a valid frame shows the same bytes whatever the
rest of the world does until the node releases it.
-/

namespace EconRos2Driver

variable {S P M G R : Type}

/-- What a message for a frame carries: all bytes of a compressed frame, the expected ones of a raw
frame that has them, and nothing for a raw frame that is too short. -/
def payload (p : Params) (frame : Frame P) (bytes : List UInt8) : Option (List UInt8) :=
  if p.compressed then some bytes
  else if frame.size < p.expectedSize then none
  else some (bytes.take p.expectedSize)

def afterGrab (p : Params) (frame : Frame P) (bytes : List UInt8) : List (Call P) :=
  match payload p frame bytes with
  | some data => [.copy data, .publish data, .release]
  | none => [.release]

/-- The calls of one iteration, by the frame it grabbed. -/
def iteration (p : Params) (grabbed : Frame P × List UInt8) : List (Call P) :=
  .grab grabbed.1 grabbed.2 ::
    if grabbed.1.valid then afterGrab p grabbed.1 grabbed.2 else []

def sentData : List (Call P) → List (List UInt8) :=
  List.filterMap fun
    | .publish data => some data
    | _ => none

theorem sentData_iteration (p : Params) (grabbed : Frame P × List UInt8) :
    sentData (iteration p grabbed)
      = (if grabbed.1.valid then payload p grabbed.1 grabbed.2 else none).toList := by
  unfold iteration afterGrab
  split_ifs with hvalid
  · cases payload p grabbed.1 grabbed.2 with
    | none => rfl
    | some data => rfl
  · rfl

theorem sentData_flatMap_iteration (p : Params) (frames : List (Frame P × List UInt8)) :
    sentData (frames.flatMap (iteration p))
      = frames.filterMap fun grabbed =>
          if grabbed.1.valid then payload p grabbed.1 grabbed.2 else none := by
  induction frames with
  | nil => rfl
  | cons grabbed frames ih =>
      have hhead := sentData_iteration p grabbed
      unfold sentData at hhead ih ⊢
      rw [List.flatMap_cons, List.filterMap_append, ih, hhead]
      rcases hpay : (if grabbed.1.valid then payload p grabbed.1 grabbed.2 else none) with _ | data
      · simp [hpay]
      · simp [hpay]

def Pc.uncopied : Pc S P → Option (Frame P)
  | .grabbed frame | .counted frame | .opened frame | .stamped frame _ => some frame
  | _ => none

/-- `rest` are the calls the current iteration still owes. -/
def Outstanding (E : Env S P M G R) (s : System S P) (rest : List (Call P)) : Prop :=
  match s.node.pc with
  | .head | .exited => rest = []
  | .grabbed frame | .counted frame | .opened frame | .stamped frame _ =>
      rest = afterGrab s.node.p frame (E.view s.env frame)
  | .copied _ _ | .recorded _ _ _ _ => rest = [.publish s.node.message.data, .release]
  | .sent _ _ | .releasing _ => rest = [.release]
  | .sigbus => True

structure Delivering (E : Env S P M G R) (I : S → Prop) (p : Params) (s : System S P) : Prop where
  params : s.node.p = p
  env : I s.env
  buffer : p.compressed = false → s.node.msg.data.length = p.expectedSize
  stable : ∀ frame, s.node.pc.uncopied = some frame → frame.valid = true ∧
    ∀ u, Runs.Reachable E.move s.env u → E.view u frame = E.view s.env frame
  calls : ∃ rest, Outstanding E s rest ∧
    s.node.calls ++ rest = (grabs s.node.calls).flatMap (iteration p)
  published : s.node.published.map (fun sent => sent.message.data) = sentData s.node.calls

variable {E : Env S P M G R} {I : S → Prop} {p : Params} {s t : System S P}

theorem delivering_init (stamper : MmapStamper) (boxFd : Nat) {env : S} (henv : I env) :
    Delivering E I p ⟨Node.init p stamper boxFd, env⟩ where
  params := rfl
  env := henv
  buffer := by
    intro hraw
    simp [Node.init, setupPublisher, hraw]
  stable := by
    intro frame hframe
    cases hframe
  calls := ⟨[], rfl, rfl⟩
  published := rfl

theorem view_eq_frameBytes (env : S) (frame : Frame P) :
    E.view env frame = E.frameBytes env frame frame.size := rfl

theorem take_view {env : S} {frame : Frame P} {n : Nat} (h : n ≤ frame.size) :
    (E.view env frame).take n = E.frameBytes env frame n := by
  unfold CameraBackend.view Env.frameBytes
  cases frame.data with
  | none => simp
  | some ptr => exact E.take_bytes env ptr h

theorem length_frameBytes {env : S} {frame : Frame P} (h : frame.data ≠ none) (n : Nat) :
    (E.frameBytes env frame n).length = n := by
  obtain ⟨ptr, hptr⟩ := Option.ne_none_iff_exists'.mp h
  simp [Env.frameBytes, hptr]

theorem Delivering.env_step (hE : E.StableViews I) (h : Delivering E I p s) {move : M} {env : S}
    (hmove : E.move s.env move = some env) : Delivering E I p { s with env } := by
  obtain ⟨hparams, henv, hbuffer, hstable, ⟨rest, hrest, hcalls⟩, hpublished⟩ := h
  have hreach : Runs.Reachable E.move s.env env := .of_step hmove
  refine ⟨hparams, hE.move _ _ _ henv hmove, hbuffer, ?_, ⟨rest, ?_, hcalls⟩, hpublished⟩
  · intro frame hframe
    obtain ⟨hvalid, hview⟩ := hstable frame hframe
    refine ⟨hvalid, fun u hu => ?_⟩
    rw [hview u (hreach.trans hu), hview env hreach]
  · cases hpc : s.node.pc with
    | grabbed frame | counted frame | opened frame | stamped frame _ =>
        simp only [Outstanding, hpc] at hrest ⊢
        rw [(hstable frame (by rw [hpc]; rfl)).2 env hreach, hrest]
    | sigbus => simp only [Outstanding, hpc]
    | head | exited | copied _ _ | recorded _ _ _ _ | sent _ _ | releasing _ =>
        simpa only [Outstanding, hpc] using hrest

theorem Delivering.grab_step (hE : E.StableViews I) (h : Delivering E I p s) {answer : G}
    {frame : Frame P} {env : S} (hpc : s.node.pc = .head)
    (hgrab : E.grab s.env answer = some (frame, env)) :
    Delivering E I p { node := s.node.grabbed frame (E.view env frame), env } := by
  obtain ⟨hparams, henv, hbuffer, -, ⟨rest, hrest, hcalls⟩, hpublished⟩ := h
  have hnil : rest = [] := by simpa only [Outstanding, hpc] using hrest
  subst hnil
  rw [List.append_nil] at hcalls
  have hgrabs : grabs (s.node.calls ++ [.grab frame (E.view env frame)])
      = grabs s.node.calls ++ [(frame, E.view env frame)] := by simp [grabs]
  refine ⟨hparams, hE.grab _ _ _ _ henv hgrab, hbuffer, ?_, ?_, ?_⟩
  · intro other hother
    by_cases hvalid : frame.valid = true
    · obtain rfl : frame = other := by simpa [Node.grabbed, hvalid, Pc.uncopied] using hother
      exact ⟨hvalid, hE.stable _ _ _ _ henv hgrab hvalid⟩
    · simp [Node.grabbed, hvalid, Pc.uncopied] at hother
  · refine ⟨if frame.valid then afterGrab p frame (E.view env frame) else [], ?_, ?_⟩
    · by_cases hvalid : frame.valid = true
      · simp [Outstanding, Node.grabbed, hvalid, hparams]
      · simp [Outstanding, Node.grabbed, hvalid]
    · simp only [Node.grabbed]
      rw [hgrabs, List.flatMap_append, ← hcalls, List.append_assoc]
      simp [iteration]
  · simpa [Node.grabbed, sentData] using hpublished

/-- **What the copy does.** The payload of the frame is in the message with its stamp, or the frame
is too short and `publish` ends. -/
inductive Copied (n : Node S P) (frame : Frame P) (stamp : Stamp S) (bytes : List UInt8)
    (m : Node S P) : Prop where
  | short (hpayload : payload n.p frame bytes = none) (hm : m = { n with pc := .releasing frame })
  | copied (data : List UInt8) (hpayload : payload n.p frame bytes = some data)
      (hm : m = { n with msg := m.msg, cmsg := m.cmsg, pc := .copied frame stamp
                         calls := n.calls ++ [.copy data] })
      (hdata : m.message.data = data) (hstamp : m.message.stamp = stamp.ns)
      (hbuffer : n.p.compressed = false → m.msg.data.length = n.p.expectedSize)

theorem copied_spec {n : Node S P} {frame : Frame P} (stamp : Stamp S) (env : S)
    (hvalid : frame.valid = true)
    (hbuffer : n.p.compressed = false → n.msg.data.length = n.p.expectedSize) :
    Copied n frame stamp (E.view env frame) (n.copied frame stamp (E.frameBytes env frame)) := by
  have hdata : frame.data ≠ none := by
    obtain ⟨⟨ptr, hptr⟩, -⟩ := Frame.valid_iff.mp hvalid
    simp [hptr]
  unfold Node.copied
  split_ifs with hcompressed hshort
  · have hlength : (resize n.cmsg.data frame.size).length
        = (E.frameBytes env frame frame.size).length := by
      rw [length_resize, length_frameBytes hdata]
    refine .copied (E.frameBytes env frame frame.size) ?_ rfl ?_ ?_ ?_
    · simp [payload, hcompressed, view_eq_frameBytes]
    · simp [Node.message, hcompressed, Message.data, memcpy_of_length_eq hlength]
    · simp [Node.message, hcompressed, Message.stamp]
    · intro hraw
      simp [hcompressed] at hraw
  · exact .short (by simp [payload, hcompressed, hshort]) rfl
  · have hraw : n.p.compressed = false := by simpa using hcompressed
    have hlength : n.msg.data.length = (E.frameBytes env frame n.p.expectedSize).length := by
      rw [hbuffer hraw, length_frameBytes hdata]
    refine .copied (E.frameBytes env frame n.p.expectedSize) ?_ rfl ?_ ?_ ?_
    · have htake : (E.view env frame).take n.p.expectedSize
          = E.frameBytes env frame n.p.expectedSize := take_view (Nat.not_lt.mp hshort)
      simp [payload, hraw, hshort, htake]
    · simp [Node.message, hraw, Message.data, memcpy_of_length_eq hlength]
    · simp [Node.message, hraw, Message.stamp]
    · intro _
      rw [memcpy_of_length_eq hlength, ← hlength, hbuffer hraw]

theorem Delivering.copy_step (h : Delivering E I p s) {frame : Frame P} {stamp : Stamp S}
    (hpc : s.node.pc = .stamped frame stamp) :
    Delivering E I p { s with node := s.node.copied frame stamp (E.frameBytes s.env frame) } := by
  obtain ⟨hparams, henv, hbuffer, hstable, ⟨rest, hrest, hcalls⟩, hpublished⟩ := h
  subst hparams
  obtain ⟨hvalid, -⟩ := hstable frame (by rw [hpc]; rfl)
  have hrest : rest = afterGrab s.node.p frame (E.view s.env frame) := by
    simpa only [Outstanding, hpc] using hrest
  cases copied_spec (E := E) stamp s.env hvalid hbuffer with
  | short hpayload hm =>
      rw [hm]
      refine ⟨rfl, henv, hbuffer, ?_, ⟨rest, ?_, hcalls⟩, hpublished⟩
      · intro other hother
        simp [Pc.uncopied] at hother
      · simp [Outstanding, hrest, afterGrab, hpayload]
  | copied data hpayload hm hdata hstamp hlength =>
      generalize s.node.copied frame stamp (E.frameBytes s.env frame) = m at *
      have hnode : m.calls = s.node.calls ++ [.copy data] := by rw [hm]
      have hpc' : m.pc = .copied frame stamp := by rw [hm]
      have hsent : m.published = s.node.published := by rw [hm]
      have hp : m.p = s.node.p := by rw [hm]
      refine ⟨hp, henv, hlength, ?_, ⟨[.publish data, .release], ?_, ?_⟩, ?_⟩
      · intro other hother
        simp [hpc', Pc.uncopied] at hother
      · simp [Outstanding, hpc', hdata]
      · have hgrabs : grabs m.calls = grabs s.node.calls := by simp [hnode, grabs]
        rw [hgrabs, ← hcalls, hrest]
        simp [hnode, afterGrab, hpayload]
      · simpa [hnode, hsent, sentData] using hpublished

theorem Delivering.silent_step (h : Delivering E I p s) {node : Node S P}
    (hp : node.p = s.node.p) (hmsg : node.msg = s.node.msg)
    (hpublished : node.published = s.node.published) (hcalls : node.calls = s.node.calls)
    (huncopied : ∀ frame, node.pc.uncopied = some frame → s.node.pc.uncopied = some frame)
    (houtstanding : ∀ rest, Outstanding E s rest → Outstanding E { s with node } rest) :
    Delivering E I p { s with node } := by
  obtain ⟨hparams, henv, hbuffer, hstable, ⟨rest, hrest, hrestCalls⟩, hsent⟩ := h
  refine ⟨hp.trans hparams, henv, ?_, ?_, ⟨rest, houtstanding rest hrest, ?_⟩, ?_⟩
  · intro hraw
    rw [hmsg, hbuffer hraw]
  · intro frame hframe
    exact hstable frame (huncopied frame hframe)
  · rw [hcalls, hrestCalls]
  · rw [hpublished, hcalls, hsent]

theorem Delivering.step (hE : E.StableViews I) (h : Delivering E I p s) {e : Event M G R}
    (hstep : System.Step E s e t) : Delivering E I p t := by
  cases hstep with
  | env hmove => exact h.env_step hE hmove
  | exit hpc =>
      refine h.silent_step rfl rfl rfl rfl ?_ ?_
      · intro frame hframe
        cases hframe
      · intro rest hrest
        simpa only [Outstanding, hpc] using hrest
  | grab hpc hgrab => exact h.grab_step hE hpc hgrab
  | count hpc =>
      unfold Node.counted
      rw [Node.account_eq]
      refine h.silent_step rfl rfl rfl rfl ?_ ?_
      · intro other hother
        simpa [hpc, Pc.uncopied] using hother
      · intro rest hrest
        simpa only [Outstanding, hpc] using hrest
  | tryOpen hpc =>
      refine h.silent_step rfl rfl rfl rfl ?_ ?_
      · intro other hother
        simpa [hpc, Pc.uncopied, Node.opened] using hother
      · intro rest hrest
        simpa only [Outstanding, hpc, Node.opened] using hrest
  | readLow hpc =>
      unfold Node.stamped
      split
      · refine h.silent_step rfl rfl rfl rfl ?_ ?_
        · intro other hother
          cases hother
        · intro rest _
          trivial
      · refine h.silent_step rfl rfl rfl rfl ?_ ?_
        · intro other hother
          simpa [hpc, Pc.uncopied] using hother
        · intro rest hrest
          simpa only [Outstanding, hpc] using hrest
  | copy hpc => exact h.copy_step hpc
  | logCbk hpc =>
      refine h.silent_step rfl rfl rfl rfl ?_ ?_
      · intro other hother
        simp [Node.recorded, Pc.uncopied] at hother
      · intro rest hrest
        have hrest : rest = [.publish s.node.message.data, .release] := by
          simpa only [Outstanding, hpc] using hrest
        exact hrest
  | publish hpc =>
      obtain ⟨hparams, henv, hbuffer, hstable, ⟨rest, hrest, hcalls⟩, hpublished⟩ := h
      have hrest : rest = [.publish s.node.message.data, .release] := by
        simpa only [Outstanding, hpc] using hrest
      refine ⟨hparams, henv, hbuffer, ?_, ⟨[.release], rfl, ?_⟩, ?_⟩
      · intro other hother
        cases hother
      · have hgrabs : grabs (s.node.calls ++ [.publish s.node.message.data])
            = grabs s.node.calls := by simp [grabs]
        simp only [Node.sent]
        rw [hgrabs, ← hcalls, hrest, List.append_assoc]
        rfl
      · simp only [Node.sent, List.map_append, hpublished]
        simp [sentData]
  | logPub hpc =>
      refine h.silent_step rfl rfl rfl rfl ?_ ?_
      · intro other hother
        cases hother
      · intro rest hrest
        simpa only [Outstanding, hpc, Node.logged] using hrest
  | release hpc hrelease =>
      obtain ⟨hparams, henv, hbuffer, hstable, ⟨rest, hrest, hcalls⟩, hpublished⟩ := h
      have hrest : rest = [.release] := by simpa only [Outstanding, hpc] using hrest
      refine ⟨hparams, hE.release _ _ _ henv hrelease, hbuffer, ?_, ⟨[], rfl, ?_⟩, ?_⟩
      · intro other hother
        cases hother
      · have hgrabs : grabs (s.node.calls ++ [.release]) = grabs s.node.calls := by simp [grabs]
        simp only [Node.released, List.append_nil]
        rw [hgrabs, ← hcalls, hrest]
      · simpa [Node.released, sentData] using hpublished

theorem delivering_reachable (hE : E.StableViews I) {stamper : MmapStamper} {boxFd : Nat} {env : S}
    (henv : I env)
    (h : Runs.Reachable (System.step E) ⟨Node.init p stamper boxFd, env⟩ s) :
    Delivering E I p s :=
  System.invariant (fun _ _ _ hs hstep => hs.step hE hstep) (delivering_init stamper boxFd henv) h

/-- **The node publishes what the backend delivers.** Over any backend that keeps the contract of
`Frame`, the calls of the grab thread are at every moment a beginning of the iterations of the
frames grabbed so far, and at the head of the loop they are all of them: each valid frame is copied
and published when it has a payload, and released once, before the next `grab`. At the head of the
loop the messages published so far are the payloads of the valid frames, in order. -/
theorem calls_eq_iterations (hE : E.StableViews I) (stamper : MmapStamper) (boxFd : Nat) (env : S)
    (henv : I env)
    (h : Runs.Reachable (System.step E) ⟨Node.init p stamper boxFd, env⟩ s) :
    s.node.calls <+: (grabs s.node.calls).flatMap (iteration p) ∧
    (s.node.pc = .head ∨ s.node.pc = .exited →
      s.node.calls = (grabs s.node.calls).flatMap (iteration p) ∧
      s.node.published.map (fun sent => sent.message.data)
        = (grabs s.node.calls).filterMap fun grabbed =>
            if grabbed.1.valid then payload p grabbed.1 grabbed.2 else none) := by
  have hdelivering : Delivering E I p s := delivering_reachable hE henv h
  obtain ⟨rest, hrest, hcalls⟩ := hdelivering.calls
  refine ⟨⟨rest, hcalls⟩, fun hpc => ?_⟩
  have hnil : rest = [] := by
    rcases hpc with hpc | hpc <;> simpa only [Outstanding, hpc] using hrest
  rw [hnil, List.append_nil] at hcalls
  refine ⟨hcalls, ?_⟩
  rw [hdelivering.published, ← sentData_flatMap_iteration, ← hcalls]

/-- A frame of `size` bytes goes through the pipeline and the loop counts it. -/
def pulled (size : Nat) : List (Event GstMove PullAnswer Unit) :=
  [.env (.pushTime 5), .env .pushCount, .env .pushOn, .env .arrive,
   .grab (.sample true true (some size)), .count]

/-- Compressed frames of three, one and four bytes are published, then a `grab` times out. -/
def jpegRun : List (Event GstMove PullAnswer Unit) :=
  let published (size : Nat) : List (Event GstMove PullAnswer Unit) :=
    pulled size ++ [.tryOpen ⟨none, none⟩, .readLow 7, .copy, .logCbk 9, .publish, .logPub 11,
      .release ()]
  published 3 ++ published 1 ++ published 4 ++ [.grab .timeout]

/-- A raw frame is too short. -/
def shortRun : List (Event GstMove PullAnswer Unit) :=
  pulled 5 ++ [.tryOpen ⟨none, none⟩, .readLow 7, .copy, .release (), .grab .timeout]

def rampContent (k offset : Nat) : UInt8 := UInt8.ofNat (10 * k + offset)

theorem calls_eq_iterations_jpegRun :
    (∃ s, Runs.run (System.step (gstEnv rampContent))
        ⟨Node.init (loadParams { compressed := some true }), {}⟩ jpegRun = some s ∧
      s.node.calls = [
        .grab ⟨some 0, 3⟩ [0, 1, 2], .copy [0, 1, 2], .publish [0, 1, 2], .release,
        .grab ⟨some 1, 1⟩ [10], .copy [10], .publish [10], .release,
        .grab ⟨some 2, 4⟩ [20, 21, 22, 23], .copy [20, 21, 22, 23], .publish [20, 21, 22, 23],
        .release, .grab {} []] ∧
      s.node.calls
        = (grabs s.node.calls).flatMap (iteration (loadParams { compressed := some true }))) ∧
    ∃ s, Runs.run (System.step (gstEnv rampContent)) ⟨Node.init (loadParams {}), {}⟩ shortRun
        = some s ∧
      s.node.calls = [.grab ⟨some 0, 5⟩ [0, 1, 2, 3, 4], .release, .grab {} []] ∧
      s.node.calls = (grabs s.node.calls).flatMap (iteration (loadParams {})) := by
  constructor
  · refine ⟨_, rfl, rfl, ?_⟩
    exact ((calls_eq_iterations (gstEnv_stableViews rampContent) {} 3 {} trivial
      ⟨jpegRun, rfl⟩).2 (.inl rfl)).1
  · refine ⟨_, rfl, rfl, ?_⟩
    exact ((calls_eq_iterations (gstEnv_stableViews rampContent) {} 3 {} trivial
      ⟨shortRun, rfl⟩).2 (.inl rfl)).1

end EconRos2Driver
