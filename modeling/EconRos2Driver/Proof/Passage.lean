import EconRos2Driver.Proof.Delivery

/-!
# The frames on their way through the loop

Over any backend, the frames published and the one in hand are some of the valid frames grabbed, in
order; all of them, as long as none is too short for a raw message.

With each frame goes a `tag`, anything that can be read of the backend and that only a `grab` or a
`release` changes: a message carries the tag of its own frame. The frames alone are the case of a
tag that says nothing.
-/

namespace EconRos2Driver

open Blackbox

variable {S P M G R α : Type}

def validGrabs (calls : List (Call P)) : List (Frame P) :=
  ((grabs calls).map Prod.fst).filter fun frame => frame.valid

theorem validGrabs_append (calls : List (Call P)) (frame : Frame P) (bytes : List UInt8) :
    validGrabs (calls ++ [.grab frame bytes])
      = validGrabs calls ++ if frame.valid then [frame] else [] := by
  unfold validGrabs grabs
  rw [List.filterMap_append, List.map_append, List.filter_append]
  cases hvalid : frame.valid <;> simp [hvalid]

theorem validGrabs_of_grabs {calls calls' : List (Call P)} (h : grabs calls = grabs calls') :
    validGrabs calls = validGrabs calls' := by
  unfold validGrabs
  rw [h]

/-- The frame that the current iteration has yet to publish, with its tag. -/
def Pc.unsent (tag : S → α) (env : S) : Pc S P → Option (Frame P × α)
  | .grabbed frame | .counted frame | .opened frame | .stamped frame _ | .copied frame _ =>
      some (frame, tag env)
  | .recorded frame _ _ capturedAt => some (frame, tag capturedAt)
  | .head | .sent _ _ | .releasing _ | .exited | .sigbus => none

/-- The frames published so far. -/
def Node.tagged (tag : S → α) (n : Node S P) : List (Frame P × α) :=
  n.published.map fun sent => (sent.frame, tag sent.capturedAt)

/-- The frames published so far and the one on its way. -/
def System.outgoing (tag : S → α) (s : System S P) : List (Frame P × α) :=
  s.node.tagged tag ++ (s.node.pc.unsent tag s.env).toList

/-- The valid frame that a `grab` returns, with the tag it leaves behind. -/
def captures (E : Env S P M G R) (tag : S → α) (s : System S P) :
    Event M G R → List (Frame P × α)
  | .grab answer => match E.grab s.env answer with
      | some (frame, env) => if frame.valid then [(frame, tag env)] else []
      | none => []
  | _ => []

variable {E : Env S P M G R} {tag : S → α} {s t : System S P} {e : Event M G R}

/-- **What a step does to the frames on their way.** Nothing, or one more is grabbed, or the one
that was on its way is dropped: it is too short for a raw message, or the mapping of the stamper is
gone. -/
inductive Passage (E : Env S P M G R) (tag : S → α) (s : System S P) (e : Event M G R)
    (t : System S P) : Prop where
  | kept (hcaptures : captures E tag s e = [])
      (hgrabs : validGrabs t.node.calls = validGrabs s.node.calls)
      (houtgoing : t.outgoing tag = s.outgoing tag)
      (hfault : s.node.pc = .sigbus → t.node.pc = .sigbus)
  | grabbed (frame : Frame P) (hpc : s.node.pc = .head)
      (hcaptures : captures E tag s e = [(frame, tag t.env)])
      (hgrabs : validGrabs t.node.calls = validGrabs s.node.calls ++ [frame])
      (houtgoing : t.outgoing tag = s.outgoing tag ++ [(frame, tag t.env)])
  | dropped (frame : Frame P × α) (hcaptures : captures E tag s e = [])
      (hgrabs : validGrabs t.node.calls = validGrabs s.node.calls)
      (houtgoing : s.outgoing tag = t.outgoing tag ++ [frame])
      (hwhy : t.node.pc = .sigbus
        ∨ s.node.p.compressed = false ∧ frame.1.size < s.node.p.expectedSize)

theorem passage (htag : ∀ w m u, E.move w m = some u → tag u = tag w)
    (hstep : System.Step E s e t) : Passage E tag s e t := by
  cases hstep with
  | @env move env hmove =>
      refine .kept rfl rfl ?_ id
      have hsame : tag env = tag s.env := htag _ _ _ hmove
      simp only [System.outgoing]
      cases hpc : s.node.pc <;> simp [Pc.unsent, hsame]
  | exit hpc =>
      exact .kept rfl rfl (by simp [System.outgoing, Node.tagged, hpc, Pc.unsent]) (by simp [hpc])
  | @grab answer frame env hpc hgrab =>
      cases hvalid : frame.valid with
      | false =>
          refine .kept ?_ ?_ ?_ (by simp [hpc])
          · simp [captures, hgrab, hvalid]
          · simp [Node.grabbed, validGrabs_append, hvalid]
          · simp [Node.grabbed, System.outgoing, Node.tagged, hvalid, hpc, Pc.unsent]
      | true =>
          refine .grabbed frame hpc ?_ ?_ ?_
          · simp [captures, hgrab, hvalid]
          · simp [Node.grabbed, validGrabs_append, hvalid]
          · simp [Node.grabbed, System.outgoing, Node.tagged, hvalid, hpc, Pc.unsent]
  | count hpc =>
      rw [Node.counted, Node.account_eq]
      exact .kept rfl rfl (by simp [System.outgoing, Node.tagged, hpc, Pc.unsent]) (by simp [hpc])
  | tryOpen hpc =>
      exact .kept rfl rfl (by simp [System.outgoing, Node.tagged, Node.opened, hpc, Pc.unsent])
        (by simp [hpc])
  | @readLow frame _ hpc =>
      unfold Node.stamped
      split
      · exact .dropped (frame, tag s.env) rfl rfl
          (by simp [System.outgoing, Node.tagged, hpc, Pc.unsent]) (.inl rfl)
      · exact .kept rfl rfl (by simp [System.outgoing, Node.tagged, hpc, Pc.unsent])
          (by simp [hpc])
  | @copy frame _ hpc =>
      unfold Node.copied
      split_ifs with hcompressed hshort
      · exact .kept rfl (validGrabs_of_grabs (by simp [grabs]))
          (by simp [System.outgoing, Node.tagged, hpc, Pc.unsent]) (by simp [hpc])
      · exact .dropped (frame, tag s.env) rfl rfl
          (by simp [System.outgoing, Node.tagged, hpc, Pc.unsent])
          (.inr ⟨Bool.not_eq_true _ ▸ hcompressed, hshort⟩)
      · exact .kept rfl (validGrabs_of_grabs (by simp [grabs]))
          (by simp [System.outgoing, Node.tagged, hpc, Pc.unsent]) (by simp [hpc])
  | logCbk hpc =>
      exact .kept rfl rfl (by simp [System.outgoing, Node.tagged, Node.recorded, hpc, Pc.unsent])
        (by simp [hpc])
  | publish hpc =>
      exact .kept rfl (validGrabs_of_grabs (by simp [Node.sent, grabs]))
        (by simp [System.outgoing, Node.tagged, Node.sent, hpc, Pc.unsent]) (by simp [hpc])
  | logPub hpc =>
      exact .kept rfl rfl (by simp [System.outgoing, Node.tagged, Node.logged, hpc, Pc.unsent])
        (by simp [hpc])
  | release hpc _ =>
      exact .kept rfl (validGrabs_of_grabs (by simp [Node.released, grabs]))
        (by simp [System.outgoing, Node.tagged, Node.released, hpc, Pc.unsent]) (by simp [hpc])

/-- A frame that `publish` does not turn away. -/
def Accepted (p : Params) (frame : Frame P) : Prop :=
  p.compressed = false → p.expectedSize ≤ frame.size

/-- The frames on their way are some of those grabbed in the past; as long as every frame is
accepted, they are all of them, and only at a fault the last one is missing. -/
structure Gapless (tag : S → α) (p : Params) (s : System S P) (past : List (Frame P × α)) :
    Prop where
  params : s.node.p = p
  grabs : past.map Prod.fst = validGrabs s.node.calls
  sublist : (s.outgoing tag).Sublist past
  outgoing : (∀ frame ∈ validGrabs s.node.calls, Accepted p frame) →
    s.outgoing tag <+: past ∧ (s.node.pc ≠ .sigbus → s.outgoing tag = past)

theorem gapless_init (tag : S → α) (p : Params) (stamper : MmapStamper) (boxFd : Nat) (env : S) :
    Gapless tag p ⟨(Node.init p stamper boxFd : Node S P), env⟩ [] where
  params := rfl
  grabs := rfl
  sublist := List.Sublist.refl []
  outgoing := fun _ => ⟨List.prefix_refl [], fun _ => rfl⟩

theorem Gapless.step {p : Params} {past : List (Frame P × α)} (h : Gapless tag p s past)
    (hparams : t.node.p = s.node.p) (hpassage : Passage E tag s e t) :
    Gapless tag p t (past ++ captures E tag s e) := by
  cases hpassage with
  | kept hcaptures hgrabs houtgoing hfault =>
      rw [hcaptures, List.append_nil]
      refine ⟨hparams.trans h.params, h.grabs.trans hgrabs.symm, houtgoing ▸ h.sublist, ?_⟩
      intro haccepted
      rw [hgrabs] at haccepted
      obtain ⟨hpre, heq⟩ := h.outgoing haccepted
      rw [houtgoing]
      exact ⟨hpre, fun hpc => heq (mt hfault hpc)⟩
  | grabbed frame hpc hcaptures hgrabs houtgoing =>
      rw [hcaptures]
      refine ⟨hparams.trans h.params, ?_, ?_, ?_⟩
      · rw [List.map_append, h.grabs, hgrabs]
        rfl
      · rw [houtgoing]
        exact h.sublist.append (List.Sublist.refl _)
      · intro haccepted
        rw [hgrabs] at haccepted
        have heq := (h.outgoing fun f hf => haccepted f (List.mem_append_left _ hf)).2
          (by simp [hpc])
        rw [houtgoing, heq]
        exact ⟨List.prefix_refl _, fun _ => rfl⟩
  | dropped frame hcaptures hgrabs houtgoing hwhy =>
      rw [hcaptures, List.append_nil]
      have hsublist := h.sublist
      rw [houtgoing] at hsublist
      refine ⟨hparams.trans h.params, h.grabs.trans hgrabs.symm,
        (List.sublist_append_left _ _).trans hsublist, ?_⟩
      intro haccepted
      rw [hgrabs] at haccepted
      obtain ⟨hpre, -⟩ := h.outgoing haccepted
      rw [houtgoing] at hpre
      refine ⟨(List.prefix_append _ _).trans hpre, fun hpc => ?_⟩
      obtain ⟨hraw, hshort⟩ := hwhy.resolve_left hpc
      rw [h.params] at hraw hshort
      have hmem : frame.1 ∈ validGrabs s.node.calls := by
        rw [← h.grabs]
        exact List.mem_map_of_mem (hpre.subset (by simp))
      exact absurd (haccepted _ hmem hraw) (Nat.not_le.mpr hshort)

theorem gapless_run (tag : S → α) (htag : ∀ w m u, E.move w m = some u → tag u = tag w)
    {p : Params} {stamper : MmapStamper} {boxFd : Nat} {env : S} {events : List (Event M G R)}
    (h : Runs.run (System.step E) ⟨Node.init p stamper boxFd, env⟩ events = some s) :
    Gapless tag p s (Runs.outputs (System.step E) (captures E tag)
      ⟨Node.init p stamper boxFd, env⟩ events) :=
  Runs.invariant_of_outputs (I := Gapless tag p)
    (fun _ _ _ _ hs hstep =>
      hs.step (System.Step.of_step hstep).node_p (passage htag (.of_step hstep)))
    (gapless_init tag p stamper boxFd env) h

theorem Gapless.tagged {p : Params} {past : List (Frame P × α)} (h : Gapless tag p s past)
    (haccepted : ∀ frame ∈ validGrabs s.node.calls, Accepted p frame) :
    s.node.tagged tag <+: past ∧
      (s.node.pc = .head ∨ s.node.pc = .exited → s.node.tagged tag = past) := by
  obtain ⟨hpre, heq⟩ := h.outgoing haccepted
  refine ⟨(List.prefix_append _ _).trans hpre, fun hpc => ?_⟩
  rcases hpc with hpc | hpc
  all_goals
    have houtgoing := heq (by simp [hpc])
    simpa [System.outgoing, hpc, Pc.unsent] using houtgoing

/-! ### The frames alone -/

theorem map_fst_tagged (tag : S → α) (n : Node S P) :
    (n.tagged tag).map Prod.fst = n.published.map fun sent => sent.frame := by
  simp [Node.tagged]

theorem published_sublist {p : Params} {stamper : MmapStamper} {boxFd : Nat} {env : S}
    (h : Runs.Reachable (System.step E) ⟨Node.init p stamper boxFd, env⟩ s) :
    (s.node.published.map fun sent => sent.frame).Sublist (validGrabs s.node.calls) := by
  obtain ⟨events, hrun⟩ := h
  have hgapless := gapless_run (fun _ => ()) (fun _ _ _ _ => rfl) hrun
  rw [← hgapless.grabs, ← map_fst_tagged]
  exact ((List.sublist_append_left _ _).trans hgapless.sublist).map Prod.fst

theorem published_frames_isPrefix {p : Params} {stamper : MmapStamper} {boxFd : Nat} {env : S}
    (h : Runs.Reachable (System.step E) ⟨Node.init p stamper boxFd, env⟩ s)
    (haccepted : ∀ frame ∈ validGrabs s.node.calls, Accepted p frame) :
    (s.node.published.map fun sent => sent.frame) <+: validGrabs s.node.calls ∧
      (s.node.pc = .head ∨ s.node.pc = .exited →
        (s.node.published.map fun sent => sent.frame) = validGrabs s.node.calls) := by
  obtain ⟨events, hrun⟩ := h
  have hgapless := gapless_run (fun _ => ()) (fun _ _ _ _ => rfl) hrun
  obtain ⟨hpre, heq⟩ := hgapless.tagged haccepted
  rw [← hgapless.grabs, ← map_fst_tagged]
  exact ⟨hpre.map Prod.fst, fun hpc => congrArg _ (heq hpc)⟩

end EconRos2Driver
