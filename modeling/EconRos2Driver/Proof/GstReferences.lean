import EconRos2Driver.Library.Ledger
import EconRos2Driver.Proof.GstPipeline

/-!
# References of the GStreamer backend

`grab` takes a sample, a reference to its memory and a mapping of it, and leaves with all three or
with none; `release` gives back the three. The loop calls `release` only for a valid frame, so what
an empty mapping leaves behind stays outstanding: the next `grab` overwrites the pointer to the
sample, which nobody can give back any more.
-/

namespace EconRos2Driver

open Ledger

inductive GstRef where
  | sample (k : Nat)
  | memory (k : Nat)
  | mapping (k : Nat)
  deriving DecidableEq, Repr

def GstRef.isSample : GstRef → Bool
  | .sample _ => true
  | .memory _ | .mapping _ => false

def GstCall.entry : GstCall → Entry GstRef
  | .pullSample k => .take (.sample k)
  | .sampleUnref k => .give (.sample k)
  | .getMemory k => .take (.memory k)
  | .memoryUnref k => .give (.memory k)
  | .memoryMap k => .take (.mapping k)
  | .memoryUnmap k => .give (.mapping k)

namespace GstWorld

def ledger (w : GstWorld) : List (Entry GstRef) := w.calls.map GstCall.entry

/-- What a valid frame in hand stands for. -/
def handRefs (k : Nat) : List GstRef := [.mapping k, .memory k, .sample k]

theorem ledger_append {w u : GstWorld} {calls : List GstCall} (h : u.calls = w.calls ++ calls) :
    u.ledger = w.ledger ++ calls.map GstCall.entry := by
  rw [ledger, ledger, h, List.map_append]

/-- **What one `grab` does to the references.** It gives back all it has taken, or it keeps a
sample, its memory and a mapping. -/
inductive Referenced (w : GstWorld) (answer : PullAnswer) (frame : Frame Nat) (t : GstWorld) :
    Prop where
  | returned (calls : List GstCall) (hanswer : answer ≠ .sample true true (some 0))
      (hinvalid : frame.valid = false) (hcalls : t.calls = w.calls ++ calls)
      (hback : outstanding (calls.map GstCall.entry) = some [])
      (hsample : t.backend.sample = none)
      (hmemory : w.backend.memory = none → t.backend.memory = none)
  | mapped (k size : Nat) (hanswer : answer = .sample true true (some size))
      (hframe : frame = { data := some k, size })
      (hcalls : t.calls = w.calls ++ [.pullSample k, .getMemory k, .memoryMap k])
      (hsample : t.backend.sample = some k) (hmemory : t.backend.memory = some k)

theorem grab_referenced {w t : GstWorld} {answer : PullAnswer} {frame : Frame Nat}
    (h : w.grab answer = some (frame, t)) : Referenced w answer frame t := by
  cases answer with
  | timeout =>
      cases h
      exact .returned [] (by simp) rfl (by simp) rfl rfl id
  | sample buffer memory map =>
      obtain ⟨k, -, hresult⟩ := Option.map_eq_some_iff.mp h
      cases buffer with
      | false =>
          cases hresult
          exact .returned [.pullSample k, .sampleUnref k] (by simp) rfl (by simp [discardSample])
            (by simp [outstanding, GstCall.entry, Runs.run, Ledger.step]) rfl id
      | true => cases memory with
          | false =>
              cases hresult
              exact .returned [.pullSample k, .sampleUnref k] (by simp) rfl
                (by simp [discardSample])
                (by simp [outstanding, GstCall.entry, Runs.run, Ledger.step]) rfl fun _ => rfl
          | true => cases map with
              | none =>
                  cases hresult
                  exact .returned [.pullSample k, .getMemory k, .memoryUnref k, .sampleUnref k]
                    (by simp) rfl (by simp [discardSample, memoryUnref, getMemory])
                    (by simp [outstanding, GstCall.entry, Runs.run, Ledger.step]) rfl fun _ => rfl
              | some size =>
                  cases hresult
                  refine .mapped k size rfl rfl ?_ ?_ ?_
                  all_goals
                    simp only [getMemory]
                    split_ifs <;> simp

theorem release_calls {w : GstWorld} {k : Nat} (hsample : w.backend.sample = some k)
    (hmemory : w.backend.memory = some k) :
    w.release.calls = w.calls ++ [.memoryUnmap k, .memoryUnref k, .sampleUnref k] ∧
      w.release.backend.sample = none ∧ w.release.backend.memory = none := by
  simp [release, hsample, hmemory]

theorem release_idle {w : GstWorld} (hsample : w.backend.sample = none)
    (hmemory : w.backend.memory = none) : w.release = w := by
  simp [release, hsample, hmemory]

theorem move_refs {w t : GstWorld} {m : GstMove} (h : w.move m = some t) :
    t.calls = w.calls ∧ t.backend.sample = w.backend.sample ∧
      t.backend.memory = w.backend.memory := by
  cases m with
  | pushTime now | pushCount | pushOn =>
      cases hpad : w.srcPad <;> simp only [move, hpad] at h <;> cases h
      exact ⟨rfl, rfl, rfl⟩
  | drop position =>
      obtain ⟨k, -, rfl⟩ := Option.map_eq_some_iff.mp h
      exact ⟨rfl, rfl, rfl⟩
  | arrive =>
      cases hpipe : w.pipe <;> simp only [move, hpipe] at h <;> cases h
      exact ⟨rfl, rfl, rfl⟩
  | timeshare file =>
      cases h
      exact ⟨rfl, rfl, rfl⟩

end GstWorld

variable {content : Nat → Nat → UInt8} {s t : System GstWorld Nat}

/-- A `grab` that maps a memory of no bytes. -/
def emptyMap : Event GstMove PullAnswer Unit → Bool
  | .grab (.sample true true (some 0)) => true
  | _ => false

def samplesTaken (w : GstWorld) : Nat := (taken w.ledger).countP GstRef.isSample

def samplesGiven (w : GstWorld) : Nat := (given w.ledger).countP GstRef.isSample

def heldRefs (s : System GstWorld Nat) : List GstRef :=
  if s.node.pc.inHand then s.env.backend.sample.toList.flatMap GstWorld.handRefs else []

/-- The references after the events `past`: the samples never given back are those of the empty
mappings so far, and without one the ledger is settled up to the frame in hand. -/
structure References (s : System GstWorld Nat) (past : List (Event GstMove PullAnswer Unit)) :
    Prop where
  hand : s.node.pc.inHand = true → ∃ k, s.env.backend.sample = some k ∧
    s.env.backend.memory = some k
  samples : samplesTaken s.env
    = samplesGiven s.env + (if s.node.pc.inHand then 1 else 0) + past.countP emptyMap
  idle : past.countP emptyMap = 0 → s.node.pc.inHand = false →
    s.env.backend.sample = none ∧ s.env.backend.memory = none
  settled : past.countP emptyMap = 0 → outstanding s.env.ledger = some (heldRefs s)

theorem references_init (p : Params) (stamper : MmapStamper) (boxFd : Nat) :
    References ⟨Node.init p stamper boxFd, {}⟩ [] where
  hand := by
    intro hhand
    cases hhand
  samples := rfl
  idle := fun _ _ => ⟨rfl, rfl⟩
  settled := fun _ => rfl

theorem emptied_append (past : List (Event GstMove PullAnswer Unit))
    (e : Event GstMove PullAnswer Unit) : (past ++ [e]).countP emptyMap
      = past.countP emptyMap + if emptyMap e then 1 else 0 := by
  rw [List.countP_append, List.countP_singleton]

theorem samples_append {w u : GstWorld} {calls : List GstCall} (h : u.calls = w.calls ++ calls) :
    samplesTaken u = samplesTaken w
        + (taken (calls.map GstCall.entry)).countP GstRef.isSample ∧
      samplesGiven u = samplesGiven w
        + (given (calls.map GstCall.entry)).countP GstRef.isSample := by
  rw [samplesTaken, samplesGiven, GstWorld.ledger_append h]
  simp [samplesTaken, samplesGiven, taken, given]

theorem References.of_same {past : List (Event GstMove PullAnswer Unit)}
    {e : Event GstMove PullAnswer Unit} (h : References s past) (he : emptyMap e = false)
    (hcalls : t.env.calls = s.env.calls) (hsample : t.env.backend.sample = s.env.backend.sample)
    (hmemory : t.env.backend.memory = s.env.backend.memory)
    (hhand : t.node.pc.inHand = s.node.pc.inHand) : References t (past ++ [e]) := by
  have hpast : (past ++ [e]).countP emptyMap = past.countP emptyMap := by
    rw [emptied_append, he]
    rfl
  refine ⟨?_, ?_, ?_, ?_⟩
  · rw [hhand, hsample, hmemory]
    exact h.hand
  · rw [samplesTaken, samplesGiven, GstWorld.ledger, hcalls, hhand, hpast]
    exact h.samples
  · rw [hpast, hhand, hsample, hmemory]
    exact h.idle
  · rw [hpast, GstWorld.ledger, hcalls, heldRefs, hhand, hsample]
    exact h.settled

theorem References.grab {past : List (Event GstMove PullAnswer Unit)} (h : References s past)
    {answer : PullAnswer} {frame : Frame Nat} {w : GstWorld} (hpc : s.node.pc = .head)
    (hgrab : s.env.grab answer = some (frame, w)) (bytes : List UInt8) :
    References ⟨s.node.grabbed frame bytes, w⟩ (past ++ [.grab answer]) := by
  have hhand : (s.node.grabbed frame bytes).pc.inHand = frame.valid := by
    unfold Node.grabbed
    cases frame.valid <;> rfl
  have hbefore : s.node.pc.inHand = false := by
    rw [hpc]
    rfl
  have hsamples := h.samples
  have hsettled := h.settled
  have hpast := emptied_append past (.grab answer)
  rw [hbefore, if_neg Bool.false_ne_true] at hsamples
  rw [heldRefs, hbefore, if_neg Bool.false_ne_true] at hsettled
  cases GstWorld.grab_referenced hgrab with
  | returned calls hanswer hinvalid hcalls hback hsample hmemory =>
      have hempty : emptyMap (.grab answer) = false := by
        unfold emptyMap
        split
        · rename_i heq
          exact absurd (Event.grab.inj heq) hanswer
        · rfl
      obtain ⟨htaken, hgiven⟩ := samples_append hcalls
      have hsame := (conserved hback).countP_eq GstRef.isSample
      rw [hempty, if_neg Bool.false_ne_true, Nat.add_zero] at hpast
      refine ⟨?_, ?_, ?_, ?_⟩
      · rw [hhand, hinvalid]
        intro hfalse
        cases hfalse
      · rw [hpast, hhand, hinvalid, if_neg Bool.false_ne_true]
        show samplesTaken w = samplesGiven w + 0 + past.countP emptyMap
        omega
      · intro hnone _
        exact ⟨hsample, hmemory (h.idle (hpast ▸ hnone) hbefore).2⟩
      · intro hnone
        rw [GstWorld.ledger_append hcalls, outstanding_append (hsettled (hpast ▸ hnone)), heldRefs,
          hhand, hinvalid]
        exact hback
  | mapped k size hanswer hframe hcalls hsample hmemory =>
      obtain ⟨htaken, hgiven⟩ := samples_append hcalls
      have htaken : samplesTaken w = samplesTaken s.env + 1 := htaken
      have hgiven : samplesGiven w = samplesGiven s.env := hgiven
      by_cases hzero : size = 0
      · -- The frame is not valid, so the sample is neither in hand nor ever given back.
        have hinvalid : frame.valid = false := by simp [hframe, hzero, Frame.valid]
        rw [hanswer, hzero] at hpast ⊢
        rw [show emptyMap (.grab (.sample true true (some 0))) = true from rfl, if_pos rfl] at hpast
        refine ⟨?_, ?_, ?_, ?_⟩
        · rw [hhand, hinvalid]
          intro hfalse
          cases hfalse
        · rw [hpast, hhand, hinvalid, if_neg Bool.false_ne_true]
          show samplesTaken w = samplesGiven w + 0 + (past.countP emptyMap + 1)
          omega
        · intro hnone
          omega
        · intro hnone
          omega
      · have hvalid : frame.valid = true := by
          simp [hframe, Frame.valid, Nat.pos_of_ne_zero hzero]
        have hempty : emptyMap (.grab answer) = false := by
          rw [hanswer]
          cases size with
          | zero => exact absurd rfl hzero
          | succ size => rfl
        rw [hempty, if_neg Bool.false_ne_true, Nat.add_zero] at hpast
        refine ⟨fun _ => ⟨k, hsample, hmemory⟩, ?_, ?_, ?_⟩
        · rw [hpast, hhand, hvalid, if_pos rfl]
          show samplesTaken w = samplesGiven w + 1 + past.countP emptyMap
          omega
        · intro _ hfalse
          rw [hhand, hvalid] at hfalse
          cases hfalse
        · intro hnone
          rw [GstWorld.ledger_append hcalls, outstanding_append (hsettled (hpast ▸ hnone)),
            heldRefs, hhand, hvalid]
          simp only [if_true, hsample]
          rfl

theorem References.release {past : List (Event GstMove PullAnswer Unit)} (h : References s past)
    {frame : Frame Nat} (hpc : s.node.pc = .releasing frame) :
    References ⟨s.node.released, s.env.release⟩ (past ++ [.release ()]) := by
  have hhand : s.node.pc.inHand = true := by
    rw [hpc]
    rfl
  obtain ⟨k, hsample, hmemory⟩ := h.hand hhand
  obtain ⟨hcalls, hsample', hmemory'⟩ := GstWorld.release_calls hsample hmemory
  obtain ⟨htaken, hgiven⟩ := samples_append hcalls
  have htaken : samplesTaken s.env.release = samplesTaken s.env := htaken
  have hgiven : samplesGiven s.env.release = samplesGiven s.env + 1 := hgiven
  have hsamples := h.samples
  have hsettled := h.settled
  have hpast := emptied_append past (.release ())
  rw [hhand, if_pos rfl] at hsamples
  rw [heldRefs, hhand, hsample] at hsettled
  rw [show emptyMap (.release ()) = false from rfl, if_neg Bool.false_ne_true,
    Nat.add_zero] at hpast
  refine ⟨?_, ?_, fun _ _ => ⟨hsample', hmemory'⟩, ?_⟩
  · intro hfalse
    cases hfalse
  · rw [hpast, htaken, hgiven, hsamples]
    rfl
  · intro hnone
    rw [GstWorld.ledger_append hcalls, outstanding_append (hsettled (hpast ▸ hnone))]
    simp [GstWorld.handRefs, GstCall.entry, Runs.run, Ledger.step, heldRefs, Node.released,
      Pc.inHand]

theorem References.step {past : List (Event GstMove PullAnswer Unit)}
    {e : Event GstMove PullAnswer Unit} (h : References s past)
    (hstep : System.Step (gstEnv content) s e t) : References t (past ++ [e]) := by
  cases hstep with
  | env hmove =>
      obtain ⟨hcalls, hsample, hmemory⟩ := GstWorld.move_refs hmove
      exact h.of_same rfl hcalls hsample hmemory rfl
  | grab hpc hgrab => exact h.grab hpc hgrab _
  | release hpc hrelease =>
      obtain rfl := Option.some.inj hrelease
      exact h.release hpc
  | readLow hpc =>
      refine h.of_same (t := ⟨_, s.env⟩) rfl rfl rfl rfl ?_
      rw [hpc]
      unfold Node.stamped
      split <;> rfl
  | copy hpc =>
      refine h.of_same (t := ⟨_, s.env⟩) rfl rfl rfl rfl ?_
      rw [hpc]
      unfold Node.copied
      split_ifs <;> rfl
  | exit hpc | count hpc | tryOpen hpc | logCbk hpc | publish hpc | logPub hpc =>
      refine h.of_same (t := ⟨_, s.env⟩) rfl rfl rfl rfl ?_
      rw [hpc]
      rfl

theorem references_run {p : Params} {stamper : MmapStamper} {boxFd : Nat}
    {events : List (Event GstMove PullAnswer Unit)}
    (h : Runs.run (System.step (gstEnv content)) ⟨Node.init p stamper boxFd, {}⟩ events = some s) :
    References s events := by
  simpa using Runs.invariant_of_history (I := References)
    (fun _ _ _ _ hs hstep => hs.step (.of_step hstep)) (references_init p stamper boxFd) h

theorem stop_idle {w : GstWorld} (hsample : w.backend.sample = none)
    (hmemory : w.backend.memory = none) :
    w.stop.ledger = w.ledger ∧ w.stop.backend.sample = none ∧ w.stop.backend.memory = none := by
  unfold GstWorld.stop
  rw [GstWorld.release_idle hsample hmemory]
  exact ⟨rfl, hsample, hmemory⟩

theorem stops_idle {w : GstWorld} (hsample : w.backend.sample = none)
    (hmemory : w.backend.memory = none) (n : Nat) : (GstWorld.stop^[n] w).ledger = w.ledger := by
  induction n generalizing w with
  | zero => rfl
  | succ n ih =>
      obtain ⟨hledger, hsample', hmemory'⟩ := stop_idle hsample hmemory
      rw [Function.iterate_succ_apply, ih hsample' hmemory', hledger]

/-- **When the references balance.** At a head of the loop and when it has ended nothing is
outstanding, and so it stays however often `stop` is called, exactly when no `grab` so far has
mapped a memory of no bytes. -/
theorem settled_iff_no_empty_map (content : Nat → Nat → UInt8) (p : Params) (stamper : MmapStamper)
    (boxFd : Nat) (events : List (Event GstMove PullAnswer Unit)) (s : System GstWorld Nat)
    (h : Runs.run (System.step (gstEnv content)) ⟨Node.init p stamper boxFd, {}⟩ events = some s)
    (hpc : s.node.pc = .head ∨ s.node.pc = .exited) :
    (∀ n, outstanding (GstWorld.stop^[n] s.env).ledger = some []) ↔
      ∀ e ∈ events, e ≠ .grab (.sample true true (some 0)) := by
  have hreferences := references_run h
  have hidle : s.node.pc.inHand = false := by
    rcases hpc with hpc | hpc <;> rw [hpc] <;> rfl
  have hcount : events.countP emptyMap = 0 ↔
      ∀ e ∈ events, e ≠ .grab (.sample true true (some 0)) := by
    rw [List.countP_eq_zero]
    apply forall_congr'
    intro e
    apply imp_congr_right
    intro _
    unfold emptyMap
    split <;> simp_all
  rw [← hcount]
  constructor
  · intro hsettled
    have hsamples := hreferences.samples
    have hsame := (conserved (hsettled 0)).countP_eq GstRef.isSample
    have hsame : samplesTaken s.env = samplesGiven s.env := hsame
    rw [hidle, if_neg Bool.false_ne_true] at hsamples
    omega
  · intro hnone n
    obtain ⟨hsample, hmemory⟩ := hreferences.idle hnone hidle
    have hsettled := hreferences.settled hnone
    rw [heldRefs, hidle, if_neg Bool.false_ne_true] at hsettled
    rw [stops_idle hsample hmemory, hsettled]

/-- One frame whose memory cannot be mapped, one that goes through, and a timeout. -/
def mixedRun : List (Event GstMove PullAnswer Unit) :=
  [.env (.pushTime 5), .env .pushCount, .env .pushOn, .env .arrive,
   .grab (.sample true true none),
   .env (.pushTime 6), .env .pushCount, .env .pushOn, .env .arrive,
   .grab (.sample true true (some 3)), .count, .tryOpen ⟨none, none⟩, .readLow 7, .copy,
   .logCbk 9, .publish, .logPub 11, .release (), .grab .timeout, .exit]

theorem settled_mixedRun : ∃ s,
    Runs.run (System.step (gstEnv rampContent))
        ⟨Node.init (loadParams { compressed := some true }), {}⟩ mixedRun = some s ∧
      s.env.calls.length = 10 ∧
      ((∀ n, outstanding (GstWorld.stop^[n] s.env).ledger = some []) ↔
        ∀ e ∈ mixedRun, e ≠ .grab (.sample true true (some 0))) := by
  refine ⟨_, rfl, rfl, ?_⟩
  exact settled_iff_no_empty_map rampContent (loadParams { compressed := some true }) {} 3 mixedRun
    _ rfl (.inr rfl)

/-- An empty mapping, then a timeout and the end of the loop: `stop` finds the memory and the
mapping, but the pointer to the sample is gone. -/
def emptyMapRun : List (Event GstMove PullAnswer Unit) :=
  [.env (.pushTime 5), .env .pushCount, .env .pushOn, .env .arrive,
   .grab (.sample true true (some 0)), .grab .timeout, .exit]

theorem leaked_sample_emptyMapRun : ∃ s,
    Runs.run (System.step (gstEnv rampContent))
        ⟨Node.init (loadParams { compressed := some true }), {}⟩ emptyMapRun = some s ∧
      s.node.pc = .exited ∧ outstanding s.env.ledger = some (GstWorld.handRefs 0) ∧
      outstanding s.env.stop.ledger = some [.sample 0] ∧
      outstanding s.env.stop.stop.ledger = some [.sample 0] ∧
      ¬ ∀ n, outstanding (GstWorld.stop^[n] s.env).ledger = some [] := by
  refine ⟨_, rfl, rfl, by decide, by decide, by decide, ?_⟩
  intro hsettled
  have hzero := hsettled 0
  revert hzero
  decide

end EconRos2Driver
