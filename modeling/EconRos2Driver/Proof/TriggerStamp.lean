import EconRos2Driver.LidarWriter
import EconRos2Driver.Proof.Lineage
import Mathlib.Data.Int.ConditionallyCompleteOrder
import Mathlib.Order.ConditionallyCompleteLattice.Basic

/-!
# Which trigger a stamp belongs to

The shared cell holds the time of the last trigger that has fired, and `publish` reads it when it
comes to the frame in hand. A frame that is still on its way, or waits in the node, while the next
trigger fires is therefore published with the time of that trigger.
-/

namespace EconRos2Driver

open LossyChannel

variable {T : Nat → Int} {content : Nat → Nat → UInt8} {s t : System TriggerWorld Nat}

/-- Frame `k` has the stamp of trigger `j`, the last one fired when the cell was read. -/
structure FromTrigger (T : Nat → Int) (frame : Frame Nat) (stamp : Stamp TriggerWorld) (k j : Nat) :
    Prop where
  data : frame.data = some k
  le : k ≤ j
  fired : stamp.seenAt.fired = j + 1
  ns : stamp.ns = T j

structure Triggered (T : Nat → Int) (s : System TriggerWorld Nat) : Prop where
  agrees : s.node.stamper.Agrees
  opened : s.node.stamper.opened = true
  low : ∀ j, s.env.fired = j + 1 → s.env.low = T j
  exposed : s.env.channel.entered ≤ s.env.fired
  ordered : Ordered s.env.channel
  held : ∀ frame, s.node.pc.held = some frame → ∃ k, frame.data = some k ∧ k < s.env.fired

theorem triggered_init (p : Params) {stamper : MmapStamper} (boxFd : Nat) (hagrees : stamper.Agrees)
    (hopened : stamper.opened = true) : Triggered T ⟨Node.init p stamper boxFd, {}⟩ where
  agrees := hagrees
  opened := hopened
  low := by
    intro j hfired
    cases hfired
  exposed := Nat.le_refl 0
  ordered := ordered_empty
  held := by
    intro frame hheld
    cases hheld

theorem Triggered.move (h : Triggered T s) {m : TriggerMove} {w : TriggerWorld}
    (hmove : s.env.move T m = some w) : Triggered T { s with env := w } := by
  cases m with
  | trigger =>
      obtain rfl := Option.some.inj hmove
      refine ⟨h.agrees, h.opened, ?_, Nat.le_succ_of_le h.exposed, h.ordered, ?_⟩
      · intro j hfired
        rw [Nat.succ.inj hfired]
      · intro frame hheld
        obtain ⟨k, hdata, hlt⟩ := h.held frame hheld
        exact ⟨k, hdata, Nat.lt_succ_of_lt hlt⟩
  | expose =>
      simp only [TriggerWorld.move] at hmove
      split_ifs at hmove with hlt
      obtain rfl := Option.some.inj hmove
      exact ⟨h.agrees, h.opened, h.low, hlt, h.ordered.enter rfl, h.held⟩
  | lose position =>
      obtain ⟨channel, hchannel, rfl⟩ := Option.map_eq_some_iff.mp hmove
      have hentered : channel.entered = s.env.channel.entered := by
        obtain ⟨k, -, rfl⟩ := Option.map_eq_some_iff.mp hchannel
        rfl
      refine ⟨h.agrees, h.opened, h.low, ?_, h.ordered.lose hchannel, h.held⟩
      rw [hentered]
      exact h.exposed

theorem Triggered.grab (h : Triggered T s) {answer : CameraAnswer} {frame : Frame Nat}
    {w : TriggerWorld} (hgrab : s.env.grab answer = some (frame, w)) (bytes : List UInt8) :
    Triggered T ⟨s.node.grabbed frame bytes, w⟩ := by
  have hheld : ∀ (k : Nat) (u : TriggerWorld), frame.data = some k → k < u.fired →
      ∀ other, (s.node.grabbed frame bytes).pc.held = some other →
        ∃ k, other.data = some k ∧ k < u.fired := by
    intro k u hdata hlt other hother
    by_cases hvalid : frame.valid = true
    · obtain rfl : frame = other := by simpa [Node.grabbed, hvalid, Pc.held] using hother
      exact ⟨k, hdata, hlt⟩
    · simp [Node.grabbed, hvalid, Pc.held] at hother
  cases answer with
  | timeout =>
      cases hgrab
      refine ⟨h.agrees, h.opened, h.low, h.exposed, h.ordered, ?_⟩
      intro other hother
      cases hother
  | frame size =>
      simp only [TriggerWorld.grab] at hgrab
      split at hgrab
      · cases hgrab
      · rename_i k rest hinflight
        obtain ⟨channel, hchannel, hresult⟩ := Option.map_eq_some_iff.mp hgrab
        obtain ⟨rfl, rfl⟩ := Prod.mk.inj hresult
        have hlt : k < s.env.fired := by
          have := h.ordered.bounded k (List.mem_append_right _ (hinflight ▸ List.mem_cons_self))
          exact this.trans_le h.exposed
        have hentered : channel.entered = s.env.channel.entered := by
          simp only [LossyChannel.step, hinflight] at hchannel
          cases hchannel
          rfl
        refine ⟨h.agrees, h.opened, h.low, ?_, h.ordered.deliver hchannel,
          hheld k { s.env with channel } rfl hlt⟩
        dsimp only
        rw [hentered]
        exact h.exposed

theorem Triggered.step (h : Triggered T s) {e : Event TriggerMove CameraAnswer Unit}
    (hturn : System.Turn (triggerEnv T content) s e t) : Triggered T t := by
  obtain ⟨node, env⟩ := t
  cases hturn with
  | env move hmove hnode =>
      obtain rfl : node = s.node := hnode
      exact h.move hmove
  | grab answer frame hpc hgrab hnode =>
      dsimp only at hgrab hnode
      subst hnode
      exact h.grab hgrab _
  | count frame _ hpc henv hnode =>
      obtain rfl : env = s.env := henv
      obtain rfl : node = _ := hnode
      rw [Node.counted, Node.account_eq]
      refine ⟨h.agrees, h.opened, h.low, h.exposed, h.ordered, ?_⟩
      intro other hother
      exact h.held other (by simpa [hpc, Pc.held] using hother)
  | release frame answer _ hpc hrelease hnode =>
      obtain rfl : node = s.node.released := hnode
      obtain rfl : s.env = env := Option.some.inj hrelease
      refine ⟨h.agrees, h.opened, h.low, h.exposed, h.ordered, ?_⟩
      intro other hother
      cases hother
  | inside henv hinside =>
      obtain rfl : env = s.env := henv
      have hstamper : node.stamper = s.node.stamper := by
        rcases hinside.stamper with hsame | ⟨file, answer, hopen⟩
        · exact hsame
        · rw [hopen, MmapStamper.tryOpen_of_opened h.opened]
      refine ⟨?_, ?_, h.low, h.exposed, h.ordered, ?_⟩
      · rw [hstamper]
        exact h.agrees
      · rw [hstamper]
        exact h.opened
      · intro frame hframe
        exact h.held frame (hinside.held_of_held hframe)

theorem Triggered.readLow (h : Triggered T s) (hpos : ∀ k, 0 < T k) {frame : Frame Nat} {ns : Int}
    (now : Int) (hpc : s.node.pc = .opened frame)
    (hread : s.node.stamper.readLowNs ((triggerEnv T content).timeshare s.env) = some ns) :
    ∃ k j, FromTrigger T frame (Node.stampOf s.env ns now) k j := by
  obtain ⟨k, hdata, hlt⟩ := h.held frame (by rw [hpc]; rfl)
  have hns : ns = s.env.low := by
    rw [triggerEnv, MmapStamper.readLowNs_of_length (h.agrees.stamp_iff.mp h.opened) le_rfl]
      at hread
    exact (Option.some.inj hread).symm
  obtain ⟨j, hj⟩ : ∃ j, s.env.fired = j + 1 := ⟨s.env.fired - 1, by omega⟩
  have hlow := h.low j hj
  have hmapped : Node.stampOf s.env ns now = ⟨T j, .mapped, s.env⟩ := by
    rw [Node.stampOf, hns, hlow, if_pos (hpos j)]
  refine ⟨k, j, hdata, by omega, ?_, ?_⟩
  · rw [hmapped]
    exact hj
  · rw [hmapped]

/-- **A message carries the stamp of the last trigger fired.** With the mapping open, the message
for frame `k` carries `T j`, where trigger `j` was the last to fire when `publish` read the cell:
`k` itself or a later one. It is the stamp of its own trigger exactly when no later one had fired.
-/
theorem stamp_eq_trigger (T : Nat → Int) (content : Nat → Nat → UInt8) (p : Params)
    (stamper : MmapStamper) (boxFd : Nat) (hpos : ∀ k, 0 < T k) (hmono : StrictMono T)
    (hagrees : stamper.Agrees) (hopened : stamper.opened = true)
    (h : Runs.Reachable (System.step (triggerEnv T content)) ⟨Node.init p stamper boxFd, {}⟩ s) :
    ∀ sent ∈ s.node.published, ∃ k j, sent.frame.data = some k ∧
      payload p sent.frame ((List.range sent.frame.size).map (content k)) = some sent.message.data ∧
      k ≤ j ∧ sent.stamp.seenAt.fired = j + 1 ∧ sent.message.stamp = T j ∧
      (sent.message.stamp = T k ↔ j = k) := by
  have hstamps : Triggered T s ∧
      Stamps (fun frame stamp => ∃ k j, FromTrigger T frame stamp k j) s.node := by
    refine System.invariant (I := fun s => Triggered T s ∧
      Stamps (fun frame stamp => ∃ k j, FromTrigger T frame stamp k j) s.node) ?_
      ⟨triggered_init p boxFd hagrees hopened, ?_, ?_⟩ h
    · intro s e t hs hstep
      refine ⟨hs.1.step hstep.turn, hs.2.step ?_ hstep⟩
      intro frame now ns hpc hread
      exact hs.1.readLow hpos now hpc hread
    · intro frame stamp hstamp
      cases hstamp
    · intro sent hsent
      cases hsent
  obtain ⟨hdelivering, hlineage⟩ := lineage_reachable (triggerEnv_stableViews T content) trivial h
  intro sent hsent
  obtain ⟨k, j, hdata, hle, hfired, hns⟩ := hstamps.2.published sent hsent
  obtain ⟨-, -, -, -, hstamp⟩ := hlineage.published sent hsent
  refine ⟨k, j, hdata, ?_, hle, hfired, hstamp.trans hns, ?_⟩
  · exact hlineage.payload_eq hdelivering (fun _ _ => rfl) hsent hdata
  · rw [hstamp, hns]
    exact hmono.injective.eq_iff

def risingStamp (k : Nat) : Int := k + 1

def openStamper : MmapStamper :=
  { stamp := some 0, fd := 3, opened := true, descriptors := [3], mappings := [0] }

/-- Trigger 1 fires between the `grab` of frame 0 and the read of the cell. -/
def secondTriggerRun : List (Event TriggerMove CameraAnswer Unit) :=
  [.env .trigger, .env .expose, .grab (.frame 3), .count, .env .trigger, .tryOpen ⟨none, none⟩,
   .readLow 0, .copy, .logCbk 9, .publish, .logPub 11, .release ()]

theorem stamp_eq_trigger_secondTriggerRun : ∃ s,
    Runs.run (System.step (triggerEnv risingStamp rampContent))
        ⟨Node.init (loadParams { compressed := some true }) openStamper, {}⟩ secondTriggerRun
        = some s ∧
      s.node.published.length = 1 ∧
      ∀ sent ∈ s.node.published, ∃ k j, sent.frame.data = some k ∧ k ≤ j ∧
        sent.message.stamp = risingStamp j := by
  refine ⟨_, rfl, rfl, ?_⟩
  intro sent hsent
  obtain ⟨k, j, hdata, -, hle, -, hstamp, -⟩ :=
    stamp_eq_trigger risingStamp rampContent (loadParams { compressed := some true }) openStamper 3
      (fun k => by unfold risingStamp; omega) (fun a b hlt => by unfold risingStamp; omega)
      ⟨by decide, by decide, by decide, rfl, rfl⟩ rfl ⟨secondTriggerRun, rfl⟩ sent hsent
  exact ⟨k, j, hdata, hle, hstamp⟩

/-- The message for frame 0 carries the stamp of trigger 1. -/
theorem wrong_stamp_secondTriggerRun : ∃ s,
    Runs.run (System.step (triggerEnv risingStamp rampContent))
        ⟨Node.init (loadParams { compressed := some true }) openStamper, {}⟩ secondTriggerRun
        = some s ∧
      s.node.published.map (fun sent => sent.frame.data) = [some 0] ∧
      s.node.published.map (fun sent => sent.message.stamp) = [risingStamp 1] ∧
      risingStamp 1 ≠ risingStamp 0 := by
  refine ⟨_, rfl, ?_, ?_, by decide⟩
  · rfl
  · rfl

end EconRos2Driver
