import EconRos2Driver.Proof.HidHandshake

/-!
# What a successful handshake has heard

`open_and_init_trigger` goes by what `set_exposure` and `set_stream_mode` return, and for the last
command by the mode alone. So a success means three answers, but not three acknowledgements.
-/

namespace EconRos2Driver.Hid

variable {σ : Type*} {hidraw : Hidraw σ} {s t : σ}

/-- The handshake has come as far as GET stream mode, which is about to be written. -/
structure BeforeGet (hidraw : Hidraw σ) (fuel : Nat) (device : String) (exposureUs : UInt32)
    (aflMode : UInt8) (s t : σ) : Prop where
  opened : 0 ≤ (hidraw.openDevice device s).1
  set : ∃ s₁ s₂, init hidraw fuel (hidraw.openDevice device s).2 = some (true, s₁) ∧
    setExposure hidraw exposureUs s₁ = (true, s₂) ∧
    setStreamMode hidraw 0x01 aflMode s₂ = (true, t)

/-- Each of the three commands is written and then answered with status 1, the last with mode 1.
The state is `s` at the first write, `s₁` and `s₂` after the first two answers, `t` at the end. -/
structure Acknowledged (hidraw : Hidraw σ) (exposureUs : UInt32) (aflMode : UInt8) (s s₁ s₂ t : σ)
    (packet₁ packet₂ packet₃ : List UInt8) : Prop where
  exposure : Answers hidraw (setExposureCommand exposureUs) 7 s packet₁ s₁
  exposureStatus : status packet₁ = 0x01
  stream : Answers hidraw (setStreamModeCommand 0x01 aflMode) 5 s₁ packet₂ s₂
  streamStatus : status packet₂ = 0x01
  get : Answers hidraw getStreamModeCommand 5 s₂ packet₃ t
  getStatus : status packet₃ = 0x01
  getMode : packet₃.getD 2 0 = 0x01

theorem BeforeGet.unique {fuel : Nat} {device : String} {exposureUs : UInt32} {aflMode : UInt8}
    {u v : σ} (h : BeforeGet hidraw fuel device exposureUs aflMode s u)
    (h' : BeforeGet hidraw fuel device exposureUs aflMode s v) : u = v := by
  obtain ⟨s₀, s₁, hinit, hexposure, hstream⟩ := h.set
  obtain ⟨s₀', s₁', hinit', hexposure', hstream'⟩ := h'.set
  obtain rfl : s₀ = s₀' := by simpa using hinit.symm.trans hinit'
  obtain rfl : s₁ = s₁' := (Prod.mk.inj (hexposure.symm.trans hexposure')).2
  exact (Prod.mk.inj (hstream.symm.trans hstream')).2

theorem openAndInitTrigger_of_beforeGet {fuel : Nat} {device : String} {exposureUs : UInt32}
    {aflMode : UInt8} {u : σ} (h : BeforeGet hidraw fuel device exposureUs aflMode s u) :
    openAndInitTrigger hidraw fuel device exposureUs aflMode s
      = some ((getStreamMode hidraw 0 0 u).2.1 == 0x01, (hidraw.openDevice device s).1,
          (getStreamMode hidraw 0 0 u).2.2.2) := by
  obtain ⟨s₁, s₂, hinit, hexposure, hstream⟩ := h.set
  unfold openAndInitTrigger
  dsimp only
  rw [if_neg (Int.not_lt.mpr h.opened), hinit]
  simp [hexposure, hstream]

theorem beforeGet_of_true {fuel : Nat} {device : String} {exposureUs : UInt32} {aflMode : UInt8}
    {fd : Int} (h : openAndInitTrigger hidraw fuel device exposureUs aflMode s
      = some (true, fd, t)) :
    ∃ u packet, BeforeGet hidraw fuel device exposureUs aflMode s u ∧
      Answers hidraw getStreamModeCommand 5 u packet t ∧ packet.getD 2 0 = 0x01 := by
  have hopened : 0 ≤ (hidraw.openDevice device s).1 := by
    by_contra hfailed
    unfold openAndInitTrigger at h
    dsimp only at h
    rw [if_pos (Int.not_le.mp hfailed)] at h
    cases h
  obtain ⟨s₁, s₂, u, ok, afl, hinit, hexposure, hstream, hget⟩ := openAndInitTrigger_true h
  obtain ⟨packet, hanswers, hmode⟩ := getStreamMode_answered hget (by decide)
  exact ⟨u, packet, ⟨hopened, s₁, s₂, hinit, hexposure, hstream⟩, hanswers, hmode⟩

/-- **When success means full acknowledgement.** A successful handshake has had all three commands
answered with status 1 exactly if the packet that answers GET stream mode has status 1 whenever it
reports mode 1; the handshake itself looks at the mode only. -/
theorem acknowledged_iff_get_status (hidraw : Hidraw σ) (fuel : Nat) (device : String)
    (exposureUs : UInt32) (aflMode : UInt8) (s t : σ) (ok : Bool) (fd : Int)
    (h : openAndInitTrigger hidraw fuel device exposureUs aflMode s = some (ok, fd, t)) :
    (ok = true → ∃ s₀ s₁ s₂ packet₁ packet₂ packet₃,
      init hidraw fuel (hidraw.openDevice device s).2 = some (true, s₀) ∧
      Acknowledged hidraw exposureUs aflMode s₀ s₁ s₂ t packet₁ packet₂ packet₃) ↔
    ∀ u packet v, BeforeGet hidraw fuel device exposureUs aflMode s u →
      Answers hidraw getStreamModeCommand 5 u packet v → packet.getD 2 0 = 0x01 →
        status packet = 0x01 := by
  constructor
  · intro hack u packet v hbefore hanswers hmode
    have hrun := openAndInitTrigger_of_beforeGet hbefore
    rw [getStreamMode_of_answers 0 0 hanswers, h, hmode] at hrun
    obtain ⟨rfl, -, -⟩ : ok = true ∧ fd = _ ∧ t = v := by simpa using hrun
    obtain ⟨s₀, s₁, s₂, packet₁, packet₂, packet₃, hinit, hacked⟩ := hack rfl
    have hreached : BeforeGet hidraw fuel device exposureUs aflMode s s₂ :=
      ⟨hbefore.opened, s₀, s₁, hinit,
        setExposure_true_iff.mpr ⟨packet₁, hacked.exposure, hacked.exposureStatus⟩,
        setStreamMode_true_iff.mpr ⟨packet₂, hacked.stream, hacked.streamStatus⟩⟩
    obtain rfl := hreached.unique hbefore
    obtain rfl := hacked.get.unique hanswers
    exact hacked.getStatus
  · rintro hstatus rfl
    obtain ⟨u, packet, hbefore, hanswers, hmode⟩ := beforeGet_of_true h
    obtain ⟨s₀, s₁, hinit, hexposure, hstream⟩ := hbefore.set
    obtain ⟨packet₁, hanswers₁, hstatus₁⟩ := setExposure_true_iff.mp hexposure
    obtain ⟨packet₂, hanswers₂, hstatus₂⟩ := setStreamMode_true_iff.mp hstream
    exact ⟨s₀, s₁, u, packet₁, packet₂, packet, hinit, hanswers₁, hstatus₁, hanswers₂, hstatus₂,
      hanswers, hstatus u packet t hbefore hanswers hmode, hmode⟩

/-- The refusals and delays of an ordinary start: nothing queued, no answer to the OS code. -/
def beforeExposure : List ReadResult := [.error eagain, .error eagain, .error eagain, .error eagain]

def acknowledgedScript : List ReadResult :=
  beforeExposure ++ [.data (acknowledgement kSetExposureComp 0),
    .data (acknowledgement kSetStreamMode 0), .data (acknowledgement kGetStreamMode 1)]

theorem acknowledged_acknowledgedScript :
    openAndInitTrigger scripted 1 "/dev/24cug_hid" 5000 1 acknowledgedScript = some (true, 3, []) ∧
    ((true = true → ∃ s₀ s₁ s₂ packet₁ packet₂ packet₃,
      init scripted 1 acknowledgedScript = some (true, s₀) ∧
      Acknowledged scripted 5000 1 s₀ s₁ s₂ [] packet₁ packet₂ packet₃) ↔
    ∀ u packet v, BeforeGet scripted 1 "/dev/24cug_hid" 5000 1 acknowledgedScript u →
      Answers scripted getStreamModeCommand 5 u packet v → packet.getD 2 0 = 0x01 →
        status packet = 0x01) :=
  ⟨rfl, acknowledged_iff_get_status scripted 1 "/dev/24cug_hid" 5000 1 acknowledgedScript [] true 3
    rfl⟩

/-- GET stream mode is answered with mode 1 and status 0. -/
theorem unacknowledged_of_refusedGet :
    openAndInitTrigger scripted 1 "/dev/24cug_hid" 5000 1
        (beforeExposure ++ [.data (acknowledgement kSetExposureComp 0),
          .data (acknowledgement kSetStreamMode 0), .data (modePacket 1)]) = some (true, 3, []) ∧
    ¬ ∃ s₀ s₁ s₂ packet₁ packet₂ packet₃,
      init scripted 1 (beforeExposure ++ [.data (acknowledgement kSetExposureComp 0),
          .data (acknowledgement kSetStreamMode 0), .data (modePacket 1)]) = some (true, s₀) ∧
      Acknowledged scripted 5000 1 s₀ s₁ s₂ [] packet₁ packet₂ packet₃ := by
  refine ⟨rfl, ?_⟩
  rintro ⟨s₀, s₁, s₂, packet₁, packet₂, packet₃, hinit, hacked⟩
  have hset : setExposure scripted 5000 s₀ = (true, s₁) :=
    setExposure_true_iff.mpr ⟨packet₁, hacked.exposure, hacked.exposureStatus⟩
  have hstream : setStreamMode scripted 0x01 1 s₁ = (true, s₂) :=
    setStreamMode_true_iff.mpr ⟨packet₂, hacked.stream, hacked.streamStatus⟩
  have hget := getStreamMode_of_answers 0 0 hacked.get
  cases hinit
  cases hset
  cases hstream
  have hok : false = (packet₃.getD 6 0 == 0x01) := congrArg Prod.fst hget
  have hstatus : packet₃.getD 6 0 = 0x01 := hacked.getStatus
  rw [hstatus] at hok
  cases hok

end EconRos2Driver.Hid
