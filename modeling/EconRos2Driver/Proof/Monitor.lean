import EconRos2Driver.Monitor
import EconRos2Driver.Proof.Messages
import EconRos2Driver.Proof.SavedPaths

/-!
# What the subscribers make of the driver's messages

The subscribers take any message, and `mat_inside_iff` says which ones lead OpenCV out of their
data. Here they are put behind the driver. What arrives is some of what was published, in order, and
what was published is well formed, so neither subscriber can fail on it.

Over any subscriber, `subscriber_invariant` turns a fact about one message and one tick into a fact
about every run of driver, link and subscriber.
-/

namespace EconRos2Driver

variable {S P M G R V T : Type}

theorem System.Step.published_prefix {E : Env S P M G R} {s t : System S P} {e : Event M G R}
    (h : System.Step E s e t) : s.node.published <+: t.node.published := by
  cases h with
  | publish _ => exact List.prefix_append _ _
  | copy _ =>
      dsimp only
      unfold Node.copied
      split_ifs <;> exact List.prefix_rfl
  | readLow _ =>
      dsimp only
      unfold Node.stamped
      split <;> exact List.prefix_rfl
  | @count frame hpc =>
      have hpublished : (s.node.counted frame (E.pushCount s.env)).published
          = s.node.published := by
        rw [Node.counted, Node.account_eq]
      exact hpublished ▸ List.prefix_rfl
  | env _ | exit _ | grab _ _ | tryOpen _ | logCbk _ | logPub _ | release _ _ =>
      exact List.prefix_rfl

namespace Monitor

variable {E : Env S P M G R} {B : Subscriber V T} {topic : Topic} {s t : Monitor S P V}

/-- **What one step of the whole can do.** -/
inductive Moves (E : Env S P M G R) (B : Subscriber V T) (s t : Monitor S P V) : Prop where
  | sys (event : Event M G R) (sent : List Message)
      (hsys : System.step E s.sys event = some t.sys)
      (hsent : t.sys.node.messages = s.sys.node.messages ++ sent)
      (hlink : t.link = s.link ∨ t.link = s.link.send sent)
      (hsubscriber : t.subscriber = s.subscriber)
  | lose (position : Nat) (hsys : t.sys = s.sys) (hlink : t.link = s.link.lose position)
      (hsubscriber : t.subscriber = s.subscriber)
  | deliver (message : Message) (hsys : t.sys = s.sys)
      (hlink : s.link.deliver = some (message, t.link))
      (hsubscriber : t.subscriber = B.receive s.subscriber message)
  | timer (answer : T) (hsys : t.sys = s.sys) (hlink : t.link = s.link)
      (hsubscriber : t.subscriber = B.timer s.subscriber answer)

theorem step_spec {e : MonitorEvent M G R T} (h : step E B topic s e = some t) :
    Moves E B s t := by
  cases e with
  | sys event =>
      obtain ⟨sys, hsys, rfl⟩ := Option.map_eq_some_iff.mp h
      obtain ⟨more, hmore⟩ := System.Step.published_prefix (.of_step hsys)
      have hsent : sys.node.messages
          = s.sys.node.messages ++ more.map fun sent => sent.message := by
        rw [Node.messages, ← hmore, List.map_append]
        rfl
      refine .sys event _ hsys hsent ?_ rfl
      dsimp only
      rw [hsent, List.drop_left]
      split_ifs
      · exact .inr rfl
      · exact .inl rfl
  | lose position =>
      obtain rfl := Option.some.inj h
      exact .lose position rfl rfl rfl
  | deliver =>
      obtain ⟨⟨message, link⟩, hlink, rfl⟩ := Option.map_eq_some_iff.mp h
      exact .deliver message rfl hlink rfl
  | timer answer =>
      obtain rfl := Option.some.inj h
      exact .timer answer rfl rfl rfl

theorem sys_reachable (h : Runs.Reachable (step E B topic) s t) :
    Runs.Reachable (System.step E) s.sys t.sys := by
  refine Runs.run_simulates Monitor.sys (I := fun _ => True) (fun _ _ _ _ _ => trivial) ?_ trivial h
  intro s e t _ hstep
  cases step_spec hstep with
  | sys event _ hsys => exact .of_step hsys
  | lose _ hsys | deliver _ hsys | timer _ hsys =>
      rw [hsys]
      exact .refl _

/-- **What a subscriber knows.** What holds of the messages a subscriber has seen and of its state,
is kept by every tick and by every message that is good, holds in every reachable state, as long as
all messages published are good; and the messages seen are some of those published, in order. -/
theorem subscriber_invariant {J : List Message → V → Prop} {Q : Message → Prop}
    (hreceive : ∀ seen v message, Q message → J seen v →
      J (seen ++ [message]) (B.receive v message))
    (htimer : ∀ seen v answer, J seen v → J seen (B.timer v answer))
    {p : Params} {stamper : MmapStamper} {boxFd : Nat} {env : S} {v : V} (hv : J [] v)
    (h : Runs.Reachable (step E B topic) (init p stamper boxFd env v) s) :
    s.link.delivered.Sublist s.sys.node.messages ∧
      ((∀ message ∈ s.sys.node.messages, Q message) → J s.link.delivered s.subscriber) := by
  have hinv : s.link.Keeps s.sys.node.messages ∧
      ((∀ message ∈ s.sys.node.messages, Q message) → J s.link.delivered s.subscriber) := by
    refine Runs.Reachable.invariant (I := fun s : Monitor S P V =>
      s.link.Keeps s.sys.node.messages ∧
        ((∀ message ∈ s.sys.node.messages, Q message) → J s.link.delivered s.subscriber))
      ?_ ⟨Link.keeps_empty, fun _ => hv⟩ h
    rintro s e t ⟨hkeeps, hJ⟩ hstep
    cases step_spec hstep with
    | sys event sent _ hsent hlink hsubscriber =>
        rw [hsent, hsubscriber]
        rcases hlink with hlink | hlink
        · rw [hlink]
          exact ⟨hkeeps.unsent sent, fun hQ => hJ fun message hmem =>
            hQ message (List.mem_append_left _ hmem)⟩
        · rw [hlink]
          exact ⟨hkeeps.send sent, fun hQ => hJ fun message hmem =>
            hQ message (List.mem_append_left _ hmem)⟩
    | lose position hsys hlink hsubscriber =>
        rw [hsys, hlink, hsubscriber]
        exact ⟨hkeeps.lose position, hJ⟩
    | deliver message hsys hlink hsubscriber =>
        obtain ⟨hkeeps', hdelivered⟩ := hkeeps.deliver hlink
        rw [hsys, hsubscriber, hdelivered]
        refine ⟨hkeeps', fun hQ => hreceive _ _ _ (hQ message ?_) (hJ hQ)⟩
        have hmem : message ∈ t.link.delivered := by
          rw [hdelivered]
          exact List.mem_append_right _ (List.mem_singleton_self message)
        exact hkeeps'.delivered.subset hmem
    | timer answer hsys hlink hsubscriber =>
        rw [hsys, hlink, hsubscriber]
        exact ⟨hkeeps, fun hQ => htimer _ _ _ (hJ hQ)⟩
  exact ⟨hinv.1.delivered, hinv.2⟩

/-- **Nothing arrives from another topic**, nor from one of the other type: a saver hears nothing of
a driver of compressed frames. -/
theorem nothing_delivered {p : Params} {stamper : MmapStamper} {boxFd : Nat} {env : S} {v : V}
    (htopic : publication p ≠ topic)
    (h : Runs.Reachable (step E B topic) (init p stamper boxFd env v) s) : s.link = {} := by
  have hinv : s.sys.node.p = p ∧ s.link = {} := by
    refine Runs.Reachable.invariant (I := fun s : Monitor S P V => s.sys.node.p = p ∧ s.link = {})
      ?_ ⟨rfl, rfl⟩ h
    rintro s e t ⟨hp, hlink⟩ hstep
    cases e with
    | sys event =>
        obtain ⟨sys, hsys, rfl⟩ := Option.map_eq_some_iff.mp hstep
        have hp' : sys.node.p = p := (System.Step.of_step hsys).node_p.trans hp
        refine ⟨hp', ?_⟩
        dsimp only
        rw [hp, if_neg htopic]
        exact hlink
    | lose position =>
        obtain rfl := Option.some.inj hstep
        refine ⟨hp, ?_⟩
        simp [hlink, Link.lose]
    | deliver => simp [step, hlink, Link.deliver] at hstep
    | timer answer =>
        obtain rfl := Option.some.inj hstep
        exact ⟨hp, hlink⟩
  exact hinv.2

end Monitor

/-! ### The viewer counts every message once -/

def window (messages : List Message) : ImageViewer where
  windowCount := UInt32.ofNat messages.length
  windowBytes := UInt64.ofNat (messages.flatMap Message.data).length

theorem window_append (messages : List Message) (message : Message) :
    window (messages ++ [message])
      = { windowCount := (window messages).windowCount + 1
          windowBytes := (window messages).windowBytes + UInt64.ofNat message.data.length } := by
  simp [window, UInt32.ofNat_add, UInt64.ofNat_add]

variable {accepts : Accepts} {cv : JpegCv} {shows : Shows}

theorem ImageViewer.onRaw_counts (accepts : Accepts) (v : ImageViewer) (msg : ReceivedImage) :
    (v.onRaw accepts msg).2 = { windowCount := v.windowCount + 1
                                windowBytes := v.windowBytes + UInt64.ofNat msg.data.length } := by
  unfold onRaw
  dsimp only
  split
  · rfl
  · split_ifs <;> rfl

theorem ImageViewer.onCompressed_counts (cv : JpegCv) (v : ImageViewer) (data : List UInt8) :
    (v.onCompressed cv data).2 = { windowCount := v.windowCount + 1
                                   windowBytes := v.windowBytes + UInt64.ofNat data.length } := by
  unfold onCompressed
  dsimp only
  split_ifs
  · split
    · rfl
    · split_ifs <;> rfl
  · rfl

theorem ViewerRun.imshow_counts (shows : Shows) (v : ViewerRun) (img : Shown) :
    (v.imshow shows img).viewer = v.viewer ∧ (v.imshow shows img).reports = v.reports := by
  unfold imshow
  split_ifs <;> exact ⟨rfl, rfl⟩

theorem ViewerRun.receive_counts (accepts : Accepts) (cv : JpegCv) (shows : Shows) {v : ViewerRun}
    (hrunning : v.running = true) (message : Message) : (v.receive accepts cv shows message).viewer
        = { windowCount := v.viewer.windowCount + 1
            windowBytes := v.viewer.windowBytes + UInt64.ofNat message.data.length } ∧
      (v.receive accepts cv shows message).reports = v.reports := by
  unfold receive
  rw [if_pos hrunning]
  cases message with
  | image msg =>
      have hcounts := v.viewer.onRaw_counts accepts msg.received
      dsimp only
      split <;> rename_i heq <;> rw [heq] at hcounts
      · exact ⟨hcounts, rfl⟩
      · exact ⟨hcounts, rfl⟩
      · obtain ⟨hviewer, hreports⟩ := imshow_counts shows _ _
        exact ⟨hviewer.trans hcounts, hreports⟩
  | compressed msg =>
      have hcounts := v.viewer.onCompressed_counts cv msg.data
      dsimp only
      split <;> rename_i heq <;> rw [heq] at hcounts
      · exact ⟨hcounts, rfl⟩
      · exact ⟨hcounts, rfl⟩
      · obtain ⟨hviewer, hreports⟩ := imshow_counts shows _ _
        exact ⟨hviewer.trans hcounts, hreports⟩

/-- The reports made so far and the window that is open cut what was seen into stretches; what came
after an exception is in none of them. -/
structure Tallied (seen : List Message) (v : ViewerRun) (windows : List (List Message))
    (rest ignored : List Message) : Prop where
  seen : seen = windows.flatten ++ rest ++ ignored
  reports : v.reports = windows.map window
  viewer : v.viewer = window rest
  running : v.running = true → ignored = []

theorem Tallied.receive {seen : List Message} {v : ViewerRun} {windows : List (List Message)}
    {rest ignored : List Message} (h : Tallied seen v windows rest ignored) (message : Message) :
    ∃ rest ignored,
      Tallied (seen ++ [message]) (v.receive accepts cv shows message) windows rest ignored := by
  by_cases hrunning : v.running = true
  · obtain ⟨hviewer, hreports⟩ := ViewerRun.receive_counts accepts cv shows hrunning message
    refine ⟨rest ++ [message], [], ?_, hreports.trans h.reports, ?_, fun _ => rfl⟩
    · rw [h.seen, h.running hrunning]
      simp
    · rw [hviewer, h.viewer, window_append]
  · have hstays : v.receive accepts cv shows message = v := by
      unfold ViewerRun.receive
      exact if_neg hrunning
    rw [hstays]
    refine ⟨rest, ignored ++ [message], ?_, h.reports, h.viewer, fun h' => absurd h' hrunning⟩
    rw [h.seen]
    simp

theorem Tallied.report {seen : List Message} {v : ViewerRun} {windows : List (List Message)}
    {rest ignored : List Message} (h : Tallied seen v windows rest ignored) :
    ∃ windows rest, Tallied seen (v.report ()) windows rest ignored := by
  by_cases hrunning : v.running = true
  · refine ⟨windows ++ [rest], [], ?_, ?_, ?_, fun _ => h.running hrunning⟩
    · rw [h.seen]
      simp
    · rw [ViewerRun.report, if_pos hrunning]
      simp [h.reports, h.viewer]
    · rw [ViewerRun.report, if_pos hrunning]
      rfl
  · have hstays : v.report () = v := by
      rw [ViewerRun.report, if_neg hrunning]
    rw [hstays]
    exact ⟨windows, rest, h⟩

/-- **The reports count every message once.** In every run of driver, link and viewer, whatever
OpenCV does, the messages that have arrived fall into consecutive stretches, one for each report and
one for the window that is open, with the count and the bytes of that stretch; only after an
exception are messages in none. -/
theorem reports_count_each_once (E : Env S P M G R) (accepts : Accepts) (cv : JpegCv)
    (shows : Shows) (topic : Topic) (p : Params) (stamper : MmapStamper) (boxFd : Nat) (env : S)
    (s : Monitor S P ViewerRun)
    (h : Runs.Reachable (Monitor.step E (viewer accepts cv shows) topic)
      (Monitor.init p stamper boxFd env {}) s) :
    ∃ (windows : List (List Message)) (rest ignored : List Message),
      s.link.delivered = windows.flatten ++ rest ++ ignored ∧
      s.subscriber.reports = windows.map window ∧ s.subscriber.viewer = window rest ∧
      (s.subscriber.running = true → ignored = []) := by
  have hcounted : ∃ windows rest ignored,
      Tallied s.link.delivered s.subscriber windows rest ignored := by
    refine (Monitor.subscriber_invariant
      (J := fun seen v => ∃ windows rest ignored, Tallied seen v windows rest ignored)
      (Q := fun _ => True) ?_ ?_ ⟨[], [], [], rfl, rfl, rfl, fun _ => rfl⟩ h).2 fun _ _ => trivial
    · rintro seen v message - ⟨windows, rest, ignored, hv⟩
      exact ⟨windows, hv.receive message⟩
    · rintro seen v ⟨⟩ ⟨windows, rest, ignored, hv⟩
      obtain ⟨windows, rest, hv⟩ := hv.report
      exact ⟨windows, rest, ignored, hv⟩
  obtain ⟨windows, rest, ignored, hv⟩ := hcounted
  exact ⟨windows, rest, ignored, hv.seen, hv.reports, hv.viewer, hv.running⟩

/-- Data that are no picture make an empty matrix. -/
def undecoded : JpegCv where
  accepts := fun cols null => decide (0 ≤ cols ∧ (cols = 0 ∨ null = false))
  imdecode := fun data => if data.isEmpty then none else some .empty

/-- Neither `imshow` nor `waitKey` throws. -/
def windowShows : Shows := fun _ _ => true

/-- Two frames go to the viewer; the first is lost on the way, and the viewer reports once. -/
def lossyRun (size : Nat) : List (MonitorEvent GstMove PullAnswer Unit Unit) :=
  let frame (now : UInt64) : List (Event GstMove PullAnswer Unit) :=
    [.env (.pushTime now), .env .pushCount, .env .pushOn, .env .arrive,
      .grab (.sample true true (some size)), .count, .tryOpen ⟨none, none⟩, .readLow 7, .copy,
      .logCbk 9, .publish, .logPub 11, .release ()]
  (frame 5).map .sys ++ (frame 6).map .sys ++ [.lose 0, .deliver, .timer ()]

theorem run_lossyRun : ∃ s,
    Runs.run (Monitor.step (gstEnv rampContent) (viewer checked undecoded windowShows)
        (publication (loadParams {})))
      (Monitor.init (loadParams {}) {} 3 {} {}) (lossyRun 691200) = some s ∧
      s.sys.node.published.length = 2 ∧ s.link.delivered.length = 1 :=
  ⟨_, rfl, rfl, rfl⟩

theorem reports_count_each_once_lossyRun : ∃ s,
    Runs.run (Monitor.step (gstEnv rampContent) (viewer checked undecoded windowShows)
        (publication (loadParams {})))
      (Monitor.init (loadParams {}) {} 3 {} {}) (lossyRun 691200) = some s ∧
      ∃ (windows : List (List Message)) (rest ignored : List Message),
        s.link.delivered = windows.flatten ++ rest ++ ignored ∧
        s.subscriber.reports = windows.map window := by
  obtain ⟨s, hrun, -, -⟩ := run_lossyRun
  obtain ⟨windows, rest, ignored, hseen, hreports, -, -⟩ :=
    reports_count_each_once (gstEnv rampContent) checked undecoded windowShows
      (publication (loadParams {})) (loadParams {}) {} 3 {} s ⟨lossyRun 691200, hrun⟩
  exact ⟨s, hrun, windows, rest, ignored, hseen, hreports⟩

/-! ### The viewer shows what was published -/

/-- What OpenCV documents of the constructor: it takes every matrix with at least one pixel over
data that are there, if a row fits in the step. -/
def DocumentedMat (accepts : Accepts) : Prop :=
  ∀ rows cols step : Nat, 0 < rows → 0 < cols → 3 * cols ≤ step →
    accepts rows cols false step = true

/-- The same for one row of bytes, and `imdecode` answers with a matrix, an empty one if the data
are no picture. -/
structure DocumentedJpeg (cv : JpegCv) : Prop where
  row : ∀ cols : Nat, 0 < cols → cv.accepts cols false = true
  imdecode : ∀ data, data ≠ [] → ∃ img, cv.imdecode data = some img

/-- The matrix header over a raw message. -/
def Params.header (p : Params) : MatHeader := ⟨p.pubHeight, p.pubWidth, p.pubWidth * 3, false⟩

/-- What the window shows of a message, by its data. -/
def picture (cv : JpegCv) (p : Params) (data : List UInt8) : Option Shown :=
  if p.compressed then
    match cv.imdecode data with
    | some img => if img.total = 0 then none else some (.decoded img)
    | none => none
  else some (.raw p.header data)

/-- A message the driver publishes. The length of compressed data is an `int` to the viewer. -/
structure FromDriver (p : Params) (message : Message) : Prop where
  labelled : Labelled p message
  sized : Sized p message.data
  short : p.compressed = true → message.data.length < 2 ^ 31

variable {p : Params}

theorem FromDriver.image {msg : Image} (h : FromDriver p (.image msg)) (hp : p.Shaped) :
    p.compressed = false ∧ msg.encoding = "bgr8" ∧ msg.height = p.pubHeight ∧
      msg.width = p.pubWidth ∧ msg.step = p.pubWidth * 3 ∧
      msg.data.length = p.pubHeight * (p.pubWidth * 3) ∧ 0 < msg.data.length := by
  obtain ⟨hraw, hmsg⟩ := h.labelled
  have hlength : msg.data.length = p.expectedSize := by
    have hsized := h.sized
    rw [Sized, if_neg (by simp [hraw])] at hsized
    exact hsized
  have hsize : p.expectedSize = p.pubHeight * (p.pubWidth * 3) := by
    rw [hp.size, Nat.mul_comm p.pubWidth, Nat.mul_assoc]
  have hpos : 0 < p.pubHeight * (p.pubWidth * 3) :=
    Nat.mul_pos hp.height.1 (Nat.mul_pos hp.width.1 (by decide))
  simp only [setupPublisher, hraw] at hmsg
  rw [hmsg]
  exact ⟨hraw, rfl, rfl, rfl, rfl, hlength.trans hsize, by rw [hlength, hsize]; exact hpos⟩

theorem Params.Shaped.header_empty (hp : p.Shaped) : p.header.empty = false := by
  have hpos : (p.pubHeight : Int) * p.pubWidth ≠ 0 := by
    have hheight := hp.height.1
    have hwidth := hp.width.1
    exact_mod_cast Nat.pos_iff_ne_zero.mp (Nat.mul_pos hheight hwidth)
  simp [MatHeader.empty, Params.header, hpos]

theorem FromDriver.mat {msg : Image} (h : FromDriver p (.image msg)) (hp : p.Shaped)
    (hmat : DocumentedMat accepts) : msg.received.mat accepts = some p.header := by
  obtain ⟨-, -, hheight, hwidth, hstep, -, hpos⟩ := h.image hp
  obtain ⟨hwidthPos, hwidthLt⟩ := hp.width
  obtain ⟨hheightPos, hheightLt⟩ := hp.height
  have hnull : msg.data.isEmpty = false := by
    rw [List.isEmpty_eq_false_iff]
    exact List.ne_nil_of_length_pos hpos
  have hsmall : ∀ {n : Nat}, n < 2 ^ 31 → (UInt32.ofNat n).toNat = n := fun hn =>
    UInt32.toNat_ofNat_of_lt' (Nat.lt_trans hn (by decide))
  have hrows : staticCastInt (UInt32.ofNat p.pubHeight) = p.pubHeight := by
    rw [staticCastInt_eq, hsmall (by omega), if_pos (by omega)]
  have hcols : staticCastInt (UInt32.ofNat p.pubWidth) = p.pubWidth := by
    rw [staticCastInt_eq, hsmall (by omega), if_pos (by omega)]
  have hrowBytes : (UInt32.ofNat (p.pubWidth * 3)).toNat = p.pubWidth * 3 := hsmall (by omega)
  simp only [ReceivedImage.mat, Image.received, hheight, hwidth, hstep, hnull, hrows, hcols,
    hrowBytes]
  rw [if_pos (hmat _ _ _ hheightPos hwidthPos (by omega)), if_neg (by omega)]
  rfl

theorem FromDriver.header_inside {msg : Image} (h : FromDriver p (.image msg)) (hp : p.Shaped) :
    p.header.Inside msg.data := by
  obtain ⟨-, -, -, -, -, hlength, -⟩ := h.image hp
  rw [MatHeader.inside_iff hp.height.1 hp.width.1 rfl rfl rfl, hlength]
  have hheight := hp.height.1
  obtain ⟨rows, hrows⟩ : ∃ rows, p.pubHeight = rows + 1 := ⟨p.pubHeight - 1, by omega⟩
  apply Nat.le_of_eq
  calc (p.pubHeight - 1) * p.header.step + 3 * p.pubWidth
      = rows * (p.pubWidth * 3) + p.pubWidth * 3 := by
        rw [hrows, Nat.add_sub_cancel, Nat.mul_comm 3]
        rfl
    _ = p.pubHeight * (p.pubWidth * 3) := by rw [hrows, Nat.succ_mul]

theorem FromDriver.onRaw {msg : Image} (h : FromDriver p (.image msg)) (hp : p.Shaped)
    (hmat : DocumentedMat accepts) (v : ImageViewer) :
    (v.onRaw accepts msg.received).1 = .imshow p.header :=
  (onRaw_imshow_iff v).mpr ⟨h.mat hp hmat, hp.header_empty⟩

theorem FromDriver.compressed {msg : CompressedImage} (h : FromDriver p (.compressed msg)) :
    p.compressed = true ∧ 0 < msg.data.length := by
  have hcompressed := h.labelled.1
  have hsized := h.sized
  rw [Sized, if_pos hcompressed] at hsized
  exact ⟨hcompressed, hsized⟩

theorem FromDriver.onCompressed {msg : CompressedImage} (h : FromDriver p (.compressed msg))
    (hcv : DocumentedJpeg cv) (v : ImageViewer) : ∃ img, cv.imdecode msg.data = some img ∧
      (v.onCompressed cv msg.data).1 = if img.total = 0 then .empty else .imshow img := by
  obtain ⟨hcompressed, hpos⟩ := h.compressed
  have hnonempty : msg.data ≠ [] := List.ne_nil_of_length_pos hpos
  obtain ⟨img, himg⟩ := hcv.imdecode msg.data hnonempty
  have hnull : msg.data.isEmpty = false := List.isEmpty_eq_false_iff.mpr hnonempty
  have hcols : staticCastInt (UInt32.ofNat msg.data.length) = msg.data.length := by
    have hshort : msg.data.length < 2 ^ 31 := h.short hcompressed
    have hsmall : (UInt32.ofNat msg.data.length).toNat = msg.data.length :=
      UInt32.toNat_ofNat_of_lt' (Nat.lt_trans hshort (by decide))
    rw [staticCastInt_eq, hsmall, if_pos hshort]
  refine ⟨img, himg, ?_⟩
  unfold ImageViewer.onCompressed
  dsimp only
  rw [hcols, hnull, if_pos (hcv.row _ hpos), Int.toNat_natCast, List.take_length, himg]
  dsimp only
  split_ifs <;> rfl

/-- The viewer is alive, and has shown the picture of every message it has seen. -/
structure Showing (cv : JpegCv) (p : Params) (seen : List Message) (v : ViewerRun) : Prop where
  running : v.running = true
  shown : v.shown = seen.filterMap fun message => picture cv p message.data

theorem Showing.receive {seen : List Message} {v : ViewerRun} {message : Message}
    (h : Showing cv p seen v) (hmessage : FromDriver p message) (hp : p.Shaped)
    (hmat : DocumentedMat accepts) (hcv : DocumentedJpeg cv)
    (hshows : ∀ shown img, shows shown img = true) :
    Showing cv p (seen ++ [message]) (v.receive accepts cv shows message) := by
  unfold ViewerRun.receive
  rw [if_pos h.running]
  cases message with
  | image msg =>
      have houtcome := hmessage.onRaw hp hmat v.viewer
      have hraw := (hmessage.image hp).1
      dsimp only
      split
      all_goals
        rename_i heq
        rw [heq] at houtcome
        cases houtcome
      rw [ViewerRun.imshow, if_pos (hshows _ _)]
      refine ⟨h.running, ?_⟩
      rw [List.filterMap_append, ← h.shown]
      simp [picture, hraw, Message.data]
  | compressed msg =>
      obtain ⟨img, himg, houtcome⟩ := hmessage.onCompressed hcv v.viewer
      have hcompressed := hmessage.compressed.1
      have hpicture : picture cv p msg.data
          = if img.total = 0 then none else some (.decoded img) := by
        simp only [picture, hcompressed, himg, if_true]
      dsimp only
      by_cases htotal : img.total = 0
      · rw [if_pos htotal] at houtcome hpicture
        split
        all_goals
          rename_i heq
          rw [heq] at houtcome
          cases houtcome
        refine ⟨h.running, ?_⟩
        rw [List.filterMap_append, ← h.shown]
        simp [hpicture, Message.data]
      · rw [if_neg htotal] at houtcome hpicture
        split
        all_goals
          rename_i heq
          rw [heq] at houtcome
          cases houtcome
        rw [ViewerRun.imshow, if_pos (hshows _ _)]
        refine ⟨h.running, ?_⟩
        rw [List.filterMap_append, ← h.shown]
        simp [hpicture, Message.data]

theorem Showing.report {seen : List Message} {v : ViewerRun} (h : Showing cv p seen v) :
    Showing cv p seen (v.report ()) := by
  unfold ViewerRun.report
  rw [if_pos h.running]
  exact ⟨h.running, h.shown⟩

theorem fromDriver_reachable {E : Env S P M G R} {I : S → Prop} (hE : E.StableViews I)
    {stamper : MmapStamper} {boxFd : Nat} {env : S} (henv : I env) {s : System S P}
    (h : Runs.Reachable (System.step E) ⟨Node.init p stamper boxFd, env⟩ s)
    (hshort : p.compressed = true → ∀ message ∈ s.node.messages, message.data.length < 2 ^ 31) :
    ∀ message ∈ s.node.messages, FromDriver p message := by
  intro message hmem
  obtain ⟨sent, hsent, rfl⟩ := List.mem_map.mp hmem
  exact ⟨(templates_reachable h).published sent hsent, sized_reachable hE henv h sent hsent,
    fun hcompressed => hshort hcompressed _ hmem⟩

theorem map_data_messages (n : Node S P) :
    n.messages.map Message.data = n.published.map fun sent => sent.message.data := by
  rw [Node.messages, List.map_map]
  rfl

theorem delivered_sublist {E : Env S P M G R} {I : S → Prop} (hE : E.StableViews I)
    {stamper : MmapStamper} {boxFd : Nat} {env : S} (henv : I env) {s : Monitor S P V}
    (h : Runs.Reachable (System.step E) ⟨Node.init p stamper boxFd, env⟩ s.sys)
    (hsublist : s.link.delivered.Sublist s.sys.node.messages) :
    (s.link.delivered.map Message.data).Sublist (payloads p (grabs s.sys.node.calls)) := by
  have hprefix := published_isPrefix hE henv h
  rw [← map_data_messages] at hprefix
  exact (hsublist.map Message.data).trans hprefix.sublist

/-- **The viewer shows what the camera delivered.** Put the viewer behind the driver, with OpenCV as
documented, a window that takes every picture, and compressed frames shorter than 2^31 bytes.
Whatever the link loses, no message makes the viewer fail. The data that arrive are some of the
payloads of the valid frames grabbed, in the order they were grabbed; the viewer has shown the
picture of each of them, and a raw picture has the geometry of the parameters and stays inside its
message. -/
theorem viewer_shows_delivered (E : Env S P M G R) (I : S → Prop) (hE : E.StableViews I)
    (accepts : Accepts) (hmat : DocumentedMat accepts) (cv : JpegCv) (hcv : DocumentedJpeg cv)
    (shows : Shows) (hshows : ∀ shown img, shows shown img = true) (topic : Topic)
    (node : Overrides) (stamper : MmapStamper) (boxFd : Nat) (env : S) (henv : I env)
    (s : Monitor S P ViewerRun)
    (h : Runs.Reachable (Monitor.step E (viewer accepts cv shows) topic)
      (Monitor.init (loadParams node) stamper boxFd env {}) s)
    (hshort : (loadParams node).compressed = true →
      ∀ message ∈ s.sys.node.messages, message.data.length < 2 ^ 31) :
    s.subscriber.running = true ∧
      (s.link.delivered.map Message.data).Sublist
        (payloads (loadParams node) (grabs s.sys.node.calls)) ∧
      s.subscriber.shown
        = s.link.delivered.filterMap (fun message => picture cv (loadParams node) message.data) ∧
      ∀ message ∈ s.link.delivered, (loadParams node).compressed = false →
        (loadParams node).header.Inside message.data := by
  have hp := loadParams_shaped node
  obtain ⟨hsublist, hknown⟩ := Monitor.subscriber_invariant
    (J := Showing cv (loadParams node)) (Q := FromDriver (loadParams node))
    (fun _ _ _ hmessage hv => hv.receive hmessage hp hmat hcv hshows) (fun _ _ _ hv => hv.report)
    ⟨rfl, rfl⟩ h
  have hsys := Monitor.sys_reachable h
  have hdriver := fromDriver_reachable hE henv hsys hshort
  obtain ⟨hrunning, hshown⟩ := hknown hdriver
  refine ⟨hrunning, delivered_sublist hE henv hsys hsublist, hshown, ?_⟩
  intro message hmem hraw
  have hmessage := hdriver message (hsublist.subset hmem)
  cases message with
  | image msg => exact hmessage.header_inside hp
  | compressed msg => exact absurd hmessage.compressed.1 (by simp [hraw])

theorem documentedMat_checked : DocumentedMat checked := by
  intro rows cols step hrows hcols hstep
  have hstep' : 3 * (cols : Int) ≤ step := by exact_mod_cast hstep
  simp [checked, hstep']

theorem documentedJpeg_undecoded : DocumentedJpeg undecoded where
  row := by
    intro cols hcols
    simp [undecoded]
  imdecode := by
    intro data hdata
    refine ⟨.empty, ?_⟩
    simp [undecoded, hdata]

theorem run_lossyRun_compressed : ∃ s,
    Runs.run (Monitor.step (gstEnv rampContent) (viewer checked undecoded windowShows)
        (publication (loadParams { compressed := some true })))
      (Monitor.init (loadParams { compressed := some true }) {} 3 {} {}) (lossyRun 3) = some s ∧
      s.sys.node.messages.map (fun message => message.data) = [[0, 1, 2], [10, 11, 12]] ∧
      s.link.delivered.map Message.data = [[10, 11, 12]] :=
  ⟨_, rfl, rfl, rfl⟩

/-- A raw message that arrives is shown. A compressed one that is no picture leaves the viewer
alive, and nothing is shown. -/
theorem viewer_shows_delivered_lossyRun :
    (∃ s, Runs.run (Monitor.step (gstEnv rampContent) (viewer checked undecoded windowShows)
          (publication (loadParams {})))
        (Monitor.init (loadParams {}) {} 3 {} {}) (lossyRun 691200) = some s ∧
        s.sys.node.published.length = 2 ∧ s.subscriber.running = true ∧
        s.subscriber.shown.length = 1) ∧
    ∃ s, Runs.run (Monitor.step (gstEnv rampContent) (viewer checked undecoded windowShows)
          (publication (loadParams { compressed := some true })))
        (Monitor.init (loadParams { compressed := some true }) {} 3 {} {}) (lossyRun 3) = some s ∧
        s.link.delivered.map Message.data = [[10, 11, 12]] ∧ s.subscriber.running = true ∧
        s.subscriber.shown = [] := by
  constructor
  · obtain ⟨s, hrun, hpublished, hdelivered⟩ := run_lossyRun
    obtain ⟨hrunning, -, hshown, -⟩ := viewer_shows_delivered (gstEnv rampContent) (fun _ => True)
      (gstEnv_stableViews rampContent) checked documentedMat_checked undecoded
      documentedJpeg_undecoded windowShows (fun _ _ => rfl) (publication (loadParams {})) {} {} 3 {}
      trivial s ⟨lossyRun 691200, hrun⟩ (fun hcompressed => absurd hcompressed (by decide))
    obtain ⟨message, hmessage⟩ := List.length_eq_one_iff.mp hdelivered
    have hraw : (loadParams {}).compressed = false := by decide
    refine ⟨s, hrun, hpublished, hrunning, ?_⟩
    rw [hshown, hmessage]
    simp [picture, hraw]
  · obtain ⟨s, hrun, hmessages, hdelivered⟩ := run_lossyRun_compressed
    have hshort : ∀ message ∈ s.sys.node.messages, message.data.length < 2 ^ 31 := by
      intro message hmem
      have hdata := List.mem_map_of_mem (f := fun message : Message => message.data) hmem
      rw [hmessages] at hdata
      rcases List.mem_pair.mp hdata with hdata | hdata <;> rw [hdata] <;> decide
    obtain ⟨hrunning, -, hshown, -⟩ := viewer_shows_delivered (gstEnv rampContent) (fun _ => True)
      (gstEnv_stableViews rampContent) checked documentedMat_checked undecoded
      documentedJpeg_undecoded windowShows (fun _ _ => rfl)
      (publication (loadParams { compressed := some true })) { compressed := some true } {} 3 {}
      trivial s ⟨lossyRun 3, hrun⟩ (fun _ => hshort)
    have hnone : (s.link.delivered.map Message.data).filterMap
        (picture undecoded (loadParams { compressed := some true })) = [] := by
      rw [hdelivered]
      rfl
    rw [List.filterMap_map] at hnone
    exact ⟨s, hrun, hdelivered, hrunning, hshown.trans hnone⟩

/-! ### The saver keeps what was published -/

/-- The newest message, as the saver holds it. -/
def newest (seen : List Message) : Option ReceivedImage :=
  match seen.getLast? with
  | some (.image msg) => some msg.received
  | _ => none

/-- `picks` tells which of the messages seen is in each picture saved. -/
structure Kept (saveDir : String) (seen : List Message) (g : Gallery) : Prop where
  numbered : Numbered saveDir g.run
  latest : g.run.running = true → g.run.saver.latest = newest seen
  picks : ∃ picks : List Nat, picks.Pairwise (· ≤ ·) ∧ (∀ k ∈ picks, k < seen.length) ∧
    List.Forall₂ (fun k picture => newest (seen.take (k + 1)) = some picture.2) picks g.saved
  paths : (g.saved.map Prod.fst).Sublist g.run.paths
  files : (g.saved.map Prod.fst).Nodup → ∀ picture ∈ g.saved, g.files picture.1 = some picture.2

variable {saveDir : String} {seen : List Message} {g : Gallery}

theorem kept_init (saveDir : String) : Kept saveDir [] { run := .init saveDir } where
  numbered := numbered_init saveDir
  latest := fun _ => rfl
  picks := ⟨[], .nil, by simp, .nil⟩
  paths := .slnil
  files := by
    rintro - picture hpicture
    cases hpicture

theorem Kept.see (h : Kept saveDir seen g) (message : Message) {run : SaverRun}
    (hnumbered : Numbered saveDir run) (hpaths : run.paths = g.run.paths)
    (hlatest : run.running = true → run.saver.latest = newest (seen ++ [message])) :
    Kept saveDir (seen ++ [message]) { g with run } := by
  obtain ⟨picks, hmono, hlt, hpicked⟩ := h.picks
  refine ⟨hnumbered, hlatest, ⟨picks, hmono, ?_, ?_⟩, ?_, h.files⟩
  · intro k hk
    have hk' := hlt k hk
    simp only [List.length_append, List.length_singleton]
    omega
  · rw [List.forall₂_iff_get] at hpicked ⊢
    obtain ⟨hlength, hget⟩ := hpicked
    refine ⟨hlength, fun i hi hi' => ?_⟩
    have hk := hlt _ (List.get_mem picks ⟨i, hi⟩)
    rw [List.take_append_of_le_length (by omega)]
    exact hget i hi hi'
  · rw [hpaths]
    exact h.paths

theorem Kept.image (h : Kept saveDir seen g) (msg : Image) :
    Kept saveDir (seen ++ [.image msg]) (g.image accepts msg.received) := by
  unfold Gallery.image
  cases hstep : g.run.step accepts (.image msg.received) with
  | none =>
      have hstopped : g.run.running ≠ true := by
        intro hrunning
        simp [SaverRun.step, hrunning] at hstep
      exact h.see _ h.numbered rfl fun hrunning => absurd hrunning hstopped
  | some run =>
      have hnumbered := h.numbered.step hstep
      simp only [SaverRun.step] at hstep
      split_ifs at hstep
      obtain rfl := Option.some.inj hstep
      refine h.see _ hnumbered rfl fun _ => ?_
      simp [newest]

theorem latest_of_imwrite {s : ImageSaver} {path : String} {img : MatHeader}
    (h : (s.saveLatest accepts).1 = .imwrite path img) : ∃ msg, s.latest = some msg := by
  cases hlatest : s.latest with
  | none => simp [ImageSaver.saveLatest, hlatest] at h
  | some msg => exact ⟨msg, rfl⟩

/-- **What one tick does.** It writes no picture and builds at most one path, or it writes the
newest message under a new path. -/
inductive Ticks (g t : Gallery) : Prop where
  | nothing (hsaved : t.saved = g.saved) (hfiles : t.files = g.files)
      (hpaths : g.run.paths <+: t.run.paths)
      (hlatest : t.run.running = true → g.run.running = true ∧
        t.run.saver.latest = g.run.saver.latest)
  | picture (path : String) (msg : ReceivedImage) (hrunning : g.run.running = true)
      (hmsg : g.run.saver.latest = some msg) (hsaved : t.saved = g.saved ++ [(path, msg)])
      (hfiles : t.files = Function.update g.files path (some msg))
      (hpaths : t.run.paths = g.run.paths ++ [path])
      (hlatest : t.run.saver.latest = g.run.saver.latest)

theorem timer_spec (accepts : Accepts) (g : Gallery) (answer : ImwriteAnswer) :
    Ticks g (g.timer accepts answer) := by
  by_cases hrunning : g.run.running = true
  · have hsaves := saveLatest_spec accepts g.run.saver
    have himwrite := @latest_of_imwrite accepts g.run.saver
    unfold Gallery.timer SaverRun.step
    dsimp only
    rw [if_pos hrunning]
    cases hsave : g.run.saver.saveLatest accepts with
    | mk outcome saver =>
        rw [hsave] at hsaves himwrite
        dsimp only at hsaves himwrite ⊢
        cases hsaves with
        | nothing hpath =>
            cases outcome with
            | noFrame | notBgr8 => exact .nothing rfl rfl List.prefix_rfl fun _ => ⟨hrunning, rfl⟩
            | threw => exact .nothing rfl rfl List.prefix_rfl fun h => by cases h
            | imwrite path img => exact absurd rfl (hpath path img)
        | picture img =>
            obtain ⟨msg, hmsg⟩ := himwrite rfl
            rw [hmsg]
            cases answer with
            | written => exact .picture _ msg hrunning hmsg rfl rfl rfl hmsg.symm
            | failed | threw =>
                exact .nothing rfl rfl (List.prefix_append _ _) fun _ => ⟨hrunning, hmsg.symm⟩
  · have hstays : g.timer accepts answer = g := by
      simp [Gallery.timer, SaverRun.step, hrunning]
    rw [hstays]
    exact .nothing rfl rfl List.prefix_rfl fun h => ⟨h, rfl⟩

theorem Kept.numbered_timer (h : Kept saveDir seen g) (accepts : Accepts) (answer : ImwriteAnswer) :
    Numbered saveDir (g.timer accepts answer).run := by
  unfold Gallery.timer
  cases hstep : g.run.step accepts (.timer answer) with
  | none => exact h.numbered
  | some run =>
      have hnumbered := h.numbered.step hstep
      dsimp only
      split <;> exact hnumbered

theorem Kept.timer (h : Kept saveDir seen g) (answer : ImwriteAnswer) :
    Kept saveDir seen (g.timer accepts answer) := by
  have hnumbered := h.numbered_timer accepts answer
  cases timer_spec accepts g answer with
  | nothing hsaved hfiles hpaths hlatest =>
      refine ⟨hnumbered, ?_, ?_, ?_, ?_⟩
      · intro hrunning
        obtain ⟨hrunning', hlatest⟩ := hlatest hrunning
        rw [hlatest, h.latest hrunning']
      · rw [hsaved]
        exact h.picks
      · rw [hsaved]
        exact h.paths.trans hpaths.sublist
      · rw [hsaved, hfiles]
        exact h.files
  | picture path msg hrunning hmsg hsaved hfiles hpaths hlatest =>
      have hnewest : newest seen = some msg := (h.latest hrunning).symm.trans hmsg
      have hpos : 0 < seen.length := by
        refine List.length_pos_iff.mpr fun hnil => ?_
        rw [hnil] at hnewest
        cases hnewest
      refine ⟨hnumbered, ?_, ?_, ?_, ?_⟩
      · intro _
        rw [hlatest, h.latest hrunning]
      · obtain ⟨picks, hmono, hlt, hpicked⟩ := h.picks
        refine ⟨picks ++ [seen.length - 1], ?_, ?_, ?_⟩
        · refine List.pairwise_append.mpr ⟨hmono, List.pairwise_singleton _ _, ?_⟩
          intro k hk j hj
          obtain rfl := List.mem_singleton.mp hj
          have hk' := hlt k hk
          omega
        · intro k hk
          rcases List.mem_append.mp hk with hk | hk
          · exact hlt k hk
          · obtain rfl := List.mem_singleton.mp hk
            omega
        · rw [hsaved]
          refine List.rel_append hpicked (.cons ?_ .nil)
          rw [Nat.sub_add_cancel hpos, List.take_length]
          exact hnewest
      · rw [hsaved, hpaths, List.map_append]
        exact h.paths.append (List.Sublist.refl _)
      · intro hnodup picture hpicture
        rw [hsaved, List.map_append] at hnodup
        rw [hsaved] at hpicture
        obtain ⟨hnodup, -, hdisjoint⟩ := List.nodup_append.mp hnodup
        rw [hfiles]
        rcases List.mem_append.mp hpicture with hpicture | hpicture
        · have hne : picture.1 ≠ path :=
            hdisjoint _ (List.mem_map_of_mem hpicture) _ (List.mem_singleton_self path)
          rw [Function.update_of_ne hne]
          exact h.files hnodup picture hpicture
        · obtain rfl := List.mem_singleton.mp hpicture
          exact Function.update_self _ _ _

theorem image_of_newest_take {k : Nat} (hk : k < seen.length) {picture : ReceivedImage}
    (h : newest (seen.take (k + 1)) = some picture) :
    ∃ msg, seen[k]? = some (.image msg) ∧ picture = msg.received := by
  have hlast : (seen.take (k + 1)).getLast? = seen[k]? := by
    rw [List.getLast?_take, if_neg (by omega), Nat.add_sub_cancel, List.getElem?_eq_getElem hk]
    rfl
  rw [newest, hlast] at h
  split at h
  · exact ⟨_, ‹_›, (Option.some.inj h).symm⟩
  · cases h

/-- **Saved pictures are the driver's, and stay.** Put the saver behind a driver of raw frames. As
long as it has built fewer than ten million names, every picture it has written is still under its
name, whatever `imwrite` has answered in between. Each is the data of a message as it arrived, with
the geometry of the parameters, in the order of arrival, and what arrives are payloads of the valid
frames grabbed, in order. -/
theorem saver_keeps_published (E : Env S P M G R) (I : S → Prop) (hE : E.StableViews I)
    (accepts : Accepts) (hmat : DocumentedMat accepts) (topic : Topic)
    (node : Overrides) (hraw : (loadParams node).compressed = false) (saveDir : String)
    (stamper : MmapStamper) (boxFd : Nat) (env : S) (henv : I env) (s : Monitor S P Gallery)
    (h : Runs.Reachable (Monitor.step E (saver accepts) topic)
      (Monitor.init (loadParams node) stamper boxFd env { run := .init saveDir }) s)
    (hfew : s.subscriber.run.paths.length < 10 ^ 7) :
    (∀ picture ∈ s.subscriber.saved, s.subscriber.files picture.1 = some picture.2 ∧
      picture.2.mat accepts = some (loadParams node).header ∧
      (loadParams node).header.Inside picture.2.data) ∧
    (∃ picks : List Nat, picks.Pairwise (· ≤ ·) ∧
      List.Forall₂ (fun k picture => (s.link.delivered.map Message.data)[k]? = some picture.2.data)
        picks s.subscriber.saved) ∧
    (s.link.delivered.map Message.data).Sublist
      (payloads (loadParams node) (grabs s.sys.node.calls)) := by
  have hp := loadParams_shaped node
  obtain ⟨hsublist, hknown⟩ := Monitor.subscriber_invariant (J := Kept saveDir)
    (Q := fun message => ∃ msg, message = .image msg)
    (fun seen g message hmessage hg => by
      obtain ⟨msg, rfl⟩ := hmessage
      exact hg.image msg)
    (fun _ _ answer hg => hg.timer answer) (kept_init saveDir) h
  have hsys := Monitor.sys_reachable h
  have hdriver := fromDriver_reachable hE henv hsys fun hcompressed =>
    absurd hcompressed (by simp [hraw])
  have himage : ∀ message ∈ s.sys.node.messages, ∃ msg, message = .image msg := by
    intro message hmem
    have hmessage := hdriver message hmem
    cases message with
    | image msg => exact ⟨msg, rfl⟩
    | compressed msg => exact absurd hmessage.compressed.1 (by simp [hraw])
  have hkept := hknown himage
  obtain ⟨picks, hmono, hlt, hpicked⟩ := hkept.picks
  rw [List.forall₂_iff_get] at hpicked
  obtain ⟨hlength, hget⟩ := hpicked
  -- the picture in place `i` is the message `picks[i]`
  have hsource : ∀ i hi hi', ∃ msg, s.link.delivered[picks.get ⟨i, hi⟩]? = some (.image msg) ∧
      (s.subscriber.saved.get ⟨i, hi'⟩).2 = msg.received := fun i hi hi' =>
    image_of_newest_take (hlt _ (List.get_mem picks ⟨i, hi⟩)) (hget i hi hi')
  have hnodup : (s.subscriber.saved.map Prod.fst).Nodup := by
    refine List.Nodup.sublist hkept.paths ?_
    rw [hkept.numbered.paths, nodup_paths_iff]
    exact hfew
  refine ⟨?_, ⟨picks, hmono, List.forall₂_iff_get.mpr ⟨hlength, ?_⟩⟩,
    delivered_sublist hE henv hsys hsublist⟩
  · intro picture hpicture
    obtain ⟨⟨i, hi⟩, rfl⟩ := List.get_of_mem hpicture
    obtain ⟨msg, hmem, hreceived⟩ := hsource i (hlength ▸ hi) hi
    have hmessage := hdriver _ (hsublist.subset (List.mem_of_getElem? hmem))
    refine ⟨hkept.files hnodup _ hpicture, ?_, ?_⟩
    · rw [hreceived]
      exact hmessage.mat hp hmat
    · rw [hreceived]
      exact hmessage.header_inside hp
  · intro i hi hi'
    obtain ⟨msg, hmem, hreceived⟩ := hsource i hi hi'
    rw [List.getElem?_map, hmem, hreceived]
    rfl

/-- One raw frame is published. -/
def publishedFrame : List (MonitorEvent GstMove PullAnswer Unit ImwriteAnswer) :=
  List.map .sys [.env (.pushTime 5), .env .pushCount, .env .pushOn, .env .arrive,
    .grab (.sample true true (some 691200)), .count, .tryOpen ⟨none, none⟩, .readLow 7, .copy,
    .logCbk 9, .publish, .logPub 11, .release ()]

theorem run_publishedFrame : ∃ s msg,
    Runs.run (Monitor.step (gstEnv rampContent) (saver checked) (ImageSaver.subscription none))
      (Monitor.init (loadParams {}) {} 3 {} { run := .init "Log" }) publishedFrame = some s ∧
      s.sys.node.messages = [.image msg] ∧ s.link.inflight = [.image msg] ∧
      s.subscriber = { run := .init "Log" } :=
  ⟨_, _, rfl, rfl, rfl, rfl⟩

/-- The frame goes to the saver, and the next tick writes it. -/
theorem saver_keeps_published_publishedFrame : ∃ s,
    Runs.run (Monitor.step (gstEnv rampContent) (saver checked) (ImageSaver.subscription none))
      (Monitor.init (loadParams {}) {} 3 {} { run := .init "Log" })
      (publishedFrame ++ [.deliver, .timer .written]) = some s ∧
      s.subscriber.saved.map Prod.fst = ["Log/frame_00001.png"] ∧
      ∀ picture ∈ s.subscriber.saved, s.subscriber.files picture.1 = some picture.2 := by
  obtain ⟨s, msg, hrun, hmessages, hinflight, hsubscriber⟩ := run_publishedFrame
  have hmessage : FromDriver (loadParams {}) (.image msg) :=
    fromDriver_reachable (gstEnv_stableViews rampContent) trivial
      (Monitor.sys_reachable ⟨publishedFrame, hrun⟩)
      (fun hcompressed => absurd hcompressed (by decide)) _ (by rw [hmessages]; simp)
  have hsave := saveLatest_of_mat (s := ⟨"Log", some msg.received, 0⟩) rfl
    (hmessage.image (loadParams_shaped {})).2.1
    (hmessage.mat (loadParams_shaped {}) documentedMat_checked)
  obtain ⟨t, hstep, hsaved, hpaths⟩ : ∃ t,
      Runs.run (Monitor.step (gstEnv rampContent) (saver checked) (ImageSaver.subscription none)) s
        [.deliver, .timer .written] = some t ∧
      t.subscriber.saved.map Prod.fst = ["Log/frame_00001.png"] ∧
      t.subscriber.run.paths.length = 1 := by
    have hname : nextPath ⟨"Log", some msg.received, 0⟩ = "Log/frame_00001.png" := by
      show "Log" ++ "/frame_" ++ ImageSaver.snprintf05u ImageSaver.sizeofBuf (0 + 1) ++ ".png" = _
      decide
    refine ⟨_, by simp only [Runs.run, Monitor.step, Link.deliver, hinflight]; rfl, ?_, ?_⟩
    · simp [hsubscriber, saver, Gallery.image, Gallery.timer, SaverRun.step, SaverRun.init, hsave,
        hname]
    · simp [hsubscriber, saver, Gallery.image, Gallery.timer, SaverRun.step, SaverRun.init, hsave]
  have hfull : Runs.run
      (Monitor.step (gstEnv rampContent) (saver checked) (ImageSaver.subscription none))
      (Monitor.init (loadParams {}) {} 3 {} { run := .init "Log" })
      (publishedFrame ++ [.deliver, .timer .written]) = some t := by
    rw [Runs.run_append hrun, hstep]
  refine ⟨t, hfull, hsaved, fun picture hpicture => ?_⟩
  exact ((saver_keeps_published (gstEnv rampContent) (fun _ => True)
    (gstEnv_stableViews rampContent) checked documentedMat_checked (ImageSaver.subscription none) {}
    rfl "Log" {} 3 {} trivial t ⟨_, hfull⟩ (by rw [hpaths]; decide)).1 picture hpicture).1

end EconRos2Driver
