import EconRos2Driver.Proof.EndToEnd
import EconRos2Driver.Proof.Shutdown

/-!
# From the runs of the system to the life of the process

`Device.Lifts` asks of a property that every run of the system has it, whatever `start` the run
begins with, and that what the process does around that run leaves it alone: the constructor, a
`start` that fails, the moves of the device at any time and the steps of the destructor. Such a
property holds at every moment of the process, whatever the three threads do in which order.
-/

namespace EconRos2Driver

open V4l2World

variable {S P M G R A : Type}

structure Device.Lifts (D : Device S P M G R A) (p : Params) (Before : S → Prop)
    (Q : System S P → Prop) : Prop where
  before_move : ∀ w m t, Before w → D.move w m = some t → Before t
  init : ∀ w, Before w → Q ⟨{ Node.init p with box := {} }, w⟩
  start : ∀ (fd : Nat) w answer, Before w →
    Q ⟨Node.init p {} fd, (D.start p (imageFormat p) w answer).2⟩
  run : ∀ (fd : Nat) w answer env s, Before w → D.start p (imageFormat p) w answer = (true, env) →
    Runs.Reachable (System.step D.toEnv) ⟨Node.init p {} fd, env⟩ s → Q s
  move : ∀ s m w, Q s → D.move s.env m = some w → Q { s with env := w }
  stop : ∀ s, Q s → Q { s with env := D.stop s.env }
  node : ∀ s node, Q s → node.published = s.node.published → node.pc = s.node.pc →
    Q { s with node }

variable {D : Device S P M G R A} {p : Params} {Before : S → Prop} {Q : System S P → Prop}
  {s t : Process S P}

theorem Device.Lifts.mainStep (hD : D.Lifts p Before Q) (hs : Constructing D p Before s)
    (hQ : Q s.sys) {event : MainEvent A} (hstep : s.mainStep D event = some t) : Q t.sys := by
  cases event with
  | initBackend answer =>
      simp only [Process.mainStep] at hstep
      split_ifs at hstep with hmain hok
      all_goals
        obtain rfl := Option.some.inj hstep
        obtain ⟨-, fd, hnode, hw⟩ := hs.waiting (.inr hmain.1)
        have hp : s.sys.node.p = p := by rw [hnode]; rfl
        have hstart := hD.start fd s.sys.env answer hw
        dsimp only
        rwa [hp, hnode]
  | initLog _ | closeStamper | closeLog | destroyStamper =>
      simp only [Process.mainStep] at hstep
      split_ifs at hstep
      obtain rfl := Option.some.inj hstep
      exact hD.node _ _ hQ rfl rfl
  | stopBackend | destroyBackend =>
      simp only [Process.mainStep, Process.stopDevice] at hstep
      split_ifs at hstep
      · obtain rfl := Option.some.inj hstep
        exact hD.stop _ hQ
      · obtain rfl := Option.some.inj hstep
        exact hQ
  | initHid _ | unknownBackend | startThread | endSpin | setStop | joinGrab | closeHid
  | stopWriter | joinWriter | syncLog | unmapLog =>
      simp only [Process.mainStep] at hstep
      split_ifs at hstep
      all_goals
        obtain rfl := Option.some.inj hstep
        exact hQ

/-- A step of the grab thread is one of the system; without that thread the device may still
move. -/
theorem Device.Lifts.sys (hD : D.Lifts p Before Q) (horderly : Orderly s) (hQ : Q s.sys)
    {event : Event M G R} {sys : System S P} (hsys : System.Step D.toEnv s.sys event sys)
    (hthread : (∀ move, event ≠ .env move) → s.hasThread = true)
    (hstarted : s.hasThread = true → s.main.joined = false →
      Started D p Before { s with sys }) : Q sys := by
  by_cases hevent : ∀ move, event ≠ .env move
  · have hone := hthread hevent
    have hmain := horderly.not_joined hsys hevent hone
    obtain ⟨fd, w, answer, env, hw, hstart, hreach⟩ := hstarted hone hmain
    exact hD.run fd w answer env sys hw hstart hreach
  · obtain ⟨move, rfl⟩ : ∃ move, event = .env move := by simpa using hevent
    cases hsys with
    | env hmove => exact hD.move _ _ _ hQ hmove

theorem Device.Lifts.step (hD : D.Lifts p Before Q) (horderly : Orderly s)
    (hs : Constructing D p Before s) (hQ : Q s.sys) {event : ProcessEvent M G R A}
    (hstep : s.step D event = some t) : Q t.sys := by
  have ht := hs.step hD.before_move hstep
  unfold Process.step at hstep
  split at hstep
  · cases hstep
  · cases event with
    | sys event =>
        dsimp only [Process.sysStep] at hstep
        split_ifs at hstep with hmay
        obtain ⟨sys, hsys, rfl⟩ := Option.map_eq_some_iff.mp hstep
        exact hD.sys horderly hQ (.of_step hsys) (hasThread_of_mayTake hmay)
          fun hone hmain => ht.started (.inr hone) hmain
    | testStop | testOk =>
        dsimp only [Process.testStep] at hstep
        split at hstep
        · split_ifs at hstep with hgate hgo
          · obtain rfl := Option.some.inj hstep
            exact hQ
          · obtain ⟨sys, hsys, rfl⟩ := Option.map_eq_some_iff.mp hstep
            exact hD.sys horderly hQ (.of_step hsys) (fun _ => hgate.1)
              fun hone hmain => ht.started (.inr hone) hmain
        · cases hstep
    | shutdownRequested =>
        obtain rfl := Option.some.inj hstep
        exact hQ
    | main event => exact hD.mainStep hs hQ hstep
    | writer =>
        obtain ⟨writer, trace, rfl, -⟩ := writerStep_spec hstep
        exact hQ

/-- **The lifting rule.** What holds of every run of the system holds of the process at every
moment. -/
theorem Device.Lifts.reachable (hD : D.Lifts p Before Q) {w : S} (hw : Before w)
    (h : Runs.Reachable (Process.step D) (Process.init p w) s) : Q s.sys := by
  refine (h.invariant (I := fun s => Orderly s ∧ Constructing D p Before s ∧ Q s.sys) ?_
    ⟨orderly_init p w, constructing_reachable hD.before_move hw (.refl _), hD.init w hw⟩).2.2
  intro s event t ⟨horderly, hs, hQ⟩ hstep
  exact ⟨horderly.step hstep, hs.step hD.before_move hstep, hD.step horderly hs hQ hstep⟩

/-- After the join no frame is on its way. -/
theorem Orderly.atRest (h : Orderly s) (hmain : s.main.joined = true) :
    s.sys.node.pc = .head ∨ s.sys.node.pc = .exited := by
  cases hthread : s.hasThread with
  | false => exact .inl (h.noThread hthread)
  | true => exact .inr (h.joined hmain hthread)

theorem reachable_env {E : Env S P M G R} (node : Node S P) {w u : S}
    (h : Runs.Reachable E.move w u) : Runs.Reachable (System.step E) ⟨node, w⟩ ⟨node, u⟩ := by
  refine Runs.run_simulates (fun env => (⟨node, env⟩ : System S P)) (I := fun _ => True)
    (fun _ _ _ _ _ => trivial) ?_ trivial h
  intro w move u _ hmove
  refine Runs.Reachable.of_step (e := .env move) ?_
  simp [System.step, hmove]

/-! ### GStreamer -/

theorem Pushed.of_same {content : Nat → Nat → UInt8} {p : Params} {s t : System GstWorld Nat}
    (h : Pushed content p s) (hcounted : s.env.counted ≤ t.env.counted)
    (hpublished : t.node.published = s.node.published) : Pushed content p t := by
  obtain ⟨ks, hsorted, hlt, hall⟩ := h
  refine ⟨ks, hsorted, fun k hk => (hlt k hk).trans_le hcounted, ?_⟩
  rwa [hpublished]

variable {cv : OpenCv}

theorem Conveyed.of_same {p : Params} {s t : System V4l2World V4l2Ptr} (h : Conveyed cv p s)
    (hdeliveries : t.env.deliveries = s.env.deliveries)
    (hpublished : t.node.published = s.node.published) (hpc : t.node.pc = s.node.pc) :
    Conveyed cv p t := by
  unfold Conveyed
  rw [hdeliveries, hpublished, hpc]
  exact h

theorem conveyed_of_nothing {p : Params} {s : System V4l2World V4l2Ptr}
    (hdeliveries : s.env.deliveries = []) (hpublished : s.node.published = []) :
    Conveyed cv p s := by
  intro _
  rw [hdeliveries, hpublished]
  exact ⟨List.nil_prefix, fun _ => rfl⟩

theorem deliveries_stop (w : V4l2World) : w.stop.deliveries = w.deliveries := by
  have hunmap : ∀ (is : List Nat) (w : V4l2World),
      (is.foldl unmapBuffer w).deliveries = w.deliveries := by
    intro is
    induction is with
    | nil => exact fun _ => rfl
    | cons i is ih =>
        intro w
        rw [List.foldl_cons, ih]
        unfold unmapBuffer
        dsimp only
        split <;> rfl
  unfold V4l2World.stop
  split_ifs
  · rfl
  · exact hunmap _ _

theorem reachable_shared (w : V4l2World) (file : Option Timeshare) :
    Runs.Reachable V4l2World.move w (w.shared file) :=
  .of_step (e := .timeshare file) rfl

theorem v4l2Device_lifts (cv : OpenCv) (node : Overrides) :
    ((v4l2Device cv).answering fun answer => granted (loadParams node) answer ≤ kBufCount).Lifts
      (loadParams node) Unopened (Conveyed cv (loadParams node)) where
  before_move := (v4l2Device_uses cv (loadParams node)).before_move
  init := by
    rintro _ ⟨memory, file, rfl⟩
    exact conveyed_of_nothing rfl rfl
  start := by
    rintro fd _ ⟨answer, hgranted⟩ ⟨memory, file, rfl⟩
    exact conveyed_of_nothing (start_kept _ _ _ _).2 rfl
  run := by
    rintro fd _ ⟨answer, hgranted⟩ env s ⟨memory, file, rfl⟩ hstart h
    have hshared := (start_shared (fresh memory) file _ _ answer).symm.trans hstart
    obtain ⟨hok, rfl⟩ := Prod.mk.inj hshared
    have hfile := reachable_env (E := v4l2Env cv) (Node.init (loadParams node) {} fd)
      (reachable_shared ((fresh memory).start (loadParams node) (imageFormat (loadParams node))
        answer).2 file)
    exact conveyed_reachable hgranted hok (hfile.trans h)
  move := fun _ _ _ hQ hmove => hQ.of_same (untouched_move hmove).deliveries rfl rfl
  stop := fun s hQ => hQ.of_same (deliveries_stop s.env) rfl rfl
  node := fun _ _ hQ hpublished hpc => hQ.of_same rfl hpublished hpc

/-- **No capture is lost over the life of the process.** Let `REQBUFS` grant no more than
`kBufCount` buffers, if it comes to that. However the constructor ends and whenever the destructor
begins, as long as the buffers of a raw camera come back full: the messages published so far are the
deliveries of the kernel that a valid frame comes of, each once and first come first, and after the
join none of these is left. -/
theorem process_publishes_captures (cv : OpenCv) (node : Overrides) (memory : Nat → Nat → UInt8)
    (s : Process V4l2World V4l2Ptr)
    (events : List (ProcessEvent V4l2Move DqbufAnswer Bool StartAnswer))
    (hevents : ∀ event ∈ events,
      event.Answered fun answer => granted (loadParams node) answer ≤ kBufCount)
    (h : Runs.run (Process.step (v4l2Device cv)) (Process.init (loadParams node) (fresh memory))
      events = some s)
    (hfull : (loadParams node).compressed = false → ∀ d ∈ s.sys.env.deliveries,
      captureSize (loadParams node) ≤ d.bytesused) :
    s.sys.node.published.map (fun sent => sent.message.data)
        <+: s.sys.env.deliveries.filterMap (captured cv (loadParams node)) ∧
      (s.main.joined = true → s.sys.node.published.map (fun sent => sent.message.data)
        = s.sys.env.deliveries.filterMap (captured cv (loadParams node))) := by
  obtain ⟨hpre, hall⟩ := (v4l2Device_lifts cv node).reachable ⟨memory, none, rfl⟩
    (reachable_answering hevents h) hfull
  exact ⟨hpre, fun hmain => hall ((orderly_reachable ⟨events, h⟩).atRest hmain)⟩

theorem process_publishes_captures_busy : ∃ s,
    Runs.run (Process.step (v4l2Device noShapes))
        (Process.init opencvParams (fresh fun _ _ => 7)) busyTeardown = some s ∧
      s.sys.env.deliveries.length = 1 ∧
      s.sys.node.published.map (fun sent => sent.message.data)
        = s.sys.env.deliveries.filterMap (captured noShapes opencvParams) := by
  obtain ⟨s, hrun, hmain, hlength⟩ : ∃ s, Runs.run (Process.step (v4l2Device noShapes))
      (Process.init opencvParams (fresh fun _ _ => 7)) busyTeardown = some s ∧
      s.main.joined = true ∧ s.sys.env.deliveries.length = 1 := ⟨_, rfl, rfl, rfl⟩
  refine ⟨s, hrun, hlength, ?_⟩
  have hgranted : granted (loadParams { backend := some "opencv", compressed := some true })
      fullStart ≤ kBufCount := by decide
  exact (process_publishes_captures noShapes { backend := some "opencv", compressed := some true }
    (fun _ _ => 7) s busyTeardown (by simp [busyTeardown, ProcessEvent.Answered, hgranted]) hrun
    (fun hraw => absurd hraw (by decide))).2 hmain

end EconRos2Driver
