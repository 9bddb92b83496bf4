import EconRos2Driver.Proof.MessageBounds

/-!
# The names of the saved pictures

The counter is a name of its own for 2^32 saves, but its decimal is printed into eight bytes. Seven
digits are all that fit, and the picture of save 10000000 gets the name of picture 1000000.
-/

namespace EconRos2Driver

open ImageSaver

variable {accepts : Accepts} {s t : SaverRun} {saveDir : String}

def picturePath (saveDir : String) (n : Nat) : String :=
  saveDir ++ "/frame_" ++ snprintf05u sizeofBuf (UInt32.ofNat n) ++ ".png"

/-- The counter is the number of paths built, and the paths are those of 1, 2, and so on. -/
structure Numbered (saveDir : String) (s : SaverRun) : Prop where
  dir : s.saver.saveDir = saveDir
  count : s.saver.count = UInt32.ofNat s.paths.length
  paths : s.paths = (List.range s.paths.length).map fun j => picturePath saveDir (j + 1)

theorem numbered_init (saveDir : String) : Numbered saveDir (SaverRun.init saveDir) :=
  ⟨rfl, rfl, rfl⟩

def nextPath (s : ImageSaver) : String :=
  s.saveDir ++ "/frame_" ++ snprintf05u sizeofBuf (s.count + 1) ++ ".png"

/-- **What one `save_latest` can do.** It builds no path and changes nothing, or it builds the path
of the next number. -/
inductive Saves (s : ImageSaver) : SaveOutcome → ImageSaver → Prop where
  | nothing {outcome : SaveOutcome} (hpath : ∀ path img, outcome ≠ .imwrite path img) :
      Saves s outcome s
  | picture (img : MatHeader) :
      Saves s (.imwrite (nextPath s) img) { s with count := s.count + 1 }

theorem saveLatest_spec (accepts : Accepts) (s : ImageSaver) :
    Saves s (s.saveLatest accepts).1 (s.saveLatest accepts).2 := by
  unfold saveLatest
  split
  · exact .nothing (by simp)
  · split_ifs
    · exact .nothing (by simp)
    · split
      · exact .nothing (by simp)
      · exact .picture _

theorem Numbered.saved (h : Numbered saveDir s) (img : MatHeader) {path : String}
    {saver : ImageSaver} (hsaves : Saves s.saver (.imwrite path img) saver) (running : Bool) :
    Numbered saveDir ⟨saver, s.paths ++ [path], running⟩ := by
  cases hsaves with
  | nothing hpath => exact absurd rfl (hpath path img)
  | picture =>
      have hcount : s.saver.count + 1 = UInt32.ofNat (s.paths.length + 1) := by
        rw [h.count, UInt32.ofNat_add]
        rfl
      have hpath : nextPath s.saver = picturePath saveDir (s.paths.length + 1) := by
        rw [nextPath, hcount, h.dir]
        rfl
      refine ⟨h.dir, ?_, ?_⟩
      · rw [List.length_append]
        exact hcount
      · rw [List.length_append, List.length_singleton, List.range_succ, List.map_append,
          ← h.paths, hpath]
        rfl

theorem Numbered.step (h : Numbered saveDir s) {e : SaverEvent}
    (hstep : s.step accepts e = some t) : Numbered saveDir t := by
  cases e with
  | image msg =>
      simp only [SaverRun.step] at hstep
      split_ifs at hstep
      obtain rfl := Option.some.inj hstep
      exact ⟨h.dir, h.count, h.paths⟩
  | timer answer =>
      have hsaves := saveLatest_spec accepts s.saver
      simp only [SaverRun.step] at hstep
      split_ifs at hstep
      split at hstep
      all_goals
        rename_i saver heq
        rw [heq] at hsaves
        obtain rfl := Option.some.inj hstep
      · cases hsaves
        exact ⟨h.dir, h.count, h.paths⟩
      · cases hsaves
        exact ⟨h.dir, h.count, h.paths⟩
      · cases hsaves
        exact ⟨h.dir, h.count, h.paths⟩
      · exact h.saved _ hsaves _

theorem numbered_run {events : List SaverEvent}
    (h : Runs.run (SaverRun.step accepts) (.init saveDir) events = some s) : Numbered saveDir s :=
  Runs.Reachable.invariant (I := Numbered saveDir) (fun _ _ _ hs hstep => hs.step hstep)
    (numbered_init saveDir) ⟨events, h⟩

/-! ### Which paths are distinct -/

theorem picturePath_eq_iff {n m : Nat} (hn : n < 2 ^ 32) (hm : m < 2 ^ 32) :
    picturePath saveDir n = picturePath saveDir m ↔ Decimal.cut 5 7 n = Decimal.cut 5 7 m := by
  have htoNat : ∀ {k : Nat}, k < 2 ^ 32 → (UInt32.ofNat k).toNat = k := fun hk =>
    UInt32.toNat_ofNat_of_lt' hk
  unfold picturePath snprintf05u
  rw [htoNat hn, htoNat hm]
  constructor
  · intro h
    have hlist := congrArg String.toList h
    simpa [sizeofBuf] using hlist
  · intro h
    rw [sizeofBuf, h]

theorem nodup_paths_iff_of_lt {n : Nat} (hn : n < 2 ^ 32) :
    ((List.range n).map fun j => picturePath saveDir (j + 1)).Nodup ↔ n < 10 ^ 7 := by
  rw [← Decimal.nodup_cut_iff (by decide : 5 ≤ 7) (by decide),
    List.nodup_map_iff_inj_on List.nodup_range, List.nodup_map_iff_inj_on List.nodup_range]
  have hcut : ∀ i ∈ List.range n, ∀ j ∈ List.range n,
      (picturePath saveDir (i + 1) = picturePath saveDir (j + 1) ↔
        Decimal.cut 5 7 (i + 1) = Decimal.cut 5 7 (j + 1)) := by
    intro i hi j hj
    have hi' := List.mem_range.mp hi
    have hj' := List.mem_range.mp hj
    exact picturePath_eq_iff (by omega) (by omega)
  constructor
  · exact fun h i hi j hj heq => h i hi j hj ((hcut i hi j hj).mpr heq)
  · exact fun h i hi j hj heq => h i hi j hj ((hcut i hi j hj).mp heq)

theorem nodup_paths_iff (saveDir : String) (n : Nat) :
    ((List.range n).map fun j => picturePath saveDir (j + 1)).Nodup ↔ n < 10 ^ 7 := by
  by_cases hn : n < 2 ^ 32
  · exact nodup_paths_iff_of_lt hn
  · refine ⟨fun hnodup => ?_, fun hlt => absurd (Nat.lt_trans hlt (by decide)) hn⟩
    have hsub : (List.range (10 ^ 7)).Sublist (List.range n) :=
      List.range_sublist.mpr (by omega)
    have hfirst := hnodup.sublist (hsub.map fun j => picturePath saveDir (j + 1))
    exact absurd ((nodup_paths_iff_of_lt (by decide)).mp hfirst) (Nat.lt_irrefl _)

/-- **When pictures keep names of their own.** In every run, whatever `imwrite` answers, the paths
built so far are pairwise distinct exactly if they are fewer than ten million. -/
theorem paths_distinct_iff (accepts : Accepts) (saveDir : String) (events : List SaverEvent)
    (s : SaverRun) (h : Runs.run (SaverRun.step accepts) (.init saveDir) events = some s) :
    s.paths.Nodup ↔ s.paths.length < 10 ^ 7 := by
  rw [(numbered_run h).paths, nodup_paths_iff]
  simp

/-! ### Runs that get there -/

theorem saveLatest_of_mat {s : ImageSaver} {msg : ReceivedImage} {img : MatHeader}
    (hlatest : s.latest = some msg) (hencoding : msg.encoding = "bgr8")
    (hmat : msg.mat accepts = some img) :
    s.saveLatest accepts = (.imwrite (nextPath s) img, { s with count := s.count + 1 }) := by
  simp [saveLatest, hlatest, hencoding, hmat, nextIndex, nextPath]

/-- As long as `imwrite` does not throw, a picture that can be saved is saved at every tick. -/
theorem run_timers {msg : ReceivedImage} {img : MatHeader} (hencoding : msg.encoding = "bgr8")
    (hmat : msg.mat accepts = some img) (n : Nat) {s : SaverRun} (hrunning : s.running = true)
    (hlatest : s.saver.latest = some msg) : ∃ t,
      Runs.run (SaverRun.step accepts) s (List.replicate n (.timer .written)) = some t ∧
        t.paths.length = s.paths.length + n := by
  induction n generalizing s with
  | zero => exact ⟨s, rfl, rfl⟩
  | succ n ih =>
      have hstep : s.step accepts (.timer .written)
          = some ⟨{ s.saver with count := s.saver.count + 1 }, s.paths ++ [nextPath s.saver], true⟩
          := by
        rw [SaverRun.step, if_pos hrunning, saveLatest_of_mat hlatest hencoding hmat]
        rfl
      obtain ⟨t, hrun, hlength⟩ := ih
        (s := ⟨{ s.saver with count := s.saver.count + 1 }, s.paths ++ [nextPath s.saver], true⟩)
        rfl hlatest
      refine ⟨t, ?_, ?_⟩
      · rw [List.replicate_succ, Runs.run_cons hstep, hrun]
      · rw [hlength, List.length_append, List.length_singleton]
        omega

def smallFrame : ReceivedImage where
  encoding := "bgr8"
  height := 1
  width := 1
  step := 3
  data := [10, 20, 30]

def threeSaves : List SaverEvent :=
  [.image smallFrame, .timer .written, .timer .failed, .image smallFrame, .timer .written]

theorem paths_distinct_threeSaves : ∃ s,
    Runs.run (SaverRun.step checked) (.init "Log") threeSaves = some s ∧
      s.paths = ["Log/frame_00001.png", "Log/frame_00002.png", "Log/frame_00003.png"] ∧
      (s.paths.Nodup ↔ s.paths.length < 10 ^ 7) := by
  refine ⟨_, rfl, by decide, ?_⟩
  exact paths_distinct_iff checked "Log" threeSaves _ rfl

/-- One frame, saved ten million times over. -/
theorem repeated_path_of_tenMillionSaves : ∃ s,
    Runs.run (SaverRun.step checked) (.init "Log")
        (.image smallFrame :: List.replicate 10000000 (.timer .written)) = some s ∧
      s.paths.length < 2 ^ 32 ∧ ¬ s.paths.Nodup := by
  have hmat : smallFrame.mat checked = some ⟨1, 1, 3, false⟩ := by decide
  obtain ⟨s, hrun, hlength⟩ := run_timers rfl hmat 10000000
    (s := { saver := { saveDir := "Log", latest := some smallFrame } }) rfl rfl
  rw [List.length_nil, Nat.zero_add] at hlength
  have hfull : Runs.run (SaverRun.step checked) (.init "Log")
      (.image smallFrame :: List.replicate 10000000 (.timer .written)) = some s := by
    rw [← hrun]
    exact Runs.run_cons rfl _
  refine ⟨s, hfull, by omega, ?_⟩
  rw [(numbered_run hfull).paths, nodup_paths_iff, hlength]
  decide

end EconRos2Driver
