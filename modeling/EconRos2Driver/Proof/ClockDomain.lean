import EconRos2Driver.LidarWriter
import EconRos2Driver.Proof.Delivery

/-!
# One change of clock

The stamps `publish` uses come from `now()` until the first positive value is read from the mapping,
and from the mapping ever after: the mapping, once made, stays, and the word under it, once
positive, stays positive. Whether the values read ever fall is a matter of the words written, the
one the file is created with among them.
-/

namespace EconRos2Driver

variable {S P M G R : Type} {E : Env S P M G R} {s t : System (Shared S) P} {words : List Int}

/-- The low word an event leaves in the file. -/
def Event.word : Event (SharedMove M) G R → Option Int
  | .env (.create _ content) => some content.low
  | .env (.store content) => some content.low
  | _ => none

structure FileSound (f : Timeshare) : Prop where
  length : sizeofSharedTimestamp ≤ f.length
  low : 0 ≤ f.content.low

structure ReadFrom (x : Stamp (Shared S)) : Prop where
  source : x.source = .mapped
  value : ∃ f, x.seenAt.file = some f ∧ x.ns = f.content.low
  pos : 0 < x.ns

/-- Fallbacks first, then values of the mapping, which fall only if the words written do. -/
structure OneSwitch (stamps fallbacks mapped : List (Stamp (Shared S))) (words : List Int) :
    Prop where
  split : stamps = fallbacks ++ mapped
  fromNow : ∀ x ∈ fallbacks, x.source = .fallback
  fromFile : ∀ x ∈ mapped, ReadFrom x
  sorted : words.Pairwise (· ≤ ·) → mapped.Pairwise fun x y => x.ns ≤ y.ns

/-- The file sits under the mapping and holds the last word written: a positive one if any was read,
and none below those read unless the words fall. -/
structure InDomain (s : System (Shared S) P) (mapped : List (Stamp (Shared S)))
    (words : List Int) : Prop where
  agrees : s.node.stamper.Agrees
  file : ∀ f, s.env.file = some f → FileSound f
  word : words.getLast? = s.env.file.map fun f => f.content.low
  under : s.node.stamper.stamp ≠ none → s.env.file ≠ none
  read : ∀ x ∈ mapped,
    s.node.stamper.stamp ≠ none ∧ ∀ f, s.env.file = some f → 0 < f.content.low
  above : words.Pairwise (· ≤ ·) →
    ∀ x ∈ mapped, ∀ f, s.env.file = some f → x.ns ≤ f.content.low

theorem OneSwitch.fallback {stamps fallbacks : List (Stamp (Shared S))}
    (h : OneSwitch stamps fallbacks [] words) {x : Stamp (Shared S)} (hx : x.source = .fallback) :
    OneSwitch (stamps ++ [x]) (fallbacks ++ [x]) [] words where
  split := by simp [h.split]
  fromNow := by
    intro y hy
    rcases List.mem_append.mp hy with hy | hy
    · exact h.fromNow y hy
    · rw [List.mem_singleton.mp hy]
      exact hx
  fromFile := h.fromFile
  sorted := h.sorted

theorem OneSwitch.read {stamps fallbacks mapped : List (Stamp (Shared S))}
    (h : OneSwitch stamps fallbacks mapped words) {x : Stamp (Shared S)} (hx : ReadFrom x)
    (hle : words.Pairwise (· ≤ ·) → ∀ y ∈ mapped, y.ns ≤ x.ns) :
    OneSwitch (stamps ++ [x]) fallbacks (mapped ++ [x]) words where
  split := by simp [h.split]
  fromNow := h.fromNow
  fromFile := by
    intro y hy
    rcases List.mem_append.mp hy with hy | hy
    · exact h.fromFile y hy
    · rw [List.mem_singleton.mp hy]
      exact hx
  sorted := by
    intro hwords
    refine List.pairwise_append.mpr ⟨h.sorted hwords, List.pairwise_singleton _ _, ?_⟩
    intro y hy z hz
    rw [List.mem_singleton.mp hz]
    exact hle hwords y hy

structure ClockDomain (s : System (Shared S) P) (words : List Int) : Prop where
  alive : s.node.pc ≠ .sigbus
  stamps : ∃ fallbacks mapped,
    OneSwitch s.node.stamps fallbacks mapped words ∧ InDomain s mapped words

theorem clockDomain_init (p : Params) (boxFd : Nat) (base : S) :
    ClockDomain (P := P) ⟨Node.init p {} boxFd, ⟨base, none⟩⟩ [] where
  alive := by
    intro hpc
    cases hpc
  stamps := by
    refine ⟨[], [], ⟨rfl, by simp, by simp, fun _ => List.Pairwise.nil⟩, ?_⟩
    refine ⟨MmapStamper.agrees_closed, ?_, rfl, fun hstamp => absurd rfl hstamp, by simp, by simp⟩
    intro f hf
    cases hf

/-- What a move does to the file: nothing, or it writes a word, which is positive if there was a
file before. -/
inductive Rewritten (w u : Shared S) : Option Int → Prop where
  | kept (hfile : u.file = w.file) : Rewritten w u none
  | written {f : Timeshare} (hfile : u.file = some f) (hsound : FileSound f)
      (hpos : w.file ≠ none → 0 < f.content.low) : Rewritten w u (some f.content.low)

theorem rewritten_of_move {w u : Shared S} {m : SharedMove M} (h : w.move E m = some u)
    (hsound : ∀ f, w.file = some f → FileSound f) :
    Rewritten w u (Event.word (.env m : Event (SharedMove M) G R)) := by
  cases m with
  | backend move =>
      obtain ⟨base, -, rfl⟩ := Option.map_eq_some_iff.mp h
      exact .kept rfl
  | create length content =>
      simp only [Shared.move] at h
      split at h
      · rename_i hnone
        split_ifs at h with hvalid
        obtain rfl := Option.some.inj h
        exact .written (f := ⟨length, content⟩) rfl ⟨hvalid.1, hvalid.2⟩ fun hsome =>
          absurd hnone hsome
      · cases h
  | store content =>
      simp only [Shared.move] at h
      split at h
      · rename_i f hsome
        split_ifs at h with hpos
        obtain rfl := Option.some.inj h
        exact .written (f := { f with content }) rfl ⟨(hsound f hsome).length, hpos.le⟩ fun _ =>
          hpos
      · cases h

theorem stamp_tryOpen_ne_none {m : MmapStamper} {file : Option Timeshare} {answer : OpenAnswer}
    (h : (m.tryOpen file answer).stamp ≠ none) : m.stamp ≠ none ∨ file ≠ none := by
  by_contra hneither
  simp only [not_or, not_not] at hneither
  obtain ⟨hstamp, rfl⟩ := hneither
  apply h
  unfold MmapStamper.tryOpen
  split_ifs
  · exact hstamp
  · exact hstamp

theorem InDomain.tryOpen {mapped : List (Stamp (Shared S))} (h : InDomain s mapped words)
    (answer : OpenAnswer) (frame : Frame P) :
    InDomain { s with node := s.node.opened frame s.env.file answer } mapped words where
  agrees := h.agrees.tryOpen _ _
  file := h.file
  word := h.word
  under := by
    intro hstamp
    rcases stamp_tryOpen_ne_none hstamp with hold | hfile
    · exact h.under hold
    · exact hfile
  read := by
    intro x hx
    obtain ⟨hstamp, hpos⟩ := h.read x hx
    obtain ⟨address, haddress⟩ := Option.ne_none_iff_exists'.mp hstamp
    refine ⟨?_, hpos⟩
    dsimp only [Node.opened]
    rw [MmapStamper.stamp_tryOpen h.agrees haddress]
    exact Option.some_ne_none address
  above := h.above

/-- A read never faults. It adds a fallback while nothing positive has been read from the mapping,
and a value of the mapping at the end otherwise. -/
theorem ClockDomain.readLow (h : ClockDomain s words) (frame : Frame P) (now : Int) :
    ClockDomain { s with node := s.node.stamped frame s.env s.env.file now } words := by
  obtain ⟨-, fallbacks, mapped, hswitch, hdomain⟩ := h
  unfold Node.stamped
  by_cases hstamp : s.node.stamper.stamp = none
  · have hread : s.node.stamper.readLowNs s.env.file = some 0 := by
      simp [MmapStamper.readLowNs, hstamp]
    have hnil : mapped = [] := by
      apply List.eq_nil_iff_forall_not_mem.mpr
      intro x hx
      exact (hdomain.read x hx).1 hstamp
    subst hnil
    rw [hread]
    refine ⟨by simp, _, [], hswitch.fallback rfl, ?_⟩
    exact ⟨hdomain.agrees, hdomain.file, hdomain.word, hdomain.under, by simp, by simp⟩
  · obtain ⟨f, hf⟩ := Option.ne_none_iff_exists'.mp (hdomain.under hstamp)
    have hread : s.node.stamper.readLowNs s.env.file = some f.content.low := by
      rw [hf, MmapStamper.readLowNs_of_length hstamp (hdomain.file f hf).length]
    rw [hread]
    by_cases hpos : 0 < f.content.low
    · have hstampOf : Node.stampOf s.env f.content.low now = ⟨f.content.low, .mapped, s.env⟩ := by
        rw [Node.stampOf, if_pos hpos]
      dsimp only
      rw [hstampOf]
      refine ⟨by simp, fallbacks, _, hswitch.read ⟨rfl, ⟨f, hf, rfl⟩, hpos⟩ ?_, ?_⟩
      · exact fun hwords y hy => hdomain.above hwords y hy f hf
      · refine ⟨hdomain.agrees, hdomain.file, hdomain.word, hdomain.under, ?_, ?_⟩
        · intro x _
          refine ⟨hstamp, fun g hg => ?_⟩
          obtain rfl : f = g := Option.some.inj (hf.symm.trans hg)
          exact hpos
        · intro hwords x hx g hg
          rcases List.mem_append.mp hx with hx | hx
          · exact hdomain.above hwords x hx g hg
          · obtain rfl := List.mem_singleton.mp hx
            obtain rfl : f = g := Option.some.inj (hf.symm.trans hg)
            exact le_rfl
    · -- a word that is still zero has not been positive before
      have hnil : mapped = [] := by
        apply List.eq_nil_iff_forall_not_mem.mpr
        intro x hx
        exact hpos ((hdomain.read x hx).2 f hf)
      subst hnil
      have hstampOf : Node.stampOf s.env f.content.low now = ⟨now, .fallback, s.env⟩ := by
        rw [Node.stampOf, if_neg hpos]
      dsimp only
      rw [hstampOf]
      refine ⟨by simp, _, [], hswitch.fallback rfl, ?_⟩
      exact ⟨hdomain.agrees, hdomain.file, hdomain.word, hdomain.under, by simp, by simp⟩

theorem ClockDomain.of_node (h : ClockDomain s words) {node : Node (Shared S) P}
    (hstamper : node.stamper = s.node.stamper) (hstamps : node.stamps = s.node.stamps)
    (halive : node.pc ≠ .sigbus) : ClockDomain { s with node } words := by
  obtain ⟨-, fallbacks, mapped, hswitch, hdomain⟩ := h
  refine ⟨halive, fallbacks, mapped, hstamps ▸ hswitch, ?_⟩
  refine ⟨hstamper ▸ hdomain.agrees, hdomain.file, hdomain.word, hstamper ▸ hdomain.under, ?_,
    hdomain.above⟩
  rw [hstamper]
  exact hdomain.read

theorem ClockDomain.of_file (h : ClockDomain s words) {env : Shared S}
    (hfile : env.file = s.env.file) : ClockDomain { s with env } words := by
  obtain ⟨halive, fallbacks, mapped, hswitch, hdomain⟩ := h
  refine ⟨halive, fallbacks, mapped, hswitch, hdomain.agrees, ?_, ?_, ?_, ?_, ?_⟩ <;>
    dsimp only <;> rw [hfile]
  · exact hdomain.file
  · exact hdomain.word
  · exact hdomain.under
  · exact hdomain.read
  · exact hdomain.above

/-- A word that does not fall is at least the last one, and so at least every value read. -/
theorem ClockDomain.write (h : ClockDomain s words) {env : Shared S} {f : Timeshare}
    (hfile : env.file = some f) (hsound : FileSound f)
    (hpos : s.env.file ≠ none → 0 < f.content.low) :
    ClockDomain { s with env } (words ++ [f.content.low]) := by
  obtain ⟨halive, fallbacks, mapped, hswitch, hdomain⟩ := h
  refine ⟨halive, fallbacks, mapped, ⟨hswitch.split, hswitch.fromNow, hswitch.fromFile, ?_⟩,
    hdomain.agrees, ?_, ?_, ?_, ?_, ?_⟩
  · exact fun hwords => hswitch.sorted (List.pairwise_append.mp hwords).1
  · intro g hg
    obtain rfl : f = g := Option.some.inj (hfile.symm.trans hg)
    exact hsound
  · rw [List.getLast?_concat, hfile, Option.map_some]
  · simp [hfile]
  · intro x hx
    have hstamp := (hdomain.read x hx).1
    refine ⟨hstamp, fun g hg => ?_⟩
    obtain rfl : f = g := Option.some.inj (hfile.symm.trans hg)
    exact hpos (hdomain.under hstamp)
  · intro hwords x hx g hg
    obtain rfl : f = g := Option.some.inj (hfile.symm.trans hg)
    obtain ⟨hbefore, -, hlast⟩ := List.pairwise_append.mp hwords
    obtain ⟨old, hold⟩ := Option.ne_none_iff_exists'.mp (hdomain.under (hdomain.read x hx).1)
    have hmem : old.content.low ∈ words := by
      apply List.mem_of_getLast?
      rw [hdomain.word, hold, Option.map_some]
    calc x.ns ≤ old.content.low := hdomain.above hbefore x hx old hold
      _ ≤ f.content.low := hlast _ hmem _ (List.mem_singleton_self _)

/-- A step that writes no word adds nothing to those written. -/
theorem ClockDomain.quiet (h : ClockDomain t words) :
    ClockDomain t (words ++ (none : Option Int).toList) := by
  rwa [Option.toList_none, List.append_nil]

theorem ClockDomain.step (h : ClockDomain s words) {e : Event (SharedMove M) G R}
    (hstep : System.Step (sharedEnv E) s e t) : ClockDomain t (words ++ e.word.toList) := by
  have hfile : ∀ f, s.env.file = some f → FileSound f := by
    obtain ⟨-, _, _, -, hdomain⟩ := h
    exact hdomain.file
  cases hstep with
  | env hmove =>
      have hrewritten := rewritten_of_move (G := G) (R := R) hmove hfile
      generalize Event.word _ = word at hrewritten ⊢
      cases hrewritten with
      | kept hsame =>
          apply ClockDomain.quiet
          exact h.of_file hsame
      | written hnew hsound hpos => exact h.write hnew hsound hpos
  | grab hpc hgrab =>
      obtain ⟨⟨frame, base⟩, -, hresult⟩ := Option.map_eq_some_iff.mp hgrab
      obtain ⟨rfl, rfl⟩ := Prod.mk.inj hresult
      have hworld : ClockDomain { s with env := { s.env with base } } words := h.of_file rfl
      apply ClockDomain.quiet
      refine hworld.of_node rfl rfl ?_
      simp only [Node.grabbed]
      split <;> simp
  | release hpc hrelease =>
      obtain ⟨base, -, rfl⟩ := Option.map_eq_some_iff.mp hrelease
      have hworld : ClockDomain { s with env := { s.env with base } } words := h.of_file rfl
      apply ClockDomain.quiet
      exact hworld.of_node rfl rfl (by simp [Node.released])
  | tryOpen hpc =>
      obtain ⟨halive, fallbacks, mapped, hswitch, hdomain⟩ := h
      apply ClockDomain.quiet
      exact ⟨by simp [Node.opened], fallbacks, mapped, hswitch, hdomain.tryOpen _ _⟩
  | readLow hpc =>
      apply ClockDomain.quiet
      exact h.readLow _ _
  | count hpc =>
      apply ClockDomain.quiet
      refine h.of_node ?_ ?_ (by simp [Node.counted]) <;> rw [Node.counted, Node.account_eq]
  | copy hpc =>
      apply ClockDomain.quiet
      unfold Node.copied
      split_ifs <;> exact h.of_node rfl rfl (by simp)
  | exit hpc | logCbk hpc | publish hpc | logPub hpc =>
      apply ClockDomain.quiet
      exact h.of_node rfl rfl (by simp [Node.recorded, Node.sent, Node.logged])

/-- **The stamps change clock at most once.** Beside any backend, and whatever `open` and `mmap`
answer, the stamps used so far are fallbacks followed by values read from the mapping, each of them
the word the file held when it was read. They do not decrease if the words written do not, from the
one the file was created with on. The members of the stamper agree, and it holds a descriptor and a
mapping exactly when it is open. -/
theorem stamps_eq_fallbacks_append_mapped (E : Env S P M G R) (p : Params) (boxFd : Nat) (base : S)
    (events : List (Event (SharedMove M) G R))
    (h : Runs.run (System.step (sharedEnv E)) ⟨Node.init p {} boxFd, ⟨base, none⟩⟩ events
      = some s) :
    s.node.stamper.Agrees ∧ s.node.pc ≠ .sigbus ∧
    ∃ fallbacks mapped, s.node.stamps = fallbacks ++ mapped ∧
      (∀ x ∈ fallbacks, x.source = .fallback) ∧
      (∀ x ∈ mapped, x.source = .mapped ∧
        ∃ f, x.seenAt.file = some f ∧ x.ns = f.content.low) ∧
      ((events.filterMap Event.word).Pairwise (· ≤ ·) →
        mapped.Pairwise fun x y => x.ns ≤ y.ns) := by
  have hstep : ∀ (s : System (Shared S) P) past (e : Event (SharedMove M) G R) t,
      ClockDomain s (past.filterMap Event.word) → System.step (sharedEnv E) s e = some t →
      ClockDomain t ((past ++ [e]).filterMap Event.word) := by
    intro s past e t hs ht
    have hnext := hs.step (.of_step ht)
    rw [List.filterMap_append]
    cases hword : e.word <;> simpa [hword] using hnext
  have hinit : ClockDomain (P := P) ⟨Node.init p {} boxFd, ⟨base, none⟩⟩
      (([] : List (Event (SharedMove M) G R)).filterMap Event.word) := clockDomain_init p boxFd base
  have hdomain : ClockDomain s (events.filterMap Event.word) :=
    Runs.invariant_of_history hstep hinit h
  obtain ⟨halive, fallbacks, mapped, hswitch, hin⟩ := hdomain
  refine ⟨hin.agrees, halive, fallbacks, mapped, hswitch.split, hswitch.fromNow, ?_, hswitch.sorted⟩
  intro x hx
  have hread := hswitch.fromFile x hx
  exact ⟨hread.source, hread.value⟩

def oneFrame (answer : OpenAnswer) (now : Int) :
    List (Event (SharedMove GstMove) PullAnswer Unit) :=
  [.env (.backend (.pushTime 5)), .env (.backend .pushCount), .env (.backend .pushOn),
   .env (.backend .arrive), .grab (.sample true true (some 3)), .count, .tryOpen answer,
   .readLow now, .copy, .logCbk 9, .publish, .logPub 11, .release ()]

def sharedRun (events : List (Event (SharedMove GstMove) PullAnswer Unit)) :=
  Runs.run (System.step (sharedEnv (gstEnv rampContent)))
    ⟨Node.init (loadParams { compressed := some true }) {}, ⟨{}, none⟩⟩ events

/-- The file is missing, then cannot be mapped, then holds zero, then two stamps. -/
def switchRun : List (Event (SharedMove GstMove) PullAnswer Unit) :=
  oneFrame ⟨none, none⟩ 7 ++ [.env (.create 16 ⟨0, 0⟩)] ++ oneFrame ⟨some 5, none⟩ 8 ++
    oneFrame ⟨some 6, some 0⟩ 9 ++ [.env (.store ⟨0, 100⟩)] ++ oneFrame ⟨some 7, some 1⟩ 10 ++
    [.env (.store ⟨0, 120⟩)] ++ oneFrame ⟨some 8, some 2⟩ 11

theorem stamps_eq_switchRun : ∃ s, sharedRun switchRun = some s ∧
    s.node.stamps.map (fun x => (x.ns, x.source))
      = [(7, .fallback), (8, .fallback), (9, .fallback), (100, .mapped), (120, .mapped)] ∧
    s.node.stamper.descriptors = [6] ∧ s.node.stamper.Agrees ∧
    ∃ fallbacks mapped, s.node.stamps = fallbacks ++ mapped ∧
      (∀ x ∈ fallbacks, x.source = .fallback) ∧ mapped.Pairwise fun x y => x.ns ≤ y.ns := by
  have hend : (sharedRun switchRun).map
      (fun s => (s.node.stamps.map (fun x => (x.ns, x.source)), s.node.stamper.descriptors))
      = some ([(7, .fallback), (8, .fallback), (9, .fallback), (100, .mapped), (120, .mapped)],
          [6]) := by rfl
  obtain ⟨s, hrun, hs⟩ := Option.map_eq_some_iff.mp hend
  obtain ⟨hstamps, hdescriptors⟩ := Prod.mk.inj hs
  obtain ⟨hagrees, -, fallbacks, mapped, hsplit, hnow, -, hsorted⟩ :=
    stamps_eq_fallbacks_append_mapped (gstEnv rampContent)
      (loadParams { compressed := some true }) 3 {} switchRun hrun
  exact ⟨s, hrun, hstamps, hdescriptors, hagrees, fallbacks, mapped, hsplit, hnow,
    hsorted (by decide)⟩

/-- The file is created with a word left from before, and the writer starts below it. -/
def staleRun : List (Event (SharedMove GstMove) PullAnswer Unit) :=
  [.env (.create 16 ⟨0, 100⟩)] ++ oneFrame ⟨some 6, some 0⟩ 7 ++ [.env (.store ⟨0, 50⟩)] ++
    oneFrame ⟨some 6, some 0⟩ 8 ++ [.env (.store ⟨0, 60⟩)] ++ oneFrame ⟨some 6, some 0⟩ 9

/-- The two values stored rise, and the second stamp is below the first. -/
theorem mapped_fall_staleRun : ∃ s, sharedRun staleRun = some s ∧
    staleRun.filterMap Event.word = [100, 50, 60] ∧
    s.node.stamps.map (fun x => (x.ns, x.source))
      = [(100, .mapped), (50, .mapped), (60, .mapped)] ∧
    ¬ ∃ fallbacks mapped, s.node.stamps = fallbacks ++ mapped ∧
      (∀ x ∈ fallbacks, x.source = .fallback) ∧ (∀ x ∈ mapped, x.source = .mapped) ∧
      mapped.Pairwise fun x y => x.ns ≤ y.ns := by
  have hend : (sharedRun staleRun).map (fun s => s.node.stamps.map fun x => (x.ns, x.source))
      = some [(100, .mapped), (50, .mapped), (60, .mapped)] := by rfl
  obtain ⟨s, hrun, hstamps⟩ := Option.map_eq_some_iff.mp hend
  refine ⟨s, hrun, rfl, hstamps, ?_⟩
  rintro ⟨fallbacks, mapped, hsplit, hnow, -, hsorted⟩
  rw [hsplit] at hstamps
  cases fallbacks with
  | nil =>
      have hvalues : (mapped.map fun x => x.ns) = [100, 50, 60] := by
        simpa [Function.comp_def] using congrArg (List.map Prod.fst) hstamps
      have hfall := List.pairwise_map.mpr hsorted
      rw [hvalues] at hfall
      exact absurd hfall (by decide)
  | cons x fallbacks =>
      have hx : x.source = .mapped := (Prod.mk.inj (List.cons.inj hstamps).1).2
      rw [hnow x List.mem_cons_self] at hx
      cases hx

end EconRos2Driver
