import EconRos2Driver.LogFile
import EconRos2Driver.Proof.PublishLog

/-!
# The directories, the descriptor and the slots of the log

`mkdir_for_file` looks for the slashes of the path from the front. What it passes to `mkdir` are the
prefixes of the path that end before a slash, so every directory is there before its children are
made.

Over any order of calls, what `init` has taken is what `shutdown` will give back, and the counters
go on from one file to the next: a record of the file that is open has the number of its call among
all calls, and no record is written to the slots of the earlier ones.
-/

namespace EconRos2Driver

open Blackbox Ledger Stores

/-! ### The directories -/

theorem findSlash_eq_none {path : List Char} {pos : Nat} (h : findSlash path pos = none) {i : Nat}
    (hi : pos ≤ i) : path[i]? ≠ some '/' := by
  unfold findSlash at h
  rw [Option.map_eq_none_iff, List.findIdx?_eq_none_iff] at h
  intro hslash
  have hmem : '/' ∈ path.drop pos := by
    rw [List.mem_iff_getElem?]
    exact ⟨i - pos, by rw [List.getElem?_drop, Nat.add_sub_cancel' hi, hslash]⟩
  exact absurd (h _ hmem) (by decide)

theorem findSlash_eq_some {path : List Char} {pos p : Nat} (h : findSlash path pos = some p) :
    pos ≤ p ∧ path[p]? = some '/' ∧ ∀ i, pos ≤ i → i < p → path[i]? ≠ some '/' := by
  unfold findSlash at h
  obtain ⟨k, hk, rfl⟩ := Option.map_eq_some_iff.mp h
  obtain ⟨hlt, hslash, hbefore⟩ := List.findIdx?_eq_some_iff_getElem.mp hk
  refine ⟨Nat.le_add_right _ _, ?_, ?_⟩
  · rw [← List.getElem?_drop, List.getElem?_eq_getElem hlt]
    simpa using hslash
  · intro i hi hip hi'
    have hbefore' := hbefore (i - pos) (by omega)
    have hsame : (path.drop pos)[i - pos]? = some '/' := by
      rw [List.getElem?_drop, Nat.add_sub_cancel' hi, hi']
    rw [List.getElem?_eq_getElem (by omega), Option.some.injEq] at hsame
    exact hbefore' (by simp [hsame])

theorem findLastSlash_eq_none {path : List Char} (h : findLastSlash path = none) : '/' ∉ path := by
  unfold findLastSlash at h
  rw [Option.map_eq_none_iff, List.findIdx?_eq_none_iff] at h
  intro hmem
  exact absurd (h _ (List.mem_reverse.mpr hmem)) (by decide)

theorem findLastSlash_eq_some {path : List Char} {k : Nat} (h : findLastSlash path = some k) :
    path = path.take k ++ '/' :: path.drop (k + 1) ∧ '/' ∉ path.drop (k + 1) := by
  unfold findLastSlash at h
  obtain ⟨m, hm, rfl⟩ := Option.map_eq_some_iff.mp h
  obtain ⟨hlt, hslash, hbefore⟩ := List.findIdx?_eq_some_iff_getElem.mp hm
  rw [List.length_reverse] at hlt
  rw [List.getElem_reverse, beq_iff_eq] at hslash
  have hk : path.length - 1 - m < path.length := by omega
  constructor
  · conv_lhs => rw [← List.take_append_drop (path.length - 1 - m) path]
    rw [List.drop_eq_getElem_cons hk, hslash]
  · intro hmem
    obtain ⟨j, hj, hchar⟩ := List.mem_iff_getElem.mp hmem
    rw [List.length_drop] at hj
    have hlater := hbefore (m - 1 - j) (by omega)
    rw [List.getElem_reverse] at hlater
    rw [List.getElem_drop] at hchar
    have hsame : path.length - 1 - (m - 1 - j) = path.length - 1 - m + 1 + j := by omega
    simp only [hsame, hchar, beq_self_eq_true, not_true_eq_false] at hlater

/-- The slashes from position `pos` on, among `n` characters. -/
def slashes (path : List Char) (pos n : Nat) : List Nat :=
  (List.range' pos n).filter fun i => path[i]? == some '/'

theorem slashes_eq_nil {path : List Char} {pos n : Nat}
    (h : ∀ i, pos ≤ i → i < pos + n → path[i]? ≠ some '/') : slashes path pos n = [] := by
  unfold slashes
  rw [List.filter_eq_nil_iff]
  intro i hi
  obtain ⟨hle, hlt⟩ := List.mem_range'_1.mp hi
  simpa using h i hle hlt

theorem slashes_append (path : List Char) (pos n m : Nat) :
    slashes path pos (n + m) = slashes path pos n ++ slashes path (pos + n) m := by
  unfold slashes
  rw [← List.filter_append, List.range'_append_1]

theorem slashes_one (path : List Char) (i : Nat) :
    slashes path i 1 = if path[i]? = some '/' then [i] else [] := by
  unfold slashes
  simp [List.filter_cons]

theorem slashes_eq_cons {path : List Char} {pos n p : Nat} (h : findSlash path pos = some p)
    (hn : p < pos + n) : slashes path pos n = p :: slashes path (p + 1) (pos + n - (p + 1)) := by
  obtain ⟨hle, hslash, hbefore⟩ := findSlash_eq_some h
  have hsplit : n = (p - pos) + (1 + (pos + n - (p + 1))) := by omega
  have hp : pos + (p - pos) = p := by omega
  conv_lhs => rw [hsplit]
  rw [slashes_append, slashes_append, hp, slashes_one, if_pos hslash,
    slashes_eq_nil fun i hi hlt => hbefore i hi (by omega)]
  rfl

theorem mkdirLoop_eq (dir : List Char) (rounds pos : Nat) (h : dir.length ≤ pos + 1 + rounds) :
    mkdirLoop dir rounds pos
      = (slashes dir (pos + 1) (dir.length - (pos + 1))).map fun i => dir.take i := by
  induction rounds generalizing pos with
  | zero =>
      have hnil : dir.length - (pos + 1) = 0 := by omega
      rw [hnil]
      rfl
  | succ rounds ih =>
      unfold mkdirLoop
      cases hfind : findSlash dir (pos + 1) with
      | none =>
          rw [slashes_eq_nil fun i hi _ => findSlash_eq_none hfind hi]
          rfl
      | some p =>
          obtain ⟨hle, hslash, -⟩ := findSlash_eq_some hfind
          have hp : p < dir.length := (List.getElem?_eq_some_iff.mp hslash).1
          have hrest : pos + 1 + (dir.length - (pos + 1)) - (p + 1) = dir.length - (p + 1) := by
            omega
          rw [slashes_eq_cons hfind (by omega), List.map_cons, hrest]
          dsimp only
          rw [ih p (by omega)]

theorem map_take_slashes_take (path : List Char) (slash : Nat) :
    (slashes (path.take (slash + 1)) 1 slash).map (fun i => (path.take (slash + 1)).take i)
      = (slashes path 1 slash).map fun i => path.take i := by
  have hsame : slashes (path.take (slash + 1)) 1 slash = slashes path 1 slash := by
    unfold slashes
    apply List.filter_congr
    intro i hi
    obtain ⟨-, hlt⟩ := List.mem_range'_1.mp hi
    rw [List.getElem?_take_of_lt (by omega)]
  rw [hsame]
  apply List.map_congr_left
  intro i hi
  obtain ⟨-, hlt⟩ := List.mem_range'_1.mp (List.mem_filter.mp hi).1
  rw [List.take_take, Nat.min_eq_left (by omega)]

/-- **What `mkdir` is called for.** The prefixes of the path before its slashes, the first character
apart, from the shortest to the longest. -/
theorem mkdirForFile_eq (path : List Char) :
    mkdirForFile path = (slashes path 1 (path.length - 1)).map fun i => path.take i := by
  unfold mkdirForFile
  cases hlast : findLastSlash path with
  | none =>
      have hnone := findLastSlash_eq_none hlast
      rw [slashes_eq_nil fun i _ _ hi => hnone (List.mem_of_getElem? hi)]
      rfl
  | some k =>
      obtain ⟨hpath, hafter⟩ := findLastSlash_eq_some hlast
      have hlater : ∀ i, k < i → path[i]? ≠ some '/' := by
        intro i hi hslash
        refine hafter (List.mem_of_getElem? (i := i - (k + 1)) ?_)
        rw [List.getElem?_drop, Nat.add_sub_cancel' hi, hslash]
      cases k with
      | zero =>
          rw [slashes_eq_nil fun i hi _ => hlater i hi]
          rfl
      | succ slash =>
          have hlength : slash + 1 < path.length := by
            have h := congrArg List.length hpath
            simp only [List.length_append, List.length_take, List.length_cons,
              List.length_drop] at h
            omega
          have hslash : path[slash + 1]? = some '/' := by
            rw [hpath, List.getElem?_append_right (by simp)]
            simp [Nat.min_eq_left hlength.le]
          have hsplit : path.length - 1 = slash + (1 + (path.length - 1 - (slash + 1))) := by omega
          have hdir : (path.take (slash + 1)).length = slash + 1 := by
            rw [List.length_take, Nat.min_eq_left hlength.le]
          have hall : slashes path 1 (path.length - 1) = slashes path 1 slash ++ [slash + 1] := by
            rw [hsplit, slashes_append, slashes_append, Nat.add_comm 1 slash, slashes_one,
              if_pos hslash, slashes_eq_nil fun i hi _ => hlater i hi, List.append_nil]
          rw [hall, List.map_append, ← map_take_slashes_take]
          dsimp only
          rw [mkdirLoop_eq _ _ _ (by omega), hdir]
          rfl

/-- What `mkdir` does to a file system where nothing stands in its way: it removes no directory, and
a name below the root, the working directory or a directory is one afterwards. -/
structure MakesDirs {σ : Type*} (isDir : σ → List Char → Prop) (mkdir : List Char → σ → σ) :
    Prop where
  keeps : ∀ s path made, isDir s path → isDir (mkdir made s) path
  first : ∀ s name, name ≠ [] → '/' ∉ name → isDir (mkdir name s) name
  next : ∀ s dir name, '/' ∉ name → (dir = [] ∨ isDir s dir) →
    isDir (mkdir (dir ++ '/' :: name) s) (dir ++ '/' :: name)

section

variable {σ : Type*} {isDir : σ → List Char → Prop} {mkdir : List Char → σ → σ}

theorem MakesDirs.keeps_all (h : MakesDirs isDir mkdir) (made : List (List Char)) {s : σ}
    {path : List Char} (hpath : isDir s path) :
    isDir (made.foldl (fun s dir => mkdir dir s) s) path := by
  induction made generalizing s with
  | nil => exact hpath
  | cons dir made ih => exact ih (h.keeps s path dir hpath)

/-- Where all earlier prefixes are directories, `mkdir` makes the one before slash `i`. -/
theorem MakesDirs.makes_prefix (h : MakesDirs isDir mkdir) {path : List Char} {i : Nat}
    (hpos : 0 < i) (hi : path[i]? = some '/') {s : σ}
    (hbefore : ∀ k, 0 < k → k < i → path[k]? = some '/' → isDir s (path.take k)) :
    isDir (mkdir (path.take i) s) (path.take i) := by
  have hlt : i < path.length := (List.getElem?_eq_some_iff.mp hi).1
  have hlength : (path.take i).length = i := by rw [List.length_take, Nat.min_eq_left hlt.le]
  cases hlast : findLastSlash (path.take i) with
  | none =>
      refine h.first s _ ?_ (findLastSlash_eq_none hlast)
      intro hnil
      rw [hnil] at hlength
      exact absurd hlength hpos.ne
  | some k =>
      obtain ⟨hsplit, hname⟩ := findLastSlash_eq_some hlast
      have hki : k < i := by
        have hsum := congrArg List.length hsplit
        simp only [List.length_append, List.length_take, List.length_cons, List.length_drop] at hsum
        omega
      have hslash : path[k]? = some '/' := by
        rw [← List.getElem?_take_of_lt hki, hsplit, List.getElem?_append_right (by simp)]
        simp [hki.le, hlt.le]
      rw [hsplit]
      refine h.next s _ _ hname ?_
      rw [List.take_take, Nat.min_eq_left hki.le]
      rcases Nat.eq_zero_or_pos k with rfl | hk
      · exact .inl rfl
      · exact .inr (hbefore k hk hki hslash)

/-- **The directories are made.** In every file system where nothing stands in the way of `mkdir`,
for every path: afterwards each prefix that ends before a slash is a directory, the directory of the
file among them. -/
theorem directories_made (h : MakesDirs isDir mkdir) (path : List Char) (s : σ) {i : Nat}
    (hpos : 0 < i) (hi : path[i]? = some '/') :
    isDir ((mkdirForFile path).foldl (fun s dir => mkdir dir s) s) (path.take i) := by
  have hfrom : ∀ n k, 0 < k → k ≤ n → path[k]? = some '/' →
      isDir (((slashes path 1 n).map fun i => path.take i).foldl (fun s dir => mkdir dir s) s)
        (path.take k) := by
    intro n
    induction n with
    | zero =>
        intro k hk hle
        omega
    | succ n ih =>
        intro k hk hle hslash
        rw [slashes_append, List.map_append, List.foldl_append, Nat.add_comm 1 n, slashes_one]
        rcases Nat.lt_or_eq_of_le hle with hlt | rfl
        · exact h.keeps_all _ (ih k hk (Nat.le_of_lt_succ hlt) hslash)
        · rw [if_pos hslash]
          exact h.makes_prefix hk hslash fun k hk hlt => ih k hk (Nat.le_of_lt_succ hlt)
  have hlt : i < path.length := (List.getElem?_eq_some_iff.mp hi).1
  rw [mkdirForFile_eq]
  exact hfrom _ i hpos (by omega) hi

end

/-- Directories as the list of their paths. -/
def treeMkdir (dir : List Char) (dirs : List (List Char)) : List (List Char) :=
  match findLastSlash dir with
  | none => dir :: dirs
  | some k => if k = 0 ∨ dir.take k ∈ dirs then dir :: dirs else dirs

theorem findLastSlash_append (dir : List Char) {name : List Char} (h : '/' ∉ name) :
    findLastSlash (dir ++ '/' :: name) = some dir.length := by
  have hnone : name.reverse.findIdx? (· == '/') = none := by
    rw [List.findIdx?_eq_none_iff]
    intro c hc
    rw [beq_eq_false_iff_ne]
    rintro rfl
    exact h (List.mem_reverse.mp hc)
  unfold findLastSlash
  rw [List.reverse_append, List.reverse_cons, List.append_assoc, List.findIdx?_append, hnone]
  simp [List.findIdx?_cons]

theorem treeMkdir_makesDirs : MakesDirs (fun dirs path => path ∈ dirs) treeMkdir where
  keeps := by
    intro dirs path made hpath
    unfold treeMkdir
    split
    · exact List.mem_cons_of_mem _ hpath
    · split_ifs
      · exact List.mem_cons_of_mem _ hpath
      · exact hpath
  first := by
    intro dirs name _ hname
    have hnone : findLastSlash name = none := by
      cases hlast : findLastSlash name with
      | none => rfl
      | some k =>
          have hmem : '/' ∈ name := by
            rw [(findLastSlash_eq_some hlast).1]
            simp
          exact absurd hmem hname
    simp [treeMkdir, hnone]
  next := by
    intro dirs dir name hname hdir
    simp only [treeMkdir, findLastSlash_append dir hname, List.take_left]
    rw [if_pos (hdir.imp_left fun hnil => by rw [hnil]; rfl)]
    exact List.mem_cons_self

theorem directories_made_tree :
    "/home/u/.blackbox/log".toList
      ∈ (mkdirForFile "/home/u/.blackbox/log/pub.bin".toList).foldl
        (fun dirs dir => treeMkdir dir dirs) [] :=
  directories_made treeMkdir_makesDirs "/home/u/.blackbox/log/pub.bin".toList [] (i := 21)
    (by decide) (by decide)

/-! ### The descriptor, the table and the thread -/

namespace LogFile

/-- What `init` has taken for the file that is open. -/
def own (s : LogFile) : List LogResource :=
  if s.box.fd < 0 then [] else [.writer, .mapping, .file s.box.fd]

structure Settled (s : LogFile) : Prop where
  mapped : s.mapped = decide (0 ≤ s.box.fd)
  joinable : s.joinable = decide (0 ≤ s.box.fd)
  ledger : Leaves s.ledger s.own
  touched : ∀ access ∈ s.touched, access.1 < kBufN ∧ access.2 = true

variable {s : LogFile}

theorem settled_fresh : Settled {} where
  mapped := rfl
  joinable := rfl
  ledger := leaves_nil
  touched := by
    intro access haccess
    cases haccess

/-- A call of `init` while no file is open: it fails and leaves nothing behind, or a fresh table is
mapped and the writer runs. -/
inductive Opening (s : LogFile) (result : Option String × LogFile) : Prop where
  | failed (text : String) (htext : result.1 = some text) (hfd : result.2.box.fd = -1)
      (hsame : result.2.box.idx = s.box.idx ∧ result.2.box.seq = s.box.seq ∧
        result.2.mapped = s.mapped ∧ result.2.joinable = s.joinable ∧
        result.2.touched = s.touched ∧ result.2.cbks = s.cbks ∧ result.2.opened = s.opened)
      (hledger : ∀ rest, Leaves s.ledger rest → Leaves result.2.ledger rest)
  | opened (fd : Nat) (htext : result.1 = none)
      (hbox : result.2.box = { s.box with fd := (fd : Int), base := fun _ => {} })
      (hmapped : result.2.mapped = true ∧ result.2.joinable = true)
      (hsame : result.2.touched = s.touched ∧ result.2.cbks = s.cbks ∧
        result.2.opened = s.cbks.length)
      (hledger : ∀ rest, Leaves s.ledger rest →
        Leaves result.2.ledger ([.writer, .mapping, .file fd] ++ rest))

theorem init_spec (s : LogFile) (hclosed : s.box.fd < 0) (path : String) (answer : InitAnswer) :
    Opening s (s.init path answer) := by
  unfold LogFile.init
  rw [if_neg (Int.not_le.mpr hclosed)]
  cases answer.openFd with
  | none => exact .failed _ rfl rfl ⟨rfl, rfl, rfl, rfl, rfl, rfl, rfl⟩ fun _ h => h
  | some fd =>
      have hfailed : ∀ rest, Leaves s.ledger rest →
          Leaves (s.ledger ++ [.take (.file fd)] ++ [.give (.file fd)]) rest :=
        fun rest h => (h.take [.file fd]).give
      dsimp only
      split_ifs
      · exact .failed _ rfl rfl ⟨rfl, rfl, rfl, rfl, rfl, rfl, rfl⟩ hfailed
      · exact .failed _ rfl rfl ⟨rfl, rfl, rfl, rfl, rfl, rfl, rfl⟩ hfailed
      · refine .opened fd rfl rfl ⟨rfl, rfl⟩ ⟨rfl, rfl, rfl⟩ fun rest h => ?_
        have hall := (h.take [.file fd]).take [.mapping, .writer]
        exact hall.perm (.swap _ _ _)

theorem Settled.init (h : Settled s) (path : String) (answer : InitAnswer) :
    Settled (s.init path answer).2 := by
  by_cases hclosed : s.box.fd < 0
  · have hledger := h.ledger
    rw [own, if_pos hclosed] at hledger
    have hnot : decide (0 ≤ s.box.fd) = false := decide_eq_false (Int.not_le.mpr hclosed)
    cases init_spec s hclosed path answer with
    | failed _ _ hfd hsame hkeeps =>
        obtain ⟨-, -, hmapped, hjoinable, htouched, -, -⟩ := hsame
        refine ⟨?_, ?_, ?_, ?_⟩
        · rw [hmapped, h.mapped, hnot, hfd]
          rfl
        · rw [hjoinable, h.joinable, hnot, hfd]
          rfl
        · rw [own, hfd, if_pos (by decide)]
          exact hkeeps _ hledger
        · rw [htouched]
          exact h.touched
    | opened fd _ hbox hmapped hsame hkeeps =>
        have hfd : (s.init path answer).2.box.fd = fd := by rw [hbox]
        have hdecide : decide ((0 : Int) ≤ fd) = true := decide_eq_true (Int.natCast_nonneg fd)
        refine ⟨?_, ?_, ?_, ?_⟩
        · rw [hmapped.1, hfd, hdecide]
        · rw [hmapped.2, hfd, hdecide]
        · rw [own, hfd, if_neg (Int.not_lt.mpr (Int.natCast_nonneg fd))]
          exact hkeeps _ hledger
        · rw [hsame.1]
          exact h.touched
  · have hsame : s.init path answer = (none, s) := if_pos (Int.not_lt.mp hclosed)
    rw [hsame]
    exact h

theorem Settled.shutdown_eq (h : Settled s) (hopen : 0 ≤ s.box.fd) :
    s.shutdown = { s with box := { s.box with fd := -1 }, mapped := false, joinable := false
                          ledger := s.ledger ++ [.give .writer] ++ [.give .mapping]
                            ++ [.give (.file s.box.fd)] } := by
  have hmapped : s.mapped = true := h.mapped.trans (decide_eq_true hopen)
  have hjoinable : s.joinable = true := h.joinable.trans (decide_eq_true hopen)
  simp [LogFile.shutdown, LogFile.close, Int.not_lt.mpr hopen, hmapped, hjoinable]

theorem shutdown_fd (s : LogFile) : s.shutdown.box.fd < 0 := by
  unfold LogFile.shutdown
  by_cases hclosed : s.box.fd < 0
  · rwa [if_pos hclosed]
  · rw [if_neg hclosed]
    exact Int.negSucc_lt_zero 0

theorem Settled.shutdown (h : Settled s) : Settled s.shutdown := by
  by_cases hclosed : s.box.fd < 0
  · have hsame : s.shutdown = s := if_pos hclosed
    rw [hsame]
    exact h
  · have hledger := h.ledger
    rw [own, if_neg hclosed] at hledger
    rw [h.shutdown_eq (Int.not_lt.mp hclosed)]
    refine ⟨rfl, rfl, ?_, h.touched⟩
    have hgiven : Leaves (s.ledger
        ++ ([.writer, .mapping, .file s.box.fd] : List LogResource).map .give) [] :=
      Leaves.give hledger
    rwa [List.append_assoc, List.append_assoc]

theorem logCbk_fd (b : Box) (c : CbkCall) :
    (logCbk b c.headerStampNs c.tCaptureNs c.tCbkNs).2.fd = b.fd := by
  by_cases hopen : b.fd < 0
  · rw [logCbk, if_pos hopen]
  · rcases Nat.lt_or_ge b.idx.toNat kBufN with hlt | hge
    · rw [logCbk_of_lt c (Int.not_lt.mp hopen) hlt]
    · rw [logCbk_of_ge c (Int.not_lt.mp hopen) hge]

/-- A record is accessed only below the end of the table and while a file is open. -/
theorem logCbk_index {b : Box} {c : CbkCall}
    (h : (logCbk b c.headerStampNs c.tCaptureNs c.tCbkNs).1 ≠ sizeMax) :
    0 ≤ b.fd ∧ (logCbk b c.headerStampNs c.tCaptureNs c.tCbkNs).1.toNat < kBufN := by
  by_cases hopen : b.fd < 0
  · rw [logCbk, if_pos hopen] at h
    exact absurd rfl h
  · rcases Nat.lt_or_ge b.idx.toNat kBufN with hlt | hge
    · rw [logCbk_of_lt c (Int.not_lt.mp hopen) hlt]
      exact ⟨Int.not_lt.mp hopen, hlt⟩
    · rw [logCbk_of_ge c (Int.not_lt.mp hopen) hge] at h
      exact absurd rfl h

theorem Settled.access (h : Settled s) {i : Nat} (hi : i < kBufN) (hopen : 0 ≤ s.box.fd) :
    ∀ access ∈ s.touched ++ [(i, s.mapped)], access.1 < kBufN ∧ access.2 = true := by
  intro access haccess
  rcases List.mem_append.mp haccess with haccess | haccess
  · exact h.touched access haccess
  · obtain rfl := List.mem_singleton.mp haccess
    exact ⟨hi, h.mapped.trans (decide_eq_true hopen)⟩

theorem Settled.cbk (h : Settled s) (c : CbkCall) : Settled (s.cbk c) := by
  have hfd := logCbk_fd s.box c
  refine ⟨?_, ?_, ?_, ?_⟩
  · exact h.mapped.trans (by rw [LogFile.cbk, hfd])
  · exact h.joinable.trans (by rw [LogFile.cbk, hfd])
  · have hown : (s.cbk c).own = s.own := by rw [own, own, LogFile.cbk, hfd]
    rw [hown]
    exact h.ledger
  · simp only [LogFile.cbk]
    split_ifs with hindex
    · exact h.touched
    · obtain ⟨hopen, hlt⟩ := logCbk_index hindex
      exact h.access hlt hopen

theorem Settled.pub (h : Settled s) (i now : UInt64) : Settled (s.pub i now) := by
  have hfd : (logPub s.box i now).fd = s.box.fd := by
    unfold logPub
    split_ifs <;> rfl
  refine ⟨?_, ?_, ?_, ?_⟩
  · exact h.mapped.trans (by rw [LogFile.pub, hfd])
  · exact h.joinable.trans (by rw [LogFile.pub, hfd])
  · have hown : (s.pub i now).own = s.own := by rw [own, own, LogFile.pub, hfd]
    rw [hown]
    exact h.ledger
  · simp only [LogFile.pub]
    split_ifs with hguard
    · exact h.touched
    · obtain ⟨hopen, -, hlt⟩ := not_or.mp hguard |>.imp_right not_or.mp
      exact h.access (Nat.not_le.mp hlt) (Int.not_lt.mp hopen)

theorem Settled.step (h : Settled s) (call : LogCall) : Settled (s.step call) := by
  cases call with
  | init path answer => exact h.init path answer
  | shutdown => exact h.shutdown
  | cbk c => exact h.cbk c
  | pub i now => exact h.pub i now

theorem settled_run (calls : List LogCall) (h : Settled s) : Settled (calls.foldl step s) := by
  induction calls generalizing s with
  | nil => exact h
  | cons call calls ih => exact ih (h.step call)

/-- **Nothing of a log file is leaked.** Over every order of calls, whatever `open`, `fallocate` and
`mmap` answer: descriptor, table and writer are there together or not at all, nothing is given back
twice, no record is accessed beyond the table or while it is not mapped, and a last `shutdown` has
given back everything. -/
theorem log_file_settled (calls : List LogCall) :
    let s := calls.foldl step {}
    (s.mapped = true ↔ 0 ≤ s.box.fd) ∧ (s.joinable = true ↔ 0 ≤ s.box.fd) ∧
      Leaves s.ledger s.own ∧ (∀ access ∈ s.touched, access.1 < kBufN ∧ access.2 = true) ∧
      outstanding s.shutdown.ledger = some [] := by
  have hsettled := settled_run calls settled_fresh
  refine ⟨?_, ?_, hsettled.ledger, hsettled.touched, ?_⟩
  · rw [hsettled.mapped, decide_eq_true_iff]
  · rw [hsettled.joinable, decide_eq_true_iff]
  · have hclosed : (calls.foldl LogFile.step {}).shutdown.own = [] := if_pos (shutdown_fd _)
    exact hsettled.shutdown.ledger.outstanding_iff.mpr hclosed

/-! ### The slots -/

/-- A record without what `log_pub` stores to it. -/
def unpublished (r : ImagePubRecord) : ImagePubRecord := { r with tPubNs := 0, rosDone := 0 }

theorem unpublished_pubStores (now : UInt64) (r : ImagePubRecord) :
    unpublished (apply (pubStores now) r) = unpublished r := rfl

structure Numbered (s : LogFile) : Prop where
  idx : s.box.idx.toNat = s.cbks.length
  seq : s.box.seq.toNat = min s.cbks.length kBufN
  opened : s.opened ≤ s.cbks.length
  records : 0 ≤ s.box.fd → ∀ j, unpublished (s.box.base j)
    = if s.opened ≤ j then content s.cbks [] j else {}

theorem numbered_fresh : Numbered {} where
  idx := rfl
  seq := rfl
  opened := Nat.le_refl 0
  records := by
    intro hopen
    exact absurd hopen (by decide)

theorem Numbered.init (h : Numbered s) (path : String) (answer : InitAnswer) :
    Numbered (s.init path answer).2 := by
  by_cases hclosed : s.box.fd < 0
  · cases init_spec s hclosed path answer with
    | failed _ _ hfd hsame _ =>
        obtain ⟨hidx, hseq, -, -, -, hcbks, hopened⟩ := hsame
        refine ⟨?_, ?_, ?_, fun hopen => ?_⟩
        · rw [hidx, hcbks, h.idx]
        · rw [hseq, hcbks, h.seq]
        · rw [hopened, hcbks]
          exact h.opened
        · rw [hfd] at hopen
          exact absurd hopen (by decide)
    | opened fd _ hbox _ hsame _ =>
        obtain ⟨-, hcbks, hopened⟩ := hsame
        refine ⟨?_, ?_, ?_, ?_⟩
        · rw [hbox, hcbks, h.idx]
        · rw [hbox, hcbks, h.seq]
        · rw [hopened, hcbks]
        · intro _ j
          rw [hbox, hopened, hcbks]
          split_ifs with hj
          · rw [content_of_ge (.inl hj)]
            rfl
          · rfl
  · have hsame : s.init path answer = (none, s) := if_pos (Int.not_lt.mp hclosed)
    rw [hsame]
    exact h

theorem Numbered.shutdown (h : Numbered s) (hsettled : Settled s) : Numbered s.shutdown := by
  by_cases hclosed : s.box.fd < 0
  · have hsame : s.shutdown = s := if_pos hclosed
    rw [hsame]
    exact h
  · rw [hsettled.shutdown_eq (Int.not_lt.mp hclosed)]
    exact ⟨h.idx, h.seq, h.opened, fun hopen => absurd (Int.negSucc_lt_zero 0) hopen.not_gt⟩

theorem Numbered.pub (h : Numbered s) (i now : UInt64) : Numbered (s.pub i now) := by
  unfold LogFile.pub logPub
  split_ifs with hguard
  · exact h
  · refine ⟨h.idx, h.seq, h.opened, fun hopen j => ?_⟩
    rw [← h.records hopen j]
    by_cases hj : j = i.toNat
    · rw [hj]
      exact (congrArg unpublished (Function.update_self _ _ _)).trans
        (unpublished_pubStores now _)
    · exact congrArg unpublished (Function.update_of_ne hj _ _)

theorem Numbered.cbk (h : Numbered s) (c : CbkCall) (hcount : s.cbks.length + 1 < 2 ^ 64) :
    Numbered (s.cbk c) := by
  by_cases hopen : s.box.fd < 0
  · have hsame : s.cbk c = s := by
      simp [LogFile.cbk, logCbk, hopen]
    rw [hsame]
    exact h
  · have hidx : (s.box.idx + 1).toNat = s.cbks.length + 1 := by
      rw [UInt64.toNat_add, h.idx]
      exact Nat.mod_eq_of_lt hcount
    rcases Nat.lt_or_ge s.box.idx.toNat kBufN with hlt | hge
    · have hlt' : s.cbks.length < kBufN := h.idx ▸ hlt
      have hseq : s.box.seq + 1 = UInt64.ofNat (s.cbks.length + 1) := by
        apply UInt64.toNat_inj.mp
        rw [UInt64.toNat_add, h.seq, Nat.min_eq_left hlt'.le, toNat_seq hlt']
        exact Nat.mod_eq_of_lt hcount
      unfold LogFile.cbk
      rw [logCbk_of_lt c (Int.not_lt.mp hopen) hlt, if_neg hopen]
      refine ⟨by simpa using hidx, ?_, ?_, fun _ j => ?_⟩
      · simp only [List.length_append, List.length_singleton]
        rw [hseq, toNat_seq hlt', Nat.min_eq_left hlt']
      · simpa using Nat.le_succ_of_le h.opened
      · dsimp only
        by_cases hj : j = s.cbks.length
        · rw [hj, if_pos h.opened, content_of_lt hlt' List.getElem?_concat_length, h.idx, put_self,
            hseq]
          rfl
        · rw [put_of_ne _ _ (h.idx ▸ hj), h.records (Int.not_lt.mp hopen) j,
            content_congr (getElem?_concat_of_ne hj) rfl]
    · have hge' : kBufN ≤ s.cbks.length := h.idx ▸ hge
      unfold LogFile.cbk
      rw [logCbk_of_ge c (Int.not_lt.mp hopen) hge, if_neg hopen]
      refine ⟨by simpa using hidx, ?_, ?_, fun hopen j => ?_⟩
      · simp only [List.length_append, List.length_singleton]
        rw [h.seq]
        omega
      · simpa using Nat.le_succ_of_le h.opened
      · dsimp only
        rw [content_cbk_full [] c hge']
        exact h.records hopen j

theorem length_cbks_step (s : LogFile) (call : LogCall) :
    (s.step call).cbks.length ≤ s.cbks.length + if call.isCbk then 1 else 0 := by
  cases call with
  | init path answer =>
      refine Nat.le_of_eq (congrArg List.length ?_)
      by_cases hclosed : s.box.fd < 0
      · cases init_spec s hclosed path answer with
        | failed _ _ _ hsame _ => exact hsame.2.2.2.2.2.1
        | opened _ _ _ _ hsame _ => exact hsame.2.1
      · have hsame : s.init path answer = (none, s) := if_pos (Int.not_lt.mp hclosed)
        rw [LogFile.step, hsame]
  | shutdown =>
      refine Nat.le_of_eq (congrArg List.length ?_)
      simp only [LogFile.step, LogFile.shutdown, LogFile.close]
      split_ifs <;> rfl
  | cbk c =>
      simp only [LogFile.step, LogFile.cbk, LogCall.isCbk, if_true]
      split_ifs
      · exact Nat.le_succ _
      · simp
  | pub i now => exact Nat.le_refl _

theorem numbered_run (calls : List LogCall) (hsettled : Settled s) (h : Numbered s)
    (hcount : s.cbks.length + calls.countP LogCall.isCbk < 2 ^ 64) :
    Numbered (calls.foldl step s) := by
  induction calls generalizing s with
  | nil => exact h
  | cons call calls ih =>
      have hlength := length_cbks_step s call
      rw [List.countP_cons] at hcount
      refine ih (hsettled.step call) ?_ (by omega)
      cases call with
      | init path answer => exact h.init path answer
      | shutdown => exact h.shutdown hsettled
      | pub i now => exact h.pub i now
      | cbk c =>
          refine h.cbk c ?_
          simp only [LogCall.isCbk, if_true] at hcount
          omega

/-- **The sessions of a process share the slots.** Over every order of fewer than `2 ^ 64` calls of
`log_cbk` with any others: up to what `log_pub` sets, record `j` of the file that is open is that of
call `j` of all the calls made while a file was open, if this file had been opened by then, and zero
otherwise. A file opened after `kBufN` such calls gets no record at all. What `log_pub` sets is left
out because an index from before a `shutdown` marks a record of the next file. -/
theorem log_sessions_share_slots (calls : List LogCall)
    (hcount : calls.countP LogCall.isCbk < 2 ^ 64) :
    let s := calls.foldl step {}
    0 ≤ s.box.fd →
      (∀ j, unpublished (s.box.base j) = if s.opened ≤ j then content s.cbks [] j else {}) ∧
      (kBufN ≤ s.opened → ∀ j, unpublished (s.box.base j) = {}) := by
  intro s hopen
  have hnumbered : Numbered s :=
    numbered_run calls settled_fresh numbered_fresh (by simpa using hcount)
  refine ⟨hnumbered.records hopen, fun hfull j => ?_⟩
  rw [hnumbered.records hopen j]
  split_ifs with hj
  · exact content_of_ge (.inr (hfull.trans hj))
  · rfl

/-- The first file cannot be extended, the second gets one record, the third another. -/
def threeFiles : List LogCall :=
  [.init "a" ⟨some 3, false, true⟩, .init "a" ⟨some 3, true, true⟩, .cbk ⟨5, 6, 7⟩, .pub 0 8,
    .shutdown, .init "b" ⟨some 4, true, true⟩, .cbk ⟨9, 10, 11⟩]

theorem log_sessions_share_slots_threeFiles :
    unpublished ((threeFiles.foldl step {}).box.base 0) = {} ∧
      (unpublished ((threeFiles.foldl step {}).box.base 1)).seq = 2 := by
  have hrecords := (log_sessions_share_slots threeFiles (by decide) (by decide)).1
  rw [hrecords 0, hrecords 1]
  exact ⟨by decide, by decide⟩

end LogFile

end EconRos2Driver
