import EconRos2Driver.Proof.LogFile
import EconRos2Driver.Session

/-!
# No session overwrites another

The name of a session is a list of decimals with dashes in between, so the name tells them all; it
holds no slash, so a path tells the name. Two runs write to the same file only when they have the
same home, the same local second and the same process number.
-/

namespace EconRos2Driver

open Blackbox

variable {tm tm' : Tm} {pid pid' : Nat}

/-- The decimals in the name of a session. -/
def sessionFields (tm : Tm) (pid : Nat) : List (List Char) := tm.fields ++ [Decimal.padded 1 pid]

theorem isDigit_of_mem_sessionFields :
    ∀ field ∈ sessionFields tm pid, ∀ c ∈ field, c.isDigit = true := by
  intro field hfield c hc
  simp only [sessionFields, Tm.fields, List.cons_append, List.nil_append, List.mem_cons,
    List.not_mem_nil, or_false] at hfield
  rcases hfield with rfl | rfl | rfl | rfl | rfl | rfl | rfl
  all_goals exact Decimal.isDigit_of_mem_padded hc

theorem sessionFields_injective (h : sessionFields tm pid = sessionFields tm' pid') :
    tm = tm' ∧ pid = pid' := by
  simp only [sessionFields, Tm.fields, List.cons_append, List.nil_append, List.cons.injEq,
    (Decimal.padded_injective 1).eq_iff, (Decimal.padded_injective 2).eq_iff,
    Nat.add_right_cancel_iff] at h
  obtain ⟨hyear, hmon, hmday, hhour, hmin, hsec, hpid, -⟩ := h
  cases tm
  cases tm'
  dsimp only at hyear hmon hmday hhour hmin hsec
  subst hyear hmon hmday hhour hmin hsec
  exact ⟨rfl, hpid⟩

def sessionName (tm : Tm) (pid : Nat) : List Char := ['-'].intercalate (sessionFields tm pid)

theorem sessionName_eq (tm : Tm) (pid : Nat) :
    sessionName tm pid = ['-'].intercalate tm.fields ++ '-' :: Decimal.padded 1 pid := by
  simp [sessionName, sessionFields, Tm.fields, List.intercalate, List.intersperse]

theorem sessionName_injective (h : sessionName tm pid = sessionName tm' pid') :
    tm = tm' ∧ pid = pid' :=
  sessionFields_injective (Decimal.intercalate_injective (by decide) (List.cons_ne_nil _ _)
    (List.cons_ne_nil _ _) isDigit_of_mem_sessionFields isDigit_of_mem_sessionFields h)

theorem slash_notMem_sessionName (tm : Tm) (pid : Nat) : '/' ∉ sessionName tm pid := by
  intro hmem
  rcases Decimal.mem_of_mem_intercalate hmem with h | ⟨field, hfield, h⟩
  · exact absurd h (by decide)
  · exact absurd (isDigit_of_mem_sessionFields field hfield '/' h) (by decide)

/-- The time stamp fits up to the year 9999. -/
theorem strftime_eq (h : tm.tmYear + 1900 < 10000) :
    strftime sizeofTs tm = some (['-'].intercalate tm.fields) := by
  have hyear : (Decimal.padded 1 (tm.tmYear + 1900)).length ≤ 4 :=
    Decimal.length_padded_le (by decide) (by decide) h
  have htwo {n : Nat} (hn : n < 100) : (Decimal.padded 2 n).length ≤ 2 :=
    Decimal.length_padded_le (by decide) (by decide) hn
  obtain ⟨hmon, hmday, hhour, hmin, hsec⟩ := tm.normal
  have hmon' := htwo (n := tm.tmMon + 1) (by omega)
  have hmday' := htwo (n := tm.tmMday) (by omega)
  have hhour' := htwo (n := tm.tmHour) (by omega)
  have hmin' := htwo (n := tm.tmMin) (by omega)
  have hsec' := htwo (n := tm.tmSec) (by omega)
  refine if_pos ?_
  simp only [Tm.fields, List.intercalate, List.intersperse, List.flatten_cons, List.flatten_nil,
    List.length_append, List.length_singleton, List.length_nil, sizeofTs]
  omega

theorem append_slash_injective {dir dir' name name' : List Char} (hname : '/' ∉ name)
    (hname' : '/' ∉ name') (h : dir ++ '/' :: name = dir' ++ '/' :: name') :
    dir = dir' ∧ name = name' := by
  have hlast := congrArg findLastSlash h
  rw [findLastSlash_append dir hname, findLastSlash_append dir' hname'] at hlast
  obtain ⟨hdir, hrest⟩ := List.append_inj h (Option.some.inj hlast)
  exact ⟨hdir, (List.cons.inj hrest).2⟩

namespace DriverRun

variable {r r' : DriverRun}

theorem path_eq (h : r.tm.tmYear + 1900 < 10000) :
    r.path = some (logRoot r.home ++ '/' :: sessionName r.tm r.pid
      ++ "/econ_ros2_driver_pub.bin".toList) := by
  rw [path, sessionDir, strftime_eq h, sessionName_eq]
  rfl

/-- The same home directory, the same local time to the second and the same process number. -/
def SameSession (r r' : DriverRun) : Prop :=
  homeDir r.home = homeDir r'.home ∧ r.tm = r'.tm ∧ r.pid = r'.pid

theorem path_eq_iff (h : r.tm.tmYear + 1900 < 10000) (h' : r'.tm.tmYear + 1900 < 10000) :
    r.path = r'.path ↔ SameSession r r' := by
  rw [path_eq h, path_eq h', Option.some_inj, List.append_cancel_right_eq]
  constructor
  · intro heq
    obtain ⟨hroot, hname⟩ := append_slash_injective (slash_notMem_sessionName _ _)
      (slash_notMem_sessionName _ _) heq
    rw [logRoot, logRoot, String.toList_append, String.toList_append,
      List.append_cancel_right_eq, String.toList_inj] at hroot
    exact ⟨hroot, sessionName_injective hname⟩
  · rintro ⟨hhome, htm, hpid⟩
    rw [logRoot, logRoot, hhome, htm, hpid]

theorem leave_of_path {path : List Char} {image : Nat → ImagePubRecord} (files : Files)
    (hpath : r.path = some path) (hleft : r.left = some image) :
    leave files r = Function.update files path (some image) := by
  rw [leave, hpath, hleft]

theorem leave_apply_of_ne {path : List Char} (files : Files)
    (h : r.path = some path → r.left = none) : leave files r path = files path := by
  cases hpath : r.path with
  | none => rw [leave, hpath]
  | some path' =>
      cases hleft : r.left with
      | none => rw [leave, hpath, hleft]
      | some image =>
          rw [leave_of_path files hpath hleft]
          refine Function.update_of_ne ?_ _ _
          rintro rfl
          rw [h hpath] at hleft
          cases hleft

theorem foldl_leave_apply {path : List Char} (runs : List DriverRun) (files : Files)
    (h : ∀ r ∈ runs, r.path = some path → r.left = none) :
    (runs.foldl leave files) path = files path := by
  induction runs generalizing files with
  | nil => rfl
  | cons r runs ih =>
      rw [List.foldl_cons, ih _ fun r' hr' => h r' (List.mem_cons_of_mem _ hr'),
        leave_apply_of_ne files (h r List.mem_cons_self)]

/-- **Every session is preserved.** Over every sequence of runs up to the year 9999: two runs write
to the same file exactly when they have the same home, the same local second and the same process
number, and what a run has left is still there after all of them, unless a later run of that kind
has opened the file again. -/
theorem sessions_preserved (files : Files) (runs : List DriverRun)
    (hyears : ∀ r ∈ runs, r.tm.tmYear + 1900 < 10000) :
    (∀ r ∈ runs, ∀ r' ∈ runs, r.path = r'.path ↔ SameSession r r') ∧
      ∀ before r after image, runs = before ++ r :: after → r.left = some image →
        (∀ r' ∈ after, SameSession r r' → r'.left = none) →
        ∃ path, r.path = some path ∧ (runs.foldl leave files) path = some image := by
  refine ⟨fun r hr r' hr' => path_eq_iff (hyears r hr) (hyears r' hr'), ?_⟩
  rintro before r after image rfl hleft hlater
  have hyear := hyears r (List.mem_append_right _ List.mem_cons_self)
  refine ⟨_, path_eq hyear, ?_⟩
  rw [List.foldl_append, List.foldl_cons, foldl_leave_apply, leave_of_path _ (path_eq hyear) hleft,
    Function.update_self]
  intro r' hr' hpath
  have hyear' := hyears r' (List.mem_append_right _ (List.mem_cons_of_mem _ hr'))
  exact hlater r' hr' ((path_eq_iff hyear hyear').mp ((path_eq hyear).trans hpath.symm))

end DriverRun

/-- Two runs of one second that differ in the process number. -/
def twoRuns : List DriverRun :=
  let tm : Tm := ⟨125, 9, 3, 14, 5, 59, by decide⟩
  [⟨none, tm, 811, some fun _ => { seq := 1 }⟩, ⟨some "/tmp", tm, 812, some fun _ => {}⟩]

theorem sessions_preserved_twoRuns : ∃ path,
    (twoRuns.head (by decide)).path = some path ∧
      ((twoRuns.foldl DriverRun.leave fun _ => none) path).map (fun image => (image 0).seq)
        = some 1 := by
  obtain ⟨-, hkept⟩ := DriverRun.sessions_preserved (fun _ => none) twoRuns (by decide)
  obtain ⟨path, hpath, himage⟩ := hkept [] (twoRuns.head (by decide)) twoRuns.tail _ rfl rfl (by
    intro r' hr' hsame
    obtain rfl := List.mem_singleton.mp hr'
    exact absurd hsame.2.2 (by decide))
  exact ⟨path, hpath, by rw [himage]; rfl⟩

example : (twoRuns.head (by decide)).path.map String.ofList
    = some "/tmp/.blackbox/log/2025-10-03-14-05-59-811/econ_ros2_driver_pub.bin" := by decide

end EconRos2Driver
