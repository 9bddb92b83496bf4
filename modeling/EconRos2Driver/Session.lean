import EconRos2Driver.Blackbox
import EconRos2Driver.Library.Decimal
import Mathlib.Logic.Function.Basic

/-!
# The directory of a session

`log_root` and `session_dir` of `blackbox.hpp`: each run of the node logs to a file in a directory
named after its local time and its process. Paths are lists of characters.

`Files` is what the logs hold, path by path. A run opens its file with `O_TRUNC`, so whatever was
there is gone, and leaves its own table behind; `left` is `none` where the file could not be opened.
-/

namespace EconRos2Driver

open Blackbox

/-- The fields of `std::tm` that are printed, as `localtime_r` fills them in. -/
structure Tm where
  tmYear : Nat
  tmMon : Nat
  tmMday : Nat
  tmHour : Nat
  tmMin : Nat
  tmSec : Nat
  normal : tmMon < 12 ∧ tmMday ≤ 31 ∧ tmHour < 24 ∧ tmMin < 60 ∧ tmSec ≤ 60

/-- What `%Y`, `%m`, `%d`, `%H`, `%M` and `%S` stand for. -/
def Tm.fields (tm : Tm) : List (List Char) :=
  [Decimal.padded 1 (tm.tmYear + 1900), Decimal.padded 2 (tm.tmMon + 1),
    Decimal.padded 2 tm.tmMday, Decimal.padded 2 tm.tmHour, Decimal.padded 2 tm.tmMin,
    Decimal.padded 2 tm.tmSec]

/-- `strftime` with `"%Y-%m-%d-%H-%M-%S"` into a buffer of `size` bytes, the last of which is for
the NUL. A text that does not fit leaves the buffer undefined. -/
def strftime (size : Nat) (tm : Tm) : Option (List Char) :=
  let text := ['-'].intercalate tm.fields
  if text.length < size then some text else none

def homeDir (home : Option String) : String :=
  match home with
  | some home => if home = "" then "/tmp" else home
  | none => "/tmp"

def logRoot (home : Option String) : List Char := (homeDir home ++ "/.blackbox/log").toList

def sizeofTs : Nat := 20

def sessionDir (home : Option String) (tm : Tm) (pid : Nat) : Option (List Char) :=
  (strftime sizeofTs tm).map fun ts =>
    logRoot home ++ '/' :: (ts ++ '-' :: Decimal.padded 1 pid)

structure DriverRun where
  home : Option String
  tm : Tm
  pid : Nat
  left : Option (Nat → ImagePubRecord)

abbrev Files : Type := List Char → Option (Nat → ImagePubRecord)

namespace DriverRun

def path (r : DriverRun) : Option (List Char) :=
  (sessionDir r.home r.tm r.pid).map (· ++ "/econ_ros2_driver_pub.bin".toList)

def leave (files : Files) (r : DriverRun) : Files :=
  match r.path, r.left with
  | some path, some image => Function.update files path (some image)
  | _, _ => files

end DriverRun

end EconRos2Driver
