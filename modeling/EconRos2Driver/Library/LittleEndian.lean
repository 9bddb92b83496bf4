import Mathlib.Algebra.Group.Nat.Defs
import Mathlib.Tactic.Common

/-!
# Little endian words

A number is laid out over consecutive positions, its lowest byte first, and read back from any
function of the positions.
-/

namespace LittleEndian

def byte (n position : Nat) : UInt8 := UInt8.ofNat (n / 256 ^ position)

def value (bytes : Nat → UInt8) : Nat → Nat
  | 0 => 0
  | width + 1 => value bytes width + 256 ^ width * (bytes width).toNat

variable {bytes other : Nat → UInt8}

theorem value_congr {width : Nat} (h : ∀ k < width, bytes k = other k) :
    value bytes width = value other width := by
  induction width with
  | zero => rfl
  | succ width ih =>
      rw [value, value, ih fun k hk => h k (Nat.lt_succ_of_lt hk), h width (Nat.lt_succ_self _)]

theorem value_byte (n width : Nat) : value (byte n) width = n % 256 ^ width := by
  induction width with
  | zero => rw [value, Nat.pow_zero, Nat.mod_one]
  | succ width ih =>
      have hbyte : (byte n width).toNat = n / 256 ^ width % 256 := UInt8.toNat_ofNat'
      rw [value, ih, hbyte, Nat.mod_pow_succ]

/-- **Round trip.** -/
theorem ofNat_value_byte (x : UInt64) : UInt64.ofNat (value (byte x.toNat) 8) = x := by
  rw [value_byte, Nat.mod_eq_of_lt (Nat.lt_of_lt_of_eq x.toNat_lt (by decide)), UInt64.ofNat_toNat]

end LittleEndian
