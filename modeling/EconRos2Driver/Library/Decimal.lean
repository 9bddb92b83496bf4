import Mathlib.Algebra.Group.Nat.Defs
import Mathlib.Data.List.Nodup
import Mathlib.Tactic.Common

/-!
# Decimals of limited length

A number is written in decimal, with zeros in front up to a width, and cut off after a limit.
Reading the digits back gives the number, zeros or not, so the decimals of all numbers below ten to
the limit are distinct. The next number is the first to be cut, and what is left of it is the
decimal of a tenth of it.
-/

namespace Decimal

variable {width limit n : Nat}

def padded (width n : Nat) : List Char := (Nat.toDigits 10 n).leftpad width '0'

def cut (width limit n : Nat) : List Char := (padded width n).take limit

@[simp]
theorem ofDigitChars_padded (width n : Nat) : Nat.ofDigitChars 10 (padded width n) 0 = n := by
  simp [padded, Nat.ofDigitChars_append]

theorem padded_injective (width : Nat) : Function.Injective (padded width) := by
  intro m n h
  rw [← ofDigitChars_padded width m, h, ofDigitChars_padded]

theorem isDigit_of_mem_padded {c : Char} (h : c ∈ padded width n) : c.isDigit = true := by
  rw [padded, List.leftpad] at h
  rcases List.mem_append.mp h with h | h
  · rw [List.eq_of_mem_replicate h]
    rfl
  · exact Nat.isDigit_of_mem_toDigits (by decide) (by decide) h

theorem padded_of_le (h : width ≤ (Nat.toDigits 10 n).length) :
    padded width n = Nat.toDigits 10 n := by
  rw [padded, List.leftpad, Nat.sub_eq_zero_of_le h]
  rfl

theorem length_padded_le (hwidth : width ≤ limit) (hlimit : 0 < limit) (hn : n < 10 ^ limit) :
    (padded width n).length ≤ limit := by
  have hdigits := (Nat.length_toDigits_le_iff (by decide : 1 < 10) hlimit).mpr hn
  rw [padded, List.length_leftpad]
  exact Nat.max_le.mpr ⟨hwidth, hdigits⟩

/-- Below ten to the limit nothing is cut off, and a decimal tells its number. -/
theorem cut_injective {m : Nat} (hwidth : width ≤ limit) (hlimit : 0 < limit)
    (hm : m < 10 ^ limit) (hn : n < 10 ^ limit) (h : cut width limit m = cut width limit n) :
    m = n := by
  rw [cut, cut, List.take_of_length_le (length_padded_le hwidth hlimit hm),
    List.take_of_length_le (length_padded_le hwidth hlimit hn)] at h
  calc m = Nat.ofDigitChars 10 (padded width m) 0 := (ofDigitChars_padded width m).symm
    _ = Nat.ofDigitChars 10 (padded width n) 0 := by rw [h]
    _ = n := ofDigitChars_padded width n

theorem toDigits_pow (k : Nat) : Nat.toDigits 10 (10 ^ k) = '1' :: List.replicate k '0' := by
  induction k with
  | zero => rfl
  | succ k ih =>
      have hle : 10 ≤ 10 ^ (k + 1) := Nat.le_self_pow (Nat.succ_ne_zero k) 10
      have hdiv : 10 ^ (k + 1) / 10 = 10 ^ k := by
        rw [Nat.pow_succ, Nat.mul_div_cancel _ (by decide)]
      have hmod : 10 ^ (k + 1) % 10 = 0 := by rw [Nat.pow_succ, Nat.mul_mod_left]
      rw [Nat.toDigits_of_base_le (by decide) hle, hdiv, hmod, ih, List.replicate_succ']
      rfl

/-- Ten to the limit loses its last zero. -/
theorem cut_pow {limit : Nat} (hwidth : width ≤ limit + 1) :
    cut width (limit + 1) (10 ^ (limit + 1)) = cut width (limit + 1) (10 ^ limit) := by
  have hlong : width ≤ (Nat.toDigits 10 (10 ^ (limit + 1))).length := by
    rw [toDigits_pow, List.length_cons, List.length_replicate]
    exact Nat.le_succ_of_le hwidth
  have hshort : width ≤ (Nat.toDigits 10 (10 ^ limit)).length := by
    rw [toDigits_pow, List.length_cons, List.length_replicate]
    exact hwidth
  rw [cut, cut, padded_of_le hlong, padded_of_le hshort, toDigits_pow, toDigits_pow]
  simp

/-- **Which decimals are distinct.** The decimals of the numbers from 1 to `n` are pairwise distinct
exactly when `n` is below ten to the limit. -/
theorem nodup_cut_iff (hwidth : width ≤ limit) (hlimit : 0 < limit) :
    ((List.range n).map fun j => cut width limit (j + 1)).Nodup ↔ n < 10 ^ limit := by
  obtain ⟨limit, rfl⟩ : ∃ k, limit = k + 1 := Nat.exists_eq_add_one.mpr hlimit
  rw [List.nodup_map_iff_inj_on List.nodup_range]
  constructor
  · intro hinj
    by_contra hlt
    have hpos : 0 < 10 ^ limit := Nat.pow_pos (by decide)
    have hpow : 10 ^ (limit + 1) = 10 * 10 ^ limit := Nat.pow_succ'
    have heq := hinj (10 ^ limit - 1) (List.mem_range.mpr (by omega)) (10 ^ (limit + 1) - 1)
      (List.mem_range.mpr (by omega)) (by
        rw [Nat.sub_add_cancel hpos, Nat.sub_add_cancel (Nat.pow_pos (by decide))]
        exact (cut_pow hwidth).symm)
    omega
  · intro hlt i hi j hj h
    have hi' := List.mem_range.mp hi
    have hj' := List.mem_range.mp hj
    exact Nat.succ.inj (cut_injective hwidth hlimit (by omega) (by omega) h)

/-! ### Decimals with a separator -/

section

variable {sep c : Char} {fields fields' : List (List Char)}

theorem mem_of_mem_intercalate (h : c ∈ [sep].intercalate fields) :
    c = sep ∨ ∃ field ∈ fields, c ∈ field := by
  induction fields with
  | nil => cases h
  | cons field fields ih =>
      cases fields with
      | nil =>
          rw [List.intercalate_singleton] at h
          exact .inr ⟨field, List.mem_singleton_self field, h⟩
      | cons field' fields =>
          rw [List.intercalate_cons_cons] at h
          rcases List.mem_append.mp h with h | h
          · rcases List.mem_append.mp h with h | h
            · exact .inr ⟨field, List.mem_cons_self, h⟩
            · exact .inl (List.mem_singleton.mp h)
          · exact (ih h).imp_right fun ⟨k, hk, hc⟩ => ⟨k, List.mem_cons_of_mem _ hk, hc⟩

theorem intercalate_injective (hsep : sep.isDigit = false) (hne : fields ≠ []) (hne' : fields' ≠ [])
    (hdigits : ∀ field ∈ fields, ∀ c ∈ field, c.isDigit = true)
    (hdigits' : ∀ field ∈ fields', ∀ c ∈ field, c.isDigit = true)
    (h : [sep].intercalate fields = [sep].intercalate fields') : fields = fields' := by
  have hnot {fields : List (List Char)}
      (hdigits : ∀ field ∈ fields, ∀ c ∈ field, c.isDigit = true) :
      ∀ field ∈ fields, sep ∉ field := by
    intro field hfield hmem
    have hdigit := hdigits field hfield sep hmem
    rw [hsep] at hdigit
    cases hdigit
  have hsplit := congrArg (List.splitOn sep) h
  rwa [List.splitOn_intercalate sep (hnot hdigits) hne,
    List.splitOn_intercalate sep (hnot hdigits') hne'] at hsplit

end

end Decimal
