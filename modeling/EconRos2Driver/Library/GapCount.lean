import Mathlib.Order.Nat
import Mathlib.Tactic.Common

/-!
# Counting the gaps of a counter

A consumer that samples a producer's counter once for every item it receives takes the excess of
each difference over one as the number of items it missed. A difference of zero or one adds nothing,
so the total can become too large, but it never falls short. What it is off by is the number of
samples that repeat the one before.
-/

namespace GapCount

/-- `seen` is the last sample, `received` the number of samples, `missed` the running total. -/
structure Gaps where
  seen : Nat := 0
  received : Nat := 0
  missed : Nat := 0

def observe (g : Gaps) (now : Nat) : Gaps :=
  { seen := now
    received := g.received + 1
    missed := g.missed + (now - g.seen - 1) }

/-- The total never falls short: everything counted is received or in the total. -/
def Covers (g : Gaps) : Prop := g.seen ≤ g.received + g.missed

theorem Covers.observe {g : Gaps} (h : Covers g) (now : Nat) : Covers (observe g now) := by
  unfold Covers GapCount.observe at *
  dsimp only
  omega

theorem missed_observe_le {g : Gaps} (h : g.missed ≤ g.seen) {now : Nat} (hle : g.seen ≤ now) :
    (observe g now).missed ≤ now := by
  unfold observe
  dsimp only
  omega

/-- How many samples repeat the one before, beginning after `last`. -/
def repeats {α : Type*} [DecidableEq α] (last : α) : List α → Nat
  | [] => 0
  | a :: rest => (if a = last then 1 else 0) + repeats a rest

theorem repeats_append {α : Type*} [DecidableEq α] (last : α) (past : List α) (a : α) :
    repeats last (past ++ [a]) = repeats last past + if a = past.getLastD last then 1 else 0 := by
  induction past generalizing last with
  | nil => simp [repeats]
  | cons b past ih =>
      rw [List.getLastD_cons, List.cons_append, repeats, repeats, ih b]
      omega

/-- **Repeats of a wrapped counter are rare.** If a counter shows the same sample twice only after
running through at least `M` values, then `M` values have passed for each repeat. -/
theorem repeats_map_mul_le {α : Type*} [DecidableEq α] {f : Nat → α} {M : Nat}
    (hf : ∀ a b, a < b → f b = f a → a + M ≤ b) {a : Nat} {l : List Nat}
    (h : (a :: l).Pairwise (· < ·)) : repeats (f a) (l.map f) * M + a ≤ l.getLastD a := by
  induction l generalizing a with
  | nil => simp [repeats]
  | cons b l ih =>
      obtain ⟨hlt, hrest⟩ := List.pairwise_cons.mp h
      have hb : a < b := hlt b List.mem_cons_self
      have htail := ih hrest
      rw [List.map_cons, repeats]
      by_cases heq : f b = f a
      · have hwrap := hf a b hb heq
        rw [if_pos heq, Nat.add_mul]
        simp only [List.getLastD_cons]
        omega
      · rw [if_neg heq, Nat.zero_add]
        simp only [List.getLastD_cons]
        omega

theorem repeats_eq_zero {α : Type*} [DecidableEq α] {r : α → α → Prop} (hr : ∀ a, ¬ r a a)
    {last : α} {l : List α} (h : (last :: l).Pairwise r) : repeats last l = 0 := by
  induction l generalizing last with
  | nil => rfl
  | cons a l ih =>
      obtain ⟨hlast, hrest⟩ := List.pairwise_cons.mp h
      have hne : a ≠ last := by
        intro heq
        exact hr last (heq ▸ hlast a List.mem_cons_self)
      rw [repeats, if_neg hne, ih hrest]

theorem length_add_le_getLastD {a : Nat} {l : List Nat} (h : (a :: l).Pairwise (· < ·)) :
    l.length + a ≤ l.getLastD a := by
  induction l generalizing a with
  | nil => simp
  | cons b l ih =>
      obtain ⟨hlt, hrest⟩ := List.pairwise_cons.mp h
      have hb : a < b := hlt b List.mem_cons_self
      have htail := ih hrest
      rw [List.getLastD_cons, List.length_cons]
      omega

/-- A growing counter has no gap exactly when it counts its own samples. -/
theorem getLastD_eq_iff {a : Nat} {l : List Nat} (h : (a :: l).Pairwise (· < ·)) :
    l.getLastD a = l.length + a ↔ l = List.range' (a + 1) l.length := by
  induction l generalizing a with
  | nil => simp
  | cons b l ih =>
      obtain ⟨hlt, hrest⟩ := List.pairwise_cons.mp h
      have hb : a < b := hlt b List.mem_cons_self
      have hlength := length_add_le_getLastD hrest
      rw [List.getLastD_cons, List.length_cons, List.range'_succ, List.cons.injEq]
      constructor
      · intro hlast
        have hnext : b = a + 1 := by omega
        refine ⟨hnext, ?_⟩
        rw [hnext] at hlast hrest
        exact (ih hrest).mp (by omega)
      · rintro ⟨rfl, hl⟩
        have hlast := (ih hrest).mpr hl
        omega

end GapCount
