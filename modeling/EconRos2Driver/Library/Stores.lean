import Mathlib.Logic.Function.Basic
import Mathlib.Data.List.Basic
import Mathlib.Data.List.Infix

/-!
# Stores to the cells of a table

A call changes one cell of a table by a few stores. They take effect one after the other, so what
can be seen of the call at any moment is a prefix of its stores.
-/

namespace Stores

variable {ρ : Type*}

def apply (stores : List (ρ → ρ)) (cell : ρ) : ρ := stores.foldl (fun r write => write r) cell

def put (cells : Nat → ρ) (i : Nat) (stores : List (ρ → ρ)) : Nat → ρ :=
  Function.update cells i (apply stores (cells i))

variable (cells : Nat → ρ) (i : Nat)

@[simp]
theorem put_nil : put cells i [] = cells := Function.update_eq_self i cells

@[simp]
theorem put_self (stores : List (ρ → ρ)) : put cells i stores i = apply stores (cells i) :=
  Function.update_self i _ cells

theorem put_of_ne {j : Nat} (h : j ≠ i) (stores : List (ρ → ρ)) : put cells i stores j = cells j :=
  Function.update_of_ne h _ cells

theorem put_append (done rest : List (ρ → ρ)) :
    put cells i (done ++ rest) = put (put cells i done) i rest := by
  funext j
  by_cases hj : j = i
  · rw [hj, put_self, put_self, put_self, apply, apply, apply, List.foldl_append]
  · rw [put_of_ne cells i hj, put_of_ne _ i hj, put_of_ne cells i hj]

/-- A cut leaves one of the prefixes of the stores. -/
theorem mem_inits_of_append {done rest stores : List (ρ → ρ)} (h : done ++ rest = stores) :
    done ∈ stores.inits := (List.mem_inits done stores).mpr ⟨rest, h⟩

end Stores
