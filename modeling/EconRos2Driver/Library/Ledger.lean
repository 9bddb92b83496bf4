import EconRos2Driver.Library.Runs
import Mathlib.Data.List.Basic

/-!
# Ledgers of what is taken and given back

A ledger lists acquisitions and releases in the order they were made. Reading it from the front, one
may only give back what is outstanding: a second release, or a release of something never taken, has
no successor. A ledger that can be read to the end and leaves nothing outstanding is one in which
everything taken was given back afterwards, exactly once, and nothing else was.
-/

namespace Ledger

variable {ρ : Type*}

inductive Entry (ρ : Type*) where
  | take (r : ρ)
  | give (r : ρ)
  deriving DecidableEq, Repr

variable [DecidableEq ρ]

def step (held : List ρ) : Entry ρ → Option (List ρ)
  | .take r => some (r :: held)
  | .give r => if r ∈ held then some (held.erase r) else none

def outstanding (entries : List (Entry ρ)) : Option (List ρ) := Runs.run step [] entries

def taken (entries : List (Entry ρ)) : List ρ :=
  entries.filterMap fun
    | .take r => some r
    | .give _ => none

def given (entries : List (Entry ρ)) : List ρ :=
  entries.filterMap fun
    | .take _ => none
    | .give r => some r

theorem outstanding_append {entries : List (Entry ρ)} {held : List ρ}
    (h : outstanding entries = some held) (more : List (Entry ρ)) :
    outstanding (entries ++ more) = Runs.run step held more := Runs.run_append h more

/-- What the entries leave outstanding, in whatever order. -/
def Leaves (entries : List (Entry ρ)) (rs : List ρ) : Prop :=
  ∃ held, outstanding entries = some held ∧ held.Perm rs

theorem leaves_nil : Leaves ([] : List (Entry ρ)) [] := ⟨[], rfl, .nil⟩

theorem run_takes (held rs : List ρ) : Runs.run step held (rs.map .take) = some (rs.reverse ++ held)
    := by
  induction rs generalizing held with
  | nil => rfl
  | cons r rs ih =>
      rw [List.map_cons, Runs.run_cons rfl, ih, List.reverse_cons, List.append_assoc]
      rfl

theorem run_gives {held rs rest : List ρ} (h : held.Perm (rs ++ rest)) :
    ∃ held', Runs.run step held (rs.map .give) = some held' ∧ held'.Perm rest := by
  induction rs generalizing held with
  | nil => exact ⟨held, rfl, h⟩
  | cons r rs ih =>
      have hmem : r ∈ held := h.symm.subset List.mem_cons_self
      have herase : (held.erase r).Perm (rs ++ rest) := by
        have hcons := h.erase r
        rwa [List.cons_append, List.erase_cons_head] at hcons
      obtain ⟨held', hrun, hperm⟩ := ih herase
      refine ⟨held', ?_, hperm⟩
      rw [List.map_cons, Runs.run_cons (if_pos hmem), hrun]

theorem Leaves.take {entries : List (Entry ρ)} {rest : List ρ} (h : Leaves entries rest)
    (rs : List ρ) : Leaves (entries ++ rs.map .take) (rs ++ rest) := by
  obtain ⟨held, hrun, hperm⟩ := h
  refine ⟨rs.reverse ++ held, ?_, rs.reverse_perm.append hperm⟩
  rw [outstanding_append hrun, run_takes]

theorem Leaves.give {entries : List (Entry ρ)} {rs rest : List ρ}
    (h : Leaves entries (rs ++ rest)) : Leaves (entries ++ rs.map .give) rest := by
  obtain ⟨held, hrun, hperm⟩ := h
  obtain ⟨held', hgives, hperm'⟩ := run_gives hperm
  exact ⟨held', (outstanding_append hrun _).trans hgives, hperm'⟩

theorem Leaves.perm {entries : List (Entry ρ)} {rs rs' : List ρ} (h : Leaves entries rs)
    (hperm : rs.Perm rs') : Leaves entries rs' := by
  obtain ⟨held, hrun, hheld⟩ := h
  exact ⟨held, hrun, hheld.trans hperm⟩

theorem Leaves.outstanding_iff {entries : List (Entry ρ)} {rs : List ρ} (h : Leaves entries rs) :
    outstanding entries = some [] ↔ rs = [] := by
  obtain ⟨held, hrun, hperm⟩ := h
  rw [hrun, Option.some.injEq]
  constructor
  · rintro rfl
    exact hperm.nil_eq.symm
  · rintro rfl
    exact hperm.eq_nil

/-- **What is taken is given back or outstanding.** -/
theorem conserved_of_run {entries : List (Entry ρ)} {held held' : List ρ}
    (h : Runs.run step held entries = some held') :
    (taken entries ++ held).Perm (given entries ++ held') := by
  induction entries generalizing held with
  | nil =>
      cases h
      exact List.Perm.refl _
  | cons e entries ih =>
      obtain ⟨next, hstep, hrest⟩ := Runs.run_cons_eq_some_iff.mp h
      have htail := ih hrest
      cases e with
      | take r =>
          obtain rfl := Option.some.inj hstep
          exact List.perm_middle.symm.trans htail
      | give r =>
          simp only [step] at hstep
          split_ifs at hstep with hmem
          obtain rfl := Option.some.inj hstep
          have herase : (taken entries ++ held).Perm (r :: (taken entries ++ held.erase r)) :=
            ((List.perm_cons_erase hmem).append_left _).trans List.perm_middle
          exact herase.trans (htail.cons r)

theorem conserved {entries : List (Entry ρ)} (h : outstanding entries = some []) :
    (taken entries).Perm (given entries) := by
  simpa using conserved_of_run h

end Ledger
