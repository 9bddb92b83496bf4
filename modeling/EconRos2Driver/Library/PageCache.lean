import Mathlib.Data.List.Basic

/-!
# A file behind a page cache

A process writes to memory that stands for a file. A page it has written to is dirty until the
system copies it to the disk, which may happen at any time; a power loss leaves what is on the disk.
A sync is over when every page that was dirty at its start has been copied since.

The memory is not part of the state: it is whatever the process makes of it. `Current` says where
the disk agrees with it, and the rules say which operation keeps that.
-/

/-- `todo` are the pages that the sync in progress has yet to see copied. -/
structure Disk (α β π : Type*) where
  stored : α → β
  dirty : List π := []
  todo : Option (List π) := none

namespace Disk

variable {α β π : Type*} (page : α → π)

def touch (d : Disk α β π) (pages : List π) : Disk α β π := { d with dirty := pages ++ d.dirty }

def beginSync (d : Disk α β π) : Option (Disk α β π) :=
  match d.todo with
  | none => some { d with todo := some d.dirty }
  | some _ => none

def endSync (d : Disk α β π) : Option (Disk α β π) :=
  match d.todo with
  | some [] => some { d with todo := none }
  | _ => none

def failSync (d : Disk α β π) : Disk α β π := { d with todo := none }

/-- Outside the given pages, and where `A` asks for it, the disk holds what is in memory. -/
def Current (d : Disk α β π) (memory : α → β) (pages : List π) (A : α → Prop) : Prop :=
  ∀ a, A a → page a ∉ pages → d.stored a = memory a

/-- Each page of the disk is as some memory was that `W` allows. -/
def Snapshots (d : Disk α β π) (W : (α → β) → Prop) : Prop :=
  ∀ k, ∃ memory, W memory ∧ ∀ a, page a = k → d.stored a = memory a

variable {page} {d : Disk α β π} {memory memory' : α → β} {pages more : List π} {A B : α → Prop}
  {W W' : (α → β) → Prop}

theorem Current.write (h : d.Current page memory pages A)
    (hsame : ∀ a, A a → page a ∉ pages → memory' a = memory a) :
    d.Current page memory' pages A := by
  intro a ha hpage
  rw [h a ha hpage, hsame a ha hpage]

theorem Current.mono (h : d.Current page memory pages A) (hmore : pages ⊆ more)
    (hB : ∀ a, B a → A a) : d.Current page memory more B :=
  fun a ha hpage => h a (hB a ha) fun hmem => hpage (hmore hmem)

theorem Snapshots.mono (h : d.Snapshots page W) (hW : ∀ memory, W memory → W' memory) :
    d.Snapshots page W' := by
  intro k
  obtain ⟨memory, hmemory, hstored⟩ := h k
  exact ⟨memory, hW memory hmemory, hstored⟩

/-! ### The copy of one page -/

variable [DecidableEq π] (page)

def copyPage (d : Disk α β π) (memory : α → β) (k : π) : Disk α β π where
  stored a := if page a = k then memory a else d.stored a
  dirty := d.dirty.filter (· ≠ k)
  todo := d.todo.map (·.filter (· ≠ k))

variable {page}

theorem Current.copyPage (h : d.Current page memory pages A) (k : π) :
    (d.copyPage page memory k).Current page memory (pages.filter (· ≠ k)) A := by
  intro a ha hpage
  by_cases hk : page a = k
  · exact if_pos hk
  · have hmem : page a ∉ pages := by
      intro hmem
      exact hpage (List.mem_filter.mpr ⟨hmem, by simpa using hk⟩)
    exact (if_neg hk).trans (h a ha hmem)

theorem Snapshots.copyPage (h : d.Snapshots page W) (hmemory : W memory) (k : π) :
    (d.copyPage page memory k).Snapshots page W := by
  intro k'
  by_cases hk : k' = k
  · exact ⟨memory, hmemory, fun a ha => if_pos (ha.trans hk)⟩
  · obtain ⟨old, hold, hstored⟩ := h k'
    refine ⟨old, hold, fun a ha => ?_⟩
    exact (if_neg fun ha' => hk (ha.symm.trans ha')).trans (hstored a ha)

end Disk
