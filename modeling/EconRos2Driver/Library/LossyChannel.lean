import EconRos2Driver.Library.Runs
import Mathlib.Data.Finset.Card
import Mathlib.Data.Finset.Range
import Mathlib.Data.List.Perm.Basic

/-!
# A lossy channel that keeps its order

Items are numbered as they enter. An item in flight is either delivered, and then it is the oldest
one, or lost, and then it may be any. Whatever sits between a producer and a consumer without
reordering (a pipeline, a queue that overwrites, a consumer that throws some items away) is this
channel.

Everything the channel promises follows from `Ordered`: delivered and in-flight numbers together
increase strictly, and every number that entered is delivered, in flight or lost, and only one of
the three.
-/

namespace LossyChannel

open scoped List

/-- The numbers `0, .., entered - 1` have entered; `inflight` lists the oldest first. -/
structure Channel where
  entered : Nat := 0
  inflight : List Nat := []
  delivered : List Nat := []
  lost : List Nat := []

inductive Event where
  | enter
  | lose (position : Nat)
  | deliver

def step (c : Channel) : Event → Option Channel
  | .enter => some { c with entered := c.entered + 1, inflight := c.inflight ++ [c.entered] }
  | .lose position => c.inflight[position]?.map fun k =>
      { c with inflight := c.inflight.eraseIdx position, lost := c.lost ++ [k] }
  | .deliver => match c.inflight with
      | [] => none
      | k :: rest => some { c with inflight := rest, delivered := c.delivered ++ [k] }

structure Ordered (c : Channel) : Prop where
  sorted : (c.delivered ++ c.inflight).Pairwise (· < ·)
  conserved : (c.delivered ++ c.inflight ++ c.lost).Perm (List.range c.entered)

theorem ordered_empty : Ordered {} := ⟨by simp, by simp⟩

theorem Ordered.length_eq {c : Channel} (h : Ordered c) :
    c.delivered.length + c.inflight.length + c.lost.length = c.entered := by
  simpa [Nat.add_assoc] using h.conserved.length_eq

theorem Ordered.bounded {c : Channel} (h : Ordered c) :
    ∀ k ∈ c.delivered ++ c.inflight, k < c.entered := fun _ hk =>
  List.mem_range.mp (h.conserved.subset (List.mem_append_left _ hk))

theorem Ordered.enter {c d : Channel} (h : Ordered c) (hd : step c .enter = some d) :
    Ordered d := by
  obtain rfl := Option.some.inj hd
  refine ⟨?_, ?_⟩
  · simp only [← List.append_assoc]
    refine List.pairwise_append.mpr ⟨h.sorted, List.pairwise_singleton _ _, ?_⟩
    intro k hk j hj
    rw [List.mem_singleton.mp hj]
    exact h.bounded k hk
  · simp only [← List.append_assoc]
    rw [List.range_succ]
    refine List.Perm.trans ?_ (h.conserved.append_right [c.entered])
    simp only [List.append_assoc]
    exact ((List.perm_append_comm).append_left _).append_left _

theorem Ordered.lose {c d : Channel} {position : Nat} (h : Ordered c)
    (hd : step c (.lose position) = some d) : Ordered d := by
  obtain ⟨k, hk, rfl⟩ := Option.map_eq_some_iff.mp hd
  have hsub : (c.delivered ++ c.inflight.eraseIdx position).Sublist (c.delivered ++ c.inflight) :=
    (List.Sublist.refl _).append (List.eraseIdx_sublist _ _)
  obtain ⟨hlt, rfl⟩ := List.getElem?_eq_some_iff.mp hk
  refine ⟨h.sorted.sublist hsub, List.Perm.trans ?_ h.conserved⟩
  have hinflight := List.getElem_cons_eraseIdx_perm hlt
  simp only [List.append_assoc]
  apply List.Perm.append_left _
  calc c.inflight.eraseIdx position ++ (c.lost ++ [c.inflight[position]])
      = (c.inflight.eraseIdx position ++ c.lost) ++ [c.inflight[position]] := by simp
    _ ~ [c.inflight[position]] ++ (c.inflight.eraseIdx position ++ c.lost) := List.perm_append_comm
    _ ~ c.inflight ++ c.lost := hinflight.append_right _

theorem Ordered.deliver {c d : Channel} (h : Ordered c) (hd : step c .deliver = some d) :
    Ordered d := by
  rcases hin : c.inflight with _ | ⟨k, rest⟩
  · simp [step, hin] at hd
  · obtain rfl : _ = d := Option.some.inj (by simpa only [step, hin] using hd)
    have hlist : (c.delivered ++ [k]) ++ rest = c.delivered ++ c.inflight := by simp [hin]
    exact ⟨by simpa only [hlist] using h.sorted, by simpa only [hlist] using h.conserved⟩

theorem Ordered.step {c d : Channel} {e : Event} (h : Ordered c) (hd : step c e = some d) :
    Ordered d := by
  cases e with
  | enter => exact h.enter hd
  | lose position => exact h.lose hd
  | deliver => exact h.deliver hd

def missedBefore (c : Channel) (k : Nat) : Nat :=
  ((Finset.range k).filter (· ∉ c.delivered)).card

section LastDelivered

variable {c : Channel} {ds : List Nat} {k : Nat}

theorem Ordered.delivered_lt (h : Ordered c) (hk : c.delivered = ds ++ [k]) : ∀ j ∈ ds, j < k := by
  have hsorted := (List.pairwise_append.mp h.sorted).1
  rw [hk] at hsorted
  exact fun j hj => (List.pairwise_append.mp hsorted).2.2 j hj k (List.mem_singleton_self k)

theorem Ordered.last_lt (h : Ordered c) (hk : c.delivered = ds ++ [k]) : k < c.entered :=
  h.bounded k (by simp [hk])

theorem Ordered.missedBefore_add (h : Ordered c) (hk : c.delivered = ds ++ [k]) :
    missedBefore c k + c.delivered.length = k + 1 := by
  have hsorted := (List.pairwise_append.mp h.sorted).1
  have hnodup : c.delivered.Nodup := hsorted.imp fun h => Nat.ne_of_lt h
  have hsub : c.delivered.toFinset ⊆ Finset.range (k + 1) := by
    intro j hj
    have hj := List.mem_toFinset.mp hj
    rw [hk, List.mem_append, List.mem_singleton] at hj
    rcases hj with hj | rfl
    · exact Finset.mem_range.mpr (Nat.lt_succ_of_lt (h.delivered_lt hk j hj))
    · exact Finset.self_mem_range_succ _
  have hmissed : (Finset.range k).filter (· ∉ c.delivered)
      = Finset.range (k + 1) \ c.delivered.toFinset := by
    ext j
    simp only [Finset.mem_filter, Finset.mem_range, Finset.mem_sdiff, List.mem_toFinset]
    constructor
    · exact fun ⟨hj, hmem⟩ => ⟨Nat.lt_succ_of_lt hj, hmem⟩
    · rintro ⟨hj, hmem⟩
      have hne : j ≠ k := fun heq => hmem (by simp [hk, heq])
      exact ⟨by omega, hmem⟩
  have hcard := Finset.card_le_card hsub
  rw [List.toFinset_card_of_nodup hnodup, Finset.card_range] at hcard
  rw [missedBefore, hmissed, Finset.card_sdiff_of_subset hsub, List.toFinset_card_of_nodup hnodup,
    Finset.card_range]
  omega

end LastDelivered

/-- Of the items that entered before `seen`, all but the first `n` delivered ones are lost; every
other delivered item and every item in flight entered later. -/
structure Since (c : Channel) (n seen : Nat) : Prop where
  le_delivered : n ≤ c.delivered.length
  le_entered : seen ≤ c.entered
  le_lost : seen ≤ n + c.lost.length
  fresh : ∀ j ∈ c.delivered.drop n ++ c.inflight, seen ≤ j

theorem Ordered.since {c : Channel} (h : Ordered c) (hidle : c.inflight = []) :
    Since c c.delivered.length c.entered where
  le_delivered := le_rfl
  le_entered := le_rfl
  le_lost := by
    have := h.length_eq
    simp only [hidle, List.length_nil] at this
    omega
  fresh := by
    intro j hj
    simp [hidle] at hj

theorem Since.step {c d : Channel} {n seen : Nat} {e : Event} (h : Since c n seen)
    (hd : step c e = some d) : Since d n seen := by
  cases e with
  | enter =>
      obtain rfl := Option.some.inj hd
      refine ⟨h.le_delivered, Nat.le_succ_of_le h.le_entered, h.le_lost, ?_⟩
      intro j hj
      simp only [← List.append_assoc, List.mem_append, List.mem_singleton] at hj
      rcases hj with hj | rfl
      · exact h.fresh j (List.mem_append.mpr hj)
      · exact h.le_entered
  | lose position =>
      obtain ⟨k, hk, rfl⟩ := Option.map_eq_some_iff.mp hd
      refine ⟨h.le_delivered, h.le_entered, ?_, ?_⟩
      · have := h.le_lost
        simp only [List.length_append, List.length_singleton]
        omega
      · intro j hj
        apply h.fresh j
        rcases List.mem_append.mp hj with hj | hj
        · exact List.mem_append_left _ hj
        · exact List.mem_append_right _ ((List.eraseIdx_sublist _ _).subset hj)
  | deliver =>
      rcases hin : c.inflight with _ | ⟨k, rest⟩
      · simp [LossyChannel.step, hin] at hd
      · obtain rfl : _ = d := Option.some.inj (by simpa only [LossyChannel.step, hin] using hd)
        refine ⟨?_, h.le_entered, h.le_lost, ?_⟩
        · exact h.le_delivered.trans (by simp)
        · intro j hj
          apply h.fresh j
          rw [List.drop_append_of_le_length h.le_delivered] at hj
          simpa [hin] using hj

structure Grows (c d : Channel) : Prop where
  entered : c.entered ≤ d.entered
  delivered : c.delivered <+: d.delivered
  lost : c.lost <+: d.lost

theorem Grows.refl (c : Channel) : Grows c c := ⟨le_rfl, List.prefix_refl _, List.prefix_refl _⟩

theorem Grows.trans {c d e : Channel} (h : Grows c d) (h' : Grows d e) : Grows c e :=
  ⟨h.entered.trans h'.entered, h.delivered.trans h'.delivered, h.lost.trans h'.lost⟩

theorem Grows.of_step {c d : Channel} {e : Event} (hd : step c e = some d) : Grows c d := by
  cases e with
  | enter =>
      obtain rfl := Option.some.inj hd
      exact ⟨Nat.le_succ _, List.prefix_refl _, List.prefix_refl _⟩
  | lose position =>
      obtain ⟨k, -, rfl⟩ := Option.map_eq_some_iff.mp hd
      exact ⟨le_rfl, List.prefix_refl _, List.prefix_append _ _⟩
  | deliver =>
      rcases hin : c.inflight with _ | ⟨k, rest⟩
      · simp [step, hin] at hd
      · obtain rfl : _ = d := Option.some.inj (by simpa only [step, hin] using hd)
        exact ⟨le_rfl, List.prefix_append _ _, List.prefix_refl _⟩

/-! ### Along a run -/

section Run

variable {c d : Channel}

theorem Ordered.run (h : Ordered c) (hrun : Runs.Reachable LossyChannel.step c d) : Ordered d :=
  hrun.invariant (I := Ordered) (fun _ _ _ hc hd => hc.step hd) h

theorem Since.run {n seen : Nat} (h : Since c n seen)
    (hrun : Runs.Reachable LossyChannel.step c d) : Since d n seen :=
  hrun.invariant (I := fun x => Since x n seen) (fun _ _ _ hc hd => hc.step hd) h

theorem Grows.run (hrun : Runs.Reachable step c d) : Grows c d :=
  hrun.invariant (I := Grows c) (fun _ _ _ hc hd => hc.trans (.of_step hd)) (.refl c)

/-- **A lost item is never delivered**, now or later. -/
theorem Ordered.not_delivered_of_lost (h : Ordered c) (hrun : Runs.Reachable LossyChannel.step c d)
    {k : Nat} (hk : k ∈ c.lost) : k ∉ d.delivered := by
  intro hdelivered
  have hnodup : (d.delivered ++ d.inflight ++ d.lost).Nodup :=
    (h.run hrun).conserved.nodup_iff.mpr List.nodup_range
  have hlost : k ∈ d.lost := (Grows.run hrun).lost.subset hk
  exact List.disjoint_of_nodup_append hnodup (List.mem_append_left _ hdelivered) hlost

end Run

end LossyChannel
