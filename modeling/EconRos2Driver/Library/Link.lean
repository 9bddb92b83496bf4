import EconRos2Driver.Library.Runs
import Mathlib.Data.List.Basic

/-!
# A best effort link

A sender puts items on the link in order. An item on its way may be lost at any place, and what is
not lost arrives in the order it was sent: a queue of any depth that throws its oldest items away is
such a link, and so is a network below it.
-/

structure Link (α : Type*) where
  inflight : List α := []
  delivered : List α := []

namespace Link

variable {α : Type*}

def send (l : Link α) (items : List α) : Link α := { l with inflight := l.inflight ++ items }

def lose (l : Link α) (position : Nat) : Link α :=
  { l with inflight := l.inflight.eraseIdx position }

def deliver (l : Link α) : Option (α × Link α) :=
  match l.inflight with
  | [] => none
  | item :: rest => some (item, { inflight := rest, delivered := l.delivered ++ [item] })

/-- What has arrived or may still arrive is some of what was sent, in the order it was sent. -/
def Keeps (l : Link α) (sent : List α) : Prop := (l.delivered ++ l.inflight).Sublist sent

variable {l : Link α} {sent : List α}

theorem keeps_empty : Keeps ({} : Link α) sent := List.nil_sublist sent

theorem Keeps.send (h : l.Keeps sent) (items : List α) : (l.send items).Keeps (sent ++ items) := by
  show (l.delivered ++ (l.inflight ++ items)).Sublist (sent ++ items)
  rw [← List.append_assoc]
  exact h.append (List.Sublist.refl items)

theorem Keeps.unsent (h : l.Keeps sent) (items : List α) : l.Keeps (sent ++ items) :=
  h.trans (List.sublist_append_left sent items)

theorem Keeps.lose (h : l.Keeps sent) (position : Nat) : (l.lose position).Keeps sent :=
  ((List.Sublist.refl l.delivered).append (List.eraseIdx_sublist _ _)).trans h

theorem Keeps.deliver (h : l.Keeps sent) {item : α} {l' : Link α}
    (hdeliver : l.deliver = some (item, l')) :
    l'.Keeps sent ∧ l'.delivered = l.delivered ++ [item] := by
  unfold Link.deliver at hdeliver
  split at hdeliver
  · cases hdeliver
  · next rest hinflight =>
      cases hdeliver
      refine ⟨?_, rfl⟩
      show (l.delivered ++ [item] ++ rest).Sublist sent
      rw [List.append_assoc, List.singleton_append, ← hinflight]
      exact h

theorem Keeps.delivered (h : l.Keeps sent) : l.delivered.Sublist sent :=
  (List.sublist_append_left l.delivered l.inflight).trans h

end Link
