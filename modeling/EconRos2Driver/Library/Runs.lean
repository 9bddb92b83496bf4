import Mathlib.Data.List.Basic

/-!
# Runs of a partial step function

A system is a function `step : σ → ε → Option σ`: the state one event leads to, and `none` where the
event cannot happen. A run is a list of events that can all happen in their turn, so quantifying
over lists of events is quantifying over the interleavings of whoever takes the steps.

`EachStep C` says that every step of a run satisfies `C`, which sees the state before the step and
the event. The rules below turn a fact about one step into a fact about runs.
-/

namespace Runs

variable {σ ε : Type*} (step : σ → ε → Option σ)

def run : σ → List ε → Option σ
  | s, [] => some s
  | s, e :: es => (step s e).bind fun t => run t es

def Reachable (s t : σ) : Prop := ∃ es, run step s es = some t

def EachStep (C : σ → ε → Prop) : σ → List ε → Prop
  | _, [] => True
  | s, e :: es => C s e ∧ ∀ t, step s e = some t → EachStep C t es

/-- What the steps of a run put out, in order. -/
def outputs {α : Type*} (out : σ → ε → List α) : σ → List ε → List α
  | _, [] => []
  | s, e :: es => match step s e with
      | none => out s e
      | some t => out s e ++ outputs out t es

variable {step}

theorem eachStep_cons_iff {C : σ → ε → Prop} {s t : σ} {e : ε} (h : step s e = some t)
    (es : List ε) : EachStep step C s (e :: es) ↔ C s e ∧ EachStep step C t es := by
  simp [EachStep, h]

instance decidableEachStep (C : σ → ε → Prop) [∀ s e, Decidable (C s e)] :
    ∀ s es, Decidable (EachStep step C s es)
  | _, [] => isTrue trivial
  | s, e :: es => match hstep : step s e with
      | none => decidable_of_iff (C s e) (by simp [EachStep, hstep])
      | some t =>
          have := decidableEachStep C t es
          decidable_of_iff _ (eachStep_cons_iff hstep es).symm

theorem eachStep_of_forall {D : ε → Prop} (s : σ) {es : List ε} (h : ∀ e ∈ es, D e) :
    EachStep step (fun _ e => D e) s es := by
  induction es generalizing s with
  | nil => trivial
  | cons e es ih =>
      exact ⟨h e List.mem_cons_self, fun t _ => ih t fun d hd => h d (List.mem_cons_of_mem _ hd)⟩

@[simp]
theorem run_nil (s : σ) : run step s [] = some s := rfl

theorem run_cons {s t : σ} {e : ε} (h : step s e = some t) (es : List ε) :
    run step s (e :: es) = run step t es := by
  simp [run, h]

theorem run_cons_eq_some_iff {s u : σ} {e : ε} {es : List ε} :
    run step s (e :: es) = some u ↔ ∃ t, step s e = some t ∧ run step t es = some u := by
  simp [run, Option.bind_eq_some_iff]

theorem run_append {s t : σ} {es : List ε} (h : run step s es = some t) (fs : List ε) :
    run step s (es ++ fs) = run step t fs := by
  induction es generalizing s with
  | nil =>
      cases h
      rfl
  | cons e es ih =>
      obtain ⟨u, hstep, hrest⟩ := run_cons_eq_some_iff.mp h
      rw [List.cons_append, run_cons hstep, ih hrest]

theorem Reachable.refl (s : σ) : Reachable step s s := ⟨[], rfl⟩

theorem Reachable.of_step {s t : σ} {e : ε} (h : step s e = some t) : Reachable step s t :=
  ⟨[e], by simp [run, h]⟩

theorem Reachable.trans {s t u : σ} (hst : Reachable step s t) (htu : Reachable step t u) :
    Reachable step s u := by
  obtain ⟨es, hes⟩ := hst
  obtain ⟨fs, hfs⟩ := htu
  exact ⟨es ++ fs, by rw [run_append hes, hfs]⟩

/-- **The invariant rule under a condition.** What holds at the start and is kept by every step
that satisfies the condition holds at the end of every run all of whose steps satisfy it. -/
theorem invariant_of_eachStep {I : σ → Prop} {C : σ → ε → Prop}
    (hstep : ∀ s e t, I s → C s e → step s e = some t → I t) {s t : σ} {es : List ε}
    (hs : I s) (hC : EachStep step C s es) (h : run step s es = some t) : I t := by
  induction es generalizing s with
  | nil =>
      cases h
      exact hs
  | cons e es ih =>
      obtain ⟨u, hu, hrest⟩ := run_cons_eq_some_iff.mp h
      exact ih (hstep s e u hs hC.1 hu) (hC.2 u hu) hrest

/-- **The invariant rule.** What holds at the start and is kept by every step holds in every
reachable state. -/
theorem Reachable.invariant {I : σ → Prop} (hstep : ∀ s e t, I s → step s e = some t → I t)
    {s t : σ} (hs : I s) (h : Reachable step s t) : I t := by
  obtain ⟨es, hes⟩ := h
  exact invariant_of_eachStep (C := fun _ _ => True) (fun s e t hI _ => hstep s e t hI) hs
    (eachStep_of_forall (D := fun _ => True) s fun _ _ => trivial) hes

/-- **The invariant rule with a history.** The invariant sees what the steps so far have put out. -/
theorem invariant_of_outputs {α : Type*} {out : σ → ε → List α} {I : σ → List α → Prop}
    (hstep : ∀ s past e t, I s past → step s e = some t → I t (past ++ out s e)) {s t : σ}
    {past : List α} {es : List ε} (hs : I s past) (h : run step s es = some t) :
    I t (past ++ outputs step out s es) := by
  induction es generalizing s past with
  | nil =>
      cases h
      simpa [outputs] using hs
  | cons e es ih =>
      obtain ⟨u, hu, hrest⟩ := run_cons_eq_some_iff.mp h
      have hu' := ih (hstep s past e u hs hu) hrest
      rw [List.append_assoc] at hu'
      simpa [outputs, hu] using hu'

/-- The same with the events themselves as the history. -/
theorem invariant_of_history {I : σ → List ε → Prop}
    (hstep : ∀ s past e t, I s past → step s e = some t → I t (past ++ [e])) {s t : σ}
    {past es : List ε} (hs : I s past) (h : run step s es = some t) : I t (past ++ es) := by
  induction es generalizing s past with
  | nil =>
      cases h
      simpa using hs
  | cons e es ih =>
      obtain ⟨u, hu, hrest⟩ := run_cons_eq_some_iff.mp h
      have hu' := ih (hstep s past e u hs hu) hrest
      rwa [List.append_assoc] at hu'

/-- **The invariant rule under a count.** `P` tells which events are counted, and a step raises `μ`
by at most what it counts. What every step keeps as long as `μ` stays below a bound holds at the end
of every run with fewer such events. -/
theorem invariant_of_countP {I : σ → Prop} {μ : σ → Nat} {P : ε → Bool} {bound : Nat}
    (hμ : ∀ s e t, step s e = some t → μ t ≤ μ s + (P e).toNat)
    (hstep : ∀ s e t, I s → μ s + (P e).toNat < bound → step s e = some t → I t) {s t : σ}
    {es : List ε} (hs : I s) (hzero : μ s = 0) (h : run step s es = some t)
    (hbound : es.countP P < bound) : I t := by
  have hnext : ∀ s past e t, μ s ≤ past.countP P ∧ (past.countP P < bound → I s) →
      step s e = some t →
        μ t ≤ (past ++ [e]).countP P ∧ ((past ++ [e]).countP P < bound → I t) := by
    intro s past e t ⟨hle, hI⟩ ht
    have hcount : (past ++ [e]).countP P = past.countP P + (P e).toNat := by
      rw [List.countP_append, List.countP_singleton]
      cases P e <;> rfl
    rw [hcount]
    refine ⟨Nat.le_trans (hμ s e t ht) (Nat.add_le_add_right hle _), fun hlt => ?_⟩
    exact hstep s e t (hI (by omega)) (by omega) ht
  have hinit : μ s ≤ ([] : List ε).countP P ∧ (([] : List ε).countP P < bound → I s) :=
    ⟨Nat.le_of_eq hzero, fun _ => hs⟩
  exact (invariant_of_history hnext hinit h).2 hbound

/-- A condition on the steps of a run may use what is invariant. -/
theorem EachStep.of_invariant {I : σ → Prop} {C D : σ → ε → Prop}
    (hstep : ∀ s e t, I s → C s e → step s e = some t → I t)
    (himp : ∀ s e t, I s → C s e → step s e = some t → D s e) {s t : σ} {es : List ε} (hs : I s)
    (hC : EachStep step C s es) (h : run step s es = some t) : EachStep step D s es := by
  induction es generalizing s with
  | nil => trivial
  | cons e es ih =>
      obtain ⟨u, hu, hrest⟩ := run_cons_eq_some_iff.mp h
      have hC' := (eachStep_cons_iff hu es).mp hC
      apply (eachStep_cons_iff hu es).mpr
      exact ⟨himp s e u hs hC'.1 hu, ih (hstep s e u hs hC'.1 hu) hC'.2 hrest⟩

/-- **A run is good when the order of its events is.** `o` follows the run event by event and sees
nothing else of it; if each step keeps the good exactly when the event is good after what `o` has
seen, then the events alone decide whether the run ends well. -/
theorem good_iff_of_follows {ω : Type*} {next : ω → ε → ω} {Follows : σ → ω → Prop}
    {Good : σ → Prop} {C : ω → ε → Prop}
    (hfollows : ∀ s o e t, Follows s o → step s e = some t → Follows t (next o e))
    (hstep : ∀ s o e t, Follows s o → step s e = some t → (Good t ↔ Good s ∧ C o e)) {s t : σ}
    {o : ω} {es : List ε} (hs : Follows s o) (h : run step s es = some t) :
    Good t ↔ Good s ∧ EachStep (fun o e => some (next o e)) C o es := by
  induction es generalizing s o with
  | nil =>
      cases h
      simp [EachStep]
  | cons e es ih =>
      obtain ⟨u, hu, hrest⟩ := run_cons_eq_some_iff.mp h
      rw [ih (hfollows s o e u hs hu) hrest, hstep s o e u hs hu, eachStep_cons_iff rfl, and_assoc]

theorem outputs_map_congr {α β γ : Type*} {out : σ → ε → List α} {out' : σ → ε → List β}
    {f : α → γ} {g : β → γ} (h : ∀ s e, (out s e).map f = (out' s e).map g) (s : σ)
    (es : List ε) : (outputs step out s es).map f = (outputs step out' s es).map g := by
  induction es generalizing s with
  | nil => rfl
  | cons e es ih =>
      simp only [outputs]
      cases step s e with
      | none => exact h s e
      | some t =>
          dsimp only
          rw [List.map_append, List.map_append, h, ih]

/-- **Forward simulation.** When every step of one system is matched by some run of another between
the images of its two states, so is every run. -/
theorem run_simulates {τ δ : Type*} {step' : τ → δ → Option τ} (abs : σ → τ) {I : σ → Prop}
    (hI : ∀ s e t, I s → step s e = some t → I t)
    (hsim : ∀ s e t, I s → step s e = some t → Reachable step' (abs s) (abs t)) {s t : σ}
    (hs : I s) (h : Reachable step s t) : Reachable step' (abs s) (abs t) := by
  obtain ⟨es, hes⟩ := h
  induction es generalizing s with
  | nil =>
      cases hes
      exact Reachable.refl _
  | cons e es ih =>
      obtain ⟨u, hu, hrest⟩ := run_cons_eq_some_iff.mp hes
      exact (hsim s e u hs hu).trans (ih (hI s e u hs hu) hrest)

end Runs
