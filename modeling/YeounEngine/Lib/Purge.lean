import YeounEngine.Lib.Coop
import Mathlib.Data.List.Forall2

/-!
# Runs without the steps of others

Of a run some steps are kept, and the others are left out: is what is left a run, and does an observer see the
same? `purge` leaves out the steps, and `Purging` is what makes it so, step by step: what is kept can be done
without what is left out, and what is left out is not seen. Then it is so of every run (`Purging.exec`).
-/

namespace Transition

universe u v

section
variable {σ : Type u} {ε : Type v}

/-- The events of a run that are kept; `keeps` sees the state of the whole run. -/
def System.purge (M : System σ ε) (keeps : σ → ε → Bool) : σ → List ε → List ε
  | _, [] => []
  | s, e :: es =>
    let rest := (M.step s e).elim [] fun t => M.purge keeps t es
    if keeps s e then e :: rest else rest

/-- The steps that are kept can be taken in the state of the purged run as well, and the others are not seen there. -/
structure Purging (M : System σ ε) (keeps : σ → ε → Bool) (R : σ → σ → Prop) : Prop where
  kept : ∀ s s' e t, R s s' → keeps s e = true → M.step s e = some t → ∃ t', M.step s' e = some t' ∧ R t t'
  dropped : ∀ s s' e t, R s s' → keeps s e = false → M.step s e = some t → R t s'

variable {M : System σ ε} {keeps : σ → ε → Bool} {R : σ → σ → Prop} {s s' t : σ}

/-- Every run can be purged. -/
theorem Purging.exec (h : Purging M keeps R) (hR : R s s') {es : List ε} (hrun : M.exec anyStep s es = some t) :
    ∃ t', M.exec anyStep s' (M.purge keeps s es) = some t' ∧ R t t' := by
  induction es generalizing s s' with
  | nil =>
    cases hrun
    exact ⟨s', rfl, hR⟩
  | cons e es ih =>
    rw [System.exec_anyStep_cons] at hrun
    obtain ⟨u, hstep, hrest⟩ := Option.bind_eq_some_iff.mp hrun
    cases hkeep : keeps s e with
    | true =>
      obtain ⟨u', hstep', hR'⟩ := h.kept s s' e u hR hkeep hstep
      obtain ⟨t', hrun', ht⟩ := ih hR' hrest
      refine ⟨t', ?_, ht⟩
      simp only [System.purge, hkeep, hstep, Option.elim_some, if_true]
      rw [System.exec_anyStep_cons, hstep', Option.bind_some]
      exact hrun'
    | false =>
      obtain ⟨t', hrun', ht⟩ := ih (h.dropped s s' e u hR hkeep hstep) hrest
      refine ⟨t', ?_, ht⟩
      simp only [System.purge, hkeep, hstep, Option.elim_some, Bool.false_eq_true, if_false]
      exact hrun'

end

end Transition

/-! ## Two pools side by side -/

section
variable {T : Type u} {R : T → T → Prop} {f : T → Nat} {ts us : List T} {i : Nat} {t u : T}

theorem Pool.exists_beside (h : List.Forall₂ R ts us) (hi : ts[i]? = some t) : ∃ u, us[i]? = some u ∧ R t u := by
  induction h generalizing i with
  | nil => cases hi
  | cons hab _ ih =>
    cases i with
    | zero =>
      cases hi
      exact ⟨_, rfl, hab⟩
    | succ i => exact ih hi

/-- The tasks at one index take a step. -/
theorem Pool.forall₂_set (h : List.Forall₂ R ts us) (ht : R t u) : List.Forall₂ R (ts.set i t) (us.set i u) := by
  induction h generalizing i with
  | nil => exact .nil
  | cons hab hrest ih =>
    cases i with
    | zero => exact .cons ht hrest
    | succ i => exact .cons hab ih

/-- The task at an index takes a step in one of the pools only. -/
theorem Pool.forall₂_set_left (h : List.Forall₂ R ts us) (hi : us[i]? = some u) (ht : R t u) :
    List.Forall₂ R (ts.set i t) us := by
  obtain ⟨hlt, rfl⟩ := List.getElem?_eq_some_iff.mp hi
  have hset := Pool.forall₂_set (i := i) h ht
  rwa [List.set_getElem_self] at hset

theorem Pool.total_le (h : List.Forall₂ R ts us) (hf : ∀ t u, R t u → f u ≤ f t) :
    Pool.total f us ≤ Pool.total f ts := by
  induction h with
  | nil => exact Nat.le_refl _
  | cons hab _ ih =>
    have hle := hf _ _ hab
    rw [Pool.total_cons, Pool.total_cons]
    omega

end
