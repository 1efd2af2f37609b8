import Mathlib.Logic.Basic

/-!
# Labelled transition systems and guarded runs

A system (`Transition.System`) has a set of initial states and a partial step for each event. A
run is guarded by a relation `ok` between the state and the event taken in it: `System.Steps ok`
is the runs whose every step meets `ok`, and `System.Reach ok` the states such runs reach from an
initial state. The unguarded runs are those of `anyStep`.

The rules are the usual ones: an invariant that every guarded step keeps holds of every guarded
run (`Steps.inv`, `Reach.inv`), and a reflexive and transitive relation that every guarded step
from an invariant state satisfies relates the two ends of a run (`Steps.rel`). A measure that every
step decreases ends every run (`terminates_of_measure`). `System.exec` runs
a list of events and checks the guard on the way, so a concrete run is found by evaluation
(`exists_of_exec`); an invariant of such a run may also speak of what its events have shown
(`exec_collect`).
-/

namespace Transition

universe u v w

/-- A system with labelled, partial steps: `step s e = none` when `e` is not enabled in `s`. -/
structure System (σ : Type u) (ε : Type v) where
  init : σ → Prop
  step : σ → ε → Option σ

/-- The guard that every step meets. -/
def anyStep {σ : Type u} {ε : Type v} : σ → ε → Prop := fun _ _ => True

instance {σ : Type u} {ε : Type v} (s : σ) (e : ε) : Decidable (anyStep s e) :=
  inferInstanceAs (Decidable True)

namespace System

section
variable {σ : Type u} {ε : Type v}

/-- The runs of a system whose steps all meet the guard `ok`, by their two ends. -/
inductive Steps (M : System σ ε) (ok : σ → ε → Prop) : σ → σ → Prop
  | refl (s : σ) : Steps M ok s s
  | tail {s t u : σ} {e : ε} : Steps M ok s t → ok t e → M.step t e = some u → Steps M ok s u

/-- The states that a guarded run reaches from an initial state. -/
def Reach (M : System σ ε) (ok : σ → ε → Prop) (t : σ) : Prop :=
  ∃ s, M.init s ∧ M.Steps ok s t

variable {M : System σ ε} {ok : σ → ε → Prop} {s t u : σ} {I : σ → Prop}

/-! ## Rules for runs -/

/-- Runs compose. -/
theorem Steps.trans (h : M.Steps ok s t) (h' : M.Steps ok t u) : M.Steps ok s u := by
  induction h' with
  | refl => exact h
  | tail _ hok hstep ih => exact .tail ih hok hstep

/-- What every guarded step keeps, a guarded run keeps. -/
theorem Steps.inv (hI : ∀ s e t, I s → ok s e → M.step s e = some t → I t)
    (h : M.Steps ok s t) (hs : I s) : I t := by
  induction h with
  | refl => exact hs
  | tail _ he hstep ih => exact hI _ _ _ ih he hstep

/-- A reflexive and transitive relation that every guarded step from an invariant state satisfies
relates the ends of a run. -/
theorem Steps.rel {R : σ → σ → Prop} (hrefl : ∀ s, R s s)
    (htrans : ∀ s t u, R s t → R t u → R s u)
    (hI : ∀ s e t, I s → ok s e → M.step s e = some t → I t)
    (hR : ∀ s e t, I s → ok s e → M.step s e = some t → R s t)
    (h : M.Steps ok s t) (hs : I s) : R s t := by
  induction h with
  | refl => exact hrefl _
  | tail hrun he hstep ih =>
    exact htrans _ _ _ ih (hR _ _ _ (hrun.inv hI hs) he hstep)

/-- A run that meets a guard meets a weaker one. -/
theorem Steps.mono {ok' : σ → ε → Prop} (hok : ∀ s e, ok s e → ok' s e) (h : M.Steps ok s t) :
    M.Steps ok' s t := by
  induction h with
  | refl => exact .refl _
  | tail _ he hstep ih => exact ih.tail (hok _ _ he) hstep

theorem Reach.mono {ok' : σ → ε → Prop} (hok : ∀ s e, ok s e → ok' s e) (h : M.Reach ok s) : M.Reach ok' s := by
  obtain ⟨s₀, hinit, hrun⟩ := h
  exact ⟨s₀, hinit, hrun.mono hok⟩

/-- A reached state stays reached along a run. -/
theorem Reach.steps (h : M.Reach ok s) (h' : M.Steps ok s t) : M.Reach ok t := by
  obtain ⟨s₀, hinit, hrun⟩ := h
  exact ⟨s₀, hinit, hrun.trans h'⟩

/-- An invariant: it holds initially and every guarded step keeps it. -/
theorem Reach.inv (hinit : ∀ s, M.init s → I s)
    (hI : ∀ s e t, I s → ok s e → M.step s e = some t → I t) (h : M.Reach ok t) : I t := by
  obtain ⟨s, hs, hrun⟩ := h
  exact hrun.inv hI (hinit s hs)

/-! ## Runs that end -/

/-- Every run from the state ends. -/
def Terminates (M : System σ ε) (ok : σ → ε → Prop) : σ → Prop :=
  Acc fun t s => ∃ e, ok s e ∧ M.step s e = some t

/-- No step is enabled. -/
def Stuck (M : System σ ε) (ok : σ → ε → Prop) (s : σ) : Prop := ∀ e, ok s e → M.step s e = none

/-- A measure that every guarded step decreases. -/
theorem terminates_of_measure (f : σ → Nat) (hf : ∀ s e t, ok s e → M.step s e = some t → f t < f s) (s : σ) :
    M.Terminates ok s := by
  refine Subrelation.accessible ?_ (InvImage.accessible f (Nat.lt_wfRel.wf.apply (f s)))
  rintro t s ⟨e, he, hstep⟩
  exact hf s e t he hstep

/-- Fewer steps end as well. -/
theorem Terminates.mono {ok' : σ → ε → Prop} (hok : ∀ s e, ok' s e → ok s e) (h : M.Terminates ok s) :
    M.Terminates ok' s :=
  Subrelation.accessible (fun ⟨e, he, hstep⟩ => ⟨e, hok _ e he, hstep⟩) h

/-- A state from which every run ends has a run to its end. -/
theorem Terminates.exists_stuck (h : M.Terminates ok s) : ∃ t, M.Steps ok s t ∧ M.Stuck ok t := by
  induction h with
  | intro s _ ih =>
    by_cases hstuck : M.Stuck ok s
    · exact ⟨s, .refl s, hstuck⟩
    · simp only [Stuck, not_forall] at hstuck
      obtain ⟨e, he, hne⟩ := hstuck
      obtain ⟨t, hstep⟩ := Option.ne_none_iff_exists'.mp hne
      obtain ⟨u, hrun, hu⟩ := ih t ⟨e, he, hstep⟩
      exact ⟨u, (Steps.tail (.refl s) he hstep).trans hrun, hu⟩

/-! ## Runs by evaluation -/

/-- Run a list of events, as long as each is enabled and meets the guard. -/
def exec (M : System σ ε) (ok : σ → ε → Prop) [∀ s e, Decidable (ok s e)] :
    σ → List ε → Option σ
  | s, [] => some s
  | s, e :: es => if ok s e then (M.step s e).bind fun t => M.exec ok t es else none

/-- What `exec` runs is a guarded run. -/
theorem Steps.of_exec [∀ s e, Decidable (ok s e)] {es : List ε} (h : M.exec ok s es = some t) :
    M.Steps ok s t := by
  induction es generalizing s with
  | nil => cases h; exact .refl _
  | cons e es ih =>
    rw [exec] at h
    split at h
    · rename_i hok
      obtain ⟨u, hu, hrest⟩ := Option.bind_eq_some_iff.mp h
      exact (Steps.tail (.refl _) hok hu).trans (ih hrest)
    · cases h

/-- A state with a decidable property, found by running a list of events. -/
theorem exists_of_exec [∀ s e, Decidable (ok s e)] {P : σ → Bool} {es : List ε}
    (h : (M.exec ok s es).any P = true) : ∃ t, M.Steps ok s t ∧ P t = true := by
  cases hr : M.exec ok s es with
  | none => rw [hr] at h; cases h
  | some t => rw [hr] at h; exact ⟨t, .of_exec hr, h⟩

theorem exec_anyStep_cons {e : ε} {es : List ε} :
    M.exec anyStep s (e :: es) = (M.step s e).bind fun t => M.exec anyStep t es := if_pos trivial

/-- From a state with no step the only run is the empty one. -/
theorem Stuck.exec_eq (hs : M.Stuck anyStep s) {es : List ε} (h : M.exec anyStep s es = some t) : es = [] ∧ t = s := by
  cases es with
  | nil => cases h; exact ⟨rfl, rfl⟩
  | cons e es =>
    rw [exec_anyStep_cons, hs e trivial] at h
    cases h

theorem exec_anyStep_append {es es' : List ε} :
    M.exec anyStep s (es ++ es') = (M.exec anyStep s es).bind fun t => M.exec anyStep t es' := by
  induction es generalizing s with
  | nil => rfl
  | cons e es ih =>
    rw [List.cons_append, exec_anyStep_cons, exec_anyStep_cons, Option.bind_assoc]
    exact congrArg _ (funext fun t => ih)

/-- An invariant of the runs of some events that also speaks of what they have shown so far. -/
theorem exec_collect {γ : Type w} (label : ε → Option γ) {P : ε → Prop} {J : List γ → σ → Prop}
    (hJ : ∀ gs s e t, J gs s → P e → M.step s e = some t → J (gs ++ (label e).toList) t) (gs : List γ) {es : List ε}
    (hs : J gs s) (hes : ∀ e ∈ es, P e) (h : M.exec anyStep s es = some t) : J (gs ++ es.filterMap label) t := by
  induction es generalizing gs s with
  | nil =>
    cases h
    rwa [List.filterMap_nil, List.append_nil]
  | cons e es ih =>
    rw [exec_anyStep_cons] at h
    obtain ⟨u, hstep, hrest⟩ := Option.bind_eq_some_iff.mp h
    obtain ⟨he, hes⟩ := List.forall_mem_cons.mp hes
    have hlabels : (label e).toList ++ es.filterMap label = (e :: es).filterMap label := by
      cases hlabel : label e with
      | none => exact (List.filterMap_cons_none hlabel).symm
      | some g => exact (List.filterMap_cons_some hlabel).symm
    rw [← hlabels, ← List.append_assoc]
    exact ih _ (hJ gs s e u hs he hstep) hes hrest

/-- A guarded run by evaluation is a run. -/
theorem exec_anyStep_of_exec [∀ s e, Decidable (ok s e)] {es : List ε} (h : M.exec ok s es = some t) :
    M.exec anyStep s es = some t := by
  induction es generalizing s with
  | nil => exact h
  | cons e es ih =>
    rw [exec] at h
    split at h
    · obtain ⟨u, hu, hrest⟩ := Option.bind_eq_some_iff.mp h
      rw [exec_anyStep_cons, hu]
      exact ih hrest
    · cases h

/-- A guard that is exact: a step leads to a state with the property if and only if it meets the guard. Then all
states of a run have the property if and only if the run is guarded. -/
theorem exec_iff_of_exact [∀ s e, Decidable (ok s e)] {P : σ → Prop} {es : List ε} (hP : ∀ s, I s → P s)
    (hexact : ∀ s e t, I s → M.step s e = some t → (P t ↔ ok s e))
    (hI : ∀ s e t, I s → ok s e → M.step s e = some t → I t) (hs : I s) (h : M.exec anyStep s es = some t) :
    (∀ es₁ u, es₁ <+: es → M.exec anyStep s es₁ = some u → P u) ↔ M.exec ok s es = some t := by
  induction es generalizing s with
  | nil =>
    refine iff_of_true ?_ h
    rintro es₁ u hes hu
    rw [List.prefix_nil.mp hes] at hu
    cases hu
    exact hP s hs
  | cons e es ih =>
    rw [exec_anyStep_cons] at h
    obtain ⟨v, hv, hrest⟩ := Option.bind_eq_some_iff.mp h
    rw [exec, hv]
    constructor
    · intro hall
      have hok : ok s e := by
        refine (hexact s e v hs hv).mp (hall [e] v (List.cons_prefix_cons.mpr ⟨rfl, List.nil_prefix⟩) ?_)
        rw [exec_anyStep_cons, hv]
        rfl
      rw [if_pos hok]
      refine (ih (hI s e v hs hok hv) hrest).mp fun es₁ u hes hu => ?_
      refine hall (e :: es₁) u (List.cons_prefix_cons.mpr ⟨rfl, hes⟩) ?_
      rw [exec_anyStep_cons, hv]
      exact hu
    · intro hrun
      split at hrun
      · rename_i hok
        rintro (_ | ⟨e₁, es₁⟩) u hes hu
        · cases hu
          exact hP s hs
        · obtain ⟨rfl, htail⟩ := List.cons_prefix_cons.mp hes
          rw [exec_anyStep_cons, hv] at hu
          exact (ih (hI s e₁ v hs hok hv) hrest).mpr hrun es₁ u htail hu
      · cases hrun

end

end System

end Transition
