import YeounEngine.Lib.Transition
import Mathlib.Tactic.Choose

/-!
# Observations that do not depend on a parameter

A family of systems, one for each value of a parameter, runs on inputs that may depend on the parameter
as well. Does what is observed of a run depend on it? The families of states and inputs that count as
alike are given; when every step keeps the states alike and its own observation is constant
exactly when its causes are clean (`Unwinding`), the same holds of whole runs (`Unwinding.observe_iff`).
-/

namespace Transition

universe u v w x y

/-- The parameter makes no difference. -/
def Constant {δ : Type u} {α : Type v} (f : δ → α) : Prop := ∀ d d', f d = f d'

/-- The causes are the same for every parameter, and none of them shows it. -/
structure Clean {δ : Type u} {κ : Type v} (hides : κ → Prop) (f : δ → List κ) : Prop where
  all : ∀ d, ∀ k ∈ f d, hides k
  constant : Constant f

section
variable {δ : Type u} {α : Type v}

theorem constant_const {a : α} : Constant fun _ : δ => a := fun _ _ => rfl

theorem clean_nil {hides : α → Prop} : Clean hides fun _ : δ => ([] : List α) :=
  ⟨fun _ _ h => (by cases h), constant_const⟩

/-- Lists of one length are constant in two parts. -/
theorem constant_append {f g : δ → List α} (hlen : ∀ d d', (f d).length = (f d').length) :
    Constant (fun d => f d ++ g d) ↔ Constant f ∧ Constant g := by
  constructor
  · intro h
    exact ⟨fun d d' => (List.append_inj (h d d') (hlen d d')).1,
      fun d d' => (List.append_inj (h d d') (hlen d d')).2⟩
  · rintro ⟨hf, hg⟩ d d'
    dsimp only
    rw [hf d d', hg d d']

theorem clean_append {hides : α → Prop} {f g : δ → List α}
    (hlen : ∀ d d', (f d).length = (f d').length) :
    Clean hides (fun d => f d ++ g d) ↔ Clean hides f ∧ Clean hides g := by
  constructor
  · rintro ⟨hh, hc⟩
    obtain ⟨hf, hg⟩ := (constant_append hlen).mp hc
    exact ⟨⟨fun d k hk => hh d k (List.mem_append_left _ hk), hf⟩,
      ⟨fun d k hk => hh d k (List.mem_append_right _ hk), hg⟩⟩
  · rintro ⟨hf, hg⟩
    refine ⟨fun d k hk => ?_, (constant_append hlen).mpr ⟨hf.constant, hg.constant⟩⟩
    rcases List.mem_append.mp hk with hk | hk
    · exact hf.all d k hk
    · exact hg.all d k hk

end

namespace System

section
variable {σ : Type u} {ε : Type v} {ω : Type w}

/-- What is observed of a run on the given inputs, as far as they are enabled. -/
def observe (M : System σ ε) (out : σ → ε → List ω) : σ → List ε → List ω
  | _, [] => []
  | s, e :: es =>
    match M.step s e with
    | none => []
    | some t => out s e ++ observe M out t es

variable {M : System σ ε} {out : σ → ε → List ω} {s t : σ} {e : ε} {es : List ε}

theorem observe_of_none (h : M.step s e = none) : M.observe out s (e :: es) = [] := by
  rw [observe, h]

theorem observe_of_some (h : M.step s e = some t) :
    M.observe out s (e :: es) = out s e ++ M.observe out t es := by
  rw [observe, h]

end

end System

section
variable {δ : Type u} {σ : Type v} {ε : Type w} {ω : Type x} {κ : Type y}

/-- Every step keeps the states alike, and what it shows of the parameter is what its causes show. -/
structure Unwinding (M : δ → System σ ε) (out : δ → σ → ε → List ω) (cause : δ → σ → ε → List κ)
    (hides : κ → Prop) (alike : (δ → σ) → Prop) (input : (δ → ε) → Prop) : Prop where
  enabled : ∀ s e, alike s → input e → ∀ d d', ((M d).step (s d) (e d)).isSome →
    ((M d').step (s d') (e d')).isSome
  step : ∀ s e (t : δ → σ), alike s → input e → (∀ d, (M d).step (s d) (e d) = some (t d)) → alike t
  length_out : ∀ s e, alike s → input e → ∀ d d',
    (out d (s d) (e d)).length = (out d' (s d') (e d')).length
  length_cause : ∀ s e, alike s → input e → ∀ d d',
    (cause d (s d) (e d)).length = (cause d' (s d') (e d')).length
  constant : ∀ s e (t : δ → σ), alike s → input e → (∀ d, (M d).step (s d) (e d) = some (t d)) →
    (Constant (fun d => out d (s d) (e d)) ↔ Clean hides fun d => cause d (s d) (e d))

variable {M : δ → System σ ε} {out : δ → σ → ε → List ω} {cause : δ → σ → ε → List κ}
  {hides : κ → Prop} {alike : (δ → σ) → Prop} {input : (δ → ε) → Prop}

/-- What is observed of a run does not depend on the parameter if and only if its causes are clean. -/
theorem Unwinding.observe_iff (h : Unwinding M out cause hides alike input) (s : δ → σ)
    (es : List (δ → ε)) (hs : alike s) (hes : ∀ e ∈ es, input e) :
    Constant (fun d => (M d).observe (out d) (s d) (es.map fun e => e d)) ↔
      Clean hides fun d => (M d).observe (cause d) (s d) (es.map fun e => e d) := by
  induction es generalizing s with
  | nil => exact ⟨fun _ => clean_nil, fun _ => constant_const⟩
  | cons e es ih =>
    have he : input e := hes e List.mem_cons_self
    simp only [List.map_cons]
    by_cases hen : ∀ d, ((M d).step (s d) (e d)).isSome
    · choose t ht using fun d => Option.isSome_iff_exists.mp (hen d)
      simp only [System.observe_of_some (ht _)]
      rw [constant_append (h.length_out s e hs he), clean_append (h.length_cause s e hs he),
        h.constant s e t hs he ht,
        ih t (h.step s e t hs he ht) fun e' he' => hes e' (List.mem_cons_of_mem _ he')]
    · -- an input that is not enabled for one parameter is enabled for none
      have hnone : ∀ d, (M d).step (s d) (e d) = none := by
        intro d
        rw [← Option.not_isSome_iff_eq_none]
        exact fun hd => hen fun d' => h.enabled s e hs he d d' hd
      simp only [System.observe_of_none (hnone _)]
      exact ⟨fun _ => clean_nil, fun _ => constant_const⟩

end

end Transition
