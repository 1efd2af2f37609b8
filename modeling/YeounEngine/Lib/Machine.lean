import Mathlib.Data.List.Forall2

/-!
# Machines that answer

A machine takes an input in every state, answers it and goes on in a new state. Two machines that run on the
same inputs answer alike as long as their states are related, if every input that meets a condition is
answered alike and keeps the states related; if only those inputs are answered alike, the condition is exact
(`run_alike_iff`).
-/

namespace Transition

universe u v w x y

/-- What a machine answers to an input, and where it goes on. -/
structure Machine (σ : Type u) (ι : Type v) (ω : Type w) where
  step : σ → ι → ω × σ

/-- Two runs give answers that are alike, one by one, and end in related states. -/
structure Alike {ω : Type u} {σ : Type v} {ω' : Type w} {σ' : Type x} (answer : ω → ω' → Prop) (R : σ → σ' → Prop)
    (r : List ω × σ) (r' : List ω' × σ') : Prop where
  answers : List.Forall₂ answer r.1 r'.1
  states : R r.2 r'.2

namespace Machine

section
variable {σ : Type u} {ι : Type v} {ω : Type w}

/-- The answers to a list of inputs, and the state behind them. -/
def run (M : Machine σ ι ω) : σ → List ι → List ω × σ
  | s, [] => ([], s)
  | s, i :: is => ((M.step s i).1 :: (M.run (M.step s i).2 is).1, (M.run (M.step s i).2 is).2)

/-- Every input meets the condition in the state in which it comes. -/
def Along (M : Machine σ ι ω) (ok : σ → ι → Prop) : σ → List ι → Prop
  | _, [] => True
  | s, i :: is => ok s i ∧ M.Along ok (M.step s i).2 is

end

section
variable {σ : Type u} {ι : Type v} {ω : Type w} {σ' : Type x} {ω' : Type y} {M : Machine σ ι ω} {N : Machine σ' ι ω'}
  {answer : ω → ω' → Prop} {R : σ → σ' → Prop} {ok : σ → ι → Prop} {s : σ} {s' : σ'} {is : List ι}

/-- Related states answer alike to the inputs that meet the condition, and to no others: then two runs are alike if
and only if all inputs meet it. -/
theorem run_alike_iff (hexact : ∀ s s' i, R s s' → (answer (M.step s i).1 (N.step s' i).1 ↔ ok s i))
    (hkept : ∀ s s' i, R s s' → ok s i → R (M.step s i).2 (N.step s' i).2) (h : R s s') :
    Alike answer R (M.run s is) (N.run s' is) ↔ M.Along ok s is := by
  induction is generalizing s s' with
  | nil => exact iff_of_true ⟨.nil, h⟩ trivial
  | cons i is ih =>
    constructor
    · rintro ⟨hanswers, hstates⟩
      obtain ⟨hanswer, hanswers⟩ := List.forall₂_cons.mp hanswers
      have hok := (hexact s s' i h).mp hanswer
      exact ⟨hok, (ih (hkept s s' i h hok)).mp ⟨hanswers, hstates⟩⟩
    · rintro ⟨hok, hrest⟩
      obtain ⟨hanswers, hstates⟩ := (ih (hkept s s' i h hok)).mpr hrest
      exact ⟨.cons ((hexact s s' i h).mpr hok) hanswers, hstates⟩

end

end Machine

end Transition
