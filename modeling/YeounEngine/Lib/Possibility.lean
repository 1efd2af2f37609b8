import YeounEngine.Lib.Coop

/-!
# What can still happen

`M.Can P s`: some run from `s` ends in a state with `P`. That it can happen is shown by runs, put together step by
step (`Can.step`, `Can.bind`) or taken over from a smaller system whose steps the larger one can take (`Can.lift`);
that it cannot, by an invariant of the step without `P` (`not_can_of_inv`).

A task of a pool consists of handlers. `handler` is one of them on its own, and what it can do there it can do among the
other tasks (`Coop.can_of_handler`).
-/

universe u v w x

namespace Transition

namespace System

section
variable {σ : Type u} {ε : Type v} {σ' : Type w} {ε' : Type x} {M : System σ ε} {M' : System σ' ε'}
  {P Q : σ → Prop} {s t : σ}

/-- Some run from the state ends with the property. -/
def Can (M : System σ ε) (P : σ → Prop) (s : σ) : Prop := ∃ t, M.Steps anyStep s t ∧ P t

theorem Can.now (h : P s) : M.Can P s := ⟨s, .refl s, h⟩

theorem Can.step (e : ε) (hstep : M.step s e = some t) (h : M.Can P t) : M.Can P s := by
  obtain ⟨u, hrun, hu⟩ := h
  exact ⟨u, (Steps.tail (.refl s) trivial hstep).trans hrun, hu⟩

/-- One after the other. -/
theorem Can.bind (h : M.Can P s) (hQ : ∀ t, P t → M.Can Q t) : M.Can Q s := by
  obtain ⟨t, hrun, ht⟩ := h
  obtain ⟨u, hrun', hu⟩ := hQ t ht
  exact ⟨u, hrun.trans hrun', hu⟩

theorem Can.mono (h : M.Can P s) (hQ : ∀ t, P t → Q t) : M.Can Q s :=
  h.bind fun t ht => .now (hQ t ht)

/-- Where the larger system can follow each step of the smaller one, it can do what that can. -/
theorem Can.lift {R : σ → σ' → Prop}
    (hR : ∀ s x e t, R s x → M.step s e = some t → ∃ e' y, M'.step x e' = some y ∧ R t y)
    (h : M.Can P s) {x : σ'} (hx : R s x) : M'.Can (fun y => ∃ t, P t ∧ R t y) x := by
  obtain ⟨t, hrun, ht⟩ := h
  have hfollows : M'.Can (R t) x := by
    clear ht
    induction hrun with
    | refl => exact .now hx
    | tail _ _ hstep ih =>
      refine ih.bind fun y hy => ?_
      obtain ⟨e', z, hz, hR'⟩ := hR _ _ _ _ hy hstep
      exact .step e' hz (.now hR')
  exact hfollows.mono fun y hy => ⟨t, ht, hy⟩

/-- Nothing comes of it. -/
theorem not_can_of_inv {I : σ → Prop} (hI : ∀ s e t, I s → M.step s e = some t → I t) (hP : ∀ s, I s → ¬ P s)
    (hs : I s) : ¬ M.Can P s := by
  rintro ⟨t, hrun, ht⟩
  exact hP t (hrun.inv (fun s e t h _ hstep => hI s e t h hstep) hs) ht

end

end System

/-! ## Handlers of cooperative tasks -/

section
variable {W : Type u} {S : Type v} {A : Type w} {T : Type v} {E : Type w} {X : Type x}

/-- A handler with its world, and nothing else going on. -/
def handler (step : W → S → A → Option (W × S)) : System (W × S) A where
  init _ := True
  step x a := step x.1 x.2 a

end

end Transition

open Transition

section
variable {W : Type u} {S : Type v} {A : Type w} {T : Type v} {E : Type w} {X : Type x}

/-- A task takes its step among the others. -/
theorem Coop.step_run {C : Coop W T E X} {init : W → Prop} {p : Pool W T} {i : Nat} {t t' : T} {e : E} {w' : W}
    (hi : p.tasks[i]? = some t) (hs : C.step p.world i t e = some (w', t')) :
    (C.system init).step p (.run i e) = some ⟨w', p.tasks.set i t'⟩ := by
  change ((p.tasks[i]?).bind fun t => (C.step p.world i t e).map fun r => Pool.mk r.1 (p.tasks.set i r.2)) = _
  rw [hi, Option.bind_some, hs]
  rfl

/-- What the handler of a task can do to the world on its own, it can do among the other tasks. -/
theorem Coop.can_of_handler {C : Coop W T E X} {init : W → Prop} {p : Pool W T} {i : Nat} {P : W → Prop}
    {step : W → S → A → Option (W × S)} {s : S} (task : S → T) (event : A → E)
    (hstep : ∀ w s a w' s', step w s a = some (w', s') → C.step w i (task s) (event a) = some (w', task s'))
    (hi : p.tasks[i]? = some (task s)) (h : (handler step).Can (fun x => P x.1) (p.world, s)) :
    (C.system init).Can (fun q => P q.world) p := by
  refine (h.lift (R := fun x q => q.world = x.1 ∧ q.tasks[i]? = some (task x.2)) ?_ ⟨rfl, hi⟩).mono ?_
  · rintro ⟨w, s⟩ q a ⟨w', s'⟩ ⟨rfl, hs⟩ ha
    exact ⟨.run i (event a), _, Coop.step_run hs (hstep _ _ _ _ _ ha), rfl, Pool.getElem?_set_of_some hs⟩
  · rintro q ⟨x, hx, hq, -⟩
    rw [hq]
    exact hx

end
