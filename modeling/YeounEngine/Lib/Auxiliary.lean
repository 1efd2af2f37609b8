import YeounEngine.Lib.Transition

/-!
# Auxiliary variables

A system extended by a record that its own steps never read: what has happened so far (a history
variable), or what somebody has seen who looks at the state from outside. An event of the extension may be
one of the system, or one of the record alone (`Auxiliary.event`); the record may refuse an event.

Whatever the record is, the system takes the steps that it takes without it (`extend_cases`), so what its steps
keep, the steps of the extension keep.
-/

namespace Transition

universe u v w x

/-- A record over the runs of a system: where it starts, which event of the system an event is, if any, and
what the record becomes. -/
structure Auxiliary (σ : Type u) (ε : Type v) (ε' : Type w) (η : Type x) where
  start : η
  event : ε' → Option ε
  record : σ → η → ε' → Option η

/-- A state with its record. -/
structure Extended (σ : Type u) (η : Type x) where
  state : σ
  record : η

namespace System

section
variable {σ : Type u} {ε : Type v} {ε' : Type w} {η : Type x}

/-- The system with the record. -/
def extend (M : System σ ε) (A : Auxiliary σ ε ε' η) : System (Extended σ η) ε' where
  init x := M.init x.state ∧ x.record = A.start
  step x e' := (A.record x.state x.record e').bind fun r =>
    match A.event e' with
    | some e => (M.step x.state e).map fun s => ⟨s, r⟩
    | none => some ⟨x.state, r⟩

variable {M : System σ ε} {A : Auxiliary σ ε ε' η}
  {x y : Extended σ η} {e' : ε'}

/-- Inversion of one step: the system takes it, or only the record. -/
theorem extend_cases {motive : Extended σ η → Prop} (h : (M.extend A).step x e' = some y)
    (taken : ∀ e s r, A.event e' = some e → M.step x.state e = some s →
      A.record x.state x.record e' = some r → motive ⟨s, r⟩)
    (recorded : ∀ r, A.event e' = none → A.record x.state x.record e' = some r →
      motive ⟨x.state, r⟩) : motive y := by
  obtain ⟨r, hr, h⟩ := Option.bind_eq_some_iff.mp h
  split at h
  · rename_i e he
    obtain ⟨s, hs, rfl⟩ := Option.map_eq_some_iff.mp h
    exact taken e s r he hs hr
  · rename_i he
    cases h
    exact recorded r he hr

end

end System

end Transition
