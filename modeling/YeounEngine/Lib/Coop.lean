import YeounEngine.Lib.Transition
import Mathlib.Tactic.Common

/-!
# Cooperative tasks over a shared world

A server that runs many tasks on one event loop: each task is a state machine, one step of it runs
from one suspension point to the next and reads and writes a shared world, and between two steps
of a task any other task may run. `Coop` is such a family of task steps, together with steps of
the environment that belong to no task. `Coop.system` interleaves any number of tasks,
`Coop.solo` runs the same tasks one after the other.

A task is known by its index in the pool, and an ended task keeps its place. The rules reduce a
statement about the pool to one about the step of a single task: `Coop.next_cases` inverts a step,
`Pool.All` is a fact about every task in the world (its own step and the steps of the others have
to keep it), and `Pool.total` adds up a weight over the tasks (one step changes one
summand, `Pool.total_set`).
-/

open Transition

universe u v w x

/-- The shared world and every task that has arrived, by its index. -/
structure Pool (W : Type u) (T : Type v) where
  world : W
  tasks : List T

/-- What may happen next: a task arrives, task `i` takes a step, or the environment does. -/
inductive Event (T : Type u) (E : Type v) (X : Type w)
  | arrive (t : T)
  | run (i : Nat) (e : E)
  | env (x : X)

/-- A family of cooperative tasks: which tasks may arrive, the step of the task with a given
index, and the environment's own steps, with what they do to a task (a restart, say, ends it). -/
structure Coop (W : Type u) (T : Type v) (E : Type w) (X : Type x) where
  arrives : T → Bool
  step : W → Nat → T → E → Option (W × T)
  env : W → X → Option W
  onTask : X → T → T

section
variable {W : Type u} {T : Type v} {E : Type w} {X : Type x}

/-! ## Interleaving -/

/-- One step of the interleaving. -/
def Coop.next (C : Coop W T E X) (p : Pool W T) : Event T E X → Option (Pool W T)
  | .arrive t => if C.arrives t then some ⟨p.world, p.tasks ++ [t]⟩ else none
  | .run i e => (p.tasks[i]?).bind fun t =>
      (C.step p.world i t e).map fun r => ⟨r.1, p.tasks.set i r.2⟩
  | .env x => (C.env p.world x).map fun w => ⟨w, p.tasks.map (C.onTask x)⟩

/-- The interleaving of the tasks, from a world in `init` and no task. -/
def Coop.system (C : Coop W T E X) (init : W → Prop) : System (Pool W T) (Event T E X) where
  init p := init p.world ∧ p.tasks = []
  step := C.next

/-- Inversion of one step of the interleaving. -/
theorem Coop.next_cases {C : Coop W T E X} {p q : Pool W T} {e : Event T E X}
    {motive : Pool W T → Prop} (h : C.next p e = some q)
    (arrive : ∀ t, e = .arrive t → C.arrives t = true → motive ⟨p.world, p.tasks ++ [t]⟩)
    (run : ∀ i ev t w t', e = .run i ev → p.tasks[i]? = some t →
      C.step p.world i t ev = some (w, t') → motive ⟨w, p.tasks.set i t'⟩)
    (env : ∀ x w, e = .env x → C.env p.world x = some w →
      motive ⟨w, p.tasks.map (C.onTask x)⟩) : motive q := by
  cases e with
  | arrive t =>
    rw [next] at h
    split at h
    · rename_i ht; cases h; exact arrive t rfl ht
    · cases h
  | run i ev =>
    obtain ⟨t, ht, h⟩ := Option.bind_eq_some_iff.mp h
    obtain ⟨⟨w, t'⟩, hstep, rfl⟩ := Option.map_eq_some_iff.mp h
    exact run i ev t w t' rfl ht hstep
  | env x =>
    obtain ⟨w, hw, rfl⟩ := Option.map_eq_some_iff.mp h
    exact env x w rfl hw

/-! ## Tasks that have ended -/

/-- A task that takes no step any more, and that the environment leaves alone. -/
def Coop.Ended (C : Coop W T E X) (t : T) : Prop :=
  (∀ w i e, C.step w i t e = none) ∧ ∀ x, C.onTask x t = t

/-- A task that has ended keeps its place. -/
theorem Coop.Ended.next {C : Coop W T E X} {t : T} (ht : C.Ended t) {p q : Pool W T} {e : Event T E X}
    (h : C.next p e = some q) (hmem : t ∈ p.tasks) : t ∈ q.tasks := by
  refine Coop.next_cases (motive := fun q => t ∈ q.tasks) h ?_ ?_ ?_
  · intro u _ _
    exact List.mem_append_left _ hmem
  · intro i ev u w u' _ hi hstep
    obtain ⟨j, hj⟩ := List.mem_iff_getElem?.mp hmem
    have hne : i ≠ j := by
      rintro rfl
      rw [hi] at hj
      cases hj
      rw [ht.1] at hstep
      cases hstep
    refine List.mem_of_getElem? (i := j) ?_
    rw [List.getElem?_set_ne hne]
    exact hj
  · intro x w _ _
    exact List.mem_map.mpr ⟨t, hmem, ht.2 x⟩

/-- A task that has ended keeps its place along a run. -/
theorem Coop.Ended.steps {C : Coop W T E X} {init : W → Prop} {ok : Pool W T → Event T E X → Prop} {t : T}
    (ht : C.Ended t) {p q : Pool W T} (h : (C.system init).Steps ok p q) (hmem : t ∈ p.tasks) :
    t ∈ q.tasks :=
  h.inv (I := fun p => t ∈ p.tasks) (fun _ _ _ hI _ hs => ht.next hs hI) hmem

/-! ## The tasks after a step -/

/-- The task at another index is not changed by a step. -/
theorem Pool.getElem?_set_of_ne {ts : List T} {i j : Nat} {t' : T} (h : j ≠ i) :
    (ts.set i t')[j]? = ts[j]? := by
  rw [List.getElem?_set_ne (Ne.symm h)]

/-- The task that took the step has its new state. -/
theorem Pool.getElem?_set_of_some {ts : List T} {i : Nat} {t t' : T} (h : ts[i]? = some t) :
    (ts.set i t')[i]? = some t' := by
  obtain ⟨hi, -⟩ := List.getElem?_eq_some_iff.mp h
  rw [List.getElem?_set_self hi]

/-- A task of the pool after a step of task `i` is the one that took it, or an old one at another
index. -/
theorem Pool.getElem?_set_cases {ts : List T} {i j : Nat} {t t' u : T} (hi : ts[i]? = some t)
    (hu : (ts.set i t')[j]? = some u) : (j = i ∧ u = t') ∨ (j ≠ i ∧ ts[j]? = some u) := by
  by_cases hj : j = i
  · subst hj
    rw [Pool.getElem?_set_of_some hi] at hu
    cases hu; exact .inl ⟨rfl, rfl⟩
  · rw [Pool.getElem?_set_of_ne hj] at hu
    exact .inr ⟨hj, hu⟩

/-- A task of the pool after an arrival is the new one, or an old one. -/
theorem Pool.getElem?_append_cases {ts : List T} {j : Nat} {t u : T}
    (hu : (ts ++ [t])[j]? = some u) : (j = ts.length ∧ u = t) ∨ ts[j]? = some u := by
  rcases Nat.lt_trichotomy j ts.length with hj | rfl | hj
  · rw [List.getElem?_append_left hj] at hu
    exact .inr hu
  · rw [List.getElem?_concat_length] at hu
    cases hu; exact .inl ⟨rfl, rfl⟩
  · rw [List.getElem?_eq_none (by simp only [List.length_append, List.length_singleton]; omega)] at hu
    cases hu

theorem Pool.mem_append {ts : List T} {t u : T} : u ∈ ts ++ [t] ↔ u ∈ ts ∨ u = t := by
  rw [List.mem_append, List.mem_singleton]

/-! ## Facts about every task -/

/-- `I` holds of every task, with its index, in the current world. -/
def Pool.All (I : W → Nat → T → Prop) (p : Pool W T) : Prop :=
  ∀ i t, p.tasks[i]? = some t → I p.world i t

/-- No task, nothing to show. -/
theorem Pool.All.nil {I : W → Nat → T → Prop} {p : Pool W T} (h : p.tasks = []) : p.All I := by
  intro i t hi
  rw [h] at hi
  cases hi

/-- A new task takes the next index. -/
theorem Pool.All.append {I : W → Nat → T → Prop} {p : Pool W T} {t : T} (h : p.All I)
    (ht : I p.world p.tasks.length t) : Pool.All I ⟨p.world, p.tasks ++ [t]⟩ := by
  intro i u hu
  rcases Pool.getElem?_append_cases hu with ⟨rfl, rfl⟩ | hu
  · exact ht
  · exact h i u hu

/-- One step: the task's own new state, and the others in the new world. -/
theorem Pool.All.set {I : W → Nat → T → Prop} {p : Pool W T} {w : W} {i : Nat} {t t' : T}
    (hi : p.tasks[i]? = some t) (own : I w i t')
    (others : ∀ j u, j ≠ i → p.tasks[j]? = some u → I w j u) :
    Pool.All I ⟨w, p.tasks.set i t'⟩ := by
  intro j u hu
  rcases Pool.getElem?_set_cases hi hu with ⟨rfl, rfl⟩ | ⟨hj, hu⟩
  · exact own
  · exact others j u hj hu

/-- A step of the environment: each task's new state in the new world. -/
theorem Pool.All.map {I : W → Nat → T → Prop} {p : Pool W T} {w : W} {f : T → T}
    (h : ∀ i t, p.tasks[i]? = some t → I w i (f t)) : Pool.All I ⟨w, p.tasks.map f⟩ := by
  intro i u hu
  rw [List.getElem?_map] at hu
  obtain ⟨t, ht, rfl⟩ := Option.map_eq_some_iff.mp hu
  exact h i t ht

/-! ## Weights -/

/-- The sum of a weight over the tasks. -/
def Pool.total (f : T → Nat) : List T → Nat
  | [] => 0
  | t :: ts => f t + Pool.total f ts

section
variable {f : T → Nat} {ts us : List T} {i j : Nat} {t u : T}

@[simp] theorem Pool.total_nil (f : T → Nat) : Pool.total f [] = 0 := rfl

@[simp] theorem Pool.total_cons : Pool.total f (t :: ts) = f t + Pool.total f ts := rfl

theorem Pool.total_append : Pool.total f (ts ++ us) = Pool.total f ts + Pool.total f us := by
  induction ts with
  | nil => simp
  | cons a ts ih =>
    simp only [List.cons_append, total_cons, ih]
    omega

@[simp] theorem Pool.total_singleton : Pool.total f [t] = f t := by simp

/-- One step changes one summand. -/
theorem Pool.total_set (t' : T) (h : ts[i]? = some t) :
    Pool.total f (ts.set i t') + f t = Pool.total f ts + f t' := by
  induction ts generalizing i with
  | nil => cases h
  | cons a ts ih =>
    cases i with
    | zero =>
      cases h
      simp only [List.set_cons_zero, total_cons]
      omega
    | succ i =>
      have := ih (i := i) h
      simp only [List.set_cons_succ, total_cons]
      omega

/-- The weight of one task is at most the sum. -/
theorem Pool.le_total (h : ts[i]? = some t) : f t ≤ Pool.total f ts := by
  induction ts generalizing i with
  | nil => cases h
  | cons a ts ih =>
    rw [total_cons]
    cases i with
    | zero =>
      cases h
      exact Nat.le_add_right _ _
    | succ i =>
      have := ih (i := i) h
      omega

/-- Two tasks together weigh at most the sum. -/
theorem Pool.add_le_total (hij : i ≠ j) (hi : ts[i]? = some t) (hj : ts[j]? = some u) :
    f t + f u ≤ Pool.total f ts := by
  induction ts generalizing i j with
  | nil => cases hi
  | cons a ts ih =>
    rw [total_cons]
    cases i with
    | zero =>
      cases j with
      | zero => exact absurd rfl hij
      | succ j =>
        cases hi
        have hj : ts[j]? = some u := hj
        have := Pool.le_total (f := f) hj
        omega
    | succ i =>
      cases j with
      | zero =>
        cases hj
        have hi : ts[i]? = some t := hi
        have := Pool.le_total (f := f) hi
        omega
      | succ j =>
        have := ih (by omega) hi hj
        omega

/-- A weight that is zero on every task sums to zero. -/
theorem Pool.total_eq_zero (h : ∀ t ∈ ts, f t = 0) : Pool.total f ts = 0 := by
  induction ts with
  | nil => rfl
  | cons a ts ih =>
    rw [total_cons, h a List.mem_cons_self, ih fun t ht => h t (List.mem_cons_of_mem a ht)]

/-- The weight that counts tasks. -/
theorem Pool.total_toNat {b : T → Bool} : Pool.total (fun t => (b t).toNat) ts = ts.countP b := by
  induction ts with
  | nil => rfl
  | cons a ts ih =>
    rw [total_cons, ih, List.countP_cons]
    cases b a <;> simp [Nat.add_comm]

end

/-! ## One task at a time -/

/-- The shared world and the task that runs in it, if any: the sequential use of the same
tasks. -/
structure Solo (W : Type u) (T : Type v) where
  world : W
  current : Option T

/-- One step with at most one task in flight: a task arrives only when the one before has
`ended`. -/
def Coop.soloNext (C : Coop W T E X) (ended : T → Bool) (s : Solo W T) :
    Event T E X → Option (Solo W T)
  | .arrive t => if C.arrives t && s.current.all ended then some ⟨s.world, some t⟩ else none
  | .run i e => s.current.bind fun t => (C.step s.world i t e).map fun r => ⟨r.1, some r.2⟩
  | .env x => (C.env s.world x).map fun w => ⟨w, s.current.map (C.onTask x)⟩

/-- The tasks one after the other, from a world in `init`. -/
def Coop.solo (C : Coop W T E X) (ended : T → Bool) (init : W → Prop) :
    System (Solo W T) (Event T E X) where
  init s := init s.world ∧ s.current = none
  step := C.soloNext ended

/-- Inversion of one step of the sequential system. -/
theorem Coop.soloNext_cases {C : Coop W T E X} {ended : T → Bool} {s s' : Solo W T}
    {e : Event T E X} {motive : Solo W T → Prop} (h : C.soloNext ended s e = some s')
    (arrive : ∀ t, e = .arrive t → C.arrives t = true →
      (∀ u, s.current = some u → ended u = true) → motive ⟨s.world, some t⟩)
    (run : ∀ i ev t w t', e = .run i ev → s.current = some t →
      C.step s.world i t ev = some (w, t') → motive ⟨w, some t'⟩)
    (env : ∀ x w, e = .env x → C.env s.world x = some w →
      motive ⟨w, s.current.map (C.onTask x)⟩) : motive s' := by
  cases e with
  | arrive t =>
    rw [soloNext] at h
    split at h
    · rename_i ht
      cases h
      rw [Bool.and_eq_true] at ht
      refine arrive t rfl ht.1 fun u hu => ?_
      have := ht.2
      rw [hu] at this; exact this
    · cases h
  | run i ev =>
    obtain ⟨t, ht, h⟩ := Option.bind_eq_some_iff.mp h
    obtain ⟨⟨w, t'⟩, hstep, rfl⟩ := Option.map_eq_some_iff.mp h
    exact run i ev t w t' rfl ht hstep
  | env x =>
    obtain ⟨w, hw, rfl⟩ := Option.map_eq_some_iff.mp h
    exact env x w rfl hw

end
