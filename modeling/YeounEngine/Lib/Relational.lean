import Mathlib.Data.List.Nodup
import Mathlib.Logic.Function.Basic
import Mathlib.Order.Lattice

/-!
# Relational tables

A table is a list of rows with pairwise different keys (`Table`); the order of the rows means nothing. Each
statement keeps the keys different: `insert` asks for a new key, `delete` removes rows, and `update` does not
touch the key. So a row can be found by its key, and `find` after a statement is `find` before it but for the rows
that the statement is about.

Rows may refer to the rows of another table by its key (`Refers`); each statement keeps the references or says
what it needs. `orderBy` sorts rows; if they differ in what they are sorted by, the result is the same for every
order in which they come (`orderBy_eq_of_perm`).
-/

namespace Relational

universe u v w

/-- Rows with different keys. -/
structure Table {ρ : Type u} {κ : Type v} (key : ρ → κ) where
  rows : List ρ
  unique : (rows.map key).Nodup

namespace Table

section
variable {ρ : Type u} {κ : Type v} {key : ρ → κ}

/-! ## Statements -/

def empty : Table key := ⟨[], List.nodup_nil⟩

def keys (t : Table key) : List κ := t.rows.map key

/-- The rows that meet a condition. -/
def select (t : Table key) (p : ρ → Bool) : List ρ := t.rows.filter p

/-- The row with the key. -/
def find [DecidableEq κ] (t : Table key) (k : κ) : Option ρ := t.rows.find? fun r => key r = k

def insert (t : Table key) (r : ρ) (hnew : key r ∉ t.keys) : Table key where
  rows := t.rows ++ [r]
  unique := by
    rw [List.map_append]
    exact List.nodup_append.mpr ⟨t.unique, List.nodup_singleton _, fun k hk k' hk' heq =>
      hnew (List.mem_singleton.mp hk' ▸ heq ▸ hk)⟩

def delete (t : Table key) (p : ρ → Bool) : Table key where
  rows := t.rows.filter fun r => !p r
  unique := t.unique.sublist (List.filter_sublist.map key)

theorem map_key_update {p : ρ → Bool} {f : ρ → ρ} (hf : ∀ r, key (f r) = key r) (rows : List ρ) :
    (rows.map fun r => if p r then f r else r).map key = rows.map key := by
  rw [List.map_map]
  refine List.map_congr_left fun r _ => ?_
  rw [Function.comp_apply, apply_ite key, hf, ite_self]

/-- The rows that meet a condition are changed, but for their keys. -/
def update (t : Table key) (p : ρ → Bool) (f : ρ → ρ) (hf : ∀ r, key (f r) = key r) : Table key where
  rows := t.rows.map fun r => if p r then f r else r
  unique := (map_key_update hf t.rows).symm ▸ t.unique

theorem keys_update {t : Table key} {p : ρ → Bool} {f : ρ → ρ} {hf : ∀ r, key (f r) = key r} :
    (t.update p f hf).keys = t.keys := map_key_update hf t.rows

end

/-! ## Rows that are left -/

section
variable {ρ : Type u} {κ : Type v} {key : ρ → κ} {t : Table key} {p q : ρ → Bool}

theorem select_delete_self : (t.delete p).select p = [] := by
  refine List.filter_eq_nil_iff.mpr fun r hr hp => ?_
  have hkept := (List.mem_filter.mp hr).2
  rw [hp] at hkept
  cases hkept

/-- What is deleted is not selected. -/
theorem select_delete (h : ∀ r ∈ t.rows, q r = true → p r = false) : (t.delete p).select q = t.select q := by
  rw [select, select, delete, List.filter_filter]
  refine List.filter_congr fun r hr => ?_
  cases hq : q r with
  | false => rfl
  | true => rw [h r hr hq]; rfl

end

/-! ## The row with a key -/

section
variable {ρ : Type u} {κ : Type v} {key : ρ → κ} [DecidableEq κ] {t : Table key} {k k' : κ} {r : ρ}

theorem find_eq_some : t.find k = some r ↔ r ∈ t.rows ∧ key r = k := by
  constructor
  · intro h
    exact ⟨List.mem_of_find?_eq_some h, of_decide_eq_true (List.find?_some (p := fun r => decide (key r = k)) h)⟩
  · rintro ⟨hr, rfl⟩
    cases hfind : t.find (key r) with
    | none => exact absurd (decide_eq_true rfl) (List.find?_eq_none.mp hfind r hr)
    | some r' =>
      have hkey : key r' = key r := of_decide_eq_true (List.find?_some (p := fun s => decide (key s = key r)) hfind)
      rw [List.inj_on_of_nodup_map t.unique (List.mem_of_find?_eq_some hfind) hr hkey]

theorem isSome_find : (t.find k).isSome = true ↔ k ∈ t.keys := by
  rw [Option.isSome_iff_exists, keys, List.mem_map]
  exact exists_congr fun _ => find_eq_some

theorem find_delete_self : (t.delete fun r => key r = k).find k = none := by
  refine List.find?_eq_none.mpr fun r hr hkey => ?_
  have hkept : (!decide (key r = k)) = true := (List.mem_filter.mp hr).2
  rw [hkey] at hkept
  cases hkept

theorem find_delete_of_ne (hne : k' ≠ k) : (t.delete fun r => key r = k).find k' = t.find k' := by
  refine Option.ext fun r => ?_
  rw [find_eq_some, find_eq_some, delete, List.mem_filter]
  refine and_congr_left fun hkey => and_iff_left ?_
  rw [hkey, decide_eq_false hne]
  rfl

section
variable {f : ρ → ρ} (hf : ∀ r, key (f r) = key r)

theorem find_update_self : (t.update (fun r => key r = k) f hf).find k = (t.find k).map f := by
  refine Option.ext fun r => ?_
  rw [find_eq_some, update, List.mem_map, Option.map_eq_some_iff]
  constructor
  · rintro ⟨⟨r₀, hr₀, rfl⟩, hkey⟩
    rw [apply_ite key, hf, ite_self] at hkey
    exact ⟨r₀, find_eq_some.mpr ⟨hr₀, hkey⟩, (if_pos (decide_eq_true hkey)).symm⟩
  · rintro ⟨r₀, hr₀, rfl⟩
    obtain ⟨hmem, hkey⟩ := find_eq_some.mp hr₀
    exact ⟨⟨r₀, hmem, if_pos (decide_eq_true hkey)⟩, (hf r₀).trans hkey⟩

theorem find_update_of_ne (hne : k' ≠ k) : (t.update (fun r => key r = k) f hf).find k' = t.find k' := by
  refine Option.ext fun r => ?_
  rw [find_eq_some, find_eq_some, update, List.mem_map]
  refine and_congr_left fun hkey => ?_
  have hother : ∀ r₀, key r₀ = k' → (if decide (key r₀ = k) = true then f r₀ else r₀) = r₀ :=
    fun r₀ hr₀ => if_neg fun h => hne (hr₀.symm.trans (of_decide_eq_true h))
  constructor
  · rintro ⟨r₀, hmem, rfl⟩
    rw [apply_ite key, hf, ite_self] at hkey
    rw [hother r₀ hkey]
    exact hmem
  · intro hmem
    exact ⟨r, hmem, hother r hkey⟩

end

end

end Table

/-! ## References -/

section
variable {σ : Type w} {ρ : Type u} {κ : Type v} {key : ρ → κ} {rows rows' : List σ} {fk : σ → κ} {parents : Table key}

/-- Every row refers to a row of the table. -/
def Refers (rows : List σ) (fk : σ → κ) (parents : Table key) : Prop := ∀ r ∈ rows, fk r ∈ parents.keys

theorem Refers.subset (h : Refers rows fk parents) (hsub : rows' ⊆ rows) : Refers rows' fk parents :=
  fun r hr => h r (hsub hr)

/-- A new row may refer to a row that is there. -/
theorem Refers.concat {r : σ} (h : Refers rows fk parents) (hr : fk r ∈ parents.keys) :
    Refers (rows ++ [r]) fk parents := by
  intro r' hr'
  rcases List.mem_append.mp hr' with hr' | hr'
  · exact h r' hr'
  · cases List.mem_singleton.mp hr'
    exact hr

theorem Refers.update {p : ρ → Bool} {f : ρ → ρ} {hf : ∀ r, key (f r) = key r} (h : Refers rows fk parents) :
    Refers rows fk (parents.update p f hf) := by
  intro r hr
  rw [Table.keys_update]
  exact h r hr

/-- A row may go to which none refers. -/
theorem Refers.delete [DecidableEq κ] {k : κ} (h : Refers rows fk parents) (hfree : ∀ r ∈ rows, fk r ≠ k) :
    Refers rows fk (parents.delete fun r => key r = k) := by
  intro r hr
  rw [← Table.isSome_find, Table.find_delete_of_ne (hfree r hr), Table.isSome_find]
  exact h r hr

end

/-! ## Sorted rows -/

section
variable {ρ : Type u} {β : Type v} [LinearOrder β] {f : ρ → β} {rows rows' : List ρ}

/-- The rows in the order of what `f` gives. -/
def orderBy (f : ρ → β) (rows : List ρ) : List ρ := rows.mergeSort fun r r' => f r ≤ f r'

theorem orderBy_perm : (orderBy f rows).Perm rows := List.mergeSort_perm _ _

theorem pairwise_orderBy : (orderBy f rows).Pairwise fun r r' => f r ≤ f r' := by
  have hsorted : (orderBy f rows).Pairwise fun r r' => decide (f r ≤ f r') = true := by
    refine List.pairwise_mergeSort (fun a b c hab hbc => ?_) (fun a b => ?_) rows
    · exact decide_eq_true (le_trans (of_decide_eq_true hab) (of_decide_eq_true hbc))
    · rw [Bool.or_eq_true, decide_eq_true_eq, decide_eq_true_eq]
      exact le_total _ _
  exact hsorted.imp of_decide_eq_true

/-- Rows that differ in what they are sorted by have one order. -/
theorem orderBy_eq_of_perm (h : rows.Perm rows') (hf : (rows.map f).Nodup) : orderBy f rows = orderBy f rows' := by
  refine List.Perm.eq_of_pairwise (fun r r' hr hr' hle hge => ?_) pairwise_orderBy pairwise_orderBy
    ((orderBy_perm.trans h).trans orderBy_perm.symm)
  exact List.inj_on_of_nodup_map hf (orderBy_perm.mem_iff.mp hr) (h.mem_iff.mpr (orderBy_perm.mem_iff.mp hr'))
    (le_antisymm hle hge)

end

end Relational
