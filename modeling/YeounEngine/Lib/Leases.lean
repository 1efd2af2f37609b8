import Mathlib.Data.List.Induction
import Mathlib.Logic.Function.Basic

/-!
# Leases

A lease is granted under a key and stamped with a time; a renewal may raise the stamp, the holder may give the lease
up, and a sweep at the time `s` takes the leases whose stamps are before `s - ttl`. `Table` is what is there, and
`replay` what is there after a history.

Which leases there are can be read off the history without a table (`Lives`): a lease has been granted, since then
it has neither been granted again nor given up, and at every sweep since then it had a stamp that was recent enough
(`replay_isSome_iff`). And if the times do not go back, no lease is there whose stamp was too old for the last
sweep (`SweptAt.apply`).
-/

namespace Lease

universe u

/-- What happens to the leases. -/
inductive Entry (κ : Type u)
  | granted (k : κ) (t : Nat)
  | renewed (k : κ) (t : Nat)
  | ended (k : κ)
  | swept (t : Nat)

/-- The stamps of the leases that are there. -/
abbrev Table (κ : Type u) := κ → Option Nat

section
variable {κ : Type u} [DecidableEq κ]

def Table.apply (ttl : Nat) (T : Table κ) : Entry κ → Table κ
  | .granted k t => Function.update T k (some t)
  | .renewed k t => Function.update T k ((T k).map (max t))
  | .ended k => Function.update T k none
  | .swept s => fun k => (T k).filter fun n => s ≤ n + ttl

/-- The leases after a history. -/
def replay (ttl : Nat) (es : List (Entry κ)) : Table κ := es.foldl (Table.apply ttl) fun _ => none

/-- The stamp that the entry gives to the lease of the key. -/
def Entry.renews (k : κ) : Entry κ → Option Nat
  | .renewed k' t => if k' = k then some t else none
  | _ => none

/-- The stamps of a lease of the key that was granted at `t`. -/
def stamps (k : κ) (t : Nat) (es : List (Entry κ)) : List Nat := t :: es.filterMap (Entry.renews k)

/-- A lease that was granted at `t` is still there. -/
structure Kept (ttl : Nat) (k : κ) (t : Nat) (es : List (Entry κ)) : Prop where
  granted : ∀ t', .granted k t' ∉ es
  ended : .ended k ∉ es
  swept : ∀ es₁ s es₂, es = es₁ ++ .swept s :: es₂ → ∃ n ∈ stamps k t es₁, s ≤ n + ttl

/-- There is a lease of the key after the history. -/
def Lives (ttl : Nat) (k : κ) (es : List (Entry κ)) : Prop :=
  ∃ es₁ t es₂, es = es₁ ++ .granted k t :: es₂ ∧ Kept ttl k t es₂

/-- The stamp is the last one. -/
def Latest (k : κ) (t : Nat) (es : List (Entry κ)) (n : Nat) : Prop :=
  n ∈ stamps k t es ∧ ∀ m ∈ stamps k t es, m ≤ n

variable {ttl t n s : Nat} {k : κ} {e : Entry κ} {es es₁ es₂ : List (Entry κ)} {T : Table κ}

/-! ## One entry more -/

theorem replay_concat : replay ttl (es ++ [e]) = (replay ttl es).apply ttl e := by
  rw [replay, List.foldl_append]
  rfl

theorem stamps_concat : stamps k t (es ++ [e]) = stamps k t es ++ (e.renews k).toList := by
  cases h : e.renews k <;> simp [stamps, h]

/-- An entry that gives no stamp. -/
theorem Latest.concat (h : Latest k t es n) (he : e.renews k = none) : Latest k t (es ++ [e]) n := by
  rw [Latest, stamps_concat, he]
  simpa [Latest] using h

theorem Latest.renewed {m : Nat} (h : Latest k t es n) : Latest k t (es ++ [.renewed k m]) (max m n) := by
  have hrenews : Entry.renews k (.renewed k m) = some m := if_pos rfl
  rw [Latest, stamps_concat, hrenews]
  refine ⟨?_, fun m' hm' => ?_⟩
  · rcases Nat.le_total m n with hle | hle
    · rw [Nat.max_eq_right hle]
      exact List.mem_append_left _ h.1
    · rw [Nat.max_eq_left hle]
      simp
  · rcases List.mem_append.mp hm' with hm' | hm'
    · have hle := h.2 m' hm'
      omega
    · simp only [Option.toList_some, List.mem_singleton] at hm'
      omega

/-- The last stamp decides. -/
theorem Latest.exists_iff (h : Latest k t es n) : (∃ m ∈ stamps k t es, s ≤ m + ttl) ↔ s ≤ n + ttl := by
  constructor
  · rintro ⟨m, hm, hle⟩
    have hmn := h.2 m hm
    omega
  · exact fun hle => ⟨n, h.1, hle⟩

/-- What an entry must be for the lease to be there afterwards. -/
def Entry.Spares (ttl : Nat) (k : κ) (n : Nat) : Entry κ → Prop
  | .granted k' _ | .ended k' => k' ≠ k
  | .renewed _ _ => True
  | .swept s => s ≤ n + ttl

theorem Kept.of_concat (h : Kept ttl k t (es ++ [e])) : Kept ttl k t es where
  granted t' ht := h.granted t' (List.mem_append_left _ ht)
  ended hk := h.ended (List.mem_append_left _ hk)
  swept es₁ s es₂ hes := h.swept es₁ s (es₂ ++ [e]) (by rw [hes]; simp)

/-- One entry more spares the lease or does not. -/
theorem kept_concat_iff (hn : Latest k t es n) : Kept ttl k t (es ++ [e]) ↔ Kept ttl k t es ∧ e.Spares ttl k n := by
  constructor
  · intro h
    refine ⟨h.of_concat, ?_⟩
    cases e with
    | granted k' t' =>
      rintro rfl
      exact h.granted t' (by simp)
    | renewed => trivial
    | ended k' =>
      rintro rfl
      exact h.ended (by simp)
    | swept s => exact hn.exists_iff.mp (h.swept es s [] rfl)
  · rintro ⟨h, hspares⟩
    refine ⟨fun t' ht => ?_, fun hk => ?_, fun es₁ s es₂ hes => ?_⟩
    · rcases List.mem_append.mp ht with ht | ht
      · exact h.granted t' ht
      · cases List.mem_singleton.mp ht
        exact hspares rfl
    · rcases List.mem_append.mp hk with hk | hk
      · exact h.ended hk
      · cases List.mem_singleton.mp hk
        exact hspares rfl
    · -- the sweep is the new entry, or one before it
      rcases List.eq_nil_or_concat es₂ with rfl | ⟨es₃, e', rfl⟩
      · obtain ⟨rfl, he⟩ := List.append_inj' hes rfl
        cases he
        exact hn.exists_iff.mpr hspares
      · rw [List.concat_eq_append, ← List.cons_append, ← List.append_assoc] at hes
        exact h.swept es₁ s es₃ (List.append_inj' hes rfl).1

/-! ## The table and the history -/

theorem kept_nil : Kept ttl k t [] := by
  refine ⟨fun _ h => (by cases h), fun h => (by cases h), fun es₁ s es₂ h => ?_⟩
  cases es₁ <;> cases h

theorem latest_nil : Latest k t [] t := by
  simp [Latest, stamps]

/-- A lease that is kept has its last stamp. -/
theorem replay_of_kept (h : Kept ttl k t es₂) :
    ∃ n, replay ttl (es₁ ++ .granted k t :: es₂) k = some n ∧ Latest k t es₂ n := by
  induction es₂ using List.reverseRecOn with
  | nil =>
    refine ⟨t, ?_, latest_nil⟩
    rw [replay_concat]
    exact Function.update_self k _ _
  | append_singleton es e ih =>
    obtain ⟨n, hn, hlatest⟩ := ih h.of_concat
    obtain ⟨-, hspares⟩ := (kept_concat_iff hlatest).mp h
    rw [← List.cons_append, ← List.append_assoc, replay_concat]
    cases e with
    | granted k' t' => exact ⟨n, (Function.update_of_ne (Ne.symm hspares) _ _).trans hn, hlatest.concat rfl⟩
    | ended k' => exact ⟨n, (Function.update_of_ne (Ne.symm hspares) _ _).trans hn, hlatest.concat rfl⟩
    | renewed k' m =>
      by_cases hk : k' = k
      · subst hk
        refine ⟨max m n, ?_, hlatest.renewed⟩
        rw [Table.apply, Function.update_self, hn]
        rfl
      · exact ⟨n, (Function.update_of_ne (Ne.symm hk) _ _).trans hn, hlatest.concat (if_neg hk)⟩
    | swept s =>
      refine ⟨n, ?_, hlatest.concat rfl⟩
      have hs : s ≤ n + ttl := hspares
      simp [Table.apply, hn, hs]

/-- What is in the table was granted, and has been kept. -/
theorem kept_of_replay (h : replay ttl es k = some n) :
    ∃ es₁ t es₂, es = es₁ ++ .granted k t :: es₂ ∧ Kept ttl k t es₂ ∧ Latest k t es₂ n := by
  induction es using List.reverseRecOn generalizing n with
  | nil => cases h
  | append_singleton es e ih =>
    rw [replay_concat] at h
    -- the lease that was there before has been spared
    have spared : ∀ m, replay ttl es k = some m → e.Spares ttl k m →
        (∀ t es₂, Latest k t es₂ m → Latest k t (es₂ ++ [e]) n) →
        ∃ es₁ t es₂, es ++ [e] = es₁ ++ .granted k t :: es₂ ∧ Kept ttl k t es₂ ∧ Latest k t es₂ n := by
      intro m hm hspares hlatest
      obtain ⟨es₁, t, es₂, rfl, hkept, hm⟩ := ih hm
      exact ⟨es₁, t, es₂ ++ [e], by simp, (kept_concat_iff hm).mpr ⟨hkept, hspares⟩, hlatest t es₂ hm⟩
    cases e with
    | granted k' t =>
      by_cases hk : k' = k
      · subst hk
        rw [Table.apply, Function.update_self] at h
        cases h
        exact ⟨es, n, [], rfl, kept_nil, latest_nil⟩
      · rw [Table.apply, Function.update_of_ne (Ne.symm hk)] at h
        exact spared n h hk fun t es₂ hl => hl.concat rfl
    | ended k' =>
      by_cases hk : k' = k
      · subst hk
        rw [Table.apply, Function.update_self] at h
        cases h
      · rw [Table.apply, Function.update_of_ne (Ne.symm hk)] at h
        exact spared n h hk fun t es₂ hl => hl.concat rfl
    | renewed k' t =>
      by_cases hk : k' = k
      · subst hk
        rw [Table.apply, Function.update_self] at h
        obtain ⟨m, hm, rfl⟩ := Option.map_eq_some_iff.mp h
        exact spared m hm trivial fun t es₂ hl => hl.renewed
      · rw [Table.apply, Function.update_of_ne (Ne.symm hk)] at h
        exact spared n h trivial fun t es₂ hl => hl.concat (if_neg hk)
    | swept s =>
      obtain ⟨hn, hs⟩ := Option.filter_eq_some_iff.mp h
      have hle : s ≤ n + ttl := of_decide_eq_true hs
      exact spared n hn hle fun t es₂ hl => hl.concat rfl

/-- The stamp of a lease is the time of an entry for it. -/
theorem mem_of_replay (h : replay ttl es k = some n) : .granted k n ∈ es ∨ .renewed k n ∈ es := by
  obtain ⟨es₁, t, es₂, rfl, -, hn, -⟩ := kept_of_replay h
  rcases List.mem_cons.mp hn with rfl | hn
  · exact .inl (List.mem_append_right _ List.mem_cons_self)
  · obtain ⟨e, he, hrenews⟩ := List.mem_filterMap.mp hn
    unfold Entry.renews at hrenews
    split at hrenews
    · obtain ⟨rfl, heq⟩ := Option.ite_none_right_eq_some.mp hrenews
      cases heq
      exact .inr (List.mem_append_right _ (List.mem_cons_of_mem _ he))
    · cases hrenews

/-- The table by the history. -/
theorem replay_isSome_iff : (replay ttl es k).isSome = true ↔ Lives ttl k es := by
  rw [Option.isSome_iff_exists]
  constructor
  · rintro ⟨n, hn⟩
    obtain ⟨es₁, t, es₂, hes, hkept, -⟩ := kept_of_replay hn
    exact ⟨es₁, t, es₂, hes, hkept⟩
  · rintro ⟨es₁, t, es₂, rfl, hkept⟩
    obtain ⟨n, hn, -⟩ := replay_of_kept hkept
    exact ⟨n, hn⟩

/-! ## How old a stamp can be -/

/-- No stamp is too old for a sweep at `s`. -/
def Table.SweptAt (ttl s : Nat) (T : Table κ) : Prop := ∀ k n, T k = some n → s ≤ n + ttl

/-- Leases that are granted later are not too old either. -/
theorem Table.SweptAt.apply (h : T.SweptAt ttl s) (he : ∀ k t, e = .granted k t → s ≤ t) :
    (T.apply ttl e).SweptAt ttl s := by
  intro k n hn
  cases e with
  | granted k' t =>
    have hst := he k' t rfl
    rw [Table.apply, Function.update_apply] at hn
    split at hn
    · cases hn
      omega
    · exact h k n hn
  | renewed k' t =>
    rw [Table.apply, Function.update_apply] at hn
    split at hn
    · obtain ⟨m, hm, rfl⟩ := Option.map_eq_some_iff.mp hn
      have hle := h k' m hm
      omega
    · exact h k n hn
  | ended k' =>
    rw [Table.apply, Function.update_apply] at hn
    split at hn
    · cases hn
    · exact h k n hn
  | swept s' => exact h k n (Option.filter_eq_some_iff.mp hn).1

/-- A sweep does it. -/
theorem sweptAt_swept : (T.apply ttl (.swept s)).SweptAt ttl s :=
  fun _ _ hn => of_decide_eq_true (Option.filter_eq_some_iff.mp hn).2

end

end Lease
