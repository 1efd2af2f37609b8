import YeounEngine.Conversation
import Mathlib.Algebra.GroupWithZero.Nat

/-!
# The history that the model is given

`_trim_history` goes back from the newest message and keeps messages until one does not fit into one of two
budgets. What it keeps is the longest end of the history that fits into both (`trimHistory_longest`): every end
of an end that fits does so too, so nothing beyond the first message that does not fit could be kept.
-/

namespace YeounEngine

/-- A record without its time. -/
def MessageRecord.shown (m : MessageRecord) : HistoryMessage := ⟨m.role, m.text⟩

/-- The characters of some records. -/
def chars (ms : List MessageRecord) : Nat := (ms.map fun m => m.text.length).sum

/-- The records fit into both budgets. -/
structure AdmissibleWindow (maxChars maxMessages : Nat) (ms : List MessageRecord) : Prop where
  count : ms.length ≤ maxMessages
  size : chars ms ≤ maxChars

instance (maxChars maxMessages : Nat) (ms : List MessageRecord) :
    Decidable (AdmissibleWindow maxChars maxMessages ms) :=
  decidable_of_iff (ms.length ≤ maxMessages ∧ chars ms ≤ maxChars) ⟨fun h => ⟨h.1, h.2⟩, fun h => ⟨h.1, h.2⟩⟩

section
variable {maxChars maxMessages : Nat} {m : MessageRecord} {ms ms' : List MessageRecord}

@[simp] theorem chars_nil : chars [] = 0 := rfl

@[simp] theorem chars_cons : chars (m :: ms) = m.text.length + chars ms := rfl

@[simp] theorem chars_append : chars (ms ++ ms') = chars ms + chars ms' := by
  simp [chars]

@[simp] theorem chars_reverse : chars ms.reverse = chars ms := by
  simp [chars, List.sum_reverse]

theorem admissibleWindow_nil : AdmissibleWindow maxChars maxMessages [] := ⟨Nat.zero_le _, Nat.zero_le _⟩

/-- The end of records that fit does so too. -/
theorem AdmissibleWindow.of_suffix (h : AdmissibleWindow maxChars maxMessages ms) (hs : ms' <:+ ms) :
    AdmissibleWindow maxChars maxMessages ms' := by
  obtain ⟨older, rfl⟩ := hs
  obtain ⟨hcount, hsize⟩ := h
  rw [List.length_append] at hcount
  rw [chars_append] at hsize
  exact ⟨by omega, by omega⟩

end

/-- The loop, with `kept.length` and `total` of the budgets used up: it takes the records that fit into the rest, up
to the first that does not. -/
theorem trimHistoryLoop_eq (maxChars maxMessages : Nat) (rev : List MessageRecord) (kept : List HistoryMessage)
    (total : Nat) : ∃ taken rest, rev = taken ++ rest ∧
      trimHistoryLoop maxChars maxMessages rev kept total = kept ++ taken.map MessageRecord.shown ∧
      (taken ≠ [] → kept.length + taken.length ≤ maxMessages ∧ total + chars taken ≤ maxChars) ∧
      ∀ m rest', rest = m :: rest' →
        maxChars < total + chars (taken ++ [m]) ∨ maxMessages < kept.length + (taken ++ [m]).length := by
  induction rev generalizing kept total with
  | nil =>
    refine ⟨[], [], rfl, (List.append_nil kept).symm, fun h => absurd rfl h, ?_⟩
    rintro m rest' ⟨⟩
  | cons msg rev ih =>
    rw [trimHistoryLoop]
    split
    · rename_i hover
      refine ⟨[], msg :: rev, rfl, (List.append_nil kept).symm, fun h => absurd rfl h, ?_⟩
      rintro m rest' ⟨⟩
      simp only [List.nil_append, chars_cons, chars_nil, List.length_singleton]
      omega
    · rename_i hfits
      obtain ⟨taken, rest, rfl, hloop, htaken, hover⟩ :=
        ih (kept ++ [⟨msg.role, msg.text⟩]) (total + msg.text.length)
      refine ⟨msg :: taken, rest, rfl, ?_, fun _ => ?_, fun m rest' h => ?_⟩
      · rw [hloop, List.append_assoc]
        rfl
      · cases taken with
        | nil =>
          simp only [List.length_singleton, chars_cons, chars_nil]
          omega
        | cons first taken =>
          have hmore := htaken (List.cons_ne_nil first taken)
          simp only [List.length_append, List.length_cons, List.length_nil, chars_cons] at hmore ⊢
          omega
      · have hmore := hover m rest' h
        simp only [List.length_append, List.length_cons, List.length_nil, List.cons_append, chars_cons] at hmore ⊢
        omega

/-- The end of the history that is kept fits, and with one more record it would not. -/
theorem trimHistory_eq (maxChars maxMessages : Nat) (history : List MessageRecord) :
    ∃ older newer, history = older ++ newer ∧
      trimHistory maxChars maxMessages history = newer.map MessageRecord.shown ∧
      AdmissibleWindow maxChars maxMessages newer ∧
      ∀ older' m, older = older' ++ [m] → ¬ AdmissibleWindow maxChars maxMessages (m :: newer) := by
  obtain ⟨taken, rest, hrev, hloop, htaken, hover⟩ := trimHistoryLoop_eq maxChars maxMessages history.reverse [] 0
  refine ⟨rest.reverse, taken.reverse, ?_, ?_, ?_, fun older' m h hfits => ?_⟩
  · rw [← List.reverse_append, ← hrev, List.reverse_reverse]
  · rw [trimHistory, hloop, List.nil_append, List.map_reverse]
  · by_cases hnil : taken = []
    · subst hnil
      exact admissibleWindow_nil
    · obtain ⟨hcount, hsize⟩ := htaken hnil
      rw [List.length_nil, Nat.zero_add] at hcount
      rw [Nat.zero_add] at hsize
      exact ⟨by rwa [List.length_reverse], by rwa [chars_reverse]⟩
  · have hrest : rest = m :: older'.reverse := by
      have := congrArg List.reverse h
      rwa [List.reverse_reverse, List.reverse_append] at this
    obtain ⟨hcount, hsize⟩ := hfits
    have hmore := hover m older'.reverse hrest
    simp only [List.length_cons, List.length_reverse, chars_cons, chars_reverse] at hcount hsize
    simp only [List.length_append, List.length_cons, List.length_nil, chars_append, chars_cons, chars_nil] at hmore
    omega

/-- What is kept is the longest end of the history that fits into both budgets, in its order. -/
theorem trimHistory_longest (maxChars maxMessages : Nat) (history : List MessageRecord) :
    ∃ kept, kept <:+ history ∧ trimHistory maxChars maxMessages history = kept.map MessageRecord.shown ∧
      AdmissibleWindow maxChars maxMessages kept ∧
      ∀ longer, longer <:+ history → kept.length < longer.length → ¬ AdmissibleWindow maxChars maxMessages longer := by
  obtain ⟨older, kept, rfl, htrim, hfits, hover⟩ := trimHistory_eq maxChars maxMessages history
  refine ⟨kept, List.suffix_append older kept, htrim, hfits, fun longer hlonger hlength hadmissible => ?_⟩
  -- A longer end goes beyond what is kept, so it ends with the record that did not fit.
  obtain ⟨between, rfl⟩ := List.suffix_of_suffix_length_le (List.suffix_append older kept) hlonger hlength.le
  rcases List.eq_nil_or_concat between with rfl | ⟨front, m, rfl⟩
  · exact absurd hlength (Nat.lt_irrefl _)
  · rw [List.concat_eq_append, List.append_assoc] at hlonger hadmissible
    obtain ⟨older', holder⟩ := hlonger
    have hcut : older = (older' ++ front) ++ [m] := by
      rw [← List.append_assoc, ← List.append_assoc] at holder
      exact (List.append_cancel_right holder).symm
    exact hover _ m hcut (hadmissible.of_suffix (List.suffix_append front ([m] ++ kept)))

end YeounEngine
