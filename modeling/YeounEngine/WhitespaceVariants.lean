import YeounEngine.Safety
import Mathlib.Data.List.Infix

/-!
# Keywords and whitespace

Both guards compare normal forms without blanks and tabs. The other whitespace of a text stays in its normal
form, so a line break inside a keyword hides it.

`sameGuards_iff` says for which texts that matters: when some whitespace is inserted and removed anywhere,
what the guards find stays the same exactly when that whitespace is blanks and tabs, or when the text has no
keyword to hide.
-/

namespace YeounEngine

/-! ## The property -/

/-- The text without the characters of the class. -/
def without (removed : Char → Bool) (text : String) : List Char := text.toList.filter fun c => !removed c

/-- Both guards find the same in two texts. -/
structure SameGuards (U : CaseTable) (text text' : String) : Prop where
  crisis : (checkCrisis U text').matched = (checkCrisis U text).matched ∧
    (checkCrisis U text').matchedKeyword = (checkCrisis U text).matchedKeyword
  response : (filterResponse U text').matched = (filterResponse U text).matched ∧
    (filterResponse U text').matchedKeyword = (filterResponse U text).matchedKeyword

/-! ## The condition -/

/-- The two characters that `normalize` removes. -/
def isBlankOrTab (c : Char) : Bool := c = ' ' || c = '\t'

/-- No keyword is in the text, when the characters of the class, blanks and tabs are removed. -/
def KeywordFree (removed : Char → Bool) (text : String) : Prop :=
  ∀ k ∈ crisisKeywords ++ forbiddenTopicKeywords,
    ¬ without isBlankOrTab k <:+: without (fun c => removed c || isBlankOrTab c) text

/-! ## Hangul in lower case -/

section
variable {U : CaseTable} {k s : List Char} {c : Char}

/-- What `lower` writes for a character at its place. -/
theorem lowerFrom_cons (before : List Char) : ∃ block, lowerFrom U before (c :: s) =
    block ++ lowerFrom U (c :: before) s ∧ block ≠ [] ∧ (isHangul c = true → block = [c]) ∧
      (isHangul c = false → ∀ d ∈ block, isHangul d = false) := by
  rw [lowerFrom]
  split
  · rename_i hσ
    subst hσ
    refine ⟨_, rfl, by simp, fun h => absurd h (by decide), fun _ d hd => ?_⟩
    rw [List.mem_singleton] at hd
    rw [hd]
    split <;> decide
  · refine ⟨_, rfl, U.lowerOf_ne_nil c, fun h => U.lowerOf_hangul c h, fun h d hd => ?_⟩
    cases hd' : isHangul d with
    | false => rfl
    | true => rw [U.of_lowerOf_hangul c d hd hd', h] at hd'; cases hd'

/-- A Hangul text at the beginning, in lower case or not. -/
theorem prefix_lowerFrom (hk : ∀ d ∈ k, isHangul d = true) (before : List Char) :
    k <+: lowerFrom U before s ↔ k <+: s := by
  induction k generalizing s before with
  | nil => simp
  | cons d k ih =>
    obtain ⟨hd, hk⟩ := List.forall_mem_cons.mp hk
    cases s with
    | nil => simp [lowerFrom]
    | cons c s =>
      obtain ⟨block, hlower, hne, hhangul, hother⟩ := lowerFrom_cons (U := U) (c := c) (s := s) before
      rw [hlower]
      cases hc : isHangul c with
      | true =>
        rw [hhangul hc, List.singleton_append, List.cons_prefix_cons, List.cons_prefix_cons, ih hk _]
      | false =>
        obtain ⟨b, block', rfl⟩ := List.exists_cons_of_ne_nil hne
        have hb := hother hc b List.mem_cons_self
        have hdb : d ≠ b := by rintro rfl; rw [hd] at hb; cases hb
        have hdc : d ≠ c := by rintro rfl; rw [hd] at hc; cases hc
        simp [List.cons_prefix_cons, hdb, hdc]

/-- Lower-casing neither makes nor breaks an occurrence of a Hangul text. -/
theorem infix_lower (hk : ∀ d ∈ k, isHangul d = true) : k <:+: lower U s ↔ k <:+: s := by
  suffices ∀ before, k <:+: lowerFrom U before s ↔ k <:+: s from this []
  cases k with
  | nil => intro _; simp
  | cons d k =>
    have hd : isHangul d = true := hk d List.mem_cons_self
    induction s with
    | nil => intro _; rfl
    | cons c s ih =>
      intro before
      have hstart := prefix_lowerFrom (U := U) (s := c :: s) hk before
      obtain ⟨block, hlower, -, hhangul, hother⟩ := lowerFrom_cons (U := U) (c := c) (s := s) before
      rw [hlower] at hstart ⊢
      rw [List.infix_cons_iff, ← hstart, ← ih (c :: before)]
      cases hc : isHangul c with
      | true => rw [hhangul hc, List.singleton_append, List.infix_cons_iff]
      | false =>
        -- the occurrence does not begin in the block of `c`
        have hblock : ∀ {block rest : List Char}, (∀ b ∈ block, isHangul b = false) →
            (d :: k <:+: block ++ rest ↔ d :: k <:+: rest) := by
          intro block rest hb
          induction block with
          | nil => rfl
          | cons b block ihb =>
            obtain ⟨hb, hblock⟩ := List.forall_mem_cons.mp hb
            have hdb : d ≠ b := by rintro rfl; rw [hd] at hb; cases hb
            rw [List.cons_append, List.infix_cons_iff, ihb hblock, List.cons_prefix_cons]
            simp [hdb]
        rw [hblock (hother hc)]
        exact ⟨.inr, fun h => h.elim (fun hp => (hblock (hother hc)).mp hp.isInfix) id⟩

end

/-! ## What the guards find -/

section
variable {U : CaseTable} {text text' k : String} {removed : Char → Bool} {c : Char}

/-- Without blanks and tabs, every keyword is Hangul and has two letters or more. -/
theorem keyword_hangul (h : k ∈ crisisKeywords ++ forbiddenTopicKeywords) :
    (∀ d ∈ without isBlankOrTab k, isHangul d = true) ∧ 2 ≤ (without isBlankOrTab k).length := by
  have table : ((crisisKeywords ++ forbiddenTopicKeywords).all fun k =>
      (without isBlankOrTab k).all isHangul && decide (2 ≤ (without isBlankOrTab k).length)) = true := by decide
  have hk := List.all_eq_true.mp table k h
  rw [Bool.and_eq_true, List.all_eq_true, decide_eq_true_eq] at hk
  exact hk

theorem normalize_eq : normalize U text = lower U (without isBlankOrTab text) := by
  rw [normalize, without, List.filter_filter]
  congr 2
  funext c
  simp [isBlankOrTab, Bool.and_comm]

/-- Hangul has no lower case. -/
theorem lower_hangul {s : List Char} (h : ∀ d ∈ s, isHangul d = true) : lower U s = s := by
  have hplain : ∀ d ∈ s, isPlain d = true := fun d hd => by rw [isPlain, h d hd, Bool.or_true]
  rw [lower_plain U hplain]
  exact (List.map_congr_left fun d hd => toLower_of_hangul (h d hd)).trans (List.map_id s)

/-- What a guard looks for, in the characters of the text. -/
theorem occurs_iff (h : k ∈ crisisKeywords ++ forbiddenTopicKeywords) :
    (normalize U k ≠ [] ∧ normalize U k <:+: normalize U text) ↔
      without isBlankOrTab k <:+: without isBlankOrTab text := by
  obtain ⟨hhangul, hlength⟩ := keyword_hangul h
  have hne : without isBlankOrTab k ≠ [] := List.ne_nil_of_length_pos (by omega)
  rw [normalize_eq, normalize_eq, lower_hangul hhangul, infix_lower hhangul]
  exact and_iff_right hne

/-- The first keyword that occurs; the empty text is no special case. -/
theorem firstKeyword_eq {keywords : List String} (h : keywords ⊆ crisisKeywords ++ forbiddenTopicKeywords) :
    firstKeyword U keywords text =
      keywords.find? fun k => decide (without isBlankOrTab k <:+: without isBlankOrTab text) := by
  have hfind : (keywords.find? fun k => decide (normalize U k ≠ [] ∧ normalize U k <:+: normalize U text)) =
      keywords.find? fun k => decide (without isBlankOrTab k <:+: without isBlankOrTab text) :=
    List.find?_congr fun k hk => decide_eq_decide.mpr (occurs_iff (h hk))
  rw [firstKeyword, hfind]
  split
  · rename_i hempty
    refine (List.find?_eq_none.mpr fun k hk => ?_).symm
    rw [decide_eq_true_eq]
    intro hocc
    have hnil : without isBlankOrTab text = [] := by rw [without, hempty, List.filter_nil]
    rw [hnil, List.infix_nil] at hocc
    have hlength := (keyword_hangul (h hk)).2
    rw [hocc] at hlength
    cases hlength
  · rfl

theorem crisis_subset : crisisKeywords ⊆ crisisKeywords ++ forbiddenTopicKeywords :=
  List.subset_append_left _ _

theorem forbidden_subset : forbiddenTopicKeywords ⊆ crisisKeywords ++ forbiddenTopicKeywords :=
  List.subset_append_right _ _

/-- A guard matches a text that has one of its keywords. -/
theorem matched_checkCrisis : (checkCrisis U text).matched = true ↔
    ∃ k ∈ crisisKeywords, without isBlankOrTab k <:+: without isBlankOrTab text := by
  have hfind : (crisisKeywords.find? fun k =>
      decide (without isBlankOrTab k <:+: without isBlankOrTab text)).isSome = true ↔ _ := List.find?_isSome
  simp only [decide_eq_true_eq] at hfind
  rw [← hfind, checkCrisis, firstKeyword_eq crisis_subset]
  split <;> rename_i h <;> rw [h] <;> simp

theorem matched_filterResponse : (filterResponse U text).matched = true ↔
    ∃ k ∈ forbiddenTopicKeywords, without isBlankOrTab k <:+: without isBlankOrTab text := by
  have hfind : (forbiddenTopicKeywords.find? fun k =>
      decide (without isBlankOrTab k <:+: without isBlankOrTab text)).isSome = true ↔ _ := List.find?_isSome
  simp only [decide_eq_true_eq] at hfind
  rw [← hfind, filterResponse, firstKeyword_eq forbidden_subset]
  split <;> rename_i h <;> rw [h] <;> simp

/-- Two texts in which the loops find the same keywords. -/
theorem sameGuards_of_firstKeyword
    (hcrisis : firstKeyword U crisisKeywords text' = firstKeyword U crisisKeywords text)
    (hforbidden : firstKeyword U forbiddenTopicKeywords text' = firstKeyword U forbiddenTopicKeywords text) :
    SameGuards U text text' := by
  refine ⟨by rw [checkCrisis, checkCrisis, hcrisis]; exact ⟨rfl, rfl⟩, ?_⟩
  rw [filterResponse, filterResponse, hforbidden]
  split <;> exact ⟨rfl, rfl⟩

/-- The guards see a text without its blanks and tabs only. -/
theorem sameGuards_of_without (h : without isBlankOrTab text' = without isBlankOrTab text) :
    SameGuards U text text' := by
  refine sameGuards_of_firstKeyword ?_ ?_
  · rw [firstKeyword_eq crisis_subset, firstKeyword_eq crisis_subset, h]
  · rw [firstKeyword_eq forbidden_subset, firstKeyword_eq forbidden_subset, h]

/-! ## Variants of a text -/

theorem without_without {first second : Char → Bool} :
    (without first text).filter (fun c => !second c) = without (fun c => first c || second c) text := by
  rw [without, without, List.filter_filter]
  congr 1
  funext c
  rw [Bool.not_or, Bool.and_comm]

theorem not_isHangul_of_isSpace (h : isSpace c = true) : isHangul c = false := by
  simp only [isSpace, Bool.or_eq_true, Bool.and_eq_true, decide_eq_true_eq, beq_iff_eq] at h
  simp only [isHangul, Bool.and_eq_false_iff, decide_eq_false_iff_not]
  omega

/-- A keyword has no whitespace but blanks. -/
theorem filter_keyword (hspace : ∀ c, removed c = true → isSpace c = true)
    (hk : k ∈ crisisKeywords ++ forbiddenTopicKeywords) :
    (without isBlankOrTab k).filter (fun c => !removed c) = without isBlankOrTab k := by
  refine List.filter_eq_self.mpr fun d hd => ?_
  cases hr : removed d with
  | false => rfl
  | true =>
    have hnot := not_isHangul_of_isSpace (hspace d hr)
    rw [(keyword_hangul hk).1 d hd] at hnot
    cases hnot

/-- Without a keyword to hide, no variant is matched. -/
theorem firstKeyword_of_keywordFree {keywords : List String}
    (hsub : keywords ⊆ crisisKeywords ++ forbiddenTopicKeywords)
    (hspace : ∀ c, removed c = true → isSpace c = true) (hfree : KeywordFree removed text)
    (hsame : without removed text' = without removed text) : firstKeyword U keywords text' = none := by
  rw [firstKeyword_eq hsub, List.find?_eq_none]
  intro k hk
  rw [decide_eq_true_eq]
  intro hocc
  have hfiltered := hocc.filter fun c => !removed c
  have hcomm : (fun c => isBlankOrTab c || removed c) = fun c => removed c || isBlankOrTab c :=
    funext fun c => Bool.or_comm _ _
  rw [filter_keyword hspace (hsub hk), without_without, hcomm, ← without_without, hsame, without_without] at hfiltered
  exact hfree k (hsub hk) hfiltered

/-- A break after every character hides whatever has two letters. -/
theorem not_infix_broken {a b : Char} {s : List Char} (ha : a ≠ c) (hb : b ≠ c) (hc : isBlankOrTab c = false) :
    ¬ [a, b] <:+: (s.flatMap fun d => [d, c]).filter fun d => !isBlankOrTab d := by
  induction s with
  | nil => simp
  | cons d s ih =>
    have hrest : ¬ [a, b] <:+: c :: ((s.flatMap fun d => [d, c]).filter fun d => !isBlankOrTab d) := by
      rw [List.infix_cons_iff, List.cons_prefix_cons]
      exact fun h => h.elim (fun hp => ha hp.1) ih
    have hsplit : ((d :: s).flatMap fun d => [d, c]) = d :: c :: s.flatMap fun d => [d, c] := rfl
    rw [hsplit, List.filter_cons, List.filter_cons, hc]
    cases isBlankOrTab d with
    | true => exact hrest
    | false =>
      rw [Bool.not_false, if_pos rfl, if_pos rfl, List.infix_cons_iff, List.cons_prefix_cons, List.cons_prefix_cons]
      exact fun h => h.elim (fun hp => hb hp.2.1) hrest

theorem without_ofList {s : List Char} : without removed (String.ofList s) = s.filter fun c => !removed c := by
  rw [without, String.toList_ofList]

/-- The breaks are of the class, so that the text is a variant. -/
theorem filter_broken {s : List Char} (hs : ∀ d ∈ s, removed d = false) (hc : removed c = true) :
    (s.flatMap fun d => [d, c]).filter (fun d => !removed d) = s := by
  induction s with
  | nil => rfl
  | cons d s ih =>
    obtain ⟨hd, hs⟩ := List.forall_mem_cons.mp hs
    have hsplit : ((d :: s).flatMap fun d => [d, c]) = d :: c :: s.flatMap fun d => [d, c] := rfl
    rw [hsplit, List.filter_cons, List.filter_cons, hd, hc, ih hs]
    rfl

/-- With a break after every character, no guard matches. -/
theorem firstKeyword_broken {keywords : List String}
    (hsub : keywords ⊆ crisisKeywords ++ forbiddenTopicKeywords) {s : List Char}
    (hspace : isSpace c = true) (hc : isBlankOrTab c = false) :
    firstKeyword U keywords (String.ofList (s.flatMap fun d => [d, c])) = none := by
  rw [firstKeyword_eq hsub, List.find?_eq_none]
  intro k hk
  rw [decide_eq_true_eq, without, without, String.toList_ofList, ← without]
  intro hocc
  obtain ⟨hhangul, hlength⟩ := keyword_hangul (hsub hk)
  have hne : ∀ d ∈ without isBlankOrTab k, d ≠ c := by
    rintro d hd rfl
    have hd := hhangul d hd
    rw [not_isHangul_of_isSpace hspace] at hd
    cases hd
  match hk' : without isBlankOrTab k with
  | [] | [_] => rw [hk'] at hlength; simp at hlength
  | a :: b :: rest =>
    rw [hk'] at hocc hne
    have hpair : [a, b] <+: a :: b :: rest := ⟨rest, rfl⟩
    exact not_infix_broken (hne a (by simp)) (hne b (by simp)) hc (hpair.isInfix.trans hocc)

end

/-! ## Main results -/

/-- For every class of whitespace characters and every text: whatever of them is inserted or removed, both guards
find the same, if and only if the class is blanks and tabs, or the text has no keyword. -/
theorem sameGuards_iff (U : CaseTable) (removed : Char → Bool) (hspace : ∀ c, removed c = true → isSpace c = true)
    (text : String) :
    (∀ text', without removed text' = without removed text → SameGuards U text text') ↔
      (∀ c, removed c = true → isBlankOrTab c = true) ∨ KeywordFree removed text := by
  constructor
  · intro hsame
    by_contra hno
    rw [not_or] at hno
    obtain ⟨hclass, hkeyword⟩ := hno
    simp only [not_forall] at hclass
    obtain ⟨c, hc, hkept⟩ := hclass
    rw [Bool.not_eq_true] at hkept
    have hremoved : ∀ d ∈ without removed text, removed d = false := fun d hd => by
      simpa using (List.mem_filter.mp hd).2
    have hplain := hsame (String.ofList (without removed text)) (by
      rw [without_ofList, List.filter_eq_self.mpr fun d hd => by rw [hremoved d hd]; rfl])
    have hbroken := hsame (String.ofList ((without removed text).flatMap fun d => [d, c])) (by
      rw [without_ofList, filter_broken hremoved hc])
    -- the variant without the class has a keyword, the one with a break after every character has none
    rw [KeywordFree] at hkeyword
    simp only [not_forall, not_not] at hkeyword
    obtain ⟨k, hk, hocc⟩ := hkeyword
    rw [← without_without, ← without_ofList] at hocc
    rcases List.mem_append.mp hk with hk | hk
    · have hmatched := matched_checkCrisis (U := U).mpr ⟨k, hk, hocc⟩
      have hnone := hbroken.crisis.1
      rw [← hplain.crisis.1, hmatched, checkCrisis, firstKeyword_broken crisis_subset (hspace c hc) hkept] at hnone
      cases hnone
    · have hmatched := matched_filterResponse (U := U).mpr ⟨k, hk, hocc⟩
      have hnone := hbroken.response.1
      rw [← hplain.response.1, hmatched, filterResponse,
        firstKeyword_broken forbidden_subset (hspace c hc) hkept] at hnone
      cases hnone
  · rintro (hclass | hfree) text' hsame
    · have hor : (fun c => removed c || isBlankOrTab c) = isBlankOrTab := by
        funext c
        cases hr : removed c with
        | false => rfl
        | true => rw [hclass c hr]; rfl
      refine sameGuards_of_without ?_
      rw [← hor, ← without_without, ← without_without, hsame]
    · refine sameGuards_of_firstKeyword ?_ ?_
      · rw [firstKeyword_of_keywordFree crisis_subset hspace hfree hsame,
          firstKeyword_of_keywordFree crisis_subset hspace hfree rfl]
      · rw [firstKeyword_of_keywordFree forbidden_subset hspace hfree hsame,
          firstKeyword_of_keywordFree forbidden_subset hspace hfree rfl]

instance (removed : Char → Bool) (text : String) : Decidable (KeywordFree removed text) :=
  inferInstanceAs (Decidable (∀ _ ∈ _, _))

/-- The theorem at a text without a keyword: a line break changes nothing. -/
theorem sameGuards_iff_greeting : SameGuards asciiCase "오늘은 날씨가 좋네요" "오늘은\n날씨가 좋네요" := by
  have hfree : KeywordFree isSpace "오늘은 날씨가 좋네요" := by decide +kernel
  have hsame := (sameGuards_iff asciiCase isSpace (fun _ hc => hc) "오늘은 날씨가 좋네요").mpr (.inr hfree)
  exact hsame "오늘은\n날씨가 좋네요" (by decide)

/-- A line break inside a keyword hides it. -/
theorem keyword_hidden : ¬ ∀ text text', without isSpace text' = without isSpace text →
    SameGuards asciiCase text text' := by
  intro h
  have hmatched : (checkCrisis asciiCase "죽고 싶어").matched = true := by decide +kernel
  have hhidden : (checkCrisis asciiCase "죽고\n싶어").matched = false := by decide +kernel
  have hsame := (h "죽고 싶어" "죽고\n싶어" (by decide)).crisis.1
  rw [hmatched, hhidden] at hsame
  cases hsame

end YeounEngine
