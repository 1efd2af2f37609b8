import YeounEngine.MediaRanges

/-!
# The ranges that `parse_range` reads

The grammar of a single range (`RangeHeader`): `bytes=`, then, between whitespace, two numbers around a dash, one of
which may be missing. A number is a string of decimal digits.

`parse_range` reads the two texts around the first dash with `int`, and does not look whether there is a dash.
So it accepts more than the grammar (`LooseRange`), and it rejects numbers that are too long for `int`
(`OverlongRange`); on every other header it accepts exactly the grammar (`parsesExactly_iff`).
-/

namespace YeounEngine

/-! ## The grammar -/

/-- A string of decimal digits. -/
def IsDigits (s : List Char) : Prop := s ≠ [] ∧ ∀ c ∈ s, c.isDigit = true

instance (s : List Char) : Decidable (IsDigits s) := inferInstanceAs (Decidable (_ ∧ _))

/-- The number that digits stand for. -/
def digitsNat (s : List Char) : Nat := ofDigits (s.map fun c => c.toNat - '0'.toNat)

/-- What stands between the whitespace, for a file of `n` bytes, and the bounds of the range. -/
inductive SingleRange (n : Nat) : List Char → Int → Int → Prop
  | closed {d₁ d₂} (h₁ : IsDigits d₁) (h₂ : IsDigits d₂) (hlt : digitsNat d₁ < n) (hle : digitsNat d₁ ≤ digitsNat d₂) :
      SingleRange n (d₁ ++ '-' :: d₂) (digitsNat d₁) (min (digitsNat d₂) (n - 1))
  | start {d₁} (h₁ : IsDigits d₁) (hlt : digitsNat d₁ < n) : SingleRange n (d₁ ++ ['-']) (digitsNat d₁) (n - 1)
  | suffix {k} (hk : IsDigits k) (hpos : 1 ≤ digitsNat k) (hn : 1 ≤ n) :
      SingleRange n ('-' :: k) (max 0 (n - digitsNat k)) (n - 1)

/-- A header of the grammar. -/
def RangeHeader (n : Nat) (header : String) (start finish : Int) : Prop :=
  ∃ front text back, header.toList = "bytes=".toList ++ (front ++ text ++ back) ∧
    (∀ c ∈ front, isSpace c = true) ∧ (∀ c ∈ back, isSpace c = true) ∧ SingleRange n text start finish

/-- `parse_range` reads the header as the grammar does: nothing for no header, the bounds of a range, and an error for
everything else. -/
structure ParsesExactly (S : IntSyntax) (header : Option String) (n : Nat) : Prop where
  absent : header = none ∨ header = some "" → parseRange S header n = .ok none
  ranges : ∀ start finish, parseRange S header n = .ok (some (start, finish)) ↔
    ∃ h, header = some h ∧ RangeHeader n h start finish
  rejects : ∀ h, header = some h → h ≠ "" → (∀ start finish, ¬ RangeHeader n h start finish) →
    ∃ e, parseRange S header n = .error e

/-! ## Where it differs -/

/-- A text without the whitespace around it. -/
def trim (s : List Char) : List Char := (s.dropWhile isSpace).rdropWhile isSpace

/-- The text before the first dash. -/
def beforeDash (text : List Char) : List Char := text.takeWhile (· ≠ '-')

/-- The text behind the first dash. -/
def afterDash (text : List Char) : List Char := (text.dropWhile (· ≠ '-')).drop 1

/-- A range that is not written as one, of numbers that lie in the file as `int` reads them: the dash is missing, or a
number is not a string of decimal digits. -/
inductive LooseRange (S : IntSyntax) (n : Nat) : List Char → Prop
  | noDash {a i} (hdash : '-' ∉ a) (ha : intOf S a = some i) (h0 : 0 ≤ i) (hlt : i < n) : LooseRange S n a
  | closed {a b i j} (hdash : '-' ∉ a) (ha : intOf S a = some i) (hb : intOf S b = some j) (h0 : 0 ≤ i) (hlt : i < n)
      (hle : i ≤ j) (hloose : ¬ (IsDigits a ∧ IsDigits b)) : LooseRange S n (a ++ '-' :: b)
  | start {a i} (hdash : '-' ∉ a) (ha : intOf S a = some i) (h0 : 0 ≤ i) (hlt : i < n) (hloose : ¬ IsDigits a) :
      LooseRange S n (a ++ ['-'])
  | suffix {b k} (hb : intOf S b = some k) (hpos : 1 ≤ k) (hn : 1 ≤ n) (hloose : ¬ IsDigits b) :
      LooseRange S n ('-' :: b)

/-- A range of the grammar with a number of more digits than `int` takes. -/
def OverlongRange (S : IntSyntax) (n : Nat) (text : List Char) : Prop :=
  (∃ start finish, SingleRange n text start finish) ∧ S.maxStrDigits ≠ 0 ∧
    (S.maxStrDigits < (beforeDash text).length ∨ S.maxStrDigits < (afterDash text).length)

/-- The ranges that `parse_range` reads: a number is what `int` takes for one, and the dash may be missing. -/
inductive ReadRange (S : IntSyntax) (n : Nat) : List Char → Int → Int → Prop
  | noDash {a i} (hdash : '-' ∉ a) (ha : intOf S a = some i) (h0 : 0 ≤ i) (hlt : i < n) : ReadRange S n a i (n - 1)
  | closed {a b i j} (hdash : '-' ∉ a) (ha : intOf S a = some i) (hb : intOf S b = some j) (h0 : 0 ≤ i) (hlt : i < n)
      (hle : i ≤ j) : ReadRange S n (a ++ '-' :: b) i (min j (n - 1))
  | start {a i} (hdash : '-' ∉ a) (ha : intOf S a = some i) (h0 : 0 ≤ i) (hlt : i < n) :
      ReadRange S n (a ++ ['-']) i (n - 1)
  | suffix {b k} (hb : intOf S b = some k) (hpos : 1 ≤ k) (hn : 1 ≤ n) :
      ReadRange S n ('-' :: b) (max 0 (n - k)) (n - 1)

/-! ## Digits -/

section
variable {S : IntSyntax} {s a b text rest front back : List Char} {n : Nat} {start finish i : Int}

/-- `int` of digits, up to the limit. -/
theorem intOf_digits (h : IsDigits s) : intOf S s =
    if S.maxStrDigits ≠ 0 ∧ S.maxStrDigits < s.length then none else some (digitsNat s : Int) := by
  obtain ⟨hne, hdigits⟩ := h
  have hnat : natOf S s = if S.maxStrDigits ≠ 0 ∧ S.maxStrDigits < s.length then none else some (digitsNat s) := by
    rw [natOf, scanDigits_ascii hdigits hne, Option.bind_some, List.length_map]
    rfl
  have hread : intOf S s = (natOf S s).map Int.ofNat := by
    rw [intOf, trim_eq_self fun c hc => isIntSpace_of_isDigit (hdigits c hc)]
    -- a digit is no sign
    split
    case h_1 rest => exact absurd (hdigits '-' List.mem_cons_self) (by decide)
    case h_2 rest => exact absurd (hdigits '+' List.mem_cons_self) (by decide)
    case h_3 => rfl
  rw [hread, hnat]
  split <;> rfl

theorem digitsNat_of_intOf (h : IsDigits s) (hread : intOf S s = some i) : i = digitsNat s := by
  rw [intOf_digits h] at hread
  split at hread
  · cases hread
  · exact (Option.some.inj hread).symm

theorem not_dash_of_isDigits (h : IsDigits s) : '-' ∉ s := fun hmem => absurd (h.2 '-' hmem) (by decide)

/-! ## The first dash -/

theorem ne_dash (h : '-' ∉ a) : ∀ c ∈ a, decide (c ≠ '-') = true := by
  intro c hc
  rw [decide_eq_true_eq]
  rintro rfl
  exact h hc

theorem beforeDash_append (h : '-' ∉ a) : beforeDash (a ++ '-' :: b) = a := by
  rw [beforeDash, List.takeWhile_append_of_pos (ne_dash h)]
  exact List.append_nil a

theorem afterDash_append (h : '-' ∉ a) : afterDash (a ++ '-' :: b) = b := by
  rw [afterDash, List.dropWhile_append_of_pos (ne_dash h)]
  rfl

theorem beforeDash_self (h : '-' ∉ a) : beforeDash a = a := List.takeWhile_eq_self_iff.mpr (ne_dash h)

theorem afterDash_self (h : '-' ∉ a) : afterDash a = [] := by
  rw [afterDash, List.dropWhile_eq_nil_iff.mpr (ne_dash h)]
  rfl

/-- A text is cut at its first dash, if it has one. -/
theorem cut_dash (text : List Char) : '-' ∉ text ∨ ∃ a b, '-' ∉ a ∧ text = a ++ '-' :: b := by
  by_cases h : '-' ∈ text
  · obtain ⟨a, b, rfl, ha⟩ := List.eq_append_cons_of_mem h
    exact .inr ⟨a, b, ha, rfl⟩
  · exact .inl h

/-- What the grammar says of the texts around the first dash. -/
theorem SingleRange.around (h : SingleRange n text start finish) : '-' ∈ text ∧
    (beforeDash text = [] ∨ IsDigits (beforeDash text)) ∧ (afterDash text = [] ∨ IsDigits (afterDash text)) := by
  cases h with
  | closed h₁ h₂ =>
    rw [beforeDash_append (not_dash_of_isDigits h₁), afterDash_append (not_dash_of_isDigits h₁)]
    exact ⟨by simp, .inr h₁, .inr h₂⟩
  | start h₁ =>
    rw [beforeDash_append (not_dash_of_isDigits h₁), afterDash_append (not_dash_of_isDigits h₁)]
    exact ⟨by simp, .inr h₁, .inl rfl⟩
  | @suffix k hk =>
    rw [← List.nil_append ('-' :: k), beforeDash_append List.not_mem_nil, afterDash_append List.not_mem_nil]
    exact ⟨by simp, .inl rfl, .inr hk⟩

/-! ## Whitespace -/

theorem not_space_of_singleRange (h : SingleRange n text start finish) : text ≠ [] ∧ ∀ c ∈ text, isSpace c = false := by
  have hdigits : ∀ {d : List Char}, IsDigits d → ∀ c ∈ d, isSpace c = false :=
    fun hd c hc => isSpace_of_isDigit (hd.2 c hc)
  cases h with
  | closed h₁ h₂ =>
    refine ⟨by simp, fun c hc => ?_⟩
    rcases List.mem_append.mp hc with hc | hc
    · exact hdigits h₁ c hc
    · rcases List.mem_cons.mp hc with rfl | hc
      · rfl
      · exact hdigits h₂ c hc
  | start h₁ =>
    refine ⟨by simp, fun c hc => ?_⟩
    rcases List.mem_append.mp hc with hc | hc
    · exact hdigits h₁ c hc
    · rw [List.mem_singleton.mp hc]
      rfl
  | suffix hk =>
    refine ⟨List.cons_ne_nil _ _, fun c hc => ?_⟩
    rcases List.mem_cons.mp hc with rfl | hc
    · rfl
    · exact hdigits hk c hc

/-- A text is its whitespace and what it has between. -/
theorem exists_trim (rest : List Char) : ∃ front back, rest = front ++ trim rest ++ back ∧
    (∀ c ∈ front, isSpace c = true) ∧ ∀ c ∈ back, isSpace c = true := by
  refine ⟨rest.takeWhile isSpace, (rest.dropWhile isSpace).rtakeWhile isSpace, ?_,
    fun c hc => List.mem_takeWhile_imp hc, fun c hc => List.mem_rtakeWhile_imp hc⟩
  rw [trim, List.append_assoc, List.rdropWhile_append_rtakeWhile, List.takeWhile_append_dropWhile]

/-- Whitespace around a text is left out. -/
theorem trim_append (hne : text ≠ []) (htext : ∀ c ∈ text, isSpace c = false) (hfront : ∀ c ∈ front, isSpace c = true)
    (hback : ∀ c ∈ back, isSpace c = true) : trim (front ++ text ++ back) = text := by
  have hfirst : (text ++ back).dropWhile isSpace = text ++ back := by
    obtain ⟨c, text, rfl⟩ := List.exists_cons_of_ne_nil hne
    rw [List.cons_append, List.dropWhile_cons_of_neg]
    rw [htext c List.mem_cons_self]
    decide
  have hlast : (text ++ back).rdropWhile isSpace = text := by
    rw [List.rdropWhile, List.reverse_append, List.dropWhile_append_of_pos fun c hc => hback c (List.mem_reverse.mp hc)]
    obtain ⟨c, text, hrev⟩ := List.exists_cons_of_ne_nil (List.reverse_ne_nil_iff.mpr hne)
    rw [hrev, List.dropWhile_cons_of_neg, ← hrev, List.reverse_reverse]
    rw [htext c (List.mem_reverse.mp (hrev ▸ List.mem_cons_self))]
    decide
  rw [trim, List.append_assoc, List.dropWhile_append_of_pos hfront, hfirst, hlast]

/-- A header of the grammar, by the text behind `bytes=`. -/
theorem rangeHeader_iff {h : String} (hrest : h.toList = "bytes=".toList ++ rest) :
    RangeHeader n h start finish ↔ SingleRange n (trim rest) start finish := by
  constructor
  · rintro ⟨front, text, back, htext, hfront, hback, hrange⟩
    obtain ⟨hne, hspace⟩ := not_space_of_singleRange hrange
    rw [hrest, List.append_right_inj] at htext
    rwa [htext, trim_append hne hspace hfront hback]
  · intro hrange
    obtain ⟨front, back, hcut, hfront, hback⟩ := exists_trim rest
    exact ⟨front, trim rest, back, by rw [hrest, ← hcut], hfront, hback, hrange⟩

/-! ## What `parse_range` reads -/

theorem not_comma_of_digitOf {c : Char} {d : Nat} (h : digitOf S c = some d) : c ≠ ',' := by
  rintro rfl
  cases h

theorem not_comma_of_scanDigits {ds : List Nat} (h : scanDigits S s = some ds) : ',' ∉ s := by
  fun_induction scanDigits S s generalizing ds with
  | case1 => cases h
  | case2 c =>
    obtain ⟨d, hd, -⟩ := Option.map_eq_some_iff.mp h
    simpa using (not_comma_of_digitOf hd).symm
  | case3 c rest ih =>
    obtain ⟨d, hd, h⟩ := Option.bind_eq_some_iff.mp h
    obtain ⟨ds, hds, -⟩ := Option.map_eq_some_iff.mp h
    simpa using ⟨(not_comma_of_digitOf hd).symm, ih hds⟩
  | case4 c rest _ _ ih =>
    obtain ⟨d, hd, h⟩ := Option.bind_eq_some_iff.mp h
    obtain ⟨ds, hds, -⟩ := Option.map_eq_some_iff.mp h
    simpa using ⟨(not_comma_of_digitOf hd).symm, ih hds⟩

/-- A comma is in no number. -/
theorem not_comma_of_intOf (h : intOf S s = some i) : ',' ∉ s := by
  intro hmem
  have htrimmed : ',' ∈ (s.dropWhile isIntSpace).rdropWhile isIntSpace := by
    rw [← List.takeWhile_append_dropWhile (p := isIntSpace) (l := s)] at hmem
    rcases List.mem_append.mp hmem with hmem | hmem
    · exact absurd (List.mem_takeWhile_imp hmem) (by decide)
    · rw [← List.rdropWhile_append_rtakeWhile (p := isIntSpace) (l := s.dropWhile isIntSpace)] at hmem
      rcases List.mem_append.mp hmem with hmem | hmem
      · exact hmem
      · exact absurd (List.mem_rtakeWhile_imp hmem) (by decide)
  have hnat : ∀ {rest : List Char} {m : Nat}, natOf S rest = some m → ',' ∉ rest := fun hread =>
    not_comma_of_scanDigits (Option.bind_eq_some_iff.mp hread).choose_spec.1
  unfold intOf at h
  split at h
  case h_1 heq =>
    obtain ⟨m, hread, -⟩ := Option.map_eq_some_iff.mp h
    obtain ⟨m, hread, -⟩ := Option.bind_eq_some_iff.mp hread
    rw [heq] at htrimmed
    exact hnat hread (List.mem_of_ne_of_mem (by decide) htrimmed)
  case h_2 heq =>
    obtain ⟨m, hread, -⟩ := Option.map_eq_some_iff.mp h
    rw [heq] at htrimmed
    exact hnat hread (List.mem_of_ne_of_mem (by decide) htrimmed)
  case h_3 =>
    obtain ⟨m, hread, -⟩ := Option.map_eq_some_iff.mp h
    exact hnat hread htrimmed

theorem ReadRange.not_comma (h : ReadRange S n text start finish) : ',' ∉ text := by
  cases h with
  | noDash _ ha => exact not_comma_of_intOf ha
  | closed _ ha hb => simpa using ⟨not_comma_of_intOf ha, not_comma_of_intOf hb⟩
  | start _ ha => simpa using not_comma_of_intOf ha
  | suffix hb => simpa using not_comma_of_intOf hb

/-- The bounds behind the first dash. -/
theorem parseRange_bytes {h : String} (hrest : h.toList = "bytes=".toList ++ rest) : parseRange S (some h) n =
    if ',' ∈ trim rest then .error .multiple
    else match rangeBounds S (beforeDash (trim rest)) (afterDash (trim rest)) n with
      | none => .error (.number (String.ofList (trim rest)))
      | some (start, finish) =>
        if start < 0 ∨ finish < start ∨ n ≤ start then .error (.outside start finish n)
        else .ok (some (start, min finish (n - 1))) := by
  have hne : h ≠ "" := by
    rintro rfl
    cases hrest
  have hbytes : "bytes=".toList.isPrefixOf h.toList = true := by
    rw [hrest, List.isPrefixOf_iff_prefix]
    exact List.prefix_append ..
  have hstrip : strip (String.ofList (h.toList.drop "bytes=".length)) = String.ofList (trim rest) := by
    rw [strip, String.toList_ofList, hrest]
    exact congrArg (fun s => String.ofList (trim s)) List.drop_left
  rw [parseRange, if_neg hne, if_neg (by rw [hbytes]; simp)]
  dsimp only
  rw [hstrip, String.toList_ofList]
  rfl

/-- A range is returned when its bounds lie in the file. -/
theorem parseRange_eq_ok {h : String} (hrest : h.toList = "bytes=".toList ++ rest) :
    parseRange S (some h) n = .ok (some (start, finish)) ↔ ',' ∉ trim rest ∧
      ∃ f, rangeBounds S (beforeDash (trim rest)) (afterDash (trim rest)) n = some (start, f) ∧
        0 ≤ start ∧ start ≤ f ∧ start < n ∧ finish = min f (n - 1) := by
  rw [parseRange_bytes hrest]
  by_cases hcomma : ',' ∈ trim rest
  · rw [if_pos hcomma]
    exact iff_of_false (by rintro ⟨⟩) fun hok => hok.1 hcomma
  rw [if_neg hcomma, and_iff_right hcomma]
  cases rangeBounds S (beforeDash (trim rest)) (afterDash (trim rest)) n with
  | none => exact iff_of_false (by rintro ⟨⟩) (by rintro ⟨f, ⟨⟩, -⟩)
  | some bounds =>
    obtain ⟨s, f⟩ := bounds
    dsimp only
    split
    · rename_i hout
      refine iff_of_false (by rintro ⟨⟩) ?_
      rintro ⟨f', ⟨⟩, h0, hle, hlt, -⟩
      omega
    · rename_i hin
      constructor
      · rintro ⟨⟩
        exact ⟨f, rfl, by omega, by omega, by omega, rfl⟩
      · rintro ⟨f', ⟨⟩, -, -, -, rfl⟩
        rfl

theorem rangeBounds_suffix {f : Int} : rangeBounds S [] b n = some (start, f) ↔
    ∃ k, intOf S b = some k ∧ 1 ≤ k ∧ start = max 0 (n - k) ∧ f = n - 1 := by
  rw [rangeBounds, if_pos rfl, Option.bind_eq_some_iff]
  refine exists_congr fun k => and_congr_right fun _ => ?_
  split
  · exact iff_of_false (by rintro ⟨⟩) fun h => by omega
  · rw [Option.some_inj, Prod.mk.injEq]
    constructor
    · rintro ⟨rfl, rfl⟩
      exact ⟨by omega, rfl, rfl⟩
    · rintro ⟨-, rfl, rfl⟩
      exact ⟨rfl, rfl⟩

theorem rangeBounds_start {f : Int} : rangeBounds S a [] n = some (start, f) ∧ a ≠ [] ↔
    intOf S a = some start ∧ f = n - 1 := by
  by_cases hne : a = []
  · subst hne
    exact iff_of_false (fun h => h.2 rfl) (by rintro ⟨⟨⟩, -⟩)
  · rw [rangeBounds, if_neg hne, Option.bind_eq_some_iff, and_iff_left hne]
    constructor
    · rintro ⟨i, hi, h⟩
      rw [if_pos rfl] at h
      cases h
      exact ⟨hi, rfl⟩
    · rintro ⟨hi, rfl⟩
      exact ⟨start, hi, if_pos rfl⟩

theorem rangeBounds_closed {f : Int} : rangeBounds S a b n = some (start, f) ∧ a ≠ [] ∧ b ≠ [] ↔
    intOf S a = some start ∧ intOf S b = some f := by
  by_cases hne : a ≠ [] ∧ b ≠ []
  · rw [rangeBounds, if_neg hne.1, Option.bind_eq_some_iff, and_iff_left hne]
    constructor
    · rintro ⟨i, hi, h⟩
      rw [if_neg hne.2] at h
      obtain ⟨j, hj, h⟩ := Option.map_eq_some_iff.mp h
      cases h
      exact ⟨hi, hj⟩
    · rintro ⟨hi, hj⟩
      exact ⟨start, hi, by rw [if_neg hne.2, hj]; rfl⟩
  · refine iff_of_false (fun h => hne h.2) ?_
    rintro ⟨ha, hb⟩
    refine hne ⟨?_, ?_⟩ <;> rintro rfl
    · cases ha
    · cases hb

theorem parseRange_iff {h : String} (hrest : h.toList = "bytes=".toList ++ rest) :
    parseRange S (some h) n = .ok (some (start, finish)) ↔ ReadRange S n (trim rest) start finish := by
  rw [parseRange_eq_ok hrest]
  generalize trim rest = text
  constructor
  · rintro ⟨-, f, hbounds, h0, hle, hlt, rfl⟩
    rcases cut_dash text with hdash | ⟨a, b, hdash, rfl⟩
    · rw [beforeDash_self hdash, afterDash_self hdash] at hbounds
      have hne : text ≠ [] := by
        rintro rfl
        obtain ⟨k, hk, -⟩ := rangeBounds_suffix.mp hbounds
        cases hk
      obtain ⟨htext, rfl⟩ := rangeBounds_start.mp ⟨hbounds, hne⟩
      rw [min_self]
      exact .noDash hdash htext h0 hlt
    · rw [beforeDash_append hdash, afterDash_append hdash] at hbounds
      by_cases ha : a = []
      · subst ha
        obtain ⟨k, hk, hpos, rfl, rfl⟩ := rangeBounds_suffix.mp hbounds
        rw [min_self]
        exact .suffix hk hpos (by omega)
      · by_cases hb : b = []
        · subst hb
          obtain ⟨hread, rfl⟩ := rangeBounds_start.mp ⟨hbounds, ha⟩
          rw [min_self]
          exact .start hdash hread h0 hlt
        · obtain ⟨hread, hread'⟩ := rangeBounds_closed.mp ⟨hbounds, ha, hb⟩
          exact .closed hdash hread hread' h0 hlt hle
  · intro hread
    refine ⟨hread.not_comma, ?_⟩
    cases hread with
    | noDash hdash ha h0 hlt =>
      rw [beforeDash_self hdash, afterDash_self hdash]
      exact ⟨_, (rangeBounds_start.mpr ⟨ha, rfl⟩).1, h0, by omega, hlt, (min_self _).symm⟩
    | closed hdash ha hb h0 hlt hle =>
      rw [beforeDash_append hdash, afterDash_append hdash]
      exact ⟨_, (rangeBounds_closed.mpr ⟨ha, hb⟩).1, h0, hle, hlt, rfl⟩
    | start hdash ha h0 hlt =>
      rw [beforeDash_append hdash, afterDash_append hdash]
      exact ⟨_, (rangeBounds_start.mpr ⟨ha, rfl⟩).1, h0, by omega, hlt, (min_self _).symm⟩
    | @suffix b k hb hpos hn =>
      rw [← List.nil_append ('-' :: b), beforeDash_append List.not_mem_nil, afterDash_append List.not_mem_nil]
      exact ⟨_, rangeBounds_suffix.mpr ⟨k, hb, hpos, rfl, rfl⟩, by omega, by omega, by omega, (min_self _).symm⟩

/-! ## The grammar against what is read -/

/-- What is read is in the grammar, or it is written loosely. -/
theorem ReadRange.single_or_loose (h : ReadRange S n text start finish) :
    SingleRange n text start finish ∨ LooseRange S n text := by
  cases h with
  | noDash hdash ha h0 hlt => exact .inr (.noDash hdash ha h0 hlt)
  | @closed a b i j hdash ha hb h0 hlt hle =>
    by_cases hdigits : IsDigits a ∧ IsDigits b
    · obtain rfl := digitsNat_of_intOf hdigits.1 ha
      obtain rfl := digitsNat_of_intOf hdigits.2 hb
      exact .inl (.closed hdigits.1 hdigits.2 (by omega) (by omega))
    · exact .inr (.closed hdash ha hb h0 hlt hle hdigits)
  | @start a i hdash ha h0 hlt =>
    by_cases hdigits : IsDigits a
    · obtain rfl := digitsNat_of_intOf hdigits ha
      exact .inl (.start hdigits (by omega))
    · exact .inr (.start hdash ha h0 hlt hdigits)
  | @suffix b k hb hpos hn =>
    by_cases hdigits : IsDigits b
    · obtain rfl := digitsNat_of_intOf hdigits hb
      exact .inl (.suffix hdigits (by omega) hn)
    · exact .inr (.suffix hb hpos hn hdigits)

/-- What is in the grammar is read, unless a number is too long. -/
theorem SingleRange.read_or_overlong (h : SingleRange n text start finish) :
    ReadRange S n text start finish ∨ OverlongRange S n text := by
  by_cases hlong : OverlongRange S n text
  · exact .inr hlong
  have hshort : ∀ d, IsDigits d → d = beforeDash text ∨ d = afterDash text → intOf S d = some (digitsNat d : Int) := by
    intro d hd hpart
    rw [intOf_digits hd, if_neg]
    rintro ⟨hne, hlt⟩
    refine hlong ⟨⟨start, finish, h⟩, hne, ?_⟩
    rcases hpart with rfl | rfl
    · exact .inl hlt
    · exact .inr hlt
  refine .inl ?_
  cases h with
  | closed h₁ h₂ hlt hle =>
    have hdash := not_dash_of_isDigits h₁
    rw [beforeDash_append hdash, afterDash_append hdash] at hshort
    exact .closed hdash (hshort _ h₁ (.inl rfl)) (hshort _ h₂ (.inr rfl)) (by omega) (by omega) (by omega)
  | start h₁ hlt =>
    have hdash := not_dash_of_isDigits h₁
    rw [beforeDash_append hdash] at hshort
    exact .start hdash (hshort _ h₁ (.inl rfl)) (by omega) (by omega)
  | @suffix k hk hpos hn =>
    rw [← List.nil_append ('-' :: k), afterDash_append List.not_mem_nil] at hshort
    exact .suffix (hshort _ hk (.inr rfl)) (by omega) hn

/-- A number that is read is not empty. -/
theorem ne_nil_of_intOf (h : intOf S s = some i) : s ≠ [] := by
  rintro rfl
  cases h

/-- A loose range is read, and it is not in the grammar. -/
theorem LooseRange.read (h : LooseRange S n text) :
    (∃ start finish, ReadRange S n text start finish) ∧ ∀ start finish, ¬ SingleRange n text start finish := by
  have hdigits : ∀ {a}, ∀ {i : Int}, intOf S a = some i → a = [] ∨ IsDigits a → IsDigits a :=
    fun hread hor => hor.resolve_left (ne_nil_of_intOf hread)
  cases h with
  | noDash hdash ha h0 hlt =>
    exact ⟨⟨_, _, .noDash hdash ha h0 hlt⟩, fun start finish hsingle => hdash hsingle.around.1⟩
  | closed hdash ha hb h0 hlt hle hloose =>
    refine ⟨⟨_, _, .closed hdash ha hb h0 hlt hle⟩, fun start finish hsingle => ?_⟩
    obtain ⟨-, hbefore, hafter⟩ := hsingle.around
    rw [beforeDash_append hdash] at hbefore
    rw [afterDash_append hdash] at hafter
    exact hloose ⟨hdigits ha hbefore, hdigits hb hafter⟩
  | start hdash ha h0 hlt hloose =>
    refine ⟨⟨_, _, .start hdash ha h0 hlt⟩, fun start finish hsingle => ?_⟩
    obtain ⟨-, hbefore, -⟩ := hsingle.around
    rw [beforeDash_append hdash] at hbefore
    exact hloose (hdigits ha hbefore)
  | @suffix b k hb hpos hn hloose =>
    refine ⟨⟨_, _, .suffix hb hpos hn⟩, fun start finish hsingle => ?_⟩
    obtain ⟨-, -, hafter⟩ := hsingle.around
    rw [← List.nil_append ('-' :: b), afterDash_append List.not_mem_nil] at hafter
    exact hloose (hdigits hb hafter)

/-- A range with a number that is too long is not read. -/
theorem OverlongRange.not_read (h : OverlongRange S n text) : ¬ ReadRange S n text start finish := by
  obtain ⟨⟨s, f, hsingle⟩, hne, hlong⟩ := h
  obtain ⟨hmem, hbefore, hafter⟩ := hsingle.around
  -- what is read is digits here, and so no longer than the limit
  have hshort : ∀ {a}, ∀ {i : Int}, intOf S a = some i → a = [] ∨ IsDigits a → a.length ≤ S.maxStrDigits := by
    intro a i hread hor
    have hdigits := hor.resolve_left (ne_nil_of_intOf hread)
    rw [intOf_digits hdigits] at hread
    split at hread
    · cases hread
    · rename_i hlimit
      exact Nat.not_lt.mp fun hlt => hlimit ⟨hne, hlt⟩
  intro hread
  cases hread with
  | noDash hdash => exact hdash hmem
  | closed hdash ha hb =>
    rw [beforeDash_append hdash] at hbefore hlong
    rw [afterDash_append hdash] at hafter hlong
    have := hshort ha hbefore
    have := hshort hb hafter
    omega
  | start hdash ha =>
    rw [beforeDash_append hdash] at hbefore hlong
    rw [afterDash_append hdash] at hlong
    have := hshort ha hbefore
    rw [List.length_nil] at hlong
    omega
  | @suffix b k hb =>
    rw [← List.nil_append ('-' :: b), beforeDash_append List.not_mem_nil, afterDash_append List.not_mem_nil] at hlong
    rw [← List.nil_append ('-' :: b), afterDash_append List.not_mem_nil] at hafter
    have := hshort hb hafter
    rw [List.length_nil] at hlong
    omega

/-- On a range, `parse_range` reads the grammar exactly when the range is neither loose nor too long. -/
theorem reads_single_iff : (∀ start finish, ReadRange S n text start finish ↔ SingleRange n text start finish) ↔
    ¬ LooseRange S n text ∧ ¬ OverlongRange S n text := by
  constructor
  · intro hexact
    refine ⟨fun hloose => ?_, fun hlong => ?_⟩
    · obtain ⟨⟨start, finish, hread⟩, hnot⟩ := hloose.read
      exact hnot start finish ((hexact start finish).mp hread)
    · obtain ⟨start, finish, hsingle⟩ := hlong.1
      exact hlong.not_read ((hexact start finish).mpr hsingle)
  · rintro ⟨hloose, hlong⟩ start finish
    exact ⟨fun hread => hread.single_or_loose.resolve_right hloose,
      fun hsingle => hsingle.read_or_overlong.resolve_right hlong⟩

/-- A header of the grammar starts with `bytes=`. -/
theorem RangeHeader.bytes {h : String} (hrange : RangeHeader n h start finish) :
    ∃ rest, h.toList = "bytes=".toList ++ rest := by
  obtain ⟨front, text, back, htext, -⟩ := hrange
  exact ⟨_, htext⟩

/-- A header that does not start with `bytes=` is rejected. -/
theorem parseRange_unit {h : String} (hne : h ≠ "") (hbytes : ∀ rest, h.toList ≠ "bytes=".toList ++ rest) :
    parseRange S (some h) n = .error (.unit h) := by
  rw [parseRange, if_neg hne, if_pos]
  rw [List.isPrefixOf_iff_prefix]
  rintro ⟨rest, hrest⟩
  exact hbytes rest hrest.symm

/-- A header that is there and is not empty is a range, or it is rejected. -/
theorem parseRange_rejects {h : String} (hne : h ≠ "") :
    (∃ start finish, parseRange S (some h) n = .ok (some (start, finish))) ∨
      ∃ e, parseRange S (some h) n = .error e := by
  by_cases hbytes : ∃ rest, h.toList = "bytes=".toList ++ rest
  · obtain ⟨rest, hrest⟩ := hbytes
    rw [parseRange_bytes hrest]
    split
    · exact .inr ⟨_, rfl⟩
    split
    · exact .inr ⟨_, rfl⟩
    split
    · exact .inr ⟨_, rfl⟩
    · exact .inl ⟨_, _, rfl⟩
  · exact .inr ⟨_, parseRange_unit hne fun rest hrest => hbytes ⟨rest, hrest⟩⟩

/-- For an absent or empty header nothing is returned. -/
theorem parseRange_absent {header : Option String} (h : header = none ∨ header = some "") :
    parseRange S header n = .ok none := by
  rcases h with rfl | rfl <;> rfl

end

/-- `parse_range` reads a header as the grammar does exactly when the header is no loose range and no range with a
number that is too long. -/
theorem parsesExactly_iff (S : IntSyntax) (header : Option String) (n : Nat) : ParsesExactly S header n ↔
    ∀ h rest, header = some h → h.toList = "bytes=".toList ++ rest →
      ¬ LooseRange S n (trim rest) ∧ ¬ OverlongRange S n (trim rest) := by
  constructor
  · rintro hexact h rest rfl hrest
    refine reads_single_iff.mp fun start finish => ?_
    rw [← parseRange_iff hrest, hexact.ranges start finish, ← rangeHeader_iff hrest]
    simp only [Option.some.injEq, exists_eq_left']
  · intro hplain
    have hranges : ∀ start finish, parseRange S header n = .ok (some (start, finish)) ↔
        ∃ h, header = some h ∧ RangeHeader n h start finish := by
      intro start finish
      cases header with
      | none => exact iff_of_false (by rintro ⟨⟩) (by rintro ⟨h, ⟨⟩, -⟩)
      | some h =>
        simp only [Option.some.injEq, exists_eq_left']
        by_cases hbytes : ∃ rest, h.toList = "bytes=".toList ++ rest
        · obtain ⟨rest, hrest⟩ := hbytes
          rw [parseRange_iff hrest, rangeHeader_iff hrest]
          exact reads_single_iff.mpr (hplain h rest rfl hrest) start finish
        · refine iff_of_false ?_ fun hrange => hbytes hrange.bytes
          by_cases hne : h = ""
          · rw [parseRange_absent (.inr (congrArg some hne))]
            rintro ⟨⟩
          · rw [parseRange_unit hne fun rest hrest => hbytes ⟨rest, hrest⟩]
            rintro ⟨⟩
    refine ⟨parseRange_absent, hranges, ?_⟩
    rintro h rfl hne hnone
    refine (parseRange_rejects hne).resolve_left ?_
    rintro ⟨start, finish, hread⟩
    obtain ⟨h', ⟨⟩, hrange⟩ := (hranges start finish).mp hread
    exact hnone start finish hrange

/-- A number with no dash is read as the range from it to the end. -/
theorem noDash_disagrees : ¬ ParsesExactly asciiDigits (some "bytes=5") 10 := by
  intro h
  have hbytes : "bytes=5".toList = "bytes=".toList ++ ['5'] := by decide
  have hread : parseRange asciiDigits (some "bytes=5") 10 = .ok (some (5, 9)) := by decide
  obtain ⟨_, ⟨⟩, hrange⟩ := (h.ranges 5 9).mp hread
  have hdash : '-' ∈ trim ['5'] := ((rangeHeader_iff hbytes).mp hrange).around.1
  exact absurd hdash (by decide)

end YeounEngine
