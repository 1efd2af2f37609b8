import YeounEngine.Text
import Mathlib.Algebra.Group.Nat.Defs

/-!
# Numbers as text

`int(s)` of a string, as CPython reads it: whitespace around, a sign, decimal digits of any script with
single underscores between them, and at most so many digits as the interpreter allows. Which characters are
decimal digits is a table of the interpreter, and so is the limit (`IntSyntax`).

`str(n)` is read back as `n` (`intOf_repr`).
-/

namespace YeounEngine

/-- What `int` depends on: the decimal digits outside ASCII, and `sys.get_int_max_str_digits()`, 0 for no
limit, else at least 640. -/
structure IntSyntax where
  decimal : Char → Option Nat
  decimal_lt : ∀ c d, decimal c = some d → d < 10
  maxStrDigits : Nat
  limit : maxStrDigits = 0 ∨ 640 ≤ maxStrDigits

/-- Only ASCII digits, and the limit that an interpreter starts with. -/
def asciiDigits : IntSyntax where
  decimal _ := none
  decimal_lt := by rintro c d ⟨⟩
  maxStrDigits := 4300
  limit := .inr (by decide)

/-- The whitespace that `int` skips. Of the ASCII characters these are fewer than `str.isspace` has. -/
def isIntSpace (c : Char) : Bool :=
  let n := c.toNat
  (9 ≤ n && n ≤ 13) || n = 32 || (127 ≤ n && isSpace c)

section
variable (S : IntSyntax)

/-- The value of a digit. -/
def digitOf (c : Char) : Option Nat :=
  if c.toNat < 127 then if c.isDigit then some (c.toNat - '0'.toNat) else none else S.decimal c

/-- The digits, with single underscores between them. -/
def scanDigits : List Char → Option (List Nat)
  | [] => none
  | [c] => (digitOf S c).map fun d => [d]
  | c :: '_' :: rest => (digitOf S c).bind fun d => (scanDigits rest).map fun ds => d :: ds
  | c :: rest => (digitOf S c).bind fun d => (scanDigits rest).map fun ds => d :: ds

/-- The digits as a number, the most significant first. -/
def ofDigits (ds : List Nat) : Nat := ds.foldl (fun n d => 10 * n + d) 0

/-- The digits of an `int` after its sign. -/
def natOf (s : List Char) : Option Nat :=
  (scanDigits S s).bind fun ds =>
    if S.maxStrDigits ≠ 0 ∧ S.maxStrDigits < ds.length then none else some (ofDigits ds)

/-- `int(s)`; none for a `ValueError`. -/
def intOf (s : List Char) : Option Int :=
  match (s.dropWhile isIntSpace).rdropWhile isIntSpace with
  | '-' :: rest => (natOf S rest).map fun n => -(n : Int)
  | '+' :: rest => (natOf S rest).map Int.ofNat
  | rest => (natOf S rest).map Int.ofNat

end

section
variable {S : IntSyntax} {s : List Char} {n : Nat}

theorem toNat_of_isDigit {c : Char} (h : c.isDigit = true) : 48 ≤ c.toNat ∧ c.toNat ≤ 57 := by
  obtain ⟨h₁, h₂⟩ := Char.isDigit_iff_toNat.mp h
  exact ⟨h₁, h₂⟩

theorem digitOf_ascii {c : Char} (h : c.isDigit = true) : digitOf S c = some (c.toNat - '0'.toNat) := by
  have hc := toNat_of_isDigit h
  rw [digitOf, if_pos (by omega), if_pos h]

/-- ASCII digits without underscores. -/
theorem scanDigits_ascii (h : ∀ c ∈ s, c.isDigit = true) (hne : s ≠ []) :
    scanDigits S s = some (s.map fun c => c.toNat - '0'.toNat) := by
  induction s with
  | nil => exact absurd rfl hne
  | cons c s ih =>
    obtain ⟨hc, hs⟩ := List.forall_mem_cons.mp h
    cases s with
    | nil => rw [scanDigits, digitOf_ascii hc]; rfl
    | cons c' s =>
      have hc' : c' ≠ '_' := by rintro rfl; exact absurd (hs '_' List.mem_cons_self) (by decide)
      rw [scanDigits, digitOf_ascii hc, ih hs (by simp)]
      · rfl
      · simp
      · intro rest heq
        cases heq
        exact hc' rfl

theorem ofDigits_toDigits (n : Nat) : ofDigits ((Nat.toDigits 10 n).map fun c => c.toNat - '0'.toNat) = n := by
  rw [ofDigits, List.foldl_map, ← Nat.ofDigitChars_eq_foldl, Nat.ofDigitChars_ten_toDigits]

/-- A text that holds no character to skip is skipped nothing of, at either end. -/
theorem trim_eq_self {p : Char → Bool} (h : ∀ c ∈ s, p c = false) : (s.dropWhile p).rdropWhile p = s := by
  have hnot : ∀ c ∈ s, ¬ p c = true := fun c hc => Bool.eq_false_iff.mp (h c hc)
  have hfront : s.dropWhile p = s := List.dropWhile_eq_self_iff.mpr fun hl => hnot _ (List.get_mem s ⟨0, hl⟩)
  have hback : s.rdropWhile p = s := List.rdropWhile_eq_self_iff.mpr fun hl => hnot _ (List.getLast_mem hl)
  rw [hfront, hback]

theorem isSpace_of_isDigit {c : Char} (h : c.isDigit = true) : isSpace c = false := by
  have := toNat_of_isDigit h
  simp only [isSpace, Bool.or_eq_false_iff, Bool.and_eq_false_iff, decide_eq_false_iff_not, beq_eq_false_iff_ne]
  omega

theorem isIntSpace_of_isDigit {c : Char} (h : c.isDigit = true) : isIntSpace c = false := by
  have := toNat_of_isDigit h
  simp only [isIntSpace, isSpace_of_isDigit h, Bool.or_eq_false_iff, Bool.and_eq_false_iff,
    decide_eq_false_iff_not]
  omega

theorem isDigit_of_mem_toDigits {c : Char} (h : c ∈ Nat.toDigits 10 n) : c.isDigit = true :=
  Nat.isDigit_of_mem_toDigits (by omega) (by omega) h

/-- `int(str(n))`, of a number with no more digits than the interpreter allows. -/
theorem intOf_repr (hlength : (Nat.toDigits 10 n).length ≤ 640) : intOf S (toString n).toList = some (n : Int) := by
  have hdigits : ∀ c ∈ Nat.toDigits 10 n, c.isDigit = true := fun _ => isDigit_of_mem_toDigits
  have hnat : natOf S (Nat.toDigits 10 n) = some n := by
    rw [natOf, scanDigits_ascii hdigits Nat.toDigits_ne_nil, Option.bind_some, if_neg, ofDigits_toDigits]
    rw [List.length_map]
    rcases S.limit with hlimit | hlimit <;> omega
  rw [show (toString n).toList = Nat.toDigits 10 n from Nat.toList_repr, intOf,
    trim_eq_self fun c hc => isIntSpace_of_isDigit (hdigits c hc)]
  -- A digit is no sign.
  split
  case h_1 rest heq => exact absurd (hdigits '-' (heq ▸ List.mem_cons_self)) (by decide)
  case h_2 rest heq => exact absurd (hdigits '+' (heq ▸ List.mem_cons_self)) (by decide)
  case h_3 => rw [hnat]; rfl

end

/-! ## Digits of a fixed width -/

section
variable {b : Nat} {digits : Nat → Nat → List Char}

theorem digitChar_inj {d d' : Nat} (hd : d < 16) (hd' : d' < 16) (h : Nat.digitChar d = Nat.digitChar d') : d = d' := by
  have table : ∀ k < 16, ∀ l < 16, Nat.digitChar k = Nat.digitChar l → k = l := by decide
  exact table d hd d' hd' h

/-- Numbers that fit into the width are told apart by their digits. -/
theorem fixedDigits_inj (hb : 0 < b ∧ b ≤ 16)
    (hsucc : ∀ w n, digits (w + 1) n = digits w (n / b) ++ [Nat.digitChar (n % b)]) {w n m : Nat} (hn : n < b ^ w)
    (hm : m < b ^ w) (h : digits w n = digits w m) : n = m := by
  induction w generalizing n m with
  | zero =>
    rw [Nat.pow_zero] at hn hm
    omega
  | succ w ih =>
    rw [hsucc, hsucc] at h
    obtain ⟨hinit, hlast⟩ := List.append_inj' h rfl
    have hdiv : n / b = m / b :=
      ih (Nat.div_lt_of_lt_mul (by rwa [Nat.mul_comm])) (Nat.div_lt_of_lt_mul (by rwa [Nat.mul_comm])) hinit
    have hdigit : n % b = m % b :=
      digitChar_inj (Nat.lt_of_lt_of_le (Nat.mod_lt n hb.1) hb.2) (Nat.lt_of_lt_of_le (Nat.mod_lt m hb.1) hb.2)
        (List.singleton_inj.mp hlast)
    rw [← Nat.div_add_mod n b, ← Nat.div_add_mod m b, hdiv, hdigit]

end

end YeounEngine
