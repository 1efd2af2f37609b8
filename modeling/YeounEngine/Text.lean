import Mathlib.Data.List.DropRight
import Mathlib.Data.List.Infix

/-!
# Text, identifiers and exceptions

The Python values that every part of the engine handles. `str` is `String`; its whitespace
(`isSpace`, `strip`) is the fixed set of `str.isspace`. Lower-casing reads the Unicode tables of
the interpreter, which differ between the supported versions, so they are a parameter
(`CaseTable`) with the documented facts that hold of each of them. On ASCII letters and Hangul,
the text the safety keywords are made of, every table gives the same result (`lower_plain`).
-/

namespace YeounEngine

/-! ## Identifiers and exceptions -/

/-- A UUID, by its 128-bit number. -/
abbrev Uuid := Nat

/-- The last `width` hexadecimal digits of `n`. -/
def hexDigits : (width : Nat) → (n : Nat) → List Char
  | 0, _ => []
  | w + 1, n => hexDigits w (n / 16) ++ [Nat.digitChar (n % 16)]

/-- `str(uuid)`: 32 hexadecimal digits in groups of 8, 4, 4, 4 and 12. -/
def Uuid.str (u : Uuid) : String :=
  let h := hexDigits 32 u
  String.ofList (h.take 8 ++ '-' :: (h.drop 8).take 4 ++ '-' :: (h.drop 12).take 4 ++
    '-' :: (h.drop 16).take 4 ++ '-' :: h.drop 20)

/-- `uuid.hex`: the 32 digits without dashes. -/
def Uuid.hex (u : Uuid) : String := String.ofList (hexDigits 32 u)

/-- An instance of `Exception`: the name of its class and its text. -/
structure Exc where
  typeName : String
  message : String
  deriving DecidableEq, Repr

/-- `f"{type(exc).__name__}: {exc}"`. -/
def Exc.reason (e : Exc) : String := e.typeName ++ ": " ++ e.message

/-- `s[:n]`. -/
def cut (n : Nat) (s : String) : String := String.ofList (s.toList.take n)

/-- `s[-n:]`. -/
def tail (n : Nat) (s : String) : String := String.ofList (s.toList.drop (s.toList.length - n))

/-! ## Whitespace -/

/-- The characters of `str.isspace`, the ones `str.strip` removes. -/
def isSpace (c : Char) : Bool :=
  let n := c.toNat
  (9 ≤ n && n ≤ 13) || (28 ≤ n && n ≤ 32) || n == 0x85 || n == 0xa0 || n == 0x1680 ||
    (0x2000 ≤ n && n ≤ 0x200a) || n == 0x2028 || n == 0x2029 || n == 0x202f || n == 0x205f ||
    n == 0x3000

/-- `str.strip()`. -/
def strip (s : String) : String :=
  String.ofList ((s.toList.dropWhile isSpace).rdropWhile isSpace)

/-! ## Lower case -/

/-- A Hangul syllable, U+AC00 to U+D7A3. -/
def isHangul (c : Char) : Bool := 0xac00 ≤ c.toNat && c.toNat ≤ 0xd7a3

/-- The Unicode tables that `str.lower` reads: the full lower-case mapping of a character, and the
two properties that decide how a capital sigma is mapped. The facts are those that all versions
share: no character vanishes, ASCII and whitespace are mapped as usual, Hangul has no case, and neither
whitespace nor Hangul is the image of another character. -/
structure CaseTable where
  lowerOf : Char → List Char
  cased : Char → Bool
  caseIgnorable : Char → Bool
  lowerOf_ne_nil : ∀ c, lowerOf c ≠ []
  lowerOf_ascii : ∀ c, c.toNat < 128 → lowerOf c = [c.toLower]
  lowerOf_space : ∀ c, isSpace c = true → lowerOf c = [c]
  lowerOf_hangul : ∀ c, isHangul c = true → lowerOf c = [c]
  of_lowerOf_space : ∀ c d, d ∈ lowerOf c → isSpace d = true → d = c
  of_lowerOf_hangul : ∀ c d, d ∈ lowerOf c → isHangul d = true → d = c

/-- `handle_capital_sigma`: a capital sigma is final when a cased letter comes before it and none
follows, both up to characters that are ignored. `before` is the text before it, nearest first. -/
def finalSigma (U : CaseTable) (before rest : List Char) : Bool :=
  (before.dropWhile U.caseIgnorable).head?.any U.cased &&
    !(rest.dropWhile U.caseIgnorable).head?.any U.cased

/-- `str.lower()` of the text that follows `before`. -/
def lowerFrom (U : CaseTable) : (before : List Char) → List Char → List Char
  | _, [] => []
  | before, c :: rest =>
    (if c = 'Σ' then [if finalSigma U before rest then 'ς' else 'σ'] else U.lowerOf c) ++
      lowerFrom U (c :: before) rest

/-- `str.lower()`. -/
def lower (U : CaseTable) (s : List Char) : List Char := lowerFrom U [] s

/-- ASCII or Hangul: every case table agrees on these. -/
def isPlain (c : Char) : Bool := c.toNat < 128 || isHangul c

/-- `Char.toLower` maps ASCII letters only. -/
theorem toLower_of_hangul {c : Char} (h : isHangul c = true) : c.toLower = c := by
  simp only [isHangul, Bool.and_eq_true, decide_eq_true_eq, Char.toNat] at h
  have hA : ¬ (c.val ≥ 65 ∧ c.val ≤ 90) := by
    rintro ⟨-, h2⟩
    have := UInt32.le_iff_toNat_le.mp h2
    simp only [UInt32.reduceToNat] at this
    omega
  exact dif_neg hA

/-- On plain text, lower-casing is `Char.toLower` on each character, for every case table. -/
theorem lower_plain (U : CaseTable) {s : List Char} (h : ∀ c ∈ s, isPlain c = true) :
    lower U s = s.map Char.toLower := by
  suffices ∀ before, lowerFrom U before s = s.map Char.toLower from this []
  induction s with
  | nil => intro _; rfl
  | cons c s ih =>
    intro before
    have hc : isPlain c = true := h c (by simp)
    have hσ : c ≠ 'Σ' := by rintro rfl; exact absurd hc (by decide)
    have hlow : U.lowerOf c = [c.toLower] := by
      simp only [isPlain, Bool.or_eq_true, decide_eq_true_eq] at hc
      rcases hc with hc | hc
      · exact U.lowerOf_ascii c hc
      · rw [U.lowerOf_hangul c hc, toLower_of_hangul hc]
    rw [lowerFrom, if_neg hσ, hlow, ih (fun d hd => h d (by simp [hd]))]
    rfl

/-- Lower-casing an ASCII character does nothing, or it turns a letter into a letter. -/
theorem toLower_ascii_cases {c : Char} (h : c.toNat < 128) : c.toLower = c ∨
    isSpace c = false ∧ isSpace c.toLower = false ∧ isHangul c.toLower = false := by
  have table : ∀ n < 128, (Char.ofNat n).toLower = Char.ofNat n ∨
      isSpace (Char.ofNat n) = false ∧ isSpace (Char.ofNat n).toLower = false ∧
        isHangul (Char.ofNat n).toLower = false := by decide
  have := table c.toNat h
  rwa [Char.ofNat_toNat] at this

/-- The smallest case table: only ASCII letters have case. -/
def asciiCase : CaseTable where
  lowerOf c := [if c.toNat < 128 then c.toLower else c]
  cased c := c.isAlpha
  caseIgnorable c := c = '.' || c = ':' || c = '^'
  lowerOf_ne_nil _ := by simp
  lowerOf_ascii c hc := by rw [if_pos hc]
  lowerOf_space c hc := by
    split
    · rename_i h
      rcases toLower_ascii_cases h with h | h
      · rw [h]
      · rw [h.1] at hc; cases hc
    · rfl
  lowerOf_hangul c hc := by rw [toLower_of_hangul hc, ite_self]
  of_lowerOf_space c d hd hs := by
    rw [List.mem_singleton] at hd
    split at hd
    · rename_i h
      rcases toLower_ascii_cases h with h | h
      · rw [hd, h]
      · rw [hd, h.2.1] at hs; cases hs
    · exact hd
  of_lowerOf_hangul c d hd hs := by
    rw [List.mem_singleton] at hd
    split at hd
    · rename_i h
      rcases toLower_ascii_cases h with h | h
      · rw [hd, h]
      · rw [hd, h.2.2] at hs; cases hs
    · exact hd

end YeounEngine
