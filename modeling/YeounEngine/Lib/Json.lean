import Mathlib.Data.List.Basic
import Mathlib.Data.Nat.Basic

/-!
# JSON objects of texts

`json.dumps` with its defaults, on a dictionary whose values are texts or null, and what `json.loads` reads from
it. Every character outside of printable ASCII is escaped, the ones beyond U+FFFF as a surrogate pair, so what is
written is one line of printable ASCII (`printable_dumps`); and it is read back as it was (`loads_dumps`).
-/

namespace Json

/-! ## Writing -/

/-- The digits of `'\\u{0:04x}'`. -/
def hex4 (n : Nat) : List Char :=
  [Nat.digitChar (n / 4096 % 16), Nat.digitChar (n / 256 % 16), Nat.digitChar (n / 16 % 16), Nat.digitChar (n % 16)]

def unicodeEscape (n : Nat) : List Char := '\\' :: 'u' :: hex4 n

/-- `ESCAPE_DCT`: the characters with an escape of their own. -/
def shortEscape : Char → Option Char
  | '"' => some '"'
  | '\\' => some '\\'
  | '\n' => some 'n'
  | '\r' => some 'r'
  | '\t' => some 't'
  | '\x08' => some 'b'
  | '\x0c' => some 'f'
  | _ => none

/-- From space to tilde. -/
def printable (c : Char) : Bool := 32 ≤ c.toNat && c.toNat ≤ 126

/-- One character of `py_encode_basestring_ascii`. -/
def escape (c : Char) : List Char :=
  match shortEscape c with
  | some e => ['\\', e]
  | none =>
    if printable c then [c]
    else if c.toNat < 0x10000 then unicodeEscape c.toNat
    else unicodeEscape (0xd800 + (c.toNat - 0x10000) / 1024) ++ unicodeEscape (0xdc00 + (c.toNat - 0x10000) % 1024)

/-- `py_encode_basestring_ascii`. -/
def encodeString (s : List Char) : List Char := '"' :: s.flatMap escape ++ ['"']

/-- A text or null. -/
def encodeValue : Option (List Char) → List Char
  | none => ['n', 'u', 'l', 'l']
  | some s => encodeString s

def encodeMember (m : List Char × Option (List Char)) : List Char := encodeString m.1 ++ ':' :: ' ' :: encodeValue m.2

/-- The members with their separators, up to the end of the object. -/
def encodeMembers : List (List Char × Option (List Char)) → List Char
  | [] => ['\x7d']
  | [m] => encodeMember m ++ ['\x7d']
  | m :: ms => encodeMember m ++ ',' :: ' ' :: encodeMembers ms

/-- `json.dumps`; `\x7b` and `\x7d` are the braces. -/
def dumps (fields : List (List Char × Option (List Char))) : List Char := '\x7b' :: encodeMembers fields

/-! ## Reading -/

def isSpace (c : Char) : Bool := c = ' ' || c = '\t' || c = '\n' || c = '\r'

def hexValue (c : Char) : Option Nat :=
  if '0' ≤ c ∧ c ≤ '9' then some (c.toNat - 48)
  else if 'a' ≤ c ∧ c ≤ 'f' then some (c.toNat - 87)
  else if 'A' ≤ c ∧ c ≤ 'F' then some (c.toNat - 55)
  else none

/-- `_decode_uXXXX`. -/
def decode4 (a b c d : Char) : Option Nat :=
  (hexValue a).bind fun a => (hexValue b).bind fun b => (hexValue c).bind fun c => (hexValue d).map fun d =>
    ((a * 16 + b) * 16 + c) * 16 + d

/-- `BACKSLASH`. -/
def unescape : Char → Option Char
  | '"' => some '"'
  | '\\' => some '\\'
  | '/' => some '/'
  | 'n' => some '\n'
  | 'r' => some '\r'
  | 't' => some '\t'
  | 'b' => some '\x08'
  | 'f' => some '\x0c'
  | _ => none

def highSurrogate (n : Nat) : Bool := 0xd800 ≤ n && n ≤ 0xdbff

def lowSurrogate (n : Nat) : Bool := 0xdc00 ≤ n && n ≤ 0xdfff

/-- `py_scanstring` after the opening quote: the text, and what is behind the closing one. A surrogate that is not
one of a pair is no character. -/
def scanString : List Char → Option (List Char × List Char)
  | [] => none
  | '"' :: rest => some ([], rest)
  | '\\' :: 'u' :: a :: b :: c :: d :: rest =>
    (decode4 a b c d).bind fun n =>
      if highSurrogate n then
        match rest with
        | '\\' :: 'u' :: e :: f :: g :: h :: rest =>
          (decode4 e f g h).bind fun m =>
            if lowSurrogate m then
              (scanString rest).map fun r => (Char.ofNat (0x10000 + (n - 0xd800) * 1024 + (m - 0xdc00)) :: r.1, r.2)
            else none
        | _ => none
      else if lowSurrogate n then none
      else (scanString rest).map fun r => (Char.ofNat n :: r.1, r.2)
  | '\\' :: c :: rest => (unescape c).bind fun u => (scanString rest).map fun r => (u :: r.1, r.2)
  | c :: rest => if c.toNat < 32 then none else (scanString rest).map fun r => (c :: r.1, r.2)

/-- A text or null; no other value is read. -/
def scanValue : List Char → Option (Option (List Char) × List Char)
  | '"' :: rest => (scanString rest).map fun r => (some r.1, r.2)
  | 'n' :: 'u' :: 'l' :: 'l' :: rest => some (none, rest)
  | _ => none

/-- A key, a colon and a value, with whitespace around the colon and behind the value. -/
def scanMember : List Char → Option ((List Char × Option (List Char)) × List Char)
  | '"' :: rest => (scanString rest).bind fun k =>
    match k.2.dropWhile isSpace with
    | ':' :: rest => (scanValue (rest.dropWhile isSpace)).map fun v => ((k.1, v.1), v.2.dropWhile isSpace)
    | _ => none
  | _ => none

/-- The members of an object, up to its end; the text has no more members than characters. -/
def scanMembers : (fuel : Nat) → List Char → Option (List (List Char × Option (List Char)) × List Char)
  | 0, _ => none
  | fuel + 1, text => (scanMember text).bind fun m =>
    match m.2 with
    | '\x7d' :: rest => some ([m.1], rest)
    | ',' :: rest => (scanMembers fuel (rest.dropWhile isSpace)).map fun ms => (m.1 :: ms.1, ms.2)
    | _ => none

/-- `json.loads`, of an object of texts. -/
def loads (text : List Char) : Option (List (List Char × Option (List Char))) :=
  match text.dropWhile isSpace with
  | '\x7b' :: rest =>
    match rest.dropWhile isSpace with
    | '\x7d' :: rest => if rest.all isSpace then some [] else none
    | rest => (scanMembers rest.length rest).bind fun ms => if ms.2.all isSpace then some ms.1 else none
  | _ => none

/-! ## What is written -/

section
variable {c : Char} {s : List Char} {n : Nat}

theorem printable_digitChar (h : n < 16) : printable (Nat.digitChar n) = true := by
  have table : ∀ k < 16, printable (Nat.digitChar k) = true := by decide
  exact table n h

theorem printable_hex4 (hc : c ∈ hex4 n) : printable c = true := by
  simp only [hex4, List.mem_cons, List.not_mem_nil, or_false] at hc
  rcases hc with rfl | rfl | rfl | rfl <;> exact printable_digitChar (Nat.mod_lt _ (by decide))

theorem printable_unicodeEscape (hc : c ∈ unicodeEscape n) : printable c = true := by
  rcases List.mem_cons.mp hc with rfl | hc
  · decide
  · rcases List.mem_cons.mp hc with rfl | hc
    · decide
    · exact printable_hex4 hc

/-- The characters with an escape of their own, and their escapes. -/
theorem shortEscape_cases {e : Char} (h : shortEscape c = some e) :
    printable e = true ∧ unescape e = some c ∧ e ≠ 'u' := by
  unfold shortEscape at h
  split at h <;> cases h <;> decide

/-- A character without an escape of its own is no quote and no backslash. -/
theorem ne_of_shortEscape (h : shortEscape c = none) : c ≠ '"' ∧ c ≠ '\\' := by
  constructor <;> rintro rfl <;> cases h

theorem printable_escape {d : Char} (hd : d ∈ escape c) : printable d = true := by
  unfold escape at hd
  split at hd
  · rename_i e he
    simp only [List.mem_cons, List.not_mem_nil, or_false] at hd
    rcases hd with rfl | rfl
    · decide
    · exact (shortEscape_cases he).1
  · split at hd
    · rename_i hp
      rw [List.mem_singleton.mp hd]
      exact hp
    · split at hd
      · exact printable_unicodeEscape hd
      · rcases List.mem_append.mp hd with hd | hd <;> exact printable_unicodeEscape hd

theorem printable_encodeString (hc : c ∈ encodeString s) : printable c = true := by
  rcases List.mem_append.mp hc with hc | hc
  · rcases List.mem_cons.mp hc with rfl | hc
    · decide
    · obtain ⟨d, -, hd⟩ := List.mem_flatMap.mp hc
      exact printable_escape hd
  · rw [List.mem_singleton.mp hc]
    decide

theorem printable_encodeMember {m : List Char × Option (List Char)} (hc : c ∈ encodeMember m) :
    printable c = true := by
  obtain ⟨key, value⟩ := m
  rcases List.mem_append.mp hc with hc | hc
  · exact printable_encodeString hc
  · rcases List.mem_cons.mp hc with rfl | hc
    · decide
    · rcases List.mem_cons.mp hc with rfl | hc
      · decide
      · cases value with
        | none =>
          simp only [encodeValue, List.mem_cons, List.not_mem_nil, or_false] at hc
          rcases hc with rfl | rfl | rfl | rfl <;> decide
        | some s => exact printable_encodeString hc

/-- What is written is one line of printable ASCII. -/
theorem printable_dumps {fields : List (List Char × Option (List Char))} :
    ∀ c ∈ dumps fields, printable c = true := by
  have members : ∀ c ∈ encodeMembers fields, printable c = true := by
    intro c hc
    fun_induction encodeMembers fields with
    | case1 =>
      rw [List.mem_singleton.mp hc]
      decide
    | case2 m =>
      rcases List.mem_append.mp hc with hc | hc
      · exact printable_encodeMember hc
      · rw [List.mem_singleton.mp hc]
        decide
    | case3 m ms _ ih =>
      rcases List.mem_append.mp hc with hc | hc
      · exact printable_encodeMember hc
      · rcases List.mem_cons.mp hc with rfl | hc
        · decide
        · rcases List.mem_cons.mp hc with rfl | hc
          · decide
          · exact ih hc
  intro c hc
  rcases List.mem_cons.mp hc with rfl | hc
  · decide
  · exact members c hc

end

/-! ## What is read back -/

section
variable {c : Char} {s rest : List Char} {n : Nat}

theorem hexValue_digitChar (h : n < 16) : hexValue (Nat.digitChar n) = some n := by
  have table : ∀ k < 16, hexValue (Nat.digitChar k) = some k := by decide
  exact table n h

theorem decode4_hex4 (h : n < 0x10000) : decode4 (Nat.digitChar (n / 4096 % 16)) (Nat.digitChar (n / 256 % 16))
    (Nat.digitChar (n / 16 % 16)) (Nat.digitChar (n % 16)) = some n := by
  simp only [decode4, hexValue_digitChar (Nat.mod_lt _ (by decide : 0 < 16)), Option.bind_some, Option.map_some]
  congr 1
  omega

/-- A character is no surrogate. -/
theorem not_surrogate (c : Char) : highSurrogate c.toNat = false ∧ lowSurrogate c.toNat = false := by
  have hvalid : c.toNat < 0xd800 ∨ 0xdfff < c.toNat ∧ c.toNat < 0x110000 := c.valid
  simp only [highSurrogate, lowSurrogate, Bool.and_eq_false_iff, decide_eq_false_iff_not]
  omega

theorem scanString_unicodeEscape (h : n < 0x10000) (hn : highSurrogate n = false ∧ lowSurrogate n = false) :
    scanString (unicodeEscape n ++ rest) = (scanString rest).map fun r => (Char.ofNat n :: r.1, r.2) := by
  simp only [unicodeEscape, hex4, List.cons_append, List.nil_append, scanString, decode4_hex4 h, Option.bind_some, hn.1,
    hn.2, Bool.false_eq_true, if_false]

/-- Both halves of a pair. -/
theorem scanString_surrogates {m : Nat} (hn : n < 0x400) (hm : m < 0x400) :
    scanString (unicodeEscape (0xd800 + n) ++ (unicodeEscape (0xdc00 + m) ++ rest)) =
      (scanString rest).map fun r => (Char.ofNat (0x10000 + n * 1024 + m) :: r.1, r.2) := by
  have hhigh : highSurrogate (0xd800 + n) = true := by
    simp only [highSurrogate, Bool.and_eq_true, decide_eq_true_eq]
    omega
  have hlow : lowSurrogate (0xdc00 + m) = true := by
    simp only [lowSurrogate, Bool.and_eq_true, decide_eq_true_eq]
    omega
  simp only [unicodeEscape, hex4, List.cons_append, List.nil_append, scanString,
    decode4_hex4 (show 0xd800 + n < 0x10000 by omega), decode4_hex4 (show 0xdc00 + m < 0x10000 by omega),
    Option.bind_some, hhigh, hlow, if_true, Nat.add_sub_cancel_left]

/-- A character is read back from its escape. -/
theorem scanString_escape : scanString (escape c ++ rest) = (scanString rest).map fun r => (c :: r.1, r.2) := by
  unfold escape
  split
  · rename_i e he
    obtain ⟨-, hunescape, hne⟩ := shortEscape_cases he
    simp only [List.cons_append, List.nil_append]
    rw [scanString]
    · rw [hunescape, Option.bind_some]
    · rintro a b d f rest' rfl
      exact absurd rfl hne
  · rename_i hnone
    obtain ⟨hquote, hslash⟩ := ne_of_shortEscape hnone
    split
    · rename_i hp
      simp only [printable, Bool.and_eq_true, decide_eq_true_eq] at hp
      simp only [List.cons_append, List.nil_append]
      rw [scanString]
      · rw [if_neg (by omega)]
      · exact hquote
      · rintro a b d f rest' rfl
        exact absurd rfl hslash
      · rintro d rest' rfl
        exact absurd rfl hslash
    · split
      · rename_i hlt
        rw [scanString_unicodeEscape hlt (not_surrogate c), Char.ofNat_toNat]
      · rename_i hge
        have hvalid : c.toNat < 0xd800 ∨ 0xdfff < c.toNat ∧ c.toNat < 0x110000 := c.valid
        rw [List.append_assoc, scanString_surrogates (by omega) (by omega)]
        have hchar : 0x10000 + (c.toNat - 0x10000) / 1024 * 1024 + (c.toNat - 0x10000) % 1024 = c.toNat := by omega
        rw [hchar, Char.ofNat_toNat]

/-- A text is read back up to its closing quote. -/
theorem scanString_encode : scanString (s.flatMap escape ++ '"' :: rest) = some (s, rest) := by
  induction s with
  | nil => rfl
  | cons c s ih =>
    rw [List.flatMap_cons, List.append_assoc, scanString_escape, ih]
    rfl

theorem scanValue_encode {v : Option (List Char)} : scanValue (encodeValue v ++ rest) = some (v, rest) := by
  cases v with
  | none => rfl
  | some s =>
    simp only [encodeValue, encodeString, List.cons_append, List.append_assoc, List.nil_append, scanValue,
      scanString_encode, Option.map_some]

/-- No whitespace in front. -/
def Tight (text : List Char) : Prop := text.dropWhile isSpace = text

theorem tight_encodeValue {v : Option (List Char)} : Tight (encodeValue v ++ rest) := by
  cases v <;> rfl

/-- A member is read back up to the separator behind it. -/
theorem scanMember_encode {m : List Char × Option (List Char)} (h : Tight rest) :
    scanMember (encodeMember m ++ rest) = some (m, rest) := by
  have hvalue : (' ' :: (encodeValue m.2 ++ rest)).dropWhile isSpace = encodeValue m.2 ++ rest := tight_encodeValue
  simp only [encodeMember, encodeString, List.cons_append, List.append_assoc, List.nil_append, scanMember,
    scanString_encode, Option.bind_some]
  change ((scanValue ((' ' :: (encodeValue m.2 ++ rest)).dropWhile isSpace)).map fun v =>
    ((m.1, v.1), v.2.dropWhile isSpace)) = _
  rw [hvalue, scanValue_encode, Option.map_some, h]

theorem tight_encodeMembers (fields : List (List Char × Option (List Char))) : Tight (encodeMembers fields) := by
  cases fields with
  | nil => rfl
  | cons m ms => cases ms <;> rfl

/-- The members are read back, up to the end of the object. -/
theorem scanMembers_encode {fields : List (List Char × Option (List Char))} {fuel : Nat} (hne : fields ≠ [])
    (h : fields.length ≤ fuel) : scanMembers fuel (encodeMembers fields) = some (fields, []) := by
  fun_induction encodeMembers fields generalizing fuel with
  | case1 => exact absurd rfl hne
  | case2 m =>
    obtain ⟨fuel, rfl⟩ : ∃ k, fuel = k + 1 := ⟨fuel - 1, by rw [List.length_singleton] at h; omega⟩
    simp only [scanMembers, scanMember_encode (show Tight ['\x7d'] from rfl), Option.bind_some]
  | case3 m ms hms ih =>
    obtain ⟨fuel, rfl⟩ : ∃ k, fuel = k + 1 := ⟨fuel - 1, by rw [List.length_cons] at h; omega⟩
    have hskip : (' ' :: encodeMembers ms).dropWhile isSpace = encodeMembers ms := tight_encodeMembers ms
    have hrest : scanMembers fuel (encodeMembers ms) = some (ms, []) := by
      refine ih hms ?_
      rw [List.length_cons] at h
      omega
    rw [scanMembers, scanMember_encode (show Tight (',' :: ' ' :: encodeMembers ms) from rfl), Option.bind_some]
    change (scanMembers fuel ((' ' :: encodeMembers ms).dropWhile isSpace)).map _ = _
    rw [hskip, hrest, Option.map_some]

theorem length_le_encodeMembers {fields : List (List Char × Option (List Char))} :
    fields.length ≤ (encodeMembers fields).length := by
  fun_induction encodeMembers fields with
  | case1 => exact Nat.zero_le _
  | case2 m =>
    rw [List.length_append, List.length_singleton, List.length_singleton]
    omega
  | case3 m ms _ ih =>
    rw [List.length_append, List.length_cons, List.length_cons, List.length_cons]
    omega

/-- An object is read back as it was written. -/
theorem loads_dumps (fields : List (List Char × Option (List Char))) : loads (dumps fields) = some fields := by
  cases fields with
  | nil => rfl
  | cons m ms =>
    have hmembers := scanMembers_encode (List.cons_ne_nil m ms) length_le_encodeMembers
    obtain ⟨text, htext⟩ : ∃ text, encodeMembers (m :: ms) = '"' :: text := by
      cases ms <;> exact ⟨_, rfl⟩
    rw [dumps, htext]
    rw [htext] at hmembers
    change (scanMembers ('"' :: text).length ('"' :: text)).bind _ = _
    rw [hmembers]
    rfl

end

end Json
