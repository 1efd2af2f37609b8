import YeounEngine.Lib.Paths

/-!
# Paths of code points

A text may hold any code point, a lone surrogate too (`CodePoint`). A file system has bytes, and `CodePoint.bytes` is
the code between the two: UTF-8, in which a surrogate from U+DC80 to U+DCFF stands for a byte that is not UTF-8. The
other surrogates have no code.

The code keeps what characters mean in a path: names are names in bytes (`isName_fsencode`), and what is within a
location is within it in bytes (`Location.Within.fsencode`).
-/

namespace Posix

open PathChar (slash point null encodes)

@[ext] structure CodePoint where
  val : Nat
  lt : val < 0x110000
  deriving DecidableEq

namespace CodePoint

theorem toNat_lt (c : Char) : c.toNat < 0x110000 := by
  rcases c.valid with h | ⟨-, h⟩
  · exact h.trans (by decide)
  · exact h

def ofChar (c : Char) : CodePoint := ⟨c.toNat, toNat_lt c⟩

def isSurrogate (c : CodePoint) : Bool := 0xd800 ≤ c.val && c.val ≤ 0xdfff

/-- The surrogates that stand for bytes. -/
def isEscape (c : CodePoint) : Bool := 0xdc80 ≤ c.val && c.val ≤ 0xdcff

/-- The code of a character, when it has one. -/
def bytes (c : CodePoint) : List UInt8 :=
  if c.val < 0x80 then [.ofNat c.val]
  else if c.isEscape then [.ofNat (c.val - 0xdc00)]
  else if c.val < 0x800 then [.ofNat (0xc0 + c.val / 0x40), .ofNat (0x80 + c.val % 0x40)]
  else if c.val < 0x10000 then
    [.ofNat (0xe0 + c.val / 0x1000), .ofNat (0x80 + c.val / 0x40 % 0x40), .ofNat (0x80 + c.val % 0x40)]
  else
    [.ofNat (0xf0 + c.val / 0x40000), .ofNat (0x80 + c.val / 0x1000 % 0x40), .ofNat (0x80 + c.val / 0x40 % 0x40),
      .ofNat (0x80 + c.val % 0x40)]

end CodePoint

/-- The code points of a text without surrogates. -/
def codePoints (s : String) : List CodePoint := s.toList.map CodePoint.ofChar

instance : PathChar CodePoint where
  slash := .ofChar '/'
  point := .ofChar '.'
  null := .ofChar '\x00'
  encodes c := !c.isSurrogate || c.isEscape
  point_ne_slash := by decide
  point_ne_null := by decide

instance : PathChar UInt8 where
  slash := 0x2f
  point := 0x2e
  null := 0
  encodes _ := true
  point_ne_slash := by decide
  point_ne_null := by decide

/-- The bytes of a text that can be encoded. -/
def fsencode (s : List CodePoint) : List UInt8 := s.flatMap CodePoint.bytes

section
variable {c : CodePoint} {s p : List CodePoint} {b : UInt8}

/-- ASCII is its own code, and the code of any other character has no ASCII in it. -/
theorem bytes_cases (c : CodePoint) :
    (c.val < 0x80 ∧ c.bytes.map UInt8.toNat = [c.val]) ∨ (c.bytes ≠ [] ∧ ∀ b ∈ c.bytes, 0x80 ≤ b.toNat) := by
  by_cases hascii : c.val < 0x80
  · refine .inl ⟨hascii, ?_⟩
    rw [CodePoint.bytes, if_pos hascii, List.map_singleton, UInt8.toNat_ofNat', Nat.mod_eq_of_lt (by omega)]
  · refine .inr ?_
    have hlt := c.lt
    have htail : ∀ n, 0x80 ≤ (0x80 + n % 0x40) % 256 := by omega
    rw [CodePoint.bytes, if_neg hascii]
    split
    · rename_i hescape
      rw [CodePoint.isEscape, Bool.and_eq_true, decide_eq_true_eq, decide_eq_true_eq] at hescape
      simp only [ne_eq, List.cons_ne_nil, not_false_eq_true, List.mem_singleton, forall_eq, true_and,
        UInt8.toNat_ofNat']
      omega
    · split
      · simp only [ne_eq, List.cons_ne_nil, not_false_eq_true, List.forall_mem_cons, List.not_mem_nil, false_implies,
          implies_true, and_true, true_and, UInt8.toNat_ofNat']
        exact ⟨by omega, htail _⟩
      · split
        · simp only [ne_eq, List.cons_ne_nil, not_false_eq_true, List.forall_mem_cons, List.not_mem_nil, false_implies,
            implies_true, and_true, true_and, UInt8.toNat_ofNat']
          exact ⟨by omega, htail _, htail _⟩
        · simp only [ne_eq, List.cons_ne_nil, not_false_eq_true, List.forall_mem_cons, List.not_mem_nil, false_implies,
            implies_true, and_true, true_and, UInt8.toNat_ofNat']
          exact ⟨by omega, htail _, htail _, htail _⟩

/-- ASCII bytes come from the same characters. -/
theorem mem_of_mem_fsencode (hb : b ∈ fsencode s) (hascii : b.toNat < 0x80) : ∃ c ∈ s, c.val = b.toNat := by
  obtain ⟨c, hc, hb⟩ := List.mem_flatMap.mp hb
  rcases bytes_cases c with ⟨-, hbytes⟩ | ⟨-, hbytes⟩
  · have hmem := List.mem_map_of_mem (f := UInt8.toNat) hb
    rw [hbytes, List.mem_singleton] at hmem
    exact ⟨c, hc, hmem.symm⟩
  · exact absurd (hbytes b hb) (by omega)

/-- A text whose code is ASCII is this text. -/
theorem map_val_of_ascii (h : ∀ b ∈ fsencode s, b.toNat < 0x80) :
    s.map CodePoint.val = (fsencode s).map UInt8.toNat := by
  induction s with
  | nil => rfl
  | cons c s ih =>
    rw [fsencode, List.flatMap_cons, ← fsencode] at h ⊢
    rw [List.map_cons, List.map_append, ih fun b hb => h b (List.mem_append_right _ hb)]
    rcases bytes_cases c with ⟨-, hbytes⟩ | ⟨hne, hbytes⟩
    · rw [hbytes, List.singleton_append]
    · obtain ⟨b, rest, hrest⟩ := List.exists_cons_of_ne_nil hne
      have hb : b ∈ c.bytes := hrest ▸ List.mem_cons_self
      exact absurd (h b (List.mem_append_left _ hb)) (by have := hbytes b hb; omega)

theorem eq_of_fsencode_eq {t : List CodePoint} (h : fsencode s = fsencode t) (ht : ∀ b ∈ fsencode t, b.toNat < 0x80) :
    s = t := by
  have hmap : s.map CodePoint.val = t.map CodePoint.val := by
    rw [map_val_of_ascii (h ▸ ht), map_val_of_ascii ht, h]
  exact List.map_injective_iff.mpr (fun _ _ => CodePoint.ext) hmap

theorem ascii_points (n : Nat) : ∀ b ∈ fsencode (List.replicate n point), b.toNat < 0x80 := by
  intro b hb
  obtain ⟨c, hc, hb⟩ := List.mem_flatMap.mp hb
  rw [List.eq_of_mem_replicate hc] at hb
  have hpoint : b = 0x2e := List.mem_singleton.mp hb
  rw [hpoint]
  decide

/-- A name is a name in bytes. -/
theorem isName_fsencode (hp : IsName p) : IsName (fsencode p) where
  ne_nil h := hp.ne_nil (eq_of_fsencode_eq h (ascii_points 0))
  ne_dot h := hp.ne_dot (eq_of_fsencode_eq h (ascii_points 1))
  ne_dotdot h := hp.ne_dotdot (eq_of_fsencode_eq h (ascii_points 2))
  no_slash h := by
    obtain ⟨c, hc, hval⟩ := mem_of_mem_fsencode h (by decide)
    have heq : c = slash := CodePoint.ext hval
    rw [heq] at hc
    exact hp.no_slash hc
  no_null h := by
    obtain ⟨c, hc, hval⟩ := mem_of_mem_fsencode h (by decide)
    have heq : c = null := CodePoint.ext hval
    rw [heq] at hc
    exact hp.no_null hc

end

/-- A location in bytes. -/
def Location.fsencode (l : Location CodePoint) : Location UInt8 where
  names := l.names.map Posix.fsencode
  valid p hp := by
    obtain ⟨q, hq, rfl⟩ := List.mem_map.mp hp
    exact isName_fsencode (l.valid q hq)

theorem Location.Within.fsencode {l m : Location CodePoint} (h : l.Within m) : l.fsencode.Within m.fsencode :=
  List.IsPrefix.map _ h

end Posix
