import Mathlib.Data.List.Infix

/-!
# POSIX paths

The texts that name files, what a path library makes of them, and the locations that they lead to. A text is a
list of characters of any kind (`PathChar`): the slash, the dot and the null character mean something in a path, and
the file system may have no code for some of the others.

A location (`Posix.Location`) is the list of names from the root down; `Location.follow` is what a text means: the
parts between its slashes are walked one after the other, from the root when it starts with a slash. A pure path
(`Posix.PurePath`) is what `pathlib` keeps of a text: whether it is absolute and its parts, without the ones that say
nothing; joining starts again at an absolute text, and `..` stays until the path is resolved, which asks the system
for each name on the way (`realpath`). No entry on the way is a link.

`PurePath.resolve_joinpath` says that joining and then resolving is following the texts one after the other.
-/

namespace Posix

/-! ## Characters -/

/-- The characters of paths. `encodes` says which of them the file system has a code for. -/
class PathChar (χ : Type) [DecidableEq χ] where
  slash : χ
  point : χ
  null : χ
  encodes : χ → Bool
  point_ne_slash : point ≠ slash
  point_ne_null : point ≠ null

open PathChar (slash point null encodes)

instance : PathChar Char where
  slash := '/'
  point := '.'
  null := '\x00'
  encodes _ := true
  point_ne_slash := by decide
  point_ne_null := by decide

variable {χ : Type} [DecidableEq χ] [PathChar χ]

/-! ## Parts and names -/

/-- What stands between two slashes. -/
abbrev PathPart (χ : Type) := List χ

def dot : PathPart χ := [point]

def dotdot : PathPart χ := [point, point]

/-- What a system call refuses: `ValueError("embedded null byte")`. -/
def HasNull (s : List χ) : Prop := null ∈ s

/-- The file system has a code for every character. -/
def Encodable (s : List χ) : Prop := ∀ c ∈ s, encodes c = true

/-- A part that names an entry of a directory. -/
structure IsName (p : PathPart χ) : Prop where
  ne_nil : p ≠ []
  ne_dot : p ≠ dot
  ne_dotdot : p ≠ dotdot
  no_slash : slash ∉ p
  no_null : ¬ HasNull p

theorem encodable_char {s : List Char} : Encodable s := fun _ _ => rfl

instance (s : List χ) : Decidable (Encodable s) := inferInstanceAs (Decidable (∀ _ ∈ _, _))

instance (s : List χ) : Decidable (HasNull s) := inferInstanceAs (Decidable (_ ∈ _))

instance (p : PathPart χ) : Decidable (IsName p) :=
  decidable_of_iff (p ≠ [] ∧ p ≠ dot ∧ p ≠ dotdot ∧ slash ∉ p ∧ ¬ HasNull p)
    ⟨fun ⟨h₁, h₂, h₃, h₄, h₅⟩ => ⟨h₁, h₂, h₃, h₄, h₅⟩, fun ⟨h₁, h₂, h₃, h₄, h₅⟩ => ⟨h₁, h₂, h₃, h₄, h₅⟩⟩

/-- A part with a character besides dots. -/
theorem isName_of_mem {p : PathPart χ} {c : χ} (hc : c ∈ p) (hdot : c ≠ point) (hslash : slash ∉ p)
    (hnull : ¬ HasNull p) :
    IsName p where
  ne_nil := List.ne_nil_of_mem hc
  ne_dot := by
    rintro rfl
    exact hdot (by simpa [dot] using hc)
  ne_dotdot := by
    rintro rfl
    exact hdot (by simpa [dotdot] using hc)
  no_slash := hslash
  no_null := hnull

/-- The parts of a text. -/
def partsOf (s : List χ) : List (PathPart χ) := s.splitOn slash

theorem mem_of_mem_partsOf {s : List χ} {p : PathPart χ} {c : χ} (hp : p ∈ partsOf s) (hc : c ∈ p) : c ∈ s := by
  have hmem : ∀ ps : List (PathPart χ), p ∈ ps → c ∈ [slash].intercalate ps := by
    intro ps hps
    induction ps with
    | nil => cases hps
    | cons q ps ih =>
      cases ps with
      | nil => simpa [List.mem_singleton.mp hps] using hc
      | cons q' ps =>
        rw [List.intercalate_cons_cons]
        rcases List.mem_cons.mp hps with rfl | hps
        · exact List.mem_append_left _ (List.mem_append_left _ hc)
        · exact List.mem_append_right _ (ih hps)
  have := hmem _ hp
  rwa [partsOf, List.intercalate_splitOn] at this

/-- A text is what its parts make. -/
theorem partsOf_inj {s s' : List χ} : partsOf s = partsOf s' ↔ s = s' := by
  refine ⟨fun h => ?_, fun h => h ▸ rfl⟩
  have := congrArg ([slash].intercalate ·) h
  simpa only [partsOf, List.intercalate_splitOn] using this

theorem partsOf_eq_singleton {s : List χ} (hs : slash ∉ s) : partsOf s = [s] := List.splitOn_eq_singleton hs

theorem partsOf_append {p s : List χ} (hp : slash ∉ p) : partsOf (p ++ slash :: s) = p :: partsOf s :=
  List.splitOn_append_cons_self_of_not_mem hp s

theorem not_slash_of_mem_partsOf {s : List χ} : ∀ p ∈ partsOf s, slash ∉ p := by
  induction s with
  | nil =>
    intro p hp
    rw [List.mem_singleton.mp hp]
    exact List.not_mem_nil
  | cons c s ih =>
    rw [partsOf, List.splitOn_cons_eq_if_modifyHead]
    split
    · intro p hp
      rcases List.mem_cons.mp hp with rfl | hp
      · exact List.not_mem_nil
      · exact ih p hp
    · rename_i hc
      obtain ⟨q, ps, hps⟩ := List.exists_cons_of_ne_nil (List.splitOn_ne_nil slash s)
      rw [partsOf, hps] at ih
      rw [hps, List.modifyHead_cons]
      intro p hp
      rcases List.mem_cons.mp hp with rfl | hp
      · intro hmem
        rcases List.mem_cons.mp hmem with rfl | hmem
        · exact hc (beq_self_eq_true slash)
        · exact ih q List.mem_cons_self hmem
      · exact ih p (List.mem_cons_of_mem q hp)

/-! ## Locations -/

/-- A location: the names from the root down to it. -/
@[ext] structure Location (χ : Type) [DecidableEq χ] [PathChar χ] where
  names : List (PathPart χ)
  valid : ∀ p ∈ names, IsName p

namespace Location

instance : DecidableEq (Location χ) := fun _ _ => decidable_of_iff _ Location.ext_iff.symm

def root : Location χ := ⟨[], fun _ hp => absurd hp List.not_mem_nil⟩

/-- The directory that it is in; the root is its own. -/
def parent (l : Location χ) : Location χ := ⟨l.names.dropLast, fun p hp => l.valid p (List.mem_of_mem_dropLast hp)⟩

def child (l : Location χ) (p : PathPart χ) (hp : IsName p) : Location χ :=
  ⟨l.names ++ [p], fun q hq => (List.mem_append.mp hq).elim (l.valid q) fun hq => List.mem_singleton.mp hq ▸ hp⟩

/-- `m` is `l` or below it: the names of `l` come first in those of `m`. -/
def Within (l m : Location χ) : Prop := l.names <+: m.names

instance (l m : Location χ) : Decidable (l.Within m) := inferInstanceAs (Decidable (_ <+: _))

/-- Where a part leads: `..` up, a name down, and nothing else anywhere. -/
def step (l : Location χ) (p : PathPart χ) : Location χ :=
  if p = dotdot then l.parent else if hp : IsName p then l.child p hp else l

def walk (l : Location χ) (ps : List (PathPart χ)) : Location χ := ps.foldl step l

/-- Where a text leads. -/
def follow (l : Location χ) (s : List χ) : Location χ := (if s.head? = some slash then root else l).walk (partsOf s)

/-- The text of a location. -/
def text (l : Location χ) : List χ :=
  if l.names = [] then [slash] else l.names.flatMap fun p => slash :: p

/-- The directories above, the nearest first. -/
def parents (l : Location χ) : List (Location χ) :=
  (List.range l.names.length).reverse.map fun n => ⟨l.names.take n, fun p hp => l.valid p (List.mem_of_mem_take hp)⟩

section
variable {l m k : Location χ} {p : PathPart χ} {ps : List (PathPart χ)} {s : List χ}

@[simp] theorem names_child {hp : IsName p} : (l.child p hp).names = l.names ++ [p] := rfl

@[simp] theorem parent_child {hp : IsName p} : (l.child p hp).parent = l :=
  Location.ext List.dropLast_concat

theorem child_inj {q : PathPart χ} {hp : IsName p} {hq : IsName q} :
    l.child p hp = m.child q hq ↔ l = m ∧ p = q := by
  simp [Location.ext_iff]

/-! ### Within -/

theorem Within.refl (l : Location χ) : l.Within l := List.prefix_rfl

theorem Within.trans (h : l.Within m) (h' : m.Within k) : l.Within k := List.IsPrefix.trans h h'

theorem within_child {hp : IsName p} : l.Within (l.child p hp) := List.prefix_append _ _

/-- What is within a child is within the directory. -/
theorem Within.of_child {hp : IsName p} (h : (l.child p hp).Within m) : l.Within m := within_child.trans h

/-- Two locations of one depth have nothing in common below them. -/
theorem Within.eq_of_length (h : l.Within k) (h' : m.Within k) (hlength : l.names.length = m.names.length) : l = m :=
  Location.ext ((List.prefix_of_prefix_length_le h h' hlength.le).eq_of_length hlength)

/-- The directories above are those that it is properly within. -/
theorem mem_parents : m ∈ l.parents ↔ m.Within l ∧ m ≠ l := by
  simp only [parents, List.mem_map, List.mem_reverse, List.mem_range]
  constructor
  · rintro ⟨n, hn, rfl⟩
    refine ⟨List.take_prefix n l.names, fun h => ?_⟩
    have := congrArg (fun l => l.names.length) h
    simp only [List.length_take] at this
    omega
  · rintro ⟨hm, hne⟩
    refine ⟨m.names.length, ?_, Location.ext (List.prefix_iff_eq_take.mp hm).symm⟩
    rcases Nat.lt_or_ge m.names.length l.names.length with h | h
    · exact h
    · exact absurd (Location.ext (List.IsPrefix.eq_of_length_le hm h)) hne

/-! ### Walking -/

@[simp] theorem walk_nil : l.walk [] = l := rfl

@[simp] theorem walk_cons : l.walk (p :: ps) = (l.step p).walk ps := rfl

@[simp] theorem walk_append {ps' : List (PathPart χ)} : l.walk (ps ++ ps') = (l.walk ps).walk ps' := List.foldl_append

theorem step_name (hp : IsName p) : l.step p = l.child p hp := by
  rw [step, if_neg hp.ne_dotdot, dif_pos hp]

@[simp] theorem step_nil : l.step [] = l := by
  rw [step, if_neg (by simp [dotdot]), dif_neg fun h => h.ne_nil rfl]

@[simp] theorem step_dot : l.step dot = l := by
  rw [step, if_neg (by simp [dot, dotdot]), dif_neg fun h => h.ne_dot rfl]

@[simp] theorem step_dotdot : l.step dotdot = l.parent := if_pos rfl

/-- The parts that say nothing may be left out. -/
theorem walk_filter : l.walk (ps.filter fun p => p ≠ [] && p ≠ dot) = l.walk ps := by
  induction ps generalizing l with
  | nil => rfl
  | cons p ps ih =>
    rw [List.filter_cons, walk_cons]
    split
    · rw [walk_cons, ih]
    · rename_i hp
      rw [ih]
      by_cases hnil : p = []
      · rw [hnil, step_nil]
      · obtain rfl : p = dot := by simpa [hnil] using hp
        rw [step_dot]

/-- Names lead down. -/
theorem names_walk (hps : ∀ p ∈ ps, IsName p) : (l.walk ps).names = l.names ++ ps := by
  induction ps generalizing l with
  | nil => exact (List.append_nil _).symm
  | cons p ps ih =>
    obtain ⟨hp, hps⟩ := List.forall_mem_cons.mp hps
    rw [walk_cons, ih hps, step_name hp, names_child, List.append_assoc]
    rfl

@[simp] theorem walk_names : root.walk l.names = l := Location.ext (names_walk l.valid)

/-! ### Following -/

theorem follow_name (hp : IsName p) : l.follow p = l.child p hp := by
  have hhead : p.head? ≠ some slash := fun h => hp.no_slash (List.mem_of_head? h)
  rw [follow, if_neg hhead, partsOf_eq_singleton hp.no_slash, walk_cons, walk_nil, step_name hp]

theorem partsOf_flatMap (hp : slash ∉ p) (hps : ∀ p ∈ ps, slash ∉ p) :
    partsOf (p ++ ps.flatMap fun p => slash :: p) = p :: ps := by
  induction ps generalizing p with
  | nil => rw [List.flatMap_nil, List.append_nil, partsOf_eq_singleton hp]
  | cons q ps ih =>
    obtain ⟨hq, hps⟩ := List.forall_mem_cons.mp hps
    rw [List.flatMap_cons, List.cons_append, partsOf_append hp, ih hq hps]

/-- The text of a location leads to it. -/
@[simp] theorem follow_text : m.follow l.text = l := by
  have hhead : l.text.head? = some slash := by
    rw [text]
    split
    · rfl
    · rename_i hne
      obtain ⟨p, ps, hnames⟩ := List.exists_cons_of_ne_nil hne
      rw [hnames]
      rfl
  have hwalk : root.walk (partsOf l.text) = l := by
    rw [text]
    split
    · rename_i hnil
      have hslash : ([slash] : List χ) = [] ++ slash :: [] := rfl
      rw [hslash, partsOf_append List.not_mem_nil, partsOf_eq_singleton List.not_mem_nil, walk_cons, step_nil,
        walk_cons,
        step_nil, walk_nil]
      exact Location.ext hnil.symm
    · rw [← List.nil_append (l.names.flatMap _),
        partsOf_flatMap List.not_mem_nil fun p hp => (l.valid p hp).no_slash, walk_cons, step_nil, walk_names]
  rw [follow, if_pos hhead, hwalk]

/-- Text put behind the text of an entry is put behind its name. -/
theorem text_child_append {hp : IsName p} {more : List χ} (hmore : IsName (p ++ more)) :
    (l.child p hp).text ++ more = (l.child (p ++ more) hmore).text := by
  have hne : ∀ q : PathPart χ, l.names ++ [q] ≠ [] :=
    fun q => List.append_ne_nil_of_right_ne_nil _ (List.cons_ne_nil q [])
  rw [text, text, names_child, names_child, if_neg (hne p), if_neg (hne (p ++ more)), List.flatMap_append,
    List.flatMap_append, List.append_assoc]
  simp

end

end Location

/-! ## Pure paths -/

/-- The root of a path: none, one slash, or the two slashes that POSIX leaves open. -/
inductive Anchor
  | relative
  | slash
  | slashes
  deriving DecidableEq, Repr

/-- The root that a text starts with: three slashes are one. -/
def anchorOf (s : List χ) : Anchor :=
  if s.head? ≠ some slash then .relative
  else if s[1]? ≠ some slash ∨ s[2]? = some slash then .slash
  else .slashes

/-- `PurePosixPath`. -/
structure PurePath (χ : Type) [DecidableEq χ] [PathChar χ] where
  anchor : Anchor
  parts : List (PathPart χ)
  valid : ∀ p ∈ parts, p ≠ [] ∧ p ≠ dot ∧ slash ∉ p

/-- Why a system call takes no path: it cannot be encoded, or it holds a null character. -/
inductive Refusal (χ : Type)
  | unencodable (path : List χ)
  | embeddedNull
  deriving DecidableEq

/-- The text of an entry of a location. -/
def Location.entry (l : Location χ) (p : PathPart χ) : List χ := (l.names.flatMap fun q => slash :: q) ++ slash :: p

/-- The location that the parts lead to. The system is asked for every name on the way. -/
def realpath : Location χ → List (PathPart χ) → Except (Refusal χ) (Location χ)
  | l, [] => .ok l
  | l, p :: ps =>
    if p = dotdot then realpath l.parent ps
    else if ¬ Encodable p then .error (.unencodable (l.entry p))
    else if HasNull p then .error .embeddedNull
    else realpath (l.step p) ps

namespace PurePath

/-- `PurePosixPath(s)`. -/
def ofText (s : List χ) : PurePath χ where
  anchor := anchorOf s
  parts := (partsOf s).filter fun p => p ≠ [] && p ≠ dot
  valid p hp := by
    obtain ⟨hmem, hkeep⟩ := List.mem_filter.mp hp
    obtain ⟨hnil, hdot⟩ := (Bool.and_eq_true _ _).mp hkeep
    exact ⟨of_decide_eq_true hnil, of_decide_eq_true hdot, not_slash_of_mem_partsOf p hmem⟩

/-- `path.joinpath(s)`. -/
def join (p : PurePath χ) (s : List χ) : PurePath χ :=
  let q := ofText s
  if q.anchor = .relative then
    ⟨p.anchor, p.parts ++ q.parts, fun r hr => (List.mem_append.mp hr).elim (p.valid r) (q.valid r)⟩
  else q

/-- `path.joinpath(*texts)`. -/
def joinpath (p : PurePath χ) (texts : List (List χ)) : PurePath χ := texts.foldl join p

/-- A location as a path. -/
def ofLocation (l : Location χ) : PurePath χ :=
  ⟨.slash, l.names, fun p hp => ⟨(l.valid p hp).ne_nil, (l.valid p hp).ne_dot, (l.valid p hp).no_slash⟩⟩

/-- `path.name`: the last part. -/
def name (p : PurePath χ) : PathPart χ := p.parts.getLast?.getD []

/-- Where the parts start. -/
def start (cwd : Location χ) (p : PurePath χ) : Location χ := if p.anchor = .relative then cwd else .root

/-- `path.resolve()` in a process with this working directory. -/
def resolve (cwd : Location χ) (p : PurePath χ) : Except (Refusal χ) (Location χ) := realpath (p.start cwd) p.parts

/-- Where a path leads. -/
def location (cwd : Location χ) (p : PurePath χ) : Location χ := (p.start cwd).walk p.parts

end PurePath

section
variable {cwd l : Location χ} {p : PurePath χ} {ps : List (PathPart χ)} {s : List χ} {texts : List (List χ)}

theorem anchorOf_eq_relative : anchorOf s = .relative ↔ s.head? ≠ some slash := by
  rw [anchorOf]
  split
  · exact iff_of_true rfl ‹_›
  · rename_i hhead
    refine iff_of_false ?_ hhead
    split <;> simp

/-- A text that a system call takes. -/
structure Accepted (s : List χ) : Prop where
  encodable : Encodable s
  no_null : ¬ HasNull s

instance (s : List χ) : Decidable (Accepted s) :=
  decidable_of_iff (Encodable s ∧ ¬ HasNull s) ⟨fun ⟨h₁, h₂⟩ => ⟨h₁, h₂⟩, fun ⟨h₁, h₂⟩ => ⟨h₁, h₂⟩⟩

theorem Accepted.of_subset {s' : List χ} (h : Accepted s) (hs : ∀ c ∈ s', c ∈ s) : Accepted s' :=
  ⟨fun c hc => h.encodable c (hs c hc), fun hnull => h.no_null (hs _ hnull)⟩

/-- Every name of the location can be encoded. -/
def Location.Encodable (l : Location χ) : Prop := ∀ p ∈ l.names, Posix.Encodable p

theorem Location.Encodable.step {part : PathPart χ} (h : l.Encodable) (hp : Posix.Encodable part) :
    (l.step part).Encodable := by
  unfold Location.step
  split
  · exact fun q hq => h q (List.mem_of_mem_dropLast hq)
  · split
    · intro q hq
      rcases List.mem_append.mp hq with hq | hq
      · exact h q hq
      · rw [List.mem_singleton.mp hq]
        exact hp
    · exact h

/-- What is resolved is where the parts lead, and can be encoded. -/
theorem realpath_cases {m : Location χ} (h : realpath l ps = .ok m) :
    m = l.walk ps ∧ (l.Encodable → m.Encodable) := by
  induction ps generalizing l with
  | nil =>
    cases h
    exact ⟨rfl, id⟩
  | cons p ps ih =>
    rw [realpath] at h
    rw [Location.walk_cons]
    split at h
    · rename_i hdotdot
      obtain ⟨hm, hencodable⟩ := ih h
      rw [hdotdot, Location.step_dotdot]
      exact ⟨hm, fun hl => hencodable fun q hq => hl q (List.mem_of_mem_dropLast hq)⟩
    · split at h
      · cases h
      · rename_i hp
        split at h
        · cases h
        · obtain ⟨hm, hencodable⟩ := ih h
          exact ⟨hm, fun hl => hencodable (hl.step (not_not.mp hp))⟩

/-- Parts that a system call takes are resolved. -/
theorem realpath_eq (hps : ∀ p ∈ ps, Accepted p) : realpath l ps = .ok (l.walk ps) := by
  induction ps generalizing l with
  | nil => rfl
  | cons p ps ih =>
    obtain ⟨hp, hps⟩ := List.forall_mem_cons.mp hps
    rw [realpath, Location.walk_cons]
    split
    · rename_i hdotdot
      rw [ih hps, hdotdot, Location.step_dotdot]
    · rw [if_neg (not_not.mpr hp.encodable), if_neg hp.no_null]
      exact ih hps

namespace PurePath

theorem resolve_eq (hp : ∀ q ∈ p.parts, Accepted q) : p.resolve cwd = .ok (p.location cwd) := realpath_eq hp

theorem accepted_ofLocation (hl : l.Encodable) : ∀ q ∈ (ofLocation l).parts, Accepted q :=
  fun q hq => ⟨hl q hq, (l.valid q hq).no_null⟩

@[simp] theorem location_ofLocation : (ofLocation l).location cwd = l := Location.walk_names

theorem location_ofText : (ofText s).location cwd = cwd.follow s := by
  rw [location, Location.follow, start, ofText, Location.walk_filter]
  by_cases hs : s.head? = some slash
  · rw [if_pos hs, if_neg fun h => anchorOf_eq_relative.mp h hs]
  · rw [if_neg hs, if_pos (anchorOf_eq_relative.mpr hs)]

/-- A text that is joined is followed from where the path leads. -/
theorem location_join : (p.join s).location cwd = (p.location cwd).follow s := by
  by_cases hs : s.head? = some slash
  · have hjoin : p.join s = ofText s := if_neg fun h => anchorOf_eq_relative.mp h hs
    rw [hjoin, location_ofText, Location.follow, Location.follow, if_pos hs, if_pos hs]
  · have hrel : (ofText s).anchor = .relative := anchorOf_eq_relative.mpr hs
    have hlocation : (p.join s).location cwd = (p.location cwd).walk (ofText s).parts := by
      rw [join, if_pos hrel]
      exact Location.walk_append
    rw [hlocation, Location.follow, if_neg hs, ofText, Location.walk_filter]

theorem location_joinpath : (p.joinpath texts).location cwd = texts.foldl Location.follow (p.location cwd) := by
  induction texts generalizing p with
  | nil => rfl
  | cons s texts ih =>
    rw [joinpath, List.foldl_cons, ← joinpath, ih, location_join, List.foldl_cons]

/-- The parts of a join come from both. -/
theorem mem_join {q : PathPart χ} (hq : q ∈ (p.join s).parts) : q ∈ p.parts ∨ q ∈ (ofText s).parts := by
  by_cases hrel : (ofText s).anchor = .relative
  · rw [join, if_pos hrel] at hq
    exact List.mem_append.mp hq
  · rw [join, if_neg hrel] at hq
    exact .inr hq

theorem accepted_ofText (hs : Accepted s) : ∀ q ∈ (ofText s).parts, Accepted q :=
  fun _ hq => hs.of_subset fun _ hc => mem_of_mem_partsOf (List.mem_filter.mp hq).1 hc

theorem accepted_joinpath (hp : ∀ q ∈ p.parts, Accepted q) (htexts : ∀ s ∈ texts, Accepted s) :
    ∀ q ∈ (p.joinpath texts).parts, Accepted q := by
  induction texts generalizing p with
  | nil => exact hp
  | cons s texts ih =>
    obtain ⟨hs, htexts⟩ := List.forall_mem_cons.mp htexts
    refine ih (p := p.join s) (fun q hq => ?_) htexts
    rcases mem_join hq with hq | hq
    · exact hp q hq
    · exact accepted_ofText hs q hq

/-- To join texts to a path and resolve it is to follow them one after the other. -/
theorem resolve_joinpath (hp : ∀ q ∈ p.parts, Accepted q) (htexts : ∀ s ∈ texts, Accepted s) :
    (p.joinpath texts).resolve cwd = .ok (texts.foldl Location.follow (p.location cwd)) := by
  rw [resolve_eq (accepted_joinpath hp htexts), location_joinpath]

end PurePath

end

end Posix
