import YeounEngine.Lib.CodePoints
import YeounEngine.Lib.FileTree
import YeounEngine.Lib.Transition
import YeounEngine.Text

/-!
# `safe_resolve` and `safe_rmtree`

The guard of `app/storage/filesystem.py`: parts that come from outside are joined to a root and resolved, and what
does not stay inside the root is refused. `safe_rmtree` removes what the guard lets through.

Of texts that the file system can encode, the guard accepts exactly what stays inside (`safeResolve_exact`): the parts
are followed from the root one after the other, and where they lead is returned if and only if the names of the root
come first in it. So a neighbour of the root whose name starts with the root's is refused, and no run of `safe_rmtree`
touches anything outside. A part with a surrogate that has no code makes `resolve` raise (`unencodable_raises`).

`safeResolve` is over the characters of a Python `str`, lone surrogates among them; `safeResolveIn` is the guard for the
routes, whose parts are Unicode texts.
-/

namespace YeounEngine

open Posix Transition
open PathChar (slash)

/-! ## `safe_resolve` -/

/-- What `safe_resolve` raises: what `resolve` raises, or the `PermissionError` of the guard. -/
inductive ResolveError (χ : Type) [DecidableEq χ] [PathChar χ]
  | refused (why : Refusal χ)
  | outsideRoot (candidate root : Location χ)

section
variable {χ : Type} [DecidableEq χ] [PathChar χ]

/-- `type(e).__name__`. -/
def ResolveError.typeName : ResolveError χ → String
  | .refused (.unencodable _) => "UnicodeEncodeError"
  | .refused .embeddedNull => "ValueError"
  | .outsideRoot _ _ => "PermissionError"

/-- The text of a `UnicodeEncodeError`: the first characters without a code, up to the end of the run of surrogates. -/
def encodeErrorText (path : List χ) (codes : List Nat) : String :=
  let start := path.findIdx fun c => !PathChar.encodes c
  let run := (codes.drop start).takeWhile fun n => 0xd800 ≤ n && n ≤ 0xdfff
  if run.length ≤ 1 then
    "'utf-8' codec can't encode character '\\u" ++ String.ofList (Nat.toDigits 16 (codes.getD start 0)) ++
      "' in position " ++ toString start ++ ": surrogates not allowed"
  else
    "'utf-8' codec can't encode characters in position " ++ toString start ++ "-" ++
      toString (start + run.length - 1) ++ ": surrogates not allowed"

/-- `str(e)`, of characters with these code points, among which are those of a text. -/
def ResolveError.message (code : χ → Nat) (text : String → List χ) : ResolveError χ → List χ
  | .refused (.unencodable path) => text (encodeErrorText path (path.map code))
  | .refused .embeddedNull => text "embedded null byte"
  | .outsideRoot candidate root =>
    text "경로가 허용 루트 밖입니다: " ++ candidate.text ++ text " (root=" ++ root.text ++ text ")"

/-- `safe_resolve`, from the root that it has resolved. -/
def safeResolveFrom (cwd rootResolved : Location χ) (parts : List (List χ)) : Except (ResolveError χ) (Location χ) :=
  match ((PurePath.ofLocation rootResolved).joinpath parts).resolve cwd with
  | .error why => .error (.refused why)
  | .ok candidate =>
    if rootResolved ≠ candidate ∧ rootResolved ∉ candidate.parents then .error (.outsideRoot candidate rootResolved)
    else .ok candidate

/-- `safe_resolve`, in a process with this working directory. -/
def safeResolve (cwd : Location χ) (root : List χ) (parts : List (List χ)) : Except (ResolveError χ) (Location χ) :=
  match (PurePath.ofText root).resolve cwd with
  | .error why => .error (.refused why)
  | .ok rootResolved => safeResolveFrom cwd rootResolved parts

/-- Where parts lead from a location, one after the other. -/
def followAll (l : Location χ) (parts : List (List χ)) : Location χ := parts.foldl Location.follow l

variable {cwd root : Location χ} {parts : List (List χ)}

/-- The guard, for parts that a system call takes. -/
theorem safeResolveFrom_eq (hroot : root.Encodable) (hparts : ∀ s ∈ parts, Accepted s) :
    safeResolveFrom cwd root parts =
      if root.Within (followAll root parts) then .ok (followAll root parts)
      else .error (.outsideRoot (followAll root parts) root) := by
  rw [safeResolveFrom, PurePath.resolve_joinpath (PurePath.accepted_ofLocation hroot) hparts,
    PurePath.location_ofLocation, ← followAll]
  dsimp only
  by_cases hwithin : root.Within (followAll root parts)
  · rw [if_pos hwithin, if_neg]
    rintro ⟨hne, hparents⟩
    exact hparents (Location.mem_parents.mpr ⟨hwithin, hne⟩)
  · rw [if_neg hwithin, if_pos]
    refine ⟨fun h => hwithin (h ▸ .refl root), fun h => hwithin (Location.mem_parents.mp h).1⟩

/-- Whatever the guard returns is where the parts lead, and inside. -/
theorem safeResolveFrom_cases {candidate : Location χ} (h : safeResolveFrom cwd root parts = .ok candidate) :
    candidate = followAll root parts ∧ root.Within candidate := by
  unfold safeResolveFrom at h
  split at h
  · cases h
  · rename_i found hfound
    split at h
    · cases h
    · rename_i hinside
      cases h
      refine ⟨?_, ?_⟩
      · rw [followAll, (realpath_cases hfound).1, ← PurePath.location, PurePath.location_joinpath,
          PurePath.location_ofLocation]
      · by_cases hne : root = candidate
        · exact hne ▸ .refl root
        · exact (Location.mem_parents.mp (not_not.mp fun hparents => hinside ⟨hne, hparents⟩)).1

/-- A name that comes first leads down. -/
theorem followAll_name {p : PathPart χ} (hp : IsName p) :
    followAll root (p :: parts) = followAll (root.child p hp) parts := by
  rw [followAll, List.foldl_cons, Location.follow_name hp, followAll]

/-- Names lead down. -/
theorem followAll_names (hnames : ∀ s ∈ parts, IsName s) : followAll root parts = root.walk parts := by
  induction parts generalizing root with
  | nil => rfl
  | cons s parts ih =>
    obtain ⟨hs, hnames⟩ := List.forall_mem_cons.mp hnames
    rw [followAll_name hs, ih hnames, Location.walk_cons, Location.step_name hs]

end

/-! ### Parts that are Unicode texts -/

/-- The exception, when every character is Unicode text. -/
def ResolveError.exc (e : ResolveError Char) : Exc :=
  ⟨e.typeName, String.ofList (e.message Char.toNat String.toList)⟩

/-- `safe_resolve` as the routes call it. -/
def safeResolveIn (cwd rootResolved : Location Char) (parts : List String) : Except Exc (Location Char) :=
  (safeResolveFrom cwd rootResolved (parts.map String.toList)).mapError ResolveError.exc

section
variable {cwd root : Location Char} {parts : List String}

theorem safeResolveIn_cases {candidate : Location Char} (h : safeResolveIn cwd root parts = .ok candidate) :
    candidate = followAll root (parts.map String.toList) ∧ root.Within candidate := by
  unfold safeResolveIn at h
  cases hfrom : safeResolveFrom cwd root (parts.map String.toList) with
  | error e => rw [hfrom] at h; cases h
  | ok found =>
    rw [hfrom] at h
    cases h
    exact safeResolveFrom_cases hfrom

/-- Names always pass the guard. -/
theorem safeResolveIn_names (hnames : ∀ s ∈ parts, IsName s.toList) :
    safeResolveIn cwd root parts = .ok (root.walk (parts.map String.toList)) := by
  have hnames' : ∀ s ∈ parts.map String.toList, IsName s := by simpa using hnames
  have hroot : root.Encodable := fun _ _ => encodable_char
  rw [safeResolveIn, safeResolveFrom_eq hroot fun s hs => ⟨encodable_char, (hnames' s hs).no_null⟩,
    followAll_names hnames', if_pos]
  · rfl
  · rw [Location.Within, Location.names_walk hnames']
    exact List.prefix_append _ _

end

/-! ## `safe_rmtree` -/

/-- What `safe_rmtree` raises. -/
inductive RmtreeError
  | resolve (e : ResolveError CodePoint)
  | removal (e : Exc)

/-- Where a call of `safe_rmtree` is; the file system has its target in bytes. After a cancellation the thread goes on
with what is left. -/
inductive RmtreePc
  | called
  | removing (target : Location UInt8) (applied : Bool)
  | done (result : Except RmtreeError Bool)
  | cancelled (left : Option (Location UInt8))

/-- What happens in a call: `remove` is the thread that has come some way. -/
inductive RmtreeEvent
  | resume
  | remove (gone : Location UInt8 → Bool)
  | apply
  | fail (e : Exc)
  | cancel

/-- One step of `safe_rmtree`. `shutil.rmtree` removes nothing when its target is no directory. -/
def safeRmtreeStep {α : Type} (cwd : Location CodePoint) (root : List CodePoint) (parts : List (List CodePoint)) :
    FileTree UInt8 α × RmtreePc → RmtreeEvent → Option (FileTree UInt8 α × RmtreePc)
  | (t, .called), .resume =>
    match safeResolve cwd root parts with
    | .error e => some (t, .done (.error (.resolve e)))
    | .ok target =>
      if t.present target.fsencode then some (t, .removing target.fsencode false) else some (t, .done (.ok false))
  | (t, .removing target false), .remove gone =>
    if t.isDir target then some (t.prune target gone, .removing target false) else none
  | (t, .removing target false), .apply =>
    if t.isDir target then some (t.prune target fun _ => true, .removing target true) else none
  | (t, .removing _ true), .resume => some (t, .done (.ok true))
  | (t, .called), .fail e | (t, .removing _ _), .fail e => some (t, .done (.error (.removal e)))
  | (t, .removing target false), .cancel => some (t, .cancelled (some target))
  | (t, .removing _ true), .cancel => some (t, .cancelled none)
  | (t, .cancelled (some target)), .remove gone =>
    if t.isDir target then some (t.prune target gone, .cancelled (some target)) else none
  | _, _ => none

/-- Calls of `safe_rmtree` on a tree. -/
def rmtreeSystem (α : Type) (cwd : Location CodePoint) (root : List CodePoint) (parts : List (List CodePoint)) :
    System (FileTree UInt8 α × RmtreePc) RmtreeEvent where
  init s := s.2 = .called
  step := safeRmtreeStep cwd root parts

/-- What a call removes from. -/
def RmtreePc.target : RmtreePc → Option (Location UInt8)
  | .removing target _ => some target
  | .cancelled left => left
  | _ => none

/-- A step removes from the target that it has, and the target has passed the guard. -/
theorem safeRmtreeStep_cases {α : Type} {cwd : Location CodePoint} {root : List CodePoint}
    {parts : List (List CodePoint)} {s s' : FileTree UInt8 α × RmtreePc} {e : RmtreeEvent}
    (h : safeRmtreeStep cwd root parts s e = some s') :
    (s'.1 = s.1 ∨ ∃ target ∈ s.2.target, ∃ gone, s'.1 = s.1.prune target gone) ∧
      ∀ target ∈ s'.2.target, target ∈ s.2.target ∨
        ∃ resolved, safeResolve cwd root parts = .ok resolved ∧ target = resolved.fsencode := by
  unfold safeRmtreeStep at h
  split at h
  case h_1 =>
    split at h
    · cases h
      exact ⟨.inl rfl, by rintro target ⟨⟩⟩
    · rename_i resolved hok
      split at h
      · cases h
        refine ⟨.inl rfl, ?_⟩
        rintro target ⟨⟩
        exact .inr ⟨resolved, hok, rfl⟩
      · cases h
        exact ⟨.inl rfl, by rintro target ⟨⟩⟩
  case h_2 | h_3 | h_9 =>
    split at h
    · cases h
      exact ⟨.inr ⟨_, rfl, _, rfl⟩, fun target ht => .inl ht⟩
    · cases h
  case h_4 | h_5 | h_6 | h_8 =>
    cases h
    exact ⟨.inl rfl, by rintro target ⟨⟩⟩
  case h_7 =>
    cases h
    exact ⟨.inl rfl, fun target ht => .inl ht⟩
  case h_10 => cases h

/-! ## What stays inside -/

/-- What the guard is for: of an absolute root and parts, `inside` and `outside` say when the normalised path is
returned and when it is refused. -/
structure ResolvesExactly (cwd : Location CodePoint) (root : List CodePoint) (parts : List (List CodePoint)) :
    Prop where
  inside : (Location.root.follow root).Within (followAll (Location.root.follow root) parts) →
    safeResolve cwd root parts = .ok (followAll (Location.root.follow root) parts)
  outside : ¬ (Location.root.follow root).Within (followAll (Location.root.follow root) parts) →
    safeResolve cwd root parts =
      .error (.outsideRoot (followAll (Location.root.follow root) parts) (Location.root.follow root))
  sibling : ∀ (dir : Location CodePoint) (name more : PathPart CodePoint) (hname : IsName name)
    (hmore : IsName (name ++ more)), more ≠ [] → Location.root.follow root = dir.child name hname →
    (dir.child (name ++ more) hmore).Within (followAll (Location.root.follow root) parts) →
    ∃ e, safeResolve cwd root parts = .error e ∧ e.typeName = "PermissionError"
  removes : ∀ (α : Type) (t : FileTree UInt8 α) s, (rmtreeSystem α cwd root parts).Steps anyStep (t, .called) s →
    ∀ l, ¬ (Location.root.follow root).fsencode.Within l → s.1.node l = t.node l

section
variable {cwd : Location CodePoint} {root : List CodePoint} {parts : List (List CodePoint)}

/-- An absolute root does not depend on the working directory. -/
theorem follow_absolute (habs : root.head? = some slash) : cwd.follow root = Location.root.follow root := by
  rw [Location.follow, Location.follow, if_pos habs, if_pos habs]

theorem resolve_root (habs : root.head? = some slash) (hroot : Accepted root) :
    (PurePath.ofText root).resolve cwd = .ok (Location.root.follow root) := by
  rw [PurePath.resolve_eq (PurePath.accepted_ofText hroot), PurePath.location_ofText, follow_absolute habs]

/-- The resolved root can be encoded. -/
theorem encodable_root (habs : root.head? = some slash) (hroot : Accepted root) :
    (Location.root.follow root).Encodable := by
  have hresolve : (PurePath.ofText root).resolve .root = .ok (Location.root.follow root) := resolve_root habs hroot
  refine (realpath_cases hresolve).2 ?_
  unfold PurePath.start
  split <;> exact fun p hp => absurd hp List.not_mem_nil

/-- The guard, for an absolute root. -/
theorem safeResolve_eq (habs : root.head? = some slash) (hroot : Accepted root) (hparts : ∀ s ∈ parts, Accepted s) :
    safeResolve cwd root parts =
      if (Location.root.follow root).Within (followAll (Location.root.follow root) parts) then
        .ok (followAll (Location.root.follow root) parts)
      else .error (.outsideRoot (followAll (Location.root.follow root) parts) (Location.root.follow root)) := by
  rw [safeResolve, resolve_root habs hroot]
  exact safeResolveFrom_eq (encodable_root habs hroot) hparts

theorem within_of_safeResolve (habs : root.head? = some slash) (hroot : Accepted root) {target : Location CodePoint}
    (h : safeResolve cwd root parts = .ok target) : (Location.root.follow root).Within target := by
  rw [safeResolve, resolve_root habs hroot] at h
  exact (safeResolveFrom_cases h).2

/-- So far nothing outside the root has changed, and what is being removed is inside. -/
structure RmtreeInv {α : Type} (base : Location UInt8) (t₀ : FileTree UInt8 α) (s : FileTree UInt8 α × RmtreePc) :
    Prop where
  outside : ∀ l, ¬ base.Within l → s.1.node l = t₀.node l
  target : ∀ target ∈ s.2.target, base.Within target

theorem RmtreeInv.step {α : Type} {base : Location CodePoint} {t₀ : FileTree UInt8 α}
    {s s' : FileTree UInt8 α × RmtreePc} {e : RmtreeEvent}
    (hguard : ∀ target, safeResolve cwd root parts = .ok target → base.Within target)
    (hs : RmtreeInv base.fsencode t₀ s) (h : safeRmtreeStep cwd root parts s e = some s') :
    RmtreeInv base.fsencode t₀ s' := by
  obtain ⟨hnodes, htargets⟩ := safeRmtreeStep_cases h
  constructor
  · intro l hl
    rw [← hs.outside l hl]
    rcases hnodes with hsame | ⟨target, htarget, gone, hprune⟩
    · rw [hsame]
    · rw [hprune, FileTree.node_prune_of_not_within fun hw => hl ((hs.target target htarget).trans hw)]
  · intro target htarget
    rcases htargets target htarget with htarget | ⟨resolved, hok, rfl⟩
    · exact hs.target target htarget
    · exact (hguard resolved hok).fsencode

end

/-- Of texts that a system call takes, `safe_resolve` accepts exactly what stays inside the root, and `safe_rmtree`
removes nothing else. -/
theorem safeResolve_exact (cwd : Location CodePoint) (root : List CodePoint) (parts : List (List CodePoint))
    (habs : root.head? = some slash) (hroot : Accepted root) (hparts : ∀ s ∈ parts, Accepted s) :
    ResolvesExactly cwd root parts where
  inside h := by rw [safeResolve_eq habs hroot hparts, if_pos h]
  outside h := by rw [safeResolve_eq habs hroot hparts, if_neg h]
  sibling dir name more hname hmore hne hdir hsibling := by
    -- the root and its neighbour are of one depth, so a path below both would make them one
    have houtside : ¬ (Location.root.follow root).Within (followAll (Location.root.follow root) parts) := by
      rw [hdir] at hsibling ⊢
      intro hwithin
      have hsame := hwithin.eq_of_length hsibling (by simp)
      exact hne (List.append_cancel_left ((Location.child_inj.mp hsame).2.symm.trans (List.append_nil name).symm))
    rw [safeResolve_eq habs hroot hparts, if_neg houtside]
    exact ⟨_, rfl, rfl⟩
  removes α t s hrun := by
    have hinv : RmtreeInv (Location.root.follow root).fsencode t s :=
      hrun.inv (fun _ _ _ hs _ hstep => hs.step (fun _ => within_of_safeResolve habs hroot) hstep)
        ⟨fun _ _ => rfl, by rintro target ⟨⟩⟩
    exact hinv.outside

/-- The directory beside the root whose name goes on is refused. -/
theorem safeResolve_exact_sibling :
    ResolvesExactly .root (codePoints "/var/persona") [codePoints "../persona-old", codePoints "./photo"] ∧
    (safeResolve .root (codePoints "/var/persona") [codePoints "../persona-old", codePoints "./photo"]).mapError
        (fun e => (e.typeName, e.message CodePoint.val codePoints)) =
      .error ("PermissionError",
        codePoints "경로가 허용 루트 밖입니다: /var/persona-old/photo (root=/var/persona)") :=
  ⟨safeResolve_exact _ _ _ (by decide) ⟨by decide, by decide⟩ (by decide), by decide +kernel⟩

/-- A part that ends in the surrogate U+D800 stays inside the root, and `resolve` raises all the same. -/
theorem unencodable_raises : ∃ (root : List CodePoint) (parts : List (List CodePoint)),
    root.head? = some slash ∧ ¬ HasNull root ∧ (∀ s ∈ parts, ¬ HasNull s) ∧
    (Location.root.follow root).Within (followAll (Location.root.follow root) parts) ∧
    (∃ e, safeResolve .root root parts = .error e ∧ e.typeName = "UnicodeEncodeError") ∧
    ¬ ResolvesExactly .root root parts := by
  let part : List CodePoint := codePoints "a" ++ [⟨0xd800, by decide⟩]
  have hinside : (Location.root.follow (codePoints "/var/persona")).Within
      (followAll (Location.root.follow (codePoints "/var/persona")) [part]) := by decide +kernel
  have hraises : (safeResolve .root (codePoints "/var/persona") [part]).mapError ResolveError.typeName =
      .error "UnicodeEncodeError" := by decide +kernel
  refine ⟨codePoints "/var/persona", [part], by decide, by decide, by decide, hinside, ?_, fun h => ?_⟩
  · cases hresolve : safeResolve .root (codePoints "/var/persona") [part] with
    | ok target => rw [hresolve] at hraises; cases hraises
    | error e => rw [hresolve] at hraises; exact ⟨e, rfl, Except.error.inj hraises⟩
  · rw [h.inside hinside] at hraises
    cases hraises

end YeounEngine
