import YeounEngine.Lib.Paths
import Mathlib.Logic.Function.Basic

/-!
# Trees of files

What a file system holds at each location: nothing, a directory or a file. Everything but the root is in a
directory (`FileTree.closed`), so every operation that makes or removes a node looks at what is above or below it. There
are no links.

The operations are the ones that a program has: `mkdirs` makes a directory and the ones above it, `write` and
`unlink` make and remove a file, `replace` renames one over another, and `prune` is what a removal of a subtree
does, whole or as far as it came. The lemmas say what each does to the files and that it leaves the rest as it is.
-/

namespace Posix

/-- What is at a location; `α` is what a file holds. -/
inductive Node (α : Type)
  | dir
  | file (content : α)
  deriving DecidableEq, Repr

/-- The content of a file. -/
def Node.content? {α : Type} : Node α → Option α
  | .dir => none
  | .file a => some a

@[ext] structure FileTree (χ : Type) [DecidableEq χ] [PathChar χ] (α : Type) where
  node : Location χ → Option (Node α)
  closed : ∀ (l : Location χ) (p : PathPart χ) (hp : IsName p), (node (l.child p hp)).isSome = true → node l = some .dir

namespace FileTree

variable {χ : Type} [DecidableEq χ] [PathChar χ] {α : Type}

/-- The file at a location. -/
def file (t : FileTree χ α) (l : Location χ) : Option α := (t.node l).bind Node.content?

/-- There is a directory at a location. -/
def isDir (t : FileTree χ α) (l : Location χ) : Bool := (t.node l).any fun n => n.content?.isNone

/-- There is something at a location. -/
def present (t : FileTree χ α) (l : Location χ) : Bool := (t.node l).isSome

/-- A tree with no node. -/
def empty : FileTree χ α := ⟨fun _ => none, fun _ _ _ h => by cases h⟩

section
variable {t : FileTree χ α} {l m : Location χ} {a : α}

theorem isDir_iff : t.isDir l = true ↔ t.node l = some .dir := by
  unfold isDir
  cases t.node l with
  | none => simp
  | some n => cases n <;> simp [Node.content?]

theorem file_of_isDir (h : t.isDir l = true) : t.file l = none := by
  rw [file, isDir_iff.mp h]
  rfl

end

/-! ## Writing and removing files -/

/-- A file is written, in a directory and not over one. -/
def write (t : FileTree χ α) (l : Location χ) (a : α) : Option (FileTree χ α) :=
  if h : t.isDir l.parent = true ∧ t.isDir l = false then
    some
      { node := Function.update t.node l (some (.file a))
        closed := fun m p hp hsome => by
          by_cases hl : m.child p hp = l
          · have hm : m ≠ l := by
              rintro rfl
              exact absurd (congrArg (fun l => l.names.length) hl) (by simp)
            rw [Function.update_of_ne hm]
            rw [← hl, Location.parent_child] at h
            exact isDir_iff.mp h.1
          · rw [Function.update_of_ne hl] at hsome
            have hdir := t.closed m p hp hsome
            rw [Function.update_of_ne ?_]
            · exact hdir
            · rintro rfl
              rw [isDir_iff.mpr hdir] at h
              exact absurd h.2 (by decide) }
  else none

/-- A file is removed; nothing happens when there is none. -/
def unlink (t : FileTree χ α) (l : Location χ) : FileTree χ α :=
  if h : (t.file l).isSome = true then
    { node := Function.update t.node l none
      closed := fun m p hp hsome => by
        have hl : m.child p hp ≠ l := by
          rintro rfl
          rw [Function.update_self] at hsome
          cases hsome
        rw [Function.update_of_ne hl] at hsome
        have hdir := t.closed m p hp hsome
        rw [Function.update_of_ne ?_]
        · exact hdir
        · rintro rfl
          rw [file_of_isDir (isDir_iff.mpr hdir)] at h
          cases h }
  else t

/-- A file is renamed over what may be at the target. -/
def replace (t : FileTree χ α) (source target : Location χ) : Option (FileTree χ α) :=
  (t.file source).bind fun a => (t.write target a).map fun t' => if source = target then t' else t'.unlink source

section
variable {t t' : FileTree χ α} {l m source target : Location χ} {a : α}

theorem write_eq_some (h : t.write l a = some t') :
    t.isDir l.parent = true ∧ t.isDir l = false ∧ t'.node = Function.update t.node l (some (.file a)) := by
  unfold write at h
  split at h
  · rename_i hdir
    cases h
    exact ⟨hdir.1, hdir.2, rfl⟩
  · cases h

theorem file_write_self (h : t.write l a = some t') : t'.file l = some a := by
  rw [file, (write_eq_some h).2.2, Function.update_self]
  rfl

theorem file_write_of_ne (h : t.write l a = some t') (hm : m ≠ l) : t'.file m = t.file m := by
  rw [file, (write_eq_some h).2.2, Function.update_of_ne hm, file]

theorem isDir_write (h : t.write l a = some t') : t'.isDir m = t.isDir m := by
  obtain ⟨-, hl, hnode⟩ := write_eq_some h
  rw [isDir, hnode]
  by_cases hm : m = l
  · subst hm
    rw [Function.update_self, hl]
    rfl
  · rw [Function.update_of_ne hm, isDir]

theorem node_unlink : (t.unlink l).node m = if m = l ∧ (t.file l).isSome = true then none else t.node m := by
  unfold unlink
  by_cases hfile : (t.file l).isSome = true
  · rw [dif_pos hfile]
    by_cases hm : m = l
    · rw [if_pos ⟨hm, hfile⟩, hm]
      exact Function.update_self ..
    · rw [if_neg fun h => hm h.1]
      exact Function.update_of_ne hm ..
  · rw [dif_neg hfile, if_neg fun h => hfile h.2]

theorem file_unlink_self : (t.unlink l).file l = none := by
  rw [file, node_unlink]
  by_cases hfile : (t.file l).isSome = true
  · rw [if_pos ⟨rfl, hfile⟩]
    rfl
  · rw [if_neg fun h => hfile h.2]
    exact Option.not_isSome_iff_eq_none.mp hfile

theorem file_unlink_of_ne (hm : m ≠ l) : (t.unlink l).file m = t.file m := by
  rw [file, node_unlink, if_neg fun h => hm h.1, file]

theorem isDir_unlink : (t.unlink l).isDir m = t.isDir m := by
  rw [isDir, node_unlink]
  split
  · rename_i h
    obtain ⟨rfl, hfile⟩ := h
    refine (Bool.eq_false_iff.mpr fun hdir => ?_).symm
    rw [file_of_isDir hdir] at hfile
    cases hfile
  · rfl

/-- A rename touches its two ends. -/
theorem file_replace_of_ne (h : t.replace source target = some t') (hs : m ≠ source) (ht : m ≠ target) :
    t'.file m = t.file m := by
  obtain ⟨a, -, h⟩ := Option.bind_eq_some_iff.mp h
  obtain ⟨t₁, ht₁, rfl⟩ := Option.map_eq_some_iff.mp h
  split
  · exact file_write_of_ne ht₁ ht
  · rw [file_unlink_of_ne hs, file_write_of_ne ht₁ ht]

/-- A rename moves the content. -/
theorem replace_eq_some (h : t.replace source target = some t') (hne : source ≠ target) :
    ∃ a t₁, t.file source = some a ∧ t.write target a = some t₁ ∧ t' = t₁.unlink source := by
  obtain ⟨a, ha, h⟩ := Option.bind_eq_some_iff.mp h
  obtain ⟨t₁, ht₁, rfl⟩ := Option.map_eq_some_iff.mp h
  exact ⟨a, t₁, ha, ht₁, if_neg hne⟩

end

/-! ## Directories -/

/-- The location and the directories above it. -/
def chain (l : Location χ) : List (Location χ) := l :: l.parents

theorem mem_chain {l m : Location χ} : m ∈ chain l ↔ m.Within l := by
  rw [chain, List.mem_cons, Location.mem_parents]
  constructor
  · rintro (rfl | h)
    · exact .refl m
    · exact h.1
  · intro h
    by_cases hm : m = l
    · exact .inl hm
    · exact .inr ⟨h, hm⟩

/-- A directory and the ones above it are made; none of them may be a file. -/
def mkdirs (t : FileTree χ α) (l : Location χ) : Option (FileTree χ α) :=
  if (chain l).all fun m => (t.file m).isNone then
    some
      { node := fun m => if m.Within l then some .dir else t.node m
        closed := fun m p hp hsome => by
          by_cases hm : m.Within l
          · exact if_pos hm
          · rw [if_neg fun h => hm (Location.Within.of_child h)] at hsome
            rw [if_neg hm]
            exact t.closed m p hp hsome }
  else none

/-- A subtree without the nodes in `gone` and what is below them: as much of it as a removal has come to. -/
def prune (t : FileTree χ α) (l : Location χ) (gone : Location χ → Bool) : FileTree χ α where
  node m := if (chain m).any fun k => decide (l.Within k) && gone k then none else t.node m
  closed m p hp hsome := by
    split at hsome
    · cases hsome
    · rename_i hkept
      rw [if_neg]
      · exact t.closed m p hp hsome
      · intro hany
        obtain ⟨k, hk, hgone⟩ := List.any_eq_true.mp hany
        exact hkept (List.any_eq_true.mpr ⟨k, mem_chain.mpr ((mem_chain.mp hk).trans Location.within_child), hgone⟩)

section
variable {t t' : FileTree χ α} {l m : Location χ} {gone : Location χ → Bool}

theorem mkdirs_eq_some (h : t.mkdirs l = some t') :
    (∀ m, m.Within l → t.file m = none) ∧ t'.node = fun m => if m.Within l then some .dir else t.node m := by
  unfold mkdirs at h
  split at h
  · rename_i hnone
    cases h
    exact ⟨fun m hm => Option.isNone_iff_eq_none.mp (List.all_eq_true.mp hnone m (mem_chain.mpr hm)), rfl⟩
  · cases h

/-- Making directories changes no file. -/
theorem file_mkdirs (h : t.mkdirs l = some t') : t'.file m = t.file m := by
  obtain ⟨hnone, hnode⟩ := mkdirs_eq_some h
  rw [file, hnode]
  dsimp only
  split
  · rename_i hm
    rw [hnone m hm]
    rfl
  · rfl

theorem isDir_mkdirs (h : t.mkdirs l = some t') (hm : m.Within l) : t'.isDir m = true := by
  rw [isDir_iff, (mkdirs_eq_some h).2]
  exact if_pos hm

/-- A removal leaves what is outside alone. -/
theorem node_prune_of_not_within (hm : ¬ l.Within m) : (t.prune l gone).node m = t.node m := by
  refine if_neg fun hany => ?_
  obtain ⟨k, hk, hgone⟩ := List.any_eq_true.mp hany
  exact hm ((of_decide_eq_true ((Bool.and_eq_true _ _).mp hgone).1).trans (mem_chain.mp hk))

end

end FileTree

end Posix
