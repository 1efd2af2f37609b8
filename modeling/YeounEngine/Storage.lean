import YeounEngine.Text
import Mathlib.Data.List.AList
import Mathlib.Data.List.MinMax
import Mathlib.Data.List.Sort
import Mathlib.Logic.Function.Basic
import Mathlib.Tactic.Tauto

/-!
# The files of a persona

The tree `{PERSONA_DIR}/{persona_id}/`: absent, or a set of folders (`Folder`), each absent or a
directory of files with distinct names (`Dir`). A file carries its modification time, its content
and where the content came from (`Origin`); the origin is a record for the proofs, no operation
of the program reads it.

`Files.mkdir`, `Files.modify` and `Files.rmdir` are the primitive changes, with the usual lemmas: what a
change to one folder does to that folder, that it leaves the others alone, and that only
`mkdir` creates anything where there was nothing.
-/

namespace YeounEngine

/-! ## Files and directories -/

/-- What a file holds: raw bytes, or a text in UTF-8. -/
inductive Content
  | bytes (b : List UInt8)
  | text (s : String)
  deriving DecidableEq

/-- `st_size > 0`. -/
def Content.nonempty : Content → Bool
  | .bytes b => b ≠ []
  | .text s => s ≠ ""

/-- A file as the selection of an input found it. -/
structure Picked where
  name : String
  mtime : Nat
  content : Content
  deriving DecidableEq

/-- Where the content of a file came from: `trim` is what ffmpeg writes for a voice file and
`render` what Ditto writes for a photo, `complete` once the child process has ended with 0;
`transcript` is the transcription of the audio. -/
inductive Origin
  | other
  | trim (voice : Picked) (complete : Bool)
  | transcript (audio : Content)
  | render (photo : Picked) (complete : Bool)
  deriving DecidableEq

/-- A regular file. -/
structure File where
  mtime : Nat
  content : Content
  origin : Origin
  deriving DecidableEq

/-- A directory: its files by name, in the order `iterdir` lists them. -/
abbrev Dir := AList fun _ : String => File

/-- A file of a directory that may not exist. -/
def fileIn (d : Option Dir) (name : String) : Option File := d.bind fun d => d.lookup name

/-- The folders below the root of a persona. -/
inductive Folder
  | photo
  | voice
  | voiceRef
  | idle
  | speak (sessionId : Uuid)
  deriving DecidableEq

/-- The root of a persona, when it exists. -/
structure Tree where
  folder : Folder → Option Dir

/-- What `{PERSONA_DIR}/{persona_id}` holds. -/
abbrev Files := Option Tree

/-! ## The primitive changes -/

namespace Files

/-- The folder, if it exists. -/
def dir (fs : Files) (f : Folder) : Option Dir := fs.bind fun t => t.folder f

/-- The file, if it exists. -/
def get (fs : Files) (f : Folder) (name : String) : Option File := fileIn (fs.dir f) name

/-- `path.exists()`, for a file. -/
def has (fs : Files) (f : Folder) (name : String) : Bool := (fs.get f name).isSome

/-- `path.exists() and path.stat().st_size > 0`. -/
def hasNonempty (fs : Files) (f : Folder) (name : String) : Bool :=
  (fs.get f name).any fun file => file.content.nonempty

/-- `folder.mkdir(parents=True, exist_ok=True)`. -/
def mkdir (fs : Files) (f : Folder) : Files :=
  some ⟨Function.update (fs.elim (fun _ => none) Tree.folder) f (some ((fs.dir f).getD ∅))⟩

/-- A change to the files of a folder, if the folder exists. -/
def modify (fs : Files) (f : Folder) (g : Dir → Dir) : Files :=
  fs.map fun t => ⟨Function.update t.folder f ((t.folder f).map g)⟩

/-- A file is written, in a folder that exists. -/
def write (fs : Files) (f : Folder) (name : String) (file : File) : Files :=
  fs.modify f fun d => d.insert name file

/-- `path.unlink(missing_ok=True)`. -/
def unlink (fs : Files) (f : Folder) (name : String) : Files :=
  fs.modify f fun d => d.erase name

/-- Several files of a directory are removed. -/
def eraseAll (names : List String) (d : Dir) : Dir := names.foldl (fun d name => d.erase name) d

/-- `shutil.rmtree` of a folder. -/
def rmdir (fs : Files) (f : Folder) : Files :=
  fs.map fun t => ⟨Function.update t.folder f none⟩

end Files

/-! ## Selections -/

/-- `max((p for p in folder.iterdir() if p.is_file()), key=lambda p: p.stat().st_mtime)`, or
nothing when there is no file. -/
def newest (d : Dir) : Option Picked :=
  (d.entries.argmax fun e => e.2.mtime).map fun e => ⟨e.1, e.2.mtime, e.2.content⟩

/-- The voice and photo inputs are the newest file of their folder; no folder, no file. -/
def Files.newestIn (fs : Files) (f : Folder) : Option Picked := (fs.dir f).bind newest

/-- The pattern `ref_audio.*`. -/
def isRefAudio (name : String) : Bool := "ref_audio.".toList.isPrefixOf name.toList

/-- `sorted(voice_ref_dir.glob("ref_audio.*"))`. -/
def refAudioCandidates (d : Dir) : List String :=
  (d.keys.filter isRefAudio).insertionSort fun a b => a ≤ b

/-- The files of the folder that `glob("ref_audio.*")` lists. -/
def Files.refAudioIn (fs : Files) : List String :=
  ((fs.dir .voiceRef).map refAudioCandidates).getD []

/-! ## Lemmas -/

namespace Files

variable {fs : Files} {f f' : Folder} {name : String} {g : Dir → Dir}

@[simp] theorem dir_mkdir : (fs.mkdir f).dir f = some ((fs.dir f).getD ∅) := by
  simp [mkdir, dir]

theorem dir_mkdir_of_ne (h : f' ≠ f) : (fs.mkdir f).dir f' = fs.dir f' := by
  cases fs <;> simp [mkdir, dir, Function.update_of_ne h]

@[simp] theorem dir_modify : (fs.modify f g).dir f = (fs.dir f).map g := by
  cases fs <;> simp [modify, dir]

theorem dir_modify_of_ne (h : f' ≠ f) : (fs.modify f g).dir f' = fs.dir f' := by
  cases fs <;> simp [modify, dir, Function.update_of_ne h]

@[simp] theorem dir_rmdir : (fs.rmdir f).dir f = none := by
  cases fs <;> simp [rmdir, dir]

theorem dir_rmdir_of_ne (h : f' ≠ f) : (fs.rmdir f).dir f' = fs.dir f' := by
  cases fs <;> simp [rmdir, dir, Function.update_of_ne h]

end Files

section
variable {d : Option Dir} {name other : String} {file : File}

@[simp] theorem fileIn_none : fileIn none name = none := rfl

@[simp] theorem fileIn_some {d : Dir} : fileIn (some d) name = d.lookup name := rfl

/-- A new folder is empty, and one that exists is kept. -/
@[simp] theorem fileIn_getD : fileIn (some (d.getD ∅)) name = fileIn d name := by
  cases d <;> rfl

theorem fileIn_insert_self (h : d.isSome) :
    fileIn (d.map fun d => d.insert name file) name = some file := by
  obtain ⟨d, rfl⟩ := Option.isSome_iff_exists.mp h
  exact AList.lookup_insert d

theorem fileIn_insert_of_ne (h : other ≠ name) :
    fileIn (d.map fun d => d.insert name file) other = fileIn d other := by
  cases d with
  | none => rfl
  | some d => exact AList.lookup_insert_ne h

theorem fileIn_erase_self : fileIn (d.map fun d => d.erase name) name = none := by
  cases d with
  | none => rfl
  | some d => exact AList.lookup_erase name d

theorem fileIn_erase_of_ne (h : other ≠ name) :
    fileIn (d.map fun d => d.erase name) other = fileIn d other := by
  cases d with
  | none => rfl
  | some d => exact AList.lookup_erase_ne h

end

theorem mem_eraseAll {names : List String} {d : Dir} {name : String} :
    name ∈ Files.eraseAll names d ↔ name ∈ d ∧ name ∉ names := by
  induction names generalizing d with
  | nil => simp [Files.eraseAll]
  | cons n names ih =>
    have := ih (d := d.erase n)
    rw [Files.eraseAll, List.foldl_cons, ← Files.eraseAll, this, AList.mem_erase, List.mem_cons]
    tauto

theorem lookup_eraseAll {names : List String} {d : Dir} {name : String} (h : name ∉ names) :
    (Files.eraseAll names d).lookup name = d.lookup name := by
  induction names generalizing d with
  | nil => rfl
  | cons n names ih =>
    rw [List.mem_cons, not_or] at h
    rw [Files.eraseAll, List.foldl_cons, ← Files.eraseAll, ih h.2]
    exact AList.lookup_erase_ne h.1

theorem fileIn_eraseAll_of_mem {names : List String} {d : Option Dir} {name : String} (h : name ∈ names) :
    fileIn (d.map (Files.eraseAll names)) name = none := by
  cases d with
  | none => rfl
  | some d =>
    rw [Option.map_some, fileIn_some, AList.lookup_eq_none]
    exact fun hmem => (mem_eraseAll.mp hmem).2 h

theorem fileIn_eraseAll_of_not_mem {names : List String} {d : Option Dir} {name : String} (h : name ∉ names) :
    fileIn (d.map (Files.eraseAll names)) name = fileIn d name := by
  cases d with
  | none => rfl
  | some d => exact lookup_eraseAll h

/-! ## Files of folders that agree -/

section
variable {fs fs' : Files} {f f' : Folder} {name : String}

/-- Making a folder changes no file. -/
theorem get_mkdir : (fs.mkdir f).get f' name = fs.get f' name := by
  rw [Files.get, Files.get]
  by_cases hf : f' = f
  · subst hf
    rw [Files.dir_mkdir, fileIn_getD]
  · rw [Files.dir_mkdir_of_ne hf]

theorem newestIn_mkdir : (fs.mkdir f).newestIn f' = fs.newestIn f' := by
  rw [Files.newestIn, Files.newestIn]
  by_cases h : f' = f
  · subst h
    rw [Files.dir_mkdir]
    cases fs.dir f' <;> rfl
  · rw [Files.dir_mkdir_of_ne h]

/-- Folders that agree have the same newest file. -/
theorem newestIn_of_dir (h : fs'.dir f = fs.dir f) : fs'.newestIn f = fs.newestIn f := by
  rw [Files.newestIn, Files.newestIn, h]

theorem get_of_dir (h : fs'.dir f = fs.dir f) : fs'.get f name = fs.get f name := by
  rw [Files.get, Files.get, h]

theorem has_of_dir (h : fs'.dir f = fs.dir f) : fs'.has f name = fs.has f name := by
  rw [Files.has, Files.has, get_of_dir h]

theorem has_mkdir : (fs.mkdir f).has f' name = fs.has f' name := by
  rw [Files.has, Files.has, get_mkdir]

theorem isSome_dir_of_get {file : File} (h : fs.get f name = some file) : (fs.dir f).isSome = true := by
  obtain ⟨d, hd, -⟩ := Option.bind_eq_some_iff.mp h
  rw [hd]
  rfl

end

/-! ## Reading after a write -/

section
variable {fs : Files} {f f' : Folder} {name other : String} {file file' : File}

theorem get_write_of_ne (h : other ≠ name) : (fs.write f name file).get f other = fs.get f other := by
  rw [Files.get, Files.get, Files.write, Files.dir_modify, fileIn_insert_of_ne h]

theorem get_write_self (h : (fs.dir f).isSome = true) : (fs.write f name file).get f name = some file := by
  rw [Files.get, Files.write, Files.dir_modify, fileIn_insert_self h]

/-- A file after a write is the one that was written, or one that was there. -/
theorem get_write_cases (h : (fs.write f name file).get f' other = some file') :
    (f' = f ∧ other = name ∧ file' = file) ∨ fs.get f' other = some file' := by
  by_cases hf : f' = f
  · subst hf
    by_cases hname : other = name
    · subst hname
      have hdir : (fs.dir f').isSome = true := by
        have := isSome_dir_of_get h
        rwa [Files.write, Files.dir_modify, Option.isSome_map] at this
      rw [get_write_self hdir] at h
      exact .inl ⟨rfl, rfl, (Option.some.inj h).symm⟩
    · exact .inr (get_write_of_ne hname ▸ h)
  · exact .inr (get_of_dir (Files.dir_modify_of_ne hf) ▸ h)

theorem has_write_self (h : (fs.dir f).isSome = true) : (fs.write f name file).has f name = true := by
  rw [Files.has, get_write_self h]
  rfl

/-- A write takes no file away. -/
theorem has_write (h : fs.has f' other = true) : (fs.write f name file).has f' other = true := by
  by_cases hf : f' = f
  · subst hf
    by_cases hname : other = name
    · subst hname
      obtain ⟨old, hold⟩ := Option.isSome_iff_exists.mp h
      exact has_write_self (isSome_dir_of_get hold)
    · rw [Files.has, get_write_of_ne hname]
      exact h
  · exact (has_of_dir (Files.dir_modify_of_ne hf)).trans h

theorem get_unlink_self : (fs.unlink f name).get f name = none := by
  rw [Files.get, Files.unlink, Files.dir_modify, fileIn_erase_self]

theorem get_unlink_of_ne (h : other ≠ name) : (fs.unlink f name).get f other = fs.get f other := by
  rw [Files.get, Files.get, Files.unlink, Files.dir_modify, fileIn_erase_of_ne h]

theorem has_unlink_of_ne (h : other ≠ name) : (fs.unlink f name).has f other = fs.has f other := by
  rw [Files.has, Files.has, get_unlink_of_ne h]

end

/-! ## Folders that lose files -/

/-- Nothing is in the folder that was not in it before. -/
def DirShrinks (d d' : Option Dir) : Prop :=
  ∀ dir', d' = some dir' → ∃ dir, d = some dir ∧
    ∀ name file, dir'.lookup name = some file → dir.lookup name = some file

section
variable {d d' d'' : Option Dir}

theorem DirShrinks.refl (d : Option Dir) : DirShrinks d d := fun _ h => ⟨_, h, fun _ _ => id⟩

theorem DirShrinks.of_eq (h : d' = d) : DirShrinks d d' := h ▸ .refl d

theorem DirShrinks.trans (h : DirShrinks d d') (h' : DirShrinks d' d'') : DirShrinks d d'' := by
  intro dir'' hdir''
  obtain ⟨dir', hdir', hfiles'⟩ := h' dir'' hdir''
  obtain ⟨dir, hdir, hfiles⟩ := h dir' hdir'
  exact ⟨dir, hdir, fun name file hf => hfiles name file (hfiles' name file hf)⟩

theorem DirShrinks.none (d : Option Dir) : DirShrinks d none := fun _ h => by cases h

theorem dirShrinks_eraseAll {names : Dir → List String} :
    DirShrinks d (d.map fun dir => Files.eraseAll (names dir) dir) := by
  intro dir' hdir'
  obtain ⟨dir, rfl, rfl⟩ := Option.map_eq_some_iff.mp hdir'
  refine ⟨dir, rfl, fun name file hf => ?_⟩
  have hmem : name ∈ Files.eraseAll (names dir) dir :=
    AList.lookup_isSome.mp (Option.isSome_iff_exists.mpr ⟨file, hf⟩)
  rw [← hf, lookup_eraseAll (mem_eraseAll.mp hmem).2]

end

/-! ## What the selections find -/

/-- `p` is a file of the directory, and none of its files is newer. -/
def IsNewest (d : Dir) (p : Picked) : Prop :=
  (∃ file, d.lookup p.name = some file ∧ file.mtime = p.mtime ∧ file.content = p.content) ∧
    ∀ name file, d.lookup name = some file → file.mtime ≤ p.mtime

/-- The selected input is a newest file of its folder. -/
theorem isNewest_of_newest {d : Dir} {p : Picked} (h : newest d = some p) : IsNewest d p := by
  obtain ⟨e, he, rfl⟩ := Option.map_eq_some_iff.mp h
  have hmem : e ∈ d.entries := List.argmax_mem he
  refine ⟨⟨e.2, AList.mem_lookup_iff.mpr hmem, rfl, rfl⟩, fun name file hf => ?_⟩
  exact List.le_of_mem_argmax (f := fun e => e.2.mtime) (AList.mem_lookup_iff.mp hf) he

/-- The candidates are the files whose name matches the pattern. -/
theorem mem_refAudioCandidates {d : Dir} {name : String} :
    name ∈ refAudioCandidates d ↔ name ∈ d ∧ isRefAudio name = true := by
  rw [refAudioCandidates, List.mem_insertionSort, List.mem_filter, AList.mem_keys]

/-- When one name is the only candidate, it is the one selected. -/
theorem head?_refAudioCandidates {d : Dir} {name : String} (hmem : name ∈ d)
    (hm : isRefAudio name = true) (honly : ∀ n ∈ d, isRefAudio n = true → n = name) :
    (refAudioCandidates d).head? = some name := by
  cases hc : refAudioCandidates d with
  | nil =>
    have : name ∈ refAudioCandidates d := mem_refAudioCandidates.mpr ⟨hmem, hm⟩
    rw [hc] at this
    cases this
  | cons n rest =>
    have : n ∈ refAudioCandidates d := by rw [hc]; exact List.mem_cons_self
    obtain ⟨hn, hr⟩ := mem_refAudioCandidates.mp this
    rw [honly n hn hr]
    rfl

end YeounEngine
