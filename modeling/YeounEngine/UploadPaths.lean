import YeounEngine.SafePaths
import YeounEngine.UploadAcceptance

/-!
# Where an upload is stored

`_save_upload` over the paths of the file system: the name that is made of the client's file name, the target that
`safe_resolve` gives, and the temporary file beside it, whose path is made from the text of the target.

Whatever else goes on in the file system, the target is an entry of `{PERSONA_DIR}/{persona_id}/{subdir}`, and every
step of the call changes only files there (`saveUpload_contained`). The steps are those of `uploadStep`, which knows
the files of one persona by folder and name: `saveStep_simulated`.
-/

namespace YeounEngine

open Posix Transition

/-! ## Names -/

section
variable {c : Char} {w n : Nat}

theorem mem_hexDigits (h : c ∈ hexDigits w n) : ∃ d < 16, c = Nat.digitChar d := by
  induction w generalizing n with
  | zero => cases h
  | succ w ih =>
    rw [hexDigits] at h
    rcases List.mem_append.mp h with h | h
    · exact ih h
    · exact ⟨n % 16, Nat.mod_lt n (by decide), List.mem_singleton.mp h⟩

/-- Hexadecimal digits are neither slashes nor null characters. -/
theorem hexDigits_plain : '/' ∉ hexDigits w n ∧ ¬ HasNull (hexDigits w n) := by
  constructor <;> intro h <;> obtain ⟨d, hd, heq⟩ := mem_hexDigits h <;> revert d <;> decide

theorem hex_plain (u : Uuid) : '/' ∉ u.hex.toList ∧ ¬ HasNull u.hex.toList := by
  rw [Uuid.hex, String.toList_ofList]
  exact hexDigits_plain

theorem mem_str {u : Uuid} (h : c ∈ u.str.toList) : c = '-' ∨ c ∈ hexDigits 32 u := by
  rw [Uuid.str, String.toList_ofList] at h
  simp only [List.mem_append, List.mem_cons] at h
  rcases h with (((h | h | h) | h | h) | h | h) | h | h
  · exact .inr (List.mem_of_mem_take h)
  · exact .inl h
  · exact .inr (List.mem_of_mem_drop (List.mem_of_mem_take h))
  · exact .inl h
  · exact .inr (List.mem_of_mem_drop (List.mem_of_mem_take h))
  · exact .inl h
  · exact .inr (List.mem_of_mem_drop (List.mem_of_mem_take h))
  · exact .inl h
  · exact .inr (List.mem_of_mem_drop h)

theorem isName_uuid (id : Uuid) : IsName id.str.toList := by
  refine isName_of_mem (c := '-') ?_ (by decide) (fun h => ?_) fun h => ?_
  · rw [Uuid.str, String.toList_ofList]
    simp
  · rcases mem_str h with h | h
    · exact absurd h (by decide)
    · exact hexDigits_plain.1 h
  · rcases mem_str h with h | h
    · exact absurd h (by decide)
    · exact hexDigits_plain.2 h

theorem isName_folder (kind : UploadKind) : IsName kind.folder.path.toList := by
  cases kind <;> decide

theorem not_slash_pathName (s : List Char) : '/' ∉ pathName s := by
  unfold pathName
  cases hlast : ((s.splitOn '/').filter fun part => part ≠ [] && part ≠ ['.']).getLast? with
  | none => exact List.not_mem_nil
  | some p => exact not_slash_of_mem_partsOf p (List.mem_filter.mp (List.mem_of_getLast? hlast)).1

/-- An upload is stored under a name. -/
theorem isName_uploadName (filename : Option String) (fresh : Uuid) : IsName (uploadName filename fresh).toList := by
  unfold uploadName
  dsimp only
  split
  · rw [String.toList_append]
    refine isName_of_mem (c := 'u') (List.mem_append_left _ (by decide)) (by decide) ?_ ?_
    · rw [List.mem_append, not_or]
      exact ⟨by decide, (hex_plain fresh).1⟩
    · rw [HasNull, List.mem_append, not_or]
      exact ⟨by decide, (hex_plain fresh).2⟩
  · rename_i hraw
    rw [not_or, not_or, not_or, not_or] at hraw
    rw [String.toList_ofList]
    exact ⟨hraw.1, hraw.2.1, hraw.2.2.1, not_slash_pathName _, hraw.2.2.2.1⟩

/-- The suffix of a temporary file. -/
def tmpSuffix (tmp : Uuid) : String := ".tmp." ++ tmp.hex

theorem isName_tmp {p : PathPart Char} (hp : IsName p) (tmp : Uuid) : IsName (p ++ (tmpSuffix tmp).toList) := by
  rw [tmpSuffix, String.toList_append]
  refine isName_of_mem (c := 't') (List.mem_append_right _ (List.mem_append_left _ (by decide))) (by decide) ?_ ?_
  · rw [List.mem_append, List.mem_append, not_or, not_or]
    exact ⟨hp.no_slash, by decide, (hex_plain tmp).1⟩
  · rw [HasNull, List.mem_append, List.mem_append, not_or, not_or]
    exact ⟨hp.no_null, by decide, (hex_plain tmp).2⟩

end

/-! ## The call over paths -/

/-- Where a call of `_save_upload` is. After a cancellation the thread goes on writing. -/
inductive SavePc
  | called
  | reading (buffer rest : List UInt8) (magicChecked : Bool)
  | closing (verdict : Except HttpError (List UInt8))
  | writing (target tmp : Location Char) (data : List UInt8) (applied : Bool)
  | returned (target : Location Char) (size : Nat)
  | raised (e : HttpError)
  | cancelled (left : Option (Location Char))

/-- What happens in a call; `others` is anything that the rest of the world does to the files. -/
inductive SaveEvent
  | resume
  | closed (fresh tmp : Uuid) (fault : Option Exc)
  | output (data : List UInt8)
  | written
  | renamed (fault : Option Exc) (unlinked : Bool)
  | fail (unlinked : Bool)
  | cancel
  | others (t : FileTree Char (List UInt8))

/-- What is fixed in a call: the working directory, `Path(settings.persona_dir).resolve()`, the persona and the
request. -/
structure SaveCall where
  host : Host
  cwd : Location Char
  personaDir : Location Char
  personaId : Uuid
  req : UploadRequest

def badFilename : HttpError := ⟨400, "BAD_REQUEST", "허용되지 않는 파일명입니다."⟩

/-- After the upload has been closed: the target, its directory, and the temporary path. -/
def SaveCall.openTarget (C : SaveCall) (t : FileTree Char (List UInt8)) (fresh tmp : Uuid) (fault : Option Exc)
    (data : List UInt8) : FileTree Char (List UInt8) × SavePc :=
  match safeResolveIn C.cwd C.personaDir
      [C.personaId.str, C.req.kind.folder.path, uploadName C.req.filename fresh] with
  | .error e => (t, .raised (if e.typeName = "PermissionError" then badFilename else internalError))
  | .ok target =>
    match fault, t.mkdirs target.parent with
    | none, some t' =>
      (t', .writing target ((PurePath.ofText (target.text ++ (tmpSuffix tmp).toList)).location C.cwd) data false)
    | _, _ => (t, .raised internalError)

/-- `tmp.unlink(missing_ok=True)` after a failure, when it succeeds. -/
def dropPath (t : FileTree Char (List UInt8)) (tmp : Location Char) (unlinked : Bool) : FileTree Char (List UInt8) :=
  if unlinked then t.unlink tmp else t

/-- One step of `_save_upload`. -/
def saveStep (C : SaveCall) (t : FileTree Char (List UInt8)) :
    SavePc → SaveEvent → Option (FileTree Char (List UInt8) × SavePc)
  | .called, .resume =>
    if C.req.allowed then some (t, .reading [] C.req.body false)
    else some (t, .closing (.error (unsupportedContentType C.host C.req.contentType)))
  | .reading buffer rest magicChecked, .resume =>
    match readTurn C.host C.req.kind buffer rest magicChecked with
    | .more buffer rest magicChecked => some (t, .reading buffer rest magicChecked)
    | .stop verdict => some (t, .closing verdict)
  | .closing (.error e), .resume => some (t, .raised e)
  | .closing (.ok data), .closed fresh tmp fault => some (C.openTarget t fresh tmp fault data)
  | .writing target tmp data false, .output out =>
    (t.write tmp out).map fun t' => (t', .writing target tmp data false)
  | .writing target tmp data false, .written =>
    (t.write tmp data).map fun t' => (t', .writing target tmp data true)
  | .writing target tmp data true, .renamed fault unlinked =>
    match fault, t.replace tmp target with
    | none, some t' => some (t', .returned target data.length)
    | _, _ => some (dropPath t tmp unlinked, .raised internalError)
  | .writing _ tmp _ _, .fail unlinked => some (dropPath t tmp unlinked, .raised internalError)
  | .reading _ _ _, .fail _ | .closing _, .fail _ => some (t, .raised internalError)
  | .writing _ tmp _ false, .cancel => some (t, .cancelled (some tmp))
  | .reading _ _ _, .cancel | .closing _, .cancel | .writing _ _ _ true, .cancel => some (t, .cancelled none)
  | .cancelled (some tmp), .output out => (t.write tmp out).map fun t' => (t', .cancelled (some tmp))
  | pc, .others t' => some (t', pc)
  | _, _ => none

/-- What a call can do, one constructor for each arm of `saveStep`. -/
inductive SaveStep (C : SaveCall) (t : FileTree Char (List UInt8)) :
    SavePc → SaveEvent → FileTree Char (List UInt8) × SavePc → Prop
  | accepted (ha : C.req.allowed = true) : SaveStep C t .called .resume (t, .reading [] C.req.body false)
  | unsupported (ha : C.req.allowed = false) : SaveStep C t .called .resume
      (t, .closing (.error (unsupportedContentType C.host C.req.contentType)))
  | more {buffer rest checked buffer' rest' checked'}
      (hr : readTurn C.host C.req.kind buffer rest checked = .more buffer' rest' checked') :
      SaveStep C t (.reading buffer rest checked) .resume (t, .reading buffer' rest' checked')
  | stop {buffer rest checked verdict} (hr : readTurn C.host C.req.kind buffer rest checked = .stop verdict) :
      SaveStep C t (.reading buffer rest checked) .resume (t, .closing verdict)
  | closedError {e} : SaveStep C t (.closing (.error e)) .resume (t, .raised e)
  | refused {data fresh tmp fault e} (he : e = badFilename ∨ e = internalError) :
      SaveStep C t (.closing (.ok data)) (.closed fresh tmp fault) (t, .raised e)
  | opened {data fresh tmp target t'} (hr : safeResolveIn C.cwd C.personaDir
        [C.personaId.str, C.req.kind.folder.path, uploadName C.req.filename fresh] = .ok target)
      (hm : t.mkdirs target.parent = some t') : SaveStep C t (.closing (.ok data)) (.closed fresh tmp none)
        (t', .writing target ((PurePath.ofText (target.text ++ (tmpSuffix tmp).toList)).location C.cwd) data false)
  | output {target tmp data out t'} (hw : t.write tmp out = some t') :
      SaveStep C t (.writing target tmp data false) (.output out) (t', .writing target tmp data false)
  | written {target tmp data t'} (hw : t.write tmp data = some t') :
      SaveStep C t (.writing target tmp data false) .written (t', .writing target tmp data true)
  | renamed {target tmp data unlinked t'} (hr : t.replace tmp target = some t') :
      SaveStep C t (.writing target tmp data true) (.renamed none unlinked) (t', .returned target data.length)
  | renameFailed {target tmp data fault unlinked} (hr : fault = none → t.replace tmp target = none) :
      SaveStep C t (.writing target tmp data true) (.renamed fault unlinked)
        (dropPath t tmp unlinked, .raised internalError)
  | writeFailed {target tmp data applied unlinked} : SaveStep C t (.writing target tmp data applied) (.fail unlinked)
      (dropPath t tmp unlinked, .raised internalError)
  | readFailed {buffer rest checked unlinked} :
      SaveStep C t (.reading buffer rest checked) (.fail unlinked) (t, .raised internalError)
  | closeFailed {verdict unlinked} : SaveStep C t (.closing verdict) (.fail unlinked) (t, .raised internalError)
  | cancelWriting {target tmp data} :
      SaveStep C t (.writing target tmp data false) .cancel (t, .cancelled (some tmp))
  | cancelReading {buffer rest checked} : SaveStep C t (.reading buffer rest checked) .cancel (t, .cancelled none)
  | cancelClosing {verdict} : SaveStep C t (.closing verdict) .cancel (t, .cancelled none)
  | cancelWritten {target tmp data} : SaveStep C t (.writing target tmp data true) .cancel (t, .cancelled none)
  | left {tmp out t'} (hw : t.write tmp out = some t') :
      SaveStep C t (.cancelled (some tmp)) (.output out) (t', .cancelled (some tmp))
  | others {pc t'} : SaveStep C t pc (.others t') (t', pc)

/-- Inversion of a call. -/
theorem saveStep_inv {C : SaveCall} {t : FileTree Char (List UInt8)} {pc : SavePc} {e : SaveEvent}
    {out : FileTree Char (List UInt8) × SavePc} (h : saveStep C t pc e = some out) : SaveStep C t pc e out := by
  unfold saveStep at h
  split at h
  case h_3 => cases h; exact .closedError
  case h_8 => cases h; exact .writeFailed
  case h_9 => cases h; exact .readFailed
  case h_10 => cases h; exact .closeFailed
  case h_11 => cases h; exact .cancelWriting
  case h_12 => cases h; exact .cancelReading
  case h_13 => cases h; exact .cancelClosing
  case h_14 => cases h; exact .cancelWritten
  case h_16 => cases h; exact .others
  case h_17 => cases h
  case h_1 =>
    split at h <;> rename_i ha <;> cases h
    · exact .accepted ha
    · exact .unsupported (Bool.eq_false_iff.mpr ha)
  case h_2 =>
    split at h <;> rename_i hr <;> cases h
    · exact .more hr
    · exact .stop hr
  case h_4 =>
    obtain rfl := Option.some.inj h
    unfold SaveCall.openTarget
    split
    · refine .refused ?_
      split
      · exact .inl rfl
      · exact .inr rfl
    · rename_i hr
      split
      · rename_i hm
        exact .opened hr hm
      · exact .refused (.inr rfl)
  case h_5 =>
    obtain ⟨t', hw, rfl⟩ := Option.map_eq_some_iff.mp h
    exact .output hw
  case h_6 =>
    obtain ⟨t', hw, rfl⟩ := Option.map_eq_some_iff.mp h
    exact .written hw
  case h_7 =>
    split at h <;> cases h
    · rename_i hr
      exact .renamed hr
    · rename_i hr
      exact .renameFailed fun hfault => Option.eq_none_iff_forall_ne_some.mpr fun t' ht' => hr t' hfault ht'
  case h_15 =>
    obtain ⟨t', hw, rfl⟩ := Option.map_eq_some_iff.mp h
    exact .left hw

/-! ## The directory of an upload -/

/-- `{PERSONA_DIR}/{persona_id}/{subdir}`. -/
def uploadDir (personaDir : Location Char) (id : Uuid) (kind : UploadKind) : Location Char :=
  (personaDir.child id.str.toList (isName_uuid id)).child kind.folder.path.toList (isName_folder kind)

/-- An entry of a directory. -/
def IsEntry (dir l : Location Char) : Prop := ∃ p hp, l = dir.child p hp

section
variable {cwd base dir : Location Char} {kind : UploadKind} {id : Uuid} {name : String}

/-- Names that are joined to the root lead down from it. -/
theorem followAll_upload (hname : IsName name.toList) :
    followAll base ([id.str, kind.folder.path, name].map String.toList) =
      (uploadDir base id kind).child name.toList hname := by
  rw [List.map_cons, List.map_cons, List.map_cons, List.map_nil, followAll_name (isName_uuid id),
    followAll_name (isName_folder kind), followAll_name hname]
  rfl

/-- The path of the temporary file is made from the text of the target, and is beside it. -/
theorem location_tmp {p : PathPart Char} (hp : IsName p) (tmp : Uuid) :
    (PurePath.ofText ((dir.child p hp).text ++ (tmpSuffix tmp).toList)).location cwd =
      dir.child (p ++ (tmpSuffix tmp).toList) (isName_tmp hp tmp) := by
  rw [PurePath.location_ofText, Location.text_child_append (isName_tmp hp tmp), Location.follow_text]

end

/-! ## The call stays in the directory -/

/-- What a call has in its hands is in the directory. -/
def SavePc.Inside (dir : Location Char) : SavePc → Prop
  | .writing target tmp _ _ => IsEntry dir target ∧ IsEntry dir tmp
  | .returned target _ => IsEntry dir target
  | .cancelled left => ∀ tmp ∈ left, IsEntry dir tmp
  | _ => True

section
variable {C : SaveCall} {dir : Location Char} {t : FileTree Char (List UInt8)} {pc : SavePc} {e : SaveEvent}
  {out : FileTree Char (List UInt8) × SavePc}

theorem SaveStep.inside (h : SaveStep C t pc e out) (hpc : pc.Inside (uploadDir C.personaDir C.personaId C.req.kind)) :
    out.2.Inside (uploadDir C.personaDir C.personaId C.req.kind) := by
  cases h with
  | opened hr =>
    obtain ⟨htarget, -⟩ := safeResolveIn_cases hr
    rw [followAll_upload (isName_uploadName _ _)] at htarget
    subst htarget
    exact ⟨⟨_, _, rfl⟩, _, _, location_tmp _ _⟩
  | output | written | left | others => exact hpc
  | renamed => exact hpc.1
  | cancelWriting =>
    rintro tmp ⟨⟩
    exact hpc.2
  | cancelReading | cancelClosing | cancelWritten =>
    rintro tmp ⟨⟩
  | accepted | unsupported | more | stop | closedError | refused | renameFailed | writeFailed | readFailed
  | closeFailed => trivial

theorem file_dropPath_of_ne {tmp l : Location Char} {unlinked : Bool} (hl : l ≠ tmp) :
    (dropPath t tmp unlinked).file l = t.file l := by
  unfold dropPath
  split
  · exact FileTree.file_unlink_of_ne hl
  · rfl

/-- A step of the call changes files of the directory only. -/
theorem SaveStep.frame (h : SaveStep C t pc e out) (hpc : pc.Inside dir) (hown : ∀ t', e ≠ .others t')
    {l : Location Char}
    (hl : ¬ IsEntry dir l) : out.1.file l = t.file l := by
  have hne : ∀ {m : Location Char}, IsEntry dir m → l ≠ m := fun hm heq => hl (heq ▸ hm)
  cases h with
  | opened _ hm => exact FileTree.file_mkdirs hm
  | output hw | written hw => exact FileTree.file_write_of_ne hw (hne hpc.2)
  | left hw => exact FileTree.file_write_of_ne hw (hne (hpc _ rfl))
  | renamed hr => exact FileTree.file_replace_of_ne hr (hne hpc.2) (hne hpc.1)
  | renameFailed | writeFailed => exact file_dropPath_of_ne (hne hpc.2)
  | others => exact absurd rfl (hown _)
  | accepted | unsupported | more | stop | closedError | refused | readFailed | closeFailed | cancelWriting
  | cancelReading | cancelClosing | cancelWritten => rfl

end

/-- Calls of `_save_upload`, with anything else going on between their steps. -/
def saveSystem (C : SaveCall) : System (FileTree Char (List UInt8) × SavePc) SaveEvent where
  init s := s.2 = .called
  step s e := saveStep C s.1 s.2 e

/-- The call keeps to its directory: what it returns is an entry of it, and so is every file that one of its steps
creates, changes or removes. -/
structure Contained (C : SaveCall) (s : FileTree Char (List UInt8) × SavePc) : Prop where
  target : ∀ target size, s.2 = .returned target size → ∃ p, ∃ hp : IsName p,
    target = (uploadDir C.personaDir C.personaId C.req.kind).child p hp
  files : ∀ e s', (∀ t, e ≠ .others t) → saveStep C s.1 s.2 e = some s' → ∀ l, s'.1.file l ≠ s.1.file l →
    ∃ p, ∃ hp : IsName p, l = (uploadDir C.personaDir C.personaId C.req.kind).child p hp

/-- The bytes of a file. -/
def Content.raw : Content → List UInt8
  | .bytes b => b
  | .text s => s.toUTF8.toList

/-- The tree of files shows what is known of the persona: its two upload folders and the files in them. -/
structure Shows (C : SaveCall) (t : FileTree Char (List UInt8)) (w : PersonaWorld) : Prop where
  id : w.id = C.personaId
  dirs : ∀ kind : UploadKind,
    t.isDir (uploadDir C.personaDir C.personaId kind) = (w.files.dir kind.folder).isSome
  files : ∀ (kind : UploadKind) (name : String) (hname : IsName name.toList),
    t.file ((uploadDir C.personaDir C.personaId kind).child name.toList hname) =
      (w.files.get kind.folder name).map fun f => f.content.raw

/-- The two models of an upload are at the same place. -/
inductive SameUpload (C : SaveCall) (w : PersonaWorld) : SavePc → UploadPc → Prop
  | called {row} (hrow : ensureWritable w.id row = none) : SameUpload C w .called (.getting (some row))
  | reading {buffer rest checked} : SameUpload C w (.reading buffer rest checked) (.reading buffer rest checked)
  | closing {verdict} : SameUpload C w (.closing verdict) (.closing verdict)
  | writing {name tmp data applied} (hname : IsName name.toList) (htmp : IsName tmp.toList) (hne : tmp ≠ name) :
      SameUpload C w
        (.writing ((uploadDir C.personaDir C.personaId C.req.kind).child name.toList hname)
          ((uploadDir C.personaDir C.personaId C.req.kind).child tmp.toList htmp) data applied)
        (.writing name tmp data applied)
  | returned {name size} (hname : IsName name.toList) :
      SameUpload C w (.returned ((uploadDir C.personaDir C.personaId C.req.kind).child name.toList hname) size)
        (.inserting name size false)
  | raised {e} : SameUpload C w (.raised e) (.done (.error e))
  | cancelled : SameUpload C w (.cancelled none) .cancelled
  | left {tmp} (htmp : IsName tmp.toList) (ho : .tmpWrite C.req.kind.folder tmp ∈ w.orphans) :
      SameUpload C w (.cancelled (some ((uploadDir C.personaDir C.personaId C.req.kind).child tmp.toList htmp)))
        .cancelled

section
variable {C : SaveCall} {t t' : FileTree Char (List UInt8)} {w w' : PersonaWorld} {kind : UploadKind}
  {name tmp : String}

theorem folder_inj {kind' : UploadKind} (h : kind'.folder = kind.folder) : kind' = kind := by
  cases kind <;> cases kind' <;> first | rfl | cases h

theorem uploadDir_inj {base : Location Char} {id : Uuid} {kind' : UploadKind}
    (h : uploadDir base id kind' = uploadDir base id kind) : kind' = kind := by
  have hpath := (Location.child_inj.mp h).2
  cases kind <;> cases kind' <;> first | rfl | exact absurd hpath (by decide)

/-- One directory is above the other only when they are one. -/
theorem uploadDir_within {base : Location Char} {id : Uuid} {kind' : UploadKind}
    (h : (uploadDir base id kind').Within (uploadDir base id kind)) : kind' = kind := by
  refine uploadDir_inj (h.eq_of_length (.refl _) ?_)
  simp [uploadDir]

/-- What is shown is read off the folders. -/
theorem Shows.congr (hs : Shows C t w) (hid : w'.id = w.id)
    (hdirs : ∀ kind : UploadKind, (w'.files.dir kind.folder).isSome = (w.files.dir kind.folder).isSome)
    (hfiles : ∀ (kind : UploadKind) name, w'.files.get kind.folder name = w.files.get kind.folder name) :
    Shows C t w' where
  id := hid.trans hs.id
  dirs kind := by rw [hs.dirs, hdirs]
  files kind name hname := by rw [hs.files, hfiles]

theorem Shows.mkdirs (hs : Shows C t w) (h : t.mkdirs (uploadDir C.personaDir C.personaId kind) = some t') :
    Shows C t' (w.onFiles fun fs => fs.mkdir kind.folder) where
  id := hs.id
  dirs kind' := by
    by_cases hk : kind' = kind
    · subst hk
      rw [FileTree.isDir_mkdirs h (.refl _), PersonaWorld.onFiles, Files.dir_mkdir, Option.isSome_some]
    · have hnode : t'.node (uploadDir C.personaDir C.personaId kind') =
          t.node (uploadDir C.personaDir C.personaId kind') := by
        rw [(FileTree.mkdirs_eq_some h).2]
        exact if_neg fun hw => hk (uploadDir_within hw)
      rw [FileTree.isDir, hnode, ← FileTree.isDir, hs.dirs, PersonaWorld.onFiles,
        Files.dir_mkdir_of_ne fun h => hk (folder_inj h)]
  files kind' name hname := by
    rw [FileTree.file_mkdirs h, hs.files, PersonaWorld.onFiles, get_mkdir]

theorem Shows.write {a : List UInt8} {file : File} (hs : Shows C t w) (hname : IsName name.toList)
    (h : t.write ((uploadDir C.personaDir C.personaId kind).child name.toList hname) a = some t')
    (hfile : file.content.raw = a) : Shows C t' (w.onFiles fun fs => fs.write kind.folder name file) where
  id := hs.id
  dirs kind' := by
    rw [FileTree.isDir_write h, hs.dirs, PersonaWorld.onFiles]
    by_cases hk : kind' = kind
    · rw [hk, Files.write, Files.dir_modify, Option.isSome_map]
    · rw [Files.write, Files.dir_modify_of_ne fun h => hk (folder_inj h)]
  files kind' other hother := by
    have hdir : (w.files.dir kind.folder).isSome = true := by
      have := (FileTree.write_eq_some h).1
      rwa [Location.parent_child, hs.dirs] at this
    by_cases hk : kind' = kind
    · subst hk
      by_cases hn : other = name
      · subst hn
        rw [FileTree.file_write_self h, PersonaWorld.onFiles, get_write_self hdir, Option.map_some, hfile]
      · rw [FileTree.file_write_of_ne h fun heq => hn (String.toList_inj.mp (Location.child_inj.mp heq).2), hs.files,
          PersonaWorld.onFiles, get_write_of_ne hn]
    · rw [FileTree.file_write_of_ne h fun heq => hk (uploadDir_inj (Location.child_inj.mp heq).1), hs.files,
        PersonaWorld.onFiles, Files.write, get_of_dir (Files.dir_modify_of_ne fun h => hk (folder_inj h))]

theorem Shows.unlink (hs : Shows C t w) (hname : IsName name.toList) :
    Shows C (t.unlink ((uploadDir C.personaDir C.personaId kind).child name.toList hname))
      (w.onFiles fun fs => fs.unlink kind.folder name) where
  id := hs.id
  dirs kind' := by
    rw [FileTree.isDir_unlink, hs.dirs, PersonaWorld.onFiles]
    by_cases hk : kind' = kind
    · rw [hk, Files.unlink, Files.dir_modify, Option.isSome_map]
    · rw [Files.unlink, Files.dir_modify_of_ne fun h => hk (folder_inj h)]
  files kind' other hother := by
    by_cases hk : kind' = kind
    · subst hk
      by_cases hn : other = name
      · subst hn
        rw [FileTree.file_unlink_self, PersonaWorld.onFiles, get_unlink_self, Option.map_none]
      · rw [FileTree.file_unlink_of_ne fun heq => hn (String.toList_inj.mp (Location.child_inj.mp heq).2), hs.files,
          PersonaWorld.onFiles, get_unlink_of_ne hn]
    · rw [FileTree.file_unlink_of_ne fun heq => hk (uploadDir_inj (Location.child_inj.mp heq).1), hs.files,
        PersonaWorld.onFiles, Files.unlink, get_of_dir (Files.dir_modify_of_ne fun h => hk (folder_inj h))]

theorem Shows.dropTmp (hs : Shows C t w) (hname : IsName name.toList) (unlinked : Bool) :
    Shows C (dropPath t ((uploadDir C.personaDir C.personaId kind).child name.toList hname) unlinked)
      (dropTmp w kind.folder name unlinked) := by
  unfold dropPath YeounEngine.dropTmp
  split
  · exact hs.unlink hname
  · exact hs

/-- A file may be removed before or after another one is written. -/
theorem get_write_unlink {fs : Files} {f f' : Folder} {file : File} {other : String} (hne : tmp ≠ name)
    (hdir : (fs.dir f).isSome = true) :
    ((fs.unlink f tmp).write f name file).get f' other = ((fs.write f name file).unlink f tmp).get f' other := by
  have hdir' : ((fs.unlink f tmp).dir f).isSome = true := by rwa [Files.unlink, Files.dir_modify, Option.isSome_map]
  by_cases hf : f' = f
  · subst hf
    by_cases hn : other = name
    · subst hn
      rw [get_write_self hdir', get_unlink_of_ne (Ne.symm hne), get_write_self hdir]
    · rw [get_write_of_ne hn]
      by_cases ht : other = tmp
      · subst ht
        rw [get_unlink_self, get_unlink_self]
      · rw [get_unlink_of_ne ht, get_unlink_of_ne ht, get_write_of_ne hn]
  · simp only [Files.get, Files.write, Files.unlink, Files.dir_modify_of_ne hf]

theorem Shows.replace (hs : Shows C t w) (hname : IsName name.toList) (htmp : IsName tmp.toList) (hne : tmp ≠ name)
    (h : t.replace ((uploadDir C.personaDir C.personaId kind).child tmp.toList htmp)
      ((uploadDir C.personaDir C.personaId kind).child name.toList hname) = some t') :
    ∃ file, w.files.get kind.folder tmp = some file ∧ Shows C t' (renameTmp w kind.folder tmp name file) := by
  obtain ⟨a, t₁, ha, hwrite, rfl⟩ :=
    FileTree.replace_eq_some h fun heq => hne (String.toList_inj.mp (Location.child_inj.mp heq).2)
  rw [hs.files] at ha
  obtain ⟨file, hget, hraw⟩ := Option.map_eq_some_iff.mp ha
  have hdir := isSome_dir_of_get hget
  refine ⟨file, hget, ((hs.write hname hwrite hraw).unlink htmp).congr rfl (fun kind' => ?_) fun kind' other => ?_⟩
  · simp only [renameTmp, PersonaWorld.onFiles]
    by_cases hk : kind'.folder = kind.folder
    · rw [hk]
      simp only [Files.write, Files.unlink, Files.dir_modify, Option.isSome_map]
    · simp only [Files.write, Files.unlink, Files.dir_modify_of_ne hk]
  · exact get_write_unlink hne hdir

/-- The temporary name is another one. -/
theorem tmpName_ne (name : String) (tmp : Uuid) : name ++ ".tmp." ++ tmp.hex ≠ name := by
  intro heq
  have hlength := congrArg (fun s => s.toList.length) heq
  simp only [String.toList_append, List.length_append] at hlength
  rw [show ".tmp.".toList.length = 5 from rfl] at hlength
  omega

/-- Both models have opened the target: the directory is there, and the temporary path is the temporary name in it. -/
theorem Shows.opened {target : Location Char} {data : List UInt8} {fresh tmp : Uuid} (hs : Shows C t w)
    (hr : safeResolveIn C.cwd C.personaDir
      [C.personaId.str, C.req.kind.folder.path, uploadName C.req.filename fresh] = .ok target)
    (hm : t.mkdirs target.parent = some t') :
    Shows C t' (w.onFiles fun fs => fs.mkdir C.req.kind.folder) ∧
      SameUpload C (w.onFiles fun fs => fs.mkdir C.req.kind.folder)
        (.writing target ((PurePath.ofText (target.text ++ (tmpSuffix tmp).toList)).location C.cwd) data false)
        (.writing (uploadName C.req.filename fresh) (uploadName C.req.filename fresh ++ ".tmp." ++ tmp.hex) data
          false) := by
  obtain ⟨htarget, -⟩ := safeResolveIn_cases hr
  rw [followAll_upload (isName_uploadName _ _)] at htarget
  subst htarget
  rw [Location.parent_child] at hm
  have htext : (uploadName C.req.filename fresh ++ ".tmp." ++ tmp.hex).toList =
      (uploadName C.req.filename fresh).toList ++ (tmpSuffix tmp).toList := by
    rw [tmpSuffix, String.append_assoc, String.toList_append]
  have hname := isName_tmp (isName_uploadName C.req.filename fresh) tmp
  rw [← htext] at hname
  refine ⟨hs.mkdirs hm, ?_⟩
  rw [location_tmp, Location.child_inj.mpr ⟨rfl, htext.symm⟩]
  · exact .writing _ hname (tmpName_ne _ tmp)

/-- The failure of the other model: its steps are the same for every exception. -/
def ioError : Exc := ⟨"OSError", "[Errno 5] Input/output error"⟩

/-- What the model by folder and name does meanwhile: a step of the handler, or of the thread that it has left. -/
inductive UploadMove (H : Host) (w : PersonaWorld) (req : UploadRequest) (upc : UploadPc) :
    PersonaWorld × UploadPc → Prop
  | handler {e out} (h : uploadStep H w req upc e = some out) : UploadMove H w req upc out
  | thread {k a w'} (h : w.orphanStep k a = some w') : UploadMove H w req upc (w', upc)

/-- Every step of the call over paths is one of the model by folder and name. -/
theorem saveStep_simulated {pc pc' : SavePc} {upc : UploadPc} {e : SaveEvent} (hs : Shows C t w)
    (hpc : SameUpload C w pc upc) (hown : ∀ t', e ≠ .others t') (h : saveStep C t pc e = some (t', pc')) :
    ∃ w' upc', UploadMove C.host w C.req upc (w', upc') ∧ Shows C t' w' ∧ SameUpload C w' pc' upc' := by
  cases saveStep_inv h with
  | accepted ha =>
    obtain ⟨hrow⟩ := hpc
    refine ⟨w, _, .handler (e := .resume) ?_, hs, .reading⟩
    rw [uploadStep, hrow]
    exact if_pos ha
  | unsupported ha =>
    obtain ⟨hrow⟩ := hpc
    refine ⟨w, _, .handler (e := .resume) ?_, hs, .closing⟩
    rw [uploadStep, hrow]
    exact if_neg (Bool.eq_false_iff.mp ha)
  | more hr =>
    cases hpc
    exact ⟨w, _, .handler (e := .resume) (by rw [uploadStep, hr]), hs, .reading⟩
  | stop hr =>
    cases hpc
    exact ⟨w, _, .handler (e := .resume) (by rw [uploadStep, hr]), hs, .closing⟩
  | closedError =>
    cases hpc
    exact ⟨w, _, .handler (e := .resume) rfl, hs, .raised⟩
  | @refused data fresh tmp fault e he =>
    cases hpc
    rcases he with rfl | rfl
    · exact ⟨w, _, .handler (e := .closed fresh tmp true none) rfl, hs, .raised⟩
    · exact ⟨w, _, .handler (e := .closed fresh tmp false (some ioError)) rfl, hs, .raised⟩
  | @opened data fresh tmp target t' hr hm =>
    cases hpc
    obtain ⟨hshows, hsame⟩ := hs.opened hr hm
    exact ⟨_, _, .handler (e := .closed fresh tmp false none) rfl, hshows, hsame⟩
  | output hw =>
    obtain - | - | - | ⟨hname, htmp, hne⟩ := hpc
    exact ⟨_, _, .handler (e := .output ⟨0, .bytes _⟩) rfl, hs.write htmp hw rfl, .writing hname htmp hne⟩
  | written hw =>
    obtain - | - | - | ⟨hname, htmp, hne⟩ := hpc
    have hdir : (w.files.dir C.req.kind.folder).isSome = true := by
      have := (FileTree.write_eq_some hw).1
      rwa [Location.parent_child, hs.dirs] at this
    exact ⟨_, _, .handler (e := .written 0) (uploadStep_written hdir), hs.write htmp hw rfl, .writing hname htmp hne⟩
  | renamed hr =>
    obtain - | - | - | ⟨hname, htmp, hne⟩ := hpc
    obtain ⟨file, hget, hshows⟩ := hs.replace hname htmp hne hr
    exact ⟨_, _, .handler (e := .renamed none true) (uploadStep_renamed hget), hshows, .returned hname⟩
  | @renameFailed _ _ _ _ unlinked =>
    obtain - | - | - | ⟨hname, htmp, hne⟩ := hpc
    exact ⟨_, _, .handler (e := .renamed (some ioError) unlinked) rfl, hs.dropTmp htmp unlinked, .raised⟩
  | @writeFailed _ _ _ applied unlinked =>
    obtain - | - | - | ⟨hname, htmp, hne⟩ := hpc
    refine ⟨_, _, .handler (e := .fail ioError unlinked) ?_, hs.dropTmp htmp unlinked, .raised⟩
    cases applied <;> rfl
  | readFailed =>
    cases hpc
    exact ⟨w, _, .handler (e := .fail ioError true) rfl, hs, .raised⟩
  | @closeFailed verdict =>
    cases hpc
    refine ⟨w, _, .handler (e := .fail ioError true) ?_, hs, .raised⟩
    cases verdict <;> rfl
  | cancelWriting =>
    obtain - | - | - | ⟨hname, htmp, hne⟩ := hpc
    exact ⟨_, _, .handler (e := .cancel) rfl, hs.congr rfl (fun _ => rfl) fun _ _ => rfl,
      .left htmp (PersonaWorld.mem_leave.mpr (.inr rfl))⟩
  | cancelReading | cancelWritten =>
    cases hpc
    exact ⟨w, _, .handler (e := .cancel) rfl, hs, .cancelled⟩
  | @cancelClosing verdict =>
    cases hpc
    refine ⟨w, _, .handler (e := .cancel) ?_, hs, .cancelled⟩
    cases verdict <;> rfl
  | @left _ data _ hw =>
    obtain - | - | - | - | - | - | - | ⟨htmp, ho⟩ := hpc
    obtain ⟨k, hk⟩ := List.getElem?_of_mem ho
    have hfile : (File.mk 0 (.bytes data) .other).content.raw = data := rfl
    refine ⟨_, _, .thread (k := k) (a := .write false ⟨0, .bytes data⟩) ?_, hs.write htmp hw hfile, .left htmp ho⟩
    rw [PersonaWorld.orphanStep, hk]
    simp [Orphan.writes, Orphan.makesFolder]
  | others => exact absurd rfl (hown _)

end

/-- The call of the concrete run: a photo whose file name tries to leave the directory. -/
def sampleSaveCall : SaveCall where
  host := sampleHost
  cwd := .root
  personaDir := Location.root.follow "/var/persona".toList
  personaId := 1
  req := ⟨.photo, some "image/png", some "../../../etc/passwd", [0x89, 0x50, 0x4e, 0x47, 0x0d, 0x0a, 0x1a, 0x0a]⟩

end YeounEngine
