import YeounEngine.Creation
import YeounEngine.UploadAcceptance

/-!
# What a failed upload leaves

`upload_photo` and `upload_voice`, from their start to whatever comes after their end. Whatever happens to the persona
meanwhile leaves the two folders and their rows alone (`Untouched`), whatever else is left running, save for the
thread that a cancelled upload leaves writing; so `alone` is the system whose changes are those of one upload. An
upload that fails should leave the files of the two folders, by name and content, the asset rows and the selections of
the pipeline as they were (`ChangesNothing`).

Each step that can fail needs its own undo. Up to the temporary file there is nothing to undo; from there on it is
`except Exception`, which a cancellation passes by, and behind the rename there is no undo at all. So the property
holds in a run exactly when no failure comes where it cannot be undone (`changesNothing_iff`).
-/

namespace YeounEngine

open Transition

/-! ## An upload alone -/

/-- An upload and the two UUIDs that are drawn for it: for a replacement name and for the temporary name. -/
structure Upload where
  req : UploadRequest
  fresh : Uuid
  tmp : Uuid

namespace Upload

/-- The folder of `target`. -/
def folder (u : Upload) : Folder := u.req.kind.folder

/-- The name of `target`. -/
def name (u : Upload) : String := uploadName u.req.filename u.fresh

/-- The name of `tmp`. -/
def tmpName (u : Upload) : String := u.name ++ ".tmp." ++ u.tmp.hex

/-- The thread that a cancelled upload leaves behind. -/
def thread (u : Upload) : Orphan := .tmpWrite u.folder u.tmpName

/-- The UUIDs that are drawn are those of the upload. No file has the temporary name, since its UUID is a new one. -/
def draws (u : Upload) (w : PersonaWorld) : UploadEvent → Bool
  | .closed fresh tmp _ _ => fresh = u.fresh ∧ tmp = u.tmp ∧ w.files.has u.folder u.tmpName = false
  | _ => true

end Upload

/-- The folders of the uploads and the rows about them are the same. -/
structure Untouched (w w' : PersonaWorld) : Prop where
  id : w'.id = w.id
  photos : w'.files.dir .photo = w.files.dir .photo
  voices : w'.files.dir .voice = w.files.dir .voice
  photoAssets : w'.photoAssets = w.photoAssets
  voiceAssets : w'.voiceAssets = w.voiceAssets

instance (w w' : PersonaWorld) : Decidable (Untouched w w') :=
  decidable_of_iff (w'.id = w.id ∧ w'.files.dir .photo = w.files.dir .photo ∧
      w'.files.dir .voice = w.files.dir .voice ∧ w'.photoAssets = w.photoAssets ∧ w'.voiceAssets = w.voiceAssets)
    ⟨fun ⟨hid, hphotos, hvoices, hp, hv⟩ => ⟨hid, hphotos, hvoices, hp, hv⟩,
      fun h => ⟨h.id, h.photos, h.voices, h.photoAssets, h.voiceAssets⟩⟩

/-- The upload goes on, or the thread that it has left, which is the left-over work `k`, or something else happens. -/
inductive AloneEvent
  | upload (e : UploadEvent)
  | thread (k : Nat) (act : OrphanAct)
  | meanwhile (w : PersonaWorld)

/-- An upload to the persona `w₀`; nothing beside it touches the uploads, or leaves or ends its thread. -/
def alone (H : Host) (u : Upload) (w₀ : PersonaWorld) : System (PersonaWorld × UploadPc) AloneEvent where
  init s := s = (w₀, .getting none)
  step s
    | .upload e => if u.draws s.1 e then uploadStep H s.1 u.req s.2 e else none
    -- a thread that was there before is none of the upload: the temporary name is new
    | .thread k act =>
      if u.thread ∉ w₀.orphans ∧ s.1.orphans[k]? = some u.thread then
        (s.1.orphanStep k act).map fun w => (w, s.2)
      else none
    | .meanwhile w =>
      if Untouched s.1 w ∧ (u.thread ∈ w.orphans ↔ u.thread ∈ s.1.orphans) then some (w, s.2) else none

/-! ## The property -/

/-- The content of a file, if it is there. -/
def Files.content (fs : Files) (f : Folder) (name : String) : Option Content := (fs.get f name).map File.content

/-- The name and the content of the file that the pipeline would select. -/
def Files.selected (fs : Files) (f : Folder) : Option (String × Content) :=
  (fs.newestIn f).map fun p => (p.name, p.content)

/-- The files of the two folders, the rows about them, and the selections are the same. -/
structure SameUploads (w w' : PersonaWorld) : Prop where
  content : ∀ (kind : UploadKind) name, w'.files.content kind.folder name = w.files.content kind.folder name
  selected : ∀ kind : UploadKind, w'.files.selected kind.folder = w.files.selected kind.folder
  photoAssets : w'.photoAssets = w.photoAssets
  voiceAssets : w'.voiceAssets = w.voiceAssets

/-- The upload has ended without 200. -/
def UploadPc.failed : UploadPc → Bool
  | .done (.error _) | .cancelled => true
  | _ => false

/-- An upload that has failed has changed nothing. -/
def ChangesNothing (w₀ : PersonaWorld) (s : PersonaWorld × UploadPc) : Prop := s.2.failed = true → SameUploads w₀ s.1

/-! ## The condition -/

/-- What the step of the upload would leave is undone, or there is nothing to undo. -/
def Upload.undoes (u : Upload) (w₀ w : PersonaWorld) : UploadPc → UploadEvent → Bool
  | .writing _ tmp _ _, .cancel => !w.files.has u.folder tmp
  | .writing _ tmp _ _, .fail _ unlinked => unlinked || !w.files.has u.folder tmp
  | .writing _ _ _ true, .renamed fault unlinked => fault.isNone || unlinked
  | .inserting name _ applied, .cancel | .inserting name _ applied, .fail _ _ =>
    !applied && w.files.content u.folder name = w₀.files.content u.folder name &&
      w.files.selected u.folder = w₀.files.selected u.folder
  | _, _ => true

/-- The condition on a step; a thread that is left must not write. -/
def Undone (w₀ : PersonaWorld) (u : Upload) (s : PersonaWorld × UploadPc) : AloneEvent → Prop
  | .upload e => u.undoes w₀ s.1 s.2 e = true
  | .thread _ (.write _ _) => False
  | .thread _ _ | .meanwhile _ => True

instance (w₀ : PersonaWorld) (u : Upload) (s : PersonaWorld × UploadPc) : ∀ e, Decidable (Undone w₀ u s e)
  | .upload _ => inferInstanceAs (Decidable (_ = true))
  | .thread _ (.write _ _) => inferInstanceAs (Decidable False)
  | .thread _ (.remove _) | .thread _ .exit | .meanwhile _ => inferInstanceAs (Decidable True)

/-! ## How far an upload has come -/

/-- The folder of the upload when it has been made. -/
def Upload.opened (u : Upload) (w₀ : PersonaWorld) : Dir := (w₀.files.dir u.folder).getD ∅

/-- The folder of the upload holds `d`; the other one and the rows are as they were. -/
structure Holds (w₀ : PersonaWorld) (u : Upload) (d : Dir) (w : PersonaWorld) : Prop where
  dir : w.files.dir u.folder = some d
  others : ∀ kind, kind ≠ u.req.kind → w.files.dir kind.folder = w₀.files.dir kind.folder
  id : w.id = w₀.id
  photoAssets : w.photoAssets = w₀.photoAssets
  voiceAssets : w.voiceAssets = w₀.voiceAssets

/-- The upload has left no thread. -/
def NoThread (w₀ : PersonaWorld) (u : Upload) (w : PersonaWorld) : Prop := u.thread ∈ w.orphans → u.thread ∈ w₀.orphans

/-- Where an upload is that has not failed, and what it has done so far. -/
inductive Stage (H : Host) (w₀ : PersonaWorld) (u : Upload) : PersonaWorld × UploadPc → Prop
  | getting {w row} (hw : Untouched w₀ w) (ho : NoThread w₀ u w) : Stage H w₀ u (w, .getting row)
  | reading {w buffer rest checked} (hw : Untouched w₀ w) (ho : NoThread w₀ u w) :
      Stage H w₀ u (w, .reading buffer rest checked)
  | closing {w verdict} (hw : Untouched w₀ w) (ho : NoThread w₀ u w) : Stage H w₀ u (w, .closing verdict)
  | opened {w data} (hw : Holds w₀ u (u.opened w₀) w) (ho : NoThread w₀ u w) (hnew : u.tmpName ∉ u.opened w₀) :
      Stage H w₀ u (w, .writing u.name u.tmpName data false)
  | writing {w data file applied} (hw : Holds w₀ u ((u.opened w₀).insert u.tmpName file) w)
      (ho : NoThread w₀ u w) (hnew : u.tmpName ∉ u.opened w₀) :
      Stage H w₀ u (w, .writing u.name u.tmpName data applied)
  | renamed {w file size} (hw : Holds w₀ u ((u.opened w₀).insert u.name file) w) (ho : NoThread w₀ u w) :
      Stage H w₀ u (w, .inserting u.name size false)
  | inserted {w w' file size id} (hw : Holds w₀ u ((u.opened w₀).insert u.name file) w)
      (hrow : Untouched (insertAsset H w u.req id u.name) w') (ho : NoThread w₀ u w') :
      Stage H w₀ u (w', .inserting u.name size true)
  | stored {w w' file id result} (hw : Holds w₀ u ((u.opened w₀).insert u.name file) w)
      (hrow : Untouched (insertAsset H w u.req id u.name) w') (ho : NoThread w₀ u w') :
      Stage H w₀ u (w', .done (.ok result))

/-- An upload that has failed and changed nothing; its thread, if there is one, has not written since. -/
inductive Ended (w₀ : PersonaWorld) (u : Upload) : PersonaWorld × UploadPc → Prop
  | clean {w pc} (hfailed : pc.failed = true) (hsame : SameUploads w₀ w) (ho : NoThread w₀ u w) :
      Ended w₀ u (w, pc)
  | thread {w pc} (hfailed : pc.failed = true) (hw : Holds w₀ u (u.opened w₀) w)
      (hnew : u.tmpName ∉ u.opened w₀) :
      Ended w₀ u (w, pc)

/-- What a step leads to: the upload goes on; it fails with nothing left; or it fails where that is not undone. -/
inductive Outcome (H : Host) (w₀ : PersonaWorld) (u : Upload) (s : PersonaWorld × UploadPc) (e : AloneEvent)
    (t : PersonaWorld × UploadPc) : Prop
  | goesOn (ht : Stage H w₀ u t) (hok : Undone w₀ u s e)
  | undone (ht : Ended w₀ u t) (hok : Undone w₀ u s e)
  | harmed (hfailed : t.2.failed = true) (hno : ¬ Undone w₀ u s e) (hleft : ¬ SameUploads w₀ t.1)

section
variable {H : Host} {w₀ w w' : PersonaWorld} {u : Upload} {s t : PersonaWorld × UploadPc} {d : Dir} {file : File}
  {name : String} {f : Folder}

/-! ## Directories -/

theorem erase_of_not_mem (h : name ∉ d) : d.erase name = d := AList.ext (List.kerase_of_notMem_keys h)

theorem erase_insert_of_not_mem (h : name ∉ d) : (d.insert name file).erase name = d := by
  have hentries : ((d.insert name file).erase name).entries = (d.insert name file).entries.kerase name := rfl
  refine AList.ext ?_
  rw [hentries, AList.entries_insert_of_notMem h]
  exact List.kerase_cons_eq rfl

theorem selected_of_dir {fs fs' : Files} (h : fs'.dir f = fs.dir f) : fs'.selected f = fs.selected f := by
  rw [Files.selected, Files.selected, newestIn_of_dir h]

theorem content_of_dir {fs fs' : Files} (h : fs'.dir f = fs.dir f) : fs'.content f name = fs.content f name := by
  rw [Files.content, Files.content, get_of_dir h]

/-! ## What is left alone -/

theorem Untouched.refl (w : PersonaWorld) : Untouched w w := ⟨rfl, rfl, rfl, rfl, rfl⟩

theorem Untouched.trans {w'' : PersonaWorld} (h : Untouched w w') (h' : Untouched w' w'') : Untouched w w'' :=
  ⟨h'.id.trans h.id, h'.photos.trans h.photos, h'.voices.trans h.voices, h'.photoAssets.trans h.photoAssets,
    h'.voiceAssets.trans h.voiceAssets⟩

theorem Untouched.dir (h : Untouched w w') (kind : UploadKind) :
    w'.files.dir kind.folder = w.files.dir kind.folder := by
  cases kind with
  | photo => exact h.photos
  | voice => exact h.voices

theorem Untouched.same (h : Untouched w w') : SameUploads w w' :=
  ⟨fun kind _ => content_of_dir (h.dir kind), fun kind => selected_of_dir (h.dir kind), h.photoAssets, h.voiceAssets⟩

theorem SameUploads.trans {w'' : PersonaWorld} (h : SameUploads w w') (h' : SameUploads w' w'') : SameUploads w w'' :=
  ⟨fun kind name => (h'.content kind name).trans (h.content kind name),
    fun kind => (h'.selected kind).trans (h.selected kind), h'.photoAssets.trans h.photoAssets,
    h'.voiceAssets.trans h.voiceAssets⟩

theorem Holds.untouched (hw : Holds w₀ u d w) (h : Untouched w w') : Holds w₀ u d w' :=
  ⟨(h.dir _).trans hw.dir, fun kind hkind => (h.dir kind).trans (hw.others kind hkind), h.id.trans hw.id,
    h.photoAssets.trans hw.photoAssets, h.voiceAssets.trans hw.voiceAssets⟩

/-- The rows of the uploads, and whose they are. -/
def SameAssets (w w' : PersonaWorld) : Prop :=
  w'.id = w.id ∧ w'.photoAssets = w.photoAssets ∧ w'.voiceAssets = w.voiceAssets

theorem sameAssets_of_works {out : PersonaWorld × Run} (h : Works w out) : SameAssets w out.1 := by
  rw [SameAssets, h.1]
  exact ⟨rfl, rfl, rfl⟩

theorem BodyStep.sameAssets {r : Run} {pc : RunPc} {ev : RunEvent} {out : PersonaWorld × Run}
    (h : BodyStep H w r pc ev out) : SameAssets w out.1 := by
  cases h with
  | select => exact sameAssets_of_works (w := w.setStep _ _) (works_orFail works_selectVoice)
  | extract => exact sameAssets_of_works (w := w.setStep _ _) (works_orFail works_prepareVoiceRef)
  | transcribe => exact sameAssets_of_works (w := w.setStep _ _) (works_orFail works_transcribeVoice)
  | render => exact sameAssets_of_works (w := w.setStep _ _) (works_orFail works_renderIdleClips)
  | trimDone => exact sameAssets_of_works works_finishTrim
  | transcribed => exact sameAssets_of_works works_saveRefText
  | rendered =>
    exact sameAssets_of_works (w := idleRendered w _ _ _) (works_orFail (works_goto phase_nextClip rfl))
  | renderFailed =>
    rw [idleFailed]
    split <;> exact ⟨rfl, rfl, rfl⟩
  | _ => exact ⟨rfl, rfl, rfl⟩

theorem Interrupted.sameAssets {r : Run} {out : PersonaWorld × Run} (h : Interrupted w r out) : SameAssets w out.1 := by
  cases h with
  | @rendering _ i _ unlinked =>
    change SameAssets w (idleFailed w i true unlinked)
    rw [idleFailed]
    exact ⟨rfl, rfl, rfl⟩
  | _ => exact ⟨rfl, rfl, rfl⟩

/-- A run of the pipeline leaves the uploads alone. -/
theorem runStep_untouched {r r' : Run} {ev : RunEvent} (h : runStep H w r ev = some (w', r')) : Untouched w w' := by
  obtain ⟨hid, hphotos, hvoices⟩ : SameAssets w w' := by
    rcases runStep_cases h with h | ⟨-, h⟩
    · exact h.sameAssets
    · exact h.sameAssets
  exact ⟨hid, runStep_leaves h (by decide) (by decide), runStep_leaves h (by decide) (by decide), hphotos, hvoices⟩

theorem folder_ne {kind : UploadKind} (h : kind ≠ u.req.kind) : kind.folder ≠ u.folder := by
  unfold Upload.folder
  revert h
  cases kind <;> cases u.req.kind <;> decide

/-! ## What the folder holds -/

theorem Holds.has (hw : Holds w₀ u d w) : w.files.has u.folder name = true ↔ name ∈ d := by
  rw [Files.has, Files.get, hw.dir, fileIn_some, AList.lookup_isSome]

/-- A file that the upload has not touched. -/
theorem Holds.content_of_ne (hw : Holds w₀ u ((u.opened w₀).insert name file) w) {other : String}
    (hne : other ≠ name) : w.files.content u.folder other = w₀.files.content u.folder other := by
  rw [Files.content, Files.content, Files.get, Files.get, hw.dir, fileIn_some, AList.lookup_insert_ne hne,
    ← fileIn_some, Upload.opened, fileIn_getD]

/-- The folder has been made. -/
theorem Holds.mkdir (h : Untouched w₀ w) : Holds w₀ u (u.opened w₀) (w.onFiles fun fs => fs.mkdir u.folder) where
  dir := by
    rw [PersonaWorld.onFiles, Files.dir_mkdir, Upload.opened, Upload.folder, h.dir]
  others kind hkind := (Files.dir_mkdir_of_ne (folder_ne hkind)).trans (h.dir kind)
  id := h.id
  photoAssets := h.photoAssets
  voiceAssets := h.voiceAssets

/-- Making the folder changes no file and no selection. -/
theorem Holds.same (hw : Holds w₀ u (u.opened w₀) w) : SameUploads w₀ w := by
  have hfolder : w.files.dir u.folder = (w₀.files.mkdir u.folder).dir u.folder := by
    rw [hw.dir, Files.dir_mkdir]
    rfl
  refine ⟨fun kind name => ?_, fun kind => ?_, hw.photoAssets, hw.voiceAssets⟩
  · by_cases hkind : kind = u.req.kind
    · subst hkind
      rw [← Upload.folder, content_of_dir hfolder, Files.content, Files.content, get_mkdir]
    · exact content_of_dir (hw.others _ hkind)
  · by_cases hkind : kind = u.req.kind
    · subst hkind
      rw [← Upload.folder, selected_of_dir hfolder, Files.selected, Files.selected, newestIn_mkdir]
    · exact selected_of_dir (hw.others _ hkind)

/-- A file where there was none is a change. -/
theorem Holds.not_same (hw : Holds w₀ u d w) (hmem : u.tmpName ∈ d) (hnew : u.tmpName ∉ u.opened w₀) :
    ¬ SameUploads w₀ w := by
  intro hsame
  have hbefore : w₀.files.get u.folder u.tmpName = none := by
    rw [Files.get, ← fileIn_getD, fileIn_some]
    exact AList.lookup_eq_none.mpr hnew
  have hafter : (w.files.get u.folder u.tmpName).isSome = true := hw.has.mpr hmem
  have hcontent := hsame.content u.req.kind u.tmpName
  rw [Files.content, Files.content, ← Upload.folder, hbefore, Option.map_none, Option.map_eq_none_iff] at hcontent
  rw [hcontent] at hafter
  cases hafter

/-- A change to the folder of the upload. -/
theorem Holds.modify {g : Dir → Dir} (hw : Holds w₀ u d w) :
    Holds w₀ u (g d) (w.onFiles fun fs => fs.modify u.folder g) where
  dir := by
    rw [PersonaWorld.onFiles, Files.dir_modify, hw.dir]
    rfl
  others kind hkind := (Files.dir_modify_of_ne (folder_ne hkind)).trans (hw.others kind hkind)
  id := hw.id
  photoAssets := hw.photoAssets
  voiceAssets := hw.voiceAssets

/-- The temporary file is written. -/
theorem Holds.write (hw : Holds w₀ u d w) :
    Holds w₀ u (d.insert name file) (w.onFiles fun fs => fs.write u.folder name file) :=
  hw.modify

/-- It is written once more. -/
theorem Holds.overwrite {file' : File} (hw : Holds w₀ u (d.insert name file) w) :
    Holds w₀ u (d.insert name file') (w.onFiles fun fs => fs.write u.folder name file') := by
  have hwrite : Holds w₀ u ((d.insert name file).insert name file')
      (w.onFiles fun fs => fs.write u.folder name file') := hw.write
  rwa [AList.insert_insert] at hwrite

theorem Holds.drop {tmp : String} (hw : Holds w₀ u d w) : Holds w₀ u (d.erase tmp) (dropTmp w u.folder tmp true) :=
  hw.modify

theorem Holds.rename {file' : File} (hw : Holds w₀ u ((u.opened w₀).insert u.tmpName file') w)
    (hnew : u.tmpName ∉ u.opened w₀) :
    Holds w₀ u ((u.opened w₀).insert u.name file) (renameTmp w u.folder u.tmpName u.name file) := by
  have hdrop : Holds w₀ u (u.opened w₀) (w.onFiles fun fs => fs.unlink u.folder u.tmpName) :=
    erase_insert_of_not_mem hnew ▸ hw.modify (g := fun d => d.erase u.tmpName)
  exact hdrop.write

/-- After the rename, the file and the selection decide whether anything has changed. -/
theorem Holds.same_iff (hw : Holds w₀ u ((u.opened w₀).insert u.name file) w) : SameUploads w₀ w ↔
    w.files.content u.folder u.name = w₀.files.content u.folder u.name ∧
      w.files.selected u.folder = w₀.files.selected u.folder := by
  constructor
  · intro hsame
    exact ⟨hsame.content u.req.kind u.name, hsame.selected u.req.kind⟩
  · rintro ⟨hcontent, hselected⟩
    refine ⟨fun kind name => ?_, fun kind => ?_, hw.photoAssets, hw.voiceAssets⟩
    · by_cases hkind : kind = u.req.kind
      · subst hkind
        by_cases hname : name = u.name
        · exact hname ▸ hcontent
        · exact hw.content_of_ne hname
      · exact content_of_dir (hw.others _ hkind)
    · by_cases hkind : kind = u.req.kind
      · subst hkind
        exact hselected
      · exact selected_of_dir (hw.others _ hkind)

/-- A row that has been inserted is a change. -/
theorem Holds.not_same_inserted {id : Uuid} (hw : Holds w₀ u d w)
    (hrow : Untouched (insertAsset H w u.req id u.name) w') : ¬ SameUploads w₀ w' := by
  intro hsame
  cases hkind : u.req.kind with
  | photo =>
    have hrows := hrow.photoAssets.symm.trans hsame.photoAssets
    rw [← hw.photoAssets, insertAsset, hkind] at hrows
    have hlength := congrArg List.length hrows
    simp [PersonaWorld.insertPersonaPhotoAsset] at hlength
  | voice =>
    have hrows := hrow.voiceAssets.symm.trans hsame.voiceAssets
    rw [← hw.voiceAssets, insertAsset, hkind] at hrows
    have hlength := congrArg List.length hrows
    simp [PersonaWorld.insertPersonaVoiceAsset] at hlength

/-! ## One step -/

theorem orphans_insertAsset {id : Uuid} : (insertAsset H w u.req id name).orphans = w.orphans := by
  unfold insertAsset
  split <;> rfl

theorem orphans_dropTmp {tmp : String} {unlinked : Bool} : (dropTmp w f tmp unlinked).orphans = w.orphans := by
  cases unlinked <;> rfl

theorem NoThread.of_orphans (h : NoThread w₀ u w) (heq : w'.orphans = w.orphans) : NoThread w₀ u w' := by
  rwa [NoThread, heq]

/-- A failure of the write or of the rename. -/
theorem Stage.dropped {tmp : String} {data : List UInt8} {applied unlinked : Bool} {e : AloneEvent}
    (hs : Stage H w₀ u (w, .writing name tmp data applied))
    (hok : Undone w₀ u (w, .writing name tmp data applied) e ↔ unlinked = true ∨ w.files.has u.folder tmp = false) :
    Outcome H w₀ u (w, .writing name tmp data applied) e
      (dropTmp w u.folder tmp unlinked, .done (.error internalError)) := by
  cases hs with
  | opened hw ho hnew =>
    have habsent : w.files.has u.folder u.tmpName = false := Bool.eq_false_iff.mpr fun h => hnew (hw.has.mp h)
    have hdropped : Holds w₀ u (u.opened w₀) (dropTmp w u.folder u.tmpName unlinked) := by
      cases unlinked with
      | false => exact hw
      | true =>
        have hdrop : Holds w₀ u ((u.opened w₀).erase u.tmpName) (dropTmp w u.folder u.tmpName true) := hw.drop
        rwa [erase_of_not_mem hnew] at hdrop
    exact .undone (.clean rfl hdropped.same (ho.of_orphans orphans_dropTmp)) (hok.mpr (.inr habsent))
  | @writing _ _ file _ hw ho hnew =>
    have hmem : u.tmpName ∈ (u.opened w₀).insert u.tmpName file := (AList.mem_insert _).mpr (.inl rfl)
    cases unlinked with
    | false =>
      refine .harmed rfl (fun h => ?_) (hw.not_same hmem hnew)
      rcases hok.mp h with h | h
      · cases h
      · exact Bool.eq_false_iff.mp h (hw.has.mpr hmem)
    | true =>
      have hdropped : Holds w₀ u (((u.opened w₀).insert u.tmpName file).erase u.tmpName)
          (dropTmp w u.folder u.tmpName true) := hw.drop
      rw [erase_insert_of_not_mem hnew] at hdropped
      exact .undone (.clean rfl hdropped.same ho) (hok.mpr (.inl rfl))

/-- A rename of a file that is there fails only with an exception. -/
theorem Stage.renameFailed {tmp : String} {data : List UInt8} {fault : Option Exc} {unlinked : Bool}
    (hs : Stage H w₀ u (w, .writing name tmp data true)) (hget : w.files.get u.folder tmp = some file)
    (h : uploadStep H w u.req (.writing name tmp data true) (.renamed fault unlinked) =
      some (dropTmp w u.folder tmp unlinked, .done (.error internalError))) :
    Outcome H w₀ u (w, .writing name tmp data true) (.upload (.renamed fault unlinked))
      (dropTmp w u.folder tmp unlinked, .done (.error internalError)) := by
  cases fault with
  | none =>
    have hrenamed := Option.some.inj ((uploadStep_renamed hget).symm.trans h)
    cases congrArg Prod.snd hrenamed
  | some fault =>
    have hhas : w.files.has u.folder tmp = true := congrArg Option.isSome hget
    exact hs.dropped (by simp [Undone, Upload.undoes, hhas])

/-- A failure behind the rename. -/
theorem Stage.interrupted {size : Nat} {applied : Bool} {pc : UploadPc} {e : AloneEvent}
    (hs : Stage H w₀ u (w, .inserting name size applied)) (hfailed : pc.failed = true)
    (hok : Undone w₀ u (w, .inserting name size applied) e ↔ applied = false ∧
      w.files.content u.folder name = w₀.files.content u.folder name ∧
        w.files.selected u.folder = w₀.files.selected u.folder) :
    Outcome H w₀ u (w, .inserting name size applied) e (w, pc) := by
  cases hs with
  | renamed hw ho =>
    by_cases hsame : SameUploads w₀ w
    · exact .undone (.clean hfailed hsame ho) (hok.mpr ⟨rfl, hw.same_iff.mp hsame⟩)
    · exact .harmed hfailed (fun h => hsame (hw.same_iff.mpr (hok.mp h).2)) hsame
  | inserted hw hrow =>
    refine .harmed hfailed (fun h => ?_) (hw.not_same_inserted hrow)
    cases (hok.mp h).1

/-- A cancellation while the thread writes leaves the thread, one behind it leaves the file. -/
theorem Stage.cancelled {tmp : String} {data : List UInt8} {applied : Bool}
    (hs : Stage H w₀ u (w, .writing name tmp data applied)) (hleft : w' = w ∧ applied = true ∨
      w' = w.leave (.tmpWrite u.folder tmp) ∧ applied = false) :
    Outcome H w₀ u (w, .writing name tmp data applied) (.upload .cancel) (w', .cancelled) := by
  have hok : Undone w₀ u (w, .writing name tmp data applied) (.upload .cancel) ↔ w.files.has u.folder tmp = false := by
    show (!w.files.has u.folder tmp) = true ↔ _
    rw [Bool.not_eq_true']
  cases hs with
  | opened hw ho hnew =>
    rcases hleft with ⟨-, ⟨⟩⟩ | ⟨rfl, -⟩
    have hleft : Holds w₀ u (u.opened w₀) (w.leave (.tmpWrite u.folder u.tmpName)) :=
      ⟨hw.dir, hw.others, hw.id, hw.photoAssets, hw.voiceAssets⟩
    exact .undone (.thread rfl hleft hnew) (hok.mpr (Bool.eq_false_iff.mpr fun h => hnew (hw.has.mp h)))
  | @writing _ _ file _ hw ho hnew =>
    have hmem : u.tmpName ∈ (u.opened w₀).insert u.tmpName file := (AList.mem_insert _).mpr (.inl rfl)
    have hw' : Holds w₀ u ((u.opened w₀).insert u.tmpName file) w' := by
      rcases hleft with ⟨rfl, -⟩ | ⟨rfl, -⟩
      · exact hw
      · exact ⟨hw.dir, hw.others, hw.id, hw.photoAssets, hw.voiceAssets⟩
    exact .harmed rfl (fun h => Bool.eq_false_iff.mp (hok.mp h) (hw.has.mpr hmem)) (hw'.not_same hmem hnew)

theorem step_of_alone {e : UploadEvent} (h : (alone H u w₀).step s (.upload e) = some t) :
    u.draws s.1 e = true ∧ uploadStep H s.1 u.req s.2 e = some t := by
  have h : (if u.draws s.1 e then uploadStep H s.1 u.req s.2 e else none) = some t := h
  split at h
  · rename_i hdraws
    exact ⟨hdraws, h⟩
  · cases h

/-- What a step of the upload leads to. -/
theorem Stage.upload {e : UploadEvent} (hs : Stage H w₀ u s) (h : (alone H u w₀).step s (.upload e) = some t) :
    Outcome H w₀ u s (.upload e) t := by
  obtain ⟨hdraws, h⟩ := step_of_alone h
  have hstep := uploadStep_inv h
  have hstage := hs
  cases hs with
  -- up to the temporary file a failure leaves the persona as it is
  | getting hw ho =>
    cases hstep with
    | select => exact .goesOn (.getting hw ho) rfl
    | accepted => exact .goesOn (.reading hw ho) rfl
    | unsupported => exact .goesOn (.closing hw ho) rfl
    | refused | getFailed | cancelGetting => exact .undone (.clean rfl hw.same ho) rfl
  | reading hw ho =>
    cases hstep with
    | more => exact .goesOn (.reading hw ho) rfl
    | stop => exact .goesOn (.closing hw ho) rfl
    | readFailed | cancelReading => exact .undone (.clean rfl hw.same ho) rfl
  | closing hw ho =>
    cases hstep with
    | closedError | nameRefused | mkdirFailed | closeFailed | cancelClosing =>
      exact .undone (.clean rfl hw.same ho) rfl
    | opened =>
      obtain ⟨rfl, rfl, hnew⟩ := of_decide_eq_true hdraws
      have hopened : Holds w₀ u (u.opened w₀) _ := Holds.mkdir hw
      refine .goesOn (.opened hopened ho fun hmem => Bool.eq_false_iff.mp hnew ?_) rfl
      rw [← has_mkdir (f := u.folder)]
      exact hopened.has.mpr hmem
  | opened hw ho hnew =>
    cases hstep with
    | output => exact .goesOn (.writing hw.write ho hnew) rfl
    | written => exact .goesOn (.writing hw.write ho hnew) rfl
    | writeFailed => exact hstage.dropped (by simp [Undone, Upload.undoes])
    | cancelWriting => exact hstage.cancelled (.inr ⟨rfl, rfl⟩)
  | @writing w _ file _ hw ho hnew =>
    cases hstep with
    | output => exact .goesOn (.writing hw.overwrite ho hnew) rfl
    | written => exact .goesOn (.writing hw.overwrite ho hnew) rfl
    | renamed => exact .goesOn (.renamed (hw.rename hnew) ho) rfl
    | renameFailed =>
      have hget : w.files.get u.folder u.tmpName = some file := by
        rw [Files.get, hw.dir]
        exact AList.lookup_insert _
      exact hstage.renameFailed hget h
    | writeFailed => exact hstage.dropped (by simp [Undone, Upload.undoes])
    | cancelWriting => exact hstage.cancelled (.inr ⟨rfl, rfl⟩)
    | cancelWritten => exact hstage.cancelled (.inl ⟨rfl, rfl⟩)
  | renamed hw ho =>
    cases hstep with
    | insert => exact .goesOn (.inserted hw (.refl _) (ho.of_orphans orphans_insertAsset)) rfl
    | insertFailed | cancelInserting => exact hstage.interrupted rfl (by simp [Undone, Upload.undoes])
  | inserted hw hrow ho =>
    cases hstep with
    | inserted => exact .goesOn (.stored hw hrow ho) rfl
    | insertFailed | cancelInserting => exact hstage.interrupted rfl (by simp [Undone, Upload.undoes])
  | stored => cases hstep

/-- A thread that goes on is one that the upload has left. -/
theorem step_thread {k : Nat} {act : OrphanAct} (h : (alone H u w₀).step s (.thread k act) = some t) :
    u.thread ∉ w₀.orphans ∧ s.1.orphans[k]? = some u.thread ∧
      (s.1.orphanStep k act).map (fun w => (w, s.2)) = some t := by
  have h : (if u.thread ∉ w₀.orphans ∧ s.1.orphans[k]? = some u.thread then
    (s.1.orphanStep k act).map fun w => (w, s.2) else none) = some t := h
  split at h
  · rename_i hleft
    exact ⟨hleft.1, hleft.2, h⟩
  · cases h

theorem no_thread {k : Nat} {act : OrphanAct} (ho : NoThread w₀ u s.1) :
    (alone H u w₀).step s (.thread k act) ≠ some t := by
  intro h
  obtain ⟨hnew, hk, -⟩ := step_thread h
  exact hnew (ho (List.mem_of_getElem? hk))

theorem step_meanwhile (h : (alone H u w₀).step s (.meanwhile w') = some t) :
    Untouched s.1 w' ∧ (u.thread ∈ w'.orphans → u.thread ∈ s.1.orphans) ∧ t = (w', s.2) := by
  have h : (if Untouched s.1 w' ∧ (u.thread ∈ w'.orphans ↔ u.thread ∈ s.1.orphans) then some (w', s.2) else none) =
    some t := h
  split at h
  · rename_i hleft
    cases h
    exact ⟨hleft.1, hleft.2.mp, rfl⟩
  · cases h

/-- What else happens changes nothing about where the upload is. -/
theorem Stage.meanwhile {pc : UploadPc} (hs : Stage H w₀ u (w, pc)) (h : Untouched w w')
    (hthread : u.thread ∈ w'.orphans → u.thread ∈ w.orphans) : Stage H w₀ u (w', pc) := by
  cases hs with
  | getting hw ho => exact .getting (hw.trans h) (ho ∘ hthread)
  | reading hw ho => exact .reading (hw.trans h) (ho ∘ hthread)
  | closing hw ho => exact .closing (hw.trans h) (ho ∘ hthread)
  | opened hw ho hnew => exact .opened (hw.untouched h) (ho ∘ hthread) hnew
  | writing hw ho hnew => exact .writing (hw.untouched h) (ho ∘ hthread) hnew
  | renamed hw ho => exact .renamed (hw.untouched h) (ho ∘ hthread)
  | inserted hw hrow ho => exact .inserted hw (hrow.trans h) (ho ∘ hthread)
  | stored hw hrow ho => exact .stored hw (hrow.trans h) (ho ∘ hthread)

theorem Ended.meanwhile {pc : UploadPc} (hs : Ended w₀ u (w, pc)) (h : Untouched w w')
    (hthread : u.thread ∈ w'.orphans → u.thread ∈ w.orphans) : Ended w₀ u (w', pc) := by
  cases hs with
  | clean hfailed hsame ho => exact .clean hfailed (hsame.trans h.same) (ho ∘ hthread)
  | thread hfailed hw hnew => exact .thread hfailed (hw.untouched h) hnew

/-- An upload that goes on has left no thread. -/
theorem Stage.noThread (hs : Stage H w₀ u s) : NoThread w₀ u s.1 := by
  cases hs <;> assumption

theorem UploadStep.not_failed {e : UploadEvent} {pc : UploadPc} (h : UploadStep H w u.req pc e t) :
    pc.failed = false := by
  cases h <;> rfl

/-- A thread that is left ends without a trace, or it writes. -/
theorem Ended.outcome {e : AloneEvent} (hs : Ended w₀ u s) (h : (alone H u w₀).step s e = some t) :
    Outcome H w₀ u s e t := by
  have hend : ∀ {ev : UploadEvent}, s.2.failed = true → (alone H u w₀).step s (.upload ev) ≠ some t := by
    intro ev hfailed hstep
    have hgoes := (uploadStep_inv (step_of_alone hstep).2).not_failed
    rw [hfailed] at hgoes
    cases hgoes
  have hstage := hs
  cases hs with
  | clean hfailed hsame ho =>
    cases e with
    | upload => exact absurd h (hend hfailed)
    | thread => exact absurd h (no_thread ho)
    | meanwhile w' =>
      obtain ⟨hleft, hthread, rfl⟩ := step_meanwhile h
      exact .undone (hstage.meanwhile hleft hthread) trivial
  | @thread w pc hfailed hw hnew =>
    cases e with
    | upload => exact absurd h (hend hfailed)
    | thread k act =>
      obtain ⟨-, hk, h⟩ := step_thread h
      obtain ⟨w', hstep, rfl⟩ := Option.map_eq_some_iff.mp h
      rw [PersonaWorld.orphanStep, hk, Option.bind_some] at hstep
      cases act with
      | write side o =>
        cases hstep
        have hname : (u.tmpName ++ if side then u.thread.side else "") = u.tmpName := by
          cases side <;> exact String.append_empty
        refine .harmed hfailed id ?_
        have hwrite : Holds w₀ u ((u.opened w₀).insert u.tmpName ⟨o.now, o.content, .other⟩)
            (w.onFiles fun fs => fs.write u.folder u.tmpName ⟨o.now, o.content, .other⟩) := hw.write
        exact hname.symm ▸ hwrite.not_same ((AList.mem_insert _).mpr (.inl rfl)) hnew
      | remove => cases hstep
      | exit =>
        cases hstep
        exact .undone (.thread hfailed ⟨hw.dir, hw.others, hw.id, hw.photoAssets, hw.voiceAssets⟩ hnew) trivial
    | meanwhile w' =>
      obtain ⟨hleft, hthread, rfl⟩ := step_meanwhile h
      exact .undone (hstage.meanwhile hleft hthread) trivial

/-! ## Runs -/

/-- What holds as long as every step is undone. -/
def Clean (H : Host) (w₀ : PersonaWorld) (u : Upload) (s : PersonaWorld × UploadPc) : Prop :=
  Stage H w₀ u s ∨ Ended w₀ u s

theorem Clean.outcome {e : AloneEvent} (hs : Clean H w₀ u s) (h : (alone H u w₀).step s e = some t) :
    Outcome H w₀ u s e t := by
  rcases hs with hs | hs
  · cases e with
    | upload => exact hs.upload h
    | thread => exact absurd h (no_thread hs.noThread)
    | meanwhile w' =>
      obtain ⟨hleft, hthread, rfl⟩ := step_meanwhile h
      exact .goesOn (hs.meanwhile hleft hthread) trivial
  · exact hs.outcome h

/-- An upload that has not failed has come through its stages. -/
theorem stage_of_steps (h : (alone H u w₀).Steps anyStep (w₀, .getting none) t) (hgoes : t.2.failed = false) :
    Stage H w₀ u t := by
  have hinv : t.2.failed = true ∨ Stage H w₀ u t := by
    refine h.inv (I := fun s => s.2.failed = true ∨ Stage H w₀ u s) (fun s e t hs _ hstep => ?_)
      (.inr (.getting (.refl w₀) id))
    rcases hs with hfailed | hs
    · cases e with
      | upload =>
        have hgoes := (uploadStep_inv (step_of_alone hstep).2).not_failed
        rw [hfailed] at hgoes
        cases hgoes
      | thread =>
        obtain ⟨w', -, rfl⟩ := Option.map_eq_some_iff.mp (step_thread hstep).2.2
        exact .inl hfailed
      | meanwhile =>
        obtain ⟨-, -, rfl⟩ := step_meanwhile hstep
        exact .inl hfailed
    · cases Clean.outcome (.inl hs) hstep with
      | goesOn ht => exact .inr ht
      | undone ht => exact .inl (by cases ht <;> assumption)
      | harmed hfailed => exact .inl hfailed
  exact hinv.resolve_left (Bool.eq_false_iff.mp hgoes)

theorem Clean.changesNothing (hs : Clean H w₀ u s) : ChangesNothing w₀ s := by
  intro hfailed
  rcases hs with hs | hs
  · cases hs <;> cases hfailed
  · cases hs with
    | clean _ hsame => exact hsame
    | thread _ hw => exact hw.same

/-- A step leads to a state with nothing left if and only if it is undone. -/
theorem Clean.exact {e : AloneEvent} (hs : Clean H w₀ u s) (h : (alone H u w₀).step s e = some t) :
    ChangesNothing w₀ t ↔ Undone w₀ u s e := by
  cases hs.outcome h with
  | goesOn ht hok => exact iff_of_true (Clean.changesNothing (.inl ht)) hok
  | undone ht hok => exact iff_of_true (Clean.changesNothing (H := H) (.inr ht)) hok
  | harmed hfailed hno hleft => exact iff_of_false (fun hleaves => hleft (hleaves hfailed)) hno

theorem Clean.next {e : AloneEvent} (hs : Clean H w₀ u s) (hok : Undone w₀ u s e)
    (h : (alone H u w₀).step s e = some t) : Clean H w₀ u t := by
  cases hs.outcome h with
  | goesOn ht => exact .inl ht
  | undone ht => exact .inr ht
  | harmed _ hno => exact absurd hok hno

end

/-- In a run of an upload, the upload has changed nothing whenever it has failed, exactly when every step of the run
is undone. -/
theorem changesNothing_iff (H : Host) (u : Upload) (w₀ : PersonaWorld) (es : List AloneEvent)
    (t : PersonaWorld × UploadPc)
    (h : (alone H u w₀).exec anyStep (w₀, .getting none) es = some t) :
    (∀ es₁ s, es₁ <+: es → (alone H u w₀).exec anyStep (w₀, .getting none) es₁ = some s → ChangesNothing w₀ s) ↔
      (alone H u w₀).exec (Undone w₀ u) (w₀, .getting none) es = some t :=
  System.exec_iff_of_exact (I := Clean H w₀ u) (fun _ => Clean.changesNothing) (fun _ _ _ => Clean.exact)
    (fun _ _ _ => Clean.next) (.inl (.getting (.refl w₀) id)) h

/-- A photo with the UUIDs that are drawn for it. -/
def facePhoto : Upload := ⟨⟨.photo, some "image/jpeg", some "face.jpg", [0xff, 0xd8, 0xff, 0xe0]⟩, 7, 8⟩

/-- The photo, up to its temporary file. -/
def uploadToTmp : List AloneEvent :=
  [.select, .resume, .resume, .resume, .closed 7 8 false none, .written 80].map .upload

/-- The theorem at a run: the rename fails, and the temporary file is removed. -/
theorem changesNothing_renameFailed : ∃ t, (alone sampleHost facePhoto samplePersona).exec anyStep
      (samplePersona, .getting none) (uploadToTmp ++ [.upload (.renamed (some ⟨"OSError", ""⟩) true)]) = some t ∧
    t.2.failed = true ∧ ∀ es₁ s, es₁ <+: uploadToTmp ++ [.upload (.renamed (some ⟨"OSError", ""⟩) true)] →
      (alone sampleHost facePhoto samplePersona).exec anyStep (samplePersona, .getting none) es₁ = some s →
        ChangesNothing samplePersona s := by
  have h : ((alone sampleHost facePhoto samplePersona).exec (Undone samplePersona facePhoto)
      (samplePersona, .getting none) (uploadToTmp ++ [.upload (.renamed (some ⟨"OSError", ""⟩) true)])).any
      (fun t => t.2.failed) = true := by
    decide +kernel
  obtain ⟨t, ht, hfailed⟩ := (Option.any_eq_true _ _).mp h
  have hrun := System.exec_anyStep_of_exec ht
  exact ⟨t, hrun, hfailed, (changesNothing_iff _ _ _ _ t hrun).mpr ht⟩

/-- The row cannot be inserted, and the file stays. -/
theorem insertFailed_leaves : ∃ t, (alone sampleHost facePhoto samplePersona).exec anyStep
      (samplePersona, .getting none)
      (uploadToTmp ++ [.upload (.renamed none true), .upload (.fail ⟨"OperationalError", ""⟩ false)]) = some t ∧
    t.2.failed = true ∧ ¬ SameUploads samplePersona t.1 := by
  have h : ((alone sampleHost facePhoto samplePersona).exec anyStep (samplePersona, .getting none)
      (uploadToTmp ++ [.upload (.renamed none true), .upload (.fail ⟨"OperationalError", ""⟩ false)])).any
      (fun t => t.2.failed && t.1.files.content .photo "face.jpg" ≠ samplePersona.files.content .photo "face.jpg") =
        true := by
    decide +kernel
  obtain ⟨t, ht, hleft⟩ := (Option.any_eq_true _ _).mp h
  obtain ⟨hfailed, hne⟩ := (Bool.and_eq_true _ _).mp hleft
  exact ⟨t, ht, hfailed, fun hsame => of_decide_eq_true hne (hsame.content .photo "face.jpg")⟩

end YeounEngine
