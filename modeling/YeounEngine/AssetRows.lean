import YeounEngine.FailedUploads
import Mathlib.Data.List.Perm.Basic

/-!
# The rows of the uploads

The rows of `persona_photo_assets` and `persona_voice_assets` against the files of `photo/` and `voice/`, after any
sequence of successful uploads to a new persona (`Uploads`). There should be one row for each file (`MirrorsFiles`).

A file is stored under its name and a row is appended, whatever is there. So there is a file for each name and a row
for each upload, and the rows mirror the files exactly when no two uploads have the same name (`mirrorsFiles_iff`).
-/

namespace YeounEngine

open Transition

/-! ## The property -/

/-- The `filesystem_path` of the rows of a kind. -/
def PersonaWorld.assetPaths (w : PersonaWorld) : UploadKind → List String
  | .photo => w.photoAssets.map PhotoAsset.filesystemPath
  | .voice => w.voiceAssets.map VoiceAsset.filesystemPath

/-- The names of the files in a folder. -/
def Files.names (fs : Files) (f : Folder) : List String := ((fs.dir f).getD ∅).keys

/-- `str(target)`. -/
def assetPath (H : Host) (id : Uuid) (kind : UploadKind) (name : String) : String :=
  H.folderPath id kind.folder ++ "/" ++ name

/-- The paths of the rows of each kind are those of its files, each listed once. -/
def MirrorsFiles (H : Host) (w : PersonaWorld) : Prop :=
  ∀ kind : UploadKind, (w.assetPaths kind).Perm ((w.files.names kind.folder).map (assetPath H w.id kind))

/-- A persona and the uploads that it has had: each has run to its 200, and in between may happen whatever touches
neither the files nor the rows of the uploads. -/
inductive Uploads (H : Host) : List Upload → PersonaWorld → Prop
  | new {id interviews} : Uploads H [] (.new id interviews)
  | upload {us w u w' result} (h : Uploads H us w)
      (hrun : (alone H u w).Steps anyStep (w, .getting none) (w', .done (.ok result))) : Uploads H (us ++ [u]) w'
  | meanwhile {us w w'} (h : Uploads H us w) (hleft : Untouched w w') : Uploads H us w'

/-- What an upload is stored as. -/
def Upload.key (u : Upload) : UploadKind × String := (u.req.kind, u.name)

/-! ## Rows and files -/

/-- The names of the uploads of a kind, in their order. -/
def namesOf (us : List Upload) (kind : UploadKind) : List String :=
  (us.filter fun u => u.req.kind = kind).map Upload.name

/-- There is a row for each upload, and a file for each name. -/
structure Recorded (H : Host) (us : List Upload) (w : PersonaWorld) : Prop where
  rows : ∀ kind, w.assetPaths kind = (namesOf us kind).map (assetPath H w.id kind)
  files : ∀ (kind : UploadKind) name, name ∈ w.files.names kind.folder ↔ name ∈ namesOf us kind

section
variable {H : Host} {us : List Upload} {u : Upload} {w w' : PersonaWorld} {kind : UploadKind} {name : String}

theorem namesOf_concat : namesOf (us ++ [u]) kind = namesOf us kind ++ if u.req.kind = kind then [u.name] else [] := by
  rw [namesOf, List.filter_append, List.map_append, ← namesOf]
  by_cases hkind : u.req.kind = kind
  · rw [if_pos hkind, List.filter_cons_of_pos (by simpa using hkind)]
    rfl
  · rw [if_neg hkind, List.filter_cons_of_neg (by simpa using hkind)]
    rfl

/-- The rows with one more. -/
theorem assetPaths_insertAsset {id : Uuid} : (insertAsset H w u.req id name).assetPaths kind =
    w.assetPaths kind ++ if u.req.kind = kind then [assetPath H w.id kind name] else [] := by
  unfold insertAsset
  split <;> rename_i hkind <;> cases kind
  all_goals
    rw [hkind]
    first
    | exact List.map_append
    | exact (List.append_nil _).symm

theorem insertAsset_frame {id : Uuid} :
    (insertAsset H w u.req id name).id = w.id ∧ (insertAsset H w u.req id name).files = w.files := by
  unfold insertAsset
  split <;> exact ⟨rfl, rfl⟩

theorem assetPaths_of_rows (hphotos : w'.photoAssets = w.photoAssets) (hvoices : w'.voiceAssets = w.voiceAssets) :
    w'.assetPaths kind = w.assetPaths kind := by
  cases kind with
  | photo => exact congrArg (List.map PhotoAsset.filesystemPath) hphotos
  | voice => exact congrArg (List.map VoiceAsset.filesystemPath) hvoices

/-- What leaves the uploads alone leaves them recorded. -/
theorem Recorded.untouched (h : Recorded H us w) (hleft : Untouched w w') : Recorded H us w' where
  rows kind := by
    rw [assetPaths_of_rows hleft.photoAssets hleft.voiceAssets, hleft.id]
    exact h.rows kind
  files kind name := by
    rw [Files.names, hleft.dir, ← Files.names]
    exact h.files kind name

/-- The files when the upload has been renamed. -/
theorem Holds.mem_names {file : File} (hw : Holds w u ((u.opened w).insert u.name file) w') :
    name ∈ w'.files.names kind.folder ↔ name ∈ w.files.names kind.folder ∨ u.req.kind = kind ∧ name = u.name := by
  by_cases hkind : u.req.kind = kind
  · subst hkind
    have hdir : w'.files.names u.req.kind.folder = ((u.opened w).insert u.name file).keys := by
      rw [Files.names, ← Upload.folder, hw.dir]
      rfl
    rw [hdir, ← AList.mem_keys, AList.mem_insert, AList.mem_keys, or_comm, and_iff_right rfl]
    rfl
  · have hdir : w'.files.dir kind.folder = w.files.dir kind.folder := hw.others _ (Ne.symm hkind)
    rw [Files.names, hdir, ← Files.names, or_iff_left fun h => hkind h.1]

/-- An upload adds its row and its file. -/
theorem Recorded.upload (h : Recorded H us w) {result : UploadResult}
    (hrun : (alone H u w).Steps anyStep (w, .getting none) (w', .done (.ok result))) : Recorded H (us ++ [u]) w' := by
  cases stage_of_steps hrun rfl with
  | @stored w₁ _ file id _ hw hrow =>
    obtain ⟨hid, hfiles⟩ : (insertAsset H w₁ u.req id u.name).id = w₁.id ∧
        (insertAsset H w₁ u.req id u.name).files = w₁.files := insertAsset_frame
    refine Recorded.untouched ⟨fun kind => ?_, fun kind name => ?_⟩ hrow
    · rw [assetPaths_insertAsset, assetPaths_of_rows hw.photoAssets hw.voiceAssets, h.rows, hid, hw.id, namesOf_concat,
        List.map_append]
      split <;> rfl
    · rw [hfiles, hw.mem_names, h.files, namesOf_concat, List.mem_append]
      split <;> rename_i hkind
      · rw [List.mem_singleton, and_iff_right hkind]
      · rw [or_iff_left fun h => hkind h.1, or_iff_left List.not_mem_nil]

theorem Uploads.recorded (h : Uploads H us w) : Recorded H us w := by
  induction h with
  | new =>
    refine ⟨fun kind => ?_, fun kind name => ?_⟩
    · cases kind <;> rfl
    · exact Iff.rfl
  | upload _ hrun ih => exact ih.upload hrun
  | meanwhile _ hleft ih => exact ih.untouched hleft

/-- The pipeline may run between the uploads. -/
theorem Uploads.run {r r' : Run} {ev : RunEvent} (h : Uploads H us w) (hrun : runStep H w r ev = some (w', r')) :
    Uploads H us w' :=
  .meanwhile h (runStep_untouched hrun)

/-! ## Names that are taken once -/

theorem assetPath_injective {id : Uuid} : (assetPath H id kind).Injective :=
  fun _ _ h => (String.append_right_inj _).mp h

/-- The files have one row each when no name has two uploads. -/
theorem Recorded.perm_iff (h : Recorded H us w) :
    (w.assetPaths kind).Perm ((w.files.names kind.folder).map (assetPath H w.id kind)) ↔ (namesOf us kind).Nodup := by
  rw [h.rows, List.map_perm_map_iff assetPath_injective]
  have hfiles : (w.files.names kind.folder).Nodup := AList.keys_nodup _
  constructor
  · intro hperm
    exact hperm.nodup_iff.mpr hfiles
  · intro hnames
    exact (List.perm_ext_iff_of_nodup hnames hfiles).mpr fun name => (h.files kind name).symm

/-- Two uploads of one key are of one kind. -/
theorem nodup_key_iff : (us.map Upload.key).Nodup ↔ ∀ kind, (namesOf us kind).Nodup := by
  have hnames : ∀ kind, (namesOf us kind).Nodup ↔
      us.Pairwise fun a b => a.req.kind = kind → b.req.kind = kind → a.name ≠ b.name := by
    intro kind
    rw [namesOf, List.Nodup, List.pairwise_map, List.pairwise_filter]
    simp only [decide_eq_true_eq]
  simp only [hnames]
  rw [List.Nodup, List.pairwise_map]
  constructor
  · intro hkeys kind
    refine hkeys.imp fun hne ha hb hname => hne ?_
    exact Prod.ext (ha.trans hb.symm) hname
  · intro hkinds
    refine ((hkinds .photo).and (hkinds .voice)).imp fun {a b} h hkey => ?_
    obtain ⟨hkind, hname⟩ := Prod.mk.inj hkey
    cases ha : a.req.kind with
    | photo => exact h.1 ha (hkind.symm.trans ha) hname
    | voice => exact h.2 ha (hkind.symm.trans ha) hname

end

/-- After a sequence of uploads, the rows mirror the files exactly when no two of the uploads are stored under one name
in one folder. -/
theorem mirrorsFiles_iff (H : Host) (us : List Upload) (w : PersonaWorld) (h : Uploads H us w) :
    MirrorsFiles H w ↔ (us.map fun u => (u.req.kind, uploadName u.req.filename u.fresh)).Nodup :=
  (forall_congr' fun _ => h.recorded.perm_iff).trans nodup_key_iff.symm

/-! ## Two uploads -/

/-- The upload has ended with 200. -/
def UploadPc.succeeded : UploadPc → Bool
  | .done (.ok _) => true
  | _ => false

/-- An upload of a short file, from its start to its response. -/
def uploadWhole (u : Upload) : List AloneEvent :=
  [.select, .resume, .resume, .resume, .closed u.fresh u.tmp false none, .written 80, .renamed none true, .apply 9,
    .resume].map .upload

/-- The persona after the upload. -/
def uploaded (u : Upload) (w : PersonaWorld) : PersonaWorld :=
  (((alone sampleHost u w).exec anyStep (w, .getting none) (uploadWhole u)).map Prod.fst).getD w

theorem uploads_uploaded {us : List Upload} {u : Upload} {w : PersonaWorld} (h : Uploads sampleHost us w)
    (hrun : ((alone sampleHost u w).exec anyStep (w, .getting none) (uploadWhole u)).any
      (fun t => t.2.succeeded) = true) :
    Uploads sampleHost (us ++ [u]) (uploaded u w) := by
  obtain ⟨⟨w', pc⟩, ht, hdone⟩ := (Option.any_eq_true _ _).mp hrun
  obtain ⟨result, rfl⟩ : ∃ result, pc = .done (.ok result) := by
    cases pc with
    | done response => cases response with
      | ok result => exact ⟨result, rfl⟩
      | error => cases hdone
    | getting | reading | closing | writing | inserting | cancelled => cases hdone
  rw [uploaded, ht]
  exact .upload h (.of_exec ht)

/-- A voice recording under the name of the photo. -/
def faceVoice : Upload := ⟨⟨.voice, some "audio/wav", some "face.jpg", riff⟩, 5, 6⟩

/-- The theorem at two uploads of one name, in different folders. -/
theorem mirrorsFiles_twoKinds : Uploads sampleHost [facePhoto, faceVoice]
      (uploaded faceVoice (uploaded facePhoto samplePersona)) ∧
    MirrorsFiles sampleHost (uploaded faceVoice (uploaded facePhoto samplePersona)) := by
  have hphoto : Uploads sampleHost [facePhoto] (uploaded facePhoto samplePersona) :=
    uploads_uploaded .new (by decide +kernel)
  have hvoice : Uploads sampleHost [facePhoto, faceVoice] (uploaded faceVoice (uploaded facePhoto samplePersona)) :=
    uploads_uploaded hphoto (by decide +kernel)
  exact ⟨hvoice, (mirrorsFiles_iff _ _ _ hvoice).mpr (by decide +kernel)⟩

/-- The photo once more, with other UUIDs. -/
def facePhotoAgain : Upload := { facePhoto with fresh := 17, tmp := 18 }

/-- A photo that is uploaded twice has one file and two rows. -/
theorem twoRows_of_again : Uploads sampleHost [facePhoto, facePhotoAgain]
      (uploaded facePhotoAgain (uploaded facePhoto samplePersona)) ∧
    ¬ MirrorsFiles sampleHost (uploaded facePhotoAgain (uploaded facePhoto samplePersona)) := by
  have hphoto : Uploads sampleHost [facePhoto] (uploaded facePhoto samplePersona) :=
    uploads_uploaded .new (by decide +kernel)
  have hagain : Uploads sampleHost [facePhoto, facePhotoAgain]
      (uploaded facePhotoAgain (uploaded facePhoto samplePersona)) :=
    uploads_uploaded hphoto (by decide +kernel)
  refine ⟨hagain, fun hmirrors => ?_⟩
  have hnames : (namesOf [facePhoto, facePhotoAgain] .photo).Nodup := hagain.recorded.perm_iff.mp (hmirrors .photo)
  exact absurd hnames (by decide +kernel)

end YeounEngine
