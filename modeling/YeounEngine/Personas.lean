import YeounEngine.RunPhases
import YeounEngine.Lib.Coop

/-!
# The persona routes

The handlers of `app/routers/personas.py` that change a persona: `upload_photo` and `upload_voice`,
`start_processing` with the background run it schedules, and `delete_persona`. Each is a state
machine with one state for each `await`, like the pipeline. Each reads the row first and decides on what
it has read (`ensureWritable`, `startProcessing`, `deletable`); a read is two states as well, so what it
returns may be out of date when the handler goes on.

`personaSystem` interleaves any number of these requests on one persona, with the work that
cancelled calls have left running and with restarts of the worker.
-/

namespace YeounEngine

/-! ## Uploads -/

inductive UploadKind
  | photo
  | voice
  deriving DecidableEq, Repr

def UploadKind.folder : UploadKind → Folder
  | .photo => .photo
  | .voice => .voice

/-- `_PHOTO_CONTENT_TYPES` and `_VOICE_CONTENT_TYPES`. -/
def UploadKind.contentTypes : UploadKind → List String
  | .photo => ["image/jpeg", "image/png", "image/webp"]
  | .voice => ["audio/wav", "audio/x-wav", "audio/wave", "audio/mpeg", "audio/mp3", "audio/mp4",
      "audio/m4a", "audio/x-m4a", "audio/webm", "audio/ogg"]

/-- `b"RIFF"`. -/
def riff : List UInt8 := [0x52, 0x49, 0x46, 0x46]

/-- `b"ftyp"`. -/
def ftyp : List UInt8 := [0x66, 0x74, 0x79, 0x70]

/-- `_PHOTO_MAGIC_PREFIXES` and `_VOICE_MAGIC_PREFIXES`. -/
def UploadKind.magicPrefixes : UploadKind → List (List UInt8)
  | .photo => [[0xff, 0xd8, 0xff], [0x89, 0x50, 0x4e, 0x47, 0x0d, 0x0a, 0x1a, 0x0a], riff]
  | .voice => [riff, [0x49, 0x44, 0x33], [0xff, 0xfb], [0xff, 0xf3], [0xff, 0xf2],
      [0x1a, 0x45, 0xdf, 0xa3], [0x4f, 0x67, 0x67, 0x53], ftyp]

/-- `_looks_like`. -/
def looksLike (prefixSet : List (List UInt8)) (head : List UInt8) : Bool :=
  prefixSet.any fun magic =>
    (magic = ftyp && 8 ≤ head.length && (head.drop 4).take 4 = ftyp) || magic.isPrefixOf head

/-- The multipart body of an upload. -/
structure UploadRequest where
  kind : UploadKind
  contentType : Option String
  filename : Option String
  body : List UInt8
  deriving DecidableEq, Repr

/-- `UploadResult`. -/
structure UploadResult where
  path : String
  sizeBytes : Nat
  deriving DecidableEq, Repr

/-- `_ensure_writable_persona`, on the row it has read: the error, if any. -/
def ensureWritable (id : Uuid) : Option Status → Option HttpError
  | none => some (personaNotFound id)
  | some .processing =>
    some ⟨409, "CONFLICT", "처리 중 페르소나에는 업로드할 수 없습니다 (status='PROCESSING')."⟩
  | some _ => none

def unsupportedContentType (H : Host) (contentType : Option String) : HttpError :=
  ⟨415, "UNSUPPORTED_MEDIA_TYPE",
    "지원하지 않는 content-type: " ++ contentType.elim "None" H.repr⟩

def badMagic : HttpError :=
  ⟨415, "UNSUPPORTED_MEDIA_TYPE", "파일 매직 바이트가 허용 형식과 일치하지 않습니다."⟩

def tooLarge (H : Host) : HttpError :=
  ⟨413, "PAYLOAD_TOO_LARGE",
    "업로드 크기 한도 " ++ toString H.maxUploadBytes ++ " 바이트를 초과했습니다."⟩

/-- `chunk_size`. -/
def chunkSize : Nat := 1024 * 1024

/-- One turn of the reading loop of `_save_upload`: it goes on with a longer buffer, or it ends with the
whole content or an error. -/
inductive ReadTurn
  | more (buffer rest : List UInt8) (magicChecked : Bool)
  | stop (verdict : Except HttpError (List UInt8))

/-- The turn that reads the next chunk of `rest`. -/
def readTurn (H : Host) (kind : UploadKind) (buffer rest : List UInt8) (magicChecked : Bool) :
    ReadTurn :=
  let chunk := rest.take chunkSize
  if chunk = [] then .stop (.ok buffer)
  else
    let buffer := buffer ++ chunk
    let head := buffer.take 16
    if !magicChecked && 4 ≤ head.length && !looksLike kind.magicPrefixes head then
      .stop (.error badMagic)
    else if H.maxUploadBytes < buffer.length then .stop (.error (tooLarge H))
    else .more buffer (rest.drop chunkSize) (magicChecked || 4 ≤ head.length)

/-- `PurePosixPath(s).name`: the last component that is neither empty nor `.`. -/
def pathName (s : List Char) : List Char :=
  ((s.splitOn '/').filter fun part => part ≠ [] && part ≠ ['.']).getLast?.getD []

/-- The file name that an upload is stored under; `fresh` is the UUID of the replacement. -/
def uploadName (filename : Option String) (fresh : Uuid) : String :=
  let rawName := pathName (filename.getD "").toList
  if rawName = [] ∨ rawName = ['.'] ∨ rawName = ['.', '.'] ∨ '\x00' ∈ rawName ∨ '/' ∈ rawName then
    "upload-" ++ fresh.hex
  else String.ofList rawName

/-- Where an upload is. -/
inductive UploadPc
  | getting (row : Option (Option Status))
  | reading (buffer rest : List UInt8) (magicChecked : Bool)
  | closing (verdict : Except HttpError (List UInt8))
  | writing (name tmp : String) (data : List UInt8) (applied : Bool)
  | inserting (name : String) (size : Nat) (applied : Bool)
  | done (response : Except HttpError UploadResult)
  | cancelled

/-- What happens at an `await` of an upload. -/
inductive UploadEvent
  | select
  | resume
  | closed (fresh tmp : Uuid) (forbidden : Bool) (fault : Option Exc)
  | output (o : Output)
  | written (now : Nat)
  | renamed (fault : Option Exc) (unlinked : Bool)
  | apply (id : Uuid)
  | fail (e : Exc) (unlinked : Bool)
  | cancel

/-- The row of an upload. -/
def insertAsset (H : Host) (w : PersonaWorld) (req : UploadRequest) (id : Uuid) (name : String) :
    PersonaWorld :=
  let path := H.folderPath w.id req.kind.folder ++ "/" ++ name
  match req.kind with
  | .photo => w.insertPersonaPhotoAsset ⟨id, path⟩
  | .voice =>
    let originalName := req.filename.getD ""
    w.insertPersonaVoiceAsset ⟨id, if originalName = "" then name else originalName, path⟩

/-- After the upload has been closed: the target, its folder, and the temporary name. -/
def openTarget (w : PersonaWorld) (req : UploadRequest) (fresh tmp : Uuid) (forbidden : Bool)
    (fault : Option Exc) (data : List UInt8) : PersonaWorld × UploadPc :=
  if forbidden then (w, .done (.error ⟨400, "BAD_REQUEST", "허용되지 않는 파일명입니다."⟩))
  else match fault with
    | some _ => (w, .done (.error internalError))
    | none =>
      let name := uploadName req.filename fresh
      (w.onFiles fun fs => fs.mkdir req.kind.folder,
        .writing name (name ++ ".tmp." ++ tmp.hex) data false)

/-- `tmp.unlink(missing_ok=True)` after a failed write, when it succeeds. -/
def dropTmp (w : PersonaWorld) (sub : Folder) (tmp : String) (unlinked : Bool) : PersonaWorld :=
  if unlinked then w.onFiles fun fs => fs.unlink sub tmp else w

/-- `tmp.replace(target)`. -/
def renameTmp (w : PersonaWorld) (sub : Folder) (tmp name : String) (file : File) : PersonaWorld :=
  w.onFiles fun fs => (fs.unlink sub tmp).write sub name file

/-- One step of `upload_photo` or `upload_voice`. -/
def uploadStep (H : Host) (w : PersonaWorld) (req : UploadRequest) :
    UploadPc → UploadEvent → Option (PersonaWorld × UploadPc)
  | .getting none, .select => some (w, .getting (some w.row))
  | .getting (some row), .resume =>
    match ensureWritable w.id row with
    | some e => some (w, .done (.error e))
    | none =>
      if req.contentType.any fun t => t ∈ req.kind.contentTypes then
        some (w, .reading [] req.body false)
      else some (w, .closing (.error (unsupportedContentType H req.contentType)))
  | .reading buffer rest magicChecked, .resume =>
    match readTurn H req.kind buffer rest magicChecked with
    | .more buffer rest magicChecked => some (w, .reading buffer rest magicChecked)
    | .stop verdict => some (w, .closing verdict)
  | .closing (.error e), .resume => some (w, .done (.error e))
  | .closing (.ok data), .closed fresh tmp forbidden fault =>
    some (openTarget w req fresh tmp forbidden fault data)
  | .writing name tmp data false, .output o =>
    some (w.onFiles fun fs => fs.write req.kind.folder tmp ⟨o.now, o.content, .other⟩,
      .writing name tmp data false)
  | .writing name tmp data false, .written now =>
    if (w.files.dir req.kind.folder).isSome then
      some (w.onFiles fun fs => fs.write req.kind.folder tmp ⟨now, .bytes data, .other⟩,
        .writing name tmp data true)
    else none
  | .writing name tmp data true, .renamed fault unlinked =>
    match fault, w.files.get req.kind.folder tmp with
    | none, some file =>
      some (renameTmp w req.kind.folder tmp name file, .inserting name data.length false)
    | _, _ => some (dropTmp w req.kind.folder tmp unlinked, .done (.error internalError))
  | .inserting name size false, .apply id =>
    some (insertAsset H w req id name, .inserting name size true)
  | .inserting name size true, .resume =>
    some (w, .done (.ok ⟨w.id.str ++ "/" ++ req.kind.folder.path ++ "/" ++ name, size⟩))
  -- `except Exception` around the write removes the temporary file, a cancellation leaves it
  | .writing _ tmp _ _, .fail _ unlinked =>
    some (dropTmp w req.kind.folder tmp unlinked, .done (.error internalError))
  | .getting _, .fail _ _ | .reading _ _ _, .fail _ _ | .closing _, .fail _ _
  | .inserting _ _ _, .fail _ _ => some (w, .done (.error internalError))
  | .writing _ tmp _ false, .cancel => some (w.leave (.tmpWrite req.kind.folder tmp), .cancelled)
  | .getting _, .cancel | .reading _ _ _, .cancel | .closing _, .cancel | .writing _ _ _ true, .cancel
  | .inserting _ _ _, .cancel => some (w, .cancelled)
  | _, _ => none

/-- What an upload can do, one constructor for each arm of `uploadStep`. -/
inductive UploadStep (H : Host) (w : PersonaWorld) (req : UploadRequest) :
    UploadPc → UploadEvent → PersonaWorld × UploadPc → Prop
  | select : UploadStep H w req (.getting none) .select (w, .getting (some w.row))
  | refused {row e} (hg : ensureWritable w.id row = some e) :
      UploadStep H w req (.getting (some row)) .resume (w, .done (.error e))
  | accepted {row} (hg : ensureWritable w.id row = none) :
      UploadStep H w req (.getting (some row)) .resume (w, .reading [] req.body false)
  | unsupported {row} (hg : ensureWritable w.id row = none) :
      UploadStep H w req (.getting (some row)) .resume
        (w, .closing (.error (unsupportedContentType H req.contentType)))
  | more {buffer rest checked buffer' rest' checked'}
      (hr : readTurn H req.kind buffer rest checked = .more buffer' rest' checked') :
      UploadStep H w req (.reading buffer rest checked) .resume (w, .reading buffer' rest' checked')
  | stop {buffer rest checked verdict}
      (hr : readTurn H req.kind buffer rest checked = .stop verdict) :
      UploadStep H w req (.reading buffer rest checked) .resume (w, .closing verdict)
  | closedError {e} : UploadStep H w req (.closing (.error e)) .resume (w, .done (.error e))
  | nameRefused {data fresh tmp fault} :
      UploadStep H w req (.closing (.ok data)) (.closed fresh tmp true fault)
        (w, .done (.error ⟨400, "BAD_REQUEST", "허용되지 않는 파일명입니다."⟩))
  | mkdirFailed {data fresh tmp e} :
      UploadStep H w req (.closing (.ok data)) (.closed fresh tmp false (some e))
        (w, .done (.error internalError))
  | opened {data} {fresh tmp : Uuid} :
      UploadStep H w req (.closing (.ok data)) (.closed fresh tmp false none)
        (w.onFiles fun fs => fs.mkdir req.kind.folder, .writing (uploadName req.filename fresh)
          (uploadName req.filename fresh ++ ".tmp." ++ tmp.hex) data false)
  | output {name tmp data} {o : Output} : UploadStep H w req (.writing name tmp data false) (.output o)
      (w.onFiles fun fs => fs.write req.kind.folder tmp ⟨o.now, o.content, .other⟩,
        .writing name tmp data false)
  | written {name tmp data now} (hd : (w.files.dir req.kind.folder).isSome = true) :
      UploadStep H w req (.writing name tmp data false) (.written now)
        (w.onFiles fun fs => fs.write req.kind.folder tmp ⟨now, .bytes data, .other⟩,
          .writing name tmp data true)
  | renamed {name tmp data unlinked file} (hf : w.files.get req.kind.folder tmp = some file) :
      UploadStep H w req (.writing name tmp data true) (.renamed none unlinked)
        (renameTmp w req.kind.folder tmp name file, .inserting name data.length false)
  | renameFailed {name tmp data fault unlinked} :
      UploadStep H w req (.writing name tmp data true) (.renamed fault unlinked)
        (dropTmp w req.kind.folder tmp unlinked, .done (.error internalError))
  | insert {name size id} : UploadStep H w req (.inserting name size false) (.apply id)
      (insertAsset H w req id name, .inserting name size true)
  | inserted {name size} : UploadStep H w req (.inserting name size true) .resume
      (w, .done (.ok ⟨w.id.str ++ "/" ++ req.kind.folder.path ++ "/" ++ name, size⟩))
  | writeFailed {name tmp data applied e unlinked} :
      UploadStep H w req (.writing name tmp data applied) (.fail e unlinked)
        (dropTmp w req.kind.folder tmp unlinked, .done (.error internalError))
  | getFailed {row e unlinked} :
      UploadStep H w req (.getting row) (.fail e unlinked) (w, .done (.error internalError))
  | readFailed {buffer rest checked e unlinked} : UploadStep H w req (.reading buffer rest checked)
      (.fail e unlinked) (w, .done (.error internalError))
  | closeFailed {verdict e unlinked} :
      UploadStep H w req (.closing verdict) (.fail e unlinked) (w, .done (.error internalError))
  | insertFailed {name size applied e unlinked} : UploadStep H w req (.inserting name size applied)
      (.fail e unlinked) (w, .done (.error internalError))
  | cancelWriting {name tmp data} : UploadStep H w req (.writing name tmp data false) .cancel
      (w.leave (.tmpWrite req.kind.folder tmp), .cancelled)
  | cancelGetting {row} : UploadStep H w req (.getting row) .cancel (w, .cancelled)
  | cancelReading {buffer rest checked} :
      UploadStep H w req (.reading buffer rest checked) .cancel (w, .cancelled)
  | cancelClosing {verdict} : UploadStep H w req (.closing verdict) .cancel (w, .cancelled)
  | cancelWritten {name tmp data} :
      UploadStep H w req (.writing name tmp data true) .cancel (w, .cancelled)
  | cancelInserting {name size applied} :
      UploadStep H w req (.inserting name size applied) .cancel (w, .cancelled)

/-- Inversion of an upload. -/
theorem uploadStep_inv {H : Host} {w : PersonaWorld} {req : UploadRequest} {pc : UploadPc}
    {ev : UploadEvent} {out : PersonaWorld × UploadPc} (h : uploadStep H w req pc ev = some out) :
    UploadStep H w req pc ev out := by
  unfold uploadStep at h
  split at h
  all_goals first
    | (cases h; done)
    | (cases h; constructor)
    | skip
  case h_2 =>
    split at h
    · rename_i hg; cases h; exact .refused hg
    · rename_i hg
      split at h <;> cases h
      · exact .accepted hg
      · exact .unsupported hg
  case h_3 =>
    split at h <;> rename_i hr <;> cases h
    · exact .more hr
    · exact .stop hr
  case h_5 =>
    unfold openTarget at h
    split at h
    · rename_i hforbidden; cases hforbidden; cases h; exact .nameRefused
    · rename_i hforbidden
      rw [Bool.not_eq_true] at hforbidden
      subst hforbidden
      split at h <;> cases h
      · exact .mkdirFailed
      · exact .opened
  case h_7 =>
    split at h <;> cases h
    rename_i hd
    exact .written hd
  case h_8 =>
    split at h <;> cases h
    · rename_i hf; exact .renamed hf
    · exact .renameFailed

/-! ## Processing -/

/-- The guard of `start_processing`, on the row it has read and the step that is shown: the error, or
none when the run is scheduled. -/
def startProcessing (id : Uuid) (row : Option Status) (step : Option ProcessingState) :
    Option HttpError :=
  match row with
  | none => some (personaNotFound id)
  | some status =>
    let inProgress := step.any fun s => s.step.inProgress
    if inProgress ∨ status = .processing ∨ status = .ready then
      some ⟨409, "CONFLICT",
        "이미 처리 중이거나 완료된 페르소나입니다 (status=" ++ status.str ++ ")."⟩
    else none

/-- Where a `/process` request is; once it has been accepted, where its run is. -/
inductive ProcessPc
  | getting (row : Option (Option Status))
  | rejected (e : HttpError)
  | cancelled
  | accepted (r : Run)

inductive ProcessEvent
  | select
  | resume
  | fail (e : Exc)
  | cancel
  | run (e : RunEvent)

/-- One step of `start_processing`, or of the run that it has scheduled. -/
def processStep (H : Host) (w : PersonaWorld) :
    ProcessPc → ProcessEvent → Option (PersonaWorld × ProcessPc)
  | .getting none, .select => some (w, .getting (some w.row))
  | .getting (some row), .resume =>
    match startProcessing w.id row w.step with
    | some e => some (w, .rejected e)
    | none => some (w, .accepted Run.new)
  | .getting _, .fail _ => some (w, .rejected internalError)
  | .getting _, .cancel => some (w, .cancelled)
  | .accepted r, .run e => (runStep H w r e).map fun out => (out.1, .accepted out.2)
  | _, _ => none

/-- What a `/process` can do, one constructor for each arm of `processStep`. -/
inductive ProcessStep (H : Host) (w : PersonaWorld) :
    ProcessPc → ProcessEvent → PersonaWorld × ProcessPc → Prop
  | select : ProcessStep H w (.getting none) .select (w, .getting (some w.row))
  | refused {row e} (hg : startProcessing w.id row w.step = some e) :
      ProcessStep H w (.getting (some row)) .resume (w, .rejected e)
  | accepted {row} (hg : startProcessing w.id row w.step = none) :
      ProcessStep H w (.getting (some row)) .resume (w, .accepted Run.new)
  | failed {row e} : ProcessStep H w (.getting row) (.fail e) (w, .rejected internalError)
  | cancelled {row} : ProcessStep H w (.getting row) .cancel (w, .cancelled)
  | run {r e w' r'} (hr : runStep H w r e = some (w', r')) :
      ProcessStep H w (.accepted r) (.run e) (w', .accepted r')

/-- Inversion of a `/process`. -/
theorem processStep_inv {H : Host} {w : PersonaWorld} {pc : ProcessPc} {ev : ProcessEvent}
    {out : PersonaWorld × ProcessPc} (h : processStep H w pc ev = some out) :
    ProcessStep H w pc ev out := by
  unfold processStep at h
  split at h
  all_goals first
    | (cases h; done)
    | (cases h; constructor)
    | skip
  · split at h <;> rename_i hg <;> cases h
    · exact .refused hg
    · exact .accepted hg
  · obtain ⟨⟨w', r'⟩, hr, rfl⟩ := Option.map_eq_some_iff.mp h
    exact .run hr

/-! ## Deletion -/

/-- The guard of `delete_persona`, on the row it has read: the error, if any. -/
def deletable (id : Uuid) : Option Status → Option HttpError
  | none => some (personaNotFound id)
  | some .processing =>
    some ⟨409, "CONFLICT", "처리 중 페르소나는 삭제할 수 없습니다 (status='PROCESSING')."⟩
  | some _ => none

/-- The response when the files could not be removed. -/
def fsDeleteFailed (e : Exc) : HttpError :=
  ⟨500, "FS_DELETE_FAILED", if e.typeName = "PermissionError" then "내부 경로 검증 실패."
    else "파일 정리 실패: " ++ e.typeName⟩

/-- The response when the rows could not be removed. -/
def dbDeleteFailed (e : Exc) : HttpError :=
  ⟨500, "DB_DELETE_FAILED", "DB 삭제 실패 — 파일은 정리됐으나 DB 행이 남아 있습니다. " ++
    "운영자가 수동 정리해야 합니다 (" ++ e.typeName ++ ")."⟩

/-- Where a deletion is. -/
inductive DeletePc
  | getting (row : Option (Option Status))
  | rmtree (applied : Bool)
  | deletingRows (applied : Bool)
  | done (response : Except HttpError Unit)
  | cancelled

inductive DeleteEvent
  | select
  | resume
  | remove (keep : Folder → String → Bool)
  | apply
  | fail (e : Exc)
  | cancel

/-- One step of `delete_persona`. -/
def deleteStep (w : PersonaWorld) : DeletePc → DeleteEvent → Option (PersonaWorld × DeletePc)
  | .getting none, .select => some (w, .getting (some w.row))
  | .getting (some row), .resume =>
    match deletable w.id row with
    | some e => some (w, .done (.error e))
    -- `safe_rmtree` returns at once when there is no tree
    | none => some (w, if w.files.isSome then .rmtree false else .deletingRows false)
  | .rmtree false, .remove keep => some (w.onFiles fun fs => fs.keeping keep, .rmtree false)
  | .rmtree false, .apply => some ({ w with files := none }, .rmtree true)
  | .rmtree true, .resume => some (w, .deletingRows false)
  | .deletingRows false, .apply => some (w.deletePersonaTx, .deletingRows true)
  | .deletingRows true, .resume => some (w, .done (.ok ()))
  | .getting _, .fail _ => some (w, .done (.error internalError))
  | .rmtree _, .fail e => some (w, .done (.error (fsDeleteFailed e)))
  | .deletingRows _, .fail e => some (w, .done (.error (dbDeleteFailed e)))
  | .rmtree false, .cancel => some (w.leave (.rmtree none), .cancelled)
  | .getting _, .cancel | .rmtree true, .cancel | .deletingRows _, .cancel => some (w, .cancelled)
  | _, _ => none

/-- What a deletion can do, one constructor for each arm of `deleteStep`. -/
inductive DeleteStep (w : PersonaWorld) : DeletePc → DeleteEvent → PersonaWorld × DeletePc → Prop
  | select : DeleteStep w (.getting none) .select (w, .getting (some w.row))
  | refused {row e} (hg : deletable w.id row = some e) :
      DeleteStep w (.getting (some row)) .resume (w, .done (.error e))
  | passed {row} (hg : deletable w.id row = none) (hf : w.files.isSome = true) :
      DeleteStep w (.getting (some row)) .resume (w, .rmtree false)
  | passedEmpty {row} (hg : deletable w.id row = none) (hf : w.files = none) :
      DeleteStep w (.getting (some row)) .resume (w, .deletingRows false)
  | remove {keep} : DeleteStep w (.rmtree false) (.remove keep)
      (w.onFiles fun fs => fs.keeping keep, .rmtree false)
  | removeAll : DeleteStep w (.rmtree false) .apply ({ w with files := none }, .rmtree true)
  | removed : DeleteStep w (.rmtree true) .resume (w, .deletingRows false)
  | deleteRows : DeleteStep w (.deletingRows false) .apply (w.deletePersonaTx, .deletingRows true)
  | deleted : DeleteStep w (.deletingRows true) .resume (w, .done (.ok ()))
  | getFailed {row e} : DeleteStep w (.getting row) (.fail e) (w, .done (.error internalError))
  | removeFailed {applied e} :
      DeleteStep w (.rmtree applied) (.fail e) (w, .done (.error (fsDeleteFailed e)))
  | deleteFailed {applied e} :
      DeleteStep w (.deletingRows applied) (.fail e) (w, .done (.error (dbDeleteFailed e)))
  | cancelRemoving : DeleteStep w (.rmtree false) .cancel (w.leave (.rmtree none), .cancelled)
  | cancelGetting {row} : DeleteStep w (.getting row) .cancel (w, .cancelled)
  | cancelRemoved : DeleteStep w (.rmtree true) .cancel (w, .cancelled)
  | cancelDeleting {applied} : DeleteStep w (.deletingRows applied) .cancel (w, .cancelled)

/-- Inversion of a deletion. -/
theorem deleteStep_inv {w : PersonaWorld} {pc : DeletePc} {ev : DeleteEvent}
    {out : PersonaWorld × DeletePc} (h : deleteStep w pc ev = some out) : DeleteStep w pc ev out := by
  unfold deleteStep at h
  split at h
  all_goals first
    | (cases h; done)
    | (cases h; constructor)
    | skip
  split at h
  · rename_i hg; cases h; exact .refused hg
  · rename_i hg
    cases hf : w.files with
    | none =>
      rw [hf] at h
      cases h
      exact .passedEmpty hg hf
    | some tree =>
      rw [hf] at h
      cases h
      exact .passed hg (by rw [hf]; rfl)

/-! ## The requests on one persona -/

/-- A request. -/
inductive PersonaTask
  | upload (req : UploadRequest) (pc : UploadPc)
  | process (pc : ProcessPc)
  | delete (pc : DeletePc)

inductive PersonaEvent
  | upload (e : UploadEvent)
  | process (e : ProcessEvent)
  | delete (e : DeleteEvent)

/-- What happens to the persona besides its requests: the worker restarts, or left-over work goes
on. -/
inductive PersonaEnv
  | restart
  | orphan (k : Nat) (act : OrphanAct)

/-- A request as it arrives. -/
def PersonaTask.arriving : PersonaTask → Bool
  | .upload _ (.getting none) | .process (.getting none) | .delete (.getting none) => true
  | _ => false

/-- One step of a request. -/
def personaStep (H : Host) (w : PersonaWorld) :
    PersonaTask → PersonaEvent → Option (PersonaWorld × PersonaTask)
  | .upload req pc, .upload e => (uploadStep H w req pc e).map fun out => (out.1, .upload req out.2)
  | .process pc, .process e => (processStep H w pc e).map fun out => (out.1, .process out.2)
  | .delete pc, .delete e => (deleteStep w pc e).map fun out => (out.1, .delete out.2)
  | _, _ => none

/-- What a request can do: a step of its handler, or of the run that it has scheduled. -/
inductive PersonaStep (H : Host) (w : PersonaWorld) :
    PersonaTask → PersonaEvent → PersonaWorld × PersonaTask → Prop
  | upload {req pc ev w' pc'} (hs : UploadStep H w req pc ev (w', pc')) :
      PersonaStep H w (.upload req pc) (.upload ev) (w', .upload req pc')
  | process {pc ev w' pc'} (hs : ProcessStep H w pc ev (w', pc')) :
      PersonaStep H w (.process pc) (.process ev) (w', .process pc')
  | delete {pc ev w' pc'} (hs : DeleteStep w pc ev (w', pc')) :
      PersonaStep H w (.delete pc) (.delete ev) (w', .delete pc')

/-- Inversion of a request. -/
theorem personaStep_inv {H : Host} {w : PersonaWorld} {t : PersonaTask} {e : PersonaEvent}
    {out : PersonaWorld × PersonaTask} (h : personaStep H w t e = some out) :
    PersonaStep H w t e out := by
  unfold personaStep at h
  split at h
  · obtain ⟨⟨w', pc'⟩, hs, rfl⟩ := Option.map_eq_some_iff.mp h
    exact .upload (uploadStep_inv hs)
  · obtain ⟨⟨w', pc'⟩, hs, rfl⟩ := Option.map_eq_some_iff.mp h
    exact .process (processStep_inv hs)
  · obtain ⟨⟨w', pc'⟩, hs, rfl⟩ := Option.map_eq_some_iff.mp h
    exact .delete (deleteStep_inv hs)
  · cases h

/-- A restart empties `PersonaProcessingStore` and ends every process of the worker; rows and files
stay. -/
def PersonaWorld.restart (w : PersonaWorld) : PersonaWorld := { w with step := none, orphans := [] }

def personaEnv (w : PersonaWorld) : PersonaEnv → Option PersonaWorld
  | .restart => some w.restart
  | .orphan k act => w.orphanStep k act

/-- A restart ends what has not ended. -/
def PersonaTask.kill : PersonaTask → PersonaTask
  | .upload req (.done response) => .upload req (.done response)
  | .upload req _ => .upload req .cancelled
  | .process (.rejected e) => .process (.rejected e)
  | .process (.accepted r) => .process (.accepted (if r.pc.ended then r else r.goto .killed))
  | .process _ => .process .cancelled
  | .delete (.done response) => .delete (.done response)
  | .delete _ => .delete .cancelled

def personaOnTask : PersonaEnv → PersonaTask → PersonaTask
  | .restart, t => t.kill
  | .orphan _ _, t => t

/-- Left-over work is not about the requests. -/
theorem map_onTask_orphan {k : Nat} {act : OrphanAct} (ts : List PersonaTask) :
    ts.map (personaOnTask (.orphan k act)) = ts :=
  List.map_id ts

/-- The requests on one persona. -/
def personaCoop (H : Host) : Coop PersonaWorld PersonaTask PersonaEvent PersonaEnv where
  arrives := PersonaTask.arriving
  step w _ t e := personaStep H w t e
  env := personaEnv
  onTask := personaOnTask

/-- Any interleaving of the requests on one persona. -/
def personaSystem (H : Host) (init : PersonaWorld → Prop) :
    Transition.System (Pool PersonaWorld PersonaTask) (Event PersonaTask PersonaEvent PersonaEnv) :=
  (personaCoop H).system init

/-- A persona as it is created: `status='DRAFT'`, the interviews, no file. -/
def PersonaWorld.new (id : Uuid) (interviews : List InterviewAnswer) : PersonaWorld where
  id := id
  row := some .draft
  interviews := interviews
  photoAssets := []
  voiceAssets := []
  idleClips := []
  files := none
  step := none
  orphans := []

/-- The host of the concrete runs: every file that begins as a wav is one of three seconds. -/
def sampleHost : Host where
  unicode := asciiCase
  personaDir := "/var/persona"
  maxUploadBytes := 50 * 1024 * 1024
  wave
    | .bytes b =>
      if riff.isPrefixOf b then .frames 48000 16000 else .error ⟨"Error", "file does not start with RIFF id"⟩
    | .text _ => .error ⟨"Error", "file does not start with RIFF id"⟩
  formatSeconds n r := toString (n / r) ++ ".00"
  repr s := "'" ++ s ++ "'"
  decodeError _ := "'utf-8' codec can't decode bytes"

/-- The persona of the concrete runs. -/
def samplePersona : PersonaWorld := .new 1 [⟨1, some "바다"⟩]

/-! ## What a step does to status and step -/

/-- The run of a request that has been accepted. -/
def PersonaTask.run : PersonaTask → Option Run
  | .process (.accepted r) => some r
  | _ => none

theorem PersonaTask.run_eq_some {t : PersonaTask} {r : Run} (h : t.run = some r) :
    t = .process (.accepted r) := by
  unfold PersonaTask.run at h
  split at h
  · cases h; rfl
  · cases h

/-- The step in which `start_processing` accepts. -/
def accepts (w : PersonaWorld) : PersonaTask → PersonaEvent → Bool
  | .process (.getting (some row)), .process .resume => (startProcessing w.id row w.step).isNone
  | _, _ => false

section
variable {H : Host} {w w' : PersonaWorld} {t t' : PersonaTask} {e : PersonaEvent}

/-- An upload leaves status and step alone, and at most its temporary file being written. -/
theorem UploadStep.keeps {req : UploadRequest} {pc : UploadPc} {ev : UploadEvent}
    {out : PersonaWorld × UploadPc} (h : UploadStep H w req pc ev out) :
    out.1.row = w.row ∧ out.1.step = w.step ∧
      ∀ o ∈ out.1.orphans, o ∈ w.orphans ∨ ∃ tmp, o = .tmpWrite req.kind.folder tmp := by
  cases h with
  | renameFailed | writeFailed =>
    rw [dropTmp]
    split <;> exact ⟨rfl, rfl, fun o ho => .inl ho⟩
  | insert =>
    rw [insertAsset]
    split <;> exact ⟨rfl, rfl, fun o ho => .inl ho⟩
  | cancelWriting =>
    refine ⟨rfl, rfl, fun o ho => ?_⟩
    rcases PersonaWorld.mem_leave.mp ho with ho | ho
    · exact .inl ho
    · exact .inr ⟨_, ho⟩
  | _ => exact ⟨rfl, rfl, fun o ho => .inl ho⟩

/-- A deletion leaves the step alone, and the status too unless it removes the row. -/
theorem DeleteStep.keeps {pc : DeletePc} {ev : DeleteEvent} {out : PersonaWorld × DeletePc}
    (h : DeleteStep w pc ev out) : (out.1.row = w.row ∨ out.1.row = none) ∧ out.1.step = w.step := by
  cases h with
  | deleteRows => exact ⟨.inr rfl, rfl⟩
  | _ => exact ⟨.inl rfl, rfl⟩

/-- Left-over work leaves status and step alone. -/
theorem OrphanStep.keeps {k : Nat} {act : OrphanAct} (h : OrphanStep w k act w') :
    w'.row = w.row ∧ w'.step = w.step := by
  cases h <;> exact ⟨rfl, rfl⟩

/-- The step of a run is a step of the pipeline. -/
theorem runStep_of_personaStep {r r' : Run} {ev : RunEvent}
    (h : personaStep H w (.process (.accepted r)) (.process (.run ev)) =
      some (w', .process (.accepted r'))) : runStep H w r ev = some (w', r') := by
  cases personaStep_inv h with
  | process hs => cases hs with
    | run hr => exact hr

/-- What a request does to status and step: a run goes through its phases, an acceptance schedules
a new run, and nothing else touches them, but for the removal of the row. -/
theorem personaStep_cases (h : personaStep H w t e = some (w', t')) :
    (∃ r r' ev, t.run = some r ∧ t'.run = some r' ∧ e = .process (.run ev) ∧
      PhaseStep ev.interrupts w.row w.shown r.pc.phase w'.row w'.shown r'.pc.phase) ∨
    (accepts w t e = true ∧ t.run = none ∧ t'.run = some Run.new ∧ w' = w) ∨
    (t.run = none ∧ t'.run = none ∧ (w'.row = w.row ∨ w'.row = none) ∧ w'.step = w.step) := by
  cases personaStep_inv h with
  | upload hs =>
    obtain ⟨hrow, hstep, -⟩ := hs.keeps
    exact .inr (.inr ⟨rfl, rfl, .inl hrow, hstep⟩)
  | process hs =>
    cases hs with
    | run hr => exact .inl ⟨_, _, _, rfl, rfl, rfl, runStep_phase hr⟩
    | accepted hg => exact .inr (.inl ⟨by rw [accepts, hg]; rfl, rfl, rfl, rfl⟩)
    | select | refused | failed | cancelled => exact .inr (.inr ⟨rfl, rfl, .inl rfl, rfl⟩)
  | delete hs => exact .inr (.inr ⟨rfl, rfl, hs.keeps⟩)

end

end YeounEngine
