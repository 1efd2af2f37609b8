import YeounEngine.Storage

/-!
# The state of one persona

What the handlers and the background pipeline read and write for a persona: its rows in the
repository (`app/db/repository.py`), its progress entry in `PersonaProcessingStore`, its files,
and the work that a cancelled call has left running (`Orphan`: a child process or a worker thread
is not stopped by cancelling the task that awaits it).

The two branches of the repository, SQL and in-memory, agree on what a successful call does, which is all
that is stated here; that a call fails is an event of the caller. The columns that no
modelled function reads (names, owner, timestamps) are left out.
-/

namespace YeounEngine

/-! ## Rows -/

/-- `personas.status`. -/
inductive Status
  | draft
  | processing
  | ready
  | failed
  deriving DecidableEq, Repr

/-- The text of the column. -/
def Status.str : Status → String
  | .draft => "DRAFT"
  | .processing => "PROCESSING"
  | .ready => "READY"
  | .failed => "FAILED"

/-- A row of `persona_interviews`. -/
structure InterviewAnswer where
  questionNumber : Nat
  answerText : Option String
  deriving DecidableEq, Repr

/-- A row of `persona_photo_assets`. -/
structure PhotoAsset where
  photoAssetId : Uuid
  filesystemPath : String
  deriving DecidableEq, Repr

/-- A row of `persona_voice_assets`. -/
structure VoiceAsset where
  voiceAssetId : Uuid
  originalName : String
  filesystemPath : String
  deriving DecidableEq, Repr

/-- A row of `persona_idle_clips`. -/
structure IdleClip where
  clipId : Uuid
  sequenceOrder : Nat
  filesystemPath : String
  deriving DecidableEq, Repr

/-! ## Progress -/

/-- `ProcessingStep`. -/
inductive ProcessingStep
  | pending
  | selectingVoice
  | transcribing
  | extractingRef
  | renderingIdle
  | ready
  | failed
  deriving DecidableEq, Repr

/-- `_ProcessingState`, the entry of a persona in `PersonaProcessingStore`. -/
structure ProcessingState where
  step : ProcessingStep
  errorReason : Option String
  deriving DecidableEq, Repr

/-- `step not in (ProcessingStep.READY, ProcessingStep.FAILED)`. -/
def ProcessingStep.inProgress (s : ProcessingStep) : Bool := s ≠ .ready && s ≠ .failed

/-! ## Work that outlives its task -/

/-- What is written at one moment: the clock and the content. -/
structure Output where
  now : Nat
  content : Content
  deriving DecidableEq

/-- A child process or worker thread whose task was cancelled; `rmtree` removes a folder, or everything
below the root. -/
inductive Orphan
  | ffmpeg (voice : Picked)
  | idleRender (photo : Picked) (target : String)
  | tmpWrite (sub : Folder) (tmp : String)
  | synthesize (sessionId : Uuid) (target : String)
  | speakRender (photo : Picked) (sessionId : Uuid) (target : String)
  | rmtree (sub : Option Folder)
  deriving DecidableEq

/-- The path that the orphan writes, and the origin of what it writes. -/
def Orphan.writes : Orphan → Option (Folder × String × Origin)
  | .ffmpeg voice => some (.voiceRef, "ref_audio.wav", .trim voice false)
  | .idleRender photo target => some (.idle, target, .render photo false)
  | .tmpWrite sub tmp => some (sub, tmp, .other)
  | .synthesize sid target => some (.speak sid, target, .other)
  | .speakRender photo sid target => some (.speak sid, target, .render photo false)
  | .rmtree _ => none

/-- The folder that the orphan writes to. -/
def Orphan.folder (o : Orphan) : Option Folder := o.writes.map Prod.fst

/-! ## The state -/

/-- Everything the program holds about one persona. -/
structure PersonaWorld where
  id : Uuid
  row : Option Status
  interviews : List InterviewAnswer
  photoAssets : List PhotoAsset
  voiceAssets : List VoiceAsset
  idleClips : List IdleClip
  files : Files
  step : Option ProcessingState
  orphans : List Orphan

namespace PersonaWorld

/-- `PersonaProcessingStore.set_step`, once it has its lock. -/
def setStep (w : PersonaWorld) (step : ProcessingStep) (errorReason : Option String) :
    PersonaWorld :=
  { w with step := some ⟨step, errorReason⟩ }

/-- `update_persona_status`: nothing happens when the row is missing. -/
def updatePersonaStatus (w : PersonaWorld) (status : Status) : PersonaWorld :=
  { w with row := w.row.map fun _ => status }

/-- `delete_persona_tx`: the children, then the row. -/
def deletePersonaTx (w : PersonaWorld) : PersonaWorld :=
  { w with interviews := [], photoAssets := [], voiceAssets := [], idleClips := [], row := none }

/-- `insert_persona_photo_asset`. -/
def insertPersonaPhotoAsset (w : PersonaWorld) (a : PhotoAsset) : PersonaWorld :=
  { w with photoAssets := w.photoAssets ++ [a] }

/-- `insert_persona_voice_asset`. -/
def insertPersonaVoiceAsset (w : PersonaWorld) (a : VoiceAsset) : PersonaWorld :=
  { w with voiceAssets := w.voiceAssets ++ [a] }

/-- `insert_persona_idle_clip`. -/
def insertPersonaIdleClip (w : PersonaWorld) (c : IdleClip) : PersonaWorld :=
  { w with idleClips := w.idleClips ++ [c] }

/-- A change to the files. -/
def onFiles (w : PersonaWorld) (g : Files → Files) : PersonaWorld := { w with files := g w.files }

/-- Work is left running. -/
def leave (w : PersonaWorld) (o : Orphan) : PersonaWorld := { w with orphans := w.orphans ++ [o] }

theorem mem_leave {w : PersonaWorld} {o o' : Orphan} :
    o' ∈ (w.leave o).orphans ↔ o' ∈ w.orphans ∨ o' = o := by
  rw [leave, List.mem_append, List.mem_singleton]

/-- No row of the persona is left. -/
def NoRows (w : PersonaWorld) : Prop :=
  w.row = none ∧ w.interviews = [] ∧ w.photoAssets = [] ∧ w.voiceAssets = [] ∧ w.idleClips = []

@[simp] theorem noRows_deletePersonaTx (w : PersonaWorld) : w.deletePersonaTx.NoRows :=
  ⟨rfl, rfl, rfl, rfl, rfl⟩

end PersonaWorld

/-! ## What orphans do -/

/-- An orphan goes on: it writes its target or the side file of it, a removal keeps only some
files, or it ends. -/
inductive OrphanAct
  | write (side : Bool) (o : Output)
  | remove (keep : Folder → String → Bool)
  | exit

/-- The files that a partial `rmtree` leaves. -/
def Files.keeping (fs : Files) (keep : Folder → String → Bool) : Files :=
  fs.map fun t => ⟨fun f => (t.folder f).map fun d =>
    Files.eraseAll (d.keys.filter fun name => !keep f name) d⟩

theorem Files.dir_keeping {fs : Files} {keep : Folder → String → Bool} {f : Folder} :
    (fs.keeping keep).dir f =
      (fs.dir f).map fun d => Files.eraseAll (d.keys.filter fun name => !keep f name) d := by
  cases fs <;> rfl

/-- Ditto renders into a side file and makes the target from it at the end. -/
def Orphan.side : Orphan → String
  | .idleRender _ _ => ".tmp.mp4"
  | .speakRender _ _ _ => ".tmp.mp4"
  | _ => ""

/-- The TTS creates the folder that it writes to, and so does a render without a GPU; the others need
it. -/
def Orphan.makesFolder : Orphan → Bool
  | .synthesize _ _ | .idleRender _ _ | .speakRender _ _ _ => true
  | _ => false

/-- What an orphan removes files from. -/
def Orphan.removesFrom : Orphan → Folder → Bool
  | .rmtree none, _ => true
  | .rmtree (some sub), f => f = sub
  | _, _ => false

/-- The files when the orphan has removed everything. -/
def Orphan.removed : Orphan → Files → Files
  | .rmtree none, _ => none
  | .rmtree (some sub), fs => fs.rmdir sub
  | _, fs => fs

/-- The step of the orphan at index `k`. -/
def PersonaWorld.orphanStep (w : PersonaWorld) (k : Nat) (act : OrphanAct) :
    Option PersonaWorld :=
  (w.orphans[k]?).bind fun orphan =>
    match act, orphan.writes with
    | .write side o, some (sub, name, origin) =>
      some (w.onFiles fun fs =>
        (if orphan.makesFolder then fs.mkdir sub else fs).write sub (name ++ if side then orphan.side else "")
          ⟨o.now, o.content, origin⟩)
    | .remove keep, none =>
      some (w.onFiles fun fs => fs.keeping fun f name => !orphan.removesFrom f || keep f name)
    | .exit, some _ => some { w with orphans := w.orphans.eraseIdx k }
    | .exit, none =>
      some { w with files := orphan.removed w.files, orphans := w.orphans.eraseIdx k }
    | _, _ => none

/-- What an orphan can do, one constructor for each arm of `orphanStep`. -/
inductive OrphanStep (w : PersonaWorld) (k : Nat) : OrphanAct → PersonaWorld → Prop
  | write {orphan sub name origin side o} (hk : orphan ∈ w.orphans)
      (hw : orphan.writes = some (sub, name, origin)) : OrphanStep w k (.write side o)
        (w.onFiles fun fs => (if orphan.makesFolder then fs.mkdir sub else fs).write sub
          (name ++ if side then orphan.side else "") ⟨o.now, o.content, origin⟩)
  | remove {orphan keep} (hk : orphan ∈ w.orphans) (hw : orphan.writes = none) :
      OrphanStep w k (.remove keep)
        (w.onFiles fun fs => fs.keeping fun f name => !orphan.removesFrom f || keep f name)
  | written {orphan target} (hk : orphan ∈ w.orphans) (hw : orphan.writes = some target) :
      OrphanStep w k .exit { w with orphans := w.orphans.eraseIdx k }
  | removed {orphan} (hk : orphan ∈ w.orphans) (hw : orphan.writes = none) :
      OrphanStep w k .exit { w with files := orphan.removed w.files, orphans := w.orphans.eraseIdx k }

/-- Inversion of left-over work. -/
theorem orphanStep_inv {w w' : PersonaWorld} {k : Nat} {act : OrphanAct}
    (h : w.orphanStep k act = some w') : OrphanStep w k act w' := by
  obtain ⟨orphan, hk, h⟩ := Option.bind_eq_some_iff.mp h
  have hmem := List.mem_of_getElem? hk
  split at h
  case h_1 hw _ => cases h; exact .write hmem hw
  case h_2 hw _ => cases h; exact .remove hmem hw
  case h_3 hw _ => cases h; exact .written hmem hw
  case h_4 hw _ => cases h; exact .removed hmem hw
  case h_5 => cases h

/-- Left-over work starts none. -/
theorem OrphanStep.orphans {w w' : PersonaWorld} {k : Nat} {act : OrphanAct} (h : OrphanStep w k act w') {o : Orphan}
    (ho : o ∈ w'.orphans) : o ∈ w.orphans := by
  cases h with
  | write | remove => exact ho
  | written | removed => exact List.mem_of_mem_eraseIdx ho

/-- Left-over work writes in its folder only. -/
theorem dir_write_of_ne {fs : Files} {f sub : Folder} {name : String} {file : File} {b : Bool}
    (hf : f ≠ sub) : ((if b then fs.mkdir sub else fs).write sub name file).dir f = fs.dir f := by
  refine (Files.dir_modify_of_ne hf).trans ?_
  split
  · exact Files.dir_mkdir_of_ne hf
  · rfl

/-! ## Responses -/

/-- An error response: `HTTPException(status_code, detail={"code": …, "message": …})`. -/
structure HttpError where
  status : Nat
  code : String
  message : String
  deriving DecidableEq, Repr

/-- What the application answers when a handler lets an exception through. -/
def internalError : HttpError := ⟨500, "INTERNAL_ERROR", "서버 내부 오류가 발생했습니다."⟩

/-- `404 NOT_FOUND` of the persona routes and of `/sessions/start`. -/
def personaNotFound (id : Uuid) : HttpError :=
  ⟨404, "NOT_FOUND", "페르소나를 찾을 수 없습니다: " ++ id.str⟩

end YeounEngine
