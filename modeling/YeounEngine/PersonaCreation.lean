import YeounEngine.Repository

/-!
# The creation pipeline

`process_persona` of `app/pipeline/persona_creation.py` as a state machine. `RunPc` has one state
for each `await` of the function and its helpers; a step of the machine is the code from one
`await` to the next. An `await` of the repository is two states: before its statement takes effect and
after, so that it may be cancelled or fail in either.

* `runBody` is the success path of the `try` body, with the faults of the synchronous code between two
  awaits (`RunEvent` says which call raises);
* `failStep` is an `await` that raises, `cancelStep` one that is cancelled; both lead into the two
  handlers.

Nothing is assumed of ffmpeg, the models and Ditto but where they write: what they write, how they end,
and the clock are part of the events.
-/

namespace YeounEngine

/-! ## Parameters -/

/-- What `wave.open` and the two getters make of a file: the frame count and rate, an error that the
caller catches (`wave.Error`, `OSError`), or one that it does not (`EOFError`). -/
inductive WaveOutcome
  | frames (nframes rate : Nat)
  | error (e : Exc)
  | eof (e : Exc)
  deriving DecidableEq

/-- The interpreter, its libraries and the settings: what the program reads and never changes.
`formatSeconds n r` is `f"{n / r:.2f}"`, `repr` is Python's, of a string, and `decodeError` the text of a
`UnicodeDecodeError`. -/
structure Host where
  unicode : CaseTable
  personaDir : String
  maxUploadBytes : Nat
  wave : Content → WaveOutcome
  formatSeconds : Nat → Nat → String
  repr : String → String
  decodeError : List UInt8 → String

/-- The name of a folder, `sub` of `{persona_dir}/{id}/{sub}`. -/
def Folder.path : Folder → String
  | .photo => "photo"
  | .voice => "voice"
  | .voiceRef => "voice_ref"
  | .idle => "idle"
  | .speak sid => "speak/" ++ sid.str

/-- `_persona_root(persona_dir, persona_id) / sub`, as text. -/
def Host.folderPath (H : Host) (id : Uuid) (sub : Folder) : String :=
  H.personaDir ++ "/" ++ id.str ++ "/" ++ sub.path

/-- `open(path, encoding="utf-8")` reads every line end as `\n`. -/
def universalNewlines : List Char → List Char
  | '\r' :: '\n' :: rest => '\n' :: universalNewlines rest
  | '\r' :: rest => '\n' :: universalNewlines rest
  | c :: rest => c :: universalNewlines rest
  | [] => []

/-- `path.read_text(encoding="utf-8")`. -/
def readText (H : Host) : Content → Except Exc String
  | .text s => .ok (String.ofList (universalNewlines s.toList))
  | .bytes b =>
    match String.fromUTF8? ⟨b.toArray⟩ with
    | some s => .ok (String.ofList (universalNewlines s.toList))
    | none => .error ⟨"UnicodeDecodeError", H.decodeError b⟩

/-! ## States and events -/

/-- Where a run is. `applied` is whether the statement it awaits has taken effect. -/
inductive RunPc
  | scheduled
  | setPending
  | updProcessing (applied : Bool)
  | setSelecting
  | setExtracting
  | spawning
  | ffmpeg (rc : Option Int)
  | setTranscribing
  | waitingGpu
  | transcribing (audio : Option Content)
  | setRendering
  | waitingDitto (i : Nat)
  | rendering (i : Nat)
  | inserting (i : Nat) (applied : Bool)
  | setReady
  | updReady (applied : Bool)
  | cancelSet
  | cancelUpd (applied : Bool)
  | failSet (reason : String)
  | failUpd (applied : Bool)
  | returned
  | cancelled
  | raised (e : Exc)
  | killed
  deriving DecidableEq

/-- A run: where it is, and its locals `voice_path` and `photo_path`. -/
structure Run where
  pc : RunPc
  voice : Option Picked
  photo : Option Picked
  deriving DecidableEq

/-- A run that has been accepted. -/
def Run.new : Run := ⟨.scheduled, none, none⟩

def Run.goto (r : Run) (pc : RunPc) : Run := { r with pc := pc }

/-- The run is over. -/
def RunPc.ended : RunPc → Bool
  | .returned | .cancelled | .raised _ | .killed => true
  | _ => false

/-- The synchronous code after ffmpeg has ended: its error output, whether the rejected output
could be removed, and which calls raised. -/
structure AfterTrim where
  stderr : String
  unlinked : Bool
  globFault : Option Exc
  strayUnlinked : String → Bool
  refTextFault : Option Exc

/-- The synchronous code after the transcription: when it writes, and the call that raised, with the part
of `ref_text.txt.tmp` that is left. -/
structure AfterTranscribe where
  now : Nat
  fault : Option (Exc × Option String)

/-- What happens at an `await` of a run. -/
inductive RunEvent
  | start
  | lock (fault : Option Exc)
  | apply (id : Uuid)
  | resume
  | spawned
  | output (side : Bool) (o : Output)
  | exit (rc : Int)
  | communicated (a : AfterTrim)
  | acquire
  | transcribed (text : String) (a : AfterTranscribe)
  | rendered (o : Output) (fault : Option Exc)
  | renderFailed (e : Exc) (started : Bool) (unlinked : String → Bool)
  | fail (e : Exc)
  | cancel (started : Bool) (unlinked : String → Bool)

/-- An `await` that raises or is cancelled. -/
def RunEvent.interrupts : RunEvent → Bool
  | .fail _ | .cancel _ _ => true
  | _ => false

/-! ## Failure -/

/-- `FaceDetectionError` shows its message alone, any other exception its class too; both are cut at
500 characters. -/
def failReason (e : Exc) : String :=
  if e.typeName = "FaceDetectionError" then cut 500 e.message else cut 500 e.reason

/-- Into the handler of `Exception`. -/
def Run.failed (r : Run) (e : Exc) : Run := r.goto (.failSet (failReason e))

/-- A synchronous segment that raises, or goes on. -/
def orFail {W : Type} (w : W) (r : Run) (fault : Option Exc) (k : W × Run) : W × Run :=
  match fault with
  | some e => (w, r.failed e)
  | none => k

/-! ## The helpers, between two awaits -/

/-- `_pick_photo_file` and `_pick_voice_file`. -/
def pickFile (H : Host) (w : PersonaWorld) (sub : Folder) : Except Exc Picked :=
  match w.files.dir sub with
  | none => .error ⟨"FileNotFoundError", sub.path ++ " 디렉토리 없음: " ++ H.folderPath w.id sub⟩
  | some d =>
    match newest d with
    | none =>
      .error ⟨"FileNotFoundError", sub.path ++ " 디렉토리 비어 있음: " ++ H.folderPath w.id sub⟩
    | some p => .ok p

def pickPhotoFile (H : Host) (w : PersonaWorld) : Except Exc Picked := pickFile H w .photo

def pickVoiceFile (H : Host) (w : PersonaWorld) : Except Exc Picked := pickFile H w .voice

def refAudio : String := "ref_audio.wav"

def refText : String := "ref_text.txt"

/-- After SELECTING_VOICE: the voice file. -/
def selectVoice (H : Host) (w : PersonaWorld) (r : Run) : PersonaWorld × Run :=
  match pickVoiceFile H w with
  | .error e => (w, r.failed e)
  | .ok p => (w, ⟨.setExtracting, some p, r.photo⟩)

/-- After EXTRACTING_REF: `_prepare_voice_ref` up to its child process. A `ref_audio.wav` that is
already there is kept, and so is the text. -/
def prepareVoiceRef (w : PersonaWorld) (r : Run) : PersonaWorld × Run :=
  if w.files.has .voiceRef refAudio then (w, r.goto .setTranscribing)
  else (w.onFiles fun fs => fs.mkdir .voiceRef, r.goto .spawning)

/-- `wave.open` of the output. -/
def waveOpen (H : Host) (w : PersonaWorld) : WaveOutcome :=
  match w.files.get .voiceRef refAudio with
  | none => .error ⟨"FileNotFoundError",
      "[Errno 2] No such file or directory: '" ++ H.folderPath w.id .voiceRef ++ "/" ++ refAudio ++ "'"⟩
  | some file => H.wave file.content

/-- The checks of `_prepare_voice_ref` on what ffmpeg has left: an exception, and whether the output
is removed first. -/
def trimVerdict (H : Host) (w : PersonaWorld) (rc : Int) (stderr : String) :
    Option (Exc × Bool) :=
  if rc ≠ 0 then
    some (⟨"RuntimeError",
      "ref_audio trim 실패 (ffmpeg rc=" ++ toString rc ++ "): " ++ tail 500 stderr⟩, true)
  else match waveOpen H w with
    | .error e => some (⟨"RuntimeError", "ref_audio 출력 wav 검증 실패 (" ++ e.reason ++ ")"⟩, true)
    | .eof e => some (e, false)
    | .frames n rate =>
      if rate = 0 ∨ n < rate then
        some (⟨"RuntimeError", "ref_audio 가 너무 짧습니다 (" ++ H.formatSeconds n rate ++
          "s < 1.0s) — 업로드한 음성이 전체 무음이거나 발화가 너무 짧습니다. " ++
          "또렷한 발화 음성을 업로드해 주세요."⟩, true)
      else none

/-- The removal of the old `ref_audio.*` files; one that cannot be removed stays. -/
def unlinkStrays (unlinked : String → Bool) (d : Dir) : Dir :=
  Files.eraseAll (d.keys.filter fun name => isRefAudio name && name ≠ refAudio && unlinked name) d

/-- The end of `_prepare_voice_ref` after ffmpeg, and the invalidation of the old text. -/
def finishTrim (H : Host) (w : PersonaWorld) (r : Run) (rc : Int) (a : AfterTrim) :
    PersonaWorld × Run :=
  match trimVerdict H w rc a.stderr with
  | some (e, tidy) =>
    (if tidy && a.unlinked then w.onFiles fun fs => fs.unlink .voiceRef refAudio else w, r.failed e)
  | none =>
    orFail w r a.globFault <|
      let w := w.onFiles fun fs => fs.modify .voiceRef (unlinkStrays a.strayUnlinked)
      if w.files.has .voiceRef refText then
        orFail w r a.refTextFault
          (w.onFiles fun fs => fs.unlink .voiceRef refText, r.goto .setTranscribing)
      else (w, r.goto .setTranscribing)

/-- After TRANSCRIBING: `_transcribe_voice` up to the semaphore. A text that is not empty is read and
kept. -/
def transcribeVoice (H : Host) (w : PersonaWorld) (r : Run) : PersonaWorld × Run :=
  match (w.files.get .voiceRef refText).filter fun file => file.content.nonempty with
  | some file =>
    match readText H file.content with
    | .ok _ => (w, r.goto .setRendering)
    | .error e => (w, r.failed e)
  | none => (w, r.goto .waitingGpu)

/-- The end of `_transcribe_voice`: the text is written aside and renamed. -/
def saveRefText (w : PersonaWorld) (r : Run) (audio : Option Content) (text : String)
    (a : AfterTranscribe) : PersonaWorld × Run :=
  let origin := audio.elim Origin.other Origin.transcript
  match a.fault with
  | some (e, left) =>
    (left.elim w fun part => w.onFiles fun fs =>
      (fs.mkdir .voiceRef).write .voiceRef (refText ++ ".tmp") ⟨a.now, .text part, .other⟩,
      r.failed e)
  | none =>
    (w.onFiles fun fs => ((fs.mkdir .voiceRef).unlink .voiceRef (refText ++ ".tmp")).write
      .voiceRef refText ⟨a.now, .text text, origin⟩, r.goto .setRendering)

/-- `count` of `_render_idle_clips`. -/
def idleCount : Nat := 2

/-- `{i}.mp4`. -/
def idleName (i : Nat) : String := toString i ++ ".mp4"

/-- The loop of `_render_idle_clips` from clip `i`: clips that are there and not empty are kept. When
none is missing, the rows are inserted. -/
def nextClip (fs : Files) (i : Nat) : RunPc :=
  match (List.range' i (idleCount - i)).find? fun j => !fs.hasNonempty .idle (idleName j) with
  | some j => .waitingDitto j
  | none => .inserting 0 false

/-- After RENDERING_IDLE: the photo, and the first clip. -/
def renderIdleClips (H : Host) (w : PersonaWorld) (r : Run) : PersonaWorld × Run :=
  match pickPhotoFile H w with
  | .error e => (w, r.failed e)
  | .ok p =>
    let w := w.onFiles fun fs => fs.mkdir .idle
    (w, ⟨nextClip w.files 0, r.voice, some p⟩)

/-- What Ditto removes when it fails or is cancelled after its child has started. -/
def dittoCleanup (fs : Files) (sub : Folder) (target : String) (unlinked : String → Bool) : Files :=
  fs.modify sub (Files.eraseAll ([target, target ++ ".tmp.mp4"].filter unlinked))

/-- ffmpeg writes its output path as it goes. -/
def ffmpegOutput (w : PersonaWorld) (voice : Picked) (o : Output) : PersonaWorld :=
  w.onFiles fun fs => fs.write .voiceRef refAudio ⟨o.now, o.content, .trim voice false⟩

/-- ffmpeg ends: with 0, what it has written is the whole trim. -/
def ffmpegExit (w : PersonaWorld) (voice : Picked) (rc : Int) : PersonaWorld :=
  w.onFiles fun fs => fs.modify .voiceRef fun d =>
    match d.lookup refAudio with
    | some file => if rc = 0 then d.insert refAudio { file with origin := .trim voice true } else d
    | none => d

/-- `target.parent.mkdir(parents=True, exist_ok=True)` of `render_idle`, and again of `render_speak`
before its child starts. -/
def renderIdle (w : PersonaWorld) : PersonaWorld := w.onFiles fun fs => fs.mkdir .idle

/-- Ditto writes its target or the side file. -/
def idleOutput (w : PersonaWorld) (photo : Picked) (i : Nat) (side : Bool) (o : Output) :
    PersonaWorld :=
  w.onFiles fun fs => fs.write .idle (idleName i ++ if side then ".tmp.mp4" else "")
    ⟨o.now, o.content, .render photo false⟩

/-- Ditto has rendered its target. -/
def idleRendered (w : PersonaWorld) (photo : Picked) (i : Nat) (o : Output) : PersonaWorld :=
  w.onFiles fun fs => (fs.unlink .idle (idleName i ++ ".tmp.mp4")).write .idle (idleName i)
    ⟨o.now, o.content, .render photo true⟩

/-- Ditto has failed, `started` or not. -/
def idleFailed (w : PersonaWorld) (i : Nat) (started : Bool) (unlinked : String → Bool) :
    PersonaWorld :=
  if started then w.onFiles fun fs => dittoCleanup fs .idle (idleName i) unlinked else w

/-- The row of a clip. -/
def idleClip (H : Host) (w : PersonaWorld) (clipId : Uuid) (i : Nat) : IdleClip :=
  ⟨clipId, i, H.folderPath w.id .idle ++ "/" ++ idleName i⟩

/-! ## One step -/

/-- The success path of the `try` body and of the two handlers. -/
def runBody (H : Host) (w : PersonaWorld) (r : Run) : RunPc → RunEvent → Option (PersonaWorld × Run)
  | .scheduled, .start => some (w, r.goto .setPending)
  | .setPending, .lock none => some (w.setStep .pending none, r.goto (.updProcessing false))
  | .updProcessing false, .apply _ =>
    some (w.updatePersonaStatus .processing, r.goto (.updProcessing true))
  | .updProcessing true, .resume => some (w, r.goto .setSelecting)
  | .setSelecting, .lock fault =>
    let w := w.setStep .selectingVoice none
    some (orFail w r fault (selectVoice H w r))
  | .setExtracting, .lock fault =>
    let w := w.setStep .extractingRef none
    some (orFail w r fault (prepareVoiceRef w r))
  | .spawning, .spawned => some (w, r.goto (.ffmpeg none))
  | .ffmpeg none, .output false o => r.voice.map fun voice =>
    (ffmpegOutput w voice o, r.goto (.ffmpeg none))
  | .ffmpeg none, .exit rc => r.voice.map fun voice =>
    (ffmpegExit w voice rc, r.goto (.ffmpeg (some rc)))
  | .ffmpeg (some rc), .communicated a => some (finishTrim H w r rc a)
  | .setTranscribing, .lock fault =>
    let w := w.setStep .transcribing none
    some (orFail w r fault (transcribeVoice H w r))
  | .waitingGpu, .acquire =>
    some (w, r.goto (.transcribing ((w.files.get .voiceRef refAudio).map File.content)))
  | .transcribing audio, .transcribed text a => some (saveRefText w r audio text a)
  | .setRendering, .lock fault =>
    let w := w.setStep .renderingIdle none
    some (orFail w r fault (renderIdleClips H w r))
  | .waitingDitto i, .acquire => some (renderIdle w, r.goto (.rendering i))
  | .rendering i, .spawned => some (renderIdle w, r.goto (.rendering i))
  | .rendering i, .output side o => r.photo.map fun photo =>
    (idleOutput w photo i side o, r.goto (.rendering i))
  | .rendering i, .rendered o fault => r.photo.bind fun photo =>
    if (w.files.dir .idle).isSome then
      let w := idleRendered w photo i o
      some (orFail w r fault (w, r.goto (nextClip w.files (i + 1))))
    else none
  | .rendering i, .renderFailed e started unlinked =>
    some (idleFailed w i started unlinked, r.failed e)
  | .inserting i false, .apply id =>
    some (w.insertPersonaIdleClip (idleClip H w id i), r.goto (.inserting i true))
  | .inserting i true, .resume =>
    some (w, r.goto (if i + 1 < idleCount then .inserting (i + 1) false else .setReady))
  | .setReady, .lock none => some (w.setStep .ready none, r.goto (.updReady false))
  | .updReady false, .apply _ => some (w.updatePersonaStatus .ready, r.goto (.updReady true))
  | .updReady true, .resume => some (w, r.goto .returned)
  | .cancelSet, .lock none =>
    some (w.setStep .failed (some "cancelled"), r.goto (.cancelUpd false))
  | .cancelUpd false, .apply _ => some (w.updatePersonaStatus .failed, r.goto (.cancelUpd true))
  | .cancelUpd true, .resume => some (w, r.goto .cancelled)
  | .failSet reason, .lock none =>
    some (w.setStep .failed (some reason), r.goto (.failUpd false))
  | .failUpd false, .apply _ => some (w.updatePersonaStatus .failed, r.goto (.failUpd true))
  | .failUpd true, .resume => some (w, r.goto .returned)
  | _, _ => none

/-- ffmpeg goes on without the run, unless it has ended. -/
def leaveFfmpeg (w : PersonaWorld) (r : Run) (rc : Option Int) : PersonaWorld :=
  if rc.isNone then r.voice.elim w fun voice => w.leave (.ffmpeg voice) else w

/-- An `await` raises; `renderFailed` is the one of Ditto. Waiting for a semaphore does not, but the `mkdir` of
`render_idle` may once it has been taken. In the body that leads into the handler of `Exception`; the handler of
the cancellation swallows it, the other one swallows it at the status update only. -/
def failStep (w : PersonaWorld) (r : Run) (e : Exc) : Option (PersonaWorld × Run) :=
  match r.pc with
  | .setPending | .updProcessing _ | .setSelecting | .setExtracting | .spawning | .setTranscribing
  | .transcribing _ | .setRendering | .waitingDitto _ | .inserting _ _ | .setReady | .updReady _ =>
    some (w, r.failed e)
  | .ffmpeg rc => some (leaveFfmpeg w r rc, r.failed e)
  | .cancelSet | .cancelUpd _ => some (w, r.goto .cancelled)
  | .failSet _ => some (w, r.goto (.raised e))
  | .failUpd _ => some (w, r.goto .returned)
  | _ => none

/-- An `await` is cancelled. In the body that leads into the handler of `CancelledError`; a child process
goes on without the run. A second cancellation leaves the handlers at once. -/
def cancelStep (w : PersonaWorld) (r : Run) (started : Bool) (unlinked : String → Bool) :
    Option (PersonaWorld × Run) :=
  match r.pc with
  | .setPending | .updProcessing _ | .setSelecting | .setExtracting | .spawning | .setTranscribing
  | .waitingGpu | .transcribing _ | .setRendering | .waitingDitto _ | .inserting _ _ | .setReady
  | .updReady _ => some (w, r.goto .cancelSet)
  | .ffmpeg rc => some (leaveFfmpeg w r rc, r.goto .cancelSet)
  | .rendering i => r.photo.map fun photo =>
    (if started then (idleFailed w i true unlinked).leave (.idleRender photo (idleName i)) else w,
      r.goto .cancelSet)
  | .scheduled | .cancelSet | .cancelUpd _ | .failSet _ | .failUpd _ => some (w, r.goto .cancelled)
  | .returned | .cancelled | .raised _ | .killed => none

/-- One step of `process_persona`. -/
def runStep (H : Host) (w : PersonaWorld) (r : Run) : RunEvent → Option (PersonaWorld × Run)
  | .fail e => failStep w r e
  | .cancel started unlinked => cancelStep w r started unlinked
  | ev => runBody H w r r.pc ev

/-! ## Inversion -/

/-- What the success path can do, one constructor for each arm of `runBody`. -/
inductive BodyStep (H : Host) (w : PersonaWorld) (r : Run) :
    RunPc → RunEvent → PersonaWorld × Run → Prop
  | start : BodyStep H w r .scheduled .start (w, r.goto .setPending)
  | pending : BodyStep H w r .setPending (.lock none)
      (w.setStep .pending none, r.goto (.updProcessing false))
  | claim {id} : BodyStep H w r (.updProcessing false) (.apply id)
      (w.updatePersonaStatus .processing, r.goto (.updProcessing true))
  | claimed : BodyStep H w r (.updProcessing true) .resume (w, r.goto .setSelecting)
  | select {fault} : BodyStep H w r .setSelecting (.lock fault)
      (orFail (w.setStep .selectingVoice none) r fault
        (selectVoice H (w.setStep .selectingVoice none) r))
  | extract {fault} : BodyStep H w r .setExtracting (.lock fault)
      (orFail (w.setStep .extractingRef none) r fault
        (prepareVoiceRef (w.setStep .extractingRef none) r))
  | spawned : BodyStep H w r .spawning .spawned (w, r.goto (.ffmpeg none))
  | trimOutput {voice o} (hv : r.voice = some voice) : BodyStep H w r (.ffmpeg none)
      (.output false o) (ffmpegOutput w voice o, r.goto (.ffmpeg none))
  | trimExit {voice rc} (hv : r.voice = some voice) : BodyStep H w r (.ffmpeg none) (.exit rc)
      (ffmpegExit w voice rc, r.goto (.ffmpeg (some rc)))
  | trimDone {rc a} : BodyStep H w r (.ffmpeg (some rc)) (.communicated a) (finishTrim H w r rc a)
  | transcribe {fault} : BodyStep H w r .setTranscribing (.lock fault)
      (orFail (w.setStep .transcribing none) r fault
        (transcribeVoice H (w.setStep .transcribing none) r))
  | acquireGpu : BodyStep H w r .waitingGpu .acquire
      (w, r.goto (.transcribing ((w.files.get .voiceRef refAudio).map File.content)))
  | transcribed {audio text a} : BodyStep H w r (.transcribing audio) (.transcribed text a)
      (saveRefText w r audio text a)
  | render {fault} : BodyStep H w r .setRendering (.lock fault)
      (orFail (w.setStep .renderingIdle none) r fault
        (renderIdleClips H (w.setStep .renderingIdle none) r))
  | acquireDitto {i} : BodyStep H w r (.waitingDitto i) .acquire
      (renderIdle w, r.goto (.rendering i))
  | renderSpawned {i} : BodyStep H w r (.rendering i) .spawned
      (renderIdle w, r.goto (.rendering i))
  | renderOutput {photo i side o} (hp : r.photo = some photo) : BodyStep H w r (.rendering i)
      (.output side o) (idleOutput w photo i side o, r.goto (.rendering i))
  | rendered {photo i o fault} (hp : r.photo = some photo) (hd : (w.files.dir .idle).isSome) :
      BodyStep H w r (.rendering i) (.rendered o fault)
        (orFail (idleRendered w photo i o) r fault
          (idleRendered w photo i o, r.goto (nextClip (idleRendered w photo i o).files (i + 1))))
  | renderFailed {i e started unlinked} : BodyStep H w r (.rendering i)
      (.renderFailed e started unlinked) (idleFailed w i started unlinked, r.failed e)
  | insert {i id} : BodyStep H w r (.inserting i false) (.apply id)
      (w.insertPersonaIdleClip (idleClip H w id i), r.goto (.inserting i true))
  | inserted {i} : BodyStep H w r (.inserting i true) .resume
      (w, r.goto (if i + 1 < idleCount then .inserting (i + 1) false else .setReady))
  | ready : BodyStep H w r .setReady (.lock none)
      (w.setStep .ready none, r.goto (.updReady false))
  | setReady {id} : BodyStep H w r (.updReady false) (.apply id)
      (w.updatePersonaStatus .ready, r.goto (.updReady true))
  | done : BodyStep H w r (.updReady true) .resume (w, r.goto .returned)
  | cancelSet : BodyStep H w r .cancelSet (.lock none)
      (w.setStep .failed (some "cancelled"), r.goto (.cancelUpd false))
  | cancelUpd {id} : BodyStep H w r (.cancelUpd false) (.apply id)
      (w.updatePersonaStatus .failed, r.goto (.cancelUpd true))
  | cancelDone : BodyStep H w r (.cancelUpd true) .resume (w, r.goto .cancelled)
  | failSet {reason} : BodyStep H w r (.failSet reason) (.lock none)
      (w.setStep .failed (some reason), r.goto (.failUpd false))
  | failUpd {id} : BodyStep H w r (.failUpd false) (.apply id)
      (w.updatePersonaStatus .failed, r.goto (.failUpd true))
  | failDone : BodyStep H w r (.failUpd true) .resume (w, r.goto .returned)

/-- Inversion of the success path. -/
theorem bodyStep_of_runBody {H : Host} {w : PersonaWorld} {r : Run} {pc : RunPc} {ev : RunEvent}
    {out : PersonaWorld × Run} (h : runBody H w r pc ev = some out) : BodyStep H w r pc ev out := by
  unfold runBody at h
  split at h
  all_goals
    first
    | (cases h; done)
    | (cases h; constructor)
    | (obtain ⟨_, hv, rfl⟩ := Option.map_eq_some_iff.mp h; constructor; exact hv)
    | skip
  case h_18 =>
    obtain ⟨photo, hp, h⟩ := Option.bind_eq_some_iff.mp h
    split at h
    · rename_i hd
      cases h
      exact .rendered hp hd
    · cases h

end YeounEngine
