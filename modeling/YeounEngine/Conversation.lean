import YeounEngine.PersonaCreation
import YeounEngine.Safety

/-!
# A message

`process_message` of `app/pipeline/conversation.py` as a state machine, like the creation pipeline: one
state for each `await` and for each `yield`. It is an async generator, so its consumer decides when
it goes on after a `yield`, and may close it there instead; an `await` may be cancelled.

`stream_response` is a generator of its own: after a cancellation its `finally` still awaits the
thread that generates (`unwinding`), and when the message is closed at a token it is finalised later
(`abandoned`).
-/

namespace YeounEngine

/-! ## Sessions -/

inductive Role
  | user
  | assistant
  deriving DecidableEq, Repr

/-- `MessageRecord`. -/
structure MessageRecord where
  role : Role
  text : String
  createdAt : Nat
  deriving DecidableEq, Repr

/-- `SessionState`, without its lock. -/
structure SessionState where
  sessionId : Uuid
  userId : Uuid
  personaId : Uuid
  systemPrompt : String
  startedAt : Nat
  lastActivityAt : Nat
  history : List MessageRecord
  deriving DecidableEq, Repr

/-- An entry of the history that `stream_response` is given. -/
structure HistoryMessage where
  role : Role
  text : String
  deriving DecidableEq, Repr

/-- `_HISTORY_MAX_CHARS`. -/
def historyMaxChars : Nat := 4000

/-- `_HISTORY_MAX_MESSAGES`. -/
def historyMaxMessages : Nat := 20

/-- The loop of `_trim_history`, over the messages from the last one back. -/
def trimHistoryLoop (maxChars maxMessages : Nat) :
    List MessageRecord → (kept : List HistoryMessage) → (totalChars : Nat) → List HistoryMessage
  | [], kept, _ => kept
  | msg :: rest, kept, totalChars =>
    let msgChars := msg.text.length
    if maxChars < totalChars + msgChars ∨ maxMessages ≤ kept.length then kept
    else trimHistoryLoop maxChars maxMessages rest (kept ++ [⟨msg.role, msg.text⟩])
      (totalChars + msgChars)

/-- `_trim_history`. -/
def trimHistory (maxChars maxMessages : Nat) (history : List MessageRecord) : List HistoryMessage :=
  (trimHistoryLoop maxChars maxMessages history.reverse [] 0).reverse

/-! ## The world and the output of a message -/

/-- A row of `safety_logs`. -/
structure SafetyLog where
  logsId : Uuid
  userId : Uuid
  eventType : String
  actionKaten : String
  deriving DecidableEq, Repr

/-- What a message reads and writes. -/
structure MessageWorld where
  persona : PersonaWorld
  session : SessionState
  safetyLogs : List SafetyLog

/-- An SSE event, by its kind and the fields of its data. -/
inductive SseEvent
  | token (data : String)
  | textDone (messageId : Uuid) (text : String)
  | mediaReady (messageId : Uuid) (path : String)
  | crisis (messageId : Uuid) (keyword : Option String) (guidance : String)
  | error (reason : String)
  deriving DecidableEq, Repr

/-- A response as it is streamed: what the user said, the history that `stream_response` was given, and
the tokens so far. -/
structure Reply where
  userText : String
  history : List HistoryMessage
  parts : List String
  deriving DecidableEq, Repr

/-- The arguments of `tts.synthesize`, but for its output path. -/
structure Speech where
  text : String
  refAudioPath : String
  refText : String
  deriving DecidableEq, Repr

/-- Where a message goes on after a `yield`. -/
inductive AfterYield
  | token (reply : Reply)
  | textDone (userText finalText : String)
  | last
  deriving DecidableEq, Repr

/-- Where a message is. `applied` is whether the statement it awaits has taken effect. -/
inductive MessagePc
  | created
  | transcribing
  | loggingCrisis (keyword : Option String) (applied : Bool)
  | streaming (reply : Reply)
  | unwinding
  | loggingForbidden (userText : String) (applied : Bool)
  | waitingGpu (speech : Speech)
  | synthesizing (speech : Speech)
  | waitingDitto (photo : Picked)
  | rendering (photo : Picked)
  | yielded (ev : SseEvent) (next : AfterYield)
  | abandoned
  | returned
  | raised (e : Exc)
  | cancelled
  deriving DecidableEq

/-- The generator is over. -/
def MessagePc.ended : MessagePc → Bool
  | .returned | .raised _ | .cancelled => true
  | _ => false

/-- How the removal of a file ends: with an exception that its callers catch, which of those that `unlink` raises is an
`OSError`, or with another one. -/
inductive Unlinked
  | removed
  | osError
  | raised (e : Exc)
  deriving DecidableEq

/-- The synchronous code after `text_done`: the clock, the call that raised, and how the removals on a
failure end. -/
structure AfterTextDone where
  now : Nat
  mkdirFault : Option Exc
  refFault : Option Exc
  unlinked : String → Unlinked

/-- No failure after `text_done`. -/
def cleanTextDone : AfterTextDone := ⟨101, none, none, fun _ => .removed⟩

/-- What happens at an `await` or a `yield` of a message. -/
inductive MessageEvent
  | pull (a : AfterTextDone)
  | transcribed (text : String)
  | apply (logsId : Uuid)
  | resume
  | token (data : String)
  | streamEnd
  | acquire
  | makeFolder
  | output (side : Bool) (o : Output)
  | synthesized (o : Output) (fault : Option Exc) (unlinked : String → Unlinked)
  | rendered (o : Output) (wav : Unlinked) (unlinked : String → Unlinked)
  | renderFailed (e : Exc) (started : Bool) (removed : String → Bool) (unlinked : String → Unlinked)
  | fail (e : Exc) (unlinked : String → Unlinked)
  | cancel (started : Bool) (removed : String → Bool)
  | close

/-! ## Between two awaits -/

namespace MessageWorld

/-- `insert_safety_log`. -/
def insertSafetyLog (w : MessageWorld) (logsId : Uuid) (eventType actionKaten : String) :
    MessageWorld :=
  { w with safetyLogs := w.safetyLogs ++ [⟨logsId, w.session.userId, eventType, actionKaten⟩] }

/-- Both records of a message are appended to the history. -/
def appendHistory (w : MessageWorld) (userText finalText : String) (now : Nat) : MessageWorld :=
  { w with session := { w.session with
      history := w.session.history ++ [⟨.user, userText, now⟩, ⟨.assistant, finalText, now⟩]
      lastActivityAt := now } }

def onFiles (w : MessageWorld) (g : Files → Files) : MessageWorld :=
  { w with persona := w.persona.onFiles g }

def leave (w : MessageWorld) (o : Orphan) : MessageWorld := { w with persona := w.persona.leave o }

/-- `persona_root / "speak" / str(session.session_id)`. -/
def speakDir (w : MessageWorld) : Folder := .speak w.session.sessionId

end MessageWorld

section
variable (H : Host) (messageId : Uuid)

/-- `{message_id}.wav`. -/
def wavName : String := messageId.str ++ ".wav"

/-- `{message_id}.mp4`. -/
def mp4Name : String := messageId.str ++ ".mp4"

/-- `guidance` of the crisis event. -/
def crisisGuidance : String := "지금 많이 힘드신가요? 24시간 상담 전화 109 로 연락해 주세요."

/-- An event after which the message ends. -/
def yieldLast (ev : SseEvent) : MessagePc := .yielded ev .last

/-- The input guard, on the transcription. -/
def inputGuard (w : MessageWorld) (userText : String) : MessagePc :=
  let crisis := checkCrisis H.unicode userText
  if crisis.matched then .loggingCrisis crisis.matchedKeyword false
  else .streaming ⟨userText, trimHistory historyMaxChars historyMaxMessages w.session.history, []⟩

def yieldCrisis (keyword : Option String) : MessagePc :=
  yieldLast (.crisis messageId keyword crisisGuidance)

def yieldTextDone (userText finalText : String) : MessagePc :=
  .yielded (.textDone messageId finalText) (.textDone userText finalText)

/-- The output guard, on the whole response. -/
def outputGuard (reply : Reply) : MessagePc :=
  let fullText := strip (String.join reply.parts)
  let filtered := filterResponse H.unicode fullText
  if filtered.matched then .loggingForbidden reply.userText false
  else yieldTextDone messageId reply.userText filtered.text

/-- `for stray in strays: stray.unlink(missing_ok=True)`, with `(OSError, NameError)` caught, of which `unlink` raises
the first: the files that are removed, and the exception that ends the loop. -/
def removeStrays (unlinked : String → Unlinked) : List String → List String × Option Exc
  | [] => ([], none)
  | stray :: strays =>
    match unlinked stray with
    | .removed => ((stray :: (removeStrays unlinked strays).1), (removeStrays unlinked strays).2)
    | .osError => removeStrays unlinked strays
    | .raised e => ([], some e)

/-- The handler of the media failures: both files are removed, as far as possible. -/
def mediaFailed (w : MessageWorld) (e : Exc) (unlinked : String → Unlinked) : MessageWorld × MessagePc :=
  let strays := removeStrays unlinked [wavName messageId, mp4Name messageId]
  (w.onFiles fun fs => fs.modify w.speakDir (Files.eraseAll strays.1),
    match strays.2 with
    | some e => .raised e
    | none => yieldLast (.error (cut 200 ("media_failed: " ++ e.reason))))

/-- The reference voice, and the text to synthesize with it. -/
def selectRef (w : MessageWorld) (finalText : String) : Except Exc Speech :=
  let voiceRefDir := H.folderPath w.session.personaId .voiceRef
  match w.persona.files.refAudioIn.head?, w.persona.files.get .voiceRef refText with
  | some refAudioName, some file =>
    (readText H file.content).map fun text =>
      ⟨finalText, voiceRefDir ++ "/" ++ refAudioName, text⟩
  | _, _ => .error ⟨"FileNotFoundError", "voice_ref 누락: " ++ voiceRefDir⟩

/-- After `text_done`: the history, the folder, and the reference voice. When the folder cannot be made,
the handler itself raises: it reads `wav_path` before it is bound. -/
def prepareSpeech (w : MessageWorld) (userText finalText : String) (a : AfterTextDone) :
    MessageWorld × MessagePc :=
  let w := w.appendHistory userText finalText a.now
  match a.mkdirFault with
  | some _ => (w, .raised ⟨"UnboundLocalError",
      "cannot access local variable 'wav_path' where it is not associated with a value"⟩)
  | none =>
    let w := w.onFiles fun fs => fs.mkdir w.speakDir
    match a.refFault with
    | some e => mediaFailed messageId w e a.unlinked
    | none =>
      match selectRef H w finalText with
      | .ok speech => (w, .waitingGpu speech)
      | .error e => mediaFailed messageId w e a.unlinked

/-- The TTS writes the wav, in the folder if it is still there. -/
def speechOutput (w : MessageWorld) (o : Output) : MessageWorld :=
  w.onFiles fun fs => fs.write w.speakDir (wavName messageId) ⟨o.now, o.content, .other⟩

/-- After the TTS: the photo. -/
def pickSpeakPhoto (w : MessageWorld) (fault : Option Exc) (unlinked : String → Unlinked) :
    MessageWorld × MessagePc :=
  match fault with
  | some e => mediaFailed messageId w e unlinked
  | none =>
    match w.persona.files.newestIn .photo with
    | some photo => (w, .waitingDitto photo)
    | none => mediaFailed messageId w
        ⟨"FileNotFoundError", "photo 누락: " ++ H.folderPath w.session.personaId .photo⟩ unlinked

/-- Ditto writes the mp4 or its side file. -/
def speakOutput (w : MessageWorld) (photo : Picked) (side : Bool) (o : Output) : MessageWorld :=
  w.onFiles fun fs => fs.write w.speakDir (mp4Name messageId ++ if side then ".tmp.mp4" else "")
    ⟨o.now, o.content, .render photo false⟩

/-- Ditto has rendered the mp4, and the wav is removed, if it can be. -/
def speakRendered (w : MessageWorld) (photo : Picked) (o : Output) (wav : Unlinked) : MessageWorld :=
  w.onFiles fun fs =>
    let fs := (fs.unlink w.speakDir (mp4Name messageId ++ ".tmp.mp4")).write w.speakDir
      (mp4Name messageId) ⟨o.now, o.content, .render photo true⟩
    if wav = .removed then fs.unlink w.speakDir (wavName messageId) else fs

/-- Ditto has failed or was cancelled, `started` or not. -/
def speakFailed (w : MessageWorld) (started : Bool) (removed : String → Bool) : MessageWorld :=
  if started then w.onFiles fun fs => dittoCleanup fs w.speakDir (mp4Name messageId) removed else w

/-- `media_ready`, with the path below `PERSONA_DIR`. -/
def yieldMediaReady (w : MessageWorld) : MessagePc :=
  yieldLast (.mediaReady messageId (w.session.personaId.str ++ "/" ++ w.speakDir.path ++ "/" ++
    mp4Name messageId))

/-- After the removal of the wav. -/
def finishSpeech (w : MessageWorld) (wav : Unlinked) (unlinked : String → Unlinked) : MessageWorld × MessagePc :=
  match wav with
  | .raised e => mediaFailed messageId w e unlinked
  | _ => (w, yieldMediaReady messageId w)

/-! ## One step -/

/-- The success path and the failures. -/
def messageBody (w : MessageWorld) : MessagePc → MessageEvent → Option (MessageWorld × MessagePc)
  | .created, .pull _ => some (w, .transcribing)
  | .transcribing, .transcribed text => some (w, inputGuard H w text)
  | .transcribing, .fail e _ => some (w, yieldLast (.error ("transcribe_failed: " ++ e.typeName)))
  | .loggingCrisis keyword false, .apply id =>
    some (w.insertSafetyLog id "crisis_keyword" "block", .loggingCrisis keyword true)
  | .loggingCrisis keyword true, .resume => some (w, yieldCrisis messageId keyword)
  | .loggingCrisis keyword _, .fail _ _ => some (w, yieldCrisis messageId keyword)
  | .streaming reply, .token data =>
    some (w, .yielded (.token data) (.token { reply with parts := reply.parts ++ [data] }))
  | .yielded _ (.token reply), .pull _ => some (w, .streaming reply)
  | .streaming reply, .streamEnd => some (w, outputGuard H messageId reply)
  | .streaming _, .fail e _ => some (w, yieldLast (.error ("stream_failed: " ++ e.typeName)))
  | .loggingForbidden userText false, .apply id =>
    some (w.insertSafetyLog id "forbidden_topic" "mask", .loggingForbidden userText true)
  | .loggingForbidden userText true, .resume =>
    some (w, yieldTextDone messageId userText forbiddenFallback)
  | .loggingForbidden userText _, .fail _ _ =>
    some (w, yieldTextDone messageId userText forbiddenFallback)
  | .yielded _ (.textDone userText finalText), .pull a =>
    some (prepareSpeech H messageId w userText finalText a)
  | .waitingGpu speech, .acquire => some (w, .synthesizing speech)
  | .synthesizing speech, .makeFolder =>
    some (w.onFiles fun fs => fs.mkdir w.speakDir, .synthesizing speech)
  | .synthesizing speech, .output false o => some (speechOutput messageId w o, .synthesizing speech)
  | .synthesizing _, .synthesized o fault unlinked =>
    if (w.persona.files.dir w.speakDir).isSome then
      some (pickSpeakPhoto H messageId (speechOutput messageId w o) fault unlinked)
    else none
  | .synthesizing _, .fail e unlinked => some (mediaFailed messageId w e unlinked)
  | .waitingDitto photo, .acquire =>
    some (w.onFiles fun fs => fs.mkdir w.speakDir, .rendering photo)
  -- the `mkdir` of `render_speak` raises: the semaphore is taken and given back at once
  | .waitingDitto _, .fail e unlinked => some (mediaFailed messageId w e unlinked)
  | .rendering photo, .makeFolder =>
    some (w.onFiles fun fs => fs.mkdir w.speakDir, .rendering photo)
  | .rendering photo, .output side o => some (speakOutput messageId w photo side o, .rendering photo)
  | .rendering photo, .rendered o wav unlinked =>
    if (w.persona.files.dir w.speakDir).isSome then
      some (finishSpeech messageId (speakRendered messageId w photo o wav) wav unlinked)
    else none
  | .rendering _, .renderFailed e started removed unlinked =>
    some (mediaFailed messageId (speakFailed messageId w started removed) e unlinked)
  | .yielded _ .last, .pull _ => some (w, .returned)
  -- `stream_response` is over after a cancellation, or after the message was closed at a token
  | .unwinding, .streamEnd | .abandoned, .streamEnd => some (w, .cancelled)
  | _, _ => none

/-- An `await` is cancelled: no handler of the message catches that. A worker thread or child process goes
on without it. -/
def messageCancel (w : MessageWorld) (started : Bool) (removed : String → Bool) :
    MessagePc → Option (MessageWorld × MessagePc)
  | .transcribing | .loggingCrisis _ _ | .loggingForbidden _ _ | .waitingGpu _ | .waitingDitto _
  | .unwinding => some (w, .cancelled)
  | .streaming _ => some (w, .unwinding)
  | .synthesizing _ =>
    some (if started then w.leave (.synthesize w.session.sessionId (wavName messageId)) else w,
      .cancelled)
  | .rendering photo =>
    some (if started then (speakFailed messageId w true removed).leave
      (.speakRender photo w.session.sessionId (mp4Name messageId)) else w, .cancelled)
  | _ => none

/-- The generator is closed where it is suspended. -/
def messageClose (w : MessageWorld) : MessagePc → Option (MessageWorld × MessagePc)
  | .created | .yielded _ (.textDone _ _) | .yielded _ .last => some (w, .cancelled)
  | .yielded _ (.token _) => some (w, .abandoned)
  | _ => none

/-- One step of `process_message`. -/
def messageStep (w : MessageWorld) (pc : MessagePc) :
    MessageEvent → Option (MessageWorld × MessagePc)
  | .cancel started removed => messageCancel messageId w started removed pc
  | .close => messageClose w pc
  | ev => messageBody H messageId w pc ev

end

/-- What a message has just sent, when it is at a `yield`. -/
def MessagePc.sends : MessagePc → Option SseEvent
  | .yielded ev _ => some ev
  | _ => none

/-- The time at which a message updates its session, if it does in the step: after `text_done`. -/
def responds : MessageEvent → MessagePc → Option Nat
  | .pull a, .yielded _ (.textDone _ _) => some a.now
  | _, _ => none

/-! ## Inversion -/

/-- What the success path and the failures can do, one constructor for each arm of `messageBody`. -/
inductive MessageBodyStep (H : Host) (messageId : Uuid) (w : MessageWorld) :
    MessagePc → MessageEvent → MessageWorld × MessagePc → Prop
  | start {a} : MessageBodyStep H messageId w .created (.pull a) (w, .transcribing)
  | transcribed {text} : MessageBodyStep H messageId w .transcribing (.transcribed text)
      (w, inputGuard H w text)
  | transcribeFailed {e unlinked} : MessageBodyStep H messageId w .transcribing (.fail e unlinked)
      (w, yieldLast (.error ("transcribe_failed: " ++ e.typeName)))
  | logCrisis {keyword id} : MessageBodyStep H messageId w (.loggingCrisis keyword false) (.apply id)
      (w.insertSafetyLog id "crisis_keyword" "block", .loggingCrisis keyword true)
  | crisisLogged {keyword} : MessageBodyStep H messageId w (.loggingCrisis keyword true) .resume
      (w, yieldCrisis messageId keyword)
  | crisisLogFailed {keyword applied e unlinked} : MessageBodyStep H messageId w
      (.loggingCrisis keyword applied) (.fail e unlinked) (w, yieldCrisis messageId keyword)
  | token {reply data} : MessageBodyStep H messageId w (.streaming reply) (.token data)
      (w, .yielded (.token data) (.token { reply with parts := reply.parts ++ [data] }))
  | nextToken {ev reply a} : MessageBodyStep H messageId w (.yielded ev (.token reply)) (.pull a)
      (w, .streaming reply)
  | streamEnd {reply} : MessageBodyStep H messageId w (.streaming reply) .streamEnd
      (w, outputGuard H messageId reply)
  | streamFailed {reply e unlinked} : MessageBodyStep H messageId w (.streaming reply)
      (.fail e unlinked) (w, yieldLast (.error ("stream_failed: " ++ e.typeName)))
  | logForbidden {userText id} : MessageBodyStep H messageId w (.loggingForbidden userText false)
      (.apply id) (w.insertSafetyLog id "forbidden_topic" "mask", .loggingForbidden userText true)
  | forbiddenLogged {userText} : MessageBodyStep H messageId w (.loggingForbidden userText true)
      .resume (w, yieldTextDone messageId userText forbiddenFallback)
  | forbiddenLogFailed {userText applied e unlinked} : MessageBodyStep H messageId w
      (.loggingForbidden userText applied) (.fail e unlinked)
      (w, yieldTextDone messageId userText forbiddenFallback)
  | speech {ev userText finalText a} : MessageBodyStep H messageId w
      (.yielded ev (.textDone userText finalText)) (.pull a)
      (prepareSpeech H messageId w userText finalText a)
  | acquireGpu {speech} : MessageBodyStep H messageId w (.waitingGpu speech) .acquire
      (w, .synthesizing speech)
  | speechFolder {speech} : MessageBodyStep H messageId w (.synthesizing speech) .makeFolder
      (w.onFiles fun fs => fs.mkdir w.speakDir, .synthesizing speech)
  | speechOutput {speech o} : MessageBodyStep H messageId w (.synthesizing speech) (.output false o)
      (speechOutput messageId w o, .synthesizing speech)
  | synthesized {speech o fault unlinked} (hd : (w.persona.files.dir w.speakDir).isSome) :
      MessageBodyStep H messageId w (.synthesizing speech) (.synthesized o fault unlinked)
        (pickSpeakPhoto H messageId (YeounEngine.speechOutput messageId w o) fault unlinked)
  | synthesizeFailed {speech e unlinked} : MessageBodyStep H messageId w (.synthesizing speech)
      (.fail e unlinked) (mediaFailed messageId w e unlinked)
  | acquireDitto {photo} : MessageBodyStep H messageId w (.waitingDitto photo) .acquire
      (w.onFiles fun fs => fs.mkdir w.speakDir, .rendering photo)
  | folderFailed {photo e unlinked} : MessageBodyStep H messageId w (.waitingDitto photo) (.fail e unlinked)
      (mediaFailed messageId w e unlinked)
  | renderFolder {photo} : MessageBodyStep H messageId w (.rendering photo) .makeFolder
      (w.onFiles fun fs => fs.mkdir w.speakDir, .rendering photo)
  | renderOutput {photo side o} : MessageBodyStep H messageId w (.rendering photo) (.output side o)
      (speakOutput messageId w photo side o, .rendering photo)
  | rendered {photo o wav unlinked} (hd : (w.persona.files.dir w.speakDir).isSome) :
      MessageBodyStep H messageId w (.rendering photo) (.rendered o wav unlinked)
        (finishSpeech messageId (speakRendered messageId w photo o wav) wav unlinked)
  | renderFailed {photo e started removed unlinked} : MessageBodyStep H messageId w
      (.rendering photo) (.renderFailed e started removed unlinked)
      (mediaFailed messageId (speakFailed messageId w started removed) e unlinked)
  | finish {ev a} : MessageBodyStep H messageId w (.yielded ev .last) (.pull a) (w, .returned)
  | unwound : MessageBodyStep H messageId w .unwinding .streamEnd (w, .cancelled)
  | finalised : MessageBodyStep H messageId w .abandoned .streamEnd (w, .cancelled)

/-- Inversion of the success path and the failures. -/
theorem messageBodyStep_of_messageBody {H : Host} {messageId : Uuid} {w : MessageWorld}
    {pc : MessagePc} {ev : MessageEvent} {out : MessageWorld × MessagePc}
    (h : messageBody H messageId w pc ev = some out) : MessageBodyStep H messageId w pc ev out := by
  unfold messageBody at h
  split at h
  all_goals
    first
    | (cases h; done)
    | (cases h; constructor)
    | skip
  all_goals
    split at h
    · rename_i hd
      cases h
      constructor
      exact hd
    · cases h

/-- What an interruption can do, one constructor for each place where there is one: an `await` is cancelled, or the
generator is closed at a `yield`. -/
inductive MessageInterrupted (messageId : Uuid) (w : MessageWorld) :
    MessagePc → MessageEvent → MessageWorld × MessagePc → Prop
  | transcribing {started removed} :
      MessageInterrupted messageId w .transcribing (.cancel started removed) (w, .cancelled)
  | loggingCrisis {keyword applied started removed} :
      MessageInterrupted messageId w (.loggingCrisis keyword applied) (.cancel started removed) (w, .cancelled)
  | streaming {reply started removed} :
      MessageInterrupted messageId w (.streaming reply) (.cancel started removed) (w, .unwinding)
  | loggingForbidden {userText applied started removed} :
      MessageInterrupted messageId w (.loggingForbidden userText applied) (.cancel started removed) (w, .cancelled)
  | waitingGpu {speech started removed} :
      MessageInterrupted messageId w (.waitingGpu speech) (.cancel started removed) (w, .cancelled)
  | synthesizing {speech started removed} :
      MessageInterrupted messageId w (.synthesizing speech) (.cancel started removed)
        (if started then w.leave (.synthesize w.session.sessionId (wavName messageId)) else w, .cancelled)
  | waitingDitto {photo started removed} :
      MessageInterrupted messageId w (.waitingDitto photo) (.cancel started removed) (w, .cancelled)
  | rendering {photo started removed} :
      MessageInterrupted messageId w (.rendering photo) (.cancel started removed)
        (if started then (speakFailed messageId w true removed).leave
          (.speakRender photo w.session.sessionId (mp4Name messageId)) else w, .cancelled)
  | unwinding {started removed} :
      MessageInterrupted messageId w .unwinding (.cancel started removed) (w, .cancelled)
  | created : MessageInterrupted messageId w .created .close (w, .cancelled)
  | token {ev reply} : MessageInterrupted messageId w (.yielded ev (.token reply)) .close (w, .abandoned)
  | textDone {ev userText finalText} :
      MessageInterrupted messageId w (.yielded ev (.textDone userText finalText)) .close (w, .cancelled)
  | last {ev} : MessageInterrupted messageId w (.yielded ev .last) .close (w, .cancelled)

/-- Inversion of a step. -/
theorem messageStep_cases {H : Host} {messageId : Uuid} {w : MessageWorld} {pc : MessagePc} {ev : MessageEvent}
    {out : MessageWorld × MessagePc} (h : messageStep H messageId w pc ev = some out) :
    MessageBodyStep H messageId w pc ev out ∨ MessageInterrupted messageId w pc ev out := by
  cases ev with
  | cancel started removed =>
    refine .inr ?_
    cases pc <;> cases h <;> constructor
  | close =>
    refine .inr ?_
    cases pc with
    | created =>
      cases h
      exact .created
    | yielded ev next => cases next <;> cases h <;> constructor
    | _ => cases h
  | _ => exact .inl (messageBodyStep_of_messageBody h)

/-! ## Where the segments lead -/

section
variable {H : Host} {messageId : Uuid} {w : MessageWorld} {e : Exc} {fault : Option Exc}
  {unlinked : String → Unlinked} {motive : MessagePc → Prop}

/-- The handler of the media failures sends an error, unless a removal raises through it. -/
theorem mediaFailed_cases (raised : ∀ e, motive (.raised e))
    (error : ∀ reason, motive (yieldLast (.error reason))) : motive (mediaFailed messageId w e unlinked).2 := by
  unfold mediaFailed
  dsimp only
  split
  · exact raised _
  · exact error _

/-- The text to synthesize is the one that is passed in. -/
theorem selectRef_text {finalText : String} {speech : Speech} (h : selectRef H w finalText = .ok speech) :
    speech.text = finalText := by
  unfold selectRef at h
  dsimp only at h
  split at h
  · rename_i file _ _
    cases hread : readText H file.content with
    | error e => rw [hread] at h; cases h
    | ok text => rw [hread] at h; cases h; rfl
  · cases h

/-- A crisis is logged, and anything else is answered. -/
theorem inputGuard_cases {userText : String}
    (crisis : (checkCrisis H.unicode userText).matched = true →
      motive (.loggingCrisis (checkCrisis H.unicode userText).matchedKeyword false))
    (calm : (checkCrisis H.unicode userText).matched = false →
      motive (.streaming ⟨userText, trimHistory historyMaxChars historyMaxMessages w.session.history, []⟩)) :
    motive (inputGuard H w userText) := by
  unfold inputGuard
  dsimp only
  split
  · exact crisis ‹_›
  · exact calm (Bool.eq_false_iff.mpr ‹_›)

/-- A matched response is logged, and any other one is sent as it is, without the blanks around it. -/
theorem outputGuard_cases {reply : Reply}
    (forbidden : (filterResponse H.unicode (strip (String.join reply.parts))).matched = true →
      motive (.loggingForbidden reply.userText false))
    (textDone : (filterResponse H.unicode (strip (String.join reply.parts))).matched = false →
      motive (yieldTextDone messageId reply.userText (strip (String.join reply.parts)))) :
    motive (outputGuard H messageId reply) := by
  unfold outputGuard
  dsimp only
  rw [filterResponse_text]
  split
  · exact forbidden ‹_›
  · exact textDone (Bool.eq_false_iff.mpr ‹_›)

/-- Where the output guard leads. -/
theorem outputGuard_place {reply : Reply} :
    (∃ userText, outputGuard H messageId reply = .loggingForbidden userText false) ∨
      ∃ userText text, outputGuard H messageId reply = yieldTextDone messageId userText text :=
  outputGuard_cases (motive := fun pc => (∃ userText, pc = .loggingForbidden userText false) ∨
    ∃ userText text, pc = yieldTextDone messageId userText text) (fun _ => .inl ⟨_, rfl⟩) fun _ => .inr ⟨_, _, rfl⟩

section
variable {motive : MessageWorld × MessagePc → Prop}

/-- After `text_done`: the folder cannot be made, the handler runs, or the TTS is next. -/
theorem prepareSpeech_out {userText finalText : String} {a : AfterTextDone}
    (unbound : ∀ e, motive (w.appendHistory userText finalText a.now, .raised e))
    (failed : ∀ e, motive (mediaFailed messageId
      ((w.appendHistory userText finalText a.now).onFiles fun fs => fs.mkdir w.speakDir) e a.unlinked))
    (speech : ∀ speech : Speech, speech.text = finalText →
      motive ((w.appendHistory userText finalText a.now).onFiles fun fs => fs.mkdir w.speakDir, .waitingGpu speech)) :
    motive (prepareSpeech H messageId w userText finalText a) := by
  unfold prepareSpeech
  dsimp only
  split
  · exact unbound _
  · split
    · exact failed _
    · split
      · rename_i hspeech
        exact speech _ (selectRef_text hspeech)
      · exact failed _

/-- After the TTS: the handler runs, or Ditto is next, with the photo that was chosen. -/
theorem pickSpeakPhoto_out (failed : ∀ e, motive (mediaFailed messageId w e unlinked))
    (photo : ∀ photo, fault = none → w.persona.files.newestIn .photo = some photo → motive (w, .waitingDitto photo)) :
    motive (pickSpeakPhoto H messageId w fault unlinked) := by
  unfold pickSpeakPhoto
  split
  · exact failed _
  · split
    · rename_i hp
      exact photo _ rfl hp
    · exact failed _

/-- After Ditto: the handler runs, or the message is ready. -/
theorem finishSpeech_out {wav : Unlinked} (failed : ∀ e, motive (mediaFailed messageId w e unlinked))
    (ready : motive (w, yieldMediaReady messageId w)) : motive (finishSpeech messageId w wav unlinked) := by
  unfold finishSpeech
  split
  · exact failed _
  · exact ready

end

theorem prepareSpeech_cases {userText finalText : String} {a : AfterTextDone} (raised : ∀ e, motive (.raised e))
    (error : ∀ reason, motive (yieldLast (.error reason)))
    (speech : ∀ speech : Speech, speech.text = finalText → motive (.waitingGpu speech)) :
    motive (prepareSpeech H messageId w userText finalText a).2 :=
  prepareSpeech_out (motive := fun out => motive out.2) raised (fun _ => mediaFailed_cases raised error) speech

theorem pickSpeakPhoto_cases (raised : ∀ e, motive (.raised e))
    (error : ∀ reason, motive (yieldLast (.error reason)))
    (photo : ∀ photo, fault = none → w.persona.files.newestIn .photo = some photo → motive (.waitingDitto photo)) :
    motive (pickSpeakPhoto H messageId w fault unlinked).2 :=
  pickSpeakPhoto_out (motive := fun out => motive out.2) (fun _ => mediaFailed_cases raised error) photo

theorem finishSpeech_cases {wav : Unlinked} (raised : ∀ e, motive (.raised e))
    (error : ∀ reason, motive (yieldLast (.error reason))) (ready : motive (yieldMediaReady messageId w)) :
    motive (finishSpeech messageId w wav unlinked).2 :=
  finishSpeech_out (motive := fun out => motive out.2) (fun _ => mediaFailed_cases raised error) ready

end

/-! ## What a message touches -/

/-- A change that keeps the identity of the session, every folder but its own, and leaves nothing running
but in its own folder. -/
structure MessageFrame (w w' : MessageWorld) : Prop where
  sessionId : w'.session.sessionId = w.session.sessionId
  personaId : w'.session.personaId = w.session.personaId
  files : ∀ f, f ≠ w.speakDir → w'.persona.files.dir f = w.persona.files.dir f
  orphans : ∀ o ∈ w'.persona.orphans, o ∈ w.persona.orphans ∨ o.folder = some w.speakDir

section
variable {H : Host} {messageId : Uuid} {w w' w'' : MessageWorld} {pc pc' : MessagePc}

theorem MessageFrame.refl (w : MessageWorld) : MessageFrame w w :=
  ⟨rfl, rfl, fun _ _ => rfl, fun _ ho => .inl ho⟩

theorem MessageFrame.trans (h : MessageFrame w w') (h' : MessageFrame w' w'') : MessageFrame w w'' := by
  have hdir : w'.speakDir = w.speakDir := congrArg Folder.speak h.sessionId
  refine ⟨h'.sessionId.trans h.sessionId, h'.personaId.trans h.personaId, fun f hf => ?_, fun o ho => ?_⟩
  · rw [h'.files f (hdir ▸ hf), h.files f hf]
  · rcases h'.orphans o ho with ho | ho
    · exact h.orphans o ho
    · exact .inr (hdir ▸ ho)

theorem messageFrame_mkdir : MessageFrame w (w.onFiles fun fs => fs.mkdir w.speakDir) :=
  ⟨rfl, rfl, fun _ hf => Files.dir_mkdir_of_ne hf, fun _ ho => .inl ho⟩

theorem messageFrame_modify {g : Dir → Dir} :
    MessageFrame w (w.onFiles fun fs => fs.modify w.speakDir g) :=
  ⟨rfl, rfl, fun _ hf => Files.dir_modify_of_ne hf, fun _ ho => .inl ho⟩

theorem messageFrame_leave {o : Orphan} (ho : o.folder = some w.speakDir) :
    MessageFrame w (w.leave o) := by
  refine ⟨rfl, rfl, fun _ _ => rfl, fun o' ho' => ?_⟩
  rcases PersonaWorld.mem_leave.mp ho' with ho' | rfl
  · exact .inl ho'
  · exact .inr ho

theorem messageFrame_mediaFailed {e : Exc} {unlinked : String → Unlinked} :
    MessageFrame w (mediaFailed messageId w e unlinked).1 :=
  messageFrame_modify

theorem messageFrame_prepareSpeech {userText finalText : String} {a : AfterTextDone} :
    MessageFrame w (prepareSpeech H messageId w userText finalText a).1 := by
  have happend : MessageFrame w (w.appendHistory userText finalText a.now) :=
    ⟨rfl, rfl, fun _ _ => rfl, fun _ ho => .inl ho⟩
  have hmkdir := happend.trans messageFrame_mkdir
  exact prepareSpeech_out (motive := fun out => MessageFrame w out.1) (fun _ => happend)
    (fun _ => hmkdir.trans messageFrame_mediaFailed) fun _ _ => hmkdir

theorem messageFrame_pickSpeakPhoto {fault : Option Exc} {unlinked : String → Unlinked} :
    MessageFrame w (pickSpeakPhoto H messageId w fault unlinked).1 :=
  pickSpeakPhoto_out (motive := fun out => MessageFrame w out.1) (fun _ => messageFrame_mediaFailed)
    fun _ _ _ => .refl w

theorem messageFrame_speakRendered {photo : Picked} {o : Output} {wav : Unlinked} :
    MessageFrame w (speakRendered messageId w photo o wav) := by
  refine ⟨rfl, rfl, fun f hf => ?_, fun _ ho => .inl ho⟩
  have hwritten : ((w.persona.files.unlink w.speakDir (mp4Name messageId ++ ".tmp.mp4")).write w.speakDir
      (mp4Name messageId) ⟨o.now, o.content, .render photo true⟩).dir f = w.persona.files.dir f :=
    (Files.dir_modify_of_ne hf).trans (Files.dir_modify_of_ne hf)
  show (Files.dir (if wav = .removed then _ else _) f) = _
  split
  · exact (Files.dir_modify_of_ne hf).trans hwritten
  · exact hwritten

theorem messageFrame_finishSpeech {wav : Unlinked} {unlinked : String → Unlinked} :
    MessageFrame w (finishSpeech messageId w wav unlinked).1 :=
  finishSpeech_out (motive := fun out => MessageFrame w out.1) (fun _ => messageFrame_mediaFailed) (.refl w)

theorem messageFrame_speakFailed {started : Bool} {removed : String → Bool} :
    MessageFrame w (speakFailed messageId w started removed) := by
  unfold speakFailed
  split
  · exact messageFrame_modify
  · exact .refl w

theorem MessageBodyStep.frame {ev : MessageEvent} {out : MessageWorld × MessagePc}
    (h : MessageBodyStep H messageId w pc ev out) : MessageFrame w out.1 := by
  cases h with
  | logCrisis | logForbidden => exact ⟨rfl, rfl, fun _ _ => rfl, fun _ ho => .inl ho⟩
  | speech => exact messageFrame_prepareSpeech
  | speechFolder | acquireDitto | renderFolder => exact messageFrame_mkdir
  | speechOutput | renderOutput => exact messageFrame_modify
  | synthesized => exact .trans messageFrame_modify messageFrame_pickSpeakPhoto
  | synthesizeFailed | folderFailed => exact messageFrame_mediaFailed
  | rendered => exact messageFrame_speakRendered.trans messageFrame_finishSpeech
  | renderFailed => exact messageFrame_speakFailed.trans messageFrame_mediaFailed
  | _ => exact .refl w

/-- The world has the session and the orphans of another one. -/
def MessageWorld.Keeps (w w' : MessageWorld) : Prop :=
  w'.session = w.session ∧ w'.persona.orphans = w.persona.orphans

/-- Both records are in the history, wherever the message goes, and nothing is left running. -/
theorem prepareSpeech_frame {userText finalText : String} {a : AfterTextDone} :
    (w.appendHistory userText finalText a.now).Keeps (prepareSpeech H messageId w userText finalText a).1 :=
  prepareSpeech_out (motive := fun out => (w.appendHistory userText finalText a.now).Keeps out.1) (fun _ => ⟨rfl, rfl⟩)
    (fun _ => ⟨rfl, rfl⟩) fun _ _ => ⟨rfl, rfl⟩

theorem pickSpeakPhoto_frame {fault : Option Exc} {unlinked : String → Unlinked} :
    w.Keeps (pickSpeakPhoto H messageId w fault unlinked).1 :=
  pickSpeakPhoto_out (motive := fun out => w.Keeps out.1) (fun _ => ⟨rfl, rfl⟩) fun _ _ _ => ⟨rfl, rfl⟩

theorem finishSpeech_frame {wav : Unlinked} {unlinked : String → Unlinked} :
    w.Keeps (finishSpeech messageId w wav unlinked).1 :=
  finishSpeech_out (motive := fun out => w.Keeps out.1) (fun _ => ⟨rfl, rfl⟩) ⟨rfl, rfl⟩

theorem speakFailed_frame {started : Bool} {removed : String → Bool} :
    w.Keeps (speakFailed messageId w started removed) := by
  unfold speakFailed
  split <;> exact ⟨rfl, rfl⟩

/-- An interruption leaves the session alone. -/
theorem MessageInterrupted.session {ev : MessageEvent} {out : MessageWorld × MessagePc}
    (h : MessageInterrupted messageId w pc ev out) : out.1.session = w.session := by
  cases h with
  | synthesizing | rendering => dsimp only; split <;> rfl
  | _ => rfl

theorem MessageInterrupted.responds {ev : MessageEvent} {out : MessageWorld × MessagePc}
    (h : MessageInterrupted messageId w pc ev out) : YeounEngine.responds ev pc = none := by
  cases h <;> rfl

/-- A message writes to its session when its consumer goes on behind `text_done`, and only then. -/
theorem messageStep_session {ev : MessageEvent} {out : MessageWorld × MessagePc}
    (h : messageStep H messageId w pc ev = some out) : responds ev pc = none ∧ out.1.session = w.session ∨
      ∃ sent userText finalText a, pc = .yielded sent (.textDone userText finalText) ∧ ev = .pull a ∧
        out.1.session = (w.appendHistory userText finalText a.now).session := by
  rcases messageStep_cases h with h | h
  · cases h with
    | speech => exact .inr ⟨_, _, _, _, rfl, rfl, prepareSpeech_frame.1⟩
    | synthesized => exact .inl ⟨rfl, pickSpeakPhoto_frame.1⟩
    | renderFailed => exact .inl ⟨rfl, speakFailed_frame.1⟩
    | rendered => exact .inl ⟨rfl, finishSpeech_frame.1⟩
    | _ => exact .inl ⟨rfl, rfl⟩
  · exact .inl ⟨h.responds, h.session⟩

/-- Whether it succeeds or fails, a message leaves nothing running. -/
theorem MessageBodyStep.orphans {ev : MessageEvent} {out : MessageWorld × MessagePc}
    (h : MessageBodyStep H messageId w pc ev out) : out.1.persona.orphans = w.persona.orphans := by
  cases h with
  | speech => exact prepareSpeech_frame.2
  | synthesized => exact pickSpeakPhoto_frame.2
  | renderFailed => exact speakFailed_frame.2
  | rendered => exact finishSpeech_frame.2
  | _ => rfl

/-- A message touches its session and the folder of that session only. -/
theorem messageStep_frame {ev : MessageEvent}
    (h : messageStep H messageId w pc ev = some (w', pc')) : MessageFrame w w' := by
  rcases messageStep_cases h with h | h
  · exact h.frame
  · cases h with
    | synthesizing =>
      split
      · exact messageFrame_leave rfl
      · exact .refl _
    | rendering =>
      split
      · exact messageFrame_speakFailed.trans (messageFrame_leave rfl)
      · exact .refl _
    | _ => exact .refl _

end

end YeounEngine
