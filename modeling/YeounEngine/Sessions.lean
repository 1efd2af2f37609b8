import YeounEngine.Conversation
import YeounEngine.Personas
import YeounEngine.Lib.Sync

/-!
# The session routes

The handlers of `app/routers/sessions.py` and the store they share, `app/sessions/store.py`:
`start_session`, `post_message` with the generator that streams its response, and `end_session`. Each is
a state machine like the persona routes. A session is an object that handlers hold references to, so it
outlives its entry in the store: `sessions` has every session that was created, and `stored` the keys
of the store.

`serviceSystem` interleaves any number of requests of all routes, on any personas and sessions, with the
sweeps of the store and with left-over work. Runs and messages share the two semaphores of
`ModelRegistry`.
-/

namespace YeounEngine

/-! ## The state of the service -/

/-- A session object: its data and its lock. -/
structure Session where
  state : SessionState
  lock : FifoLock
  deriving DecidableEq

/-- `GPU_CONCURRENCY`, the permits of `gpu_semaphore` and of `ditto_semaphore`. -/
def gpuConcurrency : Nat := 1

/-- Everything that requests share. `tmpFiles` are the `msg_*` files, by the index of the request that
made each; `gpu` and `ditto` are the free permits. -/
structure ServiceWorld where
  personas : Uuid → PersonaWorld
  sessions : Uuid → Option Session
  stored : List Uuid
  activeMessages : Int
  tmpFiles : List Nat
  safetyLogs : List SafetyLog
  gpu : Nat
  ditto : Nat

namespace ServiceWorld

def onPersona (w : ServiceWorld) (id : Uuid) (p : PersonaWorld) : ServiceWorld :=
  { w with personas := Function.update w.personas id p }

def onSession (w : ServiceWorld) (sid : Uuid) (g : Session → Session) : ServiceWorld :=
  { w with sessions := Function.update w.sessions sid ((w.sessions sid).map g) }

/-- `SessionStore.get`. -/
def get (w : ServiceWorld) (sid : Uuid) : Option Session :=
  if sid ∈ w.stored then w.sessions sid else none

/-- `SessionStore.create`, of a new object. -/
def create (w : ServiceWorld) (s : SessionState) : ServiceWorld :=
  { w with
    sessions := Function.update w.sessions s.sessionId (some ⟨s, .free⟩)
    stored := w.stored ++ [s.sessionId] }

/-- `SessionStore.end`: the entry is removed. -/
def pop (w : ServiceWorld) (sid : Uuid) : ServiceWorld :=
  { w with stored := w.stored.filter (· ≠ sid) }

/-- `_DEFAULT_TTL_SECONDS`. -/
def ttlSeconds : Nat := 30 * 60

/-- `_sweep_once`: the entries that have not been active for the time to live. -/
def sweepOnce (w : ServiceWorld) (now : Nat) : ServiceWorld :=
  { w with stored := w.stored.filter fun sid =>
      (w.sessions sid).all fun s => now ≤ s.state.lastActivityAt + ttlSeconds }

/-- A task asks for the lock of the session. -/
def enterLock (w : ServiceWorld) (sid : Uuid) (i : Nat) : ServiceWorld :=
  w.onSession sid fun s => { s with lock := s.lock.enter i }

/-- A task releases the lock of the session, or stops waiting for it. -/
def leaveLock (w : ServiceWorld) (sid : Uuid) (i : Nat) : ServiceWorld :=
  w.onSession sid fun s => { s with lock := s.lock.leave i }

/-- It is the turn of the task. -/
def turn (w : ServiceWorld) (sid : Uuid) (i : Nat) : Bool :=
  (w.sessions sid).any fun s => s.lock.turn i

/-- `_active_messages += 1`, and the reverse. -/
def takeSlot (w : ServiceWorld) : ServiceWorld := { w with activeMessages := w.activeMessages + 1 }

def freeSlot (w : ServiceWorld) : ServiceWorld := { w with activeMessages := w.activeMessages - 1 }

/-- The temporary file of request `i` is made, unless that fails. -/
def makeTmp (w : ServiceWorld) (i : Nat) (made : Bool) : ServiceWorld :=
  { w with tmpFiles := if made then w.tmpFiles ++ [i] else w.tmpFiles }

/-- It is removed, unless that fails. -/
def unlinkTmp (w : ServiceWorld) (i : Nat) (unlinked : Bool) : ServiceWorld :=
  { w with tmpFiles := if unlinked then w.tmpFiles.filter (· ≠ i) else w.tmpFiles }

end ServiceWorld

/-- `404 NOT_FOUND` of the session routes. -/
def sessionNotFound (sid : Uuid) : HttpError :=
  ⟨404, "NOT_FOUND", "세션을 찾을 수 없습니다: " ++ sid.str⟩

/-! ## Start -/

/-- The check of `start_session`, on the row it has read: the error, if any. -/
def startable (id : Uuid) : Option Status → Option HttpError
  | none => some (personaNotFound id)
  | some .ready => none
  | some status =>
    some ⟨409, "CONFLICT", "페르소나가 READY 상태가 아닙니다 (status=" ++ status.str ++ ")."⟩

/-- Where a `/start` is; `reading` awaits the interviews. -/
inductive StartPc
  | getting (row : Option (Option Status))
  | reading
  | done (response : Except HttpError Uuid)
  | cancelled

inductive StartEvent
  | select
  | resume
  | created (sessionId : Uuid) (systemPrompt : String) (now : Nat)
  | fail (e : Exc)
  | cancel

/-- One step of `start_session`. The id of the session is new. -/
def startStep (w : ServiceWorld) (personaId userId : Uuid) :
    StartPc → StartEvent → Option (ServiceWorld × StartPc)
  | .getting none, .select => some (w, .getting (some (w.personas personaId).row))
  | .getting (some row), .resume =>
    match startable personaId row with
    | some e => some (w, .done (.error e))
    | none => some (w, .reading)
  | .reading, .created sid systemPrompt now =>
    if (w.sessions sid).isNone then
      some (w.create ⟨sid, userId, personaId, systemPrompt, now, now, []⟩, .done (.ok sid))
    else none
  | .getting _, .fail _ | .reading, .fail _ => some (w, .done (.error internalError))
  | .getting _, .cancel | .reading, .cancel => some (w, .cancelled)
  | _, _ => none

/-- What a `/start` can do, one constructor for each arm of `startStep`. -/
inductive StartStep (w : ServiceWorld) (personaId userId : Uuid) :
    StartPc → StartEvent → ServiceWorld × StartPc → Prop
  | select : StartStep w personaId userId (.getting none) .select
      (w, .getting (some (w.personas personaId).row))
  | refused {row e} (hg : startable personaId row = some e) :
      StartStep w personaId userId (.getting (some row)) .resume (w, .done (.error e))
  | passed {row} (hg : startable personaId row = none) :
      StartStep w personaId userId (.getting (some row)) .resume (w, .reading)
  | created {sid systemPrompt now} (hnew : w.sessions sid = none) :
      StartStep w personaId userId .reading (.created sid systemPrompt now)
        (w.create ⟨sid, userId, personaId, systemPrompt, now, now, []⟩, .done (.ok sid))
  | getFailed {row e} : StartStep w personaId userId (.getting row) (.fail e)
      (w, .done (.error internalError))
  | readFailed {e} : StartStep w personaId userId .reading (.fail e) (w, .done (.error internalError))
  | cancelGetting {row} : StartStep w personaId userId (.getting row) .cancel (w, .cancelled)
  | cancelReading : StartStep w personaId userId .reading .cancel (w, .cancelled)

/-- Inversion of a `/start`. -/
theorem startStep_inv {w : ServiceWorld} {personaId userId : Uuid} {pc : StartPc} {ev : StartEvent}
    {out : ServiceWorld × StartPc} (h : startStep w personaId userId pc ev = some out) :
    StartStep w personaId userId pc ev out := by
  unfold startStep at h
  split at h
  all_goals first
    | (cases h; done)
    | (cases h; constructor)
    | skip
  · split at h <;> rename_i hg <;> cases h
    · exact .refused hg
    · exact .passed hg
  · split at h <;> cases h
    rename_i hnew
    exact .created (Option.isNone_iff_eq_none.mp hnew)

/-! ## Messages -/

/-- `_MAX_CONCURRENT_MESSAGES`. -/
def maxConcurrentMessages : Nat := 5

def tooManyRequests : HttpError :=
  ⟨503, "TOO_MANY_REQUESTS", "동시 처리 한도 " ++ toString maxConcurrentMessages ++
    " 초과. Retry-After 후 재시도."⟩

/-- Where a `/message` is. From `responded` on it is the generator of the response, before its first
pull; in `releasing` and `finished` the message may still have a stream to finalise. -/
inductive PostPc
  | arrived
  | admitting
  | reading
  | closing
  | rollback
  | responded
  | locking
  | inside (pc : MessagePc)
  | releasing (pc : MessagePc)
  | rejected (e : HttpError)
  | cancelled
  | dropped
  | finished (pc : MessagePc)
  deriving DecidableEq

/-- What happens at an `await` or a `yield` of a `/message`. `unlinked` is whether the temporary file
could be removed, if the step removes it. -/
inductive PostEvent
  | enter
  | reserve (fault : Option Exc) (tmp : Bool)
  | read (fault : Option Exc)
  | resume
  | counter
  | pull
  | drop
  | granted
  | message (e : MessageEvent) (unlinked : Bool)
  | fail (e : Exc)
  | cancel (unlinked : Bool)

/-- The message goes no further: it is over, or closed at a token. -/
def MessagePc.left (pc : MessagePc) : Bool := pc.ended || pc = .abandoned

/-- What a message of the session sees. -/
def ServiceWorld.messageWorld (w : ServiceWorld) (s : Session) : MessageWorld :=
  ⟨w.personas s.state.personaId, s.state, w.safetyLogs⟩

/-- What a message of the session has changed. -/
def ServiceWorld.onMessage (w : ServiceWorld) (sid personaId : Uuid) (m : MessageWorld) :
    ServiceWorld :=
  { (w.onPersona personaId m.persona).onSession sid (fun s => { s with state := m.session }) with
    safetyLogs := m.safetyLogs }

/-- The end of the `async with session.lock` and the file of the `finally`. -/
def ServiceWorld.leaveMessage (w : ServiceWorld) (sid : Uuid) (i : Nat) (unlinked : Bool) :
    ServiceWorld :=
  (w.leaveLock sid i).unlinkTmp i unlinked

/-- A step of `process_message` in the generator. When the message is over, the lock is released and the
file removed. -/
def inMessage (w : ServiceWorld) (i : Nat) (sid : Uuid) (s : Session) (unlinked : Bool)
    (out : MessageWorld × MessagePc) : ServiceWorld × PostPc :=
  let w := w.onMessage sid s.state.personaId out.1
  if out.2.left then (w.leaveMessage sid i unlinked, .releasing out.2) else (w, .inside out.2)

/-- One step of `post_message` and of its generator. The counter lock is never held over an `await`, so
what it guards is one step. -/
def postStep (H : Host) (w : ServiceWorld) (i : Nat) (sid messageId : Uuid) :
    PostPc → PostEvent → Option (ServiceWorld × PostPc)
  | .arrived, .enter =>
    match w.get sid with
    | none => some (w, .rejected (sessionNotFound sid))
    | some _ => some (w, .admitting)
  | .admitting, .reserve fault tmp =>
    if (maxConcurrentMessages : Int) ≤ w.activeMessages then some (w, .rejected tooManyRequests)
    else match fault with
      | none => some (w.takeSlot.makeTmp i true, .reading)
      | some _ => some (w.takeSlot.makeTmp i tmp, .rollback)
  | .reading, .read none => some (w, .closing)
  | .reading, .read (some _) | .reading, .fail _ | .closing, .fail _ => some (w, .rollback)
  | .closing, .resume => some (w, .responded)
  | .rollback, .counter => some (w.freeSlot, .rejected internalError)
  | .responded, .pull => some (w.enterLock sid i, .locking)
  | .responded, .drop => some (w, .dropped)
  | .locking, .granted => if w.turn sid i then some (w, .inside .created) else none
  | .inside pc, .message e unlinked => (w.sessions sid).bind fun s =>
    (messageStep H messageId (w.messageWorld s) pc e).map fun out =>
      inMessage w i sid s unlinked out
  | .releasing pc, .counter => some (w.freeSlot, .finished pc)
  -- the stream of a message that was closed at a token
  | .releasing .abandoned, .message .streamEnd _ => some (w, .releasing .cancelled)
  | .finished .abandoned, .message .streamEnd _ => some (w, .finished .cancelled)
  | .admitting, .cancel _ | .reading, .cancel _ | .closing, .cancel _ | .rollback, .cancel _ =>
    some (w, .cancelled)
  | .locking, .cancel unlinked => some (w.leaveMessage sid i unlinked, .releasing .cancelled)
  | .releasing pc, .cancel _ => some (w, .finished pc)
  | _, _ => none

/-- What a `/message` can do, one constructor for each arm of `postStep`; a step of the message ends it
or not. -/
inductive PostStep (H : Host) (w : ServiceWorld) (i : Nat) (sid messageId : Uuid) :
    PostPc → PostEvent → ServiceWorld × PostPc → Prop
  | unknown (hs : w.get sid = none) : PostStep H w i sid messageId .arrived .enter
      (w, .rejected (sessionNotFound sid))
  | known {s} (hs : w.get sid = some s) : PostStep H w i sid messageId .arrived .enter
      (w, .admitting)
  | full {fault tmp} (hf : (maxConcurrentMessages : Int) ≤ w.activeMessages) :
      PostStep H w i sid messageId .admitting (.reserve fault tmp) (w, .rejected tooManyRequests)
  | reserve {tmp} (hf : ¬ (maxConcurrentMessages : Int) ≤ w.activeMessages) :
      PostStep H w i sid messageId .admitting (.reserve none tmp)
        (w.takeSlot.makeTmp i true, .reading)
  | admitFailed {e tmp} (hf : ¬ (maxConcurrentMessages : Int) ≤ w.activeMessages) :
      PostStep H w i sid messageId .admitting (.reserve (some e) tmp)
        (w.takeSlot.makeTmp i tmp, .rollback)
  | read : PostStep H w i sid messageId .reading (.read none) (w, .closing)
  | readFailed {e} : PostStep H w i sid messageId .reading (.read (some e)) (w, .rollback)
  | readRaised {e} : PostStep H w i sid messageId .reading (.fail e) (w, .rollback)
  | closeRaised {e} : PostStep H w i sid messageId .closing (.fail e) (w, .rollback)
  | closed : PostStep H w i sid messageId .closing .resume (w, .responded)
  | rolledBack : PostStep H w i sid messageId .rollback .counter
      (w.freeSlot, .rejected internalError)
  | pull : PostStep H w i sid messageId .responded .pull (w.enterLock sid i, .locking)
  | drop : PostStep H w i sid messageId .responded .drop (w, .dropped)
  | granted (ht : w.turn sid i = true) : PostStep H w i sid messageId .locking .granted
      (w, .inside .created)
  | message {pc e unlinked s m pc'} (hs : w.sessions sid = some s)
      (hm : messageStep H messageId (w.messageWorld s) pc e = some (m, pc'))
      (hl : pc'.left = false) :
      PostStep H w i sid messageId (.inside pc) (.message e unlinked)
        (w.onMessage sid s.state.personaId m, .inside pc')
  | messageLeft {pc e unlinked s m pc'} (hs : w.sessions sid = some s)
      (hm : messageStep H messageId (w.messageWorld s) pc e = some (m, pc'))
      (hl : pc'.left = true) :
      PostStep H w i sid messageId (.inside pc) (.message e unlinked)
        ((w.onMessage sid s.state.personaId m).leaveMessage sid i unlinked, .releasing pc')
  | released {pc} : PostStep H w i sid messageId (.releasing pc) .counter (w.freeSlot, .finished pc)
  | finaliseReleasing {unlinked} : PostStep H w i sid messageId (.releasing .abandoned)
      (.message .streamEnd unlinked) (w, .releasing .cancelled)
  | finaliseFinished {unlinked} : PostStep H w i sid messageId (.finished .abandoned)
      (.message .streamEnd unlinked) (w, .finished .cancelled)
  | cancelAdmitting {unlinked} : PostStep H w i sid messageId .admitting (.cancel unlinked)
      (w, .cancelled)
  | cancelReading {unlinked} : PostStep H w i sid messageId .reading (.cancel unlinked)
      (w, .cancelled)
  | cancelClosing {unlinked} : PostStep H w i sid messageId .closing (.cancel unlinked)
      (w, .cancelled)
  | cancelRollback {unlinked} : PostStep H w i sid messageId .rollback (.cancel unlinked)
      (w, .cancelled)
  | cancelLocking {unlinked} : PostStep H w i sid messageId .locking (.cancel unlinked)
      (w.leaveMessage sid i unlinked, .releasing .cancelled)
  | cancelReleasing {pc unlinked} : PostStep H w i sid messageId (.releasing pc) (.cancel unlinked)
      (w, .finished pc)

/-- Inversion of a `/message`. -/
theorem postStep_inv {H : Host} {w : ServiceWorld} {i : Nat} {sid messageId : Uuid} {pc : PostPc}
    {ev : PostEvent} {out : ServiceWorld × PostPc}
    (h : postStep H w i sid messageId pc ev = some out) : PostStep H w i sid messageId pc ev out := by
  unfold postStep at h
  split at h
  all_goals first
    | (cases h; done)
    | (cases h; constructor)
    | skip
  case h_1 =>
    split at h <;> rename_i hs <;> cases h
    · exact .unknown hs
    · exact .known hs
  case h_2 =>
    split at h
    · rename_i hf; cases h; exact .full hf
    · rename_i hf
      split at h <;> cases h
      · exact .reserve hf
      · exact .admitFailed hf
  case h_11 =>
    split at h
    · rename_i ht; cases h; exact .granted ht
    · cases h
  case h_12 =>
    obtain ⟨s, hs, h⟩ := Option.bind_eq_some_iff.mp h
    obtain ⟨⟨m, pc'⟩, hm, rfl⟩ := Option.map_eq_some_iff.mp h
    unfold inMessage
    cases hl : pc'.left with
    | false => exact .message hs hm hl
    | true => exact .messageLeft hs hm hl

/-! ## End -/

/-- Where an `/end` is; `rmtree` awaits the removal of the folder, with the lock. -/
inductive EndPc
  | arrived
  | locking
  | rmtree
  | done (response : Except HttpError Nat)
  | cancelled

inductive EndEvent
  | enter
  | granted
  | remove (keep : String → Bool)
  | apply
  | resume
  | fail (e : Exc)
  | cancel

/-- With the lock: the session leaves the store, and its folder is removed if there is one. -/
def endGranted (w : ServiceWorld) (i : Nat) (sid : Uuid) : Option (ServiceWorld × EndPc) :=
  match w.get sid with
  | none => some (w.leaveLock sid i, .done (.error (sessionNotFound sid)))
  | some s =>
    let w := w.pop sid
    if ((w.personas s.state.personaId).files.dir (.speak sid)).isSome then some (w, .rmtree)
    else some (w.leaveLock sid i, .done (.ok s.state.history.length))

/-- A change to the persona of the session. -/
def ServiceWorld.onSessionPersona (w : ServiceWorld) (sid : Uuid) (g : PersonaWorld → PersonaWorld) :
    ServiceWorld :=
  { w with personas := (w.sessions sid).elim w.personas fun s =>
      Function.update w.personas s.state.personaId (g (w.personas s.state.personaId)) }

/-- The files of the folder that a partial removal leaves. -/
def keepSpeak (sid : Uuid) (keep : String → Bool) (p : PersonaWorld) : PersonaWorld :=
  p.onFiles fun fs => fs.keeping fun f name => f ≠ .speak sid || keep name

/-- One step of `end_session`. `shutil.rmtree` ignores errors, so it may end with files left. -/
def endStep (w : ServiceWorld) (i : Nat) (sid : Uuid) :
    EndPc → EndEvent → Option (ServiceWorld × EndPc)
  | .arrived, .enter =>
    match w.get sid with
    | none => some (w, .done (.error (sessionNotFound sid)))
    | some _ => some (w.enterLock sid i, .locking)
  | .locking, .granted => if w.turn sid i then endGranted w i sid else none
  | .rmtree, .remove keep => some (w.onSessionPersona sid (keepSpeak sid keep), .rmtree)
  | .rmtree, .apply =>
    some (w.onSessionPersona sid fun p => p.onFiles fun fs => fs.rmdir (.speak sid), .rmtree)
  | .rmtree, .resume => (w.sessions sid).map fun s =>
    (w.leaveLock sid i, .done (.ok s.state.history.length))
  | .rmtree, .fail _ => some (w.leaveLock sid i, .done (.error internalError))
  | .locking, .cancel => some (w.leaveLock sid i, .cancelled)
  | .rmtree, .cancel =>
    some ((w.onSessionPersona sid fun p => p.leave (.rmtree (some (.speak sid)))).leaveLock sid i,
      .cancelled)
  | _, _ => none

/-- What an `/end` can do, one constructor for each arm of `endStep`. -/
inductive EndStep (w : ServiceWorld) (i : Nat) (sid : Uuid) :
    EndPc → EndEvent → ServiceWorld × EndPc → Prop
  | unknown (hs : w.get sid = none) : EndStep w i sid .arrived .enter
      (w, .done (.error (sessionNotFound sid)))
  | known {s} (hs : w.get sid = some s) : EndStep w i sid .arrived .enter
      (w.enterLock sid i, .locking)
  | gone (ht : w.turn sid i = true) (hs : w.get sid = none) : EndStep w i sid .locking .granted
      (w.leaveLock sid i, .done (.error (sessionNotFound sid)))
  | popped {s} (ht : w.turn sid i = true) (hs : w.get sid = some s)
      (hd : ((w.personas s.state.personaId).files.dir (.speak sid)).isSome = true) :
      EndStep w i sid .locking .granted (w.pop sid, .rmtree)
  | poppedEmpty {s} (ht : w.turn sid i = true) (hs : w.get sid = some s)
      (hd : ((w.personas s.state.personaId).files.dir (.speak sid)).isSome = false) :
      EndStep w i sid .locking .granted
        ((w.pop sid).leaveLock sid i, .done (.ok s.state.history.length))
  | remove {keep} : EndStep w i sid .rmtree (.remove keep)
      (w.onSessionPersona sid (keepSpeak sid keep), .rmtree)
  | apply : EndStep w i sid .rmtree .apply
      (w.onSessionPersona sid fun p => p.onFiles fun fs => fs.rmdir (.speak sid), .rmtree)
  | removed {s} (hs : w.sessions sid = some s) : EndStep w i sid .rmtree .resume
      (w.leaveLock sid i, .done (.ok s.state.history.length))
  | removeFailed {e} : EndStep w i sid .rmtree (.fail e)
      (w.leaveLock sid i, .done (.error internalError))
  | cancelLocking : EndStep w i sid .locking .cancel (w.leaveLock sid i, .cancelled)
  | cancelRemoving : EndStep w i sid .rmtree .cancel
      ((w.onSessionPersona sid fun p => p.leave (.rmtree (some (.speak sid)))).leaveLock sid i,
        .cancelled)

/-- Inversion of an `/end`. -/
theorem endStep_inv {w : ServiceWorld} {i : Nat} {sid : Uuid} {pc : EndPc} {ev : EndEvent}
    {out : ServiceWorld × EndPc} (h : endStep w i sid pc ev = some out) : EndStep w i sid pc ev out := by
  unfold endStep at h
  split at h
  all_goals first
    | (cases h; done)
    | (cases h; constructor)
    | skip
  case h_1 =>
    split at h <;> rename_i hs <;> cases h
    · exact .unknown hs
    · exact .known hs
  case h_2 =>
    split at h
    · rename_i ht
      unfold endGranted at h
      split at h
      · rename_i hs; cases h; exact .gone ht hs
      · rename_i s hs
        dsimp only at h
        split at h
        · rename_i hd; cases h; exact .popped ht hs hd
        · rename_i hd; cases h; exact .poppedEmpty ht hs (Bool.eq_false_iff.mpr hd)
    · cases h
  case h_5 =>
    obtain ⟨s, hs, rfl⟩ := Option.map_eq_some_iff.mp h
    exact .removed hs

/-! ## All requests -/

/-- A request. -/
inductive ServiceTask
  | start (personaId userId : Uuid) (pc : StartPc)
  | message (sessionId messageId : Uuid) (pc : PostPc)
  | ending (sessionId : Uuid) (pc : EndPc)
  | persona (id : Uuid) (t : PersonaTask)

inductive ServiceEvent
  | start (e : StartEvent)
  | message (e : PostEvent)
  | ending (e : EndEvent)
  | persona (e : PersonaEvent)

/-- What happens besides the requests: a sweep of the store, or left-over work goes on. -/
inductive ServiceEnv
  | sweep (now : Nat)
  | orphan (id : Uuid) (k : Nat) (act : OrphanAct)

/-- A request as it arrives. -/
def ServiceTask.arriving : ServiceTask → Bool
  | .start _ _ (.getting none) | .message _ _ .arrived | .ending _ .arrived => true
  | .persona _ t => t.arriving
  | _ => false

/-- The run of the request, if it has one. -/
def ServiceTask.run : ServiceTask → Option Run
  | .persona _ t => t.run
  | _ => none

/-- The message of the request, once its generator has begun it. -/
def ServiceTask.messagePc : ServiceTask → Option MessagePc
  | .message _ _ (.inside pc) | .message _ _ (.releasing pc) | .message _ _ (.finished pc) => some pc
  | _ => none

def MessagePc.holdsGpu : MessagePc → Bool
  | .synthesizing _ => true
  | _ => false

def MessagePc.holdsDitto : MessagePc → Bool
  | .rendering _ => true
  | _ => false

def RunPc.holdsGpu : RunPc → Bool
  | .transcribing _ => true
  | _ => false

def RunPc.holdsDitto : RunPc → Bool
  | .rendering _ => true
  | _ => false

/-- The task is in an `async with registry.gpu_semaphore`. -/
def ServiceTask.holdsGpu (t : ServiceTask) : Bool :=
  t.run.any (·.pc.holdsGpu) || t.messagePc.any MessagePc.holdsGpu

/-- The task is in an `async with registry.ditto_semaphore`. -/
def ServiceTask.holdsDitto (t : ServiceTask) : Bool :=
  t.run.any (·.pc.holdsDitto) || t.messagePc.any MessagePc.holdsDitto

/-- One step of a request, but for the semaphores. -/
def requestStep (H : Host) (w : ServiceWorld) (i : Nat) :
    ServiceTask → ServiceEvent → Option (ServiceWorld × ServiceTask)
  | .start personaId userId pc, .start e =>
    (startStep w personaId userId pc e).map fun out => (out.1, .start personaId userId out.2)
  | .message sid messageId pc, .message e =>
    (postStep H w i sid messageId pc e).map fun out => (out.1, .message sid messageId out.2)
  | .ending sid pc, .ending e => (endStep w i sid pc e).map fun out => (out.1, .ending sid out.2)
  | .persona id t, .persona e =>
    (personaStep H (w.personas id) t e).map fun out => (w.onPersona id out.1, .persona id out.2)
  | _, _ => none

/-- What a request can do, but for the semaphores: a step of its handler. -/
inductive RequestStep (H : Host) (w : ServiceWorld) (i : Nat) :
    ServiceTask → ServiceEvent → ServiceWorld × ServiceTask → Prop
  | start {personaId userId pc ev w' pc'} (hs : StartStep w personaId userId pc ev (w', pc')) :
      RequestStep H w i (.start personaId userId pc) (.start ev) (w', .start personaId userId pc')
  | message {sid messageId pc ev w' pc'} (hs : PostStep H w i sid messageId pc ev (w', pc')) :
      RequestStep H w i (.message sid messageId pc) (.message ev) (w', .message sid messageId pc')
  | ending {sid pc ev w' pc'} (hs : EndStep w i sid pc ev (w', pc')) :
      RequestStep H w i (.ending sid pc) (.ending ev) (w', .ending sid pc')
  | persona {id t ev p' t'} (hs : personaStep H (w.personas id) t ev = some (p', t')) :
      RequestStep H w i (.persona id t) (.persona ev) (w.onPersona id p', .persona id t')

/-- Inversion of a request, but for the semaphores. -/
theorem requestStep_inv {H : Host} {w : ServiceWorld} {i : Nat} {t : ServiceTask} {e : ServiceEvent}
    {out : ServiceWorld × ServiceTask} (h : requestStep H w i t e = some out) :
    RequestStep H w i t e out := by
  unfold requestStep at h
  split at h
  · obtain ⟨⟨w', pc'⟩, hs, rfl⟩ := Option.map_eq_some_iff.mp h
    exact .start (startStep_inv hs)
  · obtain ⟨⟨w', pc'⟩, hs, rfl⟩ := Option.map_eq_some_iff.mp h
    exact .message (postStep_inv hs)
  · obtain ⟨⟨w', pc'⟩, hs, rfl⟩ := Option.map_eq_some_iff.mp h
    exact .ending (endStep_inv hs)
  · obtain ⟨⟨p', t'⟩, hs, rfl⟩ := Option.map_eq_some_iff.mp h
    exact .persona hs
  · cases h

/-- The permits after a step. -/
def passSemaphores (w : ServiceWorld) (t t' : ServiceTask) : Option ServiceWorld :=
  (Semaphore.pass t.holdsGpu t'.holdsGpu w.gpu).bind fun gpu =>
    (Semaphore.pass t.holdsDitto t'.holdsDitto w.ditto).map fun ditto =>
      { w with gpu := gpu, ditto := ditto }

/-- One step of a request. -/
def serviceStep (H : Host) (w : ServiceWorld) (i : Nat) (t : ServiceTask) (e : ServiceEvent) :
    Option (ServiceWorld × ServiceTask) :=
  (requestStep H w i t e).bind fun out =>
    (passSemaphores out.1 t out.2).map fun w => (w, out.2)

/-- A step of a request, and the permits that it takes and gives back. -/
theorem serviceStep_inv {H : Host} {w w' : ServiceWorld} {i : Nat} {t t' : ServiceTask} {e : ServiceEvent}
    (h : serviceStep H w i t e = some (w', t')) :
    ∃ w₁ gpu ditto, RequestStep H w i t e (w₁, t') ∧
      Semaphore.pass t.holdsGpu t'.holdsGpu w₁.gpu = some gpu ∧
      w' = { w₁ with gpu := gpu, ditto := ditto } := by
  obtain ⟨⟨w₁, t₁⟩, hreq, hs⟩ := Option.bind_eq_some_iff.mp h
  obtain ⟨w₂, hpass, hs⟩ := Option.map_eq_some_iff.mp hs
  cases hs
  obtain ⟨gpu, hgpu, hpass⟩ := Option.bind_eq_some_iff.mp hpass
  obtain ⟨ditto, -, rfl⟩ := Option.map_eq_some_iff.mp hpass
  exact ⟨w₁, gpu, ditto, requestStep_inv hreq, hgpu, rfl⟩

def serviceEnv (w : ServiceWorld) : ServiceEnv → Option ServiceWorld
  | .sweep now => some (w.sweepOnce now)
  | .orphan id k act => ((w.personas id).orphanStep k act).map fun p => w.onPersona id p

/-- The requests of the service; `admits` says which of them are considered. -/
def serviceCoop (H : Host) (admits : ServiceTask → Bool) :
    Coop ServiceWorld ServiceTask ServiceEvent ServiceEnv where
  arrives t := t.arriving && admits t
  step := serviceStep H
  env := serviceEnv
  onTask _ t := t

/-- Inversion of one step of the service. -/
theorem service_next_cases {H : Host} {admits : ServiceTask → Bool} {p q : Pool ServiceWorld ServiceTask}
    {e : Event ServiceTask ServiceEvent ServiceEnv} {motive : Pool ServiceWorld ServiceTask → Prop}
    (h : (serviceCoop H admits).next p e = some q)
    (arrive : ∀ t, t.arriving = true → admits t = true → motive ⟨p.world, p.tasks ++ [t]⟩)
    (run : ∀ i ev t w t', e = .run i ev → p.tasks[i]? = some t →
      serviceStep H p.world i t ev = some (w, t') → motive ⟨w, p.tasks.set i t'⟩)
    (env : ∀ x w, serviceEnv p.world x = some w → motive ⟨w, p.tasks⟩) : motive q := by
  refine Coop.next_cases h (fun t _ harr => ?_) run fun x w _ hx => ?_
  · obtain ⟨harr, hadmits⟩ := Bool.and_eq_true_iff.mp harr
    exact arrive t harr hadmits
  · have hmap : p.tasks.map ((serviceCoop H admits).onTask x) = p.tasks := List.map_id p.tasks
    rw [hmap]
    exact env x w hx

/-- Any interleaving of requests. -/
def serviceSystem (H : Host) (admits : ServiceTask → Bool) (init : ServiceWorld → Prop) :
    Transition.System (Pool ServiceWorld ServiceTask) (Event ServiceTask ServiceEvent ServiceEnv) :=
  (serviceCoop H admits).system init

/-- The service as it starts: no session, no message, and free semaphores. The personas are those of
an earlier run of the worker. -/
structure ServiceWorld.Fresh (w : ServiceWorld) : Prop where
  personas : ∀ id, (w.personas id).id = id ∧ (w.personas id).orphans = []
  sessions : ∀ sid, w.sessions sid = none
  stored : w.stored = []
  activeMessages : w.activeMessages = 0
  tmpFiles : w.tmpFiles = []
  gpu : w.gpu = gpuConcurrency
  ditto : w.ditto = gpuConcurrency

/-! ## Concrete runs -/

/-- The files that a message reads. -/
def sampleFiles : Files := some ⟨fun
  | .photo => some ((∅ : Dir).insert "face.jpg" ⟨50, .bytes [0xff, 0xd8, 0xff], .other⟩)
  | .voiceRef => some (((∅ : Dir).insert "ref_audio.wav" ⟨60, .bytes riff, .other⟩).insert
      "ref_text.txt" ⟨70, .text "밥은 먹었니?", .other⟩)
  | _ => none⟩

/-- The service of the concrete runs: every persona is ready. -/
def sampleService : ServiceWorld where
  personas id := { PersonaWorld.new id [] with row := some .ready, files := sampleFiles }
  sessions _ := none
  stored := []
  activeMessages := 0
  tmpFiles := []
  safetyLogs := []
  gpu := gpuConcurrency
  ditto := gpuConcurrency

theorem sampleService_fresh : sampleService.Fresh where
  personas _ := ⟨rfl, rfl⟩
  sessions _ := rfl
  stored := rfl
  activeMessages := rfl
  tmpFiles := rfl
  gpu := rfl
  ditto := rfl

/-- Request `i` starts a session of the persona. -/
def startSession (i : Nat) (personaId sid : Uuid) : List (Event ServiceTask ServiceEvent ServiceEnv) :=
  [.arrive (.start personaId 3 (.getting none)), .run i (.start .select), .run i (.start .resume),
    .run i (.start (.created sid "너는 순이다." 100))]

/-- Request `i` posts a message, up to the lock of the session. -/
def postMessage (i : Nat) (sid messageId : Uuid) : List (Event ServiceTask ServiceEvent ServiceEnv) :=
  [.arrive (.message sid messageId .arrived), .run i (.message .enter),
    .run i (.message (.reserve none true)), .run i (.message (.read none)), .run i (.message .resume),
    .run i (.message .pull)]

/-- Request `i` has the lock, and its message takes the steps. -/
def sayMessage (i : Nat) (steps : List MessageEvent) : List (Event ServiceTask ServiceEvent ServiceEnv) :=
  .run i (.message .granted) :: steps.map fun e => .run i (.message (.message e true))

end YeounEngine
