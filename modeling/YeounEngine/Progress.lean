import YeounEngine.RenderExclusion
import YeounEngine.SessionEnd
import YeounEngine.Termination

/-!
# No request waits forever

A request waits for three things: the lock of its session, `gpu_semaphore` and `ditto_semaphore`. Whoever
holds a semaphore waits for nothing, whoever has a lock waits for a semaphore at most, and the queue of a lock
holds the requests that are in it or wait for it and no others (`Orderly`). So as long as a request has not ended, some
request can go on (`Orderly.not_stuck`), and since every request ends (`Termination`), all of them can end without
another failure, cancellation or disconnect (`service_completes`).

One failure is unavoidable: a write to a folder that has been deleted (`cutOff`).
-/

namespace YeounEngine

open Transition

/-! ## Undisturbed steps -/

/-- Nothing fails in the step, and nothing is interrupted. -/
def RunEvent.smooth : RunEvent → Bool
  | .start | .apply _ | .resume | .spawned | .output _ _ | .acquire => true
  | .exit rc => rc = 0
  | .lock fault | .rendered _ fault => fault.isNone
  | .communicated a => a.globFault.isNone && a.refTextFault.isNone
  | .transcribed _ a => a.fault.isNone
  | .renderFailed _ _ _ | .fail _ | .cancel _ _ => false

def MessageEvent.smooth : MessageEvent → Bool
  | .transcribed _ | .apply _ | .resume | .token _ | .streamEnd | .acquire | .makeFolder | .output _ _ => true
  | .pull a => a.mkdirFault.isNone && a.refFault.isNone
  | .synthesized _ fault _ => fault.isNone
  | .rendered _ wav _ => wav = .removed
  | .renderFailed _ _ _ _ | .fail _ _ | .cancel _ _ | .close => false

def UploadEvent.smooth : UploadEvent → Bool
  | .select | .resume | .output _ | .written _ | .apply _ => true
  | .closed _ _ forbidden fault => !forbidden && fault.isNone
  | .renamed fault _ => fault.isNone
  | .fail _ _ | .cancel => false

def ProcessEvent.smooth : ProcessEvent → Bool
  | .select | .resume => true
  | .run e => e.smooth
  | .fail _ | .cancel => false

def DeleteEvent.smooth : DeleteEvent → Bool
  | .select | .resume | .remove _ | .apply => true
  | .fail _ | .cancel => false

def StartEvent.smooth : StartEvent → Bool
  | .select | .resume | .created _ _ _ => true
  | .fail _ | .cancel => false

def PostEvent.smooth : PostEvent → Bool
  | .enter | .resume | .counter | .pull | .granted => true
  | .reserve fault tmp => fault.isNone && tmp
  | .read fault => fault.isNone
  | .message e unlinked => e.smooth && unlinked
  | .drop | .fail _ | .cancel _ => false

def EndEvent.smooth : EndEvent → Bool
  | .enter | .granted | .remove _ | .apply | .resume => true
  | .fail _ | .cancel => false

def ServiceEvent.smooth : ServiceEvent → Bool
  | .start e => e.smooth
  | .message e => e.smooth
  | .ending e => e.smooth
  | .persona (.upload e) => e.smooth
  | .persona (.process e) => e.smooth
  | .persona (.delete e) => e.smooth

/-- A write, or a render, fails. -/
def ServiceEvent.fails : ServiceEvent → Bool
  | .persona (.upload (.fail _ _)) | .persona (.process (.run (.renderFailed _ _ _)))
  | .message (.message (.fail _ _) _) | .message (.message (.renderFailed _ _ _ _) _) => true
  | _ => false

/-- The folder that the request is writing to is gone. -/
def ServiceTask.cutOff (w : ServiceWorld) : ServiceTask → Bool
  | .persona id (.upload req (.writing _ _ _ false)) => ((w.personas id).files.dir req.kind.folder).isNone
  | .persona id (.process (.accepted ⟨.rendering _, _, _⟩)) => ((w.personas id).files.dir .idle).isNone
  | .message sid _ (.inside (.synthesizing _)) | .message sid _ (.inside (.rendering _)) =>
    (w.sessions sid).any fun s => ((w.personas s.state.personaId).files.dir (.speak s.state.sessionId)).isNone
  | _ => false

/-- A request leads on, and nothing fails or is interrupted, but for a write to a folder that is gone. -/
def Smooth (p : Pool ServiceWorld ServiceTask) : Event ServiceTask ServiceEvent ServiceEnv → Prop
  | .run i e => ∀ t ∈ p.tasks[i]?,
    t.lingers e = false ∧ (e.smooth = true ∨ t.cutOff p.world = true ∧ e.fails = true)
  | _ => False

instance (p : Pool ServiceWorld ServiceTask) :
    ∀ e : Event ServiceTask ServiceEvent ServiceEnv, Decidable (Smooth p e)
  | .run i e => inferInstanceAs (Decidable (∀ t ∈ p.tasks[i]?,
      t.lingers e = false ∧ (e.smooth = true ∨ t.cutOff p.world = true ∧ e.fails = true)))
  | .arrive _ | .env _ => inferInstanceAs (Decidable False)

/-- The request has ended, and nothing of it is left to do. -/
def ServiceTask.ended : ServiceTask → Bool
  | .start _ _ (.done _) | .start _ _ .cancelled => true
  | .message _ _ (.rejected _) | .message _ _ .cancelled | .message _ _ .dropped => true
  | .message _ _ (.finished pc) => pc ≠ .abandoned
  | .ending _ (.done _) | .ending _ .cancelled => true
  | .persona _ (.upload _ (.done _)) | .persona _ (.upload _ .cancelled) => true
  | .persona _ (.process (.rejected _)) | .persona _ (.process .cancelled) => true
  | .persona _ (.process (.accepted r)) => r.pc.ended
  | .persona _ (.delete (.done _)) | .persona _ (.delete .cancelled) => true
  | _ => false

/-! ## Every handler can go on -/

/-- What a child process, a thread or a clock gives when nothing goes wrong. -/
def cleanOutput : Output := ⟨0, .bytes []⟩

def plainTrim : AfterTrim := ⟨"", true, none, fun _ => true, none⟩

/-- A failure that a folder's absence explains. -/
def notFound : Exc := ⟨"FileNotFoundError", ""⟩

/-- A run has chosen its inputs before it uses them. -/
def Run.Chosen (r : Run) : Prop :=
  match r.pc with
  | .setExtracting | .spawning | .ffmpeg _ => r.voice.isSome = true
  | .waitingDitto _ | .rendering _ => r.photo.isSome = true
  | _ => True

section
variable {H : Host} {w : PersonaWorld} {r : Run}

/-- A run that has not ended can go on. -/
theorem exists_runStep (hr : r.Chosen) (hpc : r.pc.ended = false) : ∃ ev out, runStep H w r ev = some out ∧
    r.pc.lingers ev = false ∧ (ev.smooth = true ∨ (∃ i, r.pc = .rendering i) ∧ (w.files.dir .idle).isNone = true ∧
      ∃ e started unlinked, ev = .renderFailed e started unlinked) := by
  obtain ⟨pc, voice, photo⟩ := r
  cases pc with
  | scheduled => exact ⟨.start, _, rfl, rfl, .inl rfl⟩
  | setPending | setSelecting | setExtracting | setTranscribing | setRendering | setReady | cancelSet | failSet =>
    exact ⟨.lock none, _, rfl, rfl, .inl rfl⟩
  | updProcessing applied | updReady applied | cancelUpd applied | failUpd applied | inserting _ applied =>
    cases applied with
    | false => exact ⟨.apply 0, _, rfl, rfl, .inl rfl⟩
    | true => exact ⟨.resume, _, rfl, rfl, .inl rfl⟩
  | spawning => exact ⟨.spawned, _, rfl, rfl, .inl rfl⟩
  | ffmpeg rc =>
    obtain ⟨v, rfl⟩ := Option.isSome_iff_exists.mp hr
    cases rc with
    | none => exact ⟨.exit 0, _, rfl, rfl, .inl rfl⟩
    | some rc => exact ⟨.communicated plainTrim, _, rfl, rfl, .inl rfl⟩
  | waitingGpu | waitingDitto => exact ⟨.acquire, _, rfl, rfl, .inl rfl⟩
  | transcribing audio => exact ⟨.transcribed "" ⟨0, none⟩, _, rfl, rfl, .inl rfl⟩
  | rendering i =>
    obtain ⟨p, rfl⟩ := Option.isSome_iff_exists.mp hr
    cases hd : (w.files.dir .idle).isSome with
    | true => exact ⟨.rendered cleanOutput none, _, if_pos hd, rfl, .inl rfl⟩
    | false =>
      exact ⟨.renderFailed notFound true fun _ => true, _, rfl, rfl,
        .inr ⟨⟨i, rfl⟩, by simpa using hd, _, _, _, rfl⟩⟩
  | returned | cancelled | raised | killed => cases hpc

end

section
variable {H : Host} {messageId : Uuid} {w : MessageWorld} {pc : MessagePc}

/-- A message that has not been left can go on. -/
theorem exists_messageStep (hpc : pc.left = false) : ∃ ev out, messageStep H messageId w pc ev = some out ∧
    ev.lingers = false ∧ (ev.smooth = true ∨ ((∃ speech, pc = .synthesizing speech) ∨ ∃ photo, pc = .rendering photo) ∧
      (w.persona.files.dir w.speakDir).isNone = true ∧
      ((∃ e unlinked, ev = .fail e unlinked) ∨
        ∃ e started removed unlinked, ev = .renderFailed e started removed unlinked)) := by
  cases pc with
  | created => exact ⟨.pull cleanTextDone, _, rfl, rfl, .inl rfl⟩
  | transcribing => exact ⟨.transcribed "", _, rfl, rfl, .inl rfl⟩
  | loggingCrisis _ applied | loggingForbidden _ applied =>
    cases applied with
    | false => exact ⟨.apply 0, _, rfl, rfl, .inl rfl⟩
    | true => exact ⟨.resume, _, rfl, rfl, .inl rfl⟩
  | streaming | unwinding => exact ⟨.streamEnd, _, rfl, rfl, .inl rfl⟩
  | waitingGpu | waitingDitto => exact ⟨.acquire, _, rfl, rfl, .inl rfl⟩
  | synthesizing speech =>
    cases hd : (w.persona.files.dir w.speakDir).isSome with
    | true => exact ⟨.synthesized cleanOutput none fun _ => .removed, _, if_pos hd, rfl, .inl rfl⟩
    | false =>
      exact ⟨.fail notFound fun _ => .removed, _, rfl, rfl,
        .inr ⟨.inl ⟨_, rfl⟩, by simpa using hd, .inl ⟨_, _, rfl⟩⟩⟩
  | rendering photo =>
    cases hd : (w.persona.files.dir w.speakDir).isSome with
    | true => exact ⟨.rendered cleanOutput .removed fun _ => .removed, _, if_pos hd, rfl, .inl rfl⟩
    | false =>
      exact ⟨.renderFailed notFound true (fun _ => true) fun _ => .removed, _, rfl, rfl,
        .inr ⟨.inr ⟨_, rfl⟩, by simpa using hd, .inr ⟨_, _, _, _, rfl⟩⟩⟩
  | yielded ev next => cases next <;> exact ⟨.pull cleanTextDone, _, rfl, rfl, .inl rfl⟩
  | abandoned | returned | raised | cancelled => simp [MessagePc.left, MessagePc.ended] at hpc

end

/-! ## Every request can go on, or waits -/

/-- The request has looked up its session. -/
def PostPc.found : PostPc → Bool
  | .arrived | .rejected _ | .cancelled | .dropped => false
  | _ => true

/-- What holds of a request wherever it is. -/
def ServiceTask.Placed (w : ServiceWorld) : ServiceTask → Prop
  | .message sid _ pc => (pc.found = true → (w.sessions sid).isSome = true) ∧
    (∀ mpc, pc = .inside mpc → mpc.left = false) ∧
    ∀ mpc, pc = .releasing mpc ∨ pc = .finished mpc → mpc.left = true
  | .ending sid pc => pc = .locking ∨ pc = .rmtree → (w.sessions sid).isSome = true
  | .persona _ (.process (.accepted r)) => r.Chosen
  | _ => True

/-- The request waits for the lock of the session. -/
def ServiceTask.awaitsLock (sid : Uuid) : ServiceTask → Bool
  | .message s _ .locking | .ending s .locking => s = sid
  | _ => false

/-- The request waits for `gpu_semaphore`. -/
def ServiceTask.awaitsGpu : ServiceTask → Bool
  | .message _ _ (.inside (.waitingGpu _)) => true
  | .persona _ (.process (.accepted r)) => r.pc = .waitingGpu
  | _ => false

/-- The request waits for `ditto_semaphore`. -/
def ServiceTask.awaitsDitto : ServiceTask → Bool
  | .message _ _ (.inside (.waitingDitto _)) => true
  | .persona _ (.process (.accepted ⟨.waitingDitto _, _, _⟩)) => true
  | _ => false

section
variable {H : Host} {w w' : ServiceWorld} {i : Nat} {t t' : ServiceTask} {e : ServiceEvent}

/-- What the handler of a request needs of a step, but for the semaphores. -/
def GoesOn (H : Host) (w : ServiceWorld) (i : Nat) (t : ServiceTask) : Prop :=
  ∃ e w' t', requestStep H w i t e = some (w', t') ∧ t.lingers e = false ∧
    (e.smooth = true ∨ t.cutOff w = true ∧ e.fails = true)

theorem goesOn_upload {id : Uuid} {req : UploadRequest} {pc : UploadPc}
    (h : (ServiceTask.persona id (.upload req pc)).ended = false) : GoesOn H w i (.persona id (.upload req pc)) := by
  have goes : ∀ ev out, uploadStep H (w.personas id) req pc ev = some out →
      (ServiceTask.persona id (.upload req pc)).lingers (.persona (.upload ev)) = false →
      ev.smooth = true → GoesOn H w i (.persona id (.upload req pc)) := by
    intro ev out hs hl hsm
    refine ⟨.persona (.upload ev), w.onPersona id out.1, .persona id (.upload req out.2), ?_, hl, .inl hsm⟩
    simp only [requestStep, personaStep, hs, Option.map_some]
  cases pc with
  | getting row =>
    cases row with
    | none => exact goes .select _ rfl rfl rfl
    | some row =>
      cases hg : ensureWritable (w.personas id).id row with
      | some error => exact goes .resume _ (by simp only [uploadStep, hg]; rfl) rfl rfl
      | none =>
        by_cases ht : req.contentType.any fun t => t ∈ req.kind.contentTypes
        · exact goes .resume _ (by simp only [uploadStep, hg]; exact if_pos ht) rfl rfl
        · exact goes .resume _ (by simp only [uploadStep, hg]; exact if_neg ht) rfl rfl
  | reading buffer rest checked =>
    cases hr : readTurn H req.kind buffer rest checked with
    | more buffer' rest' checked' => exact goes .resume _ (by simp only [uploadStep, hr]; rfl) rfl rfl
    | stop verdict => exact goes .resume _ (by simp only [uploadStep, hr]; rfl) rfl rfl
  | closing verdict =>
    cases verdict with
    | error error => exact goes .resume _ rfl rfl rfl
    | ok data => exact goes (.closed 0 0 false none) _ rfl rfl rfl
  | writing name tmp data applied =>
    cases applied with
    | false =>
      cases hd : ((w.personas id).files.dir req.kind.folder).isSome with
      | true => exact goes (.written 0) _ (if_pos hd) rfl rfl
      | false =>
        refine ⟨.persona (.upload (.fail notFound true)), _, _, rfl, rfl, .inr ⟨?_, rfl⟩⟩
        simpa [ServiceTask.cutOff] using hd
    | true =>
      cases hf : (w.personas id).files.get req.kind.folder tmp with
      | some file => exact goes (.renamed none true) _ (by simp only [uploadStep, hf]; rfl) rfl rfl
      | none => exact goes (.renamed none true) _ (by simp only [uploadStep, hf]; rfl) rfl rfl
  | inserting name size applied =>
    cases applied with
    | false => exact goes (.apply 0) _ rfl rfl rfl
    | true => exact goes .resume _ rfl rfl rfl
  | done | cancelled => cases h

theorem goesOn_process {id : Uuid} {pc : ProcessPc} (hp : (ServiceTask.persona id (.process pc)).Placed w)
    (h : (ServiceTask.persona id (.process pc)).ended = false) : GoesOn H w i (.persona id (.process pc)) := by
  cases pc with
  | getting row =>
    cases row with
    | none => exact ⟨.persona (.process .select), _, _, rfl, rfl, .inl rfl⟩
    | some row =>
      cases hg : startProcessing (w.personas id).id row (w.personas id).step with
      | some error =>
        refine ⟨.persona (.process .resume), w.onPersona id (w.personas id), .persona id (.process (.rejected error)),
          ?_, rfl, .inl rfl⟩
        simp only [requestStep, personaStep, processStep, hg, Option.map_some]
      | none =>
        refine ⟨.persona (.process .resume), w.onPersona id (w.personas id),
          .persona id (.process (.accepted Run.new)), ?_, rfl, .inl rfl⟩
        simp only [requestStep, personaStep, processStep, hg, Option.map_some]
  | accepted r =>
    obtain ⟨ev, out, hs, hl, hsm⟩ := exists_runStep (H := H) (w := w.personas id) hp h
    refine ⟨.persona (.process (.run ev)), w.onPersona id out.1, .persona id (.process (.accepted out.2)), ?_, hl, ?_⟩
    · simp only [requestStep, personaStep, processStep, hs, Option.map_some]
    · rcases hsm with hsm | ⟨⟨j, hj⟩, hd, error, started, unlinked, rfl⟩
      · exact .inl hsm
      · obtain ⟨pc, voice, photo⟩ := r
        cases hj
        exact .inr ⟨hd, rfl⟩
  | rejected | cancelled => cases h

theorem goesOn_delete {id : Uuid} {pc : DeletePc} (h : (ServiceTask.persona id (.delete pc)).ended = false) :
    GoesOn H w i (.persona id (.delete pc)) := by
  cases pc with
  | getting row =>
    cases row with
    | none => exact ⟨.persona (.delete .select), _, _, rfl, rfl, .inl rfl⟩
    | some row =>
      cases hg : deletable (w.personas id).id row with
      | some error =>
        refine ⟨.persona (.delete .resume), w.onPersona id (w.personas id),
          .persona id (.delete (.done (.error error))), ?_, rfl, .inl rfl⟩
        simp only [requestStep, personaStep, deleteStep, hg, Option.map_some]
      | none =>
        refine ⟨.persona (.delete .resume), w.onPersona id (w.personas id), .persona id (.delete
          (if (w.personas id).files.isSome then .rmtree false else .deletingRows false)), ?_, rfl, .inl rfl⟩
        simp only [requestStep, personaStep, deleteStep, hg, Option.map_some]
  | rmtree applied | deletingRows applied =>
    cases applied with
    | false => exact ⟨.persona (.delete .apply), _, _, rfl, rfl, .inl rfl⟩
    | true => exact ⟨.persona (.delete .resume), _, _, rfl, rfl, .inl rfl⟩
  | done | cancelled => cases h

theorem goesOn_start {personaId userId : Uuid} {pc : StartPc} (hnew : ∃ sid, w.sessions sid = none)
    (h : (ServiceTask.start personaId userId pc).ended = false) : GoesOn H w i (.start personaId userId pc) := by
  cases pc with
  | getting row =>
    cases row with
    | none => exact ⟨.start .select, _, _, rfl, rfl, .inl rfl⟩
    | some row =>
      cases hg : startable personaId row with
      | some error =>
        refine ⟨.start .resume, w, .start personaId userId (.done (.error error)), ?_, rfl, .inl rfl⟩
        simp only [requestStep, startStep, hg, Option.map_some]
      | none =>
        refine ⟨.start .resume, w, .start personaId userId .reading, ?_, rfl, .inl rfl⟩
        simp only [requestStep, startStep, hg, Option.map_some]
  | reading =>
    obtain ⟨sid, hsid⟩ := hnew
    refine ⟨.start (.created sid "" 0), w.create ⟨sid, userId, personaId, "", 0, 0, []⟩,
      .start personaId userId (.done (.ok sid)), ?_, rfl, .inl rfl⟩
    simp only [requestStep, startStep, hsid, Option.isNone_none, if_true, Option.map_some]
  | done | cancelled => cases h

theorem goesOn_message {sid messageId : Uuid} {pc : PostPc} (hp : (ServiceTask.message sid messageId pc).Placed w)
    (hturn : pc = .locking → w.turn sid i = true) (h : (ServiceTask.message sid messageId pc).ended = false) :
    GoesOn H w i (.message sid messageId pc) := by
  have goes : ∀ ev out, postStep H w i sid messageId pc ev = some out →
      (ServiceTask.message sid messageId pc).lingers (.message ev) = false →
      (ev.smooth = true ∨ (ServiceTask.message sid messageId pc).cutOff w = true ∧
        (ServiceEvent.message ev).fails = true) → GoesOn H w i (.message sid messageId pc) := by
    intro ev out hs hl hsm
    refine ⟨.message ev, out.1, .message sid messageId out.2, ?_, hl, hsm⟩
    simp only [requestStep, hs, Option.map_some]
  cases pc with
  | arrived =>
    cases hs : w.get sid with
    | none => exact goes .enter _ (by simp only [postStep, hs]; rfl) rfl (.inl rfl)
    | some s => exact goes .enter _ (by simp only [postStep, hs]; rfl) rfl (.inl rfl)
  | admitting =>
    by_cases hf : (maxConcurrentMessages : Int) ≤ w.activeMessages
    · exact goes (.reserve none true) _ (if_pos hf) rfl (.inl rfl)
    · exact goes (.reserve none true) _ (if_neg hf) rfl (.inl rfl)
  | reading => exact goes (.read none) _ rfl rfl (.inl rfl)
  | closing => exact goes .resume _ rfl rfl (.inl rfl)
  | rollback => exact goes .counter _ rfl rfl (.inl rfl)
  | responded => exact goes .pull _ rfl rfl (.inl rfl)
  | locking => exact goes .granted _ (if_pos (hturn rfl)) rfl (.inl rfl)
  | inside mpc =>
    obtain ⟨s, hs⟩ := Option.isSome_iff_exists.mp (hp.1 rfl)
    obtain ⟨ev, out, hm, hl, hsm⟩ : ∃ ev out, messageStep H messageId (w.messageWorld s) mpc ev = some out ∧ _ :=
      exists_messageStep (hp.2.1 mpc rfl)
    refine goes (.message ev true) (inMessage w i sid s true out) ?_ hl ?_
    · simp only [postStep, hs, Option.bind_some, hm, Option.map_some]
    · rcases hsm with hsm | ⟨⟨speech, rfl⟩ | ⟨photo, rfl⟩, hd, hev⟩
      · exact .inl (by rw [PostEvent.smooth, hsm]; rfl)
      · refine .inr ⟨?_, ?_⟩
        · simp only [ServiceTask.cutOff, hs, Option.any_some]
          exact hd
        · rcases hev with ⟨_, _, rfl⟩ | ⟨_, _, _, _, rfl⟩ <;> rfl
      · refine .inr ⟨?_, ?_⟩
        · simp only [ServiceTask.cutOff, hs, Option.any_some]
          exact hd
        · rcases hev with ⟨_, _, rfl⟩ | ⟨_, _, _, _, rfl⟩ <;> rfl
  | releasing mpc => exact goes .counter _ rfl rfl (.inl rfl)
  | finished mpc =>
    have hpc : mpc = .abandoned := by simpa [ServiceTask.ended] using h
    subst hpc
    exact goes (.message .streamEnd true) _ rfl rfl (.inl rfl)
  | rejected | cancelled | dropped => cases h

theorem goesOn_ending {sid : Uuid} {pc : EndPc} (hp : (ServiceTask.ending sid pc).Placed w)
    (hturn : pc = .locking → w.turn sid i = true) (h : (ServiceTask.ending sid pc).ended = false) :
    GoesOn H w i (.ending sid pc) := by
  cases pc with
  | arrived =>
    cases hs : w.get sid with
    | none =>
      refine ⟨.ending .enter, w, .ending sid (.done (.error (sessionNotFound sid))), ?_, rfl, .inl rfl⟩
      simp only [requestStep, endStep, hs, Option.map_some]
    | some s =>
      refine ⟨.ending .enter, w.enterLock sid i, .ending sid .locking, ?_, rfl, .inl rfl⟩
      simp only [requestStep, endStep, hs, Option.map_some]
  | locking =>
    have hsome : (endGranted w i sid).isSome = true := by
      unfold endGranted
      split
      · rfl
      · dsimp only
        split <;> rfl
    obtain ⟨out, hout⟩ := Option.isSome_iff_exists.mp hsome
    refine ⟨.ending .granted, out.1, .ending sid out.2, ?_, rfl, .inl rfl⟩
    simp only [requestStep, endStep, if_pos (hturn rfl), hout, Option.map_some]
  | rmtree =>
    obtain ⟨s, hs⟩ := Option.isSome_iff_exists.mp (hp (.inr rfl))
    refine ⟨.ending .resume, w.leaveLock sid i, .ending sid (.done (.ok s.state.history.length)), ?_, rfl, .inl rfl⟩
    simp only [requestStep, endStep, hs, Option.map_some]
  | done | cancelled => cases h

/-- A request that has not ended can go on, once it has the lock that it waits for. -/
theorem request_goesOn (hp : t.Placed w) (hnew : ∃ sid, w.sessions sid = none)
    (hturn : ∀ sid, t.awaitsLock sid = true → w.turn sid i = true) (h : t.ended = false) : GoesOn H w i t := by
  cases t with
  | start => exact goesOn_start hnew h
  | message sid messageId pc =>
    exact goesOn_message hp (fun hpc => hturn sid (by subst hpc; exact decide_eq_true rfl)) h
  | ending sid pc => exact goesOn_ending hp (fun hpc => hturn sid (by subst hpc; exact decide_eq_true rfl)) h
  | persona id u =>
    cases u with
    | upload req pc => exact goesOn_upload h
    | process pc => exact goesOn_process hp h
    | delete pc => exact goesOn_delete h

end

/-! ## The semaphores -/

section
variable {H : Host}

section
variable {messageId : Uuid} {w : MessageWorld} {pc : MessagePc} {ev : MessageEvent} {out : MessageWorld × MessagePc}

theorem holdsDitto_inputGuard {userText : String} : (inputGuard H w userText).holdsDitto = false :=
  inputGuard_cases (motive := fun pc => pc.holdsDitto = false) (fun _ => rfl) fun _ => rfl

theorem holdsDitto_outputGuard {reply : Reply} : (outputGuard H messageId reply).holdsDitto = false :=
  outputGuard_cases (motive := fun pc => pc.holdsDitto = false) (fun _ => rfl) fun _ => rfl

theorem holdsDitto_prepareSpeech {userText finalText : String} {a : AfterTextDone} :
    (prepareSpeech H messageId w userText finalText a).2.holdsDitto = false :=
  prepareSpeech_cases (motive := fun pc => pc.holdsDitto = false) (fun _ => rfl) (fun _ => rfl) fun _ _ => rfl

theorem holdsDitto_pickSpeakPhoto {fault : Option Exc} {unlinked : String → Unlinked} :
    (pickSpeakPhoto H messageId w fault unlinked).2.holdsDitto = false :=
  pickSpeakPhoto_cases (motive := fun pc => pc.holdsDitto = false) (fun _ => rfl) (fun _ => rfl) fun _ _ _ => rfl

theorem holdsDitto_mediaFailed {e : Exc} {unlinked : String → Unlinked} :
    (mediaFailed messageId w e unlinked).2.holdsDitto = false :=
  mediaFailed_cases (motive := fun pc => pc.holdsDitto = false) (fun _ => rfl) fun _ => rfl

theorem MessageBodyStep.holdsDitto (h : MessageBodyStep H messageId w pc ev out) (hd : out.2.holdsDitto = true) :
    pc.holdsDitto = true ∨ ∃ photo, pc = .waitingDitto photo := by
  cases h with
  | acquireDitto => exact .inr ⟨_, rfl⟩
  | renderFolder | renderOutput | rendered | renderFailed => exact .inl rfl
  | transcribed =>
    dsimp only at hd
    rw [holdsDitto_inputGuard] at hd
    cases hd
  | streamEnd =>
    dsimp only at hd
    rw [holdsDitto_outputGuard] at hd
    cases hd
  | speech => rw [holdsDitto_prepareSpeech] at hd; cases hd
  | synthesized => rw [holdsDitto_pickSpeakPhoto] at hd; cases hd
  | synthesizeFailed | folderFailed => rw [holdsDitto_mediaFailed] at hd; cases hd
  | _ => cases hd

/-- A message has the permit of Ditto from the step that is granted it. -/
theorem messageStep_holdsDitto (h : messageStep H messageId w pc ev = some out) (hd : out.2.holdsDitto = true) :
    pc.holdsDitto = true ∨ ∃ photo, pc = .waitingDitto photo := by
  rcases messageStep_cases h with h | h
  · exact h.holdsDitto hd
  · cases h <;> cases hd

end

theorem holdsDitto_nextClip {fs : Files} {i : Nat} : (nextClip fs i).holdsDitto = false := by
  rw [nextClip]
  split <;> rfl

theorem runStep_holdsDitto {w : PersonaWorld} {r : Run} {ev : RunEvent} {out : PersonaWorld × Run}
    (h : runStep H w r ev = some out) (hd : out.2.pc.holdsDitto = true) :
    r.pc.holdsDitto = true ∨ ∃ i, r.pc = .waitingDitto i := by
  rcases runStep_cases h with h | ⟨-, h⟩
  · have hedge := h.edge
    generalize out.2.pc = pc' at hedge hd
    generalize r.pc = pc at hedge
    cases hedge with
    | acquireDitto => exact .inr ⟨_, rfl⟩
    | renderOutput => exact .inl rfl
    | nextClip => exact .inl rfl
    | firstClip => rw [holdsDitto_nextClip] at hd; cases hd
    | _ => cases hd
  · have hfree : out.2.pc.holdsDitto = false :=
      h.stopped (motive := fun pc => pc.holdsDitto = false) rfl (fun _ => rfl) rfl rfl (fun _ => rfl) rfl
    rw [hd] at hfree
    cases hfree

variable {w w' : ServiceWorld} {i : Nat} {t t' : ServiceTask} {e : ServiceEvent}

theorem holdsDitto_message {sid messageId : Uuid} {pc : PostPc} :
    (ServiceTask.message sid messageId pc).holdsDitto =
      (ServiceTask.message sid messageId pc).messagePc.any MessagePc.holdsDitto := by
  simp [ServiceTask.holdsDitto, ServiceTask.run]

/-- `ditto_semaphore` is taken by a request that waited for it. -/
theorem RequestStep.takesDitto (h : RequestStep H w i t e (w', t')) (hd : t'.holdsDitto = true) :
    t.holdsDitto = true ∨ t.awaitsDitto = true := by
  cases h with
  | start | ending => cases hd
  | message hs =>
    rw [holdsDitto_message] at hd ⊢
    cases hs with
    | message _ hm =>
      rcases messageStep_holdsDitto hm hd with hbefore | ⟨photo, rfl⟩
      · exact .inl hbefore
      · exact .inr rfl
    | messageLeft _ hm =>
      rcases messageStep_holdsDitto hm hd with hbefore | ⟨photo, rfl⟩
      · exact .inl hbefore
      · exact .inr rfl
    | released | cancelReleasing => exact .inl hd
    | _ => cases hd
  | @persona id u ev p u' hs =>
    rw [ServiceTask.holdsDitto, show (ServiceTask.persona id u').messagePc = none from rfl, Option.any_none,
      Bool.or_false] at hd
    obtain ⟨r', hr, hd⟩ := (Option.any_eq_true _ _).mp hd
    rcases personaStep_run hs hr with rfl | ⟨r, re, rfl, rfl, hrun⟩
    · cases hd
    · rcases runStep_holdsDitto hrun hd with hbefore | ⟨j, hj⟩
      · exact .inl (by simp [ServiceTask.holdsDitto, ServiceTask.run, PersonaTask.run, hbefore])
      · obtain ⟨pc, voice, photo⟩ := r
        cases hj
        exact .inr rfl

/-- `gpu_semaphore` is taken by a request that waited for it. -/
theorem RequestStep.takesGpu (h : RequestStep H w i t e (w', t')) (hg : t'.holdsGpu = true) :
    t.holdsGpu = true ∨ t.awaitsGpu = true := by
  rcases h.calls.holdsGpu hg with hbefore | htakes
  · exact .inl hbefore
  · refine .inr ?_
    unfold YeounEngine.takesGpu at htakes
    split at htakes
    · rfl
    · rename_i id u
      obtain ⟨r, hr, hpc⟩ := (Option.any_eq_true _ _).mp htakes
      cases PersonaTask.run_eq_some hr
      exact hpc
    · cases htakes

theorem exists_pass {held holds : Bool} {n : Nat} (h : holds = true → held = true ∨ 0 < n) :
    ∃ m, Semaphore.pass held holds n = some m := by
  cases held <;> cases holds
  · exact ⟨_, rfl⟩
  · exact ⟨_, if_pos ((h rfl).resolve_left Bool.false_ne_true)⟩
  · exact ⟨_, rfl⟩
  · exact ⟨_, rfl⟩

/-- A request that can go on does so, once the semaphore that it waits for is free. -/
theorem exists_serviceStep (h : GoesOn H w i t) (hgpu : t.awaitsGpu = true → 0 < w.gpu)
    (hditto : t.awaitsDitto = true → 0 < w.ditto) :
    ∃ e w' t', serviceStep H w i t e = some (w', t') ∧ t.lingers e = false ∧
      (e.smooth = true ∨ t.cutOff w = true ∧ e.fails = true) := by
  obtain ⟨e, w₁, t', hreq, hl, hsm⟩ := h
  have hstep := requestStep_inv hreq
  obtain ⟨hg, hd⟩ := hstep.calls.permits
  obtain ⟨gpu, hgpu⟩ : ∃ gpu, Semaphore.pass t.holdsGpu t'.holdsGpu w₁.gpu = some gpu :=
    exists_pass fun hheld => (hstep.takesGpu hheld).imp_right fun hw => hg ▸ hgpu hw
  obtain ⟨ditto, hditto⟩ : ∃ ditto, Semaphore.pass t.holdsDitto t'.holdsDitto w₁.ditto = some ditto :=
    exists_pass fun hheld => (hstep.takesDitto hheld).imp_right fun hw => hd ▸ hditto hw
  refine ⟨e, { w₁ with gpu := gpu, ditto := ditto }, t', ?_, hl, hsm⟩
  simp only [serviceStep, hreq, Option.bind_some, passSemaphores, hgpu, hditto, Option.map_some]

/-- Whoever holds a semaphore has not ended, and waits for nothing. -/
theorem waits_of_holds (hp : t.Placed w) (h : t.holdsGpu = true ∨ t.holdsDitto = true) :
    t.ended = false ∧ t.awaitsGpu = false ∧ t.awaitsDitto = false ∧ ∀ sid, t.awaitsLock sid = false := by
  cases t with
  | start | ending => rcases h with h | h <;> cases h
  | message sid messageId pc =>
    rw [holdsGpu_message, holdsDitto_message] at h
    have held : ∀ mpc : MessagePc, mpc.holdsGpu = true ∨ mpc.holdsDitto = true → mpc.left = false ∧
        (∀ speech, mpc ≠ .waitingGpu speech) ∧ ∀ photo, mpc ≠ .waitingDitto photo := by
      intro mpc hm
      cases mpc <;> simp [MessagePc.holdsGpu, MessagePc.holdsDitto, MessagePc.left, MessagePc.ended] at hm ⊢
    cases pc with
    | inside mpc =>
      obtain ⟨-, hgpu, hditto⟩ := held mpc h
      refine ⟨rfl, ?_, ?_, fun _ => rfl⟩
      · cases mpc <;> first | rfl | exact absurd rfl (hgpu _)
      · cases mpc <;> first | rfl | exact absurd rfl (hditto _)
    | releasing mpc =>
      have hleft := hp.2.2 mpc (.inl rfl)
      rw [(held mpc h).1] at hleft
      cases hleft
    | finished mpc =>
      have hleft := hp.2.2 mpc (.inr rfl)
      rw [(held mpc h).1] at hleft
      cases hleft
    | _ => rcases h with h | h <;> cases h
  | persona id u =>
    cases u with
    | upload | delete => rcases h with h | h <;> cases h
    | process pc =>
      cases pc with
      | accepted r =>
        obtain ⟨pc, voice, photo⟩ := r
        cases pc <;> simp [ServiceTask.holdsGpu, ServiceTask.holdsDitto, ServiceTask.run, PersonaTask.run,
          ServiceTask.messagePc, RunPc.holdsGpu, RunPc.holdsDitto] at h <;>
          simp [ServiceTask.ended, RunPc.ended, ServiceTask.awaitsGpu, ServiceTask.awaitsDitto, ServiceTask.awaitsLock]
      | _ => rcases h with h | h <;> cases h

end

/-! ## The locks -/

/-- The request is in the queue of the lock: it waits for it, or it is inside. -/
def ServiceTask.queued (sid : Uuid) : ServiceTask → Bool
  | .message s _ .locking | .message s _ (.inside _) | .ending s .locking | .ending s .rmtree => s = sid
  | _ => false

/-- The queue of the lock of a session. -/
def ServiceWorld.lockQueue (w : ServiceWorld) (sid : Uuid) : List Nat :=
  (w.sessions sid).elim [] fun s => s.lock.queue

section
variable {H : Host} {w w' : ServiceWorld} {i : Nat} {t t' : ServiceTask} {e : ServiceEvent} {sid sid' : Uuid}

theorem isSome_of_get {s : Session} (h : w.get sid = some s) : (w.sessions sid).isSome = true := by
  unfold ServiceWorld.get at h
  split at h
  · rw [h]; rfl
  · cases h

theorem turn_of_lockQueue {rest : List Nat} (h : w.lockQueue sid = i :: rest) : w.turn sid i = true := by
  rw [ServiceWorld.lockQueue] at h
  cases hs : w.sessions sid with
  | none => rw [hs] at h; cases h
  | some s =>
    rw [hs, Option.elim_some] at h
    rw [ServiceWorld.turn, hs, Option.any_some, FifoLock.turn_iff, h]
    rfl

theorem lockQueue_update {s : Option Session} (h : w'.sessions = Function.update w.sessions sid s) :
    w'.lockQueue sid' = if sid' = sid then s.elim [] fun s => s.lock.queue else w.lockQueue sid' := by
  rw [ServiceWorld.lockQueue, h, Function.update_apply]
  split <;> rfl

theorem lockQueue_onSession_of_ne {g : Session → Session} (h : sid' ≠ sid) :
    (w.onSession sid g).lockQueue sid' = w.lockQueue sid' :=
  (lockQueue_update rfl).trans (if_neg h)

theorem lockQueue_onSession {g : Session → Session} {f : List Nat → List Nat} (hf : f [] = [])
    (hg : ∀ s, (g s).lock.queue = f s.lock.queue) : (w.onSession sid g).lockQueue sid = f (w.lockQueue sid) := by
  refine ((lockQueue_update rfl).trans (if_pos rfl)).trans ?_
  rw [ServiceWorld.lockQueue]
  cases w.sessions sid with
  | none => exact hf.symm
  | some s => exact hg s

theorem lockQueue_enterLock (hs : (w.sessions sid).isSome = true) :
    (w.enterLock sid i).lockQueue sid = w.lockQueue sid ++ [i] := by
  obtain ⟨s, hs⟩ := Option.isSome_iff_exists.mp hs
  refine ((lockQueue_update rfl).trans (if_pos rfl)).trans ?_
  rw [ServiceWorld.lockQueue, hs]
  rfl

theorem lockQueue_leaveLock : (w.leaveLock sid i).lockQueue sid = (w.lockQueue sid).erase i :=
  lockQueue_onSession (f := fun q => q.erase i) rfl fun _ => rfl

theorem lockQueue_leaveLock_of_ne (h : sid' ≠ sid) : (w.leaveLock sid i).lockQueue sid' = w.lockQueue sid' :=
  lockQueue_onSession_of_ne h

theorem lockQueue_onMessage {personaId : Uuid} {m : MessageWorld} :
    (w.onMessage sid personaId m).lockQueue sid' = w.lockQueue sid' := by
  by_cases h : sid' = sid
  · subst h
    exact lockQueue_onSession (w := w.onPersona personaId m.persona) (f := id) rfl fun _ => rfl
  · exact lockQueue_onSession_of_ne (w := w.onPersona personaId m.persona) h

theorem lockQueue_create {s : SessionState} (hnew : w.sessions s.sessionId = none) :
    (w.create s).lockQueue sid = w.lockQueue sid := by
  refine (lockQueue_update rfl).trans ?_
  split
  · rename_i h
    rw [ServiceWorld.lockQueue, h, hnew]
    rfl
  · rfl

/-- What a step of a request does to the queue of a lock: nothing, or the request takes its place or leaves it. -/
inductive QueueStep (sid : Uuid) (i : Nat) (w w' : ServiceWorld) (t t' : ServiceTask) : Prop
  | same (queue : w'.lockQueue sid = w.lockQueue sid) (queued : t'.queued sid = t.queued sid)
  | enter (queue : w'.lockQueue sid = w.lockQueue sid ++ [i]) (before : t.queued sid = false)
      (queued : t'.queued sid = true)
  | leave (queue : w'.lockQueue sid = (w.lockQueue sid).erase i) (before : t.queued sid = true)
      (queued : t'.queued sid = false)

theorem QueueStep.of_enter (hs : (w.sessions sid').isSome = true) (ht : ∀ s, t.queued s = false)
    (ht' : ∀ s, t'.queued s = decide (sid' = s)) : QueueStep sid i w (w.enterLock sid' i) t t' := by
  by_cases h : sid = sid'
  · subst h
    exact .enter (lockQueue_enterLock hs) (ht _) (by rw [ht', decide_eq_true rfl])
  · exact .same (lockQueue_onSession_of_ne h) (by rw [ht, ht', decide_eq_false (Ne.symm h)])

theorem QueueStep.of_leave {u : ServiceWorld} (hw : w'.sessions = (u.leaveLock sid' i).sessions)
    (hq : u.lockQueue sid = w.lockQueue sid) (ht : ∀ s, t.queued s = decide (sid' = s))
    (ht' : ∀ s, t'.queued s = false) : QueueStep sid i w w' t t' := by
  have hsame : w'.lockQueue sid = (u.leaveLock sid' i).lockQueue sid := by
    rw [ServiceWorld.lockQueue, hw, ServiceWorld.lockQueue]
  by_cases h : sid = sid'
  · subst h
    exact .leave (by rw [hsame, lockQueue_leaveLock, hq]) (by rw [ht, decide_eq_true rfl]) (ht' _)
  · exact .same (by rw [hsame, lockQueue_leaveLock_of_ne h, hq]) (by rw [ht, ht', decide_eq_false (Ne.symm h)])

theorem RequestStep.queue (h : RequestStep H w i t e (w', t')) (hp : t.Placed w) : QueueStep sid i w w' t t' := by
  cases h with
  | start hs =>
    cases hs with
    | created hnew => exact .same (lockQueue_create hnew) rfl
    | _ => exact .same rfl rfl
  | message hs =>
    cases hs with
    | pull => exact .of_enter (hp.1 rfl) (fun _ => rfl) fun _ => rfl
    | cancelLocking => exact .of_leave rfl rfl (fun _ => rfl) fun _ => rfl
    | message => exact .same lockQueue_onMessage rfl
    | messageLeft => exact .of_leave (u := w.onMessage _ _ _) rfl lockQueue_onMessage (fun _ => rfl) fun _ => rfl
    | _ => exact .same rfl rfl
  | ending hs =>
    cases hs with
    | known hget => exact .of_enter (isSome_of_get hget) (fun _ => rfl) fun _ => rfl
    | gone | cancelLocking | removed | removeFailed => exact .of_leave rfl rfl (fun _ => rfl) fun _ => rfl
    | poppedEmpty => exact .of_leave (u := w.pop _) rfl rfl (fun _ => rfl) fun _ => rfl
    | cancelRemoving => exact .of_leave (u := w.onSessionPersona _ _) rfl rfl (fun _ => rfl) fun _ => rfl
    | _ => exact .same rfl rfl
  | persona => exact .same rfl rfl

end

/-! ## Where the requests are -/

section
variable {H : Host} {w w' : ServiceWorld} {i : Nat} {t t' : ServiceTask} {e : ServiceEvent} {sid : Uuid}

theorem isSome_sessions : (w.sessions sid).isSome = (w.state sid).isSome := by
  rw [ServiceWorld.state, Option.isSome_map]

theorem SessionsKept.isSome (h : SessionsKept w w') (hs : (w.sessions sid).isSome = true) :
    (w'.sessions sid).isSome = true := by
  rw [isSome_sessions] at hs ⊢
  obtain ⟨s, hs⟩ := Option.isSome_iff_exists.mp hs
  obtain ⟨s', hs', -⟩ := h sid s hs
  rw [hs']
  rfl

/-- A request stays where it is while others take their steps. -/
theorem ServiceTask.Placed.mono (hp : t.Placed w) (h : SessionsKept w w') : t.Placed w' := by
  cases t with
  | message => exact ⟨fun hf => h.isSome (hp.1 hf), hp.2⟩
  | ending => exact fun hpc => h.isSome (hp hpc)
  | start => trivial
  | persona id u =>
    cases u with
    | upload | delete => trivial
    | process pc => cases pc <;> exact hp

theorem Run.chosen_goto_of_ended {r : Run} {pc : RunPc} (h : pc.phase = .failing ∨ pc.ended = true) :
    (r.goto pc).Chosen := by
  cases pc <;> first | trivial | (simp [RunPc.phase, RunPc.ended] at h)

theorem chosen_failed {r : Run} {ex : Exc} : (r.failed ex).Chosen := trivial

theorem chosen_orFail {w : PersonaWorld} {r : Run} {fault : Option Exc} {k : PersonaWorld × Run}
    (h : k.2.Chosen) : (orFail w r fault k).2.Chosen := by
  cases fault with
  | some ex => exact chosen_failed
  | none => exact h

theorem chosen_nextClip {r : Run} {fs : Files} {n : Nat} (h : r.photo.isSome = true) :
    (r.goto (nextClip fs n)).Chosen := by
  rw [nextClip]
  split
  · exact h
  · trivial

theorem BodyStep.chosen {w : PersonaWorld} {r : Run} {ev : RunEvent} {out : PersonaWorld × Run}
    (h : BodyStep H w r r.pc ev out) (hr : r.Chosen) : out.2.Chosen := by
  obtain ⟨pc, voice, photo⟩ := r
  dsimp only at h
  cases h with
  | select =>
    refine chosen_orFail ?_
    rw [selectVoice]
    split
    · exact chosen_failed
    · exact rfl
  | extract =>
    refine chosen_orFail ?_
    rw [prepareVoiceRef]
    split
    · trivial
    · exact hr
  | spawned => exact hr
  | trimOutput | trimExit => exact hr
  | trimDone =>
    rw [finishTrim]
    split
    · exact chosen_failed
    · refine chosen_orFail ?_
      dsimp only
      split
      · exact chosen_orFail trivial
      · trivial
  | transcribe =>
    refine chosen_orFail ?_
    rw [transcribeVoice]
    split
    · split
      · trivial
      · exact chosen_failed
    · trivial
  | transcribed =>
    rw [saveRefText]
    split <;> trivial
  | render =>
    refine chosen_orFail ?_
    rw [renderIdleClips]
    split
    · exact chosen_failed
    · exact chosen_nextClip (r := ⟨.setRendering, voice, some _⟩) rfl
  | acquireDitto | renderSpawned | renderOutput => exact hr
  | rendered => exact chosen_orFail (chosen_nextClip hr)
  | inserted =>
    dsimp only [Run.goto]
    split <;> trivial
  | _ => trivial

theorem runStep_chosen {w : PersonaWorld} {r : Run} {ev : RunEvent} {out : PersonaWorld × Run}
    (h : runStep H w r ev = some out) (hr : r.Chosen) : out.2.Chosen := by
  rcases runStep_cases h with h | ⟨-, h⟩
  · exact h.chosen hr
  · cases h with
    | body _ hpc | trimming _ _ hpc | rendering _ _ hpc => exact Run.chosen_goto_of_ended (.inl hpc)
    | ended _ hpc => exact Run.chosen_goto_of_ended (.inr hpc)

theorem PostStep.placed {messageId : Uuid} {pc : PostPc} {ev : PostEvent} {out : ServiceWorld × PostPc}
    (h : PostStep H w i sid messageId pc ev out) (hp : (ServiceTask.message sid messageId pc).Placed w) :
    (ServiceTask.message sid messageId out.2).Placed w := by
  obtain ⟨hs, -, hout⟩ := hp
  cases h with
  | known hget => exact ⟨fun _ => isSome_of_get hget, nofun, by rintro _ (h | h) <;> cases h⟩
  | unknown | full | rolledBack | drop | cancelAdmitting | cancelReading | cancelClosing | cancelRollback =>
    exact ⟨nofun, nofun, by rintro _ (h | h) <;> cases h⟩
  | granted => exact ⟨fun _ => hs rfl, fun _ h => by cases h; rfl, by rintro _ (h | h) <;> cases h⟩
  | message _ _ hl => exact ⟨fun _ => hs rfl, fun _ h => by cases h; exact hl, by rintro _ (h | h) <;> cases h⟩
  | messageLeft _ _ hl =>
    exact ⟨fun _ => hs rfl, nofun, by rintro _ (h | h) <;> cases h; exact hl⟩
  | released | cancelReleasing =>
    exact ⟨fun _ => hs rfl, nofun, by rintro _ (h | h) <;> cases h; exact hout _ (.inl rfl)⟩
  | finaliseReleasing | cancelLocking | finaliseFinished =>
    exact ⟨fun _ => hs rfl, nofun, by rintro _ (h | h) <;> cases h; rfl⟩
  | _ => exact ⟨fun _ => hs rfl, nofun, by rintro _ (h | h) <;> cases h⟩

theorem RequestStep.placed (h : RequestStep H w i t e (w', t')) (hp : t.Placed w) : t'.Placed w' := by
  have hkept : SessionsKept w w' := h.change.sessionsKept
  refine ServiceTask.Placed.mono ?_ hkept
  cases h with
  | start => trivial
  | message hs => exact hs.placed hp
  | ending hs =>
    cases hs with
    | known hget => exact fun _ => isSome_of_get hget
    | popped | remove | apply => exact fun _ => hp (by simp)
    | _ => rintro (h | h) <;> cases h
  | persona hstep =>
    cases personaStep_inv hstep with
    | upload | delete => trivial
    | process hs =>
      cases hs with
      | run hr => exact runStep_chosen hr hp
      | _ => trivial

theorem placed_of_arriving (h : t.arriving = true) : t.Placed w := by
  unfold ServiceTask.arriving at h
  split at h
  · trivial
  · exact ⟨nofun, nofun, by rintro _ (h | h) <;> cases h⟩
  · rintro (h | h) <;> cases h
  · rename_i id u
    cases u with
    | upload | delete => trivial
    | process pc =>
      cases pc with
      | accepted => cases h
      | _ => trivial
  · cases h

theorem queued_of_arriving (h : t.arriving = true) : t.queued sid = false := by
  unfold ServiceTask.arriving at h
  split at h <;> first | rfl | cases h

end

/-! ## The invariant -/

/-- The permits add up, every request is placed, the queue of a lock holds the requests that are queued, each
once, and there is an unused id for a session. -/
structure Orderly (p : Pool ServiceWorld ServiceTask) : Prop where
  gpu : p.world.gpu + Pool.total (fun t => t.holdsGpu.toNat) p.tasks = gpuConcurrency
  ditto : p.world.ditto + Pool.total (fun t => t.holdsDitto.toNat) p.tasks = gpuConcurrency
  placed : p.All fun w _ t => t.Placed w
  nodup : ∀ sid, (p.world.lockQueue sid).Nodup
  queued : ∀ sid i, i ∈ p.world.lockQueue sid ↔ ∃ t, p.tasks[i]? = some t ∧ t.queued sid = true
  unused : ∃ n, ∀ sid, n ≤ sid → p.world.sessions sid = none

section
variable {H : Host} {admits : ServiceTask → Bool} {p q : Pool ServiceWorld ServiceTask} {w w' : ServiceWorld} {i : Nat}
  {t t' : ServiceTask} {e : ServiceEvent} {sid : Uuid}

/-- The ids that are not used stay so, but for the one that is given to a new session. -/
theorem ServiceChange.unused (h : ServiceChange H w t e w') (hn : ∃ n, ∀ sid, n ≤ sid → w.state sid = none) :
    ∃ n, ∀ sid, n ≤ sid → w'.state sid = none := by
  obtain ⟨n, hn⟩ := hn
  cases h with
  | same _ state | removed _ _ _ state => exact ⟨n, fun sid hle => by rw [state]; exact hn sid hle⟩
  | @created _ _ new =>
    refine ⟨max n (new + 1), fun sid hle => ?_⟩
    have hne : sid ≠ new := by
      rintro rfl
      exact Nat.not_succ_le_self sid (le_trans (Nat.le_max_right n (sid + 1)) hle)
    rw [state_create, Function.update_of_ne hne]
    exact hn sid (le_trans (Nat.le_max_left n (new + 1)) hle)
  | @spoke sid' _ _ _ _ s m _ hs _ _ state =>
    refine ⟨n, fun sid hle => ?_⟩
    have hne : sid ≠ sid' := by
      rintro rfl
      rw [hn sid hle] at hs
      cases hs
    rw [state, Function.update_of_ne hne]
    exact hn sid hle
  | persona => exact ⟨n, hn⟩

theorem Orderly.run (h : Orderly p) (hi : p.tasks[i]? = some t) (hs : serviceStep H p.world i t e = some (w', t')) :
    Orderly ⟨w', p.tasks.set i t'⟩ := by
  obtain ⟨w₁, gpu, ditto, hreq, hgpu, rfl⟩ := serviceStep_inv hs
  obtain ⟨w₂, hreq₂, -, hditto⟩ := serviceStep_ditto hs
  have hp := h.placed i t hi
  have hplaced := hreq.placed hp
  rw [hreq.calls.permits.1] at hgpu
  have hqueue : ∀ sid, QueueStep sid i p.world w₁ t t' := fun _ => hreq.queue hp
  refine ⟨(Semaphore.total_set hi hgpu).trans h.gpu, (Semaphore.total_set hi hditto).trans h.ditto,
    .set hi (hplaced.mono fun _ s hs => ⟨s, hs, rfl⟩) (fun j u _ hu => (h.placed j u hu).mono hreq.change.sessionsKept),
    fun sid => ?_, fun sid j => ?_, ?_⟩
  · change (w₁.lockQueue sid).Nodup
    cases hqueue sid with
    | same hq => rw [hq]; exact h.nodup sid
    | enter hq hbefore =>
      rw [hq]
      refine List.nodup_append.mpr ⟨h.nodup sid, List.nodup_singleton i, fun a ha b hb => ?_⟩
      rw [List.mem_singleton] at hb
      subst hb
      rintro rfl
      obtain ⟨u, hu, hqueued⟩ := (h.queued sid a).mp ha
      rw [hi] at hu
      cases hu
      rw [hbefore] at hqueued
      cases hqueued
    | leave hq => rw [hq]; exact (h.nodup sid).erase i
  · change j ∈ w₁.lockQueue sid ↔ _
    have hold := h.queued sid j
    by_cases hj : j = i
    · subst hj
      have hnew : (∃ u, (p.tasks.set j t')[j]? = some u ∧ u.queued sid = true) ↔ t'.queued sid = true := by
        rw [Pool.getElem?_set_of_some hi]
        exact ⟨by rintro ⟨u, ⟨⟩, hu⟩; exact hu, fun hu => ⟨t', rfl, hu⟩⟩
      have hbefore : j ∈ p.world.lockQueue sid ↔ t.queued sid = true := by
        rw [hold, hi]
        exact ⟨by rintro ⟨u, ⟨⟩, hu⟩; exact hu, fun hu => ⟨t, rfl, hu⟩⟩
      rw [hnew]
      cases hqueue sid with
      | same hq hqueued => rw [hq, hqueued, hbefore]
      | enter hq _ hqueued => rw [hq, hqueued]; simp
      | leave hq _ hqueued =>
        rw [hq, hqueued, (h.nodup sid).mem_erase_iff]
        simp
    · have hsame : (p.tasks.set i t')[j]? = p.tasks[j]? := Pool.getElem?_set_of_ne hj
      rw [hsame, ← hold]
      cases hqueue sid with
      | same hq => rw [hq]
      | enter hq => rw [hq, List.mem_append, List.mem_singleton, or_iff_left hj]
      | leave hq => rw [hq, List.mem_erase_of_ne hj]
  · obtain ⟨n, hn⟩ := hreq.change.unused (H := H) (e := e) (t := t) (by
      obtain ⟨n, hn⟩ := h.unused
      exact ⟨n, fun sid hle => by rw [ServiceWorld.state, hn sid hle]; rfl⟩)
    refine ⟨n, fun sid hle => ?_⟩
    have := hn sid hle
    rwa [ServiceWorld.state, Option.map_eq_none_iff] at this

/-- Every step keeps the invariant. -/
theorem Orderly.next {e : Event ServiceTask ServiceEvent ServiceEnv} (h : Orderly p)
    (hs : (serviceCoop H admits).next p e = some q) : Orderly q := by
  refine service_next_cases (motive := Orderly) hs ?_ ?_ ?_
  · intro t harr _
    refine ⟨?_, ?_, h.placed.append (placed_of_arriving harr), h.nodup, fun sid i => ?_, h.unused⟩
    · rw [Pool.total_append, Pool.total_singleton, (calls_of_arriving harr).1]
      exact h.gpu
    · rw [Pool.total_append, Pool.total_singleton, holdsDitto_of_arriving harr]
      exact h.ditto
    · refine (h.queued sid i).trans ⟨?_, ?_⟩
      · rintro ⟨u, hu, hqueued⟩
        obtain ⟨hlt, -⟩ := List.getElem?_eq_some_iff.mp hu
        exact ⟨u, by rw [List.getElem?_append_left hlt, hu], hqueued⟩
      · rintro ⟨u, hu, hqueued⟩
        rcases Pool.getElem?_append_cases hu with ⟨-, rfl⟩ | hu
        · rw [queued_of_arriving harr] at hqueued
          cases hqueued
        · exact ⟨u, hu, hqueued⟩
  · rintro i ev t w t' rfl hi hstep
    exact h.run hi hstep
  · intro x w hx
    cases x with
    | sweep now =>
      cases hx
      exact ⟨h.gpu, h.ditto, h.placed, h.nodup, h.queued, h.unused⟩
    | orphan id k act =>
      obtain ⟨p', -, rfl⟩ := Option.map_eq_some_iff.mp hx
      exact ⟨h.gpu, h.ditto, h.placed, h.nodup, h.queued, h.unused⟩

theorem Orderly.initial (h : (serviceSystem H admits ServiceWorld.Fresh).init p) : Orderly p := by
  obtain ⟨hw, htasks⟩ := h
  have hqueue : ∀ sid, p.world.lockQueue sid = [] := by
    intro sid
    rw [ServiceWorld.lockQueue, hw.sessions sid]
    rfl
  refine ⟨?_, ?_, .nil htasks, fun sid => ?_, fun sid i => ?_, 0, fun sid _ => hw.sessions sid⟩
  · rw [htasks, hw.gpu]; rfl
  · rw [htasks, hw.ditto]; rfl
  · rw [hqueue]; exact List.nodup_nil
  · rw [hqueue, htasks]
    simp

theorem orderly_of_reach (h : (serviceSystem H admits ServiceWorld.Fresh).Reach anyStep p) : Orderly p :=
  h.inv (fun _ => Orderly.initial) fun _ _ _ hI _ hs => hI.next hs

/-! ## Some request goes on -/

/-- A request of the pool can take a smooth step. -/
def Goes (H : Host) (p : Pool ServiceWorld ServiceTask) : Prop :=
  ∃ i t e w' t', p.tasks[i]? = some t ∧ serviceStep H p.world i t e = some (w', t') ∧ t.lingers e = false ∧
    (e.smooth = true ∨ t.cutOff p.world = true ∧ e.fails = true)

theorem Orderly.goesOn (h : Orderly p) (hi : p.tasks[i]? = some t) (hended : t.ended = false)
    (hturn : ∀ sid, t.awaitsLock sid = true → p.world.turn sid i = true) : GoesOn H p.world i t := by
  obtain ⟨n, hn⟩ := h.unused
  exact request_goesOn (h.placed i t hi) ⟨n, hn n (Nat.le_refl n)⟩ hturn hended

/-- A request that waits for no semaphore that is taken, and that has the turn if it waits for a lock, goes on. -/
theorem Orderly.goes (h : Orderly p) (hi : p.tasks[i]? = some t) (hended : t.ended = false)
    (hturn : ∀ sid, t.awaitsLock sid = true → p.world.turn sid i = true)
    (hgpu : t.awaitsGpu = true → 0 < p.world.gpu) (hditto : t.awaitsDitto = true → 0 < p.world.ditto) :
    Goes H p := by
  obtain ⟨e, w', t', hs, hl, hsm⟩ := exists_serviceStep (h.goesOn (H := H) hi hended hturn) hgpu hditto
  exact ⟨i, t, e, w', t', hi, hs, hl, hsm⟩

/-- Whoever holds a semaphore goes on. -/
theorem Orderly.goes_of_holder (h : Orderly p) (hi : p.tasks[i]? = some t)
    (hheld : t.holdsGpu = true ∨ t.holdsDitto = true) : Goes H p := by
  obtain ⟨hended, hgpu, hditto, hlock⟩ := waits_of_holds (h.placed i t hi) hheld
  refine h.goes hi hended (fun sid hs => ?_) (fun hs => ?_) fun hs => ?_
  · rw [hlock sid] at hs; cases hs
  · rw [hgpu] at hs; cases hs
  · rw [hditto] at hs; cases hs

/-- When no permit is free, somebody holds one. -/
theorem exists_holder {holds : ServiceTask → Bool} {n : Nat}
    (h : n + Pool.total (fun t => (holds t).toNat) p.tasks = gpuConcurrency) (hn : ¬ 0 < n) :
    ∃ (i : Nat) (t : ServiceTask), p.tasks[i]? = some t ∧ holds t = true := by
  by_contra hno
  have hzero : Pool.total (fun t => (holds t).toNat) p.tasks = 0 := by
    refine Pool.total_eq_zero fun t ht => ?_
    obtain ⟨i, hi⟩ := List.mem_iff_getElem?.mp ht
    cases hb : holds t with
    | false => rfl
    | true => exact absurd ⟨i, t, hi, hb⟩ hno
  rw [gpuConcurrency] at h
  omega

/-- A request that has the turn, or waits for no lock: it goes on, or the holder of its semaphore does. -/
theorem Orderly.goes_of_turn (h : Orderly p) (hi : p.tasks[i]? = some t) (hended : t.ended = false)
    (hturn : ∀ sid, t.awaitsLock sid = true → p.world.turn sid i = true) : Goes H p := by
  by_cases hgpu : 0 < p.world.gpu
  · by_cases hditto : 0 < p.world.ditto
    · exact h.goes hi hended hturn (fun _ => hgpu) fun _ => hditto
    · obtain ⟨j, u, hj, hu⟩ := exists_holder h.ditto hditto
      exact h.goes_of_holder hj (.inr hu)
  · obtain ⟨j, u, hj, hu⟩ := exists_holder h.gpu hgpu
    exact h.goes_of_holder hj (.inl hu)

theorem ended_of_queued (h : t.queued sid = true) : t.ended = false := by
  unfold ServiceTask.queued at h
  split at h <;> first | rfl | cases h

theorem queued_of_awaitsLock (h : t.awaitsLock sid = true) : t.queued sid = true := by
  unfold ServiceTask.awaitsLock at h
  split at h <;> first | exact h | cases h

/-- A request waits for one lock at most. -/
theorem awaitsLock_of_queued {sid' : Uuid} (h : t.awaitsLock sid' = true) (hq : t.queued sid = true) : sid' = sid := by
  unfold ServiceTask.awaitsLock at h
  split at h
  · exact (of_decide_eq_true h).symm.trans (of_decide_eq_true hq)
  · exact (of_decide_eq_true h).symm.trans (of_decide_eq_true hq)
  · cases h

/-- As long as a request has not ended, some request goes on: that one, the first in the queue of its lock, or
the holder of a semaphore. -/
theorem Orderly.goes_of_unended (h : Orderly p) (hi : p.tasks[i]? = some t) (hended : t.ended = false) : Goes H p := by
  by_cases hlock : ∃ sid, t.awaitsLock sid = true
  · obtain ⟨sid, hlock⟩ := hlock
    have hmem := (h.queued sid i).mpr ⟨t, hi, queued_of_awaitsLock hlock⟩
    cases hq : p.world.lockQueue sid with
    | nil => rw [hq] at hmem; cases hmem
    | cons j rest =>
      obtain ⟨u, hu, hqueued⟩ := (h.queued sid j).mp (by rw [hq]; exact List.mem_cons_self)
      refine h.goes_of_turn hu (ended_of_queued hqueued) fun sid' hs => ?_
      rw [awaitsLock_of_queued hs hqueued]
      exact turn_of_lockQueue hq
  · exact h.goes_of_turn hi hended fun sid hs => absurd ⟨sid, hs⟩ hlock

/-- When no request can take a smooth step, all have ended. -/
theorem Orderly.ended_of_stuck (h : Orderly p) (hstuck : (serviceSystem H admits ServiceWorld.Fresh).Stuck Smooth p) :
    ∀ t ∈ p.tasks, t.ended = true := by
  intro t ht
  cases hended : t.ended with
  | true => rfl
  | false =>
    obtain ⟨i, hi⟩ := List.mem_iff_getElem?.mp ht
    obtain ⟨j, u, e, w', u', hj, hs, hl, hsm⟩ := h.goes_of_unended (H := H) hi hended
    have hnone := hstuck (.run j e) fun v hv => by
      rw [hj] at hv
      cases hv
      exact ⟨hl, hsm⟩
    change ((p.tasks[j]?).bind fun u => (serviceStep H p.world j u e).map _) = none at hnone
    rw [hj, Option.bind_some, hs] at hnone
    cases hnone

/-- When all requests have ended, every permit is free, and nobody is in the queue of a lock. -/
theorem Orderly.idle_of_ended (h : Orderly p) (hended : ∀ t ∈ p.tasks, t.ended = true) :
    p.world.gpu = gpuConcurrency ∧ p.world.ditto = gpuConcurrency ∧ ∀ sid, p.world.lockQueue sid = [] := by
  have hfree : ∀ t ∈ p.tasks, ¬ (t.holdsGpu = true ∨ t.holdsDitto = true) := by
    intro t ht hheld
    obtain ⟨i, hi⟩ := List.mem_iff_getElem?.mp ht
    have hnot := (waits_of_holds (h.placed i t hi) hheld).1
    rw [hended t ht] at hnot
    cases hnot
  have hgpu := h.gpu
  have hditto := h.ditto
  rw [Pool.total_eq_zero fun t ht => by simpa using fun hb => hfree t ht (.inl hb)] at hgpu
  rw [Pool.total_eq_zero fun t ht => by simpa using fun hb => hfree t ht (.inr hb)] at hditto
  refine ⟨hgpu, hditto, fun sid => List.eq_nil_iff_forall_not_mem.mpr fun i hi => ?_⟩
  obtain ⟨t, ht, hqueued⟩ := (h.queued sid i).mp hi
  have hnot := ended_of_queued hqueued
  rw [hended t (List.mem_of_getElem? ht)] at hnot
  cases hnot

end

/-! ## Main result -/

/-- From every state of the service, whatever has failed and whoever has been cancelled or disconnected before, all
requests can come to their end without another failure, cancellation or disconnect, and without a new request:
nothing waits for a lock or a semaphore that is never released, and in the end all of them are free. Only a write
to a folder that has been deleted fails. -/
theorem service_completes (H : Host) (admits : ServiceTask → Bool) (p : Pool ServiceWorld ServiceTask)
    (h : (serviceSystem H admits ServiceWorld.Fresh).Reach anyStep p) :
    ∃ q, (serviceSystem H admits ServiceWorld.Fresh).Steps Smooth p q ∧ (∀ t ∈ q.tasks, t.ended = true) ∧
      q.world.gpu = gpuConcurrency ∧ q.world.ditto = gpuConcurrency ∧ ∀ sid, q.world.lockQueue sid = [] := by
  have hends : (serviceSystem H admits ServiceWorld.Fresh).Terminates Smooth p := by
    refine (service_terminates p).mono fun p e he => ?_
    cases e with
    | arrive | env => cases he
    | run i e => exact fun t ht => (he t ht).1
  obtain ⟨q, hrun, hstuck⟩ := hends.exists_stuck
  have horderly : Orderly q := orderly_of_reach (h.steps (hrun.mono fun _ _ _ => trivial))
  have hended := horderly.ended_of_stuck hstuck
  exact ⟨q, hrun, hended, horderly.idle_of_ended hended⟩

/-- The theorem at a run: one message has the lock of its session and is cancelled while it streams, a second one
and an `/end` wait for the lock. -/
theorem service_completes_run : ∃ p q : Pool ServiceWorld ServiceTask,
    p.world.lockQueue 20 = [1, 2, 3] ∧
      (serviceSystem sampleHost (fun _ => true) ServiceWorld.Fresh).Steps Smooth p q ∧
      (∀ t ∈ q.tasks, t.ended = true) ∧
      q.world.gpu = gpuConcurrency ∧ q.world.ditto = gpuConcurrency ∧ ∀ sid, q.world.lockQueue sid = [] := by
  have h : ((serviceSystem sampleHost (fun _ => true) ServiceWorld.Fresh).exec anyStep ⟨sampleService, []⟩
      (startSession 0 1 20 ++ postMessage 1 20 30 ++ postMessage 2 20 31 ++
        [.arrive (.ending 20 .arrived), .run 3 (.ending .enter)] ++
        sayMessage 1 [.pull cleanTextDone, .transcribed "안녕", .cancel true fun _ => true])).any
      (fun p => p.world.lockQueue 20 = [1, 2, 3]) = true := by
    decide +kernel
  obtain ⟨p, hsteps, hqueue⟩ := System.exists_of_exec h
  obtain ⟨q, hrun⟩ := service_completes sampleHost (fun _ => true) p ⟨_, ⟨sampleService_fresh, rfl⟩, hsteps⟩
  exact ⟨p, q, of_decide_eq_true hqueue, hrun⟩

end YeounEngine
