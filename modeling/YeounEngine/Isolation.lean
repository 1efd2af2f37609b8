import YeounEngine.Lib.Purge
import YeounEngine.MessageSlots
import YeounEngine.Expiry
import YeounEngine.RenderExclusion

/-!
# Personas do not meet

All personas are in one process, on one disk, and their requests take the same two semaphores and the same five
slots for messages. Apart from that, one persona has nothing of another: whatever is requested of the others, at
whatever step it fails or is cancelled, the row, the files, the progress, the sessions and the answers of a persona
are those of the run in which the others have taken no step at all (`isolated`). They may only make its requests wait
for a semaphore, and may be why a message is refused for the limit; such a refusal is the one step of its own requests
that is left out as well.
-/

namespace YeounEngine

open Transition

/-! ## The steps that concern a persona -/

/-- The persona of a request; that of a session that does not exist is not known. -/
def ServiceTask.personaOf (w : ServiceWorld) : ServiceTask → Option Uuid
  | .start id _ _ | .persona id _ => some id
  | .message sid _ _ | .ending sid _ => (w.state sid).map SessionState.personaId

/-- The message is refused in the step, because of the limit. -/
def refusedFor (w : ServiceWorld) : ServiceTask → ServiceEvent → Bool
  | .message _ _ .admitting, .message (.reserve _ _) => (maxConcurrentMessages : Int) ≤ w.activeMessages
  | _, _ => false

/-- What is left of a run for a persona: all requests arrive, so that each keeps its number, but those of other personas
take no step. -/
def concerns (id : Uuid) (p : Pool ServiceWorld ServiceTask) : Event ServiceTask ServiceEvent ServiceEnv → Bool
  | .arrive _ | .env (.sweep _) => true
  | .env (.orphan id' _ _) => id' = id
  | .run i e => (p.tasks[i]?).any fun t => (t.personaOf p.world).all (fun id' => id' = id) && !refusedFor p.world t e

/-- The session is one of the persona. -/
def ServiceWorld.belongs (w : ServiceWorld) (id sid : Uuid) : Bool := (w.state sid).any fun s => s.personaId = id

/-- The request was refused for the limit. -/
def ServiceTask.refused : ServiceTask → Bool
  | .message _ _ (.rejected e) => e = tooManyRequests
  | _ => false

/-- The same persona, with its sessions and its requests. -/
structure SeesSame (id : Uuid) (p p' : Pool ServiceWorld ServiceTask) : Prop where
  persona : p'.world.personas id = p.world.personas id
  sessions : ∀ sid, p.world.belongs id sid = true → p'.world.sessions sid = p.world.sessions sid ∧
    (sid ∈ p'.world.stored ↔ sid ∈ p.world.stored)
  requests : ∀ (i : Nat) t, p.tasks[i]? = some t → t.personaOf p.world = some id → t.refused = false →
    p'.tasks[i]? = some t

/-! ## The log -/

section
variable {H : Host} {messageId : Uuid} {m m' : MessageWorld} {pc pc' : MessagePc} {ev : MessageEvent}

/-- The world with another log. -/
def MessageWorld.withLogs (m : MessageWorld) (logs : List SafetyLog) : MessageWorld := { m with safetyLogs := logs }

theorem prepareSpeech_withLogs {logs : List SafetyLog} {userText finalText : String} {a : AfterTextDone} :
    prepareSpeech H messageId (m.withLogs logs) userText finalText a =
      ((prepareSpeech H messageId m userText finalText a).1.withLogs logs,
        (prepareSpeech H messageId m userText finalText a).2) := by
  simp only [prepareSpeech]
  cases a.mkdirFault with
  | some e => rfl
  | none =>
    cases a.refFault with
    | some e => rfl
    | none =>
      dsimp only
      rw [show selectRef H (((m.withLogs logs).appendHistory userText finalText a.now).onFiles fun fs =>
          fs.mkdir ((m.withLogs logs).appendHistory userText finalText a.now).speakDir) finalText =
        selectRef H ((m.appendHistory userText finalText a.now).onFiles fun fs =>
          fs.mkdir (m.appendHistory userText finalText a.now).speakDir) finalText from rfl]
      split <;> rfl

theorem pickSpeakPhoto_withLogs {logs : List SafetyLog} {fault : Option Exc} {unlinked : String → Unlinked} :
    pickSpeakPhoto H messageId (m.withLogs logs) fault unlinked =
      ((pickSpeakPhoto H messageId m fault unlinked).1.withLogs logs,
        (pickSpeakPhoto H messageId m fault unlinked).2) := by
  simp only [pickSpeakPhoto]
  cases fault with
  | some e => rfl
  | none =>
    dsimp only
    rw [show (m.withLogs logs).persona = m.persona from rfl]
    split <;> rfl

theorem finishSpeech_withLogs {logs : List SafetyLog} {wav : Unlinked} {unlinked : String → Unlinked} :
    finishSpeech messageId (m.withLogs logs) wav unlinked =
      ((finishSpeech messageId m wav unlinked).1.withLogs logs, (finishSpeech messageId m wav unlinked).2) := by
  cases wav <;> rfl

/-- No step of a message depends on what has been logged. -/
theorem messageStep_logs (h : messageStep H messageId m pc ev = some (m', pc')) (logs : List SafetyLog) :
    ∃ logs', messageStep H messageId (m.withLogs logs) pc ev = some (m'.withLogs logs', pc') := by
  rcases messageStep_cases h with h | h
  · generalize hout : (m', pc') = out at h
    cases h with
    | logCrisis | logForbidden => cases hout; exact ⟨_, rfl⟩
    | @crisisLogFailed keyword applied | @forbiddenLogFailed userText applied =>
      cases hout
      refine ⟨logs, ?_⟩
      cases applied <;> rfl
    | speech =>
      refine ⟨logs, (congrArg some prepareSpeech_withLogs).trans ?_⟩
      rw [← hout]
    | @synthesized _ o _ _ hd =>
      refine ⟨logs, (if_pos hd).trans (congrArg some ?_)⟩
      exact (pickSpeakPhoto_withLogs (m := speechOutput messageId m o)).trans (by rw [← hout]; rfl)
    | @rendered photo o wav unlinked hd =>
      refine ⟨logs, (if_pos hd).trans (congrArg some ?_)⟩
      exact (finishSpeech_withLogs (m := speakRendered messageId m photo o wav)).trans (by rw [← hout]; rfl)
    | @renderFailed _ _ started =>
      cases hout
      refine ⟨logs, ?_⟩
      cases started <;> rfl
    | _ => cases hout; exact ⟨logs, rfl⟩
  · generalize hout : (m', pc') = out at h
    cases h with
    | @synthesizing _ started | @rendering _ started =>
      cases hout
      refine ⟨logs, ?_⟩
      cases started <;> rfl
    | _ => cases hout; exact ⟨logs, rfl⟩

end

/-! ## What is the same of two worlds -/

/-- The persona and its sessions, in a world where the others have taken no step. -/
structure SameView (id : Uuid) (w w' : ServiceWorld) : Prop where
  persona : w'.personas id = w.personas id
  sessions : ∀ sid, w'.sessions sid = (w.sessions sid).filter fun s => s.state.personaId = id
  stored : w'.stored = w.stored.filter (w.belongs id)

section
variable {id id' sid : Uuid} {w w' : ServiceWorld} {s : Session} {g : Session → Session}

theorem belongs_of_sessions (hs : w.sessions sid = some s) : w.belongs id sid = decide (s.state.personaId = id) := by
  rw [ServiceWorld.belongs, ServiceWorld.state, hs]
  rfl

theorem belongs_of_none (hs : w.sessions sid = none) : w.belongs id sid = false := by
  rw [ServiceWorld.belongs, ServiceWorld.state, hs]
  rfl

/-- A session of the persona is the same object. -/
theorem SameView.session (h : SameView id w w') (hs : w.sessions sid = some s) (hid : s.state.personaId = id) :
    w'.sessions sid = some s := by
  rw [h.sessions, hs, Option.filter_some, if_pos (decide_eq_true hid)]

theorem SameView.noSession (h : SameView id w w') (hs : w.sessions sid = none) : w'.sessions sid = none := by
  rw [h.sessions, hs]
  rfl

theorem SameView.mem_stored (h : SameView id w w') (hb : w.belongs id sid = true) :
    sid ∈ w'.stored ↔ sid ∈ w.stored := by
  rw [h.stored, List.mem_filter]
  exact and_iff_left hb

/-- The store has the session or not, whoever asks. -/
theorem SameView.get (h : SameView id w w') (hown : ∀ s, w.sessions sid = some s → s.state.personaId = id) :
    w'.get sid = w.get sid := by
  rw [ServiceWorld.get, ServiceWorld.get]
  cases hs : w.sessions sid with
  | none => simp [h.noSession hs]
  | some s =>
    rw [h.session hs (hown s hs)]
    have hb : w.belongs id sid = true := (belongs_of_sessions hs).trans (decide_eq_true (hown s hs))
    simp only [h.mem_stored hb]

theorem SameView.turn {i : Nat} (h : SameView id w w') (hown : ∀ s, w.sessions sid = some s → s.state.personaId = id) :
    w'.turn sid i = w.turn sid i := by
  rw [ServiceWorld.turn, ServiceWorld.turn]
  cases hs : w.sessions sid with
  | none => rw [h.noSession hs]
  | some s => rw [h.session hs (hown s hs)]

/-! The changes of a world, in both. -/

theorem SameView.onPersona (h : SameView id w w') (p : PersonaWorld) :
    SameView id (w.onPersona id p) (w'.onPersona id p) where
  persona := by
    change Function.update w'.personas id p id = Function.update w.personas id p id
    rw [Function.update_self, Function.update_self]
  sessions := h.sessions
  stored := h.stored

theorem belongs_onSession (hg : ∀ s, w.sessions sid = some s → (g s).state.personaId = s.state.personaId) :
    (w.onSession sid g).belongs id = w.belongs id := by
  funext x
  simp only [ServiceWorld.belongs, ServiceWorld.state, ServiceWorld.onSession, Option.any_map]
  by_cases hx : x = sid
  · subst hx
    rw [Function.update_self, Option.any_map]
    cases hs : w.sessions x with
    | none => rfl
    | some s => simp [hg s hs]
  · rw [Function.update_of_ne hx]

theorem SameView.onSession (h : SameView id w w')
    (hg : ∀ s, w.sessions sid = some s → (g s).state.personaId = s.state.personaId) :
    SameView id (w.onSession sid g) (w'.onSession sid g) where
  persona := h.persona
  sessions x := by
    change Function.update w'.sessions sid _ x = (Function.update w.sessions sid _ x).filter _
    by_cases hx : x = sid
    · subst hx
      rw [Function.update_self, Function.update_self, h.sessions]
      cases hs : w.sessions x with
      | none => rfl
      | some s =>
        rw [Option.map_some, Option.filter_some, Option.filter_some, hg s hs]
        split <;> rfl
    · rw [Function.update_of_ne hx, Function.update_of_ne hx, h.sessions]
  stored := by
    rw [belongs_onSession hg]
    exact h.stored

theorem SameView.create (h : SameView id w w') {new : SessionState} (hnew : w.sessions new.sessionId = none)
    (hstored : ∀ sid ∈ w.stored, (w.state sid).isSome = true) (hid : new.personaId = id) :
    SameView id (w.create new) (w'.create new) := by
  have hbelongs : ∀ sid ∈ w.stored, (w.create new).belongs id sid = w.belongs id sid := by
    intro sid hsid
    have hne : sid ≠ new.sessionId := by
      rintro rfl
      have hsome := hstored _ hsid
      rw [ServiceWorld.state, hnew] at hsome
      cases hsome
    rw [ServiceWorld.belongs, ServiceWorld.belongs, state_create, Function.update_of_ne hne]
  refine ⟨h.persona, fun sid => ?_, ?_⟩
  · change Function.update w'.sessions _ _ sid = (Function.update w.sessions _ _ sid).filter _
    by_cases hsid : sid = new.sessionId
    · subst hsid
      rw [Function.update_self, Function.update_self, Option.filter_some, if_pos (decide_eq_true hid)]
    · rw [Function.update_of_ne hsid, Function.update_of_ne hsid, h.sessions]
  · change w'.stored ++ [new.sessionId] = (w.stored ++ [new.sessionId]).filter _
    have hself : (w.create new).belongs id new.sessionId = true := by
      rw [ServiceWorld.belongs, state_create, Function.update_self]
      exact decide_eq_true hid
    rw [List.filter_append, List.filter_cons_of_pos hself, h.stored, List.filter_congr hbelongs]
    rfl

theorem SameView.pop (h : SameView id w w') : SameView id (w.pop sid) (w'.pop sid) where
  persona := h.persona
  sessions := h.sessions
  stored := by
    change w'.stored.filter _ = (w.stored.filter _).filter _
    rw [h.stored, List.filter_filter, List.filter_filter]
    exact List.filter_congr fun x _ => Bool.and_comm _ _

theorem SameView.sweepOnce (h : SameView id w w') (now : Nat) : SameView id (w.sweepOnce now) (w'.sweepOnce now) where
  persona := h.persona
  sessions := h.sessions
  stored := by
    change w'.stored.filter _ = (w.stored.filter _).filter _
    rw [h.stored, List.filter_filter, List.filter_filter]
    refine List.filter_congr fun sid _ => ?_
    change _ = (w.belongs id sid && _)
    cases hs : w.sessions sid with
    | none => simp [belongs_of_none hs]
    | some s =>
      rw [belongs_of_sessions hs]
      by_cases hid : s.state.personaId = id
      · simp [h.session hs hid, hid]
      · simp [hid]

/-! The changes that others make. -/

theorem SameView.onOtherPersona (h : SameView id w w') (hne : id' ≠ id) (p : PersonaWorld) :
    SameView id (w.onPersona id' p) w' where
  persona := by
    rw [h.persona]
    exact (Function.update_of_ne (Ne.symm hne) ..).symm
  sessions := h.sessions
  stored := h.stored

theorem SameView.onOtherSession (h : SameView id w w')
    (hg : ∀ s, w.sessions sid = some s → (g s).state.personaId = s.state.personaId)
    (hother : w.belongs id sid = false) : SameView id (w.onSession sid g) w' where
  persona := h.persona
  sessions x := by
    rw [h.sessions]
    change _ = (Function.update w.sessions sid _ x).filter _
    by_cases hx : x = sid
    · subst hx
      rw [Function.update_self]
      cases hs : w.sessions x with
      | none => rfl
      | some s =>
        rw [belongs_of_sessions hs] at hother
        rw [Option.map_some, Option.filter_some, Option.filter_some, hg s hs, hother]
        rfl
    · rw [Function.update_of_ne hx]
  stored := by
    rw [belongs_onSession hg]
    exact h.stored

theorem SameView.createOther (h : SameView id w w') {new : SessionState} (hnew : w.sessions new.sessionId = none)
    (hne : new.personaId ≠ id) : SameView id (w.create new) w' := by
  have hbelongs : (w.create new).belongs id = w.belongs id := by
    funext sid
    rw [ServiceWorld.belongs, ServiceWorld.belongs, state_create]
    by_cases hsid : sid = new.sessionId
    · subst hsid
      rw [Function.update_self, ServiceWorld.state, hnew]
      exact decide_eq_false hne
    · rw [Function.update_of_ne hsid]
  refine ⟨h.persona, fun sid => ?_, ?_⟩
  · rw [h.sessions]
    change _ = (Function.update w.sessions _ _ sid).filter _
    by_cases hsid : sid = new.sessionId
    · subst hsid
      rw [Function.update_self, hnew, Option.filter_some, if_neg (by simpa using hne)]
      rfl
    · rw [Function.update_of_ne hsid]
  · change w'.stored = (w.stored ++ [new.sessionId]).filter _
    have hself : w.belongs id new.sessionId = false := belongs_of_none hnew
    rw [hbelongs, List.filter_append, List.filter_cons_of_neg (by rw [hself]; simp), h.stored]
    exact (List.append_nil _).symm

theorem SameView.popOther (h : SameView id w w') (hother : w.belongs id sid = false) : SameView id (w.pop sid) w' where
  persona := h.persona
  sessions := h.sessions
  stored := by
    change _ = (w.stored.filter _).filter (w.belongs id)
    rw [h.stored, List.filter_filter]
    refine List.filter_congr fun x _ => ?_
    by_cases hx : x = sid
    · subst hx
      rw [hother]
      rfl
    · simp [hx]

end

/-! ## A step of the persona's own requests -/

/-- A step and its twin: the same request, the same change of the counter, and the same view. -/
structure TwinStep (H : Host) (id : Uuid) (w w' w₁ : ServiceWorld) (i : Nat) (t : ServiceTask) (e : ServiceEvent)
    (t₁ : ServiceTask) (w₁' : ServiceWorld) : Prop where
  step : requestStep H w' i t e = some (w₁', t₁)
  view : SameView id w₁ w₁'
  active : w₁'.activeMessages + w.activeMessages = w'.activeMessages + w₁.activeMessages

section
variable {H : Host} {id : Uuid} {w w' w₁ : ServiceWorld} {i : Nat} {t t₁ : ServiceTask} {e : ServiceEvent}

/-- The view does not depend on the counter, the files of messages, the log and the permits. -/
theorem SameView.of_fields {v v' : ServiceWorld} (h : SameView id w w') (hp : v.personas = w.personas)
    (hs : v.sessions = w.sessions) (hst : v.stored = w.stored) (hp' : v'.personas = w'.personas)
    (hs' : v'.sessions = w'.sessions) (hst' : v'.stored = w'.stored) : SameView id v v' := by
  refine ⟨by rw [hp, hp', h.persona], fun sid => by rw [hs, hs', h.sessions], ?_⟩
  rw [hst, hst', h.stored]
  refine List.filter_congr fun sid _ => ?_
  rw [ServiceWorld.belongs, ServiceWorld.belongs, ServiceWorld.state, ServiceWorld.state, hs]

theorem StartStep.twin {userId : Uuid} {pc pc₁ : StartPc} {ev : StartEvent} (hv : SameView id w w')
    (hstored : ∀ sid ∈ w.stored, (w.state sid).isSome = true) (h : StartStep w id userId pc ev (w₁, pc₁)) :
    ∃ w₁', TwinStep H id w w' w₁ i (.start id userId pc) (.start ev) (.start id userId pc₁) w₁' := by
  have stays : requestStep H w' i (.start id userId pc) (.start ev) = some (w', .start id userId pc₁) → w₁ = w →
      ∃ w₁', TwinStep H id w w' w₁ i (.start id userId pc) (.start ev) (.start id userId pc₁) w₁' := by
    rintro hstep rfl
    exact ⟨w', hstep, hv, rfl⟩
  cases h with
  | select => exact stays (by simp [requestStep, startStep, hv.persona]) rfl
  | refused hg => exact stays (by simp [requestStep, startStep, hg]) rfl
  | passed hg => exact stays (by simp [requestStep, startStep, hg]) rfl
  | @created sid systemPrompt now hnew =>
    refine ⟨w'.create ⟨sid, userId, id, systemPrompt, now, now, []⟩, ?_, hv.create hnew hstored rfl, rfl⟩
    simp [requestStep, startStep, hv.noSession hnew]
  | @getFailed row | @cancelGetting row => cases row <;> exact stays rfl rfl
  | readFailed | cancelReading => exact stays rfl rfl

theorem PostStep.twin {sid messageId : Uuid} {pc pc₁ : PostPc} {ev : PostEvent} (hv : SameView id w w')
    (hown : ∀ s, w.sessions sid = some s → s.state.personaId = id)
    (hactive : w'.activeMessages ≤ w.activeMessages)
    (hnot : refusedFor w (.message sid messageId pc) (.message ev) = false)
    (h : PostStep H w i sid messageId pc ev (w₁, pc₁)) :
    ∃ w₁', TwinStep H id w w' w₁ i (.message sid messageId pc) (.message ev) (.message sid messageId pc₁) w₁' := by
  have stays : requestStep H w' i (.message sid messageId pc) (.message ev) = some (w', .message sid messageId pc₁) →
      w₁ = w → ∃ w₁',
        TwinStep H id w w' w₁ i (.message sid messageId pc) (.message ev) (.message sid messageId pc₁) w₁' := by
    rintro hstep rfl
    exact ⟨w', hstep, hv, rfl⟩
  have counts : ∀ {v v' : ServiceWorld}, v.personas = w.personas → v.sessions = w.sessions → v.stored = w.stored →
      v'.personas = w'.personas → v'.sessions = w'.sessions → v'.stored = w'.stored → SameView id v v' :=
    fun h₁ h₂ h₃ h₄ h₅ h₆ => hv.of_fields h₁ h₂ h₃ h₄ h₅ h₆
  have spoke : ∀ {pc pc' : MessagePc} {e : MessageEvent} {s : Session} {m : MessageWorld}, w.sessions sid = some s →
      messageStep H messageId (w.messageWorld s) pc e = some (m, pc') →
      ∃ logs', messageStep H messageId (w'.messageWorld s) pc e = some (m.withLogs logs', pc') ∧
        SameView id (w.onMessage sid s.state.personaId m) (w'.onMessage sid s.state.personaId (m.withLogs logs')) := by
    intro pc pc' e s m hs hm
    have hid := hown s hs
    have hworld : w'.messageWorld s = (w.messageWorld s).withLogs w'.safetyLogs := by
      rw [ServiceWorld.messageWorld, ServiceWorld.messageWorld, hid, hv.persona]
      rfl
    obtain ⟨logs', hm'⟩ := messageStep_logs hm w'.safetyLogs
    refine ⟨logs', hworld ▸ hm', ?_⟩
    have hkeeps : m.session.personaId = s.state.personaId := (messageStep_frame hm).personaId
    subst hid
    refine SameView.of_fields ((hv.onPersona m.persona).onSession (g := fun s => { s with state := m.session }) ?_)
      rfl rfl rfl rfl rfl rfl
    intro s' hs'
    obtain rfl := Option.some.inj (hs.symm.trans hs')
    exact hkeeps
  cases h with
  | unknown hs => exact stays (by simp [requestStep, postStep, hv.get hown, hs]) rfl
  | known hs => exact stays (by simp [requestStep, postStep, hv.get hown, hs]) rfl
  | full hf => exact absurd (decide_eq_true hf) (by simpa [refusedFor] using hnot)
  | @reserve tmp hf =>
    have hf' : ¬ (maxConcurrentMessages : Int) ≤ w'.activeMessages := by omega
    refine ⟨w'.takeSlot.makeTmp i true, by simp [requestStep, postStep, hf'], counts rfl rfl rfl rfl rfl rfl, ?_⟩
    change w'.activeMessages + 1 + w.activeMessages = w'.activeMessages + (w.activeMessages + 1)
    omega
  | @admitFailed e tmp hf =>
    have hf' : ¬ (maxConcurrentMessages : Int) ≤ w'.activeMessages := by omega
    refine ⟨w'.takeSlot.makeTmp i tmp, by simp [requestStep, postStep, hf'], counts rfl rfl rfl rfl rfl rfl, ?_⟩
    change w'.activeMessages + 1 + w.activeMessages = w'.activeMessages + (w.activeMessages + 1)
    omega
  | rolledBack | released =>
    refine ⟨w'.freeSlot, rfl, counts rfl rfl rfl rfl rfl rfl, ?_⟩
    change w'.activeMessages - 1 + w.activeMessages = w'.activeMessages + (w.activeMessages - 1)
    omega
  | pull => exact ⟨w'.enterLock sid i, rfl, hv.onSession fun _ _ => rfl, rfl⟩
  | granted ht => exact stays (by simp [requestStep, postStep, hv.turn hown, ht]) rfl
  | @message pc e unlinked s m pc' hs hm hl =>
    obtain ⟨logs', hm', hview⟩ := spoke hs hm
    refine ⟨w'.onMessage sid s.state.personaId (m.withLogs logs'), ?_, hview, rfl⟩
    simp [requestStep, postStep, hv.session hs (hown s hs), hm', inMessage, hl]
  | @messageLeft pc e unlinked s m pc' hs hm hl =>
    obtain ⟨logs', hm', hview⟩ := spoke hs hm
    refine ⟨(w'.onMessage sid s.state.personaId (m.withLogs logs')).leaveMessage sid i unlinked, ?_, ?_, rfl⟩
    · simp [requestStep, postStep, hv.session hs (hown s hs), hm', inMessage, hl]
    · exact (hview.onSession (g := fun s => { s with lock := s.lock.leave i }) fun _ _ => rfl).of_fields
        rfl rfl rfl rfl rfl rfl
  | @cancelLocking unlinked =>
    refine ⟨w'.leaveMessage sid i unlinked, rfl, ?_, rfl⟩
    exact (hv.onSession (g := fun s => { s with lock := s.lock.leave i }) fun _ _ => rfl).of_fields rfl rfl rfl
      rfl rfl rfl
  | _ => exact stays rfl rfl

theorem sessions_of_get {sid : Uuid} {s : Session} (hs : w.get sid = some s) : w.sessions sid = some s := by
  rw [ServiceWorld.get] at hs
  split at hs
  · exact hs
  · cases hs

theorem onSessionPersona_of_sessions {sid : Uuid} {s : Session} {g : PersonaWorld → PersonaWorld}
    (hs : w.sessions sid = some s) :
    w.onSessionPersona sid g = w.onPersona s.state.personaId (g (w.personas s.state.personaId)) := by
  rw [ServiceWorld.onSessionPersona, hs]
  rfl

theorem onSessionPersona_of_none {sid : Uuid} {g : PersonaWorld → PersonaWorld} (hs : w.sessions sid = none) :
    w.onSessionPersona sid g = w := by
  rw [ServiceWorld.onSessionPersona, hs]
  rfl

theorem SameView.onSessionPersona {sid : Uuid} {g : PersonaWorld → PersonaWorld} (hv : SameView id w w')
    (hown : ∀ s, w.sessions sid = some s → s.state.personaId = id) :
    SameView id (w.onSessionPersona sid g) (w'.onSessionPersona sid g) := by
  cases hs : w.sessions sid with
  | none =>
    rw [onSessionPersona_of_none hs, onSessionPersona_of_none (hv.noSession hs)]
    exact hv
  | some s =>
    have hid := hown s hs
    rw [onSessionPersona_of_sessions hs, onSessionPersona_of_sessions (hv.session hs hid), hid, hv.persona]
    exact hv.onPersona _

theorem SameView.leaveLock {sid : Uuid} (hv : SameView id w w') :
    SameView id (w.leaveLock sid i) (w'.leaveLock sid i) :=
  hv.onSession fun _ _ => rfl

theorem EndStep.twin {sid : Uuid} {pc pc₁ : EndPc} {ev : EndEvent} (hv : SameView id w w')
    (hown : ∀ s, w.sessions sid = some s → s.state.personaId = id) (h : EndStep w i sid pc ev (w₁, pc₁)) :
    ∃ w₁', TwinStep H id w w' w₁ i (.ending sid pc) (.ending ev) (.ending sid pc₁) w₁' := by
  have folder : ∀ {s : Session}, w.sessions sid = some s → (w'.personas s.state.personaId).files.dir (.speak sid) =
      (w.personas s.state.personaId).files.dir (.speak sid) := by
    intro s hs
    rw [hown s hs, hv.persona]
  cases h with
  | unknown hs => exact ⟨w', by simp [requestStep, endStep, hv.get hown, hs], hv, rfl⟩
  | known hs =>
    exact ⟨w'.enterLock sid i, by simp [requestStep, endStep, hv.get hown, hs], hv.onSession fun _ _ => rfl, rfl⟩
  | gone ht hs =>
    exact ⟨w'.leaveLock sid i, by simp [requestStep, endStep, endGranted, hv.turn hown, ht, hv.get hown, hs],
      hv.leaveLock, rfl⟩
  | popped ht hs hd =>
    refine ⟨w'.pop sid, ?_, hv.pop, rfl⟩
    have hd' := (congrArg Option.isSome (folder (sessions_of_get hs))).trans hd
    simp [requestStep, endStep, endGranted, hv.turn hown, ht, hv.get hown, hs, ServiceWorld.pop, hd']
  | poppedEmpty ht hs hd =>
    refine ⟨(w'.pop sid).leaveLock sid i, ?_, hv.pop.leaveLock, rfl⟩
    have hd' := (congrArg Option.isSome (folder (sessions_of_get hs))).trans hd
    simp [requestStep, endStep, endGranted, hv.turn hown, ht, hv.get hown, hs, ServiceWorld.pop, hd']
  | remove => exact ⟨w'.onSessionPersona sid _, rfl, hv.onSessionPersona hown, rfl⟩
  | apply => exact ⟨w'.onSessionPersona sid _, rfl, hv.onSessionPersona hown, rfl⟩
  | @removed s hs =>
    exact ⟨w'.leaveLock sid i, by simp [requestStep, endStep, hv.session hs (hown s hs)], hv.leaveLock, rfl⟩
  | removeFailed | cancelLocking => exact ⟨w'.leaveLock sid i, rfl, hv.leaveLock, rfl⟩
  | cancelRemoving =>
    exact ⟨(w'.onSessionPersona sid _).leaveLock sid i, rfl, (hv.onSessionPersona hown).leaveLock, rfl⟩

/-- A request of the persona, or one on a session that does not exist, takes its step in both worlds. -/
theorem RequestStep.twin (hv : SameView id w w') (hstored : ∀ sid ∈ w.stored, (w.state sid).isSome = true)
    (hown : ∀ id', t.personaOf w = some id' → id' = id) (hactive : w'.activeMessages ≤ w.activeMessages)
    (hnot : refusedFor w t e = false) (h : RequestStep H w i t e (w₁, t₁)) :
    ∃ w₁', TwinStep H id w w' w₁ i t e t₁ w₁' := by
  have owner : ∀ sid, (∀ id', (w.state sid).map SessionState.personaId = some id' → id' = id) →
      ∀ s, w.sessions sid = some s → s.state.personaId = id := by
    intro sid hown s hs
    refine hown _ ?_
    rw [state_of_sessions hs]
    rfl
  cases h with
  | @start personaId _ _ _ _ _ hs =>
    obtain rfl := hown personaId rfl
    exact hs.twin hv hstored
  | message hs => exact hs.twin hv (owner _ hown) hactive hnot
  | ending hs => exact hs.twin hv (owner _ hown)
  | @persona id' u ev p u' hs =>
    obtain rfl := hown id' rfl
    refine ⟨w'.onPersona id' p, ?_, hv.onPersona p, rfl⟩
    rw [requestStep, hv.persona, hs]
    rfl

/-! ## A step of another persona's requests -/

theorem SameView.leaveOther {sid : Uuid} (hv : SameView id w w') (hother : w.belongs id sid = false) :
    SameView id (w.leaveLock sid i) w' :=
  hv.onOtherSession (fun _ _ => rfl) hother

theorem SameView.onOtherSessionPersona {sid : Uuid} {g : PersonaWorld → PersonaWorld} {s : Session}
    (hv : SameView id w w') (hs : w.sessions sid = some s) (hne : s.state.personaId ≠ id) :
    SameView id (w.onSessionPersona sid g) w' := by
  rw [onSessionPersona_of_sessions hs]
  exact hv.onOtherPersona hne _

theorem PostStep.unseen {sid messageId : Uuid} {pc pc₁ : PostPc} {ev : PostEvent} {s : Session}
    (hv : SameView id w w') (hs : w.sessions sid = some s) (hne : s.state.personaId ≠ id)
    (h : PostStep H w i sid messageId pc ev (w₁, pc₁)) : SameView id w₁ w' := by
  have hother : w.belongs id sid = false := (belongs_of_sessions hs).trans (decide_eq_false hne)
  have counts : ∀ {v : ServiceWorld}, v.personas = w.personas → v.sessions = w.sessions → v.stored = w.stored →
      SameView id v w' := fun h₁ h₂ h₃ => hv.of_fields h₁ h₂ h₃ rfl rfl rfl
  have spoke : ∀ {pc pc' : MessagePc} {e : MessageEvent} {s' : Session} {m : MessageWorld}, w.sessions sid = some s' →
      messageStep H messageId (w.messageWorld s') pc e = some (m, pc') →
      SameView id (w.onMessage sid s'.state.personaId m) w' := by
    intro pc pc' e s' m hs' hm
    obtain rfl := Option.some.inj (hs.symm.trans hs')
    refine SameView.of_fields ((hv.onOtherPersona hne m.persona).onOtherSession
      (g := fun s => { s with state := m.session }) (fun s' hs' => ?_) hother) rfl rfl rfl rfl rfl rfl
    obtain rfl := Option.some.inj (hs.symm.trans hs')
    exact (messageStep_frame hm).personaId
  cases h with
  | reserve | admitFailed | rolledBack | released => exact counts rfl rfl rfl
  | pull => exact hv.onOtherSession (fun _ _ => rfl) hother
  | message hs' hm => exact spoke hs' hm
  | @messageLeft _ _ _ s' _ _ hs' hm =>
    refine SameView.of_fields ((spoke hs' hm).onOtherSession (g := fun s => { s with lock := s.lock.leave i })
      (fun _ _ => rfl) ?_) rfl rfl rfl rfl rfl rfl
    refine (congrFun (belongs_onSession (w := w.onPersona _ _) fun s'' hs'' => ?_) sid).trans hother
    obtain rfl := Option.some.inj (hs'.symm.trans hs'')
    exact (messageStep_frame hm).personaId
  | cancelLocking => exact (hv.leaveOther hother).of_fields rfl rfl rfl rfl rfl rfl
  | _ => exact hv

theorem EndStep.unseen {sid : Uuid} {pc pc₁ : EndPc} {ev : EndEvent} {s : Session} (hv : SameView id w w')
    (hs : w.sessions sid = some s) (hne : s.state.personaId ≠ id) (h : EndStep w i sid pc ev (w₁, pc₁)) :
    SameView id w₁ w' := by
  have hother : w.belongs id sid = false := (belongs_of_sessions hs).trans (decide_eq_false hne)
  cases h with
  | unknown => exact hv
  | known => exact hv.onOtherSession (fun _ _ => rfl) hother
  | popped => exact hv.popOther hother
  | poppedEmpty => exact (hv.popOther hother).leaveOther hother
  | remove | apply => exact hv.onOtherSessionPersona hs hne
  | gone | removed | removeFailed | cancelLocking => exact hv.leaveOther hother
  | cancelRemoving => exact (hv.onOtherSessionPersona hs hne).leaveOther hother

/-- A step of a request of another persona is not seen. -/
theorem RequestStep.unseen {id' : Uuid} (hv : SameView id w w') (howner : t.personaOf w = some id') (hne : id' ≠ id)
    (h : RequestStep H w i t e (w₁, t₁)) : SameView id w₁ w' := by
  have owner : ∀ sid, (w.state sid).map SessionState.personaId = some id' →
      ∃ s, w.sessions sid = some s ∧ s.state.personaId ≠ id := by
    intro sid howner
    obtain ⟨s, hs, hid⟩ := Option.map_eq_some_iff.mp howner
    obtain ⟨s, hsome, rfl⟩ := Option.map_eq_some_iff.mp hs
    exact ⟨s, hsome, hid ▸ hne⟩
  cases h with
  | start hs =>
    cases howner
    cases hs with
    | created hnew => exact hv.createOther hnew hne
    | _ => exact hv
  | message hs =>
    obtain ⟨s, hsome, hother⟩ := owner _ howner
    exact hs.unseen hv hsome hother
  | ending hs =>
    obtain ⟨s, hsome, hother⟩ := owner _ howner
    exact hs.unseen hv hsome hother
  | persona =>
    cases howner
    exact hv.onOtherPersona hne _

/-- No step gives back a slot that its request has not. -/
theorem RequestStep.slotGain (h : RequestStep H w i t e (w₁, t₁)) :
    w.activeMessages + t₁.admitted.toNat ≤ w₁.activeMessages + t.admitted.toNat := by
  cases h with
  | start hs | ending hs => cases hs <;> exact Int.le_refl _
  | persona => exact Int.le_refl _
  | message hs =>
    cases hs with
    | rolledBack | released =>
      change w.activeMessages + (0 : Nat) ≤ w.activeMessages - 1 + (1 : Nat)
      omega
    | reserve | admitFailed =>
      change w.activeMessages + (1 : Nat) ≤ w.activeMessages + 1 + (0 : Nat)
      omega
    | unknown | known | full | read | readFailed | readRaised | closeRaised | closed | pull
    | granted | message | messageLeft | finaliseReleasing | cancelAdmitting | cancelLocking => exact Int.le_refl _
    | _ =>
      change w.activeMessages + (0 : Nat) ≤ w.activeMessages + (_ : Nat)
      omega

end

/-! ## Requests side by side -/

/-- The request has not begun, or has found that there is no such session. -/
def ServiceTask.resting : ServiceTask → Bool
  | .message _ _ (.rejected _) | .ending _ (.done _) => true
  | t => t.arriving

/-- The request has no slot and no permit. -/
structure ServiceTask.Idle (t : ServiceTask) : Prop where
  admitted : t.admitted = false
  gpu : t.holdsGpu = false
  ditto : t.holdsDitto = false

/-- A request, and where it is in the run without the others: at the same place, if it is one of the persona; and
otherwise it has not begun. -/
inductive Twins (id : Uuid) (w : ServiceWorld) : ServiceTask → ServiceTask → Prop
  | own {t} (h : t.personaOf w = some id ∨ t.resting = true) : Twins id w t t
  | other {t t' id'} (h : t.personaOf w = some id') (hne : id' ≠ id) (hidle : t'.Idle) : Twins id w t t'
  | refused {sid messageId} :
      Twins id w (.message sid messageId (.rejected tooManyRequests)) (.message sid messageId .admitting)

section
variable {H : Host} {id : Uuid} {w w' w₁ : ServiceWorld} {i : Nat} {t t' t₁ : ServiceTask} {e : ServiceEvent}

theorem idle_of_resting (h : t.resting = true) : t.Idle := by
  have harriving : t.arriving = true → t.Idle := fun h =>
    ⟨arriving_not_admitted h, (calls_of_arriving h).1, holdsDitto_of_arriving h⟩
  unfold ServiceTask.resting at h
  split at h
  · exact ⟨rfl, rfl, rfl⟩
  · exact ⟨rfl, rfl, rfl⟩
  · exact harriving h

/-- The request of which nothing is known has the most slots and permits. -/
theorem Twins.le {f : ServiceTask → Bool} (hf : ∀ t : ServiceTask, t.Idle → f t = false) (h : Twins id w t t') :
    (f t').toNat ≤ (f t).toNat := by
  cases h with
  | own => exact Nat.le_refl _
  | other _ _ hidle =>
    rw [hf _ hidle]
    exact Nat.zero_le _
  | refused =>
    rw [hf _ ⟨rfl, rfl, rfl⟩]
    exact Nat.zero_le _

/-- A session keeps its persona. -/
theorem personaOf_of_kept (hkept : SessionsKept w w₁) (h : t.personaOf w = some id) : t.personaOf w₁ = some id := by
  cases t with
  | start | persona => exact h
  | message sid | ending sid =>
    obtain ⟨s, hs, hid⟩ := Option.map_eq_some_iff.mp h
    obtain ⟨s', hs', hsame⟩ := hkept sid s hs
    exact Option.map_eq_some_iff.mpr ⟨s', hs', hsame.trans hid⟩

theorem Twins.kept (hkept : SessionsKept w w₁) (h : Twins id w t t') : Twins id w₁ t t' := by
  cases h with
  | own h => exact .own (h.imp_left (personaOf_of_kept hkept))
  | other h hne hidle => exact .other (personaOf_of_kept hkept h) hne hidle
  | refused => exact .refused

/-- A request stays one of its persona. -/
theorem RequestStep.personaOf (h : RequestStep H w i t e (w₁, t₁)) (w' : ServiceWorld) :
    t₁.personaOf w' = t.personaOf w' := by
  cases h <;> rfl

/-- A request on a session that does not exist is over with its first step. -/
theorem RequestStep.resting (h : RequestStep H w i t e (w₁, t₁)) (hnone : t.personaOf w = none)
    (hrest : t.resting = true) : t₁.resting = true := by
  have noSession : ∀ {sid : Uuid} {s : Session}, (w.state sid).map SessionState.personaId = none →
      w.get sid ≠ some s := by
    intro sid s hnone hget
    rw [state_of_sessions (sessions_of_get hget)] at hnone
    cases hnone
  cases h with
  | start | persona => cases hnone
  | message hs =>
    cases hs with
    | unknown => rfl
    | known hs => exact absurd hs (noSession hnone)
    | _ => cases hrest
  | ending hs =>
    cases hs with
    | unknown => rfl
    | known hs => exact absurd hs (noSession hnone)
    | _ => cases hrest

end

/-! ## The two runs -/

/-- The state of a run, and that of the run without the others: what the others have made the persona lack is in the
counter and in the permits only, and they hold what is missing. -/
structure Shadow (id : Uuid) (p p' : Pool ServiceWorld ServiceTask) : Prop where
  view : SameView id p.world p'.world
  tasks : List.Forall₂ (Twins id p.world) p.tasks p'.tasks
  stored : ∀ sid ∈ p.world.stored, (p.world.state sid).isSome = true
  slots : p'.world.activeMessages + Pool.total (fun t => t.admitted.toNat) p.tasks ≤
    p.world.activeMessages + Pool.total (fun t => t.admitted.toNat) p'.tasks
  gpu : p.world.gpu + Pool.total (fun t => t.holdsGpu.toNat) p.tasks =
    p'.world.gpu + Pool.total (fun t => t.holdsGpu.toNat) p'.tasks
  ditto : p.world.ditto + Pool.total (fun t => t.holdsDitto.toNat) p.tasks =
    p'.world.ditto + Pool.total (fun t => t.holdsDitto.toNat) p'.tasks

section
variable {H : Host} {admits : ServiceTask → Bool} {id : Uuid} {p p' q : Pool ServiceWorld ServiceTask}
  {w w' w₁ : ServiceWorld} {i : Nat} {t t' t₁ : ServiceTask} {e : ServiceEvent}

theorem serviceStep_iff : serviceStep H w i t e = some (w', t₁) ↔ ∃ w₁ gpu ditto,
    requestStep H w i t e = some (w₁, t₁) ∧ Semaphore.pass t.holdsGpu t₁.holdsGpu w₁.gpu = some gpu ∧
      Semaphore.pass t.holdsDitto t₁.holdsDitto w₁.ditto = some ditto ∧
      w' = { w₁ with gpu := gpu, ditto := ditto } := by
  constructor
  · intro h
    obtain ⟨⟨w₁, t₁⟩, hreq, hs⟩ := Option.bind_eq_some_iff.mp h
    obtain ⟨w₂, hpass, hs⟩ := Option.map_eq_some_iff.mp hs
    cases hs
    obtain ⟨gpu, hgpu, hpass⟩ := Option.bind_eq_some_iff.mp hpass
    obtain ⟨ditto, hditto, rfl⟩ := Option.map_eq_some_iff.mp hpass
    exact ⟨w₁, gpu, ditto, hreq, hgpu, hditto, rfl⟩
  · rintro ⟨w₁, gpu, ditto, hreq, hgpu, hditto, rfl⟩
    simp only [serviceStep, hreq, Option.bind_some, passSemaphores, hgpu, hditto, Option.map_some]

/-- A permit that is free when fewer are free is free. -/
theorem pass_of_le {held holds : Bool} {n m : Nat} (n' : Nat) (h : Semaphore.pass held holds n = some m)
    (hle : n ≤ n') :
    ∃ m', Semaphore.pass held holds n' = some m' := by
  cases held <;> cases holds
  · exact ⟨_, rfl⟩
  · exact ⟨_, if_pos (Nat.lt_of_lt_of_le (Semaphore.pass_free h) hle)⟩
  · exact ⟨_, rfl⟩
  · exact ⟨_, rfl⟩

/-- The others can only have taken permits. -/
theorem Shadow.permits (h : Shadow id p p') : p.world.gpu ≤ p'.world.gpu ∧ p.world.ditto ≤ p'.world.ditto := by
  have hgpu := Pool.total_le (f := fun t => t.holdsGpu.toNat) h.tasks fun _ _ htwins =>
    htwins.le fun t ht => ht.gpu
  have hditto := Pool.total_le (f := fun t => t.holdsDitto.toNat) h.tasks fun _ _ htwins =>
    htwins.le fun t ht => ht.ditto
  have := h.gpu
  have := h.ditto
  omega

/-- The others can only have taken slots. -/
theorem Shadow.active (h : Shadow id p p') : p'.world.activeMessages ≤ p.world.activeMessages := by
  have hle := Pool.total_le (f := fun t => t.admitted.toNat) h.tasks fun _ _ htwins => htwins.le fun t ht => ht.admitted
  have := h.slots
  omega

/-- A request arrives in both runs. -/
theorem Shadow.arrive (h : Shadow id p p') (harr : t.arriving = true) :
    Shadow id ⟨p.world, p.tasks ++ [t]⟩ ⟨p'.world, p'.tasks ++ [t]⟩ := by
  have hrest : t.resting = true := by
    unfold ServiceTask.resting
    split <;> first | rfl | exact harr
  refine ⟨h.view, List.rel_append h.tasks (.cons (.own (.inr hrest)) .nil), h.stored, ?_, ?_, ?_⟩
  · have := h.slots
    simp only [Pool.total_append, Pool.total_singleton]
    omega
  · have := h.gpu
    simp only [Pool.total_append, Pool.total_singleton]
    omega
  · have := h.ditto
    simp only [Pool.total_append, Pool.total_singleton]
    omega

/-- Something happens in both worlds, or in one, that is no step of a request. -/
theorem Shadow.worlds (h : Shadow id p p') (hv : SameView id w w') (hkept : SessionsKept p.world w)
    (hstored : w.stored ⊆ p.world.stored)
    (hw : w.activeMessages = p.world.activeMessages ∧ w.gpu = p.world.gpu ∧ w.ditto = p.world.ditto)
    (hw' : w'.activeMessages = p'.world.activeMessages ∧ w'.gpu = p'.world.gpu ∧ w'.ditto = p'.world.ditto) :
    Shadow id ⟨w, p.tasks⟩ ⟨w', p'.tasks⟩ := by
  refine ⟨hv, h.tasks.imp fun _ _ htwins => htwins.kept hkept, fun sid hsid => ?_, ?_, ?_, ?_⟩
  · obtain ⟨s, hs⟩ := Option.isSome_iff_exists.mp (h.stored sid (hstored hsid))
    obtain ⟨s', hs', -⟩ := hkept sid s hs
    rw [hs']
    rfl
  · rw [hw.1, hw'.1]
    exact h.slots
  · rw [hw.2.1, hw'.2.1]
    exact h.gpu
  · rw [hw.2.2, hw'.2.2]
    exact h.ditto

/-- A request of the persona takes its step in both runs. -/
theorem Shadow.both (h : Shadow id p p') (hi : p.tasks[i]? = some t)
    (hstep : serviceStep H p.world i t e = some (w, t₁)) (hown : ∀ id', t.personaOf p.world = some id' → id' = id)
    (hnot : refusedFor p.world t e = false) :
    ∃ w', p'.tasks[i]? = some t ∧ serviceStep H p'.world i t e = some (w', t₁) ∧
      Shadow id ⟨w, p.tasks.set i t₁⟩ ⟨w', p'.tasks.set i t₁⟩ := by
  obtain ⟨w₁, gpu, ditto, hreq, hgpu, hditto, rfl⟩ := serviceStep_iff.mp hstep
  have hrequest := requestStep_inv hreq
  obtain ⟨u, hu, htwins⟩ := Pool.exists_beside h.tasks hi
  cases htwins with
  | other howner hne => exact absurd (hown _ howner) hne
  | refused =>
    cases hrequest with
    | message hs => cases hs
  | own howner =>
    obtain ⟨w₁', htwin⟩ := hrequest.twin h.view h.stored hown h.active hnot
    have hpermits := hrequest.calls.permits
    have hpermits' := (requestStep_inv htwin.step).calls.permits
    obtain ⟨gpu', hgpu'⟩ := pass_of_le w₁'.gpu hgpu (by rw [hpermits.1, hpermits'.1]; exact h.permits.1)
    obtain ⟨ditto', hditto'⟩ := pass_of_le w₁'.ditto hditto (by rw [hpermits.2, hpermits'.2]; exact h.permits.2)
    have hkept := hrequest.change.sessionsKept
    have hnew : t₁.personaOf w₁ = some id ∨ t₁.resting = true := by
      cases hpersona : t.personaOf p.world with
      | none => exact .inr (hrequest.resting hpersona (howner.resolve_left (by rw [hpersona]; simp)))
      | some id' =>
        obtain rfl := hown id' hpersona
        exact .inl (personaOf_of_kept hkept ((hrequest.personaOf _).trans hpersona))
    refine ⟨_, hu, serviceStep_iff.mpr ⟨w₁', gpu', ditto', htwin.step, hgpu', hditto', rfl⟩, ?_⟩
    refine ⟨htwin.view.of_fields rfl rfl rfl rfl rfl rfl,
      Pool.forall₂_set (h.tasks.imp fun _ _ htwins => htwins.kept hkept) (.own hnew),
      hrequest.change.stored h.stored, ?_, ?_, ?_⟩
    · have hslots := h.slots
      have hactive := htwin.active
      have hset := Pool.total_set (f := fun t => t.admitted.toNat) t₁ hi
      have hset' := Pool.total_set (f := fun t => t.admitted.toNat) t₁ hu
      dsimp only at hset hset' ⊢
      omega
    · have hset := Semaphore.total_set (f := ServiceTask.holdsGpu) hi hgpu
      have hset' := Semaphore.total_set (f := ServiceTask.holdsGpu) hu hgpu'
      have := h.gpu
      dsimp only
      omega
    · have hset := Semaphore.total_set (f := ServiceTask.holdsDitto) hi hditto
      have hset' := Semaphore.total_set (f := ServiceTask.holdsDitto) hu hditto'
      have := h.ditto
      dsimp only
      omega

/-- A request takes its step in the first run only. -/
theorem Shadow.alone (h : Shadow id p p') (hi : p.tasks[i]? = some t) (ht' : p'.tasks[i]? = some t')
    (hstep : serviceStep H p.world i t e = some (w, t₁))
    (hview : ∀ w₁, RequestStep H p.world i t e (w₁, t₁) → SameView id w₁ p'.world ∧ Twins id w₁ t₁ t') :
    Shadow id ⟨w, p.tasks.set i t₁⟩ p' := by
  obtain ⟨w₁, gpu, ditto, hreq, hgpu, hditto, rfl⟩ := serviceStep_iff.mp hstep
  have hrequest := requestStep_inv hreq
  have hpermits := hrequest.calls.permits
  have hkept := hrequest.change.sessionsKept
  have hsame : SessionsKept w₁ { w₁ with gpu := gpu, ditto := ditto } := fun _ s hs => ⟨s, hs, rfl⟩
  obtain ⟨hv, htwins⟩ := hview w₁ hrequest
  refine ⟨hv.of_fields rfl rfl rfl rfl rfl rfl,
    Pool.forall₂_set_left (h.tasks.imp fun _ _ htwins => htwins.kept hkept) ht'
      (htwins.kept hsame),
    hrequest.change.stored h.stored, ?_, ?_, ?_⟩
  · have hslots := h.slots
    have hgain := hrequest.slotGain
    have hset := Pool.total_set (f := fun t => t.admitted.toNat) t₁ hi
    dsimp only at hset ⊢
    omega
  · have hset := Semaphore.total_set (f := ServiceTask.holdsGpu) hi hgpu
    have := h.gpu
    dsimp only
    omega
  · have hset := Semaphore.total_set (f := ServiceTask.holdsDitto) hi hditto
    have := h.ditto
    dsimp only
    omega

/-- A request of another persona takes its step in the first run only. -/
theorem Shadow.other {id' : Uuid} (h : Shadow id p p') (hi : p.tasks[i]? = some t)
    (hstep : serviceStep H p.world i t e = some (w, t₁)) (howner : t.personaOf p.world = some id') (hne : id' ≠ id) :
    Shadow id ⟨w, p.tasks.set i t₁⟩ p' := by
  obtain ⟨u, hu, htwins⟩ := Pool.exists_beside h.tasks hi
  refine h.alone hi hu hstep fun w₁ hrequest => ⟨hrequest.unseen h.view howner hne, ?_⟩
  have hnew := personaOf_of_kept hrequest.change.sessionsKept ((hrequest.personaOf _).trans howner)
  cases htwins with
  | own hown =>
    have hrest : t.resting = true := by
      refine hown.resolve_left fun hown => hne ?_
      exact Option.some.inj (howner.symm.trans hown)
    exact .other hnew hne (idle_of_resting hrest)
  | other _ _ hidle => exact .other hnew hne hidle
  | refused => exact .other hnew hne ⟨rfl, rfl, rfl⟩

/-- A message is refused for the limit in the first run only. -/
theorem Shadow.full (h : Shadow id p p') (hi : p.tasks[i]? = some t)
    (hstep : serviceStep H p.world i t e = some (w, t₁)) (hown : ∀ id', t.personaOf p.world = some id' → id' = id)
    (hrefused : refusedFor p.world t e = true) : Shadow id ⟨w, p.tasks.set i t₁⟩ p' := by
  obtain ⟨u, hu, htwins⟩ := Pool.exists_beside h.tasks hi
  refine h.alone hi hu hstep fun w₁ hrequest => ?_
  unfold refusedFor at hrefused
  split at hrefused
  · have hfull := of_decide_eq_true hrefused
    cases hrequest with
    | message hs =>
      cases hs with
      | full =>
        refine ⟨h.view, ?_⟩
        cases htwins with
        | own => exact .refused
        | other howner hne => exact absurd (hown _ howner) hne
      | reserve hf | admitFailed hf => exact absurd hfull hf
  · cases hrefused

theorem Shadow.initial (hw : w.Fresh) : Shadow id ⟨w, []⟩ ⟨w, []⟩ where
  view := by
    refine ⟨rfl, fun sid => ?_, ?_⟩
    · rw [hw.sessions]
      rfl
    · rw [hw.stored]
      rfl
  tasks := .nil
  stored sid hsid := by
    rw [hw.stored] at hsid
    cases hsid
  slots := Int.le_refl _
  gpu := rfl
  ditto := rfl

theorem Shadow.seesSame (h : Shadow id p p') : SeesSame id p p' where
  persona := h.view.persona
  sessions sid hb := by
    refine ⟨?_, h.view.mem_stored hb⟩
    obtain ⟨s, hs, hid⟩ := (Option.any_eq_true _ _).mp hb
    obtain ⟨s, hsome, rfl⟩ := Option.map_eq_some_iff.mp hs
    rw [h.view.session hsome (of_decide_eq_true hid), hsome]
  requests i t hi howner hrefused := by
    obtain ⟨u, hu, htwins⟩ := Pool.exists_beside h.tasks hi
    cases htwins with
    | own => exact hu
    | other hother hne => exact absurd (Option.some.inj (hother.symm.trans howner)) hne
    | refused => cases hrefused

/-- The run without the others is a run. -/
theorem purging_shadow (H : Host) (admits : ServiceTask → Bool) (init : ServiceWorld → Prop) (id : Uuid) :
    Purging (serviceSystem H admits init) (concerns id) (Shadow id) where
  kept p p' e q h hkeep hs := by
    refine Coop.next_cases (motive := fun q => ∃ q', (serviceCoop H admits).next p' e = some q' ∧ Shadow id q q') hs
      ?_ ?_ ?_
    · rintro t rfl harr
      refine ⟨⟨p'.world, p'.tasks ++ [t]⟩, if_pos harr, h.arrive (Bool.and_eq_true_iff.mp harr).1⟩
    · rintro i ev t w t₁ rfl hi hstep
      rw [concerns, hi, Option.any_some, Bool.and_eq_true_iff, Bool.not_eq_true'] at hkeep
      have hown : ∀ id', t.personaOf p.world = some id' → id' = id := by
        intro id' howner
        have hall := hkeep.1
        rw [howner] at hall
        exact of_decide_eq_true hall
      obtain ⟨w', hi', hstep', hnew⟩ := h.both hi hstep hown hkeep.2
      refine ⟨_, ?_, hnew⟩
      simp only [Coop.next, hi', Option.bind_some]
      exact congrArg _ hstep'
    · rintro x w rfl hx
      have hmap : p.tasks.map ((serviceCoop H admits).onTask x) = p.tasks := List.map_id p.tasks
      have hmap' : p'.tasks.map ((serviceCoop H admits).onTask x) = p'.tasks := List.map_id p'.tasks
      rw [hmap, Coop.next, hmap']
      cases x with
      | sweep now =>
        cases hx
        exact ⟨_, rfl, h.worlds (h.view.sweepOnce now) (fun _ s hs => ⟨s, hs, rfl⟩) (List.filter_subset_self _)
          ⟨rfl, rfl, rfl⟩ ⟨rfl, rfl, rfl⟩⟩
      | orphan id' k act =>
        obtain rfl : id' = id := of_decide_eq_true hkeep
        obtain ⟨persona, hstep, rfl⟩ := Option.map_eq_some_iff.mp hx
        refine ⟨⟨p'.world.onPersona id' persona, p'.tasks⟩, ?_, h.worlds (h.view.onPersona persona)
          (fun _ s hs => ⟨s, hs, rfl⟩) (List.Subset.refl _) ⟨rfl, rfl, rfl⟩ ⟨rfl, rfl, rfl⟩⟩
        change Option.map _ (Option.map _ ((p'.world.personas id').orphanStep k act)) = _
        rw [h.view.persona, hstep]
        rfl
  dropped p p' e q h hkeep hs := by
    refine Coop.next_cases (motive := fun q => Shadow id q p') hs ?_ ?_ ?_
    · rintro t rfl -
      cases hkeep
    · rintro i ev t w t₁ rfl hi hstep
      rw [concerns, hi, Option.any_some] at hkeep
      cases howner : t.personaOf p.world with
      | some id' =>
        by_cases hid : id' = id
        · subst hid
          rw [howner, Option.all_some, decide_eq_true rfl, Bool.true_and, Bool.not_eq_false'] at hkeep
          exact h.full hi hstep (fun id'' h' => Option.some.inj (h'.symm.trans howner)) hkeep
        · exact h.other hi hstep howner hid
      | none =>
        rw [howner, Option.all_none, Bool.true_and, Bool.not_eq_false'] at hkeep
        exact h.full hi hstep (fun id' h' => by rw [howner] at h'; cases h') hkeep
    · rintro x w rfl hx
      have hmap : p.tasks.map ((serviceCoop H admits).onTask x) = p.tasks := List.map_id p.tasks
      rw [hmap]
      cases x with
      | sweep now => cases hkeep
      | orphan id' k act =>
        have hne : id' ≠ id := of_decide_eq_false hkeep
        obtain ⟨persona, hstep, rfl⟩ := Option.map_eq_some_iff.mp hx
        exact h.worlds (h.view.onOtherPersona hne persona) (fun _ s hs => ⟨s, hs, rfl⟩) (List.Subset.refl _)
          ⟨rfl, rfl, rfl⟩ ⟨rfl, rfl, rfl⟩

end

/-! ## Main result -/

/-- Whatever is requested of other personas, and whatever becomes of it, the requests of a persona have had the same
steps, answers and effects without them: leaving out every step of a request of another persona, and of the work that
such a request has left, gives a run, and it ends with the same persona, with the same sessions, and with the same
requests at the same places. Only a message that was refused for the limit has not been. -/
theorem isolated (H : Host) (admits : ServiceTask → Bool) (id : Uuid) (w : ServiceWorld) (hw : w.Fresh)
    (es : List (Event ServiceTask ServiceEvent ServiceEnv)) (p : Pool ServiceWorld ServiceTask)
    (hrun : (serviceSystem H admits ServiceWorld.Fresh).exec anyStep ⟨w, []⟩ es = some p) :
    ∃ p', (serviceSystem H admits ServiceWorld.Fresh).exec anyStep ⟨w, []⟩
      ((serviceSystem H admits ServiceWorld.Fresh).purge (concerns id) ⟨w, []⟩ es) = some p' ∧ SeesSame id p p' := by
  obtain ⟨p', hrun', hshadow⟩ := (purging_shadow H admits ServiceWorld.Fresh id).exec (.initial hw) hrun
  exact ⟨p', hrun', hshadow.seesSame⟩

/-- The theorem at a run: of two personas with a session each, the second is in the middle of an answer when the
first is sent a message; the run without the second is shorter. -/
theorem isolated_run : ∃ es p p', (serviceSystem sampleHost (fun _ => true) ServiceWorld.Fresh).exec anyStep
      ⟨sampleService, []⟩ es = some p ∧ p.world.belongs 1 20 = true ∧ p.world.belongs 2 21 = true ∧
    ((serviceSystem sampleHost (fun _ => true) ServiceWorld.Fresh).purge (concerns 1) ⟨sampleService, []⟩ es).length <
      es.length ∧ SeesSame 1 p p' := by
  let es := startSession 0 1 20 ++ startSession 1 2 21 ++ postMessage 2 21 30 ++ sayMessage 2 sayHello ++
    postMessage 3 20 31 ++ sayMessage 3 [.pull cleanTextDone]
  have h : ((serviceSystem sampleHost (fun _ => true) ServiceWorld.Fresh).exec anyStep ⟨sampleService, []⟩ es).any
      (fun p => p.world.belongs 1 20 && p.world.belongs 2 21) = true ∧
      ((serviceSystem sampleHost (fun _ => true) ServiceWorld.Fresh).purge (concerns 1) ⟨sampleService, []⟩ es).length <
        es.length := by
    decide +kernel
  obtain ⟨p, hrun, hp⟩ := (Option.any_eq_true _ _).mp h.1
  obtain ⟨h₁, h₂⟩ := Bool.and_eq_true_iff.mp hp
  obtain ⟨p', -, hsame⟩ := isolated sampleHost (fun _ => true) 1 sampleService sampleService_fresh es p hrun
  exact ⟨es, p, p', hrun, h₁, h₂, h.2, hsame⟩

end YeounEngine
