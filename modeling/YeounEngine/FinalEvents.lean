import YeounEngine.MessageFailures
import YeounEngine.OutputGuard
import YeounEngine.Sessions

/-!
# The last event of a message

Every failure of a message is to end in one `error` event: the handler of the media failures catches whatever is
raised after `text_done`. It removes the files of the message first, and names them in a tuple outside of the
`try` that is there for an unbound name: when the folder cannot be made, the handler itself raises. It also raises
what a removal raises, if that is not an `OSError`.

Otherwise nothing gets out of the message, and what it sends has one of five forms (`Complete`). Each place of a
message says what has been sent by then (`MessagePc.Sent`), and every step keeps that.
-/

namespace YeounEngine

open Transition

/-! ## What a message sends -/

/-- `event` of an SSE event. -/
inductive EventKind
  | token
  | textDone
  | mediaReady
  | crisis
  | error
  deriving DecidableEq, Repr

def SseEvent.kind : SseEvent → EventKind
  | .token _ => .token
  | .textDone _ _ => .textDone
  | .mediaReady _ _ => .mediaReady
  | .crisis _ _ _ => .crisis
  | .error _ => .error

/-- The kinds of the events of a whole message. -/
inductive Complete : List EventKind → Prop
  | error : Complete [.error]
  | crisis : Complete [.crisis]
  | streamFailed (n : Nat) : Complete (.replicate n .token ++ [.error])
  | mediaReady (n : Nat) : Complete (.replicate n .token ++ [.textDone, .mediaReady])
  | mediaFailed (n : Nat) : Complete (.replicate n .token ++ [.textDone, .error])

/-- What a message has sent when it is at a place, as long as its consumer pulls. -/
def MessagePc.Sent : MessagePc → List EventKind → Prop
  | .created, ks | .transcribing, ks | .loggingCrisis _ _, ks => ks = []
  | .streaming _, ks | .loggingForbidden _ _, ks | .yielded _ (.token _), ks => ∃ n, ks = .replicate n .token
  | .yielded _ (.textDone _ _), ks | .waitingGpu _, ks | .synthesizing _, ks | .waitingDitto _, ks
  | .rendering _, ks | .raised _, ks => ∃ n, ks = .replicate n .token ++ [.textDone]
  | .yielded _ .last, ks | .returned, ks => Complete ks
  | .unwinding, _ | .abandoned, _ | .cancelled, _ => False

/-- The consumer does neither close the generator nor cancel it. -/
def MessageEvent.pulled : MessageEvent → Bool
  | .cancel _ _ | .close => false
  | _ => true

/-! ## The handler of the media failures -/

def Unlinked.raises : Unlinked → Bool
  | .raised _ => true
  | _ => false

/-- How the removals of the handler end in a step. -/
def MessageEvent.unlinked : MessageEvent → String → Unlinked
  | .pull a => a.unlinked
  | .synthesized _ _ unlinked | .rendered _ _ unlinked | .renderFailed _ _ _ unlinked | .fail _ unlinked => unlinked
  | _ => fun _ => .removed

section
variable (H : Host) (messageId : Uuid)

/-- The reference voice is there, and its text decodes. -/
def voiceRefReadable (w : MessageWorld) : Bool :=
  match w.persona.files.refAudioIn.head?, w.persona.files.get .voiceRef refText with
  | some _, some file => (readText H file.content).isOk
  | _, _ => false

/-- The media block fails in a step, its folder made. -/
def mediaFails (w : MessageWorld) : MessagePc → MessageEvent → Bool
  | .yielded _ (.textDone _ _), .pull a => a.refFault.isSome || !voiceRefReadable H w
  | .synthesizing _, .synthesized _ fault _ => fault.isSome || (w.persona.files.newestIn .photo).isNone
  | .synthesizing _, .fail _ _ => true
  | .waitingDitto _, .fail _ _ => true
  | .rendering _, .rendered _ wav _ => wav.raises
  | .rendering _, .renderFailed _ _ _ _ => true
  | _, _ => false

/-- The folder of the media can be made. -/
def folderMade : MessagePc → MessageEvent → Bool
  | .yielded _ (.textDone _ _), .pull a => a.mkdirFault.isNone
  | _, _ => true

/-- The handler ends: its names are bound, and when it runs, no removal raises anything but an `OSError`. -/
def HandlerHolds (pc : MessagePc) (x : MessageWorld × MessageEvent) : Prop :=
  folderMade pc x.2 = true ∧ (mediaFails H x.1 pc x.2 = true →
    ∀ stray ∈ [wavName messageId, mp4Name messageId], (x.2.unlinked stray).raises = false)

instance (pc : MessagePc) (x : MessageWorld × MessageEvent) : Decidable (HandlerHolds H messageId pc x) :=
  inferInstanceAs (Decidable (_ ∧ _))

/-- A message raises nothing at any point, and one that is over has sent events of one of the forms. -/
structure EndsInOneEvent (steps : List (MessageWorld × MessageEvent)) : Prop where
  quiet : ∀ before sent pc, before <+: steps → messageRun H messageId .created before = some (sent, pc) →
    ∀ e, pc ≠ .raised e
  oneEvent : ∀ sent pc, messageRun H messageId .created steps = some (sent, pc) → pc.ended = true →
    Complete (sent.map SseEvent.kind)

end

/-! ## One step -/

section
variable {H : Host} {messageId : Uuid} {w w' : MessageWorld} {pc pc' : MessagePc} {ev : MessageEvent}
  {unlinked : String → Unlinked} {e : Exc} {ks : List EventKind} {x : MessageWorld × MessageEvent}

theorem removeStrays_eq_none {strays : List String} :
    (removeStrays unlinked strays).2 = none ↔ ∀ stray ∈ strays, (unlinked stray).raises = false := by
  induction strays with
  | nil => exact iff_of_true rfl fun _ h => by cases h
  | cons stray strays ih =>
    rw [List.forall_mem_cons, ← ih, removeStrays]
    cases unlinked stray with
    | removed | osError => simp [Unlinked.raises]
    | raised e => simp [Unlinked.raises]

/-- The handler raises exactly when a removal does. -/
theorem mediaFailed_ne_raised : (∀ e', (mediaFailed messageId w e unlinked).2 ≠ .raised e') ↔
    ∀ stray ∈ [wavName messageId, mp4Name messageId], (unlinked stray).raises = false := by
  rw [← removeStrays_eq_none, mediaFailed]
  cases (removeStrays unlinked [wavName messageId, mp4Name messageId]).2 with
  | none => exact iff_of_true (fun _ h => by cases h) rfl
  | some e' => exact iff_of_false (fun h => h e' rfl) fun h => by cases h

theorem selectRef_isOk (finalText : String) : (selectRef H w finalText).isOk = voiceRefReadable H w := by
  unfold selectRef voiceRefReadable
  cases w.persona.files.refAudioIn.head? with
  | none => rfl
  | some audio =>
    cases w.persona.files.get .voiceRef refText with
    | none => rfl
    | some file =>
      dsimp only
      cases readText H file.content <;> rfl

theorem prepareSpeech_ne_raised {userText finalText : String} {a : AfterTextDone} :
    (∀ e, (prepareSpeech H messageId w userText finalText a).2 ≠ .raised e) ↔
      a.mkdirFault.isNone = true ∧ ((a.refFault.isSome || !voiceRefReadable H w) = true →
        ∀ stray ∈ [wavName messageId, mp4Name messageId], (a.unlinked stray).raises = false) := by
  rw [prepareSpeech_pc, ← selectRef_isOk finalText]
  obtain ⟨now, mkdirFault, refFault, unlinked⟩ := a
  cases mkdirFault with
  | some e => exact iff_of_false (fun h => h _ rfl) fun h => by cases h.1
  | none =>
    refine Iff.trans ?_ (and_iff_right rfl).symm
    cases refFault with
    | some e => exact mediaFailed_ne_raised.trans (imp_iff_right rfl).symm
    | none =>
      dsimp only
      cases selectRef H w finalText with
      | ok speech => exact iff_of_true (fun _ h => by cases h) fun h => by cases h
      | error e => exact mediaFailed_ne_raised.trans (imp_iff_right rfl).symm

theorem pickSpeakPhoto_ne_raised {fault : Option Exc} :
    (∀ e, (pickSpeakPhoto H messageId w fault unlinked).2 ≠ .raised e) ↔
      ((fault.isSome || (w.persona.files.newestIn .photo).isNone) = true →
        ∀ stray ∈ [wavName messageId, mp4Name messageId], (unlinked stray).raises = false) := by
  unfold pickSpeakPhoto
  cases fault with
  | some e => exact mediaFailed_ne_raised.trans (imp_iff_right rfl).symm
  | none =>
    dsimp only
    cases w.persona.files.newestIn .photo with
    | some photo => exact iff_of_true (fun _ h => by cases h) fun h => by cases h
    | none => exact mediaFailed_ne_raised.trans (imp_iff_right rfl).symm

theorem finishSpeech_ne_raised {wav : Unlinked} :
    (∀ e, (finishSpeech messageId w wav unlinked).2 ≠ .raised e) ↔ (wav.raises = true →
      ∀ stray ∈ [wavName messageId, mp4Name messageId], (unlinked stray).raises = false) := by
  cases wav with
  | raised e => exact mediaFailed_ne_raised.trans (imp_iff_right rfl).symm
  | removed | osError => exact iff_of_true (fun _ h => by cases h) fun h => by cases h

/-- A step that is not in the media block, and raises nothing. -/
theorem ne_raised_iff (hne : ∀ e, pc' ≠ .raised e) (hmade : folderMade pc ev = true)
    (hfails : mediaFails H w pc ev = false) :
    (∀ e, pc' ≠ .raised e) ↔ HandlerHolds H messageId pc (w, ev) := by
  refine iff_of_true hne ⟨hmade, fun hf => ?_⟩
  rw [hfails] at hf
  cases hf

/-- A step raises nothing if and only if the handler, should it run, ends. -/
theorem messageBodyStep_ne_raised {out : MessageWorld × MessagePc} (h : MessageBodyStep H messageId w pc ev out) :
    (∀ e, out.2 ≠ .raised e) ↔ HandlerHolds H messageId pc (w, ev) := by
  cases h with
  | speech => exact prepareSpeech_ne_raised
  | @synthesized speech o =>
    have hphoto : (speechOutput messageId w o).persona.files.newestIn .photo = w.persona.files.newestIn .photo :=
      newestIn_photo_speechOutput
    refine Iff.trans ?_ (and_iff_right rfl).symm
    dsimp only [mediaFails]
    rw [← hphoto]
    exact pickSpeakPhoto_ne_raised
  | synthesizeFailed | folderFailed | renderFailed =>
    exact (mediaFailed_ne_raised.trans (imp_iff_right rfl).symm).trans (and_iff_right rfl).symm
  | rendered => exact finishSpeech_ne_raised.trans (and_iff_right rfl).symm
  | transcribed =>
    dsimp only
    exact ne_raised_iff (fun e => inputGuard_cases (motive := fun pc => pc ≠ .raised e)
      (fun _ h => by cases h) fun _ h => by cases h) rfl rfl
  | streamEnd =>
    dsimp only
    exact ne_raised_iff (fun e => outputGuard_cases (motive := fun pc => pc ≠ .raised e)
      (fun _ h => by cases h) fun _ h => by cases h) rfl rfl
  | _ => exact ne_raised_iff (fun _ h => by cases h) rfl rfl

theorem messageStep_ne_raised (h : messageStep H messageId w pc ev = some (w', pc')) :
    (∀ e, pc' ≠ .raised e) ↔ HandlerHolds H messageId pc (w, ev) := by
  rcases messageStep_cases h with h | h
  · exact messageBodyStep_ne_raised h
  · cases h <;> exact ne_raised_iff (fun _ he => by cases he) rfl rfl

/-- What has been sent after a step to a place. -/
structure MessagePc.SentAfter (ks : List EventKind) (pc : MessagePc) : Prop where
  sent : pc.Sent (ks ++ (pc.sends.map SseEvent.kind).toList)

theorem sentAfter_textDone {userText finalText : String} (hsent : ∃ n, ks = .replicate n .token) :
    (yieldTextDone messageId userText finalText).SentAfter ks := by
  obtain ⟨n, rfl⟩ := hsent
  exact ⟨⟨n, rfl⟩⟩

/-- The error of the media block is the last event. -/
theorem sentAfter_error {reason : String} (hsent : ∃ n, ks = .replicate n .token ++ [.textDone]) :
    (yieldLast (.error reason)).SentAfter ks := by
  obtain ⟨n, rfl⟩ := hsent
  refine ⟨?_⟩
  show Complete (_ ++ [.error])
  rw [List.append_assoc]
  exact .mediaFailed n

theorem sentAfter_raised (hsent : ∃ n, ks = .replicate n .token ++ [.textDone]) :
    (MessagePc.raised e).SentAfter ks := by
  obtain ⟨n, rfl⟩ := hsent
  exact ⟨⟨n, List.append_nil _⟩⟩

theorem sentAfter_inputGuard {text : String} : (inputGuard H w text).SentAfter [] :=
  inputGuard_cases (motive := MessagePc.SentAfter []) (fun _ => ⟨rfl⟩) fun _ => ⟨⟨0, rfl⟩⟩

theorem sentAfter_outputGuard {reply : Reply} (hsent : ∃ n, ks = .replicate n .token) :
    (outputGuard H messageId reply).SentAfter ks := by
  refine outputGuard_cases (motive := MessagePc.SentAfter ks) (fun _ => ?_) fun _ => sentAfter_textDone hsent
  obtain ⟨n, rfl⟩ := hsent
  exact ⟨⟨n, List.append_nil _⟩⟩

/-- Every step sends what its place may send next, one case for each arm. -/
theorem MessageBodyStep.sentAfter {out : MessageWorld × MessagePc} (h : MessageBodyStep H messageId w pc ev out)
    (hsent : pc.Sent ks) : out.2.SentAfter ks := by
  cases h with
  | start | logCrisis =>
    cases hsent
    exact ⟨rfl⟩
  | transcribed =>
    cases hsent
    dsimp only
    exact sentAfter_inputGuard
  | transcribeFailed =>
    cases hsent
    exact ⟨.error⟩
  | crisisLogged | crisisLogFailed =>
    cases hsent
    exact ⟨.crisis⟩
  | token =>
    obtain ⟨n, rfl⟩ := hsent
    exact ⟨⟨n + 1, List.replicate_succ'.symm⟩⟩
  | nextToken | logForbidden =>
    obtain ⟨n, rfl⟩ := hsent
    exact ⟨⟨n, List.append_nil _⟩⟩
  | streamEnd =>
    dsimp only
    exact sentAfter_outputGuard hsent
  | streamFailed =>
    obtain ⟨n, rfl⟩ := hsent
    exact ⟨.streamFailed n⟩
  | forbiddenLogged | forbiddenLogFailed =>
    dsimp only
    exact sentAfter_textDone hsent
  | speech =>
    refine prepareSpeech_cases (motive := MessagePc.SentAfter ks) (fun _ => sentAfter_raised hsent)
      (fun _ => sentAfter_error hsent) fun _ _ => ?_
    obtain ⟨n, rfl⟩ := hsent
    exact ⟨⟨n, List.append_nil _⟩⟩
  | acquireGpu | speechFolder | speechOutput | acquireDitto | renderFolder | renderOutput =>
    obtain ⟨n, rfl⟩ := hsent
    exact ⟨⟨n, List.append_nil _⟩⟩
  | synthesized =>
    refine pickSpeakPhoto_cases (motive := MessagePc.SentAfter ks) (fun _ => sentAfter_raised hsent)
      (fun _ => sentAfter_error hsent) fun _ _ _ => ?_
    obtain ⟨n, rfl⟩ := hsent
    exact ⟨⟨n, List.append_nil _⟩⟩
  | synthesizeFailed | folderFailed | renderFailed =>
    exact mediaFailed_cases (motive := MessagePc.SentAfter ks) (fun _ => sentAfter_raised hsent)
      fun _ => sentAfter_error hsent
  | rendered =>
    refine finishSpeech_cases (motive := MessagePc.SentAfter ks) (fun _ => sentAfter_raised hsent)
      (fun _ => sentAfter_error hsent) ?_
    obtain ⟨n, rfl⟩ := hsent
    refine ⟨?_⟩
    show Complete (_ ++ [.mediaReady])
    rw [List.append_assoc]
    exact .mediaReady n
  | finish =>
    refine ⟨?_⟩
    show Complete (ks ++ [])
    rwa [List.append_nil]
  | unwound | finalised => exact hsent.elim

theorem messageStep_sentAfter (h : messageStep H messageId w pc ev = some (w', pc')) (hpull : ev.pulled = true)
    (hsent : pc.Sent ks) : pc'.SentAfter ks := by
  rcases messageStep_cases h with h | h
  · exact h.sentAfter hsent
  · cases h <;> cases hpull

end

/-! ## Runs -/

section
variable {H : Host} {messageId : Uuid} {pc pc' : MessagePc} {steps : List (MessageWorld × MessageEvent)}
  {sent : List SseEvent} {ks : List EventKind}

/-- A run is one of the system of a message. -/
theorem exec_of_messageRun (h : messageRun H messageId pc steps = some (sent, pc')) :
    (messageSystem H messageId).exec anyStep pc steps = some pc' := by
  induction steps generalizing pc sent with
  | nil =>
    cases h
    rfl
  | cons x steps ih =>
    obtain ⟨⟨w', pc₁⟩, hstep, h⟩ := Option.bind_eq_some_iff.mp h
    obtain ⟨⟨rest, pc₂⟩, hrest, h⟩ := Option.map_eq_some_iff.mp h
    cases h
    have hfirst : (messageSystem H messageId).step pc x = some pc₁ := by
      dsimp only [messageSystem]
      rw [hstep]
      rfl
    rw [System.exec_anyStep_cons, hfirst]
    exact ih hrest

theorem exists_messageRun (h : (messageSystem H messageId).exec anyStep pc steps = some pc') :
    ∃ sent, messageRun H messageId pc steps = some (sent, pc') := by
  induction steps generalizing pc with
  | nil =>
    cases h
    exact ⟨[], rfl⟩
  | cons x steps ih =>
    rw [System.exec_anyStep_cons] at h
    obtain ⟨pc₁, hfirst, hrest⟩ := Option.bind_eq_some_iff.mp h
    obtain ⟨⟨w', pc₂⟩, hstep, rfl⟩ := Option.map_eq_some_iff.mp hfirst
    obtain ⟨sent, hsent⟩ := ih hrest
    refine ⟨pc₂.sends.toList ++ sent, ?_⟩
    rw [messageRun, hstep]
    dsimp only [Option.bind_some]
    rw [hsent]
    rfl

/-- What a run has sent is what its end says, as long as the consumer pulls. -/
theorem messageRun_sentAfter (hpull : ∀ x ∈ steps, x.2.pulled = true)
    (h : messageRun H messageId pc steps = some (sent, pc')) (hsent : pc.Sent ks) :
    pc'.Sent (ks ++ sent.map SseEvent.kind) := by
  induction steps generalizing pc sent ks with
  | nil =>
    cases h
    rwa [List.map_nil, List.append_nil]
  | cons x steps ih =>
    obtain ⟨hx, hsteps⟩ := List.forall_mem_cons.mp hpull
    obtain ⟨⟨w', pc₁⟩, hstep, h⟩ := Option.bind_eq_some_iff.mp h
    obtain ⟨⟨rest, pc₂⟩, hrest, h⟩ := Option.map_eq_some_iff.mp h
    cases h
    have hafter := ih hsteps hrest (messageStep_sentAfter hstep hx hsent).sent
    rw [List.append_assoc] at hafter
    rw [List.map_append, ← Option.toList_map]
    exact hafter

end

/-! ## Main results -/

/-- While its consumer pulls, a message turns every failure into one last event if and only if the handler of the
media failures ends whenever it runs: the folder of the media can be made, and no removal raises anything but an
`OSError`. -/
theorem endsInOneEvent_iff (H : Host) (messageId : Uuid) (steps : List (MessageWorld × MessageEvent))
    (sent : List SseEvent) (pc : MessagePc) (hpull : ∀ x ∈ steps, x.2.pulled = true)
    (hrun : messageRun H messageId .created steps = some (sent, pc)) :
    EndsInOneEvent H messageId steps ↔
      (messageSystem H messageId).exec (HandlerHolds H messageId) .created steps = some pc := by
  have hexact : (∀ before pc₁, before <+: steps → (messageSystem H messageId).exec anyStep .created before = some pc₁ →
      ∀ e, pc₁ ≠ .raised e) ↔
        (messageSystem H messageId).exec (HandlerHolds H messageId) .created steps = some pc :=
    System.exec_iff_of_exact (I := fun pc => ∀ e, pc ≠ .raised e) (P := fun pc => ∀ e, pc ≠ .raised e) (fun _ h => h)
    (fun pc x pc' _ hstep => by
      obtain ⟨out, hout, rfl⟩ := Option.map_eq_some_iff.mp hstep
      exact messageStep_ne_raised hout)
    (fun pc x pc' _ hok hstep => by
      obtain ⟨out, hout, rfl⟩ := Option.map_eq_some_iff.mp hstep
      exact (messageStep_ne_raised hout).mpr hok)
    (fun _ h => by cases h) (exec_of_messageRun hrun)
  rw [← hexact]
  constructor
  · intro hends before pc₁ hbefore hpc₁
    obtain ⟨sent₁, hsent₁⟩ := exists_messageRun hpc₁
    exact hends.quiet before sent₁ pc₁ hbefore hsent₁
  · intro hquiet
    refine ⟨fun before sent₁ pc₁ hbefore hrun₁ => hquiet before pc₁ hbefore (exec_of_messageRun hrun₁), ?_⟩
    intro sent₁ pc₁ hrun₁ hended
    have hsent : pc₁.Sent ([] ++ sent₁.map SseEvent.kind) :=
      messageRun_sentAfter hpull hrun₁ (show MessagePc.created.Sent [] from rfl)
    cases pc₁ with
    | returned => exact hsent
    | raised e => exact absurd rfl (hquiet steps _ List.prefix_rfl (exec_of_messageRun hrun₁) e)
    | cancelled => exact hsent.elim
    | _ => cases hended

/-- A message after `text_done`, for a persona with its voice and its photo. -/
def spokenSteps (files : Files) (a : AfterTextDone) (rest : List MessageEvent) : List (MessageWorld × MessageEvent) :=
  let stream : List MessageEvent := [.pull a, .transcribed "안녕", .token "응", .pull a, .streamEnd, .pull a]
  (stream ++ rest).map fun ev =>
    ({ sampleMessageWorld with persona := { samplePersona with files := files } }, ev)

/-- A message whose render fails, and whose files cannot be removed. -/
def renderFailedSteps : List (MessageWorld × MessageEvent) :=
  spokenSteps (sampleFiles.mkdir (.speak 2)) cleanTextDone [.acquire,
    .synthesized ⟨102, .bytes riff⟩ none fun _ => .removed, .acquire,
    .renderFailed ⟨"RuntimeError", "ditto"⟩ true (fun _ => true) fun _ => .osError, .pull cleanTextDone]

/-- The theorem at that message. -/
theorem endsInOneEvent_iff_renderFailed : EndsInOneEvent sampleHost 9 renderFailedSteps := by
  have h : (messageRun sampleHost 9 .created renderFailedSteps).any (fun out => out.2 = .returned) = true := by
    decide +kernel
  obtain ⟨⟨sent, pc⟩, hrun, hpc⟩ := (Option.any_eq_true _ _).mp h
  cases of_decide_eq_true hpc
  exact (endsInOneEvent_iff sampleHost 9 _ sent _ (by decide) hrun).mpr (by decide +kernel)

/-- The folder of the media cannot be made: the handler reads a name that is not bound, and the message ends in its
exception, with no event after `text_done`. -/
theorem folder_denied_raised : ¬ EndsInOneEvent sampleHost 9
    (spokenSteps sampleFiles ⟨101, some ⟨"PermissionError", "[Errno 13] Permission denied"⟩, none, fun _ => .removed⟩
      []) := by
  intro h
  refine h.quiet _ [.token "응", .textDone 9 "응"] _ List.prefix_rfl ?_ ⟨"UnboundLocalError",
    "cannot access local variable 'wav_path' where it is not associated with a value"⟩ rfl
  decide +kernel

end YeounEngine
