import YeounEngine.Mounts
import YeounEngine.Conversation

/-!
# The failures of a message

One message at every mount: the session and the files are the same, and so is everything that happens around
it, but for the texts of exceptions. It goes through the same places (`MessagePc.bare`), and it sends the same
but for the `error` events of its media block, whose reason is the one of its failure (`sameStep_messageStep`).
-/

namespace YeounEngine

open Transition

/-! ## The behaviour around a message -/

/-- The end of a removal without the text of its exception. -/
def Unlinked.bare : Unlinked → Unlinked
  | .raised e => .raised e.bare
  | u => u

/-- What happens after `text_done`, without the texts of the exceptions. -/
def AfterTextDone.bare (a : AfterTextDone) : AfterTextDone :=
  { a with
    mkdirFault := a.mkdirFault.map Exc.bare
    refFault := a.refFault.map Exc.bare
    unlinked := Unlinked.bare ∘ a.unlinked }

/-- An event without the texts of its exceptions. -/
def MessageEvent.bare : MessageEvent → MessageEvent
  | .pull a => .pull a.bare
  | .synthesized o fault unlinked => .synthesized o (fault.map Exc.bare) (Unlinked.bare ∘ unlinked)
  | .rendered o wav unlinked => .rendered o wav.bare (Unlinked.bare ∘ unlinked)
  | .renderFailed e started removed unlinked => .renderFailed e.bare started removed (Unlinked.bare ∘ unlinked)
  | .fail e unlinked => .fail e.bare (Unlinked.bare ∘ unlinked)
  | ev => ev

/-- A step of a message, at every mount: the world it is taken in and what happens there. The session and
the files are the same, and so is what happens, but for the texts of exceptions. -/
structure MessageBehaviour where
  mount : String → MessageWorld × MessageEvent
  session : ∀ d d', (mount d).1.session = (mount d').1.session
  files : ∀ d d', (mount d).1.persona.files = (mount d').1.persona.files
  event : ∀ d d', (mount d).2.bare = (mount d').2.bare

section
variable (H : Host) (messageId : Uuid)

/-- A message as a system of its own. -/
def messageSystem : System MessagePc (MessageWorld × MessageEvent) where
  init pc := pc = .created
  step pc x := (messageStep H messageId x.1 pc x.2).map Prod.snd

/-- What a step sends. -/
def messageSent (pc : MessagePc) (x : MessageWorld × MessageEvent) : Option SseEvent :=
  ((messageSystem H messageId).step pc x).bind MessagePc.sends

/-- The reason of an `error` event of the media block. -/
def mediaReason (e : Exc) : String := cut 200 ("media_failed: " ++ e.reason)

/-- The start of such a reason. -/
def mediaLabel (typeName text : String) : String := "media_failed: " ++ (typeName ++ ": " ++ text)

theorem voiceRefLabel_length : (mediaLabel "FileNotFoundError" "voice_ref 누락: ").length < 200 := by
  decide +kernel

theorem photoLabel_length : (mediaLabel "FileNotFoundError" "photo 누락: ").length < 200 := by
  decide +kernel

/-- The failure of the choice of the reference voice: that one of its two files is missing names a path. -/
def selectRefFailure (w : MessageWorld) : Option Failure :=
  match w.persona.files.refAudioIn.head?, w.persona.files.get .voiceRef refText with
  | some _, some file =>
    match readText H file.content with
    | .ok _ => none
    | .error e => some (.text (mediaReason e))
  | _, _ => some (.path 200 (mediaLabel "FileNotFoundError" "voice_ref 누락: ")
      (belowMount w.session.personaId .voiceRef) voiceRefLabel_length)

/-- The failure of the choice of the photo: that there is none names a path. -/
def pickSpeakPhotoFailure (w : MessageWorld) : Option Failure :=
  match w.persona.files.newestIn .photo with
  | some _ => none
  | none => some (.path 200 (mediaLabel "FileNotFoundError" "photo 누락: ")
      (belowMount w.session.personaId .photo) photoLabel_length)

/-- A failure in the media block is sent, unless a removal raises through the handler. -/
def mediaFailure (unlinked : String → Unlinked) (f : Option Failure) : Option Failure :=
  match (removeStrays unlinked [wavName messageId, mp4Name messageId]).2 with
  | some _ => none
  | none => f

/-- The failure of a step of a message that is sent with the text of its exception. -/
def messageFailure (w : MessageWorld) : MessagePc → MessageEvent → Option Failure
  | .yielded _ (.textDone _ _), .pull a =>
    match a.mkdirFault, a.refFault with
    | some _, _ => none
    | none, some e => mediaFailure messageId a.unlinked (some (.text (mediaReason e)))
    | none, none => mediaFailure messageId a.unlinked (selectRefFailure H w)
  | .synthesizing _, .synthesized _ (some e) unlinked =>
    mediaFailure messageId unlinked (some (.text (mediaReason e)))
  | .synthesizing _, .synthesized _ none unlinked => mediaFailure messageId unlinked (pickSpeakPhotoFailure w)
  | .synthesizing _, .fail e unlinked => mediaFailure messageId unlinked (some (.text (mediaReason e)))
  | .waitingDitto _, .fail e unlinked => mediaFailure messageId unlinked (some (.text (mediaReason e)))
  | .rendering _, .rendered _ (.raised e) unlinked =>
    mediaFailure messageId unlinked (some (.text (mediaReason e)))
  | .rendering _, .renderFailed e _ _ unlinked =>
    mediaFailure messageId unlinked (some (.text (mediaReason e)))
  | _, _ => none

/-- The events that a message sends in a run, at the mount `dir`. -/
def sentAt (steps : List MessageBehaviour) (dir : String) : List SseEvent :=
  (messageSystem (H.mounted dir) messageId).observe
    (fun pc x => (messageSent (H.mounted dir) messageId pc x).toList) .created
    (steps.map fun step => step.mount dir)

/-- The failures of that run. -/
def messageFailuresAt (steps : List MessageBehaviour) (dir : String) : List Failure :=
  (messageSystem (H.mounted dir) messageId).observe (fun pc x => (messageFailure H messageId x.1 pc x.2).toList)
    .created (steps.map fun step => step.mount dir)

end

/-! ## A step of a message at two mounts -/

/-- An event without the reason of an error. -/
def SseEvent.bare : SseEvent → SseEvent
  | .error _ => .error ""
  | ev => ev

/-- Where a message is, without what depends on the mount. -/
def MessagePc.bare : MessagePc → MessagePc
  | .waitingGpu speech => .waitingGpu { speech with refAudioPath := "" }
  | .synthesizing speech => .synthesizing { speech with refAudioPath := "" }
  | .yielded ev next => .yielded ev.bare next
  | .raised e => .raised e.bare
  | pc => pc

/-- A step at the mount `dir` and one at another mount: they lead to one place, and send the same, unless the
step fails with a text; then it sends the reason. -/
structure SameStep (f : Option Failure) (dir : String) (pc pc' : Option MessagePc) : Prop where
  bare : pc.map MessagePc.bare = pc'.map MessagePc.bare
  sends : f = none → pc.bind MessagePc.sends = pc'.bind MessagePc.sends
  told : ∀ g ∈ f, ∀ p ∈ pc, p.sends = some (.error (g.reason dir))

section
variable {H : Host} {messageId : Uuid} {w w' : MessageWorld} {pc : MessagePc} {ev : MessageEvent}
  {dir dir' : String} {f : Failure} {e e' : Exc} {unlinked : String → Unlinked}

theorem sameStep_refl {pc : Option MessagePc} : SameStep none dir pc pc :=
  ⟨rfl, fun _ => rfl, fun _ h => by cases h⟩

theorem sameStep_none {f : Option Failure} : SameStep f dir none none :=
  ⟨rfl, fun _ => rfl, fun _ _ _ h => by cases h⟩

theorem removeStrays_bare {strays : List String} : (removeStrays (Unlinked.bare ∘ unlinked) strays).2 =
    (removeStrays unlinked strays).2.map Exc.bare := by
  induction strays with
  | nil => rfl
  | cons stray strays ih =>
    unfold removeStrays
    dsimp only [Function.comp_apply]
    cases unlinked stray with
    | removed | osError => exact ih
    | raised e => rfl

theorem mediaFailure_bare {f' : Option Failure} {g : Option Failure} (h : f'.map Failure.bare = g.map Failure.bare) :
    (mediaFailure messageId unlinked f').map Failure.bare =
      (mediaFailure messageId (Unlinked.bare ∘ unlinked) g).map Failure.bare := by
  unfold mediaFailure
  rw [removeStrays_bare]
  cases (removeStrays unlinked [wavName messageId, mp4Name messageId]).2 with
  | none => exact h
  | some e => rfl

/-- The handler of the media failures, in both. -/
theorem sameStep_mediaFailed (h : mediaReason e = f.reason dir) :
    SameStep (mediaFailure messageId unlinked (some f)) dir (some (mediaFailed messageId w e unlinked).2)
      (some (mediaFailed messageId w' e' (Unlinked.bare ∘ unlinked)).2) := by
  unfold mediaFailure mediaFailed
  dsimp only
  rw [removeStrays_bare]
  cases (removeStrays unlinked [wavName messageId, mp4Name messageId]).2 with
  | some e => exact ⟨rfl, fun _ => rfl, fun _ h => by cases h⟩
  | none =>
    refine ⟨rfl, fun h => (by cases h), ?_⟩
    rintro g ⟨⟩ p ⟨⟩
    rw [← h]
    rfl

/-- The reason of an exception whose text ends in the path of a folder. -/
theorem mediaReason_path {typeName text rest : String} {h} :
    mediaReason ⟨typeName, text ++ (dir ++ rest)⟩ =
      (Failure.path 200 (mediaLabel typeName text) rest h).reason dir := by
  have hassoc : ∀ a b c : String, a ++ (b ++ (c ++ (dir ++ rest))) = a ++ (b ++ c) ++ (dir ++ rest) := by
    intros
    simp only [String.append_assoc]
  exact congrArg (cut 200) (hassoc _ _ _)

theorem selectRef_of_none (h : selectRefFailure H w = none) : ∃ audio text, ∀ dir finalText,
    selectRef (H.mounted dir) w finalText =
      .ok ⟨finalText, dir ++ belowMount w.session.personaId .voiceRef ++ "/" ++ audio, text⟩ := by
  unfold selectRefFailure at h
  split at h
  · rename_i audio file haudio hfile
    split at h
    · rename_i text hread
      refine ⟨audio, text, fun dir finalText => ?_⟩
      rw [selectRef, haudio, hfile, ← folderPath_mounted (H := H)]
      have hmounted : readText (H.mounted dir) file.content = .ok text := hread
      simp only [hmounted]
      rfl
    · cases h
  · cases h

theorem selectRef_of_some (h : selectRefFailure H w = some f) (dir finalText : String) :
    ∃ e, selectRef (H.mounted dir) w finalText = .error e ∧ mediaReason e = f.reason dir := by
  unfold selectRefFailure at h
  split at h
  · rename_i audio file haudio hfile
    split at h
    · cases h
    · rename_i e hread
      cases h
      have hmounted : readText (H.mounted dir) file.content = .error e := hread
      refine ⟨e, ?_, rfl⟩
      rw [selectRef, haudio, hfile]
      simp only [hmounted]
      rfl
  · rename_i hno
    cases h
    refine ⟨_, ?_, mediaReason_path⟩
    rw [← folderPath_mounted (H := H)]
    unfold selectRef
    split
    · rename_i audio file haudio hfile
      exact absurd hfile (hno audio file haudio)
    · rfl

/-- The reference voice is chosen in the folder of the persona, whatever else is there. -/
theorem selectRef_congr {finalText : String} (hs : w'.session.personaId = w.session.personaId)
    (hd : w'.persona.files.dir .voiceRef = w.persona.files.dir .voiceRef) :
    selectRef H w' finalText = selectRef H w finalText := by
  unfold selectRef Files.refAudioIn Files.get
  rw [hs, hd]

/-- Where a message goes after `text_done`. -/
theorem prepareSpeech_pc {userText finalText : String} {a : AfterTextDone} :
    (prepareSpeech H messageId w userText finalText a).2 =
      match a.mkdirFault, a.refFault with
      | some _, _ => .raised ⟨"UnboundLocalError",
          "cannot access local variable 'wav_path' where it is not associated with a value"⟩
      | none, some e => (mediaFailed messageId w e a.unlinked).2
      | none, none =>
        match selectRef H w finalText with
        | .ok speech => .waitingGpu speech
        | .error e => (mediaFailed messageId w e a.unlinked).2 := by
  obtain ⟨now, mkdirFault, refFault, unlinked⟩ := a
  cases mkdirFault with
  | some e => rfl
  | none =>
    cases refFault with
    | some e => rfl
    | none =>
      dsimp only [prepareSpeech]
      rw [selectRef_congr (w := w)]
      · cases selectRef H w finalText <;> rfl
      · rfl
      · exact Files.dir_mkdir_of_ne (by simp [MessageWorld.speakDir])

theorem sameStep_prepareSpeech {userText finalText : String} {sent : SseEvent} {a : AfterTextDone}
    (hs : w'.session = w.session) (hf : w'.persona.files = w.persona.files) :
    SameStep (messageFailure H messageId w (.yielded sent (.textDone userText finalText)) (.pull a)) dir
      (some (prepareSpeech (H.mounted dir) messageId w userText finalText a).2)
      (some (prepareSpeech (H.mounted dir') messageId w' userText finalText a.bare).2) := by
  rw [prepareSpeech_pc, prepareSpeech_pc]
  obtain ⟨now, mkdirFault, refFault, unlinked⟩ := a
  cases mkdirFault with
  | some e => exact sameStep_refl
  | none =>
    cases refFault with
    | some e => exact sameStep_mediaFailed rfl
    | none =>
      have hw' : selectRef (H.mounted dir') w' finalText = selectRef (H.mounted dir') w finalText :=
        selectRef_congr (by rw [hs]) (by rw [hf])
      dsimp only [messageFailure, AfterTextDone.bare, Option.map_none]
      rw [hw']
      cases hfail : selectRefFailure H w with
      | none =>
        obtain ⟨audio, text, hok⟩ := selectRef_of_none hfail
        rw [hok, hok]
        refine ⟨rfl, fun _ => rfl, ?_⟩
        unfold mediaFailure
        split <;> exact fun _ h => by cases h
      | some f =>
        obtain ⟨e, he, hreason⟩ := selectRef_of_some hfail dir finalText
        obtain ⟨e', he', -⟩ := selectRef_of_some hfail dir' finalText
        rw [he, he']
        exact sameStep_mediaFailed hreason

theorem newestIn_photo_speechOutput {o : Output} :
    (speechOutput messageId w o).persona.files.newestIn .photo = w.persona.files.newestIn .photo :=
  newestIn_of_dir (Files.dir_modify_of_ne (by simp [MessageWorld.speakDir]))

theorem sameStep_pickSpeakPhoto {speech : Speech} {o : Output} {fault : Option Exc}
    (hf : w'.persona.files = w.persona.files) :
    SameStep (messageFailure H messageId w (.synthesizing speech) (.synthesized o fault unlinked)) dir
      (some (pickSpeakPhoto (H.mounted dir) messageId (speechOutput messageId w o) fault unlinked).2)
      (some (pickSpeakPhoto (H.mounted dir') messageId (speechOutput messageId w' o)
        (fault.map Exc.bare) (Unlinked.bare ∘ unlinked)).2) := by
  cases fault with
  | some e => exact sameStep_mediaFailed rfl
  | none =>
    dsimp only [messageFailure, pickSpeakPhoto, Option.map_none]
    rw [newestIn_photo_speechOutput, newestIn_photo_speechOutput, hf]
    cases hphoto : w.persona.files.newestIn .photo with
    | some photo =>
      rw [pickSpeakPhotoFailure, hphoto]
      refine ⟨rfl, fun _ => rfl, ?_⟩
      unfold mediaFailure
      split <;> exact fun _ h => by cases h
    | none =>
      rw [pickSpeakPhotoFailure, hphoto]
      refine sameStep_mediaFailed ?_
      rw [folderPath_mounted]
      exact mediaReason_path

theorem sameStep_finishSpeech {photo : Picked} {o : Output} {wav : Unlinked} (hs : w'.session = w.session) :
    SameStep (messageFailure H messageId w (.rendering photo) (.rendered o wav unlinked)) dir
      (some (finishSpeech messageId (speakRendered messageId w photo o wav) wav unlinked).2)
      (some (finishSpeech messageId (speakRendered messageId w' photo o wav.bare) wav.bare
        (Unlinked.bare ∘ unlinked)).2) := by
  have hready : SameStep none dir (some (yieldMediaReady messageId w)) (some (yieldMediaReady messageId w')) := by
    unfold yieldMediaReady MessageWorld.speakDir
    rw [hs]
    exact sameStep_refl
  cases wav with
  | raised e => exact sameStep_mediaFailed rfl
  | removed | osError => exact hready

theorem sameStep_synthesizing {speech : Speech} : SameStep none dir (some (.synthesizing speech))
    (some (.synthesizing { speech with refAudioPath := "" })) :=
  ⟨rfl, fun _ => rfl, fun _ h => by cases h⟩

/-- A step of a message at the mount `dir`, and the step without what depends on it at another one. -/
theorem sameStep_messageStep (hs : w'.session = w.session)
    (hf : w'.persona.files = w.persona.files) :
    SameStep (messageFailure H messageId w pc ev) dir ((messageSystem (H.mounted dir) messageId).step pc (w, ev))
      ((messageSystem (H.mounted dir') messageId).step pc.bare (w', ev.bare)) := by
  have hdir : w'.persona.files.dir w'.speakDir = w.persona.files.dir w.speakDir := by
    rw [hf, MessageWorld.speakDir, hs]
    rfl
  cases pc with
  | loggingCrisis keyword applied | loggingForbidden userText applied =>
    cases applied <;> cases ev <;> first | exact sameStep_none | exact sameStep_refl
  | yielded sent next =>
    cases next with
    | textDone userText finalText =>
      cases ev
      case pull a => exact sameStep_prepareSpeech hs hf
      all_goals first | exact sameStep_none | exact sameStep_refl
    | token | last => cases ev <;> first | exact sameStep_none | exact sameStep_refl
  | waitingGpu speech =>
    cases ev
    case acquire => exact sameStep_synthesizing
    all_goals first | exact sameStep_none | exact sameStep_refl
  | synthesizing speech =>
    cases ev
    case makeFolder => exact sameStep_synthesizing
    case output side o =>
      cases side with
      | false => exact sameStep_synthesizing
      | true => exact sameStep_none
    case synthesized o fault unlinked =>
      dsimp only [messageSystem, messageStep, messageBody, MessagePc.bare, MessageEvent.bare]
      rw [hdir]
      split
      · exact sameStep_pickSpeakPhoto hf
      · exact sameStep_none
    case fail e unlinked => exact sameStep_mediaFailed rfl
    all_goals first | exact sameStep_none | exact sameStep_refl
  | rendering photo =>
    cases ev
    case rendered o wav unlinked =>
      dsimp only [messageSystem, messageStep, messageBody, MessagePc.bare, MessageEvent.bare]
      rw [hdir]
      split
      · exact sameStep_finishSpeech hs
      · exact sameStep_none
    case renderFailed e started removed unlinked => exact sameStep_mediaFailed rfl
    all_goals first | exact sameStep_none | exact sameStep_refl
  | waitingDitto =>
    cases ev
    case fail e unlinked => exact sameStep_mediaFailed rfl
    all_goals first | exact sameStep_none | exact sameStep_refl
  | transcribing =>
    cases ev
    case transcribed text =>
      dsimp only [messageSystem, messageStep, messageBody, MessagePc.bare, MessageEvent.bare,
        Option.map_some, inputGuard]
      rw [hs]
      exact sameStep_refl
    all_goals first | exact sameStep_none | exact sameStep_refl
  | _ => cases ev <;> first | exact sameStep_none | exact sameStep_refl

theorem sends_bare : pc.bare.sends = pc.sends.map SseEvent.bare := by
  cases pc <;> rfl

theorem selectRefFailure_congr (hs : w'.session = w.session)
    (hf : w'.persona.files = w.persona.files) : selectRefFailure H w' = selectRefFailure H w := by
  unfold selectRefFailure
  rw [hs, hf]

/-- The kind of the failure does not depend on the mount. -/
theorem messageFailure_bare (hs : w'.session = w.session)
    (hf : w'.persona.files = w.persona.files) :
    (messageFailure H messageId w pc ev).map Failure.bare =
      (messageFailure H messageId w' pc.bare ev.bare).map Failure.bare := by
  cases pc with
  | yielded sent next =>
    cases next with
    | textDone userText finalText =>
      cases ev
      case pull a =>
        obtain ⟨now, mkdirFault, refFault, unlinked⟩ := a
        cases mkdirFault with
        | some e => rfl
        | none =>
          cases refFault with
          | some e => exact mediaFailure_bare map_bare_text
          | none =>
            dsimp only [messageFailure, MessagePc.bare, MessageEvent.bare, AfterTextDone.bare, Option.map_none]
            rw [selectRefFailure_congr hs hf]
            exact mediaFailure_bare rfl
      all_goals rfl
    | token | last => cases ev <;> rfl
  | synthesizing speech =>
    cases ev
    case synthesized o fault unlinked =>
      cases fault with
      | some e => exact mediaFailure_bare map_bare_text
      | none =>
        dsimp only [messageFailure, MessagePc.bare, MessageEvent.bare, Option.map_none]
        refine mediaFailure_bare ?_
        unfold pickSpeakPhotoFailure
        rw [hs, hf]
    case fail e unlinked => exact mediaFailure_bare map_bare_text
    all_goals rfl
  | rendering photo =>
    cases ev
    case rendered o wav unlinked =>
      cases wav with
      | raised e => exact mediaFailure_bare map_bare_text
      | removed | osError => rfl
    case renderFailed e started removed unlinked => exact mediaFailure_bare map_bare_text
    all_goals rfl
  | waitingDitto photo =>
    cases ev
    case fail e unlinked => exact mediaFailure_bare map_bare_text
    all_goals rfl
  | _ => cases ev <;> rfl

end

/-! ## Messages -/

/-- A message is at one place at every mount. -/
def MessagePcAlike (pc : String → MessagePc) : Prop := ∀ d d', (pc d).bare = (pc d').bare

/-- The inputs of a message are a behaviour. -/
def IsMessageBehaviour (x : String → MessageWorld × MessageEvent) : Prop :=
  ∃ step : MessageBehaviour, step.mount = x

section
variable {H : Host} {messageId : Uuid} {pc : String → MessagePc} {step : MessageBehaviour}

theorem sameStep_mount (H : Host) (messageId : Uuid) (step : MessageBehaviour)
    (hpc : MessagePcAlike pc) (d d' : String) :
    SameStep (messageFailure H messageId (step.mount d).1 (pc d) (step.mount d).2) d
      ((messageSystem (H.mounted d) messageId).step (pc d) (step.mount d))
      ((messageSystem (H.mounted "") messageId).step (pc d').bare
        ((step.mount d').1, (step.mount d').2.bare)) := by
  rw [← hpc d d', ← step.event d d']
  exact sameStep_messageStep (step.session d' d) (step.files d' d)

theorem map_bare_mount (H : Host) (messageId : Uuid) (step : MessageBehaviour)
    (hpc : MessagePcAlike pc) (d d' : String) :
    ((messageSystem (H.mounted d) messageId).step (pc d) (step.mount d)).map MessagePc.bare =
      ((messageSystem (H.mounted d') messageId).step (pc d') (step.mount d')).map MessagePc.bare :=
  (sameStep_mount H messageId step hpc d d').bare.trans
    (sameStep_mount H messageId step hpc d' d').bare.symm

theorem oneKind_messageFailure (hpc : MessagePcAlike pc) :
    OneKind fun d => messageFailure H messageId (step.mount d).1 (pc d) (step.mount d).2 := by
  intro d d'
  refine (messageFailure_bare (step.session d' d) (step.files d' d)).trans ?_
  rw [hpc d d', step.event d d']
  exact (messageFailure_bare rfl rfl).symm

theorem messageSent_length (hpc : MessagePcAlike pc) (d d' : String) :
    (messageSent (H.mounted d) messageId (pc d) (step.mount d)).toList.length =
      (messageSent (H.mounted d') messageId (pc d') (step.mount d')).toList.length := by
  have hsends : ∀ p : Option MessagePc, (p.bind MessagePc.sends).toList.length =
      ((p.map MessagePc.bare).bind MessagePc.sends).toList.length := by
    intro p
    cases p with
    | none => rfl
    | some p =>
      rw [Option.bind_some, Option.map_some, Option.bind_some, sends_bare]
      cases p.sends <;> rfl
  rw [messageSent, messageSent, hsends, map_bare_mount H messageId step hpc d d', ← hsends]

/-- What the steps of a message send shows the mount exactly where a failure does. -/
theorem unwinding_message (H : Host) (messageId : Uuid) : Unwinding
    (fun dir => messageSystem (H.mounted dir) messageId)
    (fun dir pc x => (messageSent (H.mounted dir) messageId pc x).toList)
    (fun _ pc x => (messageFailure H messageId x.1 pc x.2).toList) Failure.Hides MessagePcAlike
    IsMessageBehaviour where
  enabled := by
    rintro pc _ hpc ⟨step, rfl⟩ d d' hd
    rw [← Option.isSome_map (f := MessagePc.bare), ← map_bare_mount H messageId step hpc d d', Option.isSome_map]
    exact hd
  step := by
    rintro pc _ pc' hpc ⟨step, rfl⟩ hstep d d'
    have h := map_bare_mount H messageId step hpc d d'
    rw [hstep d, hstep d'] at h
    exact Option.some.inj h
  length_out := by
    rintro pc _ hpc ⟨step, rfl⟩ d d'
    exact messageSent_length hpc d d'
  length_cause := by
    rintro pc _ hpc ⟨step, rfl⟩ d d'
    exact (oneKind_messageFailure hpc).length d d'
  constant := by
    rintro pc _ pc' hpc ⟨step, rfl⟩ hstep
    refine constant_told_iff (oneKind_messageFailure hpc) SseEvent.error (fun _ _ h => by cases h; rfl)
      ?_ ?_
    · intro hnone d d'
      have h := (sameStep_mount H messageId step hpc d d').sends (hnone d)
      have h' := (sameStep_mount H messageId step hpc d' d').sends (hnone d')
      dsimp only [messageSent]
      rw [h, h']
    · intro d g hg
      have h := (sameStep_mount H messageId step hpc d d).told g hg
        (pc' d) (hstep d)
      rw [messageSent, hstep d, Option.bind_some, h]
      rfl

end

end YeounEngine
