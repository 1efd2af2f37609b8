import YeounEngine.Conversation
import YeounEngine.Personas

/-!
# The output guard

`process_message` sends every token as soon as `stream_response` yields it, and asks the output guard about the
whole response afterwards. So the guard covers `text_done`, but not the tokens: what they spell is
free of the forbidden topics exactly when the response is (`guarded_iff_response`).

A run is a list of steps, each with the world it is taken in: between two steps of a message the
other requests may change anything.
-/

namespace YeounEngine

/-! ## Runs of one message -/

section
variable (H : Host) (messageId : Uuid)

/-- The events that a message sends in a run, and where it is afterwards. -/
def messageRun : MessagePc → List (MessageWorld × MessageEvent) → Option (List SseEvent × MessagePc)
  | pc, [] => some ([], pc)
  | pc, (w, ev) :: steps =>
    (messageStep H messageId w pc ev).bind fun out =>
      (messageRun out.2 steps).map fun rest => (out.2.sends.toList ++ rest.1, rest.2)

end

/-- The data of a `token` event. -/
def SseEvent.token? : SseEvent → Option String
  | .token data => some data
  | _ => none

/-- The token that `stream_response` yields in a step. -/
def MessageEvent.token? : MessageEvent → Option String
  | .token data => some data
  | _ => none

/-- The response of `stream_response` in a run, as far as it goes. -/
def response (steps : List (MessageWorld × MessageEvent)) : String :=
  String.join (steps.filterMap fun step => step.2.token?)

/-- The text of the `token` events. -/
def tokenText (sent : List SseEvent) : String := String.join (sent.filterMap SseEvent.token?)

/-- Nothing that the client sees is a forbidden topic. -/
def Guarded (U : CaseTable) (sent : List SseEvent) : Prop :=
  (filterResponse U (tokenText sent)).matched = false ∧
    ∀ messageId text, .textDone messageId text ∈ sent → (filterResponse U text).matched = false

/-! ## One step -/

section
variable {H : Host} {messageId : Uuid} {w w' : MessageWorld} {pc pc' : MessagePc}
  {ev : MessageEvent}

/-- What a segment that yields no token and no `text_done` sends. -/
def Quiet (sent : Option SseEvent) : Prop :=
  ∀ ev, sent = some ev → ev.token? = none ∧ ∀ messageId text, ev ≠ .textDone messageId text

theorem quiet_none : Quiet none := by rintro ev ⟨⟩

theorem quiet_error {reason : String} : Quiet (yieldLast (.error reason)).sends := by
  rintro ev ⟨⟩
  exact ⟨rfl, fun _ _ h => by cases h⟩

theorem quiet_mediaFailed {e : Exc} {unlinked : String → Unlinked} :
    Quiet (mediaFailed messageId w e unlinked).2.sends :=
  mediaFailed_cases (motive := fun pc => Quiet pc.sends) (fun _ => quiet_none) fun _ => quiet_error

theorem quiet_finishSpeech {wav : Unlinked} {unlinked : String → Unlinked} :
    Quiet (finishSpeech messageId w wav unlinked).2.sends := by
  refine finishSpeech_cases (motive := fun pc => Quiet pc.sends) (fun _ => quiet_none) (fun _ => quiet_error) ?_
  rintro ev ⟨⟩
  exact ⟨rfl, fun _ _ h => by cases h⟩

theorem quiet_prepareSpeech {userText finalText : String} {a : AfterTextDone} :
    Quiet (prepareSpeech H messageId w userText finalText a).2.sends :=
  prepareSpeech_cases (motive := fun pc => Quiet pc.sends) (fun _ => quiet_none) (fun _ => quiet_error)
    fun _ _ => quiet_none

theorem quiet_pickSpeakPhoto {fault : Option Exc} {unlinked : String → Unlinked} :
    Quiet (pickSpeakPhoto H messageId w fault unlinked).2.sends :=
  pickSpeakPhoto_cases (motive := fun pc => Quiet pc.sends) (fun _ => quiet_none) (fun _ => quiet_error)
    fun _ _ _ => quiet_none

theorem quiet_inputGuard {userText : String} : Quiet (inputGuard H w userText).sends :=
  inputGuard_cases (motive := fun pc => Quiet pc.sends) (fun _ => quiet_none) fun _ => quiet_none

/-- A text that `text_done` may carry. -/
def TextDoneSafe (U : CaseTable) (sent : Option SseEvent) : Prop :=
  ∀ messageId text, sent = some (.textDone messageId text) → (filterResponse U text).matched = false

/-- A step sends the token that it is given, and only a guarded text. -/
structure SendsGuarded (U : CaseTable) (token : Option String) (sent : Option SseEvent) : Prop where
  tokens : sent.bind SseEvent.token? = token
  textDone : TextDoneSafe U sent

theorem Quiet.sends {U : CaseTable} {sent : Option SseEvent} (h : Quiet sent) :
    SendsGuarded U none sent := by
  refine ⟨?_, fun messageId text hs => absurd rfl ((h _ hs).2 messageId text)⟩
  cases sent with
  | none => rfl
  | some ev => exact (h ev rfl).1

/-- The whole response is guarded: `text_done` carries it only when it is not matched. -/
theorem sendsGuarded_outputGuard {reply : Reply} :
    SendsGuarded H.unicode none (outputGuard H messageId reply).sends := by
  refine outputGuard_cases (motive := fun pc => SendsGuarded H.unicode none pc.sends) (fun _ => quiet_none.sends)
    fun hfree => ⟨rfl, fun id text h => ?_⟩
  cases h
  exact hfree

theorem sendsGuarded_fallback {userText : String} :
    SendsGuarded H.unicode none (yieldTextDone messageId userText forbiddenFallback).sends := by
  refine ⟨rfl, fun id text h => ?_⟩
  cases h
  exact forbiddenFallback_not_matched

theorem MessageBodyStep.sends {out : MessageWorld × MessagePc}
    (h : MessageBodyStep H messageId w pc ev out) :
    SendsGuarded H.unicode ev.token? out.2.sends := by
  cases h with
  | transcribed =>
    dsimp only
    exact quiet_inputGuard.sends
  | streamEnd =>
    dsimp only
    exact sendsGuarded_outputGuard
  | forbiddenLogged | forbiddenLogFailed => exact sendsGuarded_fallback
  | speech => exact quiet_prepareSpeech.sends
  | synthesized => exact quiet_pickSpeakPhoto.sends
  | synthesizeFailed | folderFailed | renderFailed => exact quiet_mediaFailed.sends
  | rendered => exact quiet_finishSpeech.sends
  | token | transcribeFailed | streamFailed | crisisLogged | crisisLogFailed =>
    exact ⟨rfl, fun _ _ hs => by cases hs⟩
  | _ => exact quiet_none.sends

/-- A message sends each token that it is given, and no other, and its `text_done` is guarded. -/
theorem messageStep_sends (h : messageStep H messageId w pc ev = some (w', pc')) :
    SendsGuarded H.unicode ev.token? pc'.sends := by
  rcases messageStep_cases h with h | h
  · exact h.sends
  · cases h <;> exact quiet_none.sends

/-! ## Runs -/

/-- What a run sends: the tokens of the response, and guarded texts. -/
theorem messageRun_sends {steps : List (MessageWorld × MessageEvent)} {sent : List SseEvent}
    (h : messageRun H messageId pc steps = some (sent, pc')) :
    sent.filterMap SseEvent.token? = steps.filterMap (fun step => step.2.token?) ∧
      ∀ ev ∈ sent, TextDoneSafe H.unicode (some ev) := by
  induction steps generalizing pc sent with
  | nil => cases h; exact ⟨rfl, fun _ hev => by cases hev⟩
  | cons step steps ih =>
    obtain ⟨w, ev⟩ := step
    obtain ⟨⟨w', pc₁⟩, hstep, h⟩ := Option.bind_eq_some_iff.mp h
    obtain ⟨⟨rest, pc₂⟩, hrest, h⟩ := Option.map_eq_some_iff.mp h
    cases h
    obtain ⟨htoken, hsafe⟩ := messageStep_sends hstep
    obtain ⟨htokens, hall⟩ := ih hrest
    constructor
    · rw [List.filterMap_append, htokens]
      rw [List.filterMap_cons, ← htoken]
      cases hs : pc₁.sends with
      | none => rfl
      | some sentEv => cases hd : sentEv.token? <;> simp [hd]
    · intro sentEv hev
      rcases List.mem_append.mp hev with hev | hev
      · rw [Option.mem_toList] at hev
        rw [hev] at hsafe
        exact hsafe
      · exact hall sentEv hev

end

/-! ## Main results -/

/-- In every run of `process_message`, what the client sees is free of the forbidden topics if and only if
the response of the model is. -/
theorem guarded_iff_response (H : Host) (messageId : Uuid)
    (steps : List (MessageWorld × MessageEvent)) (sent : List SseEvent) (pc : MessagePc)
    (h : messageRun H messageId .created steps = some (sent, pc)) :
    Guarded H.unicode sent ↔ (filterResponse H.unicode (response steps)).matched = false := by
  obtain ⟨htokens, hsafe⟩ := messageRun_sends h
  rw [Guarded, tokenText, htokens, ← response]
  exact ⟨fun hg => hg.1, fun hr => ⟨hr, fun id text hmem => hsafe _ hmem id text rfl⟩⟩

/-- The world of the concrete runs. -/
def sampleMessageWorld : MessageWorld where
  persona := samplePersona
  session := ⟨2, 3, 1, "너는 순이다.", 100, 100, []⟩
  safetyLogs := []

/-- A run to `text_done`, with two tokens. -/
def streamTokens (first second : String) (rest : List MessageEvent) :
    List (MessageWorld × MessageEvent) :=
  let stream : List MessageEvent := [.pull cleanTextDone, .transcribed "안녕", .token first,
    .pull cleanTextDone, .token second, .pull cleanTextDone, .streamEnd]
  (stream ++ rest).map fun ev => (sampleMessageWorld, ev)

/-- The theorem at a run: a response without a forbidden topic. -/
theorem guarded_iff_response_run : ∃ sent pc, messageRun sampleHost 9 .created
    (streamTokens "안녕, " "잘 지냈니" []) = some (sent, pc) ∧ Guarded asciiCase sent := by
  have h : (messageRun sampleHost 9 .created (streamTokens "안녕, " "잘 지냈니" [])).isSome = true := by
    decide +kernel
  obtain ⟨⟨sent, pc⟩, hrun⟩ := Option.isSome_iff_exists.mp h
  exact ⟨sent, pc, hrun, (guarded_iff_response sampleHost 9 _ sent pc hrun).mpr (by decide +kernel)⟩

/-- A keyword that is split over two tokens reaches the client, and `text_done` is replaced after
that. -/
theorem forbidden_topic_streamed : ∃ sent pc, messageRun sampleHost 9 .created
    (streamTokens "형보" "다 낫구나" [.apply 4, .resume]) = some (sent, pc) ∧
    ¬ Guarded asciiCase sent := by
  have h : (messageRun sampleHost 9 .created
      (streamTokens "형보" "다 낫구나" [.apply 4, .resume])).any (fun out =>
        (filterResponse asciiCase (tokenText out.1)).matched) = true := by
    decide +kernel
  obtain ⟨⟨sent, pc⟩, hrun, hmatched⟩ := (Option.any_eq_true _ _).mp h
  refine ⟨sent, pc, hrun, fun hg => ?_⟩
  rw [hg.1] at hmatched
  cases hmatched

end YeounEngine
