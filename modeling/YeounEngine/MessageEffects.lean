import YeounEngine.FinalEvents

/-!
# What a message does to its session

A message writes to its session once, right after the consumer has gone on behind `text_done`: both sides of the
exchange are appended to the history, and the clock is set. The text of the answer is the one of `text_done`,
the one the TTS is given, and one that the output guard lets through.

A run threads the session, which nobody else writes to while the message has its lock; around it, everything may change
between two steps. What has happened so far is kept beside it (`Said`), and the invariant says at each
place what that is (`MessagePc.Said`).
-/

namespace YeounEngine

open Transition

/-! ## Messages with their sessions -/

/-- A call of a model by a message. -/
inductive ModelCall
  | transcribe
  | streamResponse (history : List HistoryMessage)
  | synthesize (text : String)
  | renderSpeak
  deriving DecidableEq, Repr

/-- The call that a message makes on its way to a place. -/
def modelCall : MessagePc → MessagePc → Option ModelCall
  | .created, .transcribing => some .transcribe
  | .transcribing, .streaming reply => some (.streamResponse reply.history)
  | .waitingGpu _, .synthesizing speech => some (.synthesize speech.text)
  | .waitingDitto _, .rendering _ => some .renderSpeak
  | _, _ => none

/-- What `transcribe` returns in a step. -/
def MessageEvent.transcript? : MessageEvent → Option String
  | .transcribed text => some text
  | _ => none

/-- The text of a `text_done`. -/
def SseEvent.textDone? : SseEvent → Option String
  | .textDone _ text => some text
  | _ => none

/-- What has happened in a message: the transcript, the events it has sent, the times at which its consumer went
on behind `text_done`, and its calls of the models. -/
structure Said where
  transcript : Option String
  sent : List SseEvent
  resumed : List Nat
  calls : List ModelCall
  deriving DecidableEq, Repr

namespace Said

def new : Said := ⟨none, [], [], []⟩

/-- The texts of the `text_done` events. -/
def texts (said : Said) : List String := said.sent.filterMap SseEvent.textDone?

/-- The step from `pc` to `pc'` happens. -/
def next (said : Said) (pc : MessagePc) (ev : MessageEvent) (pc' : MessagePc) : Said where
  transcript := ev.transcript?.or said.transcript
  sent := said.sent ++ pc'.sends.toList
  resumed := said.resumed ++ (responds ev pc).toList
  calls := said.calls ++ (modelCall pc pc').toList

end Said

/-- A message with its session, and what has happened in it. -/
structure Saying where
  session : SessionState
  pc : MessagePc
  said : Said
  deriving DecidableEq

/-- What a step of a message finds around its session, and what happens in it. -/
structure Around where
  persona : PersonaWorld
  safetyLogs : List SafetyLog
  event : MessageEvent

/-- A message of a session, from its start. -/
def sayingSystem (H : Host) (messageId : Uuid) (before : SessionState) : System Saying Around where
  init s := s = ⟨before, .created, .new⟩
  step s x := (messageStep H messageId ⟨x.persona, s.session, x.safetyLogs⟩ s.pc x.event).map fun out =>
    ⟨out.1.session, out.2, s.said.next s.pc x.event out.2⟩

/-- Both sides of an exchange are appended. -/
def SessionState.exchanged (s : SessionState) (userText finalText : String) (now : Nat) : SessionState :=
  { s with
    history := s.history ++ [⟨.user, userText, now⟩, ⟨.assistant, finalText, now⟩]
    lastActivityAt := now }

/-- What a message in which `said` has happened has done to its session, and what it has sent and called. -/
structure MessageEffect (U : CaseTable) (before : SessionState) (said : Said) (after : SessionState) : Prop where
  updated : after.history ≠ before.history ↔ said.resumed ≠ []
  unchanged : said.resumed = [] → after = before
  exchanged : ∀ now ∈ said.resumed, said.resumed = [now] ∧ ∃ userText finalText,
    said.transcript = some userText ∧ said.texts = [finalText] ∧ after = before.exchanged userText finalText now
  synthesized : ∀ text, .synthesize text ∈ said.calls → said.texts = [text]
  unmatched : ∀ text ∈ said.texts, (filterResponse U text).matched = false
  whole : ∀ text ∈ said.texts, (filterResponse U (strip (tokenText said.sent))).matched = false →
    text = strip (tokenText said.sent)
  crisis : ∀ userText, said.transcript = some userText → (checkCrisis U userText).matched = true →
    ∀ call ∈ said.calls, call = .transcribe

/-! ## The invariant -/

/-- The message answers what the user said: it is no crisis. -/
def Said.Answers (U : CaseTable) (said : Said) (userText : String) : Prop :=
  said.transcript = some userText ∧ (checkCrisis U userText).matched = false

/-- Nothing has come of the answer yet. -/
structure Said.Open (said : Said) : Prop where
  texts : said.texts = []
  resumed : said.resumed = []
  calls : ∀ text, .synthesize text ∉ said.calls

/-- What has happened when a message is at a place. -/
def MessagePc.Holds (U : CaseTable) (said : Said) : MessagePc → Prop
  | .created => said = .new
  | .transcribing => said = ⟨none, [], [], [.transcribe]⟩
  | .streaming reply | .yielded _ (.token reply) =>
    said.Open ∧ said.Answers U reply.userText ∧ tokenText said.sent = String.join reply.parts
  | .loggingForbidden userText _ =>
    said.Open ∧ said.Answers U userText ∧ (filterResponse U (strip (tokenText said.sent))).matched = true
  | .yielded _ (.textDone userText finalText) =>
    said.Answers U userText ∧ said.texts = [finalText] ∧ said.resumed = [] ∧ ∀ text, .synthesize text ∉ said.calls
  | .waitingGpu speech => (∃ userText, said.Answers U userText) ∧ said.texts = [speech.text]
  | .synthesizing _ | .waitingDitto _ | .rendering _ => ∃ userText, said.Answers U userText
  | _ => True

/-- The invariant of a message. -/
structure SayingInv (U : CaseTable) (before : SessionState) (s : Saying) : Prop where
  effect : MessageEffect U before s.said s.session
  holds : s.pc.Holds U s.said

section
variable {H : Host} {U : CaseTable} {messageId : Uuid} {before after : SessionState} {said : Said} {w w' : MessageWorld}
  {pc pc' : MessagePc} {ev : MessageEvent} {userText : String}

theorem texts_append {sent : Option SseEvent} : ((said.sent ++ sent.toList).filterMap SseEvent.textDone?) =
    said.texts ++ (sent.bind SseEvent.textDone?).toList := by
  rw [List.filterMap_append]
  cases sent with
  | none => rfl
  | some ev => cases h : ev.textDone? <;> simp [Said.texts, h]

theorem tokenText_append {sent : Option SseEvent} : tokenText (said.sent ++ sent.toList) =
    tokenText said.sent ++ (sent.bind SseEvent.token?).getD "" := by
  rw [tokenText, List.filterMap_append, String.join_append]
  cases sent with
  | none => rfl
  | some ev => cases h : ev.token? <;> simp [tokenText, h, String.join]

/-- A step that sends no part of the answer, and is not the one behind `text_done`. -/
structure Aside (pc : MessagePc) (ev : MessageEvent) (pc' : MessagePc) : Prop where
  transcript : ev.transcript? = none
  resumed : responds ev pc = none
  sends : Quiet pc'.sends

/-- What has happened of the answer is the same. -/
structure Said.Same (said said' : Said) : Prop where
  transcript : said'.transcript = said.transcript
  texts : said'.texts = said.texts
  tokens : tokenText said'.sent = tokenText said.sent
  resumed : said'.resumed = said.resumed

theorem Quiet.textDone {sent : Option SseEvent} (h : Quiet sent) : sent.bind SseEvent.textDone? = none := by
  cases sent with
  | none => rfl
  | some ev =>
    cases ev with
    | textDone id text => exact absurd rfl ((h _ rfl).2 id text)
    | _ => rfl

theorem Aside.same (h : Aside pc ev pc') : said.Same (said.next pc ev pc') where
  transcript := by rw [Said.next, h.transcript, Option.none_or]
  texts := by rw [Said.texts, Said.next, texts_append, h.sends.textDone, Option.toList_none, List.append_nil]
  tokens := by
    rw [Said.next, tokenText_append, (h.sends.sends (U := asciiCase)).tokens, Option.getD_none, String.append_empty]
  resumed := by rw [Said.next, h.resumed, Option.toList_none, List.append_nil]

theorem Said.Same.answers {said' : Said} (h : said.Same said') (ha : said.Answers U userText) :
    said'.Answers U userText :=
  ⟨h.transcript.trans ha.1, ha.2⟩

theorem Said.Same.open {said' : Said} (h : said.Same said') (hopen : said.Open)
    (hcalls : ∀ text, .synthesize text ∉ said'.calls) : said'.Open :=
  ⟨h.texts.trans hopen.texts, h.resumed.trans hopen.resumed, hcalls⟩

/-- The effect of what has happened stays what it is, whatever is called next, as long as it may be. -/
theorem MessageEffect.same {said' : Said} (h : MessageEffect U before said after) (hsame : said.Same said')
    (hcalls : ∀ call ∈ said'.calls, call ∈ said.calls ∨ (∃ userText, said.Answers U userText) ∧
      ∀ text, call = .synthesize text → said.texts = [text]) : MessageEffect U before said' after where
  updated := by rw [hsame.resumed]; exact h.updated
  unchanged := by rw [hsame.resumed]; exact h.unchanged
  exchanged := by rw [hsame.resumed, hsame.transcript, hsame.texts]; exact h.exchanged
  synthesized text hcall := by
    rw [hsame.texts]
    rcases hcalls _ hcall with hcall | ⟨-, htext⟩
    · exact h.synthesized text hcall
    · exact htext text rfl
  unmatched := by rw [hsame.texts]; exact h.unmatched
  whole := by rw [hsame.texts, hsame.tokens]; exact h.whole
  crisis userText htranscript hmatched call hcall := by
    rw [hsame.transcript] at htranscript
    rcases hcalls _ hcall with hcall | ⟨⟨userText', hanswers⟩, -⟩
    · exact h.crisis userText htranscript hmatched call hcall
    · rw [hanswers.1] at htranscript
      cases htranscript
      rw [hanswers.2] at hmatched
      cases hmatched

/-- Nothing has come of the answer: the session is as it was. -/
theorem effect_of_open (hopen : said.Open) (hcrisis : ∀ userText, said.transcript = some userText →
    (checkCrisis U userText).matched = true → ∀ call ∈ said.calls, call = .transcribe) :
    MessageEffect U before said before where
  updated := iff_of_false (fun h => h rfl) fun h => h hopen.resumed
  unchanged _ := rfl
  exchanged now hnow := by rw [hopen.resumed] at hnow; cases hnow
  synthesized text hcall := absurd hcall (hopen.calls text)
  unmatched text htext := by rw [hopen.texts] at htext; cases htext
  whole text htext := by rw [hopen.texts] at htext; cases htext
  crisis := hcrisis

theorem not_crisis (hanswers : said.Answers U userText) : ∀ text, said.transcript = some text →
    (checkCrisis U text).matched = true → ∀ call ∈ said.calls, call = .transcribe := by
  intro text htext hmatched
  rw [hanswers.1] at htext
  cases htext
  rw [hanswers.2] at hmatched
  cases hmatched

theorem mem_calls_next {call : ModelCall} :
    call ∈ (said.next pc ev pc').calls ↔ call ∈ said.calls ∨ modelCall pc pc' = some call := by
  rw [Said.next, List.mem_append, Option.mem_toList]

/-- A step aside that calls no model. -/
theorem SayingInv.aside (h : SayingInv U before ⟨after, pc, said⟩) (haside : Aside pc ev pc')
    (hcall : modelCall pc pc' = none) (hholds : pc'.Holds U (said.next pc ev pc')) :
    SayingInv U before ⟨after, pc', said.next pc ev pc'⟩ where
  effect := h.effect.same haside.same fun call hmem => .inl <| by
    rcases mem_calls_next.mp hmem with hmem | hcall'
    · exact hmem
    · cases hcall.symm.trans hcall'
  holds := hholds

/-- The end of the answer: nothing more has to hold. -/
theorem SayingInv.over (h : SayingInv U before ⟨after, pc, said⟩) (haside : Aside pc ev pc')
    (hcall : modelCall pc pc' = none) (hover : ∀ said, pc'.Holds U said) :
    SayingInv U before ⟨after, pc', said.next pc ev pc'⟩ :=
  h.aside haside hcall (hover _)

/-- A step that leaves the answer open. -/
theorem SayingInv.open (h : SayingInv U before ⟨after, pc, said⟩) (hopen : said.Open) (haside : Aside pc ev pc')
    (hcall : modelCall pc pc' = none) (hplace : ∀ said', said.Same said' → said'.Open → pc'.Holds U said') :
    SayingInv U before ⟨after, pc', said.next pc ev pc'⟩ := by
  refine h.aside haside hcall (hplace _ haside.same (haside.same.open hopen fun text hmem => ?_))
  rcases mem_calls_next.mp hmem with hmem | hcall'
  · exact hopen.calls text hmem
  · cases hcall.symm.trans hcall'

/-- A step of the media block, where the answer is known. -/
theorem SayingInv.media (h : SayingInv U before ⟨after, pc, said⟩) (hanswers : ∃ userText, said.Answers U userText)
    (haside : Aside pc ev pc') (hcall : ∀ text, modelCall pc pc' = some (.synthesize text) → said.texts = [text])
    (hplace : ∀ said', (∃ userText, said'.Answers U userText) → pc'.Holds U said') :
    SayingInv U before ⟨after, pc', said.next pc ev pc'⟩ where
  effect := h.effect.same haside.same fun call hmem => by
    rcases mem_calls_next.mp hmem with hmem | hcall'
    · exact .inl hmem
    · refine .inr ⟨hanswers, fun text htext => hcall text ?_⟩
      rw [hcall', htext]
  holds := by
    obtain ⟨userText, hanswers⟩ := hanswers
    exact hplace _ ⟨userText, haside.same.answers hanswers⟩

/-! ## One step -/

/-- The transcription: the answer is open, unless it is a crisis. -/
theorem sayingInv_transcribed {text : String} (h : SayingInv H.unicode before ⟨w.session, .transcribing, said⟩) :
    SayingInv H.unicode before ⟨w.session, inputGuard H w text,
      said.next .transcribing (.transcribed text) (inputGuard H w text)⟩ := by
  cases h.holds
  have hsession : w.session = before := h.effect.unchanged rfl
  rw [hsession]
  refine inputGuard_cases (motive := fun pc => SayingInv H.unicode before
    ⟨before, pc, Said.next ⟨none, [], [], [.transcribe]⟩ .transcribing (.transcribed text) pc⟩)
    (fun _ => ?_) fun hcalm => ?_
  · refine ⟨effect_of_open ⟨rfl, rfl, fun text hmem => ?_⟩ fun _ _ _ call hmem => ?_, trivial⟩
    · cases List.mem_singleton.mp hmem
    · exact List.mem_singleton.mp hmem
  · have hanswers : Said.Answers H.unicode (Said.next ⟨none, [], [], [.transcribe]⟩ .transcribing (.transcribed text)
        (.streaming ⟨text, trimHistory historyMaxChars historyMaxMessages w.session.history, []⟩)) text :=
      ⟨rfl, hcalm⟩
    have hopen : Said.Open (Said.next ⟨none, [], [], [.transcribe]⟩ .transcribing (.transcribed text)
        (.streaming ⟨text, trimHistory historyMaxChars historyMaxMessages w.session.history, []⟩)) :=
      ⟨rfl, rfl, fun text hmem => by
        rcases List.mem_cons.mp hmem with hmem | hmem
        · cases hmem
        · cases List.mem_singleton.mp hmem⟩
    exact ⟨effect_of_open hopen (not_crisis hanswers), hopen, hanswers, rfl⟩

/-- A token: the answer is still open. -/
theorem sayingInv_token {reply : Reply} {data : String} (h : SayingInv U before ⟨after, .streaming reply, said⟩) :
    SayingInv U before ⟨after, .yielded (.token data) (.token { reply with parts := reply.parts ++ [data] }),
      said.next (.streaming reply) (.token data)
        (.yielded (.token data) (.token { reply with parts := reply.parts ++ [data] }))⟩ := by
  obtain ⟨hopen, hanswers, htokens⟩ := h.holds
  have hopen' : (said.next (.streaming reply) (.token data)
      (.yielded (.token data) (.token { reply with parts := reply.parts ++ [data] }))).Open := by
    refine ⟨?_, ?_, fun text hmem => ?_⟩
    · rw [Said.texts, Said.next, texts_append, hopen.texts]
      rfl
    · rw [Said.next, hopen.resumed]
      rfl
    · rcases mem_calls_next.mp hmem with hmem | hcall
      · exact hopen.calls text hmem
      · cases hcall
  have hafter : after = before := h.effect.unchanged hopen.resumed
  rw [hafter]
  refine ⟨effect_of_open hopen' (not_crisis hanswers), hopen', hanswers, ?_⟩
  rw [Said.next, tokenText_append, htokens, String.join_append]
  simp [SseEvent.token?, String.join, MessagePc.sends]

/-- `text_done`, with an answer that the guard lets through, and the whole one if it lets that through. -/
theorem sayingInv_textDone {finalText : String} (hafter : after = before) (hopen : said.Open)
    (hanswers : said.Answers U userText) (haside : ev.transcript? = none) (hresumed : responds ev pc = none)
    (hcall : ∀ sent next, modelCall pc (.yielded sent next) = none)
    (hunmatched : (filterResponse U finalText).matched = false)
    (hwhole : (filterResponse U (strip (tokenText said.sent))).matched = false →
      finalText = strip (tokenText said.sent)) :
    SayingInv U before ⟨after, yieldTextDone messageId userText finalText,
      said.next pc ev (yieldTextDone messageId userText finalText)⟩ := by
  have hcalls : (said.next pc ev (yieldTextDone messageId userText finalText)).calls = said.calls := by
    rw [Said.next, yieldTextDone, hcall, Option.toList_none, List.append_nil]
  have htexts : (said.next pc ev (yieldTextDone messageId userText finalText)).texts = [finalText] := by
    rw [Said.texts, Said.next, texts_append, hopen.texts]
    rfl
  have htokens : tokenText (said.next pc ev (yieldTextDone messageId userText finalText)).sent =
      tokenText said.sent := by
    rw [Said.next, tokenText_append]
    exact String.append_empty
  have hresumed' : (said.next pc ev (yieldTextDone messageId userText finalText)).resumed = [] := by
    rw [Said.next, hopen.resumed, hresumed]
    rfl
  have hanswers' : (said.next pc ev (yieldTextDone messageId userText finalText)).Answers U userText := by
    refine ⟨?_, hanswers.2⟩
    rw [Said.next, haside, Option.none_or]
    exact hanswers.1
  rw [hafter]
  refine ⟨?_, hanswers', htexts, hresumed', fun text => ?_⟩
  · refine ⟨iff_of_false (fun h => h rfl) fun h => h hresumed', fun _ => rfl, fun now hnow => ?_, fun text hmem => ?_,
      fun text htext => ?_, fun text htext hfree => ?_, not_crisis hanswers'⟩
    · rw [hresumed'] at hnow
      cases hnow
    · rw [hcalls] at hmem
      exact absurd hmem (hopen.calls text)
    · rw [htexts] at htext
      cases List.mem_singleton.mp htext
      exact hunmatched
    · rw [htexts] at htext
      rw [htokens] at hfree ⊢
      cases List.mem_singleton.mp htext
      exact hwhole hfree
  · rw [hcalls]
    exact hopen.calls text

/-- The consumer goes on behind `text_done`: the exchange is in the history, wherever the message goes. -/
theorem sayingInv_resumed {sent : SseEvent} {finalText : String} {a : AfterTextDone}
    (h : SayingInv U before ⟨after, .yielded sent (.textDone userText finalText), said⟩) (hquiet : Quiet pc'.sends)
    (hplace : ∀ said', said'.Answers U userText → said'.texts = [finalText] → pc'.Holds U said') :
    SayingInv U before ⟨after.exchanged userText finalText a.now, pc',
      said.next (.yielded sent (.textDone userText finalText)) (.pull a) pc'⟩ := by
  obtain ⟨hanswers, htexts, hresumed, hcalls⟩ := h.holds
  have hafter : after = before := h.effect.unchanged hresumed
  have hcall : modelCall (.yielded sent (.textDone userText finalText)) pc' = none := by
    cases pc' <;> rfl
  have htexts' : (said.next (.yielded sent (.textDone userText finalText)) (.pull a) pc').texts = [finalText] := by
    rw [Said.texts, Said.next, texts_append, hquiet.textDone, Option.toList_none, List.append_nil, htexts]
  have htokens : tokenText (said.next (.yielded sent (.textDone userText finalText)) (.pull a) pc').sent =
      tokenText said.sent := by
    rw [Said.next, tokenText_append, (hquiet.sends (U := asciiCase)).tokens, Option.getD_none, String.append_empty]
  have hresumed' : (said.next (.yielded sent (.textDone userText finalText)) (.pull a) pc').resumed = [a.now] := by
    rw [Said.next, hresumed]
    rfl
  have hanswers' : (said.next (.yielded sent (.textDone userText finalText)) (.pull a) pc').Answers U userText :=
    hanswers
  rw [hafter]
  constructor
  · refine ⟨iff_of_true (fun heq => ?_) ?_, fun hno => ?_, fun now hnow => ?_, fun text hmem => ?_, ?_, ?_,
      not_crisis hanswers'⟩
    · have hlen := congrArg List.length heq
      simp [SessionState.exchanged] at hlen
    · rw [hresumed']
      exact List.cons_ne_nil _ _
    · rw [hresumed'] at hno
      cases hno
    · rw [hresumed'] at hnow
      cases List.mem_singleton.mp hnow
      exact ⟨hresumed', userText, finalText, hanswers'.1, htexts', rfl⟩
    · rcases mem_calls_next.mp hmem with hmem | hcall'
      · exact absurd hmem (hcalls text)
      · cases hcall.symm.trans hcall'
    · rw [htexts', ← htexts]
      exact h.effect.unmatched
    · rw [htexts', htokens, ← htexts]
      exact h.effect.whole
  · exact hplace _ hanswers' htexts'

/-- The media block fails. -/
theorem SayingInv.mediaFailed {e : Exc} {unlinked : String → Unlinked} (h : SayingInv U before ⟨after, pc, said⟩)
    (hsession : w.session = after)
    (htranscript : ev.transcript? = none) (hresumed : responds ev pc = none) :
    SayingInv U before ⟨(mediaFailed messageId w e unlinked).1.session, (mediaFailed messageId w e unlinked).2,
      said.next pc ev (mediaFailed messageId w e unlinked).2⟩ := by
  have hframe : (YeounEngine.mediaFailed messageId w e unlinked).1.session = after := hsession
  rw [hframe]
  have hcall : modelCall pc (YeounEngine.mediaFailed messageId w e unlinked).2 = none :=
    mediaFailed_cases (motive := fun pc' => modelCall pc pc' = none) (fun _ => by cases pc <;> rfl)
      fun _ => by cases pc <;> rfl
  exact h.over ⟨htranscript, hresumed, quiet_mediaFailed⟩ hcall fun said' =>
    mediaFailed_cases (motive := fun pc => pc.Holds U said') (fun _ => trivial) fun _ => trivial

/-- The answer is whole: it is sent, or the safety log comes first. -/
theorem sayingInv_streamEnd {reply : Reply} (h : SayingInv H.unicode before ⟨after, .streaming reply, said⟩) :
    SayingInv H.unicode before ⟨after, outputGuard H messageId reply,
      said.next (.streaming reply) .streamEnd (outputGuard H messageId reply)⟩ := by
  obtain ⟨hopen, hanswers, htokens⟩ := h.holds
  refine outputGuard_cases (motive := fun pc => SayingInv H.unicode before
    ⟨after, pc, said.next (.streaming reply) .streamEnd pc⟩) (fun hmatched => ?_) fun hfree => ?_
  · refine h.open hopen ⟨rfl, rfl, quiet_none⟩ rfl fun said' hsame hopen' => ⟨hopen', hsame.answers hanswers, ?_⟩
    rw [hsame.tokens, htokens]
    exact hmatched
  · refine sayingInv_textDone (h.effect.unchanged hopen.resumed) hopen hanswers rfl rfl (fun _ _ => rfl) hfree
      fun _ => ?_
    rw [htokens]

/-- What the success path and the failures do keeps the invariant, one case for each arm. -/
theorem MessageBodyStep.sayingInv {out : MessageWorld × MessagePc} (hstep : MessageBodyStep H messageId w pc ev out)
    (h : SayingInv H.unicode before ⟨w.session, pc, said⟩) :
    SayingInv H.unicode before ⟨out.1.session, out.2, said.next pc ev out.2⟩ := by
  cases hstep with
  | start =>
    cases h.holds
    have hsession : w.session = before := h.effect.unchanged rfl
    dsimp only
    rw [hsession]
    refine ⟨effect_of_open ⟨rfl, rfl, fun text hmem => ?_⟩ fun _ _ _ call hmem => ?_, rfl⟩
    · cases List.mem_singleton.mp hmem
    · exact List.mem_singleton.mp hmem
  | transcribed => exact sayingInv_transcribed h
  | transcribeFailed => exact h.over ⟨rfl, rfl, quiet_error⟩ rfl fun _ => trivial
  | logCrisis => exact h.over ⟨rfl, rfl, quiet_none⟩ rfl fun _ => trivial
  | crisisLogged | crisisLogFailed =>
    refine h.over ⟨rfl, rfl, ?_⟩ rfl fun _ => trivial
    rintro sent ⟨⟩
    exact ⟨rfl, fun _ _ h => by cases h⟩
  | token => exact sayingInv_token h
  | nextToken =>
    obtain ⟨hopen, hanswers, htokens⟩ := h.holds
    exact h.open hopen ⟨rfl, rfl, quiet_none⟩ rfl fun said' hsame hopen' =>
      ⟨hopen', hsame.answers hanswers, hsame.tokens.trans htokens⟩
  | streamEnd =>
    dsimp only
    exact sayingInv_streamEnd h
  | streamFailed => exact h.over ⟨rfl, rfl, quiet_error⟩ rfl fun _ => trivial
  | logForbidden =>
    obtain ⟨hopen, hanswers, hmatched⟩ := h.holds
    exact h.open hopen ⟨rfl, rfl, quiet_none⟩ rfl fun said' hsame hopen' =>
      ⟨hopen', hsame.answers hanswers, hsame.tokens.symm ▸ hmatched⟩
  | forbiddenLogged | forbiddenLogFailed =>
    obtain ⟨hopen, hanswers, hmatched⟩ := h.holds
    exact sayingInv_textDone (h.effect.unchanged hopen.resumed) hopen hanswers rfl rfl (fun _ _ => rfl)
      forbiddenFallback_not_matched fun hfree => by rw [hmatched] at hfree; cases hfree
  | speech =>
    rw [prepareSpeech_frame.1]
    refine sayingInv_resumed h quiet_prepareSpeech fun said' hanswers htexts => ?_
    exact prepareSpeech_cases (motive := fun pc => pc.Holds H.unicode said') (fun _ => trivial) (fun _ => trivial)
      fun speech hspeech => ⟨⟨_, hanswers⟩, htexts.trans (congrArg (fun text => [text]) hspeech.symm)⟩
  | acquireGpu =>
    obtain ⟨hanswers, htexts⟩ := h.holds
    exact h.media hanswers ⟨rfl, rfl, quiet_none⟩ (fun text hcall => by cases hcall; exact htexts) fun _ ha => ha
  | speechFolder | renderFolder | speechOutput | renderOutput | acquireDitto =>
    exact h.media h.holds ⟨rfl, rfl, quiet_none⟩ (fun text hcall => by cases hcall) fun _ ha => ha
  | synthesized =>
    rw [pickSpeakPhoto_frame.1]
    change SayingInv _ _ ⟨w.session, _, _⟩
    refine h.media h.holds ⟨rfl, rfl, quiet_pickSpeakPhoto⟩ ?_ fun said' hanswers => ?_
    · intro text hcall
      generalize (pickSpeakPhoto H messageId _ _ _).2 = pc' at hcall
      cases pc' <;> cases hcall
    · exact pickSpeakPhoto_cases (motive := fun pc => pc.Holds H.unicode said') (fun _ => trivial) (fun _ => trivial)
        fun _ _ _ => hanswers
  | synthesizeFailed | folderFailed => exact h.mediaFailed rfl rfl rfl
  | renderFailed => exact h.mediaFailed speakFailed_frame.1 rfl rfl
  | rendered =>
    rw [finishSpeech_frame.1]
    change SayingInv _ _ ⟨w.session, _, _⟩
    refine h.media h.holds ⟨rfl, rfl, quiet_finishSpeech⟩ ?_ fun said' _ => ?_
    · intro text hcall
      generalize (finishSpeech messageId _ _ _).2 = pc' at hcall
      cases pc' <;> cases hcall
    · exact finishSpeech_cases (motive := fun pc => pc.Holds H.unicode said') (fun _ => trivial) (fun _ => trivial)
        trivial
  | finish => exact h.over ⟨rfl, rfl, quiet_none⟩ rfl fun _ => trivial
  | unwound | finalised => exact h.over ⟨rfl, rfl, quiet_none⟩ rfl fun _ => trivial

/-- An interruption is no pull, and it ends the message or leads to its clean-up. -/
theorem MessageInterrupted.over {out : MessageWorld × MessagePc} (h : MessageInterrupted messageId w pc ev out) :
    ev.pulled = false ∧ (out.2 = .cancelled ∨ out.2 = .unwinding ∨ out.2 = .abandoned) := by
  cases h with
  | streaming => exact ⟨rfl, .inr (.inl rfl)⟩
  | token => exact ⟨rfl, .inr (.inr rfl)⟩
  | _ => exact ⟨rfl, .inl rfl⟩

theorem aside_of_not_pulled (hev : ev.pulled = false) (hquiet : Quiet pc'.sends) : Aside pc ev pc' := by
  refine ⟨?_, ?_, hquiet⟩
  · cases ev <;> first | rfl | cases hev
  · unfold responds
    split
    · cases hev
    · rfl

/-- Every step keeps the invariant. -/
theorem sayingInv_messageStep (hstep : messageStep H messageId w pc ev = some (w', pc'))
    (h : SayingInv H.unicode before ⟨w.session, pc, said⟩) :
    SayingInv H.unicode before ⟨w'.session, pc', said.next pc ev pc'⟩ := by
  rcases messageStep_cases hstep with hbody | hinterrupted
  · exact hbody.sayingInv h
  · obtain ⟨hev, hpc⟩ := hinterrupted.over
    dsimp only at hpc
    have hplace : ∀ said, pc'.Holds H.unicode said := by rcases hpc with rfl | rfl | rfl <;> exact fun _ => trivial
    have hquiet : Quiet pc'.sends := by rcases hpc with rfl | rfl | rfl <;> exact quiet_none
    have hcall : modelCall pc pc' = none := by rcases hpc with rfl | rfl | rfl <;> cases pc <;> rfl
    rw [show w'.session = w.session from hinterrupted.session]
    exact h.over (aside_of_not_pulled hev hquiet) hcall hplace

end

/-! ## Main results -/

/-- In every run, a message writes to its session if and only if its consumer has gone on behind `text_done`, and
then it appends the transcript and the text of `text_done`, which is the one the TTS is given, one that the output
guard lets through, and all of the response if the guard lets that through. After a crisis it calls no model but the
one that has transcribed it. -/
theorem messageEffect (H : Host) (messageId : Uuid) (before : SessionState) (s : Saying)
    (h : (sayingSystem H messageId before).Reach anyStep s) :
    MessageEffect H.unicode before s.said s.session := by
  suffices SayingInv H.unicode before s from this.effect
  refine h.inv (I := SayingInv H.unicode before) ?_ ?_
  · rintro s rfl
    exact ⟨effect_of_open ⟨rfl, rfl, fun _ hmem => List.not_mem_nil hmem⟩ fun _ hnone => (by cases hnone), rfl⟩
  · rintro s x t hinv - hstep
    obtain ⟨⟨w', pc'⟩, hout, rfl⟩ := Option.map_eq_some_iff.mp hstep
    exact sayingInv_messageStep hout hinv

/-- A message to its end, for a persona with its voice and its photo. -/
def spokenMessage : List Around :=
  ([.pull cleanTextDone, .transcribed "안녕", .token "응", .pull cleanTextDone, .streamEnd, .pull cleanTextDone, .acquire,
    .synthesized ⟨102, .bytes riff⟩ none fun _ => .removed, .acquire,
    .rendered ⟨103, .bytes [0x4d]⟩ .removed fun _ => .removed, .pull cleanTextDone] : List MessageEvent).map
      fun ev => ⟨{ samplePersona with files := sampleFiles.mkdir (.speak 2) }, [], ev⟩

/-- The theorem at that message. -/
theorem messageEffect_spoken : ∃ s : Saying, s.pc = .returned ∧ s.said.texts = ["응"] ∧
    MessageEffect sampleHost.unicode sampleMessageWorld.session s.said s.session := by
  have h : ((sayingSystem sampleHost 9 sampleMessageWorld.session).exec anyStep
      ⟨sampleMessageWorld.session, .created, .new⟩ spokenMessage).any
      (fun s => s.pc = .returned ∧ s.said.texts = ["응"]) = true := by
    decide +kernel
  obtain ⟨s, hrun, hs⟩ := System.exists_of_exec h
  obtain ⟨hpc, htexts⟩ := of_decide_eq_true hs
  exact ⟨s, hpc, htexts, messageEffect sampleHost 9 sampleMessageWorld.session s ⟨_, rfl, hrun⟩⟩

end YeounEngine
