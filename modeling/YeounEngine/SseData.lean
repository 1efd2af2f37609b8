import YeounEngine.Lib.Json
import YeounEngine.FinalEvents
import YeounEngine.Numerals

/-!
# What the client reads

`process_message` yields each event as its name and a text: a token as it is, and every other event as the
`json.dumps` of a dictionary. Transcripts, answers, keywords and the texts of exceptions are in there, and any of them
may have quotes, line breaks or characters beyond ASCII. The text of an event is one line of printable ASCII all the
same, `json.loads` gives back the dictionary, and the client can tell the events of a message from those of any
other by what it is sent (`client_recovers`). The texts are of Unicode scalar values: two surrogates that a `str` holds
side by side would come back as one character.
-/

namespace YeounEngine

/-! ## The text of an event -/

def EventKind.str : EventKind → String
  | .token => "token"
  | .textDone => "text_done"
  | .mediaReady => "media_ready"
  | .crisis => "crisis"
  | .error => "error"

/-- The dictionary that an event is made of; a token has none. -/
def SseEvent.fields : SseEvent → Option (List (String × Option String))
  | .token _ => none
  | .textDone messageId text => some [("message_id", some messageId.str), ("text", some text)]
  | .mediaReady messageId path => some [("message_id", some messageId.str), ("path", some path)]
  | .crisis messageId keyword guidance =>
    some [("message_id", some messageId.str), ("keyword", keyword), ("guidance", some guidance)]
  | .error reason => some [("reason", some reason)]

/-- `json.dumps` of a dictionary of texts. -/
def jsonDumps (fields : List (String × Option String)) : String :=
  String.ofList (Json.dumps (fields.map fun f => (f.1.toList, f.2.map String.toList)))

/-- `json.loads` of it. -/
def jsonLoads (text : String) : Option (List (String × Option String)) :=
  (Json.loads text.toList).map fun fields => fields.map fun f => (String.ofList f.1, f.2.map String.ofList)

/-- `data` of an SSE event. -/
def SseEvent.data : SseEvent → String
  | .token data => data
  | .textDone messageId text => jsonDumps [("message_id", some messageId.str), ("text", some text)]
  | .mediaReady messageId path => jsonDumps [("message_id", some messageId.str), ("path", some path)]
  | .crisis messageId keyword guidance =>
    jsonDumps [("message_id", some messageId.str), ("keyword", keyword), ("guidance", some guidance)]
  | .error reason => jsonDumps [("reason", some reason)]

/-- What `EventSourceResponse` is given. -/
def SseEvent.sent (ev : SseEvent) : String × String := (ev.kind.str, ev.data)

/-! ## Reading it -/

section
variable {fields : List (String × Option String)} {ev ev' : SseEvent} {u v : Uuid}

theorem jsonLoads_jsonDumps (fields : List (String × Option String)) : jsonLoads (jsonDumps fields) = some fields := by
  rw [jsonLoads, jsonDumps, String.toList_ofList, Json.loads_dumps, Option.map_some, List.map_map]
  refine congrArg some ((List.map_congr_left fun f _ => ?_).trans (List.map_id fields))
  obtain ⟨key, value⟩ := f
  cases value <;> simp

theorem data_of_fields (h : ev.fields = some fields) : ev.data = jsonDumps fields := by
  cases ev <;> cases h <;> rfl

/-- The text of an event that is no token is one line of printable ASCII. -/
theorem printable_data (h : ev.fields = some fields) : ∀ c ∈ ev.data.toList, Json.printable c = true := by
  rw [data_of_fields h, jsonDumps, String.toList_ofList]
  exact Json.printable_dumps

theorem kind_str_inj {k k' : EventKind} (h : k.str = k'.str) : k = k' := by
  cases k <;> cases k' <;> first | rfl | exact absurd h (by decide)

theorem hexDigits_inj {w n m : Nat} (hn : n < 16 ^ w) (hm : m < 16 ^ w) (h : hexDigits w n = hexDigits w m) : n = m :=
  fixedDigits_inj (by decide) (fun _ _ => rfl) hn hm h

theorem dash_not_mem_hexDigits {w n : Nat} : '-' ∉ hexDigits w n := by
  induction w generalizing n with
  | zero => exact List.not_mem_nil
  | succ w ih =>
    have table : ∀ k < 16, Nat.digitChar k ≠ '-' := by decide
    rw [hexDigits, List.mem_append, List.mem_singleton]
    rintro (h | h)
    · exact ih h
    · exact table (n % 16) (Nat.mod_lt n (by decide)) h.symm

/-- The groups of a UUID are its digits. -/
theorem groups_append (l : List Char) :
    l.take 8 ++ (l.drop 8).take 4 ++ (l.drop 12).take 4 ++ (l.drop 16).take 4 ++ l.drop 20 = l := by
  have hgroup : ∀ n k, (l.drop n).take k ++ l.drop (n + k) = l.drop n := fun n k => by
    rw [← List.drop_drop, List.take_append_drop]
  rw [List.append_assoc, hgroup 16 4, List.append_assoc, hgroup 12 4, List.append_assoc, hgroup 8 4,
    List.take_append_drop]

/-- The digits of a UUID are its text without the dashes. -/
theorem filter_str (u : Uuid) : u.str.toList.filter (· ≠ '-') = hexDigits 32 u := by
  have hkeep : ∀ l : List Char, l ⊆ hexDigits 32 u → l.filter (· ≠ '-') = l := fun l hl =>
    List.filter_eq_self.mpr fun c hc => decide_eq_true fun heq => dash_not_mem_hexDigits (heq ▸ hl hc)
  have hgroup : ∀ n k, ((hexDigits 32 u).drop n).take k ⊆ hexDigits 32 u := fun n k =>
    List.Subset.trans (List.take_subset _ _) (List.drop_subset _ _)
  have hdash : ∀ l : List Char, ('-' :: l).filter (· ≠ '-') = l.filter (· ≠ '-') := fun _ => rfl
  rw [Uuid.str, String.toList_ofList]
  simp only [List.filter_append, hdash, hkeep _ (hgroup _ _), hkeep _ (List.take_subset _ _),
    hkeep _ (List.drop_subset _ _)]
  exact groups_append _

theorem str_inj (hu : u < 2 ^ 128) (hv : v < 2 ^ 128) (h : u.str = v.str) : u = v := by
  have hdigits : hexDigits 32 u = hexDigits 32 v := by
    rw [← filter_str, ← filter_str, h]
  exact hexDigits_inj hu hv hdigits

end

/-! ## The events of a message -/

/-- The message that an event names. -/
def SseEvent.messageId? : SseEvent → Option Uuid
  | .textDone messageId _ | .mediaReady messageId _ | .crisis messageId _ _ => some messageId
  | .token _ | .error _ => none

/-- An event that names a message names this one. -/
def SseEvent.IsOf (messageId : Uuid) (ev : SseEvent) : Prop := ∀ id ∈ ev.messageId?, id = messageId

section
variable {H : Host} {messageId : Uuid} {w w' : MessageWorld} {pc pc' : MessagePc} {ev ev' : SseEvent}
  {e : MessageEvent}

/-- A message is at a `yield` of its own. -/
def MessagePc.SendsOf (messageId : Uuid) (pc : MessagePc) : Prop := ∀ ev ∈ pc.sends, ev.IsOf messageId

theorem sendsOf_none (h : pc.sends = none) : pc.SendsOf messageId := by
  intro ev hev
  rw [h] at hev
  cases hev

theorem sendsOf_error (reason : String) : (yieldLast (.error reason)).SendsOf messageId := by
  rintro ev ⟨⟩ id ⟨⟩

theorem sendsOf_mediaFailed {x : Exc} {unlinked : String → Unlinked} :
    (mediaFailed messageId w x unlinked).2.SendsOf messageId :=
  mediaFailed_cases (motive := fun pc => pc.SendsOf messageId) (fun _ => sendsOf_none rfl) sendsOf_error

theorem sendsOf_textDone {userText finalText : String} :
    (yieldTextDone messageId userText finalText).SendsOf messageId := by
  rintro ev ⟨⟩ id ⟨⟩
  rfl

theorem sendsOf_crisis {keyword : Option String} : (yieldCrisis messageId keyword).SendsOf messageId := by
  rintro ev ⟨⟩ id ⟨⟩
  rfl

theorem sendsOf_inputGuard {userText : String} : (inputGuard H w userText).SendsOf messageId :=
  inputGuard_cases (motive := fun pc => pc.SendsOf messageId) (fun _ => sendsOf_none rfl) fun _ => sendsOf_none rfl

theorem sendsOf_outputGuard {reply : Reply} : (outputGuard H messageId reply).SendsOf messageId :=
  outputGuard_cases (motive := fun pc => pc.SendsOf messageId) (fun _ => sendsOf_none rfl) fun _ => sendsOf_textDone

theorem sendsOf_prepareSpeech {userText finalText : String} {a : AfterTextDone} :
    (prepareSpeech H messageId w userText finalText a).2.SendsOf messageId :=
  prepareSpeech_cases (motive := fun pc => pc.SendsOf messageId) (fun _ => sendsOf_none rfl) sendsOf_error
    fun _ _ => sendsOf_none rfl

theorem sendsOf_pickSpeakPhoto {fault : Option Exc} {unlinked : String → Unlinked} :
    (pickSpeakPhoto H messageId w fault unlinked).2.SendsOf messageId :=
  pickSpeakPhoto_cases (motive := fun pc => pc.SendsOf messageId) (fun _ => sendsOf_none rfl) sendsOf_error
    fun _ _ _ => sendsOf_none rfl

theorem sendsOf_finishSpeech {wav : Unlinked} {unlinked : String → Unlinked} :
    (finishSpeech messageId w wav unlinked).2.SendsOf messageId := by
  refine finishSpeech_cases (motive := fun pc => pc.SendsOf messageId) (fun _ => sendsOf_none rfl) sendsOf_error ?_
  rintro ev ⟨⟩ id ⟨⟩
  rfl

theorem MessageBodyStep.sendsOf {out : MessageWorld × MessagePc} (h : MessageBodyStep H messageId w pc e out) :
    out.2.SendsOf messageId := by
  cases h with
  | transcribed => exact sendsOf_inputGuard
  | transcribeFailed | streamFailed => exact sendsOf_error _
  | crisisLogged | crisisLogFailed => exact sendsOf_crisis
  | forbiddenLogged | forbiddenLogFailed => exact sendsOf_textDone
  | token => rintro ev ⟨⟩ id ⟨⟩
  | streamEnd =>
    dsimp only
    exact sendsOf_outputGuard
  | speech => exact sendsOf_prepareSpeech
  | synthesized => exact sendsOf_pickSpeakPhoto
  | synthesizeFailed | folderFailed | renderFailed => exact sendsOf_mediaFailed
  | rendered => exact sendsOf_finishSpeech
  | _ => exact sendsOf_none rfl

/-- Whatever a message sends, it names the message, if any. -/
theorem sendsOf_messageStep {out : MessageWorld × MessagePc} (h : messageStep H messageId w pc e = some out) :
    out.2.SendsOf messageId := by
  rcases messageStep_cases h with h | h
  · exact h.sendsOf
  · cases h <;> exact sendsOf_none rfl

/-- Whatever a message sends in a run. -/
theorem isOf_of_messageRun {steps : List (MessageWorld × MessageEvent)} {sent : List SseEvent}
    (h : messageRun H messageId pc steps = some (sent, pc')) : ∀ ev ∈ sent, ev.IsOf messageId := by
  induction steps generalizing pc sent with
  | nil =>
    cases h
    intro ev hev
    cases hev
  | cons x steps ih =>
    obtain ⟨⟨w₁, pc₁⟩, hstep, hrest⟩ := Option.bind_eq_some_iff.mp h
    obtain ⟨⟨rest, pc₂⟩, hrun, heq⟩ := Option.map_eq_some_iff.mp hrest
    cases heq
    intro ev hev
    rcases List.mem_append.mp hev with hev | hev
    · exact sendsOf_messageStep hstep ev (Option.mem_toList.mp hev)
    · exact ih hrun ev hev

/-- The client tells the events of two messages apart. -/
theorem eq_of_sent {u v : Uuid} (hu : u < 2 ^ 128) (hv : v < 2 ^ 128) (hev : ev.IsOf u) (hev' : ev'.IsOf v)
    (h : ev.sent = ev'.sent) : ev = ev' := by
  obtain ⟨hkind, hdata⟩ := Prod.mk.inj h
  have hsame : ev.kind = ev'.kind := kind_str_inj hkind
  have hfields : ∀ fields fields', ev.fields = some fields → ev'.fields = some fields' → fields = fields' := by
    intro fields fields' hf hf'
    rw [data_of_fields hf, data_of_fields hf'] at hdata
    have hloads := congrArg jsonLoads hdata
    rwa [jsonLoads_jsonDumps, jsonLoads_jsonDumps, Option.some.injEq] at hloads
  have hid : ∀ {id id' : Uuid}, id = u → id' = v → id.str = id'.str → id = id' := by
    rintro id id' rfl rfl hstr
    exact str_inj hu hv hstr
  cases ev with
  | token data =>
    cases ev' <;> first | exact congrArg SseEvent.token hdata | cases hsame
  | textDone id text =>
    cases ev' <;> cases hsame
    have heq := hfields _ _ rfl rfl
    simp only [List.cons.injEq, Prod.mk.injEq, Option.some.injEq, true_and, and_true] at heq
    rw [hid (hev _ rfl) (hev' _ rfl) heq.1, heq.2]
  | mediaReady id path =>
    cases ev' <;> cases hsame
    have heq := hfields _ _ rfl rfl
    simp only [List.cons.injEq, Prod.mk.injEq, Option.some.injEq, true_and, and_true] at heq
    rw [hid (hev _ rfl) (hev' _ rfl) heq.1, heq.2]
  | crisis id keyword guidance =>
    cases ev' <;> cases hsame
    have heq := hfields _ _ rfl rfl
    simp only [List.cons.injEq, Prod.mk.injEq, Option.some.injEq, true_and, and_true] at heq
    rw [hid (hev _ rfl) (hev' _ rfl) heq.1, heq.2.1, heq.2.2]
  | error reason =>
    cases ev' <;> cases hsame
    have heq := hfields _ _ rfl rfl
    simp only [List.cons.injEq, Prod.mk.injEq, Option.some.injEq, true_and, and_true] at heq
    rw [heq]

theorem eq_of_map_sent {u v : Uuid} (hu : u < 2 ^ 128) (hv : v < 2 ^ 128) {sent sent' : List SseEvent}
    (hsent : ∀ ev ∈ sent, ev.IsOf u) (hsent' : ∀ ev ∈ sent', ev.IsOf v)
    (h : sent.map SseEvent.sent = sent'.map SseEvent.sent) : sent = sent' := by
  induction sent generalizing sent' with
  | nil => exact (List.map_eq_nil_iff.mp h.symm).symm
  | cons ev sent ih =>
    cases sent' with
    | nil => cases h
    | cons ev' sent' =>
      obtain ⟨hhead, htail⟩ := List.cons.inj h
      rw [eq_of_sent hu hv (hsent ev List.mem_cons_self) (hsent' ev' List.mem_cons_self) hhead,
        ih (fun ev hev => hsent ev (List.mem_cons_of_mem _ hev)) (fun ev hev => hsent' ev (List.mem_cons_of_mem _ hev))
          htail]

end

/-! ## Main result -/

/-- Whatever a message sends in a run, of texts of Unicode scalar values: the text of each event that is no token is one
line of printable ASCII, of which `json.loads` makes the dictionary of the event; and two messages that send a client
the same have sent the same events. -/
theorem client_recovers (H H' : Host) (messageId messageId' : Uuid) (hid : messageId < 2 ^ 128)
    (hid' : messageId' < 2 ^ 128) (steps steps' : List (MessageWorld × MessageEvent)) (sent sent' : List SseEvent)
    (pc pc' : MessagePc)
    (hrun : messageRun H messageId .created steps = some (sent, pc))
    (hrun' : messageRun H' messageId' .created steps' = some (sent', pc')) :
    (∀ ev ∈ sent, ∀ fields ∈ ev.fields, (∀ c ∈ ev.data.toList, Json.printable c = true) ∧
      jsonLoads ev.data = some fields) ∧
    (sent.map SseEvent.sent = sent'.map SseEvent.sent ↔ sent = sent') := by
  refine ⟨fun ev _ fields hfields => ⟨printable_data hfields, ?_⟩, fun h => ?_, fun h => by rw [h]⟩
  · rw [data_of_fields hfields, jsonLoads_jsonDumps]
  · exact eq_of_map_sent hid hid' (isOf_of_messageRun hrun) (isOf_of_messageRun hrun') h

/-- A message that answers with quotes, a line break and a character beyond U+FFFF. -/
def quotingSteps : List (MessageWorld × MessageEvent) :=
  [.pull cleanTextDone, .transcribed "안녕", .token "\"응\"\n😀", .pull cleanTextDone, .streamEnd].map fun e =>
    (sampleMessageWorld, e)

/-- The theorem at that message, and at one that fails. -/
theorem client_recovers_quotes : ∃ sent pc sent' pc',
    messageRun sampleHost 9 .created quotingSteps = some (sent, pc) ∧
    messageRun sampleHost 8 .created [(sampleMessageWorld, .pull cleanTextDone),
      (sampleMessageWorld, .fail ⟨"OSError", ""⟩ fun _ => .removed)] = some (sent', pc') ∧
    sent.length = 2 ∧ sent'.length = 1 ∧
    (∀ ev ∈ sent, ∀ fields ∈ ev.fields, (∀ c ∈ ev.data.toList, Json.printable c = true) ∧
      jsonLoads ev.data = some fields) ∧
    (sent.map SseEvent.sent = sent'.map SseEvent.sent ↔ sent = sent') := by
  have h : (messageRun sampleHost 9 .created quotingSteps).any (fun out => out.1.length = 2) = true := by
    decide +kernel
  have h' : (messageRun sampleHost 8 .created [(sampleMessageWorld, .pull cleanTextDone),
      (sampleMessageWorld, .fail ⟨"OSError", ""⟩ fun _ => .removed)]).any (fun out => out.1.length = 1) = true := by
    decide +kernel
  obtain ⟨⟨sent, pc⟩, hrun, hsent⟩ := (Option.any_eq_true _ _).mp h
  obtain ⟨⟨sent', pc'⟩, hrun', hsent'⟩ := (Option.any_eq_true _ _).mp h'
  exact ⟨sent, pc, sent', pc', hrun, hrun', of_decide_eq_true hsent, of_decide_eq_true hsent',
    client_recovers sampleHost sampleHost 9 8 (by decide) (by decide) _ _ sent sent' pc pc' hrun hrun'⟩

/-- What the client is sent of that answer. -/
example : (SseEvent.error "\"응\"\n😀").data = "\x7b\"reason\": \"\\\"\\uc751\\\"\\n\\ud83d\\ude00\"\x7d" := by
  decide +kernel

end YeounEngine
