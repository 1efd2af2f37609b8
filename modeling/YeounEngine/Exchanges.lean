import YeounEngine.FinalEvents
import YeounEngine.SessionEnd
import YeounEngine.WhitespaceVariants
import YeounEngine.TrimmedHistory
import YeounEngine.Lib.Auxiliary

/-!
# Exchanges

The history of a session is a sequence of exchanges, what the user said and what was answered: a message appends both
records in one step, with the lock of the session, or neither. So the exchanges are in the order in which their
messages got the lock, at most one from each.

The model is shown the end of the history that fits into two budgets. The budget of messages is even; the budget
of characters may end inside an exchange, and then the answer of it is shown without the question
(`Shown`).
-/

namespace YeounEngine

open Transition

/-! ## What the model is shown -/

/-- What a message has added to the history: request `request`, with its transcript and its answer. -/
structure Told where
  request : Nat
  userText : String
  finalText : String
  now : Nat
  deriving DecidableEq, Repr

/-- The two records of an exchange. -/
def Told.records (x : Told) : List MessageRecord := [⟨.user, x.userText, x.now⟩, ⟨.assistant, x.finalText, x.now⟩]

/-- The end of some exchanges as the model is shown it: whole exchanges, or before them the answer of one more, the
question of which takes them over the budget of characters. -/
inductive Shown (told : List Told) : List HistoryMessage → Prop
  | whole {older newer} (h : told = older ++ newer) :
      Shown told ((newer.flatMap Told.records).map MessageRecord.shown)
  | cut {older x newer} (h : told = older ++ x :: newer)
      (exceeds : historyMaxChars < chars ((x :: newer).flatMap Told.records)) :
      Shown told (⟨.assistant, x.finalText⟩ :: (newer.flatMap Told.records).map MessageRecord.shown)

section
variable {told : List Told}

theorem records_cons {x : Told} : (x :: told).flatMap Told.records =
    ⟨.user, x.userText, x.now⟩ :: ⟨.assistant, x.finalText, x.now⟩ :: told.flatMap Told.records := rfl

/-- A sequence of exchanges, cut anywhere: between two of them, or inside one. -/
theorem cut_exchanges {older newer : List MessageRecord} (h : told.flatMap Told.records = older ++ newer) :
    (∃ told₁ told₂, told = told₁ ++ told₂ ∧ newer = told₂.flatMap Told.records) ∨
      ∃ told₁ x told₂, told = told₁ ++ x :: told₂ ∧
        older = told₁.flatMap Told.records ++ [⟨.user, x.userText, x.now⟩] ∧
        newer = ⟨.assistant, x.finalText, x.now⟩ :: told₂.flatMap Told.records := by
  induction told generalizing older with
  | nil =>
    obtain ⟨rfl, rfl⟩ := List.append_eq_nil_iff.mp h.symm
    exact .inl ⟨[], [], rfl, rfl⟩
  | cons x told ih =>
    rw [records_cons] at h
    match older with
    | [] => exact .inl ⟨[], x :: told, rfl, h.symm⟩
    | [m] =>
      cases h
      exact .inr ⟨[], x, told, rfl, rfl, rfl⟩
    | m :: m' :: older =>
      rw [List.cons_append, List.cons_append] at h
      obtain ⟨hm, h⟩ := List.cons_eq_cons.mp h
      obtain ⟨hm', hrest⟩ := List.cons_eq_cons.mp h
      subst hm hm'
      rcases ih hrest with ⟨told₁, told₂, rfl, hnewer⟩ | ⟨told₁, y, told₂, rfl, rfl, hnewer⟩
      · exact .inl ⟨x :: told₁, told₂, rfl, hnewer⟩
      · exact .inr ⟨x :: told₁, y, told₂, rfl, rfl, hnewer⟩

theorem length_records : (told.flatMap Told.records).length = 2 * told.length := by
  induction told with
  | nil => rfl
  | cons x told ih =>
    rw [records_cons, List.length_cons, List.length_cons, ih, List.length_cons]
    omega

/-- What the model is shown of exchanges is the end of them. -/
theorem shown_trimHistory (told : List Told) :
    Shown told (trimHistory historyMaxChars historyMaxMessages (told.flatMap Told.records)) := by
  obtain ⟨older, newer, hcut, htrim, hfits, hover⟩ :=
    trimHistory_eq historyMaxChars historyMaxMessages (told.flatMap Told.records)
  rw [htrim]
  rcases cut_exchanges hcut with ⟨told₁, told₂, htold, rfl⟩ | ⟨told₁, x, told₂, htold, rfl, rfl⟩
  · exact .whole htold
  · refine .cut htold (Nat.lt_of_not_le fun hsize => hover _ _ rfl ⟨?_, hsize⟩)
    -- an odd number of messages is below the budget, so it is the one of characters that has run out
    have hcount := hfits.count
    rw [List.length_cons, length_records] at hcount
    rw [List.length_cons, List.length_cons, length_records]
    unfold historyMaxMessages at hcount ⊢
    omega

/-- Behind what the model is shown, the message of the user: no two records in a row are of one role. -/
theorem Shown.alternates {history : List HistoryMessage} (h : Shown told history) :
    (history.map HistoryMessage.role ++ [Role.user]).IsChain (· ≠ ·) := by
  have hwhole : ∀ newer : List Told, ∃ rest,
      ((newer.flatMap Told.records).map MessageRecord.shown).map HistoryMessage.role ++ [Role.user] = .user :: rest ∧
        (.user :: rest).IsChain (· ≠ ·) := by
    intro newer
    induction newer with
    | nil => exact ⟨[], rfl, .singleton _⟩
    | cons x newer ih =>
      obtain ⟨rest, hroles, halternate⟩ := ih
      refine ⟨.assistant :: .user :: rest, ?_, ?_⟩
      · rw [← hroles]
        rfl
      · exact .cons_cons (by decide) (.cons_cons (by decide) halternate)
  cases h with
  | whole =>
    obtain ⟨rest, hroles, halternate⟩ := hwhole _
    rw [hroles]
    exact halternate
  | cut =>
    obtain ⟨rest, hroles, halternate⟩ := hwhole _
    rw [List.map_cons, List.cons_append, hroles]
    exact .cons_cons Role.noConfusion halternate

end

/-! ## What has been said -/

/-- The requests whose messages have had the lock of a session, and the exchanges of it, in their order. -/
structure Talk where
  granted : Uuid → List Nat
  told : Uuid → List Told

/-- What a step of request `i` adds: a message has got the lock, or its records are appended. -/
def Talk.after (r : Talk) (i : Nat) : ServiceTask → ServiceEvent → Talk
  | .message sid _ .locking, .message .granted =>
    { r with granted := Function.update r.granted sid (r.granted sid ++ [i]) }
  | .message sid _ (.inside (.yielded _ (.textDone userText finalText))), .message (.message (.pull a) _) =>
    { r with told := Function.update r.told sid (r.told sid ++ [⟨i, userText, finalText, a.now⟩]) }
  | _, _ => r

/-- What has been said, as a record beside the service. -/
def talk : Auxiliary (Pool ServiceWorld ServiceTask) (Event ServiceTask ServiceEvent ServiceEnv)
    (Event ServiceTask ServiceEvent ServiceEnv) Talk where
  start := ⟨fun _ => [], fun _ => []⟩
  event := some
  record p r e := some <| match e with
    | .run i ev => (p.tasks[i]?).elim r fun t => r.after i t ev
    | _ => r

/-- The service, with what has been said. -/
def talkSystem (H : Host) : System (Extended (Pool ServiceWorld ServiceTask) Talk)
    (Event ServiceTask ServiceEvent ServiceEnv) :=
  (serviceSystem H (fun _ => true) ServiceWorld.Fresh).extend talk

/-! ## One step -/

/-- The records of a session, none before it starts. -/
def ServiceWorld.records (w : ServiceWorld) (sid : Uuid) : List MessageRecord :=
  (w.state sid).elim [] SessionState.history

/-- The message has had its turn of the lock, or has given it up. -/
def PostPc.passed : PostPc → Bool
  | .inside _ | .releasing _ | .finished _ => true
  | _ => false

/-- The records of the message have not been appended, and may still be. -/
def MessagePc.untold : MessagePc → Bool
  | .created | .transcribing | .loggingCrisis _ _ | .streaming _ | .unwinding | .loggingForbidden _ _
  | .yielded _ (.token _) | .yielded _ (.textDone _ _) => true
  | _ => false

/-- The history that `stream_response` was given, while it streams. -/
def MessagePc.given : MessagePc → Option (List HistoryMessage)
  | .streaming reply | .yielded _ (.token reply) => some reply.history
  | _ => none

/-- A step of a message, as far as the history is concerned. -/
structure MessageTalk (history : List MessageRecord) (pc : MessagePc) (ev : MessageEvent) (pc' : MessagePc) :
    Prop where
  untold : pc'.untold = true → pc.untold = true ∧ responds ev pc = none
  given : ∀ shown ∈ pc'.given,
    pc.given = some shown ∨ shown = trimHistory historyMaxChars historyMaxMessages history

section
variable {H : Host} {messageId : Uuid} {w w' : MessageWorld} {pc pc' : MessagePc} {ev : MessageEvent}
  {history : List MessageRecord}

/-- The message streams no more. -/
theorem messageTalk_of_given (hgiven : pc'.given = none)
    (h : pc'.untold = true → pc.untold = true ∧ responds ev pc = none) : MessageTalk history pc ev pc' :=
  ⟨h, fun shown hshown => by rw [hgiven] at hshown; cases hshown⟩

/-- The message streams, with the history that it was given, or with the one it sees now. -/
theorem messageTalk_of_some {shown : List HistoryMessage} (hgiven : pc'.given = some shown)
    (hold : pc.given = some shown ∨ shown = trimHistory historyMaxChars historyMaxMessages history)
    (h : pc.untold = true ∧ responds ev pc = none) : MessageTalk history pc ev pc' := by
  refine ⟨fun _ => h, fun shown' hshown => ?_⟩
  rw [hgiven] at hshown
  cases hshown
  exact hold

theorem given_of_untold (h : pc.untold = false) : pc.given = none := by
  unfold MessagePc.given
  split
  · cases h
  · cases h
  · rfl

theorem messageTalk_of_untold (h : pc'.untold = false) : MessageTalk history pc ev pc' :=
  messageTalk_of_given (given_of_untold h) fun h' => by rw [h] at h'; cases h'

theorem messageTalk_inputGuard {text : String} :
    MessageTalk w.session.history .transcribing (.transcribed text) (inputGuard H w text) := by
  refine inputGuard_cases (motive := MessageTalk _ _ _) (fun _ => ?_) fun _ => ?_
  · exact messageTalk_of_given rfl fun _ => ⟨rfl, rfl⟩
  · exact messageTalk_of_some rfl (.inr rfl) ⟨rfl, rfl⟩

theorem messageTalk_outputGuard {reply : Reply} :
    MessageTalk history (.streaming reply) .streamEnd (outputGuard H messageId reply) := by
  refine outputGuard_cases (motive := MessageTalk history _ _) (fun _ => ?_) fun _ => ?_
  · exact messageTalk_of_given rfl fun _ => ⟨rfl, rfl⟩
  · exact messageTalk_of_given rfl fun _ => ⟨rfl, rfl⟩

/-- Every step of a message, one case for each arm. -/
theorem MessageBodyStep.talk {out : MessageWorld × MessagePc} (h : MessageBodyStep H messageId w pc ev out) :
    MessageTalk w.session.history pc ev out.2 := by
  cases h with
  | start | logCrisis | logForbidden => exact messageTalk_of_given rfl fun _ => ⟨rfl, rfl⟩
  | forbiddenLogged | forbiddenLogFailed => exact messageTalk_of_given rfl fun _ => ⟨rfl, rfl⟩
  | transcribed =>
    dsimp only
    exact messageTalk_inputGuard
  | token | nextToken => exact messageTalk_of_some rfl (.inl rfl) ⟨rfl, rfl⟩
  | streamEnd =>
    dsimp only
    exact messageTalk_outputGuard
  | speech =>
    exact prepareSpeech_cases (motive := MessageTalk _ _ _) (fun _ => messageTalk_of_untold rfl)
      (fun _ => messageTalk_of_untold rfl) fun _ _ => messageTalk_of_untold rfl
  | synthesized =>
    exact pickSpeakPhoto_cases (motive := MessageTalk _ _ _) (fun _ => messageTalk_of_untold rfl)
      (fun _ => messageTalk_of_untold rfl) fun _ _ _ => messageTalk_of_untold rfl
  | synthesizeFailed | folderFailed | renderFailed =>
    exact mediaFailed_cases (motive := MessageTalk _ _ _) (fun _ => messageTalk_of_untold rfl)
      fun _ => messageTalk_of_untold rfl
  | rendered =>
    exact finishSpeech_cases (motive := MessageTalk _ _ _) (fun _ => messageTalk_of_untold rfl)
      (fun _ => messageTalk_of_untold rfl) (messageTalk_of_untold rfl)
  | _ => exact messageTalk_of_untold rfl

theorem messageStep_talk (h : messageStep H messageId w pc ev = some (w', pc')) :
    MessageTalk w.session.history pc ev pc' := by
  rcases messageStep_cases h with h | h
  · exact h.talk
  · cases h with
    | streaming | transcribing | loggingCrisis | loggingForbidden =>
      exact messageTalk_of_given rfl fun _ => ⟨rfl, rfl⟩
    | _ => exact messageTalk_of_untold rfl

end

/-- What a step of request `i` is to the exchanges: one that adds nothing, a message that gets the lock, or one that
appends its records. -/
inductive TalkChange (w w' : ServiceWorld) (r r' : Talk) (i : Nat) (t t' : ServiceTask) : Prop
  | quiet (records : w'.records = w.records) (record : r' = r)
      (passed : ∀ sid messageId pc, t = .message sid messageId pc → pc.passed = true →
        ∃ pc', t' = .message sid messageId pc' ∧ pc'.passed = true)
      (inside : ∀ sid messageId pc', t' = .message sid messageId (.inside pc') → ∃ pc,
        t = .message sid messageId (.inside pc) ∧ (pc'.untold = true → pc.untold = true) ∧
        ∀ shown ∈ pc'.given, pc.given = some shown ∨
          shown = trimHistory historyMaxChars historyMaxMessages (w.records sid))
  | granted {sid messageId} (before : t = .message sid messageId .locking)
      (after : t' = .message sid messageId (.inside .created)) (turn : w.turn sid i = true)
      (records : w'.records = w.records)
      (record : r' = { r with granted := Function.update r.granted sid (r.granted sid ++ [i]) })
  | told {sid messageId pc pc' userText finalText now} (before : t = .message sid messageId (.inside pc))
      (untold : pc.untold = true) (after : t' = .message sid messageId pc') (passed : pc'.passed = true)
      (told : ∀ pc, pc' = .inside pc → pc.untold = false ∧ pc.given = none)
      (records : w'.records = Function.update w.records sid
        (w.records sid ++ (⟨i, userText, finalText, now⟩ : Told).records))
      (record : r' = { r with told := Function.update r.told sid (r.told sid ++ [⟨i, userText, finalText, now⟩]) })

section
variable {H : Host} {w w' : ServiceWorld} {r : Talk} {t t' : ServiceTask} {e : ServiceEvent} {i : Nat} {sid : Uuid}

theorem records_of_state (h : w'.state = w.state) : w'.records = w.records := by
  have hcomp : w'.records = (fun s => s.elim [] SessionState.history) ∘ w'.state := rfl
  rw [hcomp, h]
  rfl

theorem records_update {s : SessionState} (h : w'.state = Function.update w.state sid (some s)) :
    w'.records = Function.update w.records sid s.history := by
  have hcomp : w'.records = (fun s => s.elim [] SessionState.history) ∘ w'.state := rfl
  rw [hcomp, h, Function.comp_update]
  rfl

/-- A request that is no message, or not with the lock. -/
theorem talkChange_of_not_passed {r' : Talk} (records : w'.records = w.records) (record : r' = r)
    (ht : ∀ sid messageId pc, t = .message sid messageId pc → pc.passed = false)
    (ht' : ∀ sid messageId pc, t' ≠ .message sid messageId (.inside pc)) : TalkChange w w' r r' i t t' := by
  refine .quiet records record (fun sid messageId pc h hpassed => ?_) fun sid messageId pc' h => ?_
  · rw [ht _ _ _ h] at hpassed
    cases hpassed
  · exact absurd h (ht' _ _ _)

theorem after_of_responds {messageId : Uuid} {pc : MessagePc} {ev : MessageEvent} {unlinked : Bool}
    (h : responds ev pc = none) :
    r.after i (.message sid messageId (.inside pc)) (.message (.message ev unlinked)) = r := by
  unfold Talk.after
  split
  · rename_i heq _
    cases heq
  · rename_i heq hev
    cases heq
    cases hev
    cases h
  · rfl

/-- A step of a message: the records are appended behind `text_done`, and at no other place. -/
theorem talkChange_message {messageId : Uuid} {pc pc' : MessagePc} {ev : MessageEvent} {unlinked : Bool} {s : Session}
    {m : MessageWorld} {post : PostPc} (hs : w.sessions sid = some s)
    (hm : messageStep H messageId (w.messageWorld s) pc ev = some (m, pc'))
    (hw : w'.state = Function.update w.state sid (some m.session)) (hpassed : post.passed = true)
    (hpost : ∀ pc, post = .inside pc → pc = pc') :
    TalkChange w w' r (r.after i (.message sid messageId (.inside pc)) (.message (.message ev unlinked))) i
      (.message sid messageId (.inside pc)) (.message sid messageId post) := by
  have htalk := messageStep_talk hm
  have hrecords : w.records sid = s.state.history := by
    rw [ServiceWorld.records, state_of_sessions hs]
    rfl
  have hupdate := records_update hw
  rcases messageStep_session hm with ⟨hnone, hsession⟩ | ⟨sent, userText, finalText, a, rfl, rfl, hsession⟩
  · refine .quiet ?_ (after_of_responds hnone) (fun sid' messageId' pc₀ h _ => ?_) fun sid' messageId' pc₀ h => ?_
    · rw [hupdate, hsession]
      exact Function.update_eq_self_iff.mpr hrecords.symm
    · cases h
      exact ⟨post, rfl, hpassed⟩
    · cases h
      cases hpost _ rfl
      refine ⟨pc, rfl, fun h => (htalk.untold h).1, ?_⟩
      rw [hrecords]
      exact htalk.given
  · have htold : pc'.untold = false := by
      cases h : pc'.untold with
      | false => rfl
      | true => cases (htalk.untold h).2
    refine .told rfl rfl rfl hpassed (fun pc₀ h => ?_) ?_ rfl
    · cases hpost _ h
      exact ⟨htold, given_of_untold htold⟩
    · rw [hupdate, hsession, hrecords]
      rfl

/-- Every step of a request, one case for each handler. -/
theorem RequestStep.talk (h : RequestStep H w i t e (w', t')) : TalkChange w w' r (r.after i t e) i t t' := by
  cases h with
  | start hs =>
    refine talkChange_of_not_passed ?_ rfl (fun _ _ _ h => by cases h) fun _ _ _ h => by cases h
    cases hs with
    | created hnew =>
      rw [records_update state_create]
      refine Function.update_eq_self_iff.mpr ?_
      rw [ServiceWorld.records, ServiceWorld.state, hnew]
      rfl
    | _ => rfl
  | message hs =>
    cases hs with
    | message hs hm => exact talkChange_message hs hm (state_onMessage hs) rfl fun _ h => (PostPc.inside.inj h).symm
    | messageLeft hs hm =>
      exact talkChange_message hs hm (state_leaveMessage.trans (state_onMessage hs)) rfl fun _ h => by cases h
    | granted hturn => exact .granted rfl rfl hturn rfl rfl
    | released | finaliseReleasing | finaliseFinished | cancelReleasing =>
      refine .quiet rfl rfl (fun sid' messageId' pc h _ => ?_) fun sid' messageId' pc h => ?_
      · cases h
        exact ⟨_, rfl, rfl⟩
      · cases h
    | pull =>
      exact talkChange_of_not_passed (records_of_state state_enterLock) rfl (fun _ _ _ h => by cases h; rfl)
        fun _ _ _ h => by cases h
    | cancelLocking =>
      exact talkChange_of_not_passed (records_of_state state_leaveMessage) rfl (fun _ _ _ h => by cases h; rfl)
        fun _ _ _ h => by cases h
    | _ =>
      exact talkChange_of_not_passed rfl rfl (fun _ _ _ h => by cases h; rfl) fun _ _ _ h => by cases h
  | ending hs =>
    refine talkChange_of_not_passed ?_ rfl (fun _ _ _ h => by cases h) fun _ _ _ h => by cases h
    cases hs.change (H := H) with
    | same _ state | removed _ _ _ state => exact records_of_state state
  | persona =>
    exact talkChange_of_not_passed rfl rfl (fun _ _ _ h => by cases h) fun _ _ _ h => by cases h

end

/-! ## The invariant -/

/-- What is known while a message of request `i` runs: it was the last to get the lock. -/
structure Conversing (w : ServiceWorld) (r : Talk) (sid : Uuid) (i : Nat) (pc : MessagePc) : Prop where
  last : ∃ before, r.granted sid = before ++ [i] ∧
    (pc.untold = true → ((r.told sid).map Told.request).Sublist before)
  given : ∀ shown ∈ pc.given, shown = trimHistory historyMaxChars historyMaxMessages (w.records sid)

/-- The history of a session is what was told in it, in the order of its lock. -/
structure TalkKept (p : Pool ServiceWorld ServiceTask) (r : Talk) : Prop where
  locked : p.All fun w i t => ∀ sid, t.inside sid = true → w.turn sid i = true
  records : ∀ sid, p.world.records sid = (r.told sid).flatMap Told.records
  order : ∀ sid, ((r.told sid).map Told.request).Sublist (r.granted sid)
  once : ∀ sid, (r.granted sid).Nodup
  passed : ∀ sid, ∀ i ∈ r.granted sid, ∃ messageId pc,
    p.tasks[i]? = some (.message sid messageId pc) ∧ pc.passed = true
  conversing : ∀ (i : Nat) sid messageId pc, p.tasks[i]? = some (.message sid messageId (.inside pc)) →
    Conversing p.world r sid i pc

section
variable {H : Host} {p q : Pool ServiceWorld ServiceTask} {r r' : Talk} {w' : ServiceWorld} {t t' : ServiceTask}
  {e : ServiceEvent} {i : Nat} {x y : Extended (Pool ServiceWorld ServiceTask) Talk}

/-- What is known of a message depends on its own session only. -/
theorem Conversing.of_eq {w : ServiceWorld} {sid : Uuid} {pc : MessagePc} (h : Conversing w r sid i pc)
    (hrecords : w'.records sid = w.records sid) (hgranted : r'.granted sid = r.granted sid)
    (htold : r'.told sid = r.told sid) : Conversing w' r' sid i pc := by
  refine ⟨?_, ?_⟩
  · rw [hgranted, htold]
    exact h.last
  · rw [hrecords]
    exact h.given

/-- While a request has the lock of a session, no other one has a message in it. -/
theorem TalkKept.ne_of_turn (h : TalkKept p r) {sid sid' messageId : Uuid} {j : Nat} {pc : MessagePc}
    (hturn : p.world.turn sid i = true) (hj : p.tasks[j]? = some (.message sid' messageId (.inside pc))) (hne : j ≠ i) :
    sid' ≠ sid := by
  rintro rfl
  exact hne (turn_unique (h.locked j _ hj sid' (decide_eq_true rfl)) hturn)

/-- The requests that have passed the lock are still there after a step of one that has not un-passed it. -/
theorem TalkKept.passed_set (h : TalkKept p r) (hi : p.tasks[i]? = some t)
    (hpassed : ∀ sid messageId pc, t = .message sid messageId pc → pc.passed = true →
      ∃ pc', t' = .message sid messageId pc' ∧ pc'.passed = true) {sid : Uuid} {j : Nat} (hj : j ∈ r.granted sid) :
    ∃ messageId pc, (p.tasks.set i t')[j]? = some (.message sid messageId pc) ∧ pc.passed = true := by
  obtain ⟨messageId, pc, hget, hpc⟩ := h.passed sid j hj
  by_cases hji : j = i
  · subst hji
    rw [hi] at hget
    cases hget
    obtain ⟨pc', ht', hpc'⟩ := hpassed sid messageId pc rfl hpc
    exact ⟨messageId, pc', by rw [Pool.getElem?_set_of_some hi, ht'], hpc'⟩
  · exact ⟨messageId, pc, (Pool.getElem?_set_of_ne hji).trans hget, hpc⟩

/-- Nothing is added. -/
theorem TalkKept.quiet (h : TalkKept p r) (hi : p.tasks[i]? = some t)
    (hlocked : Pool.All (fun w i t => ∀ sid, t.inside sid = true → w.turn sid i = true) ⟨w', p.tasks.set i t'⟩)
    (records : w'.records = p.world.records)
    (passed : ∀ sid messageId pc, t = .message sid messageId pc → pc.passed = true →
      ∃ pc', t' = .message sid messageId pc' ∧ pc'.passed = true)
    (inside : ∀ sid messageId pc', t' = .message sid messageId (.inside pc') → ∃ pc,
      t = .message sid messageId (.inside pc) ∧ (pc'.untold = true → pc.untold = true) ∧
      ∀ shown ∈ pc'.given, pc.given = some shown ∨
        shown = trimHistory historyMaxChars historyMaxMessages (p.world.records sid)) :
    TalkKept ⟨w', p.tasks.set i t'⟩ r := by
  refine ⟨hlocked, fun sid => (congrFun records sid).trans (h.records sid), h.order, h.once,
    fun sid j hj => h.passed_set hi passed hj, fun j sid messageId pc hj => ?_⟩
  by_cases hji : j = i
  · subst hji
    rw [Pool.getElem?_set_of_some hi] at hj
    obtain ⟨pc₀, rfl, huntold, hgiven⟩ := inside sid messageId pc (Option.some.inj hj)
    obtain ⟨⟨before, hbefore, hlast⟩, hshown⟩ := h.conversing j sid messageId pc₀ hi
    refine ⟨⟨before, hbefore, fun hpc => hlast (huntold hpc)⟩, fun shown hpc => ?_⟩
    change shown = trimHistory _ _ (w'.records sid)
    rw [records]
    exact (hgiven shown hpc).elim (hshown shown) id
  · rw [Pool.getElem?_set_of_ne hji] at hj
    exact (h.conversing j sid messageId pc hj).of_eq (congrFun records sid) rfl rfl

/-- A message gets the lock. -/
theorem TalkKept.grant {sid₀ messageId₀ : Uuid} (h : TalkKept p r)
    (hi : p.tasks[i]? = some (.message sid₀ messageId₀ .locking))
    (hlocked : Pool.All (fun w i t => ∀ sid, t.inside sid = true → w.turn sid i = true)
      ⟨w', p.tasks.set i (.message sid₀ messageId₀ (.inside .created))⟩)
    (hturn : p.world.turn sid₀ i = true) (records : w'.records = p.world.records) :
    TalkKept ⟨w', p.tasks.set i (.message sid₀ messageId₀ (.inside .created))⟩
      { r with granted := Function.update r.granted sid₀ (r.granted sid₀ ++ [i]) } := by
  have hnew : i ∉ r.granted sid₀ := by
    intro hmem
    obtain ⟨messageId, pc, hget, hpassed⟩ := h.passed sid₀ i hmem
    rw [hi] at hget
    cases hget
    cases hpassed
  have hold : ∀ sid, ∀ j ∈ r.granted sid, ∃ messageId pc,
      (p.tasks.set i (.message sid₀ messageId₀ (.inside .created)))[j]? = some (.message sid messageId pc) ∧
        pc.passed = true := by
    intro sid j hj
    refine h.passed_set hi (fun _ _ pc heq hpc => ?_) hj
    cases heq
    cases hpc
  refine ⟨hlocked, fun sid => (congrFun records sid).trans (h.records sid), ?_, ?_, ?_, fun j sid messageId pc hj => ?_⟩
  · refine (Function.forall_update_iff r.granted fun sid is => ((r.told sid).map Told.request).Sublist is).mpr
      ⟨(h.order sid₀).trans (List.sublist_append_left _ _), fun sid _ => h.order sid⟩
  · refine (Function.forall_update_iff r.granted fun _ is => is.Nodup).mpr ⟨?_, fun sid _ => h.once sid⟩
    refine List.nodup_append.mpr ⟨h.once sid₀, List.nodup_singleton i, fun j hj k hk heq => ?_⟩
    rw [List.mem_singleton] at hk
    exact hnew (hk ▸ heq ▸ hj)
  · refine (Function.forall_update_iff r.granted fun sid is => ∀ j ∈ is, ∃ messageId pc,
      (p.tasks.set i (.message sid₀ messageId₀ (.inside .created)))[j]? = some (.message sid messageId pc) ∧
        pc.passed = true).mpr ⟨fun j hj => ?_, fun sid _ => hold sid⟩
    rw [List.mem_append, List.mem_singleton] at hj
    rcases hj with hj | rfl
    · exact hold sid₀ j hj
    · exact ⟨messageId₀, _, Pool.getElem?_set_of_some hi, rfl⟩
  · by_cases hji : j = i
    · subst hji
      rw [Pool.getElem?_set_of_some hi] at hj
      cases hj
      refine ⟨⟨r.granted sid₀, Function.update_self .., fun _ => h.order sid₀⟩, fun shown hshown => ?_⟩
      cases hshown
    · rw [Pool.getElem?_set_of_ne hji] at hj
      have hne : sid ≠ sid₀ := h.ne_of_turn hturn hj hji
      exact (h.conversing j sid messageId pc hj).of_eq (congrFun records sid) (Function.update_of_ne hne ..) rfl

/-- A message appends its records. -/
theorem TalkKept.tell {sid₀ messageId₀ : Uuid} {pc₀ : MessagePc} {post : PostPc} {userText finalText : String}
    {now : Nat} (h : TalkKept p r) (hi : p.tasks[i]? = some (.message sid₀ messageId₀ (.inside pc₀)))
    (hlocked : Pool.All (fun w i t => ∀ sid, t.inside sid = true → w.turn sid i = true)
      ⟨w', p.tasks.set i (.message sid₀ messageId₀ post)⟩)
    (untold : pc₀.untold = true) (passed : post.passed = true)
    (told : ∀ pc, post = .inside pc → pc.untold = false ∧ pc.given = none)
    (records : w'.records = Function.update p.world.records sid₀
      (p.world.records sid₀ ++ (⟨i, userText, finalText, now⟩ : Told).records)) :
    TalkKept ⟨w', p.tasks.set i (.message sid₀ messageId₀ post)⟩
      { r with told := Function.update r.told sid₀ (r.told sid₀ ++ [⟨i, userText, finalText, now⟩]) } := by
  have hturn : p.world.turn sid₀ i = true := h.locked i _ hi sid₀ (decide_eq_true rfl)
  obtain ⟨⟨before, hbefore, hlast⟩, -⟩ := h.conversing i sid₀ messageId₀ pc₀ hi
  refine ⟨hlocked, fun sid => ?_, ?_, h.once, fun sid j hj => ?_, fun j sid messageId pc hj => ?_⟩
  · refine (congrFun records sid).trans ?_
    by_cases hsid : sid = sid₀
    · subst hsid
      dsimp only
      rw [Function.update_self, Function.update_self, h.records sid, List.flatMap_append, List.flatMap_singleton]
    · dsimp only
      rw [Function.update_of_ne hsid, Function.update_of_ne hsid]
      exact h.records sid
  · refine (Function.forall_update_iff r.told fun sid told => (told.map Told.request).Sublist (r.granted sid)).mpr
      ⟨?_, fun sid _ => h.order sid⟩
    rw [List.map_append, hbefore]
    exact (hlast untold).append (.refl _)
  · refine h.passed_set hi (fun sid messageId pc heq _ => ?_) hj
    cases heq
    exact ⟨post, rfl, passed⟩
  · by_cases hji : j = i
    · subst hji
      rw [Pool.getElem?_set_of_some hi] at hj
      cases hj
      obtain ⟨htold, hgiven⟩ := told pc rfl
      refine ⟨⟨before, hbefore, fun hpc => ?_⟩, fun shown hshown => ?_⟩
      · rw [htold] at hpc
        cases hpc
      · rw [hgiven] at hshown
        cases hshown
    · rw [Pool.getElem?_set_of_ne hji] at hj
      have hne : sid ≠ sid₀ := h.ne_of_turn hturn hj hji
      exact (h.conversing j sid messageId pc hj).of_eq
        ((congrFun records sid).trans (Function.update_of_ne hne ..)) rfl (Function.update_of_ne hne ..)

/-- Every step of a request keeps the invariant. -/
theorem TalkKept.run (h : TalkKept p r) (hi : p.tasks[i]? = some t) (hs : TalkChange p.world w' r r' i t t')
    (hlocked : Pool.All (fun w i t => ∀ sid, t.inside sid = true → w.turn sid i = true) ⟨w', p.tasks.set i t'⟩) :
    TalkKept ⟨w', p.tasks.set i t'⟩ r' := by
  cases hs with
  | quiet records record passed inside =>
    subst record
    exact h.quiet hi hlocked records passed inside
  | granted before after turn records record =>
    subst before after record
    exact h.grant hi hlocked turn records
  | told before untold after passed told records record =>
    subst before after record
    exact h.tell hi hlocked untold passed told records

/-- A request that arrives has said nothing. -/
theorem TalkKept.arrive (h : TalkKept p r) (harr : t.arriving = true) : TalkKept ⟨p.world, p.tasks ++ [t]⟩ r := by
  refine ⟨h.locked.append fun sid hin => ?_, h.records, h.order, h.once, fun sid j hj => ?_,
    fun j sid messageId pc hj => ?_⟩
  · rw [(arriving_outside harr).1] at hin
    cases hin
  · obtain ⟨messageId, pc, hget, hpassed⟩ := h.passed sid j hj
    exact ⟨messageId, pc, (List.getElem?_append_left (List.getElem?_eq_some_iff.mp hget).1).trans hget, hpassed⟩
  · rcases Pool.getElem?_append_cases hj with ⟨-, rfl⟩ | hj
    · cases harr
    · exact h.conversing j sid messageId pc hj

/-- A sweep, or left-over work, says nothing. -/
theorem TalkKept.env (h : TalkKept p r) {env : ServiceEnv} (henv : serviceEnv p.world env = some w') :
    TalkKept ⟨w', p.tasks⟩ r := by
  cases env with
  | sweep now =>
    cases henv
    exact ⟨h.locked, h.records, h.order, h.once, h.passed, fun j sid messageId pc hj =>
      (h.conversing j sid messageId pc hj).of_eq rfl rfl rfl⟩
  | orphan id k act =>
    obtain ⟨p', -, rfl⟩ := Option.map_eq_some_iff.mp henv
    exact ⟨h.locked, h.records, h.order, h.once, h.passed, fun j sid messageId pc hj =>
      (h.conversing j sid messageId pc hj).of_eq rfl rfl rfl⟩

/-- Every step keeps the invariant. -/
theorem TalkKept.next {e : Event ServiceTask ServiceEvent ServiceEnv} (h : TalkKept x.state x.record)
    (hstep : (talkSystem H).step x e = some y) : TalkKept y.state y.record := by
  refine System.extend_cases (motive := fun y => TalkKept y.state y.record) hstep ?_ fun r he => (by cases he)
  intro e' q r he hs hr
  cases he
  cases hr
  refine Coop.next_cases (motive := fun q => TalkKept q _) hs ?_ ?_ ?_
  · rintro t rfl harr
    exact h.arrive (Bool.and_eq_true_iff.mp harr).1
  · rintro i ev t w' t' rfl hi hstep
    obtain ⟨w₁, gpu, ditto, hreq, -, rfl⟩ := serviceStep_inv hstep
    dsimp only
    rw [hi]
    have hlocked : Pool.All (fun w i t => ∀ sid, t.inside sid = true → w.turn sid i = true)
        ⟨{ w₁ with gpu := gpu, ditto := ditto }, x.state.tasks.set i t'⟩ := by
      refine Pool.All.set hi (fun sid hin => ?_) fun j u hj hu sid hin => ?_
      · have hturn : w₁.turn sid i = true := hreq.inside (h.locked i t hi sid) hin
        exact hturn
      · have hturn : w₁.turn sid j = true := hreq.turn hj (h.locked j u hu sid hin)
        exact hturn
    refine h.run hi ?_ hlocked
    cases hreq.talk with
    | quiet records record passed inside => exact .quiet records record passed inside
    | granted before after turn records record => exact .granted before after turn records record
    | told before untold after passed told records record =>
      exact .told before untold after passed told records record
  · rintro env w' rfl henv
    have hmap : x.state.tasks.map ((serviceCoop H fun _ => true).onTask env) = x.state.tasks := List.map_id _
    rw [hmap]
    exact h.env henv

theorem TalkKept.initial (h : (talkSystem H).init x) : TalkKept x.state x.record := by
  obtain ⟨⟨hw, htasks⟩, hrecord⟩ := h
  rw [hrecord]
  refine ⟨.nil htasks, fun sid => ?_, fun _ => .slnil, fun _ => List.nodup_nil, fun _ _ hj => ?_,
    fun j sid messageId pc hj => ?_⟩
  · rw [ServiceWorld.records, ServiceWorld.state, hw.sessions sid]
    rfl
  · cases hj
  · rw [htasks] at hj
    cases hj

end

/-! ## Main results -/

/-- The history of every session is a sequence of exchanges, at most one from each message and in the order in which
the messages got the lock; and a response that streams was given the end of it. -/
structure Exchanged (p : Pool ServiceWorld ServiceTask) (r : Talk) : Prop where
  history : ∀ sid s, p.world.state sid = some s → s.history = (r.told sid).flatMap Told.records
  order : ∀ sid, ((r.told sid).map Told.request).Sublist (r.granted sid)
  once : ∀ sid, (r.granted sid).Nodup
  messages : ∀ sid, ∀ i ∈ r.granted sid, ∃ messageId pc, p.tasks[i]? = some (.message sid messageId pc)
  shown : ∀ (i : Nat) sid messageId reply,
    p.tasks[i]? = some (.message sid messageId (.inside (.streaming reply))) →
      Shown (r.told sid) reply.history ∧ (reply.history.map HistoryMessage.role ++ [Role.user]).IsChain (· ≠ ·)

/-- In every interleaving of requests, whatever becomes of the messages, the histories are sequences of whole
exchanges. What the model is shown of one is the end of it: whole exchanges, or, where the budget of characters runs
out inside an exchange, the answer of it first; with the message of the user behind it the roles alternate. -/
theorem exchanged_of_reach (H : Host) (x : Extended (Pool ServiceWorld ServiceTask) Talk)
    (h : (talkSystem H).Reach anyStep x) : Exchanged x.state x.record := by
  have hinv : TalkKept x.state x.record :=
    h.inv (I := fun x => TalkKept x.state x.record) (fun _ => .initial) fun _ _ _ hI _ hs => hI.next hs
  refine ⟨fun sid s hs => ?_, hinv.order, hinv.once, fun sid i hi => ?_, fun i sid messageId reply hi => ?_⟩
  · rw [← hinv.records sid, ServiceWorld.records, hs]
    rfl
  · obtain ⟨messageId, pc, hget, -⟩ := hinv.passed sid i hi
    exact ⟨messageId, pc, hget⟩
  · have hgiven := (hinv.conversing i sid messageId _ hi).given reply.history rfl
    rw [hinv.records sid] at hgiven
    rw [hgiven]
    exact ⟨shown_trimHistory _, (shown_trimHistory _).alternates⟩

/-- The theorem at a run: a message, and a second one that streams behind it. -/
theorem exchanged_of_reach_run : ∃ x, (talkSystem sampleHost).Reach anyStep x ∧
    ((x.state.tasks[2]?.bind ServiceTask.messagePc).bind MessagePc.given).any (·.length = 2) = true ∧
      Exchanged x.state x.record := by
  have h : ((talkSystem sampleHost).exec anyStep ⟨⟨sampleService, []⟩, ⟨fun _ => [], fun _ => []⟩⟩
      (startSession 0 11 21 ++ postMessage 1 21 31 ++ sayMessage 1 (sayHello ++ failSpeech) ++ postMessage 2 21 32 ++
        sayMessage 2 [.pull cleanTextDone, .transcribed "안녕"])).any (fun x =>
      ((x.state.tasks[2]?.bind ServiceTask.messagePc).bind MessagePc.given).any (·.length = 2)) = true := by
    decide +kernel
  obtain ⟨x, hsteps, hstreams⟩ := System.exists_of_exec h
  have hreach : (talkSystem sampleHost).Reach anyStep x := ⟨_, ⟨⟨sampleService_fresh, rfl⟩, rfl⟩, hsteps⟩
  exact ⟨x, hreach, hstreams, exchanged_of_reach _ x hreach⟩

/-! ## A question that is cut off -/

/-- The session as a run finds it: its lock, and the messages that have a slot. -/
structure ServiceWorld.At (w : ServiceWorld) (sid : Uuid) (s : Session) (n : Int) : Prop where
  session : w.sessions sid = some s
  stored : sid ∈ w.stored
  active : w.activeMessages = n

section
variable {H : Host} {p : Pool ServiceWorld ServiceTask} {w w' : ServiceWorld} {ts : List ServiceTask}
  {t t' : ServiceTask}
  {e : ServiceEvent} {sid messageId : Uuid} {s : Session} {n : Int} {pc pc' : MessagePc} {ev : MessageEvent}
  {m : MessageWorld} {before : SessionState} {text finalText : String}

/-- The last request takes a step. -/
theorem steps_last (hp : (serviceSystem H (fun _ => true) ServiceWorld.Fresh).Steps anyStep p ⟨w, ts ++ [t]⟩)
    (h : requestStep H w ts.length t e = some (w', t')) (hgpu : t.holdsGpu = false ∧ t'.holdsGpu = false)
    (hditto : t.holdsDitto = false ∧ t'.holdsDitto = false) :
    (serviceSystem H (fun _ => true) ServiceWorld.Fresh).Steps anyStep p ⟨w', ts ++ [t']⟩ := by
  have hstep : serviceStep H w ts.length t e = some (w', t') := by
    rw [serviceStep, h, Option.bind_some, passSemaphores, hgpu.1, hgpu.2, hditto.1, hditto.2]
    rfl
  refine .tail hp trivial (e := .run ts.length e) ?_
  change (serviceCoop H fun _ => true).next ⟨w, ts ++ [t]⟩ (.run ts.length e) = _
  have hrun : (serviceCoop H fun _ => true).step w ts.length t e = some (w', t') := hstep
  rw [Coop.next, List.getElem?_concat_length, Option.bind_some, hrun, Option.map_some,
    List.set_append_right _ _ (Nat.le_refl _), Nat.sub_self, List.set_cons_zero]

/-- Its message takes a step. -/
theorem steps_message (ev : MessageEvent) (hp : (serviceSystem H (fun _ => true) ServiceWorld.Fresh).Steps anyStep p
      ⟨w, ts ++ [.message sid messageId (.inside pc)]⟩) (hw : w.At sid s n)
    (hm : messageStep H messageId (w.messageWorld s) pc ev = some (m, pc')) (hl : pc'.left = false)
    (hgpu : pc.holdsGpu = false ∧ pc'.holdsGpu = false) (hditto : pc.holdsDitto = false ∧ pc'.holdsDitto = false) :
    ∃ w', (serviceSystem H (fun _ => true) ServiceWorld.Fresh).Steps anyStep p
      ⟨w', ts ++ [.message sid messageId (.inside pc')]⟩ ∧ w'.At sid ⟨m.session, s.lock⟩ n := by
  refine ⟨w.onMessage sid s.state.personaId m, steps_last hp (e := .message (.message ev true)) ?_ hgpu hditto,
    ?_, hw.stored, hw.active⟩
  · rw [requestStep, postStep, hw.session, Option.bind_some, hm, Option.map_some, inMessage,
      if_neg (Bool.eq_false_iff.mp hl)]
    rfl
  · change Function.update w.sessions sid ((w.sessions sid).map _) sid = _
    rw [Function.update_self, hw.session]
    rfl

/-- Its message ends, and gives the lock back. -/
theorem steps_left (ev : MessageEvent) (hp : (serviceSystem H (fun _ => true) ServiceWorld.Fresh).Steps anyStep p
      ⟨w, ts ++ [.message sid messageId (.inside pc)]⟩) (hw : w.At sid s n)
    (hm : messageStep H messageId (w.messageWorld s) pc ev = some (m, pc')) (hl : pc'.left = true)
    (hgpu : pc.holdsGpu = false ∧ pc'.holdsGpu = false) (hditto : pc.holdsDitto = false ∧ pc'.holdsDitto = false) :
    ∃ w', (serviceSystem H (fun _ => true) ServiceWorld.Fresh).Steps anyStep p
      ⟨w', ts ++ [.message sid messageId (.releasing pc')]⟩ ∧
        w'.At sid ⟨m.session, s.lock.leave ts.length⟩ n := by
  refine ⟨(w.onMessage sid s.state.personaId m).leaveMessage sid ts.length true,
    steps_last hp (e := .message (.message ev true)) ?_ hgpu hditto, ?_, hw.stored, hw.active⟩
  · rw [requestStep, postStep, hw.session, Option.bind_some, hm, Option.map_some, inMessage, if_pos hl]
    rfl
  · change Function.update (Function.update w.sessions sid ((w.sessions sid).map _)) sid
      ((Function.update w.sessions sid ((w.sessions sid).map _) sid).map _) sid = _
    rw [Function.update_self, Function.update_self, hw.session]
    rfl

theorem inputGuard_calm (h : (checkCrisis H.unicode text).matched = false) {m : MessageWorld} :
    inputGuard H m text = .streaming ⟨text, trimHistory historyMaxChars historyMaxMessages m.session.history, []⟩ := by
  unfold inputGuard
  dsimp only
  rw [if_neg (Bool.eq_false_iff.mp h)]

theorem outputGuard_clean {reply : Reply}
    (h : (filterResponse H.unicode (strip (String.join reply.parts))).matched = false) :
    outputGuard H messageId reply = yieldTextDone messageId reply.userText (strip (String.join reply.parts)) := by
  unfold outputGuard
  dsimp only
  rw [filterResponse_text, if_neg (Bool.eq_false_iff.mp h)]

/-- A message of a session with a free lock streams its answer. -/
theorem steps_streaming (ts : List ServiceTask) (messageId : Uuid) (hw : w.At sid ⟨before, .free⟩ 0)
    (hcalm : (checkCrisis H.unicode text).matched = false) :
    ∃ w', (serviceSystem H (fun _ => true) ServiceWorld.Fresh).Steps anyStep ⟨w, ts⟩ ⟨w', ts ++ [.message sid messageId
      (.inside (.streaming ⟨text, trimHistory historyMaxChars historyMaxMessages before.history, []⟩))]⟩ ∧
        w'.At sid ⟨before, ⟨[ts.length]⟩⟩ 1 := by
  have hget : w.get sid = some ⟨before, .free⟩ := by rw [ServiceWorld.get, if_pos hw.stored, hw.session]
  have harrived : (serviceSystem H (fun _ => true) ServiceWorld.Fresh).Steps anyStep ⟨w, ts⟩
      ⟨w, ts ++ [.message sid messageId .arrived]⟩ :=
    .tail (.refl _) trivial (e := .arrive (.message sid messageId .arrived)) rfl
  have henter : requestStep H w ts.length (.message sid messageId .arrived) (.message .enter) =
      some (w, .message sid messageId .admitting) := by
    rw [requestStep, postStep, hget]
    rfl
  have hknown := steps_last harrived henter ⟨rfl, rfl⟩ ⟨rfl, rfl⟩
  have hreserve : requestStep H w ts.length (.message sid messageId .admitting) (.message (.reserve none true)) =
      some (w.takeSlot.makeTmp ts.length true, .message sid messageId .reading) := by
    rw [requestStep, postStep, hw.active]
    rfl
  have hadmitted := steps_last hknown hreserve ⟨rfl, rfl⟩ ⟨rfl, rfl⟩
  have hread := steps_last hadmitted (e := .message (.read none)) rfl ⟨rfl, rfl⟩ ⟨rfl, rfl⟩
  have hresponded := steps_last hread (e := .message .resume) rfl ⟨rfl, rfl⟩ ⟨rfl, rfl⟩
  have hlocking := steps_last hresponded (e := .message .pull) rfl ⟨rfl, rfl⟩ ⟨rfl, rfl⟩
  have hat : ((w.takeSlot.makeTmp ts.length true).enterLock sid ts.length).At sid ⟨before, ⟨[ts.length]⟩⟩ 1 := by
    refine ⟨?_, hw.stored, ?_⟩
    · change Function.update w.sessions sid ((w.sessions sid).map _) sid = _
      rw [Function.update_self, hw.session]
      rfl
    · change w.activeMessages + 1 = 1
      rw [hw.active]
      rfl
  have hturn : ((w.takeSlot.makeTmp ts.length true).enterLock sid ts.length).turn sid ts.length = true := by
    rw [ServiceWorld.turn, hat.session]
    exact decide_eq_true rfl
  have hgrant : requestStep H ((w.takeSlot.makeTmp ts.length true).enterLock sid ts.length) ts.length
      (.message sid messageId .locking) (.message .granted) =
      some ((w.takeSlot.makeTmp ts.length true).enterLock sid ts.length,
        .message sid messageId (.inside .created)) := by
    rw [requestStep, postStep, if_pos hturn]
    rfl
  have hgranted := steps_last hlocking hgrant ⟨rfl, rfl⟩ ⟨rfl, rfl⟩
  obtain ⟨w₁, hpulled, hat₁⟩ := steps_message (.pull cleanTextDone) hgranted hat rfl rfl ⟨rfl, rfl⟩ ⟨rfl, rfl⟩
  have hheard : messageStep H messageId (w₁.messageWorld ⟨before, ⟨[ts.length]⟩⟩) .transcribing (.transcribed text) =
      some (w₁.messageWorld ⟨before, ⟨[ts.length]⟩⟩,
        .streaming ⟨text, trimHistory historyMaxChars historyMaxMessages before.history, []⟩) :=
    congrArg (fun pc => some (_, pc)) (inputGuard_calm hcalm)
  exact steps_message _ hpulled hat₁ hheard rfl ⟨rfl, rfl⟩ ⟨rfl, rfl⟩

/-- A whole message: its records are in the history, and the session is free again. Its media fail. -/
theorem steps_exchange (ts : List ServiceTask) (messageId : Uuid) (hw : w.At sid ⟨before, .free⟩ 0)
    (hcalm : (checkCrisis H.unicode text).matched = false)
    (hclean : (filterResponse H.unicode (strip (String.join [finalText]))).matched = false) :
    ∃ w' t', (serviceSystem H (fun _ => true) ServiceWorld.Fresh).Steps anyStep ⟨w, ts⟩ ⟨w', ts ++ [t']⟩ ∧
      w'.At sid ⟨{ before with
        history := before.history ++ [⟨.user, text, 101⟩, ⟨.assistant, strip (String.join [finalText]), 101⟩]
        lastActivityAt := 101 }, .free⟩ 0 := by
  obtain ⟨w₁, hstreaming, hat₁⟩ := steps_streaming ts messageId hw hcalm
  obtain ⟨w₂, htoken, hat₂⟩ := steps_message (.token finalText) hstreaming hat₁ rfl rfl ⟨rfl, rfl⟩ ⟨rfl, rfl⟩
  obtain ⟨w₃, hnext, hat₃⟩ := steps_message (.pull cleanTextDone) htoken hat₂ rfl rfl ⟨rfl, rfl⟩ ⟨rfl, rfl⟩
  have hguard : outputGuard H messageId ⟨text, trimHistory historyMaxChars historyMaxMessages before.history,
      [finalText]⟩ = yieldTextDone messageId text (strip (String.join [finalText])) := outputGuard_clean hclean
  have hguarded : messageStep H messageId (w₃.messageWorld ⟨before, ⟨[ts.length]⟩⟩) (.streaming
      ⟨text, trimHistory historyMaxChars historyMaxMessages before.history, [] ++ [finalText]⟩) .streamEnd =
      some (w₃.messageWorld ⟨before, ⟨[ts.length]⟩⟩,
        yieldTextDone messageId text (strip (String.join [finalText]))) :=
    congrArg (fun pc => some (_, pc)) hguard
  obtain ⟨w₄, hdone, hat₄⟩ := steps_message _ hnext hat₃ hguarded rfl ⟨rfl, rfl⟩ ⟨rfl, rfl⟩
  obtain ⟨w₅, hleft, hat₅⟩ := steps_left (.pull { cleanTextDone with mkdirFault := some ⟨"PermissionError", "denied"⟩ })
    hdone hat₄ rfl rfl ⟨rfl, rfl⟩ ⟨rfl, rfl⟩
  have hfreed := steps_last hleft (e := .message .counter) rfl ⟨rfl, rfl⟩ ⟨rfl, rfl⟩
  refine ⟨_, _, hfreed, ?_, hat₅.stored, ?_⟩
  · have hsession := hat₅.session
    rw [FifoLock.leave, List.erase_cons_head] at hsession
    exact hsession
  · change w₅.activeMessages - 1 = 0
    rw [hat₅.active]
    rfl

end

/-- A text of one letter. -/
def drawl (n : Nat) (c : Char) : String := .ofList (.replicate n c)

theorem length_drawl {n : Nat} {c : Char} : (drawl n c).length = n := by
  rw [drawl, String.length_ofList, List.length_replicate]

theorem drawl_calm {n : Nat} : (checkCrisis U (drawl n '가')).matched = false := by
  refine Bool.eq_false_iff.mpr fun hmatched => ?_
  obtain ⟨k, hk, hinfix⟩ := matched_checkCrisis.mp hmatched
  have table : (crisisKeywords.all fun k => (without isBlankOrTab k).any (· ≠ '가')) = true := by decide
  obtain ⟨c, hc, hne⟩ := List.any_eq_true.mp (List.all_eq_true.mp table k hk)
  have hmem := hinfix.subset hc
  rw [without, drawl, String.toList_ofList] at hmem
  exact of_decide_eq_true hne (List.eq_of_mem_replicate (List.mem_of_mem_filter hmem))

/-- The records of `n` exchanges of one question and one answer. -/
def exchanges (question answer : String) (n : Nat) : List MessageRecord :=
  (List.replicate n [⟨.user, question, 101⟩, ⟨.assistant, answer, 101⟩]).flatten

section
variable {H : Host} {w : ServiceWorld} {ts : List ServiceTask} {sid : Uuid} {before : SessionState}
  {question answer : String}

/-- Nine exchanges of 460 characters are more than the budget holds: the question of the first is cut off, its answer
is not. -/
theorem trimHistory_exchanges (hquestion : question.length = 400) (hanswer : answer.length = 60) :
    (trimHistory historyMaxChars historyMaxMessages (exchanges question answer 9)).head? =
      some ⟨.assistant, answer⟩ := by
  have hrecords : (exchanges question answer 9).reverse =
      (List.replicate 9 [⟨.assistant, answer, 101⟩, ⟨.user, question, 101⟩]).flatten := rfl
  rw [trimHistory, hrecords]
  simp [List.replicate_succ, trimHistoryLoop, hquestion, hanswer, historyMaxChars, historyMaxMessages]

/-- One exchange after another. -/
theorem steps_exchanges (question answer : String) (hcalm : (checkCrisis H.unicode question).matched = false)
    (hclean : (filterResponse H.unicode (strip (String.join [answer]))).matched = false)
    (hanswer : strip (String.join [answer]) = answer) (hw : w.At sid ⟨before, .free⟩ 0)
    (hempty : before.history = []) (n : Nat) :
    ∃ w' ts' s, (serviceSystem H (fun _ => true) ServiceWorld.Fresh).Steps anyStep ⟨w, ts⟩ ⟨w', ts'⟩ ∧
      w'.At sid ⟨s, .free⟩ 0 ∧ s.history = exchanges question answer n := by
  induction n with
  | zero => exact ⟨w, ts, before, .refl _, hw, hempty⟩
  | succ n ih =>
    obtain ⟨w₁, ts₁, s, hsteps, hat, hhistory⟩ := ih
    obtain ⟨w₂, t, hexchange, hat₂⟩ := steps_exchange ts₁ (31 + n) hat hcalm hclean
    refine ⟨w₂, ts₁ ++ [t], _, hsteps.trans hexchange, hat₂, ?_⟩
    dsimp only
    rw [hhistory, hanswer, exchanges, exchanges, List.replicate_succ', List.flatten_append, List.flatten_singleton]

end

/-- Behind nine exchanges the model is shown an answer without its question. -/
theorem answer_without_question : ∃ (p : Pool ServiceWorld ServiceTask) (i : Nat) (messageId : Uuid) (reply : Reply),
    (serviceSystem sampleHost (fun _ => true) ServiceWorld.Fresh).Reach anyStep p ∧
    p.tasks[i]? = some (.message 21 messageId (.inside (.streaming reply))) ∧
    reply.history.head? = some ⟨.assistant, drawl 60 '응'⟩ := by
  have h : ((serviceSystem sampleHost (fun _ => true) ServiceWorld.Fresh).exec anyStep ⟨sampleService, []⟩
      (startSession 0 11 21)).any (fun p => p.world.sessions 21 = some ⟨⟨21, 3, 11, "너는 순이다.", 100, 100, []⟩, .free⟩ ∧
        21 ∈ p.world.stored ∧ p.world.activeMessages = 0) = true := by
    decide +kernel
  obtain ⟨⟨w, ts⟩, hstart, hat⟩ := System.exists_of_exec h
  obtain ⟨hsession, hstored, hactive⟩ := of_decide_eq_true hat
  have hclean : (filterResponse asciiCase (strip (String.join [drawl 60 '응']))).matched = false := by decide +kernel
  have hanswer : strip (String.join [drawl 60 '응']) = drawl 60 '응' := by decide +kernel
  have hat₀ : w.At 21 ⟨⟨21, 3, 11, "너는 순이다.", 100, 100, []⟩, .free⟩ 0 := ⟨hsession, hstored, hactive⟩
  have hcalm : (checkCrisis sampleHost.unicode (drawl 400 '가')).matched = false := drawl_calm
  obtain ⟨w', ts', s, hexchanges, hat', hhistory⟩ :=
    steps_exchanges (H := sampleHost) (drawl 400 '가') (drawl 60 '응') hcalm hclean hanswer hat₀ rfl 9
  obtain ⟨q, hstreaming, -⟩ := steps_streaming ts' 40 hat' hcalm
  refine ⟨_, ts'.length, 40, _, ⟨_, ⟨sampleService_fresh, rfl⟩, (hstart.trans hexchanges).trans hstreaming⟩,
    List.getElem?_concat_length, ?_⟩
  dsimp only
  rw [hhistory]
  exact trimHistory_exchanges length_drawl length_drawl

end YeounEngine
