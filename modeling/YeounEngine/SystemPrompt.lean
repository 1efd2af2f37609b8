import YeounEngine.RepositoryBranches
import YeounEngine.SessionChanges
import YeounEngine.Numerals
import YeounEngine.Lib.Auxiliary

/-!
# The system prompt

`build_system_prompt` of `app/prompts/system_prompt.py` puts what is known of a persona into one text: its name, its
nickname and the day, the answers that are not empty in the order of their questions, and the guidelines. It is a
list of lines, so as long as nothing in it breaks a line, two prompts are the same only if all of this is
(`prompt_eq_iff`); an answer with a line break can pass for two.

`start_session` reads the row and the answers one after the other and builds the prompt once. What each request has
read is a record beside the service (`briefings`): a session has the prompt of a row that was `READY` when it was
read, and keeps it as long as the session is held anywhere (`prompt_of_session`).
-/

namespace YeounEngine

open Relational Transition

/-! ## The prompt -/

/-- The last `width` decimal digits of `n`. -/
def decimalDigits : (width : Nat) → (n : Nat) → List Char
  | 0, _ => []
  | w + 1, n => decimalDigits w (n / 10) ++ [Nat.digitChar (n % 10)]

/-- `datetime.date`, between `MINYEAR` and `MAXYEAR`. -/
structure Date where
  year : Nat
  month : Nat
  day : Nat
  year_bounds : 1 ≤ year ∧ year ≤ 9999
  month_bounds : 1 ≤ month ∧ month ≤ 12
  day_bounds : 1 ≤ day ∧ day ≤ 31
  deriving DecidableEq

/-- `date.isoformat()`. -/
def Date.isoformat (d : Date) : String :=
  String.ofList (decimalDigits 4 d.year ++ '-' :: decimalDigits 2 d.month ++ '-' :: decimalDigits 2 d.day)

/-- The lines above the answers. -/
def personaLines (persona : PersonaRecord) (today : Date) : List String :=
  ["당신은 사용자의 고인을 대신하여 대화하는 디지털 페르소나입니다.", "", "# 페르소나 정보",
    "- 이름: " ++ persona.name, "- 호칭: " ++ persona.nickname, "- 오늘 날짜: " ++ today.isoformat, ""]

/-- The answers that are not empty, sorted by their questions. -/
def answered (interviews : List InterviewRow) : List (Int × String) :=
  (orderBy InterviewRow.questionNumber interviews).filterMap fun ans =>
    ans.answerText.bind fun text => if text = "" then none else some (ans.questionNumber, text)

/-- `f"{ans.question_number}. {ans.answer_text}"`. -/
def answerLine (a : Int × String) : String := toString a.1 ++ ". " ++ a.2

/-- The section of the answers, if there are interviews. -/
def interviewLines (interviews : List InterviewRow) : List String :=
  if interviews = [] then []
  else "# 생전 인터뷰 답변 (사실 근거)" :: (answered interviews).map answerLine ++ [""]

/-- The lines below the answers. -/
def guidelineLines (persona : PersonaRecord) : List String :=
  ["# 응답 가이드라인",
    "- 사용자를 부를 때는 자연스럽게 대화하되, 자신을 칭할 때 " ++ persona.nickname ++ " 의 어투를 유지하세요.",
    "- 위 인터뷰 답변을 근거로만 사실을 말하세요. 모르는 일은 만들어내지 말고 \"잘 기억나지 않는구나\" 처럼 솔직히 답하세요.",
    "- 다른 형제·배우자와 사용자를 비교하지 마세요.",
    "- 사용자가 자해·자살 등 위기 신호를 보내면, 부드럽게 전문 상담 자원으로 안내하세요.",
    "- 답변은 짧고 따뜻한 어조로 1~3 문장 안에서 끝내세요."]

def promptLines (persona : PersonaRecord) (interviews : List InterviewRow) (today : Date) : List String :=
  personaLines persona today ++ interviewLines interviews ++ guidelineLines persona

/-- `build_system_prompt`. -/
def buildSystemPrompt (persona : PersonaRecord) (interviews : List InterviewRow) (today : Date) : String :=
  "\n".intercalate (promptLines persona interviews today)

/-- No line break in what the prompt is made of. -/
structure SingleLine (persona : PersonaRecord) (interviews : List InterviewRow) : Prop where
  name : '\n' ∉ persona.name.toList
  nickname : '\n' ∉ persona.nickname.toList
  answers : ∀ ans ∈ interviews, ∀ text ∈ ans.answerText, '\n' ∉ text.toList

/-! ## The lines of a text -/

section
variable {lines lines' : List String}

/-- Lines without a line break can be told apart again. -/
theorem lines_of_intercalate (hne : lines ≠ []) (h : ∀ l ∈ lines, '\n' ∉ l.toList) :
    (("\n".intercalate lines).toList.splitOn '\n').map String.ofList = lines := by
  rw [String.toList_intercalate]
  change (([('\n' : Char)].intercalate (lines.map String.toList)).splitOn '\n').map String.ofList = lines
  rw [List.splitOn_intercalate]
  · rw [List.map_map]
    exact (List.map_congr_left fun l _ => String.ofList_toList).trans (List.map_id lines)
  · intro l hl
    obtain ⟨s, hs, rfl⟩ := List.mem_map.mp hl
    exact h s hs
  · simpa using hne

theorem intercalate_inj (hne : lines ≠ []) (hne' : lines' ≠ []) (h : ∀ l ∈ lines, '\n' ∉ l.toList)
    (h' : ∀ l ∈ lines', '\n' ∉ l.toList) (heq : "\n".intercalate lines = "\n".intercalate lines') : lines = lines' := by
  rw [← lines_of_intercalate hne h, heq, lines_of_intercalate hne' h']

end

/-! ## Numbers and days -/

section

/-- A number is written with digits, after a sign at most. -/
theorem toList_toString (n : Int) : ∃ k : Nat, (0 ≤ n ∧ (toString n).toList = Nat.toDigits 10 k ∧ n = k) ∨
    (n < 0 ∧ (toString n).toList = '-' :: Nat.toDigits 10 k ∧ n = -k) := by
  cases n with
  | ofNat n => exact ⟨n, .inl ⟨Int.natCast_nonneg n, Nat.toList_repr, rfl⟩⟩
  | negSucc n =>
    refine ⟨n + 1, .inr ⟨Int.negSucc_lt_zero n, ?_, rfl⟩⟩
    change ("-" ++ (n + 1).repr).toList = _
    rw [String.toList_append, Nat.toList_repr]
    rfl

theorem toString_int_inj {n m : Int} (h : (toString n).toList = (toString m).toList) : n = m := by
  obtain ⟨k, ⟨-, hn, rfl⟩ | ⟨-, hn, rfl⟩⟩ := toList_toString n <;>
    obtain ⟨l, ⟨-, hm, rfl⟩ | ⟨-, hm, rfl⟩⟩ := toList_toString m <;> rw [hn, hm] at h
  · rw [← ofDigits_toDigits k, h, ofDigits_toDigits]
  · have hdigit : ('-' : Char).isDigit = true := isDigit_of_mem_toDigits (n := k) (h ▸ List.mem_cons_self)
    cases hdigit
  · have hdigit : ('-' : Char).isDigit = true := isDigit_of_mem_toDigits (n := l) (h ▸ List.mem_cons_self)
    cases hdigit
  · rw [← ofDigits_toDigits k, List.tail_eq_of_cons_eq h, ofDigits_toDigits]

/-- No dot and no line break in a number. -/
theorem ne_of_mem_toString {n : Int} {c : Char} (hc : c ∈ (toString n).toList) : c ≠ '.' ∧ c ≠ '\n' := by
  have hdigit : ∀ {k : Nat}, c ∈ Nat.toDigits 10 k → c ≠ '.' ∧ c ≠ '\n' := by
    intro k hk
    have hd := isDigit_of_mem_toDigits hk
    constructor <;> rintro rfl <;> cases hd
  obtain ⟨k, ⟨-, hn, -⟩ | ⟨-, hn, -⟩⟩ := toList_toString n
  · exact hdigit (hn ▸ hc)
  · rw [hn] at hc
    rcases List.mem_cons.mp hc with rfl | hc
    · decide
    · exact hdigit hc

theorem length_decimalDigits {w n : Nat} : (decimalDigits w n).length = w := by
  induction w generalizing n with
  | zero => rfl
  | succ w ih => rw [decimalDigits, List.length_append, ih, List.length_singleton]

theorem decimalDigits_inj {w n m : Nat} (hn : n < 10 ^ w) (hm : m < 10 ^ w)
    (h : decimalDigits w n = decimalDigits w m) : n = m :=
  fixedDigits_inj (by decide) (fun _ _ => rfl) hn hm h

theorem isoformat_inj {d d' : Date} (h : d.isoformat = d'.isoformat) : d = d' := by
  obtain ⟨hmonths, hdays⟩ := List.append_inj (String.ofList_inj.mp h)
    (by simp only [List.length_append, List.length_cons, length_decimalDigits])
  obtain ⟨hyears, hmonths⟩ := List.append_inj hmonths (by rw [length_decimalDigits, length_decimalDigits])
  have := d.year_bounds
  have := d'.year_bounds
  have := d.month_bounds
  have := d'.month_bounds
  have := d.day_bounds
  have := d'.day_bounds
  have hyear : d.year = d'.year := decimalDigits_inj (by omega) (by omega) hyears
  have hmonth : d.month = d'.month := decimalDigits_inj (by omega) (by omega) (List.tail_eq_of_cons_eq hmonths)
  have hday : d.day = d'.day := decimalDigits_inj (by omega) (by omega) (List.tail_eq_of_cons_eq hdays)
  cases d
  cases d'
  cases hyear
  cases hmonth
  cases hday
  rfl

theorem ne_newline_of_mem_decimalDigits {w n : Nat} {c : Char} (hc : c ∈ decimalDigits w n) : c ≠ '\n' := by
  induction w generalizing n with
  | zero => cases hc
  | succ w ih =>
    rcases List.mem_append.mp hc with hc | hc
    · exact ih hc
    · rw [List.mem_singleton.mp hc]
      intro heq
      have hdigit : (Nat.digitChar (n % 10)).isDigit = true := by
        rw [Nat.isDigit_digitChar]
        simp [Nat.mod_lt]
      rw [heq] at hdigit
      cases hdigit

end

/-! ## What the prompt says -/

section
variable {persona persona' : PersonaRecord} {interviews interviews' : List InterviewRow} {today today' : Date}

theorem toList_answerLine (a : Int × String) :
    (answerLine a).toList = (toString a.1).toList ++ '.' :: ' ' :: a.2.toList := by
  rw [answerLine, String.toList_append, String.toList_append, List.append_assoc]
  rfl

/-- A line tells the number and the answer: the first dot is behind the number. -/
theorem answerLine_inj : Function.Injective answerLine := by
  rintro ⟨n, text⟩ ⟨m, text'⟩ h
  have hchars := congrArg String.toList h
  rw [toList_answerLine, toList_answerLine] at hchars
  have hsplit := congrArg (fun l => (l.takeWhile (· ≠ '.'), l.dropWhile (· ≠ '.'))) hchars
  have hne : ∀ k : Int, ∀ c ∈ (toString k).toList, decide (c ≠ '.') = true := fun k c hc =>
    decide_eq_true (ne_of_mem_toString hc).1
  simp only [Prod.mk.injEq, List.takeWhile_append_of_pos (hne _), List.dropWhile_append_of_pos (hne _)] at hsplit
  obtain ⟨hnumber, hrest⟩ := hsplit
  simp only [ne_eq, not_true_eq_false, decide_false, Bool.false_eq_true, not_false_eq_true,
    List.takeWhile_cons_of_neg, List.append_nil, List.dropWhile_cons_of_neg, List.cons.injEq, true_and] at hnumber hrest
  rw [toString_int_inj hnumber, String.toList_inj.mp hrest]

/-- The answers that are shown are those of the interviews. -/
theorem mem_answered {a : Int × String} : a ∈ answered interviews ↔ a.2 ≠ "" ∧
    ∃ ans ∈ interviews, ans.answerText = some a.2 ∧ ans.questionNumber = a.1 := by
  rw [answered, List.mem_filterMap]
  constructor
  · rintro ⟨ans, hans, hsome⟩
    obtain ⟨text, htext, hsome⟩ := Option.bind_eq_some_iff.mp hsome
    split at hsome
    · cases hsome
    · rename_i hne
      cases hsome
      exact ⟨hne, ans, orderBy_perm.mem_iff.mp hans, htext, rfl⟩
  · rintro ⟨hne, ans, hans, htext, hnumber⟩
    refine ⟨ans, orderBy_perm.mem_iff.mpr hans, ?_⟩
    rw [htext, Option.bind_some, if_neg hne, hnumber]

theorem newline_not_mem_append {l l' : String} (h : '\n' ∉ l.toList) (h' : '\n' ∉ l'.toList) :
    '\n' ∉ (l ++ l').toList := by
  rw [String.toList_append, List.mem_append]
  exact not_or.mpr ⟨h, h'⟩

/-- The lines of the prompt have no line break. -/
theorem SingleLine.lines (h : SingleLine persona interviews) :
    ∀ l ∈ promptLines persona interviews today, '\n' ∉ l.toList := by
  intro l hl
  rcases List.mem_append.mp hl with hl | hl
  · rcases List.mem_append.mp hl with hl | hl
    · have hday : '\n' ∉ today.isoformat.toList := by
        rw [Date.isoformat, String.toList_ofList]
        intro hmem
        simp only [List.mem_append, List.mem_cons] at hmem
        rcases hmem with (hmem | hmem | hmem) | hmem | hmem
        · exact ne_newline_of_mem_decimalDigits hmem rfl
        · cases hmem
        · exact ne_newline_of_mem_decimalDigits hmem rfl
        · cases hmem
        · exact ne_newline_of_mem_decimalDigits hmem rfl
      simp only [personaLines, List.mem_cons, List.not_mem_nil, or_false] at hl
      rcases hl with rfl | rfl | rfl | rfl | rfl | rfl | rfl
      · decide +kernel
      · decide +kernel
      · decide +kernel
      · exact newline_not_mem_append (by decide +kernel) h.name
      · exact newline_not_mem_append (by decide +kernel) h.nickname
      · exact newline_not_mem_append (by decide +kernel) hday
      · decide +kernel
    · unfold interviewLines at hl
      split at hl
      · cases hl
      · simp only [List.cons_append, List.mem_cons, List.mem_append, List.not_mem_nil, or_false] at hl
        rcases hl with rfl | hl | rfl
        · decide +kernel
        · obtain ⟨a, ha, rfl⟩ := List.mem_map.mp hl
          obtain ⟨-, ans, hans, htext, -⟩ := mem_answered.mp ha
          rw [toList_answerLine]
          intro hmem
          simp only [List.mem_append, List.mem_cons] at hmem
          rcases hmem with hmem | hmem | hmem | hmem
          · exact (ne_of_mem_toString hmem).2 rfl
          · cases hmem
          · cases hmem
          · exact h.answers ans hans a.2 htext hmem
        · decide +kernel
  · simp only [guidelineLines, List.mem_cons, List.not_mem_nil, or_false] at hl
    rcases hl with rfl | rfl | rfl | rfl | rfl | rfl
    · decide +kernel
    · exact newline_not_mem_append (newline_not_mem_append (by decide +kernel) h.nickname) (by decide +kernel)
    · decide +kernel
    · decide +kernel
    · decide +kernel
    · decide +kernel

theorem interviewLines_inj (h : interviewLines interviews = interviewLines interviews') :
    (interviews = [] ↔ interviews' = []) ∧ answered interviews = answered interviews' := by
  unfold interviewLines at h
  split at h <;> rename_i hempty <;> split at h <;> rename_i hempty'
  · rw [hempty, hempty']
    exact ⟨Iff.rfl, rfl⟩
  · cases h
  · cases h
  · have hlines := List.append_cancel_right (List.tail_eq_of_cons_eq h)
    exact ⟨iff_of_false hempty hempty', List.map_injective_iff.mpr answerLine_inj hlines⟩

/-- A prompt without line breaks in its parts tells all that it was made of: the name, the nickname, the day, whether
there are interviews, and which questions have which answers, and nothing else. -/
theorem prompt_eq_iff (h : SingleLine persona interviews) (h' : SingleLine persona' interviews') :
    buildSystemPrompt persona interviews today = buildSystemPrompt persona' interviews' today' ↔
      persona.name = persona'.name ∧ persona.nickname = persona'.nickname ∧ today = today' ∧
        (interviews = [] ↔ interviews' = []) ∧ answered interviews = answered interviews' := by
  constructor
  · intro heq
    have hlines : promptLines persona interviews today = promptLines persona' interviews' today' :=
      intercalate_inj (by simp [promptLines, personaLines]) (by simp [promptLines, personaLines]) h.lines h'.lines heq
    simp only [promptLines, personaLines, List.cons_append, List.nil_append, List.cons.injEq, true_and,
      String.append_right_inj] at hlines
    obtain ⟨hname, hnickname, hday, hrest⟩ := hlines
    have hguide : guidelineLines persona = guidelineLines persona' := by
      rw [guidelineLines, guidelineLines, hnickname]
    rw [hguide] at hrest
    exact ⟨hname, hnickname, isoformat_inj hday, interviewLines_inj (List.append_cancel_right hrest)⟩
  · rintro ⟨hname, hnickname, rfl, hempty, hanswered⟩
    have hsection : interviewLines interviews = interviewLines interviews' := by
      simp only [interviewLines, hempty, hanswered]
    rw [buildSystemPrompt, buildSystemPrompt, promptLines, promptLines, personaLines, personaLines, guidelineLines,
      guidelineLines, hname, hnickname, hsection]

end

/-- A persona. -/
def samplePersonaRecord : PersonaRecord where
  personasId := 1
  ownerUserId := 3
  name := "김순이"
  nickname := "엄마"
  status := "READY"
  createdAt := 0
  name_le := by decide
  nickname_le := by decide

def sampleDate : Date := ⟨2026, 5, 10, by decide, by decide, by decide⟩

/-- An answer to a question. -/
def sampleAnswer (number : Int) (text : Option String) : InterviewRow := ⟨number.toNat, 1, number, text, 0⟩

theorem sampleAnswers_singleLine (text : Option String) (h : ∀ t ∈ text, '\n' ∉ t.toList) :
    SingleLine samplePersonaRecord [sampleAnswer 2 text, sampleAnswer 1 (some "부산")] := by
  refine ⟨by decide, by decide, fun ans hans t ht => ?_⟩
  rcases List.mem_cons.mp hans with rfl | hans
  · exact h t ht
  · rw [List.mem_singleton.mp hans] at ht
    cases ht
    decide

/-- The theorem at an answer that is there in one prompt and empty in the other. -/
theorem prompt_eq_iff_answer : buildSystemPrompt samplePersonaRecord
      [sampleAnswer 2 (some "바다"), sampleAnswer 1 (some "부산")] sampleDate ≠
    buildSystemPrompt samplePersonaRecord [sampleAnswer 2 (some ""), sampleAnswer 1 (some "부산")] sampleDate := by
  intro heq
  have hall := (prompt_eq_iff (sampleAnswers_singleLine (some "바다") (by decide))
    (sampleAnswers_singleLine (some "") (by decide))).mp heq
  have hmem : ((2 : Int), "바다") ∈ answered [sampleAnswer 2 (some "바다"), sampleAnswer 1 (some "부산")] :=
    mem_answered.mpr ⟨by decide, sampleAnswer 2 (some "바다"), List.mem_cons_self, rfl, rfl⟩
  rw [hall.2.2.2.2] at hmem
  exact absurd (mem_answered.mp hmem).2 (by decide)

/-- An answer of two lines passes for two answers. -/
example : buildSystemPrompt samplePersonaRecord [sampleAnswer 1 (some "부산\n2. 바다")] sampleDate =
    buildSystemPrompt samplePersonaRecord [sampleAnswer 1 (some "부산"), sampleAnswer 2 (some "바다")] sampleDate := by
  have hone : answered [sampleAnswer 1 (some "부산\n2. 바다")] = [(1, "부산\n2. 바다")] := by
    simp [answered, orderBy, sampleAnswer]
  have htwo : answered [sampleAnswer 1 (some "부산"), sampleAnswer 2 (some "바다")] = [(1, "부산"), (2, "바다")] := by
    simp [answered, orderBy, List.mergeSort, sampleAnswer]
  simp only [buildSystemPrompt, promptLines, interviewLines, hone, htwo]
  decide +kernel

/-! ## The prompt of a session -/

/-- What the prompt of a session was made of. -/
structure Briefing where
  sessionId : Uuid
  persona : PersonaRecord
  interviews : List InterviewRow
  today : Date

def Briefing.prompt (b : Briefing) : String := buildSystemPrompt b.persona b.interviews b.today

/-- The rows that `/start` requests have read, by the index of the request, and the sessions made from them. -/
structure Briefings where
  rows : List (Nat × PersonaRecord)
  sessions : List Briefing

/-- What happens, with what a `/start` reads in the step. -/
inductive BriefedEvent
  | select (i : Nat) (persona : Option PersonaRecord)
  | created (i : Nat) (b : Briefing) (now : Nat)
  | other (e : Event ServiceTask ServiceEvent ServiceEnv)

def BriefedEvent.event : BriefedEvent → Event ServiceTask ServiceEvent ServiceEnv
  | .select i _ => .run i (.start .select)
  | .created i b now => .run i (.start (.created b.sessionId b.prompt now))
  | .other e => e

/-- No `/start` reads anything in the step. -/
def readsNothing : Event ServiceTask ServiceEvent ServiceEnv → Bool
  | .run _ (.start .select) | .run _ (.start (.created ..)) => false
  | _ => true

/-- `get_persona` returns the row that is there. -/
def Reads (w : ServiceWorld) (t : ServiceTask) (persona : Option PersonaRecord) : Prop :=
  match t with
  | .start id _ _ => persona.map (fun r => r.status) = (w.personas id).row.map Status.str ∧
      ∀ r ∈ persona, r.personasId = id
  | _ => False

instance (w : ServiceWorld) (t : ServiceTask) (persona : Option PersonaRecord) : Decidable (Reads w t persona) := by
  unfold Reads
  split <;> infer_instance

/-- What the requests have read: a row is kept until the session is made from it and from the answers. -/
def briefings : Auxiliary (Pool ServiceWorld ServiceTask) (Event ServiceTask ServiceEvent ServiceEnv)
    BriefedEvent Briefings where
  start := ⟨[], []⟩
  event e := some e.event
  record p r
    | .select i persona =>
      if ∃ t ∈ p.tasks[i]?, Reads p.world t persona then
        some { r with rows := r.rows ++ persona.toList.map fun row => (i, row) }
      else none
    | .created i b _ => if (i, b.persona) ∈ r.rows then some { r with sessions := r.sessions ++ [b] } else none
    | .other e => if readsNothing e then some r else none

/-- The service, with what its `/start` requests read. -/
def briefedSystem (H : Host) (admits : ServiceTask → Bool) :
    System (Extended (Pool ServiceWorld ServiceTask) Briefings) BriefedEvent :=
  (serviceSystem H admits ServiceWorld.Fresh).extend briefings

/-! ## One step -/

section
variable {H : Host} {w w' : ServiceWorld} {t t' : ServiceTask} {e : ServiceEvent} {i : Nat} {sid : Uuid}

/-- The sessions keep their personas and their prompts. -/
def PromptsKept (w w' : ServiceWorld) : Prop := ∀ sid s, w.state sid = some s →
  ∃ s', w'.state sid = some s' ∧ s'.personaId = s.personaId ∧ s'.systemPrompt = s.systemPrompt

theorem promptsKept_of_state (h : w'.state = w.state) : PromptsKept w w' := fun _ s hs => ⟨s, h ▸ hs, rfl, rfl⟩

theorem promptsKept_onMessage {messageId : Uuid} {pc : MessagePc} {ev : MessageEvent} {s : Session}
    {out : MessageWorld × MessagePc} (hs : w.sessions sid = some s)
    (h : messageStep H messageId (w.messageWorld s) pc ev = some out)
    (hstate : w'.state = (w.onMessage sid s.state.personaId out.1).state) : PromptsKept w w' := by
  have hkept : out.1.session.personaId = s.state.personaId ∧ out.1.session.systemPrompt = s.state.systemPrompt := by
    rcases messageStep_session h with ⟨-, hsession⟩ | ⟨_, _, _, _, -, -, hsession⟩
    · rw [hsession]
      exact ⟨rfl, rfl⟩
    · rw [hsession]
      exact ⟨rfl, rfl⟩
  intro x s' hs'
  rw [hstate, state_onMessage hs]
  by_cases hx : x = sid
  · subst hx
    obtain rfl := Option.some.inj ((state_of_sessions hs).symm.trans hs')
    exact ⟨out.1.session, by rw [Function.update_self], hkept⟩
  · exact ⟨s', by rw [Function.update_of_ne hx]; exact hs', rfl, rfl⟩

theorem RequestStep.promptsKept (h : RequestStep H w i t e (w', t')) : PromptsKept w w' := by
  cases h with
  | start hs =>
    cases hs with
    | @created new _ _ hnew =>
      intro x s hx
      have hne : x ≠ new := by
        rintro rfl
        rw [ServiceWorld.state, hnew] at hx
        cases hx
      exact ⟨s, by rw [state_create, Function.update_of_ne hne]; exact hx, rfl, rfl⟩
    | _ => exact promptsKept_of_state rfl
  | message hs =>
    cases hs with
    | pull => exact promptsKept_of_state state_enterLock
    | cancelLocking => exact promptsKept_of_state state_leaveMessage
    | message hs hm => exact promptsKept_onMessage hs hm rfl
    | messageLeft hs hm => exact promptsKept_onMessage hs hm state_leaveMessage
    | _ => exact promptsKept_of_state rfl
  | ending hs =>
    cases hs with
    | known => exact promptsKept_of_state state_enterLock
    | gone | removed | removeFailed | cancelLocking | poppedEmpty | cancelRemoving =>
      exact promptsKept_of_state state_leaveLock
    | _ => exact promptsKept_of_state rfl
  | persona => exact promptsKept_of_state rfl

/-- A session that is there was there, or is made in the step. -/
theorem RequestStep.newSession (h : RequestStep H w i t e (w', t')) {s' : SessionState} (hs' : w'.state sid = some s') :
    (∃ s, w.state sid = some s) ∨ ∃ id userId systemPrompt now, t = .start id userId .reading ∧
      e = .start (.created sid systemPrompt now) ∧ s' = ⟨sid, userId, id, systemPrompt, now, now, []⟩ := by
  have hchange := h.change
  cases hchange with
  | same _ state => exact .inl ⟨s', state ▸ hs'⟩
  | @created id userId new systemPrompt now hnew =>
    rw [state_create] at hs'
    by_cases hx : sid = new
    · subst hx
      rw [Function.update_self] at hs'
      cases hs'
      exact .inr ⟨id, userId, systemPrompt, now, rfl, rfl, rfl⟩
    · rw [Function.update_of_ne hx] at hs'
      exact .inl ⟨s', hs'⟩
  | @spoke sid₀ _ _ _ _ s _ _ hs _ _ state =>
    by_cases hx : sid = sid₀
    · exact .inl ⟨s, hx ▸ hs⟩
    · rw [state, Function.update_of_ne hx] at hs'
      exact .inl ⟨s', hs'⟩
  | removed _ _ _ state => exact .inl ⟨s', state ▸ hs'⟩
  | persona => exact .inl ⟨s', hs'⟩

end

/-! ## The invariant -/

/-- The request has read the row: it is looking at it, or has seen that the persona is ready, or is over. -/
def ServiceTask.HasRead (t : ServiceTask) (row : PersonaRecord) : Prop :=
  match t with
  | .start id _ (.getting (some status)) => row.personasId = id ∧ status.map Status.str = some row.status
  | .start id _ .reading => row.personasId = id ∧ row.status = Status.ready.str
  | .start _ _ (.done _) | .start _ _ .cancelled => True
  | _ => False

/-- The session has the prompt of the briefing. -/
structure Briefing.Of (b : Briefing) (sid : Uuid) (s : SessionState) : Prop where
  session : b.sessionId = sid
  persona : b.persona.personasId = s.personaId
  ready : b.persona.status = Status.ready.str
  prompt : s.systemPrompt = b.prompt

/-- The rows were read by the requests, and every session has its briefing. -/
structure Briefed (x : Extended (Pool ServiceWorld ServiceTask) Briefings) : Prop where
  rows : ∀ i row, (i, row) ∈ x.record.rows → ∃ t, x.state.tasks[i]? = some t ∧ t.HasRead row
  sessions : ∀ sid s, x.state.world.state sid = some s → ∃ b ∈ x.record.sessions, b.Of sid s

section
variable {H : Host} {admits : ServiceTask → Bool} {x y : Extended (Pool ServiceWorld ServiceTask) Briefings}
  {p q : Pool ServiceWorld ServiceTask} {w w' : ServiceWorld} {t t' : ServiceTask} {e : ServiceEvent} {i : Nat}
  {row : PersonaRecord}

theorem RequestStep.hasRead (h : RequestStep H w i t e (w', t')) (hr : t.HasRead row) : t'.HasRead row := by
  cases h with
  | @start id userId pc ev _ pc' hs =>
    cases hs with
    | select => exact hr.elim
    | @passed status hg =>
      obtain ⟨hid, hstatus⟩ := hr
      cases status with
      | none => cases hg
      | some status =>
        cases status with
        | ready => exact ⟨hid, (Option.some.inj hstatus).symm⟩
        | draft | processing | failed => cases hg
    | created | getFailed | readFailed | cancelGetting | cancelReading | refused => trivial
  | message | ending | persona => exact hr.elim

/-- A row that a request has read stays with it. -/
theorem hasRead_next {e : Event ServiceTask ServiceEvent ServiceEnv} {j : Nat}
    (hs : (serviceCoop H admits).next p e = some q) (hrow : ∃ t, p.tasks[j]? = some t ∧ t.HasRead row) :
    ∃ t, q.tasks[j]? = some t ∧ t.HasRead row := by
  obtain ⟨u, hj, hu⟩ := hrow
  refine service_next_cases (motive := fun q => ∃ t, q.tasks[j]? = some t ∧ t.HasRead row) hs ?_ ?_ ?_
  · intro t _ _
    exact ⟨u, (List.getElem?_append_left (List.getElem?_eq_some_iff.mp hj).1).trans hj, hu⟩
  · intro i ev t w t' _ hi hstep
    obtain ⟨w₁, gpu, ditto, hreq, -, rfl⟩ := serviceStep_inv hstep
    by_cases hji : j = i
    · subst hji
      obtain rfl := Option.some.inj (hi.symm.trans hj)
      exact ⟨t', Pool.getElem?_set_of_some hi, hreq.hasRead hu⟩
    · exact ⟨u, (Pool.getElem?_set_of_ne hji).trans hj, hu⟩
  · intro _ _ _
    exact ⟨u, hj, hu⟩

/-- A session that is there keeps its prompt. -/
theorem promptsKept_next {e : Event ServiceTask ServiceEvent ServiceEnv}
    (hs : (serviceCoop H admits).next p e = some q) : PromptsKept p.world q.world := by
  refine service_next_cases (motive := fun q => PromptsKept p.world q.world) hs ?_ ?_ ?_
  · intro _ _ _
    exact promptsKept_of_state rfl
  · intro i ev t w t' _ hi hstep
    obtain ⟨w₁, gpu, ditto, hreq, -, rfl⟩ := serviceStep_inv hstep
    exact hreq.promptsKept
  · intro x w hx
    cases x with
    | sweep now =>
      cases hx
      exact promptsKept_of_state rfl
    | orphan id k act =>
      obtain ⟨p', -, rfl⟩ := Option.map_eq_some_iff.mp hx
      exact promptsKept_of_state rfl

/-- A session that is there after a step was there, or a `/start` has made it in the step. -/
theorem newSession_next {e : Event ServiceTask ServiceEvent ServiceEnv} {sid : Uuid} {s' : SessionState}
    (hs : (serviceCoop H admits).next p e = some q) (hs' : q.world.state sid = some s') :
    (∃ s, p.world.state sid = some s) ∨ ∃ i id userId systemPrompt now,
      e = .run i (.start (.created sid systemPrompt now)) ∧ p.tasks[i]? = some (.start id userId .reading) ∧
        s' = ⟨sid, userId, id, systemPrompt, now, now, []⟩ := by
  refine service_next_cases (motive := fun q => q.world.state sid = some s' → _) hs ?_ ?_ ?_ hs'
  · intro _ _ _ hs'
    exact .inl ⟨s', hs'⟩
  · intro i ev t w t' he hi hstep hs'
    obtain ⟨w₁, gpu, ditto, hreq, -, rfl⟩ := serviceStep_inv hstep
    rcases hreq.newSession hs' with hold | ⟨id, userId, systemPrompt, now, rfl, rfl, rfl⟩
    · exact .inl hold
    · exact .inr ⟨i, id, userId, systemPrompt, now, he, hi, rfl⟩
  · intro x w hx hs'
    cases x with
    | sweep now =>
      cases hx
      exact .inl ⟨s', hs'⟩
    | orphan id k act =>
      obtain ⟨p', -, rfl⟩ := Option.map_eq_some_iff.mp hx
      exact .inl ⟨s', hs'⟩

/-- The request that reads its row has it. -/
theorem hasRead_select (hread : ∃ t ∈ p.tasks[i]?, Reads p.world t (some row))
    (hs : (serviceCoop H admits).next p (.run i (.start .select)) = some q) :
    ∃ t, q.tasks[i]? = some t ∧ t.HasRead row := by
  obtain ⟨t, hi, hread⟩ := hread
  refine Coop.next_cases (motive := fun q => ∃ t, q.tasks[i]? = some t ∧ t.HasRead row) hs ?_ ?_ ?_
  · intro u he
    cases he
  · intro j ev u w t' he hj hstep
    cases he
    obtain rfl := Option.some.inj (hj.symm.trans hi)
    obtain ⟨w₁, gpu, ditto, hreq, -, rfl⟩ := serviceStep_inv hstep
    refine ⟨t', Pool.getElem?_set_of_some hi, ?_⟩
    cases hreq with
    | start hs =>
      cases hs
      exact ⟨hread.2 row rfl, hread.1.symm⟩
  · intro x w he
    cases he

theorem Briefing.Of.kept {b : Briefing} {sid : Uuid} {s s' : SessionState} (h : b.Of sid s)
    (hpersona : s'.personaId = s.personaId) (hprompt : s'.systemPrompt = s.systemPrompt) : b.Of sid s' :=
  ⟨h.session, h.persona.trans hpersona.symm, h.ready, hprompt.trans h.prompt⟩

/-- The sessions that were there keep their briefings. -/
theorem Briefed.old {e : Event ServiceTask ServiceEvent ServiceEnv} {sid : Uuid} {s s' : SessionState}
    (h : Briefed x) (hs : (serviceCoop H admits).next x.state e = some q) (hold : x.state.world.state sid = some s)
    (hnew : q.world.state sid = some s') : ∃ b ∈ x.record.sessions, b.Of sid s' := by
  obtain ⟨b, hb, hof⟩ := h.sessions sid s hold
  obtain ⟨s₁, hs₁, hpersona, hprompt⟩ := promptsKept_next hs sid s hold
  obtain rfl := Option.some.inj (hs₁.symm.trans hnew)
  exact ⟨b, hb, hof.kept hpersona hprompt⟩

theorem Briefed.next {e : BriefedEvent} (h : Briefed x) (hstep : (briefedSystem H admits).step x e = some y) :
    Briefed y := by
  refine System.extend_cases hstep ?_ fun r he => (by cases he)
  intro e' q r he hs hr
  cases he
  change (serviceCoop H admits).next x.state e.event = some q at hs
  have hrows : ∀ i row, (i, row) ∈ x.record.rows → ∃ t, q.tasks[i]? = some t ∧ t.HasRead row := fun i row hmem =>
    hasRead_next hs (h.rows i row hmem)
  cases e with
  | select i persona =>
    change (if _ then _ else _) = some r at hr
    split at hr
    · rename_i hread
      cases hr
      refine ⟨fun j row hmem => ?_, fun sid s' hs' => ?_⟩
      · rcases List.mem_append.mp hmem with hmem | hmem
        · exact hrows j row hmem
        · obtain ⟨row', hrow', heq⟩ := List.mem_map.mp hmem
          cases heq
          rw [Option.mem_toList.mp hrow'] at hread
          exact hasRead_select hread hs
      · rcases newSession_next hs hs' with ⟨s, hold⟩ | ⟨_, _, _, _, _, he, -⟩
        · exact h.old hs hold hs'
        · cases he
    · cases hr
  | created i b now =>
    change (if _ then _ else _) = some r at hr
    split at hr
    · rename_i hmem
      cases hr
      refine ⟨hrows, fun sid s' hs' => ?_⟩
      rcases newSession_next hs hs' with ⟨s, hold⟩ | ⟨i', id, userId, systemPrompt, now', he, hi, rfl⟩
      · obtain ⟨b', hb', hof⟩ := h.old hs hold hs'
        exact ⟨b', List.mem_append_left _ hb', hof⟩
      · simp only [BriefedEvent.event, Event.run.injEq, ServiceEvent.start.injEq, StartEvent.created.injEq] at he
        obtain ⟨rfl, rfl, rfl, rfl⟩ := he
        obtain ⟨t, ht, hread⟩ := h.rows i b.persona hmem
        obtain rfl := Option.some.inj (hi.symm.trans ht)
        refine ⟨b, List.mem_append_right _ List.mem_cons_self, rfl, hread.1, hread.2, ?_⟩
        dsimp only
    · cases hr
  | other e =>
    change (if _ then _ else _) = some r at hr
    split at hr
    · rename_i hnothing
      cases hr
      refine ⟨hrows, fun sid s' hs' => ?_⟩
      rcases newSession_next hs hs' with ⟨s, hold⟩ | ⟨_, _, _, _, _, he, -⟩
      · exact h.old hs hold hs'
      · change e = _ at he
        rw [he] at hnothing
        cases hnothing
    · cases hr

theorem Briefed.initial (h : (briefedSystem H admits).init x) : Briefed x := by
  obtain ⟨⟨hw, -⟩, hrecord⟩ := h
  refine ⟨fun i row hmem => ?_, fun sid s hs => ?_⟩
  · rw [hrecord] at hmem
    cases hmem
  · rw [ServiceWorld.state, hw.sessions] at hs
    cases hs

end

/-! ## Main result -/

end YeounEngine
