import YeounEngine.Text
import Mathlib.Data.List.Find

/-!
# The keyword guards

`app/safety`: the two keyword lists, the normalisation that both guards match on, and the guards
`check_crisis` (on what the user said) and `filter_response` (on what the model answered). Both
look for the first keyword of a list whose normal form occurs in the normal form of the text
(`firstKeyword`).

The keywords are ASCII and Hangul, so their normal form does not depend on the case table, and a
text of such characters is matched or not in every interpreter alike (`filterResponse_plain`).
-/

namespace YeounEngine

/-- `CRISIS_KEYWORDS`. -/
def crisisKeywords : List String :=
  ["죽고 싶", "죽어버리", "죽을래", "자살", "자해", "끝내고 싶", "사라지고 싶", "살 가치", "살 이유",
    "목숨을 끊", "생을 마감", "극단적 선택", "목매", "투신", "안락사"]

/-- `FORBIDDEN_TOPIC_KEYWORDS`: comparisons with a sibling, then with a spouse. -/
def forbiddenTopicKeywords : List String :=
  ["형보다", "누나보다", "동생보다", "언니보다", "오빠보다", "남편보다", "아내보다", "와이프보다"]

section
variable (U : CaseTable)

/-- `normalize`: blanks and tabs removed, the rest in lower case. -/
def normalize (text : String) : List Char :=
  lower U ((text.toList.filter (· ≠ ' ')).filter (· ≠ '\t'))

/-- The loop of both guards: the first keyword whose normal form is not empty and occurs in the
normal form of the text. The empty text has none. -/
def firstKeyword (keywords : List String) (text : String) : Option String :=
  if text.toList = [] then none
  else keywords.find? fun keyword =>
    normalize U keyword ≠ [] ∧ normalize U keyword <:+: normalize U text

/-! ## The input guard -/

/-- `CrisisResult.action`. -/
inductive CrisisAction
  | block
  | pass
  deriving DecidableEq, Repr

/-- `CrisisResult`. -/
structure CrisisResult where
  matched : Bool
  matchedKeyword : Option String
  action : CrisisAction
  deriving DecidableEq, Repr

/-- `check_crisis`. -/
def checkCrisis (text : String) : CrisisResult :=
  match firstKeyword U crisisKeywords text with
  | some keyword => ⟨true, some keyword, .block⟩
  | none => ⟨false, none, .pass⟩

/-! ## The output guard -/

/-- `FilteredResponse`. -/
structure FilteredResponse where
  text : String
  matched : Bool
  matchedKeyword : Option String
  category : Option String
  deriving DecidableEq, Repr

/-- `filter_response`. -/
def filterResponse (text : String) : FilteredResponse :=
  match firstKeyword U forbiddenTopicKeywords text with
  | some keyword => ⟨text, true, some keyword, some "forbidden_topic"⟩
  | none => ⟨text, false, none, none⟩

/-- What `process_message` answers in place of a matched response. -/
def forbiddenFallback : String := "(이 주제는 답변드리기 어려워요. 다른 이야기를 나눌까요?)"

end

section
variable {U : CaseTable} {text : String}

/-- The output guard hands the text back as it got it. -/
@[simp] theorem filterResponse_text : (filterResponse U text).text = text := by
  rw [filterResponse]; split <;> rfl

/-! ## Plain text -/

/-- The normal form of plain text is the same for every case table. -/
theorem normalize_plain (h : ∀ c ∈ text.toList, isPlain c = true) :
    normalize U text =
      ((text.toList.filter (· ≠ ' ')).filter (· ≠ '\t')).map Char.toLower := by
  refine lower_plain U fun c hc => h c ?_
  exact (List.mem_filter.mp (List.mem_filter.mp hc).1).1

/-- On plain text and plain keywords, every case table finds the same keyword. -/
theorem firstKeyword_plain {V : CaseTable} {keywords : List String}
    (hk : ∀ k ∈ keywords, ∀ c ∈ k.toList, isPlain c = true)
    (h : ∀ c ∈ text.toList, isPlain c = true) :
    firstKeyword U keywords text = firstKeyword V keywords text := by
  rw [firstKeyword, firstKeyword]
  refine if_congr Iff.rfl rfl (List.find?_congr fun k hmem => ?_)
  rw [normalize_plain (U := U) h, normalize_plain (U := V) h, normalize_plain (U := U) (hk k hmem),
    normalize_plain (U := V) (hk k hmem)]

/-- Whether the output guard matches a plain text can be decided with the smallest case table. -/
theorem filterResponse_plain (h : ∀ c ∈ text.toList, isPlain c = true) :
    filterResponse U text = filterResponse asciiCase text := by
  have hk : (forbiddenTopicKeywords.all fun k => k.toList.all isPlain) = true := by decide
  have hplain : ∀ k ∈ forbiddenTopicKeywords, ∀ c ∈ k.toList, isPlain c = true :=
    fun k hmem => List.all_eq_true.mp (List.all_eq_true.mp hk k hmem)
  rw [filterResponse, filterResponse, firstKeyword_plain hplain h]

/-- The fallback is not itself a forbidden topic. -/
theorem forbiddenFallback_not_matched : (filterResponse U forbiddenFallback).matched = false := by
  have h : forbiddenFallback.toList.all isPlain = true := by decide
  rw [filterResponse_plain (List.all_eq_true.mp h)]
  decide +kernel

end

end YeounEngine
