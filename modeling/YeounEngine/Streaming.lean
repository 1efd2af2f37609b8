import YeounEngine.OutputGuard

/-!
# The response as it is streamed

`stream_response` of `app/models/llm_gemma.py`. A thread runs `model.generate`, which puts texts into a
`TextIteratorStreamer`, a FIFO queue; the generator takes them from it one by one and yields them, until it takes
the stop signal that `streamer.end()` has put there. The thread ends the streamer in a `finally`, so that a
generation that raises does not leave the consumer waiting; its exception is logged and stays in the thread.

The thread and the consumer take their steps in any order (`streamSystem`), and a message that awaits the response
hears what the generator yields and how it ends (`answerSystem`). An exception before the thread runs is reported, and
so is every failure if and only if `model.generate` raises nothing in the thread
(`reports_iff_generateRaises_eq_none`).
-/

namespace YeounEngine

open Transition

/-! ## The generator -/

/-- `_DUMMY_RESPONSE_TOKENS`. -/
def dummyResponseTokens : List String :=
  ["[", "더미", " 응답", "]", " GPU_ENABLED=false", " 모드", " — ", "이", " 메시지는", " 실제", " 모델", " 출력이",
    " 아닙니다", "."]

/-- What a response depends on: the mode and the model, an exception before the thread runs, and `model.generate`: the
texts that it puts into the streamer, whether it ends the streamer itself, and the exception that it raises then. -/
structure Generation where
  gpuEnabled : Bool
  loaded : Bool
  fault : Option Exc
  tokens : List String
  ends : Bool
  outcome : Option Exc

/-- An item of the queue of the streamer. -/
inductive StreamItem
  | text (data : String)
  | stop
  deriving DecidableEq

/-- Where the thread is: in `model.generate`, with the texts still to come, or in the `finally`. -/
inductive GeneratePc
  | idle
  | running (rest : List String)
  | unwinding (e : Option Exc)
  | done (e : Option Exc)
  deriving DecidableEq

/-- How the generator ends. -/
inductive StreamEnd
  | returned
  | raised (e : Exc)
  | cancelled
  deriving DecidableEq

/-- Where the generator goes on after a `yield`: with the rest of the dummy tokens, or with the streamer. -/
inductive AfterToken
  | dummy (rest : List String)
  | streamer
  deriving DecidableEq

/-- Where the generator is. `waiting` awaits `_next_or_stop`, `joining` the thread. -/
inductive StreamPc
  | created
  | sleeping (token : String) (rest : List String)
  | waiting
  | yielded (token : String) (next : AfterToken)
  | joining (e : StreamEnd)
  | ended (e : StreamEnd)
  deriving DecidableEq

/-- The generator, the thread and the queue between them; `sent` is what has been yielded. -/
structure StreamState where
  pc : StreamPc
  thread : GeneratePc
  queue : List StreamItem
  sent : List String

/-- What happens to a response. The thread goes on with `generate`; `joined` is the end of the `join`, by its timeout or
not. -/
inductive StreamEvent
  | pull
  | slept
  | next
  | joined
  | generate
  | cancel
  | close
  deriving DecidableEq

def StreamState.init : StreamState := ⟨.created, .idle, [], []⟩

def llmNotLoaded : Exc := ⟨"RuntimeError", "GemmaLLM 이 로드되지 않았습니다."⟩

/-- The loop over the dummy tokens. -/
def dummyLoop : List String → StreamPc
  | [] => .ended .returned
  | token :: rest => .sleeping token rest

/-- The first pull, up to the start of the thread. -/
def startStream (g : Generation) (s : StreamState) : StreamState :=
  if g.gpuEnabled then
    if g.loaded then
      match g.fault with
      | some e => { s with pc := .ended (.raised e) }
      | none => { s with pc := .waiting, thread := .running g.tokens }
    else { s with pc := .ended (.raised llmNotLoaded) }
  else { s with pc := dummyLoop dummyResponseTokens }

/-- One step of `stream_response` or of its thread. -/
def streamStep (g : Generation) : StreamState → StreamEvent → Option StreamState
  | ⟨.created, thread, queue, sent⟩, .pull => some (startStream g ⟨.created, thread, queue, sent⟩)
  | ⟨.yielded _ (.dummy rest), thread, queue, sent⟩, .pull => some ⟨dummyLoop rest, thread, queue, sent⟩
  | ⟨.yielded _ .streamer, thread, queue, sent⟩, .pull => some ⟨.waiting, thread, queue, sent⟩
  | ⟨.sleeping token rest, thread, queue, sent⟩, .slept =>
    some ⟨.yielded token (.dummy rest), thread, queue, sent ++ [token]⟩
  | ⟨.waiting, thread, .text token :: queue, sent⟩, .next =>
    some ⟨.yielded token .streamer, thread, queue, sent ++ [token]⟩
  | ⟨.waiting, thread, .stop :: queue, sent⟩, .next => some ⟨.joining .returned, thread, queue, sent⟩
  | ⟨.joining e, thread, queue, sent⟩, .joined => some ⟨.ended e, thread, queue, sent⟩
  | ⟨pc, .running (token :: rest), queue, sent⟩, .generate =>
    some ⟨pc, .running rest, queue ++ [.text token], sent⟩
  -- `generate` returns or raises; both lead into the `finally`
  | ⟨pc, .running [], queue, sent⟩, .generate =>
    some ⟨pc, .unwinding g.outcome, queue ++ if g.ends then [.stop] else [], sent⟩
  | ⟨pc, .unwinding e, queue, sent⟩, .generate => some ⟨pc, .done e, queue ++ [.stop], sent⟩
  | ⟨.sleeping _ _, thread, queue, sent⟩, .cancel | ⟨.joining _, thread, queue, sent⟩, .cancel
  | ⟨.created, thread, queue, sent⟩, .close | ⟨.yielded _ (.dummy _), thread, queue, sent⟩, .close =>
    some ⟨.ended .cancelled, thread, queue, sent⟩
  | ⟨.waiting, thread, queue, sent⟩, .cancel | ⟨.yielded _ .streamer, thread, queue, sent⟩, .close =>
    some ⟨.joining .cancelled, thread, queue, sent⟩
  | _, _ => none

/-- A response, with its thread. -/
def streamSystem (g : Generation) : System StreamState StreamEvent where
  init s := s = .init
  step := streamStep g

/-- The consumer stops. -/
def StreamEvent.disturbs : StreamEvent → Bool
  | .cancel | .close => true
  | _ => false

/-- The consumer goes on. -/
def Undisturbed (_ : StreamState) (e : StreamEvent) : Prop := e.disturbs = false

instance (s : StreamState) (e : StreamEvent) : Decidable (Undisturbed s e) := inferInstanceAs (Decidable (_ = _))

/-! ## The property of a response -/

namespace Generation

/-- `model.generate` is called. -/
def generates (g : Generation) : Bool := g.gpuEnabled && g.loaded && g.fault.isNone

/-- The exception that `model.generate` raises, if any. -/
def generateRaises (g : Generation) : Option Exc := if g.generates then g.outcome else none

/-- The tokens of the response. -/
def produced (g : Generation) : List String :=
  if g.gpuEnabled then if g.generates then g.tokens else [] else dummyResponseTokens

/-- The exception of the response: of the check, of the code before the thread, or of `model.generate`. -/
def failure (g : Generation) : Option Exc :=
  if g.gpuEnabled then if g.loaded then g.fault.or g.outcome else some llmNotLoaded else none

end Generation

/-- The generator is over. -/
def StreamPc.over : StreamPc → Bool
  | .ended _ => true
  | _ => false

/-- The response ends, and when it was not cancelled it has yielded what was produced and reports how the generation has
ended. -/
structure StreamReports (g : Generation) : Prop where
  sent : ∀ s, (streamSystem g).Reach anyStep s → s.sent <+: g.produced
  ends : ∀ s, (streamSystem g).Reach anyStep s → (streamSystem g).Terminates anyStep s
  noDeadlock : ∀ s, (streamSystem g).Reach anyStep s → (streamSystem g).Stuck Undisturbed s → s.pc.over = true
  complete : ∀ s, (streamSystem g).Reach anyStep s → s.pc.over = true → s.pc ≠ .ended .cancelled →
    s.sent = g.produced
  returned : ∀ s, (streamSystem g).Reach anyStep s → s.pc = .ended .returned → g.failure = none
  raised : ∀ s e, (streamSystem g).Reach anyStep s → s.pc = .ended (.raised e) → g.failure = some e

/-! ## One step of a response -/

/-- What a response can do, one constructor for each arm of `streamStep` and of `startStream`. -/
inductive StreamStep (g : Generation) : StreamState → StreamEvent → StreamState → Prop
  | dummy {thread queue sent} (hg : g.gpuEnabled = false) : StreamStep g ⟨.created, thread, queue, sent⟩ .pull
      ⟨dummyLoop dummyResponseTokens, thread, queue, sent⟩
  | notLoaded {thread queue sent} (hg : g.gpuEnabled = true) (hl : g.loaded = false) :
      StreamStep g ⟨.created, thread, queue, sent⟩ .pull ⟨.ended (.raised llmNotLoaded), thread, queue, sent⟩
  | fault {thread queue sent e} (hg : g.gpuEnabled = true) (hl : g.loaded = true) (hf : g.fault = some e) :
      StreamStep g ⟨.created, thread, queue, sent⟩ .pull ⟨.ended (.raised e), thread, queue, sent⟩
  | start {thread queue sent} (hg : g.generates = true) : StreamStep g ⟨.created, thread, queue, sent⟩ .pull
      ⟨.waiting, .running g.tokens, queue, sent⟩
  | dummyNext {token rest thread queue sent} : StreamStep g ⟨.yielded token (.dummy rest), thread, queue, sent⟩ .pull
      ⟨dummyLoop rest, thread, queue, sent⟩
  | next {token thread queue sent} : StreamStep g ⟨.yielded token .streamer, thread, queue, sent⟩ .pull
      ⟨.waiting, thread, queue, sent⟩
  | slept {token rest thread queue sent} : StreamStep g ⟨.sleeping token rest, thread, queue, sent⟩ .slept
      ⟨.yielded token (.dummy rest), thread, queue, sent ++ [token]⟩
  | token {token thread queue sent} : StreamStep g ⟨.waiting, thread, .text token :: queue, sent⟩ .next
      ⟨.yielded token .streamer, thread, queue, sent ++ [token]⟩
  | stop {thread queue sent} : StreamStep g ⟨.waiting, thread, .stop :: queue, sent⟩ .next
      ⟨.joining .returned, thread, queue, sent⟩
  | joined {e thread queue sent} : StreamStep g ⟨.joining e, thread, queue, sent⟩ .joined
      ⟨.ended e, thread, queue, sent⟩
  | put {pc token rest queue sent} : StreamStep g ⟨pc, .running (token :: rest), queue, sent⟩ .generate
      ⟨pc, .running rest, queue ++ [.text token], sent⟩
  | leave {pc queue sent} : StreamStep g ⟨pc, .running [], queue, sent⟩ .generate
      ⟨pc, .unwinding g.outcome, queue ++ if g.ends then [.stop] else [], sent⟩
  | finish {pc e queue sent} : StreamStep g ⟨pc, .unwinding e, queue, sent⟩ .generate
      ⟨pc, .done e, queue ++ [.stop], sent⟩
  | cancelSleeping {token rest thread queue sent} : StreamStep g ⟨.sleeping token rest, thread, queue, sent⟩ .cancel
      ⟨.ended .cancelled, thread, queue, sent⟩
  | cancelJoining {e thread queue sent} : StreamStep g ⟨.joining e, thread, queue, sent⟩ .cancel
      ⟨.ended .cancelled, thread, queue, sent⟩
  | closeCreated {thread queue sent} : StreamStep g ⟨.created, thread, queue, sent⟩ .close
      ⟨.ended .cancelled, thread, queue, sent⟩
  | closeDummy {token rest thread queue sent} : StreamStep g ⟨.yielded token (.dummy rest), thread, queue, sent⟩ .close
      ⟨.ended .cancelled, thread, queue, sent⟩
  | cancelWaiting {thread queue sent} : StreamStep g ⟨.waiting, thread, queue, sent⟩ .cancel
      ⟨.joining .cancelled, thread, queue, sent⟩
  | closeYielded {token thread queue sent} : StreamStep g ⟨.yielded token .streamer, thread, queue, sent⟩ .close
      ⟨.joining .cancelled, thread, queue, sent⟩

section
variable {g : Generation} {s s' : StreamState} {e : StreamEvent}

/-- Inversion of a response. -/
theorem streamStep_inv (h : streamStep g s e = some s') : StreamStep g s e s' := by
  unfold streamStep at h
  split at h
  case h_1 =>
    cases h
    unfold startStream
    split
    · rename_i hg
      split
      · rename_i hl
        split
        · rename_i hf
          exact .fault hg hl hf
        · rename_i hf
          exact .start (by rw [Generation.generates, hg, hl, hf]; rfl)
      · rename_i hl
        exact .notLoaded hg (Bool.eq_false_iff.mpr hl)
    · rename_i hg
      exact .dummy (Bool.eq_false_iff.mpr hg)
  all_goals
    cases h
    try constructor

end

/-! ## The end of a response -/

/-- What is still to come, at most: each step takes something away. -/
def StreamState.measure (g : Generation) (s : StreamState) : Nat :=
  let pc := match s.pc with
    | .created => 3 * g.tokens.length + 2 * dummyResponseTokens.length + 9
    | .sleeping _ rest => 2 * rest.length + 3
    | .yielded _ (.dummy rest) => 2 * rest.length + 2
    | .yielded _ .streamer => 3
    | .waiting => 2
    | .joining _ => 1
    | .ended _ => 0
  let thread := match s.thread with
    | .running rest => 3 * rest.length + 6
    | .unwinding _ => 3
    | .idle | .done _ => 0
  pc + thread + 2 * s.queue.length

section
variable {g : Generation} {s s' : StreamState} {e : StreamEvent}

theorem measure_dummyLoop {rest : List String} {thread : GeneratePc} {queue : List StreamItem} {sent : List String} :
    (⟨dummyLoop rest, thread, queue, sent⟩ : StreamState).measure g <
      (⟨.yielded "" (.dummy rest), thread, queue, sent⟩ : StreamState).measure g := by
  cases rest <;> simp only [dummyLoop, StreamState.measure, List.length_cons, List.length_nil] <;> omega

theorem StreamStep.measure (h : StreamStep g s e s') : s'.measure g < s.measure g := by
  cases h with
  | dummy =>
    refine measure_dummyLoop.trans ?_
    simp only [StreamState.measure]
    omega
  | dummyNext => exact measure_dummyLoop
  | leave =>
    have hstops : (if g.ends then [StreamItem.stop] else []).length ≤ 1 := by cases g.ends <;> decide
    simp only [StreamState.measure, List.length_append, List.length_nil]
    omega
  | _ =>
    simp only [StreamState.measure, List.length_append, List.length_cons, List.length_nil]
    omega

/-! ## What a response has yielded -/

/-- The stop signals that the thread has put into the queue. -/
def GeneratePc.stops (ends : Bool) : GeneratePc → List StreamItem
  | .idle | .running _ => []
  | .unwinding _ => if ends then [.stop] else []
  | .done _ => (if ends then [.stop] else []) ++ [.stop]

/-- The texts that it has still to put there. -/
def GeneratePc.rest : GeneratePc → List String
  | .running rest => rest
  | _ => []

/-- No stop signal has been read: what was yielded, what is in the queue and what is to come are the tokens in order. -/
structure InStream (g : Generation) (s : StreamState) : Prop where
  generates : g.generates = true
  started : s.thread ≠ .idle
  inOrder : ∃ pending, s.sent ++ pending ++ s.thread.rest = g.tokens ∧
    s.queue = pending.map .text ++ s.thread.stops g.ends

/-- What is known of a response, at each point of the generator. -/
def StreamInv (g : Generation) (s : StreamState) : Prop :=
  match s.pc with
  | .created => s.thread = .idle ∧ s.queue = [] ∧ s.sent = []
  | .sleeping token rest => g.gpuEnabled = false ∧ s.sent ++ token :: rest = dummyResponseTokens
  | .yielded _ (.dummy rest) => g.gpuEnabled = false ∧ s.sent ++ rest = dummyResponseTokens
  | .waiting | .yielded _ .streamer => InStream g s
  | .joining .returned | .ended .returned =>
    s.sent = g.produced ∧ (g.gpuEnabled = false ∨ g.generates = true)
  | .joining .cancelled | .ended .cancelled => s.sent <+: g.produced
  | .joining (.raised _) => False
  | .ended (.raised e) => s.sent = [] ∧ g.gpuEnabled = true ∧ g.generates = false ∧ g.failure = some e

theorem produced_of_generates (h : g.generates = true) : g.produced = g.tokens := by
  have hgpu : g.gpuEnabled = true := by
    rw [Generation.generates, Bool.and_eq_true, Bool.and_eq_true] at h
    exact h.1.1
  rw [Generation.produced, if_pos hgpu, if_pos h]

theorem produced_of_dummy (h : g.gpuEnabled = false) : g.produced = dummyResponseTokens := by
  rw [Generation.produced, h]
  rfl

theorem InStream.isPrefix (h : InStream g s) : s.sent <+: g.produced := by
  obtain ⟨pending, htokens, -⟩ := h.inOrder
  rw [produced_of_generates h.generates, ← htokens, List.append_assoc]
  exact List.prefix_append _ _

theorem streamInv_dummyLoop {rest : List String} {thread : GeneratePc} {queue : List StreamItem} {sent : List String}
    (hg : g.gpuEnabled = false) (h : sent ++ rest = dummyResponseTokens) :
    StreamInv g ⟨dummyLoop rest, thread, queue, sent⟩ := by
  cases rest with
  | nil =>
    rw [List.append_nil] at h
    exact ⟨h.trans (produced_of_dummy hg).symm, .inl hg⟩
  | cons token rest => exact ⟨hg, h⟩

section
variable {pc : StreamPc} {thread : GeneratePc} {queue : List StreamItem} {sent rest : List String} {token : String}

theorem inStream_start (hg : g.generates = true) : InStream g ⟨.waiting, .running g.tokens, [], []⟩ :=
  ⟨hg, by simp, [], rfl, rfl⟩

theorem InStream.put (h : InStream g ⟨pc, .running (token :: rest), queue, sent⟩) :
    InStream g ⟨pc, .running rest, queue ++ [.text token], sent⟩ := by
  obtain ⟨hg, -, pending, htokens, hqueue⟩ := h
  refine ⟨hg, by simp, pending ++ [token], ?_, ?_⟩
  · rw [← htokens]
    simp [GeneratePc.rest]
  · have hqueue : queue = pending.map .text ++ [] := hqueue
    rw [hqueue]
    simp [GeneratePc.stops]

theorem InStream.leave (h : InStream g ⟨pc, .running [], queue, sent⟩) :
    InStream g ⟨pc, .unwinding g.outcome, queue ++ if g.ends then [.stop] else [], sent⟩ := by
  obtain ⟨hg, -, pending, htokens, hqueue⟩ := h
  have hqueue : queue = pending.map .text ++ [] := hqueue
  refine ⟨hg, by simp, pending, htokens, ?_⟩
  rw [hqueue, List.append_nil]
  rfl

theorem InStream.finish {e : Option Exc} (h : InStream g ⟨pc, .unwinding e, queue, sent⟩) :
    InStream g ⟨pc, .done e, queue ++ [.stop], sent⟩ := by
  obtain ⟨hg, -, pending, htokens, hqueue⟩ := h
  have hqueue : queue = pending.map .text ++ if g.ends then [.stop] else [] := hqueue
  refine ⟨hg, by simp, pending, htokens, ?_⟩
  rw [hqueue, List.append_assoc]
  rfl

/-- The first item of the queue is the next token. -/
theorem InStream.taken (h : InStream g ⟨.waiting, thread, .text token :: queue, sent⟩) :
    InStream g ⟨.yielded token .streamer, thread, queue, sent ++ [token]⟩ := by
  obtain ⟨hg, hthread, pending, htokens, hqueue⟩ := h
  have hqueue : .text token :: queue = pending.map .text ++ thread.stops g.ends := hqueue
  cases pending with
  | nil =>
    have hstop : .text token ∈ thread.stops g.ends := by
      rw [List.map_nil, List.nil_append] at hqueue
      rw [← hqueue]
      exact List.mem_cons_self
    cases thread <;> cases hends : g.ends <;> simp [GeneratePc.stops, hends] at hstop
  | cons first pending =>
    cases hqueue
    refine ⟨hg, hthread, pending, ?_, rfl⟩
    rw [← htokens]
    simp

/-- The stop signal comes after all tokens. -/
theorem InStream.stop (h : InStream g ⟨.waiting, thread, .stop :: queue, sent⟩) : sent = g.tokens := by
  obtain ⟨-, -, pending, htokens, hqueue⟩ := h
  have hqueue : .stop :: queue = pending.map .text ++ thread.stops g.ends := hqueue
  cases pending with
  | cons first pending => cases hqueue
  | nil =>
    have htokens : sent ++ [] ++ thread.rest = g.tokens := htokens
    cases thread with
    | running rest => cases hqueue
    | _ => simpa [GeneratePc.rest] using htokens

/-- A step of the thread. -/
theorem StreamInv.generate {thread' : GeneratePc} {queue' : List StreamItem}
    (h : StreamInv g ⟨pc, thread, queue, sent⟩) (hthread : thread ≠ .idle)
    (hin : InStream g ⟨pc, thread, queue, sent⟩ → InStream g ⟨pc, thread', queue', sent⟩) :
    StreamInv g ⟨pc, thread', queue', sent⟩ := by
  cases pc with
  | created => exact absurd h.1 hthread
  | waiting => exact hin h
  | yielded token next =>
    cases next with
    | dummy rest => exact h
    | streamer => exact hin h
  | joining e | ended e => cases e <;> exact h
  | sleeping => exact h

end

theorem StreamInv.isPrefix (h : StreamInv g s) : s.sent <+: g.produced := by
  obtain ⟨pc, thread, queue, sent⟩ := s
  cases pc with
  | created => exact h.2.2 ▸ List.nil_prefix
  | sleeping token rest =>
    rw [produced_of_dummy h.1, ← h.2]
    exact List.prefix_append _ _
  | waiting => exact InStream.isPrefix h
  | yielded token next =>
    cases next with
    | dummy rest =>
      rw [produced_of_dummy h.1, ← h.2]
      exact List.prefix_append _ _
    | streamer => exact InStream.isPrefix h
  | joining e | ended e =>
    cases e with
    | returned => exact h.1 ▸ List.prefix_refl _
    | cancelled => exact h
    | raised e => first | exact h.elim | exact h.1 ▸ List.nil_prefix

/-- Every step keeps the invariant. -/
theorem StreamInv.step (h : StreamInv g s) (hs : StreamStep g s e s') : StreamInv g s' := by
  cases hs with
  | dummy hg =>
    obtain ⟨-, -, rfl⟩ := h
    exact streamInv_dummyLoop hg rfl
  | notLoaded hg hl =>
    obtain ⟨-, -, rfl⟩ := h
    refine ⟨rfl, hg, ?_, ?_⟩
    · rw [Generation.generates, hl, Bool.and_false, Bool.false_and]
    · rw [Generation.failure, hg, hl]
      rfl
  | fault hg hl hf =>
    obtain ⟨-, -, rfl⟩ := h
    refine ⟨rfl, hg, ?_, ?_⟩
    · rw [Generation.generates, hf]
      exact Bool.and_false _
    · rw [Generation.failure, hg, hl, hf]
      rfl
  | start hg =>
    obtain ⟨-, rfl, rfl⟩ := h
    exact inStream_start hg
  | dummyNext => exact streamInv_dummyLoop h.1 h.2
  | next => exact ⟨h.generates, h.started, h.inOrder⟩
  | slept => exact ⟨h.1, by rw [← h.2, List.append_assoc]; rfl⟩
  | token => exact InStream.taken h
  | stop =>
    exact ⟨(InStream.stop h).trans (produced_of_generates h.generates).symm, .inr h.generates⟩
  | @joined e =>
    cases e with
    | raised e => exact h.elim
    | _ => exact h
  | put => exact StreamInv.generate h (by simp) .put
  | leave => exact StreamInv.generate h (by simp) .leave
  | finish => exact StreamInv.generate h (by simp) .finish
  | cancelSleeping | cancelJoining | closeCreated | closeDummy | cancelWaiting | closeYielded =>
    have hsent := StreamInv.isPrefix h
    exact hsent

theorem StreamInv.of_reach (h : (streamSystem g).Reach anyStep s) : StreamInv g s := by
  refine h.inv (fun s hs => ?_) fun s e s' hI _ hs => hI.step (streamStep_inv hs)
  cases hs
  exact ⟨rfl, rfl, rfl⟩

/-- A generator that awaits the streamer gets an item: the thread has one to put, or has put the stop signal. -/
theorem InStream.not_stuck (h : InStream g s) (hpc : s.pc = .waiting) : ¬ (streamSystem g).Stuck Undisturbed s := by
  obtain ⟨pc, thread, queue, sent⟩ := s
  cases hpc
  intro hstuck
  have hnext := hstuck .next rfl
  have hgenerate := hstuck .generate rfl
  cases queue with
  | cons item queue => cases item <;> cases hnext
  | nil =>
    cases thread with
    | idle => exact h.started rfl
    | running rest => cases rest <;> cases hgenerate
    | unwinding e => cases hgenerate
    | done e =>
      obtain ⟨pending, -, hqueue⟩ := h.inOrder
      have hlength := congrArg List.length hqueue
      simp [GeneratePc.stops] at hlength

/-- A response that goes no further is over. -/
theorem StreamInv.over_of_stuck (h : StreamInv g s) (hstuck : (streamSystem g).Stuck Undisturbed s) :
    s.pc.over = true := by
  obtain ⟨pc, thread, queue, sent⟩ := s
  cases pc with
  | created => cases hstuck .pull rfl
  | sleeping => cases hstuck .slept rfl
  | waiting => exact absurd hstuck (InStream.not_stuck h rfl)
  | yielded token next => cases next <;> cases hstuck .pull rfl
  | joining => cases hstuck .joined rfl
  | ended => rfl

theorem terminates_stream : (streamSystem g).Terminates anyStep s :=
  System.terminates_of_measure (StreamState.measure g) (fun _ _ _ _ hs => (streamStep_inv hs).measure) s

/-- Without an exception in the thread, a response that returns has not failed. -/
theorem StreamInv.failure_of_returned (h : StreamInv g s) (hpc : s.pc = .ended .returned)
    (hr : g.generateRaises = none) : g.failure = none := by
  rw [StreamInv, hpc] at h
  rcases h.2 with hgpu | hgen
  · rw [Generation.failure, hgpu]
    rfl
  · rw [Generation.generateRaises, if_pos hgen] at hr
    rw [Generation.generates, Bool.and_eq_true, Bool.and_eq_true, Option.isNone_iff_eq_none] at hgen
    rw [Generation.failure, hgen.1.1, hgen.1.2, hgen.2, hr]
    rfl

/-- A generation whose thread raises nothing is reported. -/
theorem streamReports_of_generateRaises (h : g.generateRaises = none) : StreamReports g where
  sent _ hs := (StreamInv.of_reach hs).isPrefix
  ends _ _ := terminates_stream
  noDeadlock _ hs hstuck := (StreamInv.of_reach hs).over_of_stuck hstuck
  complete s hs hover hne := by
    have hinv := StreamInv.of_reach hs
    obtain ⟨pc, thread, queue, sent⟩ := s
    cases pc with
    | ended e =>
      cases e with
      | returned => exact hinv.1
      | cancelled => exact absurd rfl hne
      | raised e =>
        obtain ⟨hsent, hgpu, hgen, -⟩ := hinv
        rw [Generation.produced, hgpu, hgen]
        exact hsent
    | _ => cases hover
  returned _ hs hpc := (StreamInv.of_reach hs).failure_of_returned hpc h
  raised s e hs hpc := by
    have hinv := StreamInv.of_reach hs
    rw [StreamInv, hpc] at hinv
    exact hinv.2.2.2

/-- The generator was cancelled or closed. -/
def StreamPc.cancelled : StreamPc → Bool
  | .joining .cancelled | .ended .cancelled => true
  | _ => false

/-- Only the consumer cancels a response. -/
theorem StreamStep.cancelled (h : StreamStep g s e s') : s'.pc.cancelled = (e.disturbs || s.pc.cancelled) := by
  cases h with
  | @dummyNext _ rest => cases rest <;> rfl
  | @joined e => cases e <;> rfl
  | _ => rfl

/-- A response that nobody disturbs is not cancelled. -/
theorem not_cancelled_of_undisturbed (h : (streamSystem g).Reach Undisturbed s) : s.pc.cancelled = false := by
  refine h.inv (I := fun s => s.pc.cancelled = false) (fun s hs => ?_) fun s e s' hI hok hs => ?_
  · cases hs
    rfl
  · rw [(streamStep_inv hs).cancelled, hI]
    exact (Bool.or_false _).trans hok

/-- There is a run to the end of the response in which the consumer goes on. -/
theorem exists_over : ∃ s, (streamSystem g).Reach Undisturbed s ∧ s.pc.over = true := by
  have hends : (streamSystem g).Terminates Undisturbed .init :=
    terminates_stream.mono fun _ _ _ => trivial
  obtain ⟨s, hsteps, hstuck⟩ := hends.exists_stuck
  have hreach : (streamSystem g).Reach Undisturbed s := ⟨.init, rfl, hsteps⟩
  have hany : (streamSystem g).Reach anyStep s := hreach.mono fun _ _ _ => trivial
  exact ⟨s, hreach, (StreamInv.of_reach hany).over_of_stuck hstuck⟩

/-- A generation whose thread raises is not: the response ends as if it were complete. -/
theorem returned_of_generateRaises {e : Exc} (h : g.generateRaises = some e) :
    ∃ s, (streamSystem g).Reach anyStep s ∧ s.pc = .ended .returned ∧ s.sent = g.tokens := by
  obtain ⟨s, hs, hover⟩ := exists_over (g := g)
  have hgen : g.generates = true := by
    by_contra hno
    rw [Generation.generateRaises, if_neg hno] at h
    cases h
  have hany : (streamSystem g).Reach anyStep s := hs.mono fun _ _ _ => trivial
  have hinv := StreamInv.of_reach hany
  have hnot := not_cancelled_of_undisturbed hs
  obtain ⟨pc, thread, queue, sent⟩ := s
  cases pc with
  | ended end' =>
    cases end' with
    | returned => exact ⟨_, hany, rfl, hinv.1.trans (produced_of_generates hgen)⟩
    | cancelled => cases hnot
    | raised e' =>
      obtain ⟨-, -, hno, -⟩ := hinv
      rw [hgen] at hno
      cases hno
  | _ => cases hover

end

/-! ## A message that awaits the response -/

/-- A message and the response that it awaits, with the events that it has sent. -/
structure Answer where
  stream : StreamState
  world : MessageWorld
  pc : MessagePc
  sent : List SseEvent

inductive AnswerEvent
  | stream (e : StreamEvent)
  | message (e : MessageEvent)

/-- What the message hears of the response. -/
def StreamPc.heard : StreamPc → Option MessageEvent
  | .yielded token _ => some (.token token)
  | .ended (.raised e) => some (.fail e fun _ => .removed)
  | .ended _ => some .streamEnd
  | _ => none

/-- The response goes on while the message awaits it, and is finalised when the message has left it. -/
def MessagePc.awaits : MessagePc → StreamEvent → Bool
  | .streaming _, .pull | .streaming _, .slept | .streaming _, .next | .streaming _, .joined
  | .unwinding, .joined | .abandoned, .close | .abandoned, .joined => true
  | _, _ => false

/-- What a step of the message does to the response. What the message hears of it is no step of its own. -/
def MessagePc.steers : MessagePc → MessageEvent → Option (Option StreamEvent)
  | .yielded _ (.token _), .pull _ => some (some .pull)
  | .streaming _, .cancel _ _ | .unwinding, .cancel _ _ => some (some .cancel)
  | .streaming _, _ | .unwinding, _ | .abandoned, _ => none
  | _, _ => some none

section
variable (H : Host) (messageId : Uuid) (g : Generation)

namespace Answer

/-- A step of the message. -/
def message (a : Answer) (e : MessageEvent) : Option Answer :=
  (messageStep H messageId a.world a.pc e).map fun out =>
    { a with world := out.1, pc := out.2, sent := a.sent ++ out.2.sends.toList }

/-- The message hears what the response has come to, if it awaits it. -/
def hear (a : Answer) : Option Answer :=
  match a.pc, a.stream.pc.heard with
  | .streaming _, some e | .unwinding, some e | .abandoned, some e => a.message H messageId e
  | _, _ => some a

/-- One step of the two. -/
def step (a : Answer) : AnswerEvent → Option Answer
  | .stream .generate => (streamStep g a.stream .generate).map fun s => { a with stream := s }
  | .stream e =>
    if a.pc.awaits e then
      (streamStep g a.stream e).bind fun s => hear H messageId { a with stream := s }
    else none
  | .message e =>
    match a.pc.steers e with
    | some (some se) => (a.message H messageId e).bind fun a =>
      (streamStep g a.stream se).bind fun s => hear H messageId { a with stream := s }
    | some none => a.message H messageId e
    | none => none

end Answer

/-- A message from its beginning, and its response. -/
def answerSystem (w : MessageWorld) : System Answer AnswerEvent where
  init a := a = ⟨.init, w, .created, []⟩
  step := Answer.step H messageId g

/-- An event that ends a response that is shown as complete. -/
def SseEvent.isTextDone : SseEvent → Bool
  | .textDone _ _ => true
  | _ => false

/-- A message whose generation has failed and is over sends an `error` as its last event and no `text_done`, and
leaves the history as it is. -/
def MessageReports (w : MessageWorld) : Prop :=
  ∀ a, (answerSystem H messageId g w).Reach anyStep a → g.failure ≠ none → a.stream.pc.over = true →
    a.stream.pc ≠ .ended .cancelled →
    (∃ reason, a.sent.getLast? = some (.error reason)) ∧ a.sent.any SseEvent.isTextDone = false ∧
      a.world.session.history = w.session.history

end

/-! ## What the message makes of it -/

/-- The message has sent no `text_done`, and comes to it only when the response ends. -/
def MessagePc.quiet : MessagePc → Bool
  | .loggingForbidden _ _ | .waitingGpu _ | .synthesizing _ | .waitingDitto _ | .rendering _ | .raised _
  | .yielded _ (.textDone _ _) => false
  | .yielded ev _ => !ev.isTextDone
  | _ => true

/-- The message has sent its last event. -/
def MessagePc.spent : MessagePc → Bool
  | .yielded _ .last | .returned | .cancelled => true
  | _ => false

/-- Where the response is, for each state of the message. -/
def Coupled (s : StreamPc) : MessagePc → Prop
  | .created | .transcribing => s = .created
  | .streaming _ => s.heard = none ∧ s.cancelled = false
  | .yielded _ (.token _) => ∃ token next, s = .yielded token next
  | .unwinding => s.cancelled = true
  | .abandoned => s.cancelled = true ∨ ∃ token next, s = .yielded token next
  | _ => s = .created ∨ s.over = true

section
variable {H : Host} {messageId : Uuid} {g : Generation} {w m : MessageWorld} {pc : MessagePc} {ev : MessageEvent}
  {out : MessageWorld × MessagePc} {s : StreamPc} {a b : Answer}

theorem sends_of_quiet (h : pc.quiet = true) : pc.sends.toList.any SseEvent.isTextDone = false := by
  cases pc with
  | yielded ev next =>
    cases next with
    | textDone => cases h
    | _ => cases ev <;> first | rfl | cases h
  | _ => rfl

/-- Only the end of the response leads to `text_done`; up to there the session is as it was. -/
theorem messageStep_quiet (h : messageStep H messageId m pc ev = some out) (hq : pc.quiet = true)
    (hev : ∀ reply, pc = .streaming reply → ev ≠ .streamEnd) :
    out.2.quiet = true ∧ out.1.session = m.session := by
  rcases messageStep_cases h with h | h
  · cases h with
    | streamEnd => exact absurd rfl (hev _ rfl)
    | transcribed =>
      refine ⟨?_, rfl⟩
      dsimp only
      exact inputGuard_cases (motive := fun pc => pc.quiet = true) (fun _ => rfl) fun _ => rfl
    | logForbidden | forbiddenLogged | forbiddenLogFailed | speech | acquireGpu | speechFolder | speechOutput
    | synthesized | synthesizeFailed | acquireDitto | folderFailed | renderFolder | renderOutput | rendered
    | renderFailed => cases hq
    | _ => exact ⟨rfl, rfl⟩
  · refine ⟨?_, h.session⟩
    cases h <;> rfl

/-- A message that has sent its last event sends no other. -/
theorem messageStep_spent (h : messageStep H messageId m pc ev = some out) (hs : pc.spent = true) :
    out.2.spent = true ∧ out.2.sends = none := by
  rcases messageStep_cases h with h | h
  · cases h <;> first | (cases hs; done) | exact ⟨rfl, rfl⟩
  · cases h <;> first | (cases hs; done) | exact ⟨rfl, rfl⟩

/-- A step of the message alone. -/
theorem Coupled.message (h : messageStep H messageId m pc ev = some out) (hc : Coupled s pc)
    (hev : pc.steers ev = some none) : Coupled s out.2 := by
  rcases messageStep_cases h with h | h
  · cases h with
    | transcribed =>
      have hc : s = .created := hc
      subst hc
      dsimp only
      exact inputGuard_cases (motive := Coupled .created) (fun _ => .inl rfl) fun _ => ⟨rfl, rfl⟩
    | speech => exact prepareSpeech_cases (motive := Coupled s) (fun _ => hc) (fun _ => hc) fun _ _ => hc
    | synthesized => exact pickSpeakPhoto_cases (motive := Coupled s) (fun _ => hc) (fun _ => hc) fun _ _ _ => hc
    | synthesizeFailed | folderFailed | renderFailed =>
      exact mediaFailed_cases (motive := Coupled s) (fun _ => hc) fun _ => hc
    | rendered => exact finishSpeech_cases (motive := Coupled s) (fun _ => hc) (fun _ => hc) hc
    | _ =>
      first
      | (cases hev; done)
      | exact hc
      | exact .inl hc
  · cases h with
    | streaming | unwinding => cases hev
    | created | transcribing => exact .inl hc
    | token => exact .inr hc
    | _ => exact hc

/-! ## The invariant of the two -/

/-- Where the response is, how the message depends on it, and what the message has sent: nothing but tokens until the
response returns, and an `error` when it raises. -/
structure AnswerInv (g : Generation) (w : MessageWorld) (a : Answer) : Prop where
  stream : StreamInv g a.stream
  coupled : Coupled a.stream.pc a.pc
  quiet : a.stream.pc ≠ .ended .returned →
    a.pc.quiet = true ∧ a.sent.any SseEvent.isTextDone = false ∧ a.world.session = w.session
  error : ∀ e, a.stream.pc = .ended (.raised e) →
    a.pc.spent = true ∧ ∃ reason, a.sent.getLast? = some (.error reason)

/-- A step of the message on its own. -/
theorem AnswerInv.message (h : AnswerInv g w a) (hev : a.pc.steers ev = some none)
    (hs : a.message H messageId ev = some b) : AnswerInv g w b := by
  obtain ⟨out, hm, rfl⟩ := Option.map_eq_some_iff.mp hs
  refine ⟨h.stream, h.coupled.message hm hev, fun hne => ?_, fun e he => ?_⟩
  · obtain ⟨hquiet, hsent, hsession⟩ := h.quiet hne
    have hend : ∀ reply, a.pc = .streaming reply → ev ≠ .streamEnd := by
      rintro reply hpc rfl
      rw [hpc] at hev
      cases hev
    obtain ⟨hquiet', hsession'⟩ := messageStep_quiet hm hquiet hend
    refine ⟨hquiet', ?_, hsession'.trans hsession⟩
    rw [List.any_append, hsent, sends_of_quiet hquiet']
    rfl
  · obtain ⟨hspent, hlast⟩ := h.error e he
    obtain ⟨hspent', hsends⟩ := messageStep_spent hm hspent
    refine ⟨hspent', ?_⟩
    rw [hsends, Option.toList_none, List.append_nil]
    exact hlast

/-- What a message hears that awaits the response, when the response has gone on. -/
theorem AnswerInv.hear {reply : Reply} (hstream : StreamInv g a.stream) (hpc : a.pc = .streaming reply)
    (hcancelled : a.stream.pc.cancelled = false)
    (hsent : a.sent.any SseEvent.isTextDone = false) (hsession : a.world.session = w.session)
    (hs : a.hear H messageId = some b) : AnswerInv g w b := by
  obtain ⟨⟨spc, thread, queue, sent⟩, world, pc, sse⟩ := a
  dsimp only at hpc hcancelled hsent hsession
  subst hpc
  cases spc with
  | created | sleeping | waiting =>
    cases hs
    exact ⟨hstream, ⟨rfl, rfl⟩, fun _ => ⟨rfl, hsent, hsession⟩, fun e he => by cases he⟩
  | yielded token next =>
    cases hs
    refine ⟨hstream, ⟨token, next, rfl⟩, fun _ => ⟨rfl, ?_, hsession⟩, fun e he => by cases he⟩
    rw [List.any_append, hsent]
    rfl
  | joining end' =>
    cases end' with
    | returned =>
      cases hs
      exact ⟨hstream, ⟨rfl, rfl⟩, fun _ => ⟨rfl, hsent, hsession⟩, fun e he => by cases he⟩
    | raised e => exact hstream.elim
    | cancelled => cases hcancelled
  | ended end' =>
    cases end' with
    | returned =>
      cases hs
      refine ⟨hstream, ?_, fun hne => absurd rfl hne, fun e he => by cases he⟩
      have hplace := @outputGuard_place H messageId reply
      dsimp only
      generalize outputGuard H messageId reply = pc' at hplace ⊢
      rcases hplace with ⟨userText, rfl⟩ | ⟨userText, text, rfl⟩
      · exact .inr rfl
      · exact .inr rfl
    | raised e =>
      cases hs
      refine ⟨hstream, .inr rfl, fun _ => ⟨rfl, ?_, hsession⟩, fun e' _ => ⟨rfl, _, List.getLast?_concat⟩⟩
      rw [List.any_append, hsent]
      rfl
    | cancelled => cases hcancelled

/-- What it hears after it was cancelled or closed. -/
theorem AnswerInv.hear_cancelled (hstream : StreamInv g a.stream) (hpc : a.pc = .unwinding ∨ a.pc = .abandoned)
    (hcancelled : a.stream.pc.cancelled = true)
    (hsent : a.sent.any SseEvent.isTextDone = false) (hsession : a.world.session = w.session)
    (hs : a.hear H messageId = some b) : AnswerInv g w b := by
  obtain ⟨⟨spc, thread, queue, sent⟩, world, pc, sse⟩ := a
  dsimp only at hpc hcancelled hsent hsession
  cases spc with
  | joining end' =>
    cases end' with
    | cancelled =>
      rcases hpc with rfl | rfl
      · cases hs
        exact ⟨hstream, rfl, fun _ => ⟨rfl, hsent, hsession⟩, fun e he => by cases he⟩
      · cases hs
        exact ⟨hstream, .inl rfl, fun _ => ⟨rfl, hsent, hsession⟩, fun e he => by cases he⟩
    | _ => cases hcancelled
  | ended end' =>
    cases end' with
    | cancelled =>
      have hnone : (sse ++ (MessagePc.cancelled).sends.toList).any SseEvent.isTextDone = false := by
        rw [List.any_append, hsent]
        rfl
      rcases hpc with rfl | rfl
      · cases hs
        exact ⟨hstream, .inr rfl, fun _ => ⟨rfl, hnone, hsession⟩, fun e he => by cases he⟩
      · cases hs
        exact ⟨hstream, .inr rfl, fun _ => ⟨rfl, hnone, hsession⟩, fun e he => by cases he⟩
    | _ => cases hcancelled
  | _ => cases hcancelled

theorem pc_generate {s s' : StreamState} (h : StreamStep g s .generate s') : s'.pc = s.pc := by
  cases h <;> rfl

/-- The response goes on, and the message that awaits it hears of it. -/
theorem AnswerInv.awaited (h : AnswerInv g w a) {se : StreamEvent} {s' : StreamState} (hawaits : a.pc.awaits se = true)
    (hs : StreamStep g a.stream se s') (hb : Answer.hear H messageId { a with stream := s' } = some b) :
    AnswerInv g w b := by
  have hstream : StreamInv g s' := h.stream.step hs
  have hcancelled := hs.cancelled
  have hcoupled := h.coupled
  have hquiet := h.quiet
  obtain ⟨stream, world, pc, sse⟩ := a
  dsimp only at hawaits hs hcancelled hcoupled hquiet
  cases pc with
  | streaming reply =>
    obtain ⟨hheard, hnot⟩ := hcoupled
    have hdisturbs : se.disturbs = false := by cases se <;> first | rfl | cases hawaits
    have hne : stream.pc ≠ .ended .returned := fun heq => by rw [heq] at hheard; cases hheard
    rw [hdisturbs, hnot] at hcancelled
    obtain ⟨-, hsent, hsession⟩ := hquiet hne
    exact .hear hstream rfl hcancelled hsent hsession hb
  | unwinding =>
    have hbefore : stream.pc.cancelled = true := hcoupled
    have hne : stream.pc ≠ .ended .returned := fun heq => by rw [heq] at hbefore; cases hbefore
    rw [hbefore, Bool.or_true] at hcancelled
    obtain ⟨-, hsent, hsession⟩ := hquiet hne
    exact .hear_cancelled hstream (.inl rfl) hcancelled hsent hsession hb
  | abandoned =>
    have hne : stream.pc ≠ .ended .returned := by
      intro heq
      rcases hcoupled with hbefore | ⟨token, next, hbefore⟩
      · rw [heq] at hbefore; cases hbefore
      · rw [heq] at hbefore; cases hbefore
    have hafter : s'.pc.cancelled = true := by
      rw [hcancelled]
      rcases hcoupled with hbefore | ⟨token, next, hbefore⟩
      · rw [hbefore, Bool.or_true]
      · cases hs <;> first | rfl | (cases hawaits; done) | cases hbefore
    obtain ⟨-, hsent, hsession⟩ := hquiet hne
    exact .hear_cancelled hstream (.inr rfl) hafter hsent hsession hb
  | _ => cases hawaits

/-- The message goes on, and takes the response along. -/
theorem AnswerInv.steered (h : AnswerInv g w a) {se : StreamEvent} {s' : StreamState}
    (hsteers : a.pc.steers ev = some (some se)) {a' : Answer} (ha : a.message H messageId ev = some a')
    (hs : StreamStep g a'.stream se s') (hb : Answer.hear H messageId { a' with stream := s' } = some b) :
    AnswerInv g w b := by
  obtain ⟨out, hm, rfl⟩ := Option.map_eq_some_iff.mp ha
  have hstream : StreamInv g s' := h.stream.step hs
  have hcancelled := hs.cancelled
  have hcoupled := h.coupled
  have hquiet := h.quiet
  obtain ⟨stream, world, pc, sse⟩ := a
  dsimp only at hsteers hs hcancelled hcoupled hquiet hm
  unfold MessagePc.steers at hsteers
  split at hsteers
  · -- the next token is pulled
    cases hsteers
    cases hm
    obtain ⟨token, next, hpc⟩ := hcoupled
    obtain ⟨-, hsent, hsession⟩ := hquiet (by rw [hpc]; simp)
    rw [hpc] at hcancelled
    exact .hear hstream rfl hcancelled (by simpa [MessagePc.sends] using hsent) hsession hb
  · -- the message is cancelled while it awaits the response
    cases hsteers
    cases hm
    obtain ⟨hheard, -⟩ := hcoupled
    have hne : stream.pc ≠ .ended .returned := fun heq => by rw [heq] at hheard; cases hheard
    obtain ⟨-, hsent, hsession⟩ := hquiet hne
    exact .hear_cancelled hstream (.inl rfl) hcancelled (by simpa [MessagePc.sends] using hsent) hsession hb
  · -- and again, while the response ends
    cases hsteers
    cases hm
    cases hb
    have hbefore : stream.pc.cancelled = true := hcoupled
    have hne : stream.pc ≠ .ended .returned := fun heq => by rw [heq] at hbefore; cases hbefore
    obtain ⟨-, hsent, hsession⟩ := hquiet hne
    have hended : s'.pc = .ended .cancelled := by cases hs <;> first | rfl | cases hbefore
    refine ⟨hstream, .inr ?_, fun _ => ⟨rfl, by simpa [MessagePc.sends] using hsent, hsession⟩, fun e he => ?_⟩
    · change s'.pc.over = true
      rw [hended]
      rfl
    · have he : s'.pc = .ended (.raised e) := he
      rw [hended] at he
      cases he
  · cases hsteers
  · cases hsteers
  · cases hsteers
  · cases hsteers

/-- Every step keeps the invariant. -/
theorem AnswerInv.step {e : AnswerEvent} (h : AnswerInv g w a) (hs : a.step H messageId g e = some b) :
    AnswerInv g w b := by
  unfold Answer.step at hs
  split at hs
  · obtain ⟨s', hstream, rfl⟩ := Option.map_eq_some_iff.mp hs
    have hstep := streamStep_inv hstream
    have hpc : s'.pc = a.stream.pc := pc_generate hstep
    refine ⟨h.stream.step hstep, ?_, fun hne => h.quiet (hpc ▸ hne), fun e he => h.error e (hpc ▸ he)⟩
    change Coupled s'.pc a.pc
    rw [hpc]
    exact h.coupled
  · split at hs
    · rename_i hawaits
      obtain ⟨s', hstream, hb⟩ := Option.bind_eq_some_iff.mp hs
      exact h.awaited hawaits (streamStep_inv hstream) hb
    · cases hs
  · split at hs
    · rename_i hsteers
      obtain ⟨a', ha, hs⟩ := Option.bind_eq_some_iff.mp hs
      obtain ⟨s', hstream, hb⟩ := Option.bind_eq_some_iff.mp hs
      exact h.steered hsteers ha (streamStep_inv hstream) hb
    · rename_i hsteers
      exact h.message hsteers hs
    · cases hs

/-- A failure before the thread runs is reported. -/
theorem messageReports_of_generateRaises (h : g.generateRaises = none) : MessageReports H messageId g w := by
  intro a ha hfailure hover hne
  have hinv : AnswerInv g w a := by
    refine ha.inv (fun a ha => ?_) fun a e b hI _ hs => hI.step hs
    cases ha
    exact ⟨⟨rfl, rfl, rfl⟩, rfl, fun _ => ⟨rfl, rfl, rfl⟩, fun e he => by cases he⟩
  have hreturned : a.stream.pc ≠ .ended .returned := fun hpc =>
    hfailure (hinv.stream.failure_of_returned hpc h)
  obtain ⟨-, hsent, hsession⟩ := hinv.quiet hreturned
  have hraised : ∃ e, a.stream.pc = .ended (.raised e) := by
    cases hpc : a.stream.pc with
    | ended end' =>
      cases end' with
      | returned => exact absurd hpc hreturned
      | raised e => exact ⟨e, rfl⟩
      | cancelled => exact absurd hpc hne
    | _ => rw [hpc] at hover; cases hover
  obtain ⟨e, hpc⟩ := hraised
  exact ⟨(hinv.error e hpc).2, hsent, congrArg SessionState.history hsession⟩

end

/-! ## Main results -/

/-- For every generation, every message and every order of the steps of thread, generator and message: the response
yields the tokens in order, ends, and returns or raises as the generation does, and a failed generation ends the
message with an `error`, if and only if `model.generate` raises nothing once its thread runs. -/
theorem reports_iff_generateRaises_eq_none (H : Host) (messageId : Uuid) (g : Generation) (w : MessageWorld) :
    (StreamReports g ∧ MessageReports H messageId g w) ↔ g.generateRaises = none := by
  constructor
  · rintro ⟨hstream, -⟩
    cases hraises : g.generateRaises with
    | none => rfl
    | some e =>
      obtain ⟨s, hs, hpc, -⟩ := returned_of_generateRaises hraises
      have hfailure := hstream.returned s hs hpc
      have hgen : g.generates = true := by
        by_contra hno
        rw [Generation.generateRaises, if_neg hno] at hraises
        cases hraises
      rw [Generation.generateRaises, if_pos hgen] at hraises
      rw [Generation.generates, Bool.and_eq_true, Bool.and_eq_true, Option.isNone_iff_eq_none] at hgen
      rw [Generation.failure, hgen.1.1, hgen.1.2, hgen.2, hraises] at hfailure
      cases hfailure
  · exact fun h => ⟨streamReports_of_generateRaises h, messageReports_of_generateRaises h⟩

/-- `model.generate` puts one text and raises. -/
def failingGeneration : Generation :=
  ⟨true, true, none, ["그래"], true, some ⟨"OutOfMemoryError", "CUDA out of memory"⟩⟩

/-- The message is transcribed and awaits the response, whose thread runs to its end. -/
def awaitFailure : List AnswerEvent :=
  [.message (.pull cleanTextDone), .message (.transcribed "안녕"), .stream .pull, .stream .generate, .stream .generate,
    .stream .generate]

/-- One token is yielded, the response returns, and the message goes on with `text_done` and the history. -/
def answerFailure : List AnswerEvent :=
  [.stream .next, .message (.pull cleanTextDone), .stream .next, .stream .joined, .message (.pull cleanTextDone)]

/-- A truncated response is passed off as an answer. -/
theorem failure_answered :
    ¬ StreamReports failingGeneration ∧ ¬ MessageReports sampleHost 9 failingGeneration sampleMessageWorld := by
  constructor
  · intro h
    obtain ⟨s, hs, hpc, -⟩ := returned_of_generateRaises (g := failingGeneration) rfl
    cases h.returned s hs hpc
  · intro hreports
    have h : ((answerSystem sampleHost 9 failingGeneration sampleMessageWorld).exec anyStep
        ⟨.init, sampleMessageWorld, .created, []⟩ (awaitFailure ++ answerFailure)).any (fun a =>
          a.stream.pc = .ended .returned ∧ a.sent.any SseEvent.isTextDone = true ∧
            a.world.session.history.length = 2) = true := by
      decide +kernel
    obtain ⟨a, hsteps, ha⟩ := System.exists_of_exec h
    obtain ⟨hpc, hdone, -⟩ := of_decide_eq_true ha
    obtain ⟨-, hno, -⟩ := hreports a ⟨_, rfl, hsteps⟩ (by decide) (by rw [hpc]; rfl) (by rw [hpc]; decide)
    rw [hdone] at hno
    cases hno

end YeounEngine
