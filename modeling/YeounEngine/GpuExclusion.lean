import YeounEngine.Sessions

/-!
# One call on the GPU

`gpu_semaphore` serialises the calls that are made under it: the transcription of a run and
`tts.synthesize` of a message. The transcription of a message and its `stream_response` are not made
under it, and different sessions have different locks, so they may overlap with each other and with the
calls under the semaphore.

`GpuSerial` is the condition that they happen not to: a message begins only while no call is in
progress, and the semaphore is granted only while no call without it is. That is exactly what the
semaphore would ensure if every call were under it (`oneCall_of_gpuSerial`); without it two messages
transcribe at once (`two_transcriptions`).
-/

namespace YeounEngine

open Transition

/-! ## Calls in progress -/

/-- A call without the semaphore: `llm.transcribe`, or `stream_response` from its first pull until it
has ended. -/
def MessagePc.unguarded : MessagePc → Bool
  | .transcribing | .streaming _ | .yielded _ (.token _) | .unwinding | .abandoned => true
  | _ => false

def ServiceTask.unguarded (t : ServiceTask) : Bool := t.messagePc.any MessagePc.unguarded

/-- The calls of `llm.transcribe`, `llm.stream_response` and `tts.synthesize` that the task has in
progress. The two under the semaphore are in progress while it is held. -/
def ServiceTask.calls (t : ServiceTask) : Nat := t.holdsGpu.toNat + t.unguarded.toNat

/-- All of them. -/
def callsInProgress (p : Pool ServiceWorld ServiceTask) : Nat := Pool.total ServiceTask.calls p.tasks

/-! ## The condition -/

/-- The step in which a message begins its transcription. -/
def beginsCall : ServiceTask → ServiceEvent → Bool
  | .message _ _ (.inside .created), .message (.message (.pull _) _) => true
  | _, _ => false

/-- The step in which the semaphore is granted. -/
def takesGpu : ServiceTask → ServiceEvent → Bool
  | .message _ _ (.inside (.waitingGpu _)), .message (.message .acquire _) => true
  | .persona _ t, .persona (.process (.run .acquire)) => t.run.any fun r => r.pc = .waitingGpu
  | _, _ => false

/-- A message begins only while no call is in progress, and the semaphore is granted only while none
without it is. -/
def GpuSerial (p : Pool ServiceWorld ServiceTask) :
    Event ServiceTask ServiceEvent ServiceEnv → Prop
  | .run i e => ∀ t ∈ p.tasks[i]?,
    (beginsCall t e = true → callsInProgress p = 0) ∧
      (takesGpu t e = true → ∀ u ∈ p.tasks, u.unguarded = false)
  | _ => True

instance (p : Pool ServiceWorld ServiceTask) :
    ∀ e : Event ServiceTask ServiceEvent ServiceEnv, Decidable (GpuSerial p e)
  | .run i e => inferInstanceAs (Decidable (∀ t ∈ p.tasks[i]?,
      (beginsCall t e = true → callsInProgress p = 0) ∧
        (takesGpu t e = true → ∀ u ∈ p.tasks, u.unguarded = false)))
  | .arrive _ | .env _ => inferInstanceAs (Decidable True)

/-! ## One step of a run or a message -/

section
variable {H : Host}

section
variable {w : PersonaWorld} {r : Run}

theorem holdsGpu_nextClip {fs : Files} {i : Nat} : (nextClip fs i).holdsGpu = false := by
  rw [nextClip]
  split <;> rfl

/-- A run transcribes from the step that is granted the semaphore. -/
theorem RunEdge.holdsGpu {pc pc' : RunPc} (h : RunEdge pc pc') (hg : pc'.holdsGpu = true) :
    pc = .waitingGpu := by
  cases h with
  | acquireGpu => rfl
  | firstClip | nextClip => rw [holdsGpu_nextClip] at hg; cases hg
  | _ => cases hg

theorem BodyStep.holdsGpu {pc : RunPc} {ev : RunEvent} {out : PersonaWorld × Run}
    (h : BodyStep H w r pc ev out) (hg : out.2.pc.holdsGpu = true) :
    pc = .waitingGpu ∧ ev = .acquire := by
  have hpc : pc = .waitingGpu := h.edge.holdsGpu hg
  subst hpc
  cases h
  exact ⟨rfl, rfl⟩

theorem RunPc.phase_of_holdsGpu {pc : RunPc} (h : pc.holdsGpu = true) : pc.phase = .working := by
  cases pc <;> first | rfl | cases h

theorem runStep_holdsGpu {w' : PersonaWorld} {r' : Run} {ev : RunEvent}
    (h : runStep H w r ev = some (w', r')) (hg : r'.pc.holdsGpu = true) :
    r.pc = .waitingGpu ∧ ev = .acquire := by
  rcases runStep_cases h with h | ⟨-, h⟩
  · exact h.holdsGpu hg
  · exact absurd (RunPc.phase_of_holdsGpu hg) h.ne_working

end

section
variable {messageId : Uuid} {w w' : MessageWorld} {pc pc' : MessagePc} {ev : MessageEvent}

/-- No call is in progress. -/
def MessagePc.calm (pc : MessagePc) : Prop := pc.holdsGpu = false ∧ pc.unguarded = false

theorem calm_mediaFailed {e : Exc} {unlinked : String → Unlinked} :
    (mediaFailed messageId w e unlinked).2.calm :=
  mediaFailed_cases (fun _ => ⟨rfl, rfl⟩) fun _ => ⟨rfl, rfl⟩

theorem calm_prepareSpeech {userText finalText : String} {a : AfterTextDone} :
    (prepareSpeech H messageId w userText finalText a).2.calm :=
  prepareSpeech_cases (fun _ => ⟨rfl, rfl⟩) (fun _ => ⟨rfl, rfl⟩) fun _ _ => ⟨rfl, rfl⟩

theorem calm_pickSpeakPhoto {fault : Option Exc} {unlinked : String → Unlinked} :
    (pickSpeakPhoto H messageId w fault unlinked).2.calm :=
  pickSpeakPhoto_cases (fun _ => ⟨rfl, rfl⟩) (fun _ => ⟨rfl, rfl⟩) fun _ _ _ => ⟨rfl, rfl⟩

theorem calm_finishSpeech {wav : Unlinked} {unlinked : String → Unlinked} :
    (finishSpeech messageId w wav unlinked).2.calm :=
  finishSpeech_cases (fun _ => ⟨rfl, rfl⟩) (fun _ => ⟨rfl, rfl⟩) ⟨rfl, rfl⟩

/-- What a step of a message does to its calls: one without the semaphore goes on or is begun, and one
under it goes on or begins when the semaphore is granted. -/
def CallsStep (pc pc' : MessagePc) (ev : MessageEvent) : Prop :=
  (pc'.unguarded = true → pc.unguarded = true ∨ pc = .created ∧ ∃ a, ev = .pull a) ∧
    (pc'.holdsGpu = true → pc.holdsGpu = true ∨ (∃ speech, pc = .waitingGpu speech) ∧ ev = .acquire)

theorem MessagePc.calm.callsStep (h : pc'.calm) : CallsStep pc pc' ev := by
  refine ⟨fun hu => ?_, fun hg => ?_⟩
  · rw [h.2] at hu; cases hu
  · rw [h.1] at hg; cases hg

theorem MessageBodyStep.calls {out : MessageWorld × MessagePc}
    (h : MessageBodyStep H messageId w pc ev out) : CallsStep pc out.2 ev := by
  cases h with
  | start => exact ⟨fun _ => .inr ⟨rfl, _, rfl⟩, fun hg => by cases hg⟩
  | @transcribed text =>
    refine ⟨fun _ => .inl rfl, fun hg => ?_⟩
    have hfree : (inputGuard H w text).holdsGpu = false :=
      inputGuard_cases (motive := fun pc => pc.holdsGpu = false) (fun _ => rfl) fun _ => rfl
    dsimp only at hg
    rw [hfree] at hg
    cases hg
  | @streamEnd reply =>
    refine ⟨fun _ => .inl rfl, fun hg => ?_⟩
    have hfree : (outputGuard H messageId reply).holdsGpu = false :=
      outputGuard_cases (motive := fun pc => pc.holdsGpu = false) (fun _ => rfl) fun _ => rfl
    dsimp only at hg
    rw [hfree] at hg
    cases hg
  | token | nextToken => exact ⟨fun _ => .inl rfl, fun hg => by (cases hg)⟩
  | speech => exact calm_prepareSpeech.callsStep
  | synthesized => exact calm_pickSpeakPhoto.callsStep
  | synthesizeFailed | folderFailed | renderFailed => exact calm_mediaFailed.callsStep
  | rendered => exact calm_finishSpeech.callsStep
  | acquireGpu => exact ⟨fun hu => by (cases hu), fun _ => .inr ⟨⟨_, rfl⟩, rfl⟩⟩
  | speechFolder | speechOutput => exact ⟨fun hu => by (cases hu), fun _ => .inl rfl⟩
  | _ => exact MessagePc.calm.callsStep ⟨rfl, rfl⟩

theorem messageStep_calls (h : messageStep H messageId w pc ev = some (w', pc')) :
    CallsStep pc pc' ev := by
  rcases messageStep_cases h with h | h
  · exact h.calls
  · cases h with
    | streaming | token => exact ⟨fun _ => .inl rfl, fun hg => by cases hg⟩
    | _ => exact MessagePc.calm.callsStep ⟨rfl, rfl⟩

end

/-! ## One step of a request -/

section
variable {w w' : ServiceWorld} {t t' : ServiceTask} {e : ServiceEvent} {i : Nat}

/-- The run after a step is a new one, or it has taken the step. -/
theorem personaStep_run {p p' : PersonaWorld} {u u' : PersonaTask} {ev : PersonaEvent} {r' : Run}
    (h : personaStep H p u ev = some (p', u')) (hr : u'.run = some r') :
    r' = Run.new ∨ ∃ r re, u = .process (.accepted r) ∧ ev = .process (.run re) ∧
      runStep H p r re = some (p', r') := by
  cases personaStep_inv h with
  | upload | delete => cases hr
  | process hs =>
    cases PersonaTask.run_eq_some hr
    cases hs with
    | accepted => exact .inl rfl
    | run hrun => exact .inr ⟨_, _, rfl, rfl, hrun⟩

/-- The message after a step makes no call, or is as before, or has taken it. -/
theorem PostStep.messagePc {sid messageId : Uuid} {pc : PostPc} {ev : PostEvent}
    {out : ServiceWorld × PostPc} {mpc' : MessagePc} (h : PostStep H w i sid messageId pc ev out)
    (hm : (ServiceTask.message sid messageId out.2).messagePc = some mpc') :
    mpc'.calm ∨ (ServiceTask.message sid messageId pc).messagePc = some mpc' ∨
      ∃ mpc me unlinked mw mw', pc = .inside mpc ∧ ev = .message me unlinked ∧
        messageStep H messageId mw mpc me = some (mw', mpc') := by
  cases h with
  | message _ hstep | messageLeft _ hstep =>
    cases hm
    exact .inr (.inr ⟨_, _, _, _, _, rfl, rfl, hstep⟩)
  | released | cancelReleasing => exact .inr (.inl hm)
  | granted | finaliseReleasing | finaliseFinished | cancelLocking =>
    cases hm; exact .inl ⟨rfl, rfl⟩
  | _ => cases hm

theorem PostStep.permits {sid messageId : Uuid} {pc : PostPc} {ev : PostEvent}
    {out : ServiceWorld × PostPc} (h : PostStep H w i sid messageId pc ev out) :
    out.1.gpu = w.gpu ∧ out.1.ditto = w.ditto := by
  cases h <;> exact ⟨rfl, rfl⟩

/-- What a request does to its calls, but for the semaphore. -/
structure RequestCalls (w w' : ServiceWorld) (t t' : ServiceTask) (e : ServiceEvent) : Prop where
  unguarded : t'.unguarded = true → t.unguarded = true ∨ beginsCall t e = true
  holdsGpu : t'.holdsGpu = true → t.holdsGpu = true ∨ takesGpu t e = true
  permits : w'.gpu = w.gpu ∧ w'.ditto = w.ditto

theorem holdsGpu_message {sid messageId : Uuid} {pc : PostPc} :
    (ServiceTask.message sid messageId pc).holdsGpu =
      (ServiceTask.message sid messageId pc).messagePc.any MessagePc.holdsGpu := by
  simp [ServiceTask.holdsGpu, ServiceTask.run]

theorem requestCalls_message {sid messageId : Uuid} {pc : PostPc} {ev : PostEvent}
    {out : ServiceWorld × PostPc} (h : PostStep H w i sid messageId pc ev out) :
    RequestCalls w out.1 (.message sid messageId pc) (.message sid messageId out.2)
      (.message ev) := by
  refine ⟨fun hu => ?_, fun hg => ?_, h.permits⟩
  · obtain ⟨mpc', hm, hu⟩ := (Option.any_eq_true _ _).mp hu
    rcases h.messagePc hm with hcalm | hsame | ⟨mpc, me, unlinked, mw, mw', rfl, rfl, hstep⟩
    · rw [hcalm.2] at hu; cases hu
    · exact .inl (by rw [ServiceTask.unguarded, hsame, Option.any_some, hu])
    · rcases (messageStep_calls hstep).1 hu with hbefore | ⟨rfl, a, rfl⟩
      · exact .inl hbefore
      · exact .inr rfl
  · rw [holdsGpu_message] at hg ⊢
    obtain ⟨mpc', hm, hg⟩ := (Option.any_eq_true _ _).mp hg
    rcases h.messagePc hm with hcalm | hsame | ⟨mpc, me, unlinked, mw, mw', rfl, rfl, hstep⟩
    · rw [hcalm.1] at hg; cases hg
    · exact .inl (by rw [hsame, Option.any_some, hg])
    · rcases (messageStep_calls hstep).2 hg with hbefore | ⟨⟨speech, rfl⟩, rfl⟩
      · exact .inl hbefore
      · exact .inr rfl

theorem RequestStep.calls (h : RequestStep H w i t e (w', t')) : RequestCalls w w' t t' e := by
  cases h with
  | start hs =>
    refine ⟨fun hu => by (cases hu), fun hg => by (cases hg), ?_⟩
    cases hs <;> exact ⟨rfl, rfl⟩
  | message hs => exact requestCalls_message hs
  | ending hs =>
    refine ⟨fun hu => by (cases hu), fun hg => by (cases hg), ?_⟩
    cases hs <;> exact ⟨rfl, rfl⟩
  | @persona id u ev p u' hs =>
    refine ⟨fun hu => by (cases hu), fun hg => ?_, rfl, rfl⟩
    rw [ServiceTask.holdsGpu, show (ServiceTask.persona id u').messagePc = none from rfl, Option.any_none,
      Bool.or_false] at hg
    obtain ⟨r', hr, hg⟩ := (Option.any_eq_true _ _).mp hg
    rcases personaStep_run hs hr with rfl | ⟨r, re, rfl, rfl, hrun⟩
    · cases hg
    · obtain ⟨hpc, rfl⟩ := runStep_holdsGpu hrun hg
      exact .inr (by simp [takesGpu, PersonaTask.run, hpc])

end

end

/-! ## The invariant -/

/-- The free permits and the calls under the semaphore add up, and one call is in progress at most. -/
structure OneCall (p : Pool ServiceWorld ServiceTask) : Prop where
  permits : p.world.gpu + Pool.total (fun t => t.holdsGpu.toNat) p.tasks = gpuConcurrency
  calls : callsInProgress p ≤ 1

section
variable {p : Pool ServiceWorld ServiceTask} {t : ServiceTask}

theorem calls_eq_zero (h : t.calls = 0) : t.holdsGpu = false ∧ t.unguarded = false := by
  rw [ServiceTask.calls, Nat.add_eq_zero_iff] at h
  exact ⟨by simpa using h.1, by simpa using h.2⟩

/-- A task makes one call at a time. -/
theorem calls_le_one : t.calls ≤ 1 := by
  rw [ServiceTask.calls]
  cases hg : t.holdsGpu with
  | false => cases t.unguarded <;> simp
  | true =>
    have hu : t.unguarded = false := by
      cases t with
      | message sid messageId pc =>
        rw [holdsGpu_message] at hg
        obtain ⟨mpc, hm, hg⟩ := (Option.any_eq_true _ _).mp hg
        rw [ServiceTask.unguarded, hm, Option.any_some]
        cases mpc <;> first | rfl | cases hg
      | _ => rfl
    simp [hu]

theorem calls_of_arriving (h : t.arriving = true) : t.holdsGpu = false ∧ t.unguarded = false := by
  cases t with
  | start personaId userId pc => exact ⟨rfl, rfl⟩
  | message sid messageId pc => cases pc <;> first | exact ⟨rfl, rfl⟩ | cases h
  | ending sid pc => exact ⟨rfl, rfl⟩
  | persona id u =>
    refine ⟨?_, rfl⟩
    cases u with
    | upload req pc => rfl
    | delete pc => rfl
    | process pc => cases pc <;> first | rfl | cases h

/-- When the semaphore is free and no call is made without it, none is in progress. -/
theorem OneCall.callsInProgress_eq_zero (h : OneCall p) (hfree : 0 < p.world.gpu)
    (hu : ∀ t ∈ p.tasks, t.unguarded = false) : callsInProgress p = 0 := by
  refine Pool.total_eq_zero fun t ht => ?_
  obtain ⟨i, hi⟩ := List.mem_iff_getElem?.mp ht
  have hle : t.holdsGpu.toNat ≤ _ := Pool.le_total (f := fun t => t.holdsGpu.toNat) hi
  have hpermits := h.permits
  rw [gpuConcurrency] at hpermits
  have hheld : t.holdsGpu.toNat = 0 := by omega
  rw [ServiceTask.calls, hheld, hu t ht]
  rfl

/-- A step of a request. -/
theorem OneCall.run {H : Host} {w : ServiceWorld} {t' : ServiceTask} {e : ServiceEvent} {i : Nat}
    (h : OneCall p) (hok : GpuSerial p (.run i e)) (hi : p.tasks[i]? = some t)
    (hs : serviceStep H p.world i t e = some (w, t')) : OneCall ⟨w, p.tasks.set i t'⟩ := by
  obtain ⟨w₁, gpu, ditto, hreq, hgpu, rfl⟩ := serviceStep_inv hs
  have hcalls := hreq.calls
  rw [hcalls.permits.1] at hgpu
  obtain ⟨hbegin, htake⟩ := hok t hi
  refine ⟨(Semaphore.total_set hi hgpu).trans h.permits, ?_⟩
  have hset := Pool.total_set (f := ServiceTask.calls) t' hi
  change Pool.total ServiceTask.calls (p.tasks.set i t') ≤ 1
  have hone : Pool.total ServiceTask.calls p.tasks ≤ 1 := h.calls
  have hle : t'.calls ≤ 1 := calls_le_one
  rcases Nat.lt_or_ge t.calls t'.calls with hlt | hge
  · -- a call begins: none was in progress
    obtain ⟨hg, hu⟩ := calls_eq_zero (t := t) (by omega)
    have hzero : Pool.total ServiceTask.calls p.tasks = 0 := by
      cases hu' : t'.unguarded with
      | true =>
        rcases hcalls.unguarded hu' with hbefore | hb
        · rw [hu] at hbefore; cases hbefore
        · exact hbegin hb
      | false =>
        have hg' : t'.holdsGpu = true := by
          by_contra hne
          rw [ServiceTask.calls, ServiceTask.calls, hu', Bool.eq_false_iff.mpr hne] at hlt
          simp at hlt
        rcases hcalls.holdsGpu hg' with hbefore | ht
        · rw [hg] at hbefore; cases hbefore
        · rw [hg, hg'] at hgpu
          exact h.callsInProgress_eq_zero (Semaphore.pass_free hgpu) (htake ht)
    omega
  · omega

/-- Every step that meets the condition keeps the invariant. -/
theorem OneCall.next {H : Host} {admits : ServiceTask → Bool} {q : Pool ServiceWorld ServiceTask}
    {e : Event ServiceTask ServiceEvent ServiceEnv} (h : OneCall p) (hok : GpuSerial p e)
    (hs : (serviceCoop H admits).next p e = some q) : OneCall q := by
  refine service_next_cases (motive := OneCall) hs ?_ ?_ ?_
  · intro t harr _
    obtain ⟨hg, hu⟩ := calls_of_arriving harr
    have hcalls : t.calls = 0 := by rw [ServiceTask.calls, hg, hu]; rfl
    refine ⟨?_, ?_⟩
    · rw [Pool.total_append, Pool.total_singleton, hg]
      exact h.permits
    · rw [callsInProgress, Pool.total_append, Pool.total_singleton, hcalls]
      exact h.calls
  · rintro i ev t w t' rfl hi hstep
    exact h.run hok hi hstep
  · intro x w hx
    have hgpu : w.gpu = p.world.gpu := by
      cases x with
      | sweep now => cases hx; rfl
      | orphan id k act =>
        obtain ⟨p', -, rfl⟩ := Option.map_eq_some_iff.mp hx
        rfl
    exact ⟨hgpu ▸ h.permits, h.calls⟩

end

/-! ## Main results -/

/-- In every interleaving of requests in which a message begins only while no call is in progress, and
`gpu_semaphore` is granted only while none is made without it, at most one call of
`llm.transcribe`, `llm.stream_response` and `tts.synthesize` is in progress. -/
theorem oneCall_of_gpuSerial (H : Host) (admits : ServiceTask → Bool)
    (p : Pool ServiceWorld ServiceTask)
    (h : (serviceSystem H admits ServiceWorld.Fresh).Reach GpuSerial p) : callsInProgress p ≤ 1 := by
  have hinv : OneCall p := by
    refine h.inv (I := OneCall) (fun p hp => ?_) fun p e q hI hok hs => hI.next hok hs
    obtain ⟨hw, htasks⟩ := hp
    refine ⟨?_, ?_⟩
    · rw [htasks, hw.gpu]; rfl
    · rw [callsInProgress, htasks]; simp
  exact hinv.calls

/-- The theorem at a run: a message streams, while one of another session has not begun. -/
theorem oneCall_of_gpuSerial_run : ∃ p : Pool ServiceWorld ServiceTask,
    (serviceSystem sampleHost (fun _ => true) ServiceWorld.Fresh).Reach GpuSerial p ∧
      p.tasks.length = 4 ∧ callsInProgress p ≤ 1 := by
  have h : ((serviceSystem sampleHost (fun _ => true) ServiceWorld.Fresh).exec GpuSerial
      ⟨sampleService, []⟩ (startSession 0 1 20 ++ startSession 1 1 21 ++ postMessage 2 20 30 ++
        postMessage 3 21 31 ++ sayMessage 2 [.pull cleanTextDone, .transcribed "안녕", .token "그래"])).any
      (fun p => p.tasks.length = 4) = true := by
    decide +kernel
  obtain ⟨p, hsteps, hlength⟩ := System.exists_of_exec h
  have hreach : (serviceSystem sampleHost (fun _ => true) ServiceWorld.Fresh).Reach GpuSerial p :=
    ⟨_, ⟨sampleService_fresh, rfl⟩, hsteps⟩
  exact ⟨p, hreach, of_decide_eq_true hlength, oneCall_of_gpuSerial _ _ p hreach⟩

/-- Messages of two sessions transcribe at once. -/
theorem two_transcriptions : ∃ p : Pool ServiceWorld ServiceTask,
    (serviceSystem sampleHost (fun _ => true) ServiceWorld.Fresh).Reach anyStep p ∧
      callsInProgress p = 2 := by
  have h : ((serviceSystem sampleHost (fun _ => true) ServiceWorld.Fresh).exec anyStep
      ⟨sampleService, []⟩ (startSession 0 1 20 ++ startSession 1 1 21 ++ postMessage 2 20 30 ++
        postMessage 3 21 31 ++ sayMessage 2 [.pull cleanTextDone] ++
        sayMessage 3 [.pull cleanTextDone])).any (fun p => callsInProgress p = 2) = true := by
    decide +kernel
  obtain ⟨p, hsteps, htwo⟩ := System.exists_of_exec h
  exact ⟨p, ⟨_, ⟨sampleService_fresh, rfl⟩, hsteps⟩, of_decide_eq_true htwo⟩

end YeounEngine
