import YeounEngine.VoiceRef
import YeounEngine.Lib.Auxiliary

/-!
# How a run ends

One run of `process_persona` on a persona that exists, with everything but its row and its step changing
around it (`processPersona`). What the run has called is on record: the entries it has set, the steps
whose work has succeeded, and its updates of the row, each with what was known by then.

A run sets the steps in their order (`RunPc.shownBy`), so at any moment it has set a prefix of
them, and in the two handlers `failed` after that. When it ends, row and step agree (`endsInAgreement`).
-/

namespace YeounEngine

open Transition

/-! ## The system -/

/-- A step of the run, or of anything else. -/
inductive RunOrOther
  | run (ev : RunEvent)
  | other (w : PersonaWorld)

/-- A run of a persona that exists. -/
def processPersona (H : Host) : System (PersonaWorld × Run) RunOrOther where
  init s := s.1.row.isSome = true ∧ s.2 = Run.new
  step s
    | .run ev => runStep H s.1 s.2 ev
    | .other w => some (w, s.2)

/-- The `await` is one of `set_step` or `update_persona_status`. -/
def RunPc.storing : RunPc → Bool
  | .setPending | .updProcessing _ | .setSelecting | .setExtracting | .setTranscribing | .setRendering
  | .setReady | .updReady _ | .cancelSet | .cancelUpd _ | .failSet _ | .failUpd _ => true
  | _ => false

/-! ## The record -/

/-- An update of the row: the status, the steps whose work had succeeded by then, and whether anything had
been raised. -/
structure StatusUpdate where
  status : Status
  succeeded : List ProcessingStep
  raised : Bool

/-- What a run has done. -/
structure RunRecord where
  sets : List ProcessingState
  succeeded : List ProcessingStep
  updates : List StatusUpdate
  raised : Bool
  cancelled : Bool

/-- The entry that an `await` of `set_step` sets. -/
def RunPc.sets : RunPc → Option ProcessingState
  | .setPending => some ⟨.pending, none⟩
  | .setSelecting => some ⟨.selectingVoice, none⟩
  | .setExtracting => some ⟨.extractingRef, none⟩
  | .setTranscribing => some ⟨.transcribing, none⟩
  | .setRendering => some ⟨.renderingIdle, none⟩
  | .setReady => some ⟨.ready, none⟩
  | .cancelSet => some ⟨.failed, some "cancelled"⟩
  | .failSet reason => some ⟨.failed, some reason⟩
  | _ => none

/-- The status that an `await` of `update_persona_status` sets. -/
def RunPc.updates : RunPc → Option Status
  | .updProcessing false => some .processing
  | .updReady false => some .ready
  | .cancelUpd false | .failUpd false => some .failed
  | _ => none

/-- The step whose work has succeeded when the run arrives here. -/
def RunPc.completes : RunPc → Option ProcessingStep
  | .setSelecting => some .pending
  | .setExtracting => some .selectingVoice
  | .setTranscribing => some .extractingRef
  | .setRendering => some .transcribing
  | .setReady => some .renderingIdle
  | _ => none

/-- The event is a cancellation. -/
def RunEvent.cancels : RunEvent → Bool
  | .cancel _ _ => true
  | _ => false

/-- The record after a step of the run that leads to `pc'`. -/
def RunRecord.next (x : RunRecord) (pc : RunPc) (ev : RunEvent) (pc' : RunPc) : RunRecord where
  sets := x.sets ++ if ev.interrupts then [] else pc.sets.toList
  succeeded := x.succeeded ++ pc'.completes.toList
  updates := x.updates ++
    if ev.interrupts then [] else (pc.updates.map fun status => ⟨status, x.succeeded, x.raised⟩).toList
  raised := x.raised || pc'.phase = .failing
  cancelled := x.cancelled || ev.cancels

/-- The record of a run. -/
def recorded (H : Host) : Auxiliary (PersonaWorld × Run) RunOrOther RunOrOther RunRecord where
  start := ⟨[], [], [], false, false⟩
  event e := some e
  record s x
    | .run ev => (runStep H s.1 s.2 ev).map fun out => x.next s.2.pc ev out.2.pc
    | .other _ => some x

/-- A run with its record. -/
abbrev recordedRun (H : Host) : System (Extended (PersonaWorld × Run) RunRecord) RunOrOther :=
  (processPersona H).extend (recorded H)

/-- The two stores do not raise, and a cancellation is delivered in the `try` body only. -/
def RunEvent.keepsStores (pc : RunPc) : RunEvent → Bool
  | .fail _ => !pc.storing
  | .cancel _ _ => pc.phase.inBody
  | _ => true

/-- That, and nothing else changes the row or the step. -/
def StoresKept (s : Extended (PersonaWorld × Run) RunRecord) : RunOrOther → Prop
  | .run ev => ev.keepsStores s.state.2.pc = true
  | .other w => w.row = s.state.1.row ∧ w.step = s.state.1.step

instance (s : Extended (PersonaWorld × Run) RunRecord) (e : RunOrOther) : Decidable (StoresKept s e) :=
  match e with
  | .run _ => inferInstanceAs (Decidable (_ = _))
  | .other _ => inferInstanceAs (Decidable (_ ∧ _))

/-! ## Agreement -/

/-- The steps in the order of the run. -/
def stepOrder : List ProcessingStep :=
  [.pending, .selectingVoice, .extractingRef, .transcribing, .renderingIdle, .ready]

/-- `error_reason` is there only with `failed`. -/
def ProcessingState.Sound (e : ProcessingState) : Prop := e.errorReason ≠ none → e.step = .failed

/-- Row and step agree on the end: (`READY`, `ready`) without a reason, or (`FAILED`, `failed`) with one of at
most 500 characters. -/
def Agrees (w : PersonaWorld) : Prop :=
  w.row = some .ready ∧ w.step = some ⟨.ready, none⟩ ∨
    w.row = some .failed ∧ ∃ reason : String, w.step = some ⟨.failed, some reason⟩ ∧ reason.length ≤ 500

/-- What holds of a run from `s` in every state `t` that it reaches. -/
structure EndsInAgreement (s t : Extended (PersonaWorld × Run) RunRecord) : Prop where
  agrees : t.state.2.pc.ended = true → Agrees t.state.1
  ready : ∀ u ∈ t.record.updates, u.status = .ready → u.succeeded = stepOrder.take 5 ∧ u.raised = false
  steps : ∃ k, t.record.sets.map ProcessingState.step = stepOrder.take k ∨
    t.record.sets.map ProcessingState.step = stepOrder.take k ++ [.failed]
  shown : t.state.1.step = t.record.sets.getLast?.or s.state.1.step
  sound : (∀ e ∈ s.state.1.step, e.Sound) → ∀ e ∈ t.state.1.step, e.Sound
  propagates : t.state.2.pc.ended = true →
    t.state.2.pc = .returned ∨ t.state.2.pc = .cancelled ∧ t.record.cancelled = true

/-! ## How far a run is -/

/-- The number of steps that a run has set. -/
def RunPc.stepsSet : RunPc → Nat
  | .scheduled | .setPending => 0
  | .updProcessing _ | .setSelecting => 1
  | .setExtracting => 2
  | .spawning | .ffmpeg _ | .setTranscribing => 3
  | .waitingGpu | .transcribing _ | .setRendering => 4
  | .waitingDitto _ | .rendering _ | .inserting _ _ | .setReady => 5
  | _ => 6

/-- The number of steps whose work has succeeded. -/
def RunPc.stepsDone : RunPc → Nat
  | .scheduled | .setPending | .updProcessing _ => 0
  | .setSelecting => 1
  | .setExtracting | .spawning | .ffmpeg _ => 2
  | .setTranscribing | .waitingGpu | .transcribing _ => 3
  | .setRendering | .waitingDitto _ | .rendering _ | .inserting _ _ => 4
  | _ => 5

/-- The entries of the first `k` steps. -/
def firstEntries (k : Nat) : List ProcessingState := (stepOrder.take k).map fun step => ⟨step, none⟩

/-- A run that has not raised anything yet. -/
def Phase.tries : Phase → Bool
  | .scheduled => true
  | p => p.inBody

section
variable {H : Host} {w : PersonaWorld} {r : Run} {pc pc' : RunPc} {ev : RunEvent} {out : PersonaWorld × Run}

/-- Along an edge the run sets the next step, if any, and completes one, if any. -/
theorem RunEdge.progress (h : RunEdge pc pc') (hp : pc.phase.tries = true) (hne : pc'.phase ≠ .failing) :
    firstEntries pc'.stepsSet = firstEntries pc.stepsSet ++ pc.sets.toList ∧
      stepOrder.take pc'.stepsDone = stepOrder.take pc.stepsDone ++ pc'.completes.toList := by
  cases h with
  | fail => exact absurd rfl hne
  | firstClip | nextClip => rw [YeounEngine.nextClip]; split <;> exact ⟨rfl, rfl⟩
  | cancelSet | cancelUpd | cancelDone | failSet | failUpd | failDone => cases hp
  | _ => exact ⟨rfl, rfl⟩

/-- A run that raises has set some of the steps. -/
theorem exists_firstEntries (hp : pc.phase.tries = true) :
    ∃ k, firstEntries pc.stepsSet ++ pc.sets.toList = firstEntries k := by
  refine ⟨pc.stepsSet + pc.sets.toList.length, ?_⟩
  cases pc with
  | cancelSet | failSet | returned | cancelled | raised | killed => cases hp
  | cancelUpd applied | failUpd applied => cases applied <;> cases hp
  | _ => rfl

/-- An edge leads to the handler of `Exception`, or on in the body, or out of it at its end. -/
theorem RunEdge.cases_of_tries (h : RunEdge pc pc') (hp : pc.phase.tries = true) :
    (∃ reason, pc' = .failSet reason) ∨ pc'.phase.tries = true ∨ pc = .updReady true ∧ pc' = .returned := by
  cases h with
  | fail => exact .inl ⟨_, rfl⟩
  | firstClip | nextClip => exact .inr (.inl (by rw [phase_nextClip]; rfl))
  | done => exact .inr (.inr ⟨rfl, rfl⟩)
  | cancelSet | cancelUpd | cancelDone | failSet | failUpd | failDone => cases hp
  | _ => exact .inr (.inl rfl)

/-- `READY` is set at one place. -/
theorem RunEdge.eq_updReady (h : RunEdge pc pc') (hpc : pc' = .updReady true) : pc = .updReady false := by
  cases h with
  | setReady => rfl
  | firstClip | nextClip =>
    have hphase := congrArg RunPc.phase hpc
    rw [phase_nextClip] at hphase
    cases hphase
  | _ => cases hpc

/-! ## What a step reports -/

/-- A reason that is to be reported is at most 500 characters long. -/
def Run.Told (r : Run) : Prop := ∀ reason, r.pc = .failSet reason → reason.length ≤ 500

theorem length_cut (n : Nat) (s : String) : (cut n s).length ≤ n := by
  rw [cut, String.length_ofList]
  exact List.length_take_le ..

theorem length_failReason (e : Exc) : (failReason e).length ≤ 500 := by
  rw [failReason]
  split
  · exact length_cut ..
  · exact length_cut ..

theorem told_failed {e : Exc} : (r.failed e).Told := by
  rintro reason ⟨⟩
  exact length_failReason e

theorem told_goto (h : pc.phase ≠ .failing) : (r.goto pc).Told := by
  rintro reason rfl
  exact absurd rfl h

theorem told_orFail {fault : Option Exc} {k : PersonaWorld × Run} (h : k.2.Told) : (orFail w r fault k).2.Told := by
  cases fault with
  | some e => exact told_failed
  | none => exact h

theorem told_finishTrim {rc : Int} {a : AfterTrim} : (finishTrim H w r rc a).2.Told := by
  rw [finishTrim]
  split
  · exact told_failed
  · refine told_orFail ?_
    dsimp only
    split
    · exact told_orFail (told_goto (by rintro ⟨⟩))
    · exact told_goto (by rintro ⟨⟩)

theorem BodyStep.told (h : BodyStep H w r pc ev out) : out.2.Told := by
  cases h with
  | select =>
    refine told_orFail ?_
    rw [selectVoice]
    split
    · exact told_failed
    · rintro _ ⟨⟩
  | extract =>
    refine told_orFail ?_
    rw [prepareVoiceRef]
    split <;> exact told_goto (by rintro ⟨⟩)
  | trimDone => exact told_finishTrim
  | transcribe =>
    refine told_orFail ?_
    rw [transcribeVoice]
    split
    · split
      · exact told_goto (by rintro ⟨⟩)
      · exact told_failed
    · exact told_goto (by rintro ⟨⟩)
  | transcribed =>
    rw [saveRefText]
    split
    · exact told_failed
    · exact told_goto (by rintro ⟨⟩)
  | render =>
    refine told_orFail ?_
    rw [renderIdleClips]
    split
    · exact told_failed
    · rename_i photo _
      exact told_goto (r := ⟨r.pc, r.voice, some photo⟩) (by rw [phase_nextClip]; rintro ⟨⟩)
  | rendered => exact told_orFail (told_goto (by rw [phase_nextClip]; rintro ⟨⟩))
  | renderFailed => exact told_failed
  | inserted => exact told_goto (by split <;> rintro ⟨⟩)
  | _ => exact told_goto (by rintro ⟨⟩)

/-- What a step of the success path does to the row and the step. -/
theorem BodyStep.stores (h : BodyStep H w r pc ev out) :
    out.1.step = pc.sets.or w.step ∧
      out.1.row = pc.updates.elim w.row fun status => w.row.map fun _ => status := by
  have of_works : ∀ (v : PersonaWorld) {out : PersonaWorld × Run}, Works v out →
      out.1.step = v.step ∧ out.1.row = v.row := fun v out hw => by rw [hw.1]; exact ⟨rfl, rfl⟩
  cases h with
  | select => exact of_works (w.setStep _ _) (works_orFail works_selectVoice)
  | extract => exact of_works (w.setStep _ _) (works_orFail works_prepareVoiceRef)
  | transcribe => exact of_works (w.setStep _ _) (works_orFail works_transcribeVoice)
  | render => exact of_works (w.setStep _ _) (works_orFail works_renderIdleClips)
  | trimDone => exact of_works w works_finishTrim
  | transcribed => exact of_works w works_saveRefText
  | rendered => exact of_works (idleRendered w _ _ _) (works_orFail (works_goto phase_nextClip rfl))
  | renderFailed => rw [idleFailed]; split <;> exact ⟨rfl, rfl⟩
  | _ => exact ⟨rfl, rfl⟩

/-- The success path is not interrupted. -/
theorem BodyStep.next (h : BodyStep H w r pc ev out) (x : RunRecord) :
    x.next pc ev out.2.pc =
      { sets := x.sets ++ pc.sets.toList
        succeeded := x.succeeded ++ out.2.pc.completes.toList
        updates := x.updates ++ (pc.updates.map fun status => ⟨status, x.succeeded, x.raised⟩).toList
        raised := x.raised || out.2.pc.phase = .failing
        cancelled := x.cancelled } := by
  have hi : ev.interrupts = false ∧ ev.cancels = false := by cases h <;> exact ⟨rfl, rfl⟩
  rw [RunRecord.next, hi.1, hi.2, Bool.or_false]
  rfl

theorem row_leaveFfmpeg {rc : Option Int} :
    (leaveFfmpeg w r rc).row = w.row ∧ (leaveFfmpeg w r rc).step = w.step := by
  rw [leaveFfmpeg]
  split
  · cases r.voice <;> exact ⟨rfl, rfl⟩
  · exact ⟨rfl, rfl⟩

/-- An `await` of the body that raises. -/
theorem failStep_body {e : Exc} (h : failStep w r e = some out) (hs : r.pc.storing = false) :
    out.2.pc = .failSet (failReason e) ∧ r.pc.phase.inBody = true ∧ out.1.row = w.row ∧ out.1.step = w.step := by
  obtain ⟨pc, voice, photo⟩ := r
  cases pc with
  | spawning | transcribing | waitingDitto | inserting => cases h; exact ⟨rfl, rfl, rfl, rfl⟩
  | ffmpeg => cases h; exact ⟨rfl, rfl, row_leaveFfmpeg⟩
  | scheduled | waitingGpu | rendering | returned | cancelled | raised | killed => cases h
  | _ => cases hs

/-- An `await` of the body that is cancelled. -/
theorem cancelStep_body {started : Bool} {unlinked : String → Bool}
    (h : cancelStep w r started unlinked = some out) (hp : r.pc.phase.inBody = true) :
    out.2.pc = .cancelSet ∧ out.1.row = w.row ∧ out.1.step = w.step := by
  obtain ⟨pc, voice, photo⟩ := r
  cases pc with
  | ffmpeg => cases h; exact ⟨rfl, row_leaveFfmpeg⟩
  | rendering =>
    obtain ⟨p, -, rfl⟩ := Option.map_eq_some_iff.mp h
    cases started <;> exact ⟨rfl, rfl, rfl⟩
  | cancelUpd applied | failUpd applied => cases applied <;> cases hp
  | scheduled | cancelSet | failSet | returned | cancelled | raised | killed => cases hp
  | _ => cases h; exact ⟨rfl, rfl, rfl⟩

end

/-! ## The invariant -/

/-- The status that was set last. -/
def RunRecord.lastStatus (x : RunRecord) : Option Status := x.updates.getLast?.map StatusUpdate.status

/-- A handler has shown the failure. -/
def RunRecord.ShowsFailed (x : RunRecord) : Prop :=
  ∃ (k : Nat) (reason : String), x.sets = firstEntries k ++ [⟨.failed, some reason⟩] ∧ reason.length ≤ 500

/-- The record of a run, by where it is: in the body, in a handler before and after it shows the failure, and
at the two ends. -/
inductive RunStage : RunPc → RunRecord → Prop
  | trying {pc x} (hp : pc.phase.tries = true) (hsets : x.sets = firstEntries pc.stepsSet)
      (hdone : x.succeeded = stepOrder.take pc.stepsDone) (hraised : x.raised = false)
      (hrow : pc = .updReady true → x.lastStatus = some .ready) : RunStage pc x
  | cancelSet {x k} (hsets : x.sets = firstEntries k) (hc : x.cancelled = true) : RunStage .cancelSet x
  | failSet {x k reason} (hsets : x.sets = firstEntries k) (hr : reason.length ≤ 500) :
      RunStage (.failSet reason) x
  | cancelUpd {x applied} (hsets : x.ShowsFailed) (hc : x.cancelled = true)
      (hrow : applied = true → x.lastStatus = some .failed) : RunStage (.cancelUpd applied) x
  | failUpd {x applied} (hsets : x.ShowsFailed) (hrow : applied = true → x.lastStatus = some .failed) :
      RunStage (.failUpd applied) x
  | succeeded {x} (hsets : x.sets = firstEntries 6) (hrow : x.lastStatus = some .ready) : RunStage .returned x
  | failed {x} (hsets : x.ShowsFailed) (hrow : x.lastStatus = some .failed) : RunStage .returned x
  | cancelled {x} (hsets : x.ShowsFailed) (hrow : x.lastStatus = some .failed) (hc : x.cancelled = true) :
      RunStage .cancelled x

/-- A run that started in the world `w₀`. -/
structure RunInv (w₀ w : PersonaWorld) (pc : RunPc) (x : RunRecord) : Prop where
  stage : RunStage pc x
  row : w.row = x.lastStatus.or w₀.row
  step : w.step = x.sets.getLast?.or w₀.step
  ready : ∀ u ∈ x.updates, u.status = .ready → u.succeeded = stepOrder.take 5 ∧ u.raised = false

section
variable {H : Host} {w₀ w : PersonaWorld} {r : Run} {pc : RunPc} {x : RunRecord} {ev : RunEvent}
  {out : PersonaWorld × Run} {s t u : Extended (PersonaWorld × Run) RunRecord} {e : RunOrOther}

theorem BodyStep.lastStatus (h : BodyStep H w r pc ev out) (x : RunRecord) :
    (x.next pc ev out.2.pc).lastStatus = pc.updates.or x.lastStatus := by
  rw [h.next, RunRecord.lastStatus]
  cases pc.updates with
  | none => rw [Option.map_none, Option.toList_none, List.append_nil, Option.none_or, RunRecord.lastStatus]
  | some status => rw [Option.map_some, Option.toList_some, List.getLast?_concat]; rfl

/-- A step of the success path keeps the stage. -/
theorem RunStage.body (h : RunStage pc x) (hstep : BodyStep H w r pc ev out) :
    RunStage out.2.pc (x.next pc ev out.2.pc) := by
  have hnext := hstep.next x
  have hlast := hstep.lastStatus x
  cases h with
  | trying hp hsets hdone hraised hrow =>
    have hedge := hstep.edge
    rcases hedge.cases_of_tries hp with ⟨reason, hpc⟩ | hpc | ⟨rfl, hpc⟩
    · obtain ⟨k, hk⟩ := exists_firstEntries hp
      have hreason := hstep.told reason hpc
      have hsets' : (x.next pc ev out.2.pc).sets = firstEntries k := by rw [hnext, ← hk, hsets]
      rw [hpc] at hsets' ⊢
      exact .failSet hsets' hreason
    · have hne : out.2.pc.phase ≠ .failing := by
        intro hf
        rw [hf] at hpc
        cases hpc
      obtain ⟨hset, hcomplete⟩ := hedge.progress hp hne
      refine .trying hpc (by rw [hnext, hset, hsets]) (by rw [hnext, hcomplete, hdone])
        (by rw [hnext, hraised, decide_eq_false hne]; rfl) ?_
      intro hready
      rw [hlast, hedge.eq_updReady hready]
      rfl
    · have hsets' : (x.next (.updReady true) ev out.2.pc).sets = firstEntries 6 := by
        rw [hnext, hsets]
        exact List.append_nil _
      rw [hpc] at hsets' hlast ⊢
      exact .succeeded hsets' (hlast.trans (hrow rfl))
  | cancelSet hsets hc =>
    cases hstep
    exact .cancelUpd ⟨_, _, by rw [hnext, hsets]; rfl, by decide⟩ (by rw [hnext, hc]) nofun
  | failSet hsets hr =>
    cases hstep
    exact .failUpd ⟨_, _, by rw [hnext, hsets]; rfl, hr⟩ nofun
  | @cancelUpd _ applied hsets hc hrow =>
    have hsets' : (x.next (.cancelUpd applied) ev out.2.pc).ShowsFailed := by
      rw [RunRecord.ShowsFailed, hnext]
      simpa [RunPc.sets, RunRecord.ShowsFailed] using hsets
    have hc' : (x.next (.cancelUpd applied) ev out.2.pc).cancelled = true := by rw [hnext, hc]
    cases hstep with
    | cancelUpd => exact .cancelUpd hsets' hc' fun _ => hlast
    | cancelDone => exact .cancelled hsets' (hlast.trans (hrow rfl)) hc'
  | @failUpd _ applied hsets hrow =>
    have hsets' : (x.next (.failUpd applied) ev out.2.pc).ShowsFailed := by
      rw [RunRecord.ShowsFailed, hnext]
      simpa [RunPc.sets, RunRecord.ShowsFailed] using hsets
    cases hstep with
    | failUpd => exact .failUpd hsets' fun _ => hlast
    | failDone => exact .failed hsets' (hlast.trans (hrow rfl))
  | succeeded | failed | cancelled => cases hstep

/-- An interruption keeps it. -/
theorem RunStage.interrupted {pc' : RunPc} (h : RunStage pc x) (hp : pc.phase.inBody = true)
    (hi : ev.interrupts = true) (hpc : pc' = .cancelSet ∧ ev.cancels = true ∨
      ∃ reason : String, pc' = .failSet reason ∧ reason.length ≤ 500) : RunStage pc' (x.next pc ev pc') := by
  have hsets : (x.next pc ev pc').sets = x.sets := by rw [RunRecord.next, hi]; exact List.append_nil _
  cases h with
  | trying _ hfirst =>
    rw [hfirst] at hsets
    rcases hpc with ⟨rfl, hc⟩ | ⟨reason, rfl, hr⟩
    · exact .cancelSet hsets (by rw [RunRecord.next, hc, Bool.or_true])
    · exact .failSet hsets hr
  | @cancelUpd _ applied | @failUpd _ applied => cases applied <;> cases hp
  | _ => cases hp

/-- Where the stage is, `READY` is set with all the work done. -/
theorem RunStage.ready (h : RunStage pc x) (hr : pc.updates = some .ready) :
    x.succeeded = stepOrder.take 5 ∧ x.raised = false := by
  cases h with
  | @trying _ _ hp hsets hdone hraised =>
    cases pc with
    | updReady applied => exact ⟨hdone, hraised⟩
    | updProcessing applied => cases applied <;> cases hr
    | cancelUpd applied | failUpd applied => cases applied <;> cases hp
    | _ => cases hr
  | @cancelUpd _ applied | @failUpd _ applied => cases applied <;> cases hr
  | _ => cases hr

/-- A step of the success path keeps the invariant. -/
theorem RunInv.body (h : RunInv w₀ w pc x) (hw₀ : w₀.row.isSome = true) (hstep : BodyStep H w r pc ev out) :
    RunInv w₀ out.1 out.2.pc (x.next pc ev out.2.pc) := by
  obtain ⟨hset, hrow⟩ := hstep.stores
  refine ⟨h.stage.body hstep, ?_, ?_, ?_⟩
  · rw [hrow, hstep.lastStatus, h.row]
    cases pc.updates with
    | none => rfl
    | some status =>
      obtain ⟨status₀, hstatus₀⟩ := Option.isSome_iff_exists.mp hw₀
      rw [hstatus₀]
      cases x.lastStatus <;> rfl
  · rw [hset, h.step, hstep.next]
    cases pc.sets with
    | none => rw [Option.toList_none, List.append_nil, Option.none_or]
    | some entry => rw [Option.toList_some, List.getLast?_concat]; rfl
  · rw [hstep.next]
    intro u hu hready
    rcases List.mem_append.mp hu with hu | hu
    · exact h.ready u hu hready
    · obtain ⟨status, hstatus, rfl⟩ := Option.map_eq_some_iff.mp (Option.mem_toList.mp hu)
      cases hready
      exact h.stage.ready hstatus

/-- An interruption of the body keeps it. -/
theorem RunInv.interrupted {pc' : RunPc} {w' : PersonaWorld} (h : RunInv w₀ w pc x)
    (hp : pc.phase.inBody = true) (hi : ev.interrupts = true) (hrow : w'.row = w.row) (hstep : w'.step = w.step)
    (hpc : pc' = .cancelSet ∧ ev.cancels = true ∨ ∃ reason : String, pc' = .failSet reason ∧ reason.length ≤ 500) :
    RunInv w₀ w' pc' (x.next pc ev pc') := by
  have hnext : (x.next pc ev pc').sets = x.sets ∧ (x.next pc ev pc').updates = x.updates := by
    rw [RunRecord.next, hi]
    exact ⟨List.append_nil _, List.append_nil _⟩
  refine ⟨h.stage.interrupted hp hi hpc, ?_, ?_, ?_⟩
  · rw [hrow, h.row, RunRecord.lastStatus, RunRecord.lastStatus, hnext.2]
  · rw [hstep, h.step, hnext.1]
  · rw [hnext.2]
    exact h.ready

/-- A step keeps the invariant. -/
theorem runInv_step (h : RunInv w₀ t.state.1 t.state.2.pc t.record) (hw₀ : w₀.row.isSome = true)
    (he : StoresKept t e) (hstep : (recordedRun H).step t e = some u) :
    RunInv w₀ u.state.1 u.state.2.pc u.record := by
  refine System.extend_cases (motive := fun u => RunInv w₀ u.state.1 u.state.2.pc u.record) hstep ?_ ?_
  · rintro e' s x' he' hs hx'
    cases he'
    cases e with
    | other w =>
      cases hs
      cases hx'
      exact ⟨h.stage, he.1.trans h.row, he.2.trans h.step, h.ready⟩
    | run ev =>
      have hx' : (runStep H t.state.1 t.state.2 ev).map (fun out => t.record.next t.state.2.pc ev out.2.pc) =
        some x' := hx'
      have hs : runStep H t.state.1 t.state.2 ev = some s := hs
      rw [hs] at hx'
      cases hx'
      cases ev with
      | fail exc =>
        have he : (!t.state.2.pc.storing) = true := he
        obtain ⟨hpc, hp, hrow, hst⟩ := failStep_body hs (Bool.not_eq_true' _ ▸ he)
        exact h.interrupted hp rfl hrow hst (.inr ⟨_, hpc, length_failReason exc⟩)
      | cancel started unlinked =>
        obtain ⟨hpc, hrow, hst⟩ := cancelStep_body hs he
        exact h.interrupted he rfl hrow hst (.inl ⟨hpc, rfl⟩)
      | _ => exact h.body hw₀ (bodyStep_of_runBody hs)
  · rintro x' he'
    cases he'

theorem runInv_of_steps (hs : (recordedRun H).init s) (h : (recordedRun H).Steps StoresKept s t) :
    RunInv s.state.1 t.state.1 t.state.2.pc t.record := by
  obtain ⟨⟨hrow, hnew⟩, hstart⟩ := hs
  refine h.inv (I := fun u => RunInv s.state.1 u.state.1 u.state.2.pc u.record)
    (fun _ _ _ hu he hstep => runInv_step hu hrow he hstep) ?_
  rw [hnew, hstart]
  exact ⟨.trying rfl rfl rfl rfl nofun, rfl, rfl, nofun⟩

/-! ## The end -/

theorem RunInv.agrees (h : RunInv w₀ w pc x) (hend : pc.ended = true) : Agrees w := by
  have hrow := h.row
  have hstep := h.step
  have hfailed : x.ShowsFailed → x.lastStatus = some .failed → Agrees w := by
    rintro ⟨k, reason, hsets, hr⟩ hlast
    rw [hsets, List.getLast?_concat] at hstep
    rw [hlast] at hrow
    exact .inr ⟨hrow, reason, hstep, hr⟩
  cases h.stage with
  | succeeded hsets hlast =>
    rw [hsets] at hstep
    rw [hlast] at hrow
    exact .inl ⟨hrow, hstep⟩
  | failed hsets hlast => exact hfailed hsets hlast
  | cancelled hsets hlast => exact hfailed hsets hlast
  | trying hp =>
    rw [ended_iff_phase.mp hend] at hp
    cases hp
  | _ => cases hend

theorem sets_steps {k : Nat} : (firstEntries k).map ProcessingState.step = stepOrder.take k := by
  rw [firstEntries, List.map_map]
  exact List.map_id _

/-- The steps that have been set. -/
theorem RunStage.steps (h : RunStage pc x) : ∃ k, x.sets.map ProcessingState.step = stepOrder.take k ∨
    x.sets.map ProcessingState.step = stepOrder.take k ++ [.failed] := by
  have hfailed : x.ShowsFailed → ∃ k, x.sets.map ProcessingState.step = stepOrder.take k ∨
      x.sets.map ProcessingState.step = stepOrder.take k ++ [.failed] := by
    rintro ⟨k, reason, hsets, -⟩
    exact ⟨k, .inr (by rw [hsets, List.map_append, sets_steps]; rfl)⟩
  cases h with
  | trying _ hsets | cancelSet hsets | failSet hsets | succeeded hsets =>
    exact ⟨_, .inl (by rw [hsets, sets_steps])⟩
  | cancelUpd hsets | failUpd hsets | failed hsets | cancelled hsets => exact hfailed hsets

theorem sound_firstEntries {k : Nat} {e : ProcessingState} (he : e ∈ firstEntries k) : e.Sound := by
  obtain ⟨step, -, rfl⟩ := List.mem_map.mp he
  exact fun h => absurd rfl h

/-- An entry with a reason shows the failure. -/
theorem RunStage.sound (h : RunStage pc x) : ∀ e ∈ x.sets, e.Sound := by
  have hfailed : x.ShowsFailed → ∀ e ∈ x.sets, e.Sound := by
    rintro ⟨k, reason, hsets, -⟩ e he
    rw [hsets] at he
    rcases List.mem_append.mp he with he | he
    · exact sound_firstEntries he
    · rw [List.mem_singleton.mp he]
      exact fun _ => rfl
  cases h with
  | trying _ hsets | cancelSet hsets | failSet hsets | succeeded hsets =>
    intro e he
    rw [hsets] at he
    exact sound_firstEntries he
  | cancelUpd hsets | failUpd hsets | failed hsets | cancelled hsets => exact hfailed hsets

theorem RunInv.sound (h : RunInv w₀ w pc x) (hw₀ : ∀ e ∈ w₀.step, e.Sound) : ∀ e ∈ w.step, e.Sound := by
  intro e he
  rw [h.step] at he
  cases hlast : x.sets.getLast? with
  | none => exact hw₀ e (by rwa [hlast, Option.none_or] at he)
  | some entry =>
    rw [hlast] at he
    cases he
    exact h.stage.sound _ (List.mem_of_getLast? hlast)

/-- A run is left by its return, or by a cancellation that it has received. -/
theorem RunStage.propagates (h : RunStage pc x) (hend : pc.ended = true) :
    pc = .returned ∨ pc = .cancelled ∧ x.cancelled = true := by
  cases h with
  | succeeded | failed => exact .inl rfl
  | cancelled _ _ hc => exact .inr ⟨rfl, hc⟩
  | trying hp =>
    rw [ended_iff_phase.mp hend] at hp
    cases hp
  | _ => cases hend

end

/-- A run of `process_persona` ends in agreement, whatever its steps raise and wherever it is cancelled. -/
theorem endsInAgreement (H : Host) (s t : Extended (PersonaWorld × Run) RunRecord) (hs : (recordedRun H).init s)
    (h : (recordedRun H).Steps StoresKept s t) : EndsInAgreement s t := by
  have hinv := runInv_of_steps hs h
  exact ⟨hinv.agrees, hinv.ready, hinv.stage.steps, hinv.step, hinv.sound, hinv.stage.propagates⟩

/-- A run that is cancelled when it has set `READY`. -/
theorem endsInAgreement_cancelled : ∃ s t, (recordedRun sampleHost).init s ∧
    (recordedRun sampleHost).Steps StoresKept s t ∧ t.state.2.pc = .cancelled ∧
      t.record.updates.map StatusUpdate.status = [.processing, .ready, .failed] ∧ EndsInAgreement s t := by
  have h : ((recordedRun sampleHost).exec StoresKept ⟨(uploadedPersona, Run.new), (recorded sampleHost).start⟩
      (List.map RunOrOther.run (runToTrim ++ [.spawned, .output false ⟨12, .bytes riff⟩, .exit 0,
        .communicated cleanTrim] ++ runFromText ++ [.cancel false fun _ => true, .lock none, .apply 0,
        .resume]))).any (fun t =>
        t.state.2.pc = .cancelled ∧ t.record.updates.map StatusUpdate.status = [.processing, .ready, .failed]) =
      true := by
    decide +kernel
  obtain ⟨t, hsteps, ht⟩ := System.exists_of_exec h
  obtain ⟨hpc, hupdates⟩ := of_decide_eq_true ht
  have hinit : (recordedRun sampleHost).init ⟨(uploadedPersona, Run.new), (recorded sampleHost).start⟩ :=
    ⟨⟨rfl, rfl⟩, rfl⟩
  exact ⟨_, t, hinit, hsteps, hpc, hupdates, endsInAgreement _ _ t hinit hsteps⟩

end YeounEngine
