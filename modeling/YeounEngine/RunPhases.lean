import YeounEngine.PersonaCreation
import Mathlib.Tactic.Common

/-!
# The phases of a run

What a run of `process_persona` does to the two places that `POST /process` looks at, the status
of the row and the step that is shown. The abstract model is `PhaseStep`: a run opens (it shows
`pending`), claims the persona (`PROCESSING`), works, finishes (it shows `ready`, then sets
`READY`), or fails on the way (it shows `failed`, then sets `FAILED`). `runStep_phase` is the
simulation: every step of the pipeline is a step of that model.
-/

namespace YeounEngine

/-- How far a run is, as far as status and step are concerned. -/
inductive Phase
  | scheduled
  | opening
  | claiming
  | working
  | finishing
  | finished
  | failing
  | closing
  | closed
  | ended
  deriving DecidableEq, Repr

/-- The phase of each state of the pipeline. -/
def RunPc.phase : RunPc → Phase
  | .scheduled => .scheduled
  | .setPending => .opening
  | .updProcessing false => .claiming
  | .updProcessing true | .setSelecting | .setExtracting | .spawning | .ffmpeg _ | .setTranscribing
  | .waitingGpu | .transcribing _ | .setRendering | .waitingDitto _ | .rendering _ | .inserting _ _
  | .setReady => .working
  | .updReady false => .finishing
  | .updReady true => .finished
  | .cancelSet | .failSet _ => .failing
  | .cancelUpd false | .failUpd false => .closing
  | .cancelUpd true | .failUpd true => .closed
  | .returned | .cancelled | .raised _ | .killed => .ended

theorem ended_iff_phase {pc : RunPc} : pc.ended = true ↔ pc.phase = .ended := by
  cases pc <;> simp only [RunPc.ended, RunPc.phase, reduceCtorEq]
  all_goals rename_i a; cases a <;> simp

/-- A run finishes at one place. -/
theorem eq_of_finishing {pc : RunPc} (h : pc.phase = .finishing) : pc = .updReady false := by
  cases pc with
  | updReady applied => cases applied <;> first | rfl | cases h
  | updProcessing applied | cancelUpd applied | failUpd applied => cases applied <;> cases h
  | _ => cases h

/-- And it claims the persona at one place. -/
theorem eq_of_claiming {pc : RunPc} (h : pc.phase = .claiming) : pc = .updProcessing false := by
  cases pc with
  | updProcessing applied => cases applied <;> first | rfl | cases h
  | updReady applied | cancelUpd applied | failUpd applied => cases applied <;> cases h
  | _ => cases h

/-- The phases inside the `try` body. -/
def Phase.inBody : Phase → Bool
  | .opening | .claiming | .working | .finishing | .finished => true
  | _ => false

/-- `in_progress` of `start_processing`. -/
def PersonaWorld.shown (w : PersonaWorld) : Bool := w.step.any fun s => s.step.inProgress

/-- The abstract run: the status of the row, whether a step in progress is shown, and the phase, before
and after. A run gives up, in a handler, only when the handler is interrupted. -/
inductive PhaseStep (interrupted : Bool) (row : Option Status) :
    Bool → Phase → Option Status → Bool → Phase → Prop
  | start {b} : PhaseStep interrupted row b .scheduled row b .opening
  | begin {b} : PhaseStep interrupted row b .opening row true .claiming
  | claim {b} : PhaseStep interrupted row b .claiming (row.map fun _ => .processing) b .working
  | work {b b'} (h : b' = b ∨ b' = true) : PhaseStep interrupted row b .working row b' .working
  | finish {b} : PhaseStep interrupted row b .working row false .finishing
  | ready {b} : PhaseStep interrupted row b .finishing (row.map fun _ => .ready) b .finished
  | abort {b b' p} (hp : p.inBody = true) (h : b' = b ∨ p = .working ∧ b' = true) :
      PhaseStep interrupted row b p row b' .failing
  | fail {b} : PhaseStep interrupted row b .failing row false .closing
  | close {b} : PhaseStep interrupted row b .closing (row.map fun _ => .failed) b .closed
  | finished {b} : PhaseStep interrupted row b .finished row b .ended
  | leave {b p} (hp : p = .scheduled ∨ p = .closed) : PhaseStep interrupted row b p row b .ended
  | giveUp {b p} (hi : interrupted = true) (hp : p = .failing ∨ p = .closing) :
      PhaseStep interrupted row b p row b .ended

/-! ## Interruptions -/

/-- What an `await` that raises or is cancelled does: in the body the run goes to a handler, with ffmpeg
or a render of Ditto left running if it was there; elsewhere the run ends. -/
inductive Interrupted (w : PersonaWorld) (r : Run) : PersonaWorld × Run → Prop
  | body {pc} (hp : r.pc.phase.inBody = true) (hpc : pc.phase = .failing) :
      Interrupted w r (w, r.goto pc)
  | trimming {pc voice} (hr : r.pc = .ffmpeg none) (hv : r.voice = some voice)
      (hpc : pc.phase = .failing) : Interrupted w r (w.leave (.ffmpeg voice), r.goto pc)
  | rendering {pc i photo unlinked} (hr : r.pc = .rendering i) (hp : r.photo = some photo)
      (hpc : pc.phase = .failing) : Interrupted w r
        ((idleFailed w i true unlinked).leave (.idleRender photo (idleName i)), r.goto pc)
  | ended {pc} (hp : r.pc.phase = .scheduled ∨ r.pc.phase = .failing ∨ r.pc.phase = .closing ∨
      r.pc.phase = .closed) (hpc : pc.ended = true) : Interrupted w r (w, r.goto pc)

section
variable {H : Host} {w : PersonaWorld} {r : Run} {out : PersonaWorld × Run}

theorem interrupted_leaveFfmpeg {rc : Option Int} {pc : RunPc} (hr : r.pc = .ffmpeg rc)
    (hpc : pc.phase = .failing) : Interrupted w r (leaveFfmpeg w r rc, r.goto pc) := by
  have hbody : r.pc.phase.inBody = true := by rw [hr]; rfl
  cases rc with
  | some rc => exact .body hbody hpc
  | none =>
    cases hv : r.voice with
    | none =>
      rw [leaveFfmpeg, hv]
      exact .body hbody hpc
    | some voice =>
      rw [leaveFfmpeg, hv]
      exact .trimming hr hv hpc

theorem interrupted_of_fail {e : Exc} (h : failStep w r e = some out) : Interrupted w r out := by
  obtain ⟨pc, voice, photo⟩ := r
  cases pc <;> simp only [failStep, Option.some.injEq, reduceCtorEq] at h <;> subst h
  case updProcessing applied => cases applied <;> exact .body rfl rfl
  case updReady applied => cases applied <;> exact .body rfl rfl
  case ffmpeg rc => exact interrupted_leaveFfmpeg rfl rfl
  case cancelSet => exact .ended (.inr (.inl rfl)) rfl
  case failSet => exact .ended (.inr (.inl rfl)) rfl
  case cancelUpd applied =>
    cases applied with
    | false => exact .ended (.inr (.inr (.inl rfl))) rfl
    | true => exact .ended (.inr (.inr (.inr rfl))) rfl
  case failUpd applied =>
    cases applied with
    | false => exact .ended (.inr (.inr (.inl rfl))) rfl
    | true => exact .ended (.inr (.inr (.inr rfl))) rfl
  all_goals exact .body rfl rfl

theorem interrupted_of_cancel {started : Bool} {unlinked : String → Bool}
    (h : cancelStep w r started unlinked = some out) : Interrupted w r out := by
  obtain ⟨pc, voice, photo⟩ := r
  cases pc <;> simp only [cancelStep, Option.some.injEq, reduceCtorEq, Option.map_eq_some_iff] at h
  case rendering i =>
    obtain ⟨p, rfl, rfl⟩ := h
    cases started with
    | false => exact .body rfl rfl
    | true => exact .rendering rfl rfl rfl
  all_goals subst h
  case updProcessing applied => cases applied <;> exact .body rfl rfl
  case updReady applied => cases applied <;> exact .body rfl rfl
  case ffmpeg rc => exact interrupted_leaveFfmpeg rfl rfl
  case scheduled => exact .ended (.inl rfl) rfl
  case cancelSet => exact .ended (.inr (.inl rfl)) rfl
  case failSet => exact .ended (.inr (.inl rfl)) rfl
  case cancelUpd applied =>
    cases applied with
    | false => exact .ended (.inr (.inr (.inl rfl))) rfl
    | true => exact .ended (.inr (.inr (.inr rfl))) rfl
  case failUpd applied =>
    cases applied with
    | false => exact .ended (.inr (.inr (.inl rfl))) rfl
    | true => exact .ended (.inr (.inr (.inr rfl))) rfl
  all_goals exact .body rfl rfl

/-- An interrupted run is in a handler, or over. -/
theorem Interrupted.stopped (h : Interrupted w r out) {motive : RunPc → Prop}
    (cancelSet : motive .cancelSet) (failSet : ∀ reason, motive (.failSet reason))
    (returned : motive .returned) (cancelled : motive .cancelled) (raised : ∀ e, motive (.raised e))
    (killed : motive .killed) : motive out.2.pc := by
  have hpc : out.2.pc.phase = .failing ∨ out.2.pc.ended = true := by
    cases h with
    | body _ hpc | trimming _ _ hpc | rendering _ _ hpc => exact .inl hpc
    | ended _ hpc => exact .inr hpc
  generalize out.2.pc = pc at hpc
  cases pc with
  | cancelSet => exact cancelSet
  | failSet reason => exact failSet reason
  | returned => exact returned
  | cancelled => exact cancelled
  | raised e => exact raised e
  | killed => exact killed
  | updProcessing applied | updReady applied | cancelUpd applied | failUpd applied =>
    cases applied <;> simp [RunPc.phase, RunPc.ended] at hpc
  | _ => simp [RunPc.phase, RunPc.ended] at hpc

/-- Inversion of a run. -/
theorem runStep_cases {ev : RunEvent} (h : runStep H w r ev = some out) :
    BodyStep H w r r.pc ev out ∨ ev.interrupts = true ∧ Interrupted w r out := by
  cases ev with
  | fail e => exact .inr ⟨rfl, interrupted_of_fail h⟩
  | cancel started unlinked => exact .inr ⟨rfl, interrupted_of_cancel h⟩
  | _ => exact .inl (bodyStep_of_runBody h)

end

/-! ## The control flow -/

/-- Where the success path leads, from one `await` to the next. -/
inductive RunEdge : RunPc → RunPc → Prop
  | start : RunEdge .scheduled .setPending
  | pending : RunEdge .setPending (.updProcessing false)
  | claim : RunEdge (.updProcessing false) (.updProcessing true)
  | claimed : RunEdge (.updProcessing true) .setSelecting
  | selected : RunEdge .setSelecting .setExtracting
  | audioKept : RunEdge .setExtracting .setTranscribing
  | spawn : RunEdge .setExtracting .spawning
  | spawned : RunEdge .spawning (.ffmpeg none)
  | trimOutput : RunEdge (.ffmpeg none) (.ffmpeg none)
  | trimExit {rc : Int} : RunEdge (.ffmpeg none) (.ffmpeg (some rc))
  | trimmed {rc : Int} : RunEdge (.ffmpeg (some rc)) .setTranscribing
  | textKept : RunEdge .setTranscribing .setRendering
  | waitGpu : RunEdge .setTranscribing .waitingGpu
  | acquireGpu {audio} : RunEdge .waitingGpu (.transcribing audio)
  | transcribed {audio} : RunEdge (.transcribing audio) .setRendering
  | firstClip {fs} : RunEdge .setRendering (nextClip fs 0)
  | acquireDitto {i} : RunEdge (.waitingDitto i) (.rendering i)
  | renderOutput {i} : RunEdge (.rendering i) (.rendering i)
  | nextClip {fs i} : RunEdge (.rendering i) (nextClip fs (i + 1))
  | insert {i} : RunEdge (.inserting i false) (.inserting i true)
  | nextRow {i} (hi : i + 1 < idleCount) : RunEdge (.inserting i true) (.inserting (i + 1) false)
  | lastRow {i} (hi : ¬ i + 1 < idleCount) : RunEdge (.inserting i true) .setReady
  | ready : RunEdge .setReady (.updReady false)
  | setReady : RunEdge (.updReady false) (.updReady true)
  | done : RunEdge (.updReady true) .returned
  | fail {pc reason} (hp : pc.phase = .working) : RunEdge pc (.failSet reason)
  | cancelSet : RunEdge .cancelSet (.cancelUpd false)
  | cancelUpd : RunEdge (.cancelUpd false) (.cancelUpd true)
  | cancelDone : RunEdge (.cancelUpd true) .cancelled
  | failSet {reason} : RunEdge (.failSet reason) (.failUpd false)
  | failUpd : RunEdge (.failUpd false) (.failUpd true)
  | failDone : RunEdge (.failUpd true) .returned

section
variable {H : Host} {w : PersonaWorld} {r : Run} {pc : RunPc}

theorem runEdge_orFail {fault : Option Exc} {k : PersonaWorld × Run} (hp : pc.phase = .working)
    (h : RunEdge pc k.2.pc) : RunEdge pc (orFail w r fault k).2.pc := by
  cases fault with
  | some e => exact .fail hp
  | none => exact h

theorem runEdge_finishTrim {rc : Int} {a : AfterTrim} :
    RunEdge (.ffmpeg (some rc)) (finishTrim H w r rc a).2.pc := by
  rw [finishTrim]
  split
  · exact .fail rfl
  · refine runEdge_orFail rfl ?_
    dsimp only
    split
    · exact runEdge_orFail rfl .trimmed
    · exact .trimmed

theorem runEdge_transcribeVoice : RunEdge .setTranscribing (transcribeVoice H w r).2.pc := by
  rw [transcribeVoice]
  split
  · split
    · exact .textKept
    · exact .fail rfl
  · exact .waitGpu

/-- The success path follows an edge. -/
theorem BodyStep.edge {ev : RunEvent} {out : PersonaWorld × Run} (h : BodyStep H w r pc ev out) :
    RunEdge pc out.2.pc := by
  cases h with
  | start => exact .start
  | pending => exact .pending
  | claim => exact .claim
  | claimed => exact .claimed
  | select =>
    refine runEdge_orFail rfl ?_
    rw [selectVoice]
    split
    · exact .fail rfl
    · exact .selected
  | extract =>
    refine runEdge_orFail rfl ?_
    rw [prepareVoiceRef]
    split
    · exact .audioKept
    · exact .spawn
  | spawned => exact .spawned
  | trimOutput => exact .trimOutput
  | trimExit => exact .trimExit
  | trimDone => exact runEdge_finishTrim
  | transcribe => exact runEdge_orFail rfl runEdge_transcribeVoice
  | acquireGpu => exact .acquireGpu
  | transcribed =>
    rw [saveRefText]
    split
    · exact .fail rfl
    · exact .transcribed
  | render =>
    refine runEdge_orFail rfl ?_
    rw [renderIdleClips]
    split
    · exact .fail rfl
    · exact .firstClip
  | acquireDitto => exact .acquireDitto
  | renderSpawned | renderOutput => exact .renderOutput
  | rendered => exact runEdge_orFail rfl .nextClip
  | renderFailed => exact .fail rfl
  | insert => exact .insert
  | inserted =>
    dsimp only [Run.goto]
    split
    · rename_i hi; exact .nextRow hi
    · rename_i hi; exact .lastRow hi
  | ready => exact .ready
  | setReady => exact .setReady
  | done => exact .done
  | cancelSet => exact .cancelSet
  | cancelUpd => exact .cancelUpd
  | cancelDone => exact .cancelDone
  | failSet => exact .failSet
  | failUpd => exact .failUpd
  | failDone => exact .failDone

end

/-! ## The segments write files only -/

/-- Nothing but files has changed. -/
def OnlyFiles (w w' : PersonaWorld) : Prop := w' = { w with files := w'.files }

/-- A segment of the working phase: it writes files only, and the run works on or fails. -/
def Works (w : PersonaWorld) (out : PersonaWorld × Run) : Prop :=
  OnlyFiles w out.1 ∧ (out.2.pc.phase = .working ∨ out.2.pc.phase = .failing)

section
variable {H : Host} {w w' : PersonaWorld} {r r' : Run}

theorem works_failed {e : Exc} (h : OnlyFiles w w') : Works w (w', r.failed e) := ⟨h, .inr rfl⟩

theorem works_goto {pc : RunPc} (hpc : pc.phase = .working) (h : OnlyFiles w w') :
    Works w (w', r.goto pc) :=
  ⟨h, .inl hpc⟩

theorem works_orFail {fault : Option Exc} {k : PersonaWorld × Run} (h : Works w k) :
    Works w (orFail w r fault k) := by
  cases fault with
  | some e => exact works_failed rfl
  | none => exact h

theorem works_selectVoice : Works w (selectVoice H w r) := by
  rw [selectVoice]
  split
  · exact works_failed rfl
  · exact ⟨rfl, .inl rfl⟩

theorem works_prepareVoiceRef : Works w (prepareVoiceRef w r) := by
  rw [prepareVoiceRef]
  split
  · exact works_goto rfl rfl
  · exact works_goto rfl rfl

theorem works_finishTrim {rc : Int} {a : AfterTrim} : Works w (finishTrim H w r rc a) := by
  rw [finishTrim]
  split
  · exact works_failed (by split <;> rfl)
  · refine works_orFail ?_
    dsimp only
    split
    · cases a.refTextFault with
      | some e => exact works_failed rfl
      | none => exact works_goto rfl rfl
    · exact works_goto rfl rfl

theorem works_transcribeVoice : Works w (transcribeVoice H w r) := by
  rw [transcribeVoice]
  split
  · split
    · exact works_goto rfl rfl
    · exact works_failed rfl
  · exact works_goto rfl rfl

theorem works_saveRefText {audio : Option Content} {text : String} {a : AfterTranscribe} :
    Works w (saveRefText w r audio text a) := by
  rw [saveRefText]
  split
  · rename_i e left _
    exact works_failed (by cases left <;> rfl)
  · exact works_goto rfl rfl

theorem phase_nextClip {fs : Files} {i : Nat} : (nextClip fs i).phase = .working := by
  rw [nextClip]
  split <;> rfl

theorem works_renderIdleClips : Works w (renderIdleClips H w r) := by
  rw [renderIdleClips]
  split
  · exact works_failed rfl
  · exact ⟨rfl, .inl phase_nextClip⟩

/-- A segment of the working phase that comes after a step has been shown. -/
theorem PhaseStep.of_works {i b : Bool} {out : PersonaWorld × Run} (h : Works w out)
    (hb : w.shown = b ∨ w.shown = true) :
    PhaseStep i w.row b .working out.1.row out.1.shown out.2.pc.phase := by
  obtain ⟨hfiles, hpc⟩ := h
  have hrow : out.1.row = w.row := by rw [hfiles]
  have hshown : out.1.shown = w.shown := by rw [hfiles]; rfl
  rw [hrow, hshown]
  rcases hpc with hpc | hpc
  · rw [hpc]; exact .work hb
  · rw [hpc]; exact .abort rfl (hb.imp id fun h => ⟨rfl, h⟩)

/-! ## The simulation -/

/-- An interruption of the run. -/
theorem Interrupted.phase {out : PersonaWorld × Run} (h : Interrupted w r out) :
    PhaseStep true w.row w.shown r.pc.phase out.1.row out.1.shown out.2.pc.phase := by
  cases h with
  | @body pc hp hpc =>
    rw [show (r.goto pc).pc.phase = .failing from hpc]
    exact .abort hp (.inl rfl)
  | @trimming pc voice hr _ hpc =>
    rw [show (r.goto pc).pc.phase = .failing from hpc, hr]
    exact .abort rfl (.inl rfl)
  | @rendering pc i photo unlinked hr _ hpc =>
    rw [show (r.goto pc).pc.phase = .failing from hpc, hr]
    exact .abort rfl (.inl rfl)
  | @ended pc hp hpc =>
    rw [show (r.goto pc).pc.phase = .ended from ended_iff_phase.mp hpc]
    rcases hp with hp | hp | hp | hp
    · exact .leave (.inl hp)
    · exact .giveUp rfl (.inl hp)
    · exact .giveUp rfl (.inr hp)
    · exact .leave (.inr hp)

/-- An interrupted run does not go on with its work. -/
theorem Interrupted.ne_working {out : PersonaWorld × Run} (h : Interrupted w r out) :
    out.2.pc.phase ≠ .working := by
  cases h with
  | body _ hpc | trimming _ _ hpc | rendering _ _ hpc => simp [Run.goto, hpc]
  | ended _ hpc => simp [Run.goto, ended_iff_phase.mp hpc]

/-- A segment that shows its step first. -/
theorem PhaseStep.of_works_shown {i : Bool} {step : ProcessingStep} {out : PersonaWorld × Run}
    (hs : step.inProgress = true) (h : Works (w.setStep step none) out) :
    PhaseStep i w.row w.shown .working out.1.row out.1.shown out.2.pc.phase :=
  .of_works (w := w.setStep step none) h (.inr hs)

/-- The success path. -/
theorem BodyStep.phase {i : Bool} {pc : RunPc} {ev : RunEvent} {out : PersonaWorld × Run}
    (h : BodyStep H w r pc ev out) :
    PhaseStep i w.row w.shown pc.phase out.1.row out.1.shown out.2.pc.phase := by
  cases h with
  | start => exact .start
  | pending => exact .begin
  | claim => exact .claim
  | ready => exact .finish
  | setReady => exact .ready
  | done => exact .finished
  | cancelSet => exact .fail
  | cancelUpd => exact .close
  | cancelDone => exact .leave (.inr rfl)
  | failSet => exact .fail
  | failUpd => exact .close
  | failDone => exact .leave (.inr rfl)
  | select => exact .of_works_shown rfl (works_orFail works_selectVoice)
  | extract => exact .of_works_shown rfl (works_orFail works_prepareVoiceRef)
  | transcribe => exact .of_works_shown rfl (works_orFail works_transcribeVoice)
  | render => exact .of_works_shown rfl (works_orFail works_renderIdleClips)
  | trimDone => exact .of_works works_finishTrim (.inl rfl)
  | transcribed => exact .of_works works_saveRefText (.inl rfl)
  | rendered =>
    exact .of_works (w := idleRendered w _ _ _) (works_orFail (works_goto phase_nextClip rfl))
      (.inl rfl)
  | renderFailed =>
    exact .of_works (works_failed (by rw [idleFailed]; split <;> rfl)) (.inl rfl)
  | inserted =>
    refine .of_works (works_goto ?_ rfl) (.inl rfl)
    split <;> rfl
  | claimed | spawned | trimOutput | trimExit | acquireGpu | acquireDitto | renderSpawned | renderOutput | insert =>
    exact .work (.inl rfl)

/-- The success path leaves nothing running. -/
theorem BodyStep.orphans {pc : RunPc} {ev : RunEvent} {out : PersonaWorld × Run}
    (h : BodyStep H w r pc ev out) : out.1.orphans = w.orphans := by
  have of_works : ∀ (v : PersonaWorld) {out : PersonaWorld × Run}, Works v out →
      out.1.orphans = v.orphans := fun v out hw => by rw [hw.1]
  cases h with
  | select => exact of_works (w.setStep _ _) (works_orFail works_selectVoice)
  | extract => exact of_works (w.setStep _ _) (works_orFail works_prepareVoiceRef)
  | transcribe => exact of_works (w.setStep _ _) (works_orFail works_transcribeVoice)
  | render => exact of_works (w.setStep _ _) (works_orFail works_renderIdleClips)
  | trimDone => exact of_works w works_finishTrim
  | transcribed => exact of_works w works_saveRefText
  | rendered =>
    exact of_works (idleRendered w _ _ _) (works_orFail (works_goto phase_nextClip rfl))
  | renderFailed => rw [idleFailed]; split <;> rfl
  | _ => rfl

/-- Every step of the pipeline is a step of the abstract run. -/
theorem runStep_phase {ev : RunEvent} (h : runStep H w r ev = some (w', r')) :
    PhaseStep ev.interrupts w.row w.shown r.pc.phase w'.row w'.shown r'.pc.phase := by
  rcases runStep_cases h with h | ⟨hi, h⟩
  · exact h.phase
  · rw [hi]
    exact h.phase

end

/-! ## What the abstract run keeps -/

section
variable {i : Bool} {row row' : Option Status} {b b' : Bool} {p p' : Phase}

/-- A run that takes a step has not ended. -/
theorem PhaseStep.ne_ended (h : PhaseStep i row b p row' b' p') : p ≠ .ended := by
  rintro rfl
  cases h with
  | abort hp => cases hp
  | leave hp => simp at hp
  | giveUp _ hp => simp at hp

/-- Only a claim sets `PROCESSING`. -/
theorem PhaseStep.processing (h : PhaseStep i row b p row' b' p') (hr : row' = some .processing) :
    row = some .processing ∨ p = .claiming := by
  cases h with
  | claim => exact .inr rfl
  | ready | close => obtain ⟨_, -, hr⟩ := Option.map_eq_some_iff.mp hr; cases hr
  | _ => exact .inl hr

/-- Only a run that finishes sets `READY`. -/
theorem PhaseStep.ready_cases (h : PhaseStep i row b p row' b' p') (hr : row' = some .ready) :
    row = some .ready ∨ p = .finishing := by
  cases h with
  | ready => exact .inr rfl
  | claim | close => obtain ⟨_, -, hr⟩ := Option.map_eq_some_iff.mp hr; cases hr
  | _ => exact .inl hr

/-- A run that works leaves the row alone. -/
theorem PhaseStep.row_of_working (h : PhaseStep i row b .working row' b' p') : row' = row := by
  cases h <;> rfl

/-- A run works on a row that is not `READY`: it has claimed it. -/
theorem PhaseStep.claimed (h : PhaseStep i row b p row' b' p')
    (hrow : p = .working ∨ p = .finishing → row ≠ some .ready)
    (hp : p' = .working ∨ p' = .finishing) : row' ≠ some .ready := by
  cases h with
  | claim => cases row <;> simp
  | work | finish => exact hrow (.inl rfl)
  | start | begin | ready | abort | fail | close | finished | leave | giveUp => simp at hp

/-- The phases in which the run will still set a final status. -/
def Phase.owes : Phase → Bool
  | .opening | .claiming | .working | .finishing | .failing | .closing => true
  | _ => false

/-- A run that owes a final status owes it until it sets it, unless a handler is interrupted. -/
theorem PhaseStep.owes (h : PhaseStep i row b p row' b' p') (hp : p.owes = true)
    (hi : i = true → p ≠ .failing ∧ p ≠ .closing) (hr : row' = some .processing) :
    p'.owes = true := by
  cases h with
  | ready | close => obtain ⟨_, -, hr⟩ := Option.map_eq_some_iff.mp hr; cases hr
  | finished => cases hp
  | leave h => rcases h with rfl | rfl <;> cases hp
  | giveUp hint h => rcases h with rfl | rfl <;> simp [hint] at hi
  | _ => rfl

end

end YeounEngine
