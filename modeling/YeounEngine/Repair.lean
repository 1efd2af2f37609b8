import YeounEngine.Lib.Possibility
import YeounEngine.Progress
import YeounEngine.StrayMedia
import YeounEngine.UploadAcceptance
import YeounEngine.VoiceRef

/-!
# A persona that can be repaired

Whatever has happened to a persona, can it still become `READY`? A row that is gone does not come back, and a row that
says `PROCESSING` turns every request away, so it waits for a run that is there or for a `/process` that has read an
earlier row (`PersonaTask.revives`). Without one of these it is lost, and stays so (`Lost.next`).

A persona that is not lost is repaired by its owner: the run that claims it fails, the worker is started again, and a
new photo, a new voice and a `/process` lead to `READY` (`ready_again_iff`). The new run finds what earlier ones have
left behind, so it needs what every run keeps (`Fixable`), and its own way to the end (`OnTrack`).
-/

namespace YeounEngine

open Transition

/-! ## The property -/

/-- The request can still lead to a status: its run has not set one yet, or it is about to be accepted. -/
def PersonaTask.revives (w : PersonaWorld) : PersonaTask → Bool
  | .process (.getting (some row)) => (startProcessing w.id row w.step).isNone
  | .process (.accepted r) => r.pc.phase ≠ .closed && !r.pc.ended
  | _ => false

/-- The row is gone, or it says `PROCESSING` and no request is left that could set it. -/
def Lost (p : Pool PersonaWorld PersonaTask) : Prop :=
  p.world.row = none ∨ p.world.row = some .processing ∧ ∀ t ∈ p.tasks, t.revives p.world = false

/-! ## What is lost stays lost -/

section
variable {H : Host} {w w' : PersonaWorld} {t t' u : PersonaTask} {e : PersonaEvent}

/-- A row that is gone does not come back. -/
theorem PhaseStep.none {i b b' : Bool} {row' : Option Status} {p p' : Phase}
    (h : PhaseStep i Option.none b p row' b' p') : row' = Option.none := by
  cases h <;> rfl

/-- On its way to a handler a run leaves the row alone. -/
theorem PhaseStep.row_of_failing {i b b' : Bool} {row row' : Option Status} {p p' : Phase}
    (h : PhaseStep i row b p row' b' p') (hp : p' = .failing) : row' = row := by
  cases h with
  | claim | ready | close => cases hp
  | _ => rfl

/-- A run that has set its status leaves. -/
theorem PhaseStep.of_closed {i b b' : Bool} {row row' : Option Status} {p p' : Phase}
    (h : PhaseStep i row b p row' b' p') (hp : p = .closed) : row' = row ∧ b' = b ∧ p' = .ended := by
  cases h with
  | leave => exact ⟨rfl, rfl, rfl⟩
  | abort h => rw [hp] at h; cases h
  | giveUp _ h => rw [hp] at h; simp at h
  | _ => cases hp

/-- Whether a `/process` is about to be accepted depends on the step that is shown. -/
theorem isNone_startProcessing {id : Uuid} {row : Option Status} {step : Option ProcessingState} :
    (startProcessing id row step).isNone =
      row.any fun status => !(step.any fun s => s.step.inProgress) && status ≠ .processing && status ≠ .ready := by
  cases row with
  | none => rfl
  | some status =>
    simp only [startProcessing, Option.any_some]
    cases step.any fun s => s.step.inProgress <;> cases status <;> rfl

/-- Nothing else of the world matters. -/
theorem PersonaTask.revives_of_shown (h : w'.shown = w.shown) : u.revives w' = u.revives w := by
  unfold PersonaTask.revives
  split
  · rw [isNone_startProcessing, isNone_startProcessing]
    rw [PersonaWorld.shown, PersonaWorld.shown] at h
    rw [h]
  · rfl
  · rfl

theorem PersonaTask.revives_of_arriving (h : t.arriving = true) : t.revives w = false := by
  unfold PersonaTask.arriving at h
  split at h
  · rfl
  · rfl
  · rfl
  · cases h

theorem PersonaTask.revives_kill : t.kill.revives w = false := by
  cases t with
  | upload req pc => cases pc <;> rfl
  | delete pc => cases pc <;> rfl
  | process pc =>
    cases pc with
    | accepted r =>
      rw [kill, revives]
      cases hr : r.pc.ended with
      | true => rw [if_pos rfl, hr, Bool.not_true, Bool.and_false]
      | false => rfl
    | _ => rfl

/-- A request that could not set a status takes a step on a row that says `PROCESSING`: it still cannot, and the step
that is shown is the same. -/
theorem revives_step (hs : personaStep H w t e = some (w', t')) (hrow : w.row = some .processing)
    (ht : t.revives w = false) :
    (w'.row = some .processing ∧ w'.shown = w.shown ∧ t'.revives w' = false) ∨ w'.row = none := by
  cases personaStep_inv hs with
  | upload h =>
    obtain ⟨hr, hst, -⟩ := h.keeps
    exact .inl ⟨hr.trans hrow, by rw [PersonaWorld.shown, hst, PersonaWorld.shown], rfl⟩
  | delete h =>
    obtain ⟨hr | hr, hst⟩ := h.keeps
    · exact .inl ⟨hr.trans hrow, by rw [PersonaWorld.shown, hst, PersonaWorld.shown], rfl⟩
    · exact .inr hr
  | process h =>
    cases h with
    | select =>
      refine .inl ⟨hrow, rfl, ?_⟩
      rw [PersonaTask.revives, hrow, startProcessing, if_pos (.inr (.inl rfl))]
      rfl
    | refused | failed | cancelled => exact .inl ⟨hrow, rfl, rfl⟩
    | accepted hg =>
      rw [PersonaTask.revives, hg] at ht
      cases ht
    | @run r _ _ r' hr =>
      -- the run is at its end: it leaves, and nothing else changes
      have hphase := runStep_phase hr
      have hclosed : r.pc.phase = .closed := by
        rw [PersonaTask.revives, Bool.and_eq_false_iff] at ht
        rcases ht with ht | ht
        · simpa using ht
        · rw [Bool.not_eq_false', ended_iff_phase] at ht
          exact absurd ht hphase.ne_ended
      obtain ⟨hr', hb, hp⟩ := hphase.of_closed hclosed
      refine .inl ⟨hr'.trans hrow, hb, ?_⟩
      rw [PersonaTask.revives, ended_iff_phase.mpr hp, Bool.not_true, Bool.and_false]

/-- What is lost stays lost. -/
theorem Lost.next {p q : Pool PersonaWorld PersonaTask} {ev : Event PersonaTask PersonaEvent PersonaEnv}
    (h : Lost p) (hstep : (personaCoop H).next p ev = some q) : Lost q := by
  refine Coop.next_cases hstep ?_ ?_ ?_
  · intro t _ harr
    refine h.imp_right fun ⟨hrow, htasks⟩ => ⟨hrow, fun u hu => ?_⟩
    rcases Pool.mem_append.mp hu with hu | rfl
    · exact htasks u hu
    · exact PersonaTask.revives_of_arriving harr
  · intro i e t w' t' _ hi hs
    have gone : p.world.row = none → w'.row = none := by
      intro hrow
      rcases personaStep_cases hs with ⟨r, r', rev, -, -, -, hphase⟩ | ⟨-, -, -, rfl⟩ | ⟨-, -, hr | hr, -⟩
      · rw [hrow] at hphase
        exact hphase.none
      · exact hrow
      · exact hr.trans hrow
      · exact hr
    rcases h with hrow | ⟨hrow, htasks⟩
    · exact .inl (gone hrow)
    · rcases revives_step hs hrow (htasks t (List.mem_of_getElem? hi)) with ⟨hr, hshown, ht'⟩ | hr
      · refine .inr ⟨hr, fun u hu => ?_⟩
        obtain ⟨j, hj⟩ := List.mem_iff_getElem?.mp hu
        rcases Pool.getElem?_set_cases hi hj with ⟨-, rfl⟩ | ⟨-, hj⟩
        · exact ht'
        · exact (PersonaTask.revives_of_shown hshown).trans (htasks u (List.mem_of_getElem? hj))
      · exact .inl hr
  · intro x w' _ hx
    cases x with
    | restart =>
      cases hx
      refine h.imp_right fun ⟨hrow, _⟩ => ⟨hrow, fun u hu => ?_⟩
      obtain ⟨u₀, -, rfl⟩ := List.mem_map.mp hu
      exact PersonaTask.revives_kill
    | orphan k act =>
      obtain ⟨hr, hst⟩ := (orphanStep_inv hx).keeps
      change Lost ⟨w', p.tasks.map (personaOnTask (.orphan k act))⟩
      rw [map_onTask_orphan]
      refine h.imp (hr.trans ·) fun ⟨hrow, htasks⟩ => ⟨hr.trans hrow, fun u hu => ?_⟩
      have hshown : w'.shown = p.world.shown := by rw [PersonaWorld.shown, hst, PersonaWorld.shown]
      exact (PersonaTask.revives_of_shown hshown).trans (htasks u hu)

theorem Lost.row_ne_ready {p : Pool PersonaWorld PersonaTask} (h : Lost p) : p.world.row ≠ some .ready := by
  rcases h with h | ⟨h, -⟩ <;> rw [h] <;> simp

end

/-! ## A run on its own -/

/-- `process_persona`, with nothing else going on. -/
def processSystem (H : Host) : System (PersonaWorld × Run) RunEvent := handler (runStep H)

/-- What a run can do on its own, it can do among other requests. -/
theorem can_of_run {H : Host} {init : PersonaWorld → Prop} {p : Pool PersonaWorld PersonaTask} {i : Nat} {r : Run}
    {P : PersonaWorld → Prop} (hi : p.tasks[i]? = some (.process (.accepted r)))
    (h : (processSystem H).Can (fun s => P s.1) (p.world, r)) : (personaSystem H init).Can (fun q => P q.world) p := by
  refine Coop.can_of_handler (fun r => .process (.accepted r)) (fun e => .process (.run e)) ?_ hi h
  intro w r e w' r' hs
  change personaStep H w (.process (.accepted r)) (.process (.run e)) = _
  rw [personaStep, processStep, hs]
  rfl

section
variable {H : Host} {w : PersonaWorld} {r : Run}

/-- A run in a handler sets `FAILED`. -/
theorem can_fail_of_handler (hrow : w.row.isSome = true) (hp : r.pc.phase = .failing ∨ r.pc.phase = .closing) :
    (processSystem H).Can (fun s => s.1.row = some .failed) (w, r) := by
  have hset : ∀ w : PersonaWorld, w.row.isSome = true → (w.updatePersonaStatus .failed).row = some .failed := by
    intro w h
    obtain ⟨status, hs⟩ := Option.isSome_iff_exists.mp h
    rw [PersonaWorld.updatePersonaStatus, hs]
    rfl
  obtain ⟨pc, voice, photo⟩ := r
  cases pc with
  | cancelSet | failSet =>
    exact .step (.lock none) rfl (.step (.apply 0) rfl (.now (hset _ hrow)))
  | cancelUpd applied | failUpd applied =>
    cases applied with
    | false => exact .step (.apply 0) rfl (.now (hset _ hrow))
    | true => rcases hp with hp | hp <;> cases hp
  | updProcessing applied | updReady applied => cases applied <;> rcases hp with hp | hp <;> cases hp
  | _ => rcases hp with hp | hp <;> cases hp

/-- An `await` of the body raises, and the run goes to a handler. -/
theorem exists_abort (hp : r.pc.phase.inBody = true) :
    ∃ ev w' r', runStep H w r ev = some (w', r') ∧ r'.pc.phase = .failing := by
  obtain ⟨pc, voice, photo⟩ := r
  cases pc with
  | waitingGpu | waitingDitto => exact ⟨.cancel false fun _ => true, _, _, rfl, rfl⟩
  | rendering i => exact ⟨.renderFailed notFound false fun _ => true, _, _, rfl, rfl⟩
  | scheduled | cancelSet | failSet | returned | cancelled | raised | killed => cases hp
  | cancelUpd applied | failUpd applied => cases applied <;> cases hp
  | _ => exact ⟨.fail notFound, _, _, rfl, rfl⟩

/-- A run that has not set a status can set `FAILED`. -/
theorem can_fail (hrow : w.row.isSome = true) (hclosed : r.pc.phase ≠ .closed) (hended : r.pc.phase ≠ .ended) :
    (processSystem H).Can (fun s => s.1.row = some .failed) (w, r) := by
  have body : ∀ {w r}, w.row.isSome = true → r.pc.phase.inBody = true →
      (processSystem H).Can (fun s => s.1.row = some .failed) (w, r) := by
    intro w r hrow hp
    obtain ⟨ev, w', r', hs, hp'⟩ := exists_abort (H := H) (w := w) hp
    have hrow' : w'.row = w.row := (runStep_phase hs).row_of_failing hp'
    exact .step ev hs (can_fail_of_handler (hrow' ▸ hrow) (.inl hp'))
  cases hphase : r.pc.phase with
  | scheduled =>
    have hs : runStep H w r .start = some (w, r.goto .setPending) := by
      obtain ⟨pc, voice, photo⟩ := r
      cases pc with
      | scheduled => rfl
      | updProcessing applied | updReady applied | cancelUpd applied | failUpd applied => cases applied <;> cases hphase
      | _ => cases hphase
    exact .step .start hs (body hrow rfl)
  | failing => exact can_fail_of_handler hrow (.inl hphase)
  | closing => exact can_fail_of_handler hrow (.inr hphase)
  | closed => exact absurd hphase hclosed
  | ended => exact absurd hphase hended
  | _ => exact body hrow (by rw [hphase]; rfl)

end

/-! ## What a run finds, and keeps -/

/-- A `ref_text.txt` is a text: a run that keeps it can read it. -/
def TextRef (fs : Files) : Prop :=
  ∀ file, fs.get .voiceRef refText = some file → ∃ s, file.content = .text s

/-- What a run needs of the persona: its row, a voice, a photo, and a readable text. -/
structure Fixable (w : PersonaWorld) : Prop where
  row : w.row.isSome = true
  voice : (w.files.newestIn .voice).isSome = true
  photo : (w.files.newestIn .photo).isSome = true
  text : TextRef w.files

section
variable {H : Host} {w w' : PersonaWorld} {r r' : Run} {fs fs' : Files}

/-- A change that writes no `ref_text.txt`, or a text there. -/
theorem TextRef.of_get (h : TextRef fs) (hget : ∀ file, fs'.get .voiceRef refText = some file →
    fs.get .voiceRef refText = some file ∨ ∃ s, file.content = .text s) : TextRef fs' :=
  fun file hfile => (hget file hfile).elim (h file) id

theorem TextRef.of_eq (h : TextRef fs) (heq : fs'.get .voiceRef refText = fs.get .voiceRef refText) : TextRef fs' :=
  h.of_get fun _ hfile => .inl (heq ▸ hfile)

theorem TextRef.of_dir (h : TextRef fs) (hdir : fs'.dir .voiceRef = fs.dir .voiceRef) : TextRef fs' :=
  h.of_eq (get_of_dir hdir)

theorem TextRef.write (h : TextRef fs) {f : Folder} {name : String} {file : File}
    (hfile : f = .voiceRef → name = refText → ∃ s, file.content = .text s) : TextRef (fs.write f name file) := by
  refine h.of_get fun file' hget => ?_
  rcases get_write_cases hget with ⟨hf, hname, rfl⟩ | hget
  · exact .inr (hfile hf.symm hname.symm)
  · exact .inl hget

theorem TextRef.mkdir (h : TextRef fs) {f : Folder} : TextRef (fs.mkdir f) := h.of_eq get_mkdir

theorem TextRef.shrinks (h : TextRef fs) (hd : DirShrinks (fs.dir .voiceRef) (fs'.dir .voiceRef)) : TextRef fs' := by
  refine h.of_get fun file hget => .inl ?_
  obtain ⟨d', hd', hfile⟩ := Option.bind_eq_some_iff.mp hget
  obtain ⟨d, hd, hfiles⟩ := hd d' hd'
  rw [Files.get, hd]
  exact hfiles _ _ hfile

theorem TextRef.unlink (h : TextRef fs) {f : Folder} {name : String} : TextRef (fs.unlink f name) := by
  by_cases hf : f = .voiceRef
  · subst hf
    refine h.shrinks ?_
    rw [Files.unlink, Files.dir_modify]
    exact @dirShrinks_eraseAll _ fun _ => [name]
  · exact h.of_dir (Files.dir_modify_of_ne (Ne.symm hf))

theorem textRef_orFail {fault : Option Exc} {k : PersonaWorld × Run} (h : TextRef w.files) (hk : TextRef k.1.files) :
    TextRef (orFail w r fault k).1.files := by
  cases fault with
  | none => exact hk
  | some e => exact h

theorem textRef_finishTrim {rc : Int} {a : AfterTrim} (h : TextRef w.files) :
    TextRef (finishTrim H w r rc a).1.files := by
  rw [finishTrim]
  split
  · dsimp only
    split
    · exact h.unlink
    · exact h
  · have hstrays : TextRef (w.files.modify .voiceRef (unlinkStrays a.strayUnlinked)) := by
      refine h.shrinks ?_
      rw [Files.dir_modify]
      exact dirShrinks_eraseAll
    refine textRef_orFail h ?_
    dsimp only
    split
    · exact textRef_orFail hstrays hstrays.unlink
    · exact hstrays

theorem textRef_saveRefText {audio : Option Content} {text : String} {a : AfterTranscribe} (h : TextRef w.files) :
    TextRef (saveRefText w r audio text a).1.files := by
  rw [saveRefText]
  split
  · rename_i e left _
    cases left with
    | none => exact h
    | some part => exact h.mkdir.write fun _ _ => ⟨_, rfl⟩
  · exact h.mkdir.unlink.write fun _ _ => ⟨_, rfl⟩

/-- The end of ffmpeg changes its output only. -/
theorem get_ffmpegExit {voice : Picked} {rc : Int} :
    (ffmpegExit w voice rc).files.get .voiceRef refText = w.files.get .voiceRef refText := by
  rw [ffmpegExit, PersonaWorld.onFiles, Files.get, Files.dir_modify, Files.get]
  cases w.files.dir .voiceRef with
  | none => rfl
  | some d =>
    rw [Option.map_some, fileIn_some, fileIn_some]
    split
    · split
      · exact AList.lookup_insert_ne refAudio_ne_refText.symm
      · rfl
    · rfl

theorem BodyStep.textRef {pc : RunPc} {ev : RunEvent} {out : PersonaWorld × Run} (h : BodyStep H w r pc ev out)
    (ht : TextRef w.files) : TextRef out.1.files := by
  cases h with
  | select =>
    refine textRef_orFail ht ?_
    rw [selectVoice]
    split <;> exact ht
  | extract =>
    refine textRef_orFail ht ?_
    rw [prepareVoiceRef]
    split
    · exact ht
    · exact ht.mkdir
  | trimOutput => exact ht.write fun _ hname => absurd hname refAudio_ne_refText
  | trimExit => exact ht.of_eq get_ffmpegExit
  | trimDone => exact textRef_finishTrim ht
  | transcribe =>
    refine textRef_orFail ht ?_
    rw [transcribeVoice]
    split
    · split <;> exact ht
    · exact ht
  | transcribed => exact textRef_saveRefText ht
  | render =>
    refine textRef_orFail ht ?_
    rw [renderIdleClips]
    split
    · exact ht
    · exact ht.mkdir
  | acquireDitto | renderSpawned => exact ht.mkdir
  | renderOutput => exact ht.write fun hf => absurd hf (by simp)
  | @rendered photo i o =>
    have hclip : TextRef (idleRendered w photo i o).files := ht.unlink.write fun hf => absurd hf (by simp)
    exact textRef_orFail hclip hclip
  | renderFailed => exact ht.of_dir (dir_idleFailed (by simp))
  | _ => exact ht

theorem runStep_textRef {ev : RunEvent} (h : runStep H w r ev = some (w', r')) (ht : TextRef w.files) :
    TextRef w'.files := by
  rcases runStep_cases h with h | ⟨-, h⟩
  · exact h.textRef ht
  · exact ht.of_dir (h.leaves (by simp))

theorem PhaseStep.isSome {i b b' : Bool} {row row' : Option Status} {p p' : Phase}
    (h : PhaseStep i row b p row' b' p') (hrow : row.isSome = true) : row'.isSome = true := by
  cases h with
  | claim | ready | close => rw [Option.isSome_map]; exact hrow
  | _ => exact hrow

/-- A run keeps what a run needs. -/
theorem Fixable.runStep {ev : RunEvent} (h : Fixable w) (hs : YeounEngine.runStep H w r ev = some (w', r')) :
    Fixable w' where
  row := (runStep_phase hs).isSome h.row
  voice := by rw [newestIn_of_dir (runStep_leaves hs (by simp) (by simp))]; exact h.voice
  photo := by rw [newestIn_of_dir (runStep_leaves hs (by simp) (by simp))]; exact h.photo
  text := runStep_textRef hs h.text

end

/-- A readable text, and no left-over work that could write another. -/
structure TextKept (w : PersonaWorld) : Prop where
  text : TextRef w.files
  orphans : ∀ o ∈ w.orphans, o.folder = some .voiceRef → ∃ voice, o = .ffmpeg voice

section
variable {H : Host} {w w' : PersonaWorld}

theorem UploadStep.textKept {req : UploadRequest} {pc : UploadPc} {ev : UploadEvent} {out : PersonaWorld × UploadPc}
    (h : UploadStep H w req pc ev out) (hw : TextKept w) : TextKept out.1 := by
  refine ⟨hw.text.of_dir (h.leaves UploadKind.folder_ne_voiceRef), fun o ho hf => ?_⟩
  rcases h.keeps.2.2 o ho with ho | ⟨tmp, rfl⟩
  · exact hw.orphans o ho hf
  · exact absurd (Option.some.inj hf).symm UploadKind.folder_ne_voiceRef

theorem DeleteStep.textKept {pc : DeletePc} {ev : DeleteEvent} {out : PersonaWorld × DeletePc}
    (h : DeleteStep w pc ev out) (hw : TextKept w) : TextKept out.1 := by
  cases h with
  | remove =>
    refine ⟨hw.text.shrinks ?_, hw.orphans⟩
    rw [PersonaWorld.onFiles, Files.dir_keeping]
    exact dirShrinks_eraseAll
  | removeAll => exact ⟨hw.text.shrinks (.none _), hw.orphans⟩
  | cancelRemoving =>
    refine ⟨hw.text, fun o ho hf => ?_⟩
    rcases PersonaWorld.mem_leave.mp ho with ho | rfl
    · exact hw.orphans o ho hf
    · cases hf
  | deleteRows => exact ⟨hw.text, hw.orphans⟩
  | _ => exact hw

theorem runStep_textKept {r r' : Run} {ev : RunEvent} (h : runStep H w r ev = some (w', r')) (hw : TextKept w) :
    TextKept w' := by
  refine ⟨runStep_textRef h hw.text, fun o ho hf => ?_⟩
  rcases runStep_cases h with h | ⟨-, h⟩
  · exact hw.orphans o (h.orphans ▸ ho) hf
  · rcases h.leftover ho with ho | ⟨voice, rfl, -⟩ | ⟨i, photo, rfl, -⟩
    · exact hw.orphans o ho hf
    · exact ⟨voice, rfl⟩
    · cases hf

theorem OrphanStep.textKept {k : Nat} {act : OrphanAct} (h : OrphanStep w k act w') (hw : TextKept w) :
    TextKept w' := by
  refine ⟨?_, fun o ho => hw.orphans o (h.orphans ho)⟩
  cases h with
  | @write orphan sub name origin side o hk hwrites =>
    by_cases hsub : sub = .voiceRef
    · obtain ⟨voice, rfl⟩ := hw.orphans orphan hk (by rw [Orphan.folder, hwrites, hsub]; rfl)
      cases hwrites
      refine hw.text.write fun _ hname => absurd hname ?_
      cases side <;> exact refAudio_ne_refText
    · exact hw.text.of_dir (dir_write_of_ne (Ne.symm hsub))
  | remove =>
    refine hw.text.shrinks ?_
    rw [PersonaWorld.onFiles, Files.dir_keeping]
    exact dirShrinks_eraseAll
  | written => exact hw.text
  | @removed orphan =>
    refine hw.text.of_get fun file hfile => .inl ?_
    have hremoved : (orphan.removed w.files).get .voiceRef refText = none ∨
        (orphan.removed w.files).get .voiceRef refText = w.files.get .voiceRef refText := get_removed
    rcases hremoved with h | h
    · exact absurd (h.symm.trans hfile) (by simp)
    · exact h ▸ hfile

/-- The invariant is kept by every step. -/
theorem TextKept.next {p q : Pool PersonaWorld PersonaTask} {e : Event PersonaTask PersonaEvent PersonaEnv}
    (h : TextKept p.world) (hstep : (personaCoop H).next p e = some q) : TextKept q.world := by
  refine Coop.next_cases (motive := fun q => TextKept q.world) hstep ?_ ?_ ?_
  · exact fun _ _ _ => h
  · intro i ev t w' t' _ _ hs
    cases personaStep_inv hs with
    | upload hu => exact hu.textKept h
    | delete hd => exact hd.textKept h
    | process hp =>
      cases hp with
      | run hr => exact runStep_textKept hr h
      | _ => exact h
  · intro x w' _ hx
    cases x with
    | restart => cases hx; exact ⟨h.text, fun _ ho => by cases ho⟩
    | orphan k act => exact (orphanStep_inv hx).textKept h

end

/-! ## The way of a run to its end -/

/-- Some content is a wav file of at least one second. -/
def Host.ReadsSpeech (H : Host) : Prop := ∃ speech n rate, H.wave speech = .frames n rate ∧ rate ≠ 0 ∧ rate ≤ n

/-- A run that can still set `READY`: it has its inputs, and what it waits for has gone well. -/
def OnTrack (H : Host) (w : PersonaWorld) (r : Run) : Prop :=
  match r.pc with
  | .scheduled | .setPending | .updProcessing _ | .setSelecting => True
  | .setExtracting => r.voice.isSome = true
  | .spawning | .ffmpeg none => r.voice.isSome = true ∧ (w.files.dir .voiceRef).isSome = true
  | .ffmpeg (some rc) => rc = 0 ∧ ∃ n rate, waveOpen H w = .frames n rate ∧ rate ≠ 0 ∧ rate ≤ n
  | .setTranscribing | .waitingGpu | .transcribing _ | .setRendering => True
  | .waitingDitto _ => r.photo.isSome = true
  | .rendering _ => r.photo.isSome = true ∧ (w.files.dir .idle).isSome = true
  | .inserting _ _ | .setReady | .updReady false => True
  | .updReady true => w.row = some .ready
  | _ => False

section
variable {H : Host} {w : PersonaWorld} {r : Run}

theorem pickFile_of_isSome (kind : UploadKind) (h : (w.files.newestIn kind.folder).isSome = true) :
    ∃ p, pickFile H w kind.folder = .ok p := by
  obtain ⟨p, hp⟩ := Option.isSome_iff_exists.mp h
  obtain ⟨d, hd, hp⟩ := Option.bind_eq_some_iff.mp hp
  refine ⟨p, ?_⟩
  rw [pickFile, hd]
  dsimp only
  rw [hp]

/-- What ffmpeg has written is there when it has ended. -/
theorem waveOpen_trimmed {voice : Picked} {rc : Int} {o : Output} (h : (w.files.dir .voiceRef).isSome = true) :
    waveOpen H (ffmpegExit (ffmpegOutput w voice o) voice rc) = H.wave o.content := by
  have hget : (ffmpegOutput w voice o).files.get .voiceRef refAudio = some ⟨o.now, o.content, .trim voice false⟩ :=
    get_write_self h
  obtain ⟨d, hd, hfile⟩ := Option.bind_eq_some_iff.mp hget
  rw [waveOpen, ffmpegExit, PersonaWorld.onFiles, Files.get, Files.dir_modify, hd, Option.map_some, fileIn_some, hfile]
  dsimp only
  by_cases hrc : rc = 0
  · rw [if_pos hrc, AList.lookup_insert]
  · rw [if_neg hrc, hfile]

theorem onTrack_nextClip {fs : Files} {i : Nat} (h : r.photo.isSome = true) : OnTrack H w (r.goto (nextClip fs i)) := by
  rw [nextClip]
  split
  · exact h
  · exact trivial

/-- The run takes a step to its end. -/
theorem can_advance (hH : H.ReadsSpeech) (hF : Fixable w) (h : OnTrack H w r) : w.row = some .ready ∨
    (processSystem H).Can (fun s => Fixable s.1 ∧ OnTrack H s.1 s.2 ∧ s.2.pc.rank < r.pc.rank) (w, r) := by
  have one : ∀ ev out, runStep H w r ev = some out → r.pc.lingers ev = false → OnTrack H out.1 out.2 →
      (processSystem H).Can (fun s => Fixable s.1 ∧ OnTrack H s.1 s.2 ∧ s.2.pc.rank < r.pc.rank) (w, r) :=
    fun ev out hs hl ht => .step ev hs (.now ⟨hF.runStep hs, ht, runStep_rank hs hl⟩)
  obtain ⟨pc, voice, photo⟩ := r
  cases pc with
  | scheduled => exact .inr (one .start _ rfl rfl trivial)
  | setPending => exact .inr (one (.lock none) _ rfl rfl trivial)
  | updProcessing applied =>
    cases applied with
    | false => exact .inr (one (.apply 0) _ rfl rfl trivial)
    | true => exact .inr (one .resume _ rfl rfl trivial)
  | setSelecting =>
    obtain ⟨p, hp⟩ := pickFile_of_isSome (H := H) (w := w.setStep .selectingVoice none) .voice hF.voice
    have hpick : pickVoiceFile H (w.setStep .selectingVoice none) = .ok p := hp
    refine .inr (one (.lock none) _ rfl rfl ?_)
    rw [orFail, selectVoice, hpick]
    exact rfl
  | setExtracting =>
    refine .inr (one (.lock none) _ rfl rfl ?_)
    rw [orFail, prepareVoiceRef]
    split
    · exact trivial
    · exact ⟨h, by rw [PersonaWorld.onFiles, Files.dir_mkdir]; rfl⟩
  | spawning => exact .inr (one .spawned _ rfl rfl h)
  | ffmpeg rc =>
    cases rc with
    | none =>
      -- ffmpeg writes a speech and ends
      obtain ⟨hv, hdir⟩ := h
      obtain ⟨v, rfl⟩ := Option.isSome_iff_exists.mp hv
      obtain ⟨speech, n, rate, hwave, hspeech⟩ := hH
      have hs : runStep H w ⟨.ffmpeg none, some v, photo⟩ (.output false ⟨0, speech⟩) =
        some (ffmpegOutput w v ⟨0, speech⟩, ⟨.ffmpeg none, some v, photo⟩) := rfl
      have hs' : runStep H (ffmpegOutput w v ⟨0, speech⟩) ⟨.ffmpeg none, some v, photo⟩ (.exit 0) =
        some (ffmpegExit (ffmpegOutput w v ⟨0, speech⟩) v 0, ⟨.ffmpeg (some 0), some v, photo⟩) := rfl
      have hopen : waveOpen H (ffmpegExit (ffmpegOutput w v ⟨0, speech⟩) v 0) = .frames n rate := by
        rw [waveOpen_trimmed hdir, hwave]
      exact .inr (.step (.output false ⟨0, speech⟩) hs (.step (.exit 0) hs'
        (.now ⟨(hF.runStep hs).runStep hs', ⟨rfl, n, rate, hopen, hspeech⟩, runStep_rank hs' rfl⟩)))
    | some rc =>
      obtain ⟨rfl, n, rate, hopen, hrate, hn⟩ := h
      have hverdict : trimVerdict H w 0 plainTrim.stderr = none := by
        rw [trimVerdict, if_neg (by simp), hopen]
        dsimp only
        rw [if_neg (by omega)]
      refine .inr (one (.communicated plainTrim) _ rfl rfl ?_)
      rw [finishTrim, hverdict]
      dsimp only
      rw [plainTrim, orFail]
      split
      · exact trivial
      · exact trivial
  | setTranscribing =>
    refine .inr (one (.lock none) _ rfl rfl ?_)
    rw [orFail, transcribeVoice]
    split
    · rename_i file hfile
      obtain ⟨s, hs⟩ := hF.text file (Option.filter_eq_some_iff.mp hfile).1
      rw [hs, readText]
      exact trivial
    · exact trivial
  | waitingGpu => exact .inr (one .acquire _ rfl rfl trivial)
  | transcribing audio => exact .inr (one (.transcribed "" ⟨0, none⟩) _ rfl rfl trivial)
  | setRendering =>
    obtain ⟨p, hp⟩ := pickFile_of_isSome (H := H) (w := w.setStep .renderingIdle none) .photo hF.photo
    have hpick : pickPhotoFile H (w.setStep .renderingIdle none) = .ok p := hp
    refine .inr (one (.lock none) _ rfl rfl ?_)
    rw [orFail, renderIdleClips, hpick]
    exact onTrack_nextClip (r := ⟨.setRendering, voice, some p⟩) rfl
  | waitingDitto i =>
    exact .inr (one .acquire _ rfl rfl ⟨h, by rw [renderIdle, PersonaWorld.onFiles, Files.dir_mkdir]; rfl⟩)
  | rendering i =>
    obtain ⟨hp, hd⟩ := h
    obtain ⟨p, rfl⟩ := Option.isSome_iff_exists.mp hp
    exact .inr (one (.rendered cleanOutput none) _ (if_pos hd) rfl (onTrack_nextClip (r := ⟨_, voice, some p⟩) rfl))
  | inserting i applied =>
    cases applied with
    | false => exact .inr (one (.apply 0) _ rfl rfl trivial)
    | true =>
      refine .inr (one .resume _ rfl rfl ?_)
      dsimp only
      split
      · exact trivial
      · exact trivial
  | setReady => exact .inr (one (.lock none) _ rfl rfl trivial)
  | updReady applied =>
    cases applied with
    | true => exact .inl h
    | false =>
      obtain ⟨status, hrow⟩ := Option.isSome_iff_exists.mp hF.row
      refine .inr (one (.apply 0) _ rfl rfl ?_)
      change w.row.map (fun _ => Status.ready) = some .ready
      rw [hrow]
      rfl
  | _ => cases h

/-- A run that is on its way sets `READY`. -/
theorem can_ready (hH : H.ReadsSpeech) (hF : Fixable w) (h : OnTrack H w r) :
    (processSystem H).Can (fun s => s.1.row = some .ready) (w, r) := by
  induction hn : r.pc.rank using Nat.strong_induction_on generalizing w r with
  | _ n ih =>
    rcases can_advance hH hF h with hrow | hcan
    · exact .now hrow
    · refine hcan.bind ?_
      rintro ⟨w', r'⟩ ⟨hF', h', hlt⟩
      exact ih _ (hn ▸ hlt) hF' h' rfl

end

/-! ## An upload on its own -/

/-- `upload_photo` and `upload_voice`, with nothing else going on. -/
def uploadSystem (H : Host) (req : UploadRequest) : System (PersonaWorld × UploadPc) UploadEvent :=
  handler fun w => uploadStep H w req

/-- What an upload can do on its own, it can do among other requests. -/
theorem can_of_upload {H : Host} {init : PersonaWorld → Prop} {p : Pool PersonaWorld PersonaTask} {i : Nat}
    {req : UploadRequest} {pc : UploadPc} {P : PersonaWorld → Prop} (hi : p.tasks[i]? = some (.upload req pc))
    (h : (uploadSystem H req).Can (fun s => P s.1) (p.world, pc)) :
    (personaSystem H init).Can (fun q => P q.world) p := by
  refine Coop.can_of_handler (fun pc => .upload req pc) .upload ?_ hi h
  intro w pc e w' pc' hs
  change personaStep H w (.upload req pc) (.upload e) = _
  rw [personaStep, hs]
  rfl

/-- The first bytes of a JPEG or of a wav file, as many of them as the limit allows. -/
def UploadRequest.repair (H : Host) : UploadKind → UploadRequest
  | .photo => ⟨.photo, some "image/jpeg", none, [0xff, 0xd8, 0xff, 0xe0].take H.maxUploadBytes⟩
  | .voice => ⟨.voice, some "audio/wav", none, riff.take H.maxUploadBytes⟩

section
variable {H : Host} {w : PersonaWorld} {fs : Files} {req : UploadRequest}

theorem isSome_newestIn_of_get {f : Folder} {name : String} {file : File} (h : fs.get f name = some file) :
    (fs.newestIn f).isSome = true := by
  obtain ⟨d, hd, hfile⟩ := Option.bind_eq_some_iff.mp h
  rw [Files.newestIn, hd, Option.bind_some, newest, Option.isSome_map]
  cases hmax : d.entries.argmax fun e => e.2.mtime with
  | some e => rfl
  | none =>
    rw [List.argmax_eq_none] at hmax
    have := AList.mem_lookup_iff.mp hfile
    rw [hmax] at this
    cases this

/-- An upload has left its file. -/
structure Uploaded (kind : UploadKind) (w w' : PersonaWorld) : Prop where
  row : w'.row = w.row
  step : w'.step = w.step
  newest : (w'.files.newestIn kind.folder).isSome = true
  others : ∀ f, f ≠ kind.folder → w'.files.dir f = w.files.dir f

/-- A signature is read without an error, and so is what the limit leaves of it: less than the check looks at. -/
theorem readVerdict_take {kind : UploadKind} {magic : List UInt8} (hlength : magic.length = 4)
    (hmagic : HasSignature kind magic) :
    readVerdict H kind (magic.take H.maxUploadBytes) = .ok (magic.take H.maxUploadBytes) := by
  rw [readVerdict, if_neg, if_neg (by rw [List.length_take]; omega)]
  rintro ⟨hlong, hno⟩
  rw [List.length_take] at hlong
  rw [List.take_of_length_le (by omega)] at hno
  exact hno hmagic

theorem readVerdict_repair {kind : UploadKind} :
    readVerdict H (UploadRequest.repair H kind).kind (UploadRequest.repair H kind).body =
      .ok (UploadRequest.repair H kind).body := by
  cases kind with
  | photo =>
    have hjpeg : HasSignature .photo [0xff, 0xd8, 0xff, 0xe0] := by decide
    exact readVerdict_take rfl hjpeg
  | voice =>
    have hwav : HasSignature .voice riff := by decide
    exact readVerdict_take rfl hwav

/-- What can happen where nothing fails can happen. -/
theorem steps_of_saving {s t : PersonaWorld × UploadPc} (h : (saving H req).Steps Unhindered s t) :
    (uploadSystem H req).Steps anyStep s t := by
  induction h with
  | refl => exact .refl _
  | tail _ _ hstep ih => exact ih.tail trivial hstep

/-- The temporary file is written and gets its name. -/
theorem can_rename {name tmp : String} {data : List UInt8} (hdir : (w.files.dir req.kind.folder).isSome = true) :
    (uploadSystem H req).Can (fun s => Uploaded req.kind w s.1) (w, .writing name tmp data false) := by
  have hwritten : uploadStep H w req (.writing name tmp data false) (.written 0) =
      some (w.onFiles fun fs => fs.write req.kind.folder tmp ⟨0, .bytes data, .other⟩, .writing name tmp data true) :=
    uploadStep_written hdir
  generalize hw' : (w.onFiles fun fs => fs.write req.kind.folder tmp ⟨0, .bytes data, .other⟩) = w' at hwritten
  have htmp : w'.files.get req.kind.folder tmp = some ⟨0, .bytes data, .other⟩ := by
    rw [← hw']
    exact get_write_self hdir
  have hrenamed : uploadStep H w' req (.writing name tmp data true) (.renamed none true) =
      some (renameTmp w' req.kind.folder tmp name ⟨0, .bytes data, .other⟩, .inserting name data.length false) :=
    uploadStep_renamed htmp
  have hdir' : ((w'.files.unlink req.kind.folder tmp).dir req.kind.folder).isSome = true := by
    rw [Files.unlink, Files.dir_modify, Option.isSome_map]
    exact isSome_dir_of_get htmp
  refine .step (.written 0) hwritten (.step (.renamed none true) hrenamed (.now ?_))
  subst hw'
  exact
    { row := rfl
      step := rfl
      newest := isSome_newestIn_of_get (get_write_self hdir')
      others := fun f hf =>
        ((Files.dir_modify_of_ne hf).trans (Files.dir_modify_of_ne hf)).trans (Files.dir_modify_of_ne hf) }

/-- An upload to a persona that is not claimed can succeed. -/
theorem can_upload {data : List UInt8} {status : Status} (hallowed : req.allowed = true)
    (hread : readVerdict H req.kind req.body = .ok data) (hrow : w.row = some status) (hs : status ≠ .processing) :
    (uploadSystem H req).Can (fun s => Uploaded req.kind w s.1) (w, .getting none) := by
  have hguard : ensureWritable w.id w.row = none := by
    rw [hrow]
    cases status with
    | processing => exact absurd rfl hs
    | _ => rfl
  have haccepted : uploadStep H w req (.getting (some w.row)) .resume = some (w, .reading [] req.body false) := by
    rw [uploadStep, hguard]
    exact if_pos hallowed
  obtain ⟨name, tmp, hopened⟩ : ∃ name tmp, uploadStep H w req (.closing (.ok data)) (.closed 0 0 false none) =
      some (w.onFiles fun fs => fs.mkdir req.kind.folder, .writing name tmp data false) := ⟨_, _, rfl⟩
  have hdir : ((w.onFiles fun fs => fs.mkdir req.kind.folder).files.dir req.kind.folder).isSome = true := by
    rw [PersonaWorld.onFiles, Files.dir_mkdir]
    rfl
  have hclosing : (uploadSystem H req).Can (· = (w, .closing (.ok data))) (w, .reading [] req.body false) :=
    ⟨_, steps_of_saving (steps_reading (.start hread)), rfl⟩
  refine .step .select rfl (.step .resume haccepted (hclosing.bind ?_))
  rintro _ rfl
  refine .step (.closed 0 0 false none) hopened ((can_rename hdir).mono fun s h => ?_)
  exact
    { row := h.row
      step := h.step
      newest := h.newest
      others := fun f hf => (h.others f hf).trans (Files.dir_mkdir_of_ne hf) }

end

/-! ## The repair -/

section
variable {H : Host} {init : PersonaWorld → Prop} {p : Pool PersonaWorld PersonaTask}

/-- An upload arrives, and leaves its file. -/
theorem can_accept_upload (kind : UploadKind) {status : Status} (hrow : p.world.row = some status)
    (hs : status ≠ .processing) : (personaSystem H init).Can (fun q => Uploaded kind p.world q.world) p := by
  have hkind : (UploadRequest.repair H kind).kind = kind := by cases kind <;> rfl
  have hallowed : (UploadRequest.repair H kind).allowed = true := by cases kind <;> rfl
  have hupload : (uploadSystem H (.repair H kind)).Can
      (fun s => Uploaded (UploadRequest.repair H kind).kind p.world s.1) (p.world, .getting none) :=
    can_upload hallowed readVerdict_repair hrow hs
  rw [hkind] at hupload
  refine .step (.arrive (.upload (.repair H kind) (.getting none))) rfl ?_
  exact can_of_upload (P := Uploaded kind p.world) (p := ⟨p.world, _⟩) List.getElem?_concat_length hupload

/-- A `/process` arrives, is accepted, and its run sets `READY`. -/
theorem can_process (hH : H.ReadsSpeech) (hF : Fixable p.world) (hstep : p.world.step = none) {status : Status}
    (hrow : p.world.row = some status) (hs : status ≠ .processing) (hready : status ≠ .ready) :
    (personaSystem H init).Can (fun q => q.world.row = some .ready) p := by
  have hguard : startProcessing p.world.id p.world.row p.world.step = none := by
    rw [hrow, hstep, startProcessing, if_neg]
    rintro (h | h | h)
    · cases h
    · exact hs h
    · exact hready h
  have haccepted : personaStep H p.world (.process (.getting (some p.world.row))) (.process .resume) =
      some (p.world, .process (.accepted Run.new)) := by
    rw [personaStep, processStep, hguard]
    rfl
  have hlast : (p.tasks ++ [PersonaTask.process (.getting none)])[p.tasks.length]? = some (.process (.getting none)) :=
    List.getElem?_concat_length
  refine .step (.arrive (.process (.getting none))) rfl (.step (.run p.tasks.length (.process .select))
    (Coop.step_run (p := ⟨p.world, _⟩) hlast rfl) (.step (.run p.tasks.length (.process .resume))
      (Coop.step_run (p := ⟨p.world, _⟩) (Pool.getElem?_set_of_some hlast) haccepted) ?_))
  exact can_of_run (P := fun w => w.row = some .ready) (p := ⟨p.world, _⟩)
    (Pool.getElem?_set_of_some (Pool.getElem?_set_of_some hlast)) (can_ready hH hF trivial)

/-- A persona that is not claimed, after a restart, can become `READY`. -/
theorem can_repair (hH : H.ReadsSpeech) (htext : TextRef p.world.files) {status : Status}
    (hrow : p.world.row = some status) (hs : status ≠ .processing) :
    (personaSystem H init).Can (fun q => q.world.row = some .ready) p := by
  by_cases hready : status = .ready
  · exact .now (hready ▸ hrow)
  · have hvoice : (personaSystem H init).Can (fun q => Uploaded .voice p.world.restart q.world) p :=
      .step (.env .restart) rfl (can_accept_upload (p := ⟨p.world.restart, _⟩) .voice hrow hs)
    refine hvoice.bind fun q hq => (can_accept_upload .photo (hq.row.trans hrow) hs).bind fun q' hq' => ?_
    have hF : Fixable q'.world :=
      { row := by rw [hq'.row, hq.row]; exact Option.isSome_iff_exists.mpr ⟨_, hrow⟩
        voice := by rw [newestIn_of_dir (hq'.others _ (by simp [UploadKind.folder]))]; exact hq.newest
        photo := hq'.newest
        text := (htext.of_dir (hq.others _ (by simp [UploadKind.folder]))).of_dir
          (hq'.others _ (by simp [UploadKind.folder])) }
    exact can_process hH hF (hq'.step.trans hq.step) ((hq'.row.trans hq.row).trans hrow) hs hready

/-- A request that revives the persona leads to `FAILED`. -/
theorem can_fail_of_revives {t : PersonaTask} (hmem : t ∈ p.tasks) (ht : t.revives p.world = true)
    (hrow : p.world.row.isSome = true) : (personaSystem H init).Can (fun q => q.world.row = some .failed) p := by
  obtain ⟨i, hi⟩ := List.mem_iff_getElem?.mp hmem
  unfold PersonaTask.revives at ht
  split at ht
  · rename_i row
    have haccepted : personaStep H p.world (.process (.getting (some row))) (.process .resume) =
        some (p.world, .process (.accepted Run.new)) := by
      rw [personaStep, processStep, Option.isNone_iff_eq_none.mp ht]
      rfl
    refine .step (.run i (.process .resume)) (Coop.step_run hi haccepted) ?_
    exact can_of_run (P := fun w => w.row = some .failed) (p := ⟨p.world, _⟩) (Pool.getElem?_set_of_some hi)
      (can_fail hrow (by simp [Run.new, RunPc.phase]) (by simp [Run.new, RunPc.phase]))
  · rename_i r
    rw [Bool.and_eq_true, decide_eq_true_eq, Bool.not_eq_true', ← Bool.not_eq_true, ended_iff_phase] at ht
    exact can_of_run (P := fun w => w.row = some .failed) hi (can_fail hrow ht.1 ht.2)
  · cases ht

/-- A persona that is not lost can become `READY`. -/
theorem can_of_not_lost (hH : H.ReadsSpeech) (htext : TextKept p.world) (h : ¬ Lost p) :
    (personaSystem H init).Can (fun q => q.world.row = some .ready) p := by
  obtain ⟨status, hrow⟩ := Option.ne_none_iff_exists'.mp fun hrow => h (.inl hrow)
  by_cases hs : status = .processing
  · subst hs
    obtain ⟨t, hmem, ht⟩ : ∃ t ∈ p.tasks, t.revives p.world = true := by
      by_contra hno
      push Not at hno
      exact h (.inr ⟨hrow, fun t ht => by rw [← Bool.not_eq_true]; exact hno t ht⟩)
    obtain ⟨q, hrun, hq⟩ : (personaSystem H init).Can (fun q => q.world.row = some .failed) p :=
      can_fail_of_revives hmem ht (by rw [hrow]; rfl)
    have hkept : TextKept q.world :=
      hrun.inv (I := fun q => TextKept q.world) (fun _ _ _ hI _ hstep => hI.next hstep) htext
    obtain ⟨q', hrun', hq'⟩ : (personaSystem H init).Can (fun q => q.world.row = some .ready) q :=
      can_repair hH hkept.text hq (by simp)
    exact ⟨q', hrun.trans hrun', hq'⟩
  · exact can_repair hH htext.text hrow hs

end

/-! ## Main result -/

/-- In every run of uploads, `/process` requests, deletions, failures, cancellations and restarts on a persona: it can
become `READY` (again) if and only if it is not lost. -/
theorem ready_again_iff (H : Host) (hH : H.ReadsSpeech) (id : Uuid) (interviews : List InterviewAnswer)
    (p : Pool PersonaWorld PersonaTask) (h : (personaSystem H (· = .new id interviews)).Reach anyStep p) :
    (personaSystem H (· = .new id interviews)).Can (fun q => q.world.row = some .ready) p ↔ ¬ Lost p := by
  constructor
  · intro hcan hlost
    exact System.not_can_of_inv (I := Lost) (fun _ _ _ hI hstep => hI.next hstep) (fun _ hI => hI.row_ne_ready) hlost
      hcan
  · intro hlost
    have hkept : TextKept p.world := by
      refine h.inv (I := fun q => TextKept q.world) ?_ fun _ _ _ hI _ hstep => hI.next hstep
      rintro s ⟨hw, -⟩
      rw [hw]
      exact
        { text := fun file hfile => by cases hfile
          orphans := fun o ho => by cases ho }
    exact can_of_not_lost hH hkept hlost

/-- The theorem at two runs: a claimed persona can become `READY` while its run is there, and after a restart it
cannot. -/
theorem ready_again_iff_restart : ∃ p q : Pool PersonaWorld PersonaTask,
    (personaSystem sampleHost (· = samplePersona)).Reach anyStep p ∧ p.world.row = some .processing ∧
      (personaSystem sampleHost (· = samplePersona)).Can (fun q => q.world.row = some .ready) p ∧
    (personaSystem sampleHost (· = samplePersona)).step p (.env .restart) = some q ∧
      ¬ (personaSystem sampleHost (· = samplePersona)).Can (fun q => q.world.row = some .ready) q := by
  have hH : sampleHost.ReadsSpeech := ⟨.bytes riff, 48000, 16000, rfl, by decide, by decide⟩
  have h : ((personaSystem sampleHost (· = samplePersona)).exec anyStep ⟨samplePersona, []⟩
      (acceptedRun 0 ++ claimRun 0)).any (fun p => p.world.row = some .processing ∧
        ∃ t ∈ p.tasks, t.revives p.world = true) = true := by
    decide +kernel
  obtain ⟨p, hsteps, hp⟩ := System.exists_of_exec h
  obtain ⟨hrow, t, hmem, ht⟩ := of_decide_eq_true hp
  have hreach : (personaSystem sampleHost (· = samplePersona)).Reach anyStep p := ⟨_, ⟨rfl, rfl⟩, hsteps⟩
  have hcan := (ready_again_iff sampleHost hH 1 [⟨1, some "바다"⟩] p hreach).mpr <| by
    rintro (hlost | ⟨-, hlost⟩)
    · rw [hrow] at hlost
      cases hlost
    · rw [hlost t hmem] at ht
      cases ht
  let q : Pool PersonaWorld PersonaTask := ⟨p.world.restart, p.tasks.map PersonaTask.kill⟩
  have hstep : (personaSystem sampleHost (· = samplePersona)).step p (.env .restart) = some q := rfl
  have hlost : Lost q := by
    refine .inr ⟨hrow, fun u hu => ?_⟩
    obtain ⟨u₀, -, rfl⟩ := List.mem_map.mp hu
    exact PersonaTask.revives_kill
  have hreach' : (personaSystem sampleHost (· = samplePersona)).Reach anyStep q :=
    hreach.steps (.tail (.refl p) trivial hstep)
  exact ⟨p, q, hreach, hrow, hcan, hstep,
    fun hcan' => (ready_again_iff sampleHost hH 1 [⟨1, some "바다"⟩] q hreach').mp hcan' hlost⟩

end YeounEngine
