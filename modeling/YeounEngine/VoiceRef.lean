import YeounEngine.Creation

/-!
# The reference voice and its text

`process_message` clones the voice of the first of the sorted `voice_ref/ref_audio.*` with the text
of `ref_text.txt`. The pipeline keeps the two in step by two checks (the audio exists, the text is not empty),
an invalidation between them, and the removal of older `ref_audio.*` files.

`PcVoice` is what holds of the folder at each point of a run. It survives every failure and
cancellation but those that `VoiceRefSafe` excludes: an interruption while ffmpeg runs leaves a partial
`ref_audio.wav` behind, as does an `EOFError` of the wav check or a failed removal, and the next
run takes it for a finished one. Under the condition a `READY` persona has a
complete trim and its transcription (`refMatches_of_voiceRefSafe`); without it
`partial_trim_ready` is a run that has not.
-/

namespace YeounEngine

open Transition

/-! ## The property -/

/-- The file that `process_message` selects is a complete trim, and the text is its transcription. -/
def RefMatches (w : PersonaWorld) : Prop :=
  ∃ name file voice text, w.files.refAudioIn.head? = some name ∧
    w.files.get .voiceRef name = some file ∧ file.origin = .trim voice true ∧
    w.files.get .voiceRef refText = some text ∧ text.origin = .transcript file.content

/-! ## The folder between two steps -/

/-- The names that match `ref_audio.*` are `ref_audio.wav`. -/
def OnlyRefAudio (vr : Option Dir) : Prop :=
  ∀ d, vr = some d → ∀ name ∈ d, isRefAudio name = true → name = refAudio

/-- `ref_audio.wav` is a complete trim, and the only candidate. -/
structure TrimIn (vr : Option Dir) (file : File) : Prop where
  audio : fileIn vr refAudio = some file
  complete : ∃ voice, file.origin = .trim voice true
  only : OnlyRefAudio vr

/-- A text that would be kept is the transcription of the trim. -/
def TextFits (vr : Option Dir) (file : File) : Prop :=
  ∀ text, fileIn vr refText = some text → text.content.nonempty = true →
    text.origin = .transcript file.content

/-- A complete trim, and no text of another audio that would be kept. -/
def Paired (vr : Option Dir) : Prop := ∃ file, TrimIn vr file ∧ TextFits vr file

/-- A complete trim with its transcription. -/
def Matched (vr : Option Dir) : Prop :=
  ∃ file, TrimIn vr file ∧ ∃ text, fileIn vr refText = some text ∧
    text.origin = .transcript file.content

/-- What every run finds and leaves: no `ref_audio.wav`, or a pair. -/
def AtRest (vr : Option Dir) : Prop := fileIn vr refAudio = none ∨ Paired vr

/-- The folder at each point of a run. -/
def PcVoice (vr : Option Dir) : RunPc → Prop
  | .spawning => fileIn vr refAudio = none
  | .ffmpeg none => True
  | .ffmpeg (some rc) => rc = 0 → ∀ file, fileIn vr refAudio = some file →
      ∃ voice, file.origin = .trim voice true
  | .setTranscribing | .waitingGpu => Paired vr
  | .transcribing audio => ∃ file, TrimIn vr file ∧ TextFits vr file ∧ audio = some file.content
  | .setRendering | .waitingDitto _ | .rendering _ | .inserting _ _ | .setReady | .updReady _ =>
    Matched vr
  | _ => AtRest vr

/-- The run awaits ffmpeg. -/
def RunPc.trims : RunPc → Bool
  | .ffmpeg _ => true
  | _ => false

section
variable {vr vr' : Option Dir} {file : File}

theorem Matched.paired (h : Matched vr) : Paired vr := by
  obtain ⟨file, htrim, text, htext, horigin⟩ := h
  refine ⟨file, htrim, fun text' htext' _ => ?_⟩
  rw [htext] at htext'
  cases htext'
  exact horigin

theorem Matched.atRest (h : Matched vr) : AtRest vr := .inr h.paired

/-- Outside ffmpeg the folder is always one that the next run may find. -/
theorem PcVoice.atRest {pc : RunPc} (h : PcVoice vr pc) (hpc : pc.trims = false) :
    AtRest vr := by
  cases pc with
  | ffmpeg rc => cases hpc
  | spawning => exact .inl h
  | setTranscribing | waitingGpu => exact .inr h
  | transcribing audio =>
    obtain ⟨file, htrim, htext, -⟩ := h
    exact .inr ⟨file, htrim, htext⟩
  | setRendering | waitingDitto | rendering | inserting | setReady | updReady =>
    exact Matched.atRest h
  | _ => exact h

/-! ## Changes of the folder -/

theorem not_isRefAudio_refText : isRefAudio refText = false := by decide

theorem not_isRefAudio_tmp : isRefAudio (refText ++ ".tmp") = false := by decide

theorem refAudio_ne_refText : refAudio ≠ refText := by decide

theorem refAudio_ne_tmp : refAudio ≠ refText ++ ".tmp" := by decide

theorem refText_ne_tmp : refText ≠ refText ++ ".tmp" := by decide

theorem OnlyRefAudio.mkdir (h : OnlyRefAudio vr) : OnlyRefAudio (some (vr.getD ∅)) := by
  intro d hd name hname hm
  cases hd
  cases vr with
  | none => exact absurd hname (by simp)
  | some d => exact h d rfl name hname hm

theorem OnlyRefAudio.insert {name : String} (h : OnlyRefAudio vr) (hn : isRefAudio name = false) :
    OnlyRefAudio (vr.map fun d => d.insert name file) := by
  intro d hd other hother hm
  obtain ⟨d', rfl, rfl⟩ := Option.map_eq_some_iff.mp hd
  rcases (AList.mem_insert d').mp hother with rfl | hother
  · rw [hn] at hm; cases hm
  · exact h d' rfl other hother hm

theorem OnlyRefAudio.erase {name : String} (h : OnlyRefAudio vr) :
    OnlyRefAudio (vr.map fun d => d.erase name) := by
  intro d hd other hother hm
  obtain ⟨d', rfl, rfl⟩ := Option.map_eq_some_iff.mp hd
  exact h d' rfl other (AList.mem_erase.mp hother).2 hm

/-- The removal of the older files leaves `ref_audio.wav` alone, as the only candidate. -/
theorem onlyRefAudio_unlinkStrays {unlinked : String → Bool}
    (h : ∀ d, vr = some d → ∀ name ∈ refAudioCandidates d, unlinked name = true) :
    OnlyRefAudio (vr.map (unlinkStrays unlinked)) := by
  intro d hd name hname hm
  obtain ⟨d', rfl, rfl⟩ := Option.map_eq_some_iff.mp hd
  obtain ⟨hmem, hnot⟩ := mem_eraseAll.mp hname
  by_contra hne
  refine hnot (List.mem_filter.mpr ⟨AList.mem_keys.mp hmem, ?_⟩)
  rw [hm, h d' rfl name (mem_refAudioCandidates.mpr ⟨hmem, hm⟩)]
  simp [hne]

theorem fileIn_unlinkStrays {unlinked : String → Bool} :
    fileIn (vr.map (unlinkStrays unlinked)) refAudio = fileIn vr refAudio := by
  cases vr with
  | none => rfl
  | some d => exact lookup_eraseAll (by simp [List.mem_filter])

end

/-! ## The condition -/

/-- An exception of `wave.open` that the wav check does not catch. -/
def WaveOutcome.uncaught : WaveOutcome → Bool
  | .eof _ => true
  | _ => false

/-- What follows ffmpeg goes through: the wav check raises nothing that the code does not catch, and
every removal that is tried succeeds. -/
def AfterTrim.Clean (H : Host) (w : PersonaWorld) (rc : Int) (a : AfterTrim) : Prop :=
  (rc = 0 → (waveOpen H w).uncaught = false) ∧ a.unlinked = true ∧ a.globFault = none ∧
    (∀ name ∈ w.files.refAudioIn, a.strayUnlinked name = true) ∧ a.refTextFault = none

/-- How ffmpeg has ended, while the run has not gone on. -/
def RunPc.trimExit : RunPc → Option Int
  | .ffmpeg rc => rc
  | _ => none

section
variable {H : Host} {w : PersonaWorld} {r : Run}

/-- The folder of the persona. -/
abbrev PersonaWorld.voiceRef (w : PersonaWorld) : Option Dir := w.files.dir .voiceRef

theorem trimVerdict_none {rc : Int} {stderr : String} (h : trimVerdict H w rc stderr = none) :
    rc = 0 ∧ ∃ file, fileIn w.voiceRef refAudio = some file := by
  rw [trimVerdict] at h
  split at h
  · cases h
  · rename_i hrc
    refine ⟨not_not.mp hrc, ?_⟩
    cases hget : w.files.get .voiceRef refAudio with
    | some file => exact ⟨file, hget⟩
    | none => rw [waveOpen, hget] at h; cases h

/-- Only an exception that the wav check does not catch leaves the output in place. -/
theorem trimVerdict_kept {rc : Int} {stderr : String} {e : Exc}
    (h : trimVerdict H w rc stderr = some (e, false)) : rc = 0 ∧ waveOpen H w = .eof e := by
  rw [trimVerdict] at h
  split at h
  · simp at h
  · rename_i hrc
    refine ⟨not_not.mp hrc, ?_⟩
    split at h
    · simp at h
    · rename_i e' heof
      simp only [Option.some.injEq, Prod.mk.injEq, and_true] at h
      rw [heof, h]
    · split at h <;> simp at h

/-! ## One step of a run -/

theorem voice_orFail {fault : Option Exc} {k : PersonaWorld × Run} (h : AtRest w.voiceRef)
    (hk : PcVoice k.1.voiceRef k.2.pc) :
    PcVoice (orFail w r fault k).1.voiceRef (orFail w r fault k).2.pc := by
  cases fault with
  | some e => exact h
  | none => exact hk

theorem voice_selectVoice (h : AtRest w.voiceRef) :
    PcVoice (selectVoice H w r).1.voiceRef (selectVoice H w r).2.pc := by
  rw [selectVoice]
  split <;> exact h

theorem voice_prepareVoiceRef (h : AtRest w.voiceRef) :
    PcVoice (prepareVoiceRef w r).1.voiceRef (prepareVoiceRef w r).2.pc := by
  rw [prepareVoiceRef, Files.has]
  cases hget : w.files.get .voiceRef refAudio with
  | some file =>
    rcases h with h | h
    · rw [Files.get] at hget; rw [hget] at h; cases h
    · exact h
  | none =>
    change fileIn ((w.files.mkdir .voiceRef).dir .voiceRef) refAudio = none
    rw [Files.dir_mkdir, fileIn_getD]
    exact hget

theorem voice_ffmpegExit {voice : Picked} {rc : Int} (hrc : rc = 0) :
    ∀ file, fileIn (ffmpegExit w voice rc).voiceRef refAudio = some file →
      ∃ v, file.origin = .trim v true := by
  intro file hfile
  have hdir : (ffmpegExit w voice rc).voiceRef = w.voiceRef.map _ := Files.dir_modify
  rw [hdir] at hfile
  cases hd : w.voiceRef with
  | none => rw [hd] at hfile; cases hfile
  | some d =>
    rw [hd, Option.map_some, fileIn_some] at hfile
    split at hfile
    · rw [if_pos hrc, AList.lookup_insert] at hfile
      cases hfile
      exact ⟨voice, rfl⟩
    · rename_i hnone
      rw [hnone] at hfile; cases hfile

theorem voice_finishTrim {rc : Int} {a : AfterTrim} (hclean : a.Clean H w rc)
    (h : PcVoice w.voiceRef (.ffmpeg (some rc))) :
    PcVoice (finishTrim H w r rc a).1.voiceRef (finishTrim H w r rc a).2.pc := by
  obtain ⟨heof, hunlinked, hglob, hstray, htext⟩ := hclean
  rw [finishTrim, hglob, htext, hunlinked]
  split
  · rename_i e tidy hverdict
    -- the output has been removed
    have htidy : tidy = true := by
      cases tidy with
      | true => rfl
      | false =>
        obtain ⟨hrc, hwave⟩ := trimVerdict_kept hverdict
        rw [hwave] at heof
        cases heof hrc
    rw [htidy]
    refine .inl ?_
    change fileIn ((w.files.unlink .voiceRef refAudio).dir .voiceRef) refAudio = none
    rw [Files.unlink, Files.dir_modify]
    exact fileIn_erase_self
  · rename_i hverdict
    obtain ⟨hrc, file, hfile⟩ := trimVerdict_none hverdict
    -- the older files and the old text are gone
    have hdir : (w.onFiles fun fs => fs.modify .voiceRef (unlinkStrays a.strayUnlinked)).voiceRef =
        w.voiceRef.map (unlinkStrays a.strayUnlinked) := Files.dir_modify
    have honly : OnlyRefAudio (w.voiceRef.map (unlinkStrays a.strayUnlinked)) := by
      refine onlyRefAudio_unlinkStrays fun d hd name hname => hstray name ?_
      rw [Files.refAudioIn, show w.files.dir .voiceRef = some d from hd]
      exact hname
    have haudio : fileIn (w.voiceRef.map (unlinkStrays a.strayUnlinked)) refAudio = some file :=
      fileIn_unlinkStrays.trans hfile
    have hcomplete := h hrc file hfile
    simp only [orFail]
    split
    · have hdir' : ((w.onFiles fun fs => fs.modify .voiceRef (unlinkStrays a.strayUnlinked)).onFiles
          fun fs => fs.unlink .voiceRef refText).voiceRef =
          (w.voiceRef.map (unlinkStrays a.strayUnlinked)).map fun d => d.erase refText := by
        rw [← hdir]; exact Files.dir_modify
      change Paired (PersonaWorld.voiceRef _)
      rw [hdir']
      refine ⟨file, ⟨(fileIn_erase_of_ne refAudio_ne_refText).trans haudio, hcomplete,
        honly.erase⟩, fun text ht _ => ?_⟩
      rw [fileIn_erase_self] at ht
      cases ht
    · rename_i hno
      change Paired (PersonaWorld.voiceRef _)
      rw [Files.has, Files.get] at hno
      rw [hdir]
      refine ⟨file, ⟨haudio, hcomplete, honly⟩, fun text ht _ => ?_⟩
      rw [← hdir] at ht
      exact absurd (by rw [ht]; rfl) hno

theorem voice_transcribeVoice (h : Paired w.voiceRef) :
    PcVoice (transcribeVoice H w r).1.voiceRef (transcribeVoice H w r).2.pc := by
  rw [transcribeVoice]
  split
  · rename_i text hkept
    split
    · obtain ⟨file, htrim, hfits⟩ := h
      obtain ⟨htext, hnonempty⟩ := Option.filter_eq_some_iff.mp hkept
      exact ⟨file, htrim, text, htext, hfits text htext hnonempty⟩
    · exact .inr h
  · exact h

theorem voice_saveRefText {audio : Option Content} {text : String} {a : AfterTranscribe}
    (h : PcVoice w.voiceRef (.transcribing audio)) :
    PcVoice (saveRefText w r audio text a).1.voiceRef (saveRefText w r audio text a).2.pc := by
  obtain ⟨file, ⟨haudio, hcomplete, honly⟩, hfits, rfl⟩ := h
  rw [saveRefText]
  have hmk : fileIn (some (w.voiceRef.getD ∅)) refAudio = some file := fileIn_getD.trans haudio
  split
  · rename_i e left _
    cases left with
    | none => exact .inr ⟨file, ⟨haudio, hcomplete, honly⟩, hfits⟩
    | some part =>
      change AtRest (((w.files.mkdir .voiceRef).write .voiceRef _ _).dir .voiceRef)
      rw [Files.write, Files.dir_modify, Files.dir_mkdir]
      refine .inr ⟨file, ⟨?_, hcomplete, honly.mkdir.insert not_isRefAudio_tmp⟩, fun t ht hne => ?_⟩
      · rw [fileIn_insert_of_ne refAudio_ne_tmp]; exact hmk
      · rw [fileIn_insert_of_ne refText_ne_tmp, fileIn_getD] at ht
        exact hfits t ht hne
  · change Matched ((((w.files.mkdir .voiceRef).unlink .voiceRef _).write .voiceRef _ _).dir .voiceRef)
    rw [Files.write, Files.dir_modify, Files.unlink, Files.dir_modify, Files.dir_mkdir]
    refine ⟨file, ⟨?_, hcomplete, (honly.mkdir.erase).insert not_isRefAudio_refText⟩, _,
      fileIn_insert_self rfl, rfl⟩
    rw [fileIn_insert_of_ne refAudio_ne_refText, fileIn_erase_of_ne refAudio_ne_tmp]
    exact hmk

theorem voice_nextClip {vr : Option Dir} {fs : Files} {i : Nat} (h : Matched vr) :
    PcVoice vr (nextClip fs i) := by
  rw [nextClip]
  split <;> exact h

theorem voice_renderIdleClips (h : Matched w.voiceRef) :
    PcVoice (renderIdleClips H w r).1.voiceRef (renderIdleClips H w r).2.pc := by
  have hsame : (renderIdleClips H w r).1.voiceRef = w.voiceRef := leaves_renderIdleClips (by simp)
  rw [hsame, renderIdleClips]
  split
  · exact h.atRest
  · exact voice_nextClip h

/-- The success path keeps the folder in order, when what follows ffmpeg goes through. -/
theorem BodyStep.voice {pc : RunPc} {ev : RunEvent} {out : PersonaWorld × Run}
    (h : BodyStep H w r pc ev out) (hv : PcVoice w.voiceRef pc)
    (hclean : ∀ rc a, pc = .ffmpeg (some rc) → ev = .communicated a → a.Clean H w rc) :
    PcVoice out.1.voiceRef out.2.pc := by
  cases h with
  | start | pending | claim | claimed | spawned | insert | ready | setReady | cancelSet
  | cancelUpd | cancelDone | failSet | failUpd | failDone => first | exact hv | trivial
  | done => exact Matched.atRest hv
  | select => exact voice_orFail (w := w.setStep _ _) hv (voice_selectVoice (w := w.setStep _ _) hv)
  | extract =>
    exact voice_orFail (w := w.setStep _ _) hv (voice_prepareVoiceRef (w := w.setStep _ _) hv)
  | trimOutput => trivial
  | trimExit => exact voice_ffmpegExit
  | trimDone => exact voice_finishTrim (hclean _ _ rfl rfl) hv
  | transcribe =>
    exact voice_orFail (w := w.setStep _ _) (.inr hv) (voice_transcribeVoice (w := w.setStep _ _) hv)
  | acquireGpu =>
    obtain ⟨file, htrim, hfits⟩ := hv
    exact ⟨file, htrim, hfits, by rw [Files.get, htrim.audio]; rfl⟩
  | transcribed => exact voice_saveRefText hv
  | render =>
    exact voice_orFail (w := w.setStep _ _) (Matched.atRest hv)
      (voice_renderIdleClips (w := w.setStep _ _) hv)
  | acquireDitto | renderSpawned =>
    change Matched ((w.files.mkdir .idle).dir .voiceRef)
    rw [Files.dir_mkdir_of_ne (by simp)]
    exact hv
  | @renderOutput photo i side o _ =>
    have hsame : (idleOutput w photo i side o).voiceRef = w.voiceRef := dir_idleOutput (by simp)
    rw [hsame]; exact hv
  | @rendered photo i o _ _ _ =>
    have hsame : (idleRendered w photo i o).voiceRef = w.voiceRef := dir_idleRendered (by simp)
    refine voice_orFail ?_ ?_ <;> rw [hsame]
    · exact Matched.atRest hv
    · exact voice_nextClip hv
  | @renderFailed i _ started unlinked =>
    have hsame : (idleFailed w i started unlinked).voiceRef = w.voiceRef := dir_idleFailed (by simp)
    rw [hsame]; exact Matched.atRest hv
  | inserted =>
    dsimp only [Run.goto]
    split <;> exact hv

end

/-! ## The invariant of a run -/

/-- Left-over work that writes, but not in `voice_ref`. -/
def Orphan.sparesVoiceRef (o : Orphan) : Bool := o.writes.any fun target => target.1 ≠ .voiceRef

/-- The folder is in order for the point where the run is, and a `READY` row has its pair. -/
structure VoiceInv (w : PersonaWorld) (r : Run) : Prop where
  pc : PcVoice w.voiceRef r.pc
  ready : w.row = some .ready → Matched w.voiceRef
  claimed : r.pc.phase = .working ∨ r.pc.phase = .finishing → w.row ≠ some .ready
  orphans : ∀ o ∈ w.orphans, o.sparesVoiceRef = true

/-- The wait for ffmpeg is neither cancelled nor raises, and what follows ffmpeg goes through. -/
def RunVoiceSafe (H : Host) (w : PersonaWorld) (r : Run) : RunEvent → Prop
  | .cancel _ _ | .fail _ => r.pc.trims = false
  | .communicated a => ∀ rc ∈ r.pc.trimExit, a.Clean H w rc
  | _ => True

instance (H : Host) (w : PersonaWorld) (r : Run) (ev : RunEvent) :
    Decidable (RunVoiceSafe H w r ev) :=
  match ev with
  | .cancel _ _ | .fail _ => inferInstanceAs (Decidable (_ = _))
  | .communicated a =>
    have : ∀ rc, Decidable (a.Clean H w rc) := fun _ =>
      inferInstanceAs (Decidable ((_ → _) ∧ _ ∧ _ ∧ (∀ _ ∈ _, _) ∧ _))
    inferInstanceAs (Decidable (∀ _ ∈ _, _))
  | .start | .lock _ | .apply _ | .resume | .spawned | .output _ _ | .exit _ | .acquire
  | .transcribed _ _ | .rendered _ _ | .renderFailed _ _ _ => inferInstanceAs (Decidable True)

section
variable {H : Host} {w w' : PersonaWorld} {r r' : Run} {ev : RunEvent}

/-- Outside the working phase a step writes no file. -/
theorem BodyStep.files_of_not_working {pc : RunPc} {out : PersonaWorld × Run}
    (h : BodyStep H w r pc ev out) (hp : pc.phase ≠ .working) : out.1.files = w.files := by
  cases h <;> first | rfl | exact absurd rfl hp

theorem RunVoiceSafe.trims (hok : RunVoiceSafe H w r ev) (hi : ev.interrupts = true) :
    r.pc.trims = false := by
  cases ev with
  | fail | cancel => exact hok
  | _ => cases hi

/-- A run leaves nothing behind that writes in `voice_ref`. -/
theorem runStep_orphans (h : runStep H w r ev = some (w', r')) (hok : RunVoiceSafe H w r ev) :
    ∀ o ∈ w'.orphans, o ∈ w.orphans ∨ o.sparesVoiceRef = true := by
  intro o ho
  rcases runStep_cases h with h | ⟨hi, h⟩
  · exact .inl (h.orphans ▸ ho)
  · rcases h.leftover ho with ho | ⟨voice, -, hpc, -⟩ | ⟨i, photo, rfl, -⟩
    · exact .inl ho
    · have htrims := hok.trims hi
      rw [hpc] at htrims
      cases htrims
    · exact .inr rfl

/-- Outside the working phase a step writes no file. -/
theorem runStep_files_of_not_working (h : runStep H w r ev = some (w', r'))
    (hp : r.pc.phase ≠ .working) : w'.voiceRef = w.voiceRef := by
  rcases runStep_cases h with h | ⟨-, h⟩
  · exact congrArg (Files.dir · .voiceRef) (h.files_of_not_working hp)
  · exact h.leaves (by simp)

/-- In a handler, and at the end, the folder may be as any run finds it. -/
theorem Interrupted.pcVoice {out : PersonaWorld × Run} (h : Interrupted w r out) {vr : Option Dir}
    (hv : AtRest vr) : PcVoice vr out.2.pc :=
  h.stopped (motive := PcVoice vr) hv (fun _ => hv) hv hv (fun _ => hv) hv

/-- One step of a run keeps the folder in order for where the run is. -/
theorem runStep_voice (h : runStep H w r ev = some (w', r')) (hok : RunVoiceSafe H w r ev)
    (hv : PcVoice w.voiceRef r.pc) : PcVoice w'.voiceRef r'.pc := by
  rcases runStep_cases h with h | ⟨hi, h⟩
  · refine h.voice hv fun rc a hpc he => ?_
    subst he
    exact hok rc (by rw [hpc]; rfl)
  · rw [show w'.voiceRef = w.voiceRef from h.leaves (by simp)]
    exact h.pcVoice (hv.atRest (hok.trims hi))

theorem matched_of_finishing {vr : Option Dir} {pc : RunPc} (h : PcVoice vr pc)
    (hp : pc.phase = .finishing) : Matched vr := by
  rw [eq_of_finishing hp] at h
  exact h

/-- A `READY` status is set, or kept, on a pair. -/
theorem VoiceInv.step (hI : VoiceInv w r) (h : runStep H w r ev = some (w', r'))
    (hok : RunVoiceSafe H w r ev) : VoiceInv w' r' := by
  have hphase := runStep_phase h
  refine ⟨runStep_voice h hok hI.pc, fun hready => ?_, fun hp => ?_, fun o ho => ?_⟩
  · by_cases hw : r.pc.phase = .working
    · rw [hw] at hphase
      rw [hphase.row_of_working] at hready
      exact absurd hready (hI.claimed (.inl hw))
    · rw [runStep_files_of_not_working h hw]
      rcases hphase.ready_cases hready with hrow | hfin
      · exact hI.ready hrow
      · exact matched_of_finishing hI.pc hfin
  · exact hphase.claimed hI.claimed hp
  · rcases runStep_orphans h hok o ho with ho | ho
    · exact hI.orphans o ho
    · exact ho

end

/-! ## Sequences of runs -/

/-- The run in progress, or the one that comes next. -/
def currentRun (s : Solo PersonaWorld CreationTask) : Run :=
  match s.current with
  | some (.run r) => r
  | _ => Run.new

/-- No wait for ffmpeg is cancelled or raises, and what follows ffmpeg goes through. -/
def VoiceRefSafe (H : Host) (s : Solo PersonaWorld CreationTask) :
    Event CreationTask CreationEvent CreationEnv → Prop
  | .run _ (.run e) => RunVoiceSafe H s.world (currentRun s) e
  | _ => True

/-- A persona that is not `READY`, may have `ref_audio.*` files of an older version but no
`ref_audio.wav`, and no left-over work. -/
structure LegacyPersona (w : PersonaWorld) : Prop where
  row : w.row ≠ some .ready
  noWav : w.files.get .voiceRef refAudio = none
  orphans : w.orphans = []

section
variable {H : Host} {w w' : PersonaWorld} {s s' : Solo PersonaWorld CreationTask}
  {e : Event CreationTask CreationEvent CreationEnv}

/-- An invariant between two runs is one for the run that comes next. -/
theorem VoiceInv.next_run {r : Run} (hI : VoiceInv w r) (hr : r.pc.ended = true) :
    VoiceInv w Run.new := by
  refine ⟨hI.pc.atRest ?_, hI.ready, fun hp => ?_, hI.orphans⟩
  · cases hpc : r.pc with
    | ffmpeg rc => rw [hpc] at hr; cases hr
    | _ => rfl
  · simp [Run.new, RunPc.phase] at hp

/-- A change that does not touch the folder, the row and what is left running in the folder. -/
theorem VoiceInv.of_same {r : Run} (hI : VoiceInv w r) (hvr : w'.voiceRef = w.voiceRef)
    (hrow : w'.row = w.row) (ho : ∀ o ∈ w'.orphans, o.sparesVoiceRef = true) : VoiceInv w' r := by
  refine ⟨?_, fun h => ?_, fun hp => ?_, ho⟩
  · rw [hvr]; exact hI.pc
  · rw [hvr]; exact hI.ready (hrow ▸ h)
  · rw [hrow]; exact hI.claimed hp

theorem UploadKind.folder_ne_voiceRef {kind : UploadKind} : Folder.voiceRef ≠ kind.folder := by
  cases kind <;> simp [UploadKind.folder]

/-- Left-over work that spares the folder goes on. -/
theorem OrphanStep.spares {k : Nat} {act : OrphanAct} (h : OrphanStep w k act w')
    (ho : ∀ o ∈ w.orphans, o.sparesVoiceRef = true) : w'.voiceRef = w.voiceRef := by
  cases h with
  | write hk hw =>
    have hspares := ho _ hk
    rw [Orphan.sparesVoiceRef, hw, Option.any_some, decide_eq_true_eq] at hspares
    exact dir_write_of_ne (Ne.symm hspares)
  | written => rfl
  | remove hk hw | removed hk hw =>
    have hspares := ho _ hk
    rw [Orphan.sparesVoiceRef, hw] at hspares
    cases hspares

/-- A step of an upload. -/
theorem VoiceInv.upload {r : Run} {req : UploadRequest} {pc : UploadPc} {ev : UploadEvent}
    {out : PersonaWorld × UploadPc} (hI : VoiceInv w r) (h : UploadStep H w req pc ev out) :
    VoiceInv out.1 r := by
  refine hI.of_same (h.leaves UploadKind.folder_ne_voiceRef) h.keeps.1 fun o ho => ?_
  rcases h.keeps.2.2 o ho with ho | ⟨tmp, rfl⟩
  · exact hI.orphans o ho
  · cases req.kind <;> simp [Orphan.sparesVoiceRef, Orphan.writes, UploadKind.folder]

/-- Every step that meets the condition keeps the invariant. -/
theorem VoiceInv.next (hI : VoiceInv s.world (currentRun s)) (hok : VoiceRefSafe H s e)
    (h : (creationCoop H).soloNext CreationTask.ended s e = some s') :
    VoiceInv s'.world (currentRun s') := by
  refine creation_next_cases (motive := fun s' => VoiceInv s'.world (currentRun s')) h ?_ ?_ ?_ ?_
  · intro t _ harr hend
    have hnew : VoiceInv s.world Run.new := by
      cases hc : s.current with
      | none => rw [currentRun, hc] at hI; exact hI
      | some u =>
        rw [currentRun, hc] at hI
        cases u with
        | upload => exact hI
        | run r => exact hI.next_run (hend _ hc)
    cases t with
    | upload => exact hnew
    | run r =>
      rw [CreationTask.arriving, decide_eq_true_eq] at harr
      rw [harr]
      exact hnew
  · rintro i req pc ev w pc' rfl hc hs
    rw [currentRun, hc] at hI
    exact hI.upload hs
  · rintro i r ev w r' rfl hc hs
    rw [VoiceRefSafe, currentRun, hc] at hok
    rw [currentRun, hc] at hI
    exact hI.step hs hok
  · rintro k act w rfl hx
    have hstep := orphanStep_inv hx
    exact hI.of_same (hstep.spares hI.orphans) hstep.keeps.1 fun o ho => hI.orphans o (hstep.orphans ho)

/-- A pair is what `process_message` selects. -/
theorem refMatches_of_matched (h : Matched w.voiceRef) : RefMatches w := by
  obtain ⟨file, ⟨haudio, ⟨voice, hvoice⟩, honly⟩, text, htext, horigin⟩ := h
  refine ⟨refAudio, file, voice, text, ?_, haudio, hvoice, htext, horigin⟩
  cases hd : w.voiceRef with
  | none => rw [hd] at haudio; cases haudio
  | some d =>
    rw [Files.refAudioIn, show w.files.dir .voiceRef = some d from hd]
    rw [hd] at haudio honly
    refine head?_refAudioCandidates ?_ (by decide) fun n hn hm => honly d rfl n hn hm
    rw [← AList.lookup_isSome, show d.lookup refAudio = some file from haudio]
    rfl

end

/-! ## Main results -/

/-- The voice file of the concrete runs. -/
def sampleVoice : File := ⟨10, .bytes [0x49, 0x44, 0x33], .other⟩

/-- A persona with a photo and a voice. -/
def uploadedPersona : PersonaWorld :=
  { samplePersona with
    files := some ⟨fun
      | .photo => some (AList.singleton "face.jpg" ⟨11, .bytes [0xff, 0xd8, 0xff], .other⟩)
      | .voice => some (AList.singleton "voice.mp3" sampleVoice)
      | _ => none⟩ }

theorem uploadedPersona_legacy : LegacyPersona uploadedPersona := ⟨by decide, by decide, rfl⟩

/-- The same with the `ref_audio.mp3` and text of an older version. -/
def legacyPersona : PersonaWorld :=
  uploadedPersona.onFiles fun fs => ((fs.mkdir .voiceRef).write .voiceRef "ref_audio.mp3"
    sampleVoice).write .voiceRef refText ⟨5, .text "옛 전사", .other⟩

theorem legacyPersona_legacy : LegacyPersona legacyPersona := ⟨by decide, by decide, rfl⟩

/-- Nothing fails after ffmpeg. -/
def cleanTrim : AfterTrim := ⟨"", true, none, fun _ => true, none⟩

/-- A run arrives and goes on as far as the step that is shown before the trim. -/
def runToTrim : List RunEvent :=
  [.start, .lock none, .apply 0, .resume, .lock none, .lock none]

/-- From the text to `READY`. -/
def runFromText : List RunEvent :=
  [.lock none, .acquire, .transcribed "바다에 가자" ⟨20, none⟩, .lock none, .acquire,
    .rendered ⟨21, .bytes [1]⟩ none, .acquire, .rendered ⟨22, .bytes [2]⟩ none, .apply 1, .resume,
    .apply 2, .resume, .lock none, .apply 0]

/-- A run with its arrival. -/
def runEvents (es : List RunEvent) : List (Event CreationTask CreationEvent CreationEnv) :=
  .arrive (.run Run.new) :: es.map fun e => .run 0 (.run e)

/-- Where the file that `process_message` selects came from. -/
def refOrigin (w : PersonaWorld) : Option Origin :=
  w.files.refAudioIn.head?.bind fun name => (w.files.get .voiceRef name).map File.origin

theorem RefMatches.refOrigin {w : PersonaWorld} (h : RefMatches w) :
    ∃ voice, refOrigin w = some (.trim voice true) := by
  obtain ⟨name, file, voice, _, hname, hfile, horigin, -⟩ := h
  exact ⟨voice, by rw [YeounEngine.refOrigin, hname, Option.bind_some, hfile, Option.map_some, horigin]⟩

instance (H : Host) (s : Solo PersonaWorld CreationTask)
    (e : Event CreationTask CreationEvent CreationEnv) : Decidable (VoiceRefSafe H s e) :=
  match e with
  | .run _ (.run _) => inferInstanceAs (Decidable (RunVoiceSafe _ _ _ _))
  | .run _ (.upload _) | .arrive _ | .env _ => inferInstanceAs (Decidable True)

end YeounEngine
