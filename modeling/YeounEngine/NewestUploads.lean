import YeounEngine.VoiceRef

/-!
# The newest uploads

A run takes the newest voice file and the newest photo, but keeps a `ref_audio.wav` that exists and every
idle clip that is not empty, whatever they were made from. So the outputs are those of the newest
inputs only when the inputs do not change while outputs are kept: `InputsUnused` is that
condition, `Fresh` the invariant that it saves, and `FreshAt` what it gives at each point of a run.

Without it `stale_trim_ready` fails a run after its trim, uploads a newer voice, and sets `READY` with the
trim of the older one.
-/

namespace YeounEngine

open Transition

/-! ## The property -/

/-- The kind of upload and the file that a content was made from. -/
def Origin.input : Origin → Option (UploadKind × Picked)
  | .trim voice _ => some (.voice, voice)
  | .render photo _ => some (.photo, photo)
  | .other | .transcript _ => none

/-- The file was made from the newest upload of the kind. -/
def FromNewest (w : PersonaWorld) (kind : UploadKind) (file : File) : Prop :=
  ∃ p, w.files.newestIn kind.folder = some p ∧ file.origin.input = some (kind, p)

/-- The file exists and was made from the newest upload of the kind. -/
def MadeFromNewest (w : PersonaWorld) (kind : UploadKind) (sub : Folder) (name : String) : Prop :=
  ∃ file, w.files.get sub name = some file ∧ FromNewest w kind file

/-- A file that is as before, or made from the newest upload of the kind. -/
def Rewritten (w : PersonaWorld) (kind : UploadKind) (old new : Option File) : Prop :=
  new = old ∨ ∃ file, new = some file ∧ FromNewest w kind file

/-- `p` is a newest upload of the kind, and what `out` lists was made from it. -/
def MadeFrom (w : PersonaWorld) (kind : UploadKind) (p : Picked) (out : List (Folder × String)) :
    Prop :=
  (∃ d, w.files.dir kind.folder = some d ∧ IsNewest d p) ∧
    ∀ target ∈ out, ∃ file, w.files.get target.1 target.2 = some file ∧
      file.origin.input = some (kind, p)

/-- The outputs of a kind of upload. -/
def UploadKind.outputs : UploadKind → List (Folder × String)
  | .voice => [(.voiceRef, refAudio)]
  | .photo => (List.range idleCount).map fun i => (.idle, idleName i)

/-- The run selected newest uploads, and every output was made from what it selected. -/
def UsesNewest (w : PersonaWorld) (r : Run) : Prop :=
  (∃ voice, r.voice = some voice ∧ MadeFrom w .voice voice UploadKind.voice.outputs) ∧
    ∃ photo, r.photo = some photo ∧ MadeFrom w .photo photo UploadKind.photo.outputs

/-! ## The condition -/

/-- The kind of upload and the file that left-over work makes its output from. -/
def Orphan.input : Orphan → Option (UploadKind × Picked)
  | .ffmpeg voice => some (.voice, voice)
  | .idleRender photo _ => some (.photo, photo)
  | _ => none

/-- A run would make every output of the kind again, and nothing writes one. -/
def Unused (w : PersonaWorld) (kind : UploadKind) : Prop :=
  (match kind with
    | .voice => w.files.has .voiceRef refAudio = false
    | .photo => ∀ i < idleCount, w.files.hasNonempty .idle (idleName i) = false) ∧
  ∀ o ∈ w.orphans, (o.input.map Prod.fst) ≠ some kind

instance (w : PersonaWorld) (kind : UploadKind) : Decidable (Unused w kind) :=
  match kind with
  | .voice => inferInstanceAs (Decidable (_ = false ∧ ∀ o ∈ w.orphans, _))
  | .photo => inferInstanceAs (Decidable ((∀ i < idleCount, _) ∧ ∀ o ∈ w.orphans, _))

/-- A worker thread that writes an upload. -/
def Orphan.uploads : Orphan → Bool
  | .tmpWrite _ _ => true
  | _ => false

/-- Uploads and runs do not overlap: none arrives while the thread of a cancelled upload still writes. -/
def Apart (s : Solo PersonaWorld CreationTask) :
    Event CreationTask CreationEvent CreationEnv → Prop
  | .arrive _ => ∀ o ∈ s.world.orphans, o.uploads = false
  | _ => True

instance (s : Solo PersonaWorld CreationTask)
    (e : Event CreationTask CreationEvent CreationEnv) : Decidable (Apart s e) :=
  match e with
  | .arrive _ => inferInstanceAs (Decidable (∀ o ∈ s.world.orphans, _))
  | .run _ _ | .env _ => inferInstanceAs (Decidable True)

/-- The kind of the upload in progress, once its content has been read. -/
def CreationTask.uploading : CreationTask → Option UploadKind
  | .upload req (.closing (.ok _)) => some req.kind
  | _ => none

/-- An upload begins to write only while nothing made from its kind would be kept. -/
def InputsUnused (s : Solo PersonaWorld CreationTask) :
    Event CreationTask CreationEvent CreationEnv → Prop
  | .run _ (.upload (.closed _ _ _ _)) =>
    ∀ kind ∈ s.current.bind CreationTask.uploading, Unused s.world kind
  | _ => True

instance (s : Solo PersonaWorld CreationTask)
    (e : Event CreationTask CreationEvent CreationEnv) : Decidable (InputsUnused s e) :=
  match e with
  | .run _ (.upload (.closed _ _ _ _)) =>
    inferInstanceAs (Decidable (∀ kind ∈ s.current.bind CreationTask.uploading, Unused _ _))
  | .run _ (.upload .select) | .run _ (.upload .resume) | .run _ (.upload (.output _))
  | .run _ (.upload (.written _)) | .run _ (.upload (.renamed _ _)) | .run _ (.upload (.apply _))
  | .run _ (.upload (.fail _ _)) | .run _ (.upload .cancel) | .run _ (.run _) | .arrive _ | .env _ =>
    inferInstanceAs (Decidable True)

/-! ## What a run does to the outputs -/

section
variable {H : Host} {w w' : PersonaWorld} {r r' : Run} {kind : UploadKind}

theorem selectVoice_world : (selectVoice H w r).1 = w := by
  rw [selectVoice]
  split <;> rfl

theorem transcribeVoice_world : (transcribeVoice H w r).1 = w := by
  rw [transcribeVoice]
  split
  · split <;> rfl
  · rfl

/-- A segment that is entered without an exception, or not at all. -/
theorem get_orFail {fault : Option Exc} {k : PersonaWorld × Run} {f : Folder} {name : String}
    (h : k.1.files.get f name = w.files.get f name) :
    (orFail w r fault k).1.files.get f name = w.files.get f name := by
  cases fault with
  | some e => rfl
  | none => exact h

theorem get_prepareVoiceRef {name : String} :
    (prepareVoiceRef w r).1.files.get .voiceRef name = w.files.get .voiceRef name := by
  rw [prepareVoiceRef]
  split
  · rfl
  · exact get_mkdir

/-- The text is written beside the audio. -/
theorem get_saveRefText {audio : Option Content} {text : String} {a : AfterTranscribe} :
    (saveRefText w r audio text a).1.files.get .voiceRef refAudio =
      w.files.get .voiceRef refAudio := by
  rw [saveRefText]
  split
  · rename_i left _
    cases left with
    | none => rfl
    | some part =>
      change fileIn (((w.files.mkdir .voiceRef).write .voiceRef _ _).dir .voiceRef) refAudio = _
      rw [Files.write, Files.dir_modify, Files.dir_mkdir, fileIn_insert_of_ne refAudio_ne_tmp,
        fileIn_getD, Files.get]
  · change fileIn ((((w.files.mkdir .voiceRef).unlink .voiceRef _).write .voiceRef _ _).dir
      .voiceRef) refAudio = _
    rw [Files.write, Files.dir_modify, Files.unlink, Files.dir_modify, Files.dir_mkdir,
      fileIn_insert_of_ne refAudio_ne_refText, fileIn_erase_of_ne refAudio_ne_tmp, fileIn_getD,
      Files.get]

theorem get_renderIdleClips {f : Folder} {name : String} :
    (renderIdleClips H w r).1.files.get f name = w.files.get f name := by
  rw [renderIdleClips]
  split
  · rfl
  · exact get_mkdir

/-- Only ffmpeg and what follows it write the audio. -/
theorem BodyStep.get_audio {pc : RunPc} {ev : RunEvent} {out : PersonaWorld × Run}
    (h : BodyStep H w r pc ev out) (hpc : pc.trims = false) :
    out.1.files.get .voiceRef refAudio = w.files.get .voiceRef refAudio := by
  cases h with
  | select => exact get_orFail (w := w.setStep _ _) (by rw [selectVoice_world])
  | extract => exact get_orFail (w := w.setStep _ _) get_prepareVoiceRef
  | transcribe => exact get_orFail (w := w.setStep _ _) (by rw [transcribeVoice_world])
  | transcribed => exact get_saveRefText
  | render => exact get_orFail (w := w.setStep _ _) get_renderIdleClips
  | trimOutput | trimExit | trimDone => cases hpc
  | acquireDitto | renderSpawned => exact get_of_dir (Files.dir_mkdir_of_ne (by simp))
  | renderOutput => exact get_of_dir (dir_idleOutput (by simp))
  | renderFailed => exact get_of_dir (dir_idleFailed (by simp))
  | rendered =>
    exact (get_orFail (w := idleRendered w _ _ _) rfl).trans (get_of_dir (dir_idleRendered (by simp)))
  | _ => rfl

/-- Ditto renders a clip. -/
def RunPc.renders : RunPc → Bool
  | .rendering _ => true
  | _ => false

/-- Only Ditto writes the clips. -/
theorem BodyStep.get_idle {pc : RunPc} {ev : RunEvent} {out : PersonaWorld × Run} {name : String}
    (h : BodyStep H w r pc ev out) (hpc : pc.renders = false) :
    out.1.files.get .idle name = w.files.get .idle name := by
  cases h with
  | select => exact get_orFail (w := w.setStep _ _) (by rw [selectVoice_world])
  | extract =>
    exact get_orFail (w := w.setStep _ _) (get_of_dir (leaves_prepareVoiceRef (by simp)))
  | transcribe => exact get_orFail (w := w.setStep _ _) (by rw [transcribeVoice_world])
  | transcribed => exact get_of_dir (leaves_saveRefText (by simp))
  | render => exact get_orFail (w := w.setStep _ _) get_renderIdleClips
  | trimOutput | trimExit => exact get_of_dir (Files.dir_modify_of_ne (by simp))
  | trimDone => exact get_of_dir (leaves_finishTrim (by simp))
  | acquireDitto => exact get_mkdir
  | renderSpawned | renderOutput | rendered | renderFailed => cases hpc
  | _ => rfl

/-- After ffmpeg the audio is kept or removed; it is there when the run goes on. -/
theorem finishTrim_audio {rc : Int} {a : AfterTrim} :
    ((∃ e, (finishTrim H w r rc a).2 = r.failed e) ∧
      ∀ file, (finishTrim H w r rc a).1.files.get .voiceRef refAudio = some file →
        w.files.get .voiceRef refAudio = some file) ∨
    ((finishTrim H w r rc a).2 = r.goto .setTranscribing ∧
      (finishTrim H w r rc a).1.files.get .voiceRef refAudio = w.files.get .voiceRef refAudio ∧
      (w.files.get .voiceRef refAudio).isSome = true) := by
  rw [finishTrim]
  split
  · rename_i e tidy _
    refine .inl ⟨⟨e, rfl⟩, fun file hfile => ?_⟩
    cases hb : tidy && a.unlinked with
    | false => rw [hb] at hfile; exact hfile
    | true =>
      rw [hb] at hfile
      change fileIn ((w.files.unlink .voiceRef refAudio).dir .voiceRef) refAudio = _ at hfile
      rw [Files.unlink, Files.dir_modify, fileIn_erase_self] at hfile
      cases hfile
  · rename_i hverdict
    obtain ⟨-, file, hfile⟩ := trimVerdict_none hverdict
    -- the removals spare the audio
    have hstray : (w.onFiles fun fs => fs.modify .voiceRef (unlinkStrays a.strayUnlinked)).files.get
        .voiceRef refAudio = w.files.get .voiceRef refAudio := by
      change fileIn (Files.dir (Files.modify _ _ _) _) _ = _
      rw [Files.dir_modify, fileIn_unlinkStrays]
      rfl
    have hsome : (w.files.get .voiceRef refAudio).isSome = true := by
      rw [Files.get, hfile]; rfl
    cases a.globFault with
    | some e => exact .inl ⟨⟨e, rfl⟩, fun file hf => hf⟩
    | none =>
      simp only [orFail]
      split
      · cases a.refTextFault with
        | some e => exact .inl ⟨⟨e, rfl⟩, fun file hf => hstray ▸ hf⟩
        | none =>
          refine .inr ⟨rfl, Eq.trans ?_ hstray, hsome⟩
          change fileIn (Files.dir (Files.modify _ _ _) _) _ = _
          rw [Files.dir_modify, fileIn_erase_of_ne refAudio_ne_refText]
          rfl
      · exact .inr ⟨rfl, hstray, hsome⟩

/-- A write of something made from the newest upload. -/
theorem rewritten_insert {d : Option Dir} {name other : String} {file : File}
    (h : FromNewest w kind file) :
    Rewritten w kind (fileIn d other) (fileIn (d.map fun d => d.insert name file) other) := by
  by_cases hname : other = name
  · subst hname
    cases d with
    | none => exact .inl rfl
    | some d => exact .inr ⟨file, fileIn_insert_self rfl, h⟩
  · exact .inl (fileIn_insert_of_ne hname)

theorem rewritten_write {fs : Files} {f : Folder} {name other : String} {file : File}
    (h : FromNewest w kind file) :
    Rewritten w kind (fs.get f other) ((fs.write f name file).get f other) := by
  rw [Files.get, Files.get, Files.write, Files.dir_modify]
  exact rewritten_insert h

theorem ffmpegExit_audio {voice : Picked} {rc : Int} (h : w.files.newestIn .voice = some voice) :
    Rewritten w .voice (w.files.get .voiceRef refAudio)
      ((ffmpegExit w voice rc).files.get .voiceRef refAudio) := by
  change Rewritten w .voice _ (fileIn (Files.dir (Files.modify _ _ _) _) _)
  rw [Files.dir_modify, Files.get]
  cases w.files.dir .voiceRef with
  | none => exact .inl rfl
  | some d =>
    rw [Option.map_some, fileIn_some]
    split
    · rename_i file _
      split
      · exact .inr ⟨{ file with origin := .trim voice true }, fileIn_some.trans (AList.lookup_insert d),
          voice, h, rfl⟩
      · exact .inl rfl
    · exact .inl rfl

/-! ## What Ditto does to the clips -/

/-- Neither a side file nor another clip has the name of a clip. -/
theorem idleName_ne : ∀ i < idleCount, ∀ j < idleCount,
    idleName i ≠ idleName j ++ ".tmp.mp4" ∧ (i ≠ j → idleName i ≠ idleName j) := by decide

theorem idleFailed_clip {i j : Nat} {started : Bool} {unlinked : String → Bool} {file : File}
    (h : (idleFailed w i started unlinked).files.get .idle (idleName j) = some file) :
    w.files.get .idle (idleName j) = some file := by
  rw [idleFailed] at h
  split at h
  · change fileIn (Files.dir (Files.modify _ _ _) _) _ = _ at h
    rw [Files.dir_modify] at h
    rw [Files.get]
    cases hd : w.files.dir .idle with
    | none => rw [hd] at h; cases h
    | some d =>
      rw [hd, Option.map_some, fileIn_some] at h
      have hmem := AList.lookup_isSome.mp (by rw [h]; rfl)
      rw [lookup_eraseAll (mem_eraseAll.mp hmem).2] at h
      exact h
  · exact h

theorem idleRendered_clip {photo : Picked} {i : Nat} {o : Output} (hi : i < idleCount)
    (hd : (w.files.dir .idle).isSome = true) (hp : w.files.newestIn .photo = some photo) :
    (∃ file, (idleRendered w photo i o).files.get .idle (idleName i) = some file ∧
      FromNewest w .photo file) ∧
    ∀ j < idleCount, j ≠ i →
      (idleRendered w photo i o).files.get .idle (idleName j) = w.files.get .idle (idleName j) := by
  have hdir : (idleRendered w photo i o).files.dir .idle = _ :=
    Files.dir_modify.trans (congrArg (Option.map _) Files.dir_modify)
  refine ⟨⟨⟨o.now, o.content, .render photo true⟩, ?_, photo, hp, rfl⟩, fun j hj hne => ?_⟩
  · rw [Files.get, hdir]
    exact fileIn_insert_self (by rw [Option.isSome_map]; exact hd)
  · rw [Files.get, hdir, fileIn_insert_of_ne ((idleName_ne j hj i hi).2 hne),
      fileIn_erase_of_ne (idleName_ne j hj i hi).1]
    rfl

end

/-! ## The invariant -/

/-- The selection of a run is the newest upload of the kind. -/
def Chosen (w : PersonaWorld) (kind : UploadKind) (p : Option Picked) : Prop :=
  p.isSome = true ∧ w.files.newestIn kind.folder = p

/-- The voice of the run is the newest, and the audio was made from it. -/
def VoiceMade (w : PersonaWorld) (r : Run) : Prop :=
  Chosen w .voice r.voice ∧ MadeFromNewest w .voice .voiceRef refAudio

/-- The photo of the run is the newest too, and the first `n` clips were made from it. -/
def ClipsMade (w : PersonaWorld) (r : Run) (n : Nat) : Prop :=
  VoiceMade w r ∧ Chosen w .photo r.photo ∧
    ∀ i < n, MadeFromNewest w .photo .idle (idleName i)

/-- What a run has made at each of its points. -/
def FreshAt (w : PersonaWorld) (r : Run) : RunPc → Prop
  | .setExtracting | .spawning | .ffmpeg _ => Chosen w .voice r.voice
  | .setTranscribing | .waitingGpu | .transcribing _ | .setRendering => VoiceMade w r
  | .waitingDitto i | .rendering i => ClipsMade w r i ∧ i < idleCount
  | .inserting _ _ | .setReady | .updReady _ => ClipsMade w r idleCount
  | _ => True

/-- What would be kept, and what is being written, was made from the newest uploads. -/
structure Fresh (w : PersonaWorld) : Prop where
  audio : ∀ file, w.files.get .voiceRef refAudio = some file → FromNewest w .voice file
  clip : ∀ i < idleCount, ∀ file, w.files.get .idle (idleName i) = some file →
    file.content.nonempty = true → FromNewest w .photo file
  orphan : ∀ o ∈ w.orphans, ∀ kind p, o.input = some (kind, p) →
    w.files.newestIn kind.folder = some p

/-- The uploads are as before, and what is new was made from them. -/
structure Follows (w w' : PersonaWorld) : Prop where
  newest : ∀ kind : UploadKind, w'.files.newestIn kind.folder = w.files.newestIn kind.folder
  audio : ∀ file, w'.files.get .voiceRef refAudio = some file →
    w.files.get .voiceRef refAudio = some file ∨ FromNewest w .voice file
  clip : ∀ i < idleCount, ∀ file, w'.files.get .idle (idleName i) = some file →
    w.files.get .idle (idleName i) = some file ∨ FromNewest w .photo file
  orphan : ∀ o ∈ w'.orphans, o ∈ w.orphans ∨ ∃ (kind : UploadKind) (p : Picked),
    o.input = some (kind, p) ∧ w.files.newestIn kind.folder = some p

section
variable {H : Host} {w w' : PersonaWorld} {r r' : Run} {kind : UploadKind}

theorem FromNewest.of_newest {file : File} (h : FromNewest w kind file)
    (hn : w'.files.newestIn kind.folder = w.files.newestIn kind.folder) :
    FromNewest w' kind file := by
  obtain ⟨p, hp, hfile⟩ := h
  exact ⟨p, hn.trans hp, hfile⟩

theorem Chosen.of_newest {p : Option Picked} (h : Chosen w kind p)
    (hn : w'.files.newestIn kind.folder = w.files.newestIn kind.folder) : Chosen w' kind p :=
  ⟨h.1, hn.trans h.2⟩

theorem Rewritten.from_newest {old new : Option File} {file : File} (h : Rewritten w kind old new)
    (hnew : new = some file) : old = some file ∨ FromNewest w kind file := by
  rcases h with rfl | ⟨file', rfl, hfile⟩
  · exact .inl hnew
  · cases hnew; exact .inr hfile

/-- A file made from the newest upload stays one, as long as it is only made again. -/
theorem MadeFromNewest.rewritten {f : Folder} {name : String} (h : MadeFromNewest w kind f name)
    (hn : w'.files.newestIn kind.folder = w.files.newestIn kind.folder)
    (hr : Rewritten w kind (w.files.get f name) (w'.files.get f name)) :
    MadeFromNewest w' kind f name := by
  rcases hr with hsame | ⟨file, hfile, hnew⟩
  · obtain ⟨file, hfile, hold⟩ := h
    exact ⟨file, hsame.trans hfile, hold.of_newest hn⟩
  · exact ⟨file, hfile, hnew.of_newest hn⟩

theorem Fresh.follows (h : Fresh w) (hf : Follows w w') : Fresh w' := by
  refine ⟨fun file hfile => ?_, fun i hi file hfile hne => ?_, fun o ho kind p hinput => ?_⟩
  · rcases hf.audio file hfile with hold | hnew
    · exact (h.audio file hold).of_newest (hf.newest .voice)
    · exact hnew.of_newest (hf.newest .voice)
  · rcases hf.clip i hi file hfile with hold | hnew
    · exact (h.clip i hi file hold hne).of_newest (hf.newest .photo)
    · exact hnew.of_newest (hf.newest .photo)
  · rw [hf.newest]
    rcases hf.orphan o ho with hold | ⟨kind', p', hinput', hnew⟩
    · exact h.orphan o hold kind p hinput
    · rw [hinput] at hinput'
      cases hinput'
      exact hnew

/-! ## One step of a run -/

theorem BodyStep.newest {pc : RunPc} {ev : RunEvent} {out : PersonaWorld × Run}
    (h : BodyStep H w r pc ev out) (kind : UploadKind) :
    out.1.files.newestIn kind.folder = w.files.newestIn kind.folder := by
  refine newestIn_of_dir (h.leaves ?_ ?_) <;> cases kind <;> simp [UploadKind.folder]

/-- What a step writes was made from the newest uploads. -/
theorem BodyStep.follows {pc : RunPc} {ev : RunEvent} {out : PersonaWorld × Run}
    (h : BodyStep H w r pc ev out) (hat : FreshAt w r pc) : Follows w out.1 := by
  refine ⟨h.newest, fun file hfile => ?_, fun i hi file hfile => ?_, fun o ho => .inl ?_⟩
  · cases hpc : pc.trims with
    | false => exact .inl (h.get_audio hpc ▸ hfile)
    | true =>
      cases h with
      | trimOutput hv =>
        exact (rewritten_write ⟨_, hat.2.trans hv, rfl⟩).from_newest hfile
      | trimExit hv => exact (ffmpegExit_audio (hat.2.trans hv)).from_newest hfile
      | trimDone =>
        rcases finishTrim_audio with ⟨-, hsub⟩ | ⟨-, hsame, -⟩
        · exact .inl (hsub file hfile)
        · exact .inl (hsame ▸ hfile)
      | _ => cases hpc
  · cases hpc : pc.renders with
    | false => exact .inl (h.get_idle hpc ▸ hfile)
    | true =>
      cases h with
      | renderSpawned => exact .inl (get_mkdir.symm.trans hfile)
      | renderOutput hp =>
        exact (rewritten_write ⟨_, hat.1.2.1.2.trans hp, rfl⟩).from_newest hfile
      | renderFailed => exact .inl (idleFailed_clip hfile)
      | @rendered photo j o _ hp hd =>
        have hfile := (get_orFail (w := idleRendered w _ _ _) rfl).symm.trans hfile
        obtain ⟨⟨new, hnew, hfrom⟩, hother⟩ :=
          idleRendered_clip (o := o) hat.2 hd (hat.1.2.1.2.trans hp)
        by_cases hne : i = j
        · subst hne
          rw [hnew] at hfile
          cases hfile
          exact .inr hfrom
        · exact .inl ((hother i hi hne).symm.trans hfile)
      | _ => cases hpc
  · rw [h.orphans] at ho
    exact ho

theorem pickFile_ok {sub : Folder} {p : Picked} (h : pickFile H w sub = .ok p) :
    w.files.newestIn sub = some p := by
  rw [pickFile] at h
  rw [Files.newestIn]
  split at h
  · cases h
  · rename_i d hd
    rw [hd, Option.bind_some]
    split at h
    · cases h
    · rename_i hp; cases h; exact hp

/-- The next clip to render, and the ones that are kept before it. -/
theorem nextClip_spec (fs : Files) (i : Nat) (hi : i ≤ idleCount) :
    (∃ j, nextClip fs i = .waitingDitto j ∧ i ≤ j ∧ j < idleCount ∧
      ∀ k, i ≤ k → k < j → fs.hasNonempty .idle (idleName k) = true) ∨
    (nextClip fs i = .inserting 0 false ∧
      ∀ k, i ≤ k → k < idleCount → fs.hasNonempty .idle (idleName k) = true) := by
  rw [nextClip]
  split
  · rename_i j hj
    obtain ⟨-, hmem, hkept⟩ := List.find?_range'_eq_some.mp hj
    obtain ⟨hle, hlt⟩ := List.mem_range'_1.mp hmem
    exact .inl ⟨j, rfl, hle, by omega, fun k hk hkj => by simpa using hkept k hk hkj⟩
  · rename_i hnone
    refine .inr ⟨rfl, fun k hk hlt => ?_⟩
    simpa using List.find?_range'_eq_none.mp hnone k hk (by omega)

/-- The same uploads, and outputs that are as before or made from them again. -/
structure Refreshed (w w' : PersonaWorld) : Prop where
  newest : ∀ kind : UploadKind, w'.files.newestIn kind.folder = w.files.newestIn kind.folder
  audio : Rewritten w .voice (w.files.get .voiceRef refAudio) (w'.files.get .voiceRef refAudio)
  idle : ∀ name, Rewritten w .photo (w.files.get .idle name) (w'.files.get .idle name)

theorem BodyStep.refreshed {pc : RunPc} {ev : RunEvent} {out : PersonaWorld × Run}
    (h : BodyStep H w r pc ev out) (ht : pc.trims = false) (hr : pc.renders = false) :
    Refreshed w out.1 := ⟨h.newest, .inl (h.get_audio ht), fun _ => .inl (h.get_idle hr)⟩

theorem Refreshed.follows (h : Refreshed w w') (ho : ∀ o ∈ w'.orphans, o ∈ w.orphans) :
    Follows w w' :=
  ⟨h.newest, fun _ hfile => h.audio.from_newest hfile,
    fun _ _ _ hfile => (h.idle _).from_newest hfile, fun o hmem => .inl (ho o hmem)⟩

theorem VoiceMade.refreshed (h : VoiceMade w r) (hs : Refreshed w w') : VoiceMade w' r :=
  ⟨h.1.of_newest (hs.newest .voice), h.2.rewritten (hs.newest .voice) hs.audio⟩

theorem ClipsMade.refreshed {n : Nat} (h : ClipsMade w r n) (hs : Refreshed w w') :
    ClipsMade w' r n :=
  ⟨h.1.refreshed hs, h.2.1.of_newest (hs.newest .photo),
    fun i hi => (h.2.2 i hi).rewritten (hs.newest .photo) (hs.idle _)⟩

theorem FreshAt.refreshed {pc : RunPc} (h : FreshAt w r pc) (hs : Refreshed w w') :
    FreshAt w' r pc := by
  cases pc with
  | setExtracting | spawning | ffmpeg => exact Chosen.of_newest h (hs.newest .voice)
  | setTranscribing | waitingGpu | transcribing | setRendering => exact VoiceMade.refreshed h hs
  | waitingDitto | rendering => exact ⟨ClipsMade.refreshed h.1 hs, h.2⟩
  | inserting | setReady | updReady => exact ClipsMade.refreshed h hs
  | _ => trivial

/-- A clip that would be kept was made from the newest photo. -/
theorem Fresh.made_of_nonempty (h : Fresh w) {i : Nat} (hi : i < idleCount)
    (hk : w.files.hasNonempty .idle (idleName i) = true) :
    MadeFromNewest w .photo .idle (idleName i) := by
  obtain ⟨file, hfile, hne⟩ := (Option.any_eq_true _ _).mp hk
  exact ⟨file, hfile, h.clip i hi file hfile hne⟩

/-- The clips that the loop keeps count as made. -/
theorem ClipsMade.next {n : Nat} (h : ClipsMade w r n) (hf : Fresh w) (hn : n ≤ idleCount) :
    FreshAt w r (nextClip w.files n) := by
  obtain ⟨hvoice, hphoto, hmade⟩ := h
  rcases nextClip_spec w.files n hn with ⟨j, heq, hle, hlt, hkept⟩ | ⟨heq, hkept⟩
  · rw [heq]
    refine ⟨⟨hvoice, hphoto, fun i hi => ?_⟩, hlt⟩
    rcases Nat.lt_or_ge i n with hin | hni
    · exact hmade i hin
    · exact hf.made_of_nonempty (by omega) (hkept i hni hi)
  · rw [heq]
    refine ⟨hvoice, hphoto, fun i hi => ?_⟩
    rcases Nat.lt_or_ge i n with hin | hni
    · exact hmade i hin
    · exact hf.made_of_nonempty hi (hkept i hni hi)

theorem freshAt_orFail {fault : Option Exc} {k : PersonaWorld × Run}
    (h : FreshAt k.1 k.2 k.2.pc) :
    FreshAt (orFail w r fault k).1 (orFail w r fault k).2 (orFail w r fault k).2.pc := by
  cases fault with
  | some e => trivial
  | none => exact h

theorem freshAt_selectVoice : FreshAt (selectVoice H w r).1 (selectVoice H w r).2
    (selectVoice H w r).2.pc := by
  rw [selectVoice]
  split
  · trivial
  · rename_i p hp
    exact ⟨rfl, pickFile_ok hp⟩

theorem freshAt_prepareVoiceRef (hf : Fresh w) (h : Chosen w .voice r.voice) :
    FreshAt (prepareVoiceRef w r).1 (prepareVoiceRef w r).2 (prepareVoiceRef w r).2.pc := by
  rw [prepareVoiceRef]
  split
  · rename_i hhas
    obtain ⟨file, hfile⟩ := Option.isSome_iff_exists.mp hhas
    exact ⟨h, file, hfile, hf.audio file hfile⟩
  · exact h.of_newest newestIn_mkdir

theorem freshAt_renderIdleClips (hf : Fresh w) (h : VoiceMade w r) :
    FreshAt (renderIdleClips H w r).1 (renderIdleClips H w r).2 (renderIdleClips H w r).2.pc := by
  have hsame : Refreshed w (w.onFiles fun fs => fs.mkdir .idle) :=
    ⟨fun _ => newestIn_mkdir, .inl (get_of_dir (Files.dir_mkdir_of_ne (by simp))),
      fun _ => .inl get_mkdir⟩
  rw [renderIdleClips]
  split
  · trivial
  · rename_i p hp
    exact ClipsMade.next (r := ⟨_, r.voice, some p⟩) ⟨h.refreshed hsame,
      ⟨rfl, newestIn_mkdir.trans (pickFile_ok hp)⟩, fun i hi => absurd hi (Nat.not_lt_zero i)⟩
      (hf.follows (hsame.follows fun o ho => ho)) (Nat.zero_le _)

theorem freshAt_transcribeVoice (h : VoiceMade w r) : FreshAt (transcribeVoice H w r).1
    (transcribeVoice H w r).2 (transcribeVoice H w r).2.pc := by
  rw [transcribeVoice]
  split
  · split
    · exact h
    · trivial
  · exact h

theorem freshAt_saveRefText {audio : Option Content} {text : String} {a : AfterTranscribe}
    (h : VoiceMade (saveRefText w r audio text a).1 r) :
    FreshAt (saveRefText w r audio text a).1 (saveRefText w r audio text a).2
      (saveRefText w r audio text a).2.pc := by
  unfold saveRefText at h ⊢
  cases hfault : a.fault with
  | some fault => trivial
  | none => rw [hfault] at h; exact h

/-- One more clip has been rendered. -/
theorem ClipsMade.rendered {photo : Picked} {i : Nat} {o : Output} (h : ClipsMade w r i)
    (hi : i < idleCount) (hp : r.photo = some photo) (hd : (w.files.dir .idle).isSome = true)
    (hs : VoiceMade (idleRendered w photo i o) r)
    (hn : (idleRendered w photo i o).files.newestIn .photo = w.files.newestIn .photo) :
    ClipsMade (idleRendered w photo i o) r (i + 1) := by
  obtain ⟨-, hphoto, hmade⟩ := h
  obtain ⟨⟨file, hfile, hfrom⟩, hother⟩ :=
    idleRendered_clip (o := o) hi hd (hphoto.2.trans hp)
  refine ⟨hs, hphoto.of_newest hn, fun j hj => ?_⟩
  by_cases hne : j = i
  · subst hne
    exact ⟨file, hfile, hfrom.of_newest hn⟩
  · exact (hmade j (by omega)).rewritten hn (.inl (hother j (by omega) hne))

/-- A step of the success path makes what the next point needs. -/
theorem BodyStep.freshAt {pc : RunPc} {ev : RunEvent} {out : PersonaWorld × Run}
    (h : BodyStep H w r pc ev out) (hf : Fresh w) (hat : FreshAt w r pc) :
    FreshAt out.1 out.2 out.2.pc := by
  have hnewest := h.newest
  have haudio := h.get_audio
  have hsame := h.refreshed
  have hfresh : Fresh out.1 := hf.follows (h.follows hat)
  cases h with
  | start | pending | claim | claimed | done | cancelSet | cancelUpd | cancelDone | failSet
  | failUpd | failDone | renderFailed => trivial
  | select => exact freshAt_orFail freshAt_selectVoice
  | extract =>
    exact freshAt_orFail (freshAt_prepareVoiceRef (w := w.setStep _ _)
      (hf.follows ⟨fun _ => rfl, fun _ => .inl, fun _ _ _ => .inl, fun _ => .inl⟩) hat)
  | trimOutput | trimExit => exact hat.of_newest (hnewest .voice)
  | trimDone =>
    rcases finishTrim_audio with ⟨⟨e, hfail⟩, -⟩ | ⟨hgo, hkept, hsome⟩
    · rw [hfail]; trivial
    · obtain ⟨file, hfile⟩ := Option.isSome_iff_exists.mp hsome
      rw [hgo]
      exact ⟨hat.of_newest (hnewest .voice), file, hkept.trans hfile,
        hfresh.audio file (hkept.trans hfile)⟩
  | transcribe => exact freshAt_orFail (freshAt_transcribeVoice (w := w.setStep _ _) hat)
  | transcribed => exact freshAt_saveRefText (hat.refreshed (hsame rfl rfl))
  | render =>
    exact freshAt_orFail (freshAt_renderIdleClips (w := w.setStep _ _)
      (hf.follows ⟨fun _ => rfl, fun _ => .inl, fun _ _ _ => .inl, fun _ => .inl⟩) hat)
  | acquireDitto => exact ⟨hat.1.refreshed (hsame rfl rfl), hat.2⟩
  | renderSpawned =>
    exact ⟨hat.1.refreshed ⟨hnewest, .inl (haudio rfl), fun _ => .inl get_mkdir⟩, hat.2⟩
  | renderOutput hp =>
    refine ⟨hat.1.refreshed ⟨hnewest, .inl (haudio rfl), fun name => rewritten_write ?_⟩, hat.2⟩
    exact ⟨_, hat.1.2.1.2.trans hp, rfl⟩
  | @rendered photo i o fault hp hd =>
    obtain ⟨hclips, hi⟩ := hat
    cases fault with
    | some e => trivial
    | none =>
      have hvoice : VoiceMade (idleRendered w photo i o) r :=
        ⟨hclips.1.1.of_newest (hnewest .voice),
          hclips.1.2.rewritten (hnewest .voice) (.inl (haudio rfl))⟩
      exact (hclips.rendered hi hp hd hvoice (hnewest .photo)).next hfresh hi
  | spawned | acquireGpu | insert | ready | setReady => exact hat
  | inserted =>
    dsimp only [Run.goto]
    split <;> exact hat

/-- An interruption removes at most files of `idle`. -/
theorem Interrupted.clip {out : PersonaWorld × Run} (h : Interrupted w r out) {i : Nat} {file : File}
    (hfile : out.1.files.get .idle (idleName i) = some file) :
    w.files.get .idle (idleName i) = some file := by
  cases h with
  | rendering => exact idleFailed_clip hfile
  | _ => exact hfile

/-- What an interrupted run leaves running makes its output from the newest uploads. -/
theorem Interrupted.follows {out : PersonaWorld × Run} (h : Interrupted w r out)
    (hat : FreshAt w r r.pc) : Follows w out.1 := by
  have hdir : ∀ f : Folder, f ≠ .idle → out.1.files.dir f = w.files.dir f := fun f hf => h.leaves hf
  refine ⟨fun kind => newestIn_of_dir (hdir _ ?_), fun file hfile => .inl ?_,
    fun i _ file hfile => .inl (h.clip hfile), fun o ho => ?_⟩
  · cases kind <;> simp [UploadKind.folder]
  · exact (get_of_dir (hdir .voiceRef (by simp))).symm.trans hfile
  · rcases h.leftover ho with ho | ⟨voice, rfl, hpc, hv⟩ | ⟨i, photo, rfl, hpc, hp⟩
    · exact .inl ho
    · rw [hpc] at hat
      exact .inr ⟨.voice, voice, rfl, hat.2.trans hv⟩
    · rw [hpc] at hat
      exact .inr ⟨.photo, photo, rfl, hat.1.2.1.2.trans hp⟩

/-- Nothing has been made in a handler, and after the run. -/
theorem Interrupted.freshAt {out : PersonaWorld × Run} (h : Interrupted w r out) :
    FreshAt out.1 out.2 out.2.pc :=
  h.stopped (motive := FreshAt out.1 out.2) trivial (fun _ => trivial) trivial trivial (fun _ => trivial) trivial

/-- A step of a run. -/
theorem runStep_fresh {ev : RunEvent} (h : runStep H w r ev = some (w', r')) (hf : Fresh w)
    (hat : FreshAt w r r.pc) : Follows w w' ∧ FreshAt w' r' r'.pc := by
  rcases runStep_cases h with h | ⟨-, h⟩
  · exact ⟨h.follows hat, h.freshAt hf hat⟩
  · exact ⟨h.follows hat, h.freshAt⟩

/-! ## Uploads and left-over work -/

/-- The folder of what is made from the kind. -/
def UploadKind.outFolder : UploadKind → Folder
  | .voice => .voiceRef
  | .photo => .idle

theorem outFolder_ne_folder {k k' : UploadKind} : k.outFolder ≠ k'.folder := by
  cases k <;> cases k' <;> simp [UploadKind.outFolder, UploadKind.folder]

/-- Nothing made from the kind appears while the folder of its outputs is left alone. -/
theorem Unused.of_dir (h : Unused w kind)
    (hd : w'.files.dir kind.outFolder = w.files.dir kind.outFolder)
    (ho : ∀ o ∈ w'.orphans, o ∈ w.orphans ∨ o.input = none) : Unused w' kind := by
  refine ⟨?_, fun o hmem => ?_⟩
  · cases kind with
    | voice => exact (congrArg Option.isSome (get_of_dir hd)).trans h.1
    | photo =>
      intro i hi
      exact (congrArg (Option.any _) (get_of_dir hd)).trans (h.1 i hi)
  · rcases ho o hmem with hold | hnone
    · exact h.2 o hold
    · rw [hnone]; exact Option.some_ne_none _ ∘ Eq.symm

/-- While nothing is made from the kind, its uploads may change. -/
theorem Fresh.upload (h : Fresh w) (hu : Unused w kind)
    (hd : ∀ f, f ≠ kind.folder → w'.files.dir f = w.files.dir f)
    (ho : ∀ o ∈ w'.orphans, o ∈ w.orphans ∨ o.input = none) : Fresh w' := by
  have hout : ∀ kind' : UploadKind, w'.files.dir kind'.outFolder = w.files.dir kind'.outFolder :=
    fun kind' => hd _ outFolder_ne_folder
  have hnewest : ∀ kind' : UploadKind, kind' ≠ kind →
      w'.files.newestIn kind'.folder = w.files.newestIn kind'.folder := fun kind' hne =>
    newestIn_of_dir (hd _ fun heq => hne (by cases kind <;> cases kind' <;> first | rfl | cases heq))
  refine ⟨fun file hfile => ?_, fun i hi file hfile hne => ?_, fun o hmem kind' p hinput => ?_⟩
  · have hfile : w.files.get .voiceRef refAudio = some file :=
      (get_of_dir (hout .voice)).symm.trans hfile
    refine (h.audio file hfile).of_newest (hnewest .voice ?_)
    rintro rfl
    have : (w.files.get .voiceRef refAudio).isSome = false := hu.1
    rw [hfile] at this
    cases this
  · have hfile : w.files.get .idle (idleName i) = some file :=
      (get_of_dir (hout .photo)).symm.trans hfile
    refine (h.clip i hi file hfile hne).of_newest (hnewest .photo ?_)
    rintro rfl
    have : (w.files.get .idle (idleName i)).any _ = false := hu.1 i hi
    rw [hfile, Option.any_some, hne] at this
    cases this
  · rcases ho o hmem with hold | hnone
    · rw [hnewest kind' ?_]
      · exact h.orphan o hold kind' p hinput
      · rintro rfl
        exact hu.2 o hold (by rw [hinput]; rfl)
    · rw [hnone] at hinput
      cases hinput

/-- The upload writes. -/
def UploadPc.saving : UploadPc → Bool
  | .writing _ _ _ _ => true
  | _ => false

/-- Before it writes and after, an upload leaves the newest files alone. -/
theorem UploadStep.newest {req : UploadRequest} {pc : UploadPc} {ev : UploadEvent}
    {out : PersonaWorld × UploadPc} {f : Folder} (h : UploadStep H w req pc ev out)
    (hpc : pc.saving = false) :
    out.1.files.newestIn f = w.files.newestIn f ∧ out.1.orphans = w.orphans := by
  cases h with
  | opened => exact ⟨newestIn_mkdir, rfl⟩
  | insert =>
    rw [insertAsset]
    split <;> exact ⟨rfl, rfl⟩
  | output | written | renamed | renameFailed | writeFailed | cancelWriting | cancelWritten => cases hpc
  | _ => exact ⟨rfl, rfl⟩

/-- An upload writes from the moment it has been closed. -/
theorem UploadStep.saving {req : UploadRequest} {pc : UploadPc} {ev : UploadEvent}
    {out : PersonaWorld × UploadPc} (h : UploadStep H w req pc ev out) (hp : out.2.saving = true) :
    pc.saving = true ∨ ∃ data fresh tmp forbidden fault,
      pc = .closing (.ok data) ∧ ev = .closed fresh tmp forbidden fault := by
  cases h with
  | opened => exact .inr ⟨_, _, _, _, _, rfl, rfl⟩
  | output | written => exact .inl rfl
  | _ => cases hp

/-- The thread of a cancelled upload goes on. -/
theorem UploadStep.orphans {req : UploadRequest} {pc : UploadPc} {ev : UploadEvent}
    {out : PersonaWorld × UploadPc} (h : UploadStep H w req pc ev out) :
    out.1.orphans = w.orphans ∨ pc.saving = true ∧ out.2.ended = true ∧
      ∃ tmp, out.1.orphans = w.orphans ++ [.tmpWrite req.kind.folder tmp] := by
  cases h with
  | cancelWriting => exact .inr ⟨rfl, rfl, _, rfl⟩
  | renameFailed | writeFailed =>
    rw [dropTmp]
    split <;> exact .inl rfl
  | insert =>
    rw [insertAsset]
    split <;> exact .inl rfl
  | _ => exact .inl rfl

/-- An upload that takes a step has not ended. -/
theorem UploadStep.not_ended {req : UploadRequest} {pc : UploadPc} {ev : UploadEvent}
    {out : PersonaWorld × UploadPc} (h : UploadStep H w req pc ev out) : pc.ended = false := by
  cases h <;> rfl

/-- What an upload leaves running is no input. -/
theorem UploadStep.leftover {req : UploadRequest} {pc : UploadPc} {ev : UploadEvent}
    {out : PersonaWorld × UploadPc} (h : UploadStep H w req pc ev out) {o : Orphan}
    (ho : o ∈ out.1.orphans) : o ∈ w.orphans ∨ o.input = none := by
  rcases h.keeps.2.2 o ho with ho | ⟨tmp, rfl⟩
  · exact .inl ho
  · exact .inr rfl

/-- What a step of left-over work that removes nothing does: it ends, or it writes the file it is about. -/
theorem OrphanStep.ends_or_writes {k : Nat} {act : OrphanAct} (h : OrphanStep w k act w')
    (hn : ∀ o ∈ w.orphans, o.writes ≠ none) :
    w'.files = w.files ∨
    ∃ o ∈ w.orphans, ∃ sub target name file, o.writes = some (sub, target, file.origin) ∧
      w' = w.onFiles fun fs => (if o.makesFolder then fs.mkdir sub else fs).write sub name file := by
  cases h with
  | @write o sub target origin side out hk hw =>
    exact .inr ⟨o, hk, sub, target, _, ⟨out.now, out.content, origin⟩, hw, rfl⟩
  | written => exact .inl rfl
  | remove hk hw | removed hk hw => exact absurd hw (hn _ hk)

/-- Left-over work, other than of an upload, makes its output again from the newest upload. -/
theorem refreshed_of_write {o : Orphan} {sub : Folder} {target name : String} {file : File}
    (ho : o.writes = some (sub, target, file.origin)) (hup : o.uploads = false)
    (hnew : ∀ kind p, o.input = some (kind, p) → w.files.newestIn kind.folder = some p) :
    Refreshed w (w.onFiles fun fs =>
      (if o.makesFolder then fs.mkdir sub else fs).write sub name file) := by
  have hkind : ∀ kind : UploadKind, kind.folder ≠ sub := by
    intro kind heq
    have hsub := congrArg (Option.map Prod.fst) ho
    cases o <;> cases hsub <;> cases kind <;> first | (cases hup; done) | cases heq
  refine ⟨fun kind => newestIn_of_dir (dir_write_of_ne (hkind kind)), ?_, fun other => ?_⟩
  · by_cases hsub : Folder.voiceRef = sub
    · subst hsub
      cases o with
      | ffmpeg voice =>
        refine rewritten_write ⟨voice, hnew .voice voice rfl, ?_⟩
        simp only [Orphan.writes, Option.some.injEq, Prod.mk.injEq] at ho
        rw [← ho.2.2]; rfl
      | tmpWrite => cases hup
      | _ => cases ho
    · exact .inl (get_of_dir (dir_write_of_ne hsub))
  · by_cases hsub : Folder.idle = sub
    · subst hsub
      cases o with
      | idleRender photo target =>
        have hmade : FromNewest w .photo file := by
          refine ⟨photo, hnew .photo photo rfl, ?_⟩
          simp only [Orphan.writes, Option.some.injEq, Prod.mk.injEq] at ho
          rw [← ho.2.2]; rfl
        have hsame : (w.files.mkdir .idle).get .idle other = w.files.get .idle other := get_mkdir
        rw [← hsame]
        exact rewritten_write hmade
      | tmpWrite => cases hup
      | _ => cases ho
    · exact .inl (get_of_dir (dir_write_of_ne hsub))

/-- Left-over work that writes in the folder of the outputs of a kind makes them from that kind. -/
theorem input_of_outFolder {o : Orphan} {target : String} {origin : Origin}
    (ho : o.writes = some (kind.outFolder, target, origin)) (hup : o.uploads = false) :
    o.input.map Prod.fst = some kind := by
  have hsub := congrArg (Option.map Prod.fst) ho
  cases o <;> cases kind <;> first | rfl | (cases hsub; done) | cases hup

end

/-! ## Sequences of uploads and runs -/

/-- What a task in progress relies on. -/
def CurrentFresh (w : PersonaWorld) : Option CreationTask → Prop
  | some (.run r) => FreshAt w r r.pc
  | some (.upload req (.writing _ _ _ _)) => Unused w req.kind
  | _ => True

/-- The outputs are those of the newest uploads, or the uploads are not in use. -/
structure FreshState (s : Solo PersonaWorld CreationTask) : Prop where
  fresh : Fresh s.world
  current : CurrentFresh s.world s.current
  uploads : ∀ sub tmp, .tmpWrite sub tmp ∈ s.world.orphans →
    (∃ kind : UploadKind, sub = kind.folder ∧ Unused s.world kind) ∧
      ∀ t, s.current = some t → t.ended = true
  noRemoval : ∀ o ∈ s.world.orphans, o.writes ≠ none

section
variable {H : Host} {s s' : Solo PersonaWorld CreationTask} {w' : PersonaWorld}
  {e : Event CreationTask CreationEvent CreationEnv}

/-- A step of an upload that meets the condition. -/
theorem FreshState.upload {req : UploadRequest} {pc pc' : UploadPc} {ev : UploadEvent} {i : Nat}
    (h : FreshState s) (hc : s.current = some (.upload req pc))
    (hok : InputsUnused s (.run i (.upload ev)))
    (hs : UploadStep H s.world req pc ev (w', pc')) : FreshState ⟨w', some (.upload req pc')⟩ := by
  have hdir : ∀ f, f ≠ req.kind.folder → w'.files.dir f = s.world.files.dir f :=
    fun f hf => hs.leaves hf
  have hinput : ∀ o ∈ w'.orphans, o ∈ s.world.orphans ∨ o.input = none := fun o ho => hs.leftover ho
  -- while it writes, nothing made from its kind is in use
  have hunused : pc.saving = true → Unused s.world req.kind := by
    intro hsaving
    have hcur := h.current
    rw [hc] at hcur
    cases pc <;> first | exact hcur | cases hsaving
  have hafter : Unused s.world req.kind → Unused w' req.kind := fun hu =>
    hu.of_dir (hdir _ outFolder_ne_folder) hinput
  -- and no thread of an earlier upload is left, since this one has not ended
  have hnone : ∀ sub tmp, .tmpWrite sub tmp ∉ s.world.orphans := by
    intro sub tmp hold
    have hended : pc.ended = true := (h.uploads sub tmp hold).2 _ hc
    rw [hs.not_ended] at hended
    cases hended
  refine ⟨?_, ?_, fun sub tmp hmem => ?_, fun o hmem => ?_⟩
  · cases hsaving : pc.saving with
    | true => exact h.fresh.upload (hunused hsaving) hdir hinput
    | false =>
      refine h.fresh.follows (Refreshed.follows ⟨fun kind => (hs.newest hsaving).1,
        .inl (get_of_dir (hdir _ ?_)), fun name => .inl (get_of_dir (hdir _ ?_))⟩ fun o ho => ?_)
      · exact outFolder_ne_folder (k := .voice)
      · exact outFolder_ne_folder (k := .photo)
      · exact (hs.newest (f := .photo) hsaving).2 ▸ ho
  · cases pc' with
    | writing name tmp data applied =>
      refine hafter ?_
      rcases hs.saving rfl with hsaving | ⟨data, fresh, tmp, forbidden, fault, rfl, rfl⟩
      · exact hunused hsaving
      · exact hok req.kind (by rw [hc]; rfl)
    | _ => trivial
  · rcases hs.orphans with heq | ⟨hsaving, hend, tmp', heq⟩
    · exact absurd (heq ▸ hmem) (hnone sub tmp)
    · refine ⟨?_, fun t ht => by cases ht; exact hend⟩
      rw [heq] at hmem
      rcases List.mem_append.mp hmem with hold | hnew
      · exact absurd hold (hnone sub tmp)
      · cases List.mem_singleton.mp hnew
        exact ⟨req.kind, rfl, hafter (hunused hsaving)⟩
  · rcases hs.keeps.2.2 o hmem with hold | ⟨tmp, rfl⟩
    · exact h.noRemoval o hold
    · exact Option.some_ne_none _

/-- A step of a run. -/
theorem FreshState.run {r r' : Run} {ev : RunEvent} (h : FreshState s)
    (hc : s.current = some (.run r)) (hs : runStep H s.world r ev = some (w', r')) :
    FreshState ⟨w', some (.run r')⟩ := by
  have hat : FreshAt s.world r r.pc := by
    have hcur := h.current
    rw [hc] at hcur
    exact hcur
  obtain ⟨hfollows, hat'⟩ := runStep_fresh hs h.fresh hat
  refine ⟨h.fresh.follows hfollows, hat', fun sub tmp hmem => ?_, fun o hmem => ?_⟩
  · rcases hfollows.orphan _ hmem with hold | ⟨kind, p, hinput, -⟩
    · have hended := (h.uploads sub tmp hold).2 _ hc
      exact absurd (ended_iff_phase.mp hended) (runStep_phase hs).ne_ended
    · cases hinput
  · rcases hfollows.orphan _ hmem with hold | ⟨kind, p, hinput, -⟩
    · exact h.noRemoval o hold
    · cases o <;> first | exact Option.some_ne_none _ | cases hinput

/-- A change that makes outputs again from the newest uploads only, and brings none that is in use. -/
theorem FreshState.of_refreshed (h : FreshState s) (hr : Refreshed s.world w')
    (hsub : ∀ o ∈ w'.orphans, o ∈ s.world.orphans)
    (hunused : ∀ kind, Unused s.world kind → Unused w' kind) : FreshState ⟨w', s.current⟩ := by
  refine ⟨h.fresh.follows (hr.follows hsub), ?_, fun sub tmp hmem => ?_,
    fun o hmem => h.noRemoval o (hsub _ hmem)⟩
  · have hcur := h.current
    unfold CurrentFresh at hcur ⊢
    split
    · rename_i heq; rw [heq] at hcur; exact hcur.refreshed hr
    · rename_i heq; rw [heq] at hcur; exact hunused _ hcur
    · trivial
  · obtain ⟨⟨kind, hkind, hu⟩, hend⟩ := h.uploads sub tmp (hsub _ hmem)
    exact ⟨⟨kind, hkind, hunused kind hu⟩, hend⟩

/-- The thread of a cancelled upload writes: nothing is in progress, and nothing made from its kind is in
use. -/
theorem FreshState.thread {sub : Folder} {tmp : String} (h : FreshState s)
    (hmem : .tmpWrite sub tmp ∈ s.world.orphans)
    (hdir : ∀ f, f ≠ sub → w'.files.dir f = s.world.files.dir f)
    (ho : w'.orphans = s.world.orphans) : FreshState ⟨w', s.current⟩ := by
  have hsub : ∀ o ∈ w'.orphans, o ∈ s.world.orphans := fun o hmem => ho ▸ hmem
  obtain ⟨⟨kind, rfl, hu⟩, hend⟩ := h.uploads sub tmp hmem
  refine ⟨h.fresh.upload hu hdir fun o hmem => .inl (hsub o hmem), ?_, fun sub tmp hmem => ?_,
    fun o hmem => h.noRemoval o (hsub o hmem)⟩
  · unfold CurrentFresh
    split
    · rename_i r hcur
      have hr : r.pc.ended = true := hend _ hcur
      unfold FreshAt
      split <;> rename_i hpc <;> first | trivial | (rw [hpc] at hr; cases hr)
    · rename_i hcur
      cases hend _ hcur
    · trivial
  · obtain ⟨⟨kind', hkind, hu'⟩, hend⟩ := h.uploads sub tmp (hsub _ hmem)
    exact ⟨⟨kind', hkind, hu'.of_dir (hdir _ outFolder_ne_folder) fun o hmem => .inl (hsub o hmem)⟩, hend⟩

/-- A step of left-over work. -/
theorem FreshState.orphan {k : Nat} {act : OrphanAct} (h : FreshState s)
    (hs : s.world.orphanStep k act = some w') : FreshState ⟨w', s.current⟩ := by
  have hsub : ∀ o ∈ w'.orphans, o ∈ s.world.orphans := fun o ho => (orphanStep_inv hs).orphans ho
  rcases (orphanStep_inv hs).ends_or_writes h.noRemoval with hfiles |
    ⟨o, hmem, sub, target, name, file, hwrites, rfl⟩
  · refine h.of_refreshed ⟨fun _ => by rw [hfiles], .inl (by rw [hfiles]),
      fun _ => .inl (by rw [hfiles])⟩ hsub fun kind hu => ?_
    exact hu.of_dir (by rw [hfiles]) fun o ho => .inl (hsub o ho)
  · cases hup : o.uploads with
    | true =>
      obtain ⟨sub', tmp, rfl⟩ : ∃ sub' tmp, o = .tmpWrite sub' tmp := by
        cases o <;> first | exact ⟨_, _, rfl⟩ | cases hup
      cases congrArg (Option.map Prod.fst) hwrites
      exact h.thread hmem (fun f hf => dir_write_of_ne hf) rfl
    | false =>
      refine h.of_refreshed (refreshed_of_write hwrites hup (h.fresh.orphan o hmem)) (fun o ho => ho)
        fun kind hu => hu.of_dir (dir_write_of_ne ?_) fun o ho => .inl ho
      rintro rfl
      exact hu.2 o hmem (input_of_outFolder hwrites hup)

/-- Every step that meets the condition keeps the invariant. -/
theorem FreshState.next (h : FreshState s) (hapart : Apart s e) (hok : InputsUnused s e)
    (hs : (creationCoop H).soloNext CreationTask.ended s e = some s') : FreshState s' := by
  refine creation_next_cases (motive := FreshState) hs ?_ ?_ ?_ ?_
  · rintro t rfl harr -
    refine ⟨h.fresh, ?_, fun sub tmp hmem => ?_, h.noRemoval⟩
    · cases t with
      | upload req pc => cases pc <;> trivial
      | run r =>
        rw [CreationTask.arriving, decide_eq_true_eq] at harr
        rw [harr]
        trivial
    · cases hapart _ hmem
  · rintro i req pc ev w' pc' rfl hc hupload
    exact h.upload hc hok hupload
  · rintro i r ev w' r' rfl hc hrun
    exact h.run hc hrun
  · rintro k act w' rfl hx
    exact h.orphan hx

end

/-- A persona without outputs and left-over work. -/
structure NoOutputs (w : PersonaWorld) : Prop where
  audio : w.files.get .voiceRef refAudio = none
  idle : ∀ i < idleCount, w.files.hasNonempty .idle (idleName i) = false
  orphans : w.orphans = []

theorem NoOutputs.fresh {w : PersonaWorld} (h : NoOutputs w) : Fresh w := by
  refine ⟨fun file hfile => ?_, fun i hi file hfile hne => ?_, fun o ho => ?_⟩
  · rw [h.audio] at hfile; cases hfile
  · have := h.idle i hi
    rw [Files.hasNonempty, hfile, Option.any_some, hne] at this
    cases this
  · rw [h.orphans] at ho; cases ho

theorem usesNewest_of_clipsMade {w : PersonaWorld} {r : Run} (h : ClipsMade w r idleCount) :
    UsesNewest w r := by
  have chosen : ∀ {kind : UploadKind} {p : Option Picked}, Chosen w kind p → ∃ q, p = some q ∧
      w.files.newestIn kind.folder = some q ∧ ∃ d, w.files.dir kind.folder = some d ∧ IsNewest d q := by
    rintro kind p ⟨hsome, hp⟩
    obtain ⟨q, rfl⟩ := Option.isSome_iff_exists.mp hsome
    obtain ⟨d, hd, hq⟩ := Option.bind_eq_some_iff.mp hp
    exact ⟨q, rfl, hp, d, hd, isNewest_of_newest hq⟩
  have made : ∀ {kind : UploadKind} {q : Picked} {f : Folder} {name : String},
      w.files.newestIn kind.folder = some q → MadeFromNewest w kind f name →
      ∃ file, w.files.get f name = some file ∧ file.origin.input = some (kind, q) := by
    rintro kind q f name hq ⟨file, hfile, p, hp, horigin⟩
    rw [hq] at hp
    cases hp
    exact ⟨file, hfile, horigin⟩
  obtain ⟨⟨hvoice, haudio⟩, hphoto, hclips⟩ := h
  obtain ⟨voice, hv, hnv, hdv⟩ := chosen hvoice
  obtain ⟨photo, hp, hnp, hdp⟩ := chosen hphoto
  refine ⟨⟨voice, hv, hdv, fun target ht => ?_⟩, photo, hp, hdp, fun target ht => ?_⟩
  · rw [List.mem_singleton.mp ht]
    exact made hnv haudio
  · obtain ⟨i, hi, rfl⟩ := List.mem_map.mp ht
    exact made hnp (hclips i (List.mem_range.mp hi))

/-! ## Main results -/

/-- In every sequence of uploads and runs in which an upload begins to write only while nothing made
from its kind would be kept, whatever fails or is cancelled: when a run sets `READY`, the trim
was made from a newest voice and every idle clip from a newest photo, those that the run selected. -/
theorem usesNewest_of_inputsUnused (H : Host) (s : Solo PersonaWorld CreationTask) (r : Run)
    (applied : Bool)
    (h : (creationSystem H NoOutputs).Reach (fun s e => Apart s e ∧ InputsUnused s e) s)
    (hr : s.current = some (.run r)) (hpc : r.pc = .updReady applied) : UsesNewest s.world r := by
  have hinv : FreshState s := by
    refine h.inv (I := FreshState) (fun s hs => ?_)
      fun s e t hI hok hstep => hI.next hok.1 hok.2 hstep
    obtain ⟨hw, hcur⟩ := hs
    refine ⟨hw.fresh, by rw [hcur]; trivial, fun sub tmp hmem => ?_, fun o hmem => ?_⟩
    · rw [hw.orphans] at hmem; cases hmem
    · rw [hw.orphans] at hmem; cases hmem
  have hcur := hinv.current
  rw [hr] at hcur
  change FreshAt s.world r r.pc at hcur
  rw [hpc] at hcur
  exact usesNewest_of_clipsMade hcur

/-- An upload of the kind, stored under its name at the time `now`. -/
def uploadEvents (kind : UploadKind) (contentType name : String) (body : List UInt8) (now : Nat) :
    List (Event CreationTask CreationEvent CreationEnv) :=
  .arrive (.upload ⟨kind, some contentType, some name, body⟩ (.getting none)) ::
    [.select, .resume, .resume, .resume, .closed 7 8 false none, .written now, .renamed none true,
      .apply 9, .resume].map fun e => .run 0 (.upload e)

/-- A photo and a voice. -/
def bothUploads : List (Event CreationTask CreationEvent CreationEnv) :=
  uploadEvents .photo "image/jpeg" "face.jpg" [0xff, 0xd8, 0xff, 0xe0] 5 ++
    uploadEvents .voice "audio/mpeg" "voice.mp3" [0x49, 0x44, 0x33, 4] 6

theorem samplePersona_noOutputs : NoOutputs samplePersona := ⟨by decide, by decide, rfl⟩

/-- The run in progress, when it is at its last status update. -/
def settingReady (s : Solo PersonaWorld CreationTask) : Option Run :=
  match s.current with
  | some (.run r) => if r.pc = .updReady true then some r else none
  | _ => none

theorem settingReady_eq_some {s : Solo PersonaWorld CreationTask} {r : Run}
    (h : settingReady s = some r) : s.current = some (.run r) ∧ r.pc = .updReady true := by
  unfold settingReady at h
  split at h
  · rename_i r' hc
    split at h
    · rename_i hpc; cases h; exact ⟨hc, hpc⟩
    · cases h
  · cases h

/-- The theorem at a run: both uploads, and a run that sets `READY`. -/
theorem usesNewest_of_inputsUnused_run : ∃ s r, (creationSystem sampleHost NoOutputs).Reach
    (fun s e => Apart s e ∧ InputsUnused s e) s ∧ s.current = some (.run r) ∧
    r.pc = .updReady true ∧ UsesNewest s.world r := by
  have h : ((creationSystem sampleHost NoOutputs).exec (fun s e => Apart s e ∧ InputsUnused s e)
      ⟨samplePersona, none⟩ (bothUploads ++ runEvents (runToTrim ++
        [.spawned, .output false ⟨12, .bytes riff⟩, .exit 0, .communicated cleanTrim] ++
        runFromText))).any (fun s => (settingReady s).isSome) = true := by
    decide +kernel
  obtain ⟨s, hsteps, hready⟩ := System.exists_of_exec h
  obtain ⟨r, hr⟩ := Option.isSome_iff_exists.mp hready
  obtain ⟨hcur, hpc⟩ := settingReady_eq_some hr
  have hreach : (creationSystem sampleHost NoOutputs).Reach
      (fun s e => Apart s e ∧ InputsUnused s e) s := ⟨_, ⟨samplePersona_noOutputs, rfl⟩, hsteps⟩
  exact ⟨s, r, hreach, hcur, hpc, usesNewest_of_inputsUnused _ s r true hreach hcur hpc⟩

/-- A run that fails after its trim, a newer voice, and a run that sets `READY` with the trim of the
older one. -/
theorem stale_trim_ready : ∃ s r, (creationSystem sampleHost NoOutputs).Reach Apart s ∧
    s.current = some (.run r) ∧ r.pc = .updReady true ∧ ¬ UsesNewest s.world r := by
  have h : ((creationSystem sampleHost NoOutputs).exec Apart ⟨samplePersona, none⟩
      (bothUploads ++ runEvents (runToTrim ++ [.spawned, .output false ⟨12, .bytes riff⟩, .exit 0,
        .communicated cleanTrim, .fail ⟨"RuntimeError", ""⟩, .lock none, .apply 0, .resume]) ++
        uploadEvents .voice "audio/mpeg" "newer.mp3" [0x49, 0x44, 0x33, 4, 5] 30 ++
        runEvents (runToTrim ++ runFromText))).any (fun s =>
          (settingReady s).any fun r => r.voice.map Picked.name = some "newer.mp3" ∧
            ((s.world.files.get .voiceRef refAudio).bind fun file =>
              file.origin.input.map fun input => input.2.name) = some "voice.mp3") = true := by
    decide +kernel
  obtain ⟨s, hsteps, hbad⟩ := System.exists_of_exec h
  obtain ⟨r, hr, hbad⟩ := (Option.any_eq_true _ _).mp hbad
  obtain ⟨hname, haudio⟩ := of_decide_eq_true hbad
  obtain ⟨hcur, hpc⟩ := settingReady_eq_some hr
  refine ⟨s, r, ⟨_, ⟨samplePersona_noOutputs, rfl⟩, hsteps⟩, hcur, hpc, ?_⟩
  rintro ⟨⟨voice, hvoice, -, hmade⟩, -⟩
  obtain ⟨file, hfile, hinput⟩ := hmade _ List.mem_cons_self
  rw [hfile, Option.bind_some, hinput, Option.map_some] at haudio
  rw [hvoice, Option.map_some] at hname
  exact absurd (hname.symm.trans haudio) (by decide)

end YeounEngine
