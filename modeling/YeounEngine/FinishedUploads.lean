import YeounEngine.ReadyUsable
import YeounEngine.SessionEnd
import YeounEngine.Lib.Auxiliary

/-!
# Finished uploads

`_save_upload` writes to a temporary name and renames the file at the end, so that nobody sees an upload that is
not finished. But the temporary file is in the folder itself, and `_pick_voice_file`, `_pick_photo_file` and
`process_message` take the newest file of the folder, whatever its name; and an upload that is cancelled
leaves its temporary file there.

Which files are which is a record beside the service (`uploads`): the temporary names given out, and the
files that were renamed. `TemporaryOlder` is the condition that, at each selection, every temporary file in
the folder is older than a finished one. Under it whatever is selected is a finished upload
(`chosen_of_temporaryOlder`); `temporary_chosen` is a message that takes a temporary file.
-/

namespace YeounEngine

open Transition

/-! ## The record -/

/-- The file, as a selection finds it. -/
def File.picked (file : File) (name : String) : Picked := ⟨name, file.mtime, file.content⟩

/-- The uploads of a persona: the temporary names that they were given, and the files that they have
renamed. -/
structure UploadLog where
  temporary : List (Folder × String)
  finished : List (Folder × Picked)

/-- What a step of an upload adds. -/
def UploadLog.after (u : UploadLog) (w : PersonaWorld) (req : UploadRequest) :
    UploadPc → UploadEvent → UploadLog
  | .closing (.ok _), .closed fresh tmp false none =>
    { u with temporary := u.temporary ++
        [(req.kind.folder, uploadName req.filename fresh ++ ".tmp." ++ tmp.hex)] }
  | .writing name tmp _ true, .renamed none _ =>
    match w.files.get req.kind.folder tmp with
    | some file => { u with finished := u.finished ++ [(req.kind.folder, file.picked name)] }
    | none => u
  | _, _ => u

/-- What a step of a request adds. -/
def logAfter (u : Uuid → UploadLog) (w : ServiceWorld) : ServiceTask → ServiceEvent → Uuid → UploadLog
  | .persona id (.upload req pc), .persona (.upload ev) =>
    Function.update u id ((u id).after (w.personas id) req pc ev)
  | _, _ => u

/-- The uploads of every persona, as a record beside the service. -/
def uploads (start : Uuid → UploadLog) : Auxiliary (Pool ServiceWorld ServiceTask)
    (Event ServiceTask ServiceEvent ServiceEnv) (Event ServiceTask ServiceEvent ServiceEnv)
    (Uuid → UploadLog) where
  start := start
  event := some
  record p u
    | .run i e => some ((p.tasks[i]?).elim u fun t => logAfter u p.world t e)
    | _ => some u

/-! ## The property -/

/-- The photo that a message has selected. -/
def MessagePc.photo : MessagePc → Option Picked
  | .waitingDitto photo | .rendering photo => some photo
  | _ => none

/-- The inputs that a run or a message has selected: whose, from which folder, and the file. -/
def ServiceTask.chosen (w : ServiceWorld) : ServiceTask → List (Uuid × Folder × Picked)
  | .persona id t => t.run.elim [] fun r =>
    r.voice.toList.map (fun p => (id, .voice, p)) ++ r.photo.toList.map fun p => (id, .photo, p)
  | .message sid _ (.inside pc) => (w.state sid).elim [] fun s =>
    pc.photo.toList.map fun p => (s.personaId, .photo, p)
  | _ => []

/-! ## The condition -/

/-- The persona and the folder from which the step selects a file, if it does. -/
def selects (w : ServiceWorld) : ServiceTask → ServiceEvent → Option (Uuid × Folder)
  | .persona id (.process (.accepted r)), .persona (.process (.run (.lock none))) =>
    match r.pc with
    | .setSelecting => some (id, .voice)
    | .setRendering => some (id, .photo)
    | _ => none
  | .message sid _ (.inside (.synthesizing _)), .message (.message (.synthesized _ none _) _) =>
    (w.state sid).map fun s => (s.personaId, .photo)
  | _, _ => none

/-- The file is there. -/
def Files.holds (fs : Files) (f : Folder) (p : Picked) : Bool :=
  (fs.get f p.name).any fun file => file.picked p.name = p

/-- Every temporary file in the folder is older than a finished upload in it. -/
def UploadLog.OlderIn (u : UploadLog) (w : PersonaWorld) (f : Folder) : Prop :=
  ∀ tmp ∈ u.temporary, tmp.1 = f → ∀ file ∈ w.files.get f tmp.2,
    ∃ p ∈ u.finished, p.1 = f ∧ w.files.holds f p.2 = true ∧ file.mtime < p.2.mtime

/-- At each selection, every temporary file in the folder is older than a finished upload in it. -/
def TemporaryOlder (x : Extended (Pool ServiceWorld ServiceTask) (Uuid → UploadLog)) :
    Event ServiceTask ServiceEvent ServiceEnv → Prop
  | .run i e => ∀ t ∈ x.state.tasks[i]?, ∀ s ∈ selects x.state.world t e,
    (x.record s.1).OlderIn (x.state.world.personas s.1) s.2
  | _ => True

instance (u : UploadLog) (w : PersonaWorld) (f : Folder) : Decidable (u.OlderIn w f) :=
  inferInstanceAs (Decidable (∀ tmp ∈ u.temporary, tmp.1 = f → ∀ file ∈ w.files.get f tmp.2,
    ∃ p ∈ u.finished, p.1 = f ∧ w.files.holds f p.2 = true ∧ file.mtime < p.2.mtime))

instance (x : Extended (Pool ServiceWorld ServiceTask) (Uuid → UploadLog)) :
    ∀ e : Event ServiceTask ServiceEvent ServiceEnv, Decidable (TemporaryOlder x e)
  | .run i e => inferInstanceAs (Decidable (∀ t ∈ x.state.tasks[i]?, ∀ s ∈ selects x.state.world t e,
      (x.record s.1).OlderIn (x.state.world.personas s.1) s.2))
  | .arrive _ | .env _ => inferInstanceAs (Decidable True)

/-! ## What is in the folders -/

/-- Every file in the folders of the uploads is a temporary file or a finished upload, and nothing left over
writes to another name. -/
structure LogCovers (u : UploadLog) (w : PersonaWorld) : Prop where
  files : ∀ (kind : UploadKind) name file, w.files.get kind.folder name = some file →
    (kind.folder, name) ∈ u.temporary ∨ (kind.folder, file.picked name) ∈ u.finished
  writers : ∀ (kind : UploadKind) tmp, .tmpWrite kind.folder tmp ∈ w.orphans →
    (kind.folder, tmp) ∈ u.temporary

/-- Nothing new is in the folders of the uploads, and no temporary file is being written that was not before. -/
structure InputsKept (w w' : PersonaWorld) : Prop where
  dirs : ∀ kind : UploadKind, DirShrinks (w.files.dir kind.folder) (w'.files.dir kind.folder)
  writers : ∀ (kind : UploadKind) tmp, .tmpWrite kind.folder tmp ∈ w'.orphans →
    .tmpWrite kind.folder tmp ∈ w.orphans

section
variable {H : Host} {u : UploadLog} {w w' : PersonaWorld} {kind : UploadKind}

theorem InputsKept.refl (w : PersonaWorld) : InputsKept w w := ⟨fun _ => .refl _, fun _ _ ho => ho⟩

theorem LogCovers.kept (h : LogCovers u w) (hk : InputsKept w w') : LogCovers u w' := by
  refine ⟨fun kind name file hfile => ?_, fun kind tmp ho => h.writers kind tmp (hk.writers kind tmp ho)⟩
  obtain ⟨d', hd', hfile⟩ := Option.bind_eq_some_iff.mp hfile
  obtain ⟨d, hd, hsub⟩ := hk.dirs kind d' hd'
  refine h.files kind name file ?_
  rw [Files.get, hd]
  exact hsub name file hfile

/-- The newest file is a finished upload when every temporary one is older than one. -/
theorem LogCovers.finished (h : LogCovers u w) (kind : UploadKind) (hold : u.OlderIn w kind.folder) {p : Picked}
    (hp : w.files.newestIn kind.folder = some p) : (kind.folder, p) ∈ u.finished := by
  obtain ⟨d, hd, hnew⟩ := Option.bind_eq_some_iff.mp hp
  obtain ⟨⟨file, hfile, hmtime, hcontent⟩, hnewest⟩ := isNewest_of_newest hnew
  have hget : w.files.get kind.folder p.name = some file := by
    rw [Files.get, hd]
    exact hfile
  rcases h.files kind p.name file hget with htmp | hdone
  · obtain ⟨q, -, -, hholds, hlt⟩ := hold _ htmp rfl file hget
    obtain ⟨file', hfile', hq⟩ := (Option.any_eq_true _ _).mp hholds
    have hq : file'.picked q.2.name = q.2 := of_decide_eq_true hq
    have hle : file'.mtime ≤ p.mtime := by
      rw [Files.get, hd] at hfile'
      exact hnewest _ _ hfile'
    have heq : file'.mtime = q.2.mtime := congrArg Picked.mtime hq
    omega
  · have hpicked : file.picked p.name = p := by
      rw [File.picked, hmtime, hcontent]
    exact hpicked ▸ hdone

/-- A file that is written has a temporary name, or is a finished upload. -/
theorem LogCovers.write (h : LogCovers u w) {f : Folder} {name : String} {file : File}
    (hname : (f, name) ∈ u.temporary ∨ (f, file.picked name) ∈ u.finished) :
    LogCovers u (w.onFiles fun fs => fs.write f name file) := by
  refine ⟨fun kind name' file' hfile => ?_, h.writers⟩
  rcases get_write_cases hfile with ⟨rfl, rfl, rfl⟩ | hfile
  · exact hname
  · exact h.files kind name' file' hfile

theorem LogCovers.mono {u' : UploadLog} (h : LogCovers u w) (ht : u.temporary ⊆ u'.temporary)
    (hf : u.finished ⊆ u'.finished) : LogCovers u' w :=
  ⟨fun kind name file hfile => (h.files kind name file hfile).imp (ht ·) (hf ·),
    fun kind tmp ho => ht (h.writers kind tmp ho)⟩

/-- Nothing is taken from the record. -/
theorem UploadLog.subset_after {req : UploadRequest} {pc : UploadPc} {ev : UploadEvent} :
    u.temporary ⊆ (u.after w req pc ev).temporary ∧ u.finished ⊆ (u.after w req pc ev).finished := by
  unfold UploadLog.after
  split
  · exact ⟨List.subset_append_left _ _, List.Subset.refl _⟩
  · split
    · exact ⟨List.Subset.refl _, List.subset_append_left _ _⟩
    · exact ⟨List.Subset.refl _, List.Subset.refl _⟩
  · exact ⟨List.Subset.refl _, List.Subset.refl _⟩

/-! ## One step -/

theorem inputsKept_of_files (hf : w'.files = w.files) (ho : w'.orphans = w.orphans) : InputsKept w w' :=
  ⟨fun _ => .of_eq (by rw [hf]), fun _ _ h => ho ▸ h⟩

theorem inputsKept_dropTmp {f : Folder} {tmp : String} {unlinked : Bool} :
    InputsKept w (dropTmp w f tmp unlinked) := by
  rw [dropTmp]
  split
  · refine ⟨fun kind => ?_, fun _ _ ho => ho⟩
    by_cases hf : kind.folder = f
    · subst hf
      rw [PersonaWorld.onFiles, Files.unlink, Files.dir_modify]
      exact @dirShrinks_eraseAll _ fun _ => [tmp]
    · exact .of_eq (Files.dir_modify_of_ne hf)
  · exact .refl w

theorem inputsKept_keeping {keep : Folder → String → Bool} :
    InputsKept w (w.onFiles fun fs => fs.keeping keep) := by
  refine ⟨fun kind => ?_, fun _ _ ho => ho⟩
  rw [PersonaWorld.onFiles, Files.dir_keeping]
  exact dirShrinks_eraseAll

/-- A run writes elsewhere. -/
theorem runStep_inputsKept {r r' : Run} {ev : RunEvent} (h : runStep H w r ev = some (w', r')) :
    InputsKept w w' := by
  refine ⟨fun kind => .of_eq (runStep_leaves h ?_ ?_), fun sub tmp ho => ?_⟩
  · cases kind <;> simp [UploadKind.folder]
  · cases kind <;> simp [UploadKind.folder]
  · rcases runStep_cases h with h | ⟨-, h⟩
    · exact h.orphans ▸ ho
    · rcases h.leftover ho with ho | ⟨_, heq, -⟩ | ⟨_, _, heq, -⟩
      · exact ho
      · cases heq
      · cases heq

theorem Removes.inputsKept (h : Removes w w') : InputsKept w w' := by
  refine ⟨fun kind => h.dirs _, fun sub tmp ho => ?_⟩
  rcases h.orphans _ ho with ho | hw
  · exact ho
  · cases hw

theorem DeleteStep.inputsKept {pc : DeletePc} {ev : DeleteEvent} {out : PersonaWorld × DeletePc}
    (h : DeleteStep w pc ev out) : InputsKept w out.1 := by
  cases h with
  | remove => exact inputsKept_keeping
  | removeAll => exact ⟨fun _ => .none _, fun _ _ ho => ho⟩
  | cancelRemoving => exact (removes_leave rfl).inputsKept
  | deleteRows => exact inputsKept_of_files rfl rfl
  | _ => exact .refl w

/-- A message writes in the folder of its session only. -/
theorem MessageFrame.inputsKept {m m' : MessageWorld} (h : MessageFrame m m') :
    InputsKept m.persona m'.persona := by
  refine ⟨fun kind => .of_eq (h.files _ ?_), fun sub tmp ho => ?_⟩
  · exact (UploadKind.speak_ne_folder).symm
  · rcases h.orphans _ ho with ho | hf
    · exact ho
    · exact absurd (Option.some.inj hf).symm UploadKind.speak_ne_folder

/-- Left-over work writes to temporary names. -/
theorem LogCovers.orphan (h : LogCovers u w) {k : Nat} {act : OrphanAct} (hs : OrphanStep w k act w') :
    LogCovers u w' := by
  refine ⟨fun kind name file hfile => ?_, fun kind tmp ho => h.writers kind tmp (hs.orphans ho)⟩
  cases hs with
  | @write orphan sub target origin side o hk hw =>
    by_cases hsub : kind.folder = sub
    · subst hsub
      cases orphan with
      | tmpWrite sub tmp =>
        cases hw
        have hwrite : (w.files.write kind.folder (target ++ if side then "" else "")
            ⟨o.now, o.content, .other⟩).get kind.folder name = some file := hfile
        rcases get_write_cases hwrite with ⟨-, rfl, -⟩ | hfile
        · refine .inl ?_
          cases side <;> simpa using h.writers kind target hk
        · exact h.files kind name file hfile
      | ffmpeg | idleRender | synthesize | speakRender =>
        cases kind <;> cases hw
      | rmtree => cases hw
    · exact h.files kind name file (get_of_dir (dir_write_of_ne hsub) ▸ hfile)
  | remove => exact (h.kept inputsKept_keeping).files kind name file hfile
  | written => exact h.files kind name file hfile
  | @removed orphan =>
    refine h.files kind name file ?_
    change (orphan.removed w.files).get kind.folder name = some file at hfile
    unfold Orphan.removed at hfile
    split at hfile
    · cases hfile
    · rename_i sub _ _
      by_cases hsub : kind.folder = sub
      · subst hsub
        rw [Files.get, Files.dir_rmdir] at hfile
        cases hfile
      · exact get_of_dir (Files.dir_rmdir_of_ne hsub) ▸ hfile
    · exact hfile

/-- The temporary file of an upload is in the record from the step in which it gets its name. -/
theorem UploadStep.registered {req : UploadRequest} {pc : UploadPc} {ev : UploadEvent}
    {out : PersonaWorld × UploadPc} (h : UploadStep H w req pc ev out)
    (hreg : ∀ tmp ∈ pc.tmp, (req.kind.folder, tmp) ∈ u.temporary) :
    ∀ tmp ∈ out.2.tmp, (req.kind.folder, tmp) ∈ (u.after w req pc ev).temporary := by
  intro tmp htmp
  cases h with
  | opened =>
    cases htmp
    exact List.mem_append_right _ List.mem_cons_self
  | output | written => exact UploadLog.subset_after.1 (hreg tmp htmp)
  | _ => cases htmp

/-- An upload writes its temporary file, and renames it. -/
theorem LogCovers.upload (h : LogCovers u w) {req : UploadRequest} {pc : UploadPc} {ev : UploadEvent}
    {out : PersonaWorld × UploadPc} (hs : UploadStep H w req pc ev out)
    (hreg : ∀ tmp ∈ pc.tmp, (req.kind.folder, tmp) ∈ u.temporary) :
    LogCovers (u.after w req pc ev) out.1 := by
  have hgrow : u.temporary ⊆ (u.after w req pc ev).temporary ∧ u.finished ⊆ (u.after w req pc ev).finished :=
    UploadLog.subset_after
  have hlog : LogCovers (u.after w req pc ev) w := h.mono hgrow.1 hgrow.2
  cases hs with
  | opened =>
    refine ⟨fun kind name file hfile => hlog.files kind name file ?_, hlog.writers⟩
    exact get_mkdir.symm.trans hfile
  | output | written => exact hlog.write (.inl (hgrow.1 (hreg _ rfl)))
  | @renamed name tmp data unlinked file hf =>
    have hdrop : LogCovers (u.after w req (.writing name tmp data true) (.renamed none unlinked))
        (dropTmp w req.kind.folder tmp true) := hlog.kept inputsKept_dropTmp
    refine hdrop.write (.inr ?_)
    rw [UploadLog.after, hf]
    exact List.mem_append_right _ List.mem_cons_self
  | renameFailed | writeFailed => exact hlog.kept inputsKept_dropTmp
  | insert =>
    refine hlog.kept ?_
    rw [insertAsset]
    split <;> exact inputsKept_of_files rfl rfl
  | @cancelWriting name tmp data =>
    refine ⟨hlog.files, fun kind tmp' ho => ?_⟩
    rcases PersonaWorld.mem_leave.mp ho with ho | heq
    · exact hlog.writers kind tmp' ho
    · injection heq with hfolder htmp
      rw [hfolder, htmp]
      exact hgrow.1 (hreg _ rfl)
  | _ => exact hlog

/-! ## One selection -/

section
variable {r r' : Run}

/-- The run keeps what it has selected. -/
def SameInputs (r : Run) (out : PersonaWorld × Run) : Prop :=
  out.2.voice = r.voice ∧ out.2.photo = r.photo

theorem sameInputs_orFail {fault : Option Exc} {k : PersonaWorld × Run} (h : SameInputs r k) :
    SameInputs r (orFail w r fault k) := by
  cases fault with
  | some e => exact ⟨rfl, rfl⟩
  | none => exact h

theorem sameInputs_prepareVoiceRef : SameInputs r (prepareVoiceRef w r) := by
  rw [prepareVoiceRef]
  split <;> exact ⟨rfl, rfl⟩

theorem sameInputs_finishTrim {rc : Int} {a : AfterTrim} : SameInputs r (finishTrim H w r rc a) := by
  rw [finishTrim]
  split
  · exact ⟨rfl, rfl⟩
  · refine sameInputs_orFail ?_
    dsimp only
    split
    · exact sameInputs_orFail ⟨rfl, rfl⟩
    · exact ⟨rfl, rfl⟩

theorem sameInputs_transcribeVoice : SameInputs r (transcribeVoice H w r) := by
  rw [transcribeVoice]
  split
  · split <;> exact ⟨rfl, rfl⟩
  · exact ⟨rfl, rfl⟩

theorem sameInputs_saveRefText {audio : Option Content} {text : String} {a : AfterTranscribe} :
    SameInputs r (saveRefText w r audio text a) := by
  rw [saveRefText]
  split <;> exact ⟨rfl, rfl⟩

/-- A run selects its voice in one place, and its photo in another. -/
structure Selected (w : PersonaWorld) (r : Run) (ev : RunEvent) (r' : Run) : Prop where
  voice : r'.voice = r.voice ∨
    r.pc = .setSelecting ∧ ev = .lock none ∧ r'.voice = w.files.newestIn .voice
  photo : r'.photo = r.photo ∨
    r.pc = .setRendering ∧ ev = .lock none ∧ r'.photo = w.files.newestIn .photo

theorem SameInputs.selected {ev : RunEvent} {out : PersonaWorld × Run} (h : SameInputs r out) :
    Selected w r ev out.2 :=
  ⟨.inl h.1, .inl h.2⟩

theorem BodyStep.selected {ev : RunEvent} {out : PersonaWorld × Run} (h : BodyStep H w r r.pc ev out) :
    Selected w r ev out.2 := by
  generalize hpc : r.pc = pc at h
  cases h with
  | @select fault =>
    cases fault with
    | some e => exact ⟨.inl rfl, .inl rfl⟩
    | none =>
      change Selected w r (.lock none) (selectVoice H (w.setStep .selectingVoice none) r).2
      rw [selectVoice]
      split
      · exact ⟨.inl rfl, .inl rfl⟩
      · rename_i p hp
        exact ⟨.inr ⟨hpc, rfl, (pickFile_ok hp).symm⟩, .inl rfl⟩
  | @render fault =>
    cases fault with
    | some e => exact ⟨.inl rfl, .inl rfl⟩
    | none =>
      change Selected w r (.lock none) (renderIdleClips H (w.setStep .renderingIdle none) r).2
      rw [renderIdleClips]
      split
      · exact ⟨.inl rfl, .inl rfl⟩
      · rename_i p hp
        exact ⟨.inl rfl, .inr ⟨hpc, rfl, (pickFile_ok hp).symm⟩⟩
  | extract => exact (sameInputs_orFail sameInputs_prepareVoiceRef).selected
  | trimDone => exact sameInputs_finishTrim.selected
  | transcribe => exact (sameInputs_orFail sameInputs_transcribeVoice).selected
  | transcribed => exact sameInputs_saveRefText.selected
  | rendered => exact (sameInputs_orFail (r := r) ⟨rfl, rfl⟩).selected
  | _ => exact ⟨.inl rfl, .inl rfl⟩

theorem runStep_selected {ev : RunEvent} (h : runStep H w r ev = some (w', r')) : Selected w r ev r' := by
  rcases runStep_cases h with h | ⟨-, h⟩
  · exact h.selected
  · cases h <;> exact ⟨.inl rfl, .inl rfl⟩

end

section
variable {messageId : Uuid} {m : MessageWorld} {photo : Picked}

theorem photo_mediaFailed {e : Exc} {unlinked : String → Unlinked} :
    (mediaFailed messageId m e unlinked).2.photo = none :=
  mediaFailed_cases (motive := fun pc => pc.photo = none) (fun _ => rfl) fun _ => rfl

theorem photo_prepareSpeech {userText finalText : String} {a : AfterTextDone} :
    (prepareSpeech H messageId m userText finalText a).2.photo = none :=
  prepareSpeech_cases (motive := fun pc => pc.photo = none) (fun _ => rfl) (fun _ => rfl) fun _ _ => rfl

theorem pickSpeakPhoto_photo {fault : Option Exc} {unlinked : String → Unlinked}
    (h : (pickSpeakPhoto H messageId m fault unlinked).2.photo = some photo) :
    fault = none ∧ m.persona.files.newestIn .photo = some photo := by
  revert h
  refine pickSpeakPhoto_cases (motive := fun pc => pc.photo = some photo → _) (fun _ h => ?_) (fun _ h => ?_)
    fun p hfault hp h => ?_
  · cases h
  · cases h
  · cases h
    exact ⟨hfault, hp⟩

theorem photo_finishSpeech {wav : Unlinked} {unlinked : String → Unlinked} :
    (finishSpeech messageId m wav unlinked).2.photo = none :=
  finishSpeech_cases (motive := fun pc => pc.photo = none) (fun _ => rfl) (fun _ => rfl) rfl

theorem photo_outputGuard {reply : Reply} : (outputGuard H messageId reply).photo = none :=
  outputGuard_cases (motive := fun pc => pc.photo = none) (fun _ => rfl) fun _ => rfl

theorem photo_inputGuard {userText : String} : (inputGuard H m userText).photo = none :=
  inputGuard_cases (motive := fun pc => pc.photo = none) (fun _ => rfl) fun _ => rfl

/-- A message selects its photo in one place. -/
theorem messageStep_photo {pc : MessagePc} {ev : MessageEvent} {out : MessageWorld × MessagePc}
    (h : messageStep H messageId m pc ev = some out) (hp : out.2.photo = some photo) :
    pc.photo = some photo ∨ (∃ speech o unlinked, pc = .synthesizing speech ∧ ev = .synthesized o none unlinked) ∧
      m.persona.files.newestIn .photo = some photo := by
  rcases messageStep_cases h with h | h
  · cases h with
    | @synthesized speech o fault unlinked =>
      obtain ⟨rfl, hnew⟩ := pickSpeakPhoto_photo hp
      refine .inr ⟨⟨speech, o, unlinked, rfl, rfl⟩, ?_⟩
      exact (newestIn_of_dir (Files.dir_modify_of_ne (by simp [MessageWorld.speakDir]))).symm.trans hnew
    | acquireDitto | renderFolder | renderOutput => exact .inl hp
    | speech => rw [photo_prepareSpeech] at hp; cases hp
    | synthesizeFailed | folderFailed | renderFailed => rw [photo_mediaFailed] at hp; cases hp
    | rendered => rw [photo_finishSpeech] at hp; cases hp
    | streamEnd => dsimp only at hp; rw [photo_outputGuard] at hp; cases hp
    | transcribed => dsimp only at hp; rw [photo_inputGuard] at hp; cases hp
    | _ => cases hp
  · cases h <;> cases hp

end

end

/-! ## The invariant -/

/-- What is known of a request: its temporary name is in the record, its session exists, and what it has selected
is a finished upload. -/
structure TaskTracked (u : Uuid → UploadLog) (w : ServiceWorld) (t : ServiceTask) : Prop where
  registered : ∀ id req pc, t = .persona id (.upload req pc) → ∀ tmp ∈ pc.tmp,
    (req.kind.folder, tmp) ∈ (u id).temporary
  stored : ∀ sid, t.converses sid = true → (w.state sid).isSome = true
  chosen : ∀ c ∈ t.chosen w, c.2 ∈ (u c.1).finished

/-- Every file in the folders of the uploads is known, and so is every request. -/
structure UploadsTracked (x : Extended (Pool ServiceWorld ServiceTask) (Uuid → UploadLog)) : Prop where
  covers : ∀ id, LogCovers (x.record id) (x.state.world.personas id)
  tasks : ∀ t ∈ x.state.tasks, TaskTracked x.record x.state.world t

section
variable {H : Host} {u u' : Uuid → UploadLog} {w w' : ServiceWorld} {t t' : ServiceTask} {e : ServiceEvent}
  {i : Nat}

/-- A request that takes no step keeps what is known of it. -/
theorem TaskTracked.kept (h : TaskTracked u w t) (hw : SessionsKept w w')
    (ht : ∀ id, (u id).temporary ⊆ (u' id).temporary) (hf : ∀ id, (u id).finished ⊆ (u' id).finished) :
    TaskTracked u' w' t := by
  refine ⟨fun id req pc heq tmp htmp => ht id (h.registered id req pc heq tmp htmp), fun sid hc => ?_,
    fun c hc => hf _ (h.chosen c ?_)⟩
  · obtain ⟨s, hs⟩ := Option.isSome_iff_exists.mp (h.stored sid hc)
    obtain ⟨s', hs', -⟩ := hw sid s hs
    rw [hs']
    rfl
  · cases t with
    | message sid messageId pc =>
      cases pc with
      | inside pc =>
        obtain ⟨s, hs⟩ := Option.isSome_iff_exists.mp (h.stored sid (decide_eq_true rfl))
        obtain ⟨s', hs', hid⟩ := hw sid s hs
        rw [ServiceTask.chosen, hs'] at hc
        rw [ServiceTask.chosen, hs]
        simpa only [Option.elim_some, hid] using hc
      | _ => cases hc
    | persona id t => exact hc
    | start | ending => cases hc

/-- The record grows. -/
theorem subset_logAfter (id : Uuid) : (u id).temporary ⊆ (logAfter u w t e id).temporary ∧
    (u id).finished ⊆ (logAfter u w t e id).finished := by
  unfold logAfter
  split
  · rename_i id' req pc ev
    by_cases hid : id = id'
    · subst hid
      rw [Function.update_self]
      exact UploadLog.subset_after
    · rw [Function.update_of_ne hid]
      exact ⟨List.Subset.refl _, List.Subset.refl _⟩
  · exact ⟨List.Subset.refl _, List.Subset.refl _⟩

/-- A change to one persona, in which nothing new is in its folders. -/
theorem covers_update {id : Uuid} {p' : PersonaWorld} (h : ∀ id, LogCovers (u id) (w.personas id))
    (hp : LogCovers (u id) p') : ∀ id', LogCovers (u id') (Function.update w.personas id p' id') := by
  intro id'
  by_cases hid : id' = id
  · subst hid
    rw [Function.update_self]
    exact hp
  · rw [Function.update_of_ne hid]
    exact h id'

/-- A step of a request puts nothing into the folders but temporary files and finished uploads. -/
theorem RequestStep.covers (h : RequestStep H w i t e (w', t'))
    (hcov : ∀ id, LogCovers (u id) (w.personas id)) (htr : TaskTracked u w t) :
    ∀ id, LogCovers (logAfter u w t e id) (w'.personas id) := by
  have of_kept : (∀ id, LogCovers (u id) (w'.personas id)) →
      ∀ id, LogCovers (logAfter u w t e id) (w'.personas id) := fun hkept id =>
    (hkept id).mono (subset_logAfter id).1 (subset_logAfter id).2
  cases h.change with
  | same personas => exact of_kept (personas ▸ hcov)
  | created => exact of_kept hcov
  | spoke _ frame personas =>
    exact of_kept (personas ▸ covers_update hcov ((hcov _).kept frame.inputsKept))
  | removed _ removes personas =>
    exact of_kept (personas ▸ covers_update hcov ((hcov _).kept removes.inputsKept))
  | @persona id _ _ _ _ hp =>
    cases personaStep_inv hp with
    | @upload req pc ev _ _ hs =>
      intro id'
      change LogCovers (Function.update u id _ id') (Function.update w.personas id _ id')
      by_cases hid : id' = id
      · subst hid
        rw [Function.update_self, Function.update_self]
        exact (hcov id').upload hs (htr.registered id' req pc rfl)
      · rw [Function.update_of_ne hid, Function.update_of_ne hid]
        exact hcov id'
    | process hs =>
      cases hs with
      | run hr => exact of_kept (covers_update hcov ((hcov id).kept (runStep_inputsKept hr)))
      | _ => exact of_kept (covers_update hcov (hcov id))
    | delete hs => exact of_kept (covers_update hcov ((hcov id).kept hs.inputsKept))

theorem state_of_turn {sid : Uuid} (h : w.turn sid i = true) : (w.state sid).isSome = true := by
  obtain ⟨s, hs, -⟩ := (Option.any_eq_true _ _).mp h
  rw [ServiceWorld.state, hs]
  rfl

/-- What is known of a message after a step of it. -/
theorem TaskTracked.message {sid messageId : Uuid} {pc pc' : MessagePc} {ev : MessageEvent} {unlinked : Bool}
    {s : Session} {m : MessageWorld}
    (htr : TaskTracked u w (.message sid messageId (.inside pc)))
    (hcov : ∀ id, LogCovers (u id) (w.personas id)) (hs : w.sessions sid = some s)
    (hold : ∀ c ∈ selects w (.message sid messageId (.inside pc)) (.message (.message ev unlinked)),
      (u c.1).OlderIn (w.personas c.1) c.2)
    (hm : messageStep H messageId (w.messageWorld s) pc ev = some (m, pc')) :
    TaskTracked u (w.onMessage sid s.state.personaId m) (.message sid messageId (.inside pc')) := by
  have hstate := state_of_sessions hs
  have hstate' : (w.onMessage sid s.state.personaId m).state sid = some m.session := by
    rw [state_onMessage hs, Function.update_self]
  refine ⟨fun _ _ _ heq => (by cases heq), fun sid' hc => ?_, fun c hc => ?_⟩
  · cases of_decide_eq_true hc
    rw [hstate']
    rfl
  · rw [ServiceTask.chosen, hstate', Option.elim_some] at hc
    obtain ⟨photo, hphoto, rfl⟩ := List.mem_map.mp hc
    have hid : m.session.personaId = s.state.personaId := (messageStep_frame hm).personaId
    rw [Option.mem_toList] at hphoto
    rw [hid]
    rcases messageStep_photo hm hphoto with hbefore | ⟨⟨speech, o, unlinked', rfl, rfl⟩, hnew⟩
    · refine htr.chosen (s.state.personaId, .photo, photo) ?_
      rw [ServiceTask.chosen, hstate, Option.elim_some]
      exact List.mem_map.mpr ⟨photo, Option.mem_toList.mpr hbefore, rfl⟩
    · have hselects : (s.state.personaId, Folder.photo) ∈ selects w
          (.message sid messageId (.inside (.synthesizing speech)))
          (.message (.message (.synthesized o none unlinked') unlinked)) := by
        rw [selects, hstate]
        rfl
      exact (hcov s.state.personaId).finished .photo (hold _ hselects) hnew

/-- What is known of a run after a step of it. -/
theorem TaskTracked.run {id : Uuid} {r r' : Run} {ev : RunEvent} {p' : PersonaWorld}
    (htr : TaskTracked u w (.persona id (.process (.accepted r))))
    (hcov : ∀ id, LogCovers (u id) (w.personas id))
    (hold : ∀ c ∈ selects w (.persona id (.process (.accepted r))) (.persona (.process (.run ev))),
      (u c.1).OlderIn (w.personas c.1) c.2)
    (hr : runStep H (w.personas id) r ev = some (p', r')) :
    TaskTracked u w' (.persona id (.process (.accepted r'))) := by
  refine ⟨fun _ _ _ heq => (by cases heq), fun _ hc => (by cases hc), fun c hc => ?_⟩
  have hsel := runStep_selected hr
  rcases List.mem_append.mp hc with hc | hc
  · obtain ⟨voice, hvoice, rfl⟩ := List.mem_map.mp hc
    rw [Option.mem_toList] at hvoice
    rcases hsel.voice with hsame | ⟨hpc, rfl, hnew⟩
    · refine htr.chosen (id, .voice, voice) (List.mem_append_left _ (List.mem_map.mpr ⟨voice, ?_, rfl⟩))
      exact Option.mem_toList.mpr (hsame ▸ hvoice)
    · have hselects : (id, Folder.voice) ∈ selects w (.persona id (.process (.accepted r)))
          (.persona (.process (.run (.lock none)))) := by
        rw [selects, hpc]
        rfl
      exact (hcov id).finished .voice (hold _ hselects) (hnew ▸ hvoice)
  · obtain ⟨photo, hphoto, rfl⟩ := List.mem_map.mp hc
    rw [Option.mem_toList] at hphoto
    rcases hsel.photo with hsame | ⟨hpc, rfl, hnew⟩
    · refine htr.chosen (id, .photo, photo) (List.mem_append_right _ (List.mem_map.mpr ⟨photo, ?_, rfl⟩))
      exact Option.mem_toList.mpr (hsame ▸ hphoto)
    · have hselects : (id, Folder.photo) ∈ selects w (.persona id (.process (.accepted r)))
          (.persona (.process (.run (.lock none)))) := by
        rw [selects, hpc]
        rfl
      exact (hcov id).finished .photo (hold _ hselects) (hnew ▸ hphoto)

/-- A request that has selected nothing. -/
theorem TaskTracked.of_nothing (hreg : ∀ id req pc, t = .persona id (.upload req pc) → pc.tmp = none)
    (hconv : ∀ sid, t.converses sid = true → (w.state sid).isSome = true) (hchosen : t.chosen w = []) :
    TaskTracked u w t := by
  refine ⟨fun id req pc heq tmp htmp => ?_, hconv, fun c hc => ?_⟩
  · rw [hreg id req pc heq] at htmp
    cases htmp
  · rw [hchosen] at hc
    cases hc

theorem TaskTracked.of_arriving (h : t.arriving = true) : TaskTracked u w t := by
  refine .of_nothing (fun id req pc heq => ?_) (fun sid hc => ?_) ?_
  · subst heq
    cases pc <;> first | rfl | cases h
  · cases t with
    | message sid' messageId pc => cases pc <;> first | (cases h; done) | cases hc
    | _ => cases hc
  · cases t with
    | message sid messageId pc => cases pc <;> first | rfl | cases h
    | persona id t =>
      cases t with
      | process pc => cases pc <;> first | rfl | cases h
      | _ => rfl
    | _ => rfl

/-- What is known of a request after a step of it. -/
theorem RequestStep.tracked (h : RequestStep H w i t e (w', t'))
    (hcov : ∀ id, LogCovers (u id) (w.personas id)) (htr : TaskTracked u w t)
    (hold : ∀ c ∈ selects w t e, (u c.1).OlderIn (w.personas c.1) c.2) :
    TaskTracked (logAfter u w t e) w' t' := by
  have nothing : (∀ id req pc, t' = .persona id (.upload req pc) → pc.tmp = none) →
      (∀ sid, t'.converses sid = true → (w'.state sid).isSome = true) → t'.chosen w' = [] →
      TaskTracked (logAfter u w t e) w' t' := .of_nothing
  cases h with
  | start | ending => exact nothing (fun _ _ _ heq => (by cases heq)) (fun _ hc => (by cases hc)) rfl
  | message hs =>
    cases hs with
    | granted hturn =>
      refine nothing (fun _ _ _ heq => (by cases heq)) (fun sid hc => ?_) ?_
      · cases of_decide_eq_true hc
        exact state_of_turn hturn
      · rw [ServiceTask.chosen]
        cases w.state _ <;> rfl
    | message hs hm => exact htr.message hcov hs hold hm
    | _ => exact nothing (fun _ _ _ heq => (by cases heq)) (fun _ hc => (by cases hc)) rfl
  | @persona id _ _ _ _ hp =>
    cases personaStep_inv hp with
    | @upload req pc ev _ pc' hs =>
      refine ⟨fun id' req' pc₁ heq tmp htmp => ?_, fun _ hc => (by cases hc), fun _ hc => (by cases hc)⟩
      cases heq
      rw [logAfter, Function.update_self]
      exact hs.registered (htr.registered id req pc rfl) tmp htmp
    | process hs =>
      cases hs with
      | run hr => exact htr.run hcov hold hr
      | _ => exact nothing (fun _ _ _ heq => (by cases heq)) (fun _ hc => (by cases hc)) rfl
    | delete => exact nothing (fun _ _ _ heq => (by cases heq)) (fun _ hc => (by cases hc)) rfl

end

/-- The service, with the record of its uploads; `start` is the record of the files that are there at first. -/
def uploadedSystem (H : Host) (start : Uuid → UploadLog) :
    System (Extended (Pool ServiceWorld ServiceTask) (Uuid → UploadLog))
      (Event ServiceTask ServiceEvent ServiceEnv) :=
  (serviceSystem H (fun _ => true) fun w => w.Fresh ∧ ∀ id, LogCovers (start id) (w.personas id)).extend
    (uploads start)

section
variable {H : Host} {start : Uuid → UploadLog}
  {x y : Extended (Pool ServiceWorld ServiceTask) (Uuid → UploadLog)}
  {e : Event ServiceTask ServiceEvent ServiceEnv}

/-- Every step that meets the condition keeps the invariant. -/
theorem UploadsTracked.next (h : UploadsTracked x) (hok : TemporaryOlder x e)
    (hstep : (uploadedSystem H start).step x e = some y) : UploadsTracked y := by
  refine System.extend_cases hstep ?_ fun r he => (by cases he)
  intro e' q r he hs hr
  cases he
  revert hr
  refine Coop.next_cases (motive := fun q => (uploads start).record x.state x.record e = some r →
    UploadsTracked ⟨q, r⟩) hs ?_ ?_ ?_
  · rintro t rfl harr hr
    cases hr
    refine ⟨h.covers, fun u hu => ?_⟩
    rcases Pool.mem_append.mp hu with hu | rfl
    · exact h.tasks u hu
    · exact .of_arriving (Bool.and_eq_true_iff.mp harr).1
  · rintro i ev t w' t' rfl hi hstep hr
    cases hr
    obtain ⟨w₁, gpu, ditto, hreq, -, rfl⟩ := serviceStep_inv hstep
    have htr := h.tasks t (List.mem_of_getElem? hi)
    rw [hi, Option.elim_some]
    refine ⟨hreq.covers h.covers htr, fun u hu => ?_⟩
    rcases List.mem_or_eq_of_mem_set hu with hu | rfl
    · exact (h.tasks u hu).kept hreq.change.sessionsKept (fun id => (subset_logAfter id).1)
        fun id => (subset_logAfter id).2
    · exact (hreq.tracked h.covers htr (hok t hi)).kept (fun _ s hs => ⟨s, hs, rfl⟩)
        (fun _ => List.Subset.refl _) fun _ => List.Subset.refl _
  · rintro env w' rfl hx hr
    cases hr
    have hmap : x.state.tasks.map ((serviceCoop H fun _ => true).onTask env) = x.state.tasks :=
      List.map_id x.state.tasks
    rw [hmap]
    have hkept : SessionsKept x.state.world w' := serviceEnv_sessionsKept hx
    refine ⟨?_, fun u hu => (h.tasks u hu).kept hkept (fun _ => List.Subset.refl _) fun _ => List.Subset.refl _⟩
    cases env with
    | sweep now => cases hx; exact h.covers
    | orphan id k act =>
      obtain ⟨p', hp, rfl⟩ := Option.map_eq_some_iff.mp hx
      exact covers_update h.covers ((h.covers id).orphan (orphanStep_inv hp))

end

/-! ## Main results -/

/-- In every interleaving of uploads, runs, sessions, messages and deletions in which, at each selection, every
temporary file in the folder is older than a finished upload in it: whatever a run or a message has selected
is a finished upload. -/
theorem chosen_of_temporaryOlder (H : Host) (start : Uuid → UploadLog)
    (x : Extended (Pool ServiceWorld ServiceTask) (Uuid → UploadLog))
    (h : (uploadedSystem H start).Reach TemporaryOlder x) :
    ∀ t ∈ x.state.tasks, ∀ c ∈ t.chosen x.state.world, c.2 ∈ (x.record c.1).finished := by
  have hinv : UploadsTracked x := by
    refine h.inv (fun x hx => ?_) fun x e y hI hok hs => hI.next hok hs
    obtain ⟨⟨⟨-, hcov⟩, hnil⟩, hstart⟩ := hx
    refine ⟨fun id => hstart ▸ hcov id, fun t ht => ?_⟩
    rw [hnil] at ht
    cases ht
  exact fun t ht => (hinv.tasks t ht).chosen

/-- The record of `sampleService`: one photo of every persona. -/
def sampleLog (_ : Uuid) : UploadLog := ⟨[], [(.photo, ⟨"face.jpg", 50, .bytes [0xff, 0xd8, 0xff]⟩)]⟩

theorem sampleService_covers (id : Uuid) : LogCovers (sampleLog id) (sampleService.personas id) := by
  refine ⟨fun kind name file hfile => ?_, fun _ _ ho => (by cases ho)⟩
  cases kind with
  | voice => cases hfile
  | photo =>
    have hfile : ((∅ : Dir).insert "face.jpg" ⟨50, .bytes [0xff, 0xd8, 0xff], .other⟩).lookup name = some file := hfile
    by_cases hname : name = "face.jpg"
    · subst hname
      rw [AList.lookup_insert] at hfile
      cases hfile
      exact .inr List.mem_cons_self
    · rw [AList.lookup_insert_ne hname] at hfile
      cases hfile

/-- Request 2 uploads a photo to persona 1, up to its temporary file. -/
def uploadTemporary : List (Event ServiceTask ServiceEvent ServiceEnv) :=
  .arrive (.persona 1 (.upload ⟨.photo, some "image/jpeg", some "new.jpg", [0xff, 0xd8, 0xff, 0xe0]⟩
    (.getting none))) :: ([.select, .resume, .resume, .resume, .closed 7 8 false none, .written 80].map fun e =>
      .run 2 (.persona (.upload e)))

/-- A session of persona 1 and a message in it, up to the speech that it awaits. -/
def speaking : List (Event ServiceTask ServiceEvent ServiceEnv) :=
  startSession 0 1 5 ++ postMessage 1 5 9 ++ sayMessage 1 (sayHello ++ [.acquire])

/-- The speech is there. -/
def spoken : List (Event ServiceTask ServiceEvent ServiceEnv) :=
  [.run 1 (.message (.message (.synthesized ⟨102, .bytes [1]⟩ none fun _ => .removed) true))]

/-- The theorem at a run: the upload is finished when the message selects its photo. -/
theorem chosen_of_temporaryOlder_run : ∃ x, (uploadedSystem sampleHost sampleLog).Reach TemporaryOlder x ∧
    ∃ t ∈ x.state.tasks, ∃ c ∈ t.chosen x.state.world, c.2 ∈ (x.record c.1).finished := by
  have h : ((uploadedSystem sampleHost sampleLog).exec TemporaryOlder ⟨⟨sampleService, []⟩, sampleLog⟩
      (speaking ++ uploadTemporary ++ [.run 2 (.persona (.upload (.renamed none true)))] ++ spoken)).any
      (fun x => ∃ t ∈ x.state.tasks, t.chosen x.state.world ≠ []) = true := by
    decide +kernel
  obtain ⟨x, hsteps, hx⟩ := System.exists_of_exec h
  obtain ⟨t, ht, hne⟩ := of_decide_eq_true hx
  obtain ⟨c, hc⟩ := List.exists_mem_of_ne_nil _ hne
  have hreach : (uploadedSystem sampleHost sampleLog).Reach TemporaryOlder x :=
    ⟨_, ⟨⟨⟨sampleService_fresh, sampleService_covers⟩, rfl⟩, rfl⟩, hsteps⟩
  exact ⟨x, hreach, t, ht, c, hc, chosen_of_temporaryOlder _ _ x hreach t ht c hc⟩

/-- A message takes the temporary file of an upload for its photo. -/
theorem temporary_chosen : ∃ x, (uploadedSystem sampleHost sampleLog).Reach anyStep x ∧
    ∃ t ∈ x.state.tasks, ∃ c ∈ t.chosen x.state.world, c.2 ∉ (x.record c.1).finished ∧
      (c.2.1, c.2.2.name) ∈ (x.record c.1).temporary := by
  have h : ((uploadedSystem sampleHost sampleLog).exec anyStep ⟨⟨sampleService, []⟩, sampleLog⟩
      (speaking ++ uploadTemporary ++ spoken)).any
      (fun x => ∃ t ∈ x.state.tasks, ∃ c ∈ t.chosen x.state.world, c.2 ∉ (x.record c.1).finished ∧
        (c.2.1, c.2.2.name) ∈ (x.record c.1).temporary) = true := by
    decide +kernel
  obtain ⟨x, hsteps, hx⟩ := System.exists_of_exec h
  exact ⟨x, ⟨_, ⟨⟨⟨sampleService_fresh, sampleService_covers⟩, rfl⟩, rfl⟩, hsteps⟩, of_decide_eq_true hx⟩

end YeounEngine
