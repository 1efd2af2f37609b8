import YeounEngine.ClipTable
import YeounEngine.Deletion

/-!
# What a `READY` persona has

`start_session` looks at the status only, so everything a conversation reads has to be there while it is
`READY` (`Usable`). A run makes or finds all of it before it sets `READY`, and later uploads take none of
it away. A deletion does: it removes the files first, and the row at the end; when it fails
in between, the row stays by design, for an operator to look after.

`ResourcesSafe` is the condition that no deletion of a `READY` persona stops half-way, and that what the models
return is not empty. Under it `READY` means usable between any two requests
(`usable_of_resourcesSafe`); `ready_without_audio` is a deletion that fails.
-/

namespace YeounEngine

open Transition

/-! ## The property -/

/-- What a conversation with the persona reads. -/
structure Usable (w : PersonaWorld) : Prop where
  photo : ∃ name, w.files.has .photo name = true
  audio : w.files.has .voiceRef refAudio = true
  text : w.files.hasNonempty .voiceRef refText = true
  clips : ∀ i < idleCount, w.files.hasNonempty .idle (idleName i) = true

/-! ## One request after the other -/

def PersonaTask.ended : PersonaTask → Bool
  | .upload _ pc => pc.ended
  | .process (.accepted r) => r.pc.ended
  | .process (.getting _) => false
  | .process _ => true
  | .delete (.done _) | .delete .cancelled => true
  | .delete _ => false

/-- Any sequence of requests on one persona. -/
def personaSequence (H : Host) (init : PersonaWorld → Prop) :
    System (Solo PersonaWorld PersonaTask) (Event PersonaTask PersonaEvent PersonaEnv) :=
  (personaCoop H).solo PersonaTask.ended init

/-! ## The condition -/

/-- The deletion removes files, and then rows. -/
def DeletePc.removes : DeletePc → Bool
  | .rmtree _ | .deletingRows _ => true
  | _ => false

def PersonaTask.removes : PersonaTask → Bool
  | .delete pc => pc.removes
  | _ => false

/-- What the model or Ditto returns in the step is not empty. -/
def RunEvent.substantial : RunEvent → Bool
  | .transcribed text _ => text ≠ ""
  | .rendered o _ => o.content.nonempty
  | _ => true

/-- A deletion of a `READY` persona is not stopped while it removes, an upload writes to a name of its own, and
what a run is given is not empty. -/
def stepSafe (w : PersonaWorld) : PersonaTask → PersonaEvent → Bool
  | .delete pc, .delete (.fail _) | .delete pc, .delete .cancel => !pc.removes || w.row ≠ some .ready
  | .upload req _, .upload (.closed fresh tmp _ _) =>
    !w.files.has req.kind.folder (uploadName req.filename fresh ++ ".tmp." ++ tmp.hex)
  | .process _, .process (.run ev) => ev.substantial
  | _, _ => true

/-- The left-over work neither renders nor removes. -/
def Orphan.harmless : Orphan → Bool
  | .ffmpeg _ | .tmpWrite .photo _ | .tmpWrite .voice _ => true
  | _ => false

/-- The steps meet `stepSafe`, no restart stops a deletion of a `READY` persona while it removes, and no render
or removal goes on that was left over. -/
def ResourcesSafe (s : Solo PersonaWorld PersonaTask) : Event PersonaTask PersonaEvent PersonaEnv → Prop
  | .arrive _ => True
  | .run _ e => ∀ t ∈ s.current, stepSafe s.world t e = true
  | .env .restart => ∀ t ∈ s.current, t.removes = true → s.world.row ≠ some .ready
  | .env (.orphan k _) => ∀ o ∈ s.world.orphans[k]?, o.harmless = true

instance (s : Solo PersonaWorld PersonaTask) :
    ∀ e : Event PersonaTask PersonaEvent PersonaEnv, Decidable (ResourcesSafe s e)
  | .arrive _ => inferInstanceAs (Decidable True)
  | .run _ e => inferInstanceAs (Decidable (∀ t ∈ s.current, stepSafe s.world t e = true))
  | .env .restart =>
    inferInstanceAs (Decidable (∀ t ∈ s.current, t.removes = true → s.world.row ≠ some .ready))
  | .env (.orphan k _) => inferInstanceAs (Decidable (∀ o ∈ s.world.orphans[k]?, o.harmless = true))

/-! ## What a run has made -/

/-- How much of what is needed the run has: the audio, the text too, and the photo too. -/
def RunPc.stage : RunPc → Nat
  | .setTranscribing | .waitingGpu | .transcribing _ => 1
  | .setRendering => 2
  | .waitingDitto _ | .rendering _ | .inserting _ _ | .setReady | .updReady _ => 3
  | _ => 0

/-- It is there. -/
structure MadeTo (w : PersonaWorld) (n : Nat) : Prop where
  audio : 1 ≤ n → w.files.has .voiceRef refAudio = true
  text : 2 ≤ n → w.files.hasNonempty .voiceRef refText = true
  photo : 3 ≤ n → ∃ name, w.files.has .photo name = true

section
variable {H : Host} {w w' : PersonaWorld} {r r' : Run} {n : Nat}

theorem stage_nextClip {fs : Files} {i : Nat} : (nextClip fs i).stage = 3 := by
  rw [nextClip]
  split <;> rfl

theorem MadeTo.zero : MadeTo w 0 :=
  ⟨fun h => absurd h (by decide), fun h => absurd h (by decide), fun h => absurd h (by decide)⟩

theorem MadeTo.of_dirs (h : MadeTo w n) (hv : w'.files.dir .voiceRef = w.files.dir .voiceRef)
    (hp : w'.files.dir .photo = w.files.dir .photo) : MadeTo w' n := by
  refine ⟨fun hn => ?_, fun hn => ?_, fun hn => ?_⟩
  · rw [Files.has, get_of_dir hv]
    exact h.audio hn
  · rw [Files.hasNonempty, get_of_dir hv]
    exact h.text hn
  · obtain ⟨name, hname⟩ := h.photo hn
    exact ⟨name, by rw [Files.has, get_of_dir hp]; exact hname⟩

theorem madeTo_one (h : w.files.has .voiceRef refAudio = true) : MadeTo w 1 :=
  ⟨fun _ => h, fun h => absurd h (by decide), fun h => absurd h (by decide)⟩

theorem madeTo_two (ha : w.files.has .voiceRef refAudio = true)
    (ht : w.files.hasNonempty .voiceRef refText = true) : MadeTo w 2 :=
  ⟨fun _ => ha, fun _ => ht, fun h => absurd h (by decide)⟩

/-- At the point where a run fails nothing is needed. -/
theorem madeTo_orFail {fault : Option Exc} {k : PersonaWorld × Run} (h : MadeTo k.1 k.2.pc.stage) :
    MadeTo (orFail w r fault k).1 (orFail w r fault k).2.pc.stage := by
  cases fault with
  | some e => exact .zero
  | none => exact h

theorem madeTo_prepareVoiceRef : MadeTo (prepareVoiceRef w r).1 (prepareVoiceRef w r).2.pc.stage := by
  rw [prepareVoiceRef]
  split
  · rename_i hkept
    exact madeTo_one hkept
  · exact .zero

theorem madeTo_finishTrim {rc : Int} {a : AfterTrim} :
    MadeTo (finishTrim H w r rc a).1 (finishTrim H w r rc a).2.pc.stage := by
  rcases @finishTrim_audio H w r rc a with
    ⟨⟨e, hfail⟩, -⟩ | ⟨hgo, hsame, hsome⟩
  · rw [hfail]
    exact .zero
  · rw [hgo]
    exact madeTo_one (by rw [Files.has, hsame]; exact hsome)

theorem madeTo_transcribeVoice (h : MadeTo w 1) :
    MadeTo (transcribeVoice H w r).1 (transcribeVoice H w r).2.pc.stage := by
  rw [transcribeVoice]
  split
  · rename_i file hfile
    obtain ⟨hget, hne⟩ := Option.filter_eq_some_iff.mp hfile
    split
    · exact madeTo_two (h.audio (Nat.le_refl 1)) (by rw [Files.hasNonempty, hget]; exact hne)
    · exact .zero
  · exact h

/-- The text that is saved is there, beside the audio. -/
theorem madeTo_saveRefText {audio : Option Content} {text : String} {a : AfterTranscribe}
    (h : MadeTo w 1) (ht : text ≠ "") :
    MadeTo (saveRefText w r audio text a).1 (saveRefText w r audio text a).2.pc.stage := by
  have haudio : (saveRefText w r audio text a).1.files.get .voiceRef refAudio = w.files.get .voiceRef refAudio :=
    get_saveRefText
  revert haudio
  rw [saveRefText]
  split
  · exact fun _ => .zero
  · intro haudio
    refine madeTo_two ?_ ?_
    · rw [Files.has, haudio]
      exact h.audio (Nat.le_refl 1)
    · have hsaved : ∀ file, (((w.files.mkdir .voiceRef).unlink .voiceRef (refText ++ ".tmp")).write .voiceRef
          refText file).get .voiceRef refText = some file := by
        intro file
        rw [Files.get, Files.write, Files.dir_modify]
        exact fileIn_insert_self (by simp [Files.unlink])
      refine (congrArg (Option.any fun file : File => file.content.nonempty) (hsaved _)).trans ?_
      exact decide_eq_true ht

theorem madeTo_renderIdleClips (h : MadeTo w 2) :
    MadeTo (renderIdleClips H w r).1 (renderIdleClips H w r).2.pc.stage := by
  rw [renderIdleClips]
  split
  · exact .zero
  · rename_i p hp
    have hphoto : ∃ name, w.files.has .photo name = true := by
      obtain ⟨d, hd, hnew⟩ := Option.bind_eq_some_iff.mp (pickFile_ok hp)
      obtain ⟨⟨file, hfile, -⟩, -⟩ := isNewest_of_newest hnew
      exact ⟨p.name, by rw [Files.has, Files.get, hd, fileIn_some, hfile]; rfl⟩
    have hmade : MadeTo w 3 := ⟨fun _ => h.audio (by decide), fun _ => h.text (by decide), fun _ => hphoto⟩
    rw [stage_nextClip]
    exact hmade.of_dirs (Files.dir_mkdir_of_ne (by simp)) (Files.dir_mkdir_of_ne (by simp))

/-- Once the run has the text, it writes in `idle` only. -/
theorem BodyStep.dir_of_stage {pc : RunPc} {ev : RunEvent} {out : PersonaWorld × Run} {f : Folder}
    (h : BodyStep H w r pc ev out) (hpc : 2 ≤ pc.stage) (hf : f ≠ .idle) :
    out.1.files.dir f = w.files.dir f := by
  cases h with
  | render => exact leaves_orFail (w := w.setStep _ _) (leaves_renderIdleClips hf)
  | acquireDitto | renderSpawned => exact Files.dir_mkdir_of_ne hf
  | renderOutput => exact dir_idleOutput hf
  | renderFailed => exact dir_idleFailed hf
  | rendered => exact Eq.trans (leaves_orFail (w := idleRendered w _ _ _) rfl) (dir_idleRendered hf)
  | insert | inserted | ready | setReady | done => rfl
  | _ => simp [RunPc.stage] at hpc

/-- Once the run has the photo, it has all that it needs until it ends. -/
theorem RunEdge.stage {pc pc' : RunPc} (h : RunEdge pc pc') (hpc : 3 ≤ pc.stage) :
    pc'.stage = 3 ∨ pc'.stage = 0 := by
  cases h with
  | nextClip => exact .inl stage_nextClip
  | acquireDitto | renderOutput | insert | nextRow | lastRow | ready | setReady => exact .inl rfl
  | done | fail => exact .inr rfl
  | _ => simp [RunPc.stage] at hpc

/-- The success path makes what it is about to need. -/
theorem BodyStep.madeTo {pc : RunPc} {ev : RunEvent} {out : PersonaWorld × Run}
    (h : BodyStep H w r pc ev out) (hok : ev.substantial = true) (hm : MadeTo w pc.stage) :
    MadeTo out.1 out.2.pc.stage := by
  by_cases hstage : 3 ≤ pc.stage
  · rcases h.edge.stage hstage with heq | heq
    · rw [heq]
      have hm3 : MadeTo w 3 :=
        ⟨fun _ => hm.audio (by omega), fun _ => hm.text (by omega), fun _ => hm.photo (by omega)⟩
      exact hm3.of_dirs (h.dir_of_stage (by omega) (by simp)) (h.dir_of_stage (by omega) (by simp))
    · rw [heq]
      exact .zero
  · cases h with
    | select =>
      refine madeTo_orFail ?_
      rw [selectVoice]
      split <;> exact .zero
    | extract => exact madeTo_orFail madeTo_prepareVoiceRef
    | trimDone => exact madeTo_finishTrim
    | transcribe => exact madeTo_orFail (madeTo_transcribeVoice (w := w.setStep _ _) (hm.of_dirs rfl rfl))
    | acquireGpu => exact hm
    | transcribed => exact madeTo_saveRefText hm (of_decide_eq_true hok)
    | render => exact madeTo_orFail (madeTo_renderIdleClips (w := w.setStep _ _) (hm.of_dirs rfl rfl))
    | acquireDitto | renderSpawned | renderOutput | rendered | renderFailed | insert | inserted | ready
    | setReady => exact absurd (Nat.le_refl 3) hstage
    | _ => exact .zero

/-- Nothing is needed in a handler, and after the run. -/
theorem Interrupted.stage {out : PersonaWorld × Run} (h : Interrupted w r out) : out.2.pc.stage = 0 :=
  h.stopped (motive := fun pc => pc.stage = 0) rfl (fun _ => rfl) rfl rfl (fun _ => rfl) rfl

/-- What a run in progress relies on. -/
structure RunUsable (w : PersonaWorld) (pc : RunPc) : Prop where
  claimed : pc.phase = .working ∨ pc.phase = .finishing → w.row ≠ some .ready
  clips : ClipsAt Content.nonempty w pc
  made : MadeTo w pc.stage

/-- A run that has not begun, or was killed, relies on nothing. -/
theorem RunUsable.of_eq {pc : RunPc} (h : pc = .scheduled ∨ pc = .killed) : RunUsable w pc := by
  rcases h with rfl | rfl
  · exact ⟨fun hp => by rcases hp with hp | hp <;> (cases hp), trivial, .zero⟩
  · exact ⟨fun hp => by rcases hp with hp | hp <;> (cases hp), trivial, .zero⟩

/-- One step of a run. -/
theorem RunUsable.step {ev : RunEvent} (h : RunUsable w r.pc) (hs : runStep H w r ev = some (w', r'))
    (hok : ev.substantial = true) : RunUsable w' r'.pc := by
  have hrendered : ∀ c ∈ ev.renders, c.nonempty = true := by
    intro c hc
    cases ev with
    | rendered o fault => cases hc; exact hok
    | _ => cases hc
  refine ⟨(runStep_phase hs).claimed h.claimed,
    runStep_clipsAt hs (fun _ hne => hne) hrendered h.clips, ?_⟩
  rcases runStep_cases hs with hs | ⟨-, hs⟩
  · exact hs.madeTo hok h.made
  · rw [hs.stage]
    exact .zero

theorem Usable.of_files (h : Usable w) (hf : w'.files = w.files) : Usable w' := by
  obtain ⟨hphoto, haudio, htext, hclips⟩ := h
  constructor
  · rw [hf]; exact hphoto
  · rw [hf]; exact haudio
  · rw [hf]; exact htext
  · rw [hf]; exact hclips

/-- The run that sets `READY` has made everything. -/
theorem RunUsable.usable (h : RunUsable w r.pc) (hp : r.pc.phase = .finishing) : Usable w := by
  have hpc : r.pc = .updReady false := eq_of_finishing hp
  obtain ⟨-, hclips, hmade⟩ := h
  rw [hpc] at hclips hmade
  refine ⟨hmade.photo (Nat.le_refl 3), hmade.audio (by decide), hmade.text (by decide), fun i hi => ?_⟩
  obtain ⟨file, hfile, hne⟩ := hclips i hi
  rw [Files.hasNonempty, hfile]
  exact hne

/-- A row that is `READY` after a step of a run was `READY` before it, or the run sets it. -/
theorem RunUsable.ready {ev : RunEvent} (h : RunUsable w r.pc) (hs : runStep H w r ev = some (w', r'))
    (hready : w.row = some .ready → Usable w) (hr : w'.row = some .ready) : Usable w' := by
  have hphase := runStep_phase hs
  by_cases hw : r.pc.phase = .working
  · rw [hw] at hphase
    rw [hphase.row_of_working] at hr
    exact absurd hr (h.claimed (.inl hw))
  · have husable : Usable w := by
      rcases hphase.ready_cases hr with hrow | hfin
      · exact hready hrow
      · exact h.usable hfin
    exact husable.of_files (runStep_tableKept hs hw).2.2

end

/-! ## Uploads and left-over work -/

/-- The temporary file that the upload writes. -/
def UploadPc.tmp : UploadPc → Option String
  | .writing _ tmp _ _ => some tmp
  | _ => none

/-- There is a photo besides the temporary file of the upload. -/
def PhotoBeside (w : PersonaWorld) (pc : UploadPc) : Prop :=
  ∃ name, w.files.has .photo name = true ∧ pc.tmp ≠ some name

section
variable {H : Host} {w w' : PersonaWorld}

/-- A photo upload that writes to a name of its own takes no other photo away. -/
theorem UploadStep.photoBeside {req : UploadRequest} {pc : UploadPc} {ev : UploadEvent}
    {out : PersonaWorld × UploadPc} (h : UploadStep H w req pc ev out)
    (hok : stepSafe w (.upload req pc) (.upload ev) = true) (hkind : req.kind = .photo)
    (hb : PhotoBeside w pc) : PhotoBeside out.1 out.2 := by
  obtain ⟨name, hname, hne⟩ := hb
  have hfolder : req.kind.folder = .photo := by rw [hkind]; rfl
  have none_ne : (none : Option String) ≠ some name := fun heq => by cases heq
  cases h with
  | @opened data fresh tmp =>
    refine ⟨name, ?_, fun heq => ?_⟩
    · rw [hfolder]
      exact has_mkdir.trans hname
    · rw [stepSafe, hfolder, Option.some.inj heq, hname] at hok
      cases hok
  | output | written =>
    refine ⟨name, ?_, hne⟩
    rw [hfolder]
    exact has_write hname
  | @renamed target tmp data unlinked file hf =>
    rw [hfolder] at hf ⊢
    refine ⟨target, has_write_self ?_, fun heq => by cases heq⟩
    rw [Files.unlink, Files.dir_modify, Option.isSome_map]
    exact isSome_dir_of_get hf
  | @renameFailed _ tmp | @writeFailed _ tmp =>
    refine ⟨name, ?_, none_ne⟩
    rw [dropTmp, hfolder]
    split
    · exact (has_unlink_of_ne fun heq => hne (by rw [heq]; rfl)).trans hname
    · exact hname
  | insert =>
    refine ⟨name, ?_, none_ne⟩
    rw [insertAsset]
    split <;> exact hname
  | _ => exact ⟨name, hname, none_ne⟩

end

/-! ## Sequences of requests -/

/-- What the request in progress relies on, and what it leaves of the persona while it is `READY`. -/
def TaskUsable (w : PersonaWorld) : Option PersonaTask → Prop
  | some (.process (.accepted r)) => RunUsable w r.pc ∧ (w.row = some .ready → Usable w)
  | some (.upload req pc) =>
    w.row = some .ready → Usable w ∧ (req.kind = .photo → PhotoBeside w pc)
  | some (.delete pc) =>
    (pc = .deletingRows true → w.row = none) ∧ (w.row = some .ready → pc.removes = false → Usable w)
  | _ => w.row = some .ready → Usable w

section
variable {H : Host} {w w' : PersonaWorld} {s s' : Solo PersonaWorld PersonaTask}

/-- Whatever is in progress, but for a removal. -/
theorem TaskUsable.usable {t : Option PersonaTask} (h : TaskUsable w t) (hr : w.row = some .ready)
    (ht : t.any PersonaTask.removes = false) : Usable w := by
  unfold TaskUsable at h
  split at h
  · exact h.2 hr
  · exact (h hr).1
  · exact h.2 hr ht
  · exact h hr

/-- A change that takes away nothing that is needed. -/
structure ResourcesKept (w w' : PersonaWorld) : Prop where
  row : w'.row = w.row
  photo : ∀ name, w.files.has .photo name = true → w'.files.has .photo name = true
  audio : w.files.has .voiceRef refAudio = true → w'.files.has .voiceRef refAudio = true
  text : w.files.hasNonempty .voiceRef refText = true → w'.files.hasNonempty .voiceRef refText = true
  idle : w'.files.dir .idle = w.files.dir .idle

theorem ResourcesKept.of_files (hrow : w'.row = w.row) (hf : w'.files = w.files) : ResourcesKept w w' := by
  refine ⟨hrow, fun name h => ?_, fun h => ?_, fun h => ?_, ?_⟩
  · rw [hf]; exact h
  · rw [hf]; exact h
  · rw [hf]; exact h
  · rw [hf]

theorem Usable.kept (h : Usable w) (hk : ResourcesKept w w') : Usable w' := by
  obtain ⟨⟨name, hname⟩, haudio, htext, hclips⟩ := h
  refine ⟨⟨name, hk.photo name hname⟩, hk.audio haudio, hk.text htext, fun i hi => ?_⟩
  rw [Files.hasNonempty, get_of_dir hk.idle]
  exact hclips i hi

theorem RunUsable.kept {pc : RunPc} (h : RunUsable w pc) (hk : ResourcesKept w w') : RunUsable w' pc := by
  refine ⟨fun hp => hk.row ▸ h.claimed hp, h.clips.mono fun j hj => hj.of_get (get_of_dir hk.idle), ?_⟩
  refine ⟨fun hn => hk.audio (h.made.audio hn), fun hn => hk.text (h.made.text hn), fun hn => ?_⟩
  obtain ⟨name, hname⟩ := h.made.photo hn
  exact ⟨name, hk.photo name hname⟩

theorem TaskUsable.kept {t : Option PersonaTask} (h : TaskUsable w t) (hk : ResourcesKept w w') :
    TaskUsable w' t := by
  have hrow := hk.row
  unfold TaskUsable at h ⊢
  split at h <;> rw [hrow]
  · exact ⟨h.1.kept hk, fun hr => (h.2 hr).kept hk⟩
  · intro hr
    obtain ⟨husable, hbeside⟩ := h hr
    refine ⟨husable.kept hk, fun hkind => ?_⟩
    obtain ⟨name, hname, hne⟩ := hbeside hkind
    exact ⟨name, hk.photo name hname, hne⟩
  · exact ⟨h.1, fun hr hp => (h.2 hr hp).kept hk⟩
  · exact fun hr => (h hr).kept hk

/-- The trim of ffmpeg, and a temporary file of an upload, take nothing away. -/
theorem resourcesKept_write {sub : Folder} {name : String} {file : File}
    (h : sub = .voiceRef ∧ name = refAudio ∨ sub = .photo ∨ sub = .voice) :
    ResourcesKept w (w.onFiles fun fs => fs.write sub name file) := by
  have hdir : ∀ f, f ≠ sub → (w.files.write sub name file).dir f = w.files.dir f :=
    fun f hf => Files.dir_modify_of_ne hf
  refine ⟨rfl, fun _ => has_write, has_write, fun htext => ?_, hdir _ ?_⟩
  · have hget : (w.files.write sub name file).get .voiceRef refText = w.files.get .voiceRef refText := by
      rcases h with ⟨rfl, rfl⟩ | rfl | rfl
      · exact get_write_of_ne refAudio_ne_refText.symm
      · exact get_of_dir (hdir _ (by simp))
      · exact get_of_dir (hdir _ (by simp))
    rw [Files.hasNonempty] at htext ⊢
    exact (congrArg (Option.any _) hget).trans htext
  · rcases h with ⟨rfl, -⟩ | rfl | rfl <;> simp

/-- Harmless left-over work takes nothing away. -/
theorem resourcesKept_orphan {k : Nat} {act : OrphanAct} (h : w.orphanStep k act = some w')
    (hok : ∀ o ∈ w.orphans[k]?, o.harmless = true) : ResourcesKept w w' := by
  obtain ⟨o, hk, h⟩ := Option.bind_eq_some_iff.mp h
  have ho : (∃ voice, o = .ffmpeg voice) ∨ ∃ sub tmp, o = .tmpWrite sub tmp ∧ (sub = .photo ∨ sub = .voice) := by
    have hharmless := hok o hk
    unfold Orphan.harmless at hharmless
    split at hharmless
    · exact .inl ⟨_, rfl⟩
    · exact .inr ⟨_, _, rfl, .inl rfl⟩
    · exact .inr ⟨_, _, rfl, .inr rfl⟩
    · cases hharmless
  rcases ho with ⟨voice, rfl⟩ | ⟨sub, tmp, rfl, hsub⟩
  · cases act with
    | write side out =>
      cases h
      refine resourcesKept_write (.inl ⟨rfl, ?_⟩)
      cases side <;> rfl
    | remove => cases h
    | exit => cases h; exact .of_files rfl rfl
  · cases act with
    | write side out => cases h; exact resourcesKept_write (.inr hsub)
    | remove => cases h
    | exit => cases h; exact .of_files rfl rfl

/-- A step of an upload. -/
theorem TaskUsable.upload {req : UploadRequest} {pc pc' : UploadPc} {ev : UploadEvent}
    (h : TaskUsable w (some (.upload req pc))) (hs : UploadStep H w req pc ev (w', pc'))
    (hok : stepSafe w (.upload req pc) (.upload ev) = true) : TaskUsable w' (some (.upload req pc')) := by
  intro hr
  obtain ⟨husable, hbeside⟩ := h (hs.keeps.1 ▸ hr)
  have hdir : ∀ f, f ≠ req.kind.folder → w'.files.dir f = w.files.dir f := fun f hf => hs.leaves hf
  have hvoice : Folder.voiceRef ≠ req.kind.folder := outFolder_ne_folder (k := .voice)
  have hidle : Folder.idle ≠ req.kind.folder := outFolder_ne_folder (k := .photo)
  have hphoto : req.kind = .photo → PhotoBeside w' pc' :=
    fun hkind => hs.photoBeside hok hkind (hbeside hkind)
  refine ⟨⟨?_, ?_, ?_, fun i hi => ?_⟩, hphoto⟩
  · cases hkind : req.kind with
    | photo =>
      obtain ⟨name, hname, -⟩ := hphoto hkind
      exact ⟨name, hname⟩
    | voice =>
      obtain ⟨name, hname⟩ := husable.photo
      exact ⟨name, (has_of_dir (hdir _ (by rw [hkind]; simp [UploadKind.folder]))).trans hname⟩
  · exact (has_of_dir (hdir _ hvoice)).trans husable.audio
  · rw [Files.hasNonempty, get_of_dir (hdir _ hvoice)]
    exact husable.text
  · rw [Files.hasNonempty, get_of_dir (hdir _ hidle)]
    exact husable.clips i hi

/-- A step of a `/process`, or of its run. -/
theorem TaskUsable.process {pc pc' : ProcessPc} {ev : ProcessEvent}
    (h : TaskUsable w (some (.process pc))) (hs : ProcessStep H w pc ev (w', pc'))
    (hok : stepSafe w (.process pc) (.process ev) = true) : TaskUsable w' (some (.process pc')) := by
  cases hs with
  | run hr => exact ⟨h.1.step hr hok, fun hready => h.1.ready hr h.2 hready⟩
  | accepted => exact ⟨.of_eq (.inl rfl), h⟩
  | select | refused | failed | cancelled => exact h

/-- A step of a deletion. -/
theorem TaskUsable.delete {pc pc' : DeletePc} {ev : DeleteEvent}
    (h : TaskUsable w (some (.delete pc))) (hs : DeleteStep w pc ev (w', pc'))
    (hok : stepSafe w (.delete pc) (.delete ev) = true) : TaskUsable w' (some (.delete pc')) := by
  have stopped : w.row = some .ready → (!pc.removes || w.row ≠ some .ready) = true → pc.removes = false := by
    intro hr hsafe
    rw [hr] at hsafe
    simpa using hsafe
  cases hs with
  | select | refused | getFailed | cancelGetting => exact ⟨fun hpc => (by cases hpc), fun hr _ => h.2 hr rfl⟩
  | passed | passedEmpty | remove | removeAll | removed =>
    exact ⟨fun hpc => (by cases hpc), fun _ hp => by cases hp⟩
  | deleteRows => exact ⟨fun _ => rfl, fun hr => by cases hr⟩
  | deleted =>
    refine ⟨fun hpc => (by cases hpc), fun hr => ?_⟩
    rw [h.1 rfl] at hr
    cases hr
  | removeFailed | deleteFailed | cancelRemoved | cancelDeleting =>
    exact ⟨fun hpc => (by cases hpc), fun hr _ => h.2 hr (stopped hr hok)⟩
  | cancelRemoving =>
    refine ⟨fun hpc => (by cases hpc), fun hr _ => ?_⟩
    exact (h.2 hr (stopped hr hok)).kept (.of_files rfl rfl)

/-- A request that has ended does not remove. -/
theorem removes_of_ended {t : Option PersonaTask} (h : ∀ u ∈ t, u.ended = true) :
    t.any PersonaTask.removes = false := by
  cases t with
  | none => rfl
  | some u =>
    have hu := h u rfl
    cases u with
    | delete pc => cases pc <;> first | rfl | cases hu
    | _ => rfl

/-- A restart ends the request. -/
theorem TaskUsable.kill {t : PersonaTask} (h : TaskUsable w (some t))
    (hok : t.removes = true → w.row ≠ some .ready) : TaskUsable w.restart (some t.kill) := by
  have hkept : ResourcesKept w w.restart := .of_files rfl rfl
  have husable : w.restart.row = some .ready → Usable w.restart := by
    intro hr
    refine (h.usable (t := some t) hr ?_).kept hkept
    rw [Option.any_some, Bool.eq_false_iff]
    exact fun ht => hok ht hr
  cases t with
  | upload req pc =>
    have hbeside : ∀ pc' : UploadPc, pc'.tmp = none → TaskUsable w.restart (some (.upload req pc')) := by
      intro pc' htmp hr
      refine ⟨husable hr, fun _ => ?_⟩
      obtain ⟨name, hname⟩ := (husable hr).photo
      exact ⟨name, hname, by rw [htmp]; exact fun heq => by cases heq⟩
    cases pc <;> exact hbeside _ rfl
  | process pc =>
    cases pc with
    | accepted r =>
      refine ⟨?_, husable⟩
      split
      · exact h.1.kept hkept
      · exact .of_eq (.inr rfl)
    | _ => exact husable
  | delete pc => cases pc <;> exact ⟨fun hpc => (by cases hpc), fun hr _ => husable hr⟩

/-- Every step that meets the condition keeps the invariant. -/
theorem TaskUsable.next {e : Event PersonaTask PersonaEvent PersonaEnv} (h : TaskUsable s.world s.current)
    (hok : ResourcesSafe s e) (hs : (personaCoop H).soloNext PersonaTask.ended s e = some s') :
    TaskUsable s'.world s'.current := by
  refine Coop.soloNext_cases (motive := fun s' => TaskUsable s'.world s'.current) hs ?_ ?_ ?_
  · rintro t rfl harr hended
    have husable : s.world.row = some .ready → Usable s.world :=
      fun hr => h.usable hr (removes_of_ended hended)
    cases t with
    | upload req pc =>
      intro hr
      refine ⟨husable hr, fun _ => ?_⟩
      obtain ⟨name, hname⟩ := (husable hr).photo
      refine ⟨name, hname, ?_⟩
      cases pc <;> first | cases harr | exact (fun heq => by cases heq)
    | process pc => cases pc <;> first | cases harr | exact husable
    | delete pc =>
      cases pc <;> first
        | cases harr
        | exact ⟨fun hpc => (by cases hpc), fun hr _ => husable hr⟩
  · rintro i ev t w t' rfl hc hstep
    rw [hc] at h
    have hsafe := hok t hc
    cases personaStep_inv hstep with
    | upload hs => exact h.upload hs hsafe
    | process hs => exact h.process hs hsafe
    | delete hs => exact h.delete hs hsafe
  · rintro x w rfl hx
    cases x with
    | restart =>
      cases hx
      cases hc : s.current with
      | none =>
        rw [hc] at h
        exact fun hr => (h hr).kept (.of_files rfl rfl)
      | some t =>
        rw [hc] at h
        exact h.kill (hok t hc)
    | orphan k act =>
      have hmap : s.current.map ((personaCoop H).onTask (.orphan k act)) = s.current :=
        congrFun Option.map_id s.current
      rw [hmap]
      exact h.kept (resourcesKept_orphan hx hok)

end

/-! ## Main results -/

/-- A persona that is usable if it is `READY`. -/
def UsableIfReady (w : PersonaWorld) : Prop := w.row = some .ready → Usable w

/-- In every sequence of uploads, runs and deletions in which no deletion of a `READY` persona is stopped while it
removes, and what the models return is not empty: whenever the persona is `READY` and no request is in
progress, everything that a conversation reads is there. -/
theorem usable_of_resourcesSafe (H : Host) (s : Solo PersonaWorld PersonaTask)
    (h : (personaSequence H UsableIfReady).Reach ResourcesSafe s)
    (hbetween : ∀ t ∈ s.current, t.ended = true) (hr : s.world.row = some .ready) : Usable s.world := by
  have hinv : TaskUsable s.world s.current := by
    refine h.inv (I := fun s => TaskUsable s.world s.current) (fun s hs => ?_)
      fun s e t hI hok hstep => hI.next hok hstep
    obtain ⟨hw, hcur⟩ := hs
    rw [hcur]
    exact hw
  exact hinv.usable hr (removes_of_ended hbetween)

/-- An upload of the kind, stored under its name at the time `now`. -/
def uploadRequest (kind : UploadKind) (contentType name : String) (body : List UInt8) (now : Nat) :
    List (Event PersonaTask PersonaEvent PersonaEnv) :=
  .arrive (.upload ⟨kind, some contentType, some name, body⟩ (.getting none)) ::
    [.select, .resume, .resume, .resume, .closed 7 8 false none, .written now, .renamed none true,
      .apply 9, .resume].map fun e => .run 0 (.upload e)

/-- A `/process` that is accepted, and its run. -/
def processRequest (es : List RunEvent) : List (Event PersonaTask PersonaEvent PersonaEnv) :=
  [.arrive (.process (.getting none)), .run 0 (.process .select), .run 0 (.process .resume)] ++
    es.map fun e => .run 0 (.process (.run e))

/-- A persona that becomes `READY`, and a photo that comes later. -/
def readyRequests : List (Event PersonaTask PersonaEvent PersonaEnv) :=
  uploadRequest .photo "image/jpeg" "face.jpg" [0xff, 0xd8, 0xff, 0xe0] 5 ++
    uploadRequest .voice "audio/mpeg" "voice.mp3" [0x49, 0x44, 0x33, 4] 6 ++
    processRequest (runToReady ++ [.resume]) ++
    uploadRequest .photo "image/jpeg" "later.jpg" [0xff, 0xd8, 0xff, 0xe1] 40

/-- The theorem at a run: a persona that becomes `READY`. -/
theorem usable_of_resourcesSafe_run : ∃ s : Solo PersonaWorld PersonaTask,
    (personaSequence sampleHost UsableIfReady).Reach ResourcesSafe s ∧
      (∀ t ∈ s.current, t.ended = true) ∧ s.world.row = some .ready ∧ Usable s.world := by
  have h : ((personaSequence sampleHost UsableIfReady).exec ResourcesSafe ⟨samplePersona, none⟩
      readyRequests).any (fun s => (∀ t ∈ s.current, t.ended = true) ∧ s.world.row = some .ready) = true := by
    decide +kernel
  obtain ⟨s, hsteps, hs⟩ := System.exists_of_exec h
  obtain ⟨hbetween, hrow⟩ := of_decide_eq_true hs
  have hreach : (personaSequence sampleHost UsableIfReady).Reach ResourcesSafe s :=
    ⟨_, ⟨fun hr => (by cases hr), rfl⟩, hsteps⟩
  exact ⟨s, hreach, hbetween, hrow, usable_of_resourcesSafe _ s hreach hbetween hrow⟩

/-- A deletion that removes `voice_ref` and then fails: the persona stays `READY`. -/
theorem ready_without_audio : ∃ s : Solo PersonaWorld PersonaTask,
    (personaSequence sampleHost UsableIfReady).Reach anyStep s ∧
      (∀ t ∈ s.current, t.ended = true) ∧ s.world.row = some .ready ∧ ¬ Usable s.world := by
  have h : ((personaSequence sampleHost UsableIfReady).exec anyStep ⟨samplePersona, none⟩
      (readyRequests ++ [.arrive (.delete (.getting none)), .run 0 (.delete .select), .run 0 (.delete .resume),
        .run 0 (.delete (.remove fun f _ => f ≠ .voiceRef)),
        .run 0 (.delete (.fail ⟨"OSError", "Device or resource busy"⟩))])).any
      (fun s => (∀ t ∈ s.current, t.ended = true) ∧ s.world.row = some .ready ∧
        s.world.files.has .voiceRef refAudio = false) = true := by
    decide +kernel
  obtain ⟨s, hsteps, hs⟩ := System.exists_of_exec h
  obtain ⟨hbetween, hrow, hnone⟩ := of_decide_eq_true hs
  refine ⟨s, ⟨_, ⟨fun hr => (by cases hr), rfl⟩, hsteps⟩, hbetween, hrow, fun husable => ?_⟩
  rw [husable.audio] at hnone
  cases hnone

end YeounEngine
