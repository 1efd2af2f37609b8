import YeounEngine.Personas

/-!
# Uploads and runs, one after the other

The sequential use of the creation pipeline: uploads to a persona and runs of `process_persona` on
it, none of which begins before the one before it has ended (`creationSystem`). Work that a cancelled call has
left behind may still go on.

The frame lemmas say which folders a step touches: a run writes `voice_ref` and `idle` only, and an
upload the folder of its kind only.
-/

namespace YeounEngine

open Transition

/-- An upload, or a run. -/
inductive CreationTask
  | upload (req : UploadRequest) (pc : UploadPc)
  | run (r : Run)

inductive CreationEvent
  | upload (e : UploadEvent)
  | run (e : RunEvent)

/-- Left-over work goes on. -/
inductive CreationEnv
  | orphan (k : Nat) (act : OrphanAct)

def UploadPc.ended : UploadPc → Bool
  | .done _ | .cancelled => true
  | _ => false

def CreationTask.ended : CreationTask → Bool
  | .upload _ pc => pc.ended
  | .run r => r.pc.ended

def CreationTask.arriving : CreationTask → Bool
  | .upload _ (.getting none) => true
  | .run r => r = Run.new
  | _ => false

def creationStep (H : Host) (w : PersonaWorld) :
    CreationTask → CreationEvent → Option (PersonaWorld × CreationTask)
  | .upload req pc, .upload e => (uploadStep H w req pc e).map fun out => (out.1, .upload req out.2)
  | .run r, .run e => (runStep H w r e).map fun out => (out.1, .run out.2)
  | _, _ => none

def creationEnv (w : PersonaWorld) : CreationEnv → Option PersonaWorld
  | .orphan k act => w.orphanStep k act

def creationCoop (H : Host) : Coop PersonaWorld CreationTask CreationEvent CreationEnv where
  arrives := CreationTask.arriving
  step w _ t e := creationStep H w t e
  env := creationEnv
  onTask _ t := t

/-- Any sequence of uploads and runs on one persona. -/
def creationSystem (H : Host) (init : PersonaWorld → Prop) :
    System (Solo PersonaWorld CreationTask) (Event CreationTask CreationEvent CreationEnv) :=
  (creationCoop H).solo CreationTask.ended init

/-- Inversion of one step of uploads and runs. -/
theorem creation_next_cases {H : Host} {s s' : Solo PersonaWorld CreationTask}
    {e : Event CreationTask CreationEvent CreationEnv} {motive : Solo PersonaWorld CreationTask → Prop}
    (h : (creationCoop H).soloNext CreationTask.ended s e = some s')
    (arrive : ∀ t, e = .arrive t → t.arriving = true →
      (∀ u, s.current = some u → u.ended = true) → motive ⟨s.world, some t⟩)
    (upload : ∀ i req pc ev w pc', e = .run i (.upload ev) → s.current = some (.upload req pc) →
      UploadStep H s.world req pc ev (w, pc') → motive ⟨w, some (.upload req pc')⟩)
    (run : ∀ i r ev w r', e = .run i (.run ev) → s.current = some (.run r) →
      runStep H s.world r ev = some (w, r') → motive ⟨w, some (.run r')⟩)
    (orphan : ∀ k act w, e = .env (.orphan k act) → s.world.orphanStep k act = some w →
      motive ⟨w, s.current⟩) : motive s' := by
  refine Coop.soloNext_cases h arrive ?_ ?_
  · intro i ev t w t' he hc hs
    change creationStep H s.world t ev = _ at hs
    unfold creationStep at hs
    split at hs
    · obtain ⟨⟨w₁, pc'⟩, hupload, heq⟩ := Option.map_eq_some_iff.mp hs
      cases heq
      exact upload i _ _ _ _ _ he hc (uploadStep_inv hupload)
    · obtain ⟨⟨w₁, r'⟩, hrun, heq⟩ := Option.map_eq_some_iff.mp hs
      cases heq
      exact run i _ _ _ _ he hc hrun
    · cases hs
  · rintro ⟨k, act⟩ w he hx
    have hmap : s.current.map ((creationCoop H).onTask (.orphan k act)) = s.current :=
      congrFun Option.map_id s.current
    rw [hmap]
    exact orphan k act w he hx

/-! ## Frames -/

section
variable {H : Host} {w w' : PersonaWorld} {r r' : Run} {f : Folder}

/-- A segment leaves the folder `f` alone. -/
def Leaves (f : Folder) (w : PersonaWorld) (out : PersonaWorld × Run) : Prop :=
  out.1.files.dir f = w.files.dir f

theorem leaves_orFail {fault : Option Exc} {k : PersonaWorld × Run} (h : Leaves f w k) :
    Leaves f w (orFail w r fault k) := by
  cases fault with
  | some e => exact rfl
  | none => exact h

theorem leaves_selectVoice : Leaves f w (selectVoice H w r) := by
  rw [selectVoice]
  split <;> exact rfl

theorem leaves_prepareVoiceRef (hf : f ≠ .voiceRef) : Leaves f w (prepareVoiceRef w r) := by
  rw [prepareVoiceRef]
  split
  · exact rfl
  · exact Files.dir_mkdir_of_ne hf

theorem leaves_finishTrim (hf : f ≠ .voiceRef) {rc : Int} {a : AfterTrim} :
    Leaves f w (finishTrim H w r rc a) := by
  rw [finishTrim]
  split
  · rename_i tidy _
    cases hb : tidy && a.unlinked with
    | true => exact Files.dir_modify_of_ne hf
    | false => exact rfl
  · refine leaves_orFail ?_
    have hstray : (w.onFiles fun fs => fs.modify .voiceRef (unlinkStrays a.strayUnlinked)).files.dir f
        = w.files.dir f := Files.dir_modify_of_ne hf
    dsimp only
    split
    · cases a.refTextFault with
      | some e => exact hstray
      | none => exact (Files.dir_modify_of_ne hf).trans hstray
    · exact hstray

theorem leaves_transcribeVoice : Leaves f w (transcribeVoice H w r) := by
  rw [transcribeVoice]
  split
  · split <;> exact rfl
  · exact rfl

theorem leaves_saveRefText (hf : f ≠ .voiceRef) {audio : Option Content} {text : String}
    {a : AfterTranscribe} : Leaves f w (saveRefText w r audio text a) := by
  rw [saveRefText]
  split
  · rename_i e left _
    cases left with
    | none => exact rfl
    | some part => exact (Files.dir_modify_of_ne hf).trans (Files.dir_mkdir_of_ne hf)
  · exact ((Files.dir_modify_of_ne hf).trans (Files.dir_modify_of_ne hf)).trans
      (Files.dir_mkdir_of_ne hf)

theorem leaves_renderIdleClips (hf : f ≠ .idle) : Leaves f w (renderIdleClips H w r) := by
  rw [renderIdleClips]
  split
  · exact rfl
  · exact Files.dir_mkdir_of_ne hf

theorem dir_idleOutput (hf : f ≠ .idle) {photo : Picked} {i : Nat} {side : Bool} {o : Output} :
    (idleOutput w photo i side o).files.dir f = w.files.dir f :=
  Files.dir_modify_of_ne hf

theorem dir_idleFailed (hf : f ≠ .idle) {i : Nat} {started : Bool} {unlinked : String → Bool} :
    (idleFailed w i started unlinked).files.dir f = w.files.dir f := by
  rw [idleFailed]
  split
  · exact Files.dir_modify_of_ne hf
  · rfl

theorem dir_idleRendered (hf : f ≠ .idle) {photo : Picked} {i : Nat} {o : Output} :
    (idleRendered w photo i o).files.dir f = w.files.dir f :=
  (Files.dir_modify_of_ne hf).trans (Files.dir_modify_of_ne hf)

/-- The success path of a run writes `voice_ref` and `idle` only. -/
theorem BodyStep.leaves {pc : RunPc} {ev : RunEvent} {out : PersonaWorld × Run}
    (h : BodyStep H w r pc ev out) (hv : f ≠ .voiceRef) (hi : f ≠ .idle) :
    out.1.files.dir f = w.files.dir f := by
  cases h with
  | select => exact leaves_orFail (w := w.setStep _ _) leaves_selectVoice
  | extract => exact leaves_orFail (w := w.setStep _ _) (leaves_prepareVoiceRef hv)
  | transcribe => exact leaves_orFail (w := w.setStep _ _) leaves_transcribeVoice
  | render => exact leaves_orFail (w := w.setStep _ _) (leaves_renderIdleClips hi)
  | trimDone => exact leaves_finishTrim hv
  | transcribed => exact leaves_saveRefText hv
  | trimOutput | trimExit => exact Files.dir_modify_of_ne hv
  | acquireDitto | renderSpawned => exact Files.dir_mkdir_of_ne hi
  | renderOutput => exact dir_idleOutput hi
  | renderFailed => exact dir_idleFailed hi
  | rendered =>
    refine Eq.trans (leaves_orFail (w := idleRendered w _ _ _) ?_) (dir_idleRendered hi)
    exact rfl
  | _ => rfl

/-- An interruption writes `idle` only. -/
theorem Interrupted.leaves {out : PersonaWorld × Run} (h : Interrupted w r out) (hi : f ≠ .idle) :
    out.1.files.dir f = w.files.dir f := by
  cases h with
  | rendering => exact dir_idleFailed (w := w) hi
  | _ => rfl

/-- What it leaves running writes `voice_ref`, while ffmpeg runs, or `idle`. -/
theorem Interrupted.leftover {out : PersonaWorld × Run} (h : Interrupted w r out) {o : Orphan}
    (ho : o ∈ out.1.orphans) :
    o ∈ w.orphans ∨ (∃ voice, o = .ffmpeg voice ∧ r.pc = .ffmpeg none ∧ r.voice = some voice) ∨
      ∃ i photo, o = .idleRender photo (idleName i) ∧ r.pc = .rendering i ∧ r.photo = some photo := by
  cases h with
  | body | ended => exact .inl ho
  | trimming hr hv =>
    rcases PersonaWorld.mem_leave.mp ho with ho | ho
    · exact .inl ho
    · exact .inr (.inl ⟨_, ho, hr, hv⟩)
  | rendering hr hp =>
    rcases PersonaWorld.mem_leave.mp ho with ho | ho
    · exact .inl ho
    · exact .inr (.inr ⟨_, _, ho, hr, hp⟩)

/-- A run writes `voice_ref` and `idle` only. -/
theorem runStep_leaves {ev : RunEvent} (h : runStep H w r ev = some (w', r'))
    (hv : f ≠ .voiceRef) (hi : f ≠ .idle) : w'.files.dir f = w.files.dir f := by
  rcases runStep_cases h with h | ⟨-, h⟩
  · exact h.leaves hv hi
  · exact h.leaves hi

/-- What a run leaves running writes `voice_ref` or `idle`. -/
theorem runStep_leftover {ev : RunEvent} (h : runStep H w r ev = some (w', r')) {o : Orphan}
    (ho : o ∈ w'.orphans) :
    o ∈ w.orphans ∨ o.folder = some .voiceRef ∨ o.folder = some .idle := by
  rcases runStep_cases h with h | ⟨-, h⟩
  · exact .inl (h.orphans ▸ ho)
  · rcases h.leftover ho with ho | ⟨voice, rfl, -⟩ | ⟨i, photo, rfl, -⟩
    · exact .inl ho
    · exact .inr (.inl rfl)
    · exact .inr (.inr rfl)

/-- An upload writes the folder of its kind only. -/
theorem UploadStep.leaves {req : UploadRequest} {pc : UploadPc} {ev : UploadEvent}
    {out : PersonaWorld × UploadPc} (h : UploadStep H w req pc ev out) (hf : f ≠ req.kind.folder) :
    out.1.files.dir f = w.files.dir f := by
  cases h with
  | opened => exact Files.dir_mkdir_of_ne hf
  | output | written => exact Files.dir_modify_of_ne hf
  | renamed => exact (Files.dir_modify_of_ne hf).trans (Files.dir_modify_of_ne hf)
  | renameFailed | writeFailed =>
    rw [dropTmp]
    split
    · exact Files.dir_modify_of_ne hf
    · rfl
  | insert =>
    rw [insertAsset]
    split <;> rfl
  | _ => rfl

end

end YeounEngine
