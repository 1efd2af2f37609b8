import YeounEngine.NewestUploads
import YeounEngine.Repair

/-!
# What is finished is not made again

`process_persona` promises that a call after a failure or a restart skips the steps that are done. `made` counts what
the runs on a persona finish: a trim of the voice, a transcription with a text, and of each clip a render with a file
that is not empty. A run begins one of these only when its file is not there (`NotYet`), and what has been finished
stays there (`Once`); so each is finished at most once (`finished_once`), as long as runs are accepted one at a time, no
deletion is carried out, and no left-over render empties a clip (`undoes`).
-/

namespace YeounEngine

open Transition

/-! ## What a run finishes -/

/-- The files that take a model or a child process. -/
inductive Product
  | trim
  | text
  | clip (i : Nat)
  deriving DecidableEq

/-- The step in which a run finishes one of them. A text or a clip that is left empty is not finished. -/
def finishes (H : Host) (w : PersonaWorld) : RunPc → RunEvent → Option Product
  | .ffmpeg (some rc), .communicated a => if (trimVerdict H w rc a.stderr).isNone then some .trim else none
  | .transcribing _, .transcribed text a => if a.fault.isNone ∧ text ≠ "" then some .text else none
  | .rendering i, .rendered o _ => if o.content.nonempty then some (.clip i) else none
  | _, _ => none

/-- The count after a step. -/
def countMade (made : Product → Nat) : Option Product → Product → Nat
  | none => made
  | some x => Function.update made x (made x + 1)

/-- The count along the runs on a persona. -/
def products (H : Host) : Auxiliary (Pool PersonaWorld PersonaTask) (Event PersonaTask PersonaEvent PersonaEnv)
    (Event PersonaTask PersonaEvent PersonaEnv) (Product → Nat) where
  start _ := 0
  event := some
  record p made
    | .run i (.process (.run e)) =>
      some (countMade made (((p.tasks[i]?).bind PersonaTask.run).bind fun r => finishes H p.world r.pc e))
    | _ => some made

/-- The requests on one persona, with the count. -/
def productSystem (H : Host) (init : PersonaWorld → Prop) : System (Extended (Pool PersonaWorld PersonaTask)
    (Product → Nat)) (Event PersonaTask PersonaEvent PersonaEnv) :=
  (personaSystem H init).extend (products H)

/-- The file that left-over work writes, or its side file. -/
def Orphan.writesTo (o : Orphan) (side : Bool) : Option (Folder × String) :=
  o.writes.map fun w => (w.1, w.2.1 ++ if side then o.side else "")

/-- Left-over work writes an empty file over a clip, as a render does when it opens its target. -/
def Orphan.emptiesClip (o : Orphan) : OrphanAct → Bool
  | .write side out =>
    !out.content.nonempty && (List.range idleCount).any fun i => o.writesTo side = some (.idle, idleName i)
  | _ => false

/-- A step that takes finished files away: of a deletion, or of one that was cancelled, or of a left-over render that
opens a clip. -/
def undoes (p : Pool PersonaWorld PersonaTask) : Event PersonaTask PersonaEvent PersonaEnv → Bool
  | .run _ (.delete _) => true
  | .env (.orphan k act) => (p.world.orphans[k]?).any fun o => o.writes.isNone || o.emptiesClip act
  | _ => false

/-! ## The invariant -/

/-- The file is there. -/
def There (fs : Files) : Product → Prop
  | .trim => fs.has .voiceRef refAudio = true
  | .text => fs.has .voiceRef refAudio = true ∧ fs.hasNonempty .voiceRef refText = true
  | .clip i => i < idleCount ∧ fs.hasNonempty .idle (idleName i) = true

/-- What has been finished was finished once, and is there. -/
structure Once (fs : Files) (made : Product → Nat) : Prop where
  once : ∀ x, made x ≤ 1
  there : ∀ x, made x ≠ 0 → There fs x

/-- What the run is about to make has not been finished. -/
def NotYet (fs : Files) (made : Product → Nat) : RunPc → Prop
  | .spawning | .ffmpeg _ => made .trim = 0 ∧ made .text = 0
  | .setTranscribing => fs.has .voiceRef refAudio = true
  | .waitingGpu | .transcribing _ => fs.has .voiceRef refAudio = true ∧ made .text = 0
  | .waitingDitto i | .rendering i => i < idleCount ∧ made (.clip i) = 0
  | _ => True

/-- A run that resumes what is there. -/
structure Resumes (fs : Files) (made : Product → Nat) (pc : RunPc) : Prop where
  once : Once fs made
  notYet : NotYet fs made pc

section
variable {fs fs' : Files} {made : Product → Nat} {H : Host} {w w' : PersonaWorld} {r r' : Run}

theorem Once.kept (h : Once fs made) (hk : ∀ x, made x ≠ 0 → There fs x → There fs' x) : Once fs' made :=
  ⟨h.once, fun x hx => hk x hx (h.there x hx)⟩

/-- One more, which had not been finished. -/
theorem Once.finish {x : Product} (h : Once fs made) (hx : made x = 0) (hthere : There fs' x)
    (hk : ∀ y, y ≠ x → made y ≠ 0 → There fs y → There fs' y) : Once fs' (countMade made (some x)) := by
  refine ⟨fun y => ?_, fun y hy => ?_⟩
  · by_cases hxy : y = x
    · rw [hxy, countMade, Function.update_self, hx]
    · rw [countMade, Function.update_of_ne hxy]
      exact h.once y
  · by_cases hxy : y = x
    · rw [hxy]
      exact hthere
    · rw [countMade, Function.update_of_ne hxy] at hy
      exact hk y hxy hy (h.there y hy)

/-- What is not there has not been finished. -/
theorem Once.eq_zero {x : Product} (h : Once fs made) (hx : ¬ There fs x) : made x = 0 := by
  by_contra hne
  exact hx (h.there x hne)

theorem hasNonempty_of_get {f : Folder} {name : String} (h : fs'.get f name = fs.get f name) :
    fs'.hasNonempty f name = fs.hasNonempty f name := by
  rw [Files.hasNonempty, Files.hasNonempty, h]

/-- A change outside of the two folders. -/
theorem There.of_dirs {x : Product} (h : There fs x) (hv : fs'.dir .voiceRef = fs.dir .voiceRef)
    (hi : fs'.dir .idle = fs.dir .idle) : There fs' x := by
  cases x with
  | trim => exact (has_of_dir hv).trans h
  | text => exact ⟨(has_of_dir hv).trans h.1, (hasNonempty_of_get (get_of_dir hv)).trans h.2⟩
  | clip i => exact ⟨h.1, (hasNonempty_of_get (get_of_dir hi)).trans h.2⟩

theorem There.mkdir {x : Product} (h : There fs x) {f : Folder} : There (fs.mkdir f) x := by
  cases x with
  | trim => exact has_mkdir.trans h
  | text => exact ⟨has_mkdir.trans h.1, (hasNonempty_of_get get_mkdir).trans h.2⟩
  | clip i => exact ⟨h.1, (hasNonempty_of_get get_mkdir).trans h.2⟩

/-- A file that is written takes no other away. -/
theorem There.write {x : Product} (h : There fs x) {f : Folder} {name : String} {file : File}
    (hfile : (x = .text ∧ f = .voiceRef ∧ name = refText) ∨
      (f = .idle ∧ ∃ i < idleCount, x = .clip i ∧ name = idleName i) →
      file.content.nonempty = true) : There (fs.write f name file) x := by
  have nonempty : ∀ {f' other}, fs.hasNonempty f' other = true →
      (f' = f → other = name → file.content.nonempty = true) →
      (fs.write f name file).hasNonempty f' other = true := by
    intro f' other hother hsame
    by_cases hf : f' = f
    · by_cases hname : other = name
      · subst hf hname
        cases hget : fs.get f' other with
        | none => rw [Files.hasNonempty, hget] at hother; cases hother
        | some file' =>
          rw [Files.hasNonempty, get_write_self (isSome_dir_of_get hget)]
          exact hsame rfl rfl
      · subst hf
        exact (hasNonempty_of_get (get_write_of_ne hname)).trans hother
    · exact (hasNonempty_of_get (get_of_dir (Files.dir_modify_of_ne hf))).trans hother
  cases x with
  | trim => exact has_write h
  | text => exact ⟨has_write h.1, nonempty h.2 fun hf hname => hfile (.inl ⟨rfl, hf.symm, hname.symm⟩)⟩
  | clip i => exact ⟨h.1, nonempty h.2 fun hf hname => hfile (.inr ⟨hf.symm, i, h.1, rfl, hname.symm⟩)⟩

/-- Removing other files takes nothing away. -/
theorem There.of_get {x : Product} (h : There fs x)
    (haudio : x = .trim ∨ x = .text → fs'.get .voiceRef refAudio = fs.get .voiceRef refAudio)
    (htext : x = .text → fs'.get .voiceRef refText = fs.get .voiceRef refText)
    (hclip : ∀ i, x = .clip i → fs'.get .idle (idleName i) = fs.get .idle (idleName i)) : There fs' x := by
  cases x with
  | trim => rw [There, Files.has, haudio (.inl rfl)]; exact h
  | text => exact ⟨by rw [Files.has, haudio (.inr rfl)]; exact h.1, (hasNonempty_of_get (htext rfl)).trans h.2⟩
  | clip i => exact ⟨h.1, (hasNonempty_of_get (hclip i rfl)).trans h.2⟩

theorem resumes_orFail {fault : Option Exc} {k : PersonaWorld × Run} (h : Once w.files made)
    (hk : Resumes k.1.files made k.2.pc) : Resumes (orFail w r fault k).1.files made (orFail w r fault k).2.pc := by
  cases fault with
  | none => exact hk
  | some e => exact ⟨h, trivial⟩

theorem resumes_prepareVoiceRef (h : Once w.files made) :
    Resumes (prepareVoiceRef w r).1.files made (prepareVoiceRef w r).2.pc := by
  rw [prepareVoiceRef]
  split
  · rename_i hhas
    exact ⟨h, hhas⟩
  · rename_i hno
    exact ⟨h.kept fun _ _ hx => hx.mkdir, h.eq_zero hno, h.eq_zero fun ht => hno ht.1⟩

theorem resumes_transcribeVoice (h : Once w.files made) (haudio : w.files.has .voiceRef refAudio = true) :
    Resumes (transcribeVoice H w r).1.files made (transcribeVoice H w r).2.pc := by
  rw [transcribeVoice]
  split
  · split
    · exact ⟨h, trivial⟩
    · exact ⟨h, trivial⟩
  · rename_i hnone
    refine ⟨h, haudio, h.eq_zero fun ht => ?_⟩
    have htext := ht.2
    rw [Files.hasNonempty] at htext
    cases hget : w.files.get .voiceRef refText with
    | none => rw [hget] at htext; cases htext
    | some file =>
      rw [hget, Option.any_some] at htext
      rw [hget, Option.filter_some, if_pos htext] at hnone
      cases hnone

theorem resumes_nextClip {i : Nat} (h : Once fs made) (hi : i ≤ idleCount) : Resumes fs made (nextClip fs i) := by
  refine ⟨h, ?_⟩
  rw [nextClip]
  split
  · rename_i j hj
    have hmem := (List.mem_range'_1.mp (List.mem_of_find?_eq_some hj)).2
    have hno := List.find?_some hj
    refine ⟨by omega, h.eq_zero fun ht => ?_⟩
    rw [ht.2] at hno
    cases hno
  · exact trivial

theorem resumes_renderIdleClips (h : Once w.files made) :
    Resumes (renderIdleClips H w r).1.files made (renderIdleClips H w r).2.pc := by
  rw [renderIdleClips]
  split
  · exact ⟨h, trivial⟩
  · exact resumes_nextClip (h.kept fun _ _ hx => hx.mkdir) (Nat.zero_le _)

/-- A change to the files of clip `i`, which has not been finished. -/
theorem Once.render {i : Nat} (h : Once fs made) (hi : made (.clip i) = 0)
    (hv : fs'.dir .voiceRef = fs.dir .voiceRef)
    (hget : ∀ j < idleCount, j ≠ i → fs'.get .idle (idleName j) = fs.get .idle (idleName j)) : Once fs' made := by
  refine h.kept fun x hx hthere => hthere.of_get (fun _ => get_of_dir hv) (fun _ => get_of_dir hv) fun j hj => ?_
  subst hj
  exact hget j hthere.1 fun hji => hx (hji ▸ hi)

/-- Neither has the trim been finished, nor a text. -/
theorem Once.trimming (h : Once fs made) (hn : made .trim = 0 ∧ made .text = 0)
    (hi : fs'.dir .idle = fs.dir .idle) : Once fs' made := by
  refine h.kept fun x hx hthere => hthere.of_get ?_ ?_ fun _ _ => get_of_dir hi
  · rintro (rfl | rfl)
    · exact absurd hn.1 hx
    · exact absurd hn.2 hx
  · rintro rfl
    exact absurd hn.2 hx

theorem Once.trimmed (h : Once fs made) (hn : made .trim = 0 ∧ made .text = 0) (hi : fs'.dir .idle = fs.dir .idle)
    (haudio : fs'.has .voiceRef refAudio = true) : Once fs' (countMade made (some .trim)) := by
  refine h.finish hn.1 haudio fun x hne hx hthere => ?_
  exact (h.trimming hn hi).there x hx

theorem Once.idleFailed {i : Nat} {started : Bool} {unlinked : String → Bool} (h : Once w.files made)
    (hn : i < idleCount ∧ made (.clip i) = 0) :
    Once (YeounEngine.idleFailed w i started unlinked).files made := by
  refine h.render hn.2 (dir_idleFailed (by simp)) fun j hj hji => ?_
  have hne := idleName_ne j hj i hn.1
  rw [YeounEngine.idleFailed]
  split
  · rw [PersonaWorld.onFiles, dittoCleanup, Files.get, Files.dir_modify]
    refine fileIn_eraseAll_of_not_mem fun hmem => ?_
    rcases List.mem_pair.mp (List.mem_filter.mp hmem).1 with heq | heq
    · exact hne.2 hji heq
    · exact hne.1 heq
  · rfl

theorem resumes_finishTrim {rc : Int} {a : AfterTrim} (h : Once w.files made)
    (hn : made .trim = 0 ∧ made .text = 0) :
    Resumes (finishTrim H w r rc a).1.files
      (countMade made (if (trimVerdict H w rc a.stderr).isNone then some .trim else none))
      (finishTrim H w r rc a).2.pc := by
  rw [finishTrim]
  cases hv : trimVerdict H w rc a.stderr with
  | some verdict =>
    obtain ⟨e, tidy⟩ := verdict
    refine ⟨h.trimming hn ?_, trivial⟩
    dsimp only
    split
    · exact Files.dir_modify_of_ne (by simp)
    · rfl
  | none =>
    obtain ⟨-, file, hfile⟩ := trimVerdict_none hv
    have haudio : w.files.has .voiceRef refAudio = true := Option.isSome_iff_exists.mpr ⟨file, hfile⟩
    have hstrays : (w.files.modify .voiceRef (unlinkStrays a.strayUnlinked)).has .voiceRef refAudio = true := by
      rw [Files.has, Files.get, Files.dir_modify, fileIn_unlinkStrays]
      exact haudio
    have hdir : (w.files.modify .voiceRef (unlinkStrays a.strayUnlinked)).dir .idle = w.files.dir .idle :=
      Files.dir_modify_of_ne (by simp)
    refine resumes_orFail (h.trimmed hn rfl haudio) ?_
    dsimp only
    split
    · -- a text of an older trim is removed; none has been finished
      refine resumes_orFail (h.trimmed hn hdir hstrays) ?_
      have hkept := (has_unlink_of_ne refAudio_ne_refText).trans hstrays
      exact ⟨h.trimmed hn ((Files.dir_modify_of_ne (by simp)).trans hdir) hkept, hkept⟩
    · exact ⟨h.trimmed hn hdir hstrays, hstrays⟩

theorem resumes_saveRefText {audio : Option Content} {text : String} {a : AfterTranscribe} (h : Once w.files made)
    (haudio : w.files.has .voiceRef refAudio = true) (hn : made .text = 0) :
    Resumes (saveRefText w r audio text a).1.files
      (countMade made (if a.fault.isNone ∧ text ≠ "" then some .text else none))
      (saveRefText w r audio text a).2.pc := by
  rw [saveRefText]
  cases hfault : a.fault with
  | some fault =>
    obtain ⟨e, left⟩ := fault
    refine ⟨?_, trivial⟩
    cases left with
    | none => exact h
    | some part =>
      refine h.kept fun x _ hx => hx.mkdir.write ?_
      rintro (⟨-, -, hname⟩ | ⟨hf, -⟩)
      · exact absurd hname.symm refText_ne_tmp
      · cases hf
  | none =>
    have hdir : (((w.files.mkdir .voiceRef).unlink .voiceRef (refText ++ ".tmp")).dir .voiceRef).isSome = true := by
      rw [Files.unlink, Files.dir_modify, Files.dir_mkdir]
      rfl
    have hkept : ∀ x, There w.files x →
        There ((w.files.mkdir .voiceRef).unlink .voiceRef (refText ++ ".tmp")) x := fun x hx =>
      hx.mkdir.of_get (fun _ => get_unlink_of_ne refAudio_ne_tmp) (fun _ => get_unlink_of_ne refText_ne_tmp)
        fun _ _ => get_of_dir (Files.dir_modify_of_ne (by simp))
    refine ⟨?_, trivial⟩
    by_cases htext : text = ""
    · rw [if_neg (by simp [htext])]
      refine h.kept fun x hx hthere => (hkept x hthere).write ?_
      rintro (⟨rfl, -⟩ | ⟨hf, -⟩)
      · exact absurd hn hx
      · cases hf
    · rw [if_pos ⟨rfl, htext⟩]
      refine h.finish hn ⟨?_, ?_⟩ fun x hne hx hthere => (hkept x hthere).write ?_
      · exact has_write ((has_unlink_of_ne refAudio_ne_tmp).trans (has_mkdir.trans haudio))
      · rw [Files.hasNonempty, PersonaWorld.onFiles, get_write_self hdir]
        exact decide_eq_true htext
      · rintro (⟨rfl, -⟩ | ⟨hf, -⟩)
        · exact absurd rfl hne
        · cases hf

theorem resumes_rendered {photo : Picked} {i : Nat} {o : Output} {fault : Option Exc} (h : Once w.files made)
    (hn : i < idleCount ∧ made (.clip i) = 0) (hd : (w.files.dir .idle).isSome = true) :
    Resumes (orFail (idleRendered w photo i o) r fault
        (idleRendered w photo i o, r.goto (nextClip (idleRendered w photo i o).files (i + 1)))).1.files
      (countMade made (if o.content.nonempty then some (.clip i) else none))
      (orFail (idleRendered w photo i o) r fault
        (idleRendered w photo i o, r.goto (nextClip (idleRendered w photo i o).files (i + 1)))).2.pc := by
  have hvoice : (idleRendered w photo i o).files.dir .voiceRef = w.files.dir .voiceRef := dir_idleRendered (by simp)
  have hother : ∀ j < idleCount, j ≠ i →
      (idleRendered w photo i o).files.get .idle (idleName j) = w.files.get .idle (idleName j) := fun j hj hji =>
    (get_write_of_ne ((idleName_ne j hj i hn.1).2 hji)).trans (get_unlink_of_ne (idleName_ne j hj i hn.1).1)
  have hdir : ((w.files.unlink .idle (idleName i ++ ".tmp.mp4")).dir .idle).isSome = true := by
    rw [Files.unlink, Files.dir_modify, Option.isSome_map]
    exact hd
  have honce : Once (idleRendered w photo i o).files
      (countMade made (if o.content.nonempty then some (.clip i) else none)) := by
    by_cases hne : o.content.nonempty = true
    · rw [if_pos hne]
      refine h.finish hn.2 ⟨hn.1, ?_⟩ fun x hxi _ hthere =>
        hthere.of_get (fun _ => get_of_dir hvoice) (fun _ => get_of_dir hvoice) fun j hj => ?_
      · rw [Files.hasNonempty, idleRendered, PersonaWorld.onFiles, get_write_self hdir]
        exact hne
      · subst hj
        exact hother j hthere.1 fun hji => hxi (hji ▸ rfl)
    · rw [if_neg hne]
      exact h.render hn.2 hvoice hother
  exact resumes_orFail honce (resumes_nextClip honce hn.1)

/-- Every step of the success path. -/
theorem BodyStep.resumes {pc : RunPc} {ev : RunEvent} {out : PersonaWorld × Run} (h : BodyStep H w r pc ev out)
    (hr : Resumes w.files made pc) :
    Resumes out.1.files (countMade made (finishes H w pc ev)) out.2.pc := by
  obtain ⟨ho, hn⟩ := hr
  cases h with
  | select =>
    refine resumes_orFail ho ?_
    rw [selectVoice]
    split
    · exact ⟨ho, trivial⟩
    · exact ⟨ho, trivial⟩
  | extract => exact resumes_orFail ho (resumes_prepareVoiceRef ho)
  | spawned => exact ⟨ho, hn⟩
  | trimOutput | trimExit => exact ⟨ho.trimming hn (Files.dir_modify_of_ne (by simp)), hn⟩
  | trimDone => exact resumes_finishTrim ho hn
  | transcribe => exact resumes_orFail ho (resumes_transcribeVoice (w := w.setStep _ _) ho hn)
  | acquireGpu => exact ⟨ho, hn⟩
  | transcribed => exact resumes_saveRefText ho hn.1 hn.2
  | render => exact resumes_orFail ho (resumes_renderIdleClips (w := w.setStep _ _) ho)
  | acquireDitto | renderSpawned => exact ⟨ho.kept fun _ _ hx => hx.mkdir, hn⟩
  | @renderOutput photo i side o =>
    refine ⟨ho.render hn.2 (Files.dir_modify_of_ne (by simp)) fun j hj hji => get_write_of_ne ?_, hn⟩
    cases side with
    | true => exact (idleName_ne j hj i hn.1).1
    | false =>
      rw [if_neg (by simp), String.append_empty]
      exact (idleName_ne j hj i hn.1).2 hji
  | rendered hp hd => exact resumes_rendered ho hn hd
  | renderFailed => exact ⟨ho.idleFailed hn, trivial⟩
  | inserted =>
    refine ⟨ho, ?_⟩
    dsimp only
    split
    · exact trivial
    · exact trivial
  | _ => exact ⟨ho, trivial⟩

theorem finishes_of_interrupts {pc : RunPc} {ev : RunEvent} (h : ev.interrupts = true) :
    finishes H w pc ev = none := by
  unfold finishes
  split
  · cases h
  · cases h
  · cases h
  · rfl

/-- Every step of a run. -/
theorem runStep_resumes {ev : RunEvent} (hs : runStep H w r ev = some (w', r')) (h : Resumes w.files made r.pc) :
    Resumes w'.files (countMade made (finishes H w r.pc ev)) r'.pc := by
  rcases runStep_cases hs with hs | ⟨hi, hs⟩
  · exact hs.resumes h
  · rw [finishes_of_interrupts hi]
    refine ⟨?_, hs.stopped (motive := NotYet w'.files made) trivial (fun _ => trivial) trivial trivial
      (fun _ => trivial) trivial⟩
    cases hs with
    | rendering hr =>
      have hn := h.notYet
      rw [hr] at hn
      exact h.once.idleFailed hn
    | _ => exact h.once

theorem notYet_of_ended {pc : RunPc} (h : pc.phase = .ended) : NotYet fs made pc := by
  cases pc with
  | updProcessing applied | updReady applied | cancelUpd applied | failUpd applied => trivial
  | returned | cancelled | raised | killed | cancelSet | failSet => trivial
  | _ => cases h

/-- What is there stays there, so that what a run relies on holds. -/
theorem NotYet.kept {pc : RunPc} (h : NotYet fs made pc)
    (hk : There fs .trim → There fs' .trim) : NotYet fs' made pc := by
  cases pc with
  | setTranscribing => exact hk h
  | waitingGpu | transcribing => exact ⟨hk h.1, h.2⟩
  | updProcessing applied | updReady applied => trivial
  | spawning | ffmpeg | waitingDitto | rendering => exact h
  | _ => trivial

end

/-- What has been finished is there, and every run goes on from there. -/
structure Resuming (p : Pool PersonaWorld PersonaTask) (made : Product → Nat) : Prop where
  one : OneRun p
  text : TextKept p.world
  once : Once p.world.files made
  notYet : ∀ t ∈ p.tasks, ∀ r, t.run = some r → NotYet p.world.files made r.pc

section
variable {H : Host} {p q : Pool PersonaWorld PersonaTask} {made : Product → Nat}
  {e : Event PersonaTask PersonaEvent PersonaEnv}

theorem run_of_arriving {t : PersonaTask} (h : t.arriving = true) : t.run = none := by
  unfold PersonaTask.arriving at h
  split at h
  · rfl
  · rfl
  · rfl
  · cases h

theorem phase_of_kill {t : PersonaTask} {r : Run} (h : t.kill.run = some r) : r.pc.phase = .ended := by
  exact not_unfinished_of_phase h (kill_unfinished t)

/-- Left-over work takes nothing away, when it is none that undoes. -/
theorem there_orphan {w w' : PersonaWorld} {k : Nat} {act : OrphanAct} {x : Product} (h : w.orphanStep k act = some w')
    (hw : TextKept w) (hok : ∀ o ∈ w.orphans[k]?, o.writes.isSome = true ∧ o.emptiesClip act = false)
    (hx : There w.files x) : There w'.files x := by
  obtain ⟨o, hk, h⟩ := Option.bind_eq_some_iff.mp h
  obtain ⟨hwrites, hempty⟩ := hok o hk
  obtain ⟨⟨sub, name, origin⟩, hsome⟩ := Option.isSome_iff_exists.mp hwrites
  rw [hsome] at h
  cases act with
  | remove => cases h
  | exit => cases h; exact hx
  | write side out =>
    cases h
    have hfolder : o.folder = some sub := by rw [Orphan.folder, hsome]; rfl
    have hmkdir : There (if o.makesFolder then w.files.mkdir sub else w.files) x := by
      split
      · exact hx.mkdir
      · exact hx
    refine hmkdir.write ?_
    rintro (⟨-, rfl, hname⟩ | ⟨rfl, i, hi, -, hname⟩)
    · -- only a left-over ffmpeg writes there, and it writes the trim
      obtain ⟨voice, rfl⟩ := hw.orphans o (List.mem_of_getElem? hk) hfolder
      cases hsome
      refine absurd hname ?_
      cases side <;> exact refAudio_ne_refText
    · have hclip : o.writesTo side = some (.idle, idleName i) := by rw [Orphan.writesTo, hsome, ← hname]; rfl
      rw [Orphan.emptiesClip, Bool.and_eq_false_iff, Bool.not_eq_false', List.any_eq_false] at hempty
      refine hempty.resolve_right fun hother => ?_
      exact hother i (List.mem_range.mpr hi) (decide_eq_true hclip)

/-- The invariant is kept by every step that undoes nothing. -/
theorem Resuming.next {made' : Product → Nat} (h : Resuming p made) (hok : WindowFree p e)
    (hundo : undoes p e = false) (hstep : (personaCoop H).next p e = some q)
    (hmade : (products H).record p made e = some made') : Resuming q made' := by
  have hone := h.one.next hok hstep
  have htext := h.text.next hstep
  suffices hkept : Once q.world.files made' ∧ ∀ t ∈ q.tasks, ∀ r, t.run = some r → NotYet q.world.files made' r.pc from
    ⟨hone, htext, hkept.1, hkept.2⟩
  refine Coop.next_cases (motive := fun q => Once q.world.files made' ∧
    ∀ t ∈ q.tasks, ∀ r, t.run = some r → NotYet q.world.files made' r.pc) hstep ?_ ?_ ?_
  · rintro t rfl harr
    cases hmade
    refine ⟨h.once, fun u hu r hr => ?_⟩
    rcases Pool.mem_append.mp hu with hu | rfl
    · exact h.notYet u hu r hr
    · rw [run_of_arriving harr] at hr
      cases hr
  · rintro i ev t w' t' rfl hi hs
    have tasks : (∀ r, t'.run = some r → NotYet w'.files made' r.pc) →
        (∀ j u, j ≠ i → p.tasks[j]? = some u → ∀ r, u.run = some r → NotYet w'.files made' r.pc) →
        ∀ u ∈ p.tasks.set i t', ∀ r, u.run = some r → NotYet w'.files made' r.pc := by
      intro hnew hold u hu
      obtain ⟨j, hj⟩ := List.mem_iff_getElem?.mp hu
      rcases Pool.getElem?_set_cases hi hj with ⟨-, rfl⟩ | ⟨hne, hj⟩
      · exact hnew
      · exact hold j u hne hj
    cases personaStep_inv hs with
    | upload hu =>
      -- a new voice leaves the trim of the old one
      cases hmade
      have hkept : ∀ x, There p.world.files x → There w'.files x := fun x hx =>
        hx.of_dirs (hu.leaves UploadKind.folder_ne_voiceRef) (hu.leaves (outFolder_ne_folder (k := .photo)))
      refine ⟨h.once.kept fun x _ => hkept x, tasks (fun r hr => by cases hr) fun j u _ hj r hr => ?_⟩
      exact (h.notYet u (List.mem_of_getElem? hj) r hr).kept (hkept .trim)
    | delete => cases hundo
    | process hp =>
      cases hp with
      | @run r ev _ r' hr =>
        have hcount : made' = countMade made (finishes H p.world r.pc ev) := by
          change some (countMade made (((p.tasks[i]?).bind PersonaTask.run).bind fun r =>
            finishes H p.world r.pc ev)) = some made' at hmade
          rw [hi] at hmade
          exact (Option.some.inj hmade).symm
        have hresumes := runStep_resumes hr ⟨h.once, h.notYet _ (List.mem_of_getElem? hi) r rfl⟩
        rw [← hcount] at hresumes
        refine ⟨hresumes.once, tasks (fun r hr => by cases hr; exact hresumes.notYet) fun j u hne hj r₁ hr₁ => ?_⟩
        -- the other runs have ended
        have hu := h.one.others hne hi hj (unfinished_of_run rfl (runStep_phase hr).ne_ended)
        exact notYet_of_ended (not_unfinished_of_phase hr₁ hu)
      | accepted =>
        -- it has begun none of them
        cases hmade
        exact ⟨h.once, tasks (fun r hr => by cases hr; exact trivial) fun j u _ hj =>
          h.notYet u (List.mem_of_getElem? hj)⟩
      | select | refused | failed | cancelled =>
        cases hmade
        exact ⟨h.once, tasks (fun r hr => by cases hr) fun j u _ hj => h.notYet u (List.mem_of_getElem? hj)⟩
  · rintro ev w' rfl hx
    cases ev with
    | restart =>
      cases hx
      cases hmade
      refine ⟨h.once, fun u hu r hr => ?_⟩
      obtain ⟨u₀, -, rfl⟩ := List.mem_map.mp hu
      exact notYet_of_ended (phase_of_kill hr)
    | orphan k act =>
      cases hmade
      have hkept : ∀ x, There p.world.files x → There w'.files x := fun x => there_orphan hx h.text fun o ho => by
        rw [undoes, ho, Option.any_some, Bool.or_eq_false_iff] at hundo
        exact ⟨by simpa using hundo.1, hundo.2⟩
      refine ⟨h.once.kept fun x _ => hkept x, fun u hu r hr => ?_⟩
      obtain ⟨u₀, hu₀, rfl⟩ := List.mem_map.mp hu
      exact (h.notYet u₀ hu₀ r hr).kept (hkept .trim)

end

/-! ## Main result -/

/-- In every interleaving of uploads, `/process` requests with their runs, failures, cancellations, restarts and
left-over work on a persona, in which runs are accepted one at a time and nothing takes finished files away: however
often its processing is tried, the runs trim the voice, transcribe a text and render each clip with a file that is not
empty at most once. -/
theorem finished_once (H : Host) (id : Uuid) (interviews : List InterviewAnswer)
    (x : Extended (Pool PersonaWorld PersonaTask) (Product → Nat))
    (h : (productSystem H (· = .new id interviews)).Reach
      (fun x e => WindowFree x.state e ∧ undoes x.state e = false) x) (y : Product) : x.record y ≤ 1 := by
  have hinv : Resuming x.state x.record := by
    refine h.inv (I := fun x => Resuming x.state x.record) ?_ ?_
    · rintro ⟨p, made⟩ ⟨⟨hw, hnil⟩, rfl⟩
      change p.world = _ at hw
      change p.tasks = [] at hnil
      have htext : TextKept p.world := by
        rw [hw]
        exact
          { text := fun file hfile => by cases hfile
            orphans := fun o ho => by cases ho }
      have hnone : unfinishedRuns p = 0 := unfinishedRuns_eq_zero (by rw [hnil]; simp)
      exact
        { one := .of_zero hnone
          text := htext
          once := ⟨fun _ => Nat.zero_le _, fun x hx => absurd rfl hx⟩
          notYet := fun t ht => by rw [hnil] at ht; cases ht }
    · intro x e z hI hok hstep
      refine System.extend_cases (motive := fun z => Resuming z.state z.record) hstep ?_ fun r he _ => by cases he
      intro e' q r he hq hr
      cases he
      exact hI.next hok.1 hok.2 hq hr
  exact hinv.once.once y

/-- The voice of the concrete run. -/
def voiceRequest : UploadRequest :=
  ⟨.voice, some "audio/mpeg", some "voice.mp3", [0x49, 0x44, 0x33, 4, 5]⟩

/-- Upload `i` of the voice, to its response. -/
def uploadVoice (i : Nat) : List (Event PersonaTask PersonaEvent PersonaEnv) :=
  [.arrive (.upload voiceRequest (.getting none)), .run i (.upload .select), .run i (.upload .resume)] ++ finishUpload i

/-- Request `i` with these steps of its run. -/
def processRun (i : Nat) (es : List RunEvent) : List (Event PersonaTask PersonaEvent PersonaEnv) :=
  acceptedRun i ++ es.map fun e => .run i (.process (.run e))

/-- The theorem at a run that fails after the trim, and a second one that goes on from there to `READY`: the voice is
trimmed once. -/
theorem finished_once_run : ∃ x, (productSystem sampleHost (· = samplePersona)).Reach
      (fun x e => WindowFree x.state e ∧ undoes x.state e = false) x ∧
    x.state.world.row = some .ready ∧ x.record .trim = 1 ∧ ∀ y, x.record y ≤ 1 := by
  have h : ((productSystem sampleHost (· = samplePersona)).exec
      (fun x e => WindowFree x.state e ∧ undoes x.state e = false) ⟨⟨samplePersona, []⟩, fun _ => 0⟩
      (startUpload 0 ++ finishUpload 0 ++ uploadVoice 1 ++
        processRun 2 (runToTrim ++ [.spawned, .output false ⟨12, .bytes riff⟩, .exit 0, .communicated cleanTrim,
          .fail ⟨"RuntimeError", ""⟩, .lock none, .apply 0, .resume]) ++
        processRun 3 (runToTrim ++ runFromText))).any (fun x =>
          x.state.world.row = some .ready ∧ x.record .trim = 1) = true := by
    decide +kernel
  obtain ⟨x, hsteps, hx⟩ := System.exists_of_exec h
  obtain ⟨hready, htrim⟩ := of_decide_eq_true hx
  have hreach : (productSystem sampleHost (· = samplePersona)).Reach
      (fun x e => WindowFree x.state e ∧ undoes x.state e = false) x := ⟨_, ⟨⟨rfl, rfl⟩, rfl⟩, hsteps⟩
  exact ⟨x, hreach, hready, htrim, finished_once sampleHost 1 [⟨1, some "바다"⟩] x hreach⟩

end YeounEngine
