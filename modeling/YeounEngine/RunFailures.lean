import YeounEngine.Mounts
import YeounEngine.Personas

/-!
# The failures of a run

One run of `process_persona` at every mount, like the message. Its handler reports a failure two steps after it: a run
is taken together with the failure of its last step (`runSystem`), and what the handler reports is the reason of
that failure (`RunAlike`).
-/

namespace YeounEngine

open Transition

/-! ## The behaviour around a run -/

/-- An event without the texts of its exceptions and of ffmpeg. -/
def RunEvent.bare : RunEvent → RunEvent
  | .lock fault => .lock (fault.map Exc.bare)
  | .communicated a => .communicated { a with
      stderr := ""
      globFault := a.globFault.map Exc.bare
      refTextFault := a.refTextFault.map Exc.bare }
  | .transcribed text a => .transcribed text { a with
      fault := a.fault.map fun x => (x.1.bare, x.2) }
  | .rendered o fault => .rendered o (fault.map Exc.bare)
  | .renderFailed e started unlinked => .renderFailed e.bare started unlinked
  | .fail e => .fail e.bare
  | ev => ev

/-- A step of a run, at every mount: the world it is taken in and what happens there. The files are the same,
and so is what happens, but for texts. -/
structure RunBehaviour where
  mount : String → PersonaWorld × RunEvent
  id : ∀ d d', (mount d).1.id = (mount d').1.id
  files : ∀ d d', (mount d).1.files = (mount d').1.files
  event : ∀ d d', (mount d).2.bare = (mount d').2.bare

/-- The start of a reason. -/
def failLabel (typeName text : String) : String := typeName ++ (": " ++ text)

theorem missingLabel_length (kind : UploadKind) :
    (failLabel "FileNotFoundError" (kind.folder.path ++ " 디렉토리 없음: ")).length < 500 := by
  cases kind <;> decide +kernel

theorem emptyLabel_length (kind : UploadKind) :
    (failLabel "FileNotFoundError" (kind.folder.path ++ " 디렉토리 비어 있음: ")).length < 500 := by
  cases kind <;> decide +kernel

/-- The failure of `_pick_voice_file` and `_pick_photo_file`: that there is no file names a path. -/
def pickFailure (w : PersonaWorld) (kind : UploadKind) : Option Failure :=
  match w.files.dir kind.folder with
  | none => some (.path 500
      (failLabel "FileNotFoundError" (kind.folder.path ++ " 디렉토리 없음: "))
      (belowMount w.id kind.folder) (missingLabel_length kind))
  | some d =>
    match newest d with
    | none => some (.path 500
        (failLabel "FileNotFoundError" (kind.folder.path ++ " 디렉토리 비어 있음: "))
        (belowMount w.id kind.folder) (emptyLabel_length kind))
    | some _ => none

/-- What is written before the path of an output that ffmpeg has not left. -/
def waveMissing : String :=
  "ref_audio 출력 wav 검증 실패 (" ++ ("FileNotFoundError" ++ (": " ++
    "[Errno 2] No such file or directory: '"))

/-- ffmpeg has ended well and left no output. -/
def waveFailure (w : PersonaWorld) : Failure :=
  .path 500 (failLabel "RuntimeError" waveMissing)
    (belowMount w.id .voiceRef ++ ("/" ++ (refAudio ++ ("'" ++ ")")))) (by decide +kernel)

/-- A failure with the text of its exception. -/
def textFailure (e : Exc) : Failure := .text (failReason e)

/-- The failure of the end of `_prepare_voice_ref`: that ffmpeg has ended well and left no output names a
path. -/
def finishTrimFailure (H : Host) (w : PersonaWorld) (rc : Int) (a : AfterTrim) : Option Failure :=
  if rc = 0 ∧ w.files.get .voiceRef refAudio = none then some (waveFailure w)
  else
    match trimVerdict H w rc a.stderr, a.globFault with
    | some (e, _), _ | none, some e => some (textFailure e)
    | none, none =>
      let fs := w.files.modify .voiceRef (unlinkStrays a.strayUnlinked)
      if fs.has .voiceRef refText then a.refTextFault.map textFailure else none

/-- The failure of `_transcribe_voice` before its semaphore. -/
def transcribeVoiceFailure (H : Host) (w : PersonaWorld) : Option Failure :=
  match (w.files.get .voiceRef refText).filter fun file => file.content.nonempty with
  | some file =>
    match readText H file.content with
    | .ok _ => none
    | .error e => some (textFailure e)
  | none => none

/-- The failure of a step of a run. -/
def runFailure (H : Host) (w : PersonaWorld) : RunPc → RunEvent → Option Failure
  | .setSelecting, .lock fault => fault.elim (pickFailure w .voice) fun e => some (textFailure e)
  | .setExtracting, .lock fault => fault.elim none fun e => some (textFailure e)
  | .ffmpeg (some rc), .communicated a => finishTrimFailure H w rc a
  | .setTranscribing, .lock fault =>
    fault.elim (transcribeVoiceFailure H w) fun e => some (textFailure e)
  | .transcribing _, .transcribed _ a => a.fault.map fun x => textFailure x.1
  | .setRendering, .lock fault => fault.elim (pickFailure w .photo) fun e => some (textFailure e)
  | .rendering _, .rendered _ fault => fault.elim none fun e => some (textFailure e)
  | .rendering _, .renderFailed e _ _ => some (textFailure e)
  | pc, .fail e => if pc.phase.inBody then some (textFailure e) else none
  | _, _ => none

/-- A run as a system of its own, with the failure of the last step: that is the one that the handler of
`Exception` reports. -/
def runSystem (H : Host) : System (Run × Option Failure) (PersonaWorld × RunEvent) where
  init s := s = (Run.new, none)
  step s x := (runStep H x.1 s.1 x.2).map fun out => (out.2, runFailure H x.1 s.1.pc x.2)

/-- The `error_reason` that a step sets. -/
def RunPc.reports : RunPc → RunEvent → Option String
  | .failSet reason, .lock none => some reason
  | .cancelSet, .lock none => some "cancelled"
  | _, _ => none

/-- The step in which the handler of `Exception` reports a failure. -/
def RunPc.handles : RunPc → RunEvent → Bool
  | .failSet _, .lock none => true
  | _, _ => false

/-- The reasons that a run leaves for `GET /status`, at the mount `dir`. -/
def errorReasonsAt (H : Host) (steps : List RunBehaviour) (dir : String) : List String :=
  (runSystem (H.mounted dir)).observe (fun s x => (s.1.pc.reports x.2).toList) (Run.new, none)
    (steps.map fun step => step.mount dir)

/-- The failures of that run. -/
def runFailuresAt (H : Host) (steps : List RunBehaviour) (dir : String) : List Failure :=
  (runSystem (H.mounted dir)).observe
    (fun s x => (if s.1.pc.handles x.2 then s.2 else none).toList) (Run.new, none)
    (steps.map fun step => step.mount dir)

/-! ## A step of a run at two mounts -/

/-- Where a run is, without what depends on the mount. -/
def RunPc.bare : RunPc → RunPc
  | .failSet _ => .failSet ""
  | .raised e => .raised e.bare
  | pc => pc

def Run.bare (r : Run) : Run := r.goto r.pc.bare

/-- A step at the mount `dir` and one at another mount: they lead to one place, and a step that fails goes to
the handler with its reason. -/
structure SameRunStep (f : Option Failure) (dir : String) (r r' : Option Run) : Prop where
  bare : r.map Run.bare = r'.map Run.bare
  told : ∀ p ∈ r, ∀ reason, p.pc = .failSet reason → ∃ g, f = some g ∧ g.reason dir = reason

section
variable {H : Host} {w w' : PersonaWorld} {r : Run} {pc : RunPc} {ev : RunEvent} {dir dir' : String}
  {f : Option Failure} {g : Failure} {e e' : Exc}

theorem sameRunStep_none : SameRunStep f dir none none := ⟨rfl, fun _ h => by cases h⟩

/-- Both go on. -/
theorem sameRunStep_goto (h : ∀ reason, r.pc ≠ .failSet reason) :
    SameRunStep f dir (some r) (some r) := by
  refine ⟨rfl, ?_⟩
  rintro _ ⟨⟩ reason hpc
  exact absurd hpc (h reason)

/-- Both go to the handler. -/
theorem sameRunStep_failed (h : failReason e = g.reason dir) :
    SameRunStep (some g) dir (some (r.failed e)) (some (r.bare.failed e')) := by
  refine ⟨rfl, ?_⟩
  rintro _ ⟨⟩ _ ⟨⟩
  exact ⟨g, rfl, h.symm⟩

theorem sameRunStep_orFail {fault : Option Exc} {k k' : PersonaWorld × Run}
    (h : SameRunStep f dir (some k.2) (some k'.2)) :
    SameRunStep (fault.elim f fun e => some (textFailure e)) dir (some (orFail w r fault k).2)
      (some (orFail w' r.bare (fault.map Exc.bare) k').2) := by
  cases fault with
  | some e => exact sameRunStep_failed rfl
  | none => exact h

/-- The reason of an exception whose text has a path in it. -/
theorem failReason_path {typeName text rest : String} {h} (ht : typeName ≠ "FaceDetectionError") :
    failReason ⟨typeName, text ++ (dir ++ rest)⟩ =
      (Failure.path 500 (failLabel typeName text) rest h).reason dir := by
  rw [failReason, if_neg ht]
  simp only [failLabel, Exc.reason, Failure.reason, String.append_assoc]

theorem pickFile_of_none {kind : UploadKind} (h : pickFailure w kind = none) :
    ∃ p, ∀ H, pickFile H w kind.folder = .ok p := by
  unfold pickFailure at h
  cases hd : w.files.dir kind.folder with
  | none => rw [hd] at h; cases h
  | some d =>
    rw [hd] at h
    dsimp only at h
    cases hp : newest d with
    | none => rw [hp] at h; cases h
    | some p =>
      refine ⟨p, fun H => ?_⟩
      rw [pickFile, hd]
      dsimp only
      rw [hp]

theorem pickFile_of_some {kind : UploadKind} (h : pickFailure w kind = some g) (H : Host)
    (dir : String) :
    ∃ e, pickFile (H.mounted dir) w kind.folder = .error e ∧ failReason e = g.reason dir := by
  unfold pickFailure at h
  cases hd : w.files.dir kind.folder with
  | none =>
    rw [hd] at h
    cases h
    rw [pickFile, hd]
    refine ⟨_, rfl, ?_⟩
    rw [folderPath_mounted]
    exact failReason_path (by decide)
  | some d =>
    rw [hd] at h
    dsimp only at h
    cases hp : newest d with
    | some p => rw [hp] at h; cases h
    | none =>
      rw [hp] at h
      cases h
      rw [pickFile, hd]
      dsimp only
      rw [hp]
      refine ⟨_, rfl, ?_⟩
      rw [folderPath_mounted]
      exact failReason_path (by decide)

theorem pickFailure_congr {kind : UploadKind} (hid : w'.id = w.id) (hf : w'.files = w.files) :
    pickFailure w' kind = pickFailure w kind := by
  unfold pickFailure
  rw [hid, hf]

theorem transcribeVoiceFailure_congr (hf : w'.files = w.files) :
    transcribeVoiceFailure H w' = transcribeVoiceFailure H w := by
  unfold transcribeVoiceFailure
  rw [hf]

theorem pickFile_congr {sub : Folder} (hid : w'.id = w.id) (hf : w'.files = w.files) :
    pickFile H w' sub = pickFile H w sub := by
  unfold pickFile
  rw [hid, hf]

/-- A segment that picks a file first. -/
theorem sameRunStep_pickFile {kind : UploadKind} {next next' : Picked → Run} (hid : w'.id = w.id)
    (hf : w'.files = w.files) (h : ∀ p, SameRunStep none dir (some (next p)) (some (next' p))) :
    SameRunStep (pickFailure w kind) dir
      (some (match pickFile (H.mounted dir) w kind.folder with
        | .error e => r.failed e
        | .ok p => next p))
      (some (match pickFile (H.mounted dir') w' kind.folder with
        | .error e => r.bare.failed e
        | .ok p => next' p)) := by
  rw [pickFile_congr hid hf]
  cases hfail : pickFailure w kind with
  | none =>
    obtain ⟨p, hp⟩ := pickFile_of_none hfail
    rw [hp, hp]
    exact h p
  | some g =>
    obtain ⟨e, he, hreason⟩ := pickFile_of_some hfail H dir
    obtain ⟨e', he', -⟩ := pickFile_of_some hfail H dir'
    rw [he, he']
    exact sameRunStep_failed hreason

theorem selectVoice_run : (selectVoice H w r).2 =
    match pickFile H w UploadKind.voice.folder with
    | .error e => r.failed e
    | .ok p => ⟨.setExtracting, some p, r.photo⟩ := by
  rw [selectVoice, pickVoiceFile, UploadKind.folder]
  cases pickFile H w .voice <;> rfl

theorem sameRunStep_selectVoice (hid : w'.id = w.id) (hf : w'.files = w.files) :
    SameRunStep (pickFailure w .voice) dir (some (selectVoice (H.mounted dir) w r).2)
      (some (selectVoice (H.mounted dir') w' r.bare).2) := by
  rw [selectVoice_run, selectVoice_run]
  exact sameRunStep_pickFile hid hf fun p => sameRunStep_goto fun _ h => by cases h

theorem nextClip_ne_failSet {fs : Files} {i : Nat} {reason : String} :
    nextClip fs i ≠ .failSet reason := by
  rw [nextClip]
  split <;> exact fun h => by cases h

theorem renderIdleClips_run : (renderIdleClips H w r).2 =
    match pickFile H w UploadKind.photo.folder with
    | .error e => r.failed e
    | .ok p => ⟨nextClip (w.files.mkdir .idle) 0, r.voice, some p⟩ := by
  rw [renderIdleClips, pickPhotoFile, UploadKind.folder]
  cases pickFile H w .photo <;> rfl

theorem sameRunStep_renderIdleClips (hid : w'.id = w.id) (hf : w'.files = w.files) :
    SameRunStep (pickFailure w .photo) dir (some (renderIdleClips (H.mounted dir) w r).2)
      (some (renderIdleClips (H.mounted dir') w' r.bare).2) := by
  rw [renderIdleClips_run, renderIdleClips_run]
  refine sameRunStep_pickFile hid hf fun p => ?_
  rw [hf]
  exact sameRunStep_goto fun _ => nextClip_ne_failSet

theorem sameRunStep_prepareVoiceRef (hf : w'.files = w.files) :
    SameRunStep none dir (some (prepareVoiceRef w r).2) (some (prepareVoiceRef w' r.bare).2) := by
  unfold prepareVoiceRef
  rw [hf]
  split <;> exact sameRunStep_goto fun _ h => by cases h

theorem sameRunStep_transcribeVoice (hf : w'.files = w.files) :
    SameRunStep (transcribeVoiceFailure H w) dir (some (transcribeVoice (H.mounted dir) w r).2)
      (some (transcribeVoice (H.mounted dir') w' r.bare).2) := by
  unfold transcribeVoice transcribeVoiceFailure
  rw [hf]
  generalize (w.files.get .voiceRef refText).filter _ = text
  cases text with
  | none => exact sameRunStep_goto fun _ h => by cases h
  | some file =>
    have hread : ∀ d, readText (H.mounted d) file.content = readText H file.content := fun _ => rfl
    dsimp only
    rw [hread, hread]
    cases readText H file.content with
    | ok text => exact sameRunStep_goto fun _ h => by cases h
    | error e => exact sameRunStep_failed rfl

theorem trimVerdict_congr {rc : Int} {stderr : String} (hid : w'.id = w.id)
    (hf : w'.files = w.files) : trimVerdict H w' rc stderr = trimVerdict H w rc stderr := by
  unfold trimVerdict waveOpen
  rw [hid, hf]

theorem trimVerdict_missing {rc : Int} (h : rc = 0 ∧ w.files.get .voiceRef refAudio = none)
    (H : Host) (dir stderr : String) :
    ∃ e tidy, trimVerdict (H.mounted dir) w rc stderr = some (e, tidy) ∧
      failReason e = (waveFailure w).reason dir := by
  obtain ⟨hrc, hget⟩ := h
  unfold trimVerdict waveOpen
  rw [if_neg (not_not.mpr hrc), hget]
  dsimp only
  refine ⟨_, _, rfl, ?_⟩
  have htext : "ref_audio 출력 wav 검증 실패 (" ++ Exc.reason ⟨"FileNotFoundError",
      "[Errno 2] No such file or directory: '" ++ (H.mounted dir).folderPath w.id .voiceRef ++ "/" ++
        refAudio ++ "'"⟩ ++ ")" =
      waveMissing ++ (dir ++ (belowMount w.id .voiceRef ++ ("/" ++ (refAudio ++ ("'" ++ ")"))))) := by
    -- on variables, so that no literals are joined
    have hassoc : ∀ a b c d p below s f q z : String,
        a ++ (b ++ c ++ (d ++ (p ++ below) ++ s ++ f ++ q)) ++ z =
          a ++ (b ++ (c ++ d)) ++ (p ++ (below ++ (s ++ (f ++ (q ++ z))))) := by
      intros
      simp only [String.append_assoc]
    rw [folderPath_mounted]
    exact hassoc _ _ _ _ _ _ _ _ _ _
  rw [htext]
  exact failReason_path (by decide)

theorem trimVerdict_mounted {rc : Int} {stderr : String}
    (h : ¬ (rc = 0 ∧ w.files.get .voiceRef refAudio = none)) :
    trimVerdict (H.mounted dir) w rc stderr = trimVerdict H w rc stderr := by
  unfold trimVerdict waveOpen
  split
  · rfl
  · rename_i hrc
    rw [ne_eq, not_not] at hrc
    cases hget : w.files.get .voiceRef refAudio with
    | none => exact absurd ⟨hrc, hget⟩ h
    | some file => rfl

/-- The output of ffmpeg is only a text. -/
theorem trimVerdict_isSome (H : Host) (w : PersonaWorld) (rc : Int) (stderr stderr' : String) :
    (trimVerdict H w rc stderr).isSome = (trimVerdict H w rc stderr').isSome := by
  unfold trimVerdict
  by_cases hrc : rc ≠ 0
  · rw [if_pos hrc, if_pos hrc, Option.isSome_some, Option.isSome_some]
  · rw [if_neg hrc, if_neg hrc]

theorem trimVerdict_cases (H : Host) (w : PersonaWorld) (rc : Int) (stderr stderr' : String) :
    (∃ v v', trimVerdict H w rc stderr = some v ∧ trimVerdict H w rc stderr' = some v') ∨
      trimVerdict H w rc stderr = none ∧ trimVerdict H w rc stderr' = none := by
  have hsome := trimVerdict_isSome H w rc stderr stderr'
  cases hv : trimVerdict H w rc stderr with
  | some v =>
    rw [hv] at hsome
    obtain ⟨v', hv'⟩ := Option.isSome_iff_exists.mp hsome.symm
    exact .inl ⟨v, v', rfl, hv'⟩
  | none =>
    rw [hv] at hsome
    exact .inr ⟨rfl, Option.isNone_iff_eq_none.mp (by rw [← Option.not_isSome, ← hsome]; rfl)⟩

/-- Where a run goes after ffmpeg. -/
theorem finishTrim_run {rc : Int} {a : AfterTrim} : (finishTrim H w r rc a).2 =
    match trimVerdict H w rc a.stderr, a.globFault with
    | some (e, _), _ | none, some e => r.failed e
    | none, none =>
      if (w.files.modify .voiceRef (unlinkStrays a.strayUnlinked)).has .voiceRef refText then
        a.refTextFault.elim (r.goto .setTranscribing) r.failed
      else r.goto .setTranscribing := by
  unfold finishTrim
  cases trimVerdict H w rc a.stderr with
  | some verdict => rfl
  | none =>
    cases a.globFault with
    | some e => rfl
    | none =>
      dsimp only [orFail, PersonaWorld.onFiles]
      split
      · cases a.refTextFault <;> rfl
      · rfl

theorem sameRunStep_finishTrim {rc : Int} {a : AfterTrim} (hid : w'.id = w.id)
    (hf : w'.files = w.files) :
    SameRunStep (finishTrimFailure H w rc a) dir (some (finishTrim (H.mounted dir) w r rc a).2)
      (some (finishTrim (H.mounted dir') w' r.bare rc { a with
        stderr := ""
        globFault := a.globFault.map Exc.bare
        refTextFault := a.refTextFault.map Exc.bare }).2) := by
  rw [finishTrim_run, finishTrim_run, trimVerdict_congr hid hf, hf]
  obtain ⟨stderr, unlinked, globFault, strayUnlinked, refTextFault⟩ := a
  unfold finishTrimFailure
  split
  · rename_i hmissing
    obtain ⟨e, tidy, he, hreason⟩ := trimVerdict_missing hmissing H dir stderr
    obtain ⟨e', tidy', he', -⟩ := trimVerdict_missing hmissing H dir' ""
    rw [he, he']
    exact sameRunStep_failed hreason
  · rename_i hleft
    rw [trimVerdict_mounted hleft, trimVerdict_mounted hleft]
    dsimp only
    rcases trimVerdict_cases H w rc stderr "" with ⟨verdict, verdict', hv, hv'⟩ | ⟨hv, hv'⟩
    · rw [hv, hv']
      exact sameRunStep_failed rfl
    · rw [hv, hv']
      cases globFault with
      | some e => exact sameRunStep_failed rfl
      | none =>
        dsimp only [Option.map_none]
        split
        · cases refTextFault with
          | some e => exact sameRunStep_failed rfl
          | none => exact sameRunStep_goto fun _ h => by cases h
        · exact sameRunStep_goto fun _ h => by cases h

theorem sameRunStep_saveRefText {audio : Option Content} {text : String} {a : AfterTranscribe} :
    SameRunStep (a.fault.map fun x => textFailure x.1) dir (some (saveRefText w r audio text a).2)
      (some (saveRefText w' r.bare audio text { a with
        fault := a.fault.map fun x => (x.1.bare, x.2) }).2) := by
  obtain ⟨now, fault⟩ := a
  cases fault with
  | some x => exact sameRunStep_failed rfl
  | none => exact sameRunStep_goto fun _ h => by cases h

theorem sameRunStep_raised :
    SameRunStep f dir (some (r.goto (.raised e))) (some (r.bare.goto (.raised e.bare))) :=
  ⟨rfl, by rintro _ ⟨⟩ _ ⟨⟩⟩

/-- An `await` that raises. -/
theorem sameRunStep_failStep :
    SameRunStep (runFailure H w r.pc (.fail e)) dir ((failStep w r e).map Prod.snd)
      ((failStep w' r.bare e.bare).map Prod.snd) := by
  obtain ⟨pc, voice, photo⟩ := r
  cases pc with
  | updProcessing applied | updReady applied | inserting i applied =>
    cases applied <;> exact sameRunStep_failed rfl
  | ffmpeg rc => cases rc <;> exact sameRunStep_failed rfl
  | setPending | setSelecting | setExtracting | spawning | setTranscribing | transcribing | setRendering
  | waitingDitto | setReady => exact sameRunStep_failed rfl
  | cancelUpd applied | failUpd applied => cases applied <;> exact sameRunStep_goto fun _ h => by cases h
  | cancelSet => exact sameRunStep_goto fun _ h => by cases h
  | failSet => exact sameRunStep_raised
  | scheduled | waitingGpu | rendering | returned | cancelled | raised | killed => exact sameRunStep_none

/-- An `await` that is cancelled. -/
theorem sameRunStep_cancelStep {started : Bool} {unlinked : String → Bool} :
    SameRunStep f dir ((cancelStep w r started unlinked).map Prod.snd)
      ((cancelStep w' r.bare started unlinked).map Prod.snd) := by
  obtain ⟨pc, voice, photo⟩ := r
  cases pc with
  | rendering i =>
    cases photo with
    | none => exact sameRunStep_none
    | some photo => exact sameRunStep_goto fun _ h => by cases h
  | returned | cancelled | raised | killed => exact sameRunStep_none
  | _ => exact sameRunStep_goto fun _ h => by cases h

/-- While ffmpeg runs and at its end. -/
theorem sameRunStep_ffmpeg {rc : Option Int} (hid : w'.id = w.id) (hf : w'.files = w.files) :
    SameRunStep (runFailure H w (.ffmpeg rc) ev) dir ((runBody (H.mounted dir) w r (.ffmpeg rc) ev).map Prod.snd)
      ((runBody (H.mounted dir') w' r.bare (.ffmpeg rc) ev.bare).map Prod.snd) := by
  obtain ⟨pc, voice, photo⟩ := r
  cases rc with
  | none =>
    cases ev
    case output side o =>
      cases side with
      | true => exact sameRunStep_none
      | false =>
        cases voice <;>
          first | exact sameRunStep_none | exact sameRunStep_goto fun _ h => by cases h
    case exit rc =>
      cases voice <;> first | exact sameRunStep_none | exact sameRunStep_goto fun _ h => by cases h
    all_goals exact sameRunStep_none
  | some rc =>
    cases ev
    case communicated a => exact sameRunStep_finishTrim hid hf
    all_goals exact sameRunStep_none

/-- While a clip is rendered. -/
theorem sameRunStep_rendering {i : Nat} (hf : w'.files = w.files) :
    SameRunStep (runFailure H w (.rendering i) ev) dir ((runBody (H.mounted dir) w r (.rendering i) ev).map Prod.snd)
      ((runBody (H.mounted dir') w' r.bare (.rendering i) ev.bare).map Prod.snd) := by
  obtain ⟨pc, voice, photo⟩ := r
  cases ev
  case spawned => exact sameRunStep_goto fun _ h => by cases h
  case output side o =>
    cases photo <;> first | exact sameRunStep_none | exact sameRunStep_goto fun _ h => by cases h
  case rendered o fault =>
    cases photo with
    | none => exact sameRunStep_none
    | some photo =>
      have hw' : (idleRendered w' photo i o).files = (idleRendered w photo i o).files := by
        dsimp only [idleRendered, PersonaWorld.onFiles]
        rw [hf]
      dsimp only [runBody, Run.bare, Run.goto, RunPc.bare, RunEvent.bare, Option.bind_some]
      rw [hw', hf]
      split
      · refine sameRunStep_orFail (sameRunStep_goto ?_)
        exact fun _ => nextClip_ne_failSet
      · exact sameRunStep_none
  case renderFailed e started unlinked => exact sameRunStep_failed rfl
  all_goals exact sameRunStep_none

/-- The success path. -/
theorem sameRunStep_runBody (hid : w'.id = w.id) (hf : w'.files = w.files) :
    SameRunStep (runFailure H w r.pc ev) dir ((runBody (H.mounted dir) w r r.pc ev).map Prod.snd)
      ((runBody (H.mounted dir') w' r.bare r.pc.bare ev.bare).map Prod.snd) := by
  obtain ⟨pc, voice, photo⟩ := r
  cases pc with
  | updProcessing applied | updReady applied | cancelUpd applied | failUpd applied =>
    cases applied <;> cases ev <;>
      first | exact sameRunStep_none | exact sameRunStep_goto fun _ h => by cases h
  | inserting i applied =>
    cases applied with
    | false =>
      cases ev <;> first | exact sameRunStep_none | exact sameRunStep_goto fun _ h => by cases h
    | true =>
      cases ev
      case resume =>
        refine sameRunStep_goto fun _ h => ?_
        dsimp only [Run.goto] at h
        split at h <;> cases h
      all_goals exact sameRunStep_none
  | setPending | setReady | cancelSet | failSet =>
    cases ev
    case lock fault =>
      cases fault with
      | some e => exact sameRunStep_none
      | none => exact sameRunStep_goto fun _ h => by cases h
    all_goals exact sameRunStep_none
  | setSelecting =>
    cases ev
    case lock fault =>
      exact sameRunStep_orFail (sameRunStep_selectVoice (w := w.setStep _ _) hid hf)
    all_goals exact sameRunStep_none
  | setExtracting =>
    cases ev
    case lock fault =>
      exact sameRunStep_orFail (sameRunStep_prepareVoiceRef (w := w.setStep _ _) hf)
    all_goals exact sameRunStep_none
  | ffmpeg rc => exact sameRunStep_ffmpeg hid hf
  | setTranscribing =>
    cases ev
    case lock fault =>
      exact sameRunStep_orFail (sameRunStep_transcribeVoice (w := w.setStep _ _) hf)
    all_goals exact sameRunStep_none
  | waitingGpu =>
    cases ev
    case acquire =>
      dsimp only [runBody, RunPc.bare, RunEvent.bare, Option.map_some]
      rw [hf]
      exact sameRunStep_goto fun _ h => by cases h
    all_goals exact sameRunStep_none
  | transcribing audio =>
    cases ev
    case transcribed text a => exact sameRunStep_saveRefText
    all_goals exact sameRunStep_none
  | setRendering =>
    cases ev
    case lock fault =>
      exact sameRunStep_orFail (sameRunStep_renderIdleClips (w := w.setStep _ _) hid hf)
    all_goals exact sameRunStep_none
  | rendering i => exact sameRunStep_rendering hf
  | _ => cases ev <;> first | exact sameRunStep_none | exact sameRunStep_goto fun _ h => by cases h

theorem sameRunStep_runStep (hid : w'.id = w.id) (hf : w'.files = w.files) :
    SameRunStep (runFailure H w r.pc ev) dir ((runStep (H.mounted dir) w r ev).map Prod.snd)
      ((runStep (H.mounted dir') w' r.bare ev.bare).map Prod.snd) := by
  cases ev with
  | fail e => exact sameRunStep_failStep
  | cancel started unlinked => exact sameRunStep_cancelStep
  | _ => exact sameRunStep_runBody hid hf

theorem finishTrimFailure_bare {rc : Int} {a : AfterTrim} (hid : w'.id = w.id)
    (hf : w'.files = w.files) : (finishTrimFailure H w rc a).map Failure.bare =
      (finishTrimFailure H w' rc { a with
        stderr := ""
        globFault := a.globFault.map Exc.bare
        refTextFault := a.refTextFault.map Exc.bare }).map Failure.bare := by
  obtain ⟨stderr, unlinked, globFault, strayUnlinked, refTextFault⟩ := a
  unfold finishTrimFailure waveFailure
  rw [trimVerdict_congr hid hf, hid, hf]
  split
  · rfl
  · dsimp only
    rcases trimVerdict_cases H w rc stderr "" with ⟨verdict, verdict', hv, hv'⟩ | ⟨hv, hv'⟩
    · rw [hv, hv']
      exact map_bare_text
    · rw [hv, hv']
      cases globFault with
      | some e => exact map_bare_text
      | none =>
        dsimp only [Option.map_none]
        split
        · cases refTextFault <;> first | exact map_bare_text | exact map_bare_none
        · rfl

/-- The kind of the failure does not depend on the mount. -/
theorem runFailure_bare (hid : w'.id = w.id) (hf : w'.files = w.files) :
    (runFailure H w pc ev).map Failure.bare =
      (runFailure H w' pc.bare ev.bare).map Failure.bare := by
  cases pc with
  | setSelecting =>
    cases ev
    case lock fault =>
      cases fault with
      | some e => exact map_bare_text
      | none => exact congrArg (Option.map Failure.bare) (pickFailure_congr hid hf).symm
    all_goals first | exact map_bare_text | exact map_bare_none
  | setRendering =>
    cases ev
    case lock fault =>
      cases fault with
      | some e => exact map_bare_text
      | none => exact congrArg (Option.map Failure.bare) (pickFailure_congr hid hf).symm
    all_goals first | exact map_bare_text | exact map_bare_none
  | setTranscribing =>
    cases ev
    case lock fault =>
      cases fault with
      | some e => exact map_bare_text
      | none => exact congrArg (Option.map Failure.bare) (transcribeVoiceFailure_congr hf).symm
    all_goals first | exact map_bare_text | exact map_bare_none
  | setExtracting =>
    cases ev
    case lock fault => cases fault <;> first | exact map_bare_text | exact map_bare_none
    all_goals first | exact map_bare_text | exact map_bare_none
  | ffmpeg rc =>
    cases rc with
    | none => cases ev <;> first | exact map_bare_text | exact map_bare_none
    | some rc =>
      cases ev
      case communicated a => exact finishTrimFailure_bare hid hf
      all_goals first | exact map_bare_text | exact map_bare_none
  | transcribing audio =>
    cases ev
    case transcribed text a =>
      obtain ⟨now, fault⟩ := a
      cases fault <;> first | exact map_bare_text | exact map_bare_none
    all_goals first | exact map_bare_text | exact map_bare_none
  | rendering i =>
    cases ev
    case rendered o fault => cases fault <;> first | exact map_bare_text | exact map_bare_none
    all_goals first | exact map_bare_text | exact map_bare_none
  | updProcessing applied | cancelUpd applied | failUpd applied | updReady applied =>
    cases applied <;> cases ev <;> first | exact map_bare_text | exact map_bare_none
  | _ => cases ev <;> first | exact map_bare_text | exact map_bare_none

theorem finishTrimFailure_mounted {rc : Int} {a : AfterTrim} :
    finishTrimFailure (H.mounted dir) w rc a = finishTrimFailure H w rc a := by
  unfold finishTrimFailure
  split
  · rfl
  · rename_i hleft
    rw [trimVerdict_mounted hleft]

/-- The failures are put in terms of `PERSONA_DIR`, wherever it is. -/
theorem runFailure_mounted : runFailure (H.mounted dir) w pc ev = runFailure H w pc ev := by
  unfold runFailure
  split
  case h_3 => exact finishTrimFailure_mounted
  all_goals rfl

theorem handles_bare : pc.bare.handles ev.bare = pc.handles ev := by
  cases pc
  case failSet =>
    cases ev
    case lock fault => cases fault <;> rfl
    all_goals rfl
  all_goals rfl

/-- What is reported, but for a failure, does not depend on the mount. -/
theorem reports_bare (h : pc.handles ev = false) : pc.bare.reports ev.bare = pc.reports ev := by
  cases pc
  case failSet =>
    cases ev
    case lock fault => cases fault <;> first | rfl | cases h
    all_goals rfl
  case cancelSet =>
    cases ev
    case lock fault => cases fault <;> rfl
    all_goals rfl
  all_goals rfl

theorem eq_of_handles (h : pc.handles ev = true) : ∃ reason, pc = .failSet reason ∧ ev = .lock none := by
  unfold RunPc.handles at h
  split at h
  · exact ⟨_, rfl, rfl⟩
  · cases h

end

/-! ## Runs -/

/-- A run is at one place at every mount, and what its handler reports is its failure. -/
structure RunAlike (s : String → Run × Option Failure) : Prop where
  run : ∀ d d', (s d).1.bare = (s d').1.bare
  failure : OneKind fun d => (s d).2
  told : ∀ d reason, (s d).1.pc = .failSet reason → ∃ g, (s d).2 = some g ∧ g.reason d = reason

/-- The inputs of a run are a behaviour. -/
def IsRunBehaviour (x : String → PersonaWorld × RunEvent) : Prop :=
  ∃ step : RunBehaviour, step.mount = x

section
variable {H : Host} {s : String → Run × Option Failure} {step : RunBehaviour}

theorem sameRunStep_mount (H : Host) (step : RunBehaviour) (hs : RunAlike s) (d d' : String) :
    SameRunStep (runFailure H (step.mount d).1 (s d).1.pc (step.mount d).2) d
      ((runStep (H.mounted d) (step.mount d).1 (s d).1 (step.mount d).2).map Prod.snd)
      ((runStep (H.mounted "") (step.mount d').1 (s d').1.bare (step.mount d').2.bare).map
        Prod.snd) := by
  rw [← hs.run d d', ← step.event d d']
  exact sameRunStep_runStep (step.id d' d) (step.files d' d)

theorem map_bare_run_mount (H : Host) (step : RunBehaviour) (hs : RunAlike s) (d d' : String) :
    ((runStep (H.mounted d) (step.mount d).1 (s d).1 (step.mount d).2).map Prod.snd).map Run.bare =
      ((runStep (H.mounted d') (step.mount d').1 (s d').1 (step.mount d').2).map Prod.snd).map
        Run.bare :=
  (sameRunStep_mount H step hs d d').bare.trans (sameRunStep_mount H step hs d' d').bare.symm

theorem bare_pc (hs : RunAlike s) (d d' : String) : (s d).1.pc.bare = (s d').1.pc.bare :=
  congrArg Run.pc (hs.run d d')

theorem oneKind_runFailure (hs : RunAlike s) :
    OneKind fun d => runFailure H (step.mount d).1 (s d).1.pc (step.mount d).2 := by
  intro d d'
  refine (runFailure_bare (step.id d' d) (step.files d' d)).trans ?_
  rw [bare_pc hs d d', step.event d d']
  exact (runFailure_bare rfl rfl).symm

theorem handles_mount (hs : RunAlike s) (d d' : String) :
    (s d).1.pc.handles (step.mount d).2 = (s d').1.pc.handles (step.mount d').2 := by
  rw [← handles_bare, bare_pc hs d d', step.event d d', handles_bare]

theorem oneKind_handled (hs : RunAlike s) :
    OneKind fun d => if (s d).1.pc.handles (step.mount d).2 then (s d).2 else none := by
  intro d d'
  dsimp only
  rw [handles_mount hs d d']
  split
  · exact hs.failure d d'
  · rfl

/-- What is reported, but for a failure, is the same at every mount. -/
theorem reports_eq (hs : RunAlike s) {d d' : String}
    (h : (s d).1.pc.handles (step.mount d).2 = false) :
    (s d).1.pc.reports (step.mount d).2 = (s d').1.pc.reports (step.mount d').2 := by
  have h' : (s d').1.pc.handles (step.mount d').2 = false := by rw [← handles_mount hs d d', h]
  rw [← reports_bare h, ← reports_bare h', bare_pc hs d d', step.event d d']

theorem reports_length (hs : RunAlike s) (d d' : String) :
    ((s d).1.pc.reports (step.mount d).2).toList.length =
      ((s d').1.pc.reports (step.mount d').2).toList.length := by
  cases h : (s d).1.pc.handles (step.mount d).2 with
  | false => rw [reports_eq hs h]
  | true =>
    have h' : (s d').1.pc.handles (step.mount d').2 = true := by rw [← handles_mount hs d d', h]
    obtain ⟨_, hpc, hev⟩ := eq_of_handles h
    obtain ⟨_, hpc', hev'⟩ := eq_of_handles h'
    rw [hpc, hev, hpc', hev']
    rfl

/-- A run that handles a failure reports it, and reports the same everywhere otherwise. -/
theorem reports_mount (hs : RunAlike s) :
    Constant (fun d => ((s d).1.pc.reports (step.mount d).2).toList) ↔
      Clean Failure.Hides fun d =>
        (if (s d).1.pc.handles (step.mount d).2 then (s d).2 else none).toList := by
  refine constant_told_iff (oneKind_handled hs) id Function.injective_id ?_ ?_
  · intro hnone
    have hnot : ∀ d, (s d).1.pc.handles (step.mount d).2 = false := by
      intro d
      have hd := hnone d
      rw [← Bool.not_eq_true]
      intro hhandles
      rw [if_pos hhandles] at hd
      obtain ⟨reason, hpc, -⟩ := eq_of_handles hhandles
      obtain ⟨g, hg, -⟩ := hs.told d reason hpc
      rw [hd] at hg
      cases hg
    intro d d'
    dsimp only
    rw [reports_eq hs (hnot d)]
  · intro d g hg
    split at hg
    · rename_i hhandles
      obtain ⟨reason, hpc, hev⟩ := eq_of_handles hhandles
      obtain ⟨g', hg', hreason⟩ := hs.told d reason hpc
      cases hg.symm.trans hg'
      rw [hpc, hev, ← hreason]
      rfl
    · cases hg

theorem isSome_runSystem {r : Run × Option Failure} {x : PersonaWorld × RunEvent} :
    ((runSystem H).step r x).isSome = ((runStep H x.1 r.1 x.2).map Prod.snd).isSome := by
  dsimp only [runSystem]
  rw [Option.isSome_map, Option.isSome_map]

/-- What the steps of a run report shows the mount exactly where a failure does. -/
theorem unwinding_run (H : Host) : Unwinding (fun dir => runSystem (H.mounted dir))
    (fun _ s x => (s.1.pc.reports x.2).toList)
    (fun _ s x => (if s.1.pc.handles x.2 then s.2 else none).toList) Failure.Hides RunAlike
    IsRunBehaviour where
  enabled := by
    rintro s _ hs ⟨step, rfl⟩ d d' hd
    rw [isSome_runSystem] at hd ⊢
    rw [← Option.isSome_map (f := Run.bare), ← map_bare_run_mount H step hs d d', Option.isSome_map]
    exact hd
  step := by
    rintro s _ s' hs ⟨step, rfl⟩ hstep
    have hout : ∀ d, (runStep (H.mounted d) (step.mount d).1 (s d).1 (step.mount d).2).map Prod.snd =
        some (s' d).1 ∧ (s' d).2 = runFailure H (step.mount d).1 (s d).1.pc (step.mount d).2 := by
      intro d
      obtain ⟨out, hrun, hout⟩ := Option.map_eq_some_iff.mp (hstep d)
      rw [← hout, hrun]
      exact ⟨rfl, runFailure_mounted⟩
    refine ⟨fun d d' => ?_, ?_, fun d reason hpc => ?_⟩
    · have h := map_bare_run_mount H step hs d d'
      rw [(hout d).1, (hout d').1] at h
      exact Option.some.inj h
    · simp only [(hout _).2]
      exact oneKind_runFailure hs
    · rw [(hout d).2]
      exact (sameRunStep_mount H step hs d d).told _ (hout d).1 reason hpc
  length_out := by
    rintro s _ hs ⟨step, rfl⟩ d d'
    exact reports_length hs d d'
  length_cause := by
    rintro s _ hs ⟨step, rfl⟩ d d'
    exact (oneKind_handled hs).length d d'
  constant := by
    rintro s _ s' hs ⟨step, rfl⟩ _
    exact reports_mount hs

end

theorem Works.step {w : PersonaWorld} {out : PersonaWorld × Run} (h : Works w out) :
    out.1.step = w.step := by rw [h.1]

/-- What a step of the success path leaves for `GET /status`: the reason that it reports, or what has been
there. -/
theorem BodyStep.errorReason {H : Host} {w : PersonaWorld} {r : Run} {pc : RunPc} {ev : RunEvent}
    {out : PersonaWorld × Run} (h : BodyStep H w r pc ev out) :
    out.1.step = w.step ∨ out.1.step.bind (·.errorReason) = pc.reports ev := by
  cases h with
  | select => exact .inr (by rw [(works_orFail works_selectVoice).step]; rfl)
  | extract => exact .inr (by rw [(works_orFail works_prepareVoiceRef).step]; rfl)
  | transcribe => exact .inr (by rw [(works_orFail works_transcribeVoice).step]; rfl)
  | render => exact .inr (by rw [(works_orFail works_renderIdleClips).step]; rfl)
  | trimDone => exact .inl works_finishTrim.step
  | transcribed => exact .inl works_saveRefText.step
  | rendered =>
    exact .inl (Works.step (w := idleRendered w _ _ _) (works_orFail (works_goto phase_nextClip rfl)))
  | renderFailed => exact .inl (by rw [idleFailed]; split <;> rfl)
  | pending | ready | cancelSet | failSet => exact .inr rfl
  | _ => exact .inl rfl

theorem errorReason_of_runStep {H : Host} {w : PersonaWorld} {r : Run} {ev : RunEvent}
    {out : PersonaWorld × Run} (h : runStep H w r ev = some out) :
    out.1.step = w.step ∨ out.1.step.bind (·.errorReason) = r.pc.reports ev := by
  rcases runStep_cases h with h | ⟨-, h⟩
  · exact h.errorReason
  · cases h <;> exact .inl rfl

end YeounEngine
