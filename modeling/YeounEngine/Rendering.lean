import YeounEngine.Lifecycle
import YeounEngine.OutputGuard

/-!
# The renders of Ditto

`render_speak` and `render_idle` of `app/models/talkinghead_ditto.py`, await by await: the folder, the refusal, the
dummy without a GPU, the child process with its return code and its stderr, and the removals when the call fails or
is cancelled. The child writes what it likes, and other requests may change the files between any two steps.

A message and a run know a render by less: it makes the folder and writes, and then it ends (`Sketch`, `SketchEnd`).
That is enough: whatever a call does, a message that renders can take steps of its own to the same place, with the same
exception in its event and the same files, but for the side file, and with the same work left running
(`renderSpeak_refines`); and so can a run with its idle clips (`renderIdle_refines`).
-/

namespace YeounEngine

open Transition

/-! ## Failures -/

/-- `_is_face_detection_failure`. -/
def isFaceDetectionFailure (stderrTail : String) : Bool :=
  let contains (needle : String) : Bool := needle.toList <:+: stderrTail.toList
  contains "cannot unpack non-iterable NoneType" && (contains "source2info" || contains "avatar_registrar") &&
    (contains "_crop" || contains "img_crop")

/-- `_FACE_DETECTION_FAILURE_MESSAGE`. -/
def faceDetectionFailureMessage : String :=
  "얼굴 검출 실패: 업로드한 사진에서 얼굴을 찾을 수 없습니다. 정면 얼굴이 또렷한 사진을 사용해 주세요."

/-- `_DUMMY_MP4_BYTES`. -/
def dummyMp4Bytes : List UInt8 :=
  [0x00, 0x00, 0x00, 0x18, 0x66, 0x74, 0x79, 0x70, 0x69, 0x73, 0x6f, 0x6d, 0x00, 0x00, 0x00, 0x00,
    0x69, 0x73, 0x6f, 0x6d, 0x69, 0x73, 0x6f, 0x32, 0x6d, 0x70, 0x34, 0x31]

/-! ## `render_speak` -/

/-- `DittoTalkingHead`, as its calls see it. -/
structure Ditto where
  status : ModelStatus
  gpuEnabled : Bool

/-- What a call is about: its target, as a folder and a name and as the path that errors show, and the photo. -/
structure RenderCall where
  folder : Folder
  target : String
  path : String
  photo : Picked

/-- `<output>.tmp.mp4`, or the target. -/
def RenderCall.name (c : RenderCall) (side : Bool) : String := c.target ++ if side then ".tmp.mp4" else ""

/-- How a call ends. A cancelled one may have left its thread or its child running. -/
inductive RenderEnd
  | returned
  | raised (e : Exc)
  | cancelled (left : Bool)
  deriving DecidableEq

/-- Where a call is: at the thread that writes the dummy, at `create_subprocess_exec`, or at `communicate`, where the
child may have exited. -/
inductive RenderPc
  | writing
  | spawning
  | communicating (rc : Option Int)
  | ended (ending : RenderEnd)
  deriving DecidableEq

structure RenderState where
  files : Files
  pc : RenderPc

/-- A file, without what a reader of the disk cannot know. -/
def File.shown (file : File) : Nat × Content := (file.mtime, file.content)

/-- The same files, but for the side file of the call. -/
structure AlikeBut (c : RenderCall) (fs fs' : Files) : Prop where
  dirs : ∀ f, (fs.dir f).isSome = (fs'.dir f).isSome
  files : ∀ f name, f ≠ c.folder ∨ name ≠ c.name true →
    (fs.get f name).map File.shown = (fs'.get f name).map File.shown

/-- A change that other requests make to the files, without regard to the side file. -/
structure Change (c : RenderCall) where
  apply : Files → Files
  alike : ∀ fs fs', AlikeBut c fs fs' → AlikeBut c (apply fs) (apply fs')

/-- What happens in a call: the thread or the child goes on, an `await` ends, raises or is cancelled, or others change
the files. `unlinked` says which removals succeed. -/
inductive RenderEvent (c : RenderCall)
  | makeFolder
  | write (side : Bool) (o : Output)
  | finished (now : Nat)
  | spawned
  | exit (rc : Int)
  | communicated (stderr : String) (unlinked : String → Bool)
  | fail (e : Exc) (unlinked : String → Bool)
  | cancel (unlinked : String → Bool)
  | others (g : Change c)

/-- The call, up to its first `await`; `mkdir` may raise. -/
def renderSpeak (D : Ditto) (c : RenderCall) (mkdirFault : Option Exc) (fs : Files) : RenderState :=
  match mkdirFault with
  | some e => ⟨fs, .ended (.raised e)⟩
  | none =>
    let fs := fs.mkdir c.folder
    match dittoRefusal D.status with
    | some e => ⟨fs, .ended (.raised e)⟩
    | none => ⟨fs, if D.gpuEnabled then .spawning else .writing⟩

/-- What `render_speak` makes of the end of the child. -/
def renderVerdict (c : RenderCall) (fs : Files) (rc : Int) (stderr : String) : Option Exc :=
  if rc ≠ 0 then
    let stderrTail := tail 1000 stderr
    if isFaceDetectionFailure stderrTail then some ⟨"FaceDetectionError", faceDetectionFailureMessage⟩
    else some ⟨"RuntimeError", "Ditto inference 실패 (rc=" ++ toString rc ++ "): " ++ stderrTail⟩
  else if !fs.has c.folder c.target then
    some ⟨"RuntimeError", "Ditto inference 가 output 을 생성하지 않음: " ++ c.path⟩
  else none

/-- The handler of `BaseException`: the target and the side file are removed, if they can be. -/
def tidyRender (c : RenderCall) (fs : Files) (unlinked : String → Bool) (ending : RenderEnd) : RenderState :=
  ⟨dittoCleanup fs c.folder c.target unlinked, .ended ending⟩

/-- One step of a call. Without a GPU no handler removes anything. -/
def renderStep (c : RenderCall) (s : RenderState) : RenderEvent c → Option RenderState
  | .others g =>
    match s.pc with
    | .ended _ => none
    | pc => some ⟨g.apply s.files, pc⟩
  | .makeFolder =>
    match s.pc with
    | .writing => some ⟨s.files.mkdir c.folder, .writing⟩
    | _ => none
  | .write side o =>
    let files := s.files.write c.folder (c.name side) ⟨o.now, o.content, .render c.photo false⟩
    match s.pc, side with
    | .writing, false => some ⟨files, .writing⟩
    | .spawning, _ => some ⟨files, .spawning⟩
    | .communicating none, _ => some ⟨files, .communicating none⟩
    | _, _ => none
  | .finished now =>
    match s.pc with
    | .writing =>
      if (s.files.dir c.folder).isSome then
        some ⟨s.files.write c.folder c.target ⟨now, .bytes dummyMp4Bytes, .render c.photo false⟩, .ended .returned⟩
      else none
    | _ => none
  | .spawned =>
    match s.pc with
    | .spawning => some ⟨s.files, .communicating none⟩
    | _ => none
  | .exit rc =>
    match s.pc with
    | .communicating none => some ⟨s.files, .communicating (some rc)⟩
    | _ => none
  | .communicated stderr unlinked =>
    match s.pc with
    | .communicating (some rc) =>
      match renderVerdict c s.files rc stderr with
      | some e => some (tidyRender c s.files unlinked (.raised e))
      | none => some ⟨s.files, .ended .returned⟩
    | _ => none
  | .fail e unlinked =>
    match s.pc with
    | .writing => some ⟨s.files, .ended (.raised e)⟩
    | .spawning | .communicating _ => some (tidyRender c s.files unlinked (.raised e))
    | .ended _ => none
  | .cancel unlinked =>
    match s.pc with
    | .writing => some ⟨s.files, .ended (.cancelled true)⟩
    | .spawning | .communicating _ => some (tidyRender c s.files unlinked (.cancelled true))
    | .ended _ => none

/-- Calls of `render_speak` on the files. -/
def renderCalls (D : Ditto) (c : RenderCall) : System RenderState (RenderEvent c) where
  init s := ∃ mkdirFault fs, s = renderSpeak D c mkdirFault fs
  step := renderStep c

/-! ## `render_idle` -/

/-- Where a call of `render_idle` is: it writes the silence, or is in `render_speak`. -/
inductive IdlePc
  | silencing
  | rendering (pc : RenderPc)
  | ended (ending : RenderEnd)
  deriving DecidableEq

/-- The files, whether the temporary wav is there, and whether the thread of a call that was cancelled has still to
open it. -/
structure IdleState where
  files : Files
  silence : Bool
  thread : Bool
  pc : IdlePc

/-- What happens in a call of `render_idle`: the thread has written the wav, or the `await` raises or is cancelled, each
with whether the wav can be removed; the rest is of `render_speak`, whose `mkdir` may raise. A cancellation may find the
thread `running`, which then opens the wav when the call is over. -/
inductive IdleEvent (c : RenderCall)
  | silenced (mkdirFault : Option Exc) (removed : Bool)
  | fail (e : Exc) (removed : Bool)
  | cancel (removed running : Bool)
  | others (g : Change c)
  | speak (ev : RenderEvent c) (removed : Bool)
  | opened

/-- The call, up to its first `await`; `mkdir` and then `mkstemp` may raise. -/
def renderIdleCall (c : RenderCall) (mkdirFault mkstempFault : Option Exc) (fs : Files) : IdleState :=
  match mkdirFault with
  | some e => ⟨fs, false, false, .ended (.raised e)⟩
  | none =>
    let fs := fs.mkdir c.folder
    match mkstempFault with
    | some e => ⟨fs, false, false, .ended (.raised e)⟩
    | none => ⟨fs, true, false, .silencing⟩

/-- The `finally`. -/
def removeSilence (s : IdleState) (removed : Bool) (ending : RenderEnd) : IdleState :=
  { s with silence := s.silence && !removed, pc := .ended ending }

/-- `render_speak` has come to an `await`, or to its end. -/
def idleAt (silence : Bool) (s : RenderState) (removed : Bool) : IdleState :=
  match s.pc with
  | .ended ending => removeSilence ⟨s.files, silence, false, .rendering s.pc⟩ removed ending
  | pc => ⟨s.files, silence, false, .rendering pc⟩

/-- One step of a call, or of the thread that it has left behind. -/
def idleStep (D : Ditto) (c : RenderCall) (s : IdleState) : IdleEvent c → Option IdleState
  | .silenced mkdirFault removed =>
    match s.pc with
    | .silencing => some (idleAt s.silence (renderSpeak D c mkdirFault s.files) removed)
    | _ => none
  | .fail e removed =>
    match s.pc with
    | .silencing => some (removeSilence s removed (.raised e))
    | _ => none
  | .cancel removed running =>
    match s.pc with
    | .silencing => some (removeSilence { s with thread := running } removed (.cancelled false))
    | _ => none
  | .others g =>
    match s.pc with
    | .silencing => some { s with files := g.apply s.files }
    | _ => none
  | .speak ev removed =>
    match s.pc with
    | .rendering pc => (renderStep c ⟨s.files, pc⟩ ev).map fun r => idleAt s.silence r removed
    | _ => none
  | .opened =>
    match s.pc with
    -- `sf.write` makes the file again after the `finally`
    | .ended _ => if s.thread then some { s with silence := true, thread := false } else none
    | _ => none

/-- Calls of `render_idle` on the files. -/
def idleCalls (D : Ditto) (c : RenderCall) : System IdleState (IdleEvent c) where
  init s := ∃ mkdirFault mkstempFault fs, s = renderIdleCall c mkdirFault mkstempFault fs
  step := idleStep D c

/-! ## What the callers know of a render -/

/-- A step of a render that goes on. -/
inductive Sketch (c : RenderCall)
  | makeFolder
  | output (side : Bool) (o : Output)
  | others (g : Change c)

def Sketch.apply {c : RenderCall} : Sketch c → Files → Files
  | .makeFolder, fs => fs.mkdir c.folder
  | .output side o, fs => fs.write c.folder (c.name side) ⟨o.now, o.content, .render c.photo false⟩
  | .others g, fs => g.apply fs

/-- The last step of a render. -/
inductive SketchEnd
  | rendered (o : Output)
  | failed (e : Exc) (started : Bool) (unlinked : String → Bool)
  | cancelled (started : Bool) (unlinked : String → Bool)

def SketchEnd.ending : SketchEnd → RenderEnd
  | .rendered _ => .returned
  | .failed e _ _ => .raised e
  | .cancelled started _ => .cancelled started

/-- A render that is whole needs its folder. -/
def SketchEnd.Enabled (c : RenderCall) (fs : Files) : SketchEnd → Prop
  | .rendered _ => (fs.dir c.folder).isSome = true
  | _ => True

def SketchEnd.apply (c : RenderCall) : SketchEnd → Files → Files
  | .rendered o, fs =>
    (fs.unlink c.folder (c.target ++ ".tmp.mp4")).write c.folder c.target ⟨o.now, o.content, .render c.photo true⟩
  | .failed _ started unlinked, fs | .cancelled started unlinked, fs =>
    if started then dittoCleanup fs c.folder c.target unlinked else fs

/-! What others have changed, in the order in which they did. -/

def Sketch.change {c : RenderCall} : Sketch c → Option (Change c)
  | .others g => some g
  | _ => none

def RenderEvent.change {c : RenderCall} : RenderEvent c → Option (Change c)
  | .others g => some g
  | _ => none

def IdleEvent.change {c : RenderCall} : IdleEvent c → Option (Change c)
  | .others g => some g
  | .speak ev _ => ev.change
  | _ => none

/-- The files after some steps. -/
def drawn {c : RenderCall} (es : List (Sketch c)) (fs : Files) : Files := es.foldl (fun fs e => e.apply fs) fs

/-- A state of a call, as callers know it: the steps that lead there, and the end; others have changed `gs`. -/
def Sketched (c : RenderCall) (fs₀ : Files) (gs : List (Change c)) (s : RenderState) : Prop :=
  ∃ es : List (Sketch c), es.filterMap Sketch.change = gs ∧
    match s.pc with
    | .ended ending => ∃ last : SketchEnd, last.ending = ending ∧ last.Enabled c (drawn es fs₀) ∧
        AlikeBut c s.files (last.apply c (drawn es fs₀))
    | _ => AlikeBut c s.files (drawn es fs₀)

/-! ## Files that are alike -/

section
variable {c : RenderCall} {fs fs' : Files} {f : Folder} {name : String} {file file' : File}

theorem AlikeBut.refl (fs : Files) : AlikeBut c fs fs := ⟨fun _ => rfl, fun _ _ _ => rfl⟩

/-- What is done to one folder alone. -/
theorem alikeBut_of_folder (f : Folder) (g g' : Files → Files) (h : AlikeBut c fs fs')
    (hother : ∀ f', f' ≠ f → (g fs).dir f' = fs.dir f' ∧ (g' fs').dir f' = fs'.dir f')
    (hdir : ((g fs).dir f).isSome = ((g' fs').dir f).isSome)
    (hfiles : ∀ name, f ≠ c.folder ∨ name ≠ c.name true →
      ((g fs).get f name).map File.shown = ((g' fs').get f name).map File.shown) : AlikeBut c (g fs) (g' fs') where
  dirs f' := by
    by_cases hf : f' = f
    · rw [hf, hdir]
    · rw [(hother f' hf).1, (hother f' hf).2, h.dirs]
  files f' name hname := by
    by_cases hf : f' = f
    · subst hf
      exact hfiles name hname
    · rw [get_of_dir (hother f' hf).1, get_of_dir (hother f' hf).2]
      exact h.files f' name hname

theorem AlikeBut.mkdir (h : AlikeBut c fs fs') : AlikeBut c (fs.mkdir f) (fs'.mkdir f) := by
  refine alikeBut_of_folder f (fun fs => fs.mkdir f) (fun fs => fs.mkdir f) h
    (fun f' hf => ⟨Files.dir_mkdir_of_ne hf, Files.dir_mkdir_of_ne hf⟩) ?_ fun name hname => ?_
  · simp
  · rw [get_mkdir, get_mkdir]
    exact h.files f name hname

theorem AlikeBut.write (h : AlikeBut c fs fs') (hshown : file.shown = file'.shown) :
    AlikeBut c (fs.write f name file) (fs'.write f name file') := by
  refine alikeBut_of_folder f (fun fs => fs.write f name file) (fun fs => fs.write f name file') h
    (fun f' hf => ⟨Files.dir_modify_of_ne hf, Files.dir_modify_of_ne hf⟩) ?_ fun other hother => ?_
  · simp [Files.write, h.dirs]
  · by_cases hname : other = name
    · subst hname
      by_cases hdir : (fs.dir f).isSome = true
      · rw [get_write_self hdir, get_write_self (h.dirs f ▸ hdir)]
        exact congrArg some hshown
      · have hnone : ∀ {fs : Files} {file : File}, ¬ (fs.dir f).isSome = true →
            (fs.write f other file).get f other = none := by
          intro fs file hno
          simp only [Files.get, Files.write, Files.dir_modify]
          rw [Option.not_isSome_iff_eq_none.mp hno]
          rfl
        rw [hnone hdir, hnone (h.dirs f ▸ hdir)]
    · rw [get_write_of_ne hname, get_write_of_ne hname]
      exact h.files f other hother

theorem get_eraseAll {names : List String} (other : String) :
    (fs.modify f (Files.eraseAll names)).get f other = if other ∈ names then none else fs.get f other := by
  rw [Files.get, Files.get, Files.dir_modify]
  split
  · rename_i hmem
    exact fileIn_eraseAll_of_mem hmem
  · rename_i hmem
    exact fileIn_eraseAll_of_not_mem hmem

theorem AlikeBut.eraseAll (h : AlikeBut c fs fs') (names : List String) :
    AlikeBut c (fs.modify f (Files.eraseAll names)) (fs'.modify f (Files.eraseAll names)) := by
  refine alikeBut_of_folder f (fun fs => fs.modify f (Files.eraseAll names))
    (fun fs => fs.modify f (Files.eraseAll names)) h
    (fun f' hf => ⟨Files.dir_modify_of_ne hf, Files.dir_modify_of_ne hf⟩) ?_ fun other hother => ?_
  · simp [h.dirs]
  · rw [get_eraseAll, get_eraseAll]
    split
    · rfl
    · exact h.files f other hother

theorem AlikeBut.unlink (h : AlikeBut c fs fs') : AlikeBut c (fs.unlink f name) (fs'.unlink f name) :=
  h.eraseAll [name]

theorem AlikeBut.rmdir (h : AlikeBut c fs fs') : AlikeBut c (fs.rmdir f) (fs'.rmdir f) := by
  refine alikeBut_of_folder f (fun fs => fs.rmdir f) (fun fs => fs.rmdir f) h
    (fun f' hf => ⟨Files.dir_rmdir_of_ne hf, Files.dir_rmdir_of_ne hf⟩) ?_ fun name _ => ?_
  · simp
  · simp [Files.get]

/-- Others remove a folder. -/
def Change.rmdir (f : Folder) : Change c := ⟨fun fs => fs.rmdir f, fun _ _ h => h.rmdir⟩

/-- A target that is there is one that has been rendered: the side file and the origin make no difference. -/
theorem AlikeBut.rendered (h : AlikeBut c fs fs') (hfile : fs.get c.folder c.target = some file) :
    AlikeBut c fs ((SketchEnd.rendered ⟨file.mtime, file.content⟩).apply c fs') := by
  have hdir : (((fs'.unlink c.folder (c.target ++ ".tmp.mp4"))).dir c.folder).isSome = true := by
    rw [Files.unlink, Files.dir_modify, Option.isSome_map, ← h.dirs]
    exact isSome_dir_of_get hfile
  refine alikeBut_of_folder c.folder id
    (fun fs => (SketchEnd.rendered ⟨file.mtime, file.content⟩).apply c fs) h (fun f' hf => ⟨rfl, ?_⟩) ?_
    fun name hname => ?_
  · exact (Files.dir_modify_of_ne hf).trans (Files.dir_modify_of_ne hf)
  · rw [SketchEnd.apply, Files.write, Files.dir_modify, Option.isSome_map, hdir]
    exact isSome_dir_of_get hfile
  · rw [id, SketchEnd.apply]
    by_cases htarget : name = c.target
    · subst htarget
      rw [hfile, get_write_self hdir]
      rfl
    · have hside : name ≠ c.target ++ ".tmp.mp4" := hname.resolve_left fun hne => hne rfl
      rw [get_write_of_ne htarget, get_unlink_of_ne hside]
      exact h.files c.folder name hname

end

/-! ## A call is one of the renders that callers know -/

section
variable {D : Ditto} {c : RenderCall} {fs₀ : Files} {gs : List (Change c)} {s s' : RenderState}

theorem Sketch.alike (e : Sketch c) {fs fs' : Files} (h : AlikeBut c fs fs') :
    AlikeBut c (e.apply fs) (e.apply fs') := by
  cases e with
  | makeFolder => exact h.mkdir
  | output side o => exact h.write rfl
  | others g => exact g.alike _ _ h

theorem drawn_concat {es : List (Sketch c)} {e : Sketch c} : drawn (es ++ [e]) fs₀ = e.apply (drawn es fs₀) := by
  rw [drawn, List.foldl_append]
  rfl

/-- A call that has not ended shows no difference but in the side file. -/
theorem sketched_going (hpc : ∀ ending, s.pc ≠ .ended ending) : Sketched c fs₀ gs s ↔
    ∃ es : List (Sketch c), es.filterMap Sketch.change = gs ∧ AlikeBut c s.files (drawn es fs₀) := by
  unfold Sketched
  split
  · rename_i ending hover
    exact absurd hover (hpc ending)
  · rfl

/-- A call that ends has shown no difference before. -/
theorem Sketched.finish {files : Files} {pc : RenderPc} (h : Sketched c fs₀ gs ⟨files, pc⟩)
    (hpc : ∀ ending, pc ≠ .ended ending) {files' : Files} (last : SketchEnd)
    (hlast : ∀ fs, AlikeBut c files fs → last.Enabled c fs ∧ AlikeBut c files' (last.apply c fs)) :
    Sketched c fs₀ gs ⟨files', .ended last.ending⟩ := by
  obtain ⟨es, hgs, halike⟩ := (sketched_going hpc).mp h
  obtain ⟨hen, halike⟩ := hlast _ halike
  exact ⟨es, hgs, last, rfl, hen, halike⟩

/-- The handler of `BaseException` comes to its end. -/
theorem Sketched.tidy {files : Files} {pc : RenderPc} {unlinked : String → Bool} {ending : RenderEnd}
    (h : Sketched c fs₀ gs ⟨files, pc⟩) (hpc : ∀ ending, pc ≠ .ended ending)
    (hending : ending = .cancelled true ∨ ∃ e, ending = .raised e) :
    Sketched c fs₀ gs (tidyRender c files unlinked ending) := by
  rcases hending with rfl | ⟨e, rfl⟩
  · exact h.finish hpc (.cancelled true unlinked) fun fs halike => ⟨trivial, halike.eraseAll _⟩
  · exact h.finish hpc (.failed e true unlinked) fun fs halike => ⟨trivial, halike.eraseAll _⟩

/-- A thread that is left running has no handler that removes anything. -/
theorem dittoCleanup_none {fs : Files} {sub : Folder} {target : String} :
    dittoCleanup fs sub target (fun _ => false) = fs := by
  rw [dittoCleanup, List.filter_false]
  cases fs with
  | none => rfl
  | some t =>
    have hsame : (t.folder sub).map (Files.eraseAll []) = t.folder sub := Option.map_id'
    rw [Files.modify, Option.map_some, hsame, Function.update_eq_self]

theorem Sketched.leave {files : Files} {pc : RenderPc} (h : Sketched c fs₀ gs ⟨files, pc⟩)
    (hpc : ∀ ending, pc ≠ .ended ending) : Sketched c fs₀ gs ⟨files, .ended (.cancelled true)⟩ := by
  refine h.finish hpc (.cancelled true fun _ => false) fun fs halike => ⟨trivial, ?_⟩
  rw [SketchEnd.apply, if_pos rfl, dittoCleanup_none]
  exact halike

/-- A step that callers know as well. -/
theorem Sketched.goesOn {files : Files} {pc : RenderPc} (h : Sketched c fs₀ gs ⟨files, pc⟩)
    (hpc : ∀ ending, pc ≠ .ended ending) (pc' : RenderPc) (hpc' : ∀ ending, pc' ≠ .ended ending) (e : Sketch c) :
    Sketched c fs₀ (gs ++ e.change.toList) ⟨e.apply files, pc'⟩ := by
  obtain ⟨es, hgs, halike⟩ := (sketched_going hpc).mp h
  refine (sketched_going hpc').mpr ⟨es ++ [e], ?_, ?_⟩
  · rw [List.filterMap_append, hgs]
    cases e <;> rfl
  · rw [drawn_concat]
    exact e.alike halike

/-- A step that they do not see. -/
theorem Sketched.stays {files : Files} {pc pc' : RenderPc} (h : Sketched c fs₀ gs ⟨files, pc⟩)
    (hpc : ∀ ending, pc ≠ .ended ending) (hpc' : ∀ ending, pc' ≠ .ended ending) : Sketched c fs₀ gs ⟨files, pc'⟩ := by
  rw [sketched_going hpc] at h
  rw [sketched_going hpc']
  exact h

/-- The thread of the dummy has written and ended. -/
theorem Sketched.finished {files : Files} {pc : RenderPc} {now : Nat} (h : Sketched c fs₀ gs ⟨files, pc⟩)
    (hpc : ∀ ending, pc ≠ .ended ending) (hdir : (files.dir c.folder).isSome = true) : Sketched c fs₀ gs
      ⟨files.write c.folder c.target ⟨now, .bytes dummyMp4Bytes, .render c.photo false⟩, .ended .returned⟩ := by
  have hname : c.name false = c.target := String.append_empty
  have hwritten := h.goesOn hpc pc hpc (.output false ⟨now, .bytes dummyMp4Bytes⟩)
  rw [show gs ++ (Sketch.output (c := c) false ⟨now, .bytes dummyMp4Bytes⟩).change.toList = gs from List.append_nil gs,
    Sketch.apply, hname] at hwritten
  have hfile :
      (files.write c.folder c.target ⟨now, .bytes dummyMp4Bytes, .render c.photo false⟩).get c.folder c.target =
      some ⟨now, .bytes dummyMp4Bytes, .render c.photo false⟩ := get_write_self hdir
  refine hwritten.finish hpc (.rendered ⟨now, .bytes dummyMp4Bytes⟩) fun fs halike => ⟨?_, halike.rendered hfile⟩
  rw [SketchEnd.Enabled, ← halike.dirs]
  exact isSome_dir_of_get hfile

/-- The child is believed if it has exited with 0 and the target is there. -/
theorem renderVerdict_eq_none {fs : Files} {rc : Int} {stderr : String} :
    renderVerdict c fs rc stderr = none ↔ rc = 0 ∧ fs.has c.folder c.target = true := by
  simp only [renderVerdict]
  by_cases hrc : rc = 0
  · simp [hrc]
  · simp only [ne_eq, hrc, not_false_eq_true, if_true, false_and, iff_false]
    split <;> simp

theorem Sketched.communicated {files : Files} {pc : RenderPc} (h : Sketched c fs₀ gs ⟨files, pc⟩)
    (hpc : ∀ ending, pc ≠ .ended ending) (rc : Int) (stderr : String) (unlinked : String → Bool) : Sketched c fs₀ gs
      (match renderVerdict c files rc stderr with
        | some e => tidyRender c files unlinked (.raised e)
        | none => ⟨files, .ended .returned⟩) := by
  cases hverdict : renderVerdict c files rc stderr with
  | some e => exact h.tidy hpc (.inr ⟨e, rfl⟩)
  | none =>
    obtain ⟨file, hfile⟩ := Option.isSome_iff_exists.mp (renderVerdict_eq_none.mp hverdict).2
    refine h.finish hpc (.rendered ⟨file.mtime, file.content⟩) fun fs halike => ⟨?_, halike.rendered hfile⟩
    rw [SketchEnd.Enabled, ← halike.dirs]
    exact isSome_dir_of_get hfile

/-- A call that is over takes no step. -/
theorem renderStep_ended {files : Files} {ending : RenderEnd} {ev : RenderEvent c} :
    renderStep c ⟨files, .ended ending⟩ ev = none := by
  cases ev with
  | write side => cases side <;> rfl
  | _ => rfl

/-- Every step of a call. -/
theorem Sketched.next {ev : RenderEvent c} (h : Sketched c fs₀ gs s) (hstep : renderStep c s ev = some s') :
    Sketched c fs₀ (gs ++ ev.change.toList) s' := by
  obtain ⟨files, pc⟩ := s
  have hpc : ∀ ending, pc ≠ .ended ending := by
    rintro ending rfl
    rw [renderStep_ended] at hstep
    cases hstep
  have quiet : ∀ {ev : RenderEvent c}, ev.change = none → Sketched c fs₀ gs s' →
      Sketched c fs₀ (gs ++ ev.change.toList) s' := by
    intro ev hno hs
    rwa [hno, Option.toList_none, List.append_nil]
  cases ev with
  | others g =>
    have hgoes : some (⟨g.apply files, pc⟩ : RenderState) = some s' := by
      cases pc with
      | ended ending => exact absurd rfl (hpc ending)
      | _ => exact hstep
    cases hgoes
    exact h.goesOn hpc pc hpc (.others g)
  | makeFolder =>
    cases pc with
    | writing => cases hstep; exact h.goesOn hpc .writing hpc .makeFolder
    | _ => cases hstep
  | write side o =>
    have hgoes : some (⟨(Sketch.output (c := c) side o).apply files, pc⟩ : RenderState) = some s' := by
      cases pc with
      | ended ending => exact absurd rfl (hpc ending)
      | writing => cases side with
        | true => cases hstep
        | false => exact hstep
      | spawning => cases side <;> exact hstep
      | communicating rc => cases rc with
        | none => cases side <;> exact hstep
        | some rc => cases side <;> cases hstep
    cases hgoes
    exact h.goesOn hpc pc hpc (.output side o)
  | finished now =>
    refine quiet rfl ?_
    cases pc with
    | writing =>
      simp only [renderStep] at hstep
      split at hstep
      · rename_i hdir
        cases hstep
        exact h.finished hpc hdir
      · cases hstep
    | _ => cases hstep
  | spawned =>
    refine quiet rfl ?_
    cases pc with
    | spawning => cases hstep; exact h.stays hpc (by simp)
    | _ => cases hstep
  | exit rc =>
    refine quiet rfl ?_
    cases pc with
    | communicating exited => cases exited with
      | none => cases hstep; exact h.stays hpc (by simp)
      | some rc => cases hstep
    | _ => cases hstep
  | communicated stderr unlinked =>
    refine quiet rfl ?_
    cases pc with
    | communicating exited => cases exited with
      | none => cases hstep
      | some rc =>
        have hends := h.communicated hpc rc stderr unlinked
        simp only [renderStep] at hstep
        split at hstep <;> rename_i hverdict <;> cases hstep <;> rw [hverdict] at hends <;> exact hends
    | _ => cases hstep
  | fail e unlinked =>
    refine quiet rfl ?_
    cases pc with
    | ended ending => exact absurd rfl (hpc ending)
    | writing =>
      cases hstep
      exact h.finish hpc (.failed e false unlinked) fun fs halike => ⟨trivial, halike⟩
    | spawning | communicating => cases hstep; exact h.tidy hpc (.inr ⟨e, rfl⟩)
  | cancel unlinked =>
    refine quiet rfl ?_
    cases pc with
    | ended ending => exact absurd rfl (hpc ending)
    | writing =>
      cases hstep
      exact h.leave hpc
    | spawning | communicating => cases hstep; exact h.tidy hpc (.inl rfl)

theorem sketched_renderSpeak (D : Ditto) (fs : Files) :
    Sketched c (fs.mkdir c.folder) [] (renderSpeak D c none fs) := by
  simp only [renderSpeak]
  cases dittoRefusal D.status with
  | some e => exact ⟨[], rfl, .failed e false fun _ => true, rfl, trivial, .refl _⟩
  | none =>
    refine (sketched_going fun ending => ?_).mpr ⟨[], rfl, .refl _⟩
    dsimp only
    split <;> simp

/-- Every run of a call. -/
theorem Sketched.run {evs : List (RenderEvent c)} (h : Sketched c fs₀ gs s)
    (hrun : (renderCalls D c).exec anyStep s evs = some s') :
    Sketched c fs₀ (gs ++ evs.filterMap RenderEvent.change) s' :=
  System.exec_collect RenderEvent.change (fun _ _ _ _ h _ => h.next) gs h (fun _ _ => trivial) hrun

end

/-! ## `render_idle` is one of these renders as well -/

section
variable {D : Ditto} {c : RenderCall} {fs₀ : Files} {gs : List (Change c)} {s s' : IdleState}

/-- The call before `render_speak`, and then `render_speak`; the temporary wav is gone at the end. -/
structure IdleSketched (c : RenderCall) (fs₀ : Files) (gs : List (Change c)) (s : IdleState) : Prop where
  silencing : s.pc = .silencing → Sketched c fs₀ gs ⟨s.files, .writing⟩
  rendering : ∀ pc, s.pc = .rendering pc → Sketched c fs₀ gs ⟨s.files, pc⟩ ∧ ∀ ending, pc ≠ .ended ending
  ended : ∀ ending, s.pc = .ended ending → Sketched c fs₀ gs ⟨s.files, .ended ending⟩

/-- The wav cannot be removed in the step, or the thread that writes it outlives the call. -/
def IdleEvent.keepsSilence : IdleEvent c → Bool
  | .silenced _ removed | .fail _ removed | .speak _ removed => !removed
  | .cancel removed running => !removed || running
  | .others _ | .opened => false

theorem idleSketched_over {files : Files} {silence thread : Bool} {ending : RenderEnd}
    (h : Sketched c fs₀ gs ⟨files, .ended ending⟩) :
    IdleSketched c fs₀ gs ⟨files, silence, thread, .ended ending⟩ where
  silencing hpc := by cases hpc
  rendering pc hpc := by cases hpc
  ended ending' hpc := by cases hpc; exact h

theorem idleSketched_at {silence removed : Bool} {r : RenderState} (h : Sketched c fs₀ gs r) :
    IdleSketched c fs₀ gs (idleAt silence r removed) := by
  obtain ⟨files, pc⟩ := r
  cases pc with
  | ended ending => exact idleSketched_over h
  | writing | spawning | communicating =>
    refine ⟨fun hpc => (by cases hpc), fun pc hpc => ?_, fun ending hpc => (by cases hpc)⟩
    cases hpc
    exact ⟨h, by simp⟩

/-- `render_speak` is called, and makes the folder once more. -/
theorem sketched_again {files : Files} (mkdirFault : Option Exc) (h : Sketched c fs₀ gs ⟨files, .writing⟩) :
    Sketched c fs₀ gs (renderSpeak D c mkdirFault files) := by
  cases mkdirFault with
  | some e => exact h.finish (by simp) (.failed e false fun _ => true) fun fs halike => ⟨trivial, halike⟩
  | none =>
  have hmade := h.goesOn (by simp) .writing (by simp) .makeFolder
  rw [show gs ++ (Sketch.makeFolder (c := c)).change.toList = gs from List.append_nil gs] at hmade
  simp only [renderSpeak]
  cases dittoRefusal D.status with
  | some e =>
    exact hmade.finish (by simp) (.failed e false fun _ => true) fun fs halike => ⟨trivial, halike⟩
  | none =>
    refine hmade.stays (by simp) fun ending => ?_
    split <;> simp

theorem IdleSketched.next {ev : IdleEvent c} (h : IdleSketched c fs₀ gs s) (hstep : idleStep D c s ev = some s') :
    IdleSketched c fs₀ (gs ++ ev.change.toList) s' := by
  obtain ⟨files, silence, thread, pc⟩ := s
  have quiet : ∀ {ev : IdleEvent c}, ev.change = none → IdleSketched c fs₀ gs s' →
      IdleSketched c fs₀ (gs ++ ev.change.toList) s' := by
    intro ev hno hs
    rwa [hno, Option.toList_none, List.append_nil]
  cases pc with
  | ended ending =>
    cases ev with
    | opened =>
      simp only [idleStep] at hstep
      split at hstep
      · cases hstep
        exact quiet rfl (idleSketched_over (h.ended ending rfl))
      · cases hstep
    | _ => cases hstep
  | silencing =>
    have hwriting := h.silencing rfl
    cases ev with
    | silenced mkdirFault removed =>
      cases hstep
      exact quiet rfl (idleSketched_at (sketched_again mkdirFault hwriting))
    | fail e removed =>
      cases hstep
      refine quiet rfl (idleSketched_over ?_)
      exact hwriting.finish (by simp) (.failed e false fun _ => true) fun fs halike => ⟨trivial, halike⟩
    | cancel removed running =>
      cases hstep
      refine quiet rfl (idleSketched_over ?_)
      exact hwriting.finish (by simp) (.cancelled false fun _ => true) fun fs halike => ⟨trivial, halike⟩
    | others g =>
      cases hstep
      refine ⟨fun _ => hwriting.goesOn (by simp) .writing (by simp) (.others g), fun pc hpc => (by cases hpc),
        fun ending hpc => (by cases hpc)⟩
    | speak | opened => cases hstep
  | rendering pc =>
    cases ev with
    | speak ev removed =>
      obtain ⟨r, hr, rfl⟩ := Option.map_eq_some_iff.mp hstep
      exact idleSketched_at ((h.rendering pc rfl).1.next hr)
    | _ => cases hstep

/-- Every run of a call, and its wav. -/
theorem IdleSketched.run {evs : List (IdleEvent c)} (h : IdleSketched c fs₀ gs s)
    (hrun : (idleCalls D c).exec anyStep s evs = some s') :
    IdleSketched c fs₀ (gs ++ evs.filterMap IdleEvent.change) s' :=
  System.exec_collect IdleEvent.change (fun _ _ _ _ h _ => h.next) gs h (fun _ _ => trivial) hrun

/-- At the end of the call the wav is gone, and no thread is left that opens it. -/
def SilenceGone (s : IdleState) : Prop :=
  s.thread = false ∧ ∀ ending, s.pc = .ended ending → s.silence = false

theorem silenceGone_next {ev : IdleEvent c} (hgone : SilenceGone s) (hremoved : ev.keepsSilence = false)
    (hstep : idleStep D c s ev = some s') : SilenceGone s' := by
  have gone : ∀ {silence : Bool} {r : RenderState}, SilenceGone (idleAt silence r true) := by
    intro silence r
    obtain ⟨files, pc⟩ := r
    cases pc with
    | ended => exact ⟨rfl, fun _ _ => Bool.and_false silence⟩
    | _ => exact ⟨rfl, fun ending hpc => (by cases hpc)⟩
  obtain ⟨files, silence, thread, pc⟩ := s
  obtain rfl : thread = false := hgone.1
  cases pc with
  | ended ending => cases ev <;> cases hstep
  | silencing =>
    cases ev with
    | silenced mkdirFault removed =>
      obtain rfl : removed = true := by simpa [IdleEvent.keepsSilence] using hremoved
      cases hstep
      exact gone
    | fail e removed =>
      obtain rfl : removed = true := by simpa [IdleEvent.keepsSilence] using hremoved
      cases hstep
      exact ⟨rfl, fun _ _ => Bool.and_false silence⟩
    | cancel removed running =>
      obtain ⟨rfl, rfl⟩ : removed = true ∧ running = false := by simpa [IdleEvent.keepsSilence] using hremoved
      cases hstep
      exact ⟨rfl, fun _ _ => Bool.and_false silence⟩
    | others g => cases hstep; exact ⟨rfl, fun ending hpc => (by cases hpc)⟩
    | speak | opened => cases hstep
  | rendering pc =>
    cases ev with
    | speak ev removed =>
      obtain rfl : removed = true := by simpa [IdleEvent.keepsSilence] using hremoved
      obtain ⟨r, hr, rfl⟩ := Option.map_eq_some_iff.mp hstep
      exact gone
    | _ => cases hstep

theorem silenceGone_run {evs : List (IdleEvent c)} (hs : SilenceGone s) (hremoved : ∀ ev ∈ evs, ev.keepsSilence = false)
    (hrun : (idleCalls D c).exec anyStep s evs = some s') : SilenceGone s' :=
  System.exec_collect (J := fun _ s => SilenceGone s) IdleEvent.change (fun _ _ _ _ => silenceGone_next) [] hs hremoved
    hrun

end

/-! ## Messages -/

section
variable (H : Host) (messageId : Uuid)

/-- The render of a message. -/
def MessageWorld.renderCall (m : MessageWorld) (photo : Picked) : RenderCall :=
  ⟨m.speakDir, mp4Name messageId, H.folderPath m.session.personaId m.speakDir ++ "/" ++ mp4Name messageId, photo⟩

/-- A message, and others that change the files. -/
def speakSystem (c : RenderCall) : System (MessageWorld × MessagePc) (MessageEvent ⊕ Change c) where
  init _ := True
  step s
    | .inl e => messageStep H messageId s.1 s.2 e
    | .inr g => some (s.1.onFiles g.apply, s.2)

/-- What others have changed between the steps of a message or a run. -/
def othersOf {ε : Type} {c : RenderCall} : ε ⊕ Change c → Option (Change c)
  | .inl _ => none
  | .inr g => some g

/-- `process_message` after `render_speak`, with what the call has left running. -/
def afterRenderSpeak (m : MessageWorld) (photo : Picked) (wav : Unlinked) (unlinked : String → Unlinked) :
    RenderEnd → MessageWorld × MessagePc
  | .returned =>
    finishSpeech messageId
      (if wav = .removed then m.onFiles fun fs => fs.unlink m.speakDir (wavName messageId) else m) wav
      unlinked
  | .raised e => mediaFailed messageId m e unlinked
  | .cancelled left =>
    (if left then m.leave (.speakRender photo m.session.sessionId (mp4Name messageId)) else m, .cancelled)

/-- The message's own step for a step of its render. -/
def Sketch.ofMessage {c : RenderCall} : Sketch c → MessageEvent ⊕ Change c
  | .makeFolder => .inl .makeFolder
  | .output side o => .inl (.output side o)
  | .others g => .inr g

def SketchEnd.ofMessage (wav : Unlinked) (unlinked : String → Unlinked) : SketchEnd → MessageEvent
  | .rendered o => .rendered o wav unlinked
  | .failed e started removed => .renderFailed e started removed unlinked
  | .cancelled started removed => .cancel started removed

/-- Two messages that differ in the side file of a render only. -/
structure SameMessage (c : RenderCall) (m m' : MessageWorld) : Prop where
  files : AlikeBut c m.persona.files m'.persona.files
  persona : { m.persona with files := m'.persona.files } = m'.persona
  session : m.session = m'.session
  safetyLogs : m.safetyLogs = m'.safetyLogs

end

section
variable {H : Host} {messageId : Uuid} {m : MessageWorld} {photo : Picked} {c : RenderCall}

theorem speakSystem_drawn {es : List (Sketch (m.renderCall H messageId photo))} {fs : Files} :
    (speakSystem H messageId (m.renderCall H messageId photo)).exec anyStep
      (m.onFiles fun _ => fs, .rendering photo) (es.map Sketch.ofMessage) =
        some (m.onFiles fun _ => drawn es fs, .rendering photo) := by
  induction es generalizing fs with
  | nil => rfl
  | cons e es ih =>
    rw [List.map_cons, System.exec_anyStep_cons]
    have hstep : (speakSystem H messageId (m.renderCall H messageId photo)).step
        (m.onFiles fun _ => fs, .rendering photo) e.ofMessage =
          some (m.onFiles fun _ => e.apply fs, .rendering photo) := by
      cases e <;> rfl
    rw [hstep, Option.bind_some, ih]
    rfl

theorem SameMessage.onFiles {fs fs' : Files} (h : AlikeBut c fs fs') :
    SameMessage c (m.onFiles fun _ => fs) (m.onFiles fun _ => fs') := ⟨h, rfl, rfl, rfl⟩

/-- The last step of the render, in the message. -/
theorem messageStep_sketchEnd {fs : Files} {last : SketchEnd} (wav : Unlinked) (unlinked : String → Unlinked)
    (hen : last.Enabled (m.renderCall H messageId photo) fs) :
    ∃ out, messageStep H messageId (m.onFiles fun _ => fs) (.rendering photo) (last.ofMessage wav unlinked) = some out ∧
      SameMessage c (afterRenderSpeak messageId (m.onFiles fun _ => last.apply (m.renderCall H messageId photo) fs)
        photo wav unlinked last.ending).1 out.1 ∧
      out.2 = (afterRenderSpeak messageId (m.onFiles fun _ => last.apply (m.renderCall H messageId photo) fs) photo
        wav unlinked last.ending).2 := by
  cases last with
  | rendered o =>
    have hdir : ((m.onFiles fun _ => fs).persona.files.dir (m.onFiles fun _ => fs).speakDir).isSome = true := hen
    refine ⟨_, if_pos hdir, ?_⟩
    have hsame : speakRendered messageId (m.onFiles fun _ => fs) photo o wav = if wav = .removed then
        (m.onFiles fun _ => (SketchEnd.rendered o).apply (m.renderCall H messageId photo) fs).onFiles fun fs =>
          fs.unlink m.speakDir (wavName messageId)
        else m.onFiles fun _ => (SketchEnd.rendered o).apply (m.renderCall H messageId photo) fs := by
      unfold speakRendered
      split <;> rfl
    rw [hsame]
    exact ⟨⟨.refl _, rfl, rfl, rfl⟩, rfl⟩
  | failed e started removed =>
    refine ⟨_, rfl, ?_⟩
    have hsame : speakFailed messageId (m.onFiles fun _ => fs) started removed =
        m.onFiles fun _ => (SketchEnd.failed e started removed).apply (m.renderCall H messageId photo) fs := by
      cases started <;> rfl
    rw [hsame]
    exact ⟨⟨.refl _, rfl, rfl, rfl⟩, rfl⟩
  | cancelled started removed =>
    refine ⟨_, rfl, ?_, rfl⟩
    cases started <;> exact ⟨.refl _, rfl, rfl, rfl⟩

/-- What the message makes of the end of a render does not depend on the side file. -/
theorem afterRenderSpeak_alike {fs fs' : Files} (messageId : Uuid) (m : MessageWorld) (photo : Picked)
    (wav : Unlinked) (unlinked : String → Unlinked) (ending : RenderEnd) (h : AlikeBut c fs fs') :
    SameMessage c (afterRenderSpeak messageId (m.onFiles fun _ => fs) photo wav unlinked ending).1
      (afterRenderSpeak messageId (m.onFiles fun _ => fs') photo wav unlinked ending).1 ∧
    (afterRenderSpeak messageId (m.onFiles fun _ => fs) photo wav unlinked ending).2 =
      (afterRenderSpeak messageId (m.onFiles fun _ => fs') photo wav unlinked ending).2 := by
  have hfailed : ∀ {fs fs' : Files} (e : Exc), AlikeBut c fs fs' →
      SameMessage c (mediaFailed messageId (m.onFiles fun _ => fs) e unlinked).1
        (mediaFailed messageId (m.onFiles fun _ => fs') e unlinked).1 ∧
      (mediaFailed messageId (m.onFiles fun _ => fs) e unlinked).2 =
        (mediaFailed messageId (m.onFiles fun _ => fs') e unlinked).2 :=
    fun e h => ⟨⟨h.eraseAll _, rfl, rfl, rfl⟩, rfl⟩
  cases ending with
  | returned =>
    cases wav with
    | removed => exact ⟨⟨h.unlink, rfl, rfl, rfl⟩, rfl⟩
    | osError => exact ⟨⟨h, rfl, rfl, rfl⟩, rfl⟩
    | raised e => exact hfailed e h
  | raised e => exact hfailed e h
  | cancelled left => cases left <;> exact ⟨⟨h, rfl, rfl, rfl⟩, rfl⟩

theorem SameMessage.trans {m m' m'' : MessageWorld} (h : SameMessage c m m') (h' : SameMessage c m' m'') :
    SameMessage c m m'' where
  files := ⟨fun f => (h.files.dirs f).trans (h'.files.dirs f), fun f name hname =>
    (h.files.files f name hname).trans (h'.files.files f name hname)⟩
  persona := by
    rw [← h'.persona, ← h.persona]
  session := h.session.trans h'.session
  safetyLogs := h.safetyLogs.trans h'.safetyLogs

end

/-- Whatever a call of `render_speak` does and however it ends, the message that has made it can take steps of its own,
with the same changes of others between them, to the same place and with the same event to send; the files are alike,
and what a cancelled call has left running the message has left. -/
theorem renderSpeak_refines (H : Host) (D : Ditto) (messageId : Uuid) (m : MessageWorld) (photo : Picked)
    (mkdirFault : Option Exc) (evs : List (RenderEvent (m.renderCall H messageId photo))) (s : RenderState)
    (ending : RenderEnd) (wav : Unlinked) (unlinked : String → Unlinked)
    (hrun : (renderCalls D (m.renderCall H messageId photo)).exec anyStep
      (renderSpeak D (m.renderCall H messageId photo) mkdirFault m.persona.files) evs = some s)
    (hover : s.pc = .ended ending) :
    ∃ mevs m' pc', mevs.filterMap othersOf = evs.filterMap RenderEvent.change ∧
      (speakSystem H messageId (m.renderCall H messageId photo)).exec anyStep (m, .waitingDitto photo) mevs =
        some (m', pc') ∧
      SameMessage (m.renderCall H messageId photo)
        (afterRenderSpeak messageId (m.onFiles fun _ => s.files) photo wav unlinked ending).1 m' ∧
      pc' = (afterRenderSpeak messageId (m.onFiles fun _ => s.files) photo wav unlinked ending).2 := by
  cases mkdirFault with
  | some e =>
    -- the call is over before its first `await`
    have hstuck : (renderCalls D (m.renderCall H messageId photo)).Stuck anyStep
        ⟨m.persona.files, .ended (.raised e)⟩ :=
      fun ev _ => show renderStep _ ⟨m.persona.files, .ended (.raised e)⟩ ev = none from renderStep_ended
    obtain ⟨rfl, rfl⟩ := hstuck.exec_eq hrun
    cases hover
    exact ⟨[.inl (.fail e unlinked)], _, _, rfl, rfl, ⟨.refl _, rfl, rfl, rfl⟩, rfl⟩
  | none =>
  obtain ⟨es, hes, hend⟩ := (sketched_renderSpeak D m.persona.files).run hrun
  rw [hover] at hend
  obtain ⟨last, rfl, hen, halike⟩ := hend
  obtain ⟨out, hout, hsame, hpc⟩ := messageStep_sketchEnd (c := m.renderCall H messageId photo) wav unlinked hen
  obtain ⟨halike, hpcs⟩ := afterRenderSpeak_alike messageId m photo wav unlinked last.ending halike
  refine ⟨.inl .acquire :: es.map Sketch.ofMessage ++ [.inl (last.ofMessage wav unlinked)], out.1, out.2, ?_, ?_,
    halike.trans hsame, hpc.trans hpcs.symm⟩
  · have hothers : (es.map Sketch.ofMessage).filterMap othersOf = es.filterMap Sketch.change := by
      rw [List.filterMap_map]
      exact congrArg (fun f => es.filterMap f) (funext fun e => by cases e <;> rfl)
    rw [List.filterMap_append, List.filterMap_cons_none rfl, hothers, hes]
    exact List.append_nil _
  · rw [System.exec_anyStep_append, System.exec_anyStep_cons]
    have hacquire :
        (speakSystem H messageId (m.renderCall H messageId photo)).step (m, .waitingDitto photo) (.inl .acquire) =
        some (m.onFiles fun _ => m.persona.files.mkdir m.speakDir, .rendering photo) := rfl
    rw [hacquire, Option.bind_some, speakSystem_drawn, Option.bind_some, System.exec_anyStep_cons]
    exact congrArg (fun x => x.bind fun t => some t) hout

/-- The photo of the concrete runs. -/
def samplePicked : Picked := ⟨"face.jpg", 50, .bytes [0xff, 0xd8, 0xff]⟩

/-- The theorem at a photo without a face: the child exits with 1 while the speak folder is being removed. -/
theorem renderSpeak_refines_faceless : ∃ mevs m',
    (speakSystem sampleHost 9 (sampleMessageWorld.renderCall sampleHost 9 samplePicked)).exec anyStep
      (sampleMessageWorld, .waitingDitto samplePicked) mevs = some (m', yieldLast (.error ("media_failed: " ++
        "FaceDetectionError: 얼굴 검출 실패: 업로드한 사진에서 얼굴을 찾을 수 없습니다. 정면 얼굴이 또렷한 사진을 사용해 주세요."))) := by
  have hrun : ((renderCalls ⟨.loaded, true⟩ (sampleMessageWorld.renderCall sampleHost 9 samplePicked)).exec anyStep
      (renderSpeak ⟨.loaded, true⟩ (sampleMessageWorld.renderCall sampleHost 9 samplePicked) none
        sampleMessageWorld.persona.files) [.spawned, .write true ⟨103, .bytes [1]⟩,
        .others (Change.rmdir sampleMessageWorld.speakDir), .exit 1, .communicated ("avatar_registrar.py, in _crop: " ++
          "TypeError: cannot unpack non-iterable NoneType object") fun _ => true]).any (fun s =>
      s.pc = .ended (.raised ⟨"FaceDetectionError", faceDetectionFailureMessage⟩)) = true := by
    decide +kernel
  obtain ⟨s, hs, hpc⟩ := (Option.any_eq_true _ _).mp hrun
  obtain ⟨mevs, m', pc', -, hexec, -, hpc'⟩ := renderSpeak_refines sampleHost ⟨.loaded, true⟩ 9 sampleMessageWorld
    samplePicked none _ s _ .removed (fun _ => .removed) hs (of_decide_eq_true hpc)
  have hreason : cut 200 ("media_failed: " ++ Exc.reason ⟨"FaceDetectionError", faceDetectionFailureMessage⟩) =
      "media_failed: " ++ "FaceDetectionError: 얼굴 검출 실패: 업로드한 사진에서 얼굴을 찾을 수 없습니다. 정면 얼굴이 또렷한 사진을 사용해 주세요." := by
    decide +kernel
  refine ⟨mevs, m', ?_⟩
  rw [hexec, hpc', ← hreason]
  rfl

/-! ## Idle clips -/

section
variable (H : Host)

/-- The render of the idle clip `i`. -/
def idleRenderCall (w : PersonaWorld) (photo : Picked) (i : Nat) : RenderCall :=
  ⟨.idle, idleName i, H.folderPath w.id .idle ++ "/" ++ idleName i, photo⟩

/-- A run, and others that change the files. -/
def clipSystem (c : RenderCall) : System (PersonaWorld × Run) (RunEvent ⊕ Change c) where
  init _ := True
  step s
    | .inl e => runStep H s.1 s.2 e
    | .inr g => some (s.1.onFiles g.apply, s.2)

/-- `_render_idle_clips` after `render_idle` of clip `i`, with what the call has left running; `fault` is what looking
for the next clip raises. -/
def afterRenderIdle (w : PersonaWorld) (r : Run) (photo : Picked) (i : Nat) (fault : Option Exc) :
    RenderEnd → PersonaWorld × Run
  | .returned => orFail w r fault (w, r.goto (nextClip w.files (i + 1)))
  | .raised e => (w, r.failed e)
  | .cancelled left => (if left then w.leave (.idleRender photo (idleName i)) else w, r.goto .cancelSet)

/-- The run's own step for a step of its render. -/
def Sketch.ofRun {c : RenderCall} : Sketch c → RunEvent ⊕ Change c
  | .makeFolder => .inl .spawned
  | .output side o => .inl (.output side o)
  | .others g => .inr g

def SketchEnd.ofRun (fault : Option Exc) : SketchEnd → RunEvent
  | .rendered o => .rendered o fault
  | .failed e started unlinked => .renderFailed e started unlinked
  | .cancelled started unlinked => .cancel started unlinked

/-- Two personas that differ in the side file of a render only. -/
structure SamePersona (c : RenderCall) (w w' : PersonaWorld) : Prop where
  files : AlikeBut c w.files w'.files
  persona : { w with files := w'.files } = w'

end

section
variable {H : Host} {w : PersonaWorld} {r : Run} {photo : Picked} {c : RenderCall} {i : Nat}

theorem clipSystem_drawn (hphoto : r.photo = some photo) {es : List (Sketch (idleRenderCall H w photo i))}
    {fs : Files} :
    (clipSystem H (idleRenderCall H w photo i)).exec anyStep (w.onFiles fun _ => fs, r.goto (.rendering i))
      (es.map Sketch.ofRun) = some (w.onFiles fun _ => drawn es fs, r.goto (.rendering i)) := by
  induction es generalizing fs with
  | nil => rfl
  | cons e es ih =>
    rw [List.map_cons, System.exec_anyStep_cons]
    have hstep :
        (clipSystem H (idleRenderCall H w photo i)).step (w.onFiles fun _ => fs, r.goto (.rendering i)) e.ofRun =
        some (w.onFiles fun _ => e.apply fs, r.goto (.rendering i)) := by
      cases e with
      | output side o =>
        change (r.photo.map fun photo => _) = _
        rw [hphoto]
        rfl
      | _ => rfl
    rw [hstep, Option.bind_some, ih]
    rfl

/-- The last step of the render, in the run. -/
theorem runStep_sketchEnd (hphoto : r.photo = some photo) {fs : Files} {last : SketchEnd} (fault : Option Exc)
    (hen : last.Enabled (idleRenderCall H w photo i) fs) :
    ∃ out, runStep H (w.onFiles fun _ => fs) (r.goto (.rendering i)) (last.ofRun fault) = some out ∧
      SamePersona c (afterRenderIdle (w.onFiles fun _ => last.apply (idleRenderCall H w photo i) fs)
        (r.goto (.rendering i)) photo i fault last.ending).1 out.1 ∧
      out.2 = (afterRenderIdle (w.onFiles fun _ => last.apply (idleRenderCall H w photo i) fs)
        (r.goto (.rendering i)) photo i fault last.ending).2 := by
  cases last with
  | rendered o =>
    refine ⟨_, ?_, ⟨.refl _, rfl⟩, rfl⟩
    change (r.photo.bind fun photo => _) = _
    rw [hphoto]
    exact if_pos hen
  | failed e started unlinked =>
    refine ⟨_, rfl, ?_, rfl⟩
    cases started <;> exact ⟨.refl _, rfl⟩
  | cancelled started unlinked =>
    refine ⟨(if started then (idleFailed (w.onFiles fun _ => fs) i true unlinked).leave (.idleRender photo (idleName i))
      else w.onFiles fun _ => fs, r.goto .cancelSet), ?_, ?_, rfl⟩
    · change (r.photo.map fun photo => _) = _
      rw [hphoto]
      rfl
    · cases started <;> exact ⟨.refl _, rfl⟩

/-- The side file of a clip is no clip. -/
theorem idleName_ne_side {i j : Nat} : idleName j ≠ idleName i ++ ".tmp.mp4" := by
  -- by the number of dots
  have hdigits : ∀ n : Nat, (toString n).toList.count '.' = 0 := by
    intro n
    rw [List.count_eq_zero, show (toString n).toList = _ from Nat.toList_repr]
    intro hmem
    exact absurd (Nat.isDigit_of_mem_toDigits (by omega) (by omega) hmem) (by decide)
  intro heq
  have hcount := congrArg (fun s => s.toList.count '.') heq
  simp only [idleName, String.toList_append, List.count_append, hdigits] at hcount
  exact absurd hcount (by decide)

/-- Which clip is next does not depend on the side file. -/
theorem nextClip_alike {fs fs' : Files} (h : AlikeBut (idleRenderCall H w photo i) fs fs') {k : Nat} :
    nextClip fs k = nextClip fs' k := by
  have hsame : ∀ j, fs.hasNonempty .idle (idleName j) = fs'.hasNonempty .idle (idleName j) := by
    intro j
    have hfiles := h.files .idle (idleName j) (.inr idleName_ne_side)
    have hshown : ∀ fs : Files, fs.hasNonempty .idle (idleName j) =
        ((fs.get .idle (idleName j)).map File.shown).any fun shown => shown.2.nonempty := by
      intro fs
      rw [Option.any_map]
      rfl
    rw [hshown, hshown, hfiles]
  simp only [nextClip, hsame]

theorem afterRenderIdle_alike {fs fs' : Files} (r : Run) (fault : Option Exc) (ending : RenderEnd)
    (h : AlikeBut (idleRenderCall H w photo i) fs fs') :
    SamePersona (idleRenderCall H w photo i) (afterRenderIdle (w.onFiles fun _ => fs) r photo i fault ending).1
      (afterRenderIdle (w.onFiles fun _ => fs') r photo i fault ending).1 ∧
    (afterRenderIdle (w.onFiles fun _ => fs) r photo i fault ending).2 =
      (afterRenderIdle (w.onFiles fun _ => fs') r photo i fault ending).2 := by
  cases ending with
  | returned =>
    cases fault with
    | some e => exact ⟨⟨h, rfl⟩, rfl⟩
    | none => exact ⟨⟨h, rfl⟩, congrArg r.goto (nextClip_alike h)⟩
  | raised e => exact ⟨⟨h, rfl⟩, rfl⟩
  | cancelled left => cases left <;> exact ⟨⟨h, rfl⟩, rfl⟩

theorem SamePersona.trans {w w' w'' : PersonaWorld} (h : SamePersona c w w') (h' : SamePersona c w' w'') :
    SamePersona c w w'' where
  files := ⟨fun f => (h.files.dirs f).trans (h'.files.dirs f), fun f name hname =>
    (h.files.files f name hname).trans (h'.files.files f name hname)⟩
  persona := by
    rw [← h'.persona, ← h.persona]

theorem idleSketched_renderIdle (fault : Option Exc) {fs : Files} :
    IdleSketched c (fs.mkdir c.folder) [] (renderIdleCall c none fault fs) := by
  have hmade : Sketched c (fs.mkdir c.folder) [] ⟨fs.mkdir c.folder, .writing⟩ := ⟨[], rfl, .refl _⟩
  cases fault with
  | some e =>
    exact idleSketched_over (hmade.finish (by simp) (.failed e false fun _ => true)
      fun fs halike => ⟨trivial, halike⟩)
  | none => exact ⟨fun _ => hmade, fun pc hpc => (by cases hpc), fun ending hpc => (by cases hpc)⟩

theorem silenceGone_renderIdle (mkdirFault mkstempFault : Option Exc) {fs : Files} :
    SilenceGone (renderIdleCall c mkdirFault mkstempFault fs) := by
  cases mkdirFault with
  | some e => exact ⟨rfl, fun _ _ => rfl⟩
  | none => cases mkstempFault with
    | some e => exact ⟨rfl, fun _ _ => rfl⟩
    | none => exact ⟨rfl, fun ending hpc => (by cases hpc)⟩

end

/-- Whatever a call of `render_idle` does and however it ends, the run that has made it can take steps of its own, with
the same changes of others between them, to the same place; the files are alike, and what a cancelled call has left
running the run has left. The temporary wav is gone, and stays so, when it could be removed and no cancellation has
found the thread that writes it running. -/
theorem renderIdle_refines (H : Host) (D : Ditto) (w : PersonaWorld) (r : Run) (photo : Picked) (i : Nat)
    (hphoto : r.photo = some photo) (mkdirFault mkstempFault : Option Exc)
    (evs : List (IdleEvent (idleRenderCall H w photo i))) (s : IdleState) (ending : RenderEnd) (fault : Option Exc)
    (hrun : (idleCalls D (idleRenderCall H w photo i)).exec anyStep
      (renderIdleCall (idleRenderCall H w photo i) mkdirFault mkstempFault w.files) evs = some s)
    (hover : s.pc = .ended ending) :
    ((∀ ev ∈ evs, ev.keepsSilence = false) → s.silence = false) ∧
    ∃ revs w' r', revs.filterMap othersOf = evs.filterMap IdleEvent.change ∧
      (clipSystem H (idleRenderCall H w photo i)).exec anyStep (w, r.goto (.waitingDitto i)) revs = some (w', r') ∧
      SamePersona (idleRenderCall H w photo i)
        (afterRenderIdle (w.onFiles fun _ => s.files) (r.goto (.rendering i)) photo i fault ending).1 w' ∧
      r' = (afterRenderIdle (w.onFiles fun _ => s.files) (r.goto (.rendering i)) photo i fault ending).2 := by
  refine ⟨fun hremoved => ?_, ?_⟩
  · exact (silenceGone_run (silenceGone_renderIdle mkdirFault mkstempFault) hremoved hrun).2 ending hover
  cases mkdirFault with
  | some e =>
    -- the call is over before its first `await`
    have hstuck : (idleCalls D (idleRenderCall H w photo i)).Stuck anyStep
        (renderIdleCall (idleRenderCall H w photo i) (some e) mkstempFault w.files) := fun ev _ => by cases ev <;> rfl
    obtain ⟨rfl, rfl⟩ := hstuck.exec_eq hrun
    cases hover
    exact ⟨[.inl (.fail e)], _, _, rfl, rfl, ⟨.refl _, rfl⟩, rfl⟩
  | none =>
    obtain ⟨es, hes, last, rfl, hen, halike⟩ := ((idleSketched_renderIdle mkstempFault).run hrun).ended ending
      hover
    obtain ⟨out, hout, hsame, hpc⟩ := runStep_sketchEnd (c := idleRenderCall H w photo i) hphoto fault hen
    obtain ⟨halike, hpcs⟩ := afterRenderIdle_alike (r.goto (.rendering i)) fault last.ending halike
    refine ⟨.inl .acquire :: es.map Sketch.ofRun ++ [.inl (last.ofRun fault)], out.1, out.2, ?_, ?_,
      halike.trans hsame, hpc.trans hpcs.symm⟩
    · have hothers : (es.map Sketch.ofRun).filterMap othersOf = es.filterMap Sketch.change := by
        rw [List.filterMap_map]
        exact congrArg (fun f => es.filterMap f) (funext fun e => by cases e <;> rfl)
      rw [List.filterMap_append, List.filterMap_cons_none rfl, hothers, hes]
      exact List.append_nil _
    · rw [System.exec_anyStep_append, System.exec_anyStep_cons]
      have hacquire : (clipSystem H (idleRenderCall H w photo i)).step (w, r.goto (.waitingDitto i)) (.inl .acquire) =
          some (w.onFiles fun _ => w.files.mkdir .idle, r.goto (.rendering i)) := rfl
      rw [hacquire, Option.bind_some, clipSystem_drawn hphoto, Option.bind_some, System.exec_anyStep_cons]
      exact congrArg (fun x => x.bind fun t => some t) hout

/-- A thread that is found running makes the wav again, although it has been removed. -/
example : ((idleCalls ⟨.loaded, true⟩ (idleRenderCall sampleHost samplePersona samplePicked 0)).exec anyStep
    (renderIdleCall (idleRenderCall sampleHost samplePersona samplePicked 0) none none samplePersona.files)
    [.cancel true true, .opened]).any (fun s => s.silence) = true := by
  decide +kernel

/-- The theorem at a clip whose child is cancelled. -/
theorem renderIdle_refines_cancelled : ∃ revs w' r', (clipSystem sampleHost
      (idleRenderCall sampleHost samplePersona samplePicked 0)).exec anyStep
      (samplePersona, ⟨.waitingDitto 0, none, some samplePicked⟩) revs = some (w', r') ∧ r'.pc = .cancelSet := by
  have hrun : ((idleCalls ⟨.loaded, true⟩ (idleRenderCall sampleHost samplePersona samplePicked 0)).exec anyStep
      (renderIdleCall (idleRenderCall sampleHost samplePersona samplePicked 0) none none samplePersona.files)
      [.silenced none true, .speak .spawned true, .speak (.write false ⟨103, .bytes [1]⟩) true,
        .speak (.cancel fun _ => true) true]).any (fun s => s.pc = .ended (.cancelled true)) = true := by
    decide +kernel
  obtain ⟨s, hs, hpc⟩ := (Option.any_eq_true _ _).mp hrun
  obtain ⟨-, revs, w', r', -, hexec, -, hr'⟩ := renderIdle_refines sampleHost ⟨.loaded, true⟩ samplePersona
    ⟨.waitingDitto 0, none, some samplePicked⟩ samplePicked 0 rfl none none _ s (.cancelled true) none hs
    (of_decide_eq_true hpc)
  exact ⟨revs, w', r', hexec, by rw [hr']; rfl⟩

end YeounEngine
