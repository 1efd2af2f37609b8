import YeounEngine.VoiceRef

/-!
# One call of `_prepare_voice_ref`

The call on its own (`voiceRefCall`), made of the steps of the run between EXTRACTING_REF and TRANSCRIBING:
`prepareVoiceRef` begins it, `prepareVoiceRefEnd` ends it, and every `unlink` succeeds. ffmpeg writes what it
likes, ends as it likes, and goes on when the call has been left.

That `ref_audio.wav` exists is what makes the next run skip the trim. So the call should leave a good one or none
(`AllOrNothing`). It does, step by step, exactly under `TrimKept`: an interruption does not come once ffmpeg has
written, nor does ffmpeg write after one; the wave reader raises nothing but what is caught; and the folder can
be listed (`allOrNothing_iff_trimKept`).
-/

namespace YeounEngine

open Transition

/-! ## The end of the call -/

/-- The end of `_prepare_voice_ref`, after ffmpeg: the exception that it raises, if any. -/
def prepareVoiceRefEnd (H : Host) (w : PersonaWorld) (rc : Int) (a : AfterTrim) : PersonaWorld × Option Exc :=
  match trimVerdict H w rc a.stderr with
  | some (e, tidy) =>
    (if tidy && a.unlinked then w.onFiles fun fs => fs.unlink .voiceRef refAudio else w, some e)
  | none =>
    match a.globFault with
    | some e => (w, some e)
    | none => (w.onFiles fun fs => fs.modify .voiceRef (unlinkStrays a.strayUnlinked), none)

/-- The run goes on from the end of the call: an exception goes to its handler, and otherwise the old text is
invalidated. -/
theorem finishTrim_eq {H : Host} {w : PersonaWorld} {r : Run} {rc : Int} {a : AfterTrim} :
    finishTrim H w r rc a =
      match prepareVoiceRefEnd H w rc a with
      | (w, some e) => (w, r.failed e)
      | (w, none) =>
        if w.files.has .voiceRef refText then
          orFail w r a.refTextFault (w.onFiles fun fs => fs.unlink .voiceRef refText, r.goto .setTranscribing)
        else (w, r.goto .setTranscribing) := by
  rw [finishTrim, prepareVoiceRefEnd]
  cases trimVerdict H w rc a.stderr with
  | some v => rfl
  | none => cases a.globFault <;> rfl

/-! ## The call as a system -/

/-- Where a call is: `inside` is a run at one of the two awaits of the call. -/
inductive VoiceRefPc
  | called (r : Run)
  | inside (r : Run)
  | returned
  | raised (e : Exc)
  | cancelled

/-- What happens in a call, and to the child process that it has left. -/
inductive VoiceRefEvent
  | enter (fault : Option Exc)
  | child (ev : RunEvent)
  | communicated (stderr : String) (globFault : Option Exc)
  | orphan (k : Nat) (act : OrphanAct)

/-- The call begins: what is there is kept, and making the folder may raise. -/
def enterVoiceRef (w : PersonaWorld) (r : Run) (fault : Option Exc) : PersonaWorld × VoiceRefPc :=
  if w.files.has .voiceRef refAudio then (w, .returned)
  else
    match fault with
    | some e => (w, .raised e)
    | none => ((prepareVoiceRef w r).1, .inside (prepareVoiceRef w r).2)

/-- One step of a call whose removals all succeed. -/
def voiceRefStep (H : Host) (w : PersonaWorld) : VoiceRefPc → VoiceRefEvent → Option (PersonaWorld × VoiceRefPc)
  | .called r, .enter fault => some (enterVoiceRef w r fault)
  | .inside r, .communicated stderr globFault =>
    match r.pc with
    | .ffmpeg (some rc) =>
      let out := prepareVoiceRefEnd H w rc ⟨stderr, true, globFault, fun _ => true, none⟩
      some (out.1, out.2.elim .returned .raised)
    | _ => none
  | .inside _, .child (.communicated _) => none
  | .inside r, .child (.fail e) => (failStep w r e).map fun out => (out.1, .raised e)
  | .inside r, .child (.cancel started unlinked) =>
    (cancelStep w r started unlinked).map fun out => (out.1, .cancelled)
  | .inside r, .child ev => (runBody H w r r.pc ev).map fun out => (out.1, .inside out.2)
  | pc, .orphan k act => (w.orphanStep k act).map fun w => (w, pc)
  | _, _ => none

/-- A call for a persona without `ref_audio.wav` and without left-over work. -/
def voiceRefCall (H : Host) : System (PersonaWorld × VoiceRefPc) VoiceRefEvent where
  init s := s.1.files.has .voiceRef refAudio = false ∧ s.1.orphans = [] ∧
    ∃ voice photo, s.2 = .called ⟨.setExtracting, some voice, photo⟩
  step s e := voiceRefStep H s.1 s.2 e

/-! ## All or nothing -/

/-- `ref_audio.wav` is a readable wav of at least one second. -/
def ReadableSecond (H : Host) (w : PersonaWorld) : Prop :=
  ∃ file n rate, w.files.get .voiceRef refAudio = some file ∧ H.wave file.content = .frames n rate ∧
    0 < rate ∧ rate ≤ n

/-- A call that has returned leaves a good `ref_audio.wav` and no other `ref_audio.*`, one that has raised or was
cancelled leaves no `ref_audio.wav`. -/
def AllOrNothing (H : Host) (s : PersonaWorld × VoiceRefPc) : Prop :=
  match s.2 with
  | .returned => ReadableSecond H s.1 ∧ OnlyRefAudio s.1.voiceRef
  | .raised _ | .cancelled => s.1.files.has .voiceRef refAudio = false
  | _ => True

/-- What ffmpeg has left is accepted: `wave.open` reads it, and it is long enough. -/
def WaveOutcome.accepted : WaveOutcome → Bool
  | .frames n rate => rate ≠ 0 && rate ≤ n
  | _ => false

/-- How ffmpeg has ended, while the call has not gone on. -/
def VoiceRefPc.exitCode : VoiceRefPc → Option Int
  | .inside r => r.pc.trimExit
  | _ => none

/-- The steps that keep the call all or nothing: an interruption comes before ffmpeg has written, and ffmpeg
writes nothing after one; if ffmpeg ends with 0, the wave reader raises nothing that is not caught, and an output
that it accepts is followed by a listing of the folder that succeeds. -/
def TrimKept (H : Host) (s : PersonaWorld × VoiceRefPc) : VoiceRefEvent → Prop
  | .enter _ => True
  | .child ev => ev.interrupts = true → s.1.files.has .voiceRef refAudio = false
  | .communicated _ globFault => s.2.exitCode = some 0 →
      (waveOpen H s.1).uncaught = false ∧ ((waveOpen H s.1).accepted = true → globFault = none)
  | .orphan _ (.write _ _) => False
  | .orphan _ _ => True

instance (H : Host) (s : PersonaWorld × VoiceRefPc) (e : VoiceRefEvent) : Decidable (TrimKept H s e) :=
  match e with
  | .enter _ => isTrue trivial
  | .child _ => inferInstanceAs (Decidable (_ → _))
  | .communicated _ _ => inferInstanceAs (Decidable (_ → _ ∧ (_ → _)))
  | .orphan _ (.write _ _) => isFalse id
  | .orphan _ (.remove _) => isTrue trivial
  | .orphan _ .exit => isTrue trivial

/-! ## The end of ffmpeg -/

section
variable {H : Host} {w w' : PersonaWorld} {rc : Int} {stderr : String} {a : AfterTrim} {e : Exc}

/-- ffmpeg's output is taken when ffmpeg ends with 0 and the wave reader accepts it. -/
theorem trimVerdict_eq_none : trimVerdict H w rc stderr = none ↔ rc = 0 ∧ (waveOpen H w).accepted = true := by
  rw [trimVerdict]
  by_cases hrc : rc = 0
  · rw [if_neg (not_not.mpr hrc)]
    cases waveOpen H w with
    | error | eof => simp [WaveOutcome.accepted]
    | frames n rate =>
      by_cases hshort : rate = 0 ∨ n < rate
      · simp only [if_pos hshort, WaveOutcome.accepted]
        simp
        omega
      · simp only [if_neg hshort, WaveOutcome.accepted]
        simp
        omega
  · rw [if_pos hrc]
    simp [hrc]

/-- An accepted output is a readable second. -/
theorem readableSecond_of_accepted (h : (waveOpen H w).accepted = true) : ReadableSecond H w := by
  rw [waveOpen] at h
  cases hget : w.files.get .voiceRef refAudio with
  | none => rw [hget] at h; cases h
  | some file =>
    rw [hget] at h
    dsimp only at h
    cases hwave : H.wave file.content with
    | error | eof => rw [hwave] at h; cases h
    | frames n rate =>
      rw [hwave, WaveOutcome.accepted, Bool.and_eq_true, decide_eq_true_eq, decide_eq_true_eq] at h
      exact ⟨file, n, rate, hget, hwave, Nat.pos_of_ne_zero h.1, h.2⟩

/-- What is accepted is there. -/
theorem ReadableSecond.has (h : ReadableSecond H w) : w.files.has .voiceRef refAudio = true := by
  obtain ⟨file, -, -, hget, -⟩ := h
  rw [Files.has, hget]
  rfl

/-- What raises an error that is not caught is there. -/
theorem has_of_uncaught (h : (waveOpen H w).uncaught = true) : w.files.has .voiceRef refAudio = true := by
  rw [waveOpen] at h
  cases hget : w.files.get .voiceRef refAudio with
  | none => rw [hget] at h; cases h
  | some file => rw [Files.has, hget]; rfl

theorem has_unlink_self : (w.files.unlink .voiceRef refAudio).has .voiceRef refAudio = false := by
  rw [Files.has, Files.get, Files.unlink, Files.dir_modify, fileIn_erase_self]
  rfl

/-- An output is left in place only by an error that is not caught. -/
theorem trimVerdict_tidy {tidy : Bool} (h : trimVerdict H w rc stderr = some (e, tidy)) :
    tidy = false ↔ rc = 0 ∧ (waveOpen H w).uncaught = true := by
  constructor
  · rintro rfl
    obtain ⟨hrc, hwave⟩ := trimVerdict_kept h
    exact ⟨hrc, by rw [hwave]; rfl⟩
  · rintro ⟨hrc, huncaught⟩
    rw [trimVerdict, if_neg (not_not.mpr hrc)] at h
    cases hwave : waveOpen H w with
    | frames | error => rw [hwave] at huncaught; cases huncaught
    | eof e' =>
      rw [hwave] at h
      cases h
      rfl

/-- The older files go, the output stays. -/
theorem ReadableSecond.unlinkStrays {unlinked : String → Bool} (h : ReadableSecond H w) :
    ReadableSecond H (w.onFiles fun fs => fs.modify .voiceRef (unlinkStrays unlinked)) := by
  obtain ⟨file, n, rate, hget, hwave⟩ := h
  refine ⟨file, n, rate, ?_, hwave⟩
  show fileIn ((w.files.modify .voiceRef _).dir .voiceRef) refAudio = some file
  rw [Files.dir_modify, fileIn_unlinkStrays]
  exact hget

/-- The end of a call whose removals succeed is all or nothing exactly under the condition. -/
theorem allOrNothing_end {globFault fault : Option Exc} (hout : prepareVoiceRefEnd H w rc
      ⟨stderr, true, globFault, fun _ => true, none⟩ = (w', fault)) :
    AllOrNothing H (w', fault.elim .returned .raised) ↔
      (rc = 0 → (waveOpen H w).uncaught = false ∧ ((waveOpen H w).accepted = true → globFault = none)) := by
  rw [prepareVoiceRefEnd] at hout
  cases hverdict : trimVerdict H w rc stderr with
  | some v =>
    obtain ⟨e, tidy⟩ := v
    rw [hverdict] at hout
    have htidy := trimVerdict_tidy hverdict
    cases tidy with
    | true =>
      obtain ⟨rfl, rfl⟩ := Prod.mk.inj hout
      refine iff_of_true has_unlink_self fun hrc => ?_
      have hcaught : ¬ (waveOpen H w).uncaught = true := fun h => absurd (htidy.mpr ⟨hrc, h⟩) (by simp)
      refine ⟨Bool.eq_false_iff.mpr hcaught, fun hacc => ?_⟩
      rw [trimVerdict_eq_none.mpr ⟨hrc, hacc⟩] at hverdict
      cases hverdict
    | false =>
      obtain ⟨rfl, rfl⟩ := Prod.mk.inj hout
      obtain ⟨hrc, huncaught⟩ := htidy.mp rfl
      refine iff_of_false (fun h => ?_) fun h => ?_
      · have : w.files.has .voiceRef refAudio = false := h
        rw [has_of_uncaught huncaught] at this
        cases this
      · rw [(h hrc).1] at huncaught
        cases huncaught
  | none =>
    rw [hverdict] at hout
    obtain ⟨hrc, hacc⟩ := trimVerdict_eq_none.mp hverdict
    have hgood := readableSecond_of_accepted hacc
    cases globFault with
    | some e =>
      obtain ⟨rfl, rfl⟩ := Prod.mk.inj hout
      refine iff_of_false (fun h => ?_) fun h => by cases (h hrc).2 hacc
      have : w.files.has .voiceRef refAudio = false := h
      rw [hgood.has] at this
      cases this
    | none =>
      obtain ⟨rfl, rfl⟩ := Prod.mk.inj hout
      refine iff_of_true ⟨hgood.unlinkStrays, ?_⟩ fun _ => ⟨?_, fun _ => rfl⟩
      · show OnlyRefAudio ((w.files.modify .voiceRef _).dir .voiceRef)
        rw [Files.dir_modify]
        exact onlyRefAudio_unlinkStrays fun _ _ _ _ => rfl
      · cases hwave : waveOpen H w with
        | eof => rw [hwave] at hacc; cases hacc
        | frames | error => rfl

end

/-! ## One step of the call -/

/-- The call has been left by an exception or a cancellation. -/
def VoiceRefPc.left : VoiceRefPc → Bool
  | .raised _ | .cancelled => true
  | _ => false

/-- What a call keeps: before ffmpeg there is no `ref_audio.wav`, nothing is left running while the call goes
on, and what is left of a call that has been left is at most ffmpeg. -/
inductive CallInv (H : Host) : PersonaWorld × VoiceRefPc → Prop
  | called {w r} (hno : w.files.has .voiceRef refAudio = false) (ho : w.orphans = [])
      (hv : r.voice.isSome = true) : CallInv H (w, .called r)
  | spawning {w r} (hno : w.files.has .voiceRef refAudio = false) (ho : w.orphans = [])
      (hd : w.voiceRef.isSome = true) (hpc : r.pc = .spawning) (hv : r.voice.isSome = true) :
      CallInv H (w, .inside r)
  | ffmpeg {w r rc} (ho : w.orphans = []) (hd : w.voiceRef.isSome = true) (hpc : r.pc = .ffmpeg rc)
      (hv : r.voice.isSome = true) : CallInv H (w, .inside r)
  | returned {w} (ho : w.orphans = []) (hall : AllOrNothing H (w, .returned)) : CallInv H (w, .returned)
  | left {w pc} (hpc : pc.left = true) (hno : w.files.has .voiceRef refAudio = false) (ho : w.orphans = [] ∨
      w.voiceRef.isSome = true ∧ ∃ voice, w.orphans = [.ffmpeg voice]) : CallInv H (w, pc)

section
variable {H : Host} {w : PersonaWorld} {r : Run} {ev : RunEvent} {pc : VoiceRefPc}
  {s t : PersonaWorld × VoiceRefPc} {e : VoiceRefEvent}

theorem allOrNothing_left (h : pc.left = true) :
    AllOrNothing H (w, pc) ↔ w.files.has .voiceRef refAudio = false := by
  cases pc with
  | raised | cancelled => exact Iff.rfl
  | called | inside | returned => cases h

theorem CallInv.allOrNothing (h : CallInv H s) : AllOrNothing H s := by
  cases h with
  | called | spawning | ffmpeg => trivial
  | returned _ hall => exact hall
  | left hpc hno => exact (allOrNothing_left hpc).mpr hno

/-- Nothing is left running. -/
theorem orphanStep_of_nil {k : Nat} {act : OrphanAct} (ho : w.orphans = []) : w.orphanStep k act = none := by
  rw [PersonaWorld.orphanStep, ho]
  rfl

/-- The child process goes on. -/
theorem voiceRefStep_child (hi : ev.interrupts = false) (h : voiceRefStep H w (.inside r) (.child ev) = some t) :
    ∃ out, BodyStep H w r r.pc ev out ∧ (∀ a, ev ≠ .communicated a) ∧ t = (out.1, .inside out.2) := by
  cases ev with
  | fail | cancel => cases hi
  | communicated => cases h
  | _ =>
    obtain ⟨out, hout, rfl⟩ := Option.map_eq_some_iff.mp h
    exact ⟨out, bodyStep_of_runBody hout, nofun, rfl⟩

/-- The call is interrupted. -/
theorem voiceRefStep_interrupted (hi : ev.interrupts = true)
    (h : voiceRefStep H w (.inside r) (.child ev) = some t) :
    t.2.left = true ∧ (r.pc = .spawning → t.1 = w) ∧ ∀ rc, r.pc = .ffmpeg rc → t.1 = leaveFfmpeg w r rc := by
  obtain ⟨pc, voice, photo⟩ := r
  cases ev with
  | fail | cancel =>
    obtain ⟨out, hout, rfl⟩ := Option.map_eq_some_iff.mp h
    refine ⟨rfl, ?_, ?_⟩
    · rintro rfl
      cases hout
      rfl
    · rintro rc rfl
      cases hout
      rfl
  | _ => cases hi

/-- ffmpeg goes on, or has ended. -/
theorem leaveFfmpeg_cases (rc : Option Int) (ho : w.orphans = []) :
    (leaveFfmpeg w r rc).files = w.files ∧
      ((leaveFfmpeg w r rc).orphans = [] ∨ ∃ voice, (leaveFfmpeg w r rc).orphans = [.ffmpeg voice]) := by
  rw [leaveFfmpeg]
  split
  · cases r.voice with
    | none => exact ⟨rfl, .inl ho⟩
    | some voice => exact ⟨rfl, .inr ⟨voice, by rw [Option.elim_some, PersonaWorld.leave, ho]; rfl⟩⟩
  · exact ⟨rfl, .inl ho⟩

/-- The call begins. -/
theorem CallInv.entered {fault : Option Exc} (hno : w.files.has .voiceRef refAudio = false) (ho : w.orphans = [])
    (hv : r.voice.isSome = true) : CallInv H (enterVoiceRef w r fault) := by
  have habsent : ¬ w.files.has .voiceRef refAudio = true := Bool.eq_false_iff.mp hno
  unfold enterVoiceRef
  rw [if_neg habsent]
  cases fault with
  | some e => exact .left rfl hno (.inl ho)
  | none =>
    dsimp only
    rw [prepareVoiceRef, if_neg habsent]
    refine .spawning ?_ ho ?_ rfl hv
    · exact has_mkdir.trans hno
    · exact congrArg Option.isSome Files.dir_mkdir

/-- ffmpeg runs. -/
theorem CallInv.child {rc : Option Int} {out : PersonaWorld × Run} (ho : w.orphans = [])
    (hd : w.voiceRef.isSome = true) (hpc : r.pc = .ffmpeg rc) (hv : r.voice.isSome = true)
    (h : BodyStep H w r r.pc ev out) (hne : ∀ a, ev ≠ .communicated a) : CallInv H (out.1, .inside out.2) := by
  rw [hpc] at h
  have hkeep : ∀ g : Dir → Dir, ((w.files.modify .voiceRef g).dir .voiceRef).isSome = true := by
    intro g
    rw [Files.dir_modify, Option.isSome_map]
    exact hd
  cases h with
  | trimOutput => exact .ffmpeg ho (hkeep _) rfl hv
  | trimExit => exact .ffmpeg ho (hkeep _) rfl hv
  | trimDone => exact absurd rfl (hne _)

/-- The call is interrupted at ffmpeg. -/
theorem CallInv.interrupted {rc : Option Int} (ho : w.orphans = []) (hd : w.voiceRef.isSome = true)
    (hleft : pc.left = true) (hno : w.files.has .voiceRef refAudio = false) :
    CallInv H (leaveFfmpeg w r rc, pc) := by
  obtain ⟨hfiles, horphans⟩ := leaveFfmpeg_cases (r := r) rc ho
  refine .left hleft (by rw [hfiles]; exact hno) (horphans.imp_right fun h => ⟨?_, h⟩)
  rw [PersonaWorld.voiceRef, hfiles]
  exact hd

/-- The call ends. -/
theorem CallInv.ended {rc : Int} {stderr : String} {globFault : Option Exc} (ho : w.orphans = [])
    (hpc : r.pc = .ffmpeg (some rc))
    (h : voiceRefStep H w (.inside r) (.communicated stderr globFault) = some t) :
    (CallInv H t ∧ TrimKept H (w, .inside r) (.communicated stderr globFault)) ∨
      ¬ AllOrNothing H t ∧ ¬ TrimKept H (w, .inside r) (.communicated stderr globFault) := by
  rcases hout : prepareVoiceRefEnd H w rc ⟨stderr, true, globFault, fun _ => true, none⟩ with ⟨w', fault⟩
  rw [voiceRefStep, hpc] at h
  dsimp only at h
  rw [hout] at h
  cases h
  have horphans : w'.orphans = [] := by
    rw [prepareVoiceRefEnd] at hout
    split at hout
    · obtain ⟨rfl, -⟩ := Prod.mk.inj hout
      split <;> exact ho
    · split at hout <;> obtain ⟨rfl, -⟩ := Prod.mk.inj hout <;> exact ho
  have hiff := allOrNothing_end hout
  have hkept : TrimKept H (w, .inside r) (.communicated stderr globFault) ↔
      (rc = 0 → (waveOpen H w).uncaught = false ∧ ((waveOpen H w).accepted = true → globFault = none)) := by
    rw [TrimKept, VoiceRefPc.exitCode, hpc, RunPc.trimExit, Option.some.injEq]
  rw [hkept, ← hiff]
  by_cases hall : AllOrNothing H (w', fault.elim .returned .raised)
  · refine .inl ⟨?_, hall⟩
    cases fault with
    | none => exact .returned horphans hall
    | some e => exact .left rfl hall (.inl horphans)
  · exact .inr ⟨hall, hall⟩

/-- What has been left running writes, or ends. -/
theorem CallInv.orphan {k : Nat} {act : OrphanAct} (hpc : pc.left = true)
    (hno : w.files.has .voiceRef refAudio = false) (ho : w.orphans = [] ∨
      w.voiceRef.isSome = true ∧ ∃ voice, w.orphans = [.ffmpeg voice])
    (h : (w.orphanStep k act).map (fun w => (w, pc)) = some t) :
    (CallInv H t ∧ TrimKept H (w, pc) (.orphan k act)) ∨
      ¬ AllOrNothing H t ∧ ¬ TrimKept H (w, pc) (.orphan k act) := by
  obtain ⟨w', hstep, rfl⟩ := Option.map_eq_some_iff.mp h
  rcases ho with ho | ⟨hd, voice, ho⟩
  · rw [orphanStep_of_nil ho] at hstep
    cases hstep
  · cases orphanStep_inv hstep with
    | write hk hw =>
      rw [ho, List.mem_singleton] at hk
      cases hk
      cases hw
      refine .inr ⟨fun hall => ?_, id⟩
      rename_i side o
      have hgone := (allOrNothing_left hpc).mp hall
      have hname : "ref_audio.wav" ++ (if side then (Orphan.ffmpeg voice).side else "") = refAudio := by
        cases side <;> rfl
      rw [hname] at hgone
      cases (has_write_self hd).symm.trans hgone
    | remove hk hw | removed hk hw =>
      rw [ho, List.mem_singleton] at hk
      cases hk
      cases hw
    | written =>
      -- ffmpeg has ended, nothing else was running
      refine .inl ⟨.left hpc hno (.inl ?_), trivial⟩
      cases k with
      | zero => rw [ho]; rfl
      | succ k => rw [PersonaWorld.orphanStep, ho] at hstep; cases hstep

/-- A step of the call is all or nothing exactly under the condition, and it keeps the invariant under it. -/
theorem CallInv.step (hs : CallInv H s) (h : (voiceRefCall H).step s e = some t) :
    (AllOrNothing H t ↔ TrimKept H s e) ∧ (TrimKept H s e → CallInv H t) := by
  suffices (CallInv H t ∧ TrimKept H s e) ∨ ¬ AllOrNothing H t ∧ ¬ TrimKept H s e by
    rcases this with ⟨hinv, hkept⟩ | ⟨hnot, hkept⟩
    · exact ⟨iff_of_true hinv.allOrNothing hkept, fun _ => hinv⟩
    · exact ⟨iff_of_false hnot hkept, fun h => absurd h hkept⟩
  have h : voiceRefStep H s.1 s.2 e = some t := h
  cases hs with
  | called hno ho hv =>
    cases e with
    | enter fault =>
      cases h
      exact .inl ⟨.entered hno ho hv, trivial⟩
    | child | communicated => cases h
    | orphan k act => rw [voiceRefStep, orphanStep_of_nil ho] at h; cases h
  | @spawning w r hno ho hd hpc hv =>
    cases e with
    | enter => cases h
    | orphan k act => rw [voiceRefStep, orphanStep_of_nil ho] at h; cases h
    | communicated stderr globFault => rw [voiceRefStep, hpc] at h; cases h
    | child ev =>
      cases hi : ev.interrupts with
      | true =>
        obtain ⟨hleft, hw, -⟩ := voiceRefStep_interrupted hi h
        obtain ⟨w', pc⟩ := t
        obtain rfl : w' = w := hw hpc
        exact .inl ⟨.left hleft hno (.inl ho), fun _ => hno⟩
      | false =>
        obtain ⟨out, hbody, -, rfl⟩ := voiceRefStep_child hi h
        rw [hpc] at hbody
        cases hbody
        exact .inl ⟨.ffmpeg ho hd rfl hv, fun hi' => by rw [hi] at hi'; cases hi'⟩
  | @ffmpeg w r rc ho hd hpc hv =>
    cases e with
    | enter => cases h
    | orphan k act => rw [voiceRefStep, orphanStep_of_nil ho] at h; cases h
    | child ev =>
      cases hi : ev.interrupts with
      | true =>
        obtain ⟨hleft, -, hw⟩ := voiceRefStep_interrupted hi h
        obtain ⟨w', pc⟩ := t
        obtain rfl : w' = leaveFfmpeg w r rc := hw rc hpc
        cases hno : w.files.has .voiceRef refAudio with
        | false => exact .inl ⟨.interrupted ho hd hleft hno, fun _ => hno⟩
        | true =>
          refine .inr ⟨fun hall => ?_, fun hkept => ?_⟩
          · have hgone := (allOrNothing_left hleft).mp hall
            rw [(leaveFfmpeg_cases _ ho).1, hno] at hgone
            cases hgone
          · cases hno.symm.trans (hkept hi)
      | false =>
        obtain ⟨out, hbody, hne, rfl⟩ := voiceRefStep_child hi h
        exact .inl ⟨.child ho hd hpc hv hbody hne, fun hi' => by rw [hi] at hi'; cases hi'⟩
    | communicated stderr globFault =>
      cases rc with
      | none => rw [voiceRefStep, hpc] at h; cases h
      | some rc => exact CallInv.ended ho hpc h
  | returned ho hall =>
    cases e with
    | orphan k act => rw [voiceRefStep, orphanStep_of_nil ho] at h; cases h
    | _ => cases h
  | @left w pc hpc hno ho =>
    cases pc with
    | called | inside | returned => cases hpc
    | raised | cancelled =>
      cases e with
      | orphan k act => exact CallInv.orphan rfl hno ho h
      | _ => cases h

theorem callInv_init (hs : (voiceRefCall H).init s) : CallInv H s := by
  obtain ⟨w, pc⟩ := s
  obtain ⟨hno, ho, voice, photo, rfl⟩ := hs
  exact .called hno ho rfl

end

/-- The call of the concrete runs. -/
def sampleCall : PersonaWorld × VoiceRefPc :=
  (uploadedPersona, .called ⟨.setExtracting, some ⟨"voice.mp3", 10, sampleVoice.content⟩, none⟩)

theorem sampleCall_init (H : Host) : (voiceRefCall H).init sampleCall := ⟨rfl, rfl, _, _, rfl⟩

/-- ffmpeg writes and ends with 0. -/
def trimEvents (content : List UInt8) : List VoiceRefEvent :=
  [.enter none, .child .spawned, .child (.output false ⟨12, .bytes content⟩), .child (.exit 0),
    .communicated "" none]

/-- The host whose wave reader raises `EOFError` on an empty file, as the one of the standard library does. -/
def eofHost : Host :=
  { sampleHost with
    wave := fun c => if c = .bytes [] then .eof ⟨"EOFError", ""⟩ else .frames 48000 16000 }

end YeounEngine
