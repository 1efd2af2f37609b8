import YeounEngine.FinalEvents

/-!
# The files a message leaves

The TTS writes the wav of a message, Ditto its mp4 by way of a side file, and the message removes the wav when it has
the mp4. On an exception the handler removes both; Ditto's own clean-up also sees a cancellation, but the
message has no handler for one: a wav that is there stays, and a thread or a child that is left running
writes its file later.

A run has three kinds of steps: those of the message, with every removal that it attempts a success, those of what
it leaves running, and those of the other requests. These may take the files of the message away, with their
folder, but they add none: its id is fresh.
-/

namespace YeounEngine

open Transition

/-! ## A message and its files -/

section
variable (messageId : Uuid)

/-- The side file that Ditto renders into. -/
def sideName : String := mp4Name messageId ++ ".tmp.mp4"

/-- The files of a message. -/
def mediaNames : List String := [wavName messageId, mp4Name messageId, sideName messageId]

/-- A file in `speak/{session_id}`. -/
def MessageWorld.media (w : MessageWorld) (name : String) : Option File := w.persona.files.get w.speakDir name

/-- The path that an orphan writes, or the side file of it. -/
def Orphan.path (side : Bool) (o : Orphan) : Option (Folder × String) :=
  o.writes.map fun t => (t.1, t.2.1 ++ if side then o.side else "")

/-- The orphan writes a file of the message. -/
def Orphan.writesMedia (dir : Folder) (side : Bool) (o : Orphan) : Bool :=
  (mediaNames messageId).any fun name => o.path side = some (dir, name)

/-- What has become of a message: its world, whether it has sent `media_ready`, and whether somebody else has taken
away one of its files. -/
structure MediaState where
  world : MessageWorld
  pc : MessagePc
  ready : Bool
  taken : Bool

/-- A step of the message, of an orphan, or of the other requests. -/
inductive MediaEvent
  | message (ev : MessageEvent)
  | orphan (k : Nat) (act : OrphanAct)
  | others (w : MessageWorld)

/-- Every removal that the message attempts succeeds; only a child that was started has written a side file. -/
def RemovalsSucceed (w : MessageWorld) (ev : MessageEvent) : Prop :=
  (∀ name ∈ mediaNames messageId, ev.unlinked name = .removed) ∧
    match ev with
    | .rendered _ wav _ => wav = .removed
    | .renderFailed _ true removed _ => ∀ name ∈ mediaNames messageId, removed name = true
    | .renderFailed _ false _ _ => w.media (sideName messageId) = none
    | _ => True

instance (w : MessageWorld) (ev : MessageEvent) : Decidable (RemovalsSucceed messageId w ev) := by
  unfold RemovalsSucceed
  cases ev with
  | renderFailed e started removed unlinked => cases started <;> infer_instance
  | _ => infer_instance

/-- The other requests add no file of the message, and leave nothing running that does. -/
def Elsewhere (w w' : MessageWorld) : Prop :=
  w'.speakDir = w.speakDir ∧
    (∀ name ∈ mediaNames messageId, w'.media name = none ∨ w'.media name = w.media name) ∧
    ∀ o ∈ w'.persona.orphans, o ∈ w.persona.orphans ∨
      o.writesMedia messageId w.speakDir false = false ∧ o.writesMedia messageId w.speakDir true = false

instance (w w' : MessageWorld) : Decidable (Elsewhere messageId w w') := inferInstanceAs (Decidable (_ ∧ _ ∧ _))

/-- A file of the message is gone. -/
def takes (w w' : MessageWorld) : Bool :=
  (mediaNames messageId).any fun name => (w.media name).isSome && (w'.media name).isNone

/-- What a place sends is `media_ready`. -/
def MessagePc.sendsReady (pc : MessagePc) : Bool :=
  match pc.sends with
  | some (.mediaReady _ _) => true
  | _ => false

/-- A message of which no file is there yet. -/
def FreshMedia (s : MediaState) : Prop :=
  s.pc = .created ∧ s.ready = false ∧ (∀ name ∈ mediaNames messageId, s.world.media name = none) ∧
    ∀ o ∈ s.world.persona.orphans, ∀ side, o.writesMedia messageId s.world.speakDir side = false

/-- A message with its files, among the other requests. -/
def mediaSystem (H : Host) : System MediaState MediaEvent where
  init := FreshMedia messageId
  step s
    | .message ev =>
      if RemovalsSucceed messageId s.world ev then
        (messageStep H messageId s.world s.pc ev).map fun out =>
          ⟨out.1, out.2, s.ready || out.2.sendsReady, s.taken⟩
      else none
    | .orphan k act =>
      (s.world.persona.orphanStep k act).map fun p =>
        let w := { s.world with persona := p }
        ⟨w, s.pc, s.ready, s.taken || takes messageId s.world w⟩
    | .others w =>
      if Elsewhere messageId s.world w then some ⟨w, s.pc, s.ready, s.taken || takes messageId s.world w⟩ else none

/-- The files of the message that are there are exactly its mp4 if it has sent `media_ready`, unless somebody else
has taken that away, and none otherwise. -/
structure MediaExact (w : MessageWorld) (ready taken : Bool) : Prop where
  stray : ∀ name ∈ mediaNames messageId, (ready = true → name ≠ mp4Name messageId) → w.media name = none
  ready : ready = true → taken = false → (w.media (mp4Name messageId)).isSome = true

/-- A cancellation finds no file of the message, but for those that Ditto's clean-up removes, and what it leaves
running writes none. -/
def LeavesNothing (s : MediaState) : MediaEvent → Prop
  | .message (.cancel started removed) =>
    match s.pc with
    | .synthesizing _ | .waitingDitto _ => ∀ name ∈ mediaNames messageId, s.world.media name = none
    | .rendering _ => ∀ name ∈ mediaNames messageId, s.world.media name = none ∨
        started = true ∧ name ∈ [mp4Name messageId, sideName messageId].filter removed
    | _ => True
  | .orphan k (.write side _) =>
    (s.world.persona.orphans[k]?).all fun o => !o.writesMedia messageId s.world.speakDir side
  | _ => True

instance (s : MediaState) (e : MediaEvent) : Decidable (LeavesNothing messageId s e) := by
  unfold LeavesNothing
  split
  · split <;> infer_instance
  · infer_instance
  · infer_instance

end

/-! ## Files of the message after a change -/

section
variable {H : Host} {messageId : Uuid} {w w' : MessageWorld} {name other : String} {names : List String} {file : File}
  {pc pc' : MessagePc} {ev : MessageEvent} {e : Exc} {unlinked : String → Unlinked}

theorem media_write_of_ne (h : other ≠ name) :
    (w.onFiles fun fs => fs.write w.speakDir name file).media other = w.media other :=
  get_write_of_ne h

theorem media_modify {g : Dir → Dir} :
    (w.onFiles fun fs => fs.modify w.speakDir g).media name = fileIn ((w.persona.files.dir w.speakDir).map g) name :=
  congrArg (fun d => fileIn d name) Files.dir_modify

theorem media_eraseAll_of_mem (h : name ∈ names) :
    (w.onFiles fun fs => fs.modify w.speakDir (Files.eraseAll names)).media name = none := by
  rw [media_modify, fileIn_eraseAll_of_mem h]

theorem media_eraseAll_of_not_mem (h : name ∉ names) :
    (w.onFiles fun fs => fs.modify w.speakDir (Files.eraseAll names)).media name = w.media name := by
  rw [media_modify, fileIn_eraseAll_of_not_mem h]
  rfl

/-- Two names of one stem are the same only with the same ending. -/
theorem name_ne {a b : String} (h : a.toList ≠ b.toList) : messageId.str ++ a ≠ messageId.str ++ b := by
  intro heq
  have := congrArg String.toList heq
  rw [String.toList_append, String.toList_append] at this
  exact h (List.append_cancel_left this)

theorem wavName_ne_mp4Name : wavName messageId ≠ mp4Name messageId := name_ne (by decide)

theorem wavName_ne_sideName : wavName messageId ≠ sideName messageId := by
  rw [sideName, mp4Name, String.append_assoc]
  exact name_ne (by decide)

theorem mp4Name_ne_sideName : mp4Name messageId ≠ sideName messageId := by
  rw [sideName, mp4Name, String.append_assoc]
  exact name_ne (by decide)

end

/-! ## The invariant -/

/-- No file of the message is there. -/
def MediaAbsent (messageId : Uuid) (w : MessageWorld) : Prop := ∀ name ∈ mediaNames messageId, w.media name = none

/-- The files of a message that is at a place. -/
def KeepsMedia (messageId : Uuid) (w : MessageWorld) (ready taken : Bool) : MessagePc → Prop
  | .synthesizing _ | .waitingDitto _ =>
    ready = false ∧ w.media (mp4Name messageId) = none ∧ w.media (sideName messageId) = none
  | .rendering _ => ready = false
  | .yielded _ .last | .returned | .raised _ | .cancelled => MediaExact messageId w ready taken
  | _ => ready = false ∧ MediaAbsent messageId w

/-- The invariant: the files at each place, and only a cancelled message has left anything running. -/
structure MediaInv (messageId : Uuid) (s : MediaState) : Prop where
  keeps : KeepsMedia messageId s.world s.ready s.taken s.pc
  orphans : ∀ o ∈ s.world.persona.orphans, ∀ side, o.writesMedia messageId s.world.speakDir side = true →
    s.pc = .cancelled ∧ s.ready = false ∧ o.makesFolder = true

section
variable {H : Host} {messageId : Uuid} {w w' : MessageWorld} {ready taken : Bool} {pc pc' : MessagePc}
  {ev : MessageEvent} {e : Exc} {unlinked : String → Unlinked}

theorem MediaAbsent.exact (h : MediaAbsent messageId w) : MediaExact messageId w false taken :=
  ⟨fun name hname _ => h name hname, fun hready => by cases hready⟩

theorem MediaAbsent.of_names (hwav : w.media (wavName messageId) = none) (hmp4 : w.media (mp4Name messageId) = none)
    (hside : w.media (sideName messageId) = none) : MediaAbsent messageId w := by
  intro name hname
  simp only [mediaNames, List.mem_cons, List.not_mem_nil, or_false] at hname
  rcases hname with rfl | rfl | rfl
  · exact hwav
  · exact hmp4
  · exact hside

theorem MediaAbsent.wav (h : MediaAbsent messageId w) : w.media (wavName messageId) = none := h _ List.mem_cons_self

theorem MediaAbsent.mp4 (h : MediaAbsent messageId w) : w.media (mp4Name messageId) = none :=
  h _ (List.mem_cons_of_mem _ List.mem_cons_self)

theorem MediaAbsent.side (h : MediaAbsent messageId w) : w.media (sideName messageId) = none :=
  h _ (List.mem_cons_of_mem _ (List.mem_cons_of_mem _ List.mem_cons_self))

/-- A message that is over has exactly its files. -/
theorem KeepsMedia.exact (h : KeepsMedia messageId w ready taken pc) (hended : pc.ended = true) :
    MediaExact messageId w ready taken := by
  cases pc with
  | returned | raised | cancelled => exact h
  | _ => cases hended

/-- What somebody else takes away is not missed. -/
theorem MediaExact.lose (h : MediaExact messageId w ready taken)
    (hw : ∀ name ∈ mediaNames messageId, w'.media name = none ∨ w'.media name = w.media name) :
    MediaExact messageId w' ready (taken || takes messageId w w') where
  stray name hname hne := (hw name hname).elim id fun heq => heq.trans (h.stray name hname hne)
  ready hready htaken := by
    rw [Bool.or_eq_false_iff] at htaken
    have hthere := h.ready hready htaken.1
    have hmem : mp4Name messageId ∈ mediaNames messageId := List.mem_cons_of_mem _ List.mem_cons_self
    have hkept := List.any_eq_false.mp htaken.2 _ hmem
    rw [hthere, Bool.true_and] at hkept
    rcases hw _ hmem with hgone | heq
    · rw [hgone] at hkept
      exact absurd rfl hkept
    · rw [heq]
      exact hthere

theorem KeepsMedia.lose (h : KeepsMedia messageId w ready taken pc)
    (hw : ∀ name ∈ mediaNames messageId, w'.media name = none ∨ w'.media name = w.media name) :
    KeepsMedia messageId w' ready (taken || takes messageId w w') pc := by
  have hnone : ∀ name ∈ mediaNames messageId, w.media name = none → w'.media name = none :=
    fun name hname hgone => (hw name hname).elim id fun heq => heq.trans hgone
  have hno : MediaAbsent messageId w → MediaAbsent messageId w' :=
    fun hno name hname => hnone name hname (hno name hname)
  cases pc with
  | synthesizing | waitingDitto =>
    exact ⟨h.1, hnone _ (List.mem_cons_of_mem _ List.mem_cons_self) h.2.1,
      hnone _ (List.mem_cons_of_mem _ (List.mem_cons_of_mem _ List.mem_cons_self)) h.2.2⟩
  | rendering => exact h
  | yielded sent next =>
    cases next with
    | last => exact MediaExact.lose h hw
    | token | textDone => exact ⟨h.1, hno h.2⟩
  | returned | raised | cancelled => exact MediaExact.lose h hw
  | _ => exact ⟨h.1, hno h.2⟩

/-! ## The message -/

/-- With every removal a success, the handler removes the wav and the mp4. -/
theorem mediaFailed_removed (h : ∀ name ∈ mediaNames messageId, unlinked name = .removed) :
    mediaFailed messageId w e unlinked =
      (w.onFiles fun fs => fs.modify w.speakDir (Files.eraseAll [wavName messageId, mp4Name messageId]),
        yieldLast (.error (cut 200 ("media_failed: " ++ e.reason)))) := by
  have hstrays : removeStrays unlinked [wavName messageId, mp4Name messageId] =
      ([wavName messageId, mp4Name messageId], none) := by
    rw [removeStrays, h _ List.mem_cons_self]
    dsimp only
    rw [removeStrays, h _ (List.mem_cons_of_mem _ List.mem_cons_self)]
    rfl
  rw [mediaFailed, hstrays]

/-- The handler leaves nothing, if no side file is there. -/
theorem keepsMedia_mediaFailed (hready : ready = false) (hside : w.media (sideName messageId) = none)
    (h : ∀ name ∈ mediaNames messageId, unlinked name = .removed) :
    KeepsMedia messageId (mediaFailed messageId w e unlinked).1
      (ready || (mediaFailed messageId w e unlinked).2.sendsReady) taken (mediaFailed messageId w e unlinked).2 := by
  rw [mediaFailed_removed h, hready]
  refine MediaAbsent.exact (MediaAbsent.of_names ?_ ?_ ?_)
  · exact media_eraseAll_of_mem List.mem_cons_self
  · exact media_eraseAll_of_mem (List.mem_cons_of_mem _ List.mem_cons_self)
  · rw [media_eraseAll_of_not_mem, hside]
    simp only [List.mem_cons, List.not_mem_nil, or_false, not_or]
    exact ⟨wavName_ne_sideName.symm, mp4Name_ne_sideName.symm⟩

theorem keepsMedia_prepareSpeech {userText finalText : String} {a : AfterTextDone} (h : MediaAbsent messageId w)
    (hunlinked : ∀ name ∈ mediaNames messageId, a.unlinked name = .removed) :
    KeepsMedia messageId (prepareSpeech H messageId w userText finalText a).1
      (false || (prepareSpeech H messageId w userText finalText a).2.sendsReady) taken
      (prepareSpeech H messageId w userText finalText a).2 := by
  have happend : MediaAbsent messageId (w.appendHistory userText finalText a.now) := h
  have hmkdir :
      MediaAbsent messageId ((w.appendHistory userText finalText a.now).onFiles fun fs => fs.mkdir w.speakDir) :=
    fun name hname => get_mkdir.trans (h name hname)
  exact prepareSpeech_out (motive := fun out => KeepsMedia messageId out.1 (false || out.2.sendsReady) taken out.2)
    (fun _ => happend.exact) (fun _ => keepsMedia_mediaFailed rfl hmkdir.side hunlinked) fun _ _ => ⟨rfl, hmkdir⟩

theorem keepsMedia_pickSpeakPhoto {fault : Option Exc} (hmp4 : w.media (mp4Name messageId) = none)
    (hside : w.media (sideName messageId) = none)
    (hunlinked : ∀ name ∈ mediaNames messageId, unlinked name = .removed) :
    KeepsMedia messageId (pickSpeakPhoto H messageId w fault unlinked).1
      (false || (pickSpeakPhoto H messageId w fault unlinked).2.sendsReady) taken
      (pickSpeakPhoto H messageId w fault unlinked).2 :=
  pickSpeakPhoto_out (motive := fun out => KeepsMedia messageId out.1 (false || out.2.sendsReady) taken out.2)
    (fun _ => keepsMedia_mediaFailed rfl hside hunlinked) fun _ _ _ => ⟨rfl, hmp4, hside⟩

/-- The mp4 is there, and nothing else of the message. -/
theorem keepsMedia_speakRendered {photo : Picked} {o : Output} (hd : (w.persona.files.dir w.speakDir).isSome = true) :
    MediaExact messageId (speakRendered messageId w photo o .removed) true taken := by
  have hdir : ((w.persona.files.unlink w.speakDir (mp4Name messageId ++ ".tmp.mp4")).dir w.speakDir).isSome = true := by
    rw [Files.unlink, Files.dir_modify, Option.isSome_map]
    exact hd
  have hmp4 : ((speakRendered messageId w photo o .removed).media (mp4Name messageId)).isSome = true := by
    show Option.isSome (Files.get (Files.unlink _ w.speakDir _) w.speakDir _) = true
    rw [get_unlink_of_ne wavName_ne_mp4Name.symm, get_write_self hdir]
    rfl
  refine ⟨fun name hname hne => ?_, fun _ _ => hmp4⟩
  simp only [mediaNames, List.mem_cons, List.not_mem_nil, or_false] at hname
  rcases hname with rfl | rfl | rfl
  · exact get_unlink_self
  · exact absurd rfl (hne rfl)
  · show Files.get (Files.unlink _ w.speakDir _) w.speakDir _ = none
    rw [get_unlink_of_ne wavName_ne_sideName.symm, get_write_of_ne mp4Name_ne_sideName.symm]
    exact get_unlink_self

/-- After Ditto has failed, no side file is there. -/
theorem side_speakFailed {started : Bool} {removed : String → Bool}
    (h : RemovalsSucceed messageId w (.renderFailed e started removed unlinked)) :
    (speakFailed messageId w started removed).media (sideName messageId) = none := by
  have hmem : sideName messageId ∈ mediaNames messageId :=
    List.mem_cons_of_mem _ (List.mem_cons_of_mem _ List.mem_cons_self)
  cases started with
  | false => exact h.2
  | true =>
    refine media_eraseAll_of_mem (List.mem_filter.mpr ⟨?_, h.2 _ hmem⟩)
    exact List.mem_cons_of_mem _ List.mem_cons_self

/-- What the success path and the failures do keeps the files in order, one case for each arm. -/
theorem MessageBodyStep.keepsMedia {out : MessageWorld × MessagePc} (hstep : MessageBodyStep H messageId w pc ev out)
    (hremovals : RemovalsSucceed messageId w ev) (h : KeepsMedia messageId w ready taken pc) :
    KeepsMedia messageId out.1 (ready || out.2.sendsReady) taken out.2 := by
  cases hstep with
  | start | logCrisis | token | nextToken | logForbidden | forbiddenLogged | forbiddenLogFailed =>
    obtain ⟨rfl, hno⟩ := h
    exact ⟨rfl, hno⟩
  | transcribed =>
    obtain ⟨rfl, hno⟩ := h
    dsimp only
    exact inputGuard_cases (motive := fun pc => KeepsMedia messageId w (false || pc.sendsReady) taken pc)
      (fun _ => ⟨rfl, hno⟩) fun _ => ⟨rfl, hno⟩
  | transcribeFailed | crisisLogged | crisisLogFailed | streamFailed =>
    obtain ⟨rfl, hno⟩ := h
    exact hno.exact
  | @streamEnd reply =>
    have hplace := @outputGuard_place H messageId reply
    dsimp only
    generalize outputGuard H messageId reply = pc' at hplace ⊢
    obtain ⟨rfl, hno⟩ := h
    rcases hplace with ⟨userText, rfl⟩ | ⟨userText, text, rfl⟩
    · exact ⟨rfl, hno⟩
    · exact ⟨rfl, hno⟩
  | speech =>
    obtain ⟨rfl, hno⟩ := h
    exact keepsMedia_prepareSpeech hno hremovals.1
  | acquireGpu =>
    obtain ⟨rfl, hno⟩ := h
    exact ⟨rfl, hno.mp4, hno.side⟩
  | speechFolder =>
    obtain ⟨rfl, hmp4, hside⟩ := h
    exact ⟨rfl, get_mkdir.trans hmp4, get_mkdir.trans hside⟩
  | speechOutput =>
    obtain ⟨rfl, hmp4, hside⟩ := h
    exact ⟨rfl, (media_write_of_ne wavName_ne_mp4Name.symm).trans hmp4,
      (media_write_of_ne wavName_ne_sideName.symm).trans hside⟩
  | synthesized =>
    obtain ⟨rfl, hmp4, hside⟩ := h
    exact keepsMedia_pickSpeakPhoto ((media_write_of_ne wavName_ne_mp4Name.symm).trans hmp4)
      ((media_write_of_ne wavName_ne_sideName.symm).trans hside) hremovals.1
  | synthesizeFailed | folderFailed =>
    obtain ⟨rfl, hmp4, hside⟩ := h
    exact keepsMedia_mediaFailed rfl hside hremovals.1
  | acquireDitto =>
    obtain ⟨rfl, hmp4, hside⟩ := h
    exact rfl
  | renderFolder | renderOutput =>
    cases h
    exact rfl
  | rendered hd =>
    cases h
    cases hremovals.2
    exact keepsMedia_speakRendered hd
  | renderFailed =>
    cases h
    exact keepsMedia_mediaFailed rfl (side_speakFailed hremovals) hremovals.1
  | finish =>
    show MediaExact messageId w (ready || false) taken
    rw [Bool.or_false]
    exact h
  | unwound | finalised =>
    obtain ⟨rfl, hno⟩ := h
    exact hno.exact

/-- An interruption that finds nothing leaves the files in order. -/
theorem MessageInterrupted.keepsMedia {out : MessageWorld × MessagePc}
    (hstep : MessageInterrupted messageId w pc ev out)
    (h : KeepsMedia messageId w ready taken pc) (hok : LeavesNothing messageId ⟨w, pc, ready, taken⟩ (.message ev)) :
    KeepsMedia messageId out.1 (ready || out.2.sendsReady) taken out.2 := by
  cases hstep with
  | streaming | token =>
    obtain ⟨rfl, hno⟩ := h
    exact ⟨rfl, hno⟩
  | waitingDitto =>
    obtain ⟨rfl, -⟩ := h
    exact MediaAbsent.exact hok
  | @synthesizing speech started removed =>
    obtain ⟨rfl, -⟩ := h
    refine MediaAbsent.exact fun name hname => ?_
    cases started <;> exact hok name hname
  | @rendering photo started removed =>
    cases h
    refine MediaAbsent.exact fun name hname => ?_
    cases started with
    | false => exact (hok name hname).elim id fun h => by cases h.1
    | true =>
      show (speakFailed messageId w true removed).media name = none
      by_cases hmem : name ∈ [mp4Name messageId, sideName messageId].filter removed
      · exact media_eraseAll_of_mem hmem
      · refine (media_eraseAll_of_not_mem hmem).trans ((hok name hname).elim id fun h => absurd h.2 hmem)
  | last =>
    show MediaExact messageId w (ready || false) taken
    rw [Bool.or_false]
    exact h
  | _ =>
    obtain ⟨rfl, hno⟩ := h
    exact hno.exact

/-- An interruption after which nothing is there has found nothing. -/
theorem MessageInterrupted.leavesNothing {out : MessageWorld × MessagePc}
    (hstep : MessageInterrupted messageId w pc ev out) (h : KeepsMedia messageId w ready taken pc)
    (hexact : out.2.ended = true → MediaExact messageId out.1 (ready || out.2.sendsReady) taken) :
    LeavesNothing messageId ⟨w, pc, ready, taken⟩ (.message ev) := by
  have hno : ready = false → out.2 = .cancelled → MediaAbsent messageId out.1 := by
    rintro rfl hpc name hname
    rw [hpc] at hexact
    exact (hexact rfl).stray name hname fun h => by cases h
  cases hstep with
  | waitingDitto => exact hno h.1 rfl
  | @synthesizing speech started removed =>
    intro name hname
    have hgone := hno h.1 rfl name hname
    cases started <;> exact hgone
  | @rendering photo started removed =>
    intro name hname
    have hgone := hno h rfl name hname
    cases started with
    | false => exact .inl hgone
    | true =>
      by_cases hmem : name ∈ [mp4Name messageId, sideName messageId].filter removed
      · exact .inr ⟨rfl, hmem⟩
      · exact .inl ((media_eraseAll_of_not_mem (w := w) hmem).symm.trans hgone)
  | _ => exact trivial

/-- What an interrupted message leaves running is its TTS or its render. -/
theorem MessageInterrupted.orphans {out : MessageWorld × MessagePc} (hstep : MessageInterrupted messageId w pc ev out)
    {o : Orphan} (ho : o ∈ out.1.persona.orphans) : o ∈ w.persona.orphans ∨ out.2 = .cancelled ∧
      o.makesFolder = true ∧ ((∃ speech, pc = .synthesizing speech) ∨ ∃ photo, pc = .rendering photo) := by
  cases hstep with
  | @synthesizing speech started removed =>
    cases started with
    | false => exact .inl ho
    | true =>
      rcases PersonaWorld.mem_leave.mp ho with ho | rfl
      · exact .inl ho
      · exact .inr ⟨rfl, rfl, .inl ⟨speech, rfl⟩⟩
  | @rendering photo started removed =>
    cases started with
    | false => exact .inl ho
    | true =>
      rcases PersonaWorld.mem_leave.mp ho with ho | rfl
      · have hsame : (speakFailed messageId w true removed).persona.orphans = w.persona.orphans := speakFailed_frame.2
        exact .inl (hsame ▸ ho)
      · exact .inr ⟨rfl, rfl, .inr ⟨photo, rfl⟩⟩
  | _ => exact .inl ho

theorem mem_removeStrays {strays : List String} {stray : String} (h : stray ∈ (removeStrays unlinked strays).1) :
    stray ∈ strays := by
  induction strays with
  | nil => cases h
  | cons first strays ih =>
    rw [removeStrays] at h
    split at h
    · rcases List.mem_cons.mp h with rfl | h
      · exact List.mem_cons_self
      · exact List.mem_cons_of_mem _ (ih h)
    · exact List.mem_cons_of_mem _ (ih h)
    · cases h

theorem other_mediaFailed {name : String} (hname : name ∉ mediaNames messageId) :
    (mediaFailed messageId w e unlinked).1.media name = w.media name := by
  refine media_eraseAll_of_not_mem fun hmem => hname ?_
  rcases List.mem_cons.mp (mem_removeStrays hmem) with rfl | hmem
  · exact List.mem_cons_self
  · rw [List.mem_singleton.mp hmem]
    exact List.mem_cons_of_mem _ List.mem_cons_self

theorem other_speakFailed {started : Bool} {removed : String → Bool} {name : String}
    (hname : name ∉ mediaNames messageId) :
    (speakFailed messageId w started removed).media name = w.media name := by
  unfold speakFailed
  split
  · refine media_eraseAll_of_not_mem fun hmem => hname ?_
    exact List.mem_cons_of_mem _ (List.mem_of_mem_filter hmem)
  · rfl

theorem other_speakRendered {photo : Picked} {o : Output} {wav : Unlinked} {name : String}
    (hname : name ∉ mediaNames messageId) :
    (speakRendered messageId w photo o wav).media name = w.media name := by
  simp only [mediaNames, List.mem_cons, List.not_mem_nil, or_false, not_or] at hname
  obtain ⟨hwav, hmp4, hside⟩ := hname
  have hwritten : ((w.persona.files.unlink w.speakDir (mp4Name messageId ++ ".tmp.mp4")).write w.speakDir
      (mp4Name messageId) ⟨o.now, o.content, .render photo true⟩).get w.speakDir name = w.media name :=
    (get_write_of_ne hmp4).trans (get_unlink_of_ne hside)
  show Files.get (if wav = .removed then _ else _) w.speakDir name = _
  split
  · exact (get_unlink_of_ne hwav).trans hwritten
  · exact hwritten

/-- A message changes no file but its three, one case for each arm that changes any. -/
theorem MessageBodyStep.media_of_not_mem {out : MessageWorld × MessagePc} {name : String}
    (hstep : MessageBodyStep H messageId w pc ev out) (hname : name ∉ mediaNames messageId) :
    out.1.media name = w.media name := by
  have hwav : name ≠ wavName messageId := fun heq => hname (heq ▸ List.mem_cons_self)
  cases hstep with
  | speech =>
    exact prepareSpeech_out (motive := fun out => out.1.media name = w.media name) (fun _ => rfl)
      (fun _ => (other_mediaFailed hname).trans get_mkdir) fun _ _ => get_mkdir
  | speechFolder | acquireDitto | renderFolder => exact get_mkdir
  | speechOutput => exact media_write_of_ne hwav
  | synthesized =>
    exact pickSpeakPhoto_out (motive := fun out => out.1.media name = w.media name)
      (fun _ => (other_mediaFailed hname).trans (media_write_of_ne hwav)) fun _ _ _ => media_write_of_ne hwav
  | synthesizeFailed | folderFailed => exact other_mediaFailed hname
  | @renderOutput photo side o =>
    refine media_write_of_ne fun heq => hname ?_
    rw [heq]
    cases side with
    | true => exact List.mem_cons_of_mem _ (List.mem_cons_of_mem _ List.mem_cons_self)
    | false =>
      rw [if_neg Bool.false_ne_true, String.append_empty]
      exact List.mem_cons_of_mem _ List.mem_cons_self
  | rendered =>
    exact finishSpeech_out (motive := fun out => out.1.media name = w.media name)
      (fun _ => (other_mediaFailed hname).trans (other_speakRendered hname)) (other_speakRendered hname)
  | renderFailed => exact (other_mediaFailed hname).trans (other_speakFailed hname)
  | _ => rfl

theorem media_of_not_mem {out : MessageWorld × MessagePc} {name : String}
    (hstep : messageStep H messageId w pc ev = some out) (hname : name ∉ mediaNames messageId) :
    out.1.media name = w.media name := by
  rcases messageStep_cases hstep with hstep | hstep
  · exact hstep.media_of_not_mem hname
  · cases hstep with
    | synthesizing =>
      dsimp only
      split <;> rfl
    | rendering =>
      dsimp only
      split
      · exact other_speakFailed (w := w) hname
      · rfl
    | _ => rfl

end

/-! ## What is left running, and the other requests -/

section
variable {H : Host} {messageId : Uuid} {w : MessageWorld} {p : PersonaWorld} {k : Nat} {act : OrphanAct}

theorem get_keeping {fs : Files} {keep : Folder → String → Bool} {f : Folder} {name : String} :
    (fs.keeping keep).get f name = none ∨ (fs.keeping keep).get f name = fs.get f name := by
  rw [Files.get, Files.dir_keeping, Files.get]
  cases fs.dir f with
  | none => exact .inl rfl
  | some d =>
    by_cases hmem : name ∈ d.keys.filter fun name => !keep f name
    · exact .inl (fileIn_eraseAll_of_mem (d := some d) hmem)
    · exact .inr (fileIn_eraseAll_of_not_mem (d := some d) hmem)

theorem get_removed {o : Orphan} {fs : Files} {f : Folder} {name : String} :
    (o.removed fs).get f name = none ∨ (o.removed fs).get f name = fs.get f name := by
  unfold Orphan.removed
  split
  · exact .inl rfl
  · rename_i sub
    by_cases hf : f = sub
    · subst hf
      rw [Files.get, Files.dir_rmdir]
      exact .inl rfl
    · exact .inr (get_of_dir (Files.dir_rmdir_of_ne hf))
  · exact .inr rfl

theorem get_mkdir_write_of_ne {fs : Files} {b : Bool} {f f' : Folder} {name other : String} {file : File}
    (h : ¬ (f' = f ∧ other = name)) :
    ((if b then fs.mkdir f else fs).write f name file).get f' other = fs.get f' other := by
  have hmkdir : (if b then fs.mkdir f else fs).get f' other = fs.get f' other := by
    split
    · exact get_mkdir
    · rfl
  by_cases hf : f' = f
  · subst hf
    rw [get_write_of_ne fun hname => h ⟨rfl, hname⟩, hmkdir]
  · exact (get_of_dir (Files.dir_modify_of_ne hf)).trans hmkdir

theorem writesMedia_of_path {o : Orphan} {side : Bool} {dir : Folder} {name : String}
    (hpath : o.path side = some (dir, name)) (hname : name ∈ mediaNames messageId) :
    o.writesMedia messageId dir side = true :=
  List.any_eq_true.mpr ⟨name, hname, decide_eq_true hpath⟩

/-- What is left running, if it writes no file of the message, takes files away at most. -/
theorem orphan_lose (hstep : w.persona.orphanStep k act = some p) {s : MediaState} (hw : s.world = w)
    (hok : LeavesNothing messageId s (.orphan k act)) : ∀ name ∈ mediaNames messageId,
      ({ w with persona := p } : MessageWorld).media name = none ∨
        ({ w with persona := p } : MessageWorld).media name = w.media name := by
  intro name hname
  obtain ⟨orphan, hk, h⟩ := Option.bind_eq_some_iff.mp hstep
  split at h
  case h_1 side o sub target origin hwrites =>
    cases h
    refine .inr (get_mkdir_write_of_ne fun heq => ?_)
    have hwritten : (!orphan.writesMedia messageId w.speakDir side) = true := by
      subst hw
      exact Option.all_eq_true _ _ |>.mp hok _ hk
    obtain ⟨hdir, hfile⟩ : w.speakDir = sub ∧ name = target ++ if side then orphan.side else "" := heq
    have hpath : orphan.path side = some (w.speakDir, name) := by
      rw [Orphan.path, hwrites, hdir, hfile]
      rfl
    rw [writesMedia_of_path hpath hname] at hwritten
    cases hwritten
  case h_2 => cases h; exact get_keeping
  case h_3 => cases h; exact .inr rfl
  case h_4 => cases h; exact get_removed
  case h_5 => cases h

/-- The TTS or a render that is left running makes its file. -/
theorem orphan_writes {side : Bool} {out : Output} (hstep : w.persona.orphanStep k (.write side out) = some p)
    {o : Orphan} (hk : w.persona.orphans[k]? = some o) (hmakes : o.makesFolder = true)
    (hwrites : o.writesMedia messageId w.speakDir side = true) :
    ∃ name ∈ mediaNames messageId, (({ w with persona := p } : MessageWorld).media name).isSome = true := by
  obtain ⟨name, hname, hpath⟩ := List.any_eq_true.mp hwrites
  obtain ⟨⟨sub, target, origin⟩, ht, heq⟩ := Option.map_eq_some_iff.mp (of_decide_eq_true hpath)
  cases heq
  refine ⟨_, hname, ?_⟩
  rw [PersonaWorld.orphanStep, hk, Option.bind_some, ht, hmakes] at hstep
  cases hstep
  have hdir : ((w.persona.files.mkdir w.speakDir).dir w.speakDir).isSome = true := by
    rw [Files.dir_mkdir]
    rfl
  exact has_write_self hdir

end

/-! ## One step of a run -/

section
variable {H : Host} {messageId : Uuid} {s t : MediaState} {e : MediaEvent}

theorem mediaInv_message {ev : MessageEvent} {out : MessageWorld × MessagePc} (h : MediaInv messageId s)
    (hremovals : RemovalsSucceed messageId s.world ev)
    (hstep : messageStep H messageId s.world s.pc ev = some out) (hok : LeavesNothing messageId s (.message ev)) :
    MediaInv messageId ⟨out.1, out.2, s.ready || out.2.sendsReady, s.taken⟩ := by
  obtain ⟨w, pc, ready, taken⟩ := s
  have hdir : out.1.speakDir = w.speakDir := congrArg Folder.speak (messageStep_frame hstep).sessionId
  have hnone : ∀ o ∈ w.persona.orphans, ∀ side, o.writesMedia messageId w.speakDir side = true → pc = .cancelled :=
    fun o ho side hwrites => (h.orphans o ho side hwrites).1
  have hover : pc ≠ .cancelled := by
    rintro rfl
    cases ev <;> cases hstep
  rcases messageStep_cases hstep with hbody | hinterrupted
  · refine ⟨hbody.keepsMedia hremovals h.keeps, fun o ho side hwrites => ?_⟩
    dsimp only at ho hwrites
    rw [hbody.orphans] at ho
    rw [hdir] at hwrites
    exact absurd (hnone o ho side hwrites) hover
  · refine ⟨hinterrupted.keepsMedia h.keeps hok, fun o ho side hwrites => ?_⟩
    dsimp only at ho hwrites
    rw [hdir] at hwrites
    rcases hinterrupted.orphans ho with ho | ⟨hpc, hmakes, hplace⟩
    · exact absurd (hnone o ho side hwrites) hover
    · refine ⟨hpc, ?_, hmakes⟩
      dsimp only
      have hready : ready = false := by
        rcases hplace with ⟨speech, hpc'⟩ | ⟨photo, hpc'⟩
        · cases hpc'
          exact h.keeps.1
        · cases hpc'
          exact h.keeps
      rw [hready, hpc]
      rfl

/-- Every step that meets the condition keeps the invariant. -/
theorem mediaInv_step (h : MediaInv messageId s) (hok : LeavesNothing messageId s e)
    (hstep : (mediaSystem messageId H).step s e = some t) : MediaInv messageId t := by
  cases e with
  | message ev =>
    dsimp only [mediaSystem] at hstep
    split at hstep
    · rename_i hremovals
      obtain ⟨out, hout, rfl⟩ := Option.map_eq_some_iff.mp hstep
      exact mediaInv_message h hremovals hout hok
    · cases hstep
  | orphan k act =>
    obtain ⟨p, hp, rfl⟩ := Option.map_eq_some_iff.mp hstep
    refine ⟨h.keeps.lose (orphan_lose hp rfl hok), fun o ho side hwrites => ?_⟩
    exact h.orphans o ((orphanStep_inv hp).orphans ho) side hwrites
  | others w =>
    dsimp only [mediaSystem] at hstep
    split at hstep
    · rename_i helse
      cases hstep
      refine ⟨h.keeps.lose helse.2.1, fun o ho side hwrites => ?_⟩
      dsimp only at ho hwrites
      rw [helse.1] at hwrites
      rcases helse.2.2 o ho with ho | ⟨hfile, hside⟩
      · exact h.orphans o ho side hwrites
      · cases side with
        | false => rw [hfile] at hwrites; cases hwrites
        | true => rw [hside] at hwrites; cases hwrites
    · cases hstep

/-- A step after which the files are in order meets the condition. -/
theorem leavesNothing_of_exact (h : MediaInv messageId s) (hstep : (mediaSystem messageId H).step s e = some t)
    (hexact : t.pc.ended = true → MediaExact messageId t.world t.ready t.taken) : LeavesNothing messageId s e := by
  cases e with
  | message ev =>
    dsimp only [mediaSystem] at hstep
    split at hstep
    · obtain ⟨out, hout, rfl⟩ := Option.map_eq_some_iff.mp hstep
      obtain ⟨w, pc, ready, taken⟩ := s
      rcases messageStep_cases hout with hbody | hinterrupted
      · cases hbody <;> exact trivial
      · exact hinterrupted.leavesNothing h.keeps hexact
    · cases hstep
  | orphan k act =>
    obtain ⟨p, hp, rfl⟩ := Option.map_eq_some_iff.mp hstep
    cases act with
    | write side o =>
      refine (Option.all_eq_true _ _).mpr fun orphan hk => ?_
      rw [Bool.not_eq_true', Bool.eq_false_iff]
      intro hwrites
      obtain ⟨hpc, hready, hmakes⟩ := h.orphans orphan (List.mem_of_getElem? hk) side hwrites
      obtain ⟨name, hname, hthere⟩ := orphan_writes hp hk hmakes hwrites
      have hgone := (hexact (by dsimp only; rw [hpc]; rfl)).stray name hname fun hr => by
        dsimp only at hr
        rw [hready] at hr
        cases hr
      rw [hgone] at hthere
      cases hthere
    | remove | exit => exact trivial
  | others w => exact trivial

end

/-! ## Main results -/

/-- In a run, a message that is over has left exactly its files. -/
def FilesExact (H : Host) (messageId : Uuid) (start : MediaState) (es : List MediaEvent) : Prop :=
  ∀ es₁ t, es₁ <+: es → (mediaSystem messageId H).exec anyStep start es₁ = some t → t.pc.ended = true →
    MediaExact messageId t.world t.ready t.taken

/-- A message for a persona with its voice and its photo, up to the wav. -/
def toDitto : List MediaEvent :=
  ([.pull cleanTextDone, .transcribed "안녕", .token "응", .pull cleanTextDone, .streamEnd, .pull cleanTextDone, .acquire,
    .makeFolder, .synthesized ⟨102, .bytes riff⟩ none fun _ => .removed] : List MessageEvent).map .message

/-- The start of that message. -/
def beforeMedia : MediaState :=
  ⟨{ sampleMessageWorld with persona := { samplePersona with files := sampleFiles } }, .created, false, false⟩

theorem freshMedia_beforeMedia : FreshMedia 9 beforeMedia :=
  ⟨rfl, rfl, fun _ _ => rfl, fun _ ho => by cases ho⟩

/-- It is rendered, and sends `media_ready`. -/
def rendered : List MediaEvent :=
  toDitto ++ [.message .acquire, .message (.rendered ⟨103, .bytes [0x4d]⟩ .removed fun _ => .removed),
    .message (.pull cleanTextDone)]

end YeounEngine
