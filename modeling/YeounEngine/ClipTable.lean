import YeounEngine.NewestUploads

/-!
# The rows of the idle clips

A run keeps every clip that it finds, but it inserts a row with a new id for each clip all the same, and
nothing in `persona_idle_clips` is unique or removed. So the rows are those of one run only when an earlier
run has not inserted any: `InsertsIntoEmpty` is that condition, and `ClipTable` what it saves.

The clips themselves are followed by `ClipsAt`, for any property of their content that a rendered clip and
a clip that is not empty have.

Without the condition `rows_doubled` fails a run at its last status update, tries again, and ends in
`READY` with two rows for each clip.
-/

namespace YeounEngine

open Transition

/-! ## The property -/

/-- The rows are those of the first `n` clips, each once, and each names its file. -/
def Listed (H : Host) (w : PersonaWorld) (n : Nat) : Prop :=
  w.idleClips.map IdleClip.sequenceOrder = List.range n ∧
    ∀ c ∈ w.idleClips, c.filesystemPath = H.folderPath w.id .idle ++ "/" ++ idleName c.sequenceOrder

/-- There is one row for each clip, and it names a file that exists. -/
def ClipTable (H : Host) (w : PersonaWorld) : Prop :=
  Listed H w idleCount ∧ ∀ i < idleCount, w.files.has .idle (idleName i) = true

instance (H : Host) (w : PersonaWorld) : Decidable (ClipTable H w) :=
  inferInstanceAs (Decidable ((_ ∧ ∀ c ∈ w.idleClips, _) ∧ ∀ i < idleCount, _))

/-! ## The condition -/

/-- The next statement of the run inserts its first row. -/
def CreationTask.listsFirst : CreationTask → Bool
  | .run r => r.pc = .inserting 0 false
  | .upload _ _ => false

/-- A run inserts its first row only while the persona has none. -/
def InsertsIntoEmpty (s : Solo PersonaWorld CreationTask) :
    Event CreationTask CreationEvent CreationEnv → Prop
  | .run _ (.run (.apply _)) =>
    s.current.any CreationTask.listsFirst = true → s.world.idleClips = []
  | _ => True

instance (s : Solo PersonaWorld CreationTask)
    (e : Event CreationTask CreationEvent CreationEnv) : Decidable (InsertsIntoEmpty s e) :=
  match e with
  | .run _ (.run (.apply _)) => inferInstanceAs (Decidable (_ = true → s.world.idleClips = []))
  | .run _ (.run .start) | .run _ (.run (.lock _)) | .run _ (.run .resume) | .run _ (.run .spawned)
  | .run _ (.run (.output _ _)) | .run _ (.run (.exit _)) | .run _ (.run (.communicated _))
  | .run _ (.run .acquire) | .run _ (.run (.transcribed _ _)) | .run _ (.run (.rendered _ _))
  | .run _ (.run (.renderFailed _ _ _)) | .run _ (.run (.fail _)) | .run _ (.run (.cancel _ _))
  | .run _ (.upload _) | .arrive _ | .env _ => inferInstanceAs (Decidable True)

/-! ## The clips of a run -/

/-- The clip exists, and `P` holds of its content. -/
def ClipHas (P : Content → Bool) (w : PersonaWorld) (i : Nat) : Prop :=
  ∃ file, w.files.get .idle (idleName i) = some file ∧ P file.content = true

/-- The clips that are done at this point of a run. -/
def ClipsAt (P : Content → Bool) (w : PersonaWorld) : RunPc → Prop
  | .waitingDitto i | .rendering i => i < idleCount ∧ ∀ j < i, ClipHas P w j
  | .inserting _ _ | .setReady | .updReady _ => ∀ j < idleCount, ClipHas P w j
  | _ => True

section
variable {H : Host} {w w' : PersonaWorld} {r r' : Run} {P : Content → Bool}

theorem ClipHas.of_get {i : Nat} (h : ClipHas P w i)
    (hget : w'.files.get .idle (idleName i) = w.files.get .idle (idleName i)) : ClipHas P w' i := by
  obtain ⟨file, hfile, hP⟩ := h
  exact ⟨file, hget.trans hfile, hP⟩

/-- A change that keeps the clips keeps those that are done. -/
theorem ClipsAt.mono {pc : RunPc} (h : ClipsAt P w pc) (kept : ∀ j, ClipHas P w j → ClipHas P w' j) :
    ClipsAt P w' pc := by
  cases pc with
  | waitingDitto | rendering => exact ⟨h.1, fun j hj => kept j (h.2 j hj)⟩
  | inserting | setReady | updReady => exact fun j hj => kept j (h j hj)
  | _ => trivial

theorem clipHas_of_nonempty (hP : ∀ c : Content, c.nonempty = true → P c = true) {i : Nat}
    (h : w.files.hasNonempty .idle (idleName i) = true) : ClipHas P w i := by
  obtain ⟨file, hfile, hne⟩ := (Option.any_eq_true _ _).mp h
  exact ⟨file, hfile, hP _ hne⟩

/-- The loop goes on to a clip that is missing, or to the rows: what it passes is done. -/
theorem clipsAt_nextClip (hP : ∀ c : Content, c.nonempty = true → P c = true) {n : Nat}
    (hn : n ≤ idleCount) (h : ∀ j < n, ClipHas P w j) : ClipsAt P w (nextClip w.files n) := by
  have done : ∀ k, (n ≤ k → w.files.hasNonempty .idle (idleName k) = true) → ClipHas P w k := by
    intro k hk
    rcases Nat.lt_or_ge k n with hkn | hnk
    · exact h k hkn
    · exact clipHas_of_nonempty hP (hk hnk)
  rcases nextClip_spec w.files n hn with ⟨j, heq, -, hlt, hkept⟩ | ⟨heq, hkept⟩
  · rw [heq]
    exact ⟨hlt, fun k hk => done k fun hnk => hkept k hnk hk⟩
  · rw [heq]
    exact fun k hk => done k fun hnk => hkept k hnk hk

theorem clipsAt_orFail {fault : Option Exc} {k : PersonaWorld × Run}
    (h : ClipsAt P k.1 k.2.pc) :
    ClipsAt P (orFail w r fault k).1 (orFail w r fault k).2.pc := by
  cases fault with
  | some e => trivial
  | none => exact h

/-- The run has not come to the clips. -/
def RunPc.beforeClips : RunPc → Bool
  | .setSelecting | .setExtracting | .spawning | .ffmpeg _ | .setTranscribing | .waitingGpu
  | .transcribing _ => true
  | _ => false

theorem clipsAt_of_edge {pc pc' : RunPc} (h : RunEdge pc pc') (hpc : pc.beforeClips = true) :
    ClipsAt P w pc' := by
  cases h <;> trivial

theorem clipsAt_renderIdleClips (hP : ∀ c : Content, c.nonempty = true → P c = true) :
    ClipsAt P (renderIdleClips H w r).1 (renderIdleClips H w r).2.pc := by
  rw [renderIdleClips]
  split
  · trivial
  · exact clipsAt_nextClip hP (Nat.zero_le _) fun j hj => absurd hj (Nat.not_lt_zero j)

/-- Ditto writes its own target, or the side file of it: the clips before stay. -/
theorem idleOutput_clip {photo : Picked} {i j : Nat} {side : Bool} {o : Output} (hi : i < idleCount)
    (hj : j < i) :
    (idleOutput w photo i side o).files.get .idle (idleName j) = w.files.get .idle (idleName j) := by
  have hne := idleName_ne j (by omega) i hi
  change fileIn (Files.dir (Files.modify _ _ _) _) _ = _
  rw [Files.dir_modify]
  refine fileIn_insert_of_ne ?_
  cases side with
  | true => exact hne.1
  | false =>
    have hname : idleName i ++ (if false = true then ".tmp.mp4" else "") = idleName i := by simp
    rw [hname]
    exact hne.2 (by omega)

/-- The clip that Ditto has rendered is there, and the others stay. -/
theorem ClipHas.rendered {photo : Picked} {i : Nat} {o : Output} (hi : i < idleCount)
    (hd : (w.files.dir .idle).isSome = true) (hP : P o.content = true) (h : ∀ j < i, ClipHas P w j) :
    ∀ j < i + 1, ClipHas P (idleRendered w photo i o) j := by
  have hdir : (idleRendered w photo i o).files.dir .idle = _ :=
    Files.dir_modify.trans (congrArg (Option.map _) Files.dir_modify)
  intro j hj
  rcases Nat.lt_succ_iff_lt_or_eq.mp hj with hlt | rfl
  · refine (h j hlt).of_get ?_
    have hne := idleName_ne j (by omega) i hi
    rw [Files.get, hdir, fileIn_insert_of_ne (hne.2 (by omega)), fileIn_erase_of_ne hne.1]
    rfl
  · refine ⟨⟨o.now, o.content, .render photo true⟩, ?_, hP⟩
    rw [Files.get, hdir]
    exact fileIn_insert_self (by rw [Option.isSome_map]; exact hd)

/-- What Ditto renders in the step. -/
def RunEvent.renders : RunEvent → Option Content
  | .rendered o _ => some o.content
  | _ => none

/-- The success path keeps the clips that are done. -/
theorem BodyStep.clipsAt {pc : RunPc} {ev : RunEvent} {out : PersonaWorld × Run}
    (h : BodyStep H w r pc ev out) (hP : ∀ c : Content, c.nonempty = true → P c = true)
    (hr : ∀ c ∈ ev.renders, P c = true) (hat : ClipsAt P w pc) : ClipsAt P out.1 out.2.pc := by
  have hedge := h.edge
  cases h with
  | select | extract | trimDone | transcribe | transcribed => exact clipsAt_of_edge hedge rfl
  | render => exact clipsAt_orFail (clipsAt_renderIdleClips hP)
  | acquireDitto | renderSpawned => exact ⟨hat.1, fun j hj => (hat.2 j hj).of_get get_mkdir⟩
  | renderOutput => exact ⟨hat.1, fun j hj => (hat.2 j hj).of_get (idleOutput_clip hat.1 hj)⟩
  | rendered hp hd =>
    refine clipsAt_orFail (clipsAt_nextClip hP hat.1 (ClipHas.rendered hat.1 hd ?_ hat.2))
    exact hr _ rfl
  | insert | ready | setReady => exact hat
  | inserted =>
    dsimp only [Run.goto]
    split <;> exact hat
  | _ => trivial

/-- In a handler, and after the run, no clip is needed. -/
theorem Interrupted.clipsAt {out : PersonaWorld × Run} (h : Interrupted w r out) :
    ClipsAt P out.1 out.2.pc :=
  h.stopped (motive := ClipsAt P out.1) trivial (fun _ => trivial) trivial trivial (fun _ => trivial) trivial

/-- One step of a run keeps the clips that are done. -/
theorem runStep_clipsAt {ev : RunEvent} (h : runStep H w r ev = some (w', r'))
    (hP : ∀ c : Content, c.nonempty = true → P c = true) (hr : ∀ c ∈ ev.renders, P c = true)
    (hat : ClipsAt P w r.pc) : ClipsAt P w' r'.pc := by
  rcases runStep_cases h with h | ⟨-, h⟩
  · exact h.clipsAt hP hr hat
  · exact h.clipsAt

end

/-! ## The rows of a run -/

/-- The rows at this point of a run, once it has inserted one. -/
def RowsAt (H : Host) (w : PersonaWorld) : RunPc → Prop
  | .inserting i applied =>
    i < idleCount ∧ (0 < i + applied.toNat → Listed H w (i + applied.toNat))
  | .setReady | .updReady _ => Listed H w idleCount
  | _ => True

section
variable {H : Host} {w w' : PersonaWorld} {r r' : Run}

/-- A segment that writes files only keeps the rows. -/
theorem Works.rows {out : PersonaWorld × Run} (h : Works w out) :
    out.1.id = w.id ∧ out.1.idleClips = w.idleClips := by
  rw [h.1]
  exact ⟨rfl, rfl⟩

/-- The success path inserts a row where it says so, and changes none elsewhere. -/
theorem BodyStep.rows {pc : RunPc} {ev : RunEvent} {out : PersonaWorld × Run}
    (h : BodyStep H w r pc ev out) :
    out.1.id = w.id ∧ (out.1.idleClips = w.idleClips ∨
      ∃ i id, pc = .inserting i false ∧ ev = .apply id ∧
        out.1.idleClips = w.idleClips ++ [idleClip H w id i]) := by
  have of_works : ∀ (v : PersonaWorld) {out : PersonaWorld × Run}, Works v out → v.id = w.id →
      v.idleClips = w.idleClips → out.1.id = w.id ∧ (out.1.idleClips = w.idleClips ∨
        ∃ i id, pc = .inserting i false ∧ ev = .apply id ∧
          out.1.idleClips = w.idleClips ++ [idleClip H w id i]) :=
    fun v out hw hid hclips => ⟨hw.rows.1.trans hid, .inl (hw.rows.2.trans hclips)⟩
  cases h with
  | select => exact of_works (w.setStep _ _) (works_orFail works_selectVoice) rfl rfl
  | extract => exact of_works (w.setStep _ _) (works_orFail works_prepareVoiceRef) rfl rfl
  | transcribe => exact of_works (w.setStep _ _) (works_orFail works_transcribeVoice) rfl rfl
  | render => exact of_works (w.setStep _ _) (works_orFail works_renderIdleClips) rfl rfl
  | trimDone => exact of_works w works_finishTrim rfl rfl
  | transcribed => exact of_works w works_saveRefText rfl rfl
  | rendered =>
    exact of_works (idleRendered w _ _ _) (works_orFail (works_goto phase_nextClip rfl)) rfl rfl
  | renderFailed =>
    rw [idleFailed]
    split <;> exact ⟨rfl, .inl rfl⟩
  | insert => exact ⟨rfl, .inr ⟨_, _, rfl, rfl, rfl⟩⟩
  | _ => exact ⟨rfl, .inl rfl⟩

theorem Interrupted.rows {out : PersonaWorld × Run} (h : Interrupted w r out) :
    out.1.id = w.id ∧ out.1.idleClips = w.idleClips := by
  cases h with
  | @rendering _ i _ unlinked =>
    change (idleFailed w i true unlinked).id = w.id ∧ (idleFailed w i true unlinked).idleClips = _
    rw [idleFailed]
    exact ⟨rfl, rfl⟩
  | _ => exact ⟨rfl, rfl⟩

theorem Listed.of_rows {n : Nat} (h : Listed H w n) (hid : w'.id = w.id)
    (hclips : w'.idleClips = w.idleClips) : Listed H w' n := by
  rw [Listed, hid, hclips]
  exact h

theorem listed_nil (h : w.idleClips = []) : Listed H w 0 := by
  rw [Listed, h]
  exact ⟨rfl, fun c hc => by cases hc⟩

/-- One more row. -/
theorem Listed.insert {n : Nat} (h : Listed H w n) (id : Uuid) :
    Listed H (w.insertPersonaIdleClip (idleClip H w id n)) (n + 1) := by
  obtain ⟨horders, hpaths⟩ := h
  refine ⟨?_, fun c hc => ?_⟩
  · change (w.idleClips ++ [idleClip H w id n]).map IdleClip.sequenceOrder = _
    rw [List.map_append, horders, List.range_succ]
    rfl
  · rcases List.mem_append.mp hc with hc | hc
    · exact hpaths c hc
    · cases List.mem_singleton.mp hc
      rfl

/-- The run inserts its rows, or has inserted them. -/
def RunPc.lists : RunPc → Bool
  | .inserting _ _ | .setReady | .updReady _ => true
  | _ => false

theorem rowsAt_of_edge {pc pc' : RunPc} (h : RunEdge pc pc') (hpc : pc.lists = false) :
    RowsAt H w pc' := by
  have hnext : ∀ fs n, RowsAt H w (nextClip fs n) := by
    intro fs n
    rw [nextClip]
    split
    · trivial
    · exact ⟨by decide, fun h => absurd h (Nat.lt_irrefl 0)⟩
  cases h <;> first | trivial | exact hnext _ _

/-- The success path keeps the rows, when its first one is inserted while there is none. -/
theorem BodyStep.rowsAt {pc : RunPc} {ev : RunEvent} {out : PersonaWorld × Run}
    (h : BodyStep H w r pc ev out)
    (hfirst : pc = .inserting 0 false → (∃ id, ev = .apply id) → w.idleClips = [])
    (hat : RowsAt H w pc) : RowsAt H out.1 out.2.pc := by
  have hedge := h.edge
  cases h with
  | @insert i id =>
    refine ⟨hat.1, fun _ => Listed.insert ?_ id⟩
    rcases Nat.eq_zero_or_pos i with rfl | hpos
    · exact listed_nil (hfirst rfl ⟨id, rfl⟩)
    · exact hat.2 hpos
  | @inserted i =>
    obtain ⟨hi, hlisted⟩ := hat
    have hrows : Listed H w (i + 1) := hlisted (Nat.succ_pos i)
    dsimp only [Run.goto]
    split
    · rename_i hlt; exact ⟨hlt, fun _ => hrows⟩
    · rename_i hlt
      have hlast : i + 1 = idleCount := by omega
      rw [hlast] at hrows
      exact hrows
  | ready | setReady => exact hat
  | done => trivial
  | _ => exact rowsAt_of_edge hedge rfl

/-- In a handler, and after the run, the rows are as any run may leave them. -/
theorem Interrupted.rowsAt {out : PersonaWorld × Run} (h : Interrupted w r out) :
    RowsAt H out.1 out.2.pc :=
  h.stopped (motive := RowsAt H out.1) trivial (fun _ => trivial) trivial trivial (fun _ => trivial) trivial

end

/-! ## Sequences of runs -/

/-- What a run in progress relies on. -/
structure RunTable (H : Host) (w : PersonaWorld) (pc : RunPc) : Prop where
  claimed : pc.phase = .working ∨ pc.phase = .finishing → w.row ≠ some .ready
  clips : ClipsAt (fun _ => true) w pc
  rows : RowsAt H w pc

/-- The table is complete while the persona is `READY`. -/
structure TableState (H : Host) (s : Solo PersonaWorld CreationTask) : Prop where
  ready : s.world.row = some .ready → ClipTable H s.world
  current : ∀ r, s.current = some (.run r) → RunTable H s.world r.pc
  noRemoval : ∀ o ∈ s.world.orphans, o.writes ≠ none

section
variable {H : Host} {s s' : Solo PersonaWorld CreationTask} {w w' : PersonaWorld} {r r' : Run}

/-- A change that keeps the row, the rows of the clips, and every clip. -/
structure TableKept (w w' : PersonaWorld) : Prop where
  id : w'.id = w.id
  row : w'.row = w.row
  idleClips : w'.idleClips = w.idleClips
  clips : ∀ i, w.files.has .idle (idleName i) = true → w'.files.has .idle (idleName i) = true

theorem ClipTable.kept (h : ClipTable H w) (hk : TableKept w w') : ClipTable H w' :=
  ⟨h.1.of_rows hk.id hk.idleClips, fun i hi => hk.clips i (h.2 i hi)⟩

theorem clipHas_iff_has {i : Nat} :
    ClipHas (fun _ => true) w i ↔ w.files.has .idle (idleName i) = true := by
  rw [Files.has, Option.isSome_iff_exists, ClipHas]
  simp only [and_true]

theorem RunTable.kept {pc : RunPc} (h : RunTable H w pc) (hk : TableKept w w') : RunTable H w' pc := by
  refine ⟨fun hp => hk.row ▸ h.claimed hp, ?_, ?_⟩
  · exact h.clips.mono fun j hj => clipHas_iff_has.mpr (hk.clips j (clipHas_iff_has.mp hj))
  · have hrows := h.rows
    cases pc with
    | inserting => exact ⟨hrows.1, fun hpos => (hrows.2 hpos).of_rows hk.id hk.idleClips⟩
    | setReady | updReady => exact hrows.of_rows hk.id hk.idleClips
    | _ => trivial

/-- Outside its working phase a run changes neither the rows of the clips nor the files. -/
theorem runStep_tableKept {ev : RunEvent} (h : runStep H w r ev = some (w', r'))
    (hp : r.pc.phase ≠ .working) : w'.id = w.id ∧ w'.idleClips = w.idleClips ∧ w'.files = w.files := by
  rcases runStep_cases h with h | ⟨-, h⟩
  · refine ⟨h.rows.1, ?_, h.files_of_not_working hp⟩
    rcases h.rows.2 with hclips | ⟨i, id, hpc, -⟩
    · exact hclips
    · rw [hpc] at hp
      exact absurd rfl hp
  · refine ⟨h.rows.1, h.rows.2, ?_⟩
    cases h with
    | rendering hr =>
      rw [hr] at hp
      exact absurd rfl hp
    | _ => rfl

/-- One step of a run that meets the condition. -/
theorem RunTable.step {ev : RunEvent} (h : RunTable H w r.pc) (hs : runStep H w r ev = some (w', r'))
    (hfirst : r.pc = .inserting 0 false → (∃ id, ev = .apply id) → w.idleClips = []) :
    RunTable H w' r'.pc := by
  refine ⟨(runStep_phase hs).claimed h.claimed,
    runStep_clipsAt hs (fun _ _ => rfl) (fun _ _ => rfl) h.clips, ?_⟩
  rcases runStep_cases hs with hs | ⟨-, hs⟩
  · exact hs.rowsAt hfirst h.rows
  · exact hs.rowsAt

/-- The run that sets `READY` has completed the table. -/
theorem RunTable.table (h : RunTable H w r.pc) (hp : r.pc.phase = .finishing) : ClipTable H w := by
  have hpc : r.pc = .updReady false := eq_of_finishing hp
  have hclips := h.clips
  have hrows := h.rows
  rw [hpc] at hclips hrows
  exact ⟨hrows, fun i hi => clipHas_iff_has.mp (hclips i hi)⟩

/-- A row that is `READY` after a step of a run was `READY` before it, or the run sets it. -/
theorem RunTable.ready {ev : RunEvent} (h : RunTable H w r.pc) (hs : runStep H w r ev = some (w', r'))
    (hready : w.row = some .ready → ClipTable H w) (hr : w'.row = some .ready) : ClipTable H w' := by
  have hphase := runStep_phase hs
  by_cases hw : r.pc.phase = .working
  · rw [hw] at hphase
    rw [hphase.row_of_working] at hr
    exact absurd hr (h.claimed (.inl hw))
  · obtain ⟨hid, hclips, hfiles⟩ := runStep_tableKept hs hw
    have htable : ClipTable H w := by
      rcases hphase.ready_cases hr with hrow | hfin
      · exact hready hrow
      · exact h.table hfin
    exact ⟨htable.1.of_rows hid hclips, fun i hi => by rw [hfiles]; exact htable.2 i hi⟩

/-- An upload changes neither the row nor the clips. -/
theorem UploadStep.tableKept {req : UploadRequest} {pc : UploadPc} {ev : UploadEvent}
    {out : PersonaWorld × UploadPc} (h : UploadStep H w req pc ev out) : TableKept w out.1 := by
  have hidle : Folder.idle ≠ req.kind.folder := outFolder_ne_folder (k := .photo)
  refine ⟨?_, h.keeps.1, ?_, fun i hi => ?_⟩
  · cases h with
    | renameFailed | writeFailed => rw [dropTmp]; split <;> rfl
    | insert => rw [insertAsset]; split <;> rfl
    | _ => rfl
  · cases h with
    | renameFailed | writeFailed => rw [dropTmp]; split <;> rfl
    | insert => rw [insertAsset]; split <;> rfl
    | _ => rfl
  · rw [Files.has, get_of_dir (h.leaves hidle)]
    exact hi

/-- Left-over work that removes nothing keeps what is there. -/
theorem OrphanStep.has {k : Nat} {act : OrphanAct} (h : OrphanStep w k act w')
    (hn : ∀ o ∈ w.orphans, o.writes ≠ none) {f : Folder} {name : String}
    (hf : w.files.has f name = true) : w'.files.has f name = true := by
  rcases h.ends_or_writes hn with hfiles | ⟨o, -, sub, target, other, file, -, rfl⟩
  · rw [hfiles]; exact hf
  · change ((if o.makesFolder then w.files.mkdir sub else w.files).write sub other file).has f name = true
    refine has_write ?_
    split
    · exact has_mkdir.trans hf
    · exact hf

theorem OrphanStep.tableKept {k : Nat} {act : OrphanAct} (h : OrphanStep w k act w')
    (hn : ∀ o ∈ w.orphans, o.writes ≠ none) : TableKept w w' := by
  refine ⟨?_, h.keeps.1, ?_, fun i hi => h.has hn hi⟩
  · cases h <;> rfl
  · cases h <;> rfl

/-- What a run leaves running removes nothing. -/
theorem runStep_noRemoval {ev : RunEvent} (h : runStep H w r ev = some (w', r'))
    (hn : ∀ o ∈ w.orphans, o.writes ≠ none) : ∀ o ∈ w'.orphans, o.writes ≠ none := by
  intro o ho hw
  rcases runStep_leftover h ho with hold | hfolder | hfolder
  · exact hn o hold hw
  · rw [Orphan.folder, hw] at hfolder; cases hfolder
  · rw [Orphan.folder, hw] at hfolder; cases hfolder

theorem UploadStep.noRemoval {req : UploadRequest} {pc : UploadPc} {ev : UploadEvent}
    {out : PersonaWorld × UploadPc} (h : UploadStep H w req pc ev out)
    (hn : ∀ o ∈ w.orphans, o.writes ≠ none) : ∀ o ∈ out.1.orphans, o.writes ≠ none := by
  intro o ho
  rcases h.keeps.2.2 o ho with hold | ⟨tmp, rfl⟩
  · exact hn o hold
  · exact Option.some_ne_none _

/-- Every step that meets the condition keeps the invariant. -/
theorem TableState.next {e : Event CreationTask CreationEvent CreationEnv} (h : TableState H s)
    (hok : InsertsIntoEmpty s e) (hs : (creationCoop H).soloNext CreationTask.ended s e = some s') :
    TableState H s' := by
  refine creation_next_cases (motive := TableState H) hs ?_ ?_ ?_ ?_
  · rintro t rfl harr -
    refine ⟨h.ready, fun r hr => ?_, h.noRemoval⟩
    cases Option.some.inj hr
    rw [CreationTask.arriving, decide_eq_true_eq] at harr
    rw [harr]
    exact ⟨fun hp => by rcases hp with hp | hp <;> (cases hp), trivial, trivial⟩
  · rintro i req pc ev w pc' rfl - hupload
    refine ⟨fun hr => ?_, fun r hr => (by cases hr), hupload.noRemoval h.noRemoval⟩
    exact (h.ready (hupload.tableKept.row ▸ hr)).kept hupload.tableKept
  · rintro i r ev w r' rfl hc hrun
    have hrunning := h.current r hc
    refine ⟨hrunning.ready hrun h.ready, fun u hu => ?_, runStep_noRemoval hrun h.noRemoval⟩
    cases Option.some.inj hu
    refine hrunning.step hrun ?_
    rintro hpc ⟨id, rfl⟩
    exact hok (by rw [hc, Option.any_some, CreationTask.listsFirst, hpc]; rfl)
  · rintro k act w rfl hx
    have hstep := orphanStep_inv hx
    have hkept := hstep.tableKept h.noRemoval
    exact ⟨fun hr => (h.ready (hkept.row ▸ hr)).kept hkept, fun r hr => (h.current r hr).kept hkept,
      fun o ho => h.noRemoval o (hstep.orphans ho)⟩

end

/-! ## Main results -/

/-- A persona that is not `READY` and has no row of a clip, and no removal left over. -/
structure Unlisted (w : PersonaWorld) : Prop where
  row : w.row ≠ some .ready
  idleClips : w.idleClips = []
  orphans : ∀ o ∈ w.orphans, o.writes ≠ none

/-- In every sequence of uploads and runs in which a run inserts its first row only while there is none,
whatever fails or is cancelled: while the persona is `READY`, there is one row for each clip, and it names a
file that exists. -/
theorem clipTable_of_insertsIntoEmpty (H : Host) (s : Solo PersonaWorld CreationTask)
    (h : (creationSystem H Unlisted).Reach InsertsIntoEmpty s) (hr : s.world.row = some .ready) :
    ClipTable H s.world := by
  have hinv : TableState H s := by
    refine h.inv (I := TableState H) (fun s hs => ?_) fun s e t hI hok hstep => hI.next hok hstep
    obtain ⟨hw, hcur⟩ := hs
    refine ⟨fun hrow => absurd hrow hw.row, fun r hr => ?_, hw.orphans⟩
    rw [hcur] at hr
    cases hr
  exact hinv.ready hr

theorem samplePersona_unlisted : Unlisted samplePersona := ⟨by decide, rfl, by decide⟩

/-- A run from the trim to its last status update. -/
def runToReady : List RunEvent :=
  runToTrim ++ [.spawned, .output false ⟨12, .bytes riff⟩, .exit 0, .communicated cleanTrim] ++ runFromText

/-- The theorem at a run: a run fails while it renders, and another one ends in `READY`. -/
theorem clipTable_of_insertsIntoEmpty_run : ∃ s, (creationSystem sampleHost Unlisted).Reach InsertsIntoEmpty s ∧
    s.world.row = some .ready ∧ ClipTable sampleHost s.world := by
  have h : ((creationSystem sampleHost Unlisted).exec InsertsIntoEmpty ⟨samplePersona, none⟩
      (bothUploads ++ runEvents (runToReady.take 15 ++ [.renderFailed ⟨"RuntimeError", ""⟩ true (fun _ => true),
        .lock none, .apply 0, .resume]) ++ runEvents (runToTrim ++ [.lock none] ++ runFromText.drop 3))).any
      (fun s => s.world.row = some .ready) = true := by
    decide +kernel
  obtain ⟨s, hsteps, hready⟩ := System.exists_of_exec h
  have hreach : (creationSystem sampleHost Unlisted).Reach InsertsIntoEmpty s :=
    ⟨_, ⟨samplePersona_unlisted, rfl⟩, hsteps⟩
  have hrow := of_decide_eq_true hready
  exact ⟨s, hreach, hrow, clipTable_of_insertsIntoEmpty _ s hreach hrow⟩

/-- A run whose last status update fails, and another one that ends in `READY`: every clip has two rows. -/
theorem rows_doubled : ∃ s, (creationSystem sampleHost Unlisted).Reach anyStep s ∧
    s.current.any CreationTask.ended = true ∧ s.world.row = some .ready ∧
    ¬ ClipTable sampleHost s.world := by
  have h : ((creationSystem sampleHost Unlisted).exec anyStep ⟨samplePersona, none⟩
      (bothUploads ++ runEvents (runToReady.dropLast ++ [.fail ⟨"OperationalError", "Connection lost"⟩,
        .lock none, .apply 0, .resume]) ++ runEvents (runToTrim ++ [.lock none, .lock none] ++
        runFromText.drop 8 ++ [.resume]))).any (fun s => s.current.any CreationTask.ended = true ∧
          s.world.row = some .ready ∧ ¬ ClipTable sampleHost s.world) = true := by
    decide +kernel
  obtain ⟨s, hsteps, hbad⟩ := System.exists_of_exec h
  exact ⟨s, ⟨_, ⟨samplePersona_unlisted, rfl⟩, hsteps⟩, of_decide_eq_true hbad⟩

end YeounEngine
