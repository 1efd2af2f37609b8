import YeounEngine.Numerals
import YeounEngine.UploadPaths

/-!
# The clips of a persona, listed and served

`get_idle_clips` reads an index out of the name of each `*.mp4` file, and `get_idle_clip` makes a name out of an
index. They agree when the clips that are listed are the ones that are served (`ListingAgrees`). `int` reads more
names than `0.mp4` and `1.mp4`: the two agree if and only if the folder has no other name that it reads
(`listingAgrees_iff`).
-/

namespace YeounEngine

open Posix

/-! ## `GET /idle-clips` -/

/-- `glob("*.mp4")`. -/
def isMp4 (name : String) : Bool := ".mp4".toList.isSuffixOf name.toList

/-- `PurePosixPath(name).stem`: the text before the last dot, when there is text on both sides of it. -/
def stem (name : List Char) : List Char :=
  let before := (name.rdropWhile (· ≠ '.')).dropLast
  let ending := name.rtakeWhile (· ≠ '.')
  if '.' ∈ name ∧ before ≠ [] ∧ ending ≠ [] then before else name

/-- `IdleClipMeta`, with its check of the index. -/
structure IdleClipMeta where
  index : Int
  path : String
  sizeBytes : Nat
  index_ge : 0 ≤ index
  deriving DecidableEq

/-- `IdleClipsData`. -/
structure IdleClipsData where
  personaId : Uuid
  clips : List IdleClipMeta

/-- `f"{persona_id}/idle/{p.name}"`. -/
def clipPath (id : Uuid) (name : String) : String := id.str ++ "/idle/" ++ name

section
variable (S : IntSyntax)

/-- The loop of `get_idle_clips` over the sorted names: what `int` does not read is passed over, and none stands for the
`ValidationError` of a negative index. -/
def listClips (id : Uuid) (d : Dir) : List String → (clips : List IdleClipMeta) → Option (List IdleClipMeta)
  | [], clips => some clips
  | name :: rest, clips =>
    match intOf S (stem name.toList) with
    | none => listClips id d rest clips
    | some index =>
      let sizeBytes := ((d.lookup name).map fun file => file.content.raw.length).getD 0
      if h : 0 ≤ index then listClips id d rest (clips ++ [⟨index, clipPath id name, sizeBytes, h⟩]) else none

/-- `sorted(idle_dir.glob("*.mp4"))`. -/
def mp4Names (d : Dir) : List String := (d.keys.filter isMp4).insertionSort fun a b => a ≤ b

/-- `get_idle_clips`. -/
def getIdleClips (w : PersonaWorld) : Except HttpError IdleClipsData :=
  match w.row with
  | none => .error (personaNotFound w.id)
  | some _ =>
    match w.files.dir .idle with
    | none => .ok ⟨w.id, []⟩
    | some d =>
      match listClips S w.id d (mp4Names d) [] with
      | none => .error internalError
      | some clips => .ok ⟨w.id, clips⟩

end

/-! ## `GET /idle-clips/{idx}` -/

theorem isName_idle : IsName "idle".toList := by decide

/-- `{PERSONA_DIR}/{persona_id}/idle`. -/
def idleDir (personaDir : Location Char) (id : Uuid) : Location Char :=
  (personaDir.child id.str.toList (isName_uuid id)).child "idle".toList isName_idle

/-- The file at a location, when that is in the folder of the clips. -/
def idleFileAt (personaDir : Location Char) (w : PersonaWorld) (path : Location Char) : Option File :=
  if path.parent = idleDir personaDir w.id then
    path.names.getLast?.bind fun name => w.files.get .idle (String.ofList name)
  else none

/-- `f"{idx}.mp4"`. -/
def clipName (idx : Int) : String := toString idx ++ ".mp4"

/-- `get_idle_clip`, up to the response: the file that is streamed. -/
def getIdleClip (cwd personaDir : Location Char) (w : PersonaWorld) (idx : Int) :
    Except HttpError (Location Char × File) :=
  if idx ≠ 0 ∧ idx ≠ 1 then .error ⟨404, "NOT_FOUND", "유효하지 않은 idle 인덱스: " ++ toString idx⟩
  else match w.row with
    | none => .error (personaNotFound w.id)
    | some _ =>
      match safeResolveIn cwd personaDir [w.id.str, "idle", clipName idx] with
      | .error e => .error (if e.typeName = "PermissionError" then ⟨404, "NOT_FOUND", e.message⟩ else internalError)
      | .ok path =>
        match idleFileAt personaDir w path with
        | none => .error ⟨404, "NOT_FOUND", "idle 클립 파일이 없습니다: " ++ clipName idx⟩
        | some file => .ok (path, file)

/-! ## Agreement -/

/-- The listing succeeds, no index is in it twice, and a clip is in it with its path, which is below the directory of
the personas, if and only if the file at this path is what is served for its index. -/
def ListingAgrees (S : IntSyntax) (cwd personaDir : Location Char) (w : PersonaWorld) : Prop :=
  ∃ data, getIdleClips S w = .ok data ∧ (data.clips.map IdleClipMeta.index).Nodup ∧
    ∀ idx path, (∃ c ∈ data.clips, c.index = idx ∧ c.path = path) ↔
      ∃ l file, getIdleClip cwd personaDir w idx = .ok (l, file) ∧ l.names = personaDir.names ++ partsOf path.toList

/-! ## What is listed -/

/-- The folder of the clips, empty when it does not exist. -/
def PersonaWorld.idle (w : PersonaWorld) : Dir := (w.files.dir .idle).getD ∅

/-- What the loop makes of the names: an index and a path for each that `int` reads. -/
def clipEntries (S : IntSyntax) (id : Uuid) (names : List String) : List (Int × String) :=
  names.filterMap fun name => (intOf S (stem name.toList)).map fun index => (index, clipPath id name)

/-- The index and the path of a clip. -/
def IdleClipMeta.entry (c : IdleClipMeta) : Int × String := (c.index, c.path)

section
variable {S : IntSyntax} {cwd personaDir : Location Char} {w : PersonaWorld} {id : Uuid} {d : Dir} {names : List String}
  {clips out : List IdleClipMeta} {name path : String} {idx : Int}

/-- When the loop ends, no index was negative, and it has appended what the names stand for. -/
theorem listClips_eq_some (h : listClips S id d names clips = some out) :
    (∀ e ∈ clipEntries S id names, 0 ≤ e.1) ∧
      out.map IdleClipMeta.entry = clips.map IdleClipMeta.entry ++ clipEntries S id names := by
  induction names generalizing clips with
  | nil =>
    cases h
    exact ⟨fun e he => absurd he List.not_mem_nil, (List.append_nil _).symm⟩
  | cons name names ih =>
    rw [listClips] at h
    cases hread : intOf S (stem name.toList) with
    | none =>
      rw [hread] at h
      have hskip : clipEntries S id (name :: names) = clipEntries S id names := by simp [clipEntries, hread]
      rw [hskip]
      exact ih h
    | some index =>
      rw [hread] at h
      dsimp only at h
      have hadd : clipEntries S id (name :: names) = (index, clipPath id name) :: clipEntries S id names := by
        simp [clipEntries, hread]
      rw [hadd]
      split at h
      · rename_i hge
        obtain ⟨hall, hout⟩ := ih h
        refine ⟨List.forall_mem_cons.mpr ⟨hge, hall⟩, ?_⟩
        rw [hout, List.map_append, List.append_assoc]
        rfl
      · cases h

/-- Without a negative index the loop comes to its end. -/
theorem exists_listClips (h : ∀ e ∈ clipEntries S id names, 0 ≤ e.1) :
    ∃ out, listClips S id d names clips = some out := by
  induction names generalizing clips with
  | nil => exact ⟨clips, rfl⟩
  | cons name names ih =>
    rw [listClips]
    cases hread : intOf S (stem name.toList) with
    | none =>
      refine ih fun e he => h e ?_
      simpa [clipEntries, hread] using he
    | some index =>
      have hadd : clipEntries S id (name :: names) = (index, clipPath id name) :: clipEntries S id names := by
        simp [clipEntries, hread]
      rw [hadd] at h
      obtain ⟨hge, hall⟩ := List.forall_mem_cons.mp h
      dsimp only
      rw [dif_pos hge]
      exact ih hall

theorem mem_mp4Names : name ∈ mp4Names d ↔ name ∈ d ∧ isMp4 name = true := by
  rw [mp4Names, List.mem_insertionSort, List.mem_filter, AList.mem_keys]

theorem nodup_mp4Names : (mp4Names d).Nodup :=
  (List.perm_insertionSort _ _).nodup_iff.mpr (d.keys_nodup.filter _)

theorem mem_clipEntries : (idx, path) ∈ clipEntries S id (mp4Names d) ↔
    ∃ name, (name ∈ d ∧ isMp4 name = true) ∧ intOf S (stem name.toList) = some idx ∧ path = clipPath id name := by
  simp only [clipEntries, List.mem_filterMap, Option.map_eq_some_iff, Prod.mk.injEq, mem_mp4Names]
  constructor
  · rintro ⟨name, hname, index, hread, rfl, rfl⟩
    exact ⟨name, hname, hread, rfl⟩
  · rintro ⟨name, hname, hread, rfl⟩
    exact ⟨name, hname, idx, hread, rfl, rfl⟩

theorem clipPath_inj {other : String} : clipPath id name = clipPath id other ↔ name = other :=
  String.append_right_inj _

/-- The listing is the loop over the folder, or it fails with the loop. -/
theorem getIdleClips_eq (hrow : w.row ≠ none) : getIdleClips S w =
    match listClips S w.id w.idle (mp4Names w.idle) [] with
    | none => .error internalError
    | some clips => .ok ⟨w.id, clips⟩ := by
  obtain ⟨status, hstatus⟩ := Option.ne_none_iff_exists'.mp hrow
  rw [getIdleClips, hstatus, PersonaWorld.idle]
  dsimp only
  cases w.files.dir .idle with
  | none => rfl
  | some d => rfl

/-! ## What is served -/

theorem clipName_cases (h : idx = 0 ∨ idx = 1) : clipName idx = "0.mp4" ∨ clipName idx = "1.mp4" := by
  rcases h with rfl | rfl
  · exact .inl rfl
  · exact .inr rfl

theorem isName_clipName (h : idx = 0 ∨ idx = 1) : IsName (clipName idx).toList := by
  rcases clipName_cases h with h | h <;> rw [h] <;> decide

theorem get_idle : w.files.get .idle name = w.idle.lookup name := by
  rw [Files.get, PersonaWorld.idle, ← fileIn_some, fileIn_getD]

/-- A name leads to the file of this name. -/
theorem idleFileAt_child (hname : IsName name.toList) :
    idleFileAt personaDir w ((idleDir personaDir w.id).child name.toList hname) = w.idle.lookup name := by
  rw [idleFileAt, Location.parent_child, if_pos rfl, Location.names_child, List.getLast?_concat, Option.bind_some,
    String.ofList_toList, get_idle]

/-- The file that is served for an index has the name that is made of it. -/
theorem getIdleClip_eq_ok (hrow : w.row ≠ none) {l : Location Char} {file : File} :
    getIdleClip cwd personaDir w idx = .ok (l, file) ↔ ∃ h : idx = 0 ∨ idx = 1,
      w.idle.lookup (clipName idx) = some file ∧
        l = (idleDir personaDir w.id).child (clipName idx).toList (isName_clipName h) := by
  obtain ⟨status, hstatus⟩ := Option.ne_none_iff_exists'.mp hrow
  by_cases h : idx = 0 ∨ idx = 1
  · have hnames : ∀ s ∈ [w.id.str, "idle", clipName idx], IsName s.toList := by
      simp only [List.forall_mem_cons, List.not_mem_nil, false_implies, implies_true, and_true]
      exact ⟨isName_uuid w.id, isName_idle, isName_clipName h⟩
    have hpath : personaDir.walk ([w.id.str, "idle", clipName idx].map String.toList) =
        (idleDir personaDir w.id).child (clipName idx).toList (isName_clipName h) := by
      simp only [List.map_cons, List.map_nil, Location.walk_cons, Location.walk_nil]
      rw [Location.step_name (isName_uuid w.id), Location.step_name isName_idle, Location.step_name (isName_clipName h)]
      rfl
    rw [getIdleClip, if_neg (by tauto), hstatus]
    dsimp only
    rw [safeResolveIn_names hnames, hpath]
    dsimp only
    rw [idleFileAt_child]
    cases hfile : w.idle.lookup (clipName idx) with
    | none =>
      refine iff_of_false ?_ ?_
      · rintro ⟨⟩
      · rintro ⟨-, ⟨⟩, -⟩
    | some found =>
      constructor
      · rintro ⟨⟩
        exact ⟨h, rfl, rfl⟩
      · rintro ⟨-, ⟨⟩, rfl⟩
        rfl
  · rw [getIdleClip, if_pos (not_or.mp h)]
    refine iff_of_false ?_ fun hserved => h hserved.1
    rintro ⟨⟩

theorem partsOf_clipPath (hname : '/' ∉ name.toList) :
    partsOf (clipPath id name).toList = [id.str.toList, "idle".toList, name.toList] := by
  have htext : (clipPath id name).toList =
      id.str.toList ++ PathChar.slash :: ("idle".toList ++ PathChar.slash :: name.toList) := by
    rw [clipPath, String.toList_append, String.toList_append, List.append_assoc]
    rfl
  rw [htext, partsOf_append (isName_uuid id).no_slash, partsOf_append isName_idle.no_slash, partsOf_eq_singleton hname]

/-- The path that is served for an index. -/
theorem served_iff (hrow : w.row ≠ none) :
    (∃ l file, getIdleClip cwd personaDir w idx = .ok (l, file) ∧ l.names = personaDir.names ++ partsOf path.toList) ↔
      (idx = 0 ∨ idx = 1) ∧ clipName idx ∈ w.idle ∧ path = clipPath w.id (clipName idx) := by
  have hnames : ∀ h : idx = 0 ∨ idx = 1,
      ((idleDir personaDir w.id).child (clipName idx).toList (isName_clipName h)).names =
        personaDir.names ++ partsOf (clipPath w.id (clipName idx)).toList := by
    intro h
    rw [partsOf_clipPath (isName_clipName h).no_slash]
    simp [idleDir]
  simp only [getIdleClip_eq_ok hrow]
  constructor
  · rintro ⟨l, file, ⟨h, hfile, rfl⟩, hpath⟩
    rw [hnames h, List.append_right_inj, partsOf_inj, String.toList_inj] at hpath
    exact ⟨h, AList.lookup_isSome.mp (Option.isSome_iff_exists.mpr ⟨file, hfile⟩), hpath.symm⟩
  · rintro ⟨h, hmem, rfl⟩
    obtain ⟨file, hfile⟩ := Option.isSome_iff_exists.mp (AList.lookup_isSome.mpr hmem)
    exact ⟨_, file, ⟨h, hfile, rfl⟩, hnames h⟩

/-! ## When they agree -/

/-- The names of the two clips are read as their indices. -/
theorem intOf_stem_clipName (h : idx = 0 ∨ idx = 1) : intOf S (stem (clipName idx).toList) = some idx := by
  rcases h with rfl | rfl
  · exact intOf_repr (n := 0) (by decide)
  · exact intOf_repr (n := 1) (by decide)

/-- No other name is read. -/
def OnlyClips (S : IntSyntax) (w : PersonaWorld) : Prop :=
  ∀ name ∈ w.idle, isMp4 name = true → ∀ idx, intOf S (stem name.toList) = some idx → name = "0.mp4" ∨ name = "1.mp4"

theorem OnlyClips.index (h : OnlyClips S w) (hname : name ∈ w.idle) (hmp4 : isMp4 name = true)
    (hread : intOf S (stem name.toList) = some idx) : (idx = 0 ∨ idx = 1) ∧ name = clipName idx := by
  rcases h name hname hmp4 idx hread with rfl | rfl
  · obtain rfl := Option.some.inj ((intOf_stem_clipName (.inl rfl)).symm.trans hread)
    exact ⟨.inl rfl, rfl⟩
  · obtain rfl := Option.some.inj ((intOf_stem_clipName (.inr rfl)).symm.trans hread)
    exact ⟨.inr rfl, rfl⟩

theorem onlyClips_of_agrees (hrow : w.row ≠ none) (h : ListingAgrees S cwd personaDir w) : OnlyClips S w := by
  obtain ⟨data, hdata, -, hclips⟩ := h
  intro name hname hmp4 idx hread
  rw [getIdleClips_eq hrow] at hdata
  split at hdata
  · cases hdata
  · rename_i clips hlist
    cases hdata
    have hentry : (idx, clipPath w.id name) ∈ clips.map IdleClipMeta.entry := by
      rw [(listClips_eq_some hlist).2]
      exact List.mem_append_right _ (mem_clipEntries.mpr ⟨name, ⟨hname, hmp4⟩, hread, rfl⟩)
    obtain ⟨c, hc, hentry⟩ := List.mem_map.mp hentry
    obtain ⟨hindex, hpath⟩ := Prod.mk.inj hentry
    obtain ⟨h01, -, hserved⟩ := (served_iff hrow).mp ((hclips idx (clipPath w.id name)).mp ⟨c, hc, hindex, hpath⟩)
    rw [clipPath_inj.mp hserved]
    exact clipName_cases h01

/-- What is listed, when no other name is read. -/
theorem OnlyClips.mem_entries (h : OnlyClips S w) : (idx, path) ∈ clipEntries S w.id (mp4Names w.idle) ↔
    (idx = 0 ∨ idx = 1) ∧ clipName idx ∈ w.idle ∧ path = clipPath w.id (clipName idx) := by
  rw [mem_clipEntries]
  constructor
  · rintro ⟨name, ⟨hname, hmp4⟩, hread, rfl⟩
    obtain ⟨h01, rfl⟩ := h.index hname hmp4 hread
    exact ⟨h01, hname, rfl⟩
  · rintro ⟨h01, hname, rfl⟩
    refine ⟨clipName idx, ⟨hname, ?_⟩, intOf_stem_clipName h01, rfl⟩
    rcases h01 with rfl | rfl <;> rfl

theorem OnlyClips.agrees (hrow : w.row ≠ none) (h : OnlyClips S w) : ListingAgrees S cwd personaDir w := by
  have hge : ∀ e ∈ clipEntries S w.id (mp4Names w.idle), 0 ≤ e.1 := by
    rintro ⟨idx, path⟩ he
    rcases (h.mem_entries.mp he).1 with rfl | rfl
    · exact Int.le_refl 0
    · exact Int.one_nonneg
  obtain ⟨clips, hlist⟩ : ∃ clips, listClips S w.id w.idle (mp4Names w.idle) [] = some clips := exists_listClips hge
  have hentries : clips.map IdleClipMeta.entry = clipEntries S w.id (mp4Names w.idle) := (listClips_eq_some hlist).2
  refine ⟨⟨w.id, clips⟩, by rw [getIdleClips_eq hrow, hlist], ?_, fun idx path => ?_⟩
  · -- one name for each index
    have hindices : clips.map IdleClipMeta.index =
        (mp4Names w.idle).filterMap fun name => intOf S (stem name.toList) := by
      have := congrArg (List.map Prod.fst) hentries
      rw [List.map_map, clipEntries, List.map_filterMap] at this
      simpa [Function.comp_def, IdleClipMeta.entry] using this
    rw [hindices, List.Nodup, List.pairwise_filterMap]
    refine nodup_mp4Names.imp_of_mem fun {name other} hname hother hne => ?_
    obtain ⟨hname, hmp4⟩ := mem_mp4Names.mp hname
    obtain ⟨hother, hmp4'⟩ := mem_mp4Names.mp hother
    rintro idx hread _ hread' rfl
    exact hne ((h.index hname hmp4 hread).2.trans (h.index hother hmp4' hread').2.symm)
  · rw [served_iff hrow, ← h.mem_entries, ← hentries, List.mem_map]
    simp only [IdleClipMeta.entry, Prod.mk.injEq]

end

/-- The clips that are listed are the ones that are served, if and only if no other name in the folder is read as a
number. -/
theorem listingAgrees_iff (S : IntSyntax) (cwd personaDir : Location Char) (w : PersonaWorld) (hrow : w.row ≠ none) :
    ListingAgrees S cwd personaDir w ↔
      ∀ name ∈ w.idle, isMp4 name = true → ∀ idx, intOf S (stem name.toList) = some idx →
        name = "0.mp4" ∨ name = "1.mp4" :=
  ⟨onlyClips_of_agrees hrow, OnlyClips.agrees hrow⟩

/-- A persona that is ready, with these files in the folder of its clips. -/
def withClips (names : List String) : PersonaWorld :=
  let files := names.foldl (fun fs name => fs.write .idle name ⟨0, .bytes [0], .other⟩) (Files.mkdir none .idle)
  { samplePersona with row := some .ready, files }

/-- The two clips of the pipeline and the side file of a render are listed as they are served. -/
theorem listingAgrees_rendered :
    ListingAgrees asciiDigits .root .root (withClips ["1.mp4", "0.mp4.tmp.mp4", "0.mp4"]) :=
  (listingAgrees_iff asciiDigits .root .root _ (by decide)).mpr fun name hname hmp4 idx hread => by
    have hall : ∀ name ∈ (withClips ["1.mp4", "0.mp4.tmp.mp4", "0.mp4"]).idle.keys,
        (intOf asciiDigits (stem name.toList)).isSome = true → name = "0.mp4" ∨ name = "1.mp4" := by
      decide +kernel
    exact hall name (AList.mem_keys.mpr hname) (Option.isSome_iff_exists.mpr ⟨idx, hread⟩)

/-- `00.mp4` is listed as a second clip 0, and is not what is served. -/
theorem zeroTwice_disagrees : ¬ ListingAgrees asciiDigits .root .root (withClips ["0.mp4", "00.mp4"]) := by
  intro h
  have hread : intOf asciiDigits (stem "00.mp4".toList) = some 0 := by decide
  rcases onlyClips_of_agrees (by decide) h "00.mp4" (by decide) (by decide) 0 hread with h | h <;>
    exact absurd h (by decide)

end YeounEngine
