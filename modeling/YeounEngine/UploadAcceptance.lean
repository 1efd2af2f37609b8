import YeounEngine.Personas

/-!
# Which uploads are stored

`_save_upload` on its own: the steps of an upload from the row it has read to the return of the call, when
every operation outside the function succeeds. An upload is acceptable (`Acceptable`) when its content type
is allowed, it is not too large and it carries a signature; then it should be stored as it is, and otherwise
be rejected with nothing written (`AcceptsExactly`).

The signature is checked on the first chunk, and only when that has four bytes. So the verdict of the reading
loop is `readVerdict` for every content, and the function accepts exactly except for contents of fewer than
four bytes without a signature: those are stored (`acceptsExactly_iff`).
-/

namespace YeounEngine

open Transition

/-! ## The system -/

/-- The events of an upload whose operations succeed. -/
def UploadEvent.succeeds : UploadEvent → Bool
  | .resume | .closed _ _ false none | .output _ | .written _ | .renamed none _ => true
  | _ => false

/-- Every operation outside `_save_upload` succeeds. -/
def Unhindered (_ : PersonaWorld × UploadPc) (e : UploadEvent) : Prop := e.succeeds = true

instance (s : PersonaWorld × UploadPc) (e : UploadEvent) : Decidable (Unhindered s e) :=
  inferInstanceAs (Decidable (_ = _))

/-- An upload to a persona that is writable, from the row it has read. -/
def saving (H : Host) (req : UploadRequest) : System (PersonaWorld × UploadPc) UploadEvent where
  init s := ∃ row, s.2 = .getting (some row) ∧ ensureWritable s.1.id row = none
  step s e := uploadStep H s.1 req s.2 e

/-- `_save_upload` has returned, or the upload has ended without. -/
def UploadPc.returned : UploadPc → Bool
  | .inserting _ _ false | .done _ => true
  | _ => false

/-! ## Acceptance -/

/-- The content carries a signature: a prefix of the list at its front, or `ftyp` at offset 4 where that
is in the list. -/
def HasSignature (kind : UploadKind) (body : List UInt8) : Prop :=
  ∃ magic ∈ kind.magicPrefixes, magic <+: body ∨ magic = ftyp ∧ ftyp <+: body.drop 4

instance (kind : UploadKind) (body : List UInt8) : Decidable (HasSignature kind body) :=
  inferInstanceAs (Decidable (∃ magic ∈ kind.magicPrefixes, _))

/-- `file.content_type in allowed_content_types`. -/
def UploadRequest.allowed (req : UploadRequest) : Bool := req.contentType.any fun t => t ∈ req.kind.contentTypes

/-- What is to be stored. -/
def Acceptable (H : Host) (req : UploadRequest) : Prop :=
  req.allowed = true ∧ req.body.length ≤ H.maxUploadBytes ∧ HasSignature req.kind req.body

/-- The call has returned a name in the folder and the size, and the file has the uploaded bytes. -/
def Stored (req : UploadRequest) (t : PersonaWorld × UploadPc) : Prop :=
  ∃ name file, t.2 = .inserting name req.body.length false ∧
    t.1.files.get req.kind.folder name = some file ∧ file.content = .bytes req.body

/-- The call has raised 415 or 413, and nothing has been written. -/
def Rejected (s t : PersonaWorld × UploadPc) : Prop :=
  t.1 = s.1 ∧ ∃ e : HttpError, t.2 = .done (.error e) ∧ (e.status = 415 ∨ e.status = 413)

/-- An upload comes to its end, and it is stored if it is acceptable and rejected otherwise. -/
structure AcceptsExactly (H : Host) (req : UploadRequest) : Prop where
  returns : ∀ s, (saving H req).init s → ∃ t, (saving H req).Steps Unhindered s t ∧ t.2.returned = true
  stored : ∀ s t, (saving H req).init s → (saving H req).Steps Unhindered s t → t.2.returned = true →
    Acceptable H req → Stored req t
  rejected : ∀ s t, (saving H req).init s → (saving H req).Steps Unhindered s t → t.2.returned = true →
    ¬ Acceptable H req → Rejected s t

/-! ## The signature check -/

section
variable {kind : UploadKind} {body : List UInt8}

theorem length_magic_le : ∀ kind : UploadKind, ∀ magic ∈ kind.magicPrefixes, magic.length ≤ 16 := by
  intro kind
  cases kind <;> decide

/-- The first 16 bytes hold every signature. -/
theorem looksLike_head : looksLike kind.magicPrefixes (body.take 16) = true ↔ HasSignature kind body := by
  have hstart : ∀ magic ∈ kind.magicPrefixes, (magic <+: body.take 16 ↔ magic <+: body) := by
    intro magic hmem
    rw [List.prefix_take_iff]
    exact and_iff_left (length_magic_le kind magic hmem)
  have hoffset : (8 ≤ (body.take 16).length ∧ ((body.take 16).drop 4).take 4 = ftyp) ↔ ftyp <+: body.drop 4 := by
    rw [List.drop_take, List.take_take, List.length_take, List.prefix_iff_eq_take]
    constructor
    · rintro ⟨-, h⟩
      exact h.symm
    · intro h
      have := congrArg List.length h
      rw [List.length_take, List.length_drop] at this
      refine ⟨?_, h.symm⟩
      rw [show ftyp.length = 4 from rfl] at this
      omega
  simp only [looksLike, HasSignature, List.any_eq_true, Bool.or_eq_true, Bool.and_eq_true, decide_eq_true_eq,
    List.isPrefixOf_iff_prefix]
  refine exists_congr fun magic => and_congr_right fun hmem => ?_
  rw [hstart magic hmem, and_assoc, hoffset, or_comm]

end

/-! ## The reading loop -/

/-- What the reading loop makes of a content. -/
def readVerdict (H : Host) (kind : UploadKind) (body : List UInt8) : Except HttpError (List UInt8) :=
  if 4 ≤ body.length ∧ ¬ HasSignature kind body then .error badMagic
  else if H.maxUploadBytes < body.length then .error (tooLarge H)
  else .ok body

/-- The chunks that are to come, when the signature has been checked. -/
def restVerdict (H : Host) (buffer rest : List UInt8) : Except HttpError (List UInt8) :=
  if H.maxUploadBytes < (buffer ++ rest).length then .error (tooLarge H) else .ok (buffer ++ rest)

/-- The state of the loop gives the verdict `v`: at the start, behind a chunk of a content whose signature
has been checked, and behind a content that is too short for the check. -/
inductive Gives (H : Host) (kind : UploadKind) (v : Except HttpError (List UInt8)) :
    List UInt8 → List UInt8 → Bool → Prop
  | start {body} (hv : readVerdict H kind body = v) : Gives H kind v [] body false
  | checked {buffer rest} (hle : buffer.length ≤ H.maxUploadBytes) (hv : restVerdict H buffer rest = v) :
      Gives H kind v buffer rest true
  | short {body} (hv : .ok body = v) : Gives H kind v body [] false

section
variable {H : Host} {kind : UploadKind} {v : Except HttpError (List UInt8)} {buffer rest : List UInt8}
  {checked : Bool}

/-- What a turn of the loop leads to. -/
def ReadTurn.gives (H : Host) (kind : UploadKind) (v : Except HttpError (List UInt8)) : ReadTurn → Prop
  | .more buffer rest checked => Gives H kind v buffer rest checked
  | .stop verdict => verdict = v

theorem readTurn_nil : readTurn H kind buffer [] checked = .stop (.ok buffer) := by
  rw [readTurn, List.take_nil]
  exact if_pos rfl

/-- A turn that reads a chunk. -/
theorem readTurn_of_ne_nil (hrest : rest ≠ []) :
    readTurn H kind buffer rest checked =
      if !checked && 4 ≤ ((buffer ++ rest.take chunkSize).take 16).length &&
          !looksLike kind.magicPrefixes ((buffer ++ rest.take chunkSize).take 16) then
        .stop (.error badMagic)
      else if H.maxUploadBytes < (buffer ++ rest.take chunkSize).length then .stop (.error (tooLarge H))
      else .more (buffer ++ rest.take chunkSize) (rest.drop chunkSize)
        (checked || 4 ≤ ((buffer ++ rest.take chunkSize).take 16).length) := by
  rw [readTurn, if_neg]
  rw [List.take_eq_nil_iff]
  exact not_or.mpr ⟨by decide, hrest⟩

/-- A turn that goes on has read something. -/
theorem length_lt_of_more {buffer' rest' : List UInt8} {checked' : Bool}
    (h : readTurn H kind buffer rest checked = .more buffer' rest' checked') : rest'.length < rest.length := by
  have hrest : rest ≠ [] := by
    rintro rfl
    rw [readTurn_nil] at h
    cases h
  rw [readTurn_of_ne_nil hrest] at h
  split at h
  · cases h
  split at h
  · cases h
  · cases h
    have := List.length_pos_of_ne_nil hrest
    rw [List.length_drop, chunkSize]
    omega

theorem restVerdict_of_lt {n : Nat} (h : H.maxUploadBytes < (buffer ++ rest.take n).length) :
    restVerdict H buffer rest = .error (tooLarge H) := by
  refine if_pos ?_
  rw [List.length_append, List.length_take] at h
  rw [List.length_append]
  omega

/-- The first turn, on a content that is not empty. -/
theorem gives_readTurn_start {body : List UInt8} (hbody : body ≠ []) :
    (readTurn H kind [] body false).gives H kind (readVerdict H kind body) := by
  have hhead : ((body.take chunkSize).take 16) = body.take 16 := by rw [List.take_take]; rfl
  have hlength : 4 ≤ (body.take 16).length ↔ 4 ≤ body.length := by rw [List.length_take]; omega
  rw [readTurn_of_ne_nil hbody, List.nil_append, hhead]
  by_cases hlong : 4 ≤ body.length
  · by_cases hsig : HasSignature kind body
    · rw [looksLike_head.mpr hsig, if_neg (by simp)]
      have hv : readVerdict H kind body = restVerdict H [] body := if_neg fun h => h.2 hsig
      split
      · rename_i hlarge
        exact (hv.trans (restVerdict_of_lt hlarge)).symm
      · rename_i hle
        rw [decide_eq_true (hlength.mpr hlong)]
        refine .checked (Nat.not_lt.mp hle) ?_
        rw [hv, restVerdict, restVerdict, List.take_append_drop, List.nil_append]
    · have hno : looksLike kind.magicPrefixes (body.take 16) = false :=
        Bool.eq_false_iff.mpr fun h => hsig (looksLike_head.mp h)
      rw [hno, decide_eq_true (hlength.mpr hlong)]
      exact (if_pos ⟨hlong, hsig⟩).symm
  · -- a content shorter than the check is read whole and never checked
    have hwhole : body.take chunkSize = body := List.take_of_length_le (by rw [chunkSize]; omega)
    have hnil : body.drop chunkSize = [] := List.drop_of_length_le (by rw [chunkSize]; omega)
    have hv : readVerdict H kind body = restVerdict H [] body := if_neg fun h => hlong h.1
    rw [decide_eq_false fun h => hlong (hlength.mp h), if_neg (by simp), hwhole, hnil, hv, restVerdict,
      List.nil_append]
    by_cases hlarge : H.maxUploadBytes < body.length
    · rw [if_pos hlarge, if_pos hlarge]
      rfl
    · rw [if_neg hlarge, if_neg hlarge]
      exact .short rfl

/-- A turn keeps the verdict. -/
theorem Gives.readTurn (h : Gives H kind v buffer rest checked) :
    (readTurn H kind buffer rest checked).gives H kind v := by
  by_cases hrest : rest = []
  · subst hrest
    rw [readTurn_nil]
    cases h with
    | start hv => rw [← hv]; exact (if_neg (by simp)).symm
    | checked hle hv => rw [← hv, restVerdict, List.append_nil]; exact (if_neg (Nat.not_lt.mpr hle)).symm
    | short hv => exact hv
  cases h with
  | short => exact absurd rfl hrest
  | start hv => exact hv ▸ gives_readTurn_start hrest
  | checked hle hv =>
    rw [readTurn_of_ne_nil hrest, if_neg (by simp)]
    split
    · rename_i hlarge
      exact ((restVerdict_of_lt hlarge).symm.trans hv)
    · rename_i hle
      refine .checked (Nat.not_lt.mp hle) ?_
      rw [← hv, restVerdict, restVerdict, List.append_assoc, List.take_append_drop]

end

/-! ## A run of the call -/

/-- What the call makes of an upload. -/
def verdict (H : Host) (req : UploadRequest) : Except HttpError (List UInt8) :=
  if req.allowed then readVerdict H req.kind req.body else .error (unsupportedContentType H req.contentType)

/-- The call has come this far, from the world `w₀`: nothing is written before the verdict is known. -/
inductive SaveInv (H : Host) (req : UploadRequest) (w₀ : PersonaWorld) : PersonaWorld × UploadPc → Prop
  | getting {row} (hrow : ensureWritable w₀.id row = none) : SaveInv H req w₀ (w₀, .getting (some row))
  | reading {buffer rest checked} (hv : Gives H req.kind (verdict H req) buffer rest checked) :
      SaveInv H req w₀ (w₀, .reading buffer rest checked)
  | closing {v} (hv : verdict H req = v) : SaveInv H req w₀ (w₀, .closing v)
  | writing {w name tmp data applied} (hv : verdict H req = .ok data)
      (hfile : applied = true → ∃ file, w.files.get req.kind.folder tmp = some file ∧ file.content = .bytes data) :
      SaveInv H req w₀ (w, .writing name tmp data applied)
  | stored {w name data file} (hv : verdict H req = .ok data)
      (hfile : w.files.get req.kind.folder name = some file) (hdata : file.content = .bytes data) :
      SaveInv H req w₀ (w, .inserting name data.length false)
  | raised {e} (hv : verdict H req = .error e) : SaveInv H req w₀ (w₀, .done (.error e))

section
variable {H : Host} {req : UploadRequest} {w₀ w : PersonaWorld} {s t : PersonaWorld × UploadPc}
  {out : PersonaWorld × UploadPc} {row : Option Status} {e : UploadEvent}

/-- The first step checks the content type. -/
theorem saveInv_entry (hrow : ensureWritable w₀.id row = none)
    (h : uploadStep H w₀ req (.getting (some row)) .resume = some out) : SaveInv H req w₀ out := by
  rw [uploadStep, hrow] at h
  dsimp only at h
  split at h <;> cases h <;> rename_i hallowed
  · exact .reading (.start (if_pos hallowed).symm)
  · exact .closing (if_neg hallowed)

section
variable {name tmp : String} {data : List UInt8} {unlinked : Bool} {file : File} {now : Nat}

theorem uploadStep_written (hdir : (w.files.dir req.kind.folder).isSome = true) :
    uploadStep H w req (.writing name tmp data false) (.written now) =
      some (w.onFiles fun fs => fs.write req.kind.folder tmp ⟨now, .bytes data, .other⟩,
        .writing name tmp data true) := by
  rw [uploadStep]
  exact if_pos hdir

theorem uploadStep_renamed (hget : w.files.get req.kind.folder tmp = some file) :
    uploadStep H w req (.writing name tmp data true) (.renamed none unlinked) =
      some (renameTmp w req.kind.folder tmp name file, .inserting name data.length false) := by
  rw [uploadStep]
  exact hget

/-- The rename stores what has been written. -/
theorem saveInv_renamed (hv : verdict H req = .ok data) (hget : w.files.get req.kind.folder tmp = some file)
    (hdata : file.content = .bytes data)
    (h : uploadStep H w req (.writing name tmp data true) (.renamed none unlinked) = some out) :
    SaveInv H req w₀ out := by
  obtain rfl := Option.some.inj ((uploadStep_renamed hget).symm.trans h)
  refine .stored hv (get_write_self ?_) hdata
  rw [Files.unlink, Files.dir_modify, Option.isSome_map]
  exact isSome_dir_of_get hget

end

/-- A step keeps the invariant. -/
theorem SaveInv.step (hs : SaveInv H req w₀ s) (he : Unhindered s e)
    (h : (saving H req).step s e = some t) : SaveInv H req w₀ t := by
  have hstep : UploadStep H s.1 req s.2 e t := uploadStep_inv h
  cases hs with
  | getting hrow =>
    cases hstep with
    | refused | accepted | unsupported => exact saveInv_entry hrow h
    | getFailed | cancelGetting => cases he
  | reading hv =>
    have hturn := hv.readTurn
    cases hstep with
    | more hr => rw [hr] at hturn; exact .reading hturn
    | stop hr => rw [hr] at hturn; exact .closing hturn.symm
    | readFailed | cancelReading => cases he
  | closing hv =>
    cases hstep with
    | closedError => exact .raised hv
    | opened => exact .writing hv nofun
    | nameRefused | mkdirFailed | closeFailed | cancelClosing => cases he
  | writing hv hfile =>
    cases hstep with
    | output => exact .writing hv nofun
    | written hd => exact .writing hv fun _ => ⟨_, get_write_self hd, rfl⟩
    | renamed =>
      obtain ⟨file, hget, hdata⟩ := hfile rfl
      exact saveInv_renamed hv hget hdata h
    | renameFailed =>
      rename_i fault _
      cases fault with
      | some => cases he
      | none =>
        obtain ⟨file, hget, hdata⟩ := hfile rfl
        exact saveInv_renamed hv hget hdata h
    | writeFailed | cancelWriting | cancelWritten => cases he
  | stored hv hfile hdata =>
    cases hstep with
    | insert | insertFailed | cancelInserting => cases he
  | raised => cases hstep

theorem saveInv_of_steps (hrow : ensureWritable w₀.id row = none)
    (h : (saving H req).Steps Unhindered (w₀, .getting (some row)) t) : SaveInv H req w₀ t :=
  h.inv (fun _ _ _ => SaveInv.step) (.getting hrow)

/-! ## The call returns -/

/-- The reading loop comes to its end. -/
theorem steps_reading {v : Except HttpError (List UInt8)} {buffer rest : List UInt8} {checked : Bool}
    (hv : Gives H req.kind v buffer rest checked) :
    (saving H req).Steps Unhindered (w, .reading buffer rest checked) (w, .closing v) := by
  induction hn : rest.length using Nat.strong_induction_on generalizing buffer rest checked with
  | _ n ih =>
    have hturn := hv.readTurn
    have hstep : (saving H req).step (w, .reading buffer rest checked) .resume =
        match readTurn H req.kind buffer rest checked with
        | .more buffer rest checked => some (w, .reading buffer rest checked)
        | .stop verdict => some (w, .closing verdict) := rfl
    cases hr : readTurn H req.kind buffer rest checked with
    | stop verdict =>
      rw [hr] at hturn hstep
      cases hturn
      exact .tail (e := .resume) (.refl _) rfl hstep
    | more buffer' rest' checked' =>
      rw [hr] at hturn hstep
      have hfirst : (saving H req).Steps Unhindered (w, .reading buffer rest checked)
          (w, .reading buffer' rest' checked') := .tail (e := .resume) (.refl _) rfl hstep
      exact hfirst.trans (ih _ (hn ▸ length_lt_of_more hr) hturn rfl)

/-- A verified content is written and renamed. -/
theorem steps_saved {data : List UInt8} :
    ∃ t, (saving H req).Steps Unhindered (w, .closing (.ok data)) t ∧ t.2.returned = true := by
  let w₁ := w.onFiles fun fs => fs.mkdir req.kind.folder
  have hdir : (w₁.files.dir req.kind.folder).isSome = true := congrArg Option.isSome Files.dir_mkdir
  have hopen : (saving H req).step (w, .closing (.ok data)) (.closed 0 0 false none) = some _ := rfl
  let name := uploadName req.filename 0
  let tmp := name ++ ".tmp." ++ Uuid.hex 0
  let w₂ := w₁.onFiles fun fs => fs.write req.kind.folder tmp ⟨0, .bytes data, .other⟩
  have hwrite : uploadStep H w₁ req (.writing name tmp data false) (.written 0) =
      some (w₂, .writing name tmp data true) :=
    uploadStep_written hdir
  have hget : w₂.files.get req.kind.folder tmp = some ⟨0, .bytes data, .other⟩ := get_write_self hdir
  have hrename : uploadStep H w₂ req (.writing name tmp data true) (.renamed none true) = some _ :=
    uploadStep_renamed hget
  exact ⟨_, .tail (e := .renamed none true) (.tail (e := .written 0)
    (.tail (e := .closed 0 0 false none) (.refl _) rfl hopen) rfl hwrite) rfl hrename, rfl⟩

/-- From the verdict to the return. -/
theorem steps_closing {v : Except HttpError (List UInt8)} :
    ∃ t, (saving H req).Steps Unhindered (w, .closing v) t ∧ t.2.returned = true := by
  cases v with
  | error e => exact ⟨(w, .done (.error e)), .tail (e := .resume) (.refl _) rfl rfl, rfl⟩
  | ok data => exact steps_saved

/-- Every call returns. -/
theorem save_returns (hrow : ensureWritable w.id row = none) :
    ∃ t, (saving H req).Steps Unhindered (w, .getting (some row)) t ∧ t.2.returned = true := by
  have hentry : (saving H req).step (w, .getting (some row)) .resume =
      if req.allowed then some (w, .reading [] req.body false)
      else some (w, .closing (.error (unsupportedContentType H req.contentType))) := by
    show uploadStep H w req (.getting (some row)) .resume = _
    rw [uploadStep, hrow]
    rfl
  by_cases hallowed : req.allowed = true
  · rw [if_pos hallowed] at hentry
    have hread := steps_reading (w := w) (.start rfl : Gives H req.kind (readVerdict H req.kind req.body) _ _ _)
    obtain ⟨t, hrun, hret⟩ : ∃ t, (saving H req).Steps Unhindered (w, .closing (readVerdict H req.kind req.body)) t ∧
        t.2.returned = true := steps_closing
    have hfirst : (saving H req).Steps Unhindered (w, .getting (some row)) (w, .reading [] req.body false) :=
      .tail (e := .resume) (.refl _) rfl hentry
    exact ⟨t, hfirst.trans (hread.trans hrun), hret⟩
  · rw [if_neg hallowed] at hentry
    have hfirst : (saving H req).Steps Unhindered (w, .getting (some row))
        (w, .closing (.error (unsupportedContentType H req.contentType))) := .tail (e := .resume) (.refl _) rfl hentry
    obtain ⟨t, hrun, hret⟩ : ∃ t, (saving H req).Steps Unhindered
        (w, .closing (.error (unsupportedContentType H req.contentType))) t ∧ t.2.returned = true := steps_closing
    exact ⟨t, hfirst.trans hrun, hret⟩

/-! ## When uploads are accepted exactly -/

/-- The content that the check passes over: shorter than four bytes, without a signature, and otherwise as
it is to be. -/
def Unchecked (H : Host) (req : UploadRequest) : Prop :=
  req.allowed = true ∧ req.body.length ≤ H.maxUploadBytes ∧ req.body.length < 4 ∧
    ¬ HasSignature req.kind req.body

theorem verdict_acceptable (h : Acceptable H req) : verdict H req = .ok req.body := by
  obtain ⟨hallowed, hle, hsig⟩ := h
  rw [verdict, if_pos hallowed, readVerdict, if_neg fun h => h.2 hsig, if_neg (Nat.not_lt.mpr hle)]

theorem verdict_unchecked (h : Unchecked H req) : verdict H req = .ok req.body := by
  obtain ⟨hallowed, hle, hshort, -⟩ := h
  rw [verdict, if_pos hallowed, readVerdict, if_neg fun h => by omega, if_neg (Nat.not_lt.mpr hle)]

theorem verdict_rejected (h : ¬ Acceptable H req) (hchecked : ¬ Unchecked H req) :
    ∃ e, verdict H req = .error e ∧ (e.status = 415 ∨ e.status = 413) := by
  unfold verdict
  split
  · rename_i hallowed
    unfold readVerdict
    split
    · exact ⟨_, rfl, .inl rfl⟩
    · rename_i hsig
      split
      · exact ⟨_, rfl, .inr rfl⟩
      · rename_i hlarge
        -- a content of four bytes has its signature, a shorter one would be unchecked without
        have hle := Nat.not_lt.mp hlarge
        by_cases hhas : HasSignature req.kind req.body
        · exact absurd ⟨hallowed, hle, hhas⟩ h
        · exact absurd ⟨hallowed, hle, Nat.not_le.mp fun h4 => hsig ⟨h4, hhas⟩, hhas⟩ hchecked
  · exact ⟨_, rfl, .inl rfl⟩

/-- What has been returned is the verdict. -/
theorem stored_of_verdict (ht : SaveInv H req w₀ t) (hret : t.2.returned = true)
    (hv : verdict H req = .ok req.body) : Stored req t := by
  cases ht with
  | stored hdata hfile hcontent =>
    obtain rfl := Except.ok.inj (hv.symm.trans hdata)
    exact ⟨_, _, rfl, hfile, hcontent⟩
  | raised herror => cases hv.symm.trans herror
  | getting | reading | closing | writing => cases hret

/-- A content that is not checked is stored, though it is not acceptable. -/
theorem not_acceptsExactly (h : Unchecked H req) : ¬ AcceptsExactly H req := by
  intro hexact
  have hrow : ensureWritable samplePersona.id (some .draft) = none := rfl
  obtain ⟨t, hrun, hret⟩ : ∃ t, (saving H req).Steps Unhindered (samplePersona, .getting (some (some .draft))) t ∧
      t.2.returned = true := save_returns hrow
  obtain ⟨name, file, hstored, -⟩ := stored_of_verdict (saveInv_of_steps hrow hrun) hret (verdict_unchecked h)
  obtain ⟨-, e, hdone, -⟩ := hexact.rejected _ t ⟨_, rfl, hrow⟩ hrun hret fun hacc => h.2.2.2 hacc.2.2
  cases hstored.symm.trans hdone

end

/-- Uploads are accepted exactly, save for allowed contents of fewer than four bytes that carry no signature. -/
theorem acceptsExactly_iff (H : Host) (req : UploadRequest) :
    AcceptsExactly H req ↔ ¬ (req.allowed = true ∧ req.body.length ≤ H.maxUploadBytes ∧ req.body.length < 4 ∧
      ¬ HasSignature req.kind req.body) := by
  refine ⟨fun hexact h => not_acceptsExactly h hexact, fun hchecked => ⟨?_, ?_, ?_⟩⟩
  · rintro ⟨w, pc⟩ ⟨row, rfl, hrow⟩
    exact save_returns hrow
  · rintro ⟨w, pc⟩ t ⟨row, rfl, hrow⟩ hrun hret hacc
    exact stored_of_verdict (saveInv_of_steps hrow hrun) hret (verdict_acceptable hacc)
  · rintro ⟨w, pc⟩ t ⟨row, rfl, hrow⟩ hrun hret hacc
    obtain ⟨e, hv, hstatus⟩ := verdict_rejected hacc hchecked
    cases saveInv_of_steps hrow hrun with
    | raised herror =>
      obtain rfl := Except.error.inj (hv.symm.trans herror)
      exact ⟨rfl, e, rfl, hstatus⟩
    | stored hdata => cases hv.symm.trans hdata
    | getting | reading | closing | writing => cases hret

/-- An empty photo is stored. -/
theorem emptyPhoto_stored : ¬ AcceptsExactly sampleHost ⟨.photo, some "image/jpeg", some "a.jpg", []⟩ :=
  not_acceptsExactly (by unfold Unchecked; decide)

end YeounEngine
