import YeounEngine.Repository
import YeounEngine.Lib.Relational
import YeounEngine.Lib.Machine

/-!
# The two branches of the repository

Every function of `app/db/repository.py` has two branches: one on dictionaries and lists of the process
(`USE_DB_MOCK`), and one on the SQL database. The database has the constraints of its schema: primary keys, one
answer to a question for each persona, and references from the four tables below `personas`, without a
cascade. The lists have none, and what Pydantic checks is checked at different times: the mock checks an event as it is
inserted and never checks a status, SQL checks a persona as it is read and never checks an event.

`alike_iff_admissible` says which calls make no difference.
-/

namespace YeounEngine

open Relational Transition

/-! ## Rows -/

/-- A row of `personas`. -/
structure PersonaRow where
  personasId : Uuid
  ownerUserId : Uuid
  name : String
  nickname : String
  status : String
  createdAt : Nat
  deriving DecidableEq, Repr

/-- `max_length` of `name`, `nickname` and `status` in `PersonaRecord`. -/
def nameMaxLength : Nat := 100

def nicknameMaxLength : Nat := 50

def statusMaxLength : Nat := 20

/-- `PersonaRecord`. `model_copy` does not check what it updates, so nothing is known of `status`. -/
structure PersonaRecord extends PersonaRow where
  name_le : name.length ≤ nameMaxLength
  nickname_le : nickname.length ≤ nicknameMaxLength
  deriving DecidableEq

/-- A row of `persona_interviews`, and `InterviewAnswer`. -/
structure InterviewRow where
  interviewId : Uuid
  personaId : Uuid
  questionNumber : Int
  answerText : Option String
  createdAt : Nat
  deriving DecidableEq, Repr

/-- A row of `persona_photo_assets`, but for its time. -/
structure PhotoAssetRow where
  photoAssetId : Uuid
  personaId : Uuid
  filesystemPath : String
  deriving DecidableEq, Repr

/-- A row of `persona_voice_assets`, but for its time. -/
structure VoiceAssetRow where
  voiceAssetId : Uuid
  personaId : Uuid
  originalName : String
  filesystemPath : String
  deriving DecidableEq, Repr

/-- A row of `persona_idle_clips`, but for its time. -/
structure IdleClipRow where
  clipId : Uuid
  personaId : Uuid
  sequenceOrder : Int
  filesystemPath : String
  deriving DecidableEq, Repr

/-- A row of `safety_logs`. -/
structure SafetyRow where
  logsId : Uuid
  userId : Uuid
  eventType : Option String
  actionKaten : Option String
  decetedAt : Option Nat
  cooldownEndedAt : Option Nat
  deriving DecidableEq, Repr

/-- The primary key of `safety_logs`. -/
def SafetyRow.key (r : SafetyRow) : Uuid × Uuid := (r.logsId, r.userId)

/-- `max_length` of `event_type` and `action_katen` in `SafetyEvent`. -/
def eventMaxLength : Nat := 50

/-- What `SafetyEvent` checks. -/
def SafetyRow.Fits (r : SafetyRow) : Prop :=
  (∀ text ∈ r.eventType, text.length ≤ eventMaxLength) ∧ ∀ text ∈ r.actionKaten, text.length ≤ eventMaxLength

instance (r : SafetyRow) : Decidable r.Fits := inferInstanceAs (Decidable (_ ∧ _))

/-- `SafetyEvent`. -/
structure SafetyEvent extends SafetyRow where
  fits : toSafetyRow.Fits
  deriving DecidableEq

/-! ## What is raised -/

/-- Pydantic refuses the fields of a model. -/
def validationError (model : String) : Exc := ⟨"ValidationError", "1 validation error for " ++ model⟩

/-- The database refuses a statement. -/
def integrityError (constraint : String) : Exc := ⟨"IntegrityError", constraint⟩

/-- `_raise_db_uninitialized`. -/
def dbUninitialized (funcName : String) : Exc :=
  ⟨"RuntimeError", funcName ++ ": DB sessionmaker 가 초기화되지 않았습니다 — " ++
    "USE_DB_MOCK=true 가 아닌데 부팅 단계에서 DB 연결이 실패한 상태."⟩

/-- `PersonaRecord(**row)`. -/
def PersonaRecord.ofRow (r : PersonaRow) : Except Exc PersonaRecord :=
  if h : r.name.length ≤ nameMaxLength ∧ r.nickname.length ≤ nicknameMaxLength then
    if r.status.length ≤ statusMaxLength then .ok ⟨r, h.1, h.2⟩ else .error (validationError "PersonaRecord")
  else .error (validationError "PersonaRecord")

/-! ## The mock store -/

/-- `_mock_personas` and the other stores of the process. -/
structure MockStore where
  personas : Uuid → Option PersonaRecord
  interviews : Uuid → Option (List InterviewRow)
  photoAssets : List PhotoAssetRow
  voiceAssets : List VoiceAssetRow
  idleClips : List IdleClipRow
  safetyLogs : List SafetyEvent

/-! ## The database -/

/-- The tables and their constraints. -/
structure Database where
  personas : Table PersonaRow.personasId
  interviews : Table InterviewRow.interviewId
  photoAssets : Table PhotoAssetRow.photoAssetId
  voiceAssets : Table VoiceAssetRow.voiceAssetId
  idleClips : Table IdleClipRow.clipId
  safetyLogs : Table SafetyRow.key
  questions : (interviews.rows.map fun r => (r.personaId, r.questionNumber)).Nodup
  interviewsRefer : Refers interviews.rows InterviewRow.personaId personas
  photoAssetsRefer : Refers photoAssets.rows PhotoAssetRow.personaId personas
  voiceAssetsRefer : Refers voiceAssets.rows VoiceAssetRow.personaId personas
  idleClipsRefer : Refers idleClips.rows IdleClipRow.personaId personas

namespace Database

/-- `UPDATE personas SET status = … WHERE personas_id = …`. -/
def updateStatus (db : Database) (id : Uuid) (status : String) : Database :=
  { db with
    personas := db.personas.update (fun r => r.personasId = id) (fun r => { r with status := status }) fun _ => rfl
    interviewsRefer := db.interviewsRefer.update
    photoAssetsRefer := db.photoAssetsRefer.update
    voiceAssetsRefer := db.voiceAssetsRefer.update
    idleClipsRefer := db.idleClipsRefer.update }

/-- `DELETE FROM persona_interviews WHERE persona_id = …`, and the same of the three other tables. -/
def deleteInterviews (db : Database) (id : Uuid) : Database :=
  { db with
    interviews := db.interviews.delete fun r => r.personaId = id
    questions := db.questions.sublist (List.filter_sublist.map _)
    interviewsRefer := db.interviewsRefer.subset (List.filter_subset_self _) }

def deletePhotoAssets (db : Database) (id : Uuid) : Database :=
  { db with
    photoAssets := db.photoAssets.delete fun r => r.personaId = id
    photoAssetsRefer := db.photoAssetsRefer.subset (List.filter_subset_self _) }

def deleteVoiceAssets (db : Database) (id : Uuid) : Database :=
  { db with
    voiceAssets := db.voiceAssets.delete fun r => r.personaId = id
    voiceAssetsRefer := db.voiceAssetsRefer.subset (List.filter_subset_self _) }

def deleteIdleClips (db : Database) (id : Uuid) : Database :=
  { db with
    idleClips := db.idleClips.delete fun r => r.personaId = id
    idleClipsRefer := db.idleClipsRefer.subset (List.filter_subset_self _) }

/-- No row refers to the persona. -/
def Unreferenced (db : Database) (id : Uuid) : Prop :=
  (∀ r ∈ db.interviews.rows, r.personaId ≠ id) ∧ (∀ r ∈ db.photoAssets.rows, r.personaId ≠ id) ∧
    (∀ r ∈ db.voiceAssets.rows, r.personaId ≠ id) ∧ ∀ r ∈ db.idleClips.rows, r.personaId ≠ id

instance (db : Database) (id : Uuid) : Decidable (db.Unreferenced id) := inferInstanceAs (Decidable (_ ∧ _))

/-- `DELETE FROM personas WHERE personas_id = …`, refused as long as a row refers to the persona. -/
def deletePersona (db : Database) (id : Uuid) : Except Exc Database :=
  if h : db.Unreferenced id then
    .ok { db with
      personas := db.personas.delete fun r => r.personasId = id
      interviewsRefer := db.interviewsRefer.delete h.1
      photoAssetsRefer := db.photoAssetsRefer.delete h.2.1
      voiceAssetsRefer := db.voiceAssetsRefer.delete h.2.2.1
      idleClipsRefer := db.idleClipsRefer.delete h.2.2.2 }
  else .error (integrityError "ForeignKeyViolationError")

/-- `INSERT` into a table below `personas`: the key is new, and the persona exists. -/
def insertChild {ρ : Type} {key : ρ → Uuid} (t : Table key) (personaId : ρ → Uuid)
    (personas : Table PersonaRow.personasId) (ht : Refers t.rows personaId personas) (r : ρ) :
    Except Exc { t' : Table key // Refers t'.rows personaId personas } :=
  if hnew : key r ∉ t.keys then
    if hrefers : personaId r ∈ personas.keys then .ok ⟨t.insert r hnew, ht.concat hrefers⟩
    else .error (integrityError "ForeignKeyViolationError")
  else .error (integrityError "UniqueViolationError")

/-- `INSERT INTO persona_photo_assets`, and the same of the two other tables. -/
def insertPhotoAsset (db : Database) (r : PhotoAssetRow) : Except Exc Database :=
  (insertChild db.photoAssets PhotoAssetRow.personaId db.personas db.photoAssetsRefer r).map fun t =>
    { db with photoAssets := t.1, photoAssetsRefer := t.2 }

def insertVoiceAsset (db : Database) (r : VoiceAssetRow) : Except Exc Database :=
  (insertChild db.voiceAssets VoiceAssetRow.personaId db.personas db.voiceAssetsRefer r).map fun t =>
    { db with voiceAssets := t.1, voiceAssetsRefer := t.2 }

def insertIdleClip (db : Database) (r : IdleClipRow) : Except Exc Database :=
  (insertChild db.idleClips IdleClipRow.personaId db.personas db.idleClipsRefer r).map fun t =>
    { db with idleClips := t.1, idleClipsRefer := t.2 }

/-- `INSERT INTO safety_logs`: it refers to no other table. -/
def insertSafetyRow (db : Database) (r : SafetyRow) : Except Exc Database :=
  if hnew : r.key ∉ db.safetyLogs.keys then .ok { db with safetyLogs := db.safetyLogs.insert r hnew }
  else .error (integrityError "UniqueViolationError")

end Database

/-! ## The functions of the repository -/

/-- Where the repository keeps its rows: `USE_DB_MOCK`, or a database, once its sessionmaker is there. -/
inductive Backend
  | mock (s : MockStore)
  | sql (db : Option Database)

/-- `get_persona`. -/
def getPersona (id : Uuid) : Backend → Except Exc (Option PersonaRecord)
  | .mock s => .ok (s.personas id)
  | .sql none => .ok none
  | .sql (some db) =>
    match db.personas.find id with
    | none => .ok none
    | some row => (PersonaRecord.ofRow row).map some

/-- `update_persona_status`. -/
def updatePersonaStatus (id : Uuid) (status : String) : Backend → Except Exc Backend
  | .mock s => .ok <| .mock <|
    match s.personas id with
    | none => s
    | some record => { s with personas := Function.update s.personas id (some { record with status := status }) }
  | .sql none => .error (dbUninitialized "update_persona_status")
  | .sql (some db) => .ok (.sql (some (db.updateStatus id status)))

/-- `delete_persona_tx`: the children, then the row. -/
def deletePersonaTx (id : Uuid) : Backend → Except Exc Backend
  | .mock s => .ok <| .mock <|
    { s with
      interviews := Function.update s.interviews id none
      photoAssets := s.photoAssets.filter fun a => a.personaId ≠ id
      voiceAssets := s.voiceAssets.filter fun a => a.personaId ≠ id
      idleClips := s.idleClips.filter fun c => c.personaId ≠ id
      personas := Function.update s.personas id none }
  | .sql none => .error (dbUninitialized "delete_persona_tx")
  | .sql (some db) =>
    (((((db.deleteInterviews id).deletePhotoAssets id).deleteVoiceAssets id).deleteIdleClips id).deletePersona id).map
      fun db => .sql (some db)

/-- `get_persona_interviews`. -/
def getPersonaInterviews (id : Uuid) : Backend → Except Exc (List InterviewRow)
  | .mock s => .ok (orderBy InterviewRow.questionNumber ((s.interviews id).getD []))
  | .sql none => .ok []
  | .sql (some db) => .ok (orderBy InterviewRow.questionNumber (db.interviews.select fun r => r.personaId = id))

/-- `insert_persona_photo_asset`. -/
def insertPersonaPhotoAsset (r : PhotoAssetRow) : Backend → Except Exc Backend
  | .mock s => .ok (.mock { s with photoAssets := s.photoAssets ++ [r] })
  | .sql none => .error (dbUninitialized "insert_persona_photo_asset")
  | .sql (some db) => (db.insertPhotoAsset r).map fun db => .sql (some db)

/-- `insert_persona_voice_asset`. -/
def insertPersonaVoiceAsset (r : VoiceAssetRow) : Backend → Except Exc Backend
  | .mock s => .ok (.mock { s with voiceAssets := s.voiceAssets ++ [r] })
  | .sql none => .error (dbUninitialized "insert_persona_voice_asset")
  | .sql (some db) => (db.insertVoiceAsset r).map fun db => .sql (some db)

/-- `insert_persona_idle_clip`. -/
def insertPersonaIdleClip (r : IdleClipRow) : Backend → Except Exc Backend
  | .mock s => .ok (.mock { s with idleClips := s.idleClips ++ [r] })
  | .sql none => .error (dbUninitialized "insert_persona_idle_clip")
  | .sql (some db) => (db.insertIdleClip r).map fun db => .sql (some db)

/-- `insert_safety_log`. -/
def insertSafetyLog (r : SafetyRow) : Backend → Except Exc Backend
  | .mock s =>
    if h : r.Fits then .ok (.mock { s with safetyLogs := s.safetyLogs ++ [⟨r, h⟩] })
    else .error (validationError "SafetyEvent")
  | .sql none => .error (dbUninitialized "insert_safety_log")
  | .sql (some db) => (db.insertSafetyRow r).map fun db => .sql (some db)

/-! ## Sequences of calls -/

/-- A call of the repository. -/
inductive RepositoryCall
  | getPersona (id : Uuid)
  | updatePersonaStatus (id : Uuid) (status : String)
  | deletePersonaTx (id : Uuid)
  | getPersonaInterviews (id : Uuid)
  | insertPersonaPhotoAsset (r : PhotoAssetRow)
  | insertPersonaVoiceAsset (r : VoiceAssetRow)
  | insertPersonaIdleClip (r : IdleClipRow)
  | insertSafetyLog (r : SafetyRow)

/-- What a call returns. -/
inductive Returned
  | unit
  | persona (record : Option PersonaRecord)
  | interviews (answers : List InterviewRow)
  deriving DecidableEq

/-- A read: the rows stay as they are. -/
def reads (b : Backend) (r : Except Exc Returned) : Except Exc Returned × Backend := (r, b)

/-- A write: when it raises, nothing has changed. -/
def writes (b : Backend) : Except Exc Backend → Except Exc Returned × Backend
  | .ok b' => (.ok .unit, b')
  | .error e => (.error e, b)

/-- The repository, one call after another. -/
def repository : Machine Backend RepositoryCall (Except Exc Returned) where
  step b
    | .getPersona id => reads b ((getPersona id b).map .persona)
    | .updatePersonaStatus id status => writes b (updatePersonaStatus id status b)
    | .deletePersonaTx id => writes b (deletePersonaTx id b)
    | .getPersonaInterviews id => reads b ((getPersonaInterviews id b).map .interviews)
    | .insertPersonaPhotoAsset r => writes b (insertPersonaPhotoAsset r b)
    | .insertPersonaVoiceAsset r => writes b (insertPersonaVoiceAsset r b)
    | .insertPersonaIdleClip r => writes b (insertPersonaIdleClip r b)
    | .insertSafetyLog r => writes b (insertSafetyLog r b)

/-- Both calls raise, or both return the same. -/
def SameAnswer : Except Exc Returned → Except Exc Returned → Prop
  | .ok v, .ok v' => v = v'
  | .error _, .error _ => True
  | _, _ => False

/-- The mock store holds the rows of the database. -/
structure SameRows (s : MockStore) (db : Database) : Prop where
  personas : ∀ id, (s.personas id).map PersonaRecord.toPersonaRow = db.personas.find id
  interviews : ∀ id, ((s.interviews id).getD []).Perm (db.interviews.select fun r => r.personaId = id)
  photoAssets : s.photoAssets.Perm db.photoAssets.rows
  voiceAssets : s.voiceAssets.Perm db.voiceAssets.rows
  idleClips : s.idleClips.Perm db.idleClips.rows
  safetyLogs : (s.safetyLogs.map SafetyEvent.toSafetyRow).Perm db.safetyLogs.rows

/-- The two branches are in related states. -/
def Related : Backend → Backend → Prop
  | .mock s, .sql (some db) => SameRows s db
  | _, _ => False

/-- The persona exists, and the key is new. -/
structure NewChild {ρ : Type} (s : MockStore) (rows : List ρ) (key personaId : ρ → Uuid) (r : ρ) : Prop where
  key : key r ∉ rows.map key
  persona : (s.personas (personaId r)).isSome = true

/-- The call makes no difference: a persona is read whose status fits, a row is inserted that is new and belongs to a
persona, an event fits if it is new, and does not fit if it is not. -/
def Admissible : Backend → RepositoryCall → Prop
  | .mock s, .getPersona id => ∀ record ∈ s.personas id, record.status.length ≤ statusMaxLength
  | .mock s, .insertPersonaPhotoAsset r => NewChild s s.photoAssets PhotoAssetRow.photoAssetId PhotoAssetRow.personaId r
  | .mock s, .insertPersonaVoiceAsset r => NewChild s s.voiceAssets VoiceAssetRow.voiceAssetId VoiceAssetRow.personaId r
  | .mock s, .insertPersonaIdleClip r => NewChild s s.idleClips IdleClipRow.clipId IdleClipRow.personaId r
  | .mock s, .insertSafetyLog r => r.Fits ↔ r.key ∉ s.safetyLogs.map fun e => e.key
  | _, _ => True

/-! ## What the statements do -/

section
variable {s s' : MockStore} {db db' : Database} {id id' : Uuid}

/-- A record of the mock store, read back from its row. -/
theorem ofRow_record (record : PersonaRecord) : PersonaRecord.ofRow record.toPersonaRow =
    if record.status.length ≤ statusMaxLength then .ok record else .error (validationError "PersonaRecord") :=
  dif_pos ⟨record.name_le, record.nickname_le⟩

/-- The children go first, so the persona can go. -/
theorem unreferenced_of_deleted (db : Database) (id : Uuid) :
    ((((db.deleteInterviews id).deletePhotoAssets id).deleteVoiceAssets id).deleteIdleClips id).Unreferenced id := by
  have hkept : ∀ {ρ : Type} {personaId : ρ → Uuid} {rows : List ρ},
      ∀ r ∈ rows.filter (fun r => !decide (personaId r = id)), personaId r ≠ id := by
    intro ρ personaId rows r hr heq
    have hne := (List.mem_filter.mp hr).2
    rw [decide_eq_true heq] at hne
    cases hne
  exact ⟨hkept, hkept, hkept, hkept⟩

/-- The answers of a persona are to different questions. -/
theorem nodup_questionNumbers (db : Database) (id : Uuid) :
    ((db.interviews.select fun r => r.personaId = id).map InterviewRow.questionNumber).Nodup := by
  have hpairs : (((db.interviews.select fun r => r.personaId = id).map InterviewRow.questionNumber).map
      fun number => (id, number)).Nodup := by
    rw [List.map_map]
    have hsame : (db.interviews.select fun r => r.personaId = id).map (fun r => (r.personaId, r.questionNumber)) =
        (db.interviews.select fun r => r.personaId = id).map fun r => (id, r.questionNumber) :=
      List.map_congr_left fun r hr => by rw [of_decide_eq_true (List.mem_filter.mp hr).2]
    exact hsame ▸ db.questions.sublist (List.filter_sublist.map _)
  exact hpairs.of_map

section
variable {ρ : Type} {key personaId : ρ → Uuid} {t : Table key} {personas : Table PersonaRow.personasId}
  {rows : List ρ} {r : ρ}

/-- The database takes a row that is new for the mock store. -/
theorem insertChild_of_new (ht : Refers t.rows personaId personas) (h : NewChild s rows key personaId r)
    (hrows : rows.Perm t.rows)
    (hpersonas : ∀ id, (s.personas id).map PersonaRecord.toPersonaRow = personas.find id) :
    ∃ t', Database.insertChild t personaId personas ht r = .ok t' ∧ t'.1.rows = t.rows ++ [r] := by
  have hnew : key r ∉ t.keys := fun hmem => h.key ((hrows.map key).mem_iff.mpr hmem)
  have hrefers : personaId r ∈ personas.keys := by
    rw [← Table.isSome_find, ← hpersonas, Option.isSome_map]
    exact h.persona
  rw [Database.insertChild, dif_pos hnew, dif_pos hrefers]
  exact ⟨_, rfl, rfl⟩

/-- And refuses one that is not. -/
theorem insertChild_of_not_new (ht : Refers t.rows personaId personas) (h : ¬ NewChild s rows key personaId r)
    (hrows : rows.Perm t.rows)
    (hpersonas : ∀ id, (s.personas id).map PersonaRecord.toPersonaRow = personas.find id) :
    ∃ e, Database.insertChild t personaId personas ht r = .error e := by
  unfold Database.insertChild
  split
  · rename_i hnew
    split
    · rename_i hrefers
      rw [← Table.isSome_find, ← hpersonas, Option.isSome_map] at hrefers
      exact absurd ⟨fun hmem => hnew ((hrows.map key).mem_iff.mp hmem), hrefers⟩ h
    · exact ⟨_, rfl⟩
  · exact ⟨_, rfl⟩

end

/-! ## One call -/

/-- The two branches answer a call alike exactly if it is admissible, and are then in related states again. -/
structure Simulates (s : MockStore) (db : Database) (call : RepositoryCall) : Prop where
  exact : SameAnswer (repository.step (.mock s) call).1 (repository.step (.sql (some db)) call).1 ↔
    Admissible (.mock s) call
  kept : Admissible (.mock s) call →
    Related (repository.step (.mock s) call).2 (repository.step (.sql (some db)) call).2

theorem simulates_getPersona (h : SameRows s db) : Simulates s db (.getPersona id) := by
  refine ⟨?_, fun _ => h⟩
  change SameAnswer (.ok (.persona (s.personas id))) (Except.map Returned.persona
    (match db.personas.find id with
      | none => .ok none
      | some row => (PersonaRecord.ofRow row).map some)) ↔ ∀ record ∈ s.personas id, _
  have hpersona := h.personas id
  cases hs : s.personas id with
  | none =>
    rw [hs] at hpersona
    rw [← hpersona]
    exact iff_of_true rfl fun _ hrecord => by cases hrecord
  | some record =>
    rw [hs] at hpersona
    rw [← hpersona]
    dsimp only [Option.map_some]
    rw [ofRow_record]
    split
    · rename_i hfits
      exact iff_of_true rfl fun _ hrecord => by cases hrecord; exact hfits
    · rename_i hlong
      exact iff_of_false (fun hsame => hsame.elim) fun hfits => hlong (hfits record rfl)

/-- Both branches write. -/
theorem simulates_of_ok {call : RepositoryCall} (hadmissible : Admissible (.mock s) call)
    (hmock : repository.step (.mock s) call = (.ok .unit, .mock s'))
    (hsql : repository.step (.sql (some db)) call = (.ok .unit, .sql (some db'))) (h : SameRows s' db') :
    Simulates s db call := by
  refine ⟨?_, fun _ => ?_⟩
  · rw [hmock, hsql]
    exact iff_of_true rfl hadmissible
  · rw [hmock, hsql]
    exact h

theorem find_updateStatus_self {status : String} : (db.updateStatus id status).personas.find id =
    (db.personas.find id).map fun r => { r with status := status } :=
  Table.find_update_self (t := db.personas) (f := fun r => { r with status := status }) fun _ => rfl

theorem find_updateStatus_of_ne {status : String} (hne : id' ≠ id) :
    (db.updateStatus id status).personas.find id' = db.personas.find id' :=
  Table.find_update_of_ne (t := db.personas) (f := fun r => { r with status := status }) (fun _ => rfl) hne

/-- Nothing happens when the row is missing. -/
theorem updatePersonaStatus_mock {status : String} : updatePersonaStatus id status (.mock s) = .ok (.mock { s with
    personas := Function.update s.personas id
      ((s.personas id).map fun record => { record with status := status }) }) := by
  rw [updatePersonaStatus]
  cases hs : s.personas id with
  | none => rw [Option.map_none, Function.update_eq_self_iff.mpr hs.symm]
  | some record => rfl

theorem simulates_updatePersonaStatus {status : String} (h : SameRows s db) :
    Simulates s db (.updatePersonaStatus id status) := by
  refine simulates_of_ok trivial (congrArg (writes (.mock s)) updatePersonaStatus_mock) rfl
    ⟨fun id' => ?_, h.interviews, h.photoAssets, h.voiceAssets, h.idleClips, h.safetyLogs⟩
  dsimp only
  by_cases hid : id' = id
  · subst hid
    rw [Function.update_self, find_updateStatus_self, ← h.personas id', Option.map_map, Option.map_map]
    rfl
  · rw [Function.update_of_ne hid, find_updateStatus_of_ne hid]
    exact h.personas id'

/-- The rows of the other personas stay. -/
theorem filter_kept {ρ : Type} {personaId : ρ → Uuid} {rows rows' : List ρ} (h : rows.Perm rows') :
    (rows.filter fun r => personaId r ≠ id).Perm (rows'.filter fun r => !decide (personaId r = id)) := by
  simp only [ne_eq, decide_not]
  exact h.filter _

theorem simulates_deletePersonaTx (h : SameRows s db) : Simulates s db (.deletePersonaTx id) := by
  have hfree := unreferenced_of_deleted db id
  have hdelete : ∃ db', ((((db.deleteInterviews id).deletePhotoAssets id).deleteVoiceAssets id).deleteIdleClips
      id).deletePersona id = .ok db' ∧
      (∀ id', db'.personas.find id' = if id' = id then none else db.personas.find id') ∧
      db'.interviews = db.interviews.delete (fun r => r.personaId = id) ∧
      db'.photoAssets = db.photoAssets.delete (fun r => r.personaId = id) ∧
      db'.voiceAssets = db.voiceAssets.delete (fun r => r.personaId = id) ∧
      db'.idleClips = db.idleClips.delete (fun r => r.personaId = id) ∧ db'.safetyLogs = db.safetyLogs := by
    refine ⟨_, dif_pos hfree, fun id' => ?_, rfl, rfl, rfl, rfl, rfl⟩
    split
    · rename_i hid
      subst hid
      exact Table.find_delete_self
    · rename_i hid
      exact Table.find_delete_of_ne hid
  obtain ⟨db', hok, hpersonas, hinterviews, hphotos, hvoices, hclips, hlogs⟩ := hdelete
  have hsql : repository.step (.sql (some db)) (.deletePersonaTx id) = (.ok .unit, .sql (some db')) := by
    change writes _ ((Database.deletePersona _ id).map _) = _
    rw [hok]
    rfl
  refine simulates_of_ok trivial rfl hsql ⟨fun id' => ?_, fun id' => ?_, ?_, ?_, ?_, ?_⟩
  · rw [hpersonas]
    dsimp only
    by_cases hid : id' = id
    · subst hid
      rw [Function.update_self, if_pos rfl]
      rfl
    · rw [Function.update_of_ne hid, if_neg hid]
      exact h.personas id'
  · rw [hinterviews]
    dsimp only
    by_cases hid : id' = id
    · subst hid
      rw [Function.update_self, Table.select_delete_self]
      exact .refl _
    · rw [Function.update_of_ne hid, Table.select_delete fun r _ hr => ?_]
      · exact h.interviews id'
      · exact decide_eq_false fun heq => hid ((of_decide_eq_true hr).symm.trans heq)
  · rw [hphotos]
    exact filter_kept h.photoAssets
  · rw [hvoices]
    exact filter_kept h.voiceAssets
  · rw [hclips]
    exact filter_kept h.idleClips
  · rw [hlogs]
    exact h.safetyLogs

theorem simulates_getPersonaInterviews (h : SameRows s db) : Simulates s db (.getPersonaInterviews id) := by
  have hnodup : (((s.interviews id).getD []).map InterviewRow.questionNumber).Nodup :=
    ((h.interviews id).map _).nodup_iff.mpr (nodup_questionNumbers db id)
  refine ⟨iff_of_true ?_ trivial, fun _ => h⟩
  exact congrArg Returned.interviews (orderBy_eq_of_perm (h.interviews id) hnodup)

/-- The mock store takes a row, and the database takes it if it is new. -/
theorem simulates_insert {call : RepositoryCall} {new : Prop} {out : Except Exc Database}
    (hadmissible : Admissible (.mock s) call = new)
    (hmock : repository.step (.mock s) call = (.ok .unit, .mock s'))
    (hsql : repository.step (.sql (some db)) call = writes (.sql (some db)) (out.map fun db => .sql (some db)))
    (hnew : new → ∃ db', out = .ok db' ∧ SameRows s' db') (hold : ¬ new → ∃ e, out = .error e) :
    Simulates s db call := by
  by_cases h : new
  · obtain ⟨db', rfl, hrows⟩ := hnew h
    exact simulates_of_ok (hadmissible ▸ h) hmock hsql hrows
  · obtain ⟨e, rfl⟩ := hold h
    refine ⟨?_, fun hcall => absurd (hadmissible ▸ hcall) h⟩
    rw [hmock, hsql, hadmissible]
    exact iff_of_false (fun hsame => hsame.elim) h

theorem simulates_insertPersonaPhotoAsset {r : PhotoAssetRow} (h : SameRows s db) :
    Simulates s db (.insertPersonaPhotoAsset r) := by
  refine simulates_insert rfl rfl rfl (fun hnew => ?_) fun hold => ?_
  · obtain ⟨t, ht, hrows⟩ := insertChild_of_new db.photoAssetsRefer hnew h.photoAssets h.personas
    refine ⟨_, congrArg (Except.map _) ht, h.personas, h.interviews, ?_, h.voiceAssets, h.idleClips, h.safetyLogs⟩
    dsimp only
    rw [hrows]
    exact h.photoAssets.append_right _
  · obtain ⟨e, he⟩ := insertChild_of_not_new db.photoAssetsRefer hold h.photoAssets h.personas
    exact ⟨e, congrArg (Except.map _) he⟩

theorem simulates_insertPersonaVoiceAsset {r : VoiceAssetRow} (h : SameRows s db) :
    Simulates s db (.insertPersonaVoiceAsset r) := by
  refine simulates_insert rfl rfl rfl (fun hnew => ?_) fun hold => ?_
  · obtain ⟨t, ht, hrows⟩ := insertChild_of_new db.voiceAssetsRefer hnew h.voiceAssets h.personas
    refine ⟨_, congrArg (Except.map _) ht, h.personas, h.interviews, h.photoAssets, ?_, h.idleClips, h.safetyLogs⟩
    dsimp only
    rw [hrows]
    exact h.voiceAssets.append_right _
  · obtain ⟨e, he⟩ := insertChild_of_not_new db.voiceAssetsRefer hold h.voiceAssets h.personas
    exact ⟨e, congrArg (Except.map _) he⟩

theorem simulates_insertPersonaIdleClip {r : IdleClipRow} (h : SameRows s db) :
    Simulates s db (.insertPersonaIdleClip r) := by
  refine simulates_insert rfl rfl rfl (fun hnew => ?_) fun hold => ?_
  · obtain ⟨t, ht, hrows⟩ := insertChild_of_new db.idleClipsRefer hnew h.idleClips h.personas
    refine ⟨_, congrArg (Except.map _) ht, h.personas, h.interviews, h.photoAssets, h.voiceAssets, ?_, h.safetyLogs⟩
    dsimp only
    rw [hrows]
    exact h.idleClips.append_right _
  · obtain ⟨e, he⟩ := insertChild_of_not_new db.idleClipsRefer hold h.idleClips h.personas
    exact ⟨e, congrArg (Except.map _) he⟩

theorem step_insertSafetyLog_of_new {r : SafetyRow} (hnew : r.key ∉ db.safetyLogs.keys) :
    repository.step (.sql (some db)) (.insertSafetyLog r) =
      (.ok .unit, .sql (some { db with safetyLogs := db.safetyLogs.insert r hnew })) := by
  have hrow : db.insertSafetyRow r = .ok { db with safetyLogs := db.safetyLogs.insert r hnew } := dif_pos hnew
  change writes _ ((db.insertSafetyRow r).map _) = _
  rw [hrow]
  rfl

theorem step_insertSafetyLog_of_not_new {r : SafetyRow} (hold : ¬ r.key ∉ db.safetyLogs.keys) :
    repository.step (.sql (some db)) (.insertSafetyLog r) =
      (.error (integrityError "UniqueViolationError"), .sql (some db)) := by
  have hrow : db.insertSafetyRow r = .error (integrityError "UniqueViolationError") := dif_neg hold
  change writes _ ((db.insertSafetyRow r).map _) = _
  rw [hrow]
  rfl

/-- An event that does not fit is refused by the mock store alone, and one that is there by the database alone. -/
theorem simulates_insertSafetyLog {r : SafetyRow} (h : SameRows s db) : Simulates s db (.insertSafetyLog r) := by
  have hkeys : (r.key ∉ s.safetyLogs.map fun e => e.key) ↔ r.key ∉ db.safetyLogs.keys := by
    have hperm := h.safetyLogs.map SafetyRow.key
    rw [List.map_map] at hperm
    exact not_congr hperm.mem_iff
  by_cases hfits : r.Fits
  · have hmock : repository.step (.mock s) (.insertSafetyLog r) =
        (.ok .unit, .mock { s with safetyLogs := s.safetyLogs ++ [⟨r, hfits⟩] }) :=
      congrArg (writes (.mock s)) (dif_pos hfits)
    by_cases hnew : r.key ∉ db.safetyLogs.keys
    · refine simulates_of_ok (iff_of_true hfits (hkeys.mpr hnew)) hmock (step_insertSafetyLog_of_new hnew)
        ⟨h.personas, h.interviews, h.photoAssets, h.voiceAssets, h.idleClips, ?_⟩
      rw [List.map_append]
      exact h.safetyLogs.append_right _
    · have hold : ¬ (r.Fits ↔ r.key ∉ s.safetyLogs.map fun e => e.key) := fun hcall => hnew (hkeys.mp (hcall.mp hfits))
      refine ⟨?_, fun hcall => absurd hcall hold⟩
      rw [hmock, step_insertSafetyLog_of_not_new hnew]
      exact iff_of_false (fun hsame => hsame.elim) hold
  · have hmock : repository.step (.mock s) (.insertSafetyLog r) = (.error (validationError "SafetyEvent"), .mock s) :=
      congrArg (writes (.mock s)) (dif_neg hfits)
    by_cases hnew : r.key ∉ db.safetyLogs.keys
    · have hold : ¬ (r.Fits ↔ r.key ∉ s.safetyLogs.map fun e => e.key) :=
        fun hcall => hfits (hcall.mpr (hkeys.mpr hnew))
      refine ⟨?_, fun hcall => absurd hcall hold⟩
      rw [hmock, step_insertSafetyLog_of_new hnew]
      exact iff_of_false (fun hsame => hsame.elim) hold
    · refine ⟨?_, fun _ => ?_⟩
      · rw [hmock, step_insertSafetyLog_of_not_new hnew]
        exact iff_of_true trivial (iff_of_false hfits (mt hkeys.mp hnew))
      · rw [hmock, step_insertSafetyLog_of_not_new hnew]
        exact h

/-- Every call. -/
theorem SameRows.simulates (h : SameRows s db) : ∀ call, Simulates s db call
  | .getPersona _ => simulates_getPersona h
  | .updatePersonaStatus _ _ => simulates_updatePersonaStatus h
  | .deletePersonaTx _ => simulates_deletePersonaTx h
  | .getPersonaInterviews _ => simulates_getPersonaInterviews h
  | .insertPersonaPhotoAsset _ => simulates_insertPersonaPhotoAsset h
  | .insertPersonaVoiceAsset _ => simulates_insertPersonaVoiceAsset h
  | .insertPersonaIdleClip _ => simulates_insertPersonaIdleClip h
  | .insertSafetyLog _ => simulates_insertSafetyLog h

theorem Related.simulates : ∀ {b b' : Backend} (call : RepositoryCall), Related b b' →
    (SameAnswer (repository.step b call).1 (repository.step b' call).1 ↔ Admissible b call) ∧
      (Admissible b call → Related (repository.step b call).2 (repository.step b' call).2)
  | .mock _, .sql (some _), call, h => ⟨(SameRows.simulates h call).exact, (SameRows.simulates h call).kept⟩
  | .mock _, .sql none, _, h | .mock _, .mock _, _, h | .sql _, _, _, h => h.elim

end

/-! ## One persona -/

/-- The rows of the mock store that are about a persona are the ones that its handlers see. -/
structure MockStore.Holds (s : MockStore) (w : PersonaWorld) : Prop where
  row : (s.personas w.id).map (fun r => r.status) = w.row.map Status.str
  interviews : ((s.interviews w.id).getD []).map (fun r => (r.questionNumber, r.answerText)) =
    w.interviews.map fun a => ((a.questionNumber : Int), a.answerText)
  photoAssets : (s.photoAssets.filter fun r => r.personaId = w.id).map (fun r => ⟨r.photoAssetId, r.filesystemPath⟩) =
    w.photoAssets
  voiceAssets : (s.voiceAssets.filter fun r => r.personaId = w.id).map
    (fun r => ⟨r.voiceAssetId, r.originalName, r.filesystemPath⟩) = w.voiceAssets
  idleClips : (s.idleClips.filter fun r => r.personaId = w.id).map
    (fun r => (r.clipId, r.sequenceOrder, r.filesystemPath)) =
      w.idleClips.map fun c => (c.clipId, (c.sequenceOrder : Int), c.filesystemPath)

/-- The persona that a write is about. -/
def RepositoryCall.persona : RepositoryCall → Option Uuid
  | .updatePersonaStatus id _ | .deletePersonaTx id => some id
  | .insertPersonaPhotoAsset r => some r.personaId
  | .insertPersonaVoiceAsset r => some r.personaId
  | .insertPersonaIdleClip r => some r.personaId
  | .getPersona _ | .getPersonaInterviews _ | .insertSafetyLog _ => none

/-- A call as the handlers of a persona make it, or one that is not about it. -/
inductive PersonaCall (w : PersonaWorld) : RepositoryCall → PersonaWorld → Prop
  | status {status : Status} : PersonaCall w (.updatePersonaStatus w.id status.str) (w.updatePersonaStatus status)
  | delete : PersonaCall w (.deletePersonaTx w.id) w.deletePersonaTx
  | photo {a : PhotoAsset} : PersonaCall w (.insertPersonaPhotoAsset ⟨a.photoAssetId, w.id, a.filesystemPath⟩)
      (w.insertPersonaPhotoAsset a)
  | voice {a : VoiceAsset} : PersonaCall w
      (.insertPersonaVoiceAsset ⟨a.voiceAssetId, w.id, a.originalName, a.filesystemPath⟩) (w.insertPersonaVoiceAsset a)
  | clip {c : IdleClip} : PersonaCall w (.insertPersonaIdleClip ⟨c.clipId, w.id, c.sequenceOrder, c.filesystemPath⟩)
      (w.insertPersonaIdleClip c)
  | other {call} (h : call.persona ≠ some w.id) : PersonaCall w call w

section
variable {s : MockStore} {w w' : PersonaWorld} {call : RepositoryCall} {id id' : Uuid}

section
variable {ρ α : Type} {rows : List ρ} {r : ρ} {g : ρ → α} {own : List α} (f : ρ → Uuid)

/-- A row of the persona is added to its own ones. -/
theorem own_concat (h : f r = id) (hown : (rows.filter fun r => f r = id).map g = own) :
    ((rows ++ [r]).filter fun r => f r = id).map g = own ++ [g r] := by
  rw [List.filter_append, List.filter_cons, if_pos (decide_eq_true h), List.filter_nil, List.map_append, hown]
  rfl

/-- A row of another persona is not. -/
theorem own_concat_of_ne (h : f r ≠ id) (hown : (rows.filter fun r => f r = id).map g = own) :
    ((rows ++ [r]).filter fun r => f r = id).map g = own := by
  rw [List.filter_append, List.filter_cons, if_neg fun heq => h (of_decide_eq_true heq), List.filter_nil,
    List.append_nil]
  exact hown

/-- The rows of the persona are deleted. -/
theorem own_deleted : ((rows.filter fun r => f r ≠ id).filter fun r => f r = id).map g = [] := by
  refine List.map_eq_nil_iff.mpr (List.filter_eq_nil_iff.mpr fun r hr heq => ?_)
  exact of_decide_eq_true (List.mem_filter.mp hr).2 (of_decide_eq_true heq)

/-- The rows of another one are. -/
theorem own_deleted_of_ne (hne : id' ≠ id) (hown : (rows.filter fun r => f r = id).map g = own) :
    ((rows.filter fun r => f r ≠ id').filter fun r => f r = id).map g = own := by
  have hkept : (rows.filter fun r => f r ≠ id').filter (fun r => f r = id) = rows.filter fun r => f r = id := by
    rw [List.filter_filter]
    refine List.filter_congr fun r _ => ?_
    by_cases h : f r = id
    · have hother : f r ≠ id' := fun heq => hne (heq.symm.trans h)
      rw [decide_eq_true h, decide_eq_true hother]
      rfl
    · rw [decide_eq_false h, Bool.false_and]
  rw [hkept]
  exact hown

end

/-- A call that is about another persona, or writes no row of one. -/
theorem MockStore.Holds.step_other (h : s.Holds w) (hne : call.persona ≠ some w.id) :
    ∃ answer s', repository.step (.mock s) call = (answer, .mock s') ∧ s'.Holds w := by
  cases call with
  | getPersona | getPersonaInterviews => exact ⟨_, s, rfl, h⟩
  | insertSafetyLog r =>
    by_cases hfits : r.Fits
    · exact ⟨_, _, congrArg (writes (.mock s)) (dif_pos hfits), h.row, h.interviews, h.photoAssets, h.voiceAssets,
        h.idleClips⟩
    · exact ⟨_, s, congrArg (writes (.mock s)) (dif_neg hfits), h⟩
  | updatePersonaStatus id status =>
    have hid : w.id ≠ id := fun heq => hne (congrArg some heq.symm)
    refine ⟨_, _, congrArg (writes (.mock s)) updatePersonaStatus_mock, ?_, h.interviews, h.photoAssets, h.voiceAssets,
      h.idleClips⟩
    dsimp only
    rw [Function.update_of_ne hid]
    exact h.row
  | deletePersonaTx id =>
    have hid : w.id ≠ id := fun heq => hne (congrArg some heq.symm)
    refine ⟨_, _, rfl, ?_, ?_, own_deleted_of_ne PhotoAssetRow.personaId hid.symm h.photoAssets,
      own_deleted_of_ne VoiceAssetRow.personaId hid.symm h.voiceAssets,
      own_deleted_of_ne IdleClipRow.personaId hid.symm h.idleClips⟩
    · dsimp only
      rw [Function.update_of_ne hid]
      exact h.row
    · dsimp only
      rw [Function.update_of_ne hid]
      exact h.interviews
  | insertPersonaPhotoAsset r =>
    exact ⟨_, _, rfl, h.row, h.interviews,
      own_concat_of_ne PhotoAssetRow.personaId (fun heq => hne (congrArg some heq)) h.photoAssets, h.voiceAssets,
      h.idleClips⟩
  | insertPersonaVoiceAsset r =>
    exact ⟨_, _, rfl, h.row, h.interviews, h.photoAssets,
      own_concat_of_ne VoiceAssetRow.personaId (fun heq => hne (congrArg some heq)) h.voiceAssets, h.idleClips⟩
  | insertPersonaIdleClip r =>
    exact ⟨_, _, rfl, h.row, h.interviews, h.photoAssets, h.voiceAssets,
      own_concat_of_ne IdleClipRow.personaId (fun heq => hne (congrArg some heq)) h.idleClips⟩

/-- A call changes the rows of a persona as its handlers take it to. -/
theorem MockStore.Holds.step (h : s.Holds w) (hcall : PersonaCall w call w') :
    ∃ answer s', repository.step (.mock s) call = (answer, .mock s') ∧ s'.Holds w' := by
  cases hcall with
  | @status status =>
    refine ⟨_, _, congrArg (writes (.mock s)) updatePersonaStatus_mock, ?_, h.interviews, h.photoAssets, h.voiceAssets,
      h.idleClips⟩
    have hrow := congrArg (Option.map fun _ => status.str) h.row
    rw [Option.map_map, Option.map_map] at hrow
    dsimp only [PersonaWorld.updatePersonaStatus]
    rw [Function.update_self, Option.map_map, Option.map_map]
    exact hrow
  | delete =>
    refine ⟨_, _, rfl, ?_, ?_, own_deleted PhotoAssetRow.personaId, own_deleted VoiceAssetRow.personaId,
      own_deleted IdleClipRow.personaId⟩
    · change (Function.update s.personas w.id none w.id).map _ = none
      rw [Function.update_self]
      rfl
    · change ((Function.update s.interviews w.id none w.id).getD []).map _ = []
      rw [Function.update_self]
      rfl
  | photo =>
    exact ⟨_, _, rfl, h.row, h.interviews, own_concat PhotoAssetRow.personaId rfl h.photoAssets, h.voiceAssets,
      h.idleClips⟩
  | voice =>
    exact ⟨_, _, rfl, h.row, h.interviews, h.photoAssets, own_concat VoiceAssetRow.personaId rfl h.voiceAssets,
      h.idleClips⟩
  | @clip c =>
    have hown := own_concat IdleClipRow.personaId (r := ⟨c.clipId, w.id, c.sequenceOrder, c.filesystemPath⟩) rfl
      h.idleClips
    refine ⟨_, _, rfl, h.row, h.interviews, h.photoAssets, h.voiceAssets, hown.trans ?_⟩
    dsimp only [PersonaWorld.insertPersonaIdleClip]
    rw [List.map_append]
    rfl
  | other hne => exact h.step_other hne

end

/-! ## Main results -/

/-- From related states, the two branches raise on the same calls, return the same values and end in related states,
if and only if every call is admissible. -/
theorem alike_iff_admissible (s : MockStore) (db : Database) (calls : List RepositoryCall) (h : SameRows s db) :
    Alike SameAnswer Related (repository.run (.mock s) calls) (repository.run (.sql (some db)) calls) ↔
      repository.Along Admissible (.mock s) calls :=
  Machine.run_alike_iff (M := repository) (N := repository) (R := Related) (fun _ _ call h => (h.simulates call).1)
    (fun _ _ call h => (h.simulates call).2) (s := .mock s) h

/-- One persona, in both branches. -/
def sampleRow : PersonaRow := ⟨1, 3, "순이", "할머니", "DRAFT", 100⟩

def sampleMock : MockStore where
  personas id := if id = 1 then some ⟨sampleRow, by decide, by decide⟩ else none
  interviews _ := none
  photoAssets := []
  voiceAssets := []
  idleClips := []
  safetyLogs := []

def sampleDatabase : Database where
  personas := ⟨[sampleRow], List.nodup_singleton _⟩
  interviews := .empty
  photoAssets := .empty
  voiceAssets := .empty
  idleClips := .empty
  safetyLogs := .empty
  questions := List.nodup_nil
  interviewsRefer _ hr := by cases hr
  photoAssetsRefer _ hr := by cases hr
  voiceAssetsRefer _ hr := by cases hr
  idleClipsRefer _ hr := by cases hr

theorem sampleRows : SameRows sampleMock sampleDatabase where
  personas id := by
    by_cases hid : id = 1
    · subst hid
      rfl
    · have hmock : sampleMock.personas id = none := if_neg hid
      have hfind : sampleDatabase.personas.find id = none := by
        refine List.find?_eq_none.mpr fun r hr hkey => ?_
        cases List.mem_singleton.mp hr
        exact hid (of_decide_eq_true hkey).symm
      rw [hfind, hmock]
      rfl
  interviews _ := .refl _
  photoAssets := .refl _
  voiceAssets := .refl _
  idleClips := .refl _
  safetyLogs := .refl _

/-- The theorem at a run: a photo is uploaded, the persona becomes ready, is read and is deleted. -/
theorem alike_iff_admissible_run : SameRows sampleMock sampleDatabase ∧ Alike SameAnswer Related
    (repository.run (.mock sampleMock) [.insertPersonaPhotoAsset ⟨5, 1, "1/photo/face.jpg"⟩,
      .updatePersonaStatus 1 "READY", .getPersona 1, .deletePersonaTx 1])
    (repository.run (.sql (some sampleDatabase)) [.insertPersonaPhotoAsset ⟨5, 1, "1/photo/face.jpg"⟩,
      .updatePersonaStatus 1 "READY", .getPersona 1, .deletePersonaTx 1]) := by
  refine ⟨sampleRows, (alike_iff_admissible _ _ _ sampleRows).mpr ⟨⟨by decide, rfl⟩, trivial, ?_, trivial, trivial⟩⟩
  rintro record ⟨⟩
  decide

/-- A photo of a persona that has been deleted, from related states: the mock store takes the row, the database refuses
it. -/
theorem orphan_row_taken : SameRows sampleMock sampleDatabase ∧ ¬ Alike SameAnswer Related
    (repository.run (.mock sampleMock) [.deletePersonaTx 1, .insertPersonaPhotoAsset ⟨5, 1, "1/photo/face.jpg"⟩])
    (repository.run (.sql (some sampleDatabase))
      [.deletePersonaTx 1, .insertPersonaPhotoAsset ⟨5, 1, "1/photo/face.jpg"⟩]) := by
  refine ⟨sampleRows, ?_⟩
  rintro ⟨hanswers, -⟩
  exact (List.forall₂_cons.mp (List.forall₂_cons.mp hanswers).2).1

end YeounEngine
