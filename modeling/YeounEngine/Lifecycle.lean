import YeounEngine.Lib.Auxiliary
import YeounEngine.Text

/-!
# The application starts, serves and stops

`lifespan` of `app/main.py`: the sweeper of the session store is started, the models are loaded (`ModelRegistry.start`),
and once the application has served, the models are unloaded and the sweeper is stopped. A model is loaded by a worker
thread, which goes on when the start-up is cancelled. `GET /health` reads all of this from outside.

Where the lifespan is says what is loaded and what runs (`BootPhase`). So `/health` says `ok` exactly while the
application serves, or after a start-up that failed at the paths of Ditto, and then the models that it speaks of can be
called (`health_exact`). The `finally` of the lifespan begins at its `yield`: what has been started is released if and
only if the start-up went through and nothing raised while the models were unloaded (`released_iff`).
-/

namespace YeounEngine

open Transition

/-! ## The models -/

/-- `LlmStatus`, `TtsStatus` and `DittoStatus`. -/
inductive ModelStatus
  | notLoaded
  | loading
  | loaded
  | error
  deriving DecidableEq, Repr

/-- What the start-up reads of `Settings`. -/
structure BootSettings where
  useDbMock : Bool
  gpuEnabled : Bool
  llmBf16Path : Option String
  ttsModelPath : Option String
  dittoVendorDir : Option String
  dittoDataRoot : Option String
  dittoCfgPkl : Option String

/-- `not path`. -/
def isMissing (path : Option String) : Bool := path.getD "" = ""

/-- `GemmaLLM`: its status, and whether its `_processor` and its `_model` are there. -/
structure GemmaLLM where
  status : ModelStatus
  processor : Bool
  model : Bool
  deriving DecidableEq

/-- `OmniVoiceTTS`: its status, and whether its `_model` is there. -/
structure OmniVoiceTTS where
  status : ModelStatus
  model : Bool
  deriving DecidableEq

/-- The models of `ModelRegistry`. Of Ditto there is a status only. -/
structure Registry where
  llm : Option GemmaLLM
  tts : Option OmniVoiceTTS
  ditto : Option ModelStatus
  deriving DecidableEq

/-- `ModelRegistry(settings)`. -/
def Registry.empty : Registry := ⟨none, none, none⟩

/-! `llm_status`, `tts_status` and `ditto_status` of `health`. -/

def Registry.llmStatus (r : Registry) : ModelStatus := (r.llm.map GemmaLLM.status).getD .notLoaded

def Registry.ttsStatus (r : Registry) : ModelStatus := (r.tts.map OmniVoiceTTS.status).getD .notLoaded

def Registry.dittoStatus (r : Registry) : ModelStatus := r.ditto.getD .notLoaded

section
variable (S : BootSettings)

/-- What a call of `transcribe` or `stream_response` raises at once. -/
def GemmaLLM.refusal (m : GemmaLLM) : Option Exc :=
  if S.gpuEnabled ∧ ¬ (m.model ∧ m.processor) then some ⟨"RuntimeError", "GemmaLLM 이 로드되지 않았습니다."⟩ else none

/-- What a call of `synthesize` raises at once. -/
def OmniVoiceTTS.refusal (m : OmniVoiceTTS) : Option Exc :=
  if S.gpuEnabled ∧ ¬ m.model then some ⟨"RuntimeError", "OmniVoiceTTS 가 로드되지 않았습니다."⟩ else none

/-- What a call of `render_speak` raises at once. -/
def dittoRefusal (status : ModelStatus) : Option Exc :=
  if status ≠ .loaded then some ⟨"RuntimeError", "DittoTalkingHead 가 로드되지 않았습니다."⟩ else none

/-- The paths of `DittoTalkingHead`, as they were resolved when it was made. -/
structure DittoPaths where
  vendorDir : Option String
  dataRoot : Option String
  cfgPkl : Option String

/-- `str(Path(path).resolve()) if path else None`. -/
def resolvePath (resolve : String → Except Exc String) (path : Option String) : Except Exc (Option String) :=
  if isMissing path then .ok none else (resolve (path.getD "")).map some

/-- `DittoTalkingHead.__init__`. -/
def dittoPaths (resolve : String → Except Exc String) : Except Exc DittoPaths := do
  let vendorDir ← resolvePath resolve S.dittoVendorDir
  let dataRoot ← resolvePath resolve S.dittoDataRoot
  let cfgPkl ← resolvePath resolve S.dittoCfgPkl
  return ⟨vendorDir, dataRoot, cfgPkl⟩

/-- The paths that `DittoTalkingHead.load` does not find. -/
def dittoMissing (paths : DittoPaths) (found : String → Bool) : List String :=
  let line name path := name ++ " (" ++ path.getD "None" ++ ")"
  (if isMissing paths.vendorDir || !found (paths.vendorDir.getD "" ++ "/inference.py")
    then [line "DITTO_VENDOR_DIR/inference.py" paths.vendorDir] else []) ++
  (if isMissing paths.dataRoot || !found (paths.dataRoot.getD "")
    then [line "DITTO_DATA_ROOT" paths.dataRoot] else []) ++
  (if isMissing paths.cfgPkl || !found (paths.cfgPkl.getD "")
    then [line "DITTO_CFG_PKL" paths.cfgPkl] else [])

end

/-! ## The lifespan -/

/-- How the lifespan ends. -/
inductive Ending
  | finished
  | failed (e : Exc)
  | cancelled
  deriving DecidableEq

/-- Where the lifespan is. -/
inductive LifespanPc
  | entered
  | pinging
  | loadingLlm
  | loadingTts
  | serving
  | stopping (ending : Ending)
  | ended (ending : Ending)
  deriving DecidableEq

/-- The task of `_sweep_loop`. -/
inductive Sweeper
  | absent
  | sleeping
  | cancelling
  | done
  deriving DecidableEq

/-- The worker thread of a loader. -/
inductive Loader
  | idle
  | running
  | ended (fault : Option Exc)
  deriving DecidableEq

/-- What the lifespan owns. -/
structure Boot where
  pc : LifespanPc
  startedAt : Option Nat
  registry : Registry
  sweeper : Sweeper
  llmThread : Loader
  ttsThread : Loader

/-- What the file system says to `DittoTalkingHead`: to which paths the settings resolve, and to `load`, which of them
exist, or that it cannot tell. -/
structure DittoCheck where
  resolve : String → Except Exc String
  found : String → Bool
  fault : Option Exc

/-- What the release of the GPU memory raises for the two resident models. -/
structure Unloads where
  tts : Option Exc
  llm : Option Exc

inductive BootEvent
  | begin (now : Nat) (fault : Option Exc) (check : DittoCheck)
  | pinged (fault : Option Exc) (check : DittoCheck)
  | llmProcessor
  | llmModel
  | llmThread (fault : Option Exc)
  | ttsModel
  | ttsThread (fault : Option Exc)
  | resume (check : DittoCheck)
  | leave (ending : Ending) (unloads : Unloads)
  | sweep (fault : Option Exc)
  | sweeperCancelled
  | cancel

section
variable (S : BootSettings)

/-- `DittoTalkingHead` is made and loaded, and the start-up ends. -/
def loadDitto (b : Boot) (check : DittoCheck) : Boot :=
  let ditto status (b : Boot) : Boot := { b with registry := { b.registry with ditto := some status } }
  match dittoPaths S check.resolve with
  | .error e => { b with pc := .ended (.failed e) }
  | .ok paths =>
    if !S.gpuEnabled then { ditto .loaded b with pc := .serving }
    else
      match check.fault with
      | some e => { ditto .loading b with pc := .ended (.failed e) }
      | none =>
        let missing := dittoMissing paths check.found
        if missing = [] then { ditto .loaded b with pc := .serving }
        else { ditto .error b with pc := .ended (.failed
            ⟨"RuntimeError", "Ditto 환경 경로가 유효하지 않습니다: " ++ ", ".intercalate missing⟩) }

/-- `OmniVoiceTTS.load`, as far as its `await`. -/
def loadTts (b : Boot) (check : DittoCheck) : Boot :=
  let tts status model (b : Boot) : Boot := { b with registry := { b.registry with tts := some ⟨status, model⟩ } }
  if !S.gpuEnabled then loadDitto S (tts .loaded false b) check
  else if isMissing S.ttsModelPath then
    { tts .error false b with pc := .ended (.failed ⟨"RuntimeError",
        "TTS_MODEL_PATH 가 비어 있습니다. 가중치 디렉토리 또는 HF repo ID 를 " ++
          "설정하거나 GPU_ENABLED=false 로 더미 모드를 사용하십시오."⟩) }
  else { tts .loading false b with pc := .loadingTts, ttsThread := .running }

/-- `GemmaLLM.load`, as far as its `await`. -/
def loadLlm (b : Boot) (check : DittoCheck) : Boot :=
  let llm status (b : Boot) : Boot := { b with registry := { b.registry with llm := some ⟨status, false, false⟩ } }
  if !S.gpuEnabled then loadTts S (llm .loaded b) check
  else if isMissing S.llmBf16Path then
    { llm .error b with pc := .ended (.failed ⟨"RuntimeError",
        "LLM_BF16_PATH 가 비어 있습니다. 가중치 디렉토리 또는 HF repo ID 를 " ++
          "설정하거나 GPU_ENABLED=false 로 더미 모드를 사용하십시오."⟩) }
  else { llm .loading b with pc := .loadingLlm, llmThread := .running }

/-- After the ping: the sweeper is started, then the models. -/
def startServices (b : Boot) (check : DittoCheck) : Boot := loadLlm S { b with sweeper := .sleeping } check

/-- `torch.cuda.empty_cache()`, with `ImportError` caught. -/
def emptyCache (fault : Option Exc) : Option Exc :=
  if S.gpuEnabled then fault.filter fun e => e.typeName ≠ "ImportError" ∧ e.typeName ≠ "ModuleNotFoundError" else none

/-- What `ModelRegistry.stop` raises. -/
def Unloads.raised (u : Unloads) : Option Exc := (emptyCache S u.tts).or (emptyCache S u.llm)

/-- `ModelRegistry.stop`, with what it leaves when it raises. -/
def Registry.stop (r : Registry) (u : Unloads) : Registry :=
  if (emptyCache S u.tts).isSome then { r with ditto := none, tts := some ⟨.notLoaded, false⟩ }
  else if (emptyCache S u.llm).isSome then ⟨some ⟨.notLoaded, false, false⟩, none, none⟩
  else .empty

/-- The `finally` of the lifespan, as far as the `await` of `SessionStore.stop`. -/
def leaveServing (b : Boot) (ending : Ending) (u : Unloads) : Boot :=
  let b := { b with registry := b.registry.stop S u }
  match u.raised S with
  | some e => { b with pc := .ended (.failed e) }
  | none => { b with pc := .stopping ending, sweeper := .cancelling }

/-- One step of the lifespan, its loader threads and the sweeper. -/
def bootStep (b : Boot) : BootEvent → Option Boot
  | .begin now fault check =>
    match b.pc, fault with
    | .entered, some e => some { b with pc := .ended (.failed e) }
    | .entered, none =>
      let b := { b with startedAt := some now }
      some (if S.useDbMock then startServices S b check else { b with pc := .pinging })
    | _, _ => none
  -- a failed ping is logged, and the start-up goes on
  | .pinged _ check => if b.pc = .pinging then some (startServices S b check) else none
  | .llmProcessor =>
    match b.llmThread, b.registry.llm with
    | .running, some m => some { b with registry := { b.registry with llm := some { m with processor := true } } }
    | _, _ => none
  | .llmModel =>
    match b.llmThread, b.registry.llm with
    | .running, some ⟨status, true, _⟩ =>
      some { b with registry := { b.registry with llm := some ⟨status, true, true⟩ } }
    | _, _ => none
  | .llmThread fault =>
    match b.llmThread, b.registry.llm with
    | .running, some m => if fault.isSome ∨ m.model then some { b with llmThread := .ended fault } else none
    | _, _ => none
  | .ttsModel =>
    match b.ttsThread, b.registry.tts with
    | .running, some m => some { b with registry := { b.registry with tts := some { m with model := true } } }
    | _, _ => none
  | .ttsThread fault =>
    match b.ttsThread, b.registry.tts with
    | .running, some m => if fault.isSome ∨ m.model then some { b with ttsThread := .ended fault } else none
    | _, _ => none
  | .resume check =>
    match b.pc, b.llmThread, b.ttsThread, b.registry with
    | .loadingLlm, .ended none, _, ⟨some m, _, _⟩ =>
      some (loadTts S { b with registry := { b.registry with llm := some { m with status := .loaded } } } check)
    | .loadingLlm, .ended (some e), _, ⟨some m, _, _⟩ =>
      some { b with registry := { b.registry with llm := some { m with status := .error } }, pc := .ended (.failed e) }
    | .loadingTts, _, .ended none, ⟨_, some m, _⟩ =>
      some (loadDitto S { b with registry := { b.registry with tts := some { m with status := .loaded } } } check)
    | .loadingTts, _, .ended (some e), ⟨_, some m, _⟩ =>
      some { b with registry := { b.registry with tts := some { m with status := .error } }, pc := .ended (.failed e) }
    | .stopping ending, _, _, _ => if b.sweeper = .done then some { b with pc := .ended ending } else none
    | _, _, _, _ => none
  | .leave ending u => if b.pc = .serving then some (leaveServing S b ending u) else none
  -- whatever a sweep raises, the loop goes on
  | .sweep _ => if b.sweeper = .sleeping then some b else none
  | .sweeperCancelled => if b.sweeper = .cancelling then some { b with sweeper := .done } else none
  | .cancel =>
    match b.pc with
    | .pinging | .loadingLlm | .loadingTts => some { b with pc := .ended .cancelled }
    -- `SessionStore.stop` takes a cancellation for the one of the sweeper
    | .stopping ending => some { b with pc := .ended ending }
    | _ => none

end

/-! ## `GET /health` -/

inductive HealthStatus
  | ok
  | degraded
  | starting
  deriving DecidableEq

/-- `HealthData`, with the statuses of `ModelStatus`. The version is a constant. -/
structure HealthData where
  status : HealthStatus
  uptime : Nat
  llm : ModelStatus
  tts : ModelStatus
  ditto : ModelStatus
  sessions : Nat
  gpuEnabled : Bool
  db : String
  deriving DecidableEq

/-- Where a health request is: it waits for the ping, with the start time that it has read, or it is answered. -/
inductive HealthPc
  | measuring (startedAt : Option Nat)
  | answered (d : HealthData)
  | cancelled
  deriving DecidableEq

/-- `_measure_db_status`: only an exception of the ping, or its time-out, counts. -/
def dbStatus (ping : Option Exc) : String := if ping.isSome then "error" else "ok"

/-- The application: its lifespan, the number of stored sessions, and the health requests. -/
structure AppState where
  boot : Boot
  sessions : Nat
  health : List HealthPc

/-- The answer of `health`, after the ping. -/
def healthAnswer (S : BootSettings) (s : AppState) (startedAt : Option Nat) (ping : Option Exc) (now : Nat) :
    HealthData :=
  let models := s.boot.registry
  { status :=
      if startedAt = none then .degraded
      else if dbStatus ping = "error" then .degraded
      else if models.llmStatus = .loaded ∧ models.ttsStatus = .loaded then .ok
      else .starting
    uptime := startedAt.elim 0 fun t => now - t
    llm := models.llmStatus
    tts := models.ttsStatus
    ditto := models.dittoStatus
    sessions := s.sessions
    gpuEnabled := S.gpuEnabled
    db := dbStatus ping }

inductive AppEvent
  | boot (e : BootEvent)
  | sessions (n : Nat)
  | askHealth
  | pinged (i : Nat) (ping : Option Exc) (now : Nat)
  | cancelHealth (i : Nat)

/-- One step of the application. The sessions come and go. -/
def appStep (S : BootSettings) (s : AppState) : AppEvent → Option AppState
  | .boot e => (bootStep S s.boot e).map fun b => { s with boot := b }
  | .sessions n => some { s with sessions := n }
  | .askHealth => some { s with health := s.health ++ [.measuring s.boot.startedAt] }
  | .pinged i ping now =>
    match s.health[i]? with
    | some (.measuring startedAt) =>
      some { s with health := s.health.set i (.answered (healthAnswer S s startedAt ping now)) }
    | _ => none
  | .cancelHealth i =>
    match s.health[i]? with
    | some (.measuring _) => some { s with health := s.health.set i .cancelled }
    | _ => none

/-- The application, from the entry of its lifespan on. -/
def appSystem (S : BootSettings) : System AppState AppEvent where
  init s := s = ⟨⟨.entered, none, .empty, .absent, .idle, .idle⟩, 0, []⟩
  step := appStep S

/-- What has come of the lifespan: nothing has been started, the start-up has begun, it has come to Ditto, or the
application has served and its models have been unloaded, with what that raised. -/
inductive History
  | fresh
  | started
  | atDitto
  | served (raised : Option Exc)
  deriving DecidableEq

/-- The start-up has begun. Without a GPU no model makes it wait. -/
def History.begun (S : BootSettings) : History := if S.gpuEnabled then .started else .atDitto

/-- The history after a step of the lifespan. -/
def History.after (S : BootSettings) (b : Boot) (h : History) : BootEvent → History
  | .begin _ none _ => if S.useDbMock then .begun S else h
  | .pinged _ _ => .begun S
  | .resume _ => if b.pc = .loadingTts ∧ b.ttsThread = .ended none then .atDitto else h
  | .leave _ u => .served (u.raised S)
  | _ => h

/-- The application, with its history. -/
def lifecycle (S : BootSettings) : System (Extended AppState History) AppEvent :=
  (appSystem S).extend
    { start := .fresh
      event := some
      record := fun s h e =>
        match e with
        | .boot e => some (h.after S s.boot e)
        | _ => some h }

/-! ## The phases of the lifespan -/

section
variable (S : BootSettings)

/-- The model can be called. -/
structure GemmaLLM.Ready (m : GemmaLLM) : Prop where
  status : m.status = .loaded
  refusal : m.refusal S = none

structure OmniVoiceTTS.Ready (m : OmniVoiceTTS) : Prop where
  status : m.status = .loaded
  refusal : m.refusal S = none

/-- A loader that has ended well has loaded its model. -/
def LlmLoads (t : Loader) (m : GemmaLLM) : Prop :=
  (m.model = true → m.processor = true) ∧ (t = .ended none → m.model = true)

def TtsLoads (t : Loader) (m : OmniVoiceTTS) : Prop := t = .ended none → m.model = true

/-- What is loaded and what runs, by where the lifespan is. -/
inductive BootPhase : History → Boot → Prop
  | entered : BootPhase .fresh ⟨.entered, none, .empty, .absent, .idle, .idle⟩
  | pinging {now} : BootPhase .fresh ⟨.pinging, some now, .empty, .absent, .idle, .idle⟩
  | neverStarted {ending at?} : BootPhase .fresh ⟨.ended ending, at?, .empty, .absent, .idle, .idle⟩
  | loadingLlm {now m t} (hgpu : S.gpuEnabled = true) (hm : m.status = .loading) (hl : LlmLoads t m) :
      BootPhase .started ⟨.loadingLlm, some now, ⟨some m, none, none⟩, .sleeping, t, .idle⟩
  | llmFailed {ending now m t} (hm : m.status ≠ .loaded) (hl : LlmLoads t m) :
      BootPhase .started ⟨.ended ending, some now, ⟨some m, none, none⟩, .sleeping, t, .idle⟩
  | loadingTts {now m v t} (hm : m.Ready S) (hv : v.status = .loading) (hl : TtsLoads t v) :
      BootPhase .started ⟨.loadingTts, some now, ⟨some m, some v, none⟩, .sleeping, .ended none, t⟩
  | ttsFailed {ending now m v l t} (hm : m.Ready S) (hl : l ≠ .running) (hv : v.status ≠ .loaded) :
      BootPhase .started ⟨.ended ending, some now, ⟨some m, some v, none⟩, .sleeping, l, t⟩
  | dittoFailed {ending now m v d l t} (hm : m.Ready S) (hv : v.Ready S) (hd : d ≠ some .loaded) (hl : l ≠ .running)
      (ht : t ≠ .running) : BootPhase .atDitto ⟨.ended ending, some now, ⟨some m, some v, d⟩, .sleeping, l, t⟩
  | serving {now m v l t} (hm : m.Ready S) (hv : v.Ready S) (hl : l ≠ .running) (ht : t ≠ .running) :
      BootPhase .atDitto ⟨.serving, some now, ⟨some m, some v, some .loaded⟩, .sleeping, l, t⟩
  | unloadFailed {e ending now m v l t} (hv : ∀ v', v = some v' → v'.status ≠ .loaded) (hl : l ≠ .running)
      (ht : t ≠ .running) : BootPhase (.served (some e)) ⟨.ended ending, some now, ⟨some m, v, none⟩, .sleeping, l, t⟩
  | stopping {ending now sweeper l t} (hs : sweeper = .cancelling ∨ sweeper = .done) (hl : l ≠ .running)
      (ht : t ≠ .running) : BootPhase (.served none) ⟨.stopping ending, some now, .empty, sweeper, l, t⟩
  | stopped {ending now sweeper l t} (hs : sweeper = .cancelling ∨ sweeper = .done) (hl : l ≠ .running)
      (ht : t ≠ .running) : BootPhase (.served none) ⟨.ended ending, some now, .empty, sweeper, l, t⟩

end

section
variable {S : BootSettings} {b b' : Boot} {h : History} {e : BootEvent}

theorem GemmaLLM.ready_of_loads {m : GemmaLLM} {t : Loader} (h : LlmLoads t m) (ht : t = .ended none) :
    GemmaLLM.Ready S { m with status := .loaded } :=
  ⟨rfl, by simp [GemmaLLM.refusal, h.2 ht, h.1 (h.2 ht)]⟩

theorem OmniVoiceTTS.ready_of_loads {m : OmniVoiceTTS} {t : Loader} (h : TtsLoads t m) (ht : t = .ended none) :
    OmniVoiceTTS.Ready S { m with status := .loaded } :=
  ⟨rfl, by simp [OmniVoiceTTS.refusal, h ht]⟩

/-- Ditto ends the start-up. -/
theorem phase_loadDitto {now : Nat} {m : GemmaLLM} {v : OmniVoiceTTS} {l t : Loader} {pc : LifespanPc}
    (hm : m.Ready S) (hv : v.Ready S) (hl : l ≠ .running) (ht : t ≠ .running) (check : DittoCheck) :
    BootPhase S .atDitto (loadDitto S ⟨pc, some now, ⟨some m, some v, none⟩, .sleeping, l, t⟩ check) := by
  unfold loadDitto
  split
  · exact .dittoFailed hm hv (by simp) hl ht
  · split
    · exact .serving hm hv hl ht
    · split
      · exact .dittoFailed hm hv (by simp) hl ht
      · dsimp only
        split
        · exact .serving hm hv hl ht
        · exact .dittoFailed hm hv (by simp) hl ht

theorem phase_loadTts {now : Nat} {m : GemmaLLM} {l : Loader} {pc : LifespanPc} (hm : m.Ready S)
    (hl : l = .ended none ∨ S.gpuEnabled = false ∧ l = .idle) (check : DittoCheck) :
    BootPhase S (.begun S) (loadTts S ⟨pc, some now, ⟨some m, none, none⟩, .sleeping, l, .idle⟩ check) := by
  have hnot : l ≠ .running := by rintro rfl; simp at hl
  unfold loadTts
  split
  · rename_i hgpu
    rw [History.begun, if_neg (by simpa using hgpu)]
    exact phase_loadDitto hm ⟨rfl, by simpa [OmniVoiceTTS.refusal] using hgpu⟩ hnot (by simp) check
  · rename_i hgpu
    obtain rfl : l = .ended none := by
      rcases hl with hl | ⟨hoff, -⟩
      · exact hl
      · simp [hoff] at hgpu
    rw [History.begun, if_pos (by simpa using hgpu)]
    split
    · exact .ttsFailed hm hnot (by simp)
    · exact .loadingTts hm rfl (by simp [TtsLoads])

theorem phase_startServices {now : Nat} {pc : LifespanPc} (check : DittoCheck) :
    BootPhase S (.begun S) (startServices S ⟨pc, some now, .empty, .absent, .idle, .idle⟩ check) := by
  unfold startServices loadLlm
  split
  · rename_i hgpu
    exact phase_loadTts ⟨rfl, by simpa [GemmaLLM.refusal] using hgpu⟩ (.inr ⟨by simpa using hgpu, rfl⟩) check
  · rename_i hgpu
    rw [History.begun, if_pos (by simpa using hgpu)]
    split
    · exact .llmFailed (by simp) (by simp [LlmLoads])
    · exact .loadingLlm (by simpa using hgpu) rfl (by simp [LlmLoads])

theorem phase_leaveServing {now : Nat} {m : GemmaLLM} {v : OmniVoiceTTS} {d : Option ModelStatus} {l t : Loader}
    (hl : l ≠ .running) (ht : t ≠ .running) (ending : Ending) (u : Unloads) :
    BootPhase S (.served (u.raised S))
      (leaveServing S ⟨.serving, some now, ⟨some m, some v, d⟩, .sleeping, l, t⟩ ending u) := by
  unfold leaveServing Registry.stop
  cases htts : emptyCache S u.tts with
  | some e =>
    simp only [Unloads.raised, htts, Option.some_or, Option.isSome_some, if_true]
    exact .unloadFailed (by simp) hl ht
  | none =>
    cases hllm : emptyCache S u.llm with
    | some e =>
      simp only [Unloads.raised, htts, hllm, Option.none_or, Option.isSome_some, if_true]
      exact .unloadFailed (by simp) hl ht
    | none =>
      simp only [Unloads.raised, htts, hllm, Option.none_or]
      exact .stopping (.inl rfl) hl ht

/-- While the loader of the LLM runs, the LLM is all there is, and whatever the loader does to it but for its status is
in the same phase. -/
theorem BootPhase.llm_running (hp : BootPhase S h b) (ht : b.llmThread = .running) : ∃ pc now m, h = .started ∧
    b = ⟨pc, some now, ⟨some m, none, none⟩, .sleeping, .running, .idle⟩ ∧ LlmLoads .running m ∧
    ∀ m' t', m'.status = m.status → LlmLoads t' m' →
      BootPhase S .started ⟨pc, some now, ⟨some m', none, none⟩, .sleeping, t', .idle⟩ := by
  cases hp with
  | loadingLlm hgpu hm hl =>
    cases ht
    exact ⟨_, _, _, rfl, rfl, hl, fun m' t' hstatus hl' => .loadingLlm hgpu (hstatus.trans hm) hl'⟩
  | llmFailed hm hl =>
    cases ht
    exact ⟨_, _, _, rfl, rfl, hl, fun m' t' hstatus hl' => .llmFailed (hstatus ▸ hm) hl'⟩
  | ttsFailed _ hl | dittoFailed _ _ _ hl | serving _ _ hl | unloadFailed _ hl | stopping _ hl | stopped _ hl =>
    exact absurd ht hl
  | entered | pinging | neverStarted | loadingTts => cases ht

theorem BootPhase.tts_running (hp : BootPhase S h b) (ht : b.ttsThread = .running) : ∃ pc now m v l, h = .started ∧
    b = ⟨pc, some now, ⟨some m, some v, none⟩, .sleeping, l, .running⟩ ∧
    ∀ v' t', v'.status = v.status → TtsLoads t' v' →
      BootPhase S .started ⟨pc, some now, ⟨some m, some v', none⟩, .sleeping, l, t'⟩ := by
  cases hp with
  | loadingTts hm hv =>
    cases ht
    exact ⟨_, _, _, _, _, rfl, rfl, fun v' t' hstatus hl' => .loadingTts hm (hstatus.trans hv) hl'⟩
  | ttsFailed hm hl hv =>
    cases ht
    exact ⟨_, _, _, _, _, rfl, rfl, fun v' t' hstatus hl' => .ttsFailed hm hl (hstatus ▸ hv)⟩
  | dittoFailed _ _ _ _ hne | serving _ _ _ hne | unloadFailed _ _ hne | stopping _ _ hne | stopped _ _ hne =>
    exact absurd ht hne
  | entered | pinging | neverStarted | loadingLlm | llmFailed => cases ht

/-- Every step leads from a phase to a phase. -/
theorem BootPhase.next (hp : BootPhase S h b) (hs : bootStep S b e = some b') : BootPhase S (h.after S b e) b' := by
  cases e with
  | begin now fault check =>
    cases hp with
    | entered =>
      cases fault with
      | some e => cases hs; exact .neverStarted
      | none =>
        cases hs
        dsimp only [History.after]
        split
        · exact phase_startServices check
        · exact .pinging
    | _ => simp [bootStep] at hs
  | pinged fault check =>
    cases hp with
    | pinging => cases hs; exact phase_startServices check
    | _ => simp [bootStep] at hs
  | llmProcessor =>
    simp only [bootStep] at hs
    split at hs
    · rename_i m ht hm
      obtain ⟨pc, now, m, rfl, rfl, hl, hphase⟩ := hp.llm_running ht
      cases hm
      cases hs
      exact hphase _ _ rfl ⟨fun _ => rfl, nofun⟩
    · cases hs
  | llmModel =>
    simp only [bootStep] at hs
    split at hs
    · rename_i ht hm
      obtain ⟨pc, now, m, rfl, rfl, hl, hphase⟩ := hp.llm_running ht
      cases hm
      cases hs
      exact hphase _ _ rfl ⟨fun _ => rfl, nofun⟩
    · cases hs
  | llmThread fault =>
    simp only [bootStep] at hs
    split at hs
    · rename_i m ht hm
      obtain ⟨pc, now, m, rfl, rfl, hl, hphase⟩ := hp.llm_running ht
      cases hm
      obtain ⟨hloads, rfl⟩ : _ ∧ _ = b' := by simpa using hs
      refine hphase _ _ rfl ⟨hl.1, fun hover => ?_⟩
      obtain rfl : fault = none := by simpa using hover
      simpa using hloads
    · cases hs
  | ttsModel =>
    simp only [bootStep] at hs
    split at hs
    · rename_i m ht hm
      obtain ⟨pc, now, m, v, l, rfl, rfl, hphase⟩ := hp.tts_running ht
      cases hm
      cases hs
      exact hphase _ _ rfl fun _ => rfl
    · cases hs
  | ttsThread fault =>
    simp only [bootStep] at hs
    split at hs
    · rename_i m ht hm
      obtain ⟨pc, now, m, v, l, rfl, rfl, hphase⟩ := hp.tts_running ht
      cases hm
      obtain ⟨hloads, rfl⟩ : _ ∧ _ = b' := by simpa using hs
      refine hphase _ _ rfl fun hover => ?_
      obtain rfl : fault = none := by simpa using hover
      simpa using hloads
    · cases hs
  | resume check =>
    cases hp with
    | @loadingLlm now m t hgpu hm hl =>
      cases t with
      | ended fault =>
        cases fault with
        | none =>
          cases hs
          have hbegun : History.begun S = .started := if_pos hgpu
          exact hbegun ▸ phase_loadTts (GemmaLLM.ready_of_loads hl rfl) (.inl rfl) check
        | some e => cases hs; exact .llmFailed (by simp) ⟨hl.1, nofun⟩
      | _ => cases hs
    | @loadingTts now m v t hm hv hl =>
      cases t with
      | ended fault =>
        cases fault with
        | none =>
          cases hs
          exact phase_loadDitto hm (OmniVoiceTTS.ready_of_loads hl rfl) (by simp) (by simp) check
        | some e => cases hs; exact .ttsFailed hm (by simp) (by simp)
      | _ => cases hs
    | stopping _ hl ht =>
      obtain ⟨rfl, rfl⟩ : _ ∧ _ = b' := by simpa [bootStep] using hs
      exact .stopped (.inr rfl) hl ht
    | _ => cases hs
  | leave ending u =>
    cases hp with
    | serving hm hv hl ht => cases hs; exact phase_leaveServing hl ht ending u
    | _ => simp [bootStep] at hs
  | sweep fault =>
    obtain ⟨-, rfl⟩ : b.sweeper = .sleeping ∧ b = b' := by simpa [bootStep] using hs
    exact hp
  | sweeperCancelled =>
    cases hp with
    | stopping _ hl ht =>
      obtain ⟨-, rfl⟩ : _ ∧ _ = b' := by simpa [bootStep] using hs
      exact .stopping (.inr rfl) hl ht
    | stopped _ hl ht =>
      obtain ⟨-, rfl⟩ : _ ∧ _ = b' := by simpa [bootStep] using hs
      exact .stopped (.inr rfl) hl ht
    | _ => simp [bootStep] at hs
  | cancel =>
    cases hp with
    | pinging => cases hs; exact .neverStarted
    | loadingLlm _ hm hl => cases hs; exact .llmFailed (by simp [hm]) hl
    | loadingTts hm hv => cases hs; exact .ttsFailed hm (by simp) (by simp [hv])
    | stopping hs' hl ht => cases hs; exact .stopped hs' hl ht
    | _ => simp [bootStep] at hs

/-- A lifespan that is over stays so, with its history. -/
theorem over_step {ending : Ending} (hover : b.pc = .ended ending) (hs : bootStep S b e = some b') :
    b'.pc = .ended ending ∧ h.after S b e = h := by
  obtain ⟨pc, startedAt, registry, sweeper, l, t⟩ := b
  obtain rfl : pc = .ended ending := hover
  cases e with
  | begin | pinged | resume | leave | cancel => simp [bootStep] at hs
  | llmProcessor | llmModel | llmThread | ttsModel | ttsThread =>
    simp only [bootStep] at hs
    split at hs
    · first
      | (cases hs; exact ⟨rfl, rfl⟩)
      | (split at hs <;> cases hs; exact ⟨rfl, rfl⟩)
    · cases hs
  | sweep | sweeperCancelled =>
    simp only [bootStep] at hs
    split at hs <;> cases hs
    exact ⟨rfl, rfl⟩

end

/-! ## Main results -/

section
variable {S : BootSettings} {x y : Extended AppState History}

/-- The lifespan is in a phase, and a health request has read no other time than the one of the start. -/
structure LifecycleInv (S : BootSettings) (x : Extended AppState History) : Prop where
  phase : BootPhase S x.record x.state.boot
  asked : ∀ startedAt, .measuring startedAt ∈ x.state.health → startedAt = none ∨ startedAt = x.state.boot.startedAt

@[simp] theorem startedAt_loadDitto {b : Boot} {check : DittoCheck} :
    (loadDitto S b check).startedAt = b.startedAt := by
  unfold loadDitto
  split
  · rfl
  · split
    · rfl
    · split
      · rfl
      · dsimp only
        split <;> rfl

@[simp] theorem startedAt_loadTts {b : Boot} {check : DittoCheck} : (loadTts S b check).startedAt = b.startedAt := by
  unfold loadTts
  split
  · simp
  · split <;> rfl

@[simp] theorem startedAt_startServices {b : Boot} {check : DittoCheck} :
    (startServices S b check).startedAt = b.startedAt := by
  unfold startServices loadLlm
  split
  · simp
  · split <;> rfl

/-- The time of the start is set once. -/
theorem startedAt_step {b b' : Boot} {h : History} {e : BootEvent} (hp : BootPhase S h b)
    (hs : bootStep S b e = some b') : b.startedAt = none ∨ b'.startedAt = b.startedAt := by
  cases e with
  | begin now fault check =>
    cases hp with
    | entered => exact .inl rfl
    | _ => simp [bootStep] at hs
  | leave ending u =>
    obtain ⟨-, rfl⟩ : _ ∧ _ = b' := by simpa [bootStep] using hs
    right
    unfold leaveServing
    split <;> rfl
  | pinged | sweep | sweeperCancelled =>
    obtain ⟨-, rfl⟩ : _ ∧ _ = b' := by simpa [bootStep] using hs
    exact .inr (by simp)
  | llmProcessor | llmModel | ttsModel | cancel =>
    simp only [bootStep] at hs
    split at hs <;> cases hs <;> exact .inr rfl
  | llmThread | ttsThread =>
    simp only [bootStep] at hs
    split at hs
    · split at hs <;> cases hs
      exact .inr rfl
    · cases hs
  | resume check =>
    simp only [bootStep] at hs
    split at hs
    · cases hs; exact .inr startedAt_loadTts
    · cases hs; exact .inr rfl
    · cases hs; exact .inr startedAt_loadDitto
    · cases hs; exact .inr rfl
    · split at hs <;> cases hs
      exact .inr rfl
    · cases hs

theorem LifecycleInv.next {e : AppEvent} (hx : LifecycleInv S x) (hs : (lifecycle S).step x e = some y) :
    LifecycleInv S y := by
  refine System.extend_cases (motive := LifecycleInv S) hs ?_ nofun
  intro e' s r he hstep hr
  cases he
  cases e with
  | boot e =>
    obtain ⟨b, hb, rfl⟩ := Option.map_eq_some_iff.mp hstep
    cases hr
    refine ⟨hx.phase.next hb, fun startedAt hmem => ?_⟩
    rcases hx.asked startedAt hmem with hnone | hsame
    · exact .inl hnone
    · rcases startedAt_step hx.phase hb with hnone | hkept
      · exact .inl (hsame.trans hnone)
      · exact .inr (hsame.trans hkept.symm)
  | sessions n =>
    cases hstep
    cases hr
    exact ⟨hx.phase, hx.asked⟩
  | askHealth =>
    cases hstep
    cases hr
    refine ⟨hx.phase, fun startedAt hmem => ?_⟩
    rcases List.mem_append.mp hmem with hmem | hmem
    · exact hx.asked startedAt hmem
    · obtain rfl : startedAt = x.state.boot.startedAt := by simpa using hmem
      exact .inr rfl
  | pinged i ping now =>
    cases hr
    simp only [appSystem, appStep] at hstep
    split at hstep
    · cases hstep
      refine ⟨hx.phase, fun startedAt hmem => ?_⟩
      rcases List.mem_or_eq_of_mem_set hmem with hmem | hmem
      · exact hx.asked startedAt hmem
      · cases hmem
    · cases hstep
  | cancelHealth i =>
    cases hr
    simp only [appSystem, appStep] at hstep
    split at hstep
    · cases hstep
      refine ⟨hx.phase, fun startedAt hmem => ?_⟩
      rcases List.mem_or_eq_of_mem_set hmem with hmem | hmem
      · exact hx.asked startedAt hmem
      · cases hmem
    · cases hstep

theorem lifecycleInv_of_reach (h : (lifecycle S).Reach anyStep x) : LifecycleInv S x := by
  refine h.inv ?_ fun _ _ _ hx _ hs => hx.next hs
  rintro ⟨s, r⟩ ⟨rfl, rfl⟩
  exact ⟨.entered, by simp⟩

/-- All that the start-up has made is gone, and the sweeper does not go on. -/
def Boot.Released (b : Boot) : Prop := b.registry = .empty ∧ b.sweeper ≠ .sleeping

/-- The start-up has come to the paths of Ditto and failed there. -/
def FailedAtDitto (x : Extended AppState History) : Prop :=
  x.record = .atDitto ∧ ∃ ending, x.state.boot.pc = .ended ending

/-- What `health` says, in a state of the application, to a request that waits for its ping. -/
structure HealthExact (S : BootSettings) (x : Extended AppState History) (startedAt : Option Nat) (d : HealthData)
    (ping : Option Exc) (now : Nat) : Prop where
  degraded : d.status = .degraded ↔ startedAt = none ∨ ping ≠ none
  ok : d.status = .ok ↔ startedAt ≠ none ∧ ping = none ∧ (x.state.boot.pc = .serving ∨ FailedAtDitto x)
  usable : d.status = .ok → ∃ m v, x.state.boot.registry.llm = some m ∧ x.state.boot.registry.tts = some v ∧
    m.refusal S = none ∧ v.refusal S = none
  ditto : d.ditto = .loaded ↔ x.state.boot.pc = .serving
  uptime : ∀ t, startedAt = some t → x.state.boot.startedAt = some t ∧ d.uptime = now - t

/-- What the models say of themselves tells the phase. -/
theorem BootPhase.statuses {h : History} {b : Boot} (hp : BootPhase S h b) :
    (b.registry.dittoStatus = .loaded ↔ b.pc = .serving) ∧
    ((b.registry.llmStatus = .loaded ∧ b.registry.ttsStatus = .loaded) ↔
      b.pc = .serving ∨ h = .atDitto ∧ ∃ ending, b.pc = .ended ending) := by
  simp only [Registry.llmStatus, Registry.ttsStatus, Registry.dittoStatus]
  cases hp with
  | entered | pinging | neverStarted | stopping | stopped | loadingLlm | llmFailed => simp [Registry.empty]
  | loadingTts _ hv => simp [hv]
  | ttsFailed _ _ hv => simp [hv]
  | @dittoFailed _ _ _ _ d _ _ hm hv hd =>
    have hd : d.getD .notLoaded ≠ .loaded := by
      cases d with
      | none => simp
      | some d => simpa using hd
    simp [hm.status, hv.status, hd]
  | serving hm hv => simp [hm.status, hv.status]
  | @unloadFailed _ _ _ _ v _ _ hv =>
    cases v with
    | none => simp
    | some v => simp [hv v rfl]

/-- A model that calls itself loaded refuses no call. -/
theorem BootPhase.usable {h : History} {b : Boot} (hp : BootPhase S h b) (hllm : b.registry.llmStatus = .loaded)
    (htts : b.registry.ttsStatus = .loaded) : ∃ m v, b.registry.llm = some m ∧ b.registry.tts = some v ∧
      m.refusal S = none ∧ v.refusal S = none := by
  simp only [Registry.llmStatus, Registry.ttsStatus] at hllm htts
  cases hp with
  | dittoFailed hm hv | serving hm hv => exact ⟨_, _, rfl, rfl, hm.refusal, hv.refusal⟩
  | loadingTts _ hv => simp [hv] at htts
  | ttsFailed _ _ hv => exact absurd htts hv
  | entered | pinging | neverStarted | stopping | stopped | loadingLlm | llmFailed => simp [Registry.empty] at htts
  | @unloadFailed _ _ _ _ v _ _ hv =>
    cases v with
    | none => simp at htts
    | some v => exact absurd htts (hv v rfl)

theorem dbStatus_eq_error {ping : Option Exc} : dbStatus ping = "error" ↔ ping ≠ none := by
  cases ping <;> simp [dbStatus]

/-- What `/health` says is true of the state in which it says it: `ok` while the application serves, and besides only
when the start-up has failed at the paths of Ditto; the models that it calls loaded refuse no call. -/
theorem health_exact (S : BootSettings) (x : Extended AppState History) (startedAt : Option Nat) (ping : Option Exc)
    (now : Nat) (h : (lifecycle S).Reach anyStep x) (hasked : .measuring startedAt ∈ x.state.health) :
    HealthExact S x startedAt (healthAnswer S x.state startedAt ping now) ping now := by
  obtain ⟨hp, hask⟩ := lifecycleInv_of_reach h
  have hstatus : (healthAnswer S x.state startedAt ping now).status =
      if startedAt = none then .degraded
      else if ping ≠ none then .degraded
      else if x.state.boot.registry.llmStatus = .loaded ∧ x.state.boot.registry.ttsStatus = .loaded then .ok
      else .starting := by
    simp only [healthAnswer, dbStatus_eq_error]
  have hok : (healthAnswer S x.state startedAt ping now).status = .ok ↔ startedAt ≠ none ∧ ping = none ∧
      x.state.boot.registry.llmStatus = .loaded ∧ x.state.boot.registry.ttsStatus = .loaded := by
    rw [hstatus]
    grind
  refine ⟨?_, ?_, fun hd => ?_, hp.statuses.1, fun t ht => ?_⟩
  · rw [hstatus]
    grind
  · rw [hok, hp.statuses.2]
    rfl
  · exact hp.usable (hok.mp hd).2.2.1 (hok.mp hd).2.2.2
  · subst ht
    have hsame : some t = x.state.boot.startedAt := by simpa using hask (some t) hasked
    exact ⟨hsame.symm, rfl⟩

theorem BootPhase.over_released {h : History} {b : Boot} {ending : Ending} (hp : BootPhase S h b)
    (hover : b.pc = .ended ending) :
    (b.Released ↔ h = .fresh ∨ h = .served none) ∧ (¬ b.Released → b.sweeper = .sleeping) := by
  unfold Boot.Released
  cases hp with
  | neverStarted => simp
  | stopped hs => rcases hs with rfl | rfl <;> simp
  | llmFailed | ttsFailed | dittoFailed | unloadFailed => simp
  | entered | pinging | loadingLlm | loadingTts | serving | stopping => cases hover

/-- Everything that the start-up has made is gone when the lifespan is over, if it got no further than the ping, or if
it served and nothing raised while the models were unloaded. Otherwise the sweeper goes on, for ever. -/
theorem released_iff (S : BootSettings) (x : Extended AppState History) (ending : Ending)
    (h : (lifecycle S).Reach anyStep x) (hover : x.state.boot.pc = .ended ending) :
    (x.state.boot.Released ↔ x.record = .fresh ∨ x.record = .served none) ∧
      (¬ x.state.boot.Released → ∀ y, (lifecycle S).Steps anyStep x y → y.state.boot.sweeper = .sleeping) := by
  have hx := (lifecycleInv_of_reach h).phase
  refine ⟨(hx.over_released hover).1, fun hnot y hrun => ?_⟩
  -- the lifespan stays over, with its history, so the same phases are left
  have hstays : y.state.boot.pc = .ended ending ∧ y.record = x.record := by
    refine hrun.inv (I := fun y => y.state.boot.pc = .ended ending ∧ y.record = x.record) ?_ ⟨hover, rfl⟩
    rintro y e z ⟨hy, hr⟩ - hs
    refine System.extend_cases (motive := fun z => z.state.boot.pc = .ended ending ∧ z.record = x.record) hs ?_ nofun
    intro e' s r he hstep hrec
    cases he
    cases e with
    | boot e =>
      obtain ⟨b, hb, rfl⟩ := Option.map_eq_some_iff.mp hstep
      cases hrec
      obtain ⟨hpc, hafter⟩ := over_step (h := y.record) hy hb
      exact ⟨hpc, hafter.trans hr⟩
    | sessions | askHealth =>
      cases hstep
      cases hrec
      exact ⟨hy, hr⟩
    | pinged | cancelHealth =>
      cases hrec
      simp only [appSystem, appStep] at hstep
      split at hstep <;> cases hstep
      exact ⟨hy, hr⟩
  have hy := (lifecycleInv_of_reach (h.steps hrun)).phase.over_released hstays.1
  refine hy.2 fun hreleased => hnot ?_
  rw [(hx.over_released hover).1, ← hstays.2]
  exact hy.1.mp hreleased

end

/-! ## Runs -/

/-- A real start-up. -/
def gpuSettings : BootSettings where
  useDbMock := false
  gpuEnabled := true
  llmBf16Path := some "/models/gemma"
  ttsModelPath := some "k2-fsa/OmniVoice"
  dittoVendorDir := some "/app/vendor/ditto-talkinghead"
  dittoDataRoot := some "/app/vendor/ditto-talkinghead/checkpoints/ditto_pytorch"
  dittoCfgPkl := some "/app/vendor/ditto-talkinghead/checkpoints/ditto_cfg/v0.4_hubert_cfg_pytorch.pkl"

/-- The settings are absolute paths, of which some exist. -/
def absoluteCheck (found : String → Bool) : DittoCheck := ⟨.ok, found, none⟩

/-- From the entry to the last loader. -/
def bootRun : List AppEvent :=
  let check := absoluteCheck fun _ => false
  [.boot (.begin 100 none check), .boot (.pinged none check), .boot .llmProcessor, .boot .llmModel,
    .boot (.llmThread none), .boot (.resume check), .boot .ttsModel, .boot (.ttsThread none)]

def entered : Extended AppState History := ⟨⟨⟨.entered, none, .empty, .absent, .idle, .idle⟩, 0, []⟩, .fresh⟩

/-- The theorem at a request that is asked while the models are loaded and answered when the application serves. -/
theorem health_exact_serving : ∃ x, (lifecycle gpuSettings).Reach anyStep x ∧ x.state.boot.pc = .serving ∧
    HealthExact gpuSettings x (some 100) (healthAnswer gpuSettings x.state (some 100) none 160) none 160 := by
  have h : ((lifecycle gpuSettings).exec anyStep entered
      (bootRun ++ [.askHealth, .boot (.resume (absoluteCheck fun _ => true))])).any
      (fun x => x.state.boot.pc = .serving ∧ x.state.health = [.measuring (some 100)]) = true := by
    decide +kernel
  obtain ⟨x, hsteps, hx⟩ := System.exists_of_exec h
  obtain ⟨hpc, hasked⟩ := of_decide_eq_true hx
  have hreach : (lifecycle gpuSettings).Reach anyStep x := ⟨entered, ⟨rfl, rfl⟩, hsteps⟩
  exact ⟨x, hreach, hpc, health_exact gpuSettings x (some 100) none 160 hreach (by simp [hasked])⟩

/-- The theorem at a start-up whose checkpoints are missing: the LLM, the TTS and the sweeper stay. -/
theorem released_iff_unloaded : ∃ x, (lifecycle gpuSettings).Reach anyStep x ∧ ¬ x.state.boot.Released ∧
    ∀ y, (lifecycle gpuSettings).Steps anyStep x y → y.state.boot.sweeper = .sleeping := by
  have h : ((lifecycle gpuSettings).exec anyStep entered
      (bootRun ++ [.boot (.resume (absoluteCheck fun path =>
        path = "/app/vendor/ditto-talkinghead/inference.py"))])).any
      (fun x => x.state.boot.pc = .ended (.failed ⟨"RuntimeError", "Ditto 환경 경로가 유효하지 않습니다: " ++
        "DITTO_DATA_ROOT (/app/vendor/ditto-talkinghead/checkpoints/ditto_pytorch), " ++
        "DITTO_CFG_PKL (/app/vendor/ditto-talkinghead/checkpoints/ditto_cfg/v0.4_hubert_cfg_pytorch.pkl)"⟩) ∧
        x.record = .atDitto) = true := by
    decide +kernel
  obtain ⟨x, hsteps, hx⟩ := System.exists_of_exec h
  obtain ⟨hpc, hrecord⟩ := of_decide_eq_true hx
  have hreach : (lifecycle gpuSettings).Reach anyStep x := ⟨entered, ⟨rfl, rfl⟩, hsteps⟩
  obtain ⟨hiff, hstays⟩ := released_iff gpuSettings x _ hreach hpc
  have hnot : ¬ x.state.boot.Released := by rw [hiff, hrecord]; simp
  exact ⟨x, hreach, hnot, hstays hnot⟩

end YeounEngine
