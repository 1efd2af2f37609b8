import YeounEngine.Lib.Auxiliary
import YeounEngine.Sessions

/-!
# Every request ends

Each state of a handler has a rank, and every step lowers it, whatever it does: succeed, fail, be cancelled or
be closed. Only two kinds of step do not. The one is a token, which sends the message back to the model; the
other leaves its request where it is, a folder or a part of a file later (`lingers`).

So each request has a bound of its own, whatever the others do (`work_bounded`), and whatever the order of the steps,
the requests that have arrived end after finitely many that lead on (`service_terminates`). That none is left in the
middle is the matter of `Progress`.
-/

namespace YeounEngine

open Transition

/-! ## Runs -/

/-- How far a run is from its end. A handler is nearer than all of the body. -/
def RunPc.rank : RunPc → Nat
  | .scheduled => 40
  | .setPending => 39
  | .updProcessing false => 38
  | .updProcessing true => 37
  | .setSelecting => 36
  | .setExtracting => 35
  | .spawning => 34
  | .ffmpeg none => 33
  | .ffmpeg (some _) => 32
  | .setTranscribing => 31
  | .waitingGpu => 30
  | .transcribing _ => 29
  | .setRendering => 28
  | .waitingDitto i => 20 + 2 * (idleCount - i) + 1
  | .rendering i => 20 + 2 * (idleCount - i)
  | .inserting i false => 10 + 2 * (idleCount - i) + 1
  | .inserting i true => 10 + 2 * (idleCount - i)
  | .setReady => 9
  | .updReady false => 8
  | .updReady true => 7
  | .cancelSet => 6
  | .cancelUpd false => 5
  | .cancelUpd true => 4
  | .failSet _ => 3
  | .failUpd false => 2
  | .failUpd true => 1
  | .returned | .cancelled | .raised _ | .killed => 0

/-- A child process goes on: the run stays where it is. -/
def RunPc.lingers : RunPc → RunEvent → Bool
  | .ffmpeg _, .output _ _ | .rendering _, .output _ _ | .rendering _, .spawned => true
  | _, _ => false

section
variable {H : Host} {w : PersonaWorld} {r : Run} {pc pc' : RunPc} {ev : RunEvent} {out : PersonaWorld × Run}

theorem RunPc.rank_of_inBody (h : pc.phase.inBody = true) : 6 < pc.rank := by
  cases pc with
  | updProcessing applied | updReady applied | cancelUpd applied | failUpd applied =>
    cases applied <;> first | (simp only [rank]; omega) | cases h
  | ffmpeg rc => cases rc <;> simp only [rank] <;> omega
  | inserting i applied => cases applied <;> simp only [rank] <;> omega
  | _ => first | (simp only [rank]; omega) | cases h

theorem RunPc.rank_of_failing (h : pc.phase = .failing) : pc.rank ≤ 6 := by
  cases pc with
  | updProcessing applied | updReady applied | cancelUpd applied | failUpd applied =>
    cases applied <;> cases h
  | _ => first | (simp only [rank]; omega) | cases h

theorem RunPc.rank_eq_zero : pc.rank = 0 ↔ pc.ended = true := by
  cases pc with
  | updProcessing applied | updReady applied | cancelUpd applied | failUpd applied | inserting _ applied =>
    cases applied <;> simp [rank, ended]
  | ffmpeg rc => cases rc <;> simp [rank, ended]
  | _ => simp [rank, ended]

theorem rank_nextClip {fs : Files} {i : Nat} : (nextClip fs (i + 1)).rank < (RunPc.rendering i).rank := by
  rw [nextClip]
  split
  · rename_i j hj
    have hmem := List.mem_range'_1.mp (List.mem_of_find?_eq_some hj)
    simp only [RunPc.rank, idleCount] at hmem ⊢
    omega
  · simp only [RunPc.rank, idleCount]
    omega

theorem rank_firstClip {fs : Files} : (nextClip fs 0).rank < RunPc.setRendering.rank := by
  rw [nextClip]
  split
  · simp only [RunPc.rank, idleCount]
    omega
  · simp only [RunPc.rank, idleCount]
    omega

/-- An edge leads on, but for those of the two states in which a child process writes. -/
theorem RunEdge.rank (h : RunEdge pc pc') :
    pc'.rank < pc.rank ∨ pc' = pc ∧ (pc = .ffmpeg none ∨ ∃ i, pc = .rendering i) := by
  cases h with
  | trimOutput => exact .inr ⟨rfl, .inl rfl⟩
  | renderOutput => exact .inr ⟨rfl, .inr ⟨_, rfl⟩⟩
  | nextClip => exact .inl rank_nextClip
  | firstClip => exact .inl rank_firstClip
  | fail hp =>
    refine .inl ?_
    have hbody : 6 < pc.rank := RunPc.rank_of_inBody (by rw [hp]; rfl)
    exact Nat.lt_trans (by decide : (RunPc.failSet "").rank < 6) hbody
  | nextRow hi =>
    refine .inl ?_
    simp only [RunPc.rank, idleCount] at hi ⊢
    omega
  | _ => exact .inl (by simp only [RunPc.rank]; omega)

/-- A step of the success path leads on, unless a child process has only written. -/
theorem BodyStep.rank (h : BodyStep H w r pc ev out) (hl : pc.lingers ev = false) : out.2.pc.rank < pc.rank := by
  rcases h.edge.rank with hlt | ⟨heq, rfl | ⟨i, rfl⟩⟩
  · exact hlt
  · cases h with
    | trimOutput => cases hl
    | trimExit => cases heq
  · cases h with
    | renderSpawned | renderOutput => cases hl
    | renderFailed => cases heq
    | @rendered photo _ o fault =>
      have hedge : (orFail (idleRendered w photo i o) r fault
          (idleRendered w photo i o, r.goto (nextClip (idleRendered w photo i o).files (i + 1)))).2.pc.rank <
          (RunPc.rendering i).rank := by
        cases fault with
        | some e =>
          simp only [orFail, Run.failed, Run.goto, RunPc.rank]
          omega
        | none => exact rank_nextClip
      exact hedge

/-- An interruption leads into a handler, or to the end. -/
theorem Interrupted.rank (h : Interrupted w r out) : out.2.pc.rank < r.pc.rank := by
  cases h with
  | body hp hpc =>
    exact Nat.lt_of_le_of_lt (RunPc.rank_of_failing hpc) (RunPc.rank_of_inBody hp)
  | trimming hr _ hpc =>
    exact Nat.lt_of_le_of_lt (RunPc.rank_of_failing hpc) (RunPc.rank_of_inBody (by rw [hr]; rfl))
  | rendering hr _ hpc =>
    exact Nat.lt_of_le_of_lt (RunPc.rank_of_failing hpc) (RunPc.rank_of_inBody (by rw [hr]; rfl))
  | @ended pc hp hpc =>
    have hzero : pc.rank = 0 := RunPc.rank_eq_zero.mpr hpc
    have hne : r.pc.rank ≠ 0 := by
      intro hz
      have hended := ended_iff_phase.mp (RunPc.rank_eq_zero.mp hz)
      rw [hended] at hp
      simp at hp
    simp only [Run.goto]
    omega

/-- Every step of a run leads on, unless a child process has only written. -/
theorem runStep_rank (h : runStep H w r ev = some out) (hl : r.pc.lingers ev = false) :
    out.2.pc.rank < r.pc.rank := by
  rcases runStep_cases h with h | ⟨-, h⟩
  · exact h.rank hl
  · exact h.rank

theorem runStep_lingers (h : runStep H w r ev = some out) (hl : r.pc.lingers ev = true) : out.2 = r := by
  obtain ⟨pc, voice, photo⟩ := r
  rcases runStep_cases h with h | ⟨hi, -⟩
  · dsimp only at h hl
    cases h with
    | trimOutput | renderSpawned | renderOutput => rfl
    | _ => cases hl
  · cases ev with
    | fail | cancel => cases pc <;> cases hl
    | _ => cases hi

end

/-! ## Messages -/

/-- How far a message is from its end. -/
def MessagePc.rank : MessagePc → Nat
  | .created => 20
  | .transcribing => 19
  | .yielded _ (.token _) => 18
  | .streaming _ => 17
  | .loggingForbidden _ false => 16
  | .loggingForbidden _ true => 15
  | .yielded _ (.textDone _ _) => 14
  | .waitingGpu _ => 13
  | .synthesizing _ => 12
  | .waitingDitto _ => 11
  | .rendering _ => 10
  | .loggingCrisis _ false => 4
  | .loggingCrisis _ true => 3
  | .yielded _ .last => 2
  | .unwinding | .abandoned => 1
  | .returned | .raised _ | .cancelled => 0

/-- The event sends a token, or a part of a file is written. -/
def MessageEvent.lingers : MessageEvent → Bool
  | .token _ | .makeFolder | .output _ _ => true
  | _ => false

section
variable {H : Host} {messageId : Uuid} {w : MessageWorld} {pc : MessagePc} {ev : MessageEvent}
  {out : MessageWorld × MessagePc} {e : Exc} {unlinked : String → Unlinked}

theorem MessagePc.rank_eq_zero : pc.rank = 0 ↔ pc.ended = true := by
  cases pc with
  | loggingForbidden _ applied | loggingCrisis _ applied => cases applied <;> simp [rank, ended]
  | yielded ev next => cases next <;> simp [rank, ended]
  | _ => simp [rank, ended]

theorem rank_mediaFailed : (mediaFailed messageId w e unlinked).2.rank ≤ 2 :=
  mediaFailed_cases (motive := fun pc => pc.rank ≤ 2) (fun _ => Nat.zero_le _) fun _ => Nat.le_refl _

theorem rank_prepareSpeech {userText finalText : String} {a : AfterTextDone} :
    (prepareSpeech H messageId w userText finalText a).2.rank ≤ 13 :=
  prepareSpeech_cases (motive := fun pc => pc.rank ≤ 13) (fun _ => Nat.zero_le _) (fun _ => (by decide : 2 ≤ 13))
    fun _ _ => Nat.le_refl _

theorem rank_pickSpeakPhoto {fault : Option Exc} : (pickSpeakPhoto H messageId w fault unlinked).2.rank ≤ 11 :=
  pickSpeakPhoto_cases (motive := fun pc => pc.rank ≤ 11) (fun _ => Nat.zero_le _) (fun _ => (by decide : 2 ≤ 11))
    fun _ _ _ => Nat.le_refl _

theorem rank_finishSpeech {wav : Unlinked} : (finishSpeech messageId w wav unlinked).2.rank ≤ 2 :=
  finishSpeech_cases (motive := fun pc => pc.rank ≤ 2) (fun _ => Nat.zero_le _) (fun _ => Nat.le_refl _)
    (Nat.le_refl _)

theorem rank_inputGuard {userText : String} : (inputGuard H w userText).rank ≤ 17 :=
  inputGuard_cases (motive := fun pc => pc.rank ≤ 17) (fun _ => by simp only [MessagePc.rank]; omega)
    fun _ => Nat.le_refl _

theorem rank_outputGuard {reply : Reply} : (outputGuard H messageId reply).rank ≤ 16 :=
  outputGuard_cases (motive := fun pc => pc.rank ≤ 16) (fun _ => Nat.le_refl _) fun _ => by
    simp only [yieldTextDone, MessagePc.rank]; omega

/-- A step of the success path or a failure leads on, unless it sends a token or has only written. -/
theorem MessageBodyStep.rank (h : MessageBodyStep H messageId w pc ev out) (hl : ev.lingers = false) :
    out.2.rank < pc.rank := by
  cases h with
  | token | speechFolder | speechOutput | renderFolder | renderOutput => cases hl
  | transcribed => exact Nat.lt_of_le_of_lt rank_inputGuard (by decide)
  | streamEnd => exact Nat.lt_of_le_of_lt rank_outputGuard (by simp only [MessagePc.rank]; omega)
  | speech => exact Nat.lt_of_le_of_lt rank_prepareSpeech (by simp only [MessagePc.rank]; omega)
  | synthesized => exact Nat.lt_of_le_of_lt rank_pickSpeakPhoto (by simp only [MessagePc.rank]; omega)
  | synthesizeFailed | folderFailed => exact Nat.lt_of_le_of_lt rank_mediaFailed (by simp only [MessagePc.rank]; omega)
  | renderFailed => exact Nat.lt_of_le_of_lt rank_mediaFailed (by simp only [MessagePc.rank]; omega)
  | rendered => exact Nat.lt_of_le_of_lt rank_finishSpeech (by simp only [MessagePc.rank]; omega)
  | @crisisLogFailed _ applied =>
    cases applied <;> simp only [yieldCrisis, yieldLast, MessagePc.rank] <;> omega
  | @forbiddenLogFailed _ applied => cases applied <;> simp only [yieldTextDone, MessagePc.rank] <;> omega
  | _ => simp only [yieldCrisis, yieldTextDone, yieldLast, MessagePc.rank]; omega

theorem MessageInterrupted.rank (h : MessageInterrupted messageId w pc ev out) : out.2.rank < pc.rank := by
  cases h with
  | @loggingCrisis _ applied => cases applied <;> simp only [MessagePc.rank] <;> omega
  | @loggingForbidden _ applied => cases applied <;> simp only [MessagePc.rank] <;> omega
  | _ => simp only [MessagePc.rank]; omega

/-- Every step of a message leads on, unless it sends a token or has only written. -/
theorem messageStep_rank (h : messageStep H messageId w pc ev = some out) (hl : ev.lingers = false) :
    out.2.rank < pc.rank := by
  rcases messageStep_cases h with h | h
  · exact h.rank hl
  · exact h.rank

/-- A step that lingers: a token is sent, or the message stays where it is. -/
theorem messageStep_lingers (h : messageStep H messageId w pc ev = some out) (hl : ev.lingers = true) :
    (∃ reply data, ev = .token data ∧ pc = .streaming reply ∧
      out.2 = .yielded (.token data) (.token { reply with parts := reply.parts ++ [data] })) ∨
    out.2 = pc ∧ (∀ data, ev ≠ .token data) ∧ pc.ended = false ∧ pc ≠ .abandoned := by
  rcases messageStep_cases h with h | h
  · cases h with
    | token => exact .inl ⟨_, _, rfl, rfl, rfl⟩
    | speechFolder | speechOutput | renderFolder | renderOutput => exact .inr ⟨rfl, by simp, rfl, by simp⟩
    | _ => cases hl
  · cases h <;> cases hl

end

/-! ## The persona requests -/

/-- How far an upload is from its end: what is still to be read counts. -/
def UploadPc.rank (req : UploadRequest) : UploadPc → Nat
  | .getting none => 12 + req.body.length
  | .getting (some _) => 11 + req.body.length
  | .reading _ rest _ => 10 + rest.length
  | .closing _ => 6
  | .writing _ _ _ false => 5
  | .writing _ _ _ true => 4
  | .inserting _ _ false => 3
  | .inserting _ _ true => 2
  | .done _ | .cancelled => 0

def ProcessPc.rank : ProcessPc → Nat
  | .getting none => 52
  | .getting (some _) => 51
  | .accepted r => r.pc.rank
  | .rejected _ | .cancelled => 0

def DeletePc.rank : DeletePc → Nat
  | .getting none => 6
  | .getting (some _) => 5
  | .rmtree false => 4
  | .rmtree true => 3
  | .deletingRows false => 2
  | .deletingRows true => 1
  | .done _ | .cancelled => 0

def PersonaTask.rank : PersonaTask → Nat
  | .upload req pc => pc.rank req
  | .process pc => pc.rank
  | .delete pc => pc.rank

/-- The step only writes, or only removes. -/
def PersonaTask.lingers : PersonaTask → PersonaEvent → Bool
  | .upload _ _, .upload (.output _) => true
  | .process (.accepted r), .process (.run ev) => r.pc.lingers ev
  | .delete _, .delete (.remove _) => true
  | _, _ => false

section
variable {H : Host} {w w' : PersonaWorld} {t t' : PersonaTask} {ev : PersonaEvent}

/-- A turn of the reading loop that goes on has read something. -/
theorem readTurn_rest {kind : UploadKind} {buffer rest buffer' rest' : List UInt8} {checked checked' : Bool}
    (h : readTurn H kind buffer rest checked = .more buffer' rest' checked') : rest'.length < rest.length := by
  unfold readTurn at h
  dsimp only at h
  split at h
  · cases h
  · rename_i hchunk
    split at h
    · cases h
    · split at h
      · cases h
      · cases h
        have hpos := List.length_pos_of_ne_nil hchunk
        rw [List.length_take] at hpos
        rw [List.length_drop]
        omega

theorem UploadStep.rank {req : UploadRequest} {pc : UploadPc} {e : UploadEvent} {out : PersonaWorld × UploadPc}
    (h : UploadStep H w req pc e out) (hl : (PersonaTask.upload req pc).lingers (.upload e) = false) :
    out.2.rank req < pc.rank req := by
  cases h with
  | output => cases hl
  | more hr =>
    have := readTurn_rest hr
    simp only [UploadPc.rank]
    omega
  | @getFailed row => cases row <;> simp only [UploadPc.rank] <;> omega
  | @cancelGetting row => cases row <;> simp only [UploadPc.rank] <;> omega
  | @writeFailed _ _ _ applied => cases applied <;> simp only [UploadPc.rank] <;> omega
  | @insertFailed _ _ applied => cases applied <;> simp only [UploadPc.rank] <;> omega
  | @cancelInserting _ _ applied => cases applied <;> simp only [UploadPc.rank] <;> omega
  | _ => simp only [UploadPc.rank]; omega

theorem ProcessStep.rank {pc : ProcessPc} {e : ProcessEvent} {out : PersonaWorld × ProcessPc}
    (h : ProcessStep H w pc e out) (hl : (PersonaTask.process pc).lingers (.process e) = false) :
    out.2.rank < pc.rank := by
  cases h with
  | run hr => exact runStep_rank hr hl
  | @failed row => cases row <;> simp only [ProcessPc.rank] <;> omega
  | @cancelled row => cases row <;> simp only [ProcessPc.rank] <;> omega
  | _ => simp only [ProcessPc.rank, Run.new, RunPc.rank]; omega

theorem DeleteStep.rank {pc : DeletePc} {e : DeleteEvent} {out : PersonaWorld × DeletePc}
    (h : DeleteStep w pc e out) (hl : (PersonaTask.delete pc).lingers (.delete e) = false) :
    out.2.rank < pc.rank := by
  cases h with
  | remove => cases hl
  | @getFailed row => cases row <;> simp only [DeletePc.rank] <;> omega
  | @cancelGetting row => cases row <;> simp only [DeletePc.rank] <;> omega
  | @removeFailed applied => cases applied <;> simp only [DeletePc.rank] <;> omega
  | @deleteFailed applied => cases applied <;> simp only [DeletePc.rank] <;> omega
  | @cancelDeleting applied => cases applied <;> simp only [DeletePc.rank] <;> omega
  | _ => simp only [DeletePc.rank]; omega

theorem personaStep_rank (h : personaStep H w t ev = some (w', t')) (hl : t.lingers ev = false) :
    t'.rank < t.rank := by
  cases personaStep_inv h with
  | upload hs => exact hs.rank hl
  | process hs => exact hs.rank hl
  | delete hs => exact hs.rank hl

theorem personaStep_lingers (h : personaStep H w t ev = some (w', t')) (hl : t.lingers ev = true) : t' = t := by
  cases personaStep_inv h with
  | upload hs =>
    cases hs with
    | output => rfl
    | _ => cases hl
  | process hs =>
    cases hs with
    | run hr =>
      have hr' := runStep_lingers hr hl
      dsimp only at hr'
      rw [hr']
    | _ => cases hl
  | delete hs =>
    cases hs with
    | remove => rfl
    | _ => cases hl

end

/-! ## All requests -/

def StartPc.rank : StartPc → Nat
  | .getting none => 3
  | .getting (some _) => 2
  | .reading => 1
  | .done _ | .cancelled => 0

/-- A message that has been left at a token still has its stream to finalise. -/
def PostPc.rank : PostPc → Nat
  | .arrived => 40
  | .admitting => 39
  | .reading => 38
  | .closing => 37
  | .responded => 36
  | .locking => 35
  | .inside pc => 5 + pc.rank
  | .releasing .abandoned => 4
  | .releasing _ => 3
  | .rollback | .finished .abandoned => 1
  | .rejected _ | .cancelled | .dropped | .finished _ => 0

def EndPc.rank : EndPc → Nat
  | .arrived => 3
  | .locking => 2
  | .rmtree => 1
  | .done _ | .cancelled => 0

def ServiceTask.rank : ServiceTask → Nat
  | .start _ _ pc => pc.rank
  | .message _ _ pc => pc.rank
  | .ending _ pc => pc.rank
  | .persona _ t => t.rank

/-- How many steps are ahead of a request when it arrives. -/
def ServiceTask.allSteps : ServiceTask → Nat
  | .start _ _ _ | .ending _ _ => 3
  | .message _ _ _ => 40
  | .persona _ (.upload req _) => 12 + req.body.length
  | .persona _ (.process _) => 52
  | .persona _ (.delete _) => 6

/-- The step sends a token, or it leaves the request where it is: it only writes, or only removes. -/
def ServiceTask.lingers : ServiceTask → ServiceEvent → Bool
  | .message _ _ (.inside _), .message (.message e _) => e.lingers
  | .ending _ .rmtree, .ending (.remove _) | .ending _ .rmtree, .ending .apply => true
  | .persona _ t, .persona e => t.lingers e
  | _, _ => false

section
variable {H : Host} {w w' : ServiceWorld} {i : Nat} {t t' : ServiceTask} {e : ServiceEvent} {sid messageId : Uuid}

theorem StartStep.rank {personaId userId : Uuid} {pc : StartPc} {ev : StartEvent} {out : ServiceWorld × StartPc}
    (h : StartStep w personaId userId pc ev out) : out.2.rank < pc.rank := by
  cases h with
  | @getFailed row => cases row <;> simp only [StartPc.rank] <;> omega
  | @cancelGetting row => cases row <;> simp only [StartPc.rank] <;> omega
  | _ => simp only [StartPc.rank]; omega

theorem PostPc.rank_releasing {pc : MessagePc} :
    (PostPc.finished pc).rank < (PostPc.releasing pc).rank ∧ (PostPc.releasing pc).rank ≤ 4 := by
  cases pc <;> simp only [rank] <;> omega

theorem PostStep.rank {pc : PostPc} {ev : PostEvent} {out : ServiceWorld × PostPc}
    (h : PostStep H w i sid messageId pc ev out)
    (hl : (ServiceTask.message sid messageId pc).lingers (.message ev) = false) : out.2.rank < pc.rank := by
  cases h with
  | message _ hm =>
    have hlt := messageStep_rank hm hl
    simp only [PostPc.rank] at hlt ⊢
    omega
  | messageLeft => exact Nat.lt_of_le_of_lt PostPc.rank_releasing.2 (by simp only [PostPc.rank]; omega)
  | released | cancelReleasing => exact PostPc.rank_releasing.1
  | _ => simp only [PostPc.rank, MessagePc.rank]; omega

theorem EndStep.rank {pc : EndPc} {ev : EndEvent} {out : ServiceWorld × EndPc} (h : EndStep w i sid pc ev out)
    (hl : (ServiceTask.ending sid pc).lingers (.ending ev) = false) : out.2.rank < pc.rank := by
  cases h with
  | remove | apply => cases hl
  | _ => simp only [EndPc.rank]; omega

theorem rank_of_arriving (h : t.arriving = true) : t.rank = t.allSteps := by
  unfold ServiceTask.arriving at h
  split at h
  · rfl
  · rfl
  · rfl
  · unfold PersonaTask.arriving at h
    split at h <;> first | rfl | cases h
  · cases h

/-- The model has produced a token. -/
def ServiceEvent.isToken : ServiceEvent → Bool
  | .message (.message (.token _) _) => true
  | _ => false

/-- Every step of a request leads on, unless it lingers. -/
theorem RequestStep.rank_lt (h : RequestStep H w i t e (w', t')) (hl : t.lingers e = false) : t'.rank < t.rank := by
  cases h with
  | start hs => exact hs.rank
  | message hs => exact hs.rank hl
  | ending hs => exact hs.rank hl
  | persona hs => exact personaStep_rank hs hl

/-- A step that lingers leaves the request where it is, but for a token, which takes the message one step
back. -/
theorem RequestStep.lingers (h : RequestStep H w i t e (w', t')) (hl : t.lingers e = true) :
    t' = t ∨ e.isToken = true ∧ t'.rank = t.rank + 1 := by
  cases h with
  | start hs => cases hl
  | message hs =>
    cases hs with
    | message _ hm =>
      rcases messageStep_lingers hm hl with ⟨reply, data, rfl, rfl, hpc⟩ | ⟨hpc, -⟩
      · dsimp only at hpc
        rw [hpc]
        exact .inr ⟨rfl, rfl⟩
      · dsimp only at hpc
        rw [hpc]
        exact .inl rfl
    | messageLeft _ hm hleft =>
      rcases messageStep_lingers hm hl with ⟨reply, data, rfl, rfl, hpc⟩ | ⟨hpc, -, hended, habandoned⟩
      · dsimp only at hpc
        rw [hpc] at hleft
        cases hleft
      · dsimp only at hpc
        rw [hpc, MessagePc.left, hended] at hleft
        exact absurd (of_decide_eq_true hleft) habandoned
    | _ => cases hl
  | ending hs =>
    cases hs with
    | remove | apply => exact .inl rfl
    | _ => cases hl
  | persona hs =>
    rw [personaStep_lingers hs hl]
    exact .inl rfl

end

/-! ## What is ahead of the requests -/

/-- The steps that are still ahead of all requests, at most. -/
def stepsAhead (p : Pool ServiceWorld ServiceTask) : Nat := Pool.total ServiceTask.rank p.tasks

/-- A request takes a step, and does not linger. -/
def LeadsOn (p : Pool ServiceWorld ServiceTask) : Event ServiceTask ServiceEvent ServiceEnv → Prop
  | .run i e => ∀ t ∈ p.tasks[i]?, t.lingers e = false
  | _ => False

/-- Of each request, how many of its steps have led on, and how many tokens its model has produced. -/
structure Work where
  led : Nat → Nat
  tokens : Nat → Nat

/-- The count after a step of request `i`. -/
def Work.after (r : Work) (i : Nat) (t : ServiceTask) (e : ServiceEvent) : Work where
  led := Function.update r.led i (r.led i + (!t.lingers e).toNat)
  tokens := Function.update r.tokens i (r.tokens i + e.isToken.toNat)

/-- The count along a run. -/
def work : Auxiliary (Pool ServiceWorld ServiceTask) (Event ServiceTask ServiceEvent ServiceEnv)
    (Event ServiceTask ServiceEvent ServiceEnv) Work where
  start := ⟨fun _ => 0, fun _ => 0⟩
  event := some
  record p r
    | .run i e => (p.tasks[i]?).map fun t => r.after i t e
    | _ => some r

/-- The service, with the count. -/
def workSystem (H : Host) (admits : ServiceTask → Bool) : System (Extended (Pool ServiceWorld ServiceTask) Work)
    (Event ServiceTask ServiceEvent ServiceEnv) :=
  (serviceSystem H admits ServiceWorld.Fresh).extend work

/-- What request `i` has led on between two states is no longer ahead of it. -/
def WorkBounded (i : Nat) (x y : Extended (Pool ServiceWorld ServiceTask) Work) : Prop :=
  ∀ t, x.state.tasks[i]? = some t → ∃ t', y.state.tasks[i]? = some t' ∧
    t'.rank + y.record.led i + x.record.tokens i ≤ t.rank + x.record.led i + y.record.tokens i

section
variable {H : Host} {admits : ServiceTask → Bool} {p q : Pool ServiceWorld ServiceTask} {r : Work} {i : Nat}
  {t t' : ServiceTask} {w₀ w : ServiceWorld} {e : ServiceEvent}

theorem WorkBounded.refl (x : Extended (Pool ServiceWorld ServiceTask) Work) : WorkBounded i x x :=
  fun t hi => ⟨t, hi, Nat.le_refl _⟩

theorem WorkBounded.trans {x y z : Extended (Pool ServiceWorld ServiceTask) Work} (h : WorkBounded i x y)
    (h' : WorkBounded i y z) : WorkBounded i x z := by
  intro t hi
  obtain ⟨t₁, hi₁, hle₁⟩ := h t hi
  obtain ⟨t₂, hi₂, hle₂⟩ := h' t₁ hi₁
  exact ⟨t₂, hi₂, by omega⟩

/-- A step of the request itself: it leads on, it is a token, or nothing has changed. -/
theorem RequestStep.work (h : RequestStep H w₀ i t e (w, t')) :
    t'.rank + (r.after i t e).led i + r.tokens i ≤ t.rank + r.led i + (r.after i t e).tokens i := by
  simp only [Work.after, Function.update_self]
  cases hl : t.lingers e with
  | false =>
    have hlt := h.rank_lt hl
    simp only [Bool.not_false, Bool.toNat_true]
    omega
  | true =>
    simp only [Bool.not_true, Bool.toNat_false]
    rcases h.lingers hl with heq | ⟨htoken, hrank⟩
    · rw [heq]
      omega
    · rw [htoken, hrank, Bool.toNat_true]
      omega

/-- A step of any request. -/
theorem workBounded_run {j : Nat} (hj : p.tasks[j]? = some t) (hs : serviceStep H p.world j t e = some (w, t')) :
    WorkBounded i ⟨p, r⟩ ⟨⟨w, p.tasks.set j t'⟩, r.after j t e⟩ := by
  intro u hi
  obtain ⟨_, _, _, hreq, -, -⟩ := serviceStep_inv hs
  by_cases hij : i = j
  · subst hij
    rw [hj] at hi
    cases hi
    refine ⟨t', ?_, hreq.work⟩
    exact List.getElem?_set_self (List.getElem?_eq_some_iff.mp hj).1
  · refine ⟨u, ?_, ?_⟩
    · exact (List.getElem?_set_ne (Ne.symm hij)).trans hi
    · simp only [Work.after, Function.update_of_ne hij]
      exact Nat.le_refl _

/-- A step that leads on brings all requests nearer to their end. -/
theorem stepsAhead_lt {e : Event ServiceTask ServiceEvent ServiceEnv} (h : LeadsOn p e)
    (hs : (serviceCoop H admits).next p e = some q) : stepsAhead q < stepsAhead p := by
  cases e with
  | arrive | env => cases h
  | run i ev =>
    obtain ⟨t, hi, hs⟩ := Option.bind_eq_some_iff.mp hs
    obtain ⟨⟨w, t'⟩, hstep, rfl⟩ := Option.map_eq_some_iff.mp hs
    obtain ⟨_, _, _, hreq, -, -⟩ := serviceStep_inv hstep
    have hlt := hreq.rank_lt (h t hi)
    have hset := Pool.total_set (f := ServiceTask.rank) t' hi
    change Pool.total ServiceTask.rank (p.tasks.set i t') < _
    rw [stepsAhead]
    omega

/-- Whatever state the service is in: while no request arrives, no run of steps that lead on is infinite. -/
theorem service_terminates (p : Pool ServiceWorld ServiceTask) :
    (serviceSystem H admits ServiceWorld.Fresh).Terminates LeadsOn p :=
  System.terminates_of_measure stepsAhead (fun _ _ _ hok hs => stepsAhead_lt hok hs) p

end

/-! ## Main result -/

/-- In whatever order the requests arrive and take their steps, succeed, fail, are cancelled or are closed, with sweeps
and left-over work in between: of each request, the steps that lead on are at most those that were ahead of it, and one
more for each token of its own. How many are ahead of it when it arrives is fixed by the request. A step that lingers
leaves its request as it is, unless it sends a token. -/
theorem work_bounded (H : Host) (admits : ServiceTask → Bool) (x y : Extended (Pool ServiceWorld ServiceTask) Work)
    (h : (workSystem H admits).Steps anyStep x y) (i : Nat) (t : ServiceTask) (hi : x.state.tasks[i]? = some t) :
    (∃ t', y.state.tasks[i]? = some t' ∧
      t'.rank + y.record.led i + x.record.tokens i ≤ t.rank + x.record.led i + y.record.tokens i) ∧
    (t.arriving = true → t.rank = t.allSteps) ∧
    ∀ e q, t.lingers e = true → e.isToken = false → (serviceCoop H admits).next x.state (.run i e) = some q →
      q.tasks[i]? = some t := by
  refine ⟨?_, rank_of_arriving, ?_⟩
  · refine h.rel (I := fun _ => True) (R := WorkBounded i) (fun x => .refl x) (fun _ _ _ => WorkBounded.trans)
      (fun _ _ _ _ _ _ => trivial) ?_ trivial t hi
    intro x e y _ _ hs
    refine System.extend_cases (motive := WorkBounded i x) hs ?_ fun r he _ => by cases he
    intro e' p r he hstep hrec
    cases he
    cases e with
    | arrive t =>
      cases hrec
      obtain ⟨-, hp⟩ := Option.ite_none_right_eq_some.mp hstep
      cases hp
      intro u hu
      exact ⟨u, (List.getElem?_append_left (List.getElem?_eq_some_iff.mp hu).1).trans hu, Nat.le_refl _⟩
    | run j ev =>
      obtain ⟨u, hj, rfl⟩ := Option.map_eq_some_iff.mp hrec
      obtain ⟨u', hu', hstep⟩ := Option.bind_eq_some_iff.mp hstep
      rw [hj] at hu'
      cases hu'
      obtain ⟨⟨w, t'⟩, hreq, rfl⟩ := Option.map_eq_some_iff.mp hstep
      exact workBounded_run hj hreq
    | env ev =>
      cases hrec
      obtain ⟨w, _, rfl⟩ := Option.map_eq_some_iff.mp hstep
      have htasks : x.state.tasks.map ((serviceCoop H admits).onTask ev) = x.state.tasks := List.map_id _
      intro u hu
      refine ⟨u, ?_, Nat.le_refl _⟩
      rw [htasks]
      exact hu
  · intro e q hl htoken hs
    obtain ⟨u, hu, hs⟩ := Option.bind_eq_some_iff.mp hs
    rw [hi] at hu
    cases hu
    obtain ⟨⟨w, t'⟩, hstep, rfl⟩ := Option.map_eq_some_iff.mp hs
    obtain ⟨_, _, _, hreq, -, -⟩ := serviceStep_inv hstep
    have hlt := (List.getElem?_eq_some_iff.mp hi).1
    rcases hreq.lingers hl with rfl | ⟨htrue, -⟩
    · exact List.getElem?_set_self hlt
    · rw [htoken] at htrue
      cases htrue

/-- The theorem at a run: a session is started, and a message of it streams two tokens. -/
theorem work_bounded_run : ∃ x y : Extended (Pool ServiceWorld ServiceTask) Work, ∃ t,
    (workSystem sampleHost fun _ => true).Steps anyStep x y ∧ x.state.tasks[1]? = some t ∧ t.rank = 40 ∧
      y.record.led 1 = 9 ∧ y.record.tokens 1 = 2 ∧
      ∃ t', y.state.tasks[1]? = some t' ∧
        t'.rank + y.record.led 1 + x.record.tokens 1 ≤ t.rank + x.record.led 1 + y.record.tokens 1 := by
  have h : ((workSystem sampleHost fun _ => true).exec anyStep
      ⟨⟨sampleService, [.start 1 3 (.getting none), .message 20 30 .arrived]⟩, ⟨fun _ => 0, fun _ => 0⟩⟩
      ((startSession 0 1 20).tail ++ (postMessage 1 20 30).tail ++ sayMessage 1 [.pull cleanTextDone,
        .transcribed "안녕", .token "그래", .pull cleanTextDone, .token "요"])).any
      (fun y => y.record.led 1 = 9 ∧ y.record.tokens 1 = 2) = true := by
    decide +kernel
  obtain ⟨y, hsteps, hy⟩ := System.exists_of_exec h
  obtain ⟨hled, htokens⟩ := of_decide_eq_true hy
  exact ⟨_, y, _, hsteps, rfl, rfl, hled, htokens, (work_bounded _ _ _ y hsteps 1 _ rfl).1⟩

end YeounEngine
