import YeounEngine.UploadsWhileProcessing
import YeounEngine.Lib.Auxiliary

/-!
# Status polls

After the 202 of `POST /process` the caller polls `GET /status` until it says `READY` or `FAILED`, and takes
that for the outcome of its own run. `get_status` reads the row, and the run writes `PROCESSING` there only
when it has been scheduled, has shown `pending` and has done its first update, so a poll may meet the
status of the run before. The polls change nothing, so they are a record beside the requests (`polls`).

`PollsApart` is the condition that no poll comes there, and that the run is neither overtaken nor interrupted
where the row says something else. Under it no poll of an undecided run answers `READY` or `FAILED`
(`not_final_of_pollsApart`); `poll_before_claim` is a poll that comes too early.
-/

namespace YeounEngine

open Transition

/-! ## The route -/

/-- `PersonaStatusData`. -/
structure PersonaStatusData where
  personaId : Uuid
  status : Status
  step : Option ProcessingStep
  errorReason : Option String
  deriving DecidableEq, Repr

/-- The response of `get_status`, on the row it has read. -/
def getStatus (w : PersonaWorld) : Option Status → Except HttpError PersonaStatusData
  | none => .error (personaNotFound w.id)
  | some status => .ok ⟨w.id, status, w.step.map (·.step), w.step.bind (·.errorReason)⟩

/-- Where a poll is. -/
inductive PollPc
  | getting (row : Option (Option Status))
  | done (response : Except HttpError PersonaStatusData)
  | cancelled

inductive PollEvent
  | select
  | resume
  | fail (e : Exc)
  | cancel

/-- One step of `get_status`. -/
def pollStep (w : PersonaWorld) : PollPc → PollEvent → Option PollPc
  | .getting none, .select => some (.getting (some w.row))
  | .getting (some row), .resume => some (.done (getStatus w row))
  | .getting _, .fail _ => some (.done (.error internalError))
  | .getting _, .cancel => some .cancelled
  | _, _ => none

/-- A restart ends the polls that have not been answered. -/
def PollPc.kill : PollPc → PollPc
  | .getting _ => .cancelled
  | pc => pc

/-- What happens where polls are: a step of the other requests, a new poll, or a step of one. -/
inductive PolledEvent
  | request (e : Event PersonaTask PersonaEvent PersonaEnv)
  | arrive
  | poll (i : Nat) (e : PollEvent)

/-- The polls beside the requests on one persona. -/
def polls : Auxiliary (Pool PersonaWorld PersonaTask) (Event PersonaTask PersonaEvent PersonaEnv)
    PolledEvent (List PollPc) where
  start := []
  event
    | .request e => some e
    | _ => none
  record p ps
    | .request (.env .restart) => some (ps.map PollPc.kill)
    | .request _ => some ps
    | .arrive => some (ps ++ [.getting none])
    | .poll i e => ps[i]?.bind fun pc => (pollStep p.world pc e).map fun pc' => ps.set i pc'

/-- Any interleaving of polls with the requests on one persona. -/
def polledSystem (H : Host) :
    System (Extended (Pool PersonaWorld PersonaTask) (List PollPc)) PolledEvent :=
  (personaSystem H fun _ => True).extend polls

/-! ## The property -/

/-- The statuses that end the caller's loop. -/
def Status.final : Status → Bool
  | .ready | .failed => true
  | .draft | .processing => false

def PollPc.data : PollPc → Option PersonaStatusData
  | .done (.ok data) => some data
  | _ => none

/-- What poll `i` answers in the step. -/
def answer (x : Extended (Pool PersonaWorld PersonaTask) (List PollPc)) (i : Nat) (e : PollEvent) :
    Option PersonaStatusData :=
  x.record[i]?.bind fun pc => (pollStep x.state.world pc e).bind PollPc.data

/-- The run has been accepted, and its final status is still to be set. -/
def PersonaTask.undecided (t : PersonaTask) : Bool :=
  t.run.any fun r => r.pc.phase = .scheduled || r.pc.phase.owes

/-! ## The condition -/

/-- The run has not claimed the persona yet. -/
def Phase.unclaimed : Phase → Bool
  | .scheduled | .opening | .claiming => true
  | _ => false

/-- The poll has read a final status, and has not been answered. -/
def PollPc.holdsFinal : PollPc → Bool
  | .getting (some row) => row.any Status.final
  | _ => false

/-- An interrupted run has not set `READY`, and where it has not claimed the persona yet the status is not
final. -/
def interruptedInside (w : PersonaWorld) : PersonaTask → PersonaEvent → Bool
  | .process (.accepted r), .process (.run ev) => !ev.interrupts || match r.pc.phase with
    | .finished => false
    | .opening | .claiming => !w.row.any Status.final
    | _ => true
  | _, _ => true

/-- The run that takes the step, if one does, meets `interruptedInside`. -/
def RunsInside (p : Pool PersonaWorld PersonaTask) : Event PersonaTask PersonaEvent PersonaEnv → Prop
  | .run i ev => ∀ t ∈ p.tasks[i]?, interruptedInside p.world t ev = true
  | _ => True

instance (p : Pool PersonaWorld PersonaTask) :
    ∀ e : Event PersonaTask PersonaEvent PersonaEnv, Decidable (RunsInside p e)
  | .run i ev => inferInstanceAs (Decidable (∀ t ∈ p.tasks[i]?, interruptedInside p.world t ev = true))
  | .arrive _ | .env _ => inferInstanceAs (Decidable True)

/-- One run at a time; none is accepted while a poll holds a final status; an interrupted run is one whose
status is not final; and a poll reads a final status only when no run is still to claim the persona. -/
def PollsApart (x : Extended (Pool PersonaWorld PersonaTask) (List PollPc)) : PolledEvent → Prop
  | .request e => WindowFree x.state e ∧ RunsInside x.state e ∧
      (acceptsAt x.state e = true → ∀ pc ∈ x.record, pc.holdsFinal = false)
  | .poll _ .select => x.state.world.row.any Status.final = true →
      ∀ t ∈ x.state.tasks, t.run.any (fun r => r.pc.phase.unclaimed) = false
  | _ => True

instance (x : Extended (Pool PersonaWorld PersonaTask) (List PollPc)) :
    ∀ e : PolledEvent, Decidable (PollsApart x e)
  | .request e => inferInstanceAs (Decidable (WindowFree x.state e ∧ RunsInside x.state e ∧ (_ → _)))
  | .poll _ .select => inferInstanceAs (Decidable (_ → _))
  | .arrive | .poll _ .resume | .poll _ (.fail _) | .poll _ .cancel => inferInstanceAs (Decidable True)

/-! ## One step -/

/-- While a run that has claimed the persona is undecided, the status is not final. -/
def RunClaimed (row : Option Status) (p : Phase) : Prop :=
  p.owes = true → p.unclaimed = false → row.any Status.final = false

theorem RunClaimed.ended {row : Option Status} : RunClaimed row .ended := fun h => (by cases h)

theorem RunClaimed.of_row {row row' : Option Status} {p : Phase} (h : RunClaimed row p)
    (hrow : row' = row ∨ row' = none) : RunClaimed row' p := by
  intro howes hclaimed
  rcases hrow with rfl | rfl
  · exact h howes hclaimed
  · rfl

/-- On the success path a run fails where it works. -/
theorem RunEdge.working {pc pc' : RunPc} (h : RunEdge pc pc') (hpc : pc'.phase = .failing) :
    pc.phase = .working := by
  cases h with
  | fail hp => exact hp
  | firstClip | nextClip => rw [phase_nextClip] at hpc; cases hpc
  | _ => cases hpc

section
variable {H : Host} {w w' : PersonaWorld} {r r' : Run} {ev : RunEvent}

/-- Where a run comes from that fails, under the condition. -/
theorem fails_inside (hs : runStep H w r ev = some (w', r'))
    (hin : interruptedInside w (.process (.accepted r)) (.process (.run ev)) = true)
    (hp : r'.pc.phase = .failing) : r.pc.phase ≠ .finished ∧
      (r.pc.phase.unclaimed = true → w.row.any Status.final = false) := by
  rcases runStep_cases hs with hs | ⟨hi, hs⟩
  · rw [hs.edge.working hp]
    exact ⟨by decide, fun h => (by cases h)⟩
  · have hsteps : PhaseStep true w.row w.shown r.pc.phase w'.row w'.shown .failing := hp ▸ hs.phase
    rw [interruptedInside, hi, Bool.not_true, Bool.false_or] at hin
    generalize w'.row = row', w'.shown = b' at hsteps
    cases hphase : r.pc.phase with
    | finished => rw [hphase] at hin; cases hin
    | opening | claiming =>
      rw [hphase] at hin
      exact ⟨by decide, fun _ => by simpa using hin⟩
    | scheduled => rw [hphase] at hsteps; cases hsteps with | abort hbody => cases hbody
    | _ => exact ⟨by decide, fun h => (by cases h)⟩

theorem RunClaimed.step (h : RunClaimed w.row r.pc.phase) (hs : runStep H w r ev = some (w', r'))
    (hin : interruptedInside w (.process (.accepted r)) (.process (.run ev)) = true) :
    RunClaimed w'.row r'.pc.phase := by
  have hfails := fails_inside hs hin
  have hsteps := runStep_phase hs
  generalize r.pc.phase = p, r'.pc.phase = p', w'.row = row', w'.shown = b' at *
  cases hsteps with
  | claim =>
    intro _ _
    cases w.row <;> rfl
  | abort hbody =>
    intro _ _
    obtain ⟨hfinished, hunclaimed⟩ := hfails rfl
    cases p with
    | opening | claiming => exact hunclaimed rfl
    | working | finishing => exact h rfl rfl
    | finished => exact absurd rfl hfinished
    | _ => cases hbody
  | work | finish | fail => exact fun _ _ => h rfl rfl
  | start | begin => exact fun _ h => (by cases h)
  | ready | close | finished | leave | giveUp => exact fun h => (by cases h)

/-- Under the condition a run does not become undecided. -/
theorem undecided_of_step (hs : runStep H w r ev = some (w', r'))
    (hin : interruptedInside w (.process (.accepted r)) (.process (.run ev)) = true)
    (h : (PersonaTask.process (.accepted r')).undecided = true) :
    (PersonaTask.process (.accepted r)).undecided = true := by
  have hfails := fails_inside hs hin
  have hsteps := runStep_phase hs
  simp only [PersonaTask.undecided, PersonaTask.run, Option.any_some] at h ⊢
  generalize r.pc.phase = p, r'.pc.phase = p', w'.row = row', w'.shown = b' at *
  cases hsteps with
  | abort hbody =>
    obtain ⟨hfinished, -⟩ := hfails rfl
    cases p with
    | finished => exact absurd rfl hfinished
    | opening | claiming | working | finishing => rfl
    | _ => cases hbody
  | start | begin | claim | work | finish | fail => rfl
  | ready | close | finished | leave | giveUp => cases h

end

theorem unfinished_of_undecided {t : PersonaTask} (h : t.undecided = true) : t.unfinished = true := by
  cases hr : t.run with
  | none => rw [PersonaTask.undecided, hr] at h; cases h
  | some r =>
    refine unfinished_of_run hr fun hp => ?_
    rw [PersonaTask.undecided, hr, Option.any_some, hp] at h
    cases h

theorem not_undecided {t : PersonaTask} (h : t.unfinished = false) : t.undecided = false := by
  cases hu : t.undecided with
  | false => rfl
  | true => rw [unfinished_of_undecided hu] at h; cases h

/-- A run that has claimed the persona, and whose status is final, is decided. -/
theorem not_undecided_of_final {w : PersonaWorld} {t : PersonaTask}
    (h : ∀ r, t.run = some r → RunClaimed w.row r.pc.phase) (hrow : w.row.any Status.final = true)
    (hclaimed : t.run.any (fun r => r.pc.phase.unclaimed) = false) : t.undecided = false := by
  cases hr : t.run with
  | none => rw [PersonaTask.undecided, hr]; rfl
  | some r =>
    have hc := h r hr
    rw [hr, Option.any_some] at hclaimed
    rw [PersonaTask.undecided, hr, Option.any_some]
    rw [RunClaimed, hclaimed, hrow] at hc
    cases hp : r.pc.phase <;> rw [hp] at hc hclaimed <;>
      simp [Phase.owes, Phase.unclaimed] at hc hclaimed ⊢

/-- A poll reads a final status when it selects a row that has one. -/
theorem final_of_pollStep {w : PersonaWorld} {pc pc' : PollPc} {e : PollEvent} (h : pollStep w pc e = some pc')
    (hf : pc'.holdsFinal = true) : e = .select ∧ w.row.any Status.final = true := by
  unfold pollStep at h
  split at h <;> cases h
  · exact ⟨rfl, hf⟩
  · cases hf
  · cases hf
  · cases hf

/-- A poll that answers with a final status holds it. -/
theorem holdsFinal_of_data {w : PersonaWorld} {pc pc' : PollPc} {e : PollEvent} {data : PersonaStatusData}
    (h : pollStep w pc e = some pc') (hdata : pc'.data = some data) (hf : data.status.final = true) :
    pc.holdsFinal = true := by
  unfold pollStep at h
  split at h <;> cases h
  · cases hdata
  · rename_i row
    cases row with
    | none => cases hdata
    | some status => cases hdata; exact hf
  · cases hdata
  · cases hdata

/-! ## The invariant -/

/-- While a poll holds a final status no run is undecided. -/
structure PollsCurrent (x : Extended (Pool PersonaWorld PersonaTask) (List PollPc)) : Prop where
  one : OneRun x.state
  claimed : x.state.All fun w _ t => ∀ r, t.run = some r → RunClaimed w.row r.pc.phase
  answers : ∀ pc ∈ x.record, pc.holdsFinal = true → ∀ t ∈ x.state.tasks, t.undecided = false

section
variable {H : Host} {x y : Extended (Pool PersonaWorld PersonaTask) (List PollPc)}

/-- A request takes a step that meets the condition. -/
theorem PollsCurrent.run (h : PollsCurrent x) {i : Nat} {ev : PersonaEvent} {t t' : PersonaTask} {w' : PersonaWorld}
    (hok : PollsApart x (.request (.run i ev))) (hi : x.state.tasks[i]? = some t)
    (hs : personaStep H x.state.world t ev = some (w', t')) :
    PollsCurrent ⟨⟨w', x.state.tasks.set i t'⟩, x.record⟩ := by
  obtain ⟨hwindow, hinside, haccepts⟩ := hok
  have hin := hinside t hi
  refine ⟨h.one.run hwindow hi hs, ?_, ?_⟩
  · rcases personaStep_cases hs with ⟨r, r', rev, hr, hr', rfl, hphase⟩ | ⟨-, -, hnew, rfl⟩ |
      ⟨-, hnone, hrow, -⟩
    · have hrun := h.claimed i t hi r hr
      obtain rfl := PersonaTask.run_eq_some hr
      obtain rfl := PersonaTask.run_eq_some hr'
      refine Pool.All.set hi (fun r₁ hr₁ => ?_) fun j u hj hu r₁ hr₁ => ?_
      · cases hr₁
        exact hrun.step (runStep_of_personaStep hs) hin
      · -- no other run is unfinished
        have hother := h.one.others hj hi hu (unfinished_of_run hr hphase.ne_ended)
        rw [not_unfinished_of_phase hr₁ hother]
        exact .ended
    · refine Pool.All.set hi (fun r₁ hr₁ => ?_) fun j u _ hu => h.claimed j u hu
      rw [hnew] at hr₁
      cases hr₁
      exact fun howes => (by cases howes)
    · refine Pool.All.set hi (fun r₁ hr₁ => ?_) fun j u _ hu r₁ hr₁ => (h.claimed j u hu r₁ hr₁).of_row hrow
      rw [hnone] at hr₁
      cases hr₁
  · intro pc hpc hfinal u hu
    have hbefore := h.answers pc hpc hfinal
    rcases List.mem_or_eq_of_mem_set hu with hu | rfl
    · exact hbefore u hu
    · have ht := hbefore t (List.mem_of_getElem? hi)
      rcases personaStep_cases hs with ⟨r, r', rev, hr, hr', rfl, -⟩ | ⟨hacc, -, -, -⟩ | ⟨-, hnone, -, -⟩
      · obtain rfl := PersonaTask.run_eq_some hr
        obtain rfl := PersonaTask.run_eq_some hr'
        cases hu' : PersonaTask.undecided (.process (.accepted r')) with
        | false => rfl
        | true =>
          rw [undecided_of_step (runStep_of_personaStep hs) hin hu'] at ht
          cases ht
      · rw [haccepts (by rw [acceptsAt, hi]; exact hacc) pc hpc] at hfinal
        cases hfinal
      · exact not_undecided (not_unfinished_of_none hnone)

/-- The requests take a step that meets the condition. -/
theorem PollsCurrent.request (h : PollsCurrent x) {e : Event PersonaTask PersonaEvent PersonaEnv}
    {q : Pool PersonaWorld PersonaTask} {ps : List PollPc} (hok : PollsApart x (.request e))
    (hs : (personaCoop H).next x.state e = some q) (hps : polls.record x.state x.record (.request e) = some ps) :
    PollsCurrent ⟨q, ps⟩ := by
  have hone : OneRun q := h.one.next hok.1 hs
  revert hone
  refine Coop.next_cases (motive := fun q => OneRun q → PollsCurrent ⟨q, ps⟩) hs ?_ ?_ ?_
  · rintro t rfl harr hone
    cases hps
    have hnone : t.run = none := by
      cases t with
      | process pc => cases pc <;> first | rfl | cases harr
      | upload | delete => rfl
    refine ⟨hone, h.claimed.append fun r hr => ?_, fun pc hpc hfinal u hu => ?_⟩
    · rw [hnone] at hr
      cases hr
    · rcases Pool.mem_append.mp hu with hu | rfl
      · exact h.answers pc hpc hfinal u hu
      · exact not_undecided (not_unfinished_of_none hnone)
  · rintro i ev t w' t' rfl hi hstep -
    cases hps
    exact h.run hok hi hstep
  · rintro env w' rfl hx hone
    cases env with
    | restart =>
      refine ⟨hone, Pool.All.map fun i t _ r hr => ?_, fun pc _ _ u hu => ?_⟩
      · rw [not_unfinished_of_phase hr (kill_unfinished t)]
        exact .ended
      · obtain ⟨t, -, rfl⟩ := List.mem_map.mp hu
        exact not_undecided (kill_unfinished t)
    | orphan k act =>
      cases hps
      have hrow := (orphanStep_inv hx).keeps.1
      have hmap : x.state.tasks.map ((personaCoop H).onTask (.orphan k act)) = x.state.tasks :=
        List.map_id _
      rw [hmap] at hone ⊢
      refine ⟨hone, fun i t hi r hr => ?_, h.answers⟩
      rw [hrow]
      exact h.claimed i t hi r hr

/-- A poll takes a step that meets the condition, or a new one comes. -/
theorem PollsCurrent.poll (h : PollsCurrent x) {e : PolledEvent} {ps : List PollPc} (hok : PollsApart x e)
    (he : polls.event e = none) (hps : polls.record x.state x.record e = some ps) : PollsCurrent ⟨x.state, ps⟩ := by
  refine ⟨h.one, h.claimed, fun pc hpc hfinal u hu => ?_⟩
  cases e with
  | request e => cases he
  | arrive =>
    cases hps
    rcases Pool.mem_append.mp hpc with hpc | rfl
    · exact h.answers pc hpc hfinal u hu
    · cases hfinal
  | poll i e =>
    obtain ⟨pc₀, -, hps⟩ := Option.bind_eq_some_iff.mp hps
    obtain ⟨pc', hstep, rfl⟩ := Option.map_eq_some_iff.mp hps
    rcases List.mem_or_eq_of_mem_set hpc with hpc | rfl
    · exact h.answers pc hpc hfinal u hu
    · obtain ⟨rfl, hrow⟩ := final_of_pollStep hstep hfinal
      obtain ⟨j, hj⟩ := List.mem_iff_getElem?.mp hu
      exact not_undecided_of_final (h.claimed j u hj) hrow (hok hrow u hu)

/-- Every step that meets the condition keeps the invariant. -/
theorem PollsCurrent.next {e : PolledEvent} (h : PollsCurrent x) (hok : PollsApart x e)
    (hs : (polledSystem H).step x e = some y) : PollsCurrent y := by
  refine System.extend_cases hs ?_ ?_
  · intro e' s r he hstep hr
    cases e with
    | request e => cases he; exact h.request hok hstep hr
    | arrive | poll => cases he
  · intro r he hr
    exact h.poll hok he hr

end

/-! ## Main results -/

/-- In every interleaving of polls with requests and runs in which one run is in progress at a time, a poll reads
a final status only when no run is still to claim the persona, none is accepted before that poll is
answered, and an interrupted run is one whose status is not final: the answer of a poll, while an accepted
run is undecided, is neither `READY` nor `FAILED`. -/
theorem not_final_of_pollsApart (H : Host) (x : Extended (Pool PersonaWorld PersonaTask) (List PollPc))
    (h : (polledSystem H).Reach PollsApart x) (hrun : ∃ t ∈ x.state.tasks, t.undecided = true)
    (i : Nat) (e : PollEvent) (data : PersonaStatusData) (hanswer : answer x i e = some data) :
    data.status.final = false := by
  have hinv : PollsCurrent x := by
    refine h.inv (fun x hx => ?_) fun x e y hI hok hs => hI.next hok hs
    obtain ⟨⟨-, hnil⟩, hstart⟩ := hx
    refine ⟨.of_zero (unfinishedRuns_eq_zero (by rw [hnil]; simp)), Pool.All.nil hnil, fun pc hpc => ?_⟩
    rw [hstart] at hpc
    cases hpc
  obtain ⟨t, ht, hundecided⟩ := hrun
  obtain ⟨pc, hpc, hanswer⟩ := Option.bind_eq_some_iff.mp hanswer
  obtain ⟨pc', hstep, hdata⟩ := Option.bind_eq_some_iff.mp hanswer
  cases hf : data.status.final with
  | false => rfl
  | true =>
    have hholds := holdsFinal_of_data hstep hdata hf
    rw [hinv.answers pc (List.mem_of_getElem? hpc) hholds t ht] at hundecided
    cases hundecided

/-- A poll that is answered. -/
def polled (i : Nat) : List PolledEvent :=
  [.arrive, .poll i .select, .poll i .resume]

/-- A run that claims the persona, finds no voice, and ends in `FAILED`. -/
def failedRun : List (Event PersonaTask PersonaEvent PersonaEnv) :=
  acceptedRun 0 ++ claimRun 0 ++
    [.resume, .lock none, .lock none, .apply 0, .resume].map fun ev => .run 0 (.process (.run ev))

/-- The theorem at a run: after a failed run, whose outcome is polled, the next one claims the persona, and a
poll is to be answered. -/
theorem not_final_of_pollsApart_run : ∃ x : Extended (Pool PersonaWorld PersonaTask) (List PollPc),
    (polledSystem sampleHost).Reach PollsApart x ∧ (∃ t ∈ x.state.tasks, t.undecided = true) ∧
      ∃ data, answer x 1 .resume = some data ∧ data.status.final = false := by
  have h : ((polledSystem sampleHost).exec PollsApart ⟨⟨samplePersona, []⟩, []⟩ (failedRun.map .request ++
      polled 0 ++ (acceptedRun 1 ++ claimRun 1).map .request ++ [.arrive, .poll 1 .select])).any
      (fun x => (∃ t ∈ x.state.tasks, t.undecided = true) ∧ (answer x 1 .resume).isSome = true) = true := by
    decide +kernel
  obtain ⟨x, hsteps, hx⟩ := System.exists_of_exec h
  obtain ⟨hrun, hsome⟩ := of_decide_eq_true hx
  obtain ⟨data, hanswer⟩ := Option.isSome_iff_exists.mp hsome
  have hreach : (polledSystem sampleHost).Reach PollsApart x := ⟨_, ⟨⟨trivial, rfl⟩, rfl⟩, hsteps⟩
  exact ⟨x, hreach, hrun, data, hanswer, not_final_of_pollsApart _ x hreach hrun 1 .resume data hanswer⟩

/-- A run fails, the next one is accepted, and a poll comes before it starts: it answers `FAILED`. -/
theorem poll_before_claim : ∃ x : Extended (Pool PersonaWorld PersonaTask) (List PollPc),
    (polledSystem sampleHost).Reach anyStep x ∧ (∃ t ∈ x.state.tasks, t.undecided = true) ∧
      ∃ data, answer x 0 .resume = some data ∧ data.status = .failed := by
  have h : ((polledSystem sampleHost).exec anyStep ⟨⟨samplePersona, []⟩, []⟩ (failedRun.map .request ++
      (acceptedRun 1).map .request ++ [.arrive, .poll 0 .select])).any
      (fun x => (∃ t ∈ x.state.tasks, t.undecided = true) ∧
        (answer x 0 .resume).any (fun data => data.status = .failed) = true) = true := by
    decide +kernel
  obtain ⟨x, hsteps, hx⟩ := System.exists_of_exec h
  obtain ⟨hrun, hfailed⟩ := of_decide_eq_true hx
  obtain ⟨data, hanswer, hstatus⟩ := (Option.any_eq_true _ _).mp hfailed
  exact ⟨x, ⟨_, ⟨⟨trivial, rfl⟩, rfl⟩, hsteps⟩, hrun, data, hanswer, by simpa using hstatus⟩

end YeounEngine
