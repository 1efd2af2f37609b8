import YeounEngine.SingleFlight

/-!
# Recovery of an interrupted persona

A persona whose row says `PROCESSING` is accepted by no request, so it depends on a run that will
still set a final status (`Phase.owes`). `NotAbandoned` is the condition that none is lost while the
row says `PROCESSING`: no restart, and no interruption of a handler before its own status update.
Under it a persona without a run is never left in `PROCESSING` (`recoverable_of_notAbandoned`); a restart
after the claim leaves it there for good (`restart_abandons`).
-/

namespace YeounEngine

open Transition

/-! ## The property and the condition -/

/-- With no run active or scheduled, an existing persona is not `PROCESSING`, or `/process` on it is
accepted. -/
def Recoverable (p : Pool PersonaWorld PersonaTask) : Prop :=
  (∀ t ∈ p.tasks, t.unfinished = false) → ∀ status, p.world.row = some status →
    status ≠ .processing ∨ startProcessing p.world.id p.world.row p.world.step = none

/-- The step in which a run leaves a handler without the status update. -/
def givesUp : PersonaTask → PersonaEvent → Bool
  | .process (.accepted r), .process (.run e) =>
    e.interrupts && (r.pc.phase = .failing || r.pc.phase = .closing)
  | _, _ => false

/-- The steps that lose the run that owes a final status. -/
def abandonsAt (p : Pool PersonaWorld PersonaTask) :
    Event PersonaTask PersonaEvent PersonaEnv → Bool
  | .run i e => (p.tasks[i]?).any fun t => givesUp t e
  | .env .restart => true
  | _ => false

/-- No run is lost while the row says `PROCESSING`. -/
def NotAbandoned (p : Pool PersonaWorld PersonaTask)
    (e : Event PersonaTask PersonaEvent PersonaEnv) : Prop :=
  abandonsAt p e = true → p.world.row ≠ some .processing

instance (p : Pool PersonaWorld PersonaTask) (e : Event PersonaTask PersonaEvent PersonaEnv) :
    Decidable (NotAbandoned p e) := inferInstanceAs (Decidable (_ → _ ≠ _))

/-! ## The invariant -/

/-- The request has a run that owes a final status. -/
def PersonaTask.owes (t : PersonaTask) : Bool := t.run.any fun r => r.pc.phase.owes

/-- Some request has such a run. -/
def OwedBy (ts : List PersonaTask) : Prop :=
  ∃ (j : Nat) (t : PersonaTask), ts[j]? = some t ∧ t.owes = true

/-- While the row says `PROCESSING`, a run owes a final status. -/
def Owed (p : Pool PersonaWorld PersonaTask) : Prop :=
  p.world.row = some .processing → OwedBy p.tasks

theorem PersonaTask.unfinished_of_owes {t : PersonaTask} (h : t.owes = true) :
    t.unfinished = true := by
  rw [PersonaTask.owes] at h
  cases hr : t.run with
  | none => rw [hr] at h; cases h
  | some r =>
    rw [hr, Option.any_some] at h
    refine unfinished_of_run hr fun hp => ?_
    rw [hp] at h
    cases h

section
variable {H : Host} {init : PersonaWorld → Prop} {p q : Pool PersonaWorld PersonaTask}
  {e : Event PersonaTask PersonaEvent PersonaEnv}

/-- A request takes a step: the run that owes is another one, or it still owes. -/
theorem Owed.run (h : Owed p) {i : Nat} {ev : PersonaEvent} {t t' : PersonaTask}
    {w' : PersonaWorld} (hok : NotAbandoned p (.run i ev)) (hi : p.tasks[i]? = some t)
    (hs : personaStep H p.world t ev = some (w', t')) : Owed ⟨w', p.tasks.set i t'⟩ := by
  intro hproc
  have stays : ∀ j u, j ≠ i → p.tasks[j]? = some u → u.owes = true →
      OwedBy (p.tasks.set i t') := fun j u hj hu ho =>
    ⟨j, u, by rw [Pool.getElem?_set_of_ne hj]; exact hu, ho⟩
  have another : t.run = none → p.world.row = some .processing →
      OwedBy (p.tasks.set i t') := by
    intro hnone hrow
    obtain ⟨j, u, hu, ho⟩ := h hrow
    refine stays j u ?_ hu ho
    rintro rfl
    rw [hi] at hu
    cases hu
    rw [PersonaTask.owes, hnone] at ho
    cases ho
  rcases personaStep_cases hs with ⟨r, r', rev, hr, hr', rfl, hphase⟩ | ⟨-, hnone, -, rfl⟩ |
    ⟨hnone, -, hrow, -⟩
  · have kept : rev.interrupts = true → r.pc.phase ≠ .failing ∧ r.pc.phase ≠ .closing := by
      intro hint
      rw [← not_or]
      intro hp
      have hno := hok (by
        rw [abandonsAt, hi, Option.any_some, PersonaTask.run_eq_some hr, givesUp, hint]
        simpa using hp)
      rcases hphase.processing hproc with hrow | hclaim
      · exact hno hrow
      · rcases hp with hp | hp <;> rw [hclaim] at hp <;> cases hp
    have own : r.pc.phase.owes = true →
        OwedBy (p.tasks.set i t') := by
      intro ho
      refine ⟨i, t', Pool.getElem?_set_of_some hi, ?_⟩
      rw [PersonaTask.owes, hr', Option.any_some]
      exact hphase.owes ho kept hproc
    rcases hphase.processing hproc with hrow | hclaim
    · obtain ⟨j, u, hu, ho⟩ := h hrow
      by_cases hj : j = i
      · subst hj
        rw [hi] at hu
        cases hu
        rw [PersonaTask.owes, hr, Option.any_some] at ho
        exact own ho
      · exact stays j u hj hu ho
    · exact own (by rw [hclaim]; rfl)
  · exact another hnone hproc
  · rcases hrow with hrow | hrow <;> rw [hrow] at hproc
    · exact another hnone hproc
    · cases hproc

/-- The invariant is kept by every step that meets the condition. -/
theorem Owed.next (h : Owed p) (hok : NotAbandoned p e)
    (hstep : (personaCoop H).next p e = some q) : Owed q := by
  refine Coop.next_cases hstep ?_ ?_ ?_
  · intro t _ _ hproc
    obtain ⟨j, u, hu, ho⟩ := h hproc
    refine ⟨j, u, ?_, ho⟩
    rw [List.getElem?_append_left (List.getElem?_eq_some_iff.mp hu).1]
    exact hu
  · rintro i ev t w' t' rfl hi hs
    exact h.run hok hi hs
  · rintro x w' rfl hx hproc
    cases x with
    | restart => cases hx; exact absurd hproc (hok rfl)
    | orphan k act =>
      rw [(orphanStep_inv hx).keeps.1] at hproc
      change OwedBy (p.tasks.map (personaOnTask (.orphan k act)))
      rw [map_onTask_orphan]
      exact h hproc

/-- The invariant holds in every run that loses no run while the row says `PROCESSING`. -/
theorem owed_of_reach (hinit : ∀ w, init w → w.row ≠ some .processing)
    (h : (personaSystem H init).Reach NotAbandoned p) : Owed p := by
  refine h.inv ?_ fun s e t hs hok hstep => hs.next hok hstep
  rintro s ⟨hw, -⟩ hproc
  exact absurd hproc (hinit _ hw)

/-! ## Main results -/

/-- In every run of uploads, `/process` requests, deletions, failures, cancellations and restarts on
a persona that loses no run while the row says `PROCESSING`, a persona without a run is not
`PROCESSING`. -/
theorem recoverable_of_notAbandoned (H : Host) (id : Uuid) (interviews : List InterviewAnswer)
    (p : Pool PersonaWorld PersonaTask)
    (h : (personaSystem H (· = .new id interviews)).Reach NotAbandoned p) : Recoverable p := by
  intro hend status hrow
  refine .inl ?_
  rintro rfl
  obtain ⟨j, t, ht, ho⟩ := owed_of_reach (by rintro w rfl; simp [PersonaWorld.new]) h hrow
  have := PersonaTask.unfinished_of_owes ho
  rw [hend t (List.mem_of_getElem? ht)] at this
  cases this

end

/-- The theorem at a run: the claimed persona is set to `FAILED` by the handler of a cancellation. -/
theorem recoverable_of_notAbandoned_run :
    ∃ p, (personaSystem sampleHost (· = samplePersona)).Reach NotAbandoned p ∧
      p.world.row = some .failed ∧ Recoverable p := by
  have h : ((personaSystem sampleHost (· = samplePersona)).exec NotAbandoned ⟨samplePersona, []⟩
      (acceptedRun 0 ++ claimRun 0 ++ [.run 0 (.process (.run (.cancel false fun _ => true))),
        .run 0 (.process (.run (.lock none))), .run 0 (.process (.run (.apply 0))),
        .run 0 (.process (.run .resume))])).any (fun p => p.world.row = some .failed) = true := by
    decide +kernel
  obtain ⟨p, hsteps, hrow⟩ := System.exists_of_exec h
  have hreach : (personaSystem sampleHost (· = samplePersona)).Reach NotAbandoned p :=
    ⟨_, ⟨rfl, rfl⟩, hsteps⟩
  exact ⟨p, hreach, by simpa using hrow, recoverable_of_notAbandoned _ _ _ p hreach⟩

/-- A restart after the claim: no run is left, the row says `PROCESSING`, and `/process` answers 409. -/
theorem restart_abandons :
    ∃ p, (personaSystem sampleHost (· = samplePersona)).Reach anyStep p ∧ ¬ Recoverable p := by
  have h : ((personaSystem sampleHost (· = samplePersona)).exec anyStep ⟨samplePersona, []⟩
      (acceptedRun 0 ++ claimRun 0 ++ [.env .restart])).any (fun p =>
        (∀ t ∈ p.tasks, t.unfinished = false) ∧ p.world.row = some .processing ∧
          startProcessing p.world.id p.world.row p.world.step ≠ none) = true := by
    decide +kernel
  obtain ⟨p, hsteps, hstuck⟩ := System.exists_of_exec h
  obtain ⟨hend, hrow, hrejected⟩ := of_decide_eq_true hstuck
  refine ⟨p, ⟨_, ⟨rfl, rfl⟩, hsteps⟩, fun hrec => ?_⟩
  rcases hrec hend _ hrow with hne | hnone
  · exact hne rfl
  · exact hrejected hnone

end YeounEngine
