import YeounEngine.Personas

/-!
# Single flight of the creation pipeline

`start_processing` means to admit one run of `process_persona` at a time. It looks at the status
it has read and at the step that is shown, but the reservation is made by the run itself, later: in the
phases of `Phase.inWindow` a run is under way and nothing shown says so. `WindowFree` is the
condition that no request is accepted in such a window, nor on a read that a finished run has overtaken;
under it there is one run at a time (`atMostOneRun_of_windowFree`), and without it there are two
(`two_runs_accepted`).
-/

namespace YeounEngine

open Transition

/-! ## The property -/

/-- A run that has been accepted and has not ended. -/
def PersonaTask.unfinished (t : PersonaTask) : Bool := t.run.any fun r => !r.pc.ended

/-- The number of accepted and unfinished runs. -/
def unfinishedRuns (p : Pool PersonaWorld PersonaTask) : Nat :=
  Pool.total (fun t => t.unfinished.toNat) p.tasks

/-- The status goes from `READY` back to `PROCESSING`. -/
def Reverts (w w' : PersonaWorld) : Prop := w.row = some .ready ∧ w'.row = some .processing

/-! ## The condition -/

/-- The phases of an unfinished run in which no step in progress need be shown: before its first
`set_step`, and from its last one on. -/
def Phase.inWindow : Phase → Bool
  | .claiming | .working | .ended => false
  | _ => true

/-- The step in which a request is accepted. -/
def acceptsAt (p : Pool PersonaWorld PersonaTask) :
    Event PersonaTask PersonaEvent PersonaEnv → Bool
  | .run i e => (p.tasks[i]?).any fun t => accepts p.world t e
  | _ => false

/-- A request is accepted only when no run is in a window and the row is not `READY` by now. -/
def WindowFree (p : Pool PersonaWorld PersonaTask)
    (e : Event PersonaTask PersonaEvent PersonaEnv) : Prop :=
  acceptsAt p e = true →
    (∀ t ∈ p.tasks, t.run.any (fun r => r.pc.phase.inWindow) = false) ∧ p.world.row ≠ some .ready

instance (p : Pool PersonaWorld PersonaTask) (e : Event PersonaTask PersonaEvent PersonaEnv) :
    Decidable (WindowFree p e) := inferInstanceAs (Decidable (_ → _ ∧ _))

/-! ## The invariant -/

/-- What the two stores say about a run in its phase. -/
structure RunShown (row : Option Status) (shown : Bool) (p : Phase) : Prop where
  shown : p = .claiming ∨ p = .working → shown = true
  notReady : p = .scheduled ∨ p = .opening ∨ p = .claiming → row ≠ some .ready

/-- One run at a time, and it is shown in its middle phases. -/
structure OneRun (p : Pool PersonaWorld PersonaTask) : Prop where
  one : unfinishedRuns p ≤ 1
  shown : p.All fun w _ t => ∀ r, t.run = some r → RunShown w.row w.shown r.pc.phase

theorem RunShown.ended {row : Option Status} {b : Bool} : RunShown row b .ended :=
  ⟨by simp, by simp⟩

/-- The removal of the row. -/
theorem RunShown.of_row {row row' : Option Status} {b : Bool} {p : Phase} (h : RunShown row b p)
    (hrow : row' = row ∨ row' = none) : RunShown row' b p := by
  refine ⟨h.shown, fun hp => ?_⟩
  rcases hrow with rfl | rfl
  · exact h.notReady hp
  · simp

/-- A step of the run itself. -/
theorem RunShown.step {row row' : Option Status} {i b b' : Bool} {p p' : Phase}
    (h : RunShown row b p) (hs : PhaseStep i row b p row' b' p') : RunShown row' b' p' := by
  cases hs with
  | start => exact ⟨by simp, fun _ => h.notReady (.inl rfl)⟩
  | begin => exact ⟨by simp, fun _ => h.notReady (.inr (.inl rfl))⟩
  | claim => exact ⟨fun _ => h.shown (.inl rfl), by simp⟩
  | work hb => exact ⟨fun _ => hb.elim (fun e => e ▸ h.shown (.inr rfl)) id, by simp⟩
  | finish | ready | abort | fail | close | finished | leave | giveUp => exact ⟨by simp, by simp⟩

theorem not_unfinished_of_phase {t : PersonaTask} {r : Run} (hr : t.run = some r)
    (h : t.unfinished = false) : r.pc.phase = .ended := by
  rw [PersonaTask.unfinished, hr] at h
  exact ended_iff_phase.mp (by simpa using h)

theorem unfinished_of_run {t : PersonaTask} {r : Run} (hr : t.run = some r)
    (h : r.pc.phase ≠ .ended) : t.unfinished = true := by
  rw [PersonaTask.unfinished, hr]
  simpa using fun he => h (ended_iff_phase.mp he)

theorem not_unfinished_of_none {t : PersonaTask} (h : t.run = none) : t.unfinished = false := by
  rw [PersonaTask.unfinished, h]; rfl

/-- Without an unfinished run there is nothing to show. -/
theorem OneRun.of_zero {p : Pool PersonaWorld PersonaTask} (h : unfinishedRuns p = 0) : OneRun p := by
  refine ⟨h ▸ Nat.zero_le 1, fun i t hi r hr => ?_⟩
  have hle := Pool.le_total (f := fun t : PersonaTask => t.unfinished.toNat) hi
  have hu : t.unfinished = false := by
    cases hu : t.unfinished with
    | false => rfl
    | true =>
      simp only [hu, Bool.toNat_true] at hle
      rw [unfinishedRuns] at h
      omega
  rw [not_unfinished_of_phase hr hu]
  exact .ended

/-- What is accepted is not shown as in progress. -/
theorem not_shown_of_accepts {w : PersonaWorld} {t : PersonaTask} {e : PersonaEvent}
    (h : accepts w t e = true) : w.shown = false := by
  unfold accepts at h
  split at h
  · rename_i row
    cases row with
    | none => cases h
    | some status =>
      rw [startProcessing, Option.isNone_iff_eq_none] at h
      split at h
      · cases h
      · rename_i hno
        simp only [not_or, Bool.not_eq_true] at hno
        exact hno.1
  · cases h

/-- The tasks of a pool that has no unfinished run. -/
theorem unfinishedRuns_eq_zero {p : Pool PersonaWorld PersonaTask}
    (h : ∀ t ∈ p.tasks, t.unfinished = false) : unfinishedRuns p = 0 :=
  Pool.total_eq_zero fun t ht => by rw [h t ht]; rfl

section
variable {H : Host} {init : PersonaWorld → Prop} {p q : Pool PersonaWorld PersonaTask}
  {e : Event PersonaTask PersonaEvent PersonaEnv}

/-- When a run is unfinished, no other one is. -/
theorem OneRun.others {i j : Nat} {t u : PersonaTask} (h : OneRun p) (hij : j ≠ i)
    (hi : p.tasks[i]? = some t) (hj : p.tasks[j]? = some u) (ht : t.unfinished = true) :
    u.unfinished = false := by
  have hle := Pool.add_le_total (f := fun t : PersonaTask => t.unfinished.toNat) hij hj hi
  have := h.one
  rw [unfinishedRuns] at this
  cases hu : u.unfinished with
  | false => rfl
  | true =>
    simp only [hu, ht, Bool.toNat_true] at hle
    omega

/-- Where nothing is shown and no run is in a window, no run is unfinished. -/
theorem OneRun.none_unfinished (h : OneRun p) (hshown : p.world.shown = false)
    (hwin : ∀ t ∈ p.tasks, t.run.any (fun r => r.pc.phase.inWindow) = false) :
    ∀ t ∈ p.tasks, t.unfinished = false := by
  intro t ht
  obtain ⟨i, hi⟩ := List.mem_iff_getElem?.mp ht
  cases hr : t.run with
  | none => exact not_unfinished_of_none hr
  | some r =>
    have hw := hwin t ht
    have hs := (h.shown i t hi r hr).shown
    rw [hr, Option.any_some] at hw
    rw [hshown] at hs
    rw [PersonaTask.unfinished, hr, Option.any_some, Bool.not_eq_false', ended_iff_phase]
    cases hp : r.pc.phase <;> rw [hp] at hw hs <;> simp [Phase.inWindow] at hw hs ⊢

/-- A request arrives. -/
theorem OneRun.arrive (h : OneRun p) {t : PersonaTask} (harr : t.arriving = true) :
    OneRun ⟨p.world, p.tasks ++ [t]⟩ := by
  have hnone : t.run = none := by
    cases t with
    | upload => rfl
    | delete => rfl
    | process pc => cases pc <;> first | rfl | cases harr
  refine ⟨?_, h.shown.append fun r hr => ?_⟩
  · rw [unfinishedRuns, Pool.total_append, Pool.total_singleton, not_unfinished_of_none hnone]
    exact h.one
  · rw [hnone] at hr; cases hr

/-- A request takes a step that meets the condition. -/
theorem OneRun.run (h : OneRun p) {i : Nat} {ev : PersonaEvent} {t t' : PersonaTask}
    {w' : PersonaWorld} (hok : WindowFree p (.run i ev)) (hi : p.tasks[i]? = some t)
    (hs : personaStep H p.world t ev = some (w', t')) : OneRun ⟨w', p.tasks.set i t'⟩ := by
  have htot := Pool.total_set (f := fun t : PersonaTask => t.unfinished.toNat) t' hi
  have hone := h.one
  have hle : t'.unfinished.toNat ≤ 1 := Bool.toNat_le _
  rcases personaStep_cases hs with ⟨r, r', _, hr, hr', -, hphase⟩ | ⟨hacc, hnone, hnew, rfl⟩ |
    ⟨hnone, hnone', hrow, hst⟩
  · -- the one run goes on
    have ht := unfinished_of_run hr hphase.ne_ended
    refine ⟨?_, Pool.All.set hi ?_ ?_⟩
    · rw [ht] at htot
      simp only [unfinishedRuns, Bool.toNat_true] at hone htot ⊢
      omega
    · intro r₁ hr₁
      rw [hr'] at hr₁
      cases hr₁
      exact (h.shown i t hi r hr).step hphase
    · intro j u hj hu r₁ hr₁
      rw [not_unfinished_of_phase hr₁ (h.others hj hi hu ht)]
      exact .ended
  · -- a new run, when there is none
    obtain ⟨hwin, hrow⟩ := hok (by rw [acceptsAt, hi]; exact hacc)
    have hnot := h.none_unfinished (not_shown_of_accepts hacc) hwin
    refine ⟨?_, Pool.All.set hi ?_ ?_⟩
    · have hzero := unfinishedRuns_eq_zero hnot
      simp only [unfinishedRuns] at hzero ⊢
      omega
    · intro r₁ hr₁
      rw [hnew] at hr₁
      cases hr₁
      exact ⟨by simp [Run.new, RunPc.phase], fun _ => hrow⟩
    · intro j u _ hu r₁ hr₁
      rw [not_unfinished_of_phase hr₁ (hnot u (List.mem_of_getElem? hu))]
      exact .ended
  · have hshown : w'.shown = p.world.shown := by
      rw [PersonaWorld.shown, hst, PersonaWorld.shown]
    refine ⟨?_, Pool.All.set hi ?_ ?_⟩
    · rw [not_unfinished_of_none hnone, not_unfinished_of_none hnone'] at htot
      simp only [unfinishedRuns, Bool.toNat_false] at hone htot ⊢
      omega
    · intro r₁ hr₁
      rw [hnone'] at hr₁; cases hr₁
    · intro j u _ hu r₁ hr₁
      rw [hshown]
      exact (h.shown j u hu r₁ hr₁).of_row hrow

theorem kill_unfinished (t : PersonaTask) : t.kill.unfinished = false := by
  cases t with
  | upload req pc => cases pc <;> rfl
  | delete pc => cases pc <;> rfl
  | process pc =>
    cases pc with
    | accepted r =>
      rw [PersonaTask.kill, PersonaTask.unfinished]
      simp only [PersonaTask.run, Option.any_some]
      cases hr : r.pc.ended with
      | true => rw [if_pos rfl, hr]; rfl
      | false => rfl
    | _ => rfl

/-- The environment takes a step. -/
theorem OneRun.env (h : OneRun p) {x : PersonaEnv} {w' : PersonaWorld}
    (hx : personaEnv p.world x = some w') : OneRun ⟨w', p.tasks.map (personaOnTask x)⟩ := by
  cases x with
  | restart =>
    refine OneRun.of_zero (unfinishedRuns_eq_zero fun t ht => ?_)
    obtain ⟨t₀, -, rfl⟩ := List.mem_map.mp ht
    exact kill_unfinished t₀
  | orphan k act =>
    obtain ⟨hrow, hst⟩ := (orphanStep_inv hx).keeps
    have hshown : w'.shown = p.world.shown := by
      rw [PersonaWorld.shown, hst, PersonaWorld.shown]
    rw [map_onTask_orphan]
    refine ⟨h.one, fun i t hi r hr => ?_⟩
    rw [hrow, hshown]
    exact h.shown i t hi r hr

/-- The invariant is kept by every step that meets the condition. -/
theorem OneRun.next (h : OneRun p) (hok : WindowFree p e)
    (hstep : (personaCoop H).next p e = some q) : OneRun q := by
  refine Coop.next_cases hstep ?_ ?_ ?_
  · intro t _ harr
    exact h.arrive harr
  · rintro i ev t w' t' rfl hi hs
    exact h.run hok hi hs
  · rintro x w' rfl hx
    exact h.env hx

/-- The invariant holds in every run whose steps meet the condition. -/
theorem oneRun_of_reach (h : (personaSystem H init).Reach WindowFree p) : OneRun p := by
  refine h.inv ?_ fun s e t hs hok hstep => hs.next hok hstep
  rintro s ⟨-, hnil⟩
  exact .of_zero (unfinishedRuns_eq_zero (by rw [hnil]; simp))

/-- With one run, a status that is `READY` does not go back to `PROCESSING`. -/
theorem OneRun.not_reverts (h : OneRun p) (hstep : (personaCoop H).next p e = some q) :
    ¬ Reverts p.world q.world := by
  rintro ⟨hready, hproc⟩
  revert hproc
  refine Coop.next_cases (motive := fun q => q.world.row = some .processing → False) hstep ?_ ?_ ?_
  · intro t _ _ hproc
    rw [hready] at hproc; cases hproc
  · intro i ev t w' t' _ hi hs hproc
    rcases personaStep_cases hs with ⟨r, r', _, hr, -, -, hphase⟩ | ⟨-, -, -, rfl⟩ | ⟨-, -, hrow, -⟩
    · rcases hphase.processing hproc with h' | h'
      · rw [hready] at h'; cases h'
      · exact (h.shown i t hi r hr).notReady (.inr (.inr h')) hready
    · rw [hready] at hproc; cases hproc
    · rcases hrow with hrow | hrow <;> rw [hrow] at hproc
      · rw [hready] at hproc; cases hproc
      · cases hproc
  · intro x w' _ hx hproc
    cases x with
    | restart =>
      cases hx
      rw [PersonaWorld.restart, hready] at hproc
      cases hproc
    | orphan k act => rw [(orphanStep_inv hx).keeps.1, hready] at hproc; cases hproc

/-! ## Main results -/

/-- In every run of requests on one persona in which none is accepted in a window or on an overtaken
read, at most one accepted run is unfinished and the status never goes from `READY` back to
`PROCESSING`. -/
theorem atMostOneRun_of_windowFree (H : Host) (init : PersonaWorld → Prop)
    (p : Pool PersonaWorld PersonaTask) (h : (personaSystem H init).Reach WindowFree p) :
    unfinishedRuns p ≤ 1 ∧
      ∀ e q, (personaSystem H init).step p e = some q → ¬ Reverts p.world q.world :=
  ⟨(oneRun_of_reach h).one, fun _ _ hstep => (oneRun_of_reach h).not_reverts hstep⟩

end

/-- A request that is accepted, and whose run has claimed the persona. -/
def acceptedRun (i : Nat) : List (Event PersonaTask PersonaEvent PersonaEnv) :=
  [.arrive (.process (.getting none)), .run i (.process .select), .run i (.process .resume)]

/-- The steps of run `i` up to `PROCESSING`. -/
def claimRun (i : Nat) : List (Event PersonaTask PersonaEvent PersonaEnv) :=
  [.run i (.process (.run .start)), .run i (.process (.run (.lock none))),
    .run i (.process (.run (.apply 0)))]

/-- The theorem at a run: a request is accepted, its run claims the persona, and a second request
is rejected. -/
theorem atMostOneRun_of_windowFree_run :
    ∃ p, (personaSystem sampleHost (· = samplePersona)).Reach WindowFree p ∧
      p.tasks.length = 2 ∧ unfinishedRuns p ≤ 1 := by
  have h : ((personaSystem sampleHost (· = samplePersona)).exec WindowFree ⟨samplePersona, []⟩
      (acceptedRun 0 ++ claimRun 0 ++ acceptedRun 1)).any (fun p => p.tasks.length = 2) = true := by
    decide +kernel
  obtain ⟨p, hsteps, hlen⟩ := System.exists_of_exec h
  have hreach : (personaSystem sampleHost (· = samplePersona)).Reach WindowFree p :=
    ⟨_, ⟨rfl, rfl⟩, hsteps⟩
  exact ⟨p, hreach, by simpa using hlen, (atMostOneRun_of_windowFree _ _ p hreach).1⟩

/-- Two requests that are both accepted before either run has started. -/
theorem two_runs_accepted :
    ∃ p, (personaSystem sampleHost (· = samplePersona)).Reach anyStep p ∧ unfinishedRuns p = 2 := by
  have h : ((personaSystem sampleHost (· = samplePersona)).exec anyStep ⟨samplePersona, []⟩
      (acceptedRun 0 ++ acceptedRun 1)).any (fun p => unfinishedRuns p = 2) = true := by
    decide +kernel
  obtain ⟨p, hsteps, htwo⟩ := System.exists_of_exec h
  exact ⟨p, ⟨_, ⟨rfl, rfl⟩, hsteps⟩, by simpa using htwo⟩

end YeounEngine
