import YeounEngine.Recovery

/-!
# Uploads while a persona is `PROCESSING`

`_ensure_writable_persona` looks at the status once, before the body is read. Until the file has its name
and the row is inserted there are several awaits, and a run may claim the persona in any of them.

`ClaimsUncontended` is the condition that none does, and that what an upload has read is still so when it
decides. Under it no upload renames its file or inserts its row while the persona is `PROCESSING`
(`not_lands_of_claimsUncontended`); `upload_lands_in_processing` is an upload that is overtaken.
-/

namespace YeounEngine

open Transition

/-! ## The property -/

/-- The upload renames its file in the step, or inserts its row. -/
def lands : PersonaTask → PersonaEvent → Bool
  | .upload _ (.writing _ _ _ true), .upload (.renamed none _) => true
  | .upload _ (.inserting _ _ false), .upload (.apply _) => true
  | _, _ => false

/-! ## The condition -/

/-- The upload has passed its check, and its file or its row is still to come. -/
def UploadPc.pending : UploadPc → Bool
  | .reading _ _ _ | .closing (.ok _) | .writing _ _ _ _ | .inserting _ _ false => true
  | _ => false

def PersonaTask.pending : PersonaTask → Bool
  | .upload _ pc => pc.pending
  | _ => false

/-- The step in which a run sets `PROCESSING`. -/
def claims (w : PersonaWorld) : PersonaTask → PersonaEvent → Bool
  | .process (.accepted r), .process (.run (.apply _)) => r.pc = .updProcessing false && w.row.isSome
  | _, _ => false

/-- The step in which an upload passes its check. -/
def uploadPasses (w : PersonaWorld) : PersonaTask → PersonaEvent → Bool
  | .upload _ (.getting (some row)), .upload .resume => (ensureWritable w.id row).isNone
  | _, _ => false

/-- A run claims the persona only while no upload is pending, and an upload passes its check only while the
persona is not `PROCESSING`. -/
def ClaimsUncontended (p : Pool PersonaWorld PersonaTask) : Event PersonaTask PersonaEvent PersonaEnv → Prop
  | .run i e => ∀ t ∈ p.tasks[i]?,
    (claims p.world t e = true → ∀ u ∈ p.tasks, u.pending = false) ∧
      (uploadPasses p.world t e = true → p.world.row ≠ some .processing)
  | _ => True

instance (p : Pool PersonaWorld PersonaTask) :
    ∀ e : Event PersonaTask PersonaEvent PersonaEnv, Decidable (ClaimsUncontended p e)
  | .run i e => inferInstanceAs (Decidable (∀ t ∈ p.tasks[i]?,
      (claims p.world t e = true → ∀ u ∈ p.tasks, u.pending = false) ∧
        (uploadPasses p.world t e = true → p.world.row ≠ some .processing)))
  | .arrive _ | .env _ => inferInstanceAs (Decidable True)

/-! ## One step -/

section
variable {H : Host} {w w' : PersonaWorld} {t t' : PersonaTask} {e : PersonaEvent}

/-- An upload that lands in its next step is pending. -/
theorem pending_of_lands (h : lands t e = true) : t.pending = true := by
  unfold lands at h
  split at h
  · rfl
  · rfl
  · cases h

/-- An upload is pending from the step in which it passes its check. -/
theorem UploadStep.pending {req : UploadRequest} {pc : UploadPc} {ev : UploadEvent}
    {out : PersonaWorld × UploadPc} (h : UploadStep H w req pc ev out) (hp : out.2.pending = true) :
    pc.pending = true ∨ uploadPasses w (.upload req pc) (.upload ev) = true := by
  cases h with
  | accepted hg => exact .inr (by rw [uploadPasses, hg]; rfl)
  | more | stop | opened | output | written | renamed => exact .inl rfl
  | _ => cases hp

theorem personaStep_pending (h : personaStep H w t e = some (w', t')) (hp : t'.pending = true) :
    t.pending = true ∨ uploadPasses w t e = true := by
  cases personaStep_inv h with
  | upload hs => exact hs.pending hp
  | process | delete => cases hp

theorem Interrupted.row {r : Run} {out : PersonaWorld × Run} (h : Interrupted w r out) :
    out.1.row = w.row := by
  cases h with
  | @rendering _ i _ unlinked =>
    change (idleFailed w i true unlinked).row = _
    rw [idleFailed]
    rfl
  | _ => rfl

/-- Only a claim sets `PROCESSING`. -/
theorem claims_of_processing (h : personaStep H w t e = some (w', t')) (hrow : w.row ≠ some .processing)
    (hrow' : w'.row = some .processing) : claims w t e = true := by
  rcases personaStep_cases h with ⟨r, r', ev, hr, hr', rfl, hphase⟩ | ⟨-, -, -, rfl⟩ | ⟨-, -, hsame, -⟩
  · obtain rfl := PersonaTask.run_eq_some hr
    obtain rfl := PersonaTask.run_eq_some hr'
    have hstep : runStep H w r ev = some (w', r') := runStep_of_personaStep h
    have hpc : r.pc = .updProcessing false := by
      rcases hphase.processing hrow' with hbefore | hclaiming
      · exact absurd hbefore hrow
      · exact eq_of_claiming hclaiming
    rcases runStep_cases hstep with hs | ⟨-, hs⟩
    · rw [hpc] at hs
      cases hs with
      | claim =>
        cases hsome : w.row with
        | none =>
          rw [PersonaWorld.updatePersonaStatus, hsome] at hrow'
          cases hrow'
        | some status => rw [claims, hpc, hsome]; rfl
    · exact absurd (hs.row.symm.trans hrow') hrow
  · exact absurd hrow' hrow
  · rcases hsame with hsame | hnone
    · exact absurd (hsame ▸ hrow') hrow
    · rw [hnone] at hrow'
      cases hrow'

theorem kill_not_pending : t.kill.pending = false := by
  cases t with
  | upload req pc => cases pc <;> rfl
  | process pc => cases pc <;> rfl
  | delete pc => cases pc <;> rfl

end

/-! ## The invariant -/

/-- While the persona is `PROCESSING` no upload is pending. -/
def NoneLands (p : Pool PersonaWorld PersonaTask) : Prop :=
  p.world.row = some .processing → ∀ t ∈ p.tasks, t.pending = false

section
variable {H : Host} {p q : Pool PersonaWorld PersonaTask}

/-- A step of a request. -/
theorem NoneLands.run {i : Nat} {t t' : PersonaTask} {e : PersonaEvent} {w' : PersonaWorld} (h : NoneLands p)
    (hok : ClaimsUncontended p (.run i e)) (hi : p.tasks[i]? = some t)
    (hs : personaStep H p.world t e = some (w', t')) : NoneLands ⟨w', p.tasks.set i t'⟩ := by
  intro hrow' u hu
  obtain ⟨hclaim, hpass⟩ := hok t hi
  have hbefore : ∀ u ∈ p.tasks, u.pending = false := by
    by_cases hrow : p.world.row = some .processing
    · exact h hrow
    · exact hclaim (claims_of_processing hs hrow hrow')
  rcases List.mem_or_eq_of_mem_set hu with hu | rfl
  · exact hbefore u hu
  · cases hp : u.pending with
    | false => rfl
    | true =>
      have hquiet := hbefore t (List.mem_of_getElem? hi)
      rcases personaStep_pending hs hp with hpend | hpasses
      · rw [hpend] at hquiet
        cases hquiet
      · -- it passes its check in a step that does not change the status
        have hsame : w'.row = p.world.row := by
          cases personaStep_inv hs with
          | upload hupload => exact hupload.keeps.1
          | process | delete => cases hp
        exact absurd (hsame ▸ hrow') (hpass hpasses)

/-- Every step that meets the condition keeps the invariant. -/
theorem NoneLands.next {e : Event PersonaTask PersonaEvent PersonaEnv} (h : NoneLands p)
    (hok : ClaimsUncontended p e) (hs : (personaCoop H).next p e = some q) : NoneLands q := by
  refine Coop.next_cases (motive := NoneLands) hs ?_ ?_ ?_
  · intro t _ harr hrow u hu
    rcases Pool.mem_append.mp hu with hu | rfl
    · exact h hrow u hu
    · change u.arriving = true at harr
      unfold PersonaTask.arriving at harr
      split at harr <;> first | rfl | cases harr
  · rintro i ev t w t' rfl hi hstep
    exact h.run hok hi hstep
  · intro x w _ hx
    cases x with
    | restart =>
      intro _ u hu
      obtain ⟨t, -, rfl⟩ := List.mem_map.mp hu
      exact kill_not_pending
    | orphan k act =>
      intro hrow u hu
      change u ∈ p.tasks.map (personaOnTask (.orphan k act)) at hu
      rw [map_onTask_orphan] at hu
      exact h ((orphanStep_inv hx).keeps.1 ▸ hrow) u hu

end

/-! ## Main results -/

/-- In every interleaving of uploads with `/process` requests, runs and deletions in which a run claims the
persona only while no upload is pending, and an upload passes its check only while the persona is not
`PROCESSING`: while it is `PROCESSING`, no upload renames its file or inserts its row. -/
theorem not_lands_of_claimsUncontended (H : Host) (p : Pool PersonaWorld PersonaTask)
    (h : (personaSystem H fun _ => True).Reach ClaimsUncontended p) (hrow : p.world.row = some .processing) :
    ∀ t ∈ p.tasks, ∀ e, lands t e = false := by
  have hinv : NoneLands p := by
    refine h.inv (I := NoneLands) (fun p hp _ t ht => ?_) fun p e q hI hok hs => hI.next hok hs
    rw [hp.2] at ht
    cases ht
  intro t ht e
  cases hl : lands t e with
  | false => rfl
  | true =>
    have hpending := pending_of_lands hl
    rw [hinv hrow t ht] at hpending
    cases hpending

/-- Request `i` uploads a photo, up to its check, and then as far as its file. -/
def uploadChecked (i : Nat) : List (Event PersonaTask PersonaEvent PersonaEnv) :=
  [.arrive (.upload ⟨.photo, some "image/jpeg", some "face.jpg", [0xff, 0xd8, 0xff, 0xe0]⟩ (.getting none)),
    .run i (.upload .select), .run i (.upload .resume)]

def uploadWritten (i : Nat) : List (Event PersonaTask PersonaEvent PersonaEnv) :=
  [.resume, .resume, .closed 7 8 false none, .written 5].map fun e => .run i (.upload e)

/-- The theorem at a run: an upload ends, a run claims the persona, and the next upload is refused. -/
theorem not_lands_of_claimsUncontended_run : ∃ p : Pool PersonaWorld PersonaTask,
    (personaSystem sampleHost fun _ => True).Reach ClaimsUncontended p ∧ p.tasks.length = 3 ∧
      p.world.row = some .processing ∧ ∀ t ∈ p.tasks, ∀ e, lands t e = false := by
  have h : ((personaSystem sampleHost fun _ => True).exec ClaimsUncontended ⟨samplePersona, []⟩
      (uploadChecked 0 ++ uploadWritten 0 ++ [.run 0 (.upload (.renamed none true)), .run 0 (.upload (.apply 9)),
        .run 0 (.upload .resume)] ++ acceptedRun 1 ++ claimRun 1 ++ uploadChecked 2)).any
      (fun p => p.tasks.length = 3 ∧ p.world.row = some .processing) = true := by
    decide +kernel
  obtain ⟨p, hsteps, hp⟩ := System.exists_of_exec h
  obtain ⟨hlength, hrow⟩ := of_decide_eq_true hp
  have hreach : (personaSystem sampleHost fun _ => True).Reach ClaimsUncontended p :=
    ⟨_, ⟨trivial, rfl⟩, hsteps⟩
  exact ⟨p, hreach, hlength, hrow, not_lands_of_claimsUncontended _ p hreach hrow⟩

/-- An upload that has passed its check is overtaken by a run: it renames its file in a step that is enabled while
the persona is `PROCESSING`. -/
theorem upload_lands_in_processing : ∃ p q : Pool PersonaWorld PersonaTask,
    (personaSystem sampleHost fun _ => True).Reach anyStep p ∧ p.world.row = some .processing ∧
      (∃ t, p.tasks[0]? = some t ∧ lands t (.upload (.renamed none true)) = true) ∧
      (personaSystem sampleHost fun _ => True).step p (.run 0 (.upload (.renamed none true))) = some q ∧
      q.world.files.has .photo "face.jpg" = true := by
  have h : ((personaSystem sampleHost fun _ => True).exec anyStep ⟨samplePersona, []⟩
      (uploadChecked 0 ++ acceptedRun 1 ++ claimRun 1 ++ uploadWritten 0)).any (fun p =>
        (p.world.row = some .processing ∧
          (p.tasks[0]?).any (fun t => lands t (.upload (.renamed none true))) = true) ∧
        ((personaSystem sampleHost fun _ => True).step p (.run 0 (.upload (.renamed none true)))).any
          (fun q => q.world.files.has .photo "face.jpg") = true) = true := by
    decide +kernel
  obtain ⟨p, hsteps, hp⟩ := System.exists_of_exec h
  obtain ⟨⟨hrow, hlands⟩, hnext⟩ := of_decide_eq_true hp
  obtain ⟨t, ht, hl⟩ := (Option.any_eq_true _ _).mp hlands
  obtain ⟨q, hq, hfile⟩ := (Option.any_eq_true _ _).mp hnext
  exact ⟨p, q, ⟨_, ⟨trivial, rfl⟩, hsteps⟩, hrow, ⟨t, ht, hl⟩, hq, hfile⟩

end YeounEngine
