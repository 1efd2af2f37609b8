import YeounEngine.SingleFlight

/-!
# Deletion and creation

`delete_persona` looks at the status it has read and then removes the files and the rows. Uploads
hold no reservation between their guard and their last write, and an accepted `/process` has not yet set
`PROCESSING`, so both may write after the removal. `DeletionIsolated` is the condition that these windows
do not overlap: no upload or run is let in while a deletion is past its check or on a row that
is gone, and no deletion while one of them, or work they have left behind, is under way. Under it what
a deletion has removed stays removed (`gone_of_deletionIsolated`); without it an upload brings
the tree back (`upload_survives_delete`).

The part about the deletion itself (`DeletePc.Holds`, `Shrinks`) does not mention the other
requests, so the conversations use it too.
-/

namespace YeounEngine

open Transition

/-! ## What a deletion has removed -/

/-- Neither files nor rows. -/
def PersonaWorld.Gone (w : PersonaWorld) : Prop := w.files = none ∧ w.NoRows

/-- No left-over work can still write. -/
def PersonaWorld.NoWriters (w : PersonaWorld) : Prop := ∀ o ∈ w.orphans, o.writes = none

instance (w : PersonaWorld) : Decidable w.NoWriters :=
  inferInstanceAs (Decidable (∀ o ∈ w.orphans, o.writes = none))

/-- The deletion has passed its check and has not failed. -/
def DeletePc.pastCheck : DeletePc → Bool
  | .rmtree _ | .deletingRows _ | .done (.ok _) => true
  | _ => false

/-- What a deletion has removed when it is at a given point. -/
def DeletePc.Holds (w : PersonaWorld) : DeletePc → Prop
  | .rmtree true | .deletingRows false => w.files = none
  | .deletingRows true | .done (.ok _) => w.Gone
  | _ => True

/-- The step in which a deletion passes its check. -/
def deletePasses (w : PersonaWorld) : DeletePc → DeleteEvent → Bool
  | .getting (some row), .resume => (deletable w.id row).isNone
  | _, _ => false

/-- A change that brings nothing back. -/
def Shrinks (w w' : PersonaWorld) : Prop :=
  (w.files = none → w'.files = none) ∧ (w.NoRows → w'.NoRows)

section
variable {w w' : PersonaWorld} {pc pc' : DeletePc} {ev : DeleteEvent}

theorem Shrinks.refl (w : PersonaWorld) : Shrinks w w := ⟨id, id⟩

/-- What has been removed stays removed under a change that brings nothing back. -/
theorem DeletePc.Holds.of_shrinks (h : pc.Holds w) (hs : Shrinks w w') : pc.Holds w' := by
  unfold DeletePc.Holds at h ⊢
  split at h
  · exact hs.1 h
  · exact hs.1 h
  · exact ⟨hs.1 h.1, hs.2 h.2⟩
  · exact ⟨hs.1 h.1, hs.2 h.2⟩
  · trivial

/-- A deletion brings nothing back. -/
theorem DeleteStep.shrinks {out : PersonaWorld × DeletePc} (h : DeleteStep w pc ev out) :
    Shrinks w out.1 := by
  cases h with
  | remove => exact ⟨fun hf => by simp [PersonaWorld.onFiles, hf, Files.keeping], id⟩
  | removeAll => exact ⟨fun _ => rfl, id⟩
  | deleteRows => exact ⟨id, fun _ => PersonaWorld.noRows_deletePersonaTx w⟩
  | _ => exact .refl w

/-- A deletion leaves at most a removal running. -/
theorem DeleteStep.noWriters {out : PersonaWorld × DeletePc} (h : DeleteStep w pc ev out)
    (hw : w.NoWriters) : out.1.NoWriters := by
  cases h with
  | cancelRemoving =>
    intro o ho
    rcases PersonaWorld.mem_leave.mp ho with ho | rfl
    · exact hw o ho
    · rfl
  | _ => exact hw

/-- A deletion removes what it says. -/
theorem DeleteStep.holds {out : PersonaWorld × DeletePc} (h : DeleteStep w pc ev out)
    (hpc : pc.Holds w) : out.2.Holds out.1 := by
  cases h with
  | passedEmpty _ hf => exact hf
  | removeAll => rfl
  | removed => exact hpc
  | deleteRows => exact ⟨hpc, PersonaWorld.noRows_deletePersonaTx w⟩
  | deleted => exact hpc
  | _ => trivial

/-- A deletion is past its check from the step that passes it. -/
theorem DeleteStep.pastCheck {out : PersonaWorld × DeletePc} (h : DeleteStep w pc ev out)
    (hp : out.2.pastCheck = true) : pc.pastCheck = true ∨ deletePasses w pc ev = true := by
  cases h with
  | passed hg | passedEmpty hg => exact .inr (by rw [deletePasses, hg]; rfl)
  | remove | removeAll | removed | deleteRows | deleted => exact .inl rfl
  | _ => cases hp

/-- A deletion that is not past its check has removed nothing. -/
theorem DeletePc.holds_of_not_pastCheck (h : pc.pastCheck = false) : pc.Holds w := by
  unfold DeletePc.Holds
  split <;> trivial

/-- Left-over removals bring nothing back. -/
theorem OrphanStep.shrinks {k : Nat} {act : OrphanAct} (h : OrphanStep w k act w')
    (hw : w.NoWriters) : Shrinks w w' := by
  cases h with
  | write hk hsome | written hk hsome =>
    rw [hw _ hk] at hsome
    cases hsome
  | remove => exact ⟨fun hf => by simp [PersonaWorld.onFiles, hf, Files.keeping], id⟩
  | @removed orphan =>
    refine ⟨fun hf => ?_, id⟩
    change orphan.removed w.files = none
    rw [hf]
    unfold Orphan.removed
    split <;> rfl

theorem OrphanStep.noWriters {k : Nat} {act : OrphanAct} (h : OrphanStep w k act w')
    (hw : w.NoWriters) : w'.NoWriters :=
  fun o ho => hw o (h.orphans ho)

end

/-! ## The other requests -/

/-- The upload has passed its guard and may still write. -/
def UploadPc.writes : UploadPc → Bool
  | .reading _ _ _ | .closing _ | .writing _ _ _ _ | .inserting _ _ _ => true
  | _ => false

/-- The request may still write files or rows: an upload past its guard, an unfinished run. -/
def PersonaTask.writes : PersonaTask → Bool
  | .upload _ pc => pc.writes
  | .process (.accepted r) => !r.pc.ended
  | _ => false

/-- The deletion of a request that is one. -/
def PersonaTask.deletion : PersonaTask → Option DeletePc
  | .delete pc => some pc
  | _ => none

/-- The step in which an upload passes its guard, or `/process` accepts. -/
def admits (w : PersonaWorld) : PersonaTask → PersonaEvent → Bool
  | .upload _ (.getting (some row)), .upload .resume => (ensureWritable w.id row).isNone
  | t, e => accepts w t e

section
variable {H : Host} {w w' : PersonaWorld} {t t' : PersonaTask} {e : PersonaEvent}

/-- An upload that is not writing changes nothing, and starts to write only past its guard. -/
theorem UploadStep.quiet {req : UploadRequest} {pc : UploadPc} {ev : UploadEvent}
    {out : PersonaWorld × UploadPc} (h : UploadStep H w req pc ev out) (hpc : pc.writes = false) :
    out.1 = w ∧ (out.2.writes = true → admits w (.upload req pc) (.upload ev) = true) := by
  cases h with
  | accepted hg | unsupported hg => exact ⟨rfl, fun _ => by rw [admits, hg]; rfl⟩
  | select | refused | getFailed | cancelGetting => exact ⟨rfl, fun hw => by cases hw⟩
  | _ => cases hpc

/-- A request that is neither writing nor a deletion changes nothing, and starts to write only in the step
that admits it. -/
theorem personaStep_quiet (h : personaStep H w t e = some (w', t')) (ht : t.writes = false)
    (hd : t.deletion = none) :
    w' = w ∧ (t'.writes = true → admits w t e = true) ∧ t'.deletion = none := by
  cases personaStep_inv h with
  | upload hs =>
    obtain ⟨hw, hadmit⟩ := hs.quiet ht
    exact ⟨hw, hadmit, rfl⟩
  | process hs =>
    cases hs with
    | accepted hg => exact ⟨rfl, (fun _ => by simp [admits, accepts, hg]), rfl⟩
    | run hr =>
      rw [PersonaTask.writes, Bool.not_eq_false', ended_iff_phase] at ht
      exact absurd ht (runStep_phase hr).ne_ended
    | select | refused | failed | cancelled => exact ⟨rfl, (fun hw => by cases hw), rfl⟩
  | delete => cases hd

/-- A deletion goes on as one. -/
theorem personaStep_delete {pc : DeletePc} (h : personaStep H w (.delete pc) e = some (w', t')) :
    ∃ ev pc', e = .delete ev ∧ t' = .delete pc' ∧ DeleteStep w pc ev (w', pc') := by
  cases personaStep_inv h with
  | delete hs => exact ⟨_, _, rfl, rfl, hs⟩

/-- A request that is no deletion does not become one. -/
theorem personaStep_writer (h : personaStep H w t e = some (w', t')) (hd : t.deletion = none) :
    t'.deletion = none := by
  cases personaStep_inv h with
  | upload | process => rfl
  | delete => cases hd

end

/-! ## The condition -/

/-- The step in which a writer is let in. -/
def admitsAt (p : Pool PersonaWorld PersonaTask) :
    Event PersonaTask PersonaEvent PersonaEnv → Bool
  | .run i e => (p.tasks[i]?).any fun t => admits p.world t e
  | _ => false

/-- The step in which a deletion passes its check. -/
def deletesAt (p : Pool PersonaWorld PersonaTask) :
    Event PersonaTask PersonaEvent PersonaEnv → Bool
  | .run i (.delete ev) =>
    (p.tasks[i]?).any fun t => t.deletion.any fun pc => deletePasses p.world pc ev
  | _ => false

/-- A writer is let in only on a row that is still there and with no deletion past its check; a
deletion passes its check only when no request and no left-over work is writing. -/
def DeletionIsolated (p : Pool PersonaWorld PersonaTask)
    (e : Event PersonaTask PersonaEvent PersonaEnv) : Prop :=
  (admitsAt p e = true → p.world.row.isSome = true ∧
    ∀ u ∈ p.tasks, u.deletion.any DeletePc.pastCheck = false) ∧
  (deletesAt p e = true → (∀ u ∈ p.tasks, u.writes = false) ∧ p.world.NoWriters)

instance (p : Pool PersonaWorld PersonaTask) (e : Event PersonaTask PersonaEvent PersonaEnv) :
    Decidable (DeletionIsolated p e) := inferInstanceAs (Decidable ((_ → _ ∧ _) ∧ (_ → _ ∧ _)))

/-! ## The invariant -/

/-- While a deletion is past its check nothing writes, and what it has removed stays removed. -/
structure Isolated (p : Pool PersonaWorld PersonaTask) : Prop where
  quiet : ∀ t ∈ p.tasks, t.deletion.any DeletePc.pastCheck = true →
    (∀ u ∈ p.tasks, u.writes = false) ∧ p.world.NoWriters
  holds : p.All fun w _ t => ∀ pc, t.deletion = some pc → pc.Holds w

section
variable {H : Host} {init : PersonaWorld → Prop} {p q : Pool PersonaWorld PersonaTask}
  {e : Event PersonaTask PersonaEvent PersonaEnv} {i : Nat} {ev : PersonaEvent}
  {t t' : PersonaTask} {w' : PersonaWorld}

/-- With no deletion past its check there is nothing to show. -/
theorem Isolated.of_none (h : ∀ u ∈ p.tasks, u.deletion.any DeletePc.pastCheck = false) :
    Isolated p := by
  refine ⟨fun t ht hp => ?_, fun i t hi pc hpc => ?_⟩
  · rw [h t ht] at hp; cases hp
  · have := h t (List.mem_of_getElem? hi)
    rw [hpc, Option.any_some] at this
    exact DeletePc.holds_of_not_pastCheck this

/-- A deletion takes a step. -/
theorem Isolated.delete (h : Isolated p) {pc pc' : DeletePc} {dev : DeleteEvent}
    (hok : DeletionIsolated p (.run i (.delete dev))) (hi : p.tasks[i]? = some (.delete pc))
    (hs : DeleteStep p.world pc dev (w', pc')) :
    Isolated ⟨w', p.tasks.set i (.delete pc')⟩ := by
  have hnew : ∀ u ∈ p.tasks.set i (.delete pc'), (∀ v ∈ p.tasks, v.writes = false) →
      u.writes = false := by
    intro u hu hall
    rcases List.mem_or_eq_of_mem_set hu with hu | rfl
    · exact hall u hu
    · rfl
  have before : (∃ u ∈ p.tasks.set i (.delete pc'), u.deletion.any DeletePc.pastCheck = true) →
      (∀ v ∈ p.tasks, v.writes = false) ∧ p.world.NoWriters := by
    rintro ⟨u, hu, hp⟩
    rcases List.mem_or_eq_of_mem_set hu with hu | rfl
    · exact h.quiet u hu hp
    · rcases hs.pastCheck hp with hpast | hpass
      · exact h.quiet _ (List.mem_of_getElem? hi) hpast
      · exact hok.2 (by rw [deletesAt, hi]; exact hpass)
  refine ⟨fun u hu hp => ?_, Pool.All.set hi ?_ ?_⟩
  · obtain ⟨hall, hno⟩ := before ⟨u, hu, hp⟩
    exact ⟨fun v hv => hnew v hv hall, hs.noWriters hno⟩
  · intro pc₁ hpc₁
    cases hpc₁
    exact hs.holds (h.holds i _ hi pc rfl)
  · intro j u _ hu pc₁ hpc₁
    exact (h.holds j u hu pc₁ hpc₁).of_shrinks hs.shrinks

/-- A request that is no deletion takes a step. -/
theorem Isolated.other (h : Isolated p) (hok : DeletionIsolated p (.run i ev))
    (hi : p.tasks[i]? = some t) (hd : t.deletion = none)
    (hs : personaStep H p.world t ev = some (w', t')) : Isolated ⟨w', p.tasks.set i t'⟩ := by
  have hd' := personaStep_writer hs hd
  have none_of : (∀ u ∈ p.tasks, u.deletion.any DeletePc.pastCheck = false) →
      Isolated ⟨w', p.tasks.set i t'⟩ := by
    intro hall
    refine .of_none fun u hu => ?_
    rcases List.mem_or_eq_of_mem_set hu with hu | rfl
    · exact hall u hu
    · rw [hd']; rfl
  cases hw : t.writes with
  | true =>
    -- the writer excludes every deletion that is past its check
    refine none_of fun u hu => ?_
    cases hp : u.deletion.any DeletePc.pastCheck with
    | false => rfl
    | true => rw [(h.quiet u hu hp).1 t (List.mem_of_getElem? hi)] at hw; cases hw
  | false =>
    obtain ⟨rfl, hadmit, -⟩ := personaStep_quiet hs hw hd
    cases hw' : t'.writes with
    | true => exact none_of (hok.1 (by rw [admitsAt, hi]; exact hadmit hw')).2
    | false =>
      refine ⟨fun u hu hp => ?_, Pool.All.set hi ?_ ?_⟩
      · rcases List.mem_or_eq_of_mem_set hu with hu | rfl
        · obtain ⟨hall, hno⟩ := h.quiet u hu hp
          refine ⟨fun v hv => ?_, hno⟩
          rcases List.mem_or_eq_of_mem_set hv with hv | rfl
          · exact hall v hv
          · exact hw'
        · rw [hd'] at hp; cases hp
      · intro pc hpc
        rw [hd'] at hpc; cases hpc
      · intro j u _ hu
        exact h.holds j u hu

/-- A restart ends requests: none writes after it, and a deletion that has ended stays as it is. -/
theorem kill_spec (t : PersonaTask) :
    t.kill.writes = false ∧ ∀ pc, t.kill.deletion = some pc → t.deletion = some pc ∨
      pc.pastCheck = false := by
  cases t with
  | upload req pc => cases pc <;> exact ⟨rfl, fun _ h => by cases h⟩
  | delete pc =>
    refine ⟨by cases pc <;> rfl, fun pc' h => ?_⟩
    cases pc <;> cases h <;> first | exact .inl rfl | exact .inr rfl
  | process pc =>
    refine ⟨?_, fun pc' h => ?_⟩
    · cases pc with
      | accepted r =>
        rw [PersonaTask.kill, PersonaTask.writes]
        cases hr : r.pc.ended with
        | true => rw [if_pos rfl, hr]; rfl
        | false => rfl
      | _ => rfl
    · cases pc <;> cases h

/-- The environment takes a step. -/
theorem Isolated.env (h : Isolated p) {x : PersonaEnv} (hx : personaEnv p.world x = some w') :
    Isolated ⟨w', p.tasks.map (personaOnTask x)⟩ := by
  cases x with
  | restart =>
    cases hx
    refine ⟨fun _ _ _ => ⟨fun u hu => ?_, fun o ho => by cases ho⟩, Pool.All.map fun i t hi pc hpc => ?_⟩
    · obtain ⟨v, -, rfl⟩ := List.mem_map.mp hu
      exact (kill_spec v).1
    · rcases (kill_spec t).2 pc hpc with hold | hnot
      · exact (h.holds i t hi pc hold).of_shrinks ⟨id, id⟩
      · exact DeletePc.holds_of_not_pastCheck hnot
  | orphan k act =>
    rw [map_onTask_orphan]
    by_cases hp : ∃ u ∈ p.tasks, u.deletion.any DeletePc.pastCheck = true
    · obtain ⟨u, hu, hpast⟩ := hp
      obtain ⟨hall, hno⟩ := h.quiet u hu hpast
      have hstep := orphanStep_inv hx
      exact ⟨fun _ _ _ => ⟨hall, hstep.noWriters hno⟩,
        fun i t hi pc hpc => (h.holds i t hi pc hpc).of_shrinks (hstep.shrinks hno)⟩
    · refine .of_none fun u hu => ?_
      cases hpast : u.deletion.any DeletePc.pastCheck with
      | false => rfl
      | true => exact absurd ⟨u, hu, hpast⟩ hp

/-- The invariant is kept by every step that meets the condition. -/
theorem Isolated.next (h : Isolated p) (hok : DeletionIsolated p e)
    (hstep : (personaCoop H).next p e = some q) : Isolated q := by
  refine Coop.next_cases hstep ?_ ?_ ?_
  · intro t _ harr
    have hquiet : t.writes = false ∧ t.deletion.any DeletePc.pastCheck = false := by
      change t.arriving = true at harr
      unfold PersonaTask.arriving at harr
      split at harr <;> first | exact ⟨rfl, rfl⟩ | cases harr
    refine ⟨fun u hu hp => ?_, h.holds.append fun pc hpc => ?_⟩
    · rcases Pool.mem_append.mp hu with hu | rfl
      · obtain ⟨hall, hno⟩ := h.quiet u hu hp
        refine ⟨fun v hv => ?_, hno⟩
        rcases Pool.mem_append.mp hv with hv | rfl
        · exact hall v hv
        · exact hquiet.1
      · rw [hquiet.2] at hp; cases hp
    · have := hquiet.2
      rw [hpc, Option.any_some] at this
      exact DeletePc.holds_of_not_pastCheck this
  · rintro i ev t w' t' rfl hi hs
    cases hd : t.deletion with
    | none => exact h.other hok hi hd hs
    | some pc =>
      cases t with
      | delete pc₁ =>
        obtain ⟨dev, pc', rfl, rfl, hstep⟩ := personaStep_delete hs
        exact h.delete hok hi hstep
      | _ => cases hd
  · rintro x w' rfl hx
    exact h.env hx

/-! ## Main results -/

/-- In every run of requests on one persona in which deletions are isolated from uploads and runs, a
deletion that has answered 200 leaves neither files nor rows, from then on. -/
theorem gone_of_deletionIsolated (H : Host) (init : PersonaWorld → Prop)
    (p : Pool PersonaWorld PersonaTask) (h : (personaSystem H init).Reach DeletionIsolated p)
    (hdone : .delete (.done (.ok ())) ∈ p.tasks) : p.world.Gone := by
  have hI : Isolated p := by
    refine h.inv ?_ fun s e t hs hok hstep => hs.next hok hstep
    rintro s ⟨-, hnil⟩
    exact .of_none (by rw [hnil]; simp)
  obtain ⟨i, hi⟩ := List.mem_iff_getElem?.mp hdone
  exact hI.holds i _ hi _ rfl

end

/-- The photo upload of the concrete runs: a JPEG signature. -/
def samplePhoto : UploadRequest :=
  ⟨.photo, some "image/jpeg", some "face.jpg", [0xff, 0xd8, 0xff, 0xe0]⟩

/-- Up to the guard of upload `i`. -/
def startUpload (i : Nat) : List (Event PersonaTask PersonaEvent PersonaEnv) :=
  [.arrive (.upload samplePhoto (.getting none)), .run i (.upload .select),
    .run i (.upload .resume)]

/-- From the guard of upload `i` to its response. -/
def finishUpload (i : Nat) : List (Event PersonaTask PersonaEvent PersonaEnv) :=
  [.run i (.upload .resume), .run i (.upload .resume), .run i (.upload (.closed 7 8 false none)),
    .run i (.upload (.written 5)), .run i (.upload (.renamed none true)),
    .run i (.upload (.apply 9)), .run i (.upload .resume)]

/-- A deletion up to its check, and from there to 200 when there is no tree. -/
def deleteRows (i : Nat) : List (Event PersonaTask PersonaEvent PersonaEnv) :=
  [.arrive (.delete (.getting none)), .run i (.delete .select), .run i (.delete .resume),
    .run i (.delete .apply), .run i (.delete .resume)]

/-- A deletion of a persona that has a tree, to 200. -/
def deleteTree (i : Nat) : List (Event PersonaTask PersonaEvent PersonaEnv) :=
  [.arrive (.delete (.getting none)), .run i (.delete .select), .run i (.delete .resume),
    .run i (.delete .apply), .run i (.delete .resume), .run i (.delete .apply),
    .run i (.delete .resume)]

/-- A deletion that has answered 200, as a test. -/
def PersonaTask.deleted : PersonaTask → Bool
  | .delete (.done (.ok _)) => true
  | _ => false

theorem mem_of_deleted {p : Pool PersonaWorld PersonaTask}
    (h : ∃ t ∈ p.tasks, t.deleted = true) : .delete (.done (.ok ())) ∈ p.tasks := by
  obtain ⟨t, ht, hd⟩ := h
  unfold PersonaTask.deleted at hd
  split at hd
  · exact ht
  · cases hd

/-- The theorem at a run: an upload, then a deletion. -/
theorem gone_of_deletionIsolated_run :
    ∃ p, (personaSystem sampleHost (· = samplePersona)).Reach DeletionIsolated p ∧
      .delete (.done (.ok ())) ∈ p.tasks ∧ p.world.Gone := by
  have h : ((personaSystem sampleHost (· = samplePersona)).exec DeletionIsolated
      ⟨samplePersona, []⟩ (startUpload 0 ++ finishUpload 0 ++ deleteTree 1)).any (fun p =>
        ∃ t ∈ p.tasks, t.deleted = true) = true := by
    decide +kernel
  obtain ⟨p, hsteps, hdone⟩ := System.exists_of_exec h
  have hmem := mem_of_deleted (of_decide_eq_true hdone)
  have hreach : (personaSystem sampleHost (· = samplePersona)).Reach DeletionIsolated p :=
    ⟨_, ⟨rfl, rfl⟩, hsteps⟩
  exact ⟨p, hreach, hmem, gone_of_deletionIsolated _ _ p hreach hmem⟩

/-- An upload that has passed its guard before the deletion and writes after it: both have ended with
200, nothing is left running, and there are a tree and a row. -/
theorem upload_survives_delete :
    ∃ p, (personaSystem sampleHost (· = samplePersona)).Reach anyStep p ∧
      .delete (.done (.ok ())) ∈ p.tasks ∧
      (∀ t ∈ p.tasks, t.writes = false) ∧ p.world.orphans = [] ∧
      p.world.files.isSome = true ∧ p.world.photoAssets ≠ [] := by
  have h : ((personaSystem sampleHost (· = samplePersona)).exec anyStep ⟨samplePersona, []⟩
      (startUpload 0 ++ deleteRows 1 ++ finishUpload 0)).any (fun p =>
        (∃ t ∈ p.tasks, t.deleted = true) ∧ (∀ t ∈ p.tasks, t.writes = false) ∧
          p.world.orphans = [] ∧ p.world.files.isSome = true ∧ p.world.photoAssets ≠ []) = true := by
    decide +kernel
  obtain ⟨p, hsteps, hbad⟩ := System.exists_of_exec h
  obtain ⟨hdone, hrest⟩ := of_decide_eq_true hbad
  exact ⟨p, ⟨_, ⟨rfl, rfl⟩, hsteps⟩, mem_of_deleted hdone, hrest⟩

end YeounEngine
