import YeounEngine.SessionEnd

/-!
# Deletion and conversations

`delete_persona` knows nothing of sessions. A session that is stored when its persona is deleted lives
on, carries only the id of it, and a message of it makes the tree again.

`DeletionClear` is the condition that this does not happen: a deletion passes its check only while no
session of the persona is stored, no message that holds one and no `/start` that has passed its own
check is under way, and nothing left over is writing; and a `/start` passes its check only while the row
that it has read is still there, and no deletion of its persona is under way past its own. Under it a
deletion is final (`final_of_deletionClear`): it has removed the row before it answers 200, so no `/start`
passes any more. Without it a session outlives its persona (`session_survives_delete`).
-/

namespace YeounEngine

open Transition

/-! ## The condition -/

/-- The requests on conversations: those on sessions, and deletions of personas. -/
def conversational : ServiceTask → Bool
  | .persona _ (.delete _) => true
  | .persona _ _ => false
  | _ => true

/-- The session is one of the persona. -/
def ServiceWorld.isOf (w : ServiceWorld) (id sid : Uuid) : Bool :=
  (w.state sid).any fun s => s.personaId = id

/-- The message holds a session that it has looked up, and has not ended. -/
def PostPc.engaged : PostPc → Bool
  | .admitting | .reading | .closing | .responded | .locking | .inside _ => true
  | _ => false

/-- The request is a `/start` on the persona past its check, or a message that holds a session of it. -/
def ServiceTask.engages (w : ServiceWorld) (id : Uuid) : ServiceTask → Bool
  | .start personaId _ .reading => personaId = id
  | .message sid _ pc => pc.engaged && w.isOf id sid
  | _ => false

/-- The request is a deletion of the persona past its check. -/
def ServiceTask.deletes (id : Uuid) : ServiceTask → Bool
  | .persona personaId (.delete pc) => personaId = id && pc.pastCheck
  | _ => false

/-- The request is a deletion of the persona past its check that has still to answer. -/
def ServiceTask.deleting (id : Uuid) : ServiceTask → Bool
  | .persona personaId (.delete (.rmtree _)) | .persona personaId (.delete (.deletingRows _)) => personaId = id
  | _ => false

/-- No session of the persona is stored or held, and nothing left over is writing. -/
structure PersonaClear (id : Uuid) (p : Pool ServiceWorld ServiceTask) : Prop where
  stored : ∀ sid ∈ p.world.stored, p.world.isOf id sid = false
  engaged : ∀ t ∈ p.tasks, t.engages p.world id = false
  writers : (p.world.personas id).NoWriters

instance (id : Uuid) (p : Pool ServiceWorld ServiceTask) : Decidable (PersonaClear id p) :=
  decidable_of_iff ((∀ sid ∈ p.world.stored, p.world.isOf id sid = false) ∧
      (∀ t ∈ p.tasks, t.engages p.world id = false) ∧ (p.world.personas id).NoWriters)
    ⟨fun h => ⟨h.1, h.2.1, h.2.2⟩, fun h => ⟨h.stored, h.engaged, h.writers⟩⟩

/-- The persona whose `/start` passes its check in the step. -/
def startPasses : ServiceTask → ServiceEvent → Option Uuid
  | .start personaId _ (.getting (some row)), .start .resume =>
    if (startable personaId row).isNone then some personaId else none
  | _, _ => none

/-- The persona whose deletion passes its check in the step. -/
def deletionPasses (w : ServiceWorld) : ServiceTask → ServiceEvent → Option Uuid
  | .persona id (.delete pc), .persona (.delete ev) =>
    if deletePasses (w.personas id) pc ev then some id else none
  | _, _ => none

/-- The row of the persona is still there, and no deletion of it is under way past its check. -/
def RowStays (id : Uuid) (p : Pool ServiceWorld ServiceTask) : Prop :=
  (p.world.personas id).row.isSome = true ∧ ∀ u ∈ p.tasks, u.deleting id = false

instance (id : Uuid) (p : Pool ServiceWorld ServiceTask) : Decidable (RowStays id p) :=
  inferInstanceAs (Decidable (_ ∧ _))

/-- A `/start` passes its check only while the row that it has read stays, and a deletion only while no session
of the persona is stored or held and nothing left over is writing. -/
def DeletionClear (p : Pool ServiceWorld ServiceTask) :
    Event ServiceTask ServiceEvent ServiceEnv → Prop
  | .run i e => ∀ t ∈ p.tasks[i]?,
    (∀ id ∈ startPasses t e, RowStays id p) ∧ ∀ id ∈ deletionPasses p.world t e, PersonaClear id p
  | _ => True

instance (p : Pool ServiceWorld ServiceTask) :
    ∀ e : Event ServiceTask ServiceEvent ServiceEnv, Decidable (DeletionClear p e)
  | .run i e => inferInstanceAs (Decidable (∀ t ∈ p.tasks[i]?,
      (∀ id ∈ startPasses t e, RowStays id p) ∧ ∀ id ∈ deletionPasses p.world t e, PersonaClear id p))
  | .arrive _ | .env _ => inferInstanceAs (Decidable True)

/-! ## What happens to a persona -/

/-- The persona gets no session, no file, no row and no writer. -/
structure PersonaKept (id : Uuid) (w w' : ServiceWorld) : Prop where
  sessions : ∀ sid, w'.isOf id sid = true → w.isOf id sid = true
  stored : ∀ sid ∈ w'.stored, w'.isOf id sid = true → sid ∈ w.stored
  shrinks : Shrinks (w.personas id) (w'.personas id)
  writers : (w.personas id).NoWriters → (w'.personas id).NoWriters

section
variable {H : Host} {id : Uuid} {w w' : ServiceWorld} {t t' : ServiceTask} {e : ServiceEvent} {i : Nat}

theorem isOf_congr (h : w'.state = w.state) (sid : Uuid) : w'.isOf id sid = w.isOf id sid := by
  rw [ServiceWorld.isOf, ServiceWorld.isOf, h]

theorem Removes.noWriters {p p' : PersonaWorld} (h : Removes p p') (hw : p.NoWriters) :
    p'.NoWriters := by
  intro o ho
  rcases h.orphans o ho with ho | ho
  · exact hw o ho
  · exact ho

/-- A change to the files, rows or left-over work of one persona only. -/
theorem PersonaKept.of_update {id' : Uuid} {p' : PersonaWorld}
    (hp : w'.personas = Function.update w.personas id' p')
    (hsessions : ∀ sid, w'.isOf id sid = w.isOf id sid) (hstored : w'.stored = w.stored)
    (h : id = id' → Shrinks (w.personas id) p' ∧ ((w.personas id).NoWriters → p'.NoWriters)) :
    PersonaKept id w w' := by
  have hsame : Shrinks (w.personas id) (w'.personas id) ∧
      ((w.personas id).NoWriters → (w'.personas id).NoWriters) := by
    rw [hp]
    by_cases hid : id = id'
    · subst hid
      rw [Function.update_self]
      exact h rfl
    · rw [Function.update_of_ne hid]
      exact ⟨.refl _, fun hw => hw⟩
  exact ⟨fun sid hof => hsessions sid ▸ hof, fun sid hmem _ => hstored ▸ hmem, hsame.1, hsame.2⟩

/-- A request that does not engage the persona. -/
theorem ServiceChange.personaKept (h : ServiceChange H w t e w') (hconv : conversational t = true)
    (hfree : t.engages w id = false) : PersonaKept id w w' := by
  cases h with
  | same personas state stored =>
    exact ⟨fun sid hof => isOf_congr state sid ▸ hof, fun sid hmem _ => stored hmem,
      by rw [personas]; exact .refl _, by rw [personas]; exact fun hw => hw⟩
  | @created personaId userId new systemPrompt now hnew =>
    have hne : personaId ≠ id := of_decide_eq_false hfree
    have hold : ∀ sid, (w.create ⟨new, userId, personaId, systemPrompt, now, now, []⟩).isOf id sid = true →
        sid ≠ new ∧ w.isOf id sid = true := by
      intro sid hof
      rw [ServiceWorld.isOf, state_create] at hof
      by_cases hsid : sid = new
      · subst hsid
        rw [Function.update_self] at hof
        exact absurd (of_decide_eq_true hof) hne
      · rw [Function.update_of_ne hsid] at hof
        exact ⟨hsid, hof⟩
    refine ⟨fun sid hof => (hold sid hof).2, fun sid hmem hof => ?_, .refl _, fun hw => hw⟩
    rcases List.mem_append.mp hmem with hmem | hmem
    · exact hmem
    · exact absurd (List.mem_singleton.mp hmem) (hold sid hof).1
  | @spoke sid _ pc _ _ s m _ hs frame personas state stored =>
    have hne : s.personaId ≠ id := by
      have hfree : w.isOf id sid = false := hfree
      rw [ServiceWorld.isOf, hs] at hfree
      exact of_decide_eq_false hfree
    refine .of_update personas (fun sid' => ?_) stored fun hid => absurd hid.symm hne
    rw [ServiceWorld.isOf, ServiceWorld.isOf, state]
    by_cases hsid : sid' = sid
    · subst hsid
      rw [Function.update_self, hs, Option.any_some, Option.any_some, frame.personaId]
    · rw [Function.update_of_ne hsid]
  | removed hs removes personas state stored =>
    refine .of_update personas (isOf_congr state) stored fun hid => ?_
    subst hid
    exact ⟨removes.shrinks, removes.noWriters⟩
  | @persona id' u ev u' p' hp =>
    cases u with
    | delete pc =>
      refine .of_update rfl (fun _ => rfl) rfl fun hid => ?_
      subst hid
      obtain ⟨ev', pc', -, -, hs⟩ := personaStep_delete hp
      exact ⟨hs.shrinks, hs.noWriters⟩
    | _ => cases hconv

/-- A sweep, or left-over work when nothing left over is writing. -/
theorem serviceEnv_personaKept {x : ServiceEnv} (h : serviceEnv w x = some w')
    (hw : (w.personas id).NoWriters) : PersonaKept id w w' := by
  cases x with
  | sweep now =>
    cases h
    exact ⟨fun _ hof => hof, fun _ hmem _ => List.mem_of_mem_filter hmem, .refl _, fun hw => hw⟩
  | orphan id' k act =>
    obtain ⟨p', hp, rfl⟩ := Option.map_eq_some_iff.mp h
    refine .of_update rfl (fun _ => rfl) rfl fun hid => ?_
    subst hid
    exact ⟨(orphanStep_inv hp).shrinks hw, (orphanStep_inv hp).noWriters⟩

/-- A request engages a persona from the step in which `/start` passes its check, or a message finds a stored
session. -/
theorem RequestStep.engages (h : RequestStep H w i t e (w', t')) (hk : PersonaKept id w w')
    (hfree : t.engages w id = false) (hstored : ∀ sid ∈ w.stored, w.isOf id sid = false)
    (hstart : startPasses t e ≠ some id) : t'.engages w' id = false := by
  cases h with
  | start hs =>
    cases hs with
    | passed hnone =>
      rw [startPasses, hnone] at hstart
      exact decide_eq_false fun hid => hstart (congrArg some hid)
    | _ => rfl
  | @message sid messageId pc ev w' pc' hs =>
    have carried : (pc'.engaged = true → pc.engaged = true) →
        (ServiceTask.message sid messageId pc').engages w' id = false := by
      intro hpc
      rw [ServiceTask.engages, Bool.and_eq_false_iff] at hfree ⊢
      rcases hfree with hfree | hfree
      · exact .inl (Bool.eq_false_iff.mpr fun h => by rw [hpc h] at hfree; cases hfree)
      · exact .inr (Bool.eq_false_iff.mpr fun h => by rw [hk.sessions sid h] at hfree; cases hfree)
    cases hs with
    | @known s hget =>
      have hmem : sid ∈ w.stored := by
        unfold ServiceWorld.get at hget
        split at hget
        · assumption
        · cases hget
      exact hstored sid hmem
    | _ => first | rfl | exact carried fun _ => rfl
  | ending | persona => rfl

end

/-! ## The invariant -/

/-- While a deletion is past its check the persona is clear, and what it has removed stays removed. -/
structure DeletionFinal (p : Pool ServiceWorld ServiceTask) : Prop where
  only : ∀ t ∈ p.tasks, conversational t = true
  clear : ∀ id, (∃ t ∈ p.tasks, t.deletes id = true) → PersonaClear id p
  holds : ∀ id pc, .persona id (.delete pc) ∈ p.tasks → pc.Holds (p.world.personas id)

section
variable {H : Host} {p q : Pool ServiceWorld ServiceTask} {id : Uuid} {w w' : ServiceWorld}
  {t t' : ServiceTask} {e : ServiceEvent} {i : Nat}

/-- A session of the persona that is held or stored was one before. -/
theorem PersonaKept.engages (hk : PersonaKept id w w') {u : ServiceTask} (hu : u.engages w id = false) :
    u.engages w' id = false := by
  unfold ServiceTask.engages at hu ⊢
  split at hu
  · exact hu
  · rw [Bool.and_eq_false_iff] at hu ⊢
    rcases hu with hu | hu
    · exact .inl hu
    · exact .inr (Bool.eq_false_iff.mpr fun h => by rw [hk.sessions _ h] at hu; cases hu)
  · rfl

theorem PersonaKept.clear (hk : PersonaKept id p.world w') (h : PersonaClear id p)
    {tasks : List ServiceTask} (ht : ∀ u ∈ tasks, u ∈ p.tasks ∨ u.engages w' id = false) :
    PersonaClear id ⟨w', tasks⟩ := by
  refine ⟨fun sid hsid => ?_, fun u hu => ?_, hk.writers h.writers⟩
  · refine Bool.eq_false_iff.mpr fun hof => ?_
    have hold := h.stored sid (hk.stored sid hsid hof)
    rw [hk.sessions sid hof] at hold
    cases hold
  · rcases ht u hu with hu | hu
    · exact hk.engages (h.engaged u hu)
    · exact hu

/-- A step of a request that lets nobody in keeps a clear persona clear. -/
theorem PersonaClear.run (h : PersonaClear id p) (hi : p.tasks[i]? = some t)
    (hs : RequestStep H p.world i t e (w', t')) (hconv : conversational t = true)
    (hstart : startPasses t e ≠ some id) :
    PersonaClear id ⟨w', p.tasks.set i t'⟩ ∧ PersonaKept id p.world w' := by
  have hfree := h.engaged t (List.mem_of_getElem? hi)
  have hk := hs.change.personaKept hconv hfree
  refine ⟨hk.clear h fun u hu => ?_, hk⟩
  rcases List.mem_or_eq_of_mem_set hu with hu | rfl
  · exact .inl hu
  · exact .inr (hs.engages hk hfree h.stored hstart)

/-- The requests on conversations stay such. -/
theorem RequestStep.conversational (h : RequestStep H w i t e (w', t'))
    (hconv : conversational t = true) : conversational t' = true := by
  cases h with
  | start | message | ending => rfl
  | @persona id u ev p' u' hs =>
    cases u with
    | delete pc =>
      obtain ⟨ev', pc', -, rfl, -⟩ := personaStep_delete hs
      rfl
    | _ => cases hconv

/-- A deletion after a step: it is past its check from the step that passes it, and has removed what it
says. -/
theorem RequestStep.deletion {pc' : DeletePc}
    (h : RequestStep H w i t e (w', .persona id (.delete pc'))) :
    ∃ pc, t = .persona id (.delete pc) ∧
      (pc'.pastCheck = true → pc.pastCheck = true ∨ deletionPasses w t e = some id) ∧
      (pc.Holds (w.personas id) → pc'.Holds (w'.personas id)) := by
  cases h with
  | @persona id u ev p' u' hs =>
    cases personaStep_inv hs with
    | delete hs =>
      refine ⟨_, rfl, fun hpast => ?_, fun hh => ?_⟩
      · rcases hs.pastCheck hpast with hpast | hpass
        · exact .inl hpast
        · exact .inr (by rw [deletionPasses, hpass]; rfl)
      · change DeletePc.Holds (Function.update w.personas id p' id) _
        rw [Function.update_self]
        exact hs.holds hh

theorem deletes_delete {pc : DeletePc} :
    (ServiceTask.persona id (.delete pc)).deletes id = pc.pastCheck := by
  simp [ServiceTask.deletes]

theorem deletes_eq_true {u : ServiceTask} (h : u.deletes id = true) :
    ∃ pc : DeletePc, u = .persona id (.delete pc) ∧ pc.pastCheck = true := by
  unfold ServiceTask.deletes at h
  split at h
  · obtain ⟨hid, hpast⟩ := Bool.and_eq_true_iff.mp h
    cases of_decide_eq_true hid
    exact ⟨_, rfl, hpast⟩
  · cases h

/-- What a deletion has removed stays removed in a change that keeps its persona. -/
theorem DeletionFinal.holds_of_kept (h : DeletionFinal p) {pc : DeletePc}
    (hmem : .persona id (.delete pc) ∈ p.tasks)
    (hk : (∃ u ∈ p.tasks, u.deletes id = true) → PersonaKept id p.world w') :
    pc.Holds (w'.personas id) := by
  cases hpast : pc.pastCheck with
  | false => exact DeletePc.holds_of_not_pastCheck hpast
  | true =>
    have hdeletes : ∃ u ∈ p.tasks, u.deletes id = true := ⟨_, hmem, by rw [deletes_delete, hpast]⟩
    exact (h.holds id pc hmem).of_shrinks (hk hdeletes).shrinks

/-- Where a row stays, no deletion is past its check: one that has answered has removed it. -/
theorem DeletionFinal.no_deletion (h : DeletionFinal p) (hrow : RowStays id p) :
    ∀ u ∈ p.tasks, u.deletes id = false := by
  intro u hu
  by_contra hdeletes
  obtain ⟨pc, rfl, hpast⟩ := deletes_eq_true (Bool.eq_true_of_not_eq_false hdeletes)
  have hdeleting := hrow.2 _ hu
  cases pc with
  | rmtree | deletingRows => exact absurd hdeleting (by simp [ServiceTask.deleting])
  | done response =>
    cases response with
    | ok =>
      have hgone : (p.world.personas id).Gone := h.holds id _ hu
      have hthere := hrow.1
      rw [hgone.2.1] at hthere
      cases hthere
    | error => cases hpast
  | _ => cases hpast

/-- A step of a request. -/
theorem DeletionFinal.run (h : DeletionFinal p) (hok : DeletionClear p (.run i e))
    (hi : p.tasks[i]? = some t) (hs : RequestStep H p.world i t e (w', t')) :
    DeletionFinal ⟨w', p.tasks.set i t'⟩ := by
  obtain ⟨hstart, hdelete⟩ := hok t hi
  have hmem := List.mem_of_getElem? hi
  have hconv := h.only t hmem
  have old : ∀ id, (∃ u ∈ p.tasks, u.deletes id = true) →
      PersonaClear id ⟨w', p.tasks.set i t'⟩ ∧ PersonaKept id p.world w' := by
    rintro id ⟨u, hu, hd⟩
    refine (h.clear id ⟨u, hu, hd⟩).run hi hs hconv fun hpass => ?_
    rw [h.no_deletion (hstart id hpass) u hu] at hd
    cases hd
  refine ⟨fun u hu => ?_, fun id => ?_, fun id pc hpc => ?_⟩
  · rcases List.mem_or_eq_of_mem_set hu with hu | rfl
    · exact h.only u hu
    · exact hs.conversational hconv
  · rintro ⟨u, hu, hd⟩
    rcases List.mem_or_eq_of_mem_set hu with hu | rfl
    · exact (old id ⟨u, hu, hd⟩).1
    · obtain ⟨pc', rfl, hpast⟩ := deletes_eq_true hd
      obtain ⟨pc, rfl, hpass, -⟩ := hs.deletion
      have hclear : PersonaClear id p := by
        rcases hpass hpast with hbefore | hnow
        · exact h.clear id ⟨_, hmem, by rw [deletes_delete, hbefore]⟩
        · exact hdelete id hnow
      exact (hclear.run hi hs hconv fun hpass => by cases hpass).1
  · rcases List.mem_or_eq_of_mem_set hpc with hpc | rfl
    · exact h.holds_of_kept hpc fun hd => (old id hd).2
    · obtain ⟨pc₀, rfl, -, hholds⟩ := hs.deletion
      exact hholds (h.holds id pc₀ hmem)

/-- A request that has just arrived engages no persona, and deletes none. -/
theorem arriving_disengaged (h : t.arriving = true) :
    (∀ w, t.engages w id = false) ∧ t.deletes id = false := by
  unfold ServiceTask.arriving at h
  split at h
  · exact ⟨fun _ => rfl, rfl⟩
  · exact ⟨fun _ => rfl, rfl⟩
  · exact ⟨fun _ => rfl, rfl⟩
  · rename_i u
    refine ⟨fun _ => rfl, ?_⟩
    unfold PersonaTask.arriving at h
    split at h
    · rfl
    · rfl
    · exact Bool.and_false _
    · cases h
  · cases h

/-- Every step that meets the condition keeps the invariant. -/
theorem DeletionFinal.next {e : Event ServiceTask ServiceEvent ServiceEnv} (h : DeletionFinal p)
    (hok : DeletionClear p e) (hs : (serviceCoop H conversational).next p e = some q) :
    DeletionFinal q := by
  refine service_next_cases (motive := DeletionFinal) hs ?_ ?_ ?_
  · intro t harr hconv
    refine ⟨fun u hu => ?_, fun id => ?_, fun id pc hpc => ?_⟩
    · rcases Pool.mem_append.mp hu with hu | rfl
      · exact h.only u hu
      · exact hconv
    · rintro ⟨u, hu, hd⟩
      rcases Pool.mem_append.mp hu with hu | rfl
      · have hclear := h.clear id ⟨u, hu, hd⟩
        refine ⟨hclear.stored, fun v hv => ?_, hclear.writers⟩
        rcases Pool.mem_append.mp hv with hv | rfl
        · exact hclear.engaged v hv
        · exact (arriving_disengaged harr).1 _
      · rw [(arriving_disengaged harr).2] at hd
        cases hd
    · rcases Pool.mem_append.mp hpc with hpc | rfl
      · exact h.holds id pc hpc
      · refine DeletePc.holds_of_not_pastCheck ?_
        exact deletes_delete.symm.trans (arriving_disengaged harr).2
  · rintro i ev t w t' rfl hi hstep
    obtain ⟨w₁, gpu, ditto, hreq, -, rfl⟩ := serviceStep_inv hstep
    have hfinal := h.run hok hi hreq
    exact ⟨hfinal.only, fun id hd => ⟨(hfinal.clear id hd).stored, (hfinal.clear id hd).engaged,
      (hfinal.clear id hd).writers⟩, hfinal.holds⟩
  · intro x w hx
    have kept : ∀ id, (∃ u ∈ p.tasks, u.deletes id = true) → PersonaKept id p.world w :=
      fun id hd => serviceEnv_personaKept hx (h.clear id hd).writers
    exact ⟨h.only, fun id hd => (kept id hd).clear (h.clear id hd) fun u hu => .inl hu,
      fun id pc hpc => h.holds_of_kept hpc (kept id)⟩

theorem DeletionFinal.initial
    (h : (serviceSystem H conversational ServiceWorld.Fresh).init p) : DeletionFinal p := by
  obtain ⟨-, htasks⟩ := h
  refine ⟨fun t ht => ?_, fun id => ?_, fun id pc hpc => ?_⟩
  · rw [htasks] at ht; cases ht
  · rintro ⟨u, hu, -⟩
    rw [htasks] at hu; cases hu
  · rw [htasks] at hpc; cases hpc

theorem ended_of_deleted {admits : ServiceTask → Bool} {response : Except HttpError Unit} :
    (serviceCoop H admits).Ended (.persona id (.delete (.done response))) := by
  refine ⟨fun w i e => ?_, fun _ => rfl⟩
  cases e with
  | persona ev =>
    cases ev with
    | delete ev => cases ev <;> rfl
    | _ => rfl
  | _ => rfl

end

/-! ## Main results -/

/-- In every interleaving of requests on conversations and deletions that meets the condition, once a
deletion of a persona has answered 200, the store holds no session of the persona, and there is
no file and no directory of it, from then on. -/
theorem final_of_deletionClear (H : Host) (p q : Pool ServiceWorld ServiceTask) (id : Uuid)
    (h : (serviceSystem H conversational ServiceWorld.Fresh).Reach DeletionClear p)
    (hdone : .persona id (.delete (.done (.ok ()))) ∈ p.tasks)
    (hrun : (serviceSystem H conversational ServiceWorld.Fresh).Steps DeletionClear p q) :
    (∀ sid s, q.world.get sid = some s → s.state.personaId ≠ id) ∧
      (q.world.personas id).files = none := by
  have hfinal : DeletionFinal q :=
    (h.steps hrun).inv (I := DeletionFinal) (fun _ => .initial) fun _ _ _ hI hok hs => hI.next hok hs
  have hmem := ended_of_deleted.steps hrun hdone
  have hclear := hfinal.clear id ⟨_, hmem, by rw [deletes_delete]; rfl⟩
  refine ⟨fun sid s hget => ?_, (hfinal.holds id _ hmem).1⟩
  unfold ServiceWorld.get at hget
  split at hget
  · rename_i hstored
    have hof := hclear.stored sid hstored
    rw [ServiceWorld.isOf, ServiceWorld.state, hget] at hof
    exact of_decide_eq_false hof
  · cases hget

/-- Request `i` deletes the persona. -/
def deletePersona (i : Nat) (id : Uuid) (steps : List DeleteEvent) :
    List (Event ServiceTask ServiceEvent ServiceEnv) :=
  .arrive (.persona id (.delete (.getting none))) ::
    steps.map fun ev => .run i (.persona (.delete ev))

/-- A deletion of the persona that has answered 200, as a test. -/
def ServiceTask.deleted (id : Uuid) : ServiceTask → Bool
  | .persona personaId (.delete (.done (.ok _))) => personaId = id
  | _ => false

theorem mem_of_service_deleted {p : Pool ServiceWorld ServiceTask} {id : Uuid}
    (h : ∃ t ∈ p.tasks, t.deleted id = true) : .persona id (.delete (.done (.ok ()))) ∈ p.tasks := by
  obtain ⟨t, ht, hd⟩ := h
  unfold ServiceTask.deleted at hd
  split at hd
  · cases of_decide_eq_true hd
    exact ht
  · cases hd

/-- The theorem at a run: a conversation, its end, the deletion, and a `/start` that comes after it. -/
theorem final_of_deletionClear_run : ∃ p q : Pool ServiceWorld ServiceTask,
    (serviceSystem sampleHost conversational ServiceWorld.Fresh).Reach DeletionClear p ∧
      .persona 1 (.delete (.done (.ok ()))) ∈ p.tasks ∧ q.tasks.length = 5 ∧
      (∀ sid s, q.world.get sid = some s → s.state.personaId ≠ 1) ∧
      (q.world.personas 1).files = none := by
  have h : ((serviceSystem sampleHost conversational ServiceWorld.Fresh).exec DeletionClear
      ⟨sampleService, []⟩ (startSession 0 1 20 ++ postMessage 1 20 30 ++
        sayMessage 1 (sayHello ++ failSpeech) ++ endSession 2 20 ++ removeSpeak 2 ++
        deletePersona 3 1 [.select, .resume, .apply, .resume, .apply, .resume])).any
      (fun p => (∃ t ∈ p.tasks, t.deleted 1 = true) ∧
        ((serviceSystem sampleHost conversational ServiceWorld.Fresh).exec DeletionClear p
          [.arrive (.start 1 3 (.getting none)), .run 4 (.start .select), .run 4 (.start .resume)]).any
          (fun q => q.tasks.length = 5)) = true := by
    decide +kernel
  obtain ⟨p, hsteps, hp⟩ := System.exists_of_exec h
  obtain ⟨hdeleted, hrest⟩ := of_decide_eq_true hp
  obtain ⟨q, hsteps', hq⟩ := System.exists_of_exec hrest
  have hdone := mem_of_service_deleted hdeleted
  have hreach : (serviceSystem sampleHost conversational ServiceWorld.Fresh).Reach DeletionClear p :=
    ⟨_, ⟨sampleService_fresh, rfl⟩, hsteps⟩
  exact ⟨p, q, hreach, hdone, of_decide_eq_true hq,
    final_of_deletionClear _ p q 1 hreach hdone hsteps'⟩

/-- A persona is deleted while a session of it is stored: both requests have ended, the session is still
stored, and a message of it makes the tree again. -/
theorem session_survives_delete : ∃ p q : Pool ServiceWorld ServiceTask,
    (serviceSystem sampleHost conversational ServiceWorld.Fresh).Reach anyStep p ∧
      .persona 1 (.delete (.done (.ok ()))) ∈ p.tasks ∧ p.tasks.length = 2 ∧
      (p.world.get 20).any (fun s => s.state.personaId = 1) = true ∧
      (p.world.personas 1).files.isSome = false ∧
      (serviceSystem sampleHost conversational ServiceWorld.Fresh).Steps anyStep p q ∧
      (q.world.personas 1).files.isSome = true := by
  have h : ((serviceSystem sampleHost conversational ServiceWorld.Fresh).exec anyStep
      ⟨sampleService, []⟩ (startSession 0 1 20 ++
        deletePersona 1 1 [.select, .resume, .apply, .resume, .apply, .resume])).any
      (fun p => ((∃ t ∈ p.tasks, t.deleted 1 = true) ∧ p.tasks.length = 2 ∧
        (p.world.get 20).any (fun s => s.state.personaId = 1) = true ∧
        (p.world.personas 1).files.isSome = false) ∧
        ((serviceSystem sampleHost conversational ServiceWorld.Fresh).exec anyStep p
          (postMessage 2 20 30 ++ sayMessage 2 sayHello)).any
          (fun q => (q.world.personas 1).files.isSome = true)) = true := by
    decide +kernel
  obtain ⟨p, hsteps, hp⟩ := System.exists_of_exec h
  obtain ⟨⟨hdeleted, hlength, hstored, hnone⟩, hrest⟩ := of_decide_eq_true hp
  obtain ⟨q, hsteps', hq⟩ := System.exists_of_exec hrest
  exact ⟨p, q, ⟨_, ⟨sampleService_fresh, rfl⟩, hsteps⟩, mem_of_service_deleted hdeleted, hlength,
    hstored, hnone, hsteps', of_decide_eq_true hq⟩

end YeounEngine
