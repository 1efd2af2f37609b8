import YeounEngine.Creation
import YeounEngine.SessionChanges

/-!
# The end of a session

`end_session` takes the session out of the store and removes its folder under the lock, so a message
that runs has ended by then. But `post_message` looks the session up before it waits for the lock, and
does not look again when it has it; and a message that was cancelled may have left the TTS or Ditto
writing to the folder.

`EndIsolated` is the condition that neither happens: a message begins only on a session that the store
still has when the message takes the lock, and an `/end` answers 200 only while nothing left over writes to
the folder. Under it the session is over for good, because what `end_session` pops never comes back
(`ServiceChange.popped`, `over_of_endIsolated`); without it a queued message brings it back
(`message_after_end`).
-/

namespace YeounEngine

open Transition

/-! ## The condition -/

/-- `process_message` of the session runs. -/
def ServiceTask.converses (sid : Uuid) : ServiceTask → Bool
  | .message s _ (.inside _) => s = sid
  | _ => false

/-- The request is an `/end` that has popped the session: it removes the folder, or has answered 200. -/
def ServiceTask.pops (sid : Uuid) : ServiceTask → Bool
  | .ending s .rmtree | .ending s (.done (.ok _)) => s = sid
  | _ => false

/-- The request is an `/end` of the session that has answered 200. -/
def ServiceTask.closed (sid : Uuid) : ServiceTask → Bool
  | .ending s (.done (.ok _)) => s = sid
  | _ => false

/-- Left-over work may write to the folder of the session. -/
def ServiceWorld.speakerLeft (w : ServiceWorld) (sid : Uuid) : Bool :=
  (w.state sid).any fun s => (w.personas s.personaId).orphans.any fun o => o.folder = some (.speak sid)

/-- The session of which a message begins in the step. -/
def begins : ServiceTask → ServiceEvent → Option Uuid
  | .message sid _ .locking, .message .granted => some sid
  | _, _ => none

/-- The session of which an `/end` answers 200 in the step. -/
def answers (w : ServiceWorld) : ServiceTask → ServiceEvent → Option Uuid
  | .ending sid .locking, .ending .granted =>
    if (w.get sid).any fun s => ((w.personas s.state.personaId).files.dir (.speak sid)).isNone
    then some sid else none
  | .ending sid .rmtree, .ending .resume => some sid
  | _, _ => none

/-- A message begins only on a session that is still stored, and an `/end` answers 200 only while nothing
left over may write to the folder. -/
def EndIsolated (p : Pool ServiceWorld ServiceTask) :
    Event ServiceTask ServiceEvent ServiceEnv → Prop
  | .run i e => ∀ t ∈ p.tasks[i]?,
    (∀ sid ∈ begins t e, (p.world.get sid).isSome = true) ∧
      ∀ sid ∈ answers p.world t e, p.world.speakerLeft sid = false
  | _ => True

instance (p : Pool ServiceWorld ServiceTask) :
    ∀ e : Event ServiceTask ServiceEvent ServiceEnv, Decidable (EndIsolated p e)
  | .run i e => inferInstanceAs (Decidable (∀ t ∈ p.tasks[i]?,
      (∀ sid ∈ begins t e, (p.world.get sid).isSome = true) ∧
        ∀ sid ∈ answers p.world t e, p.world.speakerLeft sid = false))
  | .arrive _ | .env _ => inferInstanceAs (Decidable True)

/-! ## What happens to the folder of a session -/

/-- A change to a persona after which the folder of the session holds nothing new, and nothing new may write
to it. -/
structure SpeakKept (sid : Uuid) (p p' : PersonaWorld) : Prop where
  folder : DirShrinks (p.files.dir (.speak sid)) (p'.files.dir (.speak sid))
  orphans : ∀ o ∈ p'.orphans, o.folder = some (.speak sid) → o ∈ p.orphans

section
variable {H : Host} {sid : Uuid} {p p' : PersonaWorld}

theorem SpeakKept.refl (sid : Uuid) (p : PersonaWorld) : SpeakKept sid p p :=
  ⟨.refl _, fun _ ho _ => ho⟩

theorem Removes.speakKept (h : Removes p p') : SpeakKept sid p p' := by
  refine ⟨h.dirs _, fun o ho hf => ?_⟩
  rcases h.orphans o ho with ho | ho
  · exact ho
  · rw [Orphan.folder, ho] at hf
    cases hf

/-- A message touches the folder of its own session only. -/
theorem MessageFrame.speakKept {w m : MessageWorld} (h : MessageFrame w m)
    (hne : w.session.sessionId ≠ sid) : SpeakKept sid w.persona m.persona := by
  have hdir : Folder.speak sid ≠ w.speakDir := fun heq => hne (Folder.speak.inj heq).symm
  refine ⟨.of_eq (h.files _ hdir), fun o ho hf => ?_⟩
  rcases h.orphans o ho with ho | ho
  · exact ho
  · rw [ho] at hf
    exact absurd (Option.some.inj hf).symm hdir

theorem DeleteStep.speakKept {pc : DeletePc} {ev : DeleteEvent} {out : PersonaWorld × DeletePc}
    (h : DeleteStep p pc ev out) : SpeakKept sid p out.1 := by
  cases h with
  | remove =>
    refine ⟨?_, fun _ ho _ => ho⟩
    rw [PersonaWorld.onFiles, Files.dir_keeping]
    exact dirShrinks_eraseAll
  | removeAll => exact ⟨.none _, fun _ ho _ => ho⟩
  | cancelRemoving => exact (removes_leave rfl).speakKept
  | deleteRows => exact ⟨.refl _, fun _ ho _ => ho⟩
  | _ => exact .refl sid p

theorem UploadKind.speak_ne_folder {kind : UploadKind} : Folder.speak sid ≠ kind.folder := by
  cases kind <;> simp [UploadKind.folder]

theorem UploadStep.speakKept {req : UploadRequest} {pc : UploadPc} {ev : UploadEvent}
    {out : PersonaWorld × UploadPc} (h : UploadStep H p req pc ev out) : SpeakKept sid p out.1 := by
  refine ⟨.of_eq (h.leaves UploadKind.speak_ne_folder), fun o ho hf => ?_⟩
  rcases h.keeps.2.2 o ho with ho | ⟨tmp, rfl⟩
  · exact ho
  · exact absurd (Option.some.inj hf).symm UploadKind.speak_ne_folder

theorem runStep_speakKept {r r' : Run} {ev : RunEvent} (h : runStep H p r ev = some (p', r')) :
    SpeakKept sid p p' := by
  refine ⟨.of_eq (runStep_leaves h (by simp) (by simp)), fun o ho hf => ?_⟩
  rcases runStep_leftover h ho with ho | ho | ho
  · exact ho
  · rw [ho] at hf; cases hf
  · rw [ho] at hf; cases hf

/-- No request on the persona touches the folder of a session, but for its removal. -/
theorem personaStep_speakKept {t t' : PersonaTask} {ev : PersonaEvent}
    (h : personaStep H p t ev = some (p', t')) : SpeakKept sid p p' := by
  cases personaStep_inv h with
  | upload hs => exact hs.speakKept
  | process hs =>
    cases hs with
    | run hr => exact runStep_speakKept hr
    | _ => exact .refl sid p
  | delete hs => exact hs.speakKept

/-- Left-over work that may not write to the folder does not touch it, but for its removal. -/
theorem OrphanStep.speakKept {k : Nat} {act : OrphanAct} (h : OrphanStep p k act p')
    (hno : ∀ o ∈ p.orphans, o.folder ≠ some (.speak sid)) : SpeakKept sid p p' := by
  refine ⟨?_, fun _ ho _ => h.orphans ho⟩
  cases h with
  | write hk hw =>
    have hne := hno _ hk
    rw [Orphan.folder, hw] at hne
    exact .of_eq (dir_write_of_ne fun hsub => hne (by rw [← hsub]; rfl))
  | remove =>
    rw [PersonaWorld.onFiles, Files.dir_keeping]
    exact dirShrinks_eraseAll
  | written => exact .refl _
  | @removed o =>
    change DirShrinks _ ((o.removed p.files).dir _)
    unfold Orphan.removed
    split
    · exact .none _
    · exact removes_rmdir.dirs _
    · exact .refl _

end

/-! ## What happens to a session -/

/-- The messages that the session remembers. -/
def ServiceWorld.history (w : ServiceWorld) (sid : Uuid) : Option (List MessageRecord) :=
  (w.state sid).map SessionState.history

/-- The folder of the session. -/
def ServiceWorld.speakFolder (w : ServiceWorld) (sid : Uuid) : Option Dir :=
  (w.state sid).bind fun s => (w.personas s.personaId).files.dir (.speak sid)

/-- Nothing is added to the session. -/
structure SessionKept (sid : Uuid) (w w' : ServiceWorld) : Prop where
  state : w'.state sid = w.state sid
  folder : DirShrinks (w.speakFolder sid) (w'.speakFolder sid)
  speakers : w.speakerLeft sid = false → w'.speakerLeft sid = false

/-- The session was created, and has been taken out of the store. -/
structure ServiceWorld.Popped (w : ServiceWorld) (sid : Uuid) : Prop where
  isSome : (w.state sid).isSome = true
  out : sid ∉ w.stored

/-- A session knows its key. -/
def ServiceWorld.Keyed (w : ServiceWorld) : Prop := ∀ sid s, w.state sid = some s → s.sessionId = sid

section
variable {H : Host} {sid : Uuid} {w w' w'' : ServiceWorld} {t t' : ServiceTask} {e : ServiceEvent} {i : Nat}

theorem SessionKept.refl (sid : Uuid) (w : ServiceWorld) : SessionKept sid w w := ⟨rfl, .refl _, id⟩

theorem SessionKept.trans (h : SessionKept sid w w') (h' : SessionKept sid w' w'') :
    SessionKept sid w w'' :=
  ⟨h'.state.trans h.state, h.folder.trans h'.folder, h'.speakers ∘ h.speakers⟩

/-- It is enough to look at the data of the session and at its persona. -/
theorem SessionKept.of_persona {s : SessionState} (hs : w.state sid = some s)
    (hstate : w'.state sid = w.state sid)
    (hp : SpeakKept sid (w.personas s.personaId) (w'.personas s.personaId)) : SessionKept sid w w' := by
  refine ⟨hstate, ?_, fun hno => ?_⟩
  · rw [ServiceWorld.speakFolder, ServiceWorld.speakFolder, hstate, hs]
    exact hp.folder
  · rw [ServiceWorld.speakerLeft, hs, Option.any_some, List.any_eq_false] at hno
    rw [ServiceWorld.speakerLeft, hstate, hs, Option.any_some, List.any_eq_false]
    intro o ho hf
    exact hno o (hp.orphans o ho (of_decide_eq_true hf)) hf

/-- A change to one persona, seen from the persona of the session. -/
theorem speakKept_update {id pid : Uuid} {p' : PersonaWorld} {f : Uuid → PersonaWorld}
    (h : SpeakKept sid (f id) p') : SpeakKept sid (f pid) (Function.update f id p' pid) := by
  by_cases hid : pid = id
  · subst hid
    rw [Function.update_self]
    exact h
  · rw [Function.update_of_ne hid]
    exact .refl sid _

/-- A request in which no message of the session runs adds nothing to it. -/
theorem ServiceChange.sessionKept (h : ServiceChange H w t e w') (hkey : w.Keyed)
    (hsome : (w.state sid).isSome = true) (hquiet : t.converses sid = false) :
    SessionKept sid w w' := by
  obtain ⟨s, hs⟩ := Option.isSome_iff_exists.mp hsome
  cases h with
  | same personas state =>
    exact .of_persona hs (congrFun state sid) (by rw [personas]; exact .refl sid _)
  | @created personaId userId new _ _ hnew =>
    have hne : sid ≠ new := by
      rintro rfl
      rw [ServiceWorld.state, hnew] at hs
      cases hs
    exact .of_persona hs (by rw [state_create, Function.update_of_ne hne]) (.refl sid _)
  | @spoke sid' _ _ _ _ s' m _ hs' frame personas state =>
    have hne : sid' ≠ sid := of_decide_eq_false hquiet
    refine .of_persona hs (by rw [state, Function.update_of_ne (Ne.symm hne)]) ?_
    rw [personas]
    refine speakKept_update (frame.speakKept ?_)
    rw [hkey sid' s' hs']
    exact hne
  | removed hs' removes personas state =>
    refine .of_persona hs (congrFun state sid) ?_
    rw [personas]
    exact speakKept_update removes.speakKept
  | persona hp => exact .of_persona hs rfl (speakKept_update (personaStep_speakKept hp))

/-- A sweep, or left-over work, adds nothing to the session when nothing left over may write to it. -/
theorem serviceEnv_sessionKept {x : ServiceEnv} (h : serviceEnv w x = some w')
    (hsome : (w.state sid).isSome = true) (hno : w.speakerLeft sid = false) :
    SessionKept sid w w' := by
  obtain ⟨s, hs⟩ := Option.isSome_iff_exists.mp hsome
  cases x with
  | sweep now => cases h; exact ⟨rfl, .refl _, id⟩
  | orphan id k act =>
    obtain ⟨p', hp, rfl⟩ := Option.map_eq_some_iff.mp h
    refine .of_persona hs rfl ?_
    by_cases hid : s.personaId = id
    · rw [ServiceWorld.speakerLeft, hs, Option.any_some, List.any_eq_false] at hno
      subst hid
      refine speakKept_update ((orphanStep_inv hp).speakKept fun o ho hf => ?_)
      exact hno o ho (decide_eq_true hf)
    · change SpeakKept sid _ (Function.update w.personas id p' s.personaId)
      rw [Function.update_of_ne hid]
      exact .refl sid _

/-- A popped session is not found. -/
theorem ServiceWorld.Popped.get_eq (h : w.Popped sid) : w.get sid = none := if_neg h.out

theorem state_of_get {s : Session} (h : w.get sid = some s) : w.state sid = some s.state := by
  unfold ServiceWorld.get at h
  split at h
  · exact state_of_sessions h
  · cases h

/-- `end_session` pops the session. -/
theorem popped_pop {s : Session} (h : w.get sid = some s) : (w.pop sid).Popped sid := by
  refine ⟨?_, fun hmem => absurd rfl (of_decide_eq_true (List.mem_filter.mp hmem).2)⟩
  change (w.state sid).isSome = true
  rw [state_of_get h]
  rfl

/-- What has been popped is never stored again: the id of a new session is new. -/
theorem ServiceChange.popped (h : ServiceChange H w t e w') (hp : w.Popped sid) : w'.Popped sid := by
  obtain ⟨hsome, hout⟩ := hp
  cases h with
  | same _ state stored => exact ⟨by rw [state]; exact hsome, fun hmem => hout (stored hmem)⟩
  | @created personaId userId new _ _ hnew =>
    have hne : sid ≠ new := by
      rintro rfl
      rw [ServiceWorld.state, hnew] at hsome
      cases hsome
    refine ⟨by rw [state_create, Function.update_of_ne hne]; exact hsome, fun hmem => ?_⟩
    rcases List.mem_append.mp hmem with hmem | hmem
    · exact hout hmem
    · exact hne (List.mem_singleton.mp hmem)
  | @spoke sid' _ _ _ _ s' m _ hs' frame _ state stored =>
    refine ⟨?_, by rw [stored]; exact hout⟩
    rw [state]
    by_cases hne : sid = sid'
    · rw [hne, Function.update_self]
      rfl
    · rw [Function.update_of_ne hne]
      exact hsome
  | removed _ _ _ state stored => exact ⟨by rw [state]; exact hsome, by rw [stored]; exact hout⟩
  | persona => exact ⟨hsome, hout⟩

theorem serviceEnv_popped {x : ServiceEnv} (h : serviceEnv w x = some w') (hp : w.Popped sid) : w'.Popped sid := by
  cases x with
  | sweep now =>
    cases h
    exact ⟨hp.isSome, fun hmem => hp.out (List.mem_filter.mp hmem).1⟩
  | orphan id k act =>
    obtain ⟨p', -, rfl⟩ := Option.map_eq_some_iff.mp h
    exact ⟨hp.isSome, hp.out⟩

/-- A session keeps its key. -/
theorem ServiceChange.keyed (h : ServiceChange H w t e w') (hkey : w.Keyed) : w'.Keyed := by
  intro sid s hs
  cases h with
  | same _ state => exact hkey sid s (state ▸ hs)
  | @created _ _ new =>
    rw [state_create] at hs
    by_cases hne : sid = new
    · subst hne
      rw [Function.update_self] at hs
      cases hs
      rfl
    · rw [Function.update_of_ne hne] at hs
      exact hkey sid s hs
  | @spoke sid' _ _ _ _ s' m _ hs' frame _ state =>
    rw [state] at hs
    by_cases hne : sid = sid'
    · subst hne
      rw [Function.update_self] at hs
      cases hs
      exact frame.sessionId.trans (hkey sid s' hs')
    · rw [Function.update_of_ne hne] at hs
      exact hkey sid s hs
  | removed _ _ _ state => exact hkey sid s (state ▸ hs)
  | persona => exact hkey sid s hs

theorem serviceEnv_keyed {x : ServiceEnv} (h : serviceEnv w x = some w') (hkey : w.Keyed) : w'.Keyed := by
  cases x with
  | sweep now => cases h; exact hkey
  | orphan id k act =>
    obtain ⟨p', -, rfl⟩ := Option.map_eq_some_iff.mp h
    exact hkey

end

/-! ## The invariant -/

/-- Nothing goes on in the session: no message of it runs, and nothing may write to its folder. -/
structure SessionOver (sid : Uuid) (p : Pool ServiceWorld ServiceTask) : Prop where
  isSome : (p.world.state sid).isSome = true
  quiet : ∀ t ∈ p.tasks, t.converses sid = false
  unspoken : p.world.speakerLeft sid = false

/-- Whoever is inside a lock has it, what an `/end` has popped is out of the store, and nothing goes on in a
session of which an `/end` has answered 200. -/
structure EndFinal (p : Pool ServiceWorld ServiceTask) : Prop where
  keyed : p.world.Keyed
  locked : p.All fun w i t => ∀ sid, t.inside sid = true → w.turn sid i = true
  popped : p.All fun w _ t => ∀ sid, t.pops sid = true → w.Popped sid
  final : ∀ sid, (∃ u ∈ p.tasks, u.closed sid = true) → SessionOver sid p

section
variable {H : Host} {admits : ServiceTask → Bool} {p q : Pool ServiceWorld ServiceTask} {sid : Uuid}
  {w w' : ServiceWorld} {t t' : ServiceTask} {e : ServiceEvent} {i : Nat}

theorem inside_of_converses (h : t.converses sid = true) : t.inside sid = true := by
  unfold ServiceTask.converses at h
  split at h
  · exact h
  · cases h

/-- A message of the session runs from the step in which it begins. -/
theorem RequestStep.converses (h : RequestStep H w i t e (w', t'))
    (ht' : t'.converses sid = true) : t.converses sid = true ∨ begins t e = some sid := by
  cases h with
  | start | ending | persona => cases ht'
  | message hs =>
    cases hs with
    | granted =>
      cases of_decide_eq_true ht'
      exact .inr rfl
    | message => exact .inl ht'
    | _ => cases ht'

theorem pops_of_closed (h : t.closed sid = true) : t.pops sid = true := by
  unfold ServiceTask.closed at h
  split at h
  · exact h
  · cases h

/-- An `/end` goes on only with a session that it has popped. -/
theorem RequestStep.popped (h : RequestStep H w i t e (w', t')) (ht : t.pops sid = true → w.Popped sid)
    (ht' : t'.pops sid = true) : w'.Popped sid := by
  have hchange := h.change
  cases h with
  | start | message | persona => cases ht'
  | ending hs =>
    cases hs with
    | popped _ hget =>
      cases of_decide_eq_true ht'
      exact popped_pop hget
    | poppedEmpty _ hget =>
      cases of_decide_eq_true ht'
      exact ⟨by rw [state_leaveLock]; exact (popped_pop hget).isSome, (popped_pop hget).out⟩
    | remove | apply | removed => exact hchange.popped (ht ht')
    | _ => cases ht'

/-- An `/end` answers 200 with the lock, on a session that exists. -/
theorem RequestStep.closed (h : RequestStep H w i t e (w', t')) (ht' : t'.closed sid = true)
    (hin : t.inside sid = true → w.turn sid i = true) :
    answers w t e = some sid ∧ w.turn sid i = true ∧ (w.state sid).isSome = true := by
  cases h with
  | start | message | persona => cases ht'
  | ending hs =>
    cases hs with
    | poppedEmpty hturn hget hdir =>
      cases of_decide_eq_true ht'
      refine ⟨?_, hturn, by rw [state_of_get hget]; rfl⟩
      rw [answers, hget, Option.any_some, Option.isSome_eq_false_iff.mp hdir]
      rfl
    | removed hsome =>
      cases of_decide_eq_true ht'
      exact ⟨rfl, hin (decide_eq_true rfl), by rw [state_of_sessions hsome]; rfl⟩
    | _ => cases ht'

theorem ended_of_answered {response : Except HttpError Nat} :
    (serviceCoop H admits).Ended (.ending sid (.done response)) := by
  refine ⟨fun w i e => ?_, fun _ => rfl⟩
  cases e with
  | ending ev => cases ev <;> rfl
  | _ => rfl

/-- While a request has the lock of a session, only its own message may run. -/
theorem EndFinal.quiet_of_turn (h : EndFinal p) {j : Nat} (hturn : p.world.turn sid j = true) {u : ServiceTask}
    {k : Nat} (hk : p.tasks[k]? = some u) (hne : k ≠ j) : u.converses sid = false := by
  cases hc : u.converses sid with
  | false => rfl
  | true =>
    have hturn' := h.locked k u hk sid (inside_of_converses hc)
    exact absurd (turn_unique hturn' hturn) hne

/-- The request that answers is no message. -/
theorem converses_of_answers (h : answers w t e = some sid) :
    t.converses sid = false ∧ begins t e = none := by
  unfold answers at h
  split at h
  · exact ⟨rfl, rfl⟩
  · exact ⟨rfl, rfl⟩
  · cases h

/-- A session that is over stays over in a step of a request that begins no message of it. -/
theorem SessionOver.run (h : SessionOver sid p) (hkey : p.world.Keyed) (hi : p.tasks[i]? = some t)
    (hs : serviceStep H p.world i t e = some (w', t')) (hbegin : begins t e ≠ some sid) :
    SessionOver sid ⟨w', p.tasks.set i t'⟩ ∧ SessionKept sid p.world w' := by
  obtain ⟨w₁, gpu, ditto, hreq, -, rfl⟩ := serviceStep_inv hs
  have hquiet := h.quiet t (List.mem_of_getElem? hi)
  have hkept : SessionKept sid p.world w₁ := hreq.change.sessionKept hkey h.isSome hquiet
  have hquiet' : t'.converses sid = false := by
    cases hc : t'.converses sid with
    | false => rfl
    | true =>
      rcases hreq.converses hc with hbefore | hb
      · rw [hquiet] at hbefore; cases hbefore
      · exact absurd hb hbegin
  refine ⟨⟨?_, fun u hu => ?_, hkept.speakers h.unspoken⟩, hkept.state, hkept.folder, hkept.speakers⟩
  · have hsome := h.isSome
    rw [← hkept.state] at hsome
    exact hsome
  · rcases List.mem_or_eq_of_mem_set hu with hu | rfl
    · exact h.quiet u hu
    · exact hquiet'

theorem EndFinal.popped_of_closed (h : EndFinal p) (hc : ∃ u ∈ p.tasks, u.closed sid = true) :
    p.world.Popped sid := by
  obtain ⟨u, hu, hc⟩ := hc
  obtain ⟨k, hk⟩ := List.mem_iff_getElem?.mp hu
  exact h.popped k u hk sid (pops_of_closed hc)

/-- Every step of a request that meets the condition keeps the invariant, and adds nothing to a session of
which an `/end` has answered 200. -/
theorem EndFinal.run (h : EndFinal p) (hok : EndIsolated p (.run i e)) (hi : p.tasks[i]? = some t)
    (hs : serviceStep H p.world i t e = some (w', t')) :
    EndFinal ⟨w', p.tasks.set i t'⟩ ∧
      ∀ sid, (∃ u ∈ p.tasks, u.closed sid = true) → SessionKept sid p.world w' := by
  obtain ⟨w₁, gpu, ditto, hreq, -, hw'⟩ := serviceStep_inv hs
  obtain ⟨hbegin, hanswer⟩ := hok t hi
  have hlocked := h.locked i t hi
  have old : ∀ sid, (∃ u ∈ p.tasks, u.closed sid = true) →
      SessionOver sid ⟨w', p.tasks.set i t'⟩ ∧ SessionKept sid p.world w' := by
    intro sid hc
    refine (h.final sid hc).run h.keyed hi hs fun hb => ?_
    -- a message that begins finds its session in the store
    have hstored := hbegin sid hb
    rw [(h.popped_of_closed hc).get_eq] at hstored
    cases hstored
  refine ⟨⟨?_, Pool.All.set hi ?_ ?_, Pool.All.set hi ?_ ?_, ?_⟩, fun sid hc => (old sid hc).2⟩
  · subst hw'
    exact hreq.change.keyed h.keyed
  · subst hw'
    intro sid hin
    have hturn : w₁.turn sid i = true := hreq.inside (hlocked sid) hin
    exact hturn
  · subst hw'
    intro j u hj hu sid hin
    have hturn : w₁.turn sid j = true := hreq.turn hj (h.locked j u hu sid hin)
    exact hturn
  · subst hw'
    intro sid hpops
    obtain ⟨hsome, hout⟩ : w₁.Popped sid := hreq.popped (h.popped i t hi sid) hpops
    exact ⟨hsome, hout⟩
  · subst hw'
    intro j u hj hu sid hpops
    obtain ⟨hsome, hout⟩ : w₁.Popped sid := hreq.change.popped (h.popped j u hu sid hpops)
    exact ⟨hsome, hout⟩
  · rintro sid ⟨u, hu, hc⟩
    rcases List.mem_or_eq_of_mem_set hu with hu | rfl
    · exact (old sid ⟨u, hu, hc⟩).1
    · -- the `/end` answers now: it has the lock, so no message of the session runs
      obtain ⟨hans, hturn, hsome⟩ := hreq.closed hc (hlocked sid)
      obtain ⟨hquiet, hnone⟩ := converses_of_answers hans
      have hover : SessionOver sid p := by
        refine ⟨hsome, fun v hv => ?_, hanswer sid hans⟩
        obtain ⟨k, hk⟩ := List.mem_iff_getElem?.mp hv
        by_cases hki : k = i
        · subst hki
          rw [hi] at hk
          cases hk
          exact hquiet
        · exact h.quiet_of_turn hturn hk hki
      exact (hover.run h.keyed hi hs (by rw [hnone]; simp)).1

/-- A task that has just arrived is outside every lock. -/
theorem arriving_outside (h : t.arriving = true) :
    t.inside sid = false ∧ t.pops sid = false ∧ t.converses sid = false := by
  unfold ServiceTask.arriving at h
  split at h <;> first | exact ⟨rfl, rfl, rfl⟩ | cases h

/-- Every step that meets the condition keeps the invariant, and adds nothing to a session of which an
`/end` has answered 200. -/
theorem EndFinal.next {e : Event ServiceTask ServiceEvent ServiceEnv} (h : EndFinal p)
    (hok : EndIsolated p e) (hs : (serviceCoop H admits).next p e = some q) :
    EndFinal q ∧ ∀ sid, (∃ u ∈ p.tasks, u.closed sid = true) → SessionKept sid p.world q.world := by
  refine service_next_cases (motive := fun q => EndFinal q ∧ ∀ sid, (∃ u ∈ p.tasks, u.closed sid = true) →
    SessionKept sid p.world q.world) hs ?_ ?_ ?_
  · intro t harr _
    have hout : ∀ sid, t.inside sid = false ∧ t.pops sid = false ∧ t.converses sid = false :=
      fun sid => arriving_outside harr
    refine ⟨⟨h.keyed, h.locked.append fun sid hin => ?_, h.popped.append fun sid hpops => ?_, fun sid => ?_⟩,
      fun sid _ => .refl sid _⟩
    · rw [(hout sid).1] at hin
      cases hin
    · rw [(hout sid).2.1] at hpops
      cases hpops
    · rintro ⟨u, hu, hc⟩
      have hold : u ∈ p.tasks := by
        rcases Pool.mem_append.mp hu with hu | rfl
        · exact hu
        · have hpops := pops_of_closed hc
          rw [(hout sid).2.1] at hpops
          cases hpops
      have hover := h.final sid ⟨u, hold, hc⟩
      refine ⟨hover.isSome, fun v hv => ?_, hover.unspoken⟩
      rcases Pool.mem_append.mp hv with hv | rfl
      · exact hover.quiet v hv
      · exact (hout sid).2.2
  · rintro i ev t w t' rfl hi hstep
    exact h.run hok hi hstep
  · intro x w hx
    have kept : ∀ sid, (∃ u ∈ p.tasks, u.closed sid = true) → SessionKept sid p.world w :=
      fun sid hc => serviceEnv_sessionKept hx (h.final sid hc).isSome (h.final sid hc).unspoken
    refine ⟨⟨serviceEnv_keyed hx h.keyed, fun i t hi sid hin => ?_, fun i t hi sid hpops =>
      serviceEnv_popped hx (h.popped i t hi sid hpops), fun sid hc => ?_⟩, kept⟩
    · have hturn := h.locked i t hi sid hin
      cases x with
      | sweep now => cases hx; exact hturn
      | orphan id k act =>
        obtain ⟨p', -, rfl⟩ := Option.map_eq_some_iff.mp hx
        exact hturn
    · refine ⟨?_, (h.final sid hc).quiet, (kept sid hc).speakers (h.final sid hc).unspoken⟩
      have hsome := (h.final sid hc).isSome
      rw [← (kept sid hc).state] at hsome
      exact hsome

theorem EndFinal.initial (h : (serviceSystem H admits ServiceWorld.Fresh).init p) : EndFinal p := by
  obtain ⟨hw, htasks⟩ := h
  refine ⟨fun sid s hs => ?_, .nil htasks, .nil htasks, fun sid => ?_⟩
  · rw [ServiceWorld.state, hw.sessions sid] at hs
    cases hs
  · rintro ⟨u, hu, -⟩
    rw [htasks] at hu
    cases hu

end

/-! ## Main results -/

/-- In every interleaving of requests that meets the condition, once an `/end` of a session has answered
200, the session is not found again, no message of it starts or goes on, its history stays as it is, and nothing
is created in its folder. -/
theorem over_of_endIsolated (H : Host) (admits : ServiceTask → Bool) (p q : Pool ServiceWorld ServiceTask)
    (sid : Uuid) (n : Nat) (h : (serviceSystem H admits ServiceWorld.Fresh).Reach EndIsolated p)
    (hend : .ending sid (.done (.ok n)) ∈ p.tasks)
    (hrun : (serviceSystem H admits ServiceWorld.Fresh).Steps EndIsolated p q) :
    q.world.get sid = none ∧ (∀ messageId pc, .message sid messageId (.inside pc) ∉ q.tasks) ∧
      q.world.history sid = p.world.history sid ∧
      DirShrinks (p.world.speakFolder sid) (q.world.speakFolder sid) := by
  have closed : ∀ p : Pool ServiceWorld ServiceTask, .ending sid (.done (.ok n)) ∈ p.tasks →
      ∃ u ∈ p.tasks, u.closed sid = true := fun _ hmem => ⟨_, hmem, decide_eq_true rfl⟩
  have hfinal : EndFinal p :=
    h.inv (I := EndFinal) (fun _ => .initial) fun _ _ _ hI hok hs => (hI.next hok hs).1
  have hkeep : ∀ p e q, (EndFinal p ∧ .ending sid (.done (.ok n)) ∈ p.tasks) → EndIsolated p e →
      (serviceCoop H admits).next p e = some q → EndFinal q ∧ .ending sid (.done (.ok n)) ∈ q.tasks :=
    fun p e q hI hok hs => ⟨(hI.1.next hok hs).1, ended_of_answered.next hs hI.2⟩
  have hkept : SessionKept sid p.world q.world :=
    hrun.rel (R := fun p q => SessionKept sid p.world q.world) (fun p => .refl sid p.world)
      (fun _ _ _ => SessionKept.trans) hkeep
      (fun p e q hI hok hs => (hI.1.next hok hs).2 sid (closed p hI.2)) ⟨hfinal, hend⟩
  obtain ⟨hq, hend'⟩ := hrun.inv hkeep ⟨hfinal, hend⟩
  have hover := hq.final sid (closed q hend')
  refine ⟨(hq.popped_of_closed (closed q hend')).get_eq, fun messageId pc hmem => ?_, ?_, hkept.folder⟩
  · have hquiet := hover.quiet _ hmem
    rw [ServiceTask.converses, decide_eq_false_iff_not] at hquiet
    exact hquiet rfl
  · rw [ServiceWorld.history, ServiceWorld.history, hkept.state]

/-- A message up to the TTS, and from there to its end. -/
def sayHello : List MessageEvent :=
  [.pull cleanTextDone, .transcribed "안녕", .token "그래", .pull cleanTextDone, .streamEnd,
    .pull cleanTextDone]

def failSpeech : List MessageEvent :=
  [.acquire, .fail ⟨"RuntimeError", "CUDA out of memory"⟩ (fun _ => .removed), .pull cleanTextDone]

/-- Request `i` ends the session, up to the lock and in it; then it removes the folder. -/
def endSession (i : Nat) (sid : Uuid) : List (Event ServiceTask ServiceEvent ServiceEnv) :=
  [.arrive (.ending sid .arrived), .run i (.ending .enter), .run i (.ending .granted)]

def removeSpeak (i : Nat) : List (Event ServiceTask ServiceEvent ServiceEnv) :=
  [.run i (.ending .apply), .run i (.ending .resume)]

theorem mem_of_closed {p : Pool ServiceWorld ServiceTask} {sid : Uuid}
    (h : ∃ t ∈ p.tasks, t.closed sid = true) : ∃ n, .ending sid (.done (.ok n)) ∈ p.tasks := by
  obtain ⟨t, ht, hc⟩ := h
  unfold ServiceTask.closed at hc
  split at hc
  · cases of_decide_eq_true hc
    exact ⟨_, ht⟩
  · cases hc

/-- The theorem at a run: a message, the end of its session, and a message that comes after it. -/
theorem over_of_endIsolated_run : ∃ p q : Pool ServiceWorld ServiceTask, ∃ n,
    (serviceSystem sampleHost (fun _ => true) ServiceWorld.Fresh).Reach EndIsolated p ∧
      .ending 20 (.done (.ok n)) ∈ p.tasks ∧ q.tasks.length = 4 ∧ q.world.get 20 = none ∧
      (∀ messageId pc, .message 20 messageId (.inside pc) ∉ q.tasks) ∧
      q.world.history 20 = p.world.history 20 ∧
      DirShrinks (p.world.speakFolder 20) (q.world.speakFolder 20) := by
  have h : ((serviceSystem sampleHost (fun _ => true) ServiceWorld.Fresh).exec EndIsolated
      ⟨sampleService, []⟩ (startSession 0 1 20 ++ postMessage 1 20 30 ++
        sayMessage 1 (sayHello ++ failSpeech) ++ endSession 2 20 ++ removeSpeak 2)).any
      (fun p => (∃ t ∈ p.tasks, t.closed 20 = true) ∧
        ((serviceSystem sampleHost (fun _ => true) ServiceWorld.Fresh).exec EndIsolated p
          [.arrive (.message 20 31 .arrived), .run 3 (.message .enter)]).any
          (fun q => q.tasks.length = 4)) = true := by
    decide +kernel
  obtain ⟨p, hsteps, hp⟩ := System.exists_of_exec h
  obtain ⟨hclosed, hrest⟩ := of_decide_eq_true hp
  obtain ⟨q, hsteps', hq⟩ := System.exists_of_exec hrest
  obtain ⟨n, hend⟩ := mem_of_closed hclosed
  have hreach : (serviceSystem sampleHost (fun _ => true) ServiceWorld.Fresh).Reach EndIsolated p :=
    ⟨_, ⟨sampleService_fresh, rfl⟩, hsteps⟩
  exact ⟨p, q, n, hreach, hend, of_decide_eq_true hq,
    over_of_endIsolated _ _ p q 20 n hreach hend hsteps'⟩

/-- A message that was let in before the end waits for the lock after it, and goes on: the history of the
ended session grows, and its folder is back. -/
theorem message_after_end : ∃ p q : Pool ServiceWorld ServiceTask, ∃ n,
    (serviceSystem sampleHost (fun _ => true) ServiceWorld.Fresh).Reach anyStep p ∧
      .ending 20 (.done (.ok n)) ∈ p.tasks ∧
      (serviceSystem sampleHost (fun _ => true) ServiceWorld.Fresh).Steps anyStep p q ∧
      (∃ t ∈ q.tasks, t.converses 20 = true) ∧ p.world.history 20 = some [] ∧
      q.world.history 20 ≠ some [] ∧ (p.world.speakFolder 20).isSome = false ∧
      (q.world.speakFolder 20).isSome = true := by
  have h : ((serviceSystem sampleHost (fun _ => true) ServiceWorld.Fresh).exec anyStep
      ⟨sampleService, []⟩ (startSession 0 1 20 ++ [.arrive (.message 20 30 .arrived),
        .run 1 (.message .enter), .run 1 (.message (.reserve none true))] ++ endSession 2 20)).any
      (fun p => ((∃ t ∈ p.tasks, t.closed 20 = true) ∧ p.world.history 20 = some [] ∧
        (p.world.speakFolder 20).isSome = false) ∧
        ((serviceSystem sampleHost (fun _ => true) ServiceWorld.Fresh).exec anyStep p
          ([.run 1 (.message (.read none)), .run 1 (.message .resume), .run 1 (.message .pull)] ++
            sayMessage 1 sayHello)).any
          (fun q => (∃ t ∈ q.tasks, t.converses 20 = true) ∧ q.world.history 20 ≠ some [] ∧
            (q.world.speakFolder 20).isSome = true)) = true := by
    decide +kernel
  obtain ⟨p, hsteps, hp⟩ := System.exists_of_exec h
  obtain ⟨⟨hclosed, hempty, hnone⟩, hrest⟩ := of_decide_eq_true hp
  obtain ⟨q, hsteps', hq⟩ := System.exists_of_exec hrest
  obtain ⟨hruns, hgrown, hback⟩ := of_decide_eq_true hq
  obtain ⟨n, hend⟩ := mem_of_closed hclosed
  exact ⟨p, q, n, ⟨_, ⟨sampleService_fresh, rfl⟩, hsteps⟩, hend, hsteps', hruns, hempty, hgrown, hnone,
    hback⟩

end YeounEngine
