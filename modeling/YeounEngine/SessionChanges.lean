import YeounEngine.Deletion
import YeounEngine.Sessions

/-!
# What a request changes

One step of a request, as the other requests see it. `RequestStep.change` says what becomes of the
personas, of the sessions and of the store: most steps change none of them, `/start` creates a session,
a message changes its own session and the folder of it, an `/end` only removes, and a persona request
changes its persona. `RequestStep.turn` says that no step takes the lock of a session from another
request, and `RequestStep.inside` that whoever is inside the lock has it.
-/

namespace YeounEngine

/-! ## Sessions without their locks -/

/-- The data of a session. -/
def ServiceWorld.state (w : ServiceWorld) (sid : Uuid) : Option SessionState :=
  (w.sessions sid).map Session.state

/-- A change to a persona that only removes, or leaves a removal running. -/
structure Removes (p p' : PersonaWorld) : Prop where
  shrinks : Shrinks p p'
  dirs : ∀ f, DirShrinks (p.files.dir f) (p'.files.dir f)
  orphans : ∀ o ∈ p'.orphans, o ∈ p.orphans ∨ o.writes = none

section
variable {w : ServiceWorld} {sid : Uuid} {p : PersonaWorld}

theorem state_of_sessions {s : Session} (h : w.sessions sid = some s) : w.state sid = some s.state := by
  rw [ServiceWorld.state, h]
  rfl

theorem state_onSession {g : Session → Session} (hg : ∀ s, (g s).state = s.state) :
    (w.onSession sid g).state = w.state := by
  funext x
  change Option.map Session.state (Function.update w.sessions sid _ x) = _
  by_cases hx : x = sid
  · subst hx
    rw [Function.update_self, Option.map_map]
    exact congrFun (congrArg Option.map (funext hg)) _
  · rw [Function.update_of_ne hx]
    rfl

@[simp] theorem state_enterLock {i : Nat} : (w.enterLock sid i).state = w.state :=
  state_onSession fun _ => rfl

@[simp] theorem state_leaveLock {i : Nat} : (w.leaveLock sid i).state = w.state :=
  state_onSession fun _ => rfl

@[simp] theorem state_leaveMessage {i : Nat} {unlinked : Bool} :
    (w.leaveMessage sid i unlinked).state = w.state :=
  state_leaveLock

theorem state_onMessage {s : Session} {personaId : Uuid} {m : MessageWorld} (hs : w.sessions sid = some s) :
    (w.onMessage sid personaId m).state = Function.update w.state sid (some m.session) := by
  funext x
  change Option.map Session.state
    (Function.update w.sessions sid ((w.sessions sid).map fun s => { s with state := m.session }) x) = _
  by_cases hx : x = sid
  · subst hx
    rw [Function.update_self, Function.update_self, hs]
    rfl
  · rw [Function.update_of_ne hx, Function.update_of_ne hx]
    rfl

theorem state_create {s : SessionState} :
    (w.create s).state = Function.update w.state s.sessionId (some s) := by
  funext x
  change Option.map Session.state (Function.update w.sessions s.sessionId _ x) = _
  by_cases hx : x = s.sessionId
  · subst hx
    rw [Function.update_self, Function.update_self]
    rfl
  · rw [Function.update_of_ne hx, Function.update_of_ne hx]
    rfl

theorem removes_keepSpeak {keep : String → Bool} : Removes p (keepSpeak sid keep p) where
  shrinks := ⟨fun h => by rw [keepSpeak, PersonaWorld.onFiles, h]; rfl, id⟩
  dirs _ := by
    rw [keepSpeak, PersonaWorld.onFiles, Files.dir_keeping]
    exact dirShrinks_eraseAll
  orphans _ ho := .inl ho

theorem removes_rmdir {f : Folder} : Removes p (p.onFiles fun fs => fs.rmdir f) where
  shrinks := ⟨fun h => by rw [PersonaWorld.onFiles, h]; rfl, id⟩
  dirs f' := by
    rw [PersonaWorld.onFiles]
    by_cases hf : f' = f
    · subst hf
      rw [Files.dir_rmdir]
      exact .none _
    · exact .of_eq (Files.dir_rmdir_of_ne hf)
  orphans _ ho := .inl ho

theorem removes_leave {o : Orphan} (ho : o.writes = none) : Removes p (p.leave o) where
  shrinks := .refl p
  dirs _ := .refl _
  orphans o' ho' := by
    rcases PersonaWorld.mem_leave.mp ho' with ho' | rfl
    · exact .inl ho'
    · exact .inr ho

end

/-! ## One step -/

/-- What a step of a request may change of the personas, of the sessions and of the store. -/
inductive ServiceChange (H : Host) (w : ServiceWorld) :
    ServiceTask → ServiceEvent → ServiceWorld → Prop
  | same {t e w'} (personas : w'.personas = w.personas) (state : w'.state = w.state)
      (stored : w'.stored ⊆ w.stored) : ServiceChange H w t e w'
  | created {personaId userId sid systemPrompt now} (hnew : w.sessions sid = none) :
      ServiceChange H w (.start personaId userId .reading) (.start (.created sid systemPrompt now))
        (w.create ⟨sid, userId, personaId, systemPrompt, now, now, []⟩)
  | spoke {sid messageId pc e unlinked s m w'} (hs : w.state sid = some s)
      (frame : MessageFrame ⟨w.personas s.personaId, s, w.safetyLogs⟩ m)
      (personas : w'.personas = Function.update w.personas s.personaId m.persona)
      (state : w'.state = Function.update w.state sid (some m.session))
      (stored : w'.stored = w.stored) :
      ServiceChange H w (.message sid messageId (.inside pc)) (.message (.message e unlinked)) w'
  | removed {sid e s p' w'} (hs : w.state sid = some s) (removes : Removes (w.personas s.personaId) p')
      (personas : w'.personas = Function.update w.personas s.personaId p')
      (state : w'.state = w.state) (stored : w'.stored = w.stored) :
      ServiceChange H w (.ending sid .rmtree) (.ending e) w'
  | persona {id t e t' p'} (h : personaStep H (w.personas id) t e = some (p', t')) :
      ServiceChange H w (.persona id t) (.persona e) (w.onPersona id p')

section
variable {H : Host} {w w' : ServiceWorld} {i : Nat} {t t' : ServiceTask} {e : ServiceEvent} {sid : Uuid}

theorem StartStep.change {personaId userId : Uuid} {pc : StartPc} {ev : StartEvent}
    {out : ServiceWorld × StartPc} (h : StartStep w personaId userId pc ev out) :
    ServiceChange H w (.start personaId userId pc) (.start ev) out.1 := by
  cases h with
  | created hnew => exact .created hnew
  | _ => exact .same rfl rfl (List.Subset.refl _)

theorem PostStep.change {messageId : Uuid} {pc : PostPc} {ev : PostEvent} {out : ServiceWorld × PostPc}
    (h : PostStep H w i sid messageId pc ev out) :
    ServiceChange H w (.message sid messageId pc) (.message ev) out.1 := by
  cases h with
  | pull => exact .same rfl state_enterLock (List.Subset.refl _)
  | cancelLocking => exact .same rfl state_leaveMessage (List.Subset.refl _)
  | message hs hm => exact .spoke (state_of_sessions hs) (messageStep_frame hm) rfl (state_onMessage hs) rfl
  | messageLeft hs hm =>
    exact .spoke (state_of_sessions hs) (messageStep_frame hm) rfl
      (state_leaveMessage.trans (state_onMessage hs)) rfl
  | _ => exact .same rfl rfl (List.Subset.refl _)

/-- A change to the persona of a session that exists. -/
theorem change_onSessionPersona {ev : EndEvent} {g : PersonaWorld → PersonaWorld}
    (hg : ∀ p, Removes p (g p)) (hp : w'.personas = (w.onSessionPersona sid g).personas)
    (hstate : w'.state = w.state) (hstored : w'.stored = w.stored) :
    ServiceChange H w (.ending sid .rmtree) (.ending ev) w' := by
  cases hs : w.sessions sid with
  | none =>
    rw [ServiceWorld.onSessionPersona, hs] at hp
    exact .same hp hstate (hstored ▸ List.Subset.refl _)
  | some s =>
    rw [ServiceWorld.onSessionPersona, hs] at hp
    exact .removed (state_of_sessions hs) (hg _) hp hstate hstored

theorem EndStep.change {pc : EndPc} {ev : EndEvent} {out : ServiceWorld × EndPc}
    (h : EndStep w i sid pc ev out) : ServiceChange H w (.ending sid pc) (.ending ev) out.1 := by
  cases h with
  | known => exact .same rfl state_enterLock (List.Subset.refl _)
  | gone | removed | removeFailed | cancelLocking =>
    exact .same rfl state_leaveLock (List.Subset.refl _)
  | popped => exact .same rfl rfl (List.filter_subset_self _)
  | poppedEmpty => exact .same rfl state_leaveLock (List.filter_subset_self _)
  | unknown => exact .same rfl rfl (List.Subset.refl _)
  | remove => exact change_onSessionPersona (fun _ => removes_keepSpeak) rfl rfl rfl
  | apply => exact change_onSessionPersona (fun _ => removes_rmdir) rfl rfl rfl
  | cancelRemoving =>
    exact change_onSessionPersona (fun _ => removes_leave rfl) rfl state_leaveLock rfl

/-- A step of a request, but for the locks, the counter and the temporary files. -/
theorem RequestStep.change (h : RequestStep H w i t e (w', t')) : ServiceChange H w t e w' := by
  cases h with
  | start hs => exact hs.change
  | message hs => exact hs.change
  | ending hs => exact hs.change
  | persona hs => exact .persona hs

/-- The sessions are there, and belong to the same personas. -/
def SessionsKept (w w' : ServiceWorld) : Prop :=
  ∀ sid s, w.state sid = some s → ∃ s', w'.state sid = some s' ∧ s'.personaId = s.personaId

theorem ServiceChange.sessionsKept (h : ServiceChange H w t e w') : SessionsKept w w' := by
  intro sid s hs
  cases h with
  | same _ state => exact ⟨s, state ▸ hs, rfl⟩
  | @created _ _ new _ _ hnew =>
    have hne : sid ≠ new := by
      rintro rfl
      rw [ServiceWorld.state, hnew] at hs
      cases hs
    exact ⟨s, by rw [state_create, Function.update_of_ne hne]; exact hs, rfl⟩
  | @spoke sid' _ _ _ _ s' m _ hs' frame _ state =>
    by_cases hne : sid = sid'
    · subst hne
      rw [hs'] at hs
      cases hs
      exact ⟨m.session, by rw [state, Function.update_self], frame.personaId⟩
    · exact ⟨s, by rw [state, Function.update_of_ne hne]; exact hs, rfl⟩
  | removed _ _ _ state => exact ⟨s, state ▸ hs, rfl⟩
  | persona => exact ⟨s, hs, rfl⟩

/-- A sweep, or left-over work, keeps the sessions. -/
theorem serviceEnv_sessionsKept {x : ServiceEnv} (h : serviceEnv w x = some w') : SessionsKept w w' := by
  cases x with
  | sweep now => cases h; exact fun _ s hs => ⟨s, hs, rfl⟩
  | orphan id k act =>
    obtain ⟨p', -, rfl⟩ := Option.map_eq_some_iff.mp h
    exact fun _ s hs => ⟨s, hs, rfl⟩

end

/-! ## The lock of a session -/

/-- The request is inside the lock of the session: its message runs, or it removes the folder. -/
def ServiceTask.inside (sid : Uuid) : ServiceTask → Bool
  | .message s _ (.inside _) | .ending s .rmtree => s = sid
  | _ => false

section
variable {H : Host} {w w' : ServiceWorld} {i j : Nat} {t t' : ServiceTask} {e : ServiceEvent}
  {sid sid' : Uuid}

/-- It is the turn of one request only. -/
theorem turn_unique (hi : w.turn sid i = true) (hj : w.turn sid j = true) : i = j := by
  obtain ⟨s, hs, hi⟩ := (Option.any_eq_true _ _).mp hi
  rw [ServiceWorld.turn, hs, Option.any_some] at hj
  exact FifoLock.turn_unique hi hj

theorem turn_onSession {g : Session → Session}
    (hg : ∀ s, s.lock.turn j = true → (g s).lock.turn j = true) (h : w.turn sid j = true) :
    (w.onSession sid' g).turn sid j = true := by
  rw [ServiceWorld.turn] at h ⊢
  change (Function.update w.sessions sid' _ sid).any _ = true
  by_cases hs : sid = sid'
  · subst hs
    obtain ⟨s, hsome, hturn⟩ := (Option.any_eq_true _ _).mp h
    rw [Function.update_self, hsome]
    exact hg s hturn
  · rw [Function.update_of_ne hs]
    exact h

theorem turn_enterLock (h : w.turn sid j = true) : (w.enterLock sid' i).turn sid j = true :=
  turn_onSession (fun _ hs => FifoLock.turn_enter hs) h

theorem turn_leaveLock (hne : j ≠ i) (h : w.turn sid j = true) :
    (w.leaveLock sid' i).turn sid j = true :=
  turn_onSession (fun _ hs => FifoLock.turn_leave hs (Ne.symm hne)) h

theorem turn_onMessage {personaId : Uuid} {m : MessageWorld} (h : w.turn sid j = true) :
    (w.onMessage sid' personaId m).turn sid j = true :=
  turn_onSession (w := w.onPersona personaId m.persona) (fun _ hs => hs) h

theorem turn_create {s : SessionState} (hnew : w.sessions s.sessionId = none) (h : w.turn sid j = true) :
    (w.create s).turn sid j = true := by
  have hne : sid ≠ s.sessionId := by
    rintro rfl
    rw [ServiceWorld.turn, hnew] at h
    cases h
  rw [ServiceWorld.turn] at h ⊢
  change (Function.update w.sessions s.sessionId _ sid).any _ = true
  rw [Function.update_of_ne hne]
  exact h

/-- No request takes the lock from another one. -/
theorem RequestStep.turn (h : RequestStep H w i t e (w', t')) (hj : j ≠ i)
    (hturn : w.turn sid j = true) : w'.turn sid j = true := by
  cases h with
  | start hs =>
    cases hs with
    | created hnew => exact turn_create hnew hturn
    | _ => exact hturn
  | message hs =>
    cases hs with
    | pull => exact turn_enterLock hturn
    | cancelLocking => exact turn_leaveLock hj hturn
    | message => exact turn_onMessage hturn
    | messageLeft => exact turn_leaveLock (w := w.onMessage _ _ _) hj (turn_onMessage hturn)
    | _ => exact hturn
  | ending hs =>
    cases hs with
    | known => exact turn_enterLock hturn
    | gone | removed | removeFailed | cancelLocking => exact turn_leaveLock hj hturn
    | poppedEmpty => exact turn_leaveLock (w := w.pop _) hj hturn
    | cancelRemoving => exact turn_leaveLock (w := w.onSessionPersona _ _) hj hturn
    | _ => exact hturn
  | persona => exact hturn

/-- Whoever is inside the lock has it: it was the turn of the request when it went in. -/
theorem RequestStep.inside (h : RequestStep H w i t e (w', t'))
    (ht : t.inside sid = true → w.turn sid i = true) (ht' : t'.inside sid = true) :
    w'.turn sid i = true := by
  cases h with
  | start | persona => cases ht'
  | message hs =>
    cases hs with
    | granted hturn => cases of_decide_eq_true ht'; exact hturn
    | message => exact turn_onMessage (ht ht')
    | _ => cases ht'
  | ending hs =>
    cases hs with
    | popped hturn => cases of_decide_eq_true ht'; exact hturn
    | remove | apply => exact ht ht'
    | _ => cases ht'

end

end YeounEngine
