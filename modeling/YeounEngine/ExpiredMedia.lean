import YeounEngine.Expiry

/-!
# The media of expired sessions

An `/end` removes the folder of its session, but `_sweep_once` only drops the entry of the store. What an expired
session has made stays on disk, and a message that is still in progress may make the folder after the sweep;
nothing removes it later, because the session is not found any more.

The sessions that a sweep has removed are a record beside the service (`sweeps`). `SweptQuiet` is the condition
that a sweep removes only sessions without a folder and that none of their messages goes on after its
`text_done`; under it an expired session leaves nothing (`noMedia_of_sweptQuiet`). `media_outlives_sweep` is a session
with one message whose folder stays.
-/

namespace YeounEngine

open Transition

/-! ## The property, and the condition -/

/-- The sessions that the sweep removes. -/
def ServiceWorld.expired (w : ServiceWorld) (now : Nat) : List Uuid :=
  w.stored.filter fun sid => sid ∉ (w.sweepOnce now).stored

/-- The sessions that sweeps have removed, as a record beside the service. -/
def sweeps : Auxiliary (Pool ServiceWorld ServiceTask) (Event ServiceTask ServiceEvent ServiceEnv)
    (Event ServiceTask ServiceEvent ServiceEnv) (List Uuid) where
  start := []
  event := some
  record p swept
    | .env (.sweep now) => some (swept ++ p.world.expired now)
    | _ => some swept

/-- The service with its record of sweeps. -/
def sweptSystem (H : Host) : System (Extended (Pool ServiceWorld ServiceTask) (List Uuid))
    (Event ServiceTask ServiceEvent ServiceEnv) :=
  (serviceSystem H (fun _ => true) ServiceWorld.Fresh).extend sweeps

/-- A session that a sweep has removed, and of which no message is in progress, has no folder. -/
def NoMedia (x : Extended (Pool ServiceWorld ServiceTask) (List Uuid)) : Prop :=
  ∀ sid ∈ x.record, (∀ t ∈ x.state.tasks, t.messaging sid = false) → (x.state.world.speakFolder sid).isSome = false

/-- The message has made the folder of its session, and may still write to it. -/
def MessagePc.speaking : MessagePc → Bool
  | .waitingGpu _ | .synthesizing _ | .waitingDitto _ | .rendering _ => true
  | _ => false

/-- A message of the session may write to the folder. -/
def ServiceTask.speaks (sid : Uuid) : ServiceTask → Bool
  | .message s _ (.inside pc) => s = sid && pc.speaking
  | _ => false

/-- The session of which a message goes on after its `text_done` in the step. -/
def goesOn : ServiceTask → ServiceEvent → Option Uuid
  | .message sid _ (.inside pc), .message (.message ev _) => if (responds ev pc).isSome then some sid else none
  | _, _ => none

/-- A sweep removes a session only while it has no folder and nothing may write to it, and a message goes on after
its `text_done` only if no sweep has removed its session. -/
def SweptQuiet (x : Extended (Pool ServiceWorld ServiceTask) (List Uuid)) :
    Event ServiceTask ServiceEvent ServiceEnv → Prop
  | .run i e => ∀ t ∈ x.state.tasks[i]?, ∀ sid ∈ goesOn t e, sid ∉ x.record
  | .env (.sweep now) => ∀ sid ∈ x.state.world.expired now, (x.state.world.speakFolder sid).isSome = false ∧
      x.state.world.speakerLeft sid = false ∧ ∀ t ∈ x.state.tasks, t.speaks sid = false
  | _ => True

instance (x : Extended (Pool ServiceWorld ServiceTask) (List Uuid)) :
    ∀ e : Event ServiceTask ServiceEvent ServiceEnv, Decidable (SweptQuiet x e)
  | .run i e => inferInstanceAs (Decidable (∀ t ∈ x.state.tasks[i]?, ∀ sid ∈ goesOn t e, sid ∉ x.record))
  | .env (.sweep now) => inferInstanceAs (Decidable (∀ sid ∈ x.state.world.expired now,
      (x.state.world.speakFolder sid).isSome = false ∧ x.state.world.speakerLeft sid = false ∧
        ∀ t ∈ x.state.tasks, t.speaks sid = false))
  | .env (.orphan _ _ _) | .arrive _ => inferInstanceAs (Decidable True)

/-! ## One step -/

section
variable {H : Host} {messageId : Uuid} {m : MessageWorld}

/-- A message that does not speak, and does not come to it, touches neither its session nor any folder. -/
theorem messageStep_silent {pc : MessagePc} {ev : MessageEvent} {out : MessageWorld × MessagePc}
    (h : messageStep H messageId m pc ev = some out) (hpc : pc.speaking = false) (hev : responds ev pc = none) :
    out.1.persona = m.persona ∧ out.1.session = m.session ∧ out.2.speaking = false := by
  rcases messageStep_cases h with h | h
  · cases h with
    | speech => cases hev
    | transcribed =>
      refine ⟨rfl, rfl, ?_⟩
      dsimp only
      exact inputGuard_cases (motive := fun pc => pc.speaking = false) (fun _ => rfl) fun _ => rfl
    | streamEnd =>
      refine ⟨rfl, rfl, ?_⟩
      dsimp only
      exact outputGuard_cases (motive := fun pc => pc.speaking = false) (fun _ => rfl) fun _ => rfl
    | acquireGpu | speechFolder | speechOutput | synthesized | synthesizeFailed | acquireDitto | folderFailed
    | renderFolder
    | renderOutput | rendered | renderFailed => cases hpc
    | _ => exact ⟨rfl, rfl, rfl⟩
  · cases h with
    | waitingGpu | synthesizing | waitingDitto | rendering => cases hpc
    | _ => exact ⟨rfl, rfl, rfl⟩

end

section
variable {H : Host} {w w' : ServiceWorld} {t t' : ServiceTask} {e : ServiceEvent} {i : Nat} {sid : Uuid}

/-- A step of a message that does not speak. -/
theorem sessionKept_silent {messageId : Uuid} {pc pc' : MessagePc} {ev : MessageEvent} {s : Session}
    {m : MessageWorld} (hs : w.sessions sid = some s)
    (hm : messageStep H messageId (w.messageWorld s) pc ev = some (m, pc')) (hpc : pc.speaking = false)
    (hev : responds ev pc = none) (hstate : w'.state = Function.update w.state sid (some m.session))
    (hpersonas : w'.personas = Function.update w.personas s.state.personaId m.persona) :
    SessionKept sid w w' ∧ pc'.speaking = false := by
  obtain ⟨hpersona, hsession, hpc'⟩ := messageStep_silent hm hpc hev
  have hpersona : m.persona = w.personas s.state.personaId := hpersona
  have hsession : m.session = s.state := hsession
  refine ⟨.of_persona (state_of_sessions hs) ?_ ?_, hpc'⟩
  · rw [hstate, Function.update_self, hsession, state_of_sessions hs]
  · rw [hpersonas, Function.update_self, hpersona]
    exact .refl sid _

theorem silent_of_message {messageId : Uuid} {pc : MessagePc} {ev : MessageEvent} {unlinked : Bool}
    (hquiet : ServiceTask.speaks sid (.message sid messageId (.inside pc)) = false)
    (hgo : sid ∉ goesOn (.message sid messageId (.inside pc)) (.message (.message ev unlinked))) :
    pc.speaking = false ∧ responds ev pc = none := by
  rw [ServiceTask.speaks, decide_eq_true rfl, Bool.true_and] at hquiet
  refine ⟨hquiet, ?_⟩
  cases hr : responds ev pc with
  | none => rfl
  | some n =>
    rw [goesOn, hr] at hgo
    exact absurd rfl hgo

/-- A request of which no message speaks in the session, and none goes on after its `text_done`. -/
theorem RequestStep.silent (h : RequestStep H w i t e (w', t')) (hkey : w.Keyed)
    (hsome : (w.state sid).isSome = true) (hquiet : t.speaks sid = false) (hgo : sid ∉ goesOn t e) :
    SessionKept sid w w' ∧ t'.speaks sid = false := by
  cases hc : t.converses sid with
  | false =>
    refine ⟨h.change.sessionKept hkey hsome hc, ?_⟩
    cases h with
    | start | ending | persona => rfl
    | message hs =>
      cases hs with
      | granted => exact Bool.and_false _
      | message =>
        have hne : decide (_ = sid) = false := hc
        rw [ServiceTask.speaks, hne]
        rfl
      | _ => rfl
  | true =>
    cases h with
    | start | ending | persona => cases hc
    | message hs =>
      cases hs with
      | @message pc e _ s m pc' hs hm =>
        cases of_decide_eq_true hc
        obtain ⟨hpc, hev⟩ := silent_of_message hquiet hgo
        obtain ⟨hkept, hpc'⟩ := sessionKept_silent hs hm hpc hev (state_onMessage hs) rfl
        exact ⟨hkept, by rw [ServiceTask.speaks, hpc', Bool.and_false]⟩
      | messageLeft hs hm =>
        cases of_decide_eq_true hc
        obtain ⟨hpc, hev⟩ := silent_of_message hquiet hgo
        obtain ⟨hkept, -⟩ :=
          sessionKept_silent hs hm hpc hev (state_leaveMessage.trans (state_onMessage hs)) rfl
        exact ⟨hkept, rfl⟩
      | _ => cases hc

end

/-! ## The invariant -/

/-- The session is there, without a folder, and nothing may write to one. -/
structure SweptClean (p : Pool ServiceWorld ServiceTask) (sid : Uuid) : Prop where
  isSome : (p.world.state sid).isSome = true
  folder : (p.world.speakFolder sid).isSome = false
  unspoken : p.world.speakerLeft sid = false
  quiet : ∀ t ∈ p.tasks, t.speaks sid = false

/-- Stored sessions are there, and the ones that sweeps have removed are clean. -/
structure ExpiryClean (x : Extended (Pool ServiceWorld ServiceTask) (List Uuid)) : Prop where
  keyed : x.state.world.Keyed
  stored : ∀ sid ∈ x.state.world.stored, (x.state.world.state sid).isSome = true
  swept : ∀ sid ∈ x.record, SweptClean x.state sid

section
variable {H : Host} {p : Pool ServiceWorld ServiceTask} {w : ServiceWorld} {ts : List ServiceTask} {sid : Uuid}
  {x y : Extended (Pool ServiceWorld ServiceTask) (List Uuid)}

/-- A step that adds nothing to the session. -/
theorem SweptClean.kept (h : SweptClean p sid) (hk : SessionKept sid p.world w)
    (hquiet : ∀ t ∈ ts, t.speaks sid = false) : SweptClean ⟨w, ts⟩ sid := by
  refine ⟨?_, ?_, hk.speakers h.unspoken, hquiet⟩
  · change (w.state sid).isSome = true
    rw [hk.state]
    exact h.isSome
  · change (w.speakFolder sid).isSome = false
    cases hf : w.speakFolder sid with
    | none => rfl
    | some d =>
      obtain ⟨d', hd', -⟩ := hk.folder d hf
      have hno := h.folder
      rw [hd'] at hno
      cases hno

theorem speaks_of_arriving {t : ServiceTask} (h : t.arriving = true) : t.speaks sid = false := by
  unfold ServiceTask.arriving at h
  split at h <;> first | rfl | cases h

/-- Every step that meets the condition keeps the invariant. -/
theorem ExpiryClean.next {e : Event ServiceTask ServiceEvent ServiceEnv} (h : ExpiryClean x) (hok : SweptQuiet x e)
    (hstep : (sweptSystem H).step x e = some y) : ExpiryClean y := by
  refine System.extend_cases hstep ?_ fun r he => (by cases he)
  intro e' q swept he hs hr
  cases he
  revert hr
  refine Coop.next_cases (motive := fun q => sweeps.record x.state x.record e = some swept →
    ExpiryClean ⟨q, swept⟩) hs ?_ ?_ ?_
  · rintro t rfl harr hr
    cases hr
    refine ⟨h.keyed, h.stored, fun sid hsid => (h.swept sid hsid).kept (.refl sid _) fun u hu => ?_⟩
    rcases Pool.mem_append.mp hu with hu | rfl
    · exact (h.swept sid hsid).quiet u hu
    · exact speaks_of_arriving (Bool.and_eq_true_iff.mp harr).1
  · rintro i ev t w' t' rfl hi hstep hr
    cases hr
    obtain ⟨w₁, gpu, ditto, hreq, -, rfl⟩ := serviceStep_inv hstep
    refine ⟨hreq.change.keyed h.keyed, hreq.change.stored h.stored, fun sid hsid => ?_⟩
    have hclean := h.swept sid hsid
    obtain ⟨hkept, hquiet⟩ := hreq.silent h.keyed hclean.isSome (hclean.quiet t (List.mem_of_getElem? hi))
      fun hgo => hok t hi sid hgo hsid
    refine hclean.kept ⟨hkept.state, hkept.folder, hkept.speakers⟩ fun u hu => ?_
    rcases List.mem_or_eq_of_mem_set hu with hu | rfl
    · exact hclean.quiet u hu
    · exact hquiet
  · rintro env w' rfl hx hr
    have hmap : x.state.tasks.map ((serviceCoop H fun _ => true).onTask env) = x.state.tasks :=
      List.map_id x.state.tasks
    rw [hmap]
    have old : ∀ sid ∈ x.record, SweptClean ⟨w', x.state.tasks⟩ sid := by
      intro sid hsid
      have hclean := h.swept sid hsid
      exact hclean.kept (serviceEnv_sessionKept hx hclean.isSome hclean.unspoken) hclean.quiet
    cases env with
    | orphan id k act =>
      cases hr
      obtain ⟨p', -, rfl⟩ := Option.map_eq_some_iff.mp hx
      exact ⟨h.keyed, h.stored, old⟩
    | sweep now =>
      cases hr
      cases hx
      refine ⟨h.keyed, fun sid hsid => h.stored sid (List.mem_of_mem_filter hsid), fun sid hsid => ?_⟩
      rcases List.mem_append.mp hsid with hsid | hsid
      · exact old sid hsid
      · -- the sweep removes the session now: the condition says that it has left nothing
        obtain ⟨hfolder, hunspoken, hquiet⟩ := hok sid hsid
        exact ⟨h.stored sid (List.mem_of_mem_filter hsid), hfolder, hunspoken, hquiet⟩

end

/-! ## Main results -/

/-- In every interleaving of session starts, messages, ends, sweeps and requests on the personas that meets the
condition, a session that a sweep has removed has no folder once no message of it is in progress. -/
theorem noMedia_of_sweptQuiet (H : Host) (x : Extended (Pool ServiceWorld ServiceTask) (List Uuid))
    (h : (sweptSystem H).Reach SweptQuiet x) : NoMedia x := by
  have hclean : ExpiryClean x := by
    refine h.inv (fun x hx => ?_) fun x e y hI hok hs => hI.next hok hs
    obtain ⟨⟨hfresh, -⟩, hstart⟩ := hx
    refine ⟨fun sid s hs => ?_, fun sid hsid => ?_, fun sid hsid => ?_⟩
    · rw [ServiceWorld.state, hfresh.sessions sid] at hs
      cases hs
    · rw [hfresh.stored] at hsid
      cases hsid
    · rw [hstart] at hsid
      cases hsid
  exact fun sid hsid _ => (hclean.swept sid hsid).folder

/-- The theorem at a run: a session whose only message failed before its `text_done` is swept. -/
theorem noMedia_of_sweptQuiet_run : ∃ x, (sweptSystem sampleHost).Reach SweptQuiet x ∧ 5 ∈ x.record ∧ NoMedia x := by
  have h : ((sweptSystem sampleHost).exec SweptQuiet ⟨⟨sampleService, []⟩, []⟩ (startSession 0 1 5 ++
      postMessage 1 5 9 ++ sayMessage 1 [.pull cleanTextDone,
        .fail ⟨"RuntimeError", "CUDA out of memory"⟩ fun _ => .removed,
        .pull cleanTextDone] ++ [.env (.sweep 2000)])).any (fun x => 5 ∈ x.record) = true := by
    decide +kernel
  obtain ⟨x, hsteps, hx⟩ := System.exists_of_exec h
  have hreach : (sweptSystem sampleHost).Reach SweptQuiet x := ⟨_, ⟨⟨sampleService_fresh, rfl⟩, rfl⟩, hsteps⟩
  exact ⟨x, hreach, of_decide_eq_true hx, noMedia_of_sweptQuiet _ x hreach⟩

/-- From the speech to `media_ready`, and to the end of the message. -/
def showMedia : List MessageEvent :=
  [.acquire, .synthesized ⟨102, .bytes [1]⟩ none fun _ => .removed, .acquire,
    .rendered ⟨103, .bytes [2]⟩ .removed fun _ => .removed,
    .pull cleanTextDone]

/-- A session has answered a message, and is swept half an hour later: its folder stays. -/
theorem media_outlives_sweep : ∃ x, (sweptSystem sampleHost).Reach anyStep x ∧ ¬ NoMedia x := by
  have h : ((sweptSystem sampleHost).exec anyStep ⟨⟨sampleService, []⟩, []⟩ (startSession 0 1 5 ++
      postMessage 1 5 9 ++ sayMessage 1 (sayHello ++ showMedia) ++ [.run 1 (.message .counter),
        .env (.sweep 2000)])).any (fun x => 5 ∈ x.record ∧ (∀ t ∈ x.state.tasks, t.messaging 5 = false) ∧
          (x.state.world.speakFolder 5).isSome = true) = true := by
    decide +kernel
  obtain ⟨x, hsteps, hx⟩ := System.exists_of_exec h
  obtain ⟨hsid, hover, hsome⟩ := of_decide_eq_true hx
  refine ⟨x, ⟨_, ⟨⟨sampleService_fresh, rfl⟩, rfl⟩, hsteps⟩, fun hno => ?_⟩
  rw [hno 5 hsid hover] at hsome
  cases hsome

end YeounEngine
