import YeounEngine.GpuExclusion
import YeounEngine.SessionEnd

/-!
# One render at a time

`ditto_semaphore` serialises the renders of Ditto: a call of `render_idle` or `render_speak` has it from before its
child starts until the call has ended. A call that is cancelled while it awaits `proc.communicate()` removes
its outputs and gives the semaphore back, but its child goes on; the next render may begin beside it, and it
writes the outputs again.

`RendersKept` is the condition that no render is cancelled while its child runs. Under it at most one child is alive,
and none outlives its call (`oneRender_of_rendersKept`); `two_renders` is a cancelled message whose child renders
beside the one of another message.
-/

namespace YeounEngine

open Transition

/-! ## The property, and the condition -/

/-- The orphan is an `inference.py`. -/
def Orphan.renders : Orphan → Bool
  | .idleRender _ _ | .speakRender _ _ _ => true
  | _ => false

/-- A child of Ditto: the one of a call, or one that a cancelled call has left. -/
inductive RenderChild
  | called (i : Nat)
  | left (id : Uuid) (k : Nat)
  deriving DecidableEq

/-- The child may be alive: its call is under the semaphore, or it has not exited. -/
def RenderChild.alive (p : Pool ServiceWorld ServiceTask) : RenderChild → Prop
  | .called i => ∃ t ∈ p.tasks[i]?, t.holdsDitto = true
  | .left id k => ∃ o ∈ (p.world.personas id).orphans[k]?, o.renders = true

/-- At most one child is alive. -/
def OneRender (p : Pool ServiceWorld ServiceTask) : Prop :=
  ∀ c c' : RenderChild, c.alive p → c'.alive p → c = c'

/-- A child whose call has been cancelled writes nothing. -/
def OutputsLeft (p : Pool ServiceWorld ServiceTask) : Prop :=
  ∀ id k, RenderChild.alive p (.left id k) → ∀ side o, serviceEnv p.world (.orphan id k (.write side o)) = none

/-- The step in which a render is cancelled while its child runs. -/
def cancelsRender : ServiceTask → ServiceEvent → Bool
  | .message _ _ (.inside (.rendering _)), .message (.message (.cancel started _) _) => started
  | .persona _ (.process (.accepted r)), .persona (.process (.run (.cancel started _))) => r.pc.holdsDitto && started
  | _, _ => false

/-- No render is cancelled while its child runs. -/
def RendersKept (p : Pool ServiceWorld ServiceTask) : Event ServiceTask ServiceEvent ServiceEnv → Prop
  | .run i e => ∀ t ∈ p.tasks[i]?, cancelsRender t e = false
  | _ => True

instance (p : Pool ServiceWorld ServiceTask) :
    ∀ e : Event ServiceTask ServiceEvent ServiceEnv, Decidable (RendersKept p e)
  | .run i e => inferInstanceAs (Decidable (∀ t ∈ p.tasks[i]?, cancelsRender t e = false))
  | .arrive _ | .env _ => inferInstanceAs (Decidable True)

/-! ## What a step leaves running -/

/-- The step leaves no new child of Ditto running. -/
def NoNewRender (p p' : PersonaWorld) : Prop := ∀ o ∈ p'.orphans, o.renders = true → o ∈ p.orphans

section
variable {H : Host} {p p' : PersonaWorld}

theorem NoNewRender.of_eq (h : p'.orphans = p.orphans) : NoNewRender p p' := fun _ ho _ => h ▸ ho

theorem noNewRender_leave {o : Orphan} (ho : o.renders = false) : NoNewRender p (p.leave o) := by
  intro o' ho' hr
  rcases PersonaWorld.mem_leave.mp ho' with ho' | rfl
  · exact ho'
  · rw [ho] at hr
    cases hr

/-- What writes nothing does not render. -/
theorem renders_of_writes {o : Orphan} (h : o.writes = none) : o.renders = false := by
  cases o <;> first | rfl | cases h

theorem Removes.noNewRender (h : Removes p p') : NoNewRender p p' := by
  intro o ho hr
  rcases h.orphans o ho with ho | ho
  · exact ho
  · rw [renders_of_writes ho] at hr
    cases hr

/-- A run leaves a child of Ditto running when its render is cancelled. -/
theorem runStep_noNewRender {r r' : Run} {ev : RunEvent} (h : runStep H p r ev = some (p', r'))
    (hc : ∀ started unlinked, ev = .cancel started unlinked → (r.pc.holdsDitto && started) = false) :
    NoNewRender p p' := by
  intro o ho hr
  rcases runStep_cases h with hbody | ⟨hev, hint⟩
  · exact hbody.orphans ▸ ho
  · rcases hint.leftover ho with hold | ⟨voice, rfl, -⟩ | ⟨i, photo, -, hpc, hphoto⟩
    · exact hold
    · cases hr
    · -- only a cancellation gets here, and it left no child
      obtain ⟨pc, voice, photo'⟩ := r
      dsimp only at hpc hphoto
      subst hpc hphoto
      cases ev with
      | cancel started unlinked =>
        have hstarted : started = false := hc started unlinked rfl
        subst hstarted
        cases h
        exact ho
      | fail e => cases h
      | _ => cases hev

theorem personaStep_noNewRender {t t' : PersonaTask} {ev : PersonaEvent}
    (h : personaStep H p t ev = some (p', t'))
    (hc : ∀ r started unlinked, t = .process (.accepted r) → ev = .process (.run (.cancel started unlinked)) →
      (r.pc.holdsDitto && started) = false) : NoNewRender p p' := by
  cases personaStep_inv h with
  | upload hs =>
    intro o ho hr
    rcases hs.keeps.2.2 o ho with ho | ⟨tmp, rfl⟩
    · exact ho
    · cases hr
  | process hs =>
    cases hs with
    | run hrun =>
      refine runStep_noNewRender hrun fun started unlinked hev => ?_
      subst hev
      exact hc _ started unlinked rfl rfl
    | _ => exact .of_eq rfl
  | delete hs =>
    cases hs with
    | cancelRemoving => exact noNewRender_leave rfl
    | _ => exact .of_eq rfl

end

section
variable {H : Host} {messageId : Uuid} {w : MessageWorld}

/-- A message leaves a child of Ditto running when its render is cancelled. -/
theorem messageStep_noNewRender {pc : MessagePc} {ev : MessageEvent} {out : MessageWorld × MessagePc}
    (h : messageStep H messageId w pc ev = some out)
    (hc : ∀ started removed, ev = .cancel started removed → (pc.holdsDitto && started) = false) :
    NoNewRender w.persona out.1.persona := by
  rcases messageStep_cases h with h | h
  · exact .of_eq h.orphans
  · cases h with
    | synthesizing =>
      dsimp only
      split
      · exact noNewRender_leave rfl
      · exact .of_eq rfl
    | @rendering photo started removed =>
      obtain rfl : started = false := hc started removed rfl
      exact .of_eq rfl
    | _ => exact .of_eq rfl

end

section
variable {H : Host} {w w' : ServiceWorld} {t t' : ServiceTask} {e : ServiceEvent} {i : Nat}

/-- A change to one persona, seen from any. -/
theorem noNewRender_update {id id' : Uuid} {p' : PersonaWorld} {f : Uuid → PersonaWorld}
    (h : NoNewRender (f id') p') : NoNewRender (f id) (Function.update f id' p' id) := by
  by_cases hid : id = id'
  · subst hid
    rw [Function.update_self]
    exact h
  · rw [Function.update_of_ne hid]
    exact .of_eq rfl

theorem noNewRender_message {sid messageId id : Uuid} {pc pc' : MessagePc} {ev : MessageEvent} {unlinked : Bool}
    {s : Session} {m : MessageWorld} (hm : messageStep H messageId (w.messageWorld s) pc ev = some (m, pc'))
    (hc : cancelsRender (.message sid messageId (.inside pc)) (.message (.message ev unlinked)) = false) :
    NoNewRender (w.personas id) (Function.update w.personas s.state.personaId m.persona id) := by
  refine noNewRender_update (messageStep_noNewRender hm fun started removed hev => ?_)
  subst hev
  cases pc <;> first | rfl | exact hc

/-- A request leaves a child of Ditto running when its render is cancelled. -/
theorem RequestStep.noNewRender (h : RequestStep H w i t e (w', t')) (hc : cancelsRender t e = false) (id : Uuid) :
    NoNewRender (w.personas id) (w'.personas id) := by
  cases h with
  | start hs => cases hs <;> exact .of_eq rfl
  | message hs =>
    cases hs with
    | message _ hm | messageLeft _ hm => exact noNewRender_message hm hc
    | _ => exact .of_eq rfl
  | ending hs =>
    cases hs.change (H := H) with
    | same personas => rw [personas]; exact .of_eq rfl
    | removed _ removes personas => rw [personas]; exact noNewRender_update removes.noNewRender
  | persona hs =>
    refine noNewRender_update (personaStep_noNewRender hs fun r started unlinked ht he => ?_)
    subst ht he
    exact hc

/-- A step of a request, and the permit of Ditto that it takes or gives back. -/
theorem serviceStep_ditto (h : serviceStep H w i t e = some (w', t')) :
    ∃ w₁, RequestStep H w i t e (w₁, t') ∧ w'.personas = w₁.personas ∧
      Semaphore.pass t.holdsDitto t'.holdsDitto w.ditto = some w'.ditto := by
  obtain ⟨⟨w₁, t₁⟩, hreq, hs⟩ := Option.bind_eq_some_iff.mp h
  obtain ⟨w₂, hpass, hs⟩ := Option.map_eq_some_iff.mp hs
  cases hs
  obtain ⟨gpu, -, hpass⟩ := Option.bind_eq_some_iff.mp hpass
  obtain ⟨ditto, hditto, rfl⟩ := Option.map_eq_some_iff.mp hpass
  have hreq := requestStep_inv hreq
  have hsame : w₁.ditto = w.ditto := hreq.calls.permits.2
  exact ⟨w₁, hreq, rfl, hsame ▸ hditto⟩

end

/-! ## The invariant -/

/-- The free permits and the renders under the semaphore add up, and no child has been left. -/
structure RendersBounded (p : Pool ServiceWorld ServiceTask) : Prop where
  permits : p.world.ditto + Pool.total (fun t => t.holdsDitto.toNat) p.tasks = gpuConcurrency
  left : ∀ id, ∀ o ∈ (p.world.personas id).orphans, o.renders = false

section
variable {H : Host} {admits : ServiceTask → Bool} {p q : Pool ServiceWorld ServiceTask} {w w' : ServiceWorld}

theorem left_of_noNewRender (h : ∀ id, ∀ o ∈ (w.personas id).orphans, o.renders = false)
    (hn : ∀ id, NoNewRender (w.personas id) (w'.personas id)) :
    ∀ id, ∀ o ∈ (w'.personas id).orphans, o.renders = false := by
  intro id o ho
  cases hr : o.renders with
  | false => rfl
  | true =>
    rw [h id o (hn id o ho hr)] at hr
    cases hr

theorem holdsDitto_of_arriving {t : ServiceTask} (h : t.arriving = true) : t.holdsDitto = false := by
  cases t with
  | start personaId userId pc => rfl
  | message sid messageId pc => cases pc <;> first | rfl | cases h
  | ending sid pc => rfl
  | persona id u =>
    cases u with
    | upload req pc => rfl
    | delete pc => rfl
    | process pc => cases pc <;> first | rfl | cases h

/-- Every step that meets the condition keeps the invariant. -/
theorem RendersBounded.next {e : Event ServiceTask ServiceEvent ServiceEnv} (h : RendersBounded p)
    (hok : RendersKept p e) (hs : (serviceCoop H admits).next p e = some q) : RendersBounded q := by
  refine service_next_cases (motive := RendersBounded) hs ?_ ?_ ?_
  · intro t harr _
    refine ⟨?_, h.left⟩
    rw [Pool.total_append, Pool.total_singleton, holdsDitto_of_arriving harr]
    exact h.permits
  · rintro i ev t w t' rfl hi hstep
    obtain ⟨w₁, hreq, hpersonas, hpass⟩ := serviceStep_ditto hstep
    refine ⟨(Semaphore.total_set hi hpass).trans h.permits, left_of_noNewRender h.left fun id => ?_⟩
    rw [hpersonas]
    exact hreq.noNewRender (hok t hi) id
  · intro x w hx
    cases x with
    | sweep now => cases hx; exact ⟨h.permits, h.left⟩
    | orphan id k act =>
      obtain ⟨p', hp, rfl⟩ := Option.map_eq_some_iff.mp hx
      refine ⟨h.permits, left_of_noNewRender h.left fun id' => noNewRender_update ?_⟩
      exact fun o ho _ => (orphanStep_inv hp).orphans ho

/-- Two children that are alive are two calls under the semaphore, or one of them has been left. -/
theorem RendersBounded.oneRender (h : RendersBounded p) : OneRender p := by
  intro c c' hc hc'
  cases c with
  | left id k =>
    obtain ⟨o, ho, hr⟩ := hc
    rw [h.left id o (List.mem_of_getElem? ho)] at hr
    cases hr
  | called i =>
    cases c' with
    | left id k =>
      obtain ⟨o, ho, hr⟩ := hc'
      rw [h.left id o (List.mem_of_getElem? ho)] at hr
      cases hr
    | called j =>
      obtain ⟨t, ht, hheld⟩ := hc
      obtain ⟨u, hu, hheld'⟩ := hc'
      by_cases hij : i = j
      · rw [hij]
      · have htwo : t.holdsDitto.toNat + u.holdsDitto.toNat ≤ _ :=
          Pool.add_le_total (f := fun t => t.holdsDitto.toNat) hij ht hu
        have hpermits := h.permits
        rw [hheld, hheld', Bool.toNat_true] at htwo
        rw [gpuConcurrency] at hpermits
        omega

end

/-! ## Main results -/

/-- In every interleaving of runs, messages and other requests in which no render is cancelled while its child runs: at
most one child of Ditto is alive, and no child writes once its call has been cancelled. -/
theorem oneRender_of_rendersKept (H : Host) (admits : ServiceTask → Bool) (p : Pool ServiceWorld ServiceTask)
    (h : (serviceSystem H admits ServiceWorld.Fresh).Reach RendersKept p) : OneRender p ∧ OutputsLeft p := by
  have hinv : RendersBounded p := by
    refine h.inv (I := RendersBounded) (fun p hp => ?_) fun p e q hI hok hs => hI.next hok hs
    obtain ⟨hw, htasks⟩ := hp
    refine ⟨?_, fun id o ho => ?_⟩
    · rw [htasks, hw.ditto]
      rfl
    · rw [(hw.personas id).2] at ho
      cases ho
  refine ⟨hinv.oneRender, fun id k ⟨o, ho, hr⟩ => ?_⟩
  rw [hinv.left id o (List.mem_of_getElem? ho)] at hr
  cases hr

/-- A session of persona 1 and one of persona 2, and a message in each. -/
def twoMessages : List (Event ServiceTask ServiceEvent ServiceEnv) :=
  startSession 0 1 20 ++ startSession 1 2 21 ++ postMessage 2 20 30 ++ postMessage 3 21 31

/-- A message without an answer, up to its video. -/
def awaitRender : List MessageEvent :=
  [.pull cleanTextDone, .transcribed "안녕", .streamEnd, .pull cleanTextDone, .acquire,
    .synthesized ⟨102, .bytes [1]⟩ none fun _ => .removed]

/-- The theorem at a run: the message of one session renders, and the one of the other waits for it. -/
theorem oneRender_of_rendersKept_run : ∃ p : Pool ServiceWorld ServiceTask,
    (serviceSystem sampleHost (fun _ => true) ServiceWorld.Fresh).Reach RendersKept p ∧
      (∃ t ∈ p.tasks, t.holdsDitto = true) ∧ OneRender p ∧ OutputsLeft p := by
  have h : ((serviceSystem sampleHost (fun _ => true) ServiceWorld.Fresh).exec RendersKept ⟨sampleService, []⟩
      (twoMessages ++ sayMessage 2 (awaitRender ++ [.acquire]) ++ sayMessage 3 awaitRender)).any
      (fun p => ∃ t ∈ p.tasks, t.holdsDitto = true) = true := by
    decide +kernel
  obtain ⟨p, hsteps, hheld⟩ := System.exists_of_exec h
  have hreach : (serviceSystem sampleHost (fun _ => true) ServiceWorld.Fresh).Reach RendersKept p :=
    ⟨_, ⟨sampleService_fresh, rfl⟩, hsteps⟩
  exact ⟨p, hreach, of_decide_eq_true hheld, oneRender_of_rendersKept _ _ p hreach⟩

/-- A message is cancelled while its child renders, and the one of the other session renders beside it; the first
child writes the video that its call has removed. -/
theorem two_renders : ∃ p : Pool ServiceWorld ServiceTask,
    (serviceSystem sampleHost (fun _ => true) ServiceWorld.Fresh).Reach anyStep p ∧
      ((p.world.personas 2).files.has (.speak 21) (mp4Name 31 ++ ".tmp.mp4") = true) ∧
      ¬ OneRender p ∧ ¬ OutputsLeft p := by
  have h : ((serviceSystem sampleHost (fun _ => true) ServiceWorld.Fresh).exec anyStep ⟨sampleService, []⟩
      (twoMessages ++ sayMessage 2 (awaitRender ++ [.acquire, .cancel true fun _ => true]) ++
        sayMessage 3 (awaitRender ++ [.acquire, .output true ⟨103, .bytes [2]⟩]))).any
      (fun p => (p.world.personas 2).files.has (.speak 21) (mp4Name 31 ++ ".tmp.mp4") = true ∧
        (∃ o ∈ (p.world.personas 1).orphans[0]?, o.renders = true) ∧ (∃ t ∈ p.tasks[3]?, t.holdsDitto = true) ∧
        (serviceEnv p.world (.orphan 1 0 (.write false ⟨105, .bytes [2]⟩))).isSome = true) = true := by
    decide +kernel
  obtain ⟨p, hsteps, hp⟩ := System.exists_of_exec h
  obtain ⟨hwritten, hleft, hcalled, hwrites⟩ := of_decide_eq_true hp
  refine ⟨p, ⟨_, ⟨sampleService_fresh, rfl⟩, hsteps⟩, hwritten, fun hone => ?_, fun hno => ?_⟩
  · cases hone (.left 1 0) (.called 3) hleft hcalled
  · rw [hno 1 0 hleft] at hwrites
    cases hwrites

end YeounEngine
