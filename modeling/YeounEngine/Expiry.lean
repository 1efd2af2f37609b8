import YeounEngine.SessionEnd
import YeounEngine.Lib.Auxiliary

/-!
# The expiry of sessions

`_sweep_once` removes the sessions whose `last_activity_at` is older than the time to live, and means those
that nobody uses. But `last_activity_at` is written in two places only, when a session is created and after
`text_done`: a message that is admitted, waits, is transcribed or streams, or ends in an error or in the crisis
event, does not count.

Time is a record beside the service (`activity`): a clock that does not go back, the times at which messages
were admitted, and the times at which sessions were active. A sweep hits idle sessions only if and only if
every session that is in use has been active in time (`hitsIdle_iff_activeInTime`); `message_outlives_session` is
a sweep that removes the session of a message in progress.
-/

namespace YeounEngine

open Transition

/-! ## Time -/

/-- An event, and when it happens. -/
structure TimedEvent where
  now : Nat
  event : Event ServiceTask ServiceEvent ServiceEnv

/-- The clock, when messages of which sessions were admitted, and when which sessions were active. -/
structure Activity where
  clock : Nat
  admitted : List (Uuid × Nat)
  active : List (Uuid × Nat)

/-- The clock as the code reads it in the step, if it does. -/
def readsClock : Event ServiceTask ServiceEvent ServiceEnv → Option Nat
  | .run _ (.start (.created _ _ now)) => some now
  | .run _ (.message (.message (.pull a) _)) => some a.now
  | .env (.sweep now) => some now
  | _ => none

/-- What a step of a request adds. -/
def Activity.after (a : Activity) (w : ServiceWorld) (now : Nat) : ServiceTask → ServiceEvent → Activity
  | .start _ _ .reading, .start (.created sid _ _) => { a with active := a.active ++ [(sid, now)] }
  | .message sid _ .admitting, .message (.reserve _ _) =>
    if (maxConcurrentMessages : Int) ≤ w.activeMessages then a
    else { a with admitted := a.admitted ++ [(sid, now)] }
  | .message sid _ (.inside pc), .message (.message ev _) =>
    if (responds ev pc).isSome then { a with active := a.active ++ [(sid, now)] } else a
  | _, _ => a

/-- Time, as a record beside the service. -/
def activity : Auxiliary (Pool ServiceWorld ServiceTask) (Event ServiceTask ServiceEvent ServiceEnv)
    TimedEvent Activity where
  start := ⟨0, [], []⟩
  event e := some e.event
  record p a e :=
    if a.clock ≤ e.now ∧ ∀ t ∈ readsClock e.event, t = e.now then
      let a := match e.event with
        | .run i ev => (p.tasks[i]?).elim a fun t => a.after p.world e.now t ev
        | _ => a
      some { a with clock := e.now }
    else none

/-- The service in time. -/
def timedSystem (H : Host) : System (Extended (Pool ServiceWorld ServiceTask) Activity) TimedEvent :=
  (serviceSystem H (fun _ => true) ServiceWorld.Fresh).extend activity

/-! ## The property, and the condition -/

/-- The message has been admitted, and has not ended. -/
def PostPc.inProgress : PostPc → Bool
  | .reading | .closing | .rollback | .responded | .locking | .inside _ | .releasing _ => true
  | _ => false

/-- A message of the session is in progress. -/
def ServiceTask.messaging (sid : Uuid) : ServiceTask → Bool
  | .message s _ pc => s = sid && pc.inProgress
  | _ => false

/-- A message of the session is in progress, or was admitted within the time to live. -/
def InUse (x : Extended (Pool ServiceWorld ServiceTask) Activity) (sid : Uuid) (now : Nat) : Prop :=
  (∃ t ∈ x.state.tasks, t.messaging sid = true) ∨
    ∃ c ∈ x.record.admitted, c.1 = sid ∧ now < c.2 + ServiceWorld.ttlSeconds

/-- The step removes no session that is in use. -/
def HitsIdle (x y : Extended (Pool ServiceWorld ServiceTask) Activity) (now : Nat) : Prop :=
  ∀ sid ∈ x.state.world.stored, sid ∉ y.state.world.stored → ¬ InUse x sid now

/-- Every stored session that is in use was created, or a message of it went on after its `text_done`, within the
time to live. -/
def ActiveInTime (x : Extended (Pool ServiceWorld ServiceTask) Activity) (now : Nat) : Prop :=
  ∀ sid ∈ x.state.world.stored, InUse x sid now →
    ∃ c ∈ x.record.active, c.1 = sid ∧ now ≤ c.2 + ServiceWorld.ttlSeconds

instance (x : Extended (Pool ServiceWorld ServiceTask) Activity) (sid : Uuid) (now : Nat) :
    Decidable (InUse x sid now) := inferInstanceAs (Decidable (_ ∨ _))

instance (x : Extended (Pool ServiceWorld ServiceTask) Activity) (now : Nat) : Decidable (ActiveInTime x now) :=
  inferInstanceAs (Decidable (∀ _ ∈ _, _ → _))

/-! ## One step -/

/-- `last_activity_at` of every session. -/
def ServiceWorld.lastActivity (w : ServiceWorld) (sid : Uuid) : Option Nat :=
  (w.state sid).map SessionState.lastActivityAt

section
variable {H : Host} {messageId : Uuid} {m : MessageWorld}

/-- A message updates its session after `text_done`, and only there. -/
theorem messageStep_lastActivityAt {pc : MessagePc} {ev : MessageEvent} {out : MessageWorld × MessagePc}
    (h : messageStep H messageId m pc ev = some out) :
    out.1.session.lastActivityAt = (responds ev pc).getD m.session.lastActivityAt := by
  rcases messageStep_session h with ⟨hnone, hsession⟩ | ⟨sent, userText, finalText, a, rfl, rfl, hsession⟩
  · rw [hnone, hsession]
    rfl
  · rw [hsession]
    rfl

end

section
variable {H : Host} {w w' : ServiceWorld} {t t' : ServiceTask} {e : ServiceEvent} {i now : Nat} {a : Activity}

/-- A step of a request as far as activity is concerned: nobody is active, or one session is. -/
inductive ActivityChange (w w' : ServiceWorld) (now : Nat) (a a' : Activity) : Prop
  | same (activity : w'.lastActivity = w.lastActivity) (active : a'.active = a.active)
  | active (sid : Uuid) (activity : w'.lastActivity = Function.update w.lastActivity sid (some now))
      (active : a'.active = a.active ++ [(sid, now)])

theorem lastActivity_of_state (h : w'.state = w.state) : w'.lastActivity = w.lastActivity := by
  have hcomp : w'.lastActivity = Option.map SessionState.lastActivityAt ∘ w'.state := rfl
  rw [hcomp, h]
  rfl

theorem lastActivity_update {sid : Uuid} {s : SessionState} (h : w'.state = Function.update w.state sid (some s)) :
    w'.lastActivity = Function.update w.lastActivity sid (some s.lastActivityAt) := by
  have hcomp : w'.lastActivity = Option.map SessionState.lastActivityAt ∘ w'.state := rfl
  rw [hcomp, h, Function.comp_update]
  rfl

/-- A step of a message, at the time that the code reads. -/
theorem activity_message {sid messageId : Uuid} {pc pc' : MessagePc} {ev : MessageEvent} {unlinked : Bool}
    {s : Session} {m : MessageWorld} (hs : w.sessions sid = some s)
    (hm : messageStep H messageId (w.messageWorld s) pc ev = some (m, pc'))
    (hnow : ∀ n ∈ readsClock (.run i (.message (.message ev unlinked))), n = now)
    (hw : w'.state = Function.update w.state sid (some m.session)) :
    ActivityChange w w' now a
      (a.after w now (.message sid messageId (.inside pc)) (.message (.message ev unlinked))) := by
  have hlast := messageStep_lastActivityAt hm
  have hupdate := lastActivity_update hw
  cases hr : responds ev pc with
  | none =>
    refine .same ?_ (by rw [Activity.after, hr]; rfl)
    rw [hupdate, show m.session.lastActivityAt = s.state.lastActivityAt by rw [hlast, hr]; rfl]
    refine Function.update_eq_self_iff.mpr ?_
    rw [ServiceWorld.lastActivity, state_of_sessions hs]
    rfl
  | some n =>
    have hn : n = now := by
      unfold responds at hr
      split at hr
      · cases hr
        exact hnow _ rfl
      · cases hr
    subst hn
    refine .active sid ?_ (by rw [Activity.after, hr]; rfl)
    rw [hupdate, hlast, hr]
    rfl

theorem RequestStep.activity (h : RequestStep H w i t e (w', t'))
    (hnow : ∀ n ∈ readsClock (.run i e), n = now) : ActivityChange w w' now a (a.after w now t e) := by
  cases h with
  | start hs =>
    cases hs with
    | created hnew =>
      cases hnow _ rfl
      exact .active _ (lastActivity_update state_create) rfl
    | _ => exact .same rfl rfl
  | message hs =>
    cases hs with
    | message hs hm => exact activity_message hs hm hnow (state_onMessage hs)
    | messageLeft hs hm => exact activity_message hs hm hnow (state_leaveMessage.trans (state_onMessage hs))
    | pull => exact .same (lastActivity_of_state state_enterLock) rfl
    | cancelLocking => exact .same (lastActivity_of_state state_leaveMessage) rfl
    | full hf | reserve hf | admitFailed hf =>
      refine .same rfl ?_
      rw [Activity.after]
      split <;> rfl
    | _ => exact .same rfl rfl
  | ending hs =>
    cases hs.change (H := H) with
    | same _ state | removed _ _ _ state => exact .same (lastActivity_of_state state) rfl
  | persona => exact .same rfl rfl

end

/-! ## The invariant -/

/-- Stored sessions exist, and `last_activity_at` is the last time at which a session was active. -/
structure ActivityTracked (w : ServiceWorld) (a : Activity) : Prop where
  stored : ∀ sid ∈ w.stored, (w.state sid).isSome = true
  clock : ∀ c ∈ a.active, c.2 ≤ a.clock
  known : ∀ c ∈ a.active, (w.lastActivity c.1).isSome = true
  latest : ∀ sid n, w.lastActivity sid = some n →
    (sid, n) ∈ a.active ∧ ∀ c ∈ a.active, c.1 = sid → c.2 ≤ n

section
variable {H : Host} {w w' : ServiceWorld} {a a' : Activity} {now : Nat}
  {x y : Extended (Pool ServiceWorld ServiceTask) Activity}

theorem ActivityTracked.change (h : ActivityTracked w a) (hc : ActivityChange w w' now a a')
    (hstored : ∀ sid ∈ w'.stored, (w'.state sid).isSome = true) (hclock : a.clock ≤ now) :
    ActivityTracked w' { a' with clock := now } := by
  obtain ⟨-, hold, hknown, hlatest⟩ := h
  cases hc with
  | same activity active =>
    refine ⟨hstored, fun c hc => ?_, fun c hc => ?_, fun sid n hn => ?_⟩
    · rw [active] at hc
      exact (hold c hc).trans hclock
    · rw [active] at hc
      rw [activity]
      exact hknown c hc
    · rw [activity] at hn
      rw [active]
      exact hlatest sid n hn
  | active sid₀ activity active =>
    have hmem : ∀ c, c ∈ a'.active ↔ c ∈ a.active ∨ c = (sid₀, now) := fun c => by
      rw [active, List.mem_append, List.mem_singleton]
    refine ⟨hstored, fun c hc => ?_, fun c hc => ?_, fun sid n hn => ?_⟩
    · rcases (hmem c).mp hc with hc | rfl
      · exact (hold c hc).trans hclock
      · exact Nat.le_refl _
    · rw [activity]
      by_cases hsid : c.1 = sid₀
      · rw [hsid, Function.update_self]
        rfl
      · rw [Function.update_of_ne hsid]
        rcases (hmem c).mp hc with hc | rfl
        · exact hknown c hc
        · exact absurd rfl hsid
    · rw [activity] at hn
      by_cases hsid : sid = sid₀
      · subst hsid
        rw [Function.update_self] at hn
        cases hn
        refine ⟨(hmem _).mpr (.inr rfl), fun c hc _ => ?_⟩
        rcases (hmem c).mp hc with hc | rfl
        · exact (hold c hc).trans hclock
        · exact Nat.le_refl _
      · rw [Function.update_of_ne hsid] at hn
        obtain ⟨hn, hle⟩ := hlatest sid n hn
        refine ⟨(hmem _).mpr (.inl hn), fun c hc hcsid => ?_⟩
        rcases (hmem c).mp hc with hc | rfl
        · exact hle c hc hcsid
        · exact absurd hcsid.symm hsid

/-- The stored sessions exist. -/
theorem ServiceChange.stored {t : ServiceTask} {e : ServiceEvent} (h : ServiceChange H w t e w')
    (hstored : ∀ sid ∈ w.stored, (w.state sid).isSome = true) :
    ∀ sid ∈ w'.stored, (w'.state sid).isSome = true := by
  have kept : ∀ sid, sid ∈ w.stored → (w'.state sid).isSome = true := by
    intro sid hsid
    obtain ⟨s, hs⟩ := Option.isSome_iff_exists.mp (hstored sid hsid)
    obtain ⟨s', hs', -⟩ := h.sessionsKept sid s hs
    rw [hs']
    rfl
  intro sid hsid
  cases h with
  | same _ _ stored => exact kept sid (stored hsid)
  | created =>
    rcases List.mem_append.mp hsid with hsid | hsid
    · exact kept sid hsid
    · cases List.mem_singleton.mp hsid
      rw [state_create, Function.update_self]
      rfl
  | spoke _ _ _ _ stored => exact kept sid (stored ▸ hsid)
  | removed _ _ _ _ stored => exact kept sid (stored ▸ hsid)
  | persona => exact kept sid hsid

/-- The record of a step in time. -/
theorem activity_record {p : Pool ServiceWorld ServiceTask} {e : TimedEvent} {r : Activity}
    (h : activity.record p a e = some r) : a.clock ≤ e.now ∧ (∀ n ∈ readsClock e.event, n = e.now) ∧
      r = { (match e.event with
        | .run i ev => (p.tasks[i]?).elim a fun t => a.after p.world e.now t ev
        | _ => a) with clock := e.now } := by
  change (if _ then _ else none) = some r at h
  split at h
  · rename_i hnow
    cases h
    exact ⟨hnow.1, hnow.2, rfl⟩
  · cases h

/-- Every step keeps the invariant. -/
theorem ActivityTracked.next {e : TimedEvent} (h : ActivityTracked x.state.world x.record)
    (hstep : (timedSystem H).step x e = some y) : ActivityTracked y.state.world y.record := by
  refine System.extend_cases (motive := fun y => ActivityTracked y.state.world y.record) hstep ?_
    fun r he => (by cases he)
  intro e' q r he hs hr
  cases he
  obtain ⟨hclock, hnow, rfl⟩ := activity_record hr
  obtain ⟨now, event⟩ := e
  refine Coop.next_cases (motive := fun q => ActivityTracked q.world _) hs ?_ ?_ ?_
  · rintro t rfl -
    exact h.change (.same rfl rfl) h.stored hclock
  · rintro i ev t w' t' rfl hi hstep
    obtain ⟨w₁, gpu, ditto, hreq, -, rfl⟩ := serviceStep_inv hstep
    dsimp only
    rw [hi]
    have hchange : ActivityChange x.state.world { w₁ with gpu := gpu, ditto := ditto } now x.record
        (x.record.after x.state.world now t ev) := by
      cases hreq.activity hnow with
      | same activity active => exact .same activity active
      | active sid activity active => exact .active sid activity active
    exact h.change hchange (hreq.change.stored h.stored) hclock
  · rintro env w' rfl hx
    cases env with
    | sweep t =>
      cases hx
      exact h.change (.same rfl rfl) (fun sid hsid => h.stored sid (List.mem_of_mem_filter hsid)) hclock
    | orphan id k act =>
      obtain ⟨p', -, rfl⟩ := Option.map_eq_some_iff.mp hx
      exact h.change (.same rfl rfl) h.stored hclock

end

/-- A sweep keeps the sessions that were active within the time to live. -/
theorem mem_sweepOnce {w : ServiceWorld} {sid : Uuid} {now : Nat} (hsid : sid ∈ w.stored) :
    sid ∈ (w.sweepOnce now).stored ↔
      ∀ n, w.lastActivity sid = some n → now ≤ n + ServiceWorld.ttlSeconds := by
  rw [ServiceWorld.sweepOnce, List.mem_filter, ServiceWorld.lastActivity, ServiceWorld.state]
  cases w.sessions sid with
  | none => simp [hsid]
  | some s => simp [hsid]

/-! ## Main results -/

/-- In every state that any run of the service reaches, with a clock that does not go back: a sweep removes no
session that is in use if and only if every stored session that is in use was created, or a message of it
went on after its `text_done`, within the time to live. -/
theorem hitsIdle_iff_activeInTime (H : Host) (x y : Extended (Pool ServiceWorld ServiceTask) Activity) (now : Nat)
    (h : (timedSystem H).Reach anyStep x)
    (hsweep : (timedSystem H).step x ⟨now, .env (.sweep now)⟩ = some y) :
    HitsIdle x y now ↔ ActiveInTime x now := by
  have hinv : ActivityTracked x.state.world x.record := by
    refine h.inv (I := fun x => ActivityTracked x.state.world x.record) (fun x hx => ?_)
      fun x e y hI _ hs => hI.next hs
    obtain ⟨⟨hfresh, -⟩, hstart⟩ := hx
    rw [hstart]
    refine ⟨fun sid hsid => ?_, fun c hc => (by cases hc), fun c hc => (by cases hc), fun sid n hn => ?_⟩
    · rw [hfresh.stored] at hsid
      cases hsid
    · rw [ServiceWorld.lastActivity, ServiceWorld.state, hfresh.sessions] at hn
      cases hn
  have hy : y.state.world = x.state.world.sweepOnce now := by
    refine System.extend_cases (motive := fun y => y.state.world = x.state.world.sweepOnce now) hsweep ?_
      fun r he => (by cases he)
    intro e q r he hs _
    cases he
    cases hs
    rfl
  rw [HitsIdle, hy]
  constructor
  · intro hidle sid hsid huse
    have hkept : sid ∈ (x.state.world.sweepOnce now).stored := by
      by_contra hgone
      exact hidle sid hsid hgone huse
    obtain ⟨s, hs⟩ := Option.isSome_iff_exists.mp (hinv.stored sid hsid)
    have hlast : x.state.world.lastActivity sid = some s.lastActivityAt := by
      rw [ServiceWorld.lastActivity, hs]
      rfl
    exact ⟨_, (hinv.latest sid _ hlast).1, rfl, (mem_sweepOnce hsid).mp hkept _ hlast⟩
  · intro hactive sid hsid hgone huse
    obtain ⟨c, hc, rfl, hin⟩ := hactive sid hsid huse
    refine hgone ((mem_sweepOnce hsid).mpr fun n hn => ?_)
    have hle := (hinv.latest c.1 n hn).2 c hc rfl
    omega

/-- The events at the time `now`. -/
def atTime (now : Nat) (es : List (Event ServiceTask ServiceEvent ServiceEnv)) : List TimedEvent :=
  es.map fun e => ⟨now, e⟩

/-- A session is created at 100, and a message of it is admitted at `now` and begins. -/
def messageAt (now : Nat) : List TimedEvent :=
  atTime 100 (startSession 0 1 5) ++ atTime now (postMessage 1 5 9 ++ sayMessage 1 [])

/-- The theorem at a sweep: a session that is in use and was created in time. -/
theorem hitsIdle_iff_activeInTime_run : ∃ x y, (timedSystem sampleHost).Reach anyStep x ∧
    (timedSystem sampleHost).step x ⟨1900, .env (.sweep 1900)⟩ = some y ∧ InUse x 5 1900 ∧
      HitsIdle x y 1900 := by
  have h : ((timedSystem sampleHost).exec anyStep ⟨⟨sampleService, []⟩, ⟨0, [], []⟩⟩ (messageAt 1800)).any
      (fun x => ((timedSystem sampleHost).step x ⟨1900, .env (.sweep 1900)⟩).isSome = true ∧ InUse x 5 1900 ∧
        ActiveInTime x 1900) = true := by
    decide +kernel
  obtain ⟨x, hsteps, hx⟩ := System.exists_of_exec h
  obtain ⟨hsome, huse, hactive⟩ := of_decide_eq_true hx
  obtain ⟨y, hy⟩ := Option.isSome_iff_exists.mp hsome
  have hreach : (timedSystem sampleHost).Reach anyStep x := ⟨_, ⟨⟨sampleService_fresh, rfl⟩, rfl⟩, hsteps⟩
  exact ⟨x, y, hreach, hy, huse, (hitsIdle_iff_activeInTime _ x y _ hreach hy).mpr hactive⟩

/-- A sweep removes the session of a message in progress. -/
theorem message_outlives_session : ∃ x y, (timedSystem sampleHost).Reach anyStep x ∧
    (timedSystem sampleHost).step x ⟨1901, .env (.sweep 1901)⟩ = some y ∧ ¬ HitsIdle x y 1901 := by
  have h : ((timedSystem sampleHost).exec anyStep ⟨⟨sampleService, []⟩, ⟨0, [], []⟩⟩ (messageAt 1800)).any
      (fun x => ((timedSystem sampleHost).step x ⟨1901, .env (.sweep 1901)⟩).any (fun y =>
        5 ∈ x.state.world.stored ∧ 5 ∉ y.state.world.stored ∧ InUse x 5 1901) = true) = true := by
    decide +kernel
  obtain ⟨x, hsteps, hx⟩ := System.exists_of_exec h
  obtain ⟨y, hy, hgone⟩ := (Option.any_eq_true _ _).mp (of_decide_eq_true hx)
  obtain ⟨hsid, hnot, huse⟩ := of_decide_eq_true hgone
  exact ⟨x, y, ⟨_, ⟨⟨sampleService_fresh, rfl⟩, rfl⟩, hsteps⟩, hy, fun hidle => hidle 5 hsid hnot huse⟩

end YeounEngine
