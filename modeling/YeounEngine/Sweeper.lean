import YeounEngine.Expiry
import YeounEngine.Lib.Leases

/-!
# The sweeper

What is in the session store, by what has happened: a session is stored if and only if it has been created, no `/end`
has taken it out, and each `_sweep_once` since then found it active within the time to live (`stored_iff_lives`). The
store is a table of leases (`ServiceWorld.leases`), and every step of the service does to it what the entry says that
the step adds to the ledger (`RequestStep.leases`).

`_sweep_loop` sleeps for `_DEFAULT_SWEEP_INTERVAL`, sweeps and sleeps again. If the event loop wakes it at most `late`
seconds after its time, no session is in the store that has not been active for longer than the time to live, the
interval and `late` together: the ledger has a creation or a renewal of it within that time (`stored_recent`).
-/

namespace YeounEngine

open Transition

/-! ## The ledger -/

/-- `_DEFAULT_SWEEP_INTERVAL`. -/
def sweepInterval : Nat := 60

/-- What has happened to the sessions, the clock, and since when `_sweep_loop` sleeps. -/
structure Ledger where
  clock : Nat
  slept : Nat
  entries : List (Lease.Entry Uuid)

/-- What a step of a request adds. -/
def ledgerEntry (w : ServiceWorld) (now : Nat) : ServiceTask → ServiceEvent → Option (Lease.Entry Uuid)
  | .start _ _ .reading, .start (.created sid _ _) => some (.granted sid now)
  | .message sid _ (.inside pc), .message (.message ev _) => (responds ev pc).map fun _ => .renewed sid now
  | .ending sid .locking, .ending .granted => (w.get sid).map fun _ => .ended sid
  | _, _ => none

/-- What a step of the service adds. -/
def poolEntry (p : Pool ServiceWorld ServiceTask) (now : Nat) :
    Event ServiceTask ServiceEvent ServiceEnv → Option (Lease.Entry Uuid)
  | .run i ev => (p.tasks[i]?).bind fun t => ledgerEntry p.world now t ev
  | .env (.sweep _) => some (.swept now)
  | _ => none

/-- The event is a sweep. -/
def TimedEvent.isSweep (e : TimedEvent) : Bool :=
  match e.event with
  | .env (.sweep _) => true
  | _ => false

/-- The ledger, as a record beside the service that begins at `opened`. The clock does not go back, and `time.time()`
reads it. -/
def ledger (opened : Nat) : Auxiliary (Pool ServiceWorld ServiceTask) (Event ServiceTask ServiceEvent ServiceEnv)
    TimedEvent Ledger where
  start := ⟨opened, opened, []⟩
  event e := some e.event
  record p l e :=
    if l.clock ≤ e.now ∧ ∀ t ∈ readsClock e.event, t = e.now then
      some ⟨e.now, if e.isSweep then e.now else l.slept, l.entries ++ (poolEntry p e.now e.event).toList⟩
    else none

/-- The service with its ledger. -/
def ledgerSystem (H : Host) (opened : Nat) : System (Extended (Pool ServiceWorld ServiceTask) Ledger) TimedEvent :=
  (serviceSystem H (fun _ => true) ServiceWorld.Fresh).extend (ledger opened)

/-- `_sweep_loop` sleeps for the interval, and is woken at most `late` seconds after. -/
def Punctual (late : Nat) (x : Extended (Pool ServiceWorld ServiceTask) Ledger) (e : TimedEvent) : Prop :=
  e.now ≤ x.record.slept + sweepInterval + late ∧ (e.isSweep = true → x.record.slept + sweepInterval ≤ e.now)

instance (late : Nat) (x : Extended (Pool ServiceWorld ServiceTask) Ledger) (e : TimedEvent) :
    Decidable (Punctual late x e) := inferInstanceAs (Decidable (_ ∧ _))

/-! ## The store as a table of leases -/

/-- The stored sessions, with `last_activity_at`. -/
def ServiceWorld.leases (w : ServiceWorld) : Lease.Table Uuid := fun sid =>
  if sid ∈ w.stored then w.lastActivity sid else none

section
variable {H : Host} {w w' : ServiceWorld} {t t' : ServiceTask} {e : ServiceEvent} {i now : Nat} {sid : Uuid}

theorem leases_apply : w.leases sid = if sid ∈ w.stored then w.lastActivity sid else none := rfl

theorem leases_of_eq (hstored : w'.stored = w.stored) (hlast : w'.lastActivity = w.lastActivity) :
    w'.leases = w.leases := by
  funext sid
  rw [leases_apply, leases_apply, hstored, hlast]

theorem leases_enterLock : (w.enterLock sid i).leases = w.leases :=
  leases_of_eq rfl (lastActivity_of_state state_enterLock)

theorem leases_leaveLock : (w.leaveLock sid i).leases = w.leases :=
  leases_of_eq rfl (lastActivity_of_state state_leaveLock)

theorem leases_create {s : SessionState} :
    (w.create s).leases = Function.update w.leases s.sessionId (some s.lastActivityAt) := by
  have hstored : (w.create s).stored = w.stored ++ [s.sessionId] := rfl
  funext sid
  rw [leases_apply, hstored, lastActivity_update state_create]
  by_cases hsid : sid = s.sessionId
  · subst hsid
    simp
  · simp [hsid, leases_apply]

theorem leases_pop : (w.pop sid).leases = Function.update w.leases sid none := by
  have hstored : (w.pop sid).stored = w.stored.filter (· ≠ sid) := rfl
  have hlast : (w.pop sid).lastActivity = w.lastActivity := rfl
  funext sid'
  rw [leases_apply, hstored, hlast]
  by_cases hsid : sid' = sid
  · subst hsid
    simp
  · simp [hsid, leases_apply]

/-- `last_activity_at` is set to the time, which is no earlier. -/
theorem leases_renew (hold : ∀ n, w.lastActivity sid = some n → n ≤ now) (hsid : (w.lastActivity sid).isSome = true)
    (hstored : w'.stored = w.stored) (hlast : w'.lastActivity = Function.update w.lastActivity sid (some now)) :
    w'.leases = Function.update w.leases sid ((w.leases sid).map (max now)) := by
  obtain ⟨n, hn⟩ := Option.isSome_iff_exists.mp hsid
  have hle := hold n hn
  funext sid'
  rw [leases_apply, leases_apply, hstored, hlast, hn]
  by_cases hne : sid' = sid
  · subst hne
    rw [Function.update_self, Function.update_self]
    split
    · rw [Option.map_some, Nat.max_eq_left hle]
    · rfl
  · rw [Function.update_of_ne hne, Function.update_of_ne hne, leases_apply]

theorem leases_sweepOnce : (w.sweepOnce now).leases = w.leases.apply ServiceWorld.ttlSeconds (.swept now) := by
  have hlast : (w.sweepOnce now).lastActivity = w.lastActivity := rfl
  funext sid
  simp only [Lease.Table.apply, leases_apply, hlast]
  by_cases hsid : sid ∈ w.stored
  · rw [if_pos hsid]
    cases hn : w.lastActivity sid with
    | none => simp
    | some n => simp [mem_sweepOnce hsid, hn, Option.filter]
  · have hgone : sid ∉ (w.sweepOnce now).stored := fun h => hsid (List.mem_of_mem_filter h)
    rw [if_neg hsid, if_neg hgone]
    rfl

/-! ## One step -/

/-- A step of a message. -/
theorem leases_message {messageId : Uuid} {pc pc' : MessagePc} {ev : MessageEvent} {unlinked : Bool} {s : Session}
    {m : MessageWorld} (hold : ∀ sid n, w.lastActivity sid = some n → n ≤ now) (hs : w.sessions sid = some s)
    (hm : messageStep H messageId (w.messageWorld s) pc ev = some (m, pc'))
    (hnow : ∀ n ∈ readsClock (.run i (.message (.message ev unlinked))), n = now) (hstored : w'.stored = w.stored)
    (hw : w'.state = Function.update w.state sid (some m.session)) :
    w'.leases = ((responds ev pc).map fun _ => Lease.Entry.renewed sid now).elim w.leases
      (w.leases.apply ServiceWorld.ttlSeconds) := by
  have hlast := messageStep_lastActivityAt hm
  have hupdate := lastActivity_update hw
  have hold' : w.lastActivity sid = some s.state.lastActivityAt := by
    rw [ServiceWorld.lastActivity, state_of_sessions hs]
    rfl
  cases hr : responds ev pc with
  | none =>
    refine leases_of_eq hstored (hupdate.trans ?_)
    rw [hlast, hr]
    exact Function.update_eq_self_iff.mpr hold'.symm
  | some n =>
    have hn : n = now := by
      unfold responds at hr
      split at hr
      · cases hr
        exact hnow _ rfl
      · cases hr
    subst hn
    refine leases_renew (fun n' hn' => hold sid n' hn') (by rw [hold']; rfl) hstored ?_
    rw [hupdate, hlast, hr]
    rfl

/-- Every step of a request does to the store what the ledger says. -/
theorem RequestStep.leases (h : RequestStep H w i t e (w', t'))
    (hold : ∀ sid n, w.lastActivity sid = some n → n ≤ now) (hnow : ∀ n ∈ readsClock (.run i e), n = now) :
    w'.leases = (ledgerEntry w now t e).elim w.leases (w.leases.apply ServiceWorld.ttlSeconds) := by
  cases h with
  | start hs =>
    cases hs with
    | created =>
      cases hnow _ rfl
      exact leases_create
    | _ => rfl
  | message hs =>
    cases hs with
    | message hs hm => exact leases_message hold hs hm hnow rfl (state_onMessage hs)
    | messageLeft hs hm =>
      exact leases_message hold hs hm hnow rfl (state_leaveMessage.trans (state_onMessage hs))
    | pull => exact leases_enterLock
    | cancelLocking => exact leases_of_eq rfl (lastActivity_of_state state_leaveMessage)
    | _ => rfl
  | ending hs =>
    cases hs with
    | popped _ hs =>
      rw [ledgerEntry, hs]
      exact leases_pop
    | poppedEmpty _ hs =>
      rw [ledgerEntry, hs]
      exact leases_leaveLock.trans leases_pop
    | gone _ hs =>
      rw [ledgerEntry, hs]
      exact leases_leaveLock
    | known => exact leases_enterLock
    | removed | removeFailed | cancelLocking => exact leases_leaveLock
    | cancelRemoving => exact leases_leaveLock (w := w.onSessionPersona _ _)
    | unknown | remove | apply => rfl
  | persona => rfl

end

/-! ## The invariant -/

/-- The ledger tells what is stored, and no stored session was too old for the last sweep. -/
structure LedgerTracked (w : ServiceWorld) (l : Ledger) : Prop where
  stored : ∀ sid ∈ w.stored, (w.state sid).isSome = true
  known : ∀ sid n, w.lastActivity sid = some n → n ≤ l.clock
  slept : l.slept ≤ l.clock
  leases : Lease.replay ServiceWorld.ttlSeconds l.entries = w.leases
  swept : w.leases.SweptAt ServiceWorld.ttlSeconds l.slept

section
variable {H : Host} {w w' : ServiceWorld} {l : Ledger} {now : Nat} {entry : Option (Lease.Entry Uuid)}
  {x y : Extended (Pool ServiceWorld ServiceTask) Ledger} {opened : Nat}

/-- A step that is no sweep. -/
theorem LedgerTracked.change (h : LedgerTracked w l) (hclock : l.clock ≤ now)
    (hstored : ∀ sid ∈ w'.stored, (w'.state sid).isSome = true)
    (hknown : ∀ sid n, w'.lastActivity sid = some n → n ≤ now)
    (hgranted : ∀ sid t, entry = some (.granted sid t) → t = now)
    (hleases : w'.leases = entry.elim w.leases (w.leases.apply ServiceWorld.ttlSeconds)) :
    LedgerTracked w' ⟨now, l.slept, l.entries ++ entry.toList⟩ where
  stored := hstored
  known := hknown
  slept := h.slept.trans hclock
  leases := by
    cases entry with
    | none => simpa [hleases] using h.leases
    | some e => rw [Option.toList_some, Lease.replay_concat, h.leases, hleases, Option.elim_some]
  swept := by
    rw [hleases]
    cases entry with
    | none => exact h.swept
    | some e =>
      refine h.swept.apply fun sid t he => ?_
      rw [hgranted sid t (congrArg some he)]
      exact h.slept.trans hclock

/-- The record of a step. -/
theorem ledger_record {p : Pool ServiceWorld ServiceTask} {e : TimedEvent} {r : Ledger}
    (h : (ledger opened).record p l e = some r) : l.clock ≤ e.now ∧ (∀ n ∈ readsClock e.event, n = e.now) ∧
      r = ⟨e.now, if e.isSweep then e.now else l.slept, l.entries ++ (poolEntry p e.now e.event).toList⟩ := by
  change (if _ then _ else none) = some r at h
  split at h
  · rename_i hnow
    cases h
    exact ⟨hnow.1, hnow.2, rfl⟩
  · cases h

theorem ledgerEntry_granted {t : ServiceTask} {e : ServiceEvent} {sid : Uuid} {n : Nat}
    (h : ledgerEntry w now t e = some (.granted sid n)) : n = now := by
  unfold ledgerEntry at h
  split at h
  · cases h
    rfl
  · obtain ⟨_, -, h⟩ := Option.map_eq_some_iff.mp h
    cases h
  · obtain ⟨_, -, h⟩ := Option.map_eq_some_iff.mp h
    cases h
  · cases h

/-- No request is active later than now. -/
theorem ActivityChange.known {a a' : Activity} (h : ActivityChange w w' now a a')
    (hold : ∀ sid n, w.lastActivity sid = some n → n ≤ now) :
    ∀ sid n, w'.lastActivity sid = some n → n ≤ now := by
  intro sid n hn
  cases h with
  | same activity _ =>
    rw [activity] at hn
    exact hold sid n hn
  | active sid' activity _ =>
    rw [activity, Function.update_apply] at hn
    split at hn
    · cases hn
      exact Nat.le_refl _
    · exact hold sid n hn

/-- Every step keeps the invariant. -/
theorem LedgerTracked.next {e : TimedEvent} (h : LedgerTracked x.state.world x.record)
    (hstep : (ledgerSystem H opened).step x e = some y) : LedgerTracked y.state.world y.record := by
  refine System.extend_cases (motive := fun y => LedgerTracked y.state.world y.record) hstep ?_
    fun r he => (by cases he)
  intro e' q r he hs hr
  cases he
  obtain ⟨hclock, hnow, rfl⟩ := ledger_record hr
  obtain ⟨now, event⟩ := e
  have hold : ∀ sid n, x.state.world.lastActivity sid = some n → n ≤ now :=
    fun sid n hn => (h.known sid n hn).trans hclock
  refine Coop.next_cases (motive := fun q => LedgerTracked q.world _) hs ?_ ?_ ?_
  · rintro t rfl -
    exact h.change hclock h.stored hold (fun _ _ he => (by cases he)) rfl
  · rintro i ev t w' t' rfl hi hstep
    obtain ⟨w₁, gpu, ditto, hreq, -, rfl⟩ := serviceStep_inv hstep
    have hentry : poolEntry x.state now (.run i ev) = ledgerEntry x.state.world now t ev := by
      rw [poolEntry, hi]
      rfl
    rw [hentry]
    have hstored : ∀ sid ∈ w₁.stored, (w₁.state sid).isSome = true := hreq.change.stored h.stored
    have hknown : ∀ sid n, w₁.lastActivity sid = some n → n ≤ now :=
      (hreq.activity (a := ⟨0, [], []⟩) hnow).known hold
    obtain ⟨stored, known, slept, leases, swept⟩ :=
      h.change hclock hstored hknown (fun _ _ he => ledgerEntry_granted he) (hreq.leases hold hnow)
    exact ⟨stored, known, slept, leases, swept⟩
  · rintro env w' rfl hx
    cases env with
    | sweep t =>
      cases hx
      obtain rfl : t = now := hnow t rfl
      refine ⟨fun sid hsid => h.stored sid (List.mem_of_mem_filter hsid), hold, Nat.le_refl _, ?_, ?_⟩
      · rw [leases_sweepOnce, ← h.leases]
        exact Lease.replay_concat
      · rw [leases_sweepOnce]
        exact Lease.sweptAt_swept
    | orphan id k act =>
      obtain ⟨p', -, rfl⟩ := Option.map_eq_some_iff.mp hx
      exact h.change hclock h.stored hold (fun _ _ he => (by cases he)) rfl

/-- Every reachable state. -/
theorem ledgerTracked_of_reach {ok : Extended (Pool ServiceWorld ServiceTask) Ledger → TimedEvent → Prop}
    (h : (ledgerSystem H opened).Reach ok x) : LedgerTracked x.state.world x.record := by
  refine h.inv (I := fun x => LedgerTracked x.state.world x.record) (fun x hx => ?_)
    fun x e y hI _ hs => hI.next hs
  obtain ⟨⟨hfresh, -⟩, hstart⟩ := hx
  have hempty : ∀ sid, x.state.world.leases sid = none := by
    intro sid
    rw [leases_apply, hfresh.stored]
    rfl
  rw [hstart]
  refine ⟨fun sid hsid => ?_, fun sid n hn => ?_, Nat.le_refl _, (funext hempty).symm, fun sid n hn => ?_⟩
  · rw [hfresh.stored] at hsid
    cases hsid
  · rw [ServiceWorld.lastActivity, ServiceWorld.state, hfresh.sessions] at hn
    cases hn
  · rw [hempty] at hn
    cases hn

/-- What is stored has a lease. -/
theorem LedgerTracked.lastActivity {sid : Uuid} (h : LedgerTracked w l) (hsid : sid ∈ w.stored) :
    ∃ n, w.lastActivity sid = some n ∧ w.leases sid = some n := by
  obtain ⟨s, hs⟩ := Option.isSome_iff_exists.mp (h.stored sid hsid)
  have hlast : w.lastActivity sid = some s.lastActivityAt := by
    rw [ServiceWorld.lastActivity, hs]
    rfl
  exact ⟨_, hlast, by rw [leases_apply, if_pos hsid, hlast]⟩

/-- A punctual sweeper has swept lately. -/
theorem clock_le_of_punctual {late : Nat} (h : (ledgerSystem H opened).Reach (Punctual late) x) :
    x.record.clock ≤ x.record.slept + sweepInterval + late := by
  refine h.inv (I := fun x => x.record.clock ≤ x.record.slept + sweepInterval + late) (fun x hx => ?_) ?_
  · rw [hx.2]
    exact (Nat.le_add_right _ _).trans (Nat.le_add_right _ _)
  · intro x e y _ hok hs
    refine System.extend_cases (motive := fun y => y.record.clock ≤ y.record.slept + sweepInterval + late) hs ?_
      fun r he => (by cases he)
    intro e' q r he _ hr
    obtain ⟨-, -, rfl⟩ := ledger_record hr
    dsimp only
    split
    · omega
    · exact hok.1

end

/-! ## Main results -/

/-- In every run of the service, with a clock that does not go back: a session is stored if and only if it has been
created, no `/end` has taken it out since, and each sweep since then came at most the time to live after the creation
or after a message, before the sweep, went on past its `text_done`. -/
theorem stored_iff_lives (H : Host) (opened : Nat) (x : Extended (Pool ServiceWorld ServiceTask) Ledger)
    (h : (ledgerSystem H opened).Reach anyStep x) (sid : Uuid) :
    sid ∈ x.state.world.stored ↔ Lease.Lives ServiceWorld.ttlSeconds sid x.record.entries := by
  have hinv := ledgerTracked_of_reach h
  rw [← Lease.replay_isSome_iff, hinv.leases]
  constructor
  · intro hsid
    obtain ⟨n, -, hn⟩ := hinv.lastActivity hsid
    rw [hn]
    rfl
  · intro hsome
    by_contra hgone
    rw [leases_apply, if_neg hgone] at hsome
    cases hsome

/-- The theorem at a session that nobody has used for too long. -/
theorem stored_iff_lives_run : ∃ x, (ledgerSystem sampleHost 100).Reach anyStep x ∧
    .granted 5 100 ∈ x.record.entries ∧ ¬ Lease.Lives ServiceWorld.ttlSeconds 5 x.record.entries := by
  have h : ((ledgerSystem sampleHost 100).exec anyStep ⟨⟨sampleService, []⟩, ⟨100, 100, []⟩⟩
      (atTime 100 (startSession 0 1 5) ++ [⟨1901, .env (.sweep 1901)⟩])).any (fun x =>
        (x.record.entries.any fun e => match e with | .granted 5 100 => true | _ => false) &&
          !x.state.world.stored.contains 5) = true := by
    decide +kernel
  obtain ⟨x, hsteps, hx⟩ := System.exists_of_exec h
  obtain ⟨hentry, hgone⟩ := (Bool.and_eq_true _ _).mp hx
  have hreach : (ledgerSystem sampleHost 100).Reach anyStep x := ⟨_, ⟨⟨sampleService_fresh, rfl⟩, rfl⟩, hsteps⟩
  refine ⟨x, hreach, ?_, ?_⟩
  · obtain ⟨e, he, hmatch⟩ := List.any_eq_true.mp hentry
    split at hmatch
    · exact he
    · cases hmatch
  · rw [← stored_iff_lives _ _ x hreach]
    simpa using hgone

/-- When `_sweep_loop` is woken at most `late` seconds after its time, every stored session was created, or had a
message that went on past its `text_done`, within the time to live, the interval and `late` together; that is its
`last_activity_at`. -/
theorem stored_recent (H : Host) (opened late : Nat) (x : Extended (Pool ServiceWorld ServiceTask) Ledger)
    (h : (ledgerSystem H opened).Reach (Punctual late) x) (sid : Uuid) (hsid : sid ∈ x.state.world.stored) :
    ∃ n, (.granted sid n ∈ x.record.entries ∨ .renewed sid n ∈ x.record.entries) ∧
      x.state.world.lastActivity sid = some n ∧
      x.record.clock ≤ n + ServiceWorld.ttlSeconds + sweepInterval + late := by
  have hinv := ledgerTracked_of_reach h
  obtain ⟨n, hlast, hn⟩ := hinv.lastActivity hsid
  have hswept := hinv.swept sid n hn
  have hclock := clock_le_of_punctual h
  exact ⟨n, Lease.mem_of_replay (by rw [hinv.leases, hn]), hlast, by omega⟩

/-- The theorem at a session that has just been created and swept past. -/
theorem stored_recent_run : ∃ x n, (ledgerSystem sampleHost 100).Reach (Punctual 5) x ∧
    x.record.slept = 162 ∧ (.granted 5 n ∈ x.record.entries ∨ .renewed 5 n ∈ x.record.entries) ∧
      x.state.world.lastActivity 5 = some n ∧ x.record.clock ≤ n + ServiceWorld.ttlSeconds + sweepInterval + 5 := by
  have h : ((ledgerSystem sampleHost 100).exec (Punctual 5) ⟨⟨sampleService, []⟩, ⟨100, 100, []⟩⟩
      (atTime 100 (startSession 0 1 5) ++ [⟨162, .env (.sweep 162)⟩])).any (fun x =>
        x.record.slept = 162 ∧ 5 ∈ x.state.world.stored) = true := by
    decide +kernel
  obtain ⟨x, hsteps, hx⟩ := System.exists_of_exec h
  obtain ⟨hslept, hsid⟩ := of_decide_eq_true hx
  have hreach : (ledgerSystem sampleHost 100).Reach (Punctual 5) x := ⟨_, ⟨⟨sampleService_fresh, rfl⟩, rfl⟩, hsteps⟩
  obtain ⟨n, hentry, hn, hle⟩ := stored_recent _ _ _ x hreach 5 hsid
  exact ⟨x, n, hreach, hslept, hentry, hn, hle⟩

end YeounEngine
