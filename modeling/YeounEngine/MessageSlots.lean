import YeounEngine.Sessions

/-!
# Slots and temporary files of messages

A `/message` takes a slot in the handler and gives it back in the handler's `except Exception`, or in
the `finally` of the generator. Neither runs when the handler is cancelled, or when the response is
dropped before its generator is first pulled; and the handler's `except` gives the slot back but
leaves the temporary file.

`SlotSafe` is the condition that a message leaves by none of these ways. Under it the counter is the
number of messages with a slot, and nothing is left when none is in flight (`slots_of_slotSafe`);
without it a dropped response keeps its slot and its file (`slot_leaked`).
-/

namespace YeounEngine

open Transition

/-! ## The condition -/

/-- The message has been admitted, and has not terminated. -/
def PostPc.admitted : PostPc → Bool
  | .reading | .closing | .rollback | .responded | .locking | .inside _ | .releasing _ => true
  | _ => false

def ServiceTask.admitted : ServiceTask → Bool
  | .message _ _ pc => pc.admitted
  | _ => false

/-- The message has terminated. -/
def PostPc.terminated : PostPc → Bool
  | .rejected _ | .cancelled | .dropped | .finished _ => true
  | _ => false

/-- No message in flight is here. -/
def ServiceTask.terminated : ServiceTask → Bool
  | .message _ _ pc => pc.terminated
  | _ => true

/-- The message has a temporary file. -/
def PostPc.hasTmp : PostPc → Bool
  | .reading | .closing | .responded | .locking | .inside _ => true
  | _ => false

def ServiceTask.hasTmp : ServiceTask → Bool
  | .message _ _ pc => pc.hasTmp
  | _ => false

/-- The step is none of those that leak: a cancellation in the handler or at the counter, a response that
is dropped before its first pull, an exception in the handler once the file exists, a file that cannot be
removed. -/
def PostPc.safe : PostPc → PostEvent → Bool
  | .reading, .cancel _ | .closing, .cancel _ | .rollback, .cancel _ | .releasing _, .cancel _ => false
  | .responded, .drop => false
  | .admitting, .reserve (some _) tmp => !tmp
  | .reading, .read (some _) | .reading, .fail _ | .closing, .fail _ => false
  | .inside _, .message _ unlinked | .locking, .cancel unlinked => unlinked
  | _, _ => true

def ServiceTask.safe : ServiceTask → ServiceEvent → Bool
  | .message _ _ pc, .message ev => pc.safe ev
  | _, _ => true

/-- No message takes a step that leaks. -/
def SlotSafe (p : Pool ServiceWorld ServiceTask) :
    Event ServiceTask ServiceEvent ServiceEnv → Prop
  | .run i e => ∀ t ∈ p.tasks[i]?, t.safe e = true
  | _ => True

instance (p : Pool ServiceWorld ServiceTask) :
    ∀ e : Event ServiceTask ServiceEvent ServiceEnv, Decidable (SlotSafe p e)
  | .run i e => inferInstanceAs (Decidable (∀ t ∈ p.tasks[i]?, t.safe e = true))
  | .arrive _ | .env _ => inferInstanceAs (Decidable True)

/-! ## One step -/

/-- What a step of request `i` does to the counter and to the files: it pays for the slot that it takes or
gives back, takes one only below the limit, and touches its own file only. -/
structure SlotStep (i : Nat) (w w' : ServiceWorld) (held holds tmp tmp' : Bool) : Prop where
  active : w'.activeMessages + held.toNat = w.activeMessages + holds.toNat
  below : held = false → holds = true → w.activeMessages < maxConcurrentMessages
  others : ∀ j ∈ w'.tmpFiles, j ∈ w.tmpFiles ∨ j = i
  own : (i ∈ w.tmpFiles → tmp = true) → i ∈ w'.tmpFiles → tmp' = true

section
variable {H : Host} {w w' : ServiceWorld} {i : Nat} {sid messageId : Uuid} {t t' : ServiceTask}
  {e : ServiceEvent}

theorem SlotStep.same {held tmp tmp' : Bool} (hactive : w'.activeMessages = w.activeMessages)
    (hfiles : w'.tmpFiles = w.tmpFiles) (htmp : tmp = true → tmp' = true) :
    SlotStep i w w' held held tmp tmp' := by
  refine ⟨by rw [hactive], fun h h' => ?_, fun j hj => .inl (hfiles ▸ hj), fun h hi => htmp (h (hfiles ▸ hi))⟩
  rw [h] at h'
  cases h'

/-- The file of the request is removed. -/
theorem slotStep_unlinkTmp {held tmp tmp' : Bool} (hactive : w'.activeMessages = w.activeMessages)
    (hfiles : w'.tmpFiles = w.tmpFiles.filter (· ≠ i)) : SlotStep i w w' held held tmp tmp' := by
  refine ⟨by rw [hactive], fun h h' => ?_, fun j hj => ?_, fun _ hi => ?_⟩
  · rw [h] at h'
    cases h'
  · rw [hfiles] at hj
    exact .inl (List.mem_of_mem_filter hj)
  · rw [hfiles] at hi
    exact absurd rfl (of_decide_eq_true (List.mem_filter.mp hi).2)

theorem slotStep_freeSlot {pc : PostPc} (hpc : pc.admitted = true) (htmp : pc.hasTmp = false) {tmp' : Bool} :
    SlotStep i w w.freeSlot pc.admitted false pc.hasTmp tmp' := by
  rw [hpc, htmp]
  refine ⟨(Int.sub_add_cancel _ _).trans (Int.add_zero _).symm, fun h => ?_, fun j hj => .inl hj,
    fun h hi => ?_⟩
  · cases h
  · cases h hi

theorem PostStep.slots {pc : PostPc} {ev : PostEvent} {out : ServiceWorld × PostPc}
    (h : PostStep H w i sid messageId pc ev out) (hsafe : pc.safe ev = true) :
    SlotStep i w out.1 pc.admitted out.2.admitted pc.hasTmp out.2.hasTmp := by
  cases h with
  | reserve hf =>
    refine ⟨Int.add_zero _, fun _ _ => Int.not_le.mp hf, fun j hj => ?_, fun _ _ => rfl⟩
    rw [← List.mem_singleton]
    exact List.mem_append.mp hj
  | @admitFailed e tmp hf =>
    rw [PostPc.safe, Bool.not_eq_true'] at hsafe
    subst hsafe
    exact ⟨Int.add_zero _, fun _ _ => Int.not_le.mp hf, fun j hj => .inl hj, fun h hi => h hi⟩
  | rolledBack => exact slotStep_freeSlot rfl rfl
  | released => exact slotStep_freeSlot rfl rfl
  | messageLeft =>
    rw [PostPc.safe] at hsafe
    subst hsafe
    exact slotStep_unlinkTmp rfl rfl
  | @cancelLocking unlinked =>
    rw [PostPc.safe] at hsafe
    subst hsafe
    exact slotStep_unlinkTmp rfl rfl
  | drop | readFailed | readRaised | closeRaised | cancelReading | cancelClosing | cancelRollback
  | cancelReleasing => cases hsafe
  | _ => exact .same rfl rfl id

theorem RequestStep.slots (h : RequestStep H w i t e (w', t')) (hsafe : t.safe e = true) :
    SlotStep i w w' t.admitted t'.admitted t.hasTmp t'.hasTmp := by
  cases h with
  | start hs => cases hs <;> exact .same rfl rfl id
  | message hs => exact hs.slots hsafe
  | ending hs => cases hs <;> exact .same rfl rfl id
  | persona => exact .same rfl rfl id

end

/-! ## The invariant -/

/-- The counter counts the messages with a slot, and every temporary file has its message. -/
structure SlotsHeld (p : Pool ServiceWorld ServiceTask) : Prop where
  active : p.world.activeMessages = Pool.total (fun t => t.admitted.toNat) p.tasks
  bound : p.world.activeMessages ≤ maxConcurrentMessages
  files : ∀ i ∈ p.world.tmpFiles, ∃ t, p.tasks[i]? = some t ∧ t.hasTmp = true

section
variable {H : Host} {admits : ServiceTask → Bool} {p q : Pool ServiceWorld ServiceTask}
  {w' : ServiceWorld} {t t' : ServiceTask} {e : ServiceEvent} {i : Nat}

/-- A step of a request. -/
theorem SlotsHeld.run (h : SlotsHeld p) (hi : p.tasks[i]? = some t)
    (hs : SlotStep i p.world w' t.admitted t'.admitted t.hasTmp t'.hasTmp) :
    SlotsHeld ⟨w', p.tasks.set i t'⟩ := by
  have hset := Pool.total_set (f := fun t => t.admitted.toNat) t' hi
  have hactive := hs.active
  have hold := h.active
  have hbound := h.bound
  refine ⟨?_, ?_, fun j hj => ?_⟩
  · change w'.activeMessages = _
    dsimp only at hset ⊢
    omega
  · change w'.activeMessages ≤ _
    have hbelow := hs.below
    cases hheld : t.admitted <;> cases hholds : t'.admitted <;>
      rw [hheld, hholds] at hactive hbelow <;> simp only [Bool.toNat_true, Bool.toNat_false] at hactive
    · omega
    · have := hbelow rfl rfl
      omega
    · omega
    · omega
  · by_cases hji : j = i
    · subst hji
      refine ⟨t', Pool.getElem?_set_of_some hi, hs.own (fun hmem => ?_) hj⟩
      obtain ⟨u, hu, htmp⟩ := h.files j hmem
      rw [hi] at hu
      cases hu
      exact htmp
    · rcases hs.others j hj with hmem | hmem
      · obtain ⟨u, hu, htmp⟩ := h.files j hmem
        exact ⟨u, (Pool.getElem?_set_of_ne hji).trans hu, htmp⟩
      · exact absurd hmem hji

theorem arriving_not_admitted (h : t.arriving = true) : t.admitted = false := by
  unfold ServiceTask.arriving at h
  split at h <;> first | rfl | cases h

/-- Every step that leaks nothing keeps the invariant. -/
theorem SlotsHeld.next {e : Event ServiceTask ServiceEvent ServiceEnv} (h : SlotsHeld p)
    (hok : SlotSafe p e) (hs : (serviceCoop H admits).next p e = some q) : SlotsHeld q := by
  refine service_next_cases (motive := SlotsHeld) hs ?_ ?_ ?_
  · intro t harr _
    have hfree := arriving_not_admitted harr
    refine ⟨?_, h.bound, fun i hi => ?_⟩
    · rw [Pool.total_append, Pool.total_singleton, hfree]
      exact h.active
    · obtain ⟨u, hu, htmp⟩ := h.files i hi
      exact ⟨u, (List.getElem?_append_left (List.getElem?_eq_some_iff.mp hu).1).trans hu, htmp⟩
  · rintro i ev t w t' rfl hi hstep
    obtain ⟨w₁, gpu, ditto, hreq, -, rfl⟩ := serviceStep_inv hstep
    have hslots := hreq.slots (hok t hi)
    exact h.run hi ⟨hslots.active, hslots.below, hslots.others, hslots.own⟩
  · intro x w hx
    cases x with
    | sweep now => cases hx; exact ⟨h.active, h.bound, h.files⟩
    | orphan id k act =>
      obtain ⟨p', -, rfl⟩ := Option.map_eq_some_iff.mp hx
      exact ⟨h.active, h.bound, h.files⟩

theorem SlotsHeld.initial (h : (serviceSystem H admits ServiceWorld.Fresh).init p) : SlotsHeld p := by
  obtain ⟨hw, htasks⟩ := h
  refine ⟨?_, ?_, fun i hi => ?_⟩
  · rw [hw.activeMessages, htasks]
    rfl
  · rw [hw.activeMessages]
    decide
  · rw [hw.tmpFiles] at hi
    cases hi

theorem not_admitted_of_terminated (h : t.terminated = true) : t.admitted = false ∧ t.hasTmp = false := by
  cases t with
  | message sid messageId pc => cases pc <;> first | exact ⟨rfl, rfl⟩ | cases h
  | _ => exact ⟨rfl, rfl⟩

end

/-! ## Main results -/

/-- In every interleaving of requests in which no message leaks, `_active_messages` is the number of
messages that were admitted and have not terminated, at most `_MAX_CONCURRENT_MESSAGES`; and when no
message is in flight it is 0 and no temporary file is left. -/
theorem slots_of_slotSafe (H : Host) (admits : ServiceTask → Bool) (p : Pool ServiceWorld ServiceTask)
    (h : (serviceSystem H admits ServiceWorld.Fresh).Reach SlotSafe p) :
    p.world.activeMessages = p.tasks.countP ServiceTask.admitted ∧
      0 ≤ p.world.activeMessages ∧ p.world.activeMessages ≤ maxConcurrentMessages ∧
      ((∀ t ∈ p.tasks, t.terminated = true) → p.world.activeMessages = 0 ∧ p.world.tmpFiles = []) := by
  have hinv : SlotsHeld p :=
    h.inv (I := SlotsHeld) (fun _ => .initial) fun _ _ _ hI hok hs => hI.next hok hs
  have hactive := hinv.active
  rw [Pool.total_toNat] at hactive
  refine ⟨hactive, by omega, hinv.bound, fun hover => ⟨?_, ?_⟩⟩
  · have hzero : p.tasks.countP ServiceTask.admitted = 0 := by
      refine List.countP_eq_zero.mpr fun t ht => ?_
      rw [(not_admitted_of_terminated (hover t ht)).1]
      simp
    rw [hactive, hzero]
    rfl
  · refine List.eq_nil_iff_forall_not_mem.mpr fun i hi => ?_
    obtain ⟨t, ht, htmp⟩ := hinv.files i hi
    rw [(not_admitted_of_terminated (hover t (List.mem_of_getElem? ht))).2] at htmp
    cases htmp

/-- The theorem at a run: a message up to its first token, and one that has been admitted. -/
theorem slots_of_slotSafe_run : ∃ p : Pool ServiceWorld ServiceTask,
    (serviceSystem sampleHost (fun _ => true) ServiceWorld.Fresh).Reach SlotSafe p ∧
      p.tasks.length = 3 ∧ p.world.activeMessages = p.tasks.countP ServiceTask.admitted ∧
      0 ≤ p.world.activeMessages ∧ p.world.activeMessages ≤ maxConcurrentMessages ∧
      ((∀ t ∈ p.tasks, t.terminated = true) → p.world.activeMessages = 0 ∧ p.world.tmpFiles = []) := by
  have h : ((serviceSystem sampleHost (fun _ => true) ServiceWorld.Fresh).exec SlotSafe
      ⟨sampleService, []⟩ (startSession 0 1 20 ++ postMessage 1 20 30 ++
        sayMessage 1 [.pull cleanTextDone, .transcribed "안녕", .token "그래"] ++
        postMessage 2 20 31)).any (fun p => p.tasks.length = 3) = true := by
    decide +kernel
  obtain ⟨p, hsteps, hlength⟩ := System.exists_of_exec h
  have hreach : (serviceSystem sampleHost (fun _ => true) ServiceWorld.Fresh).Reach SlotSafe p :=
    ⟨_, ⟨sampleService_fresh, rfl⟩, hsteps⟩
  exact ⟨p, hreach, of_decide_eq_true hlength, slots_of_slotSafe _ _ p hreach⟩

/-- The response is dropped before its generator is pulled: no message is in flight, the slot is still taken,
and the file is still there. -/
theorem slot_leaked : ∃ p : Pool ServiceWorld ServiceTask,
    (serviceSystem sampleHost (fun _ => true) ServiceWorld.Fresh).Reach anyStep p ∧
      (∀ t ∈ p.tasks, t.terminated = true) ∧ p.world.activeMessages = 1 ∧ p.world.tmpFiles = [1] := by
  have h : ((serviceSystem sampleHost (fun _ => true) ServiceWorld.Fresh).exec anyStep
      ⟨sampleService, []⟩ (startSession 0 1 20 ++ [.arrive (.message 20 30 .arrived),
        .run 1 (.message .enter), .run 1 (.message (.reserve none true)),
        .run 1 (.message (.read none)), .run 1 (.message .resume), .run 1 (.message .drop)])).any
      (fun p => (∀ t ∈ p.tasks, t.terminated = true) ∧ p.world.activeMessages = 1 ∧
        p.world.tmpFiles = [1]) = true := by
    decide +kernel
  obtain ⟨p, hsteps, hleaked⟩ := System.exists_of_exec h
  exact ⟨p, ⟨_, ⟨sampleService_fresh, rfl⟩, hsteps⟩, of_decide_eq_true hleaked⟩

end YeounEngine
