import YeounEngine.Lib.Coop

/-!
# Semaphores and first-come locks of cooperative tasks

A semaphore is its number of free permits. Which tasks hold one can be read off their states, so a
step of a task is charged by what it held before and holds after (`Semaphore.pass`), and the
permits and the holders together stay constant (`Semaphore.total_set`).

A lock is the queue of the tasks that asked for it, in the order of asking (`FifoLock`); the first
one may hold it. A task that leaves the queue, from the front or from the middle, does not change
whose turn it is for the one in front.
-/

/-! ## Semaphores -/

namespace Semaphore

/-- A step of a task that held a permit or not before and after: it takes a free one, or gives it
back. -/
def pass (held holds : Bool) (permits : Nat) : Option Nat :=
  match held, holds with
  | false, true => if 0 < permits then some (permits - 1) else none
  | true, false => some (permits + 1)
  | true, true | false, false => some permits

section
variable {held holds : Bool} {n m : Nat}

theorem pass_add (h : pass held holds n = some m) : m + holds.toNat = n + held.toNat := by
  cases held <;> cases holds <;> simp only [pass] at h
  · cases h; rfl
  · split at h
    · cases h
      simp only [Bool.toNat_true, Bool.toNat_false]
      omega
    · cases h
  · cases h; rfl
  · cases h; rfl

/-- A permit that is taken was free. -/
theorem pass_free (h : pass false true n = some m) : 0 < n := by
  simp only [pass] at h
  split at h
  · assumption
  · cases h

variable {T : Type*} {f : T → Bool}

/-- A step keeps the sum of the free permits and the holders. -/
theorem total_set {ts : List T} {i : Nat} {t t' : T} (hi : ts[i]? = some t)
    (h : pass (f t) (f t') n = some m) :
    m + Pool.total (fun t => (f t).toNat) (ts.set i t') =
      n + Pool.total (fun t => (f t).toNat) ts := by
  have hset := Pool.total_set (f := fun t => (f t).toNat) t' hi
  have hpass := pass_add h
  omega

end

end Semaphore

/-! ## Locks -/

/-- The tasks that wait for the lock, by index, in the order in which they asked. -/
structure FifoLock where
  queue : List Nat
  deriving DecidableEq

namespace FifoLock

/-- No task has asked. -/
def free : FifoLock := ⟨[]⟩

/-- A task asks for the lock. -/
def enter (l : FifoLock) (i : Nat) : FifoLock := ⟨l.queue ++ [i]⟩

/-- It is the turn of the task. -/
def turn (l : FifoLock) (i : Nat) : Bool := l.queue.head? = some i

/-- A task releases the lock, or no longer waits for it. -/
def leave (l : FifoLock) (i : Nat) : FifoLock := ⟨l.queue.erase i⟩

section
variable {l : FifoLock} {i j : Nat}

theorem turn_iff : l.turn i = true ↔ l.queue.head? = some i := by
  rw [turn, decide_eq_true_eq]

/-- It is the turn of one task only. -/
theorem turn_unique (hi : l.turn i = true) (hj : l.turn j = true) : i = j := by
  rw [turn_iff] at hi hj
  rw [hi] at hj
  exact Option.some.inj hj

/-- A task that asks comes after the one whose turn it is. -/
theorem turn_enter (h : l.turn i = true) : (l.enter j).turn i = true := by
  rw [turn_iff] at h ⊢
  rw [enter, List.head?_append, h]
  rfl

/-- A task that leaves does not take the turn from another one. -/
theorem turn_leave (h : l.turn i = true) (hne : j ≠ i) : (l.leave j).turn i = true := by
  rw [turn_iff] at h ⊢
  obtain ⟨rest, hq⟩ := List.head?_eq_some_iff.mp h
  rw [leave, hq, List.erase_cons_tail (by simpa using Ne.symm hne)]
  rfl

end

end FifoLock
