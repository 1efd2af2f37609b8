import YeounEngine.Lib.Unwinding
import YeounEngine.PersonaCreation

/-!
# Where PERSONA_DIR is mounted

One host at every value of `PERSONA_DIR` (`Host.mounted`), and the failures that a client is told of in words. The
pipelines raise some exceptions themselves, for a file that is missing, and put the path of the folder
into their texts: such a failure reads different at two mounts (`cut_ne_cut`), whatever the rest of its text.
A step that tells the reason of its failure shows the mount exactly when its failure is one of those, or
its text does (`constant_told_iff`).
-/

namespace YeounEngine

open Transition

/-- The same host with `PERSONA_DIR` at `dir`. -/
def Host.mounted (H : Host) (dir : String) : Host := { H with personaDir := dir }

/-- What follows `PERSONA_DIR` in the path of a folder. -/
def belowMount (id : Uuid) (sub : Folder) : String := "/" ++ id.str ++ "/" ++ sub.path

theorem folderPath_mounted {H : Host} {dir : String} {id : Uuid} {sub : Folder} :
    (H.mounted dir).folderPath id sub = dir ++ belowMount id sub := by
  simp only [Host.folderPath, Host.mounted, belowMount, String.append_assoc]

/-- An exception without its text. -/
def Exc.bare (e : Exc) : Exc := { e with message := "" }

/-! ## Failures -/

/-- Why a step fails, in the words that are shown: a text around a path below `PERSONA_DIR`, cut at `n`
characters, or the text of another exception. -/
inductive Failure
  | path (n : Nat) (label rest : String) (h : label.length < n)
  | text (reason : String)

/-- The reason that is shown when `PERSONA_DIR` is `dir`. -/
def Failure.reason (dir : String) : Failure → String
  | .path n label rest _ => cut n (label ++ (dir ++ rest))
  | .text reason => reason

/-- The failure is not one of those that name a path. -/
def Failure.Hides : Failure → Prop
  | .path .. => False
  | .text _ => True

/-- A failure without its text, unless it names a path. -/
def Failure.bare : Failure → Failure
  | .text _ => .text ""
  | f => f

theorem map_bare_text {reason reason' : String} :
    (some (Failure.text reason)).map Failure.bare = (some (Failure.text reason')).map Failure.bare :=
  rfl

theorem map_bare_none : (none : Option Failure).map Failure.bare = none.map Failure.bare := rfl

/-- A text with a path below two different folders is cut behind the first letter of the folder, so the
two texts differ. -/
theorem cut_ne_cut {n : Nat} {label rest : String} (h : label.length < n) :
    cut n (label ++ ("a" ++ rest)) ≠ cut n (label ++ ("b" ++ rest)) := by
  intro heq
  have hlist : (label ++ ("a" ++ rest)).toList.take n = (label ++ ("b" ++ rest)).toList.take n :=
    String.ofList_injective heq
  have hget := congrArg (·[label.length]?) hlist
  have hat : ∀ c : Char, ((label ++ (String.singleton c ++ rest)).toList.take n)[label.length]? =
      some c := by
    intro c
    have hlen : label.toList.length = label.length := String.length_toList
    rw [List.getElem?_take_of_lt h, String.toList_append, List.getElem?_append_right hlen.le, hlen,
      Nat.sub_self]
    simp
  have := (hat 'a').symm.trans (hget.trans (hat 'b'))
  cases this

/-- Failures of one kind at every mount: their reasons are the same exactly when they are clean. -/
theorem constant_reason_iff {f : String → Failure} (h : ∀ d d', (f d).bare = (f d').bare) :
    Constant (fun d => (f d).reason d) ↔ Clean Failure.Hides fun d => [f d] := by
  cases ha : f "a" with
  | path n label rest hlabel =>
    have hall : ∀ d, f d = .path n label rest hlabel := by
      intro d
      have hd := h d "a"
      rw [ha] at hd
      cases hf : f d with
      | path => rw [hf] at hd; exact hd
      | text => rw [hf] at hd; cases hd
    constructor
    · intro hc
      have heq := hc "a" "b"
      simp only [hall, Failure.reason] at heq
      exact absurd heq (cut_ne_cut hlabel)
    · intro hc
      have := hc.all "a" _ List.mem_cons_self
      rw [ha] at this
      cases this
  | text reason =>
    have hall : ∀ d, ∃ r, f d = .text r := by
      intro d
      have hd := h d "a"
      rw [ha] at hd
      cases hf : f d with
      | path => rw [hf] at hd; cases hd
      | text r => exact ⟨r, rfl⟩
    choose r hr using hall
    simp only [hr, Failure.reason]
    constructor
    · intro hc
      refine ⟨fun d k hk => ?_, fun d d' => congrArg (fun reason => [Failure.text reason]) (hc d d')⟩
      rw [List.mem_singleton] at hk
      rw [hk]
      trivial
    · intro hc d d'
      have heq : [Failure.text (r d)] = [Failure.text (r d')] := hc.constant d d'
      rw [List.cons.injEq, Failure.text.injEq] at heq
      exact heq.1

/-- Failures of one kind at every mount, or none at any of them. -/
def OneKind (f : String → Option Failure) : Prop :=
  ∀ d d', (f d).map Failure.bare = (f d').map Failure.bare

theorem OneKind.cases {f : String → Option Failure} (h : OneKind f) :
    (∀ d, f d = none) ∨ ∃ g : String → Failure, (∀ d d', (g d).bare = (g d').bare) ∧
      ∀ d, f d = some (g d) := by
  cases ha : f "" with
  | none =>
    refine .inl fun d => ?_
    have hd := h d ""
    rwa [ha, Option.map_none, Option.map_eq_none_iff] at hd
  | some g =>
    have hall : ∀ d, ∃ g', f d = some g' := by
      intro d
      have hd := h d ""
      rw [ha, Option.map_some, Option.map_eq_some_iff] at hd
      obtain ⟨g', hg', -⟩ := hd
      exact ⟨g', hg'⟩
    choose g' hg' using hall
    refine .inr ⟨g', fun d d' => ?_, hg'⟩
    have hd := h d d'
    rw [hg', hg'] at hd
    exact Option.some.inj hd

theorem OneKind.length {f : String → Option Failure} (h : OneKind f) (d d' : String) :
    (f d).toList.length = (f d').toList.length := by
  rcases h.cases with hf | ⟨g, -, hf⟩
  · rw [hf, hf]
  · rw [hf, hf]
    rfl

/-- A step that tells the reason of its failure, and tells the same at every mount when it does not fail. -/
theorem constant_told_iff {ω : Type} {f : String → Option Failure} (h : OneKind f)
    {out : String → List ω} (say : String → ω) (hsay : Function.Injective say)
    (hnone : (∀ d, f d = none) → Constant out)
    (hsome : ∀ d g, f d = some g → out d = [say (g.reason d)]) :
    Constant out ↔ Clean Failure.Hides fun d => (f d).toList := by
  rcases h.cases with hf | ⟨g, hg, hf⟩
  · simp only [hf, Option.toList_none]
    exact ⟨fun _ => clean_nil, fun _ => hnone hf⟩
  · simp only [hf, Option.toList_some]
    rw [← constant_reason_iff hg]
    refine forall_congr' fun d => forall_congr' fun d' => ?_
    rw [hsome d _ (hf d), hsome d' _ (hf d'), List.cons.injEq, hsay.eq_iff]
    exact and_iff_left rfl

end YeounEngine
