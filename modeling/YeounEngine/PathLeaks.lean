import YeounEngine.MessageFailures
import YeounEngine.RunFailures
import YeounEngine.OutputGuard

/-!
# Paths in failures

`media_ready` carries a path below `PERSONA_DIR`, so that no absolute path gets out. The failures do: the texts
of the exceptions that the pipelines raise themselves, for a missing voice, photo or reference voice, name
the folder, and they are sent in `error` events and kept as `error_reason`.

One run is compared at every value of `PERSONA_DIR`: the files and the behaviour of everything around the
pipeline are the same, and only the texts of exceptions may depend on the folder. What the client sees is
the same everywhere exactly when no failure names a path and every other failure reads the same
everywhere (`unmounted_iff_clean`).
-/

namespace YeounEngine

open Transition

/-! ## Main results -/

/-- What the client of a message sees, and the `error_reason` that a run leaves, do not depend on where
`PERSONA_DIR` is mounted if and only if no failure names a path and each reads the same at every mount. -/
theorem unmounted_iff_clean (H : Host) (messageId : Uuid) :
    (∀ steps : List MessageBehaviour,
      (∀ d d', sentAt H messageId steps d = sentAt H messageId steps d') ↔
        Clean Failure.Hides (messageFailuresAt H messageId steps)) ∧
    ∀ steps : List RunBehaviour,
      (∀ d d', errorReasonsAt H steps d = errorReasonsAt H steps d') ↔
        Clean Failure.Hides (runFailuresAt H steps) := by
  constructor
  · intro steps
    have h := (unwinding_message H messageId).observe_iff (fun _ => .created)
      (steps.map MessageBehaviour.mount) (fun _ _ => rfl) fun x hx => by
        obtain ⟨step, -, rfl⟩ := List.mem_map.mp hx
        exact ⟨step, rfl⟩
    simp only [List.map_map] at h
    exact h
  · intro steps
    have h := (unwinding_run H).observe_iff (fun _ => (Run.new, none))
      (steps.map RunBehaviour.mount) ⟨fun _ _ => rfl, fun _ _ => rfl, fun _ _ h => by cases h⟩
      fun x hx => by
        obtain ⟨step, -, rfl⟩ := List.mem_map.mp hx
        exact ⟨step, rfl⟩
    simp only [List.map_map] at h
    exact h

/-- What happens alike at every mount. -/
def MessageBehaviour.same (x : MessageWorld × MessageEvent) : MessageBehaviour :=
  ⟨fun _ => x, fun _ _ => rfl, fun _ _ => rfl, fun _ _ => rfl⟩

def RunBehaviour.same (x : PersonaWorld × RunEvent) : RunBehaviour :=
  ⟨fun _ => x, fun _ _ => rfl, fun _ _ => rfl, fun _ _ => rfl⟩

/-- A message for a persona without a reference voice. -/
def voiceRefMissing : List MessageBehaviour :=
  ([.pull cleanTextDone, .transcribed "안녕", .token "응", .pull cleanTextDone, .streamEnd,
    .pull cleanTextDone] : List MessageEvent).map fun ev => .same (sampleMessageWorld, ev)

/-- A run for a persona without a voice. -/
def voiceMissing : List RunBehaviour :=
  ([.start, .lock none, .apply 7, .resume, .lock none, .lock none] : List RunEvent).map fun ev =>
    .same (samplePersona, ev)

/-- Both are told the absolute path of the folder that is missing. -/
theorem path_told :
    (sentAt sampleHost 9 voiceRefMissing "/var/persona").getLast? = some (.error
      "media_failed: FileNotFoundError: voice_ref 누락: /var/persona/00000000-0000-0000-0000-000000000001/voice_ref") ∧
    sentAt sampleHost 9 voiceRefMissing "/var/persona" ≠ sentAt sampleHost 9 voiceRefMissing "/srv" ∧
    errorReasonsAt sampleHost voiceMissing "/var/persona" =
      ["FileNotFoundError: voice 디렉토리 없음: /var/persona/00000000-0000-0000-0000-000000000001/voice"] ∧
    errorReasonsAt sampleHost voiceMissing "/var/persona" ≠ errorReasonsAt sampleHost voiceMissing "/srv" := by
  decide +kernel

end YeounEngine
