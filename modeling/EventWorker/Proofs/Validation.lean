import EventWorker.Proofs.Steps
import EventWorker.Validation

/-!
# Validated messages

Results:
1. `validate_header`: the header of a validated message is read off the fields of an object.
2. `validate_session`: its session is hexadecimal apart from dashes.
-/

namespace EventWorker

namespace Validation

open Json (Fields)

theorem sessionOf_ok {fields : Fields} {session : String} (h : sessionOf fields = .ok session) :
    isSessionValue session = true := by
  unfold sessionOf at h
  split at h
  · cases h
  · cases h
  · split at h
    · next hexadecimal =>
      cases h
      exact hexadecimal
    · cases h
  · cases h

theorem headerOf_ok {fields : Fields} {header : Header} (h : headerOf fields = .ok header) :
    ∃ session, sessionOf fields = .ok session ∧ header.session = session := by
  obtain ⟨session, hsession, h⟩ := exists_of_bind_ok h
  refine ⟨session, hsession, ?_⟩
  dsimp only at h
  split at h
  · cases h
    rfl
  · cases h

end Validation

variable {raw : String} {e : Event}

theorem validate_header (valid : validate raw = .ok e) :
    ∃ fields, Validation.headerOf fields = .ok e.header := by
  unfold validate at valid
  dsimp only at valid
  split at valid
  · next fields _ =>
    obtain ⟨fields, -, valid⟩ := exists_of_bind_ok valid
    obtain ⟨header, hheader, valid⟩ := exists_of_bind_ok valid
    obtain ⟨payload, -, valid⟩ := exists_of_bind_ok valid
    cases valid
    exact ⟨fields, mapError_ok hheader⟩
  · cases valid
  · cases valid

theorem validate_session (valid : validate raw = .ok e) :
    Validation.isSessionValue e.header.session = true := by
  obtain ⟨fields, hheader⟩ := validate_header valid
  obtain ⟨session, hsession, named⟩ := Validation.headerOf_ok hheader
  rw [named]
  exact Validation.sessionOf_ok hsession

end EventWorker
