import PasswordVault.Generator

/-!
# Attempts — steps that may fail and keep a state

An attempt runs from a state to an outcome and a state. What comes of one attempt after another is said here
once, so that pipelines of key material can be followed step by step.
-/

namespace PasswordVault
namespace Attempt

variable {σ α β : Type}

/-- A step after a step that may fail: it runs in the state that the first leaves, or not at all. -/
theorem run_bind (m : Attempt σ α) (next : α → Attempt σ β) (s : σ) :
    (m >>= next).run.run s = match m.run.run s with
      | (.ok a, s) => (next a).run.run s
      | (.error e, s) => (.error e, s) := by
  rw [ExceptT.run_bind, StateT.run_bind]
  rcases m.run.run s with ⟨_ | a, s⟩ <;> rfl

theorem run_map (f : α → β) (m : Attempt σ α) (s : σ) :
    (f <$> m).run.run s = ((m.run.run s).1.map f, (m.run.run s).2) := by
  rw [ExceptT.run_map]
  rfl

theorem run_adapt (f : CryptoError → CryptoError) (m : Attempt σ α) (s : σ) :
    (m.adapt f).run.run s = ((m.run.run s).1.mapError f, (m.run.run s).2) :=
  rfl

/-- A step that cannot fail. -/
theorem run_lift (m : StateM σ α) (s : σ) :
    (liftM m : Attempt σ α).run.run s = (.ok (m.run s).1, (m.run s).2) :=
  rfl

end Attempt
end PasswordVault
