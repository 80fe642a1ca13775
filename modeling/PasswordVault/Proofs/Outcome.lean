import Mathlib.Data.List.Forall2

/-!
# Steps that may fail

When a step that depends on an earlier one succeeds, so did the earlier one; when the whole fails,
one of the two did. These equivalences take a computation apart without unfolding it.
-/

namespace PasswordVault

variable {ε ε' α β : Type}

theorem bind_eq_ok_iff {step : Except ε α} {next : α → Except ε β} {b : β} :
    (step >>= next) = .ok b ↔ ∃ a, step = .ok a ∧ next a = .ok b := by
  cases step with
  | error e => simp [bind, Except.bind]
  | ok a => simp [bind, Except.bind]

/-- A computation succeeds if its first step does and, with the result of it, the rest. -/
theorem exists_bind_eq_ok_iff {step : Except ε α} {next : α → Except ε β} :
    (∃ b, (step >>= next) = .ok b) ↔ ∃ a, step = .ok a ∧ ∃ b, next a = .ok b := by
  cases step with
  | error e => simp [bind, Except.bind]
  | ok a => simp [bind, Except.bind]

theorem bind_eq_error_iff {step : Except ε α} {next : α → Except ε β} {e : ε} :
    (step >>= next) = .error e ↔ step = .error e ∨ ∃ a, step = .ok a ∧ next a = .error e := by
  cases step with
  | error e => simp [bind, Except.bind]
  | ok a => simp [bind, Except.bind]

theorem map_eq_ok_iff {step : Except ε α} {f : α → β} {b : β} :
    step.map f = .ok b ↔ ∃ a, step = .ok a ∧ f a = b := by
  cases step with
  | error e => simp [Except.map]
  | ok a => simp [Except.map]

@[simp] theorem mapError_ok (a : α) (f : ε → ε') : (Except.ok a : Except ε α).mapError f = .ok a :=
  rfl

@[simp] theorem mapError_error (e : ε) (f : ε → ε') :
    (Except.error e : Except ε α).mapError f = .error (f e) :=
  rfl

theorem mapError_eq_ok_iff {step : Except ε α} {f : ε → ε'} {a : α} :
    step.mapError f = .ok a ↔ step = .ok a := by
  cases step with
  | error e => simp
  | ok a => simp

theorem mapError_eq_error_iff {step : Except ε α} {f : ε → ε'} {e : ε'} :
    step.mapError f = .error e ↔ ∃ cause, step = .error cause ∧ f cause = e := by
  cases step with
  | error cause => simp
  | ok a => simp

theorem ok_bind (a : α) (next : α → Except ε β) : (Except.ok a >>= next) = next a :=
  rfl

theorem error_bind (e : ε) (next : α → Except ε β) : (Except.error e >>= next) = .error e :=
  rfl

/-- A list of steps succeeds if each of them does, with the results in order. -/
theorem mapM_eq_ok_iff {f : α → Except ε β} {xs : List α} {ys : List β} :
    xs.mapM f = .ok ys ↔ List.Forall₂ (fun x y => f x = .ok y) xs ys := by
  induction xs generalizing ys with
  | nil =>
      constructor
      · intro h
        cases h
        exact .nil
      · intro h
        cases h
        rfl
  | cons x rest ih =>
      rw [List.mapM_cons, bind_eq_ok_iff]
      constructor
      · rintro ⟨y, hy, hrest⟩
        rcases bind_eq_ok_iff.1 hrest with ⟨more, hmore, heq⟩
        cases heq
        exact .cons hy (ih.1 hmore)
      · intro h
        cases h with
        | cons hy hrest => exact ⟨_, hy, bind_eq_ok_iff.2 ⟨_, ih.2 hrest, rfl⟩⟩

/-- A list of values is read if each of them is, with the results in order. -/
theorem mapM_eq_some_iff_forall₂ {f : α → Option β} {xs : List α} {ys : List β} :
    xs.mapM f = some ys ↔ List.Forall₂ (fun x y => f x = some y) xs ys := by
  induction xs generalizing ys with
  | nil =>
      rw [List.forall₂_nil_left_iff]
      exact ⟨fun h => (Option.some.inj h).symm, fun h => h ▸ rfl⟩
  | cons x rest ih =>
      simp only [List.mapM_cons, Option.bind_eq_bind, Option.bind_eq_some_iff, Option.pure_def, Option.some.injEq,
        List.forall₂_cons_left_iff, ih]
      constructor
      · rintro ⟨y, hy, more, hmore, rfl⟩
        exact ⟨y, more, hy, hmore, rfl⟩
      · rintro ⟨y, more, hy, hmore, rfl⟩
        exact ⟨y, hy, more, hmore, rfl⟩

/-- Where a reader takes from each value what it was written from, a list is what its results are written as. -/
theorem eq_map_of_mapM_eq_some {f : α → Option β} {write : β → α} {xs : List α} {ys : List β}
    (hwritten : ∀ x y, f x = some y → x = write y) (h : xs.mapM f = some ys) : xs = ys.map write := by
  have hrows : List.Forall₂ (fun x y => x = write y) xs ys := (mapM_eq_some_iff_forall₂.1 h).imp hwritten
  rwa [← List.forall₂_map_right_iff, List.forall₂_eq_eq_eq] at hrows

/-- A list of steps fails only where one of them does. -/
theorem exists_of_mapM_eq_error {f : α → Except ε β} {xs : List α} {e : ε}
    (h : xs.mapM f = .error e) : ∃ x ∈ xs, f x = .error e := by
  induction xs with
  | nil => cases h
  | cons x rest ih =>
      rw [List.mapM_cons] at h
      rcases bind_eq_error_iff.1 h with hfirst | ⟨y, -, hrest⟩
      · exact ⟨x, by simp, hfirst⟩
      · rcases bind_eq_error_iff.1 hrest with hmore | ⟨_, -, hpure⟩
        · rcases ih hmore with ⟨z, hz, hfails⟩
          exact ⟨z, List.mem_cons_of_mem _ hz, hfails⟩
        · cases hpure

theorem mapM_congr {α' : Type} {f : α → Except ε β} {g : α' → Except ε β} {xs : List α}
    {ys : List α'} (h : List.Forall₂ (fun x y => f x = g y) xs ys) : xs.mapM f = ys.mapM g := by
  induction h with
  | nil => rfl
  | cons hfirst _ ih => rw [List.mapM_cons, List.mapM_cons, hfirst, ih]

end PasswordVault
