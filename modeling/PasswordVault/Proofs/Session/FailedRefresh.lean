import PasswordVault.Proofs.Session.InTurn
import PasswordVault.Proofs.Session.Progress

/-!
# Failed refreshes — the next call tries again

A refresh that fails is the failure of the call that asked for it. It leaves all slots as they were, and what
could not stand in for a refresh at its time cannot later, so the next call asks the refresher again.

* `AsksFor`: the refreshes that a call asks for.
* `AsksFor.withValidToken_of_error`, `AsksFor.withValidToken_of_accepted`: what comes of the call.
* `TriesAgain`: what a failure leaves, for calls that come one after the other and for callers that wait.
-/

namespace PasswordVault

variable {σ α : Type}

/-! ## What holds later -/

/-- What has ended at some time has ended at any later one. -/
theorem Instant.isWithin_of_later {t now later : Instant} {count : Int} (h : t.isWithin count now = true)
    (hlater : now.isWithin 0 later = true) : t.isWithin count later = true := by
  simp only [isWithin, decide_eq_true_eq, Int.add_zero] at h hlater ⊢
  omega

theorem Account.isExpired_of_later {a : Account} {now later : Instant} (h : a.isExpired now = true)
    (hlater : now.isWithin 0 later = true) : a.isExpired later = true := by
  cases htoken : a.token with
  | none => simp [isExpired, htoken] at h
  | some t =>
      simp only [isExpired, htoken] at h ⊢
      exact Instant.isWithin_of_later h hlater

/-- Where nothing could stand in for a refresh, nothing can later. -/
theorem RefreshSlots.reusable?_of_later {slots : RefreshSlots} {current : Account} {now later : Instant}
    (h : slots.reusable? current now = none) (hlater : now.isWithin 0 later = true) :
    slots.reusable? current later = none := by
  rw [Option.eq_none_iff_forall_ne_some] at h ⊢
  intro x hx
  obtain ⟨hslot, ⟨t, ht, hvalid⟩, hne⟩ := reusable?_eq_some_iff.1 hx
  refine h x (reusable?_eq_some_iff.2 ⟨hslot, ⟨t, ht, ?_⟩, hne⟩)
  rw [Bool.eq_false_iff] at hvalid ⊢
  exact fun hexpired => hvalid (Instant.isWithin_of_later hexpired hlater)

/-! ## Calls that ask for a refresh -/

section Calls

variable {refresher : Refresher σ} {now later : Instant} {a b : Account} {s s₁ s₂ t : σ}
variable {slots slots₁ : RefreshSlots} {operation : Account → StateM σ (Except SessionError α)}
variable {e : SessionError} {x : σ × RefreshSlots}

/-- Without an account to reuse, the refresher decides. -/
theorem refreshOnce_of_none (refresher : Refresher σ) (h : slots.reusable? a now = none) (s : σ) :
    refreshOnce refresher now a (s, slots) = match refresher a s with
      | (.ok b, s) => (.ok b, s, slots.set a.id b)
      | (.error e, s) => (.error e, s, slots) := by
  rcases hrun : refresher a s with ⟨e | b, s'⟩ <;> simp only [refreshOnce, h, hrun]

/-- A refresh fails only where the refresher does, and the slots stay as they were. -/
theorem refreshOnce_of_error (h : refreshOnce refresher now a (s, slots) = (.error e, x)) :
    slots.reusable? a now = none ∧ refresher a s = (.error e, x.1) ∧ x.2 = slots := by
  cases hslot : slots.reusable? a now with
  | some b =>
      simp only [refreshOnce, hslot] at h
      cases h
  | none =>
      rw [refreshOnce_of_none refresher hslot] at h
      rcases hrun : refresher a s with ⟨cause | b, s'⟩ <;> rw [hrun] at h <;> cases h
      exact ⟨rfl, rfl, rfl⟩

/-- An operation is run with an account. -/
def operated (operation : Account → StateM σ (Except SessionError α)) (latest : Account) :
    StateM (σ × RefreshSlots) (Except SessionError α) :=
  fun (s, slots) => ((operation latest s).1, ((operation latest s).2, slots))

/-- What a call does once it has an account to start with. -/
def afterFirst (refresher : Refresher σ) (now : Instant)
    (operation : Account → StateM σ (Except SessionError α)) :
    Except SessionError Account → StateM (σ × RefreshSlots) (Except SessionError α)
  | .error e => return .error e
  | .ok latest => do
    match ← operated operation latest with
    | .error .unauthorized =>
      if latest.token.isSome then
        match ← refreshOnce refresher now latest with
        | .error e => return .error e
        | .ok latest => operated operation latest
      else return .error .unauthorized
    | outcome => return outcome

/-- A call is a refresh, if the token has expired, and what follows it. -/
theorem withValidToken_eq_bind (refresher : Refresher σ) (now : Instant)
    (operation : Account → StateM σ (Except SessionError α)) (a : Account) :
    withValidToken refresher now operation a =
      (if a.isExpired now then refreshOnce refresher now a else pure (.ok a)) >>=
        afterFirst refresher now operation := by
  rw [withValidToken]
  split <;> rfl

theorem operated_of_run {r : Except SessionError α} (h : operation b s₁ = (r, s₂)) :
    operated operation b (s₁, slots) = (r, s₂, slots) := by
  rw [operated, h]

/-- The token is accepted. -/
theorem afterFirst_of_accepted {y : α} (h : operation b s₁ = (.ok y, s₂)) :
    afterFirst refresher now operation (.ok b) (s₁, slots) = (.ok y, s₂, slots) := by
  rw [afterFirst, bind_of_run (operated_of_run h)]
  rfl

/-- The token is rejected: another refresh, and the operation again. -/
theorem afterFirst_of_rejected (h : operation b s₁ = (.error .unauthorized, s₂))
    (htoken : b.token.isSome = true) :
    afterFirst refresher now operation (.ok b) (s₁, slots) =
      match refreshOnce refresher now b (s₂, slots) with
      | (.error e, x) => (.error e, x)
      | (.ok latest, x) => operated operation latest x := by
  rw [afterFirst, bind_of_run (operated_of_run h)]
  simp only [htoken, if_true]
  rcases hrefresh : refreshOnce refresher now b (s₂, slots) with ⟨e | latest, x⟩ <;>
    rw [bind_of_run hrefresh]
  rfl

/-- The refreshes that a call with an account asks for, each with the state and the slots by then: of that
account, if its token is expired, and of the account that the operation was run with, if its token is
rejected. -/
inductive AsksFor (refresher : Refresher σ) (now : Instant)
    (operation : Account → StateM σ (Except SessionError α)) (a : Account) (s : σ) (slots : RefreshSlots) :
    Account → σ → RefreshSlots → Prop where
  | expired (hexpired : a.isExpired now = true) : AsksFor refresher now operation a s slots a s slots
  | rejected {b : Account} {s₁ s₂ : σ} {slots₁ : RefreshSlots}
      (hfirst : (if a.isExpired now then refreshOnce refresher now a else pure (.ok a)) (s, slots) =
        (.ok b, s₁, slots₁))
      (hrejected : operation b s₁ = (.error .unauthorized, s₂)) (htoken : b.token.isSome = true) :
      AsksFor refresher now operation a s slots b s₂ slots₁

variable {current : Account}

/-- A call fails with a refresh that it asks for. -/
theorem AsksFor.withValidToken_of_error
    (h : AsksFor refresher now operation a s slots current t slots₁)
    (hrefresh : refreshOnce refresher now current (t, slots₁) = (.error e, x)) :
    withValidToken refresher now operation a (s, slots) = (.error e, x) := by
  rw [withValidToken_eq_bind]
  cases h with
  | expired hexpired =>
      rw [if_pos hexpired, bind_of_run hrefresh]
      rfl
  | rejected hfirst hrejected htoken =>
      rw [bind_of_run hfirst, afterFirst_of_rejected hrejected htoken, hrefresh]

/-- A call succeeds with an operation that accepts the account of a refresh. -/
theorem AsksFor.withValidToken_of_accepted
    (h : AsksFor refresher now operation a s slots current t slots₁) {y : α}
    (hrefresh : refreshOnce refresher now current (t, slots₁) = (.ok b, x))
    (hoperation : operation b x.1 = (.ok y, s₁)) :
    withValidToken refresher now operation a (s, slots) = (.ok y, s₁, x.2) := by
  rw [withValidToken_eq_bind]
  cases h with
  | expired hexpired =>
      rw [if_pos hexpired, bind_of_run hrefresh]
      exact afterFirst_of_accepted hoperation
  | rejected hfirst hrejected htoken =>
      rw [bind_of_run hfirst, afterFirst_of_rejected hrejected htoken, hrefresh]
      exact operated_of_run hoperation

end Calls

/-! ## After a failure -/

/-- Whether a refresh that fails is a failure of the call that asked for it, leaves the slots as they were, and
is tried again by the next call. -/
structure TriesAgain (refresher : Refresher σ) : Prop where
  failed : ∀ {α : Type} {now : Instant} {operation : Account → StateM σ (Except SessionError α)}
    {a current : Account} {s t : σ} {slots slots₁ : RefreshSlots} {e : SessionError} {x : σ × RefreshSlots},
    AsksFor refresher now operation a s slots current t slots₁ →
    refreshOnce refresher now current (t, slots₁) = (.error e, x) →
      withValidToken refresher now operation a (s, slots) = (.error e, x) ∧ x.2 = slots₁ ∧
        refresher current t = (.error e, x.1)
  next : ∀ {α : Type} {now later : Instant} {operation : Account → StateM σ (Except SessionError α)}
    {a : Account} {s s₁ t : σ} {slots : RefreshSlots} {e : SessionError} {x : σ × RefreshSlots},
    refreshOnce refresher now a (t, slots) = (.error e, x) → now.isWithin 0 later = true →
      (a.isExpired now = true → AsksFor refresher later operation a s slots a s slots) ∧
      (AsksFor refresher later operation a s slots a s₁ slots →
        (∀ e u, refresher a s₁ = (.error e, u) →
          withValidToken refresher later operation a (s, slots) = (.error e, u, slots)) ∧
        ∀ b u y v, refresher a s₁ = (.ok b, u) → operation b u = (.ok y, v) →
          withValidToken refresher later operation a (s, slots) = (.ok y, v, slots.set a.id b))
  /-- So it is with callers that wait for each other: whoever gets the lock next tries again. -/
  shared : ∀ {α : Type} {c : Callers σ α} {i : Nat} {now : Instant}
    {operation : Account → Except SessionError α} {current : Account} {rejected : Bool} {e : SessionError},
    c.callers[i]? = some (.refreshing current rejected (.error e)) →
      let c' := (c.move refresher now operation i).2.1
      c'.slots = c.slots ∧ c'.outcome? i = some (.error e) ∧
      (c.slots.reusable? current now = none → ∀ j rejected later operation',
        c'.callers[j]? = some (.holding current rejected) → now.isWithin 0 later = true →
        (c'.move refresher later operation' j).2.1.callers[j]? =
          some (.refreshing current rejected (refresher current c'.state).1))

/-- After a failure every refresher is asked again, by the next call and by the callers that wait. -/
theorem triesAgain (refresher : Refresher σ) : TriesAgain refresher where
  failed hasks hrefresh := by
    obtain ⟨-, hrun, hslots⟩ := refreshOnce_of_error hrefresh
    exact ⟨hasks.withValidToken_of_error hrefresh, hslots, hrun⟩
  next {α now later operation a s s₁ t slots e x} hrefresh hlater := by
    obtain ⟨hnone, -, -⟩ := refreshOnce_of_error hrefresh
    refine ⟨fun hexpired => .expired (Account.isExpired_of_later hexpired hlater), fun hasks => ?_⟩
    have hagain := refreshOnce_of_none refresher (RefreshSlots.reusable?_of_later hnone hlater)
    refine ⟨fun e u hfails => ?_, fun b u y v hrun hoperation => ?_⟩
    · exact hasks.withValidToken_of_error (by rw [hagain, hfails])
    · have hrefresh' := hagain s₁
      rw [hrun] at hrefresh'
      exact hasks.withValidToken_of_accepted hrefresh' hoperation
  shared {α c i now operation current rejected e} hstands := by
    intro c'
    have hmoved : Callers.Moved refresher now operation i c c' :=
      Callers.moved_move refresher now operation i c
    -- A refresh that failed puts nothing into its slot, whoever waits behind it.
    have hslots : c'.slots = c.slots := by
      rcases hmoved.slots_cases with ⟨hsame, -⟩ | ⟨_, _, a, hother, -⟩
      · exact hsame
      · cases hstands.symm.trans hother
    refine ⟨hslots, ?_, fun hnone j rejected' later operation' hholds hlater => ?_⟩
    · obtain ⟨u, hu, hadvance⟩ := hmoved.exists_advances hstands
      cases hadvance
      rw [Callers.outcome?, hu]
      rfl
    · have hmissing : c'.slots.reusable? current later = none := by
        rw [hslots]
        exact RefreshSlots.reusable?_of_later hnone hlater
      obtain ⟨u, hu, hadvance⟩ :=
        (Callers.moved_move refresher later operation' j c').exists_advances hholds
      cases hadvance with
      | reuses _ hfound => cases hmissing.symm.trans hfound
      | renews => exact hu

end PasswordVault
