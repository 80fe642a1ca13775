import PasswordVault.Proofs.Lookup
import PasswordVault.Session.Callers

/-!
# Moves — what one move of a caller can do

All that a move can do is said once (`Callers.Moved`, `Callers.moved_move`). What it does to the slots, to
the list of operations and to each caller is read off from that.

* `Callers.Moved.slots_cases`: a slot is filled only by a refresh that ends well.
* `Callers.Moved.caller_cases`: the caller that moves advances, and another may be given a lock.
-/

namespace PasswordVault

/-! ## Slots and callers -/

theorem RefreshSlots.get?_set (slots : RefreshSlots) (id id' : String) (a : Account) :
    (slots.set id a).get? id' = if id' = id then some a else slots.get? id' :=
  lookup_replaced id id' a slots

theorem RefreshSlots.reusable?_eq_some_iff {slots : RefreshSlots} {current a : Account} {now : Instant} :
    slots.reusable? current now = some a ↔ slots.get? current.id = some a ∧
      (∃ t, a.token = some t ∧ t.isExpired now = false) ∧ a.token ≠ current.token := by
  rw [reusable?, Option.filter_eq_some_iff, Bool.and_eq_true, Option.any_eq_true]
  simp only [Bool.not_eq_true', bne_iff_ne]

/-- The slots after a refresh has ended: only a success is kept. -/
def RefreshSlots.keep (slots : RefreshSlots) (id : String) : Except SessionError Account → RefreshSlots
  | .ok a => slots.set id a
  | .error _ => slots

/-- The refresh that a caller has made, by the account that was refreshed and the account that it gave. -/
def Caller.renewal? {α : Type} : Caller α → Option (Account × Account)
  | .refreshing current _ (.ok a) => some (current, a)
  | _ => none

def Caller.refreshes? {α : Type} : Caller α → Option Account
  | .acting (.refresh current _) | .queued current _ | .holding current _ | .refreshing current _ _ =>
    some current
  | .acting (.operate _ _) | .acting (.done _) => none

/-- The account that a caller has to refresh or to run its operation with. -/
def Caller.uses? {α : Type} : Caller α → Option Account
  | .acting (.operate latest _) => some latest
  | u => u.refreshes?

theorem Caller.uses?_of_refreshes? {α : Type} {u : Caller α} {a : Account} (h : u.refreshes? = some a) :
    u.uses? = some a := by
  unfold uses?
  split
  · cases h
  · exact h

/-- A caller starts with the account that it comes with. -/
theorem Caller.eq_of_uses?_start {α : Type} {a b : Account} {now : Instant}
    (h : (Caller.acting (.start a now) : Caller α).uses? = some b) : b = a := by
  unfold TokenUse.start at h
  split at h <;> exact (Option.some.inj h).symm

/-- A caller starts with a refresh only if it has a token, which then is expired. -/
theorem Caller.token_isSome_of_refreshes?_start {α : Type} {a b : Account} {now : Instant}
    (h : (Caller.acting (.start a now) : Caller α).refreshes? = some b) : b.token.isSome := by
  unfold TokenUse.start at h
  split at h
  · next hexpired =>
      cases h
      unfold Account.isExpired at hexpired
      split at hexpired
      · next t ht => rw [ht, Option.isSome_some]
      · cases hexpired
  · cases h

/-! ## One move -/

namespace Callers

variable {σ α : Type}

@[simp] theorem callers_setQueue (c : Callers σ α) (id : String) (q : List Nat) :
    (c.setQueue id q).callers = c.callers := rfl

theorem queue_setQueue (c : Callers σ α) (id id' : String) (q : List Nat) :
    (c.setQueue id q).queue id' = if id' = id then q else c.queue id' := by
  rw [queue, setQueue, lookup_replaced]
  split <;> rfl

theorem caller_of_setCaller {c : Callers σ α} {i k : Nat} {u u' : Caller α}
    (hk : (c.setCaller i u).callers[k]? = some u') : k = i ∧ u' = u ∨ k ≠ i ∧ c.callers[k]? = some u' := by
  rw [setCaller, List.getElem?_set] at hk
  by_cases hki : i = k
  · rw [if_pos hki] at hk
    split at hk
    · exact .inl ⟨hki.symm, (Option.some.inj hk).symm⟩
    · cases hk
  · rw [if_neg hki] at hk
    exact .inr ⟨Ne.symm hki, hk⟩

/-- All that the release of a lock changes: its queue, and the place of the one who was first to wait. -/
theorem exists_release (c : Callers σ α) (id : String) :
    ∃ callers, (c.release id).1 = { c.setQueue id ((c.queue id).drop 1) with callers } ∧
      callers.length = c.callers.length ∧
      ∀ k, callers[k]? = c.callers[k]? ∨ ∃ current rejected, ((c.queue id).drop 1).head? = some k ∧
        c.callers[k]? = some (.queued current rejected) ∧
        callers[k]? = some (.holding current rejected) := by
  cases hnext : ((c.queue id).drop 1).head? with
  | none =>
      refine ⟨c.callers, ?_, rfl, fun k => .inl rfl⟩
      simp only [release, hnext]
      rfl
  | some j =>
      -- Whoever is next gets the lock if it waits for it; nobody else is touched.
      by_cases hj : ∃ current rejected, c.callers[j]? = some (.queued current rejected)
      · obtain ⟨current, rejected, hj⟩ := hj
        have hlt : j < c.callers.length := (List.getElem?_eq_some_iff.1 hj).1
        refine ⟨c.callers.set j (.holding current rejected), ?_, List.length_set, fun k => ?_⟩
        · simp only [release, hnext, callers_setQueue, hj]
          rfl
        · by_cases hk : k = j
          · subst hk
            exact .inr ⟨current, rejected, rfl, hj, List.getElem?_set_self hlt⟩
          · exact .inl (List.getElem?_set_ne (Ne.symm hk))
      · refine ⟨c.callers, ?_, rfl, fun k => .inl rfl⟩
        simp only [release, hnext, callers_setQueue]
        split
        · next current rejected hq => exact absurd ⟨current, rejected, hq⟩ hj
        · rfl

/-- One move of a caller, by what it does. -/
inductive Moved (refresher : Refresher σ) (now : Instant) (operation : Account → Except SessionError α)
    (i : Nat) (c : Callers σ α) : Callers σ α → Prop where
  /-- It is done, or waits for a lock, or has not come. -/
  | stays (idle : c.callers[i]? = none ∨ (∃ result, c.callers[i]? = some (.acting (.done result)))
      ∨ ∃ current rejected, c.callers[i]? = some (.queued current rejected)) :
      Moved refresher now operation i c c
  /-- It runs its operation. -/
  | operates {latest : Account} {rejected : Bool}
      (stands : c.callers[i]? = some (.acting (.operate latest rejected))) :
      Moved refresher now operation i c
        { c.setCaller i (.acting (.afterOperation latest rejected (operation latest))) with
          operated := c.operated ++ [(i, latest)] }
  /-- It takes a free lock. -/
  | takes {current : Account} {rejected : Bool}
      (stands : c.callers[i]? = some (.acting (.refresh current rejected)))
      (free : c.queue current.id = []) :
      Moved refresher now operation i c
        ((c.setQueue current.id [i]).setCaller i (.holding current rejected))
  /-- It queues for a lock. -/
  | queues {current : Account} {rejected : Bool}
      (stands : c.callers[i]? = some (.acting (.refresh current rejected)))
      (taken : c.queue current.id ≠ []) :
      Moved refresher now operation i c
        ((c.setQueue current.id (c.queue current.id ++ [i])).setCaller i (.queued current rejected))
  /-- It takes over the account that it finds in the slot. -/
  | reuses {current a : Account} {rejected : Bool}
      (stands : c.callers[i]? = some (.holding current rejected))
      (found : c.slots.reusable? current now = some a) :
      Moved refresher now operation i c
        ((c.release current.id).1.setCaller i (.acting (.operate a rejected)))
  /-- It starts a refresh. -/
  | renews {current : Account} {rejected : Bool}
      (stands : c.callers[i]? = some (.holding current rejected))
      (missing : c.slots.reusable? current now = none) :
      Moved refresher now operation i c
        { c.setCaller i (.refreshing current rejected (refresher current c.state).1) with
          state := (refresher current c.state).2 }
  /-- Its refresh ends, and a new account goes into the slot. -/
  | renewed {current : Account} {rejected : Bool} {outcome : Except SessionError Account}
      (stands : c.callers[i]? = some (.refreshing current rejected outcome)) :
      Moved refresher now operation i c
        ((Callers.release { c with slots := c.slots.keep current.id outcome } current.id).1.setCaller i
          (.acting (.afterRefresh rejected outcome)))

/-- A move is one of the kinds listed, with all that it changes. -/
theorem moved_move (refresher : Refresher σ) (now : Instant)
    (operation : Account → Except SessionError α) (i : Nat) (c : Callers σ α) :
    Moved refresher now operation i c (c.move refresher now operation i).2.1 := by
  -- The cases are those of `move`: where the caller stands, and what it finds there.
  cases hstands : c.callers[i]? with
  | none =>
      simp only [move, hstands]
      exact .stays (.inl hstands)
  | some u =>
      cases u with
      | acting use =>
          cases use with
          | refresh current rejected =>
              cases hqueue : c.queue current.id with
              | nil =>
                  simp only [move, hstands, hqueue]
                  exact .takes hstands hqueue
              | cons j rest =>
                  simp only [move, hstands, hqueue]
                  exact hqueue ▸ .queues hstands (by simp [hqueue])
          | operate latest rejected =>
              simp only [move, hstands]
              exact .operates hstands
          | done result =>
              simp only [move, hstands]
              exact .stays (.inr (.inl ⟨result, hstands⟩))
      | queued current rejected =>
          simp only [move, hstands]
          exact .stays (.inr (.inr ⟨current, rejected, hstands⟩))
      | holding current rejected =>
          cases hslot : c.slots.reusable? current now with
          | none =>
              simp only [move, hstands, hslot]
              exact .renews hstands hslot
          | some a =>
              simp only [move, hstands, hslot]
              exact .reuses hstands hslot
      | refreshing current rejected outcome =>
          simp only [move, hstands]
          cases outcome with
          | ok a => exact .renewed hstands
          | error e => exact .renewed hstands

variable {refresher : Refresher σ} {now : Instant} {operation : Account → Except SessionError α}
variable {i : Nat} {c c' : Callers σ α}

/-- What one move does to the slots: only a refresh that ends well fills one. -/
theorem Moved.slots_cases (h : Moved refresher now operation i c c') :
    (c'.slots = c.slots ∧ c.callers[i]?.bind Caller.renewal? = none) ∨
      ∃ current rejected a, c.callers[i]? = some (.refreshing current rejected (.ok a)) ∧
        c'.slots = c.slots.set current.id a := by
  cases h with
  | stays idle =>
      refine .inl ⟨rfl, ?_⟩
      rcases idle with h | ⟨result, h⟩ | ⟨current, rejected, h⟩ <;> rw [h] <;> rfl
  | operates stands | takes stands free | queues stands taken | renews stands missing =>
      exact .inl ⟨rfl, by rw [stands]; rfl⟩
  | reuses stands found =>
      obtain ⟨callers, heq, -, -⟩ := exists_release c _
      exact .inl ⟨by rw [heq]; rfl, by rw [stands]; rfl⟩
  | @renewed current rejected outcome stands =>
      obtain ⟨callers, heq, -, -⟩ :=
        exists_release { c with slots := c.slots.keep current.id outcome } current.id
      rw [heq]
      cases outcome with
      | ok a => exact .inr ⟨current, rejected, a, stands, rfl⟩
      | error e => exact .inl ⟨rfl, by rw [stands]; rfl⟩

/-- What one move does to the list of operations: only an operation that is run joins it. -/
theorem Moved.operated_cases (h : Moved refresher now operation i c c') :
    c'.operated = c.operated ∨ ∃ latest rejected,
      c.callers[i]? = some (.acting (.operate latest rejected)) ∧
        c'.operated = c.operated ++ [(i, latest)] := by
  cases h with
  | operates stands => exact .inr ⟨_, _, stands, rfl⟩
  | stays | takes | queues | renews => exact .inl rfl
  | reuses stands found =>
      obtain ⟨callers, heq, -, -⟩ := exists_release c _
      exact .inl (by rw [heq]; rfl)
  | @renewed current rejected outcome stands =>
      obtain ⟨callers, heq, -, -⟩ :=
        exists_release { c with slots := c.slots.keep current.id outcome } current.id
      exact .inl (by rw [heq]; rfl)

/-- What a move makes of the caller that moves, among callers that stand like `c`. -/
inductive Advances (refresher : Refresher σ) (now : Instant)
    (operation : Account → Except SessionError α) (c : Callers σ α) : Caller α → Caller α → Prop where
  | rests (result : Except SessionError α) :
      Advances refresher now operation c (.acting (.done result)) (.acting (.done result))
  | waits (current : Account) (rejected : Bool) :
      Advances refresher now operation c (.queued current rejected) (.queued current rejected)
  | operates (latest : Account) (rejected : Bool) :
      Advances refresher now operation c (.acting (.operate latest rejected))
        (.acting (.afterOperation latest rejected (operation latest)))
  | takes (current : Account) (rejected : Bool) :
      Advances refresher now operation c (.acting (.refresh current rejected)) (.holding current rejected)
  | queues (current : Account) (rejected : Bool) :
      Advances refresher now operation c (.acting (.refresh current rejected)) (.queued current rejected)
  | reuses {current a : Account} (rejected : Bool) (found : c.slots.reusable? current now = some a) :
      Advances refresher now operation c (.holding current rejected) (.acting (.operate a rejected))
  | renews {current : Account} (rejected : Bool) (missing : c.slots.reusable? current now = none) :
      Advances refresher now operation c (.holding current rejected)
        (.refreshing current rejected (refresher current c.state).1)
  | renewed (current : Account) (rejected : Bool) (outcome : Except SessionError Account) :
      Advances refresher now operation c (.refreshing current rejected outcome)
        (.acting (.afterRefresh rejected outcome))

/-- What one move does to each caller: the one that moves advances, and of the others at most one is given
a lock that it was waiting for. -/
theorem Moved.caller_cases (h : Moved refresher now operation i c c') {k : Nat} {u' : Caller α}
    (hk : c'.callers[k]? = some u') :
    (k = i ∧ ∃ u, c.callers[k]? = some u ∧ Advances refresher now operation c u u') ∨
      k ≠ i ∧ (c.callers[k]? = some u' ∨ ∃ current rejected,
        c.callers[k]? = some (.queued current rejected) ∧ u' = .holding current rejected) := by
  -- Where the lock is released, the callers besides the one that moves are those of `exists_release`.
  have hreleased : ∀ (c₀ : Callers σ α) (id : String), c₀.callers = c.callers →
      (c₀.release id).1.callers[k]? = some u' → c.callers[k]? = some u' ∨
        ∃ current rejected, c.callers[k]? = some (.queued current rejected) ∧
          u' = .holding current rejected := by
    intro c₀ id hcallers hu
    obtain ⟨callers, heq, -, hothers⟩ := exists_release c₀ id
    rw [heq] at hu
    rcases hothers k with hsame | ⟨current, rejected, -, hqueued, hholding⟩
    · exact .inl (by rw [← hcallers, ← hsame]; exact hu)
    · refine .inr ⟨current, rejected, hcallers ▸ hqueued, ?_⟩
      exact Option.some.inj (hu.symm.trans hholding)
  cases h with
  | stays idle =>
      by_cases hki : k = i
      · subst hki
        rw [hk] at idle
        refine .inl ⟨rfl, u', hk, ?_⟩
        rcases idle with hnone | ⟨result, hdone⟩ | ⟨current, rejected, hqueued⟩
        · cases hnone
        · cases hdone
          exact .rests result
        · cases hqueued
          exact .waits current rejected
      · exact .inr ⟨hki, .inl hk⟩
  | operates stands =>
      rcases caller_of_setCaller hk with ⟨rfl, rfl⟩ | ⟨hne, hk⟩
      · exact .inl ⟨rfl, _, stands, .operates _ _⟩
      · exact .inr ⟨hne, .inl hk⟩
  | takes stands =>
      rcases caller_of_setCaller hk with ⟨rfl, rfl⟩ | ⟨hne, hk⟩
      · exact .inl ⟨rfl, _, stands, .takes _ _⟩
      · exact .inr ⟨hne, .inl hk⟩
  | queues stands =>
      rcases caller_of_setCaller hk with ⟨rfl, rfl⟩ | ⟨hne, hk⟩
      · exact .inl ⟨rfl, _, stands, .queues _ _⟩
      · exact .inr ⟨hne, .inl hk⟩
  | renews stands missing =>
      rcases caller_of_setCaller hk with ⟨rfl, rfl⟩ | ⟨hne, hk⟩
      · exact .inl ⟨rfl, _, stands, .renews _ missing⟩
      · exact .inr ⟨hne, .inl hk⟩
  | reuses stands found =>
      rcases caller_of_setCaller hk with ⟨rfl, rfl⟩ | ⟨hne, hk⟩
      · exact .inl ⟨rfl, _, stands, .reuses _ found⟩
      · exact .inr ⟨hne, hreleased c _ rfl hk⟩
  | @renewed current rejected outcome stands =>
      rcases caller_of_setCaller hk with ⟨rfl, rfl⟩ | ⟨hne, hk⟩
      · exact .inl ⟨rfl, _, stands, .renewed _ _ _⟩
      · exact .inr ⟨hne, hreleased { c with slots := c.slots.keep current.id outcome } _ rfl hk⟩

/-- Where a caller has its account from after a move: it had it before, it found it in the slot, or its
refresh gave it. -/
theorem Moved.uses_cases (h : Moved refresher now operation i c c') {k : Nat} {u' : Caller α}
    (hk : c'.callers[k]? = some u') {a : Account} (ha : u'.uses? = some a) :
    (∃ u, c.callers[k]? = some u ∧ u.uses? = some a) ∨
      (∃ current rejected, c.callers[k]? = some (.holding current rejected) ∧
        c.slots.reusable? current now = some a) ∨
      ∃ current rejected, k = i ∧ c.callers[k]? = some (.refreshing current rejected (.ok a)) := by
  rcases h.caller_cases hk with ⟨hki, u, hu, hadvance⟩ | ⟨-, hk | ⟨current, rejected, hqueued, rfl⟩⟩
  · -- A caller gets another account only from a slot or from a refresh.
    cases hadvance with
    | rests => cases ha
    | waits | takes | queues | renews => exact .inl ⟨_, hu, ha⟩
    | operates latest rejected =>
        refine .inl ⟨_, hu, ?_⟩
        unfold TokenUse.afterOperation at ha
        split at ha
        · split at ha
          · exact ha
          · cases ha
        · cases ha
    | reuses rejected found =>
        cases ha
        exact .inr (.inl ⟨_, _, hu, found⟩)
    | renewed current rejected outcome =>
        cases outcome with
        | error e => cases ha
        | ok b =>
            cases ha
            exact .inr (.inr ⟨_, _, hki, hu⟩)
  · exact .inl ⟨u', hk, ha⟩
  · exact .inl ⟨_, hqueued, ha⟩

/-- A caller that has to refresh an account after a move had to before, or its operation was run with the
account and a token was rejected. -/
theorem Moved.refreshes_cases (h : Moved refresher now operation i c c') {k : Nat} {u' : Caller α}
    (hk : c'.callers[k]? = some u') {a : Account} (ha : u'.refreshes? = some a) :
    (∃ u, c.callers[k]? = some u ∧ u.refreshes? = some a) ∨ a.token.isSome := by
  rcases h.caller_cases hk with ⟨hki, u, hu, hadvance⟩ | ⟨-, hk | ⟨current, rejected, hqueued, rfl⟩⟩
  · cases hadvance with
    | rests | reuses => cases ha
    | waits | takes | queues | renews => exact .inl ⟨_, hu, ha⟩
    | operates latest rejected =>
        unfold TokenUse.afterOperation at ha
        split at ha
        · split at ha
          · next hrejected =>
              cases ha
              exact .inr hrejected.1
          · cases ha
        · cases ha
    | renewed current rejected outcome => cases outcome <;> cases ha
  · exact .inl ⟨u', hk, ha⟩
  · exact .inl ⟨_, hqueued, ha⟩

/-- No caller comes or goes with a move. -/
theorem Moved.length_eq (hmoved : Moved refresher now operation i c c') :
    c'.callers.length = c.callers.length := by
  have hreleased : ∀ (c₀ : Callers σ α) (id : String) (u : Caller α),
      ((c₀.release id).1.setCaller i u).callers.length = c₀.callers.length := by
    intro c₀ id u
    obtain ⟨callers, heq, hlength, -⟩ := exists_release c₀ id
    rw [heq]
    exact List.length_set.trans hlength
  cases hmoved with
  | stays => rfl
  | operates | takes | queues | renews => exact List.length_set
  | reuses => exact hreleased _ _ _
  | renewed => exact hreleased _ _ _

end Callers
end PasswordVault
