import PasswordVault.Proofs.Session.Lineage
import PasswordVault.Proofs.Session.Progress

/-!
# Shared refresh — one refresh for all callers with one stale token

Any number of callers come with one account, whose token is expired or is always rejected. The first of
them to get the lock refreshes it, and all others take the new account from the slot, in whatever order
they come and move.

* `CallerHistory.AllStale`: what is assumed of the account, the refresher, the slot and the operations.
* `Callers.Shared`: the invariant. The refresh has not been started, is under way, or is over, and no
  caller is ahead of it.
* `CallerHistory.one_refresh_serves_all`: the refresher is called once, and everybody gets its result.
-/

namespace PasswordVault

/-- A refresher that notes the accounts it is called with. -/
def Refresher.noting {σ : Type} (refresher : Refresher σ) : Refresher (List Account × σ) := fun a s =>
  ((refresher a s.2).1, (s.1 ++ [a], (refresher a s.2).2))

/-! ## What operations were run with -/

/-- The account that the next move of a caller runs its operation with. -/
def Caller.operates? {α : Type} : Caller α → Option Account
  | .acting (.operate latest _) => some latest
  | _ => none

namespace Callers

variable {σ α : Type}
variable {refresher : Refresher σ} {now : Instant} {operation : Account → Except SessionError α}
variable {i : Nat} {c c' : Callers σ α}

/-- The accounts that a caller has run its operation with, in order. -/
def runs (c : Callers σ α) (k : Nat) : List Account := (c.operated.filter fun o => o.1 = k).map Prod.snd

/-- The release of a lock changes neither the slots nor what was noted. -/
theorem release_frame (c : Callers σ α) (id : String) :
    (c.release id).1.slots = c.slots ∧ (c.release id).1.state = c.state ∧
      (c.release id).1.operated = c.operated := by
  obtain ⟨callers, heq, -, -⟩ := exists_release c id
  rw [heq]
  exact ⟨rfl, rfl, rfl⟩

/-- A move runs the operation of the caller that moves, if it is that caller's turn to. -/
theorem Moved.runs_eq (h : Moved refresher now operation i c c') (k : Nat) :
    c'.runs k = c.runs k ++ (if k = i then c.callers[k]?.bind Caller.operates? else none).toList := by
  -- In all moves but one nothing is run.
  have hnone : c.callers[i]?.bind Caller.operates? = none → c'.operated = c.operated →
      c'.runs k = c.runs k ++ (if k = i then c.callers[k]?.bind Caller.operates? else none).toList := by
    intro hidle hsame
    rw [runs, hsame, ← runs]
    split
    · next hki => rw [hki, hidle, Option.toList_none, List.append_nil]
    · exact (List.append_nil _).symm
  cases h with
  | stays idle =>
      refine hnone ?_ rfl
      rcases idle with h | ⟨result, h⟩ | ⟨current, rejected, h⟩ <;> rw [h] <;> rfl
  | @operates latest rejected stands =>
      by_cases hki : k = i
      · subst hki
        rw [if_pos rfl, stands]
        simp [runs, Caller.operates?]
      · rw [if_neg hki]
        simp [runs, Ne.symm hki]
  | takes stands | queues stands | renews stands => exact hnone (by rw [stands]; rfl) rfl
  | reuses stands => exact hnone (by rw [stands]; rfl) (release_frame c _).2.2
  | renewed stands => exact hnone (by rw [stands]; rfl) (release_frame { c with slots := _ } _).2.2

end Callers

/-! ## Where a caller can be -/

/-- How far the one refresh is. -/
inductive RefreshStage where
  | waiting
  | underWay
  | ended
deriving DecidableEq

namespace RefreshStage

/-- The calls of the refresher so far. -/
def calls (a : Account) : RefreshStage → List Account
  | .waiting => []
  | .underWay | .ended => [a]

/-- The stage after the move of a caller. -/
def next {α : Type} (stage : RefreshStage) : Caller α → RefreshStage
  | .holding _ _ => match stage with
    | .ended => .ended
    | .waiting | .underWay => .underWay
  | .refreshing _ _ _ => .ended
  | .acting _ | .queued _ _ => stage

end RefreshStage

namespace Caller

variable {α : Type}

/-- The runs before a refresh: one if the token was rejected. -/
def tried (a : Account) (rejected : Bool) : List Account := if rejected then [a] else []

/-- Whether a caller that came with the account `a` is not ahead of the refresh that makes `b` of it. -/
def Follows (a b : Account) (operation : Account → Except SessionError α) (stage : RefreshStage)
    (runs : List Account) : Caller α → Prop
  | .acting (.operate latest rejected) =>
    -- The stale token is tried only where it is not expired, so it will be rejected.
    (latest = a ∧ rejected = false ∧ operation a = .error .unauthorized ∧ runs = []) ∨
      (latest = b ∧ stage = .ended ∧ runs = tried a rejected)
  | .acting (.refresh current rejected) | .queued current rejected | .holding current rejected =>
    current = a ∧ runs = tried a rejected
  | .refreshing current rejected outcome =>
    current = a ∧ outcome = .ok b ∧ stage = .underWay ∧ runs = tried a rejected
  | .acting (.done result) =>
    result = operation b ∧ stage = .ended ∧ ∃ rejected, runs = tried a rejected ++ [b]

variable {a b : Account} {operation : Account → Except SessionError α} {stage stage' : RefreshStage}
variable {runs : List Account} {u u' : Caller α}

/-- In a later stage a caller is still not ahead, unless it is the one that refreshes. -/
theorem Follows.later (h : u.Follows a b operation stage runs) (hended : stage = .ended → stage' = .ended)
    (hunderWay : stage = .underWay → stage' = .underWay ∨ u.renewal? = none) :
    u.Follows a b operation stage' runs := by
  cases u with
  | acting use =>
      cases use with
      | refresh current rejected => exact h
      | operate latest rejected =>
          rcases h with huntried | ⟨hlatest, hstage, hruns⟩
          · exact .inl huntried
          · exact .inr ⟨hlatest, hended hstage, hruns⟩
      | done result =>
          obtain ⟨hresult, hstage, hruns⟩ := h
          exact ⟨hresult, hended hstage, hruns⟩
  | queued current rejected => exact h
  | holding current rejected => exact h
  | refreshing current rejected outcome =>
      obtain ⟨hcurrent, rfl, hstage, hruns⟩ := h
      rcases hunderWay hstage with hstage' | hnone
      · exact ⟨hcurrent, rfl, hstage', hruns⟩
      · cases hnone

/-- An operation runs twice at most. -/
theorem Follows.length_le (h : u.Follows a b operation stage runs) : runs.length ≤ 2 := by
  -- A token that was refused was tried once; after the refresh one more run is all.
  have htried : ∀ rejected, (tried a rejected).length ≤ 1 := by
    intro rejected
    cases rejected with
    | false => exact Nat.zero_le 1
    | true => exact Nat.le_refl 1
  cases u with
  | acting use =>
      cases use with
      | refresh current rejected =>
          rw [h.2]
          exact (htried rejected).trans (Nat.le_succ 1)
      | operate latest rejected =>
          rcases h with ⟨-, -, -, hruns⟩ | ⟨-, -, hruns⟩
          · rw [hruns]
            exact Nat.zero_le 2
          · rw [hruns]
            exact (htried rejected).trans (Nat.le_succ 1)
      | done result =>
          obtain ⟨-, -, rejected, hruns⟩ := h
          rw [hruns, List.length_append, List.length_singleton]
          exact Nat.succ_le_succ (htried rejected)
  | queued current rejected | holding current rejected =>
      rw [h.2]
      exact (htried rejected).trans (Nat.le_succ 1)
  | refreshing current rejected outcome =>
      rw [h.2.2.2]
      exact (htried rejected).trans (Nat.le_succ 1)

end Caller

/-! ## Callers with one stale token -/

variable {σ α : Type}

/-- Whether all callers come with the account `a`, whose token is expired or is always rejected, and all
else is such that one refresh can serve them: the refresher makes of it the account `b`, whose token is
another one, is valid at the instants of all events and is not rejected, and no other valid token is in the
slot. -/
structure AllStale (refresher : Refresher σ) (slots : RefreshSlots) (state : σ) (a b : Account)
    (operations : Nat → Account → Except SessionError α) (events : List (CallerEvent α)) : Prop where
  arrivals : ∀ a' now, .arrive a' now ∈ events → a' = a
  moves : ∀ i now operation, .move i now operation ∈ events → operation = operations i
  token : a.token.isSome
  stale : (∀ now, .arrive a now ∈ events → a.isExpired now = true) ∨
    ∀ i, operations i a = .error .unauthorized
  refreshed : (refresher a state).1 = .ok b
  another : b.token ≠ a.token
  lasting : CallerHistory.Outlasts events b
  accepted : ∀ i, operations i b ≠ .error .unauthorized
  slot : ∀ x, slots.get? a.id = some x → x.token = a.token ∨
    ∀ t, x.token = some t → ∀ e ∈ events, t.isExpired e.instant = true

namespace Callers

/-- Whether one refresh of the account `a` serves all callers: how often the refresher was called and what
the slot holds goes with the stage of that refresh, and no caller is ahead of it. -/
structure Shared (slots : RefreshSlots) (state : σ) (a b : Account)
    (operations : Nat → Account → Except SessionError α) (stage : RefreshStage)
    (c : Callers (List Account × σ) α) : Prop where
  calls : c.state.1 = stage.calls a
  state : stage = .waiting → c.state.2 = state
  slot : c.slots.get? a.id = if stage = .ended then some b else slots.get? a.id
  renewer : stage = .underWay →
    ∃ (k : Nat) (rejected : Bool), c.callers[k]? = some (.refreshing a rejected (.ok b))
  callers : ∀ (k : Nat) (u : Caller α), c.callers[k]? = some u →
    u.Follows a b (operations k) stage (c.runs k)
  absent : ∀ k : Nat, c.callers[k]? = none → c.runs k = []

variable {refresher : Refresher σ} {slots : RefreshSlots} {state : σ} {a b : Account}
variable {operations : Nat → Account → Except SessionError α} {events : List (CallerEvent α)}
variable {stage : RefreshStage} {c c' : Callers (List Account × σ) α} {i : Nat} {now : Instant}

/-- What a caller finds in the slot: nothing before the refresh is over, and then the new account. -/
theorem Shared.reusable?_eq (h : Shared slots state a b operations stage c)
    (hstale : AllStale refresher slots state a b operations events)
    {operation : Account → Except SessionError α} (hmove : .move i now operation ∈ events) :
    c.slots.reusable? a now = if stage = .ended then some b else none := by
  have hslot := h.slot
  split
  · next hended =>
      rw [if_pos hended] at hslot
      obtain ⟨t, ht, hlasting⟩ := hstale.lasting
      have hvalid : t.isExpired now = false := hlasting (.move i now operation) hmove
      exact RefreshSlots.reusable?_eq_some_iff.2 ⟨hslot, ⟨t, ht, hvalid⟩, hstale.another⟩
  · next hnot =>
      rw [if_neg hnot] at hslot
      rw [Option.eq_none_iff_forall_ne_some]
      intro x hx
      obtain ⟨hget, ⟨t, ht, hvalid⟩, hne⟩ := RefreshSlots.reusable?_eq_some_iff.1 hx
      rw [hslot] at hget
      -- Before the refresh the slot holds nothing that any caller could use.
      rcases hstale.slot x hget with hsame | hexpired
      · exact hne hsame
      · have hinvalid : t.isExpired now = true := hexpired t ht (.move i now operation) hmove
        rw [hinvalid] at hvalid
        cases hvalid

/-- While the refresh is under way, nobody else has the lock. -/
theorem Shared.not_underWay_of_holding (h : Shared slots state a b operations stage c)
    (hinOrder : c.InOrder) {rejected : Bool} (stands : c.callers[i]? = some (.holding a rejected)) :
    stage ≠ .underWay := by
  intro hunderWay
  obtain ⟨k, rejected', hk⟩ := h.renewer hunderWay
  have hholds : c.holds? k = some a.id := holds?_of_stands hk
  have hholds' : c.holds? i = some a.id := holds?_of_stands stands
  rw [hinOrder.eq_of_holds hholds hholds', stands] at hk
  cases hk

/-- A caller that has the lock starts the refresh, or finds what it has given. -/
theorem Shared.holding_cases (h : Shared slots state a b operations stage c)
    (hstale : AllStale refresher slots state a b operations events) (hinOrder : c.InOrder)
    {operation : Account → Except SessionError α} (hmove : .move i now operation ∈ events)
    {rejected : Bool} (stands : c.callers[i]? = some (.holding a rejected)) :
    stage = .waiting ∧ c.slots.reusable? a now = none ∧ (refresher.noting a c.state).1 = .ok b ∨
      stage = .ended ∧ c.slots.reusable? a now = some b := by
  have hslot := h.reusable?_eq hstale hmove
  cases stage with
  | waiting =>
      refine .inl ⟨rfl, hslot, ?_⟩
      rw [Refresher.noting, h.state rfl]
      exact hstale.refreshed
  | underWay => exact absurd rfl (h.not_underWay_of_holding hinOrder stands)
  | ended => exact .inr ⟨rfl, hslot⟩

/-- Who does not move keeps up with the one who does. -/
theorem Shared.follows_of_ne (h : Shared slots state a b operations stage c) (hinOrder : c.InOrder)
    {u : Caller α} (stands : c.callers[i]? = some u) {k : Nat} {v : Caller α} (hne : k ≠ i)
    (hk : c.callers[k]? = some v) : v.Follows a b (operations k) (stage.next u) (c.runs k) := by
  refine (h.callers k v hk).later ?_ ?_
  · rintro rfl
    cases u <;> rfl
  · rintro rfl
    cases u with
    | acting | queued | holding => exact .inl rfl
    | refreshing current rejected outcome =>
        -- Two callers cannot refresh at once, as each would hold the lock.
        refine .inr ?_
        cases v with
        | acting | queued | holding => rfl
        | refreshing current' rejected' outcome' =>
            obtain ⟨rfl, -⟩ := h.callers i _ stands
            obtain ⟨rfl, -⟩ := h.callers k _ hk
            have hholds : c.holds? i = some current'.id := holds?_of_stands stands
            have hholds' : c.holds? k = some current'.id := holds?_of_stands hk
            exact absurd (hinOrder.eq_of_holds hholds' hholds) hne

/-! ## One move -/

section Move

variable (h : Shared slots state a b operations stage c)
variable (hstale : AllStale refresher slots state a b operations events) (hinOrder : c.InOrder)
variable (hmove : .move i now (operations i) ∈ events) {u : Caller α} (stands : c.callers[i]? = some u)

include h hstale hinOrder hmove stands

/-- The caller that moves follows the refresh to its next stage. -/
theorem Shared.advances {u' : Caller α}
    (hadvance : Advances refresher.noting now (operations i) c u u') :
    u'.Follows a b (operations i) (stage.next u) (c.runs i ++ u.operates?.toList) := by
  have hfollows := h.callers i u stands
  cases hadvance with
  | rests | waits | takes | queues =>
      -- Nothing is run, and the stage stays as it is.
      change Caller.Follows a b (operations i) stage (c.runs i ++ []) _
      rw [List.append_nil]
      exact hfollows
  | operates latest rejected =>
      -- With the stale token the caller goes on to a refresh, with the new one it is done.
      rcases hfollows with ⟨rfl, rfl, hrefused, hruns⟩ | ⟨rfl, hended, hruns⟩
      · have hnext : TokenUse.afterOperation latest false (operations i latest)
            = (.refresh latest true : TokenUse α) := by
          rw [hrefused]
          exact if_pos ⟨hstale.token, rfl⟩
        rw [hnext, hruns]
        exact ⟨rfl, rfl⟩
      · have hnext : TokenUse.afterOperation latest rejected (operations i latest)
            = (.done (operations i latest) : TokenUse α) := by
          unfold TokenUse.afterOperation
          split
          · next hrefused => exact absurd hrefused (hstale.accepted i)
          · rfl
        rw [hnext, hruns]
        exact ⟨rfl, hended, rejected, rfl⟩
  | @reuses current found rejected hfound =>
      obtain ⟨rfl, hruns⟩ := hfollows
      rcases h.holding_cases hstale hinOrder hmove stands with ⟨-, hnone, -⟩ | ⟨rfl, hslot⟩
      · rw [hnone] at hfound
        cases hfound
      · rw [hslot] at hfound
        cases hfound
        exact .inr ⟨rfl, rfl, (List.append_nil _).trans hruns⟩
  | @renews current rejected hmissing =>
      obtain ⟨rfl, hruns⟩ := hfollows
      rcases h.holding_cases hstale hinOrder hmove stands with ⟨rfl, -, hrefreshed⟩ | ⟨-, hslot⟩
      · exact ⟨rfl, hrefreshed, rfl, (List.append_nil _).trans hruns⟩
      · rw [hslot] at hmissing
        cases hmissing
  | renewed current rejected outcome =>
      -- The refresh that ends is the one under way, so it gives the new account.
      obtain ⟨rfl, rfl, -, hruns⟩ := hfollows
      exact .inr ⟨rfl, rfl, (List.append_nil _).trans hruns⟩

/-- What a move does to the refresher and to the slot goes with the stage. -/
theorem Shared.frame (hmoved : Moved refresher.noting now (operations i) i c c') :
    c'.state.1 = (stage.next u).calls a ∧ (stage.next u = .waiting → c'.state.2 = state) ∧
      c'.slots.get? a.id = if stage.next u = .ended then some b else slots.get? a.id := by
  have hfollows := h.callers i u stands
  cases hmoved with
  | stays idle =>
      have hnext : stage.next u = stage := by
        rw [stands] at idle
        rcases idle with hnone | ⟨result, hdone⟩ | ⟨current, rejected, hqueued⟩
        · cases hnone
        · cases hdone
          rfl
        · cases hqueued
          rfl
      rw [hnext]
      exact ⟨h.calls, h.state, h.slot⟩
  | operates hu | takes hu | queues hu =>
      rw [stands] at hu
      cases hu
      exact ⟨h.calls, h.state, h.slot⟩
  | @reuses current found rejected hu hfound =>
      rw [stands] at hu
      cases hu
      obtain ⟨rfl, -⟩ := hfollows
      obtain ⟨hslots, hstate, -⟩ := release_frame c current.id
      rcases h.holding_cases hstale hinOrder hmove stands with ⟨-, hnone, -⟩ | ⟨rfl, -⟩
      · rw [hnone] at hfound
        cases hfound
      · -- The new account was in the slot already, and nothing is called.
        have hsame := congrArg (·.get? current.id) hslots
        exact ⟨(congrArg Prod.fst hstate).trans h.calls, nofun, hsame.trans h.slot⟩
  | @renews current rejected hu hmissing =>
      rw [stands] at hu
      cases hu
      obtain ⟨rfl, -⟩ := hfollows
      rcases h.holding_cases hstale hinOrder hmove stands with ⟨rfl, -, -⟩ | ⟨-, hslot⟩
      · -- The one refresh is called here.
        refine ⟨?_, nofun, h.slot⟩
        change c.state.1 ++ [current] = [current]
        rw [h.calls]
        rfl
      · rw [hslot] at hmissing
        cases hmissing
  | @renewed current rejected outcome hu =>
      rw [stands] at hu
      cases hu
      obtain ⟨rfl, rfl, rfl, -⟩ := hfollows
      obtain ⟨hslots, hstate, -⟩ :=
        release_frame { c with slots := c.slots.keep current.id (.ok b) } current.id
      refine ⟨(congrArg Prod.fst hstate).trans h.calls, nofun, ?_⟩
      -- What came of the refresh is put into the slot as the lock is released.
      calc RefreshSlots.get? _ current.id
          = (c.slots.set current.id b).get? current.id := congrArg (·.get? current.id) hslots
        _ = some b := by rw [RefreshSlots.get?_set, if_pos rfl]

/-- While the refresh is under way, somebody has it in hand. -/
theorem Shared.exists_renewer (hmoved : Moved refresher.noting now (operations i) i c c')
    (hunderWay : stage.next u = .underWay) :
    ∃ (k : Nat) (rejected : Bool), c'.callers[k]? = some (.refreshing a rejected (.ok b)) := by
  by_cases hstage : stage = .underWay
  · -- It was under way before, and whoever has it in hand has not moved.
    obtain ⟨k, rejected, hk⟩ := h.renewer hstage
    have hne : k ≠ i := by
      rintro rfl
      rw [stands] at hk
      cases hk
      cases hunderWay
    exact ⟨k, rejected, hmoved.stands_of_ne hne hk rfl⟩
  · cases u with
    | acting | queued => exact absurd hunderWay hstage
    | refreshing => cases hunderWay
    | holding current rejected =>
        obtain ⟨rfl, -⟩ := h.callers i _ stands
        obtain ⟨u', hu', hadvance⟩ := hmoved.exists_advances stands
        rcases h.holding_cases hstale hinOrder hmove stands with ⟨-, hnone, hrefreshed⟩ | ⟨rfl, -⟩
        · cases hadvance with
          | reuses rejected hfound =>
              rw [hnone] at hfound
              cases hfound
          | renews rejected => exact ⟨i, rejected, hrefreshed ▸ hu'⟩
        · cases hunderWay

end Move

/-- A move keeps one refresh for all. -/
theorem Shared.moved (h : Shared slots state a b operations stage c)
    (hstale : AllStale refresher slots state a b operations events) (hinOrder : c.InOrder)
    (hmove : .move i now (operations i) ∈ events)
    (hmoved : Moved refresher.noting now (operations i) i c c') :
    ∃ stage', Shared slots state a b operations stage' c' := by
  cases hu : c.callers[i]? with
  | none =>
      have hsame : c' = c := by
        cases hmoved with
        | stays => rfl
        | operates stands | takes stands | queues stands | reuses stands | renews stands
        | renewed stands =>
            rw [hu] at stands
            cases stands
      exact ⟨stage, hsame ▸ h⟩
  | some u =>
      obtain ⟨hcalls, hstate, hslot⟩ := h.frame hstale hinOrder hmove hu hmoved
      refine ⟨stage.next u, hcalls, hstate, hslot, h.exists_renewer hstale hinOrder hmove hu hmoved, ?_, ?_⟩
      · intro k v hk
        -- The caller that moves advances; another one may only get the lock that is released.
        rcases hmoved.caller_cases hk with ⟨rfl, u', hu', hadvance⟩ | ⟨hne, hothers⟩
        · rw [hu] at hu'
          cases hu'
          rw [hmoved.runs_eq, if_pos rfl, hu]
          exact h.advances hstale hinOrder hmove hu hadvance
        · rw [hmoved.runs_eq, if_neg hne, Option.toList_none, List.append_nil]
          rcases hothers with hsame | ⟨current, rejected, hqueued, rfl⟩
          · exact h.follows_of_ne hinOrder hu hne hsame
          · have hwaits := h.follows_of_ne hinOrder hu hne hqueued
            exact hwaits
      · intro k hk
        have hbefore : c.callers[k]? = none := by
          rw [List.getElem?_eq_none_iff] at hk ⊢
          rwa [← hmoved.length_eq]
        have hne : k ≠ i := by
          rintro rfl
          rw [hu] at hbefore
          cases hbefore
        rw [hmoved.runs_eq, if_neg hne, Option.toList_none, List.append_nil]
        exact h.absent k hbefore

/-- Whoever comes with the stale account is not ahead. -/
theorem Shared.arrive (h : Shared slots state a b operations stage c)
    (hstale : AllStale refresher slots state a b operations events) (hcomes : .arrive a now ∈ events) :
    Shared slots state a b operations stage
      { c with callers := c.callers ++ [.acting (.start a now)] } := by
  refine ⟨h.calls, h.state, h.slot, ?_, ?_, ?_⟩
  · intro hunderWay
    obtain ⟨k, rejected, hk⟩ := h.renewer hunderWay
    have hlt : k < c.callers.length := (List.getElem?_eq_some_iff.1 hk).1
    exact ⟨k, rejected, (List.getElem?_append_left hlt).trans hk⟩
  · intro k u hk
    rcases CallerHistory.caller_cases_of_arrive hk with hk | ⟨rfl, rfl⟩
    · exact h.callers k u hk
    · -- The newcomer has run nothing yet, and its token is expired or will be refused.
      have hruns := h.absent c.callers.length (List.getElem?_eq_none (Nat.le_refl _))
      unfold TokenUse.start
      split
      · exact ⟨rfl, hruns⟩
      · next hvalid =>
          rcases hstale.stale with hexpired | hrefused
          · exact absurd (hexpired now hcomes) hvalid
          · exact .inl ⟨rfl, rfl, hrefused _, hruns⟩
  · intro k hk
    refine h.absent k ?_
    rw [List.getElem?_eq_none_iff, List.length_append] at hk
    exact List.getElem?_eq_none (by omega)

theorem stands_of_outcome? {k : Nat} {r : Except SessionError α} (h : c.outcome? k = some r) :
    c.callers[k]? = some (.acting (.done r)) := by
  unfold outcome? at h
  split at h
  · next hk =>
      cases h
      exact hk
  · cases h

end Callers

/-! ## Histories -/

namespace CallerHistory

variable {refresher : Refresher σ} {slots : RefreshSlots} {state : σ} {a b : Account}
variable {operations : Nat → Account → Except SessionError α} {events : List (CallerEvent α)}

/-- The history of some events where the slots hold something at the start, and the calls of the refresher
are noted. -/
def noted (refresher : Refresher σ) (slots : RefreshSlots) (state : σ) (events : List (CallerEvent α)) :
    CallerHistory (List Account × σ) α :=
  events.foldl (after refresher.noting) (begun slots ([], state))

/-- Callers that come from the start stand in order, and no lock is lost. -/
theorem flowing_noted (refresher : Refresher σ) (slots : RefreshSlots) (state : σ)
    (events : List (CallerEvent α)) :
    (noted refresher slots state events).callers.InOrder ∧
      (noted refresher slots state events).callers.Flowing :=
  flowing_foldl refresher.noting (flowing_begun slots ([], state)).1 (flowing_begun slots ([], state)).2 events

/-- In every history of callers with one stale token, one refresh serves all. -/
theorem shared_noted (hstale : AllStale refresher slots state a b operations events)
    {past : List (CallerEvent α)} (hpast : ∀ e ∈ past, e ∈ events) :
    ∃ stage, Callers.Shared slots state a b operations stage (noted refresher slots state past).callers := by
  induction past using List.reverseRecOn with
  | nil =>
      refine ⟨.waiting, rfl, fun _ => rfl, rfl, nofun, ?_, fun _ _ => rfl⟩
      intro k u hk
      cases hk
  | append_singleton past e ih =>
      obtain ⟨stage, h⟩ := ih fun e he => hpast e (List.mem_append_left _ he)
      have he : e ∈ events := hpast e (List.mem_append_right _ (List.mem_singleton_self e))
      have hlast : noted refresher slots state (past ++ [e])
          = (noted refresher slots state past).after refresher.noting e := List.foldl_append
      rw [hlast]
      cases e with
      | arrive a' now =>
          -- Whoever comes has the one stale account.
          obtain rfl := hstale.arrivals a' now he
          exact ⟨stage, h.arrive hstale he⟩
      | move i now operation =>
          obtain rfl := hstale.moves i now operation he
          exact h.moved hstale (flowing_noted refresher slots state past).1 he
            (Callers.moved_move refresher.noting now (operations i) i _)

/-- Whoever comes before some rounds is done after them, if they are ten for each caller. -/
theorem exists_outcome_noted {before : List (CallerEvent α)} {rounds : List (List (CallerEvent α))}
    (hrounds : ∀ round ∈ rounds,
      IsRound (noted refresher slots state (before ++ rounds.flatten)).callers.callers.length round)
    (hmany : 10 * (noted refresher slots state (before ++ rounds.flatten)).callers.callers.length
      ≤ rounds.length) {k : Nat}
    (hk : k < (noted refresher slots state (before ++ rounds.flatten)).callers.callers.length) :
    ∃ r, (noted refresher slots state (before ++ rounds.flatten)).callers.outcome? k = some r := by
  have hsplit : noted refresher slots state (before ++ rounds.flatten)
      = rounds.flatten.foldl (after refresher.noting) (noted refresher slots state before) :=
    List.foldl_append
  have hmoves : ∀ e ∈ rounds.flatten, ∃ i now operation, e = .move i now operation := by
    intro e he
    obtain ⟨round, hround, hmem⟩ := List.mem_flatten.1 he
    exact (hrounds round hround).moves e hmem
  have hlength := (total_foldl_le refresher.noting (noted refresher slots state before) hmoves).1
  obtain ⟨hinOrder, hflowing⟩ := flowing_noted refresher slots state before
  rw [hsplit] at hrounds hmany hk ⊢
  rw [hlength] at hrounds hmany hk
  exact exists_outcome_of_rounds refresher.noting hinOrder hflowing hrounds hmany hk

/-- Whoever is done has run its operation with the new account in the end. -/
theorem done_of_shared {stage : RefreshStage} {c : Callers (List Account × σ) α}
    (h : c.Shared slots state a b operations stage) {k : Nat} {r : Except SessionError α}
    (hr : c.outcome? k = some r) :
    r = operations k b ∧ (c.runs k).getLast? = some b ∧ c.state.1 = [a] := by
  obtain ⟨hresult, hstage, rejected, hruns⟩ := h.callers k _ (Callers.stands_of_outcome? hr)
  refine ⟨hresult, ?_, ?_⟩
  · rw [hruns, List.getLast?_concat]
  · rw [h.calls, hstage]
    rfl

/-- For all callers that come with one account whose token is expired or is always rejected, in whatever
order they come and move: the refresher is called with that account, and once at most. Whoever is done has
the outcome of its operation with the new account, after one call of the refresher, and no operation is
run more than twice. And everybody is done after ten rounds for each caller. -/
theorem one_refresh_serves_all (hstale : AllStale refresher slots state a b operations events) :
    let c := (noted refresher slots state events).callers
    let n := c.callers.length
    (c.state.1 = [] ∨ c.state.1 = [a]) ∧
      (∀ k r, c.outcome? k = some r →
        r = operations k b ∧ (c.runs k).getLast? = some b ∧ c.state.1 = [a]) ∧
      (∀ k, (c.runs k).length ≤ 2) ∧
      ∀ (before : List (CallerEvent α)) (rounds : List (List (CallerEvent α))),
        events = before ++ rounds.flatten → (∀ round ∈ rounds, IsRound n round) →
          10 * n ≤ rounds.length →
            (∀ k < n, c.outcome? k = some (operations k b)) ∧ (1 ≤ n → c.state.1 = [a]) := by
  intro c n
  -- All is read off the stage that the one refresh is in.
  obtain ⟨stage, h⟩ := shared_noted hstale fun e he => he
  refine ⟨?_, fun k r => done_of_shared h, ?_, ?_⟩
  · rw [h.calls]
    cases stage with
    | waiting => exact .inl rfl
    | underWay | ended => exact .inr rfl
  · intro k
    cases hk : c.callers[k]? with
    | none =>
        rw [h.absent k hk]
        exact Nat.zero_le 2
    | some u => exact (h.callers k u hk).length_le
  · intro before rounds hevents hrounds hmany
    have hall : ∀ k < n, c.outcome? k = some (operations k b) := by
      intro k hk
      -- Enough rounds bring every caller to its end, and there is only one end.
      obtain ⟨r, hr⟩ : ∃ r, c.outcome? k = some r := by
        subst hevents
        exact exists_outcome_noted hrounds hmany hk
      rw [hr, (done_of_shared h hr).1]
    exact ⟨hall, fun hone => (done_of_shared h (hall 0 hone)).2.2⟩

/-! ## Two callers with a token that was revoked -/

/-- An account with a token of the given name that is valid for long. -/
def lastingLogin (name : String) : Account := ⟨"a", "https://vault.example", some (.lasting name)⟩

/-- An operation that rejects a token that was revoked. -/
def rejecting (revoked : Account) (a : Account) : Except SessionError Unit :=
  if a.token = revoked.token then .error .unauthorized else .ok ()

def twoMoves : List (CallerEvent Unit) :=
  [.move 0 .epoch (rejecting (lastingLogin "revoked")), .move 1 .epoch (rejecting (lastingLogin "revoked"))]

/-- Two callers come with a token that was revoked, and then they move in turn. -/
def twoCallers : List (CallerEvent Unit) :=
  [.arrive (lastingLogin "revoked") .epoch, .arrive (lastingLogin "revoked") .epoch] ++
    (List.replicate 20 twoMoves).flatten

theorem allStale_twoCallers :
    AllStale Refresher.naming [("a", lastingLogin "revoked")] ["new"] (lastingLogin "revoked")
      (lastingLogin "new") (fun _ => rejecting (lastingLogin "revoked")) twoCallers := by
  have hevents : ∀ e ∈ twoCallers,
      e = .arrive (lastingLogin "revoked") .epoch ∨ e ∈ twoMoves := by
    intro e he
    rcases List.mem_append.1 he with harrives | hmoves
    · simp only [List.mem_cons, List.not_mem_nil, or_false, or_self] at harrives
      exact .inl harrives
    · obtain ⟨moves, hreplicate, hmem⟩ := List.mem_flatten.1 hmoves
      rw [(List.mem_replicate.1 hreplicate).2] at hmem
      exact .inr hmem
  refine ⟨?_, ?_, rfl, .inr fun _ => by decide, rfl, by decide, ⟨.lasting "new", rfl, ?_⟩,
    fun _ => by decide, ?_⟩
  · intro a' now hmem
    rcases hevents _ hmem with harrive | hmove
    · cases harrive
      rfl
    · simp [twoMoves] at hmove
  · intro i now operation hmem
    rcases hevents _ hmem with harrive | hmove
    · cases harrive
    · simp only [twoMoves, List.mem_cons, List.not_mem_nil, or_false, CallerEvent.move.injEq] at hmove
      rcases hmove with ⟨-, -, rfl⟩ | ⟨-, -, rfl⟩ <;> rfl
  · intro e he
    rcases hevents e he with rfl | hmove
    · decide
    · simp only [twoMoves, List.mem_cons, List.not_mem_nil, or_false] at hmove
      rcases hmove with rfl | rfl <;> decide
  · intro x hx
    cases hx
    exact .inl rfl

theorem isRound_twoMoves : IsRound 2 twoMoves := by
  constructor
  · simp [twoMoves]
  · intro k hk
    refine ⟨.epoch, rejecting (lastingLogin "revoked"), ?_⟩
    obtain rfl | rfl : k = 0 ∨ k = 1 := by omega
    · exact List.mem_cons_self
    · exact List.mem_cons_of_mem _ List.mem_cons_self

/-- The slot holds the revoked token itself, which does not keep the callers from a refresh. -/
theorem one_refresh_serves_twoCallers :
    AllStale Refresher.naming [("a", lastingLogin "revoked")] ["new"] (lastingLogin "revoked")
        (lastingLogin "new") (fun _ => rejecting (lastingLogin "revoked")) twoCallers ∧
      let c := (noted Refresher.naming [("a", lastingLogin "revoked")] ["new"] twoCallers).callers
      c.callers.length = 2 ∧ (∀ k < 2, c.outcome? k = some (.ok ())) ∧
        c.state.1 = [lastingLogin "revoked"] := by
  have hlength : (noted Refresher.naming [("a", lastingLogin "revoked")] ["new"]
      twoCallers).callers.callers.length = 2 := by
    decide +kernel
  have hserved := one_refresh_serves_all allStale_twoCallers
  simp only [hlength] at hserved
  obtain ⟨-, -, -, hprogress⟩ := hserved
  have hrounds : ∀ round ∈ List.replicate 20 twoMoves, IsRound 2 round := by
    intro round hmem
    rw [(List.mem_replicate.1 hmem).2]
    exact isRound_twoMoves
  obtain ⟨hdone, honce⟩ := hprogress _ _ rfl hrounds (Nat.le_of_eq List.length_replicate.symm)
  exact ⟨allStale_twoCallers, hlength, hdone, honce (by decide)⟩

end CallerHistory
end PasswordVault
