import Mathlib.Data.List.Induction
import PasswordVault.Proofs.Session.Locks

/-!
# Histories — callers that come and move in any order

Callers come one after another and move in any order, at any instants and with any outcomes of their
operations (`CallerHistory.through`). Besides the callers, a history keeps the accounts that they came with
and the refreshes that were made.

* `CallerHistory.inOrder_through`: the callers stand in their queues as they should.
* `CallerHistory.newest_through`: a slot holds what the last refresh of its account gave.
* `CallerHistory.made_through`: whatever a refresher is known to make holds of all that was refreshed.
* `CallerHistory.exists_through_runAll`: callers that move as they become ready make such a history.
-/

namespace PasswordVault

/-! ## Histories -/

/-- What happens among callers. -/
inductive CallerEvent (α : Type) where
  /-- A caller comes with an account. -/
  | arrive (account : Account) (now : Instant)
  /-- A caller moves, at an instant at which its operation would have these outcomes. -/
  | move (i : Nat) (now : Instant) (operation : Account → Except SessionError α)

def CallerEvent.instant {α : Type} : CallerEvent α → Instant
  | .arrive _ now | .move _ now _ => now

/-- Callers with what happened among them so far. -/
structure CallerHistory (σ α : Type) where
  callers : Callers σ α
  /-- The accounts that callers came with, by the numbers of the callers. -/
  arrived : List Account := []
  /-- The refreshes that ended well, in order: what was refreshed, and what that gave. -/
  renewed : List (Account × Account) := []

/-- A token with the given name that is valid for long. -/
def AccountToken.lasting (name : String) : AccountToken := ⟨name, name, ⟨⟨3000, 1, 1, 0, 0, 0, 0⟩, by decide⟩⟩

/-- A refresher that gives a token for each of some names, in order. -/
def Refresher.naming : Refresher (List String) := fun a names =>
  match names with
  | [] => (.error .unauthorized, [])
  | name :: names => (.ok { a with token := some (.lasting name) }, names)

namespace CallerHistory

variable {σ α : Type}

/-- The start: nobody has come, and no account was refreshed. -/
def opened (state : σ) : CallerHistory σ α := { callers := { callers := [], slots := [], state } }

/-- A history after one more event. -/
def after (refresher : Refresher σ) (h : CallerHistory σ α) : CallerEvent α → CallerHistory σ α
  | .arrive a now =>
    { h with
      callers := { h.callers with callers := h.callers.callers ++ [.acting (.start a now)] }
      arrived := h.arrived ++ [a] }
  | .move i now operation =>
    { h with
      callers := (h.callers.move refresher now operation i).2.1
      renewed := h.renewed ++ (h.callers.callers[i]?.bind Caller.renewal?).toList }

def through (refresher : Refresher σ) (state : σ) (events : List (CallerEvent α)) : CallerHistory σ α :=
  events.foldl (after refresher) (opened state)

theorem through_concat (refresher : Refresher σ) (state : σ) (events : List (CallerEvent α))
    (e : CallerEvent α) :
    through refresher state (events ++ [e]) = (through refresher state events).after refresher e :=
  List.foldl_concat _ _ _ _

/-- A caller after another one has come. -/
theorem caller_cases_of_arrive {callers : List (Caller α)} {u u' : Caller α} {k : Nat}
    (hk : (callers ++ [u])[k]? = some u') : callers[k]? = some u' ∨ k = callers.length ∧ u' = u := by
  rw [List.getElem?_append] at hk
  split at hk
  · exact .inl hk
  · next hlt =>
      obtain ⟨hzero, heq⟩ := List.getElem?_eq_some_iff.1 hk
      rw [List.length_singleton] at hzero
      refine .inr ⟨by omega, ?_⟩
      rw [← heq, List.getElem_singleton]

/-- What callers show does not change when one comes that shows nothing. -/
theorem bind_arrive {β : Type} {f : Caller α → Option β} {u : Caller α} (hf : f u = none)
    (callers : List (Caller α)) :
    (fun k : Nat => (callers ++ [u])[k]?.bind f) = fun k => callers[k]?.bind f := by
  funext k
  rw [List.getElem?_append]
  split
  · rfl
  · next hlt =>
      rw [List.getElem?_eq_none (Nat.le_of_not_lt hlt), List.getElem?_singleton]
      split
      · exact hf
      · rfl

/-- Whoever comes stands in no queue. -/
theorem inOrder_arrive {c : Callers σ α} (h : c.InOrder) (use : TokenUse α) :
    Callers.InOrder { c with callers := c.callers ++ [.acting use] } := by
  have hw : Callers.waits? { c with callers := c.callers ++ [.acting use] } = c.waits? :=
    bind_arrive rfl c.callers
  have hh : Callers.holds? { c with callers := c.callers ++ [.acting use] } = c.holds? :=
    bind_arrive rfl c.callers
  rw [Callers.InOrder, hw, hh]
  exact h

/-- Whatever happens, the callers stand in their queues as they should. -/
theorem inOrder_after (refresher : Refresher σ) {h : CallerHistory σ α} (hinOrder : h.callers.InOrder)
    (e : CallerEvent α) : (h.after refresher e).callers.InOrder := by
  cases e with
  | arrive a now => exact inOrder_arrive hinOrder _
  | move i now operation => exact (Callers.moved_move refresher now operation i _).inOrder hinOrder

/-- In every history the callers stand in their queues as they should. -/
theorem inOrder_through (refresher : Refresher σ) (state : σ) (events : List (CallerEvent α)) :
    (through refresher state events).callers.InOrder := by
  induction events using List.reverseRecOn with
  | nil =>
      exact ⟨fun _ => List.nodup_nil, fun _ _ hk => (List.not_mem_nil hk).elim, fun _ _ hk => by cases hk⟩
  | append_singleton past e ih =>
      rw [through_concat]
      exact inOrder_after refresher ih e

/-- Only an account with a token is to be refreshed. -/
theorem token_isSome_through (refresher : Refresher σ) (state : σ) (events : List (CallerEvent α)) {k : Nat}
    {u : Caller α} {a : Account} (hk : (through refresher state events).callers.callers[k]? = some u)
    (ha : u.refreshes? = some a) : a.token.isSome := by
  induction events using List.reverseRecOn generalizing k u with
  | nil => cases hk
  | append_singleton past e ih =>
      rw [through_concat] at hk
      cases e with
      | arrive b now =>
          rcases caller_cases_of_arrive hk with hk | ⟨-, rfl⟩
          · exact ih hk ha
          · exact Caller.token_isSome_of_refreshes?_start ha
      | move i now operation =>
          rcases (Callers.moved_move refresher now operation i _).refreshes_cases hk ha with
            ⟨u', hk', ha'⟩ | hsome
          · exact ih hk' ha'
          · exact hsome

/-! ## What was refreshed -/

/-- The refreshes of an account. -/
def renewedOf (h : CallerHistory σ α) (id : String) : List (Account × Account) :=
  h.renewed.filter fun r => r.1.id = id

theorem mem_renewedOf {h : CallerHistory σ α} {id : String} {r : Account × Account} :
    r ∈ h.renewedOf id ↔ r ∈ h.renewed ∧ r.1.id = id := by
  rw [renewedOf, List.mem_filter, decide_eq_true_eq]

/-- What a move adds to the refreshes: the one that it has ended well, and that fills a slot. -/
theorem after_move_cases (refresher : Refresher σ) (h : CallerHistory σ α) (i : Nat) (now : Instant)
    (operation : Account → Except SessionError α) :
    ((h.after refresher (.move i now operation)).callers.slots = h.callers.slots ∧
        (h.after refresher (.move i now operation)).renewed = h.renewed) ∨
      ∃ current rejected a, h.callers.callers[i]? = some (.refreshing current rejected (.ok a)) ∧
        (h.after refresher (.move i now operation)).callers.slots = h.callers.slots.set current.id a ∧
        (h.after refresher (.move i now operation)).renewed = h.renewed ++ [(current, a)] := by
  rcases (Callers.moved_move refresher now operation i h.callers).slots_cases with
    ⟨hslots, hnone⟩ | ⟨current, rejected, a, hstands, hslots⟩
  · refine .inl ⟨hslots, ?_⟩
    rw [after, hnone, Option.toList_none, List.append_nil]
  · refine .inr ⟨current, rejected, a, hstands, hslots, ?_⟩
    rw [after, hstands]
    rfl

/-- The refreshes of an account after one more refresh. -/
theorem renewedOf_concat {h h' : CallerHistory σ α} {r : Account × Account}
    (hrenewed : h'.renewed = h.renewed ++ [r]) (id : String) :
    h'.renewedOf id = if r.1.id = id then h.renewedOf id ++ [r] else h.renewedOf id := by
  by_cases hid : r.1.id = id <;> simp [renewedOf, hrenewed, hid]

/-- A slot holds what the last refresh of its account gave. -/
theorem newest_through (refresher : Refresher σ) (state : σ) (events : List (CallerEvent α)) (id : String) :
    (through refresher state events).callers.slots.get? id
      = ((through refresher state events).renewedOf id).getLast?.map Prod.snd := by
  induction events using List.reverseRecOn with
  | nil => rfl
  | append_singleton past e ih =>
      rw [through_concat]
      cases e with
      | arrive a now => exact ih
      | move i now operation =>
          rcases after_move_cases refresher (through refresher state past) i now operation with
            ⟨hslots, hrenewed⟩ | ⟨current, rejected, a, -, hslots, hrenewed⟩
          · rw [hslots, ih, renewedOf, renewedOf, hrenewed]
          · rw [hslots, RefreshSlots.get?_set, renewedOf_concat hrenewed]
            by_cases hid : id = current.id
            · rw [if_pos hid, if_pos hid.symm, List.getLast?_concat]
              rfl
            · rw [if_neg hid, if_neg (Ne.symm hid)]
              exact ih

/-- What a refresher makes of an account, whatever is known of that, was made in every refresh, those that
are under way included. -/
theorem made_through {refresher : Refresher σ} (Made : Account → Account → Prop)
    (hmade : ∀ a s b, (refresher a s).1 = .ok b → Made a b) (state : σ) (events : List (CallerEvent α)) :
    (∀ r ∈ (through refresher state events).renewed, Made r.1 r.2) ∧
      ∀ (k : Nat) (current : Account) (rejected : Bool) (a : Account),
        (through refresher state events).callers.callers[k]? = some (.refreshing current rejected (.ok a)) →
          Made current a := by
  induction events using List.reverseRecOn with
  | nil => exact ⟨fun _ hr => (List.not_mem_nil hr).elim, fun _ _ _ _ hk => by cases hk⟩
  | append_singleton past e ih =>
      obtain ⟨hrenewed, hpending⟩ := ih
      rw [through_concat]
      cases e with
      | arrive a now =>
          refine ⟨hrenewed, fun k current rejected b hk => ?_⟩
          rcases caller_cases_of_arrive hk with hk | ⟨-, hnew⟩
          · exact hpending k current rejected b hk
          · cases hnew
      | move i now operation =>
          refine ⟨fun r hr => ?_, fun k current rejected b hk => ?_⟩
          · -- A refresh is listed as made by the move in which it ends, and was under way before.
            rcases after_move_cases refresher (through refresher state past) i now operation with
              ⟨-, heq⟩ | ⟨current, rejected, a, hstands, -, heq⟩
            · exact hrenewed r (heq ▸ hr)
            · rw [heq] at hr
              rcases List.mem_append.1 hr with hr | hr
              · exact hrenewed r hr
              · rw [List.mem_singleton.1 hr]
                exact hpending i current rejected a hstands
          · rcases (Callers.moved_move refresher now operation i _).caller_cases hk with
              ⟨-, u, -, hadvance⟩ | ⟨-, hk | ⟨_, _, _, hholding⟩⟩
            · generalize hafter : Caller.refreshing current rejected (.ok b) = v at hadvance
              cases hadvance with
              | rests | waits | operates | takes | queues | reuses | renewed => cases hafter
              | renews =>
                  obtain ⟨rfl, rfl, hok⟩ := Caller.refreshing.inj hafter
                  exact hmade _ _ b hok.symm
            · exact hpending k current rejected b hk
            · cases hholding

/-! ## Callers that move as they become ready -/

section Ready

variable (refresher : Refresher σ) (now : Instant) (operation : Account → Except SessionError α)
variable (refreshTime : Nat)

/-- Whether callers come out of a history by moves at one instant. -/
def LeadsTo (h : CallerHistory σ α) (c : Callers σ α) : Prop :=
  ∃ events : List (CallerEvent α), (∀ e ∈ events, ∃ i, e = .move i now operation) ∧
    c = (events.foldl (after refresher) h).callers

theorem leadsTo_self (h : CallerHistory σ α) : LeadsTo refresher now operation h h.callers :=
  ⟨[], fun _ he => (List.not_mem_nil he).elim, rfl⟩

variable {refresher now operation} in
/-- What a history leads to after some moves it leads to before them. -/
theorem LeadsTo.of_moves {h : CallerHistory σ α} {c : Callers σ α} (events : List (CallerEvent α))
    (hmoves : ∀ e ∈ events, ∃ i, e = .move i now operation)
    (hnext : LeadsTo refresher now operation (events.foldl (after refresher) h) c) :
    LeadsTo refresher now operation h c := by
  obtain ⟨events', hmoves', heq⟩ := hnext
  refine ⟨events ++ events', ?_, by rw [List.foldl_append, heq]⟩
  intro e he
  exact (List.mem_append.1 he).elim (hmoves e) (hmoves' e)

/-- A caller that moves on until it waits or is done makes some moves. -/
theorem leadsTo_moveOn (i moves : Nat) (h : CallerHistory σ α) (agenda : Agenda Nat) :
    LeadsTo refresher now operation h
      (Callers.moveOn refresher now operation refreshTime i moves (h.callers, agenda)).1 := by
  induction moves generalizing h agenda with
  | zero => exact leadsTo_self refresher now operation h
  | succ moves ih =>
      rcases hmove : h.callers.move refresher now operation i with ⟨following, c, woken⟩
      have hc : c = (h.after refresher (.move i now operation)).callers := by
        rw [after, hmove]
      simp only [Callers.moveOn, hmove]
      subst hc
      refine LeadsTo.of_moves [.move i now operation] (by simp) ?_
      cases following with
      | goOn => exact ih _ _
      | pause =>
          simp only
          split
          · exact ih _ _
          · exact leadsTo_self refresher now operation _
      | stop => exact leadsTo_self refresher now operation _

/-- Callers that take their turns make some moves. -/
theorem leadsTo_runTurns (turns : Nat) (h : CallerHistory σ α) (agenda : Agenda Nat) :
    LeadsTo refresher now operation h
      (Callers.runTurns refresher now operation refreshTime turns (h.callers, agenda)) := by
  induction turns generalizing h agenda with
  | zero => exact leadsTo_self refresher now operation h
  | succ turns ih =>
      rw [Callers.runTurns]
      cases agenda.next? (agenda.nextWake?.getD agenda.now) with
      | none => exact leadsTo_self refresher now operation h
      | some next =>
          obtain ⟨i, planned⟩ := next
          obtain ⟨events, hmoves, heq⟩ :=
            leadsTo_moveOn refresher now operation refreshTime i Callers.movesAtOnce h planned
          refine LeadsTo.of_moves events hmoves ?_
          have hpair : Callers.moveOn refresher now operation refreshTime i Callers.movesAtOnce
              (h.callers, planned) = ((events.foldl (after refresher) h).callers, _) :=
            Prod.ext heq rfl
          simp only
          rw [hpair]
          exact ih _ _

/-- Callers who all come at once. -/
theorem foldl_arrive (accounts : List Account) (h : CallerHistory σ α) :
    ((accounts.map fun a => .arrive a now).foldl (after refresher) h)
      = { h with
          callers := { h.callers with
            callers := h.callers.callers ++ accounts.map fun a => .acting (.start a now) }
          arrived := h.arrived ++ accounts } := by
  induction accounts generalizing h with
  | nil => simp
  | cons a accounts ih => simp [ih, after]

/-- Callers that all come at once and move as they become ready make a history of one instant. -/
theorem exists_through_runAll (accounts : List Account) (state : σ) :
    ∃ events : List (CallerEvent α), (∀ e ∈ events, e.instant = now) ∧
      Callers.runAll refresher now operation refreshTime accounts [] state
        = (through refresher state events).callers := by
  obtain ⟨events, hmoves, heq⟩ := leadsTo_runTurns refresher now operation refreshTime
    (5 * accounts.length + 1) ((accounts.map fun a => .arrive a now).foldl (after refresher) (opened state))
    { ready := List.range accounts.length }
  refine ⟨(accounts.map fun a => .arrive a now) ++ events, ?_, ?_⟩
  · intro e he
    rcases List.mem_append.1 he with he | he
    · obtain ⟨a, -, rfl⟩ := List.mem_map.1 he
      rfl
    · obtain ⟨i, rfl⟩ := hmoves e he
      rfl
  · rw [through, List.foldl_append, ← heq, foldl_arrive]
    rfl

end Ready

end CallerHistory
end PasswordVault
