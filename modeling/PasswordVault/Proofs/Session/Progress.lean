import Mathlib.Algebra.Order.BigOperators.Group.Finset
import PasswordVault.Proofs.Session.Histories

/-!
# Progress — every caller that is let move is done in the end

No caller can wait for ever: whoever waits for a lock stands in its queue, and a lock that is queued for
is held by somebody (`Attended`). A caller that is free to move comes closer to its end with each move, and
nobody is thrown back by the moves of others.

* `Callers.Moved.flowing`: a move strands nobody.
* `Callers.Moved.total_lt`: the move of a caller that is free to move leaves fewer moves to all together.
* `CallerHistory.exists_outcome_of_rounds`: after ten rounds for each caller, all of them are done.
-/

namespace PasswordVault

/-! ## Locks that are attended to -/

/-- Whether whoever waits for a lock stands in its queue, and a lock that is queued for is held. -/
structure Attended (queue : String → List Nat) (waits holds : Nat → Option String) : Prop where
  joined : ∀ k id, waits k = some id → k ∈ queue id
  served : ∀ id, queue id ≠ [] → ∃ k, holds k = some id

namespace Attended

variable {queue queue' : String → List Nat} {waits waits' holds holds' : Nat → Option String}

/-- Whoever finds a lock free holds it; else somebody still does. -/
theorem enqueue (h : Attended queue waits holds) {i : Nat} {id : String}
    (hqueue' : ∀ id', queue' id' = if id' = id then queue id ++ [i] else queue id')
    (hwaits' : ∀ k, waits' k = if k = i then some id else waits k)
    (hkept : ∀ k id', holds k = some id' → holds' k = some id')
    (hfree : queue id = [] → holds' i = some id) : Attended queue' waits' holds' := by
  constructor
  · intro k id' hk
    rw [hwaits'] at hk
    rw [hqueue']
    split at hk
    · next hki =>
        cases hk
        rw [if_pos rfl, hki]
        exact List.mem_append_right _ (List.mem_singleton_self i)
    · have hold := h.joined k id' hk
      split
      · next hid => exact List.mem_append_left _ (hid ▸ hold)
      · exact hold
  · intro id' hne
    rw [hqueue'] at hne
    by_cases hid : id' = id
    · rw [hid]
      -- Whoever joins an empty queue holds the lock at once; one that was not empty has its holder still.
      by_cases hempty : queue id = []
      · exact ⟨i, hfree hempty⟩
      · obtain ⟨k, hk⟩ := h.served id hempty
        exact ⟨k, hkept k id hk⟩
    · rw [if_neg hid] at hne
      obtain ⟨k, hk⟩ := h.served id' hne
      exact ⟨k, hkept k id' hk⟩

/-- The holder of a lock leaves its queue, and whoever is in front then holds the lock. -/
theorem dequeue (h : Attended queue waits holds) {i : Nat} {id : String} {rest : List Nat}
    (hrest : queue id = i :: rest) (hholds : holds i = some id)
    (hqueue' : ∀ id', queue' id' = if id' = id then rest else queue id')
    (hwaits' : ∀ k, waits' k = if k = i then none else waits k)
    (hkept : ∀ k id', k ≠ i → holds k = some id' → holds' k = some id')
    (hnext : ∀ k, rest.head? = some k → holds' k = some id) : Attended queue' waits' holds' := by
  constructor
  · intro k id' hk
    rw [hwaits'] at hk
    split at hk
    · cases hk
    · next hne =>
        have hold := h.joined k id' hk
        rw [hqueue']
        split
        · next hid =>
            rw [hid, hrest] at hold
            exact (List.mem_cons.1 hold).resolve_left hne
        · exact hold
  · intro id' hne
    rw [hqueue'] at hne
    by_cases hid : id' = id
    · rw [if_pos hid] at hne
      -- Whoever is now first in the queue has been given the lock.
      obtain ⟨k, more, hrest'⟩ := List.exists_cons_of_ne_nil hne
      exact ⟨k, hid ▸ hnext k (by rw [hrest', List.head?_cons])⟩
    · rw [if_neg hid] at hne
      obtain ⟨k, hk⟩ := h.served id' hne
      refine ⟨k, hkept k id' (fun hki => ?_) hk⟩
      rw [hki, hholds] at hk
      exact hid (Option.some.inj hk).symm

end Attended

/-! ## Moves that are left -/

/-- How many moves are left before a caller that goes on is done. The lock that a waiter is given counts as
one, and a token that was not rejected may still be, which takes five more. -/
def Caller.movesLeft {α : Type} : Caller α → Nat
  | .acting (.done _) => 0
  | .acting (.operate _ rejected) => 1 + again rejected
  | .refreshing _ rejected _ => 2 + again rejected
  | .holding _ rejected => 3 + again rejected
  | .queued _ rejected => 4 + again rejected
  | .acting (.refresh _ rejected) => 5 + again rejected
where
  /-- The moves for another token. -/
  again (rejected : Bool) : Nat := if rejected then 0 else 5

/-- Whether a caller is free to move. -/
def Caller.isFree {α : Type} : Caller α → Bool
  | .acting (.done _) | .queued _ _ => false
  | .acting (.operate _ _) | .acting (.refresh _ _) | .holding _ _ | .refreshing _ _ _ => true

theorem Caller.movesLeft_le {α : Type} (u : Caller α) : u.movesLeft ≤ 10 := by
  have hagain : ∀ rejected, movesLeft.again rejected ≤ 5 := by decide
  unfold movesLeft
  split
  · exact Nat.zero_le 10
  all_goals
    have := hagain ‹Bool›
    omega

/-! ## Callers that are not stranded -/

namespace Callers

variable {σ α : Type}
variable {refresher : Refresher σ} {now : Instant} {operation : Account → Except SessionError α}
variable {i : Nat} {c c' : Callers σ α}

/-- Whether no caller waits for a lock that nobody will give it. -/
def Flowing (c : Callers σ α) : Prop := Attended c.queue c.waits? c.holds?

theorem Flowing.setCaller (h : c.Flowing) {u v : Caller α} (stands : c.callers[i]? = some u)
    (hwaits : v.waits? = u.waits?) (hholds : v.holds? = u.holds?) : (c.setCaller i v).Flowing := by
  have hw : (c.setCaller i v).waits? = c.waits? := bind_setCaller_of_eq stands hwaits
  have hh : (c.setCaller i v).holds? = c.holds? := bind_setCaller_of_eq stands hholds
  rw [Flowing, hw, hh]
  exact h

/-- A caller that joins a queue waits for somebody, or holds the lock itself. -/
theorem Flowing.join (h : c.Flowing) {current : Account} {rejected : Bool}
    (stands : c.callers[i]? = some (.acting (.refresh current rejected))) {v : Caller α}
    (hwaits : v.waits? = some current.id)
    (hholds : c.queue current.id = [] → v.holds? = some current.id) :
    ((c.setQueue current.id (c.queue current.id ++ [i])).setCaller i v).Flowing := by
  have hset : ∀ (f : Caller α → Option String) (k : Nat),
      ((c.setQueue current.id (c.queue current.id ++ [i])).setCaller i v).callers[k]?.bind f
        = if k = i then f v else c.callers[k]?.bind f :=
    fun f => bind_setCaller f (c := c.setQueue current.id (c.queue current.id ++ [i])) stands v
  refine h.enqueue (fun id' => queue_setQueue c current.id id' _) ?_ ?_ ?_
  · intro k
    rw [waits?, hset, hwaits]
    rfl
  · intro k id' hk
    rw [holds?, hset]
    split
    · next hki =>
        -- The caller that joins was acting, so it held no lock.
        rw [hki, holds?_of_stands stands] at hk
        cases hk
    · exact hk
  · intro hempty
    rw [holds?, hset, if_pos rfl]
    exact hholds hempty

/-- The caller that has waited longest is given the lock. -/
theorem getElem?_release_of_queued {id : String} {j : Nat} {current : Account} {rejected : Bool}
    (hnext : ((c.queue id).drop 1).head? = some j)
    (hqueued : c.callers[j]? = some (.queued current rejected)) :
    (c.release id).1.callers[j]? = some (.holding current rejected) := by
  have hlt : j < c.callers.length := (List.getElem?_eq_some_iff.1 hqueued).1
  simp only [release, hnext, callers_setQueue, hqueued]
  exact List.getElem?_set_self hlt

/-- Whoever waits for a lock without holding it stands still. -/
theorem queued_of_waits {k : Nat} {id : String} (hwaits : c.waits? k = some id)
    (hholds : c.holds? k ≠ some id) :
    ∃ current rejected, current.id = id ∧ c.callers[k]? = some (.queued current rejected) := by
  obtain ⟨u, hu, hid⟩ := Option.bind_eq_some_iff.1 hwaits
  have hnot : u.holds? ≠ some id := holds?_of_stands hu ▸ hholds
  cases u with
  | acting => cases hid
  | queued current rejected => exact ⟨current, rejected, Option.some.inj hid, hu⟩
  | holding | refreshing => exact absurd hid hnot

/-- A released lock goes to the next in its queue, so that nobody is left waiting. -/
theorem Flowing.release (h : c.Flowing) (hinOrder : c.InOrder) {id : String}
    (hholds : c.holds? i = some id) (use : TokenUse α) :
    ((c.release id).1.setCaller i (.acting use)).Flowing := by
  obtain ⟨rest, hrest⟩ : ∃ rest, c.queue id = i :: rest :=
    List.head?_eq_some_iff.1 (hinOrder.front i id hholds)
  have hdrop : (c.queue id).drop 1 = rest := by
    rw [hrest]
    rfl
  have hqueue := fun id' => queue_release (i := i) c id id' (.acting use)
  rw [hdrop] at hqueue
  refine h.dequeue hrest hholds hqueue (waits?_release hholds use) ?_ ?_
  · intro k id' hne hk
    rw [holds?, bind_release Caller.holds? hholds, if_neg hne]
    obtain ⟨callers, heq, -, hothers⟩ := exists_release c id
    rw [heq]
    rcases hothers k with hsame | ⟨current, rejected, -, hqueued, -⟩
    · rw [hsame]
      exact hk
    · rw [holds?_of_stands hqueued] at hk
      cases hk
  · intro k hnext
    -- Whoever is next waits for the lock and does not have it, so it stands still in the queue.
    have hnodup : (i :: rest).Nodup := hrest ▸ hinOrder.nodup id
    have hmem : k ∈ rest := List.mem_of_head? hnext
    have hne : k ≠ i := fun hki => (List.nodup_cons.1 hnodup).1 (hki ▸ hmem)
    have hwaits : c.waits? k = some id :=
      hinOrder.waiting id k (hrest ▸ List.mem_cons_of_mem i hmem)
    have hnot : c.holds? k ≠ some id := fun hk => hne (hinOrder.eq_of_holds hk hholds)
    obtain ⟨current, rejected, rfl, hqueued⟩ := queued_of_waits hwaits hnot
    rw [holds?, bind_release Caller.holds? hholds, if_neg hne,
      getElem?_release_of_queued (hdrop ▸ hnext) hqueued]
    rfl

/-- One move strands nobody. -/
theorem Moved.flowing (hmoved : Moved refresher now operation i c c') (hinOrder : c.InOrder)
    (h : c.Flowing) : c'.Flowing := by
  cases hmoved with
  | stays => exact h
  | operates stands => exact h.setCaller stands rfl rfl
  | @takes current rejected stands free =>
      have hjoin := h.join (v := .holding current rejected) stands rfl fun _ => rfl
      rw [free] at hjoin
      exact hjoin
  | queues stands taken => exact h.join stands rfl fun free => absurd free taken
  | reuses stands => exact h.release hinOrder (holds?_of_stands stands) _
  | renews stands => exact h.setCaller stands rfl rfl
  | @renewed current rejected outcome stands =>
      exact Flowing.release (c := { c with slots := c.slots.keep current.id outcome }) h hinOrder
        (holds?_of_stands stands) _

/-! ## Fewer moves are left -/

/-- A caller that advances is done, or it waits, or fewer moves are left to it. -/
theorem Advances.movesLeft_cases {u u' : Caller α} (h : Advances refresher now operation c u u') :
    u' = u ∧ u.isFree = false ∨ u'.movesLeft < u.movesLeft := by
  cases h with
  | rests | waits => exact .inl ⟨rfl, rfl⟩
  | operates latest rejected =>
      refine .inr ?_
      unfold TokenUse.afterOperation
      split
      · split
        · next hrejected =>
            -- The moves for another token were counted when this one was not yet rejected.
            simp [Caller.movesLeft, Caller.movesLeft.again, hrejected.2]
        · simp [Caller.movesLeft]
      · simp [Caller.movesLeft]
  | takes | queues | reuses | renews => exact .inr (by simp [Caller.movesLeft])
  | renewed current rejected outcome =>
      refine .inr ?_
      cases outcome with
      | ok a => simp [Caller.movesLeft, TokenUse.afterRefresh]
      | error e => simp [Caller.movesLeft, TokenUse.afterRefresh]

def left (c : Callers σ α) (k : Nat) : Nat := c.callers[k]?.elim 0 Caller.movesLeft

/-- How many moves are left to all callers together. -/
def total (c : Callers σ α) : Nat := ∑ k ∈ Finset.range c.callers.length, c.left k

/-- No move takes anybody further from the end. -/
theorem Moved.left_le (hmoved : Moved refresher now operation i c c') (k : Nat) : c'.left k ≤ c.left k := by
  unfold left
  cases hk : c'.callers[k]? with
  | none => exact Nat.zero_le _
  | some u' =>
      rcases hmoved.caller_cases hk with ⟨-, u, hu, hadvance⟩ | ⟨-, hsame | ⟨_, _, hqueued, rfl⟩⟩
      · rw [hu]
        rcases hadvance.movesLeft_cases with ⟨rfl, -⟩ | hlt
        · exact Nat.le_refl _
        · exact Nat.le_of_lt hlt
      · rw [hsame]
      · rw [hqueued]
        simp [Caller.movesLeft]

theorem Moved.total_le (hmoved : Moved refresher now operation i c c') : c'.total ≤ c.total := by
  rw [total, total, hmoved.length_eq]
  exact Finset.sum_le_sum fun k _ => hmoved.left_le k

/-- The caller that moves advances. -/
theorem Moved.exists_advances (hmoved : Moved refresher now operation i c c') {u : Caller α}
    (stands : c.callers[i]? = some u) :
    ∃ u', c'.callers[i]? = some u' ∧ Advances refresher now operation c u u' := by
  have hlt : i < c.callers.length := (List.getElem?_eq_some_iff.1 stands).1
  obtain ⟨u', hu'⟩ : ∃ u', c'.callers[i]? = some u' :=
    ⟨_, List.getElem?_eq_getElem (hmoved.length_eq ▸ hlt)⟩
  rcases hmoved.caller_cases hu' with ⟨-, v, hv, hadvance⟩ | ⟨hne, -⟩
  · rw [stands] at hv
    cases hv
    exact ⟨u', hu', hadvance⟩
  · exact absurd rfl hne

/-- The move of a caller that is free to move brings all together closer to the end. -/
theorem Moved.total_lt (hmoved : Moved refresher now operation i c c') {u : Caller α}
    (stands : c.callers[i]? = some u) (hfree : u.isFree = true) : c'.total < c.total := by
  have hlt : i < c.callers.length := (List.getElem?_eq_some_iff.1 stands).1
  obtain ⟨u', hu', hadvance⟩ := hmoved.exists_advances stands
  have hown : c'.left i < c.left i := by
    rw [left, left, hu', stands]
    rcases hadvance.movesLeft_cases with ⟨-, hidle⟩ | hcloser
    · rw [hfree] at hidle
      cases hidle
    · exact hcloser
  rw [total, total, hmoved.length_eq]
  exact Finset.sum_lt_sum (fun k _ => hmoved.left_le k) ⟨i, Finset.mem_range.2 hlt, hown⟩

/-- Whoever is free to move and does not is still free to move. -/
theorem Moved.stands_of_ne (hmoved : Moved refresher now operation i c c') {k : Nat} {u : Caller α}
    (hne : k ≠ i) (stands : c.callers[k]? = some u) (hfree : u.isFree = true) :
    c'.callers[k]? = some u := by
  have hlt : k < c.callers.length := (List.getElem?_eq_some_iff.1 stands).1
  obtain ⟨u', hu'⟩ : ∃ u', c'.callers[k]? = some u' :=
    ⟨_, List.getElem?_eq_getElem (hmoved.length_eq ▸ hlt)⟩
  rcases hmoved.caller_cases hu' with ⟨hki, -⟩ | ⟨-, hsame | ⟨_, _, hqueued, -⟩⟩
  · exact absurd hki hne
  · rw [stands] at hsame
    rw [hu', hsame]
  · rw [stands] at hqueued
    cases hqueued
    cases hfree

/-- As long as somebody is not done, somebody is free to move. -/
theorem Flowing.exists_isFree (h : c.Flowing) (hleft : c.total ≠ 0) :
    ∃ (k : Nat) (u : Caller α), c.callers[k]? = some u ∧ u.isFree = true := by
  obtain ⟨k, -, hk⟩ := Finset.exists_ne_zero_of_sum_ne_zero hleft
  unfold left at hk
  cases hu : c.callers[k]? with
  | none => simp [hu] at hk
  | some u =>
      by_cases hfree : u.isFree = true
      · exact ⟨k, u, hu, hfree⟩
      · cases u with
        | acting use =>
            cases use with
            | done result => simp [hu, Caller.movesLeft] at hk
            | refresh | operate => exact absurd rfl hfree
        | holding | refreshing => exact absurd rfl hfree
        | queued current rejected =>
            -- Somebody holds the lock that this caller waits for.
            have hwaits : c.waits? k = some current.id := waits?_of_stands hu
            have hqueue : c.queue current.id ≠ [] := List.ne_nil_of_mem (h.joined k _ hwaits)
            obtain ⟨j, hj⟩ := h.served _ hqueue
            obtain ⟨v, hv, hholds⟩ := Option.bind_eq_some_iff.1 hj
            refine ⟨j, v, hv, ?_⟩
            cases v with
            | acting | queued => cases hholds
            | holding | refreshing => rfl

/-- A caller has ten moves at most. -/
theorem total_le (c : Callers σ α) : c.total ≤ 10 * c.callers.length := by
  have hone : ∀ k ∈ Finset.range c.callers.length, c.left k ≤ 10 := by
    intro k _
    unfold left
    cases c.callers[k]? with
    | none => exact Nat.zero_le 10
    | some u => exact u.movesLeft_le
  calc c.total
      ≤ (Finset.range c.callers.length).card • 10 := Finset.sum_le_card_nsmul _ _ 10 hone
    _ = c.callers.length * 10 := congrArg (· * 10) (Finset.card_range _)
    _ = 10 * c.callers.length := Nat.mul_comm _ _

/-- If no moves are left, everybody is done. -/
theorem exists_outcome_of_total (hzero : c.total = 0) {k : Nat} (hk : k < c.callers.length) :
    ∃ r, c.outcome? k = some r := by
  have hleft : c.left k = 0 := Finset.sum_eq_zero_iff.1 hzero k (Finset.mem_range.2 hk)
  rw [left, List.getElem?_eq_getElem hk, Option.elim_some] at hleft
  rw [outcome?, List.getElem?_eq_getElem hk]
  cases hu : c.callers[k] with
  | acting use =>
      cases use with
      | done result => exact ⟨result, rfl⟩
      | refresh | operate => simp [hu, Caller.movesLeft] at hleft
  | queued | holding | refreshing => simp [hu, Caller.movesLeft] at hleft

end Callers

/-! ## Rounds -/

namespace CallerHistory

variable {σ α : Type}
variable {refresher : Refresher σ} {h : CallerHistory σ α}

/-- The start: nobody has come, and some accounts are in the slots. -/
def begun (slots : RefreshSlots) (state : σ) : CallerHistory σ α :=
  { callers := { callers := [], slots, state } }

/-- A round of moves: nobody comes, and each of some number of callers is let move. -/
structure IsRound (n : Nat) (round : List (CallerEvent α)) : Prop where
  moves : ∀ e ∈ round, ∃ i now operation, e = .move i now operation
  everyone : ∀ k < n, ∃ now operation, .move k now operation ∈ round

/-- Whatever happens strands nobody. -/
theorem flowing_after (hinOrder : h.callers.InOrder) (hflowing : h.callers.Flowing)
    (e : CallerEvent α) : (h.after refresher e).callers.Flowing := by
  cases e with
  | arrive a now =>
      have hw : Callers.waits? (h.after refresher (.arrive a now)).callers = h.callers.waits? :=
        bind_arrive rfl h.callers.callers
      have hh : Callers.holds? (h.after refresher (.arrive a now)).callers = h.callers.holds? :=
        bind_arrive rfl h.callers.callers
      rw [Callers.Flowing, hw, hh]
      exact hflowing
  | move i now operation => exact (Callers.moved_move refresher now operation i _).flowing hinOrder hflowing

theorem flowing_begun (slots : RefreshSlots) (state : σ) :
    (begun slots state : CallerHistory σ α).callers.InOrder ∧
      (begun slots state : CallerHistory σ α).callers.Flowing :=
  ⟨⟨fun _ => List.nodup_nil, fun _ _ hk => (List.not_mem_nil hk).elim, fun _ _ hk => by cases hk⟩,
    ⟨fun _ _ hk => (by cases hk), fun _ hne => absurd rfl hne⟩⟩

theorem flowing_foldl (refresher : Refresher σ) (hinOrder : h.callers.InOrder) (hflowing : h.callers.Flowing)
    (events : List (CallerEvent α)) :
    (events.foldl (after refresher) h).callers.InOrder ∧
      (events.foldl (after refresher) h).callers.Flowing := by
  induction events generalizing h with
  | nil => exact ⟨hinOrder, hflowing⟩
  | cons e events ih =>
      exact ih (inOrder_after refresher hinOrder e) (flowing_after hinOrder hflowing e)

/-- While callers only move, nobody comes and no moves are added. -/
theorem total_foldl_le (refresher : Refresher σ) (h : CallerHistory σ α) {events : List (CallerEvent α)}
    (hmoves : ∀ e ∈ events, ∃ i now operation, e = .move i now operation) :
    (events.foldl (after refresher) h).callers.callers.length = h.callers.callers.length ∧
      (events.foldl (after refresher) h).callers.total ≤ h.callers.total := by
  induction events generalizing h with
  | nil => exact ⟨rfl, Nat.le_refl _⟩
  | cons e events ih =>
      obtain ⟨i, now, operation, rfl⟩ := hmoves _ List.mem_cons_self
      have hmoved := Callers.moved_move refresher now operation i h.callers
      obtain ⟨hlength, htotal⟩ := ih (h := h.after refresher (.move i now operation))
        fun e he => hmoves e (List.mem_cons_of_mem _ he)
      exact ⟨hlength.trans hmoved.length_eq, htotal.trans hmoved.total_le⟩

/-- Moves among which is one of a caller that is free to move bring all together closer to the end. -/
theorem total_foldl_lt (refresher : Refresher σ) {events : List (CallerEvent α)}
    (hmoves : ∀ e ∈ events, ∃ i now operation, e = .move i now operation) {k : Nat} {u : Caller α}
    (stands : h.callers.callers[k]? = some u) (hfree : u.isFree = true)
    (hmove : ∃ now operation, .move k now operation ∈ events) :
    (events.foldl (after refresher) h).callers.total < h.callers.total := by
  induction events generalizing h with
  | nil =>
      obtain ⟨now, operation, hmem⟩ := hmove
      cases hmem
  | cons e events ih =>
      obtain ⟨i, now, operation, rfl⟩ := hmoves _ List.mem_cons_self
      have hmoved := Callers.moved_move refresher now operation i h.callers
      have hrest : ∀ e ∈ events, ∃ i now operation, e = .move i now operation :=
        fun e he => hmoves e (List.mem_cons_of_mem _ he)
      by_cases hki : k = i
      · have hnext := (total_foldl_le refresher (h.after refresher (.move i now operation)) hrest).2
        exact hnext.trans_lt (hmoved.total_lt (hki ▸ stands) hfree)
      · -- Until its turn comes, the caller stays where it is.
        have hstill : ∃ now operation, .move k now operation ∈ events := by
          obtain ⟨now', operation', hmem⟩ := hmove
          rcases List.mem_cons.1 hmem with heq | hmem
          · cases heq
            exact absurd rfl hki
          · exact ⟨now', operation', hmem⟩
        have hnext := ih (h := h.after refresher (.move i now operation)) hrest
          (hmoved.stands_of_ne hki stands hfree) hstill
        exact hnext.trans_le hmoved.total_le

/-- Each round takes a move from what is left, as long as there is one. -/
theorem total_foldl_rounds (refresher : Refresher σ) (hinOrder : h.callers.InOrder)
    (hflowing : h.callers.Flowing) {rounds : List (List (CallerEvent α))}
    (hrounds : ∀ round ∈ rounds, IsRound h.callers.callers.length round) :
    (rounds.flatten.foldl (after refresher) h).callers.callers.length = h.callers.callers.length ∧
      (rounds.flatten.foldl (after refresher) h).callers.total ≤ h.callers.total - rounds.length := by
  induction rounds generalizing h with
  | nil => exact ⟨rfl, Nat.le_refl _⟩
  | cons round rounds ih =>
      have hround := hrounds round List.mem_cons_self
      have hnext := flowing_foldl refresher hinOrder hflowing round
      obtain ⟨hlength, hle⟩ := total_foldl_le refresher h hround.moves
      -- Unless all is done somebody can move, and in a round everybody has a turn.
      have hone : (round.foldl (after refresher) h).callers.total ≤ h.callers.total - 1 := by
        by_cases hzero : h.callers.total = 0
        · omega
        · obtain ⟨k, u, stands, hfree⟩ := hflowing.exists_isFree hzero
          have hk : k < h.callers.callers.length := (List.getElem?_eq_some_iff.1 stands).1
          have hlt := total_foldl_lt refresher hround.moves stands hfree
            (hround.everyone k hk)
          omega
      have hmore := ih (h := round.foldl (after refresher) h) hnext.1 hnext.2 fun round' hmem =>
        hlength ▸ hrounds round' (List.mem_cons_of_mem round hmem)
      rw [List.flatten_cons, List.foldl_append, List.length_cons]
      exact ⟨hmore.1.trans hlength, by omega⟩

/-- After ten rounds for each caller everybody is done, whatever the refresher and the operations do. -/
theorem exists_outcome_of_rounds (refresher : Refresher σ) (hinOrder : h.callers.InOrder)
    (hflowing : h.callers.Flowing) {rounds : List (List (CallerEvent α))}
    (hrounds : ∀ round ∈ rounds, IsRound h.callers.callers.length round)
    (hmany : 10 * h.callers.callers.length ≤ rounds.length) {k : Nat}
    (hk : k < h.callers.callers.length) :
    ∃ r, (rounds.flatten.foldl (after refresher) h).callers.outcome? k = some r := by
  obtain ⟨hlength, htotal⟩ := total_foldl_rounds refresher hinOrder hflowing hrounds
  have hstart := h.callers.total_le
  have hzero : (rounds.flatten.foldl (after refresher) h).callers.total = 0 := by omega
  exact Callers.exists_outcome_of_total hzero (hlength ▸ hk)

end CallerHistory
end PasswordVault
