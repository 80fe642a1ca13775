import Mathlib.Data.List.Nodup
import PasswordVault.Proofs.Session.Moves

/-!
# Locks — one refresh of an account at a time

Each account has a lock with a queue. What has to hold of a queue is said of its waiters alone (`Locked`):
it is kept when a waiter comes to its end (`Locked.enqueue`) and when its first one leaves
(`Locked.dequeue`).

* `Locked.eq_of_holds`: no two callers hold the lock of one account.
* `Callers.Moved.inOrder`: callers who stand in their queues like this still do after a move.
-/

namespace PasswordVault

/-! ## A queue, seen from its waiters -/

/-- Whether whoever stands in a queue waits for its lock, and whoever holds a lock stands in front. -/
structure Locked (queue : String → List Nat) (waits holds : Nat → Option String) : Prop where
  nodup : ∀ id, (queue id).Nodup
  waiting : ∀ id, ∀ k ∈ queue id, waits k = some id
  front : ∀ k id, holds k = some id → (queue id).head? = some k

namespace Locked

variable {queue queue' : String → List Nat} {waits waits' holds holds' : Nat → Option String}

/-- Mutual exclusion: a lock is held by one caller only. -/
theorem eq_of_holds (h : Locked queue waits holds) {j k : Nat} {id : String} (hj : holds j = some id)
    (hk : holds k = some id) : j = k :=
  Option.some.inj ((h.front j id hj).symm.trans (h.front k id hk))

/-- Whoever does not wait comes to the end of a queue, and holds the lock if nobody was there. -/
theorem enqueue (h : Locked queue waits holds) {i : Nat} {id : String} (hwaits : waits i = none)
    (hqueue' : ∀ id', queue' id' = if id' = id then queue id ++ [i] else queue id')
    (hwaits' : ∀ k, waits' k = if k = i then some id else waits k)
    (hholds' : ∀ k id', holds' k = some id' → holds k = some id' ∨ k = i ∧ id' = id ∧ queue id = []) :
    Locked queue' waits' holds' := by
  -- Who waits for nothing stands in no queue, so it cannot be there twice.
  have habsent : ∀ id', i ∉ queue id' := by
    intro id' hi
    have hsome := h.waiting id' i hi
    rw [hwaits] at hsome
    cases hsome
  have hothers : ∀ id', ∀ k ∈ queue id', waits' k = some id' := by
    intro id' k hk
    have hne : k ≠ i := fun he => habsent id' (he ▸ hk)
    rw [hwaits', if_neg hne]
    exact h.waiting id' k hk
  refine ⟨?_, ?_, ?_⟩
  · intro id'
    rw [hqueue']
    split
    · refine List.nodup_append.2 ⟨h.nodup id, List.nodup_singleton i, ?_⟩
      intro j hj k hk
      rw [List.mem_singleton.1 hk]
      exact fun he => habsent id (he ▸ hj)
    · exact h.nodup id'
  · intro id' k hk
    rw [hqueue'] at hk
    split at hk
    · next hid =>
        rw [hid]
        rcases List.mem_append.1 hk with hk | hk
        · exact hothers id k hk
        · rw [hwaits', if_pos (List.mem_singleton.1 hk)]
    · exact hothers id' k hk
  · intro k id' hk
    rw [hqueue']
    rcases hholds' k id' hk with hold | ⟨rfl, rfl, hempty⟩
    · have hfront := h.front k id' hold
      split
      · next hid => rw [← hid, List.head?_append, hfront, Option.some_or]
      · exact hfront
    · rw [if_pos rfl, hempty]
      rfl

/-- The holder of a lock leaves its queue, and whoever is in front then may hold the lock. -/
theorem dequeue (h : Locked queue waits holds) {i : Nat} {id : String} (hholds : holds i = some id)
    (hqueue' : ∀ id', queue' id' = if id' = id then (queue id).drop 1 else queue id')
    (hwaits' : ∀ k, waits' k = if k = i then none else waits k)
    (hholds' : ∀ k id', holds' k = some id' →
      k ≠ i ∧ (holds k = some id' ∨ ((queue id).drop 1).head? = some k ∧ waits k = some id')) :
    Locked queue' waits' holds' := by
  obtain ⟨rest, hrest⟩ : ∃ rest, queue id = i :: rest :=
    List.head?_eq_some_iff.1 (h.front i id hholds)
  have hdrop : (queue id).drop 1 = rest := by
    rw [hrest]
    rfl
  have hnodup : (i :: rest).Nodup := hrest ▸ h.nodup id
  have hwaits : waits i = some id := h.waiting id i (by simp [hrest])
  have hsub : ∀ id', ∀ k ∈ queue' id', k ∈ queue id' ∧ k ≠ i := by
    intro id' k hk
    rw [hqueue', hdrop] at hk
    split at hk
    · next hid =>
        rw [hid, hrest]
        exact ⟨List.mem_cons_of_mem i hk, fun he => (List.nodup_cons.1 hnodup).1 (he ▸ hk)⟩
    · next hid =>
        -- The holder stands in no other queue, since it waits for this lock.
        refine ⟨hk, fun he => hid ?_⟩
        have hother := h.waiting id' k hk
        rw [he, hwaits] at hother
        exact (Option.some.inj hother).symm
  refine ⟨?_, ?_, ?_⟩
  · intro id'
    rw [hqueue', hdrop]
    split
    · exact hnodup.of_cons
    · exact h.nodup id'
  · intro id' k hk
    obtain ⟨hmem, hne⟩ := hsub id' k hk
    rw [hwaits', if_neg hne]
    exact h.waiting id' k hmem
  · intro k id' hk
    obtain ⟨hne, hcase⟩ := hholds' k id' hk
    rw [hqueue', hdrop]
    rcases hcase with hold | ⟨hnext, hwaitsk⟩
    · have hfront := h.front k id' hold
      split
      · next hid =>
          rw [hid, hrest, List.head?_cons] at hfront
          exact absurd (Option.some.inj hfront).symm hne
      · exact hfront
    · rw [hdrop] at hnext
      have hmem : k ∈ queue id := by
        rw [hrest]
        exact List.mem_cons_of_mem i (List.mem_of_head? hnext)
      have hid : id' = id := by
        rw [h.waiting id k hmem] at hwaitsk
        exact (Option.some.inj hwaitsk).symm
      rw [if_pos hid]
      exact hnext

end Locked

/-! ## Callers in their queues -/

namespace Caller

variable {α : Type}

/-- The id of the account whose lock a caller has or waits for. -/
def waits? : Caller α → Option String
  | .acting _ => none
  | .queued current _ | .holding current _ | .refreshing current _ _ => some current.id

/-- The id of the account whose lock a caller has. -/
def holds? : Caller α → Option String
  | .acting _ | .queued _ _ => none
  | .holding current _ | .refreshing current _ _ => some current.id

end Caller

namespace Callers

variable {σ α : Type}
variable {refresher : Refresher σ} {now : Instant} {operation : Account → Except SessionError α}
variable {i : Nat} {c c' : Callers σ α}

/-- The id of the account whose lock a caller has or waits for. -/
def waits? (c : Callers σ α) (k : Nat) : Option String := c.callers[k]?.bind Caller.waits?

/-- The id of the account whose lock a caller has. -/
def holds? (c : Callers σ α) (k : Nat) : Option String := c.callers[k]?.bind Caller.holds?

theorem waits?_of_stands {k : Nat} {u : Caller α} (stands : c.callers[k]? = some u) :
    c.waits? k = u.waits? := by
  rw [waits?, stands, Option.bind_some]

theorem holds?_of_stands {k : Nat} {u : Caller α} (stands : c.callers[k]? = some u) :
    c.holds? k = u.holds? := by
  rw [holds?, stands, Option.bind_some]

/-- Whether the callers stand in the queues as they should. -/
def InOrder (c : Callers σ α) : Prop := Locked c.queue c.waits? c.holds?

theorem bind_setCaller {β : Type} (f : Caller α → Option β) {c : Callers σ α} {i : Nat}
    {u : Caller α} (stands : c.callers[i]? = some u) (v : Caller α) (k : Nat) :
    (c.setCaller i v).callers[k]?.bind f = if k = i then f v else c.callers[k]?.bind f := by
  have hlt : i < c.callers.length := (List.getElem?_eq_some_iff.1 stands).1
  rw [setCaller, List.getElem?_set]
  by_cases hk : i = k
  · rw [if_pos hk, if_pos hlt, if_pos hk.symm, Option.bind_some]
  · rw [if_neg hk, if_neg (Ne.symm hk)]

/-- What callers show does not change with one of them if that shows the same. -/
theorem bind_setCaller_of_eq {β : Type} {f : Caller α → Option β} {u v : Caller α}
    (stands : c.callers[i]? = some u) (hf : f v = f u) :
    (fun k : Nat => (c.setCaller i v).callers[k]?.bind f) = fun k => c.callers[k]?.bind f := by
  funext k
  rw [bind_setCaller f stands]
  split
  · next hk => rw [hk, stands, Option.bind_some, hf]
  · rfl

/-- A caller that keeps its place in the queues changes nothing about the locks. -/
theorem InOrder.setCaller (h : c.InOrder) {u v : Caller α} (stands : c.callers[i]? = some u)
    (hwaits : v.waits? = u.waits?) (hholds : v.holds? = u.holds?) : (c.setCaller i v).InOrder := by
  have hw : (c.setCaller i v).waits? = c.waits? := bind_setCaller_of_eq stands hwaits
  have hh : (c.setCaller i v).holds? = c.holds? := bind_setCaller_of_eq stands hholds
  rw [InOrder, hw, hh]
  exact h

/-- A caller that wants to refresh an account joins the queue for its lock. -/
theorem InOrder.join (h : c.InOrder) {current : Account} {rejected : Bool}
    (stands : c.callers[i]? = some (.acting (.refresh current rejected))) {v : Caller α}
    (hwaits : v.waits? = some current.id)
    (hholds : v.holds? = none ∨ v.holds? = some current.id ∧ c.queue current.id = []) :
    ((c.setQueue current.id (c.queue current.id ++ [i])).setCaller i v).InOrder := by
  have hset : ∀ (f : Caller α → Option String) (k : Nat),
      ((c.setQueue current.id (c.queue current.id ++ [i])).setCaller i v).callers[k]?.bind f
        = if k = i then f v else c.callers[k]?.bind f :=
    fun f => bind_setCaller f (c := c.setQueue current.id (c.queue current.id ++ [i])) stands v
  have hacting : c.waits? i = none := waits?_of_stands stands
  refine h.enqueue hacting (fun id' => queue_setQueue c current.id id' _) ?_ ?_
  · intro k
    rw [waits?, hset, hwaits]
    rfl
  · intro k id' hk
    rw [holds?, hset] at hk
    split at hk
    · next hki =>
        -- Whoever joins holds the lock only if nobody was before.
        rcases hholds with hnone | ⟨hsome, hempty⟩
        · rw [hnone] at hk
          cases hk
        · rw [hsome] at hk
          exact .inr ⟨hki, (Option.some.inj hk).symm, hempty⟩
    · exact .inl hk

/-! What is left when the holder of a lock has released it and acts on. -/

theorem queue_release (c : Callers σ α) (id id' : String) (v : Caller α) :
    ((c.release id).1.setCaller i v).queue id'
      = if id' = id then (c.queue id).drop 1 else c.queue id' := by
  obtain ⟨callers, heq, -, -⟩ := exists_release c id
  rw [heq]
  exact queue_setQueue c id id' _

theorem bind_release {β : Type} (f : Caller α → Option β) {id : String} (hholds : c.holds? i = some id)
    (v : Caller α) (k : Nat) : ((c.release id).1.setCaller i v).callers[k]?.bind f
      = if k = i then f v else (c.release id).1.callers[k]?.bind f := by
  obtain ⟨u, hu, -⟩ := Option.bind_eq_some_iff.1 hholds
  obtain ⟨callers, heq, -, hothers⟩ := exists_release c id
  obtain ⟨u', stands⟩ : ∃ u', (c.release id).1.callers[i]? = some u' := by
    rw [heq]
    rcases hothers i with hi | ⟨current, rejected, -, -, hi⟩
    · exact ⟨u, hi.trans hu⟩
    · exact ⟨_, hi⟩
  exact bind_setCaller f stands v k

/-- After a release its holder waits for nothing, and all others wait for what they did. -/
theorem waits?_release {id : String} (hholds : c.holds? i = some id) (use : TokenUse α) (k : Nat) :
    ((c.release id).1.setCaller i (.acting use)).waits? k = if k = i then none else c.waits? k := by
  rw [waits?, bind_release Caller.waits? hholds]
  obtain ⟨callers, heq, -, hothers⟩ := exists_release c id
  rw [heq]
  split
  · rfl
  · rcases hothers k with hsame | ⟨current, rejected, -, hqueued, hholding⟩
    · rw [waits?, hsame]
    · rw [waits?, hqueued, hholding]
      rfl

/-- The holder of a lock releases it and acts on. -/
theorem InOrder.release (h : c.InOrder) {id : String} (hholds : c.holds? i = some id)
    (use : TokenUse α) : ((c.release id).1.setCaller i (.acting use)).InOrder := by
  refine h.dequeue hholds (fun id' => queue_release c id id' _) (waits?_release hholds use) ?_
  intro k id' hk
  rw [holds?, bind_release Caller.holds? hholds] at hk
  obtain ⟨callers, heq, -, hothers⟩ := exists_release c id
  rw [heq] at hk
  split at hk
  · cases hk
  · next hne =>
      refine ⟨hne, ?_⟩
      rcases hothers k with hsame | ⟨current, rejected, hnext, hqueued, hholding⟩
      · exact .inl (by rw [holds?, ← hsame, hk])
      · refine .inr ⟨hnext, ?_⟩
        rw [hholding] at hk
        rw [waits?, hqueued]
        exact hk

/-- One move keeps the callers in order. -/
theorem Moved.inOrder (hmoved : Moved refresher now operation i c c') (h : c.InOrder) : c'.InOrder := by
  cases hmoved with
  | stays => exact h
  | operates stands => exact h.setCaller stands rfl rfl
  | @takes current rejected stands free =>
      have hjoin := h.join (v := .holding current rejected) stands rfl (.inr ⟨rfl, free⟩)
      rw [free] at hjoin
      exact hjoin
  | queues stands => exact h.join stands rfl (.inl rfl)
  | reuses stands => exact h.release (holds?_of_stands stands) _
  | renews stands => exact h.setCaller stands rfl rfl
  | @renewed current rejected outcome stands =>
      exact InOrder.release (c := { c with slots := c.slots.keep current.id outcome }) h
        (holds?_of_stands stands) _

end Callers
end PasswordVault
