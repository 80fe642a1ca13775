import Mathlib.Logic.Function.Iterate
import Mathlib.Logic.Relation
import PasswordVault.Proofs.Session.Histories

/-!
# In turn — callers that do not meet

A caller that finds all locks free and is left to itself comes to the outcome of `withValidToken`, which
knows of no locks. So callers that come one after the other make a history, with the outcomes and slots
of uses of tokens from start to end.

* `TokenUse.iterate_next_start`: one use of a token, step by step.
* `Callers.exists_alone_withValidToken`: one caller, left to itself.
* `CallerHistory.exists_through_inTurn`: any number of callers, one after the other.
-/

namespace PasswordVault

variable {σ α : Type}

/-! ## One use of a token, step by step -/

/-- The first step of a computation is run. -/
theorem bind_of_run {τ β γ : Type} {x : StateM τ β} {f : β → StateM τ γ} {t t' : τ} {b : β}
    (h : x t = (b, t')) : (x >>= f) t = f b t' := by
  change f (x t).1 (x t).2 = f b t'
  rw [h]

namespace TokenUse

section
variable (refresher : Refresher σ) (now : Instant) (operation : Account → Except SessionError α)

/-- What a use of a token has to do next is done, where nobody else uses tokens. -/
def next : TokenUse α × σ × RefreshSlots → TokenUse α × σ × RefreshSlots
  | (.refresh current rejected, s) =>
    let (outcome, s) := refreshOnce refresher now current s
    (.afterRefresh rejected outcome, s)
  | (.operate latest rejected, s) => (.afterOperation latest rejected (operation latest), s)
  | (.done result, s) => (.done result, s)

/-- What comes of an operation with an account whose token has not been rejected yet. -/
def outcomeWith (latest : Account) (s : σ × RefreshSlots) : Except SessionError α × σ × RefreshSlots :=
  match operation latest with
  | .error .unauthorized =>
    if latest.token.isSome then
      match refreshOnce refresher now latest s with
      | (.error e, s) => (.error e, s)
      | (.ok latest, s) => (operation latest, s)
    else (.error .unauthorized, s)
  | outcome => (outcome, s)

/-- An operation with an account whose token has not been rejected yet, as a computation. -/
def operateWith (latest : Account) : StateM (σ × RefreshSlots) (Except SessionError α) := do
  match ← operate latest with
  | .error .unauthorized =>
    if latest.token.isSome then
      match ← refreshOnce refresher now latest with
      | .error e => return .error e
      | .ok latest => operate latest
    else return .error .unauthorized
  | outcome => return outcome
where
  /-- The operation is run once. -/
  operate (latest : Account) : StateM (σ × RefreshSlots) (Except SessionError α) :=
    fun s => (operation latest, s)

end

variable {refresher : Refresher σ} {now : Instant} {operation : Account → Except SessionError α}

/-- An operation and what follows it, by the outcomes that there may be. -/
theorem operateWith_eq (refresher : Refresher σ) (now : Instant)
    (operation : Account → Except SessionError α) (latest : Account) (s : σ × RefreshSlots) :
    operateWith refresher now operation latest s = outcomeWith refresher now operation latest s := by
  rw [operateWith, bind_of_run (rfl : operateWith.operate operation latest s = (operation latest, s)),
    outcomeWith]
  cases hoperation : operation latest with
  | ok x => rfl
  | error e =>
      cases e
      case unauthorized =>
        simp only
        split
        · rcases hrefresh : refreshOnce refresher now latest s with ⟨second, s'⟩
          rw [bind_of_run hrefresh]
          cases second <;> rfl
        · rfl
      all_goals rfl

/-- A use of a token is a refresh, if the token is expired, and what comes of the operation then. -/
theorem withValidToken_eq (refresher : Refresher σ) (now : Instant)
    (operation : Account → Except SessionError α) (a : Account) (s : σ × RefreshSlots) :
    withValidToken refresher now (fun b => pure (operation b)) a s =
      if a.isExpired now then
        match refreshOnce refresher now a s with
        | (.error e, s) => (.error e, s)
        | (.ok latest, s) => outcomeWith refresher now operation latest s
      else outcomeWith refresher now operation a s := by
  rw [withValidToken]
  by_cases hexpired : a.isExpired now
  · rw [if_pos hexpired, if_pos hexpired]
    rcases hrefresh : refreshOnce refresher now a s with ⟨first, s'⟩
    rw [bind_of_run hrefresh]
    cases first with
    | error e => rfl
    | ok latest => exact operateWith_eq refresher now operation latest s'
  · rw [if_neg hexpired, if_neg hexpired]
    exact operateWith_eq refresher now operation a s

/-- A token is rejected once at most. -/
theorem afterOperation_rejected (latest : Account) (outcome : Except SessionError α) :
    afterOperation latest true outcome = .done outcome := by
  rcases outcome with e | x
  · cases e <;> simp [afterOperation]
  · rfl

/-- Three steps are enough for any outcome of an operation. -/
theorem iterate_next_operate (latest : Account) (s : σ × RefreshSlots) :
    (next refresher now operation)^[3] (.operate latest false, s) =
      (.done (outcomeWith refresher now operation latest s).1,
        (outcomeWith refresher now operation latest s).2) := by
  change next refresher now operation (next refresher now operation
    (.afterOperation latest false (operation latest), s)) = _
  rw [outcomeWith]
  cases hoperation : operation latest with
  | ok x => rfl
  | error e =>
      cases e
      case unauthorized =>
        -- Only a refusal is followed by a refresh, and only if there is a token to refresh.
        by_cases htoken : latest.token.isSome
        · have hrejected : afterOperation latest false (.error .unauthorized : Except SessionError α)
              = .refresh latest true := by
            simp [afterOperation, htoken]
          rcases hrefresh : refreshOnce refresher now latest s with ⟨e | second, s'⟩
          · simp only [hrejected, next, hrefresh, afterRefresh, htoken, if_true]
          · simp only [hrejected, next, hrefresh, afterRefresh, afterOperation_rejected, htoken, if_true]
        · simp [next, afterOperation, htoken]
      all_goals rfl

/-- Four steps are enough for a use of a token. -/
theorem iterate_next_start (a : Account) (s : σ × RefreshSlots) :
    (next refresher now operation)^[4] (.start a now, s) =
      (.done (withValidToken refresher now (fun b => pure (operation b)) a s).1,
        (withValidToken refresher now (fun b => pure (operation b)) a s).2) := by
  rw [withValidToken_eq]
  by_cases hexpired : a.isExpired now
  · rw [start, if_pos hexpired, if_pos hexpired, Function.iterate_succ_apply, next]
    rcases refreshOnce refresher now a s with ⟨e | latest, s'⟩
    · rfl
    · exact iterate_next_operate latest s'
  · rw [start, if_neg hexpired, if_neg hexpired, Function.iterate_succ_apply', iterate_next_operate]
    rfl

end TokenUse

namespace Callers

variable {refresher : Refresher σ} {now : Instant}
variable {operation : Account → Except SessionError α} {i : Nat} {c c' : Callers σ α}

/-- A caller that is done stays done, whoever moves. -/
theorem Moved.done_stays (h : Moved refresher now operation i c c') {k : Nat}
    {result : Except SessionError α} (hk : c.callers[k]? = some (.acting (.done result))) :
    c'.callers[k]? = some (.acting (.done result)) := by
  have hlt : k < c'.callers.length := h.length_eq ▸ (List.getElem?_eq_some_iff.1 hk).1
  have hk' := List.getElem?_eq_getElem hlt
  rcases h.caller_cases hk' with ⟨-, u, hu, hadvance⟩ | ⟨-, hsame | ⟨_, _, hqueued, -⟩⟩
  · rw [hk] at hu
    obtain rfl := Option.some.inj hu
    rw [hk']
    generalize c'.callers[k] = u' at hadvance
    cases hadvance
    rfl
  · rw [hk', ← hsame, hk]
  · rw [hk] at hqueued
    cases hqueued

/-! ## One caller, left to itself -/

/-- Whether callers come out of others by moves of one of them. -/
def Alone (refresher : Refresher σ) (now : Instant) (operation : Account → Except SessionError α)
    (i : Nat) : Callers σ α → Callers σ α → Prop :=
  Relation.ReflTransGen fun c c' => c' = (c.move refresher now operation i).2.1

theorem Alone.done_stays (h : Alone refresher now operation i c c') {k : Nat}
    {result : Except SessionError α} (hk : c.callers[k]? = some (.acting (.done result))) :
    c'.callers[k]? = some (.acting (.done result)) := by
  induction h with
  | refl => exact hk
  | tail _ hmove ih =>
      subst hmove
      exact (moved_move refresher now operation i _).done_stays ih

theorem Alone.length_eq (h : Alone refresher now operation i c c') :
    c'.callers.length = c.callers.length := by
  induction h with
  | refl => rfl
  | tail _ hmove ih =>
      subst hmove
      exact (moved_move refresher now operation i _).length_eq.trans ih

/-- The queues where one caller has one lock and nobody waits. -/
def held (i : Nat) (id : String) : String → List Nat := fun id' => if id' = id then [i] else []

/-- Whether a caller is at a place, who has the locks, and what the refresher and the slots are. -/
structure Lone (c : Callers σ α) (i : Nat) (u : Caller α) (queue : String → List Nat)
    (s : σ × RefreshSlots) : Prop where
  place : c.callers[i]? = some u
  queue : c.queue = queue
  state : c.state = s.1
  slots : c.slots = s.2

/-- Whether a caller is at a use of its token and all locks are free. -/
def Stands (c : Callers σ α) (i : Nat) (use : TokenUse α) (s : σ × RefreshSlots) : Prop :=
  c.Lone i (.acting use) (fun _ => []) s

variable {u v : Caller α} {queue : String → List Nat} {s : σ × RefreshSlots}

theorem Lone.setCaller (h : c.Lone i u queue s) (v : Caller α) : (c.setCaller i v).Lone i v queue s := by
  have hlt := (List.getElem?_eq_some_iff.1 h.place).1
  exact ⟨List.getElem?_set_self hlt, h.queue, h.state, h.slots⟩

/-- A free lock is taken. -/
theorem Lone.take (h : c.Lone i u (fun _ => []) s) (id : String) :
    (c.setQueue id [i]).Lone i u (held i id) s := by
  refine ⟨h.place, ?_, h.state, h.slots⟩
  funext id'
  rw [queue_setQueue, h.queue, held]

/-- The only one in a queue leaves the lock free. -/
theorem Lone.release {id : String} (h : c.Lone i u (held i id) s) :
    (c.release id).1.Lone i u (fun _ => []) s := by
  have hqueue : c.queue id = [i] := by
    rw [h.queue, held, if_pos rfl]
  have hrelease : c.release id = (c.setQueue id [], none) := by
    simp only [Callers.release, hqueue]
    rfl
  rw [hrelease]
  refine ⟨h.place, ?_, h.state, h.slots⟩
  funext id'
  rw [queue_setQueue, h.queue, held]
  split <;> rfl

/-- A refresh ends: what it gave is kept in the slot. -/
theorem Lone.finish {current : Account} {rejected : Bool} {outcome : Except SessionError Account}
    (h : c.Lone i (.refreshing current rejected outcome) (held i current.id) s) :
    (c.move refresher now operation i).2.1.Stands i (.afterRefresh rejected outcome)
      (s.1, s.2.keep current.id outcome) := by
  have hfilled : Lone { c with slots := c.slots.keep current.id outcome } i
      (.refreshing current rejected outcome) (held i current.id) (s.1, s.2.keep current.id outcome) :=
    ⟨h.place, h.queue, h.state, by rw [h.slots]⟩
  have hmove : (c.move refresher now operation i).2.1
      = (Callers.release { c with slots := c.slots.keep current.id outcome } current.id).1.setCaller i
          (.acting (.afterRefresh rejected outcome)) := by
    simp only [move, h.place]
    cases outcome <;> rfl
  rw [hmove]
  exact hfilled.release.setCaller _

variable (refresher now operation) in
/-- Whoever has the lock looks into the slot, and refreshes if it finds nothing there. -/
theorem Lone.look {current : Account} {rejected : Bool}
    (h : c.Lone i (.holding current rejected) (held i current.id) s) :
    ∃ c', Alone refresher now operation i c c' ∧
      c'.Stands i (.afterRefresh rejected (refreshOnce refresher now current s).1)
        (refreshOnce refresher now current s).2 := by
  -- Alone, a caller finds in the slot just what `refreshOnce` finds there.
  cases hslot : s.2.reusable? current now with
  | some a =>
      have hmove : (c.move refresher now operation i).2.1
          = (c.release current.id).1.setCaller i (.acting (.afterRefresh rejected (.ok a))) := by
        simp only [move, h.place, h.slots, hslot]
      have hfound : refreshOnce refresher now current s = (.ok a, s) := by
        simp only [refreshOnce, hslot]
      rw [hfound]
      exact ⟨_, .single rfl, hmove ▸ h.release.setCaller _⟩
  | none =>
      rcases hrefresh : refresher current s.1 with ⟨outcome, state⟩
      have hmove : (c.move refresher now operation i).2.1
          = { c.setCaller i (.refreshing current rejected outcome) with state } := by
        simp only [move, h.place, h.slots, h.state, hslot, hrefresh]
      have hpending : (c.move refresher now operation i).2.1.Lone i (.refreshing current rejected outcome)
          (held i current.id) (state, s.2) := by
        rw [hmove]
        exact ⟨(h.setCaller _).place, h.queue, rfl, h.slots⟩
      have hrefreshed : refreshOnce refresher now current s
          = (outcome, state, s.2.keep current.id outcome) := by
        simp only [refreshOnce, hslot, hrefresh]
        cases outcome <;> rfl
      rw [hrefreshed]
      exact ⟨_, .tail (.single rfl) rfl, hpending.finish⟩

variable (refresher now operation) in
/-- A caller that finds its lock free has its token refreshed as if there were no locks. -/
theorem Stands.refresh {current : Account} {rejected : Bool} (h : c.Stands i (.refresh current rejected) s) :
    ∃ c', Alone refresher now operation i c c' ∧
      c'.Stands i (.afterRefresh rejected (refreshOnce refresher now current s).1)
        (refreshOnce refresher now current s).2 := by
  have hfree : c.queue current.id = [] := congrFun h.queue current.id
  have hmove : (c.move refresher now operation i).2.1
      = (c.setQueue current.id [i]).setCaller i (.holding current rejected) := by
    simp only [move, h.place, hfree]
  have hholding : (c.move refresher now operation i).2.1.Lone i (.holding current rejected)
      (held i current.id) s := by
    rw [hmove]
    exact (h.take current.id).setCaller _
  obtain ⟨c', halone, hstands⟩ := hholding.look refresher now operation
  exact ⟨c', .head rfl halone, hstands⟩

variable (refresher now operation) in
/-- A caller runs its operation. -/
theorem Stands.operate {latest : Account} {rejected : Bool} (h : c.Stands i (.operate latest rejected) s) :
    ∃ c', Alone refresher now operation i c c' ∧
      c'.Stands i (.afterOperation latest rejected (operation latest)) s := by
  refine ⟨_, .single rfl, ?_⟩
  simp only [move, h.place]
  exact ⟨(h.setCaller _).place, h.queue, h.state, h.slots⟩

variable (refresher now operation) in
/-- A caller does what its use of a token asks for. -/
theorem Stands.next {use : TokenUse α} (h : c.Stands i use s) :
    ∃ c', Alone refresher now operation i c c' ∧
      c'.Stands i (TokenUse.next refresher now operation (use, s)).1
        (TokenUse.next refresher now operation (use, s)).2 := by
  cases use with
  | refresh current rejected => exact h.refresh refresher now operation
  | operate latest rejected => exact h.operate refresher now operation
  | done result => exact ⟨c, .refl, h⟩

variable (refresher now operation) in
/-- A caller that is alone takes as many steps as it likes. -/
theorem Stands.iterate {use : TokenUse α} (h : c.Stands i use s) (n : Nat) :
    ∃ c', Alone refresher now operation i c c' ∧
      c'.Stands i ((TokenUse.next refresher now operation)^[n] (use, s)).1
        ((TokenUse.next refresher now operation)^[n] (use, s)).2 := by
  induction n with
  | zero => exact ⟨c, .refl, h⟩
  | succ n ih =>
      obtain ⟨c₁, halone, hstands⟩ := ih
      obtain ⟨c₂, halone', hstands'⟩ := hstands.next refresher now operation
      rw [Function.iterate_succ_apply']
      exact ⟨c₂, halone.trans halone', hstands'⟩

variable (refresher operation) in
/-- A caller that is left to itself comes to the outcome of a use of a token from start to end. -/
theorem exists_alone_withValidToken {a : Account} (h : c.Stands i (.start a now) s) :
    ∃ c', Alone refresher now operation i c c' ∧
      c'.Stands i (.done (withValidToken refresher now (fun b => pure (operation b)) a s).1)
        (withValidToken refresher now (fun b => pure (operation b)) a s).2 := by
  have hend := h.iterate refresher now operation 4
  rwa [TokenUse.iterate_next_start] at hend

/-- If all others are done, only the caller that moves is at another place in the end. -/
theorem Alone.callers_eq {results : List (Except SessionError α)}
    (h : Alone refresher now operation results.length c c')
    (hcallers : c.callers = (results.map fun result => .acting (.done result)) ++ [u])
    (hplace : c'.callers[results.length]? = some v) :
    c'.callers = (results.map fun result => .acting (.done result)) ++ [v] := by
  have hlength : c'.callers.length = results.length + 1 := by
    rw [h.length_eq, hcallers, List.length_append, List.length_map, List.length_singleton]
  refine List.ext_getElem? fun k => ?_
  rcases Nat.lt_trichotomy k results.length with hlt | rfl | hgt
  · have hk : k < (results.map fun result => Caller.acting (.done result)).length := by
      rwa [List.length_map]
    have hdone : c.callers[k]? = some (.acting (.done results[k])) := by
      rw [hcallers, List.getElem?_append_left hk, List.getElem?_map, List.getElem?_eq_getElem hlt,
        Option.map_some]
    rw [List.getElem?_append_left hk, h.done_stays hdone, ← hdone, hcallers, List.getElem?_append_left hk]
  · rw [hplace, List.getElem?_append_right (by simp)]
    simp
  · rw [List.getElem?_eq_none (by omega), List.getElem?_eq_none (by simpa using Nat.succ_le_of_lt hgt)]

end Callers

/-! ## Callers one after the other -/

/-- A caller that comes at an instant, when its operation would have these outcomes. -/
structure TokenCall (α : Type) where
  account : Account
  now : Instant
  operation : Account → Except SessionError α

/-- What comes of calls one after the other. -/
def inTurn (refresher : Refresher σ) (calls : List (TokenCall α)) :
    StateM (σ × RefreshSlots) (List (Except SessionError α)) :=
  calls.mapM fun call => withValidToken refresher call.now (fun a => pure (call.operation a)) call.account

theorem inTurn_nil (refresher : Refresher σ) (s : σ × RefreshSlots) :
    inTurn refresher ([] : List (TokenCall α)) s = ([], s) := rfl

theorem inTurn_cons (refresher : Refresher σ) (call : TokenCall α) (calls : List (TokenCall α))
    (s : σ × RefreshSlots) :
    let r := withValidToken refresher call.now (fun a => pure (call.operation a)) call.account s
    inTurn refresher (call :: calls) s =
      (r.1 :: (inTurn refresher calls r.2).1, (inTurn refresher calls r.2).2) := by
  rw [inTurn, List.mapM_cons]
  rfl

namespace CallerHistory

variable {refresher : Refresher σ}

/-- Whether all callers are done with some results and all locks are free. -/
structure Settled (h : CallerHistory σ α) (results : List (Except SessionError α)) (s : σ × RefreshSlots) :
    Prop where
  callers : h.callers.callers = results.map fun result => .acting (.done result)
  queue : h.callers.queue = fun _ => []
  state : h.callers.state = s.1
  slots : h.callers.slots = s.2

/-- The moves of a caller that is left to itself are part of a history. -/
theorem exists_moves_of_alone {now : Instant} {operation : Account → Except SessionError α} {i : Nat}
    {h : CallerHistory σ α} {c : Callers σ α}
    (halone : Callers.Alone refresher now operation i h.callers c) :
    ∃ events : List (CallerEvent α), (∀ e ∈ events, e = .move i now operation) ∧
      (events.foldl (after refresher) h).callers = c ∧
      (events.foldl (after refresher) h).arrived = h.arrived := by
  induction halone with
  | refl => exact ⟨[], fun _ he => (List.not_mem_nil he).elim, rfl, rfl⟩
  | tail _ hmove ih =>
      obtain ⟨events, hmoves, hcallers, harrived⟩ := ih
      refine ⟨events ++ [.move i now operation], fun e he => ?_, ?_, ?_⟩
      · exact (List.mem_append.1 he).elim (hmoves e) List.mem_singleton.1
      · rw [List.foldl_concat, after, hcallers]
        exact hmove.symm
      · rw [List.foldl_concat, after]
        exact harrived

variable (refresher) in
/-- One more call, when all others are done. -/
theorem Settled.exists_call {h : CallerHistory σ α} {results : List (Except SessionError α)}
    {s : σ × RefreshSlots} (hsettled : h.Settled results s) (call : TokenCall α) :
    ∃ events : List (CallerEvent α), (∀ e ∈ events, e.instant = call.now) ∧
      (events.foldl (after refresher) h).arrived = h.arrived ++ [call.account] ∧
      let r := withValidToken refresher call.now (fun a => pure (call.operation a)) call.account s
      (events.foldl (after refresher) h).Settled (results ++ [r.1]) r.2 := by
  -- The call is one more caller, which arrives and then moves alone until it is done.
  let h₁ := h.after refresher (.arrive call.account call.now)
  have hlength : h.callers.callers.length = results.length := by
    rw [hsettled.callers, List.length_map]
  have hstands : h₁.callers.Stands results.length (.start call.account call.now) s := by
    refine ⟨?_, hsettled.queue, hsettled.state, hsettled.slots⟩
    rw [← hlength]
    exact List.getElem?_concat_length
  obtain ⟨c, halone, hdone⟩ :=
    Callers.exists_alone_withValidToken refresher call.operation hstands
  obtain ⟨events, hmoves, hcallers, harrived⟩ := exists_moves_of_alone (h := h₁) halone
  refine ⟨.arrive call.account call.now :: events, fun e he => ?_, harrived, ?_⟩
  · rcases List.mem_cons.1 he with rfl | he
    · rfl
    · rw [hmoves e he]
      rfl
  · rw [List.foldl_cons]
    refine ⟨?_, by rw [hcallers, hdone.queue], by rw [hcallers, hdone.state], by rw [hcallers, hdone.slots]⟩
    have harrival : h₁.callers.callers = (results.map fun result => .acting (.done result)) ++
        [.acting (.start call.account call.now)] := by
      rw [← hsettled.callers]
      rfl
    rw [hcallers, List.map_append]
    exact halone.callers_eq harrival hdone.place

/-- Calls one after the other, when all earlier callers are done. -/
theorem Settled.exists_calls (calls : List (TokenCall α)) {h : CallerHistory σ α}
    {results : List (Except SessionError α)} {s : σ × RefreshSlots} (hsettled : h.Settled results s) :
    ∃ events : List (CallerEvent α), (∀ e ∈ events, ∃ call ∈ calls, e.instant = call.now) ∧
      (events.foldl (after refresher) h).arrived = h.arrived ++ calls.map (·.account) ∧
      (events.foldl (after refresher) h).Settled (results ++ (inTurn refresher calls s).1)
        (inTurn refresher calls s).2 := by
  induction calls generalizing h results s with
  | nil =>
      refine ⟨[], fun _ he => (List.not_mem_nil he).elim, (List.append_nil _).symm, ?_⟩
      rw [inTurn_nil, List.append_nil]
      exact hsettled
  | cons call calls ih =>
      obtain ⟨events, hinstants, harrived, hsettled⟩ := hsettled.exists_call refresher call
      obtain ⟨events', hinstants', harrived', hsettled'⟩ := ih hsettled
      refine ⟨events ++ events', fun e he => ?_, ?_, ?_⟩
      · rcases List.mem_append.1 he with he | he
        · exact ⟨call, List.mem_cons_self, hinstants e he⟩
        · obtain ⟨other, hother, hnow⟩ := hinstants' e he
          exact ⟨other, List.mem_cons_of_mem call hother, hnow⟩
      · rw [List.foldl_append, harrived', harrived, List.append_assoc]
        rfl
      · rw [List.foldl_append, inTurn_cons, List.append_cons]
        exact hsettled'

/-- Calls one after the other make a history: who came, what came of it, and what the refresher and the
slots are in the end. -/
theorem exists_through_inTurn (refresher : Refresher σ) (state : σ) (calls : List (TokenCall α)) :
    ∃ events : List (CallerEvent α), (∀ e ∈ events, ∃ call ∈ calls, e.instant = call.now) ∧
      (through refresher state events).arrived = calls.map (·.account) ∧
      (through refresher state events).Settled (inTurn refresher calls (state, [])).1
        (inTurn refresher calls (state, [])).2 := by
  have hopened : (opened state : CallerHistory σ α).Settled [] (state, []) := ⟨rfl, rfl, rfl, rfl⟩
  exact hopened.exists_calls calls

end CallerHistory
end PasswordVault
