import Mathlib.Data.Set.Basic
import PasswordVault.Proofs.Session.Histories

/-!
# Servers — which server an operation is run against

A refresher that replaces nothing but the token keeps the account of a caller at its server. The slots do
not: they are found by id alone, so a caller may be handed an account that another caller came with.

* `CallerHistory.Served`: what is known of the account that an operation is run with. Its id is that of the
  caller's account; its server is the caller's, or that of some caller with a token of that id.
* `CallerHistory.operated_server_iff`: it is always the caller's exactly if the accounts that callers come
  with have one server for each id.
-/

namespace PasswordVault

/-- Whether a refresher replaces only the token of an account. -/
def Refresher.OnlyToken {σ : Type} (refresher : Refresher σ) : Prop :=
  ∀ a s b, (refresher a s).1 = .ok b → b.id = a.id ∧ b.serverUrl = a.serverUrl

namespace CallerHistory

variable {σ α : Type}

/-! ## Where a server comes from -/

/-- Whether some caller came with a token for an id and a server. -/
def Known (h : CallerHistory σ α) (id serverUrl : String) : Prop :=
  ∃ y ∈ h.arrived, y.token.isSome ∧ y.id = id ∧ y.serverUrl = serverUrl

/-- Whether a caller may have an account: it came with it, or it came with a token of that id, and another
caller came with a token of that id to the server of the account. -/
def Serves (h : CallerHistory σ α) (k : Nat) (a : Account) : Prop :=
  ∃ x, h.arrived[k]? = some x ∧ (a = x ∨ a.id = x.id ∧ x.token.isSome ∧ h.Known a.id a.serverUrl)

/-- What is known of accounts in a history. -/
structure Served (h : CallerHistory σ α) : Prop where
  count : h.callers.callers.length = h.arrived.length
  caller : ∀ (k : Nat) (u : Caller α) (a : Account), h.callers.callers[k]? = some u → u.uses? = some a →
    h.Serves k a
  renewed : ∀ r ∈ h.renewed, h.Known r.1.id r.1.serverUrl
  operated : ∀ o ∈ h.callers.operated, h.Serves o.1 o.2

theorem served_opened (state : σ) : Served (opened state : CallerHistory σ α) := by
  refine ⟨rfl, fun k u a hk _ => ?_, fun r hr => ?_, fun o ho => ?_⟩
  · cases hk
  · cases hr
  · cases ho

variable {h : CallerHistory σ α}

/-- The account of a caller with a token comes from some caller with a token. -/
theorem Serves.known {k : Nat} {a : Account} (hserves : h.Serves k a) (hsome : a.token.isSome) :
    ∃ x, h.arrived[k]? = some x ∧ a.id = x.id ∧ x.token.isSome ∧ h.Known a.id a.serverUrl := by
  obtain ⟨x, hx, rfl | ⟨hid, htoken, hknown⟩⟩ := hserves
  · exact ⟨a, hx, rfl, hsome, a, List.mem_of_getElem? hx, hsome, rfl, rfl⟩
  · exact ⟨x, hx, hid, htoken, hknown⟩

/-- What a caller may have, it may have after another one has come. -/
theorem Serves.arrive {k : Nat} {a : Account} (hserves : h.Serves k a) (refresher : Refresher σ)
    (b : Account) (now : Instant) : (h.after refresher (.arrive b now)).Serves k a := by
  obtain ⟨x, hx, hcases⟩ := hserves
  refine ⟨x, ?_, hcases.imp_right ?_⟩
  · exact (List.getElem?_append_left (List.getElem?_eq_some_iff.1 hx).1).trans hx
  · rintro ⟨hid, htoken, y, hy, hknown⟩
    exact ⟨hid, htoken, y, List.mem_append_left _ hy, hknown⟩

/-- A caller that arrives brings what is known of its account. -/
theorem Served.arrive (hserved : Served h) (refresher : Refresher σ) (b : Account) (now : Instant) :
    Served (h.after refresher (.arrive b now)) := by
  refine ⟨?_, fun k u a hk ha => ?_, fun r hr => ?_, fun o ho => ?_⟩
  · simp only [after, List.length_append, List.length_singleton, hserved.count]
  · rcases caller_cases_of_arrive hk with hk | ⟨rfl, rfl⟩
    · exact (hserved.caller k u a hk ha).arrive refresher b now
    · refine ⟨b, ?_, .inl (Caller.eq_of_uses?_start ha)⟩
      simp only [after, hserved.count, List.getElem?_concat_length]
  · obtain ⟨y, hy, hknown⟩ := hserved.renewed r hr
    exact ⟨y, List.mem_append_left _ hy, hknown⟩
  · exact (hserved.operated o ho).arrive refresher b now

section Move

variable {refresher : Refresher σ} {state : σ} {past : List (CallerEvent α)}

/-- The account that a caller has to refresh comes from some caller with a token. -/
theorem Served.known_of_refreshes (hserved : Served (through refresher state past)) {k : Nat} {u : Caller α}
    {current : Account} (hk : (through refresher state past).callers.callers[k]? = some u)
    (hcurrent : u.refreshes? = some current) :
    ∃ x, (through refresher state past).arrived[k]? = some x ∧ current.id = x.id ∧ x.token.isSome ∧
      (through refresher state past).Known current.id current.serverUrl :=
  (hserved.caller k u current hk (Caller.uses?_of_refreshes? hcurrent)).known
    (token_isSome_through refresher state past hk hcurrent)

/-- After a move, too, each caller has an account that it may have. What it finds in the slot or gets by a
refresh is at the server of some caller with a token, which need not be its own. -/
theorem Served.serves_of_moved (hserved : Served (through refresher state past))
    (honly : refresher.OnlyToken) {i k : Nat} {now : Instant} {operation : Account → Except SessionError α}
    {c' : Callers σ α} {u' : Caller α} {a : Account}
    (hmoved : Callers.Moved refresher now operation i (through refresher state past).callers c')
    (hk : c'.callers[k]? = some u') (ha : u'.uses? = some a) : (through refresher state past).Serves k a := by
  have hmade := made_through (fun a b => b.id = a.id ∧ b.serverUrl = a.serverUrl) honly state past
  rcases hmoved.uses_cases hk ha with
    ⟨u, hu, ha'⟩ | ⟨current, rejected, hstands, hfound⟩ | ⟨current, rejected, -, hstands⟩
  · exact hserved.caller k u a hu ha'
  · obtain ⟨x, hx, hid, htoken, -⟩ := hserved.known_of_refreshes hstands rfl
    obtain ⟨hslot, -, -⟩ := RefreshSlots.reusable?_eq_some_iff.1 hfound
    -- What is in a slot came out of the newest refresh for the id, at that refresh's server.
    rw [newest_through] at hslot
    obtain ⟨last, hlast, rfl⟩ := Option.map_eq_some_iff.1 hslot
    obtain ⟨hmem, hlastId⟩ := mem_renewedOf.1 (List.mem_of_getLast? hlast)
    obtain ⟨hkeptId, hkeptUrl⟩ := hmade.1 last hmem
    refine ⟨x, hx, .inr ⟨?_, htoken, ?_⟩⟩
    · rw [hkeptId, hlastId, hid]
    · rw [hkeptId, hkeptUrl]
      exact hserved.renewed last hmem
  · obtain ⟨x, hx, hid, htoken, hknown⟩ := hserved.known_of_refreshes hstands rfl
    obtain ⟨hkeptId, hkeptUrl⟩ := hmade.2 k current rejected a hstands
    refine ⟨x, hx, .inr ⟨hkeptId.trans hid, htoken, ?_⟩⟩
    rw [hkeptId, hkeptUrl]
    exact hknown

/-- A move spreads only what is known already. -/
theorem Served.move (hserved : Served (through refresher state past)) (honly : refresher.OnlyToken)
    (i : Nat) (now : Instant) (operation : Account → Except SessionError α) :
    Served ((through refresher state past).after refresher (.move i now operation)) := by
  have hmoved := Callers.moved_move refresher now operation i (through refresher state past).callers
  refine ⟨hmoved.length_eq.trans hserved.count, fun k u a hk ha => ?_, fun r hr => ?_, fun o ho => ?_⟩
  · exact hserved.serves_of_moved honly hmoved hk ha
  · rcases after_move_cases refresher (through refresher state past) i now operation with
      ⟨-, heq⟩ | ⟨current, rejected, a, hstands, -, heq⟩
    · exact hserved.renewed r (heq ▸ hr)
    · rw [heq] at hr
      rcases List.mem_append.1 hr with hr | hr
      · exact hserved.renewed r hr
      · rw [List.mem_singleton.1 hr]
        obtain ⟨-, -, -, -, hknown⟩ := hserved.known_of_refreshes hstands rfl
        exact hknown
  · rcases hmoved.operated_cases with heq | ⟨latest, rejected, hstands, heq⟩
    · exact hserved.operated o (heq ▸ ho)
    · rcases List.mem_append.1 (heq ▸ ho : o ∈ _ ++ [(i, latest)]) with ho | ho
      · exact hserved.operated o ho
      · rw [List.mem_singleton.1 ho]
        exact hserved.caller i _ latest hstands rfl

end Move

/-- In every history, each operation is run with an account that its caller may have. -/
theorem served_through {refresher : Refresher σ} (honly : refresher.OnlyToken) (state : σ)
    (events : List (CallerEvent α)) : Served (through refresher state events) := by
  induction events using List.reverseRecOn with
  | nil => exact served_opened state
  | append_singleton past e ih =>
      rw [through_concat]
      cases e with
      | arrive b now => exact ih.arrive refresher b now
      | move i now operation => exact ih.move honly i now operation

/-! ## Which accounts keep their servers -/

/-- A move of a caller whose token the server rejects. -/
def rejectedMove (i : Nat) : CallerEvent α := .move i .epoch fun _ => .error .unauthorized

/-- A caller comes with an account and takes its lock, once its token has been rejected if it is not
expired. -/
def untilHolding (i : Nat) (a : Account) : List (CallerEvent α) :=
  .arrive a .epoch :: (if a.isExpired .epoch then [] else [rejectedMove i]) ++ [rejectedMove i]

/-- A caller refreshes the token of an account; then another comes with a token of the same id. -/
def oneAfterAnother (x y : Account) : List (CallerEvent α) :=
  untilHolding 0 x ++ [rejectedMove 0, rejectedMove 0] ++ untilHolding 1 y ++ [rejectedMove 1, rejectedMove 1]

/-- The second caller runs its operation with the account of the first one. -/
theorem mem_operated_oneAfterAnother {x y : Account} {name : String} (hid : x.id = y.id)
    (hx : x.token.isSome) (hy : y.token.isSome) (hname : y.token ≠ some (.lasting name)) :
    (1, { x with token := some (.lasting name) }) ∈
      (through Refresher.naming [name] (oneAfterAnother x y : List (CallerEvent α))).callers.operated := by
  have hvalid : (AccountToken.lasting name).isExpired .epoch = false :=
    (by decide : (AccountToken.lasting "").isExpired .epoch = false)
  have hother : (some (AccountToken.lasting name) != y.token) = true := by
    simpa using hname.symm
  -- Both callers are followed to the end, whether or not their tokens are expired at the start.
  cases hexpired : x.isExpired .epoch <;> cases hexpired' : y.isExpired .epoch
  all_goals
    simp [through, opened, oneAfterAnother, untilHolding, rejectedMove, hexpired, hexpired', after,
      Callers.move, Callers.queue, Callers.setQueue, Callers.setCaller, Callers.release, TokenUse.start,
      TokenUse.afterOperation, TokenUse.afterRefresh, RefreshSlots.reusable?, RefreshSlots.get?,
      RefreshSlots.set, Refresher.naming, hx, hy, ← hid, hvalid, hother, Option.filter_some]

theorem arrived_oneAfterAnother (x y : Account) (name : String) :
    (through Refresher.naming [name] (oneAfterAnother x y : List (CallerEvent α))).arrived = [x, y] := by
  cases hexpired : x.isExpired .epoch <;> cases hexpired' : y.isExpired .epoch
  all_goals
    simp [through, opened, oneAfterAnother, untilHolding, rejectedMove, hexpired, hexpired', after]

theorem onlyToken_naming : Refresher.naming.OnlyToken := by
  intro a names b hb
  cases names with
  | nil => cases hb
  | cons name names =>
      cases hb
      exact ⟨rfl, rfl⟩

/-- Whether each operation was run with an account of the id that its caller came with. -/
def KeepsIds (h : CallerHistory σ α) : Prop :=
  ∀ o ∈ h.callers.operated, ∃ x, h.arrived[o.1]? = some x ∧ o.2.id = x.id

/-- Whether each operation was run with an account at the server that its caller came with. -/
def KeepsServers (h : CallerHistory σ α) : Prop :=
  ∀ o ∈ h.callers.operated, ∃ x, h.arrived[o.1]? = some x ∧ o.2.serverUrl = x.serverUrl

theorem Served.keepsIds (hserved : Served h) : h.KeepsIds := by
  intro o ho
  obtain ⟨x, hx, heq | ⟨hid, -, -⟩⟩ := hserved.operated o ho
  · exact ⟨x, hx, by rw [heq]⟩
  · exact ⟨x, hx, hid⟩

/-- Callers keep their servers if those with tokens come with one server for each id. -/
theorem Served.keepsServers (hserved : Served h)
    (hone : ∀ x ∈ h.arrived, ∀ y ∈ h.arrived, x.id = y.id → x.token.isSome → y.token.isSome →
      x.serverUrl = y.serverUrl) : h.KeepsServers := by
  intro o ho
  obtain ⟨x, hx, heq | ⟨hid, htoken, y, hy, hytoken, hyid, hyurl⟩⟩ := hserved.operated o ho
  · exact ⟨x, hx, by rw [heq]⟩
  · refine ⟨x, hx, ?_⟩
    rw [← hyurl]
    exact hone y hy x (List.mem_of_getElem? hx) (hyid.trans hid) hytoken htoken

/-- A token that is not a given one. -/
theorem exists_lasting_ne (token : Option AccountToken) :
    ∃ name, token ≠ some (.lasting name) := by
  by_cases h : token = some (.lasting "")
  · refine ⟨"new", ?_⟩
    rw [h]
    simp [AccountToken.lasting]
  · exact ⟨"", h⟩

/-- With a refresher that replaces only tokens, each operation is run with an account of the id that its
caller came with, in every history. It is at the server that the caller came with in every history of some
accounts exactly if no two of these have tokens for one id at different servers. -/
theorem operated_server_iff (accounts : Set Account) :
    (∀ (σ : Type) (refresher : Refresher σ) (state : σ) (events : List (CallerEvent α)),
      refresher.OnlyToken → (through refresher state events).KeepsIds) ∧
    ((∀ (σ : Type) (refresher : Refresher σ) (state : σ) (events : List (CallerEvent α)),
        refresher.OnlyToken → (∀ a ∈ (through refresher state events).arrived, a ∈ accounts) →
        (through refresher state events).KeepsServers) ↔
      ∀ x ∈ accounts, ∀ y ∈ accounts, x.id = y.id → x.token.isSome → y.token.isSome →
        x.serverUrl = y.serverUrl) := by
  refine ⟨fun σ refresher state events honly => (served_through honly state events).keepsIds, ?_, ?_⟩
  · intro hkeeps x hx y hy hid hxtoken hytoken
    -- Two accounts of one id, one after the other: the second is served with what the first has left.
    obtain ⟨name, hname⟩ := exists_lasting_ne y.token
    let h := through Refresher.naming [name] (oneAfterAnother x y : List (CallerEvent α))
    have harrived : h.arrived = [x, y] := arrived_oneAfterAnother x y name
    have haccounts : ∀ a ∈ h.arrived, a ∈ accounts := by
      rw [harrived]
      simp [hx, hy]
    obtain ⟨z, hz, hserver⟩ := hkeeps _ _ _ _ onlyToken_naming haccounts _
      (mem_operated_oneAfterAnother hid hxtoken hytoken hname)
    change h.arrived[1]? = some z at hz
    rw [harrived] at hz
    cases hz
    exact hserver
  · intro hone σ refresher state events honly haccounts
    refine (served_through honly state events).keepsServers ?_
    exact fun x hx y hy => hone x (haccounts x hx) y (haccounts y hy)

/-- Two callers come with tokens for one id at different servers, and the operation of the second one is run
with the account of the first one. -/
theorem operated_at_another_server :
    let x : Account := ⟨"a", "https://one.example", some ⟨"first", "first", .earliest⟩⟩
    let y : Account := ⟨"a", "https://two.example", some ⟨"second", "second", .earliest⟩⟩
    let h := through Refresher.naming ["new"] (oneAfterAnother x y : List (CallerEvent Unit))
    Refresher.naming.OnlyToken ∧ h.arrived[1]? = some y ∧
      (1, { x with token := some (.lasting "new") }) ∈ h.callers.operated ∧ ¬ h.KeepsServers := by
  intro x y h
  have harrived : h.arrived = [x, y] := arrived_oneAfterAnother x y "new"
  have hoperated : (1, { x with token := some (.lasting "new") }) ∈ h.callers.operated :=
    mem_operated_oneAfterAnother rfl rfl rfl (by decide)
  refine ⟨onlyToken_naming, by rw [harrived]; rfl, hoperated, ?_⟩
  intro hkeeps
  obtain ⟨z, hz, hserver⟩ := hkeeps _ hoperated
  rw [harrived] at hz
  cases hz
  exact absurd hserver (by decide)

end CallerHistory
end PasswordVault
