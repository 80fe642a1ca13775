import Mathlib.Data.List.Chain
import Mathlib.Logic.Relation
import PasswordVault.Proofs.Session.Histories

/-!
# Lineage — where a token comes from that stands in for another

The slot of an account outlives the callers that fill it. In a history whose new tokens stay valid, it holds
the end of a chain (`CallerHistory.chained_through`): each refresh of the account was one of the token that
the refresh before had given.

* `Descends`: whether one token came from another by refreshes of an account.
* `CallerHistory.replacement_descends_iff`: a token that a caller finds in the slot came from its own
  token exactly if its own was ever refreshed; the slot does not ask.
* `CallerHistory.replacement_descends_of_one_login`: so it always did if all callers go back to one login.
-/

namespace PasswordVault

/-! ## Descent -/

/-- Whether a refresh of an account has made one token of another. -/
def Renews (renewed : List (Account × Account)) (id : String) (t t' : Option AccountToken) : Prop :=
  ∃ r ∈ renewed, r.1.id = id ∧ r.1.token = t ∧ r.2.token = t'

/-- Whether one token came from another by refreshes of an account. -/
def Descends (renewed : List (Account × Account)) (id : String) :
    Option AccountToken → Option AccountToken → Prop :=
  Relation.TransGen (Renews renewed id)

/-- Only a token that was refreshed has descendants. -/
theorem Descends.exists_renewal {renewed : List (Account × Account)} {id : String}
    {t t' : Option AccountToken} (h : Descends renewed id t t') :
    ∃ r ∈ renewed, r.1.id = id ∧ r.1.token = t := by
  obtain ⟨s, ⟨r, hr, hid, htoken, -⟩, -⟩ := Relation.TransGen.head'_iff.1 h
  exact ⟨r, hr, hid, htoken⟩

/-- Along a chain of refreshes, the last token descends from each that was refreshed. -/
theorem descends_getLast {renewed : List (Account × Account)} {id : String}
    {chain : List (Account × Account)} (hchain : chain.IsChain fun r r' => r'.1.token = r.2.token)
    (hrenewed : ∀ r ∈ chain, r ∈ renewed ∧ r.1.id = id) {r last : Account × Account} (hr : r ∈ chain)
    (hlast : chain.getLast? = some last) : Descends renewed id r.1.token last.2.token := by
  induction chain generalizing r with
  | nil => cases hr
  | cons x rest ih =>
      have hx : Renews renewed id x.1.token x.2.token :=
        ⟨x, (hrenewed x List.mem_cons_self).1, (hrenewed x List.mem_cons_self).2, rfl, rfl⟩
      cases rest with
      | nil =>
          rw [List.mem_singleton] at hr
          rw [List.getLast?_singleton] at hlast
          cases hlast
          rw [hr]
          exact .single hx
      | cons y rest =>
          -- The first refresh gave the token that the second started from.
          obtain ⟨hxy, htail⟩ := List.isChain_cons_cons.1 hchain
          rw [List.getLast?_cons_cons] at hlast
          have hrest : ∀ r ∈ y :: rest, Descends renewed id r.1.token last.2.token :=
            fun r hr => ih htail (fun r hr => hrenewed r (List.mem_cons_of_mem x hr)) hr hlast
          rcases List.mem_cons.1 hr with rfl | hr
          · exact .head hx (hxy ▸ hrest y List.mem_cons_self)
          · exact hrest r hr

/-- The account that a caller has to refresh, once it has the lock. -/
def Caller.inside? {α : Type} : Caller α → Option Account
  | .acting _ | .queued _ _ => none
  | .holding current _ | .refreshing current _ _ => some current

theorem Caller.refreshes?_of_inside? {α : Type} {u : Caller α} {a : Account} (h : u.inside? = some a) :
    u.refreshes? = some a := by
  cases u with
  | acting | queued => cases h
  | holding | refreshing => exact h

namespace CallerHistory

variable {σ α : Type}

/-! ## The chain of an account -/

/-- Whether an account has a token that is valid at the instants of all events. -/
def Outlasts (events : List (CallerEvent α)) (a : Account) : Prop :=
  ∃ t, a.token = some t ∧ ∀ e ∈ events, t.isExpired e.instant = false

/-- Whether a refresher gives only tokens that are valid at the instants of all events. -/
def Lasting (events : List (CallerEvent α)) (refresher : Refresher σ) : Prop :=
  ∀ a s b, (refresher a s).1 = .ok b → Outlasts events b

/-- Whether the refreshes of each account are a chain. While one is under way, the slot is empty or holds the
token that is being refreshed, so the chain goes on from its end. -/
structure Chained (h : CallerHistory σ α) : Prop where
  chain : ∀ id, (h.renewedOf id).IsChain fun r r' => r'.1.token = r.2.token
  pending : ∀ (k : Nat) (current : Account) (rejected : Bool) (outcome : Except SessionError Account),
    h.callers.callers[k]? = some (.refreshing current rejected outcome) →
      ∀ a, h.callers.slots.get? current.id = some a → a.token = current.token

variable {refresher : Refresher σ} {events past : List (CallerEvent α)} {state : σ}
variable {i : Nat} {now : Instant} {operation : Account → Except SessionError α}

/-- What a slot holds is valid, so if it cannot stand in for a refresh, it holds the same token. -/
theorem token_eq_of_missing (hlasting : Lasting events refresher) {e : CallerEvent α} (he : e ∈ events)
    {current a : Account}
    (hmissing : (through refresher state past).callers.slots.reusable? current e.instant = none)
    (hslot : (through refresher state past).callers.slots.get? current.id = some a) :
    a.token = current.token := by
  by_contra hne
  obtain ⟨last, hlast, rfl⟩ :=
    Option.map_eq_some_iff.1 ((newest_through refresher state past current.id).symm.trans hslot)
  obtain ⟨t, ht, hvalid⟩ := (made_through (fun _ b => Outlasts events b) hlasting state past).1 last
    (mem_renewedOf.1 (List.mem_of_getLast? hlast)).1
  have hfound := RefreshSlots.reusable?_eq_some_iff.2 ⟨hslot, ⟨t, ht, hvalid e he⟩, hne⟩
  rw [hmissing] at hfound
  cases hfound

/-- A caller that is refreshing an account after a move has just started to, or was before. Then the slot of
the account was left alone, since no other caller has the lock. -/
theorem refreshing_cases {h : CallerHistory σ α} (hinOrder : h.callers.InOrder) {k : Nat} {current : Account}
    {rejected : Bool} {outcome : Except SessionError Account}
    (hk : (h.after refresher (.move i now operation)).callers.callers[k]?
      = some (.refreshing current rejected outcome)) :
    (h.callers.slots.reusable? current now = none ∧
        (h.after refresher (.move i now operation)).callers.slots = h.callers.slots) ∨
      h.callers.callers[k]? = some (.refreshing current rejected outcome) ∧
        (h.after refresher (.move i now operation)).callers.slots.get? current.id
          = h.callers.slots.get? current.id := by
  rcases (Callers.moved_move refresher now operation i h.callers).caller_cases hk with
    ⟨rfl, u, hu, hadvance⟩ | ⟨hne, hk | ⟨_, _, _, hholding⟩⟩
  · cases hadvance with
    | renews rejected hmissing =>
        refine .inl ⟨hmissing, ?_⟩
        rcases after_move_cases refresher h k now operation with ⟨hslots, -⟩ | ⟨_, _, _, hstands, -, -⟩
        · exact hslots
        · rw [hu] at hstands
          cases hstands
  · refine .inr ⟨hk, ?_⟩
    rcases after_move_cases refresher h i now operation with
      ⟨hslots, -⟩ | ⟨current', rejected', a, hstands, hslots, -⟩
    · rw [hslots]
    · -- Two callers cannot hold one lock, so the slot that changes is another one.
      have hid : current.id ≠ current'.id := by
        intro hid
        have hholds : h.callers.holds? k = some current'.id :=
          (Callers.holds?_of_stands hk).trans (congrArg some hid)
        have hholds' : h.callers.holds? i = some current'.id := Callers.holds?_of_stands hstands
        exact hne (hinOrder.eq_of_holds hholds hholds')
      rw [hslots, RefreshSlots.get?_set, if_neg hid]
  · cases hholding

/-- In every history whose new tokens stay valid, the refreshes of each account are a chain. -/
theorem chained_through (hlasting : Lasting events refresher) (hpast : ∀ e ∈ past, e ∈ events) :
    Chained (through refresher state past) := by
  induction past using List.reverseRecOn with
  | nil => exact ⟨fun _ => .nil, fun _ _ _ _ hk => by cases hk⟩
  | append_singleton past e ih =>
      obtain ⟨hchain, hpending⟩ := ih fun e he => hpast e (List.mem_append_left _ he)
      have he := hpast e (List.mem_append_right _ (List.mem_singleton_self e))
      rw [through_concat]
      cases e with
      | arrive a now =>
          refine ⟨hchain, fun k current rejected outcome hk => ?_⟩
          rcases caller_cases_of_arrive hk with hk | ⟨-, hnew⟩
          · exact hpending k current rejected outcome hk
          · cases hnew
      | move i now operation =>
          refine ⟨fun id => ?_, fun k current rejected outcome hk a hslot => ?_⟩
          · rcases after_move_cases refresher (through refresher state past) i now operation with
              ⟨-, hrenewed⟩ | ⟨current, rejected, a, hstands, -, hrenewed⟩
            · rw [renewedOf, hrenewed]
              exact hchain id
            · rw [renewedOf_concat hrenewed]
              split
              · next hid =>
                  refine List.isChain_append.2 ⟨hchain id, .singleton _, ?_⟩
                  intro last hlast r hr
                  cases hr
                  -- The slot holds what the refresh before gave, and that was being refreshed.
                  refine (hpending i current rejected (.ok a) hstands last.2 ?_).symm
                  rw [newest_through, hid, hlast]
                  rfl
              · exact hchain id
          · rcases refreshing_cases (inOrder_through refresher state past) hk with
              ⟨hmissing, hslots⟩ | ⟨hk, hslots⟩
            · rw [hslots] at hslot
              exact token_eq_of_missing hlasting he hmissing hslot
            · rw [hslots] at hslot
              exact hpending k current rejected outcome hk a hslot

/-! ## What stands in for a token -/

/-- Whether a caller that had to refresh an account has got one to run its operation with. -/
def Replaces (h h' : CallerHistory σ α) (i : Nat) (current a : Account) : Prop :=
  (h.callers.callers[i]?.bind Caller.inside? = some current) ∧
    ∃ rejected, h'.callers.callers[i]? = some (.acting (.operate a rejected))

/-- A caller replaces its token by what its own refresh gave, or by what it finds in the slot. -/
theorem Replaces.cases {h : CallerHistory σ α} {current a : Account}
    (hreplaces : Replaces h (h.after refresher (.move i now operation)) i current a) :
    (∃ rejected, h.callers.callers[i]? = some (.refreshing current rejected (.ok a))) ∨
      h.callers.slots.reusable? current now = some a := by
  obtain ⟨hcurrent, rejected, hnext⟩ := hreplaces
  obtain ⟨u, hu, hinside⟩ := Option.bind_eq_some_iff.1 hcurrent
  rcases (Callers.moved_move refresher now operation i h.callers).caller_cases hnext with
    ⟨-, u', hu', hadvance⟩ | ⟨hne, -⟩
  · rw [hu] at hu'
    cases hu'
    -- Of all steps only two let a caller out of the lock with an account to use.
    generalize hafter : Caller.acting (TokenUse.operate a rejected) = v at hadvance
    cases hadvance with
    | rests | waits | operates | takes | queues => cases hinside
    | renews => cases hafter
    | reuses rejected found =>
        cases hinside
        cases hafter
        exact .inr found
    | renewed current rejected outcome =>
        cases hinside
        cases outcome with
        | error e => cases hafter
        | ok b =>
            cases hafter
            exact .inl ⟨rejected, hu⟩
  · exact absurd rfl hne

/-- What a caller finds in the slot is the newest account that a refresh of that id gave. It came from the
caller's token exactly if that was ever refreshed. -/
theorem reusable_descends_iff (hlasting : Lasting events refresher) (hpast : ∀ e ∈ past, e ∈ events)
    {current a : Account}
    (hfound : (through refresher state past).callers.slots.reusable? current now = some a) :
    ((through refresher state past).renewedOf current.id).getLast?.map Prod.snd = some a ∧
      a.token ≠ current.token ∧
      (Descends (through refresher state past).renewed current.id current.token a.token ↔
        ∃ r ∈ (through refresher state past).renewed, r.1.id = current.id ∧ r.1.token = current.token) := by
  obtain ⟨hslot, -, hne⟩ := RefreshSlots.reusable?_eq_some_iff.1 hfound
  rw [newest_through] at hslot
  refine ⟨hslot, hne, Descends.exists_renewal, ?_⟩
  rintro ⟨r, hr, hid, htoken⟩
  obtain ⟨last, hlast, rfl⟩ := Option.map_eq_some_iff.1 hslot
  rw [← htoken]
  exact descends_getLast ((chained_through hlasting hpast).chain current.id) (fun r => mem_renewedOf.1)
    (mem_renewedOf.2 ⟨hr, hid⟩) hlast

/-- What stands in for a token, in any history whose new tokens stay valid: either what the caller's own
refresh of it gave, or the newest account that a refresh of that id gave, whether or not the two have to do
with each other. That came from the caller's token exactly if the caller's token was ever refreshed. -/
theorem replacement_descends_iff (refresher : Refresher σ) (state : σ) (past : List (CallerEvent α))
    (i : Nat) (now : Instant) (operation : Account → Except SessionError α)
    (hlasting : Lasting (past ++ [.move i now operation]) refresher) (current a : Account)
    (hreplaces : Replaces (through refresher state past)
      (through refresher state (past ++ [.move i now operation])) i current a) :
    let h := through refresher state past
    (∃ rejected, h.callers.callers[i]? = some (.refreshing current rejected (.ok a))) ∨
      ((h.renewedOf current.id).getLast?.map Prod.snd = some a ∧ a.token ≠ current.token ∧
        (Descends h.renewed current.id current.token a.token ↔
          ∃ r ∈ h.renewed, r.1.id = current.id ∧ r.1.token = current.token)) := by
  intro h
  rw [through_concat] at hreplaces
  rcases hreplaces.cases with hown | hfound
  · exact .inl hown
  · exact .inr (reusable_descends_iff hlasting (fun e he => List.mem_append_left _ he) hfound)

/-! ## Two logins of one account -/

theorem lasting_naming {events : List (CallerEvent α)}
    (h : ∀ e ∈ events, (AccountToken.lasting "").isExpired e.instant = false) :
    Lasting events Refresher.naming := by
  intro a names b hb
  cases names with
  | nil => cases hb
  | cons name names =>
      cases hb
      exact ⟨.lasting name, rfl, h⟩

/-- An account with the token of a login, expired by now. -/
def expiredLogin (name : String) : Account := ⟨"a", "https://vault.example", some ⟨name, name, .earliest⟩⟩

def nextMove (i : Nat) : CallerEvent Unit := .move i .epoch fun _ => .ok ()

/-- A caller refreshes the token of a first login; then another comes with that of a second one. -/
def twoLogins : List (CallerEvent Unit) :=
  [.arrive (expiredLogin "first") .epoch, nextMove 0, nextMove 0, nextMove 0,
    .arrive (expiredLogin "second") .epoch, nextMove 1]

theorem lasting_twoLogins : Lasting (twoLogins ++ [nextMove 1]) Refresher.naming :=
  lasting_naming (by decide)

theorem replaces_twoLogins :
    Replaces (through Refresher.naming ["new", "newer"] twoLogins)
      (through Refresher.naming ["new", "newer"] (twoLogins ++ [nextMove 1])) 1 (expiredLogin "second")
      { expiredLogin "first" with token := some (.lasting "new") } :=
  ⟨rfl, false, rfl⟩

theorem replacement_descends_iff_twoLogins :
    Lasting (twoLogins ++ [nextMove 1]) Refresher.naming ∧
      let h := through Refresher.naming ["new", "newer"] twoLogins
      let a : Account := { expiredLogin "first" with token := some (.lasting "new") }
      (∃ rejected, h.callers.callers[1]? = some (.refreshing (expiredLogin "second") rejected (.ok a))) ∨
        ((h.renewedOf "a").getLast?.map Prod.snd = some a ∧ a.token ≠ (expiredLogin "second").token ∧
          (Descends h.renewed "a" (expiredLogin "second").token a.token ↔
            ∃ r ∈ h.renewed, r.1.id = "a" ∧ r.1.token = (expiredLogin "second").token)) :=
  ⟨lasting_twoLogins, replacement_descends_iff Refresher.naming ["new", "newer"] twoLogins 1 .epoch
    (fun _ => .ok ()) lasting_twoLogins (expiredLogin "second") _ replaces_twoLogins⟩

/-- What the refresh of the first login gave stands in for the second one, from which it does not come. -/
theorem replacement_of_another_login :
    let h := through Refresher.naming ["new", "newer"] twoLogins
    let a : Account := { expiredLogin "first" with token := some (.lasting "new") }
    Lasting (twoLogins ++ [nextMove 1]) Refresher.naming ∧
      Replaces h (through Refresher.naming ["new", "newer"] (twoLogins ++ [nextMove 1])) 1
        (expiredLogin "second") a ∧
      ¬ ((∃ rejected, h.callers.callers[1]? = some (.refreshing (expiredLogin "second") rejected (.ok a))) ∨
        Descends h.renewed "a" (expiredLogin "second").token a.token) := by
  intro h a
  refine ⟨lasting_twoLogins, replaces_twoLogins, ?_⟩
  rintro (⟨rejected, hstands⟩ | hdescends)
  · have hholding : h.callers.callers[1]? = some (.holding (expiredLogin "second") false) := rfl
    rw [hholding] at hstands
    cases hstands
  · obtain ⟨r, hr, -, htoken⟩ := hdescends.exists_renewal
    have hrenewed : h.renewed = [(expiredLogin "first", a)] := rfl
    rw [hrenewed, List.mem_singleton] at hr
    rw [hr] at htoken
    exact absurd htoken (by decide)

/-! ## One login -/

/-- Whether a refresher keeps the id of an account. -/
def KeepsId (refresher : Refresher σ) : Prop := ∀ a s b, (refresher a s).1 = .ok b → b.id = a.id

/-- Whether a token is that of a login, or was made in a refresh of the account. -/
def GoesBack (h : CallerHistory σ α) (id : String) (login token : Option AccountToken) : Prop :=
  token = login ∨ ∃ r ∈ h.renewedOf id, r.2.token = token

/-- Whether all callers of an account come with tokens that go back to one login, or with none. -/
def OneLogin (refresher : Refresher σ) (state : σ) (id : String) (login : Option AccountToken)
    (events : List (CallerEvent α)) : Prop :=
  ∀ past a now, past ++ [.arrive a now] <+: events → a.id = id → a.token.isSome →
    GoesBack (through refresher state past) id login a.token

variable {id : String} {login : Option AccountToken}

theorem GoesBack.mono {h h' : CallerHistory σ α} {token : Option AccountToken}
    (hback : GoesBack h id login token) (hsub : ∀ r ∈ h.renewedOf id, r ∈ h'.renewedOf id) :
    GoesBack h' id login token :=
  hback.imp_right fun ⟨r, hr, htoken⟩ => ⟨r, hsub r hr, htoken⟩

/-- No event takes a refresh back. -/
theorem mem_renewedOf_after {h : CallerHistory σ α} {r : Account × Account} (hr : r ∈ h.renewedOf id)
    (e : CallerEvent α) : r ∈ (h.after refresher e).renewedOf id := by
  obtain ⟨hmem, hid⟩ := mem_renewedOf.1 hr
  refine mem_renewedOf.2 ⟨?_, hid⟩
  cases e with
  | arrive a now => exact hmem
  | move i now operation => exact List.mem_append_left _ hmem

/-- If all callers go back to one login, then so does every token that one of them has. -/
theorem goesBack_through (hkeeps : KeepsId refresher) (hlogin : OneLogin refresher state id login past)
    {k : Nat} {u : Caller α} {a : Account}
    (hk : (through refresher state past).callers.callers[k]? = some u) (ha : u.uses? = some a)
    (hid : a.id = id) (hsome : a.token.isSome) :
    GoesBack (through refresher state past) id login a.token := by
  -- By the last event: whoever had an account before goes back as before.
  induction past using List.reverseRecOn generalizing k u a with
  | nil => cases hk
  | append_singleton past e ih =>
      have hbefore : ∀ {k : Nat} {u : Caller α} {a : Account},
          (through refresher state past).callers.callers[k]? = some u → u.uses? = some a → a.id = id →
            a.token.isSome → GoesBack (through refresher state (past ++ [e])) id login a.token := by
        intro k u a hk ha hid hsome
        rw [through_concat]
        refine (ih ?_ hk ha hid hsome).mono fun r hr => mem_renewedOf_after hr e
        exact fun before b now hstart => hlogin before b now (hstart.trans (List.prefix_append past [e]))
      have hk' := hk
      rw [through_concat] at hk'
      cases e with
      | arrive b now =>
          rcases caller_cases_of_arrive hk' with hk' | ⟨-, rfl⟩
          · exact hbefore hk' ha hid hsome
          · rw [Caller.eq_of_uses?_start ha] at hid hsome ⊢
            rw [through_concat]
            exact hlogin past b now (List.prefix_refl _) hid hsome
      | move i now operation =>
          rcases (Callers.moved_move refresher now operation i _).uses_cases hk' ha with
            ⟨u', hu', ha'⟩ | ⟨current, rejected, -, hfound⟩ | ⟨current, rejected, hki, hstands⟩
          · exact hbefore hu' ha' hid hsome
          · -- An account from the slot is the newest that was made.
            obtain ⟨hslot, -, -⟩ := RefreshSlots.reusable?_eq_some_iff.1 hfound
            rw [newest_through] at hslot
            obtain ⟨last, hlast, rfl⟩ := Option.map_eq_some_iff.1 hslot
            obtain ⟨hmem, hcurrent⟩ := mem_renewedOf.1 (List.mem_of_getLast? hlast)
            have hkept : last.2.id = last.1.id :=
              (made_through (fun a b => b.id = a.id) hkeeps state past).1 last hmem
            rw [through_concat]
            refine .inr ⟨last, mem_renewedOf_after (mem_renewedOf.2 ⟨hmem, ?_⟩) _, rfl⟩
            rw [← hkept, hid]
          · -- An account from a refresh is made by this move.
            have hkept : a.id = current.id :=
              (made_through (fun a b => b.id = a.id) hkeeps state past).2 k current rejected a hstands
            rw [through_concat]
            refine .inr ⟨(current, a), mem_renewedOf.2 ⟨?_, hkept ▸ hid⟩, rfl⟩
            rw [after, ← hki, hstands]
            exact List.mem_append_right _ (List.mem_singleton_self _)

/-- If all callers of an account go back to one login, the first refresh was one of its token. -/
theorem head_renewedOf_through (hkeeps : KeepsId refresher)
    (hlogin : OneLogin refresher state id login past) {r : Account × Account}
    (hr : ((through refresher state past).renewedOf id).head? = some r) : r.1.token = login := by
  induction past using List.reverseRecOn with
  | nil => cases hr
  | append_singleton past e ih =>
      have hpast : OneLogin refresher state id login past :=
        fun before b now hstart => hlogin before b now (hstart.trans (List.prefix_append past [e]))
      rw [through_concat] at hr
      cases e with
      | arrive a now => exact ih hpast hr
      | move i now operation =>
          rcases after_move_cases refresher (through refresher state past) i now operation with
            ⟨-, hrenewed⟩ | ⟨current, rejected, a, hstands, -, hrenewed⟩
          · rw [renewedOf, hrenewed] at hr
            exact ih hpast hr
          · rw [renewedOf_concat hrenewed] at hr
            split at hr
            · next hid =>
                cases hempty : (through refresher state past).renewedOf id with
                | cons first rest =>
                    rw [hempty] at hr ih
                    exact ih hpast hr
                | nil =>
                    rw [hempty] at hr
                    cases hr
                    -- Nothing was refreshed before, so the token that was is that of the login.
                    rcases goesBack_through hkeeps hpast hstands rfl hid
                      (token_isSome_through refresher state past hstands rfl) with heq | ⟨r, hr, -⟩
                    · exact heq
                    · rw [hempty] at hr
                      cases hr
            · exact ih hpast hr

/-- Along a chain, what a refresh gave is the last token or was refreshed in turn. -/
theorem renewed_of_chain {chain : List (Account × Account)}
    (hchain : chain.IsChain fun r r' => r'.1.token = r.2.token) {r last : Account × Account}
    (hr : r ∈ chain) (hlast : chain.getLast? = some last) :
    r.2.token = last.2.token ∨ ∃ r' ∈ chain, r'.1.token = r.2.token := by
  induction chain with
  | nil => cases hr
  | cons x rest ih =>
      cases rest with
      | nil =>
          rw [List.getLast?_singleton] at hlast
          cases hlast
          rw [List.mem_singleton.1 hr]
          exact .inl rfl
      | cons y rest =>
          obtain ⟨hxy, htail⟩ := List.isChain_cons_cons.1 hchain
          rw [List.getLast?_cons_cons] at hlast
          rcases List.mem_cons.1 hr with rfl | hr
          · exact .inr ⟨y, List.mem_cons_of_mem _ List.mem_cons_self, hxy⟩
          · exact (ih htail hr hlast).imp_right fun ⟨r', hr', htoken⟩ =>
              ⟨r', List.mem_cons_of_mem _ hr', htoken⟩

/-- If all callers of an account go back to one login, what stands in for a token is what the caller's own
refresh of it gave, or came from it by earlier refreshes. -/
theorem replacement_descends_of_one_login (hkeeps : KeepsId refresher)
    (hlasting : Lasting (past ++ [.move i now operation]) refresher) {current a : Account}
    (hlogin : OneLogin refresher state current.id login past)
    (hreplaces : Replaces (through refresher state past)
      (through refresher state (past ++ [.move i now operation])) i current a) :
    (∃ rejected, (through refresher state past).callers.callers[i]?
        = some (.refreshing current rejected (.ok a))) ∨
      Descends (through refresher state past).renewed current.id current.token a.token := by
  obtain ⟨u, hu, hinside⟩ := Option.bind_eq_some_iff.1 hreplaces.1
  have hpast : ∀ e ∈ past, e ∈ past ++ [.move i now operation] := fun e he => List.mem_append_left _ he
  rw [through_concat] at hreplaces
  rcases hreplaces.cases with hown | hfound
  · exact .inl hown
  · obtain ⟨hnewest, hne, hiff⟩ := reusable_descends_iff hlasting hpast hfound
    obtain ⟨last, hlast, rfl⟩ := Option.map_eq_some_iff.1 hnewest
    have hrefreshes : u.refreshes? = some current := Caller.refreshes?_of_inside? hinside
    refine .inr (hiff.2 ?_)
    -- The caller's token is that of the login, which the first refresh was of, or a later one along the chain.
    rcases goesBack_through hkeeps hlogin hu (Caller.uses?_of_refreshes? hrefreshes) rfl
      (token_isSome_through refresher state past hu hrefreshes) with heq | ⟨r, hr, htoken⟩
    · cases hhead : ((through refresher state past).renewedOf current.id).head? with
      | none =>
          rw [List.head?_eq_none_iff.1 hhead] at hlast
          cases hlast
      | some r =>
          obtain ⟨hmem, hid⟩ := mem_renewedOf.1 (List.mem_of_head? hhead)
          exact ⟨r, hmem, hid, (head_renewedOf_through hkeeps hlogin hhead).trans heq.symm⟩
    · rcases renewed_of_chain ((chained_through hlasting hpast).chain current.id) hr hlast with
        heq | ⟨r', hr', htoken'⟩
      · exact absurd (heq.symm.trans htoken) hne
      · obtain ⟨hmem, hid⟩ := mem_renewedOf.1 hr'
        exact ⟨r', hmem, hid, htoken'.trans htoken⟩

end CallerHistory
end PasswordVault
