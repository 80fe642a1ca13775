import PasswordVault.Proofs.Session.FailedRefresh
import PasswordVault.Proofs.Session.Lineage
import PasswordVault.Proofs.Store.Mutation
import PasswordVault.Proofs.Text.Dates
import PasswordVault.Session.TokenKeeping

/-!
# Token keeping — one account, or nothing

A refresher that keeps what another one gives changes the row of the account and the entries of the list
with its id, or else nothing. It fails with the first of the refresh, the opening of the store and the write
to fail; the slot of the account then stays as it was, and whoever comes next tries again.

* `Account.readBack_toJson`: a row that was written for an account is read as that account.
* `TokenKeeper.Publishes`, `TokenKeeper.Unchanged`: what a refresh leaves if it succeeds, and if it fails.
* `withValidToken_of_asks`: what comes of a call that asks for a refresh.
* `Refresher.keeping_changes_one`: all of it, for every refresher, store and list.
-/

namespace PasswordVault

/-! ## Accounts in JSON -/

open Json.Reader

/-- A token is found in what is written for it. -/
theorem AccountToken.finds_toJson (t : AccountToken) : Finds reader t.toJson t := by
  have haccess := finds_text t.accessToken
  have hrefresh := finds_text t.refreshToken
  have hdate := t.expirationDate.finds_toJson
  refine finds_record ["access_token", "refresh_token", "expiration_date"]
    [.string t.accessToken, .string t.refreshToken, t.expirationDate.toJson] (by decide) rfl ?_ ?_
  · simp [haccess.exact, hrefresh.exact, hdate.exact]
  · intro depth hdepth b
    simp only [List.map_cons, List.map_nil, Option.pure_def, Option.bind_eq_bind,
      haccess.required_bind hdepth, hrefresh.required_bind hdepth, hdate.required_bind hdepth,
      Option.some.injEq, List.mem_cons, List.not_mem_nil, or_false, forall_eq_or_imp, forall_eq, and_assoc]

namespace Account

theorem finds_members {id serverUrl : String} {token : Option AccountToken} {j : Json}
    (htoken : Finds (orNull AccountToken.reader) j token) :
    Finds reader (.object [("id", .string id), ("server_url", .string serverUrl), ("token", j)])
      ⟨id, serverUrl, token⟩ := by
  have hid := finds_text id
  have hserver := finds_text serverUrl
  refine finds_record ["id", "server_url", "token"] [.string id, .string serverUrl, j] (by decide) rfl ?_ ?_
  · simp [hid.exact, hserver.exact, htoken.exact]
  · intro depth hdepth b
    simp [hid.required_bind hdepth, hserver.required_bind hdepth, htoken.optional_bind hdepth, and_assoc]

theorem finds_toJson (a : Account) : Finds reader a.toJson a := by
  obtain ⟨id, serverUrl, token⟩ := a
  cases token with
  | none => exact finds_members (finds_null AccountToken.reader)
  | some t => exact finds_members (finds_some t.finds_toJson nofun)

/-- A row that was written for an account is read as that account. -/
theorem readBack_toJson (a : Account) : readBack reader a.toJson = .ok a := by
  have hlevels : a.toJson.nesting < Json.nestingLimit := by
    cases htoken : a.token <;>
      simp [toJson, htoken, AccountToken.toJson, Instant.toJson, Json.nesting, Json.membersNesting,
        Json.memberNesting, Json.nestingLimit]
  rw [readBack_of_finds a.finds_toJson, if_pos hlevels]

/-! ## The list in use -/

theorem getElem?_publish {refreshed x : Account} {accounts : List Account} {i : Nat}
    (h : accounts[i]? = some x) :
    (refreshed.publish accounts)[i]? = some (if x.id = refreshed.id then refreshed else x) := by
  rw [publish, List.getElem?_map, h]
  rfl

end Account

/-! ## What a refresh leaves -/

variable {σ α : Type}

namespace TokenKeeper

/-- The store that whoever asks for it gets: the open one, or what comes of opening it. -/
def store (k : TokenKeeper σ) : Except StoreError Store :=
  (k.manager.get (k.ahead 0).opening k.folder).result

/-- All rows, whether the store is open or not. If it is not, they are those that its file has for the master
key (`StoreFile.rowsFor`): a file of another key counts as empty, as opening replaces it. -/
def rows (k : TokenKeeper σ) : Table := k.manager.rows k.folder

/-- The store with an account written to its row, or the first failure on the way: the store may not open,
the value may not be sealed, and the storage may not take it. -/
def written (k : TokenKeeper σ) (r : Account) : Except StoreError Store := do
  let s ← k.store
  let s ← s.put Account.rowKind r.id r.toJson (k.ahead 0).sealing
  match (k.ahead 0).failure with
  | some e => throw e
  | none => return s

/-- Whether a keeper has an account in its row and in the entries of the list with its id, and is otherwise
as another one. -/
structure Publishes (k k' : TokenKeeper σ) (r : Account) : Prop where
  row : ∃ s s', k.store = .ok s ∧ k'.store = .ok s' ∧
    s.ChangesRow s' Account.rowKind r.id Account.reader r
  rows : ∀ kind id, (kind, id) ≠ (Account.rowKind, r.id) → k'.rows.find? kind id = k.rows.find? kind id
  length : k'.accounts.length = k.accounts.length
  entries : ∀ (i : Nat) (x : Account), k.accounts[i]? = some x →
    k'.accounts[i]? = some (if x.id = r.id then r else x)

/-- Whether a keeper has the list and the rows of another one. -/
structure Unchanged (k k' : TokenKeeper σ) : Prop where
  accounts : k'.accounts = k.accounts
  rows : k'.rows = k.rows
  store : ∀ s, k.store = .ok s → k'.store = .ok s

variable {k k' : TokenKeeper σ} {s s' : Store} {r a : Account}

theorem store_of_store? (h : k.manager.store? k.folder = some s) :
    k.store = .ok s ∧ k.rows = s.file.rows := by
  refine ⟨?_, StoreManager.rows_of_store? h⟩
  rw [TokenKeeper.store, StoreManager.get_of_store? h]

theorem rows_of_store (h : k.store = .ok s) : k.rows = s.file.rows := by
  have hrows := StoreManager.rows_get k.manager (k.ahead 0).opening k.folder
  rw [← TokenKeeper.store, h] at hrows
  exact hrows.symm

/-- A store in which one row was changed, and a list in which the account was replaced. -/
theorem publishes_of_put (hstore : k.store = .ok s)
    (hput : s.put Account.rowKind r.id r.toJson (k.ahead 0).sealing = .ok s')
    (hopen : k'.manager.store? k'.folder = some s') (haccounts : k'.accounts = r.publish k.accounts) :
    k.Publishes k' r := by
  have hchanges := Store.changesRow_of_put r.readBack_toJson hput
  obtain ⟨hstore', hrows'⟩ := store_of_store? hopen
  refine ⟨⟨s, s', hstore, hstore', hchanges⟩, ?_, ?_, ?_⟩
  · obtain ⟨c, t, t', hfile, htable, hfile', hothers⟩ := hchanges.rest
    intro kind id hplace
    rw [hrows', rows_of_store hstore, hfile, hfile', StoreFile.rows, StoreFile.rows, htable]
    exact hothers kind id hplace
  · rw [haccounts, Account.publish, List.length_map]
  · intro i x hx
    rw [haccounts]
    exact Account.getElem?_publish hx

theorem unchanged_of_open (hstore : k.store = .ok s) (hopen : k'.manager.store? k'.folder = some s)
    (haccounts : k'.accounts = k.accounts) : k.Unchanged k' := by
  obtain ⟨hstore', hrows'⟩ := store_of_store? hopen
  refine ⟨haccounts, ?_, ?_⟩
  · rw [hrows', rows_of_store hstore]
  · intro s₁ hs₁
    rw [hstore', ← hstore, hs₁]

end TokenKeeper

namespace Refresher

open TokenKeeper

variable {refresher : Refresher σ} {a r : Account} {k : TokenKeeper σ} {inner : σ} {s : Store}

/-- The refresh fails: nothing is tried. -/
theorem keeping_of_error {e : SessionError} (h : refresher a k.inner = (.error e, inner)) :
    refresher.keeping a k = (.error e, { k with inner }) := by
  simp only [keeping, h]

/-- The refresh succeeds, and the store does not open. -/
theorem keeping_of_closed {e : StoreError} (h : refresher a k.inner = (.ok r, inner))
    (hstore : k.store = .error e) :
    (refresher.keeping a k).1 = .error (.store e) ∧ k.Unchanged (refresher.keeping a k).2 := by
  obtain ⟨hresult, hafter⟩ :=
    StoreManager.mutate_of_error hstore ((k.ahead 0).keep r k.accounts)
  have hrows := StoreManager.rows_get k.manager (k.ahead 0).opening k.folder
  rw [← TokenKeeper.store, hstore] at hrows
  obtain ⟨hmanager, hsame⟩ := hrows
  simp only [keeping, h, hresult, hafter, true_and]
  refine ⟨rfl, ?_, ?_⟩
  · simp only [TokenKeeper.rows, hmanager, hsame]
  · intro s hs
    cases hs.symm.trans hstore

/-- What is kept in an open store. -/
theorem keep_eq (met : Circumstances) (r : Account) (accounts : List Account) (s : Store) :
    met.keep r accounts s =
      match s.put Account.rowKind r.id r.toJson met.sealing, met.failure with
      | .error e, _ => (.error (.store e), s)
      | .ok _, some e => (.error (.store e), s)
      | .ok s', none => (.ok (r.publish accounts), s') := by
  have hkept : keepRefreshed (.ok r) s accounts met.sealing =
      (s.put Account.rowKind r.id r.toJson met.sealing).mapError .store >>=
        fun s' => .ok (r, s', r.publish accounts) := rfl
  rw [Circumstances.keep, hkept]
  cases s.put Account.rowKind r.id r.toJson met.sealing with
  | error e => rfl
  | ok s' => cases met.failure <;> rfl

/-- What a refresh that is kept comes to, and what it leaves. -/
theorem keeping_cases (refresher : Refresher σ) (k : TokenKeeper σ) (a : Account) :
    ((refresher.keeping a k).1 = do
      let r ← (refresher a k.inner).1
      let _ ← (k.written r).mapError .store
      pure r) ∧
    ((∃ e, (refresher.keeping a k).1 = .error e ∧ k.Unchanged (refresher.keeping a k).2) ∨
      ∃ r, (refresher.keeping a k).1 = .ok r ∧ k.Publishes (refresher.keeping a k).2 r) := by
  -- In the order in which it may fail: the refresh, the opening, the sealing and the storage.
  rcases hrun : refresher a k.inner with ⟨e | r, inner⟩
  · rw [keeping_of_error hrun]
    exact ⟨rfl, .inl ⟨e, rfl, rfl, rfl, fun s hs => hs⟩⟩
  cases hstore : k.store with
  | error e =>
      obtain ⟨hresult, hunchanged⟩ := keeping_of_closed hrun hstore
      simp only [hresult, written, hstore, error_bind]
      exact ⟨rfl, .inl ⟨_, rfl, hunchanged⟩⟩
  | ok s =>
      obtain ⟨hresult, hopen⟩ := StoreManager.mutate_of_ok hstore ((k.ahead 0).keep r k.accounts)
      rw [keep_eq] at hresult hopen
      simp only [written, hstore, ok_bind]
      cases hput : s.put Account.rowKind r.id r.toJson (k.ahead 0).sealing with
      | error e =>
          simp only [hput] at hresult hopen
          simp only [keeping, hrun, hresult]
          exact ⟨rfl, .inl ⟨_, rfl, unchanged_of_open hstore hopen rfl⟩⟩
      | ok s' =>
          cases hfailure : (k.ahead 0).failure with
          | some e =>
              simp only [hput, hfailure] at hresult hopen
              simp only [keeping, hrun, hresult]
              exact ⟨rfl, .inl ⟨_, rfl, unchanged_of_open hstore hopen rfl⟩⟩
          | none =>
              simp only [hput, hfailure] at hresult hopen
              simp only [keeping, hrun, hresult]
              exact ⟨rfl, .inr ⟨_, rfl, publishes_of_put hstore hput hopen rfl⟩⟩

/-- Whether a refresh changes one account or nothing. -/
structure KeepsOne (refresher : Refresher σ) (k : TokenKeeper σ) (a : Account) : Prop where
  /-- The outcome is that of the refresher, or the failure of the write. -/
  outcome : (refresher.keeping a k).1 = do
    let r ← (refresher a k.inner).1
    let _ ← (k.written r).mapError .store
    pure r
  succeeded : ∀ r k', refresher.keeping a k = (.ok r, k') → k.Publishes k' r
  failed : ∀ e k', refresher.keeping a k = (.error e, k') → k.Unchanged k'

/-- The outcome decides which of the two cases it is. -/
theorem keepsOne (refresher : Refresher σ) (k : TokenKeeper σ) (a : Account) :
    refresher.KeepsOne k a := by
  obtain ⟨houtcome, hcases⟩ := keeping_cases refresher k a
  refine ⟨houtcome, fun r k' h => ?_, fun e k' h => ?_⟩
  · rcases hcases with ⟨e, herror, -⟩ | ⟨r', hok, hpublishes⟩
    · rw [h] at herror
      cases herror
    · rw [h] at hok hpublishes
      cases hok
      exact hpublishes
  · rcases hcases with ⟨e', -, hunchanged⟩ | ⟨r, hok, -⟩
    · rwa [h] at hunchanged
    · rw [h] at hok
      cases hok

end Refresher

/-! ## The law -/

/-- A refresh that is kept changes one account or nothing: if it succeeds, the row of the account is read as
it, all entries of the list with its id are it, and no other row or entry has changed; if the refresher or the
write fails, that is the error, and neither the list nor a row has changed. A failure leaves the slots as
they were, and the next call tries again. Before the store is open its rows are those that the file has for the
master key, so that a file of another key, which the first refresh replaces, counts as empty. -/
theorem Refresher.keeping_changes_one (refresher : Refresher σ) (k : TokenKeeper σ) (a : Account) :
    KeepsOne refresher k a ∧ TriesAgain refresher.keeping :=
  ⟨keepsOne refresher k a, triesAgain refresher.keeping⟩

/-- An account that stands in the list twice, another one between, and a store in memory that is not open
yet. -/
def twoEntries (names : List String) : TokenKeeper (List String) where
  inner := names
  manager := { place := .memory, masterKey := ⟨KdfVersion.v0, List.replicate 32 1⟩ }
  folder := .empty
  accounts := [CallerHistory.expiredLogin "old", ⟨"b", "https://vault.example", none⟩,
    CallerHistory.expiredLogin "old"]
  ahead := fun _ => ⟨⟨Block.fit 16 [], Block.fit 32 []⟩, ⟨Block.fit 16 [1], Block.fit 32 []⟩, none⟩

/-- The store that is opened in memory takes any account. -/
theorem exists_written_twoEntries (names : List String) (r : Account) :
    ∃ s, (twoEntries names).written r = .ok s := by
  obtain ⟨s, hopen⟩ := @Handle.exists_blank ⟨KdfVersion.v0, List.replicate 32 1⟩ (by decide)
    ⟨Block.fit 16 [], Block.fit 32 []⟩
  have hnew : Store.inMemory (twoEntries names).manager.masterKey ((twoEntries names).ahead 0).opening =
      .ok s := hopen
  have hstore : (twoEntries names).store = .ok s := StoreManager.get_of_memory rfl rfl hnew .empty
  obtain ⟨⟨s', hput, -⟩, -⟩ := (Handle.shows_of_blank hopen).put Account.rowKind r.id r.toJson
    ⟨Block.fit 16 [1], Block.fit 32 []⟩
  refine ⟨s', ?_⟩
  have hput' : s.put Account.rowKind r.id r.toJson ((twoEntries names).ahead 0).sealing = .ok s' := hput
  simp only [TokenKeeper.written, hstore, ok_bind, hput']
  rfl

/-- Both entries of an account are replaced; a refresh that fails leaves all as it was. -/
theorem Refresher.keeping_changes_one_twoEntries :
    let old := CallerHistory.expiredLogin "old"
    let new : Account := { old with token := some (.lasting "new") }
    (∃ k', Refresher.naming.keeping old (twoEntries ["new"]) = (.ok new, k') ∧
      k'.accounts = [new, ⟨"b", "https://vault.example", none⟩, new] ∧
      ∃ s, k'.store = .ok s ∧ s.get? Account.rowKind "a" Account.reader = .ok (some new)) ∧
    withValidToken Refresher.naming.keeping .epoch (fun _ => pure (.ok ())) old (twoEntries [], []) =
      ((.error .unauthorized : Except SessionError Unit), twoEntries [], []) := by
  intro old new
  refine ⟨?_, ?_⟩
  · obtain ⟨hkeeps, -⟩ := Refresher.keeping_changes_one Refresher.naming (twoEntries ["new"]) old
    obtain ⟨s, hwritten⟩ := exists_written_twoEntries ["new"] new
    have hresult : (Refresher.naming.keeping old (twoEntries ["new"])).1 = .ok new := by
      rw [hkeeps.outcome]
      change ((twoEntries ["new"]).written new).mapError .store >>= (fun _ => .ok new) = _
      rw [hwritten]
      rfl
    have hkept : Refresher.naming.keeping old (twoEntries ["new"]) =
        (.ok new, (Refresher.naming.keeping old (twoEntries ["new"])).2) := Prod.ext hresult rfl
    have hpublishes := hkeeps.succeeded _ _ hkept
    obtain ⟨s, s', -, hstore, hchanges⟩ := hpublishes.row
    refine ⟨_, hkept, ?_, s', hstore, hchanges.reads⟩
    obtain ⟨x, y, z, hlist⟩ := List.length_eq_three.1 hpublishes.length
    have hfirst := hpublishes.entries 0 _ rfl
    have hsecond := hpublishes.entries 1 _ rfl
    have hthird := hpublishes.entries 2 _ rfl
    rw [hlist] at hfirst hsecond hthird ⊢
    cases hfirst
    cases hsecond
    cases hthird
    rfl
  · obtain ⟨-, htries⟩ := Refresher.keeping_changes_one Refresher.naming (twoEntries []) old
    have hexpired : old.isExpired .epoch = true := by decide
    exact (htries.failed (.expired hexpired) rfl).1

end PasswordVault
