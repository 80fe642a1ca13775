import PasswordVault.Proofs.Store.Transaction

/-!
# Rotation — another key keeps every row

A store that changes its key either stays exactly as it is, or holds the same values at the same
places under the new key.

* `Store.ReadsAs`: two stores answer every question about their rows alike.
* `Handle.step`: one request to an open store, successful or not; `Handle.run`: any sequence of them.
* `Handle.Healthy`: the invariant. The key of the handle opens the check and every row.
* `Store.rotation_atomic`: the invariant holds after every run, and a change of the key of any store
  keeps all of its rows or changes nothing.
-/

namespace PasswordVault
namespace Store

/-! ## Stores that read alike -/

/-- Whether all reads of a store give what they give for another. -/
structure ReadsAs (s' s : Store) : Prop where
  get : ∀ (α : Type) (read : Json.Reader α) kind id, s'.get? kind id read = s.get? kind id read
  list : ∀ (α : Type) (read : Json.Reader α) kind, s'.list kind read = s.list kind read
  count : ∀ kind, s'.count kind = s.count kind

/-- Whether rows stand at the same places and open to the same plaintexts, each under its key. -/
def Resealed (old new : SymmetricKey) (r r' : Row) : Prop :=
  r'.place = r.place ∧ unsealBytes new r'.data = unsealBytes old r.data

/-- Whether a store has the rows of another under its own key, and opens all of them. -/
def Keeps (s' s : Store) : Prop :=
  ∃ t t', s.table = .ok t ∧ s'.table = .ok t' ∧
    List.Forall₂ (Resealed s.key s'.key) t.rows t'.rows ∧
    ∀ r ∈ t'.rows, ∃ plaintext, unsealBytes s'.key r.data = .ok plaintext

variable {s s' : Store} {t t' : Table}

theorem unsealValue_congr {α : Type} {key key' : SymmetricKey} {data data' : String}
    (h : unsealBytes key' data' = unsealBytes key data) (read : Json.Reader α) :
    unsealValue key' read data' = unsealValue key read data := by
  rw [unsealValue, unsealValue, h]

/-- A store that keeps the plaintexts of another answers all its reads. -/
theorem Keeps.readsAs (h : s'.Keeps s) : s'.ReadsAs s := by
  rcases h with ⟨t, t', htable, htable', hrows, -⟩
  have hkinds := Table.forall₂_ofKind (fun r r' (hr : Resealed s.key s'.key r r') => hr.1) hrows
  refine ⟨?_, ?_, ?_⟩
  · intro α read kind id
    -- A row is found in the new table where it was in the old one, and opens to the same bytes.
    have hfind := Table.find?_congr hrows kind id
    cases hold : t.find? kind id with
    | none =>
        have hnew : t'.find? kind id = none := by simpa [hold] using hfind
        rw [get?_of_none htable hold, get?_of_none htable' hnew]
    | some data =>
        obtain ⟨data', hnew, hopens⟩ : ∃ data', t'.find? kind id = some data' ∧
            unsealBytes s'.key data' = unsealBytes s.key data := by
          simpa [hold] using hfind
        rw [get?_of_some htable hold, get?_of_some htable' hnew, unsealValue_congr hopens]
  · intro α read kind
    rw [list_of_table htable, list_of_table htable']
    symm
    apply mapM_congr
    exact (hkinds kind).imp fun r r' hr => (unsealValue_congr hr.2 read).symm
  · intro kind
    have hcount : ∀ t : Table, t.count kind = (t.ofKind kind).length := by
      intro t
      simp [Table.count, Table.ofKind]
    rw [Store.count, Store.count, htable, htable', ok_bind, ok_bind, hcount, hcount,
      (hkinds kind).length_eq]

/-! ## A successful change -/

/-- What a store is after its key was changed. -/
theorem store_of_changePassword {c : StoreContent} {masterKey : MasterKey}
    {fresh : Nat → Envelope.Fresh} (hfile : s.file = .store c) (htable : c.table = some t)
    (h : s.changePassword masterKey fresh = .ok s') :
    deriveSubKeys masterKey = .ok s'.key ∧
      ∃ c' t', s'.file = .store c' ∧ c'.table = some t' ∧ OpensCheck s'.key c' ∧
        c'.keyCheck.isSome = c.keyCheck.isSome ∧
        List.Forall₂ (Resealed s.key s'.key) t.rows t'.rows ∧
        ∀ r ∈ t'.rows, ∃ plaintext, unsealBytes s'.key r.data = .ok plaintext := by
  rcases changePassword_cases hfile htable h with ⟨key, t', hderive, hmap, rfl⟩
  have hkey : key.IsDerived := ⟨masterKey, hderive⟩
  have hseals : ∀ plaintext fresh, unsealBytes key (rowText key plaintext fresh) = .ok plaintext := by
    intro plaintext fresh
    exact unsealBytes_sealBytes hkey (sealBytes_eq hkey plaintext fresh)
  -- The new text of a row is sealed from what its old text opens to.
  have hopens : ∀ r r' : Row, (∃ i, reseal s.key key fresh i r.data = .ok r'.data) →
      ∃ plaintext, unsealBytes s.key r.data = .ok plaintext ∧
        unsealBytes key r'.data = .ok plaintext := by
    rintro r r' ⟨i, hi⟩
    rcases (reseal_eq_ok_iff hkey).1 hi with ⟨plaintext, hold, htext⟩
    exact ⟨plaintext, hold, htext ▸ hseals plaintext (fresh (i + 1))⟩
  have hpairs := Table.forall₂_mapRowData hmap
  refine ⟨hderive, _, t', rfl, rfl, ?_, by simp, ?_, ?_⟩
  · intro check hcheck
    rcases Option.map_eq_some_iff.1 hcheck with ⟨_, -, rfl⟩
    exact hseals keyCheckText (fresh 0)
  · refine hpairs.imp fun r r' hr => ⟨hr.1, ?_⟩
    rcases hopens r r' hr.2 with ⟨plaintext, hold, hnew⟩
    exact hnew.trans hold.symm
  · intro r' hr'
    rcases Table.exists_partner' hpairs hr' with ⟨r, -, -, hreseal⟩
    rcases hopens r r' hreseal with ⟨plaintext, -, hnew⟩
    exact ⟨plaintext, hnew⟩

theorem keeps_of_changePassword {masterKey : MasterKey} {fresh : Nat → Envelope.Fresh}
    (htable : s.table = .ok t) (h : s.changePassword masterKey fresh = .ok s') : s'.Keeps s := by
  rcases table_eq_ok_iff.1 htable with ⟨c, hfile, hrows⟩
  rcases store_of_changePassword hfile hrows h with
    ⟨-, c', t', hfile', hrows', -, -, hpairs, hopens⟩
  exact ⟨t, t', htable, table_eq_ok_iff.2 ⟨c', hfile', hrows'⟩, hpairs, hopens⟩

/-- A store whose key was changed is opened again by the new master key. -/
theorem openFile_of_changePassword {masterKey : MasterKey} {fresh : Nat → Envelope.Fresh}
    (htable : s.table = .ok t) (h : s.changePassword masterKey fresh = .ok s')
    (fresh' : Envelope.Fresh) :
    ∃ opened, (openFile s'.file masterKey fresh').1 = .ok opened ∧ opened.Keeps s := by
  rcases table_eq_ok_iff.1 htable with ⟨c, hfile, hrows⟩
  rcases store_of_changePassword hfile hrows h with
    ⟨hderive, c', t', hfile', hrows', hcheck, -, hpairs, hopens⟩
  rcases openFile_of_opensCheck hderive hcheck fresh' with ⟨c'', check, hopen, htable'', -, -⟩
  have hkept : c''.table = some t' := by
    simpa [hrows'] using htable''
  refine ⟨⟨s'.key, .store c''⟩, ?_, ?_⟩
  · rw [hfile', hopen]
  · exact ⟨t, t', htable, table_eq_ok_iff.2 ⟨c'', rfl, hkept⟩, hpairs, hopens⟩

/-- A change of the key fails for too short a master key and for a row that does not open. -/
theorem exists_rotate_error_iff (htable : s.table = .ok t) (masterKey : MasterKey)
    (fresh : Nat → Envelope.Fresh) :
    (∃ e, s.rotate masterKey fresh = (.error e, s)) ↔
      masterKey.bytes.length < 32 ∨ ∃ r ∈ t.rows, ∃ e, unsealBytes s.key r.data = .error e := by
  have hchange := @exists_changePassword_iff s t htable masterKey fresh
  have hfails : (∃ e, s.rotate masterKey fresh = (.error e, s)) ↔
      ¬ ∃ s', s.changePassword masterKey fresh = .ok s' := by
    rw [rotate_eq]
    cases s.changePassword masterKey fresh <;> simp
  have hcloses : ∀ data, (∃ e, unsealBytes s.key data = .error e) ↔
      ¬ ∃ plaintext, unsealBytes s.key data = .ok plaintext := by
    intro data
    cases unsealBytes s.key data <;> simp
  simp only [hfails, hchange, hcloses, not_and_or, Classical.not_forall, Nat.not_le, exists_prop]

end Store

/-! ## Requests to an open store -/

/-- An open store with the master key that opens its file. -/
structure Handle where
  masterKey : MasterKey
  store : Store

/-- What is asked of an open store, with whatever is drawn at random for it. -/
inductive Request where
  | put (kind id : String) (value : Json) (fresh : Envelope.Fresh)
  | delete (kind id : String)
  | changePassword (masterKey : MasterKey) (fresh : Nat → Envelope.Fresh)
  | reopen (fresh : Envelope.Fresh)

namespace Handle

/-- The result of a request, and the handle afterwards. -/
def step (h : Handle) : Request → Except StoreError Unit × Handle
  | .put kind id value fresh =>
    match h.store.put kind id value fresh with
    | .ok s => (.ok (), { h with store := s })
    | .error e => (.error e, h)
  | .delete kind id =>
    match h.store.delete kind id with
    | .ok (_, s) => (.ok (), { h with store := s })
    | .error e => (.error e, h)
  | .changePassword masterKey fresh =>
    match h.store.rotate masterKey fresh with
    | (.ok (), s) => (.ok (), ⟨masterKey, s⟩)
    | (.error e, s) => (.error e, { h with store := s })
  | .reopen fresh =>
    match Store.openFile h.store.file h.masterKey fresh with
    | (.ok s, _) => (.ok (), { h with store := s })
    | (.error e, file) => (.error e, { h with store := { h.store with file } })

def run (h : Handle) (requests : List Request) : Handle :=
  requests.foldl (fun h r => (h.step r).2) h

/-- The key of the handle follows from its master key, and opens the check and all rows. -/
structure Healthy (h : Handle) : Prop where
  derived : deriveSubKeys h.masterKey = .ok h.store.key
  opens : ∃ c t check, h.store.file = .store c ∧ c.table = some t ∧ c.keyCheck = some check ∧
    unsealBytes h.store.key check = .ok keyCheckText ∧
    ∀ r ∈ t.rows, ∃ plaintext, unsealBytes h.store.key r.data = .ok plaintext

variable {h : Handle}

/-- A new store has the key of its file. -/
theorem healthy_of_blank {masterKey : MasterKey} {fresh : Envelope.Fresh} {s : Store}
    (hopen : (Store.openFile .blank masterKey fresh).1 = .ok s) : Healthy ⟨masterKey, s⟩ := by
  have hderive := Store.deriveSubKeys_of_openFile hopen
  have hnone : Store.OpensCheck s.key {} := by
    intro check hcheck
    cases hcheck
  rcases Store.openFile_of_opensCheck hderive hnone fresh with
    ⟨c, check, hopened, htable, hcheck, hunseal⟩
  rw [StoreFile.blank, hopened] at hopen
  have hfile : s.file = .store c := congrArg Store.file (Except.ok.inj hopen).symm
  refine ⟨hderive, c, .empty, check, hfile, htable, hcheck, hunseal, ?_⟩
  intro r hr
  cases hr

theorem Healthy.isDerived (hh : h.Healthy) : h.store.key.IsDerived :=
  ⟨h.masterKey, hh.derived⟩

theorem Healthy.table (hh : h.Healthy) :
    ∃ t, h.store.table = .ok t ∧
      ∀ r ∈ t.rows, ∃ plaintext, unsealBytes h.store.key r.data = .ok plaintext := by
  rcases hh.opens with ⟨c, t, _, hfile, htable, -, -, hrows⟩
  exact ⟨t, Store.table_eq_ok_iff.2 ⟨c, hfile, htable⟩, hrows⟩

/-! ## One request -/

/-- A value that is put was sealed under the key of the handle, and no other row changes. -/
theorem Healthy.put (hh : h.Healthy) (kind id : String) (value : Json) (fresh : Envelope.Fresh) :
    (h.step (.put kind id value fresh)).2.Healthy := by
  rcases hh.opens with ⟨c, t, check, hfile, htable, hcheck, hunseal, hrows⟩
  have hput := Store.put_eq hh.isDerived hfile htable kind id value fresh
  simp only [step, hput]
  refine ⟨hh.derived, _, _, check, rfl, rfl, hcheck, hunseal, ?_⟩
  intro r hr
  rcases Table.mem_rows_insert.1 hr with ⟨hold, -⟩ | rfl
  · exact hrows r hold
  · exact ⟨_, unsealBytes_sealBytes hh.isDerived (sealBytes_eq hh.isDerived _ fresh)⟩

theorem Healthy.delete (hh : h.Healthy) (kind id : String) :
    (h.step (.delete kind id)).2.Healthy := by
  rcases hh.opens with ⟨c, t, check, hfile, htable, hcheck, hunseal, hrows⟩
  have hdelete := Store.delete_eq hfile htable kind id
  simp only [step, hdelete]
  refine ⟨hh.derived, _, _, check, rfl, rfl, hcheck, hunseal, ?_⟩
  intro r hr
  exact hrows r (Table.mem_rows_erase.1 hr).1

/-- Whether the key is changed or not, the handle has the key of its file. -/
theorem Healthy.changePassword (hh : h.Healthy) (masterKey : MasterKey)
    (fresh : Nat → Envelope.Fresh) : (h.step (.changePassword masterKey fresh)).2.Healthy := by
  rcases hh.opens with ⟨c, t, check, hfile, htable, hcheck, -, -⟩
  simp only [step, Store.rotate_eq]
  cases hchange : h.store.changePassword masterKey fresh with
  | error e =>
      -- Nothing was committed.
      exact hh
  | ok s' =>
      rcases Store.store_of_changePassword hfile htable hchange with
        ⟨hderive, c', t', hfile', htable', hopens, hsome, -, hrows⟩
      obtain ⟨check', hcheck'⟩ : ∃ check', c'.keyCheck = some check' := by
        rw [← Option.isSome_iff_exists, hsome, hcheck]
        rfl
      exact ⟨hderive, c', t', check', hfile', htable', hcheck', hopens check' hcheck', hrows⟩

/-- The file is opened again by the master key of the handle. -/
theorem Healthy.reopen (hh : h.Healthy) (fresh : Envelope.Fresh) :
    (h.step (.reopen fresh)).1 = .ok () ∧ (h.step (.reopen fresh)).2.Healthy := by
  rcases hh.opens with ⟨c, t, check, hfile, htable, hcheck, hunseal, hrows⟩
  have hopens : Store.OpensCheck h.store.key c := by
    intro check' hcheck'
    rw [hcheck] at hcheck'
    cases hcheck'
    exact hunseal
  rcases Store.openFile_of_opensCheck hh.derived hopens fresh with
    ⟨c', check', hopen, htable', hcheck', hunseal'⟩
  have hkept : c'.table = some t := by
    simpa [htable] using htable'
  simp only [step, hfile, hopen, true_and]
  exact ⟨hh.derived, c', t, check', rfl, hkept, hcheck', hunseal', hrows⟩

/-- Every request keeps a handle healthy. -/
theorem Healthy.step (hh : h.Healthy) (r : Request) : (h.step r).2.Healthy := by
  cases r with
  | put kind id value fresh => exact hh.put kind id value fresh
  | delete kind id => exact hh.delete kind id
  | changePassword masterKey fresh => exact hh.changePassword masterKey fresh
  | reopen fresh => exact (hh.reopen fresh).2

/-! ## Any number of requests -/

/-- By induction, so does every row of requests. -/
theorem Healthy.run (hh : h.Healthy) (requests : List Request) : (h.run requests).Healthy := by
  induction requests generalizing h with
  | nil => exact hh
  | cons r rest ih => exact ih (hh.step r)

/-- No read of a healthy handle fails for its key. -/
theorem Healthy.get?_ne_crypto (hh : h.Healthy) {α : Type} (read : Json.Reader α) (kind id : String)
    (e : CryptoError) : h.store.get? kind id read ≠ .error (.crypto e) := by
  rcases hh.table with ⟨t, htable, hrows⟩
  cases hfind : t.find? kind id with
  | none => simp [Store.get?_of_none htable hfind]
  | some data =>
      rcases Table.mem_of_find? hfind with ⟨r, hr, -, rfl⟩
      rcases hrows r hr with ⟨plaintext, hopen⟩
      have hvalue := @Store.unsealValue_ne_crypto _ _ read _ _ hopen e
      rw [Store.get?_of_some htable hfind]
      cases hread : Store.unsealValue h.store.key read r.data with
      | error e' =>
          intro heq
          cases heq
          exact hvalue hread
      | ok value =>
          intro heq
          cases heq

theorem Healthy.list_ne_crypto (hh : h.Healthy) {α : Type} (read : Json.Reader α) (kind : String)
    (e : CryptoError) : h.store.list kind read ≠ .error (.crypto e) := by
  rcases hh.table with ⟨t, htable, hrows⟩
  rw [Store.list_of_table htable]
  intro hfails
  rcases exists_of_mapM_eq_error hfails with ⟨r, hr, hvalue⟩
  rcases hrows r (Table.mem_ofKind.1 hr).1 with ⟨plaintext, hopen⟩
  exact Store.unsealValue_ne_crypto hopen e hvalue

/-- Only too short a master key is refused. -/
theorem Healthy.rotate (hh : h.Healthy) {masterKey : MasterKey} (hlong : 32 ≤ masterKey.bytes.length)
    (fresh : Nat → Envelope.Fresh) : ∃ s, h.store.rotate masterKey fresh = (.ok (), s) := by
  rcases hh.table with ⟨t, htable, hrows⟩
  rcases (Store.exists_changePassword_iff htable).2 ⟨hlong, hrows⟩ with ⟨s, hchange⟩
  exact ⟨s, by rw [Store.rotate_eq, hchange]⟩

end Handle

namespace Store

/-- A change of the key that fails leaves the store as it was, one that succeeds keeps every row, and
a store that has only been used through its handle always has the key of its file. All this is said of the change
as it runs, statement by statement, and that comes to what `changePassword` gives. -/
theorem rotation_atomic :
    (∀ masterKey fresh s requests, (openFile .blank masterKey fresh).1 = .ok s →
      let h := Handle.run ⟨masterKey, s⟩ requests
      h.Healthy ∧
      (∀ (α : Type) (read : Json.Reader α) kind id e,
        h.store.get? kind id read ≠ .error (.crypto e)) ∧
      (∀ (α : Type) (read : Json.Reader α) kind e, h.store.list kind read ≠ .error (.crypto e)) ∧
      (∀ next fresh, 32 ≤ next.bytes.length → (h.step (.changePassword next fresh)).1 = .ok ()) ∧
      (∀ fresh, (h.step (.reopen fresh)).1 = .ok ())) ∧
    (∀ s masterKey fresh e s', rotate s masterKey fresh = (.error e, s') → s' = s) ∧
    (∀ s t masterKey fresh, s.table = .ok t →
      ((∃ e, rotate s masterKey fresh = (.error e, s)) ↔
        masterKey.bytes.length < 32 ∨ ∃ r ∈ t.rows, ∃ e, unsealBytes s.key r.data = .error e)) ∧
    (∀ s masterKey fresh s', rotate s masterKey fresh = (.ok (), s') →
      deriveSubKeys masterKey = .ok s'.key ∧ s'.Keeps s ∧ s'.ReadsAs s ∧
      ∀ fresh', ∃ opened, (openFile s'.file masterKey fresh').1 = .ok opened ∧
        opened.Keeps s ∧ opened.ReadsAs s) ∧
    (∀ s masterKey fresh s',
      rotate s masterKey fresh = (.ok (), s') ↔ s.changePassword masterKey fresh = .ok s') ∧
    ∀ s masterKey fresh e,
      rotate s masterKey fresh = (.error e, s) ↔ s.changePassword masterKey fresh = .error e := by
  refine ⟨?_, ?_, ?_, ?_, fun s masterKey fresh s' => rotate_eq_ok_iff, ?_⟩
  · intro masterKey fresh s requests hopen h
    -- Every request keeps the handle healthy, and all that is said of the handle follows from that.
    have hh : h.Healthy := (Handle.healthy_of_blank hopen).run requests
    refine ⟨hh, fun _ => hh.get?_ne_crypto, fun _ => hh.list_ne_crypto, ?_, ?_⟩
    · intro next fresh hlong
      rcases hh.rotate hlong fresh with ⟨s', hrotate⟩
      simp only [Handle.step, hrotate]
    · intro fresh
      exact (hh.reopen fresh).1
  · intro s masterKey fresh e s' hrotate
    exact (rotate_eq_error_iff.1 hrotate).2
  · intro s t masterKey fresh htable
    exact exists_rotate_error_iff htable masterKey fresh
  · intro s masterKey fresh s' hrotate
    have hchange := rotate_eq_ok_iff.1 hrotate
    rcases exists_table_of_changePassword hchange with ⟨t, htable⟩
    rcases table_eq_ok_iff.1 htable with ⟨c, hfile, hrows⟩
    have hkeeps := keeps_of_changePassword htable hchange
    refine ⟨(store_of_changePassword hfile hrows hchange).1, hkeeps, hkeeps.readsAs, ?_⟩
    intro fresh'
    rcases openFile_of_changePassword htable hchange fresh' with ⟨opened, hopen, hopened⟩
    exact ⟨opened, hopen, hopened, hopened.readsAs⟩
  · intro s masterKey fresh e
    exact rotate_eq_error_iff.trans (and_iff_left rfl)

/-- A run with a refused change of the key, a successful one and a restart. -/
theorem rotation_atomic_run :
    ∃ s, (openFile .blank ⟨KdfVersion.v0, List.replicate 32 1⟩
        ⟨Block.fit 16 [], Block.fit 32 []⟩).1 = .ok s ∧
      (Handle.run ⟨⟨KdfVersion.v0, List.replicate 32 1⟩, s⟩
        [.put "k" "i" (.string "own") ⟨Block.fit 16 [], Block.fit 32 []⟩,
          .changePassword ⟨KdfVersion.v0, []⟩ fun _ => ⟨Block.fit 16 [], Block.fit 32 []⟩,
          .changePassword ⟨KdfVersion.v0, List.replicate 32 2⟩ fun _ =>
            ⟨Block.fit 16 [1], Block.fit 32 []⟩,
          .reopen ⟨Block.fit 16 [], Block.fit 32 []⟩]).Healthy := by
  rcases (@exists_deriveSubKeys_iff ⟨KdfVersion.v0, List.replicate 32 1⟩).2 (by decide) with
    ⟨key, hderive⟩
  have hnone : OpensCheck key {} := by
    intro check hcheck
    cases hcheck
  rcases openFile_of_opensCheck hderive hnone ⟨Block.fit 16 [], Block.fit 32 []⟩ with
    ⟨c, _, hopen, -, -, -⟩
  have hfirst := congrArg Prod.fst hopen
  exact ⟨_, hfirst, (rotation_atomic.1 _ _ _ _ hfirst).1⟩

end Store
end PasswordVault
