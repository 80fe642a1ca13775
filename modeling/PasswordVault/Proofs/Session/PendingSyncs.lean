import PasswordVault.Proofs.Store.Latest
import PasswordVault.Proofs.Text.Dates
import PasswordVault.Session.SyncQueue

/-!
# Pending syncs — what the queue holds

The queue has one row for every id of a scope, so a request that is made again replaces the one that waits.
The account that is named like the row of all accounts shares that row.

* `Handle.afterCalls`: a handle after some calls to the queue and other uses of the store;
  `requestsSinceTake`: what was asked for since all requests were taken last.
* `ListsScopes`: the law of a queue that has a row for every scope.
* `Store.waits_since_take`: what waits after any calls, what is taken, and when that is the law.
-/

namespace PasswordVault

/-! ## Requests in JSON -/

open Json.Reader

theorem SyncScope.finds_toJson (scope : SyncScope) : Finds reader scope.toJson scope := by
  cases scope with
  | account id =>
      refine finds_record ["scope", "account_id"] [.string "account", .string id] (by decide) rfl ?_ ?_
      · simp [(finds_text _).exact]
      · intro depth hdepth b
        simp [Json.Field.required, choice, tags, ofParts, Json.nesting, hdepth]
  | all =>
      refine ⟨.object ?_, ?_⟩
      · simp [(finds_text _).exact]
      · intro depth hdepth b
        have hfields : fields [["scope"], ["account_id"]] (.object [("scope", .string "all")]) =
            some [.given (.string "all"), .missing] := by
          rfl
        have hlookup : tags.lookup "all" = some "all" := rfl
        rw [toJson, Json.nesting_object_lt, reader, record_eq_some_iff hfields, and_assoc]
        refine and_congr_right fun hlevels => ?_
        have hrest : 0 < depth - 1 := by omega
        simp [Json.Field.required, choice, hlookup, ofParts, Json.nesting, hrest]

theorem SyncRequest.finds_toJson (r : SyncRequest) : Finds reader r.toJson r := by
  have hscope := r.scope.finds_toJson
  have htime := r.requestedAt.finds_toJson
  refine finds_record ["scope", "requested_at"] [r.scope.toJson, r.requestedAt.toJson] (by decide) rfl ?_ ?_
  · simp [hscope.exact, htime.exact]
  · intro depth hdepth b
    simp [hscope.required_bind hdepth, htime.required_bind hdepth, and_assoc]

theorem SyncRequest.readBack_toJson (r : SyncRequest) : readBack SyncRequest.reader r.toJson = .ok r := by
  have hlevels : r.toJson.nesting < Json.nestingLimit := by
    cases hscope : r.scope <;>
      simp [toJson, hscope, SyncScope.toJson, Instant.toJson, Json.nesting, Json.membersNesting,
        Json.memberNesting, Json.nestingLimit]
  rw [readBack_of_finds r.finds_toJson, if_pos hlevels]

/-! ## Calls to the queue -/

/-- A call that changes the queue, or another use of its store in between. -/
inductive SyncCall where
  | queue (scope : SyncScope) (now : Instant) (fresh : Envelope.Fresh)
  | take
  | other (r : Request) (hspares : ∀ id, r.leavesAt? (SyncRequest.rowKind, id) = none)

namespace SyncCall

def after (h : Handle) : SyncCall → Except StoreError Handle
  | .queue scope now fresh => (fun s => { h with store := s }) <$> h.store.queueSync scope now fresh
  | .take => (fun taken => { h with store := taken.2 }) <$> h.store.takeSyncs
  | .other r _ => .ok (h.step r).2

/-- The requests that were made since all of them were taken last, after one more call. -/
def requests (made : List SyncRequest) : SyncCall → List SyncRequest
  | .queue scope now _ => made ++ [⟨scope, now⟩]
  | .take => []
  | .other _ _ => made

end SyncCall

/-- The requests that were made since all of them were taken last. -/
def requestsSinceTake (calls : List SyncCall) : List SyncRequest := calls.foldl SyncCall.requests []

/-- Whether a list has every scope that was asked for, each once and no other. -/
structure ListsScopes (listed made : List SyncRequest) : Prop where
  once : (listed.map (·.scope)).Nodup
  same : ∀ scope, scope ∈ listed.map (·.scope) ↔ scope ∈ made.map (·.scope)

/-- A handle after some calls to the queue of its store. -/
def Handle.afterCalls (h : Handle) (calls : List SyncCall) : Except StoreError Handle :=
  calls.foldlM SyncCall.after h

namespace Store

/-! ## Requests in rows -/

/-- Whether the rows of a store hold the last requests that were made. -/
def HoldsSyncs (h : Handle) (made : List SyncRequest) : Prop :=
  h.Holds SyncRequest.rowKind (·.scope.rowId) SyncRequest.toJson made

variable {h : Handle} {made : List SyncRequest}

/-- What waits: the last request of every row, by the ids of the rows. -/
theorem HoldsSyncs.pendingSyncs (hh : HoldsSyncs h made) :
    ∃ listed, h.store.pendingSyncs = .ok listed ∧
      ((listed.map (·.scope.rowId)).Pairwise fun a b => Bytes.ofText a < Bytes.ofText b) ∧
      ∀ r, r ∈ listed ↔ lastWith (·.scope.rowId) made r.scope.rowId = some r := by
  obtain ⟨ids, hsorted, hids, hlist⟩ := Handle.Holds.list hh SyncRequest.readBack_toJson
  refine ⟨ids.filterMap (lastWith (·.scope.rowId) made), ?_, ?_, fun r => mem_filterMap_lastWith hids⟩
  · have hall : (ids.filterMap (lastWith (·.scope.rowId) made)).mapM Except.ok =
        (.ok (ids.filterMap (lastWith (·.scope.rowId) made)) : Except StoreError _) := by
      rw [mapM_eq_ok_iff, List.forall₂_same]
      exact fun _ _ => rfl
    rw [Store.pendingSyncs, hlist, hall]
  · rw [map_key_filterMap fun id hid => (hids id).1 hid]
    exact hsorted

/-- Rows are deleted one after the other; no other row changes. -/
theorem exists_deleteAll {contents : String × String → Option Json} (hs : h.Shows contents)
    (requests : List SyncRequest) :
    ∃ s, requests.foldlM (fun s r => (·.2) <$> s.delete SyncRequest.rowKind r.scope.rowId) h.store = .ok s ∧
      Handle.Shows { h with store := s } fun place =>
        if place.1 = SyncRequest.rowKind ∧ place.2 ∈ requests.map (·.scope.rowId) then none
        else contents place := by
  -- By induction over the requests: each delete takes its own row away.
  induction requests generalizing h contents with
  | nil =>
      refine ⟨h.store, rfl, ?_⟩
      simpa using hs
  | cons r rest ih =>
      obtain ⟨⟨s₁, hdelete, hstep⟩, hnext⟩ := hs.delete SyncRequest.rowKind r.scope.rowId
      rw [hstep] at hnext
      obtain ⟨s, hrest, hs'⟩ := ih hnext
      refine ⟨s, ?_, ?_⟩
      · have hfirst : (·.2) <$> h.store.delete SyncRequest.rowKind r.scope.rowId = .ok s₁ := by
          rw [hdelete]
          rfl
        rw [List.foldlM_cons, hfirst, ok_bind, hrest]
      · have hmap : (fun place : String × String =>
            if place.1 = SyncRequest.rowKind ∧ place.2 ∈ (r :: rest).map (·.scope.rowId) then none
            else contents place) = fun place =>
            if place.1 = SyncRequest.rowKind ∧ place.2 ∈ rest.map (·.scope.rowId) then none
            else if (SyncRequest.rowKind, r.scope.rowId) = place then none else contents place := by
          funext ⟨kind, id⟩
          by_cases hkind : kind = SyncRequest.rowKind
          · by_cases hid : id = r.scope.rowId
            · simp [hkind, hid]
            · simp [hkind, hid, Ne.symm hid]
          · simp [hkind, Ne.symm hkind]
        rw [hmap]
        exact hs'

/-- Taking the requests returns what waits, and nothing waits any longer. -/
theorem HoldsSyncs.takeSyncs (hh : HoldsSyncs h made) :
    ∃ listed s, h.store.pendingSyncs = .ok listed ∧ h.store.takeSyncs = .ok (listed, s) ∧
      HoldsSyncs { h with store := s } [] := by
  obtain ⟨listed, hpending, -, hlisted⟩ := hh.pendingSyncs
  obtain ⟨contents, hs, hrows⟩ := hh
  obtain ⟨s, hdeletes, hs'⟩ := exists_deleteAll hs listed
  refine ⟨listed, s, hpending, ?_, _, hs', ?_⟩
  · rw [Store.takeSyncs, hpending, ok_bind, hdeletes]
    rfl
  · intro id
    -- Every row that holds a request is deleted, for the request is listed.
    cases hlast : lastWith (·.scope.rowId) made id with
    | none =>
        have hnone : contents (SyncRequest.rowKind, id) = none := by
          rw [hrows, hlast]
          rfl
        simp only [hnone, ite_self]
        rfl
    | some r =>
        have hid : r.scope.rowId = id := (lastWith_eq_some hlast).2
        have hmem : r ∈ listed := (hlisted r).2 (by rw [hid, hlast])
        have hids : id ∈ listed.map (·.scope.rowId) := List.mem_map.2 ⟨r, hmem, hid⟩
        exact if_pos ⟨rfl, hids⟩

/-- Every call to the queue succeeds and keeps the rows in step with the requests made. -/
theorem HoldsSyncs.after (hh : HoldsSyncs h made) (call : SyncCall) :
    ∃ h', call.after h = .ok h' ∧ HoldsSyncs h' (call.requests made) := by
  cases call with
  | queue scope now fresh =>
      obtain ⟨s, hput, hnext⟩ := Handle.Holds.put hh ⟨scope, now⟩ fresh
      have hqueue : h.store.queueSync scope now fresh = .ok s := hput
      exact ⟨_, by rw [SyncCall.after, hqueue]; rfl, hnext⟩
  | take =>
      obtain ⟨listed, s, -, htake, hnext⟩ := hh.takeSyncs
      exact ⟨_, by rw [SyncCall.after, htake]; rfl, hnext⟩
  | other r hspares => exact ⟨_, rfl, Handle.Holds.step hh hspares⟩

/-- So does every run of calls, by induction. -/
theorem HoldsSyncs.afterCalls (hh : HoldsSyncs h made) (calls : List SyncCall) :
    ∃ h', h.afterCalls calls = .ok h' ∧ HoldsSyncs h' (calls.foldl SyncCall.requests made) := by
  induction calls generalizing h made with
  | nil => exact ⟨h, rfl, hh⟩
  | cons call rest ih =>
      obtain ⟨h₁, hfirst, hh₁⟩ := hh.after call
      obtain ⟨h', hrest, hh'⟩ := ih hh₁
      rw [Handle.afterCalls] at hrest
      refine ⟨h', ?_, hh'⟩
      rw [Handle.afterCalls, List.foldlM_cons, hfirst, ok_bind, hrest]

/-! ## The law of scopes -/

/-- The only scopes that share a row are all accounts and the account that is named like their row. -/
theorem rowId_eq_rowId_iff {scope scope' : SyncScope} : scope.rowId = scope'.rowId ↔
    scope = scope' ∨ scope = .account "*" ∧ scope' = .all ∨ scope = .all ∧ scope' = .account "*" := by
  cases scope <;> cases scope' <;> simp [SyncScope.rowId, eq_comm]

/-- The list shows every scope once unless two scopes share a row. -/
theorem listsScopes_iff {listed : List SyncRequest}
    (hsorted : (listed.map (·.scope.rowId)).Pairwise fun a b => Bytes.ofText a < Bytes.ofText b)
    (hlisted : ∀ r, r ∈ listed ↔ lastWith (·.scope.rowId) made r.scope.rowId = some r) :
    ListsScopes listed made ↔
      ¬ (.account "*" ∈ made.map (·.scope) ∧ .all ∈ made.map (·.scope)) := by
  have hrows : (listed.map (·.scope.rowId)).Nodup := Table.nodup_of_pairwise hsorted
  constructor
  · rintro hlaw ⟨hstar, hall⟩
    obtain ⟨r, hr, hscope⟩ := List.mem_map.1 ((hlaw.same _).2 hstar)
    obtain ⟨r', hr', hscope'⟩ := List.mem_map.1 ((hlaw.same _).2 hall)
    -- Both stand in the one row of their id, so they are one request.
    have hsame : r = r' := by
      refine List.inj_on_of_nodup_map hrows hr hr' ?_
      rw [hscope, hscope']
      rfl
    rw [hsame, hscope'] at hscope
    cases hscope
  · intro hapart
    constructor
    · refine List.Nodup.of_map SyncScope.rowId ?_
      rw [List.map_map]
      exact hrows
    · intro scope
      constructor
      · intro hscope
        obtain ⟨r, hr, rfl⟩ := List.mem_map.1 hscope
        exact List.mem_map_of_mem (lastWith_eq_some ((hlisted r).1 hr)).1
      · intro hscope
        obtain ⟨r, hr, rfl⟩ := List.mem_map.1 hscope
        obtain ⟨last, hlast⟩ := exists_lastWith (·.scope.rowId) hr
        obtain ⟨hmade, hrow⟩ := lastWith_eq_some hlast
        have hmem : last ∈ listed := (hlisted last).2 (by rw [hrow, hlast])
        rcases rowId_eq_rowId_iff.1 hrow with hsame | ⟨hstar, hall⟩ | ⟨hall, hstar⟩
        · exact List.mem_map.2 ⟨last, hmem, hsame⟩
        · exact absurd ⟨hstar ▸ List.mem_map_of_mem hmade, hall ▸ hscope⟩ hapart
        · exact absurd ⟨hstar ▸ hscope, hall ▸ List.mem_map_of_mem hmade⟩ hapart

/-- After any calls to the queue of a new store, with other uses of the store in between, the last request
of every row waits that was made since all were taken last. Taking returns what waits and leaves nothing.
This lists every scope that was asked for, once, exactly if not both all accounts and the account named
like their row were asked for. -/
theorem waits_since_take (masterKey : MasterKey) (fresh : Envelope.Fresh) (s : Store)
    (calls : List SyncCall) (hopen : (openFile .blank masterKey fresh).1 = .ok s) :
    let made := requestsSinceTake calls
    ∃ h listed s', Handle.afterCalls ⟨masterKey, s⟩ calls = .ok h ∧ h.store.pendingSyncs = .ok listed ∧
      h.store.takeSyncs = .ok (listed, s') ∧ s'.pendingSyncs = .ok [] ∧
      ((listed.map (·.scope.rowId)).Pairwise fun a b => Bytes.ofText a < Bytes.ofText b) ∧
      (∀ r, r ∈ listed ↔ lastWith (·.scope.rowId) made r.scope.rowId = some r) ∧
      (ListsScopes listed made ↔
        ¬ (.account "*" ∈ made.map (·.scope) ∧ .all ∈ made.map (·.scope))) := by
  intro made
  have hstart : HoldsSyncs ⟨masterKey, s⟩ [] := Handle.holds_of_blank hopen _ _ _
  obtain ⟨h, hcalls, hh⟩ := hstart.afterCalls calls
  obtain ⟨listed, hpending, hsorted, hlisted⟩ := hh.pendingSyncs
  obtain ⟨taken, s', hpending', htake, hempty⟩ := hh.takeSyncs
  have hsame : taken = listed := Except.ok.inj (hpending'.symm.trans hpending)
  rw [hsame] at htake
  obtain ⟨rest, hrest, -, hnone⟩ := hempty.pendingSyncs
  have hnil : rest = [] := by
    rw [List.eq_nil_iff_forall_not_mem]
    intro r hr
    cases (hnone r).1 hr
  rw [hnil] at hrest
  exact ⟨h, listed, s', hcalls, hpending, htake, hrest, hsorted, hlisted, listsScopes_iff hsorted hlisted⟩

/-- A run with a request that is taken, a change of the key, and two requests that wait. -/
theorem waits_since_take_run :
    ∃ s, (openFile .blank ⟨KdfVersion.v0, List.replicate 32 1⟩
        ⟨Block.fit 16 [], Block.fit 32 []⟩).1 = .ok s ∧
      ∃ h listed s', Handle.afterCalls ⟨⟨KdfVersion.v0, List.replicate 32 1⟩, s⟩
          [.queue (.account "b") .epoch ⟨Block.fit 16 [], Block.fit 32 []⟩, .take,
            .queue (.account "a") .epoch ⟨Block.fit 16 [], Block.fit 32 []⟩,
            .other (.changePassword ⟨KdfVersion.v0, List.replicate 32 2⟩ fun _ =>
              ⟨Block.fit 16 [1], Block.fit 32 []⟩) fun _ => rfl,
            .queue .all .epoch ⟨Block.fit 16 [], Block.fit 32 []⟩] = .ok h ∧
        h.store.pendingSyncs = .ok listed ∧ h.store.takeSyncs = .ok (listed, s') ∧
        s'.pendingSyncs = .ok [] ∧ ListsScopes listed [⟨.account "a", .epoch⟩, ⟨.all, .epoch⟩] := by
  obtain ⟨s, hopen⟩ := @Handle.exists_blank ⟨KdfVersion.v0, List.replicate 32 1⟩ (by decide)
    ⟨Block.fit 16 [], Block.fit 32 []⟩
  obtain ⟨h, listed, s', hcalls, hpending, htake, hrest, -, -, hlaw⟩ := waits_since_take _ _ s
    [.queue (.account "b") .epoch ⟨Block.fit 16 [], Block.fit 32 []⟩, .take,
      .queue (.account "a") .epoch ⟨Block.fit 16 [], Block.fit 32 []⟩,
      .other (.changePassword ⟨KdfVersion.v0, List.replicate 32 2⟩ fun _ =>
        ⟨Block.fit 16 [1], Block.fit 32 []⟩) fun _ => rfl,
      .queue .all .epoch ⟨Block.fit 16 [], Block.fit 32 []⟩] hopen
  refine ⟨s, hopen, h, listed, s', hcalls, hpending, htake, hrest, hlaw.2 ?_⟩
  rintro ⟨hstar, -⟩
  have hscopes : SyncScope.account "*" ∉ [SyncScope.account "a", SyncScope.all] := by decide
  exact hscopes hstar

/-- A request for the account that is named like the row of all accounts is lost when all accounts are
asked for. -/
theorem pendingSyncs_star :
    ∃ s, (openFile .blank ⟨KdfVersion.v0, List.replicate 32 1⟩
        ⟨Block.fit 16 [], Block.fit 32 []⟩).1 = .ok s ∧
      ∃ h, Handle.afterCalls ⟨⟨KdfVersion.v0, List.replicate 32 1⟩, s⟩
          [.queue (.account "*") .epoch ⟨Block.fit 16 [], Block.fit 32 []⟩,
            .queue .all .epoch ⟨Block.fit 16 [], Block.fit 32 []⟩] = .ok h ∧
        h.store.pendingSyncs = .ok [⟨.all, .epoch⟩] ∧
        ¬ ListsScopes [⟨.all, .epoch⟩] [⟨.account "*", .epoch⟩, ⟨.all, .epoch⟩] := by
  obtain ⟨s, hopen⟩ := @Handle.exists_blank ⟨KdfVersion.v0, List.replicate 32 1⟩ (by decide)
    ⟨Block.fit 16 [], Block.fit 32 []⟩
  have hstart : HoldsSyncs ⟨⟨KdfVersion.v0, List.replicate 32 1⟩, s⟩ [] :=
    Handle.holds_of_blank hopen _ _ _
  obtain ⟨h, hcalls, hh⟩ := hstart.afterCalls
    [.queue (.account "*") .epoch ⟨Block.fit 16 [], Block.fit 32 []⟩,
      .queue .all .epoch ⟨Block.fit 16 [], Block.fit 32 []⟩]
  obtain ⟨listed, hpending, hsorted, hlisted⟩ := hh.pendingSyncs
  have hlast : lastWith (·.scope.rowId) [⟨.account "*", .epoch⟩, ⟨.all, .epoch⟩] "*" =
      some (⟨.all, .epoch⟩ : SyncRequest) := by
    decide
  -- Both requests have the row with the star, and the last one is in it.
  have hone : ∀ r, r ∈ listed ↔ r = ⟨.all, .epoch⟩ := by
    intro r
    rw [hlisted]
    constructor
    · intro hr
      have hrow : r.scope.rowId = "*" := by
        have hmade : r ∈ [⟨.account "*", .epoch⟩, ⟨.all, .epoch⟩] := (lastWith_eq_some hr).1
        simp only [List.mem_cons, List.not_mem_nil, or_false] at hmade
        rcases hmade with rfl | rfl <;> rfl
      rw [hrow] at hr
      exact Option.some.inj (hr.symm.trans hlast)
    · rintro rfl
      exact hlast
  have hsingle : listed = [⟨.all, .epoch⟩] :=
    eq_singleton_of_nodup (List.Nodup.of_map _ (Table.nodup_of_pairwise hsorted)) hone
  rw [hsingle] at hpending
  refine ⟨s, hopen, h, hcalls, hpending, ?_⟩
  intro hlaw
  have hstar := (hlaw.same (.account "*")).2 List.mem_cons_self
  simp at hstar

end Store
end PasswordVault
