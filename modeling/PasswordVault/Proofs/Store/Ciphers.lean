import PasswordVault.Proofs.Cipher.Texts
import PasswordVault.Proofs.Store.Latest

/-!
# Ciphers — rows that two names share

A cipher stands in the row that the ids of its account and of itself are joined to. The joined id does not
tell where the first of them ends, so ciphers of different accounts can stand in one row.

* `Store.KeepsPairs`: the law of a store that has a row for every pair of ids.
* `Store.keepsPairs_iff`: when a store keeps the law.
* `Store.holds_last_ciphers`: what a store answers after any ciphers were put in it.
-/

namespace PasswordVault

namespace VaultCipher

/-- A cipher as it is read from its row. One that nests too deeply is stored but not read. -/
def recalled (c : VaultCipher) : Except StoreError VaultCipher :=
  if c.toJson.nesting < Json.nestingLimit then .ok c
  else .error (.serialization "the row holds another type of value")

theorem readBack_toJson (c : VaultCipher) : readBack VaultCipher.reader c.toJson = c.recalled :=
  readBack_of_finds (finds_toJson c)

theorem recalled_eq_ok_iff {c c' : VaultCipher} :
    c.recalled = .ok c' ↔ c.toJson.nesting < Json.nestingLimit ∧ c = c' := by
  rw [recalled]
  split_ifs with hlevels <;> simp [hlevels]

theorem mapM_recalled {cs : List VaultCipher} (h : ∀ c ∈ cs, c.recalled = .ok c) :
    cs.mapM recalled = .ok cs := by
  rw [mapM_eq_ok_iff, List.forall₂_same]
  exact h

/-- The ids of the account and of the cipher itself. -/
def pair (c : VaultCipher) : String × String := (c.accountId, c.cipherId)

def rowId (c : VaultCipher) : String := Store.cipherRowId c.accountId c.cipherId

/-- Whether the ids of a cipher leave no doubt where they were joined. -/
def IsPlain (c : VaultCipher) : Prop := '/' ∉ c.accountId.toList ∧ '/' ∉ c.cipherId.toList

end VaultCipher

namespace Store

open VaultCipher (rowId pair)

variable {h : Handle} {ciphers : List VaultCipher}

/-! ## Ids that are joined -/

theorem toList_cipherRowId (accountId cipherId : String) :
    (cipherRowId accountId cipherId).toList = accountId.toList ++ '/' :: cipherId.toList := by
  rw [cipherRowId, String.toList_append, String.toList_append, List.append_assoc]
  rfl

/-- Ids without slashes are the only ones that are joined to the id of their row. -/
theorem rowId_eq_iff {c : VaultCipher} (hc : c.IsPlain) {accountId cipherId : String} :
    rowId c = cipherRowId accountId cipherId ↔ pair c = (accountId, cipherId) := by
  constructor
  · intro heq
    have hlists := congrArg String.toList heq
    rw [rowId, toList_cipherRowId, toList_cipherRowId] at hlists
    -- There is one slash on the left, so there is no more than one on the right.
    have haccount : '/' ∉ accountId.toList := by
      have hcount := congrArg (List.count '/') hlists
      rw [List.count_append, List.count_append, List.count_cons_self, List.count_cons_self,
        List.count_eq_zero.2 hc.1, List.count_eq_zero.2 hc.2] at hcount
      rw [← List.count_eq_zero]
      omega
    have hcut := congrArg (Text.cutAt? '/') hlists
    rw [Text.cutAt?_append hc.1, Text.cutAt?_append haccount] at hcut
    obtain ⟨hfirst, hsecond⟩ := Prod.mk.inj (Option.some.inj hcut)
    exact Prod.ext (String.toList_injective hfirst) (String.toList_injective hsecond)
  · intro heq
    obtain ⟨rfl, rfl⟩ := Prod.mk.inj heq
    rfl

theorem lastWith_rowId (hplain : ∀ c ∈ ciphers, c.IsPlain) (accountId cipherId : String) :
    lastWith rowId ciphers (cipherRowId accountId cipherId) = lastWith pair ciphers (accountId, cipherId) :=
  lastWith_congr fun c hc => rowId_eq_iff (hplain c hc)

/-! ## Ciphers in rows -/

/-- A store after some ciphers were put in it, one after the other. -/
def putCiphers (s : Store) (puts : List (VaultCipher × Envelope.Fresh)) : Except StoreError Store :=
  puts.foldlM (fun s p => s.putCipher p.1 p.2) s

/-- Whether the rows of a store hold the last ciphers that were put in it. -/
def HoldsCiphers (h : Handle) (ciphers : List VaultCipher) : Prop :=
  h.Holds cipherKind rowId VaultCipher.toJson ciphers

/-- Items are put one after the other, and every put succeeds. -/
theorem HoldsCiphers.putCiphers (hh : HoldsCiphers h []) (puts : List (VaultCipher × Envelope.Fresh)) :
    ∃ s, h.store.putCiphers puts = .ok s ∧ HoldsCiphers { h with store := s } (puts.map Prod.fst) := by
  -- The law speaks of the last cipher, so the calls are taken off from the end.
  induction puts using List.reverseRecOn with
  | nil => exact ⟨h.store, rfl, hh⟩
  | append_singleton puts p ih =>
      obtain ⟨s, hputs, hs⟩ := ih
      obtain ⟨s', hput, hnext⟩ := Handle.Holds.put hs p.1 p.2
      have hlast : s.putCipher p.1 p.2 = .ok s' := hput
      rw [Store.putCiphers] at hputs
      refine ⟨s', ?_, ?_⟩
      · rw [Store.putCiphers, List.foldlM_append, hputs, ok_bind, List.foldlM_cons, hlast]
        rfl
      · rw [List.map_append]
        exact hnext

/-- What is read for a pair of ids is the last item put into their row. -/
theorem HoldsCiphers.getCipher?_eq (hh : HoldsCiphers h ciphers) (accountId cipherId : String) :
    h.store.getCipher? accountId cipherId =
      match lastWith rowId ciphers (cipherRowId accountId cipherId) with
      | none => .ok none
      | some c => some <$> c.recalled := by
  rw [getCipher?, Handle.Holds.get? hh VaultCipher.readBack_toJson]
  cases lastWith rowId ciphers (cipherRowId accountId cipherId) <;> rfl

/-- Rows are read in the order of their ids, and what belongs to other accounts is left out. -/
theorem HoldsCiphers.ciphersOf_eq (hh : HoldsCiphers h ciphers) :
    ∃ ids : List String, (ids.Pairwise fun a b => Bytes.ofText a < Bytes.ofText b) ∧
      (∀ id, id ∈ ids ↔ (lastWith rowId ciphers id).isSome = true) ∧
      ∀ accountId, h.store.ciphersOf accountId =
        (List.filter fun c => c.accountId = accountId) <$>
          (ids.filterMap (lastWith rowId ciphers)).mapM VaultCipher.recalled := by
  obtain ⟨ids, hsorted, hids, hlist⟩ := Handle.Holds.list hh VaultCipher.readBack_toJson
  refine ⟨ids, hsorted, hids, ?_⟩
  intro accountId
  rw [ciphersOf, hlist]
  rfl

/-- A cipher that is put changes no other row. If its ids are plain, it changes no other pair. -/
theorem HoldsCiphers.getCipher?_of_put (hh : HoldsCiphers h ciphers) (c : VaultCipher)
    (fresh : Envelope.Fresh) :
    ∃ s', h.store.putCipher c fresh = .ok s' ∧
      (∀ accountId cipherId, rowId c ≠ cipherRowId accountId cipherId →
        s'.getCipher? accountId cipherId = h.store.getCipher? accountId cipherId) ∧
      (c.IsPlain → ∀ accountId cipherId, pair c ≠ (accountId, cipherId) →
        s'.getCipher? accountId cipherId = h.store.getCipher? accountId cipherId) := by
  obtain ⟨s', hput, hnext⟩ := Handle.Holds.put hh c fresh
  have hrow : ∀ accountId cipherId, rowId c ≠ cipherRowId accountId cipherId →
      s'.getCipher? accountId cipherId = h.store.getCipher? accountId cipherId := by
    intro accountId cipherId hne
    have hafter := HoldsCiphers.getCipher?_eq hnext accountId cipherId
    rw [hh.getCipher?_eq, hafter, lastWith_append, if_neg hne]
  refine ⟨s', hput, hrow, ?_⟩
  intro hplain accountId cipherId hne
  exact hrow accountId cipherId fun heq => hne ((rowId_eq_iff hplain).1 heq)

/-! ## The law of pairs -/

/-- Whether a store answers as one that has a row for every pair of ids: with the last cipher that was put
for the pair, and for an account with the last ones of its pairs, each of them once. -/
structure KeepsPairs (s : Store) (ciphers : List VaultCipher) : Prop where
  get : ∀ accountId cipherId,
    s.getCipher? accountId cipherId = .ok (lastWith pair ciphers (accountId, cipherId))
  list : ∀ accountId, ∃ listed, s.ciphersOf accountId = .ok listed ∧ (listed.map (·.cipherId)).Nodup ∧
    ∀ c, c ∈ listed ↔ lastWith pair ciphers (accountId, c.cipherId) = some c

/-- Ciphers of one account that stand in different rows have different ids. -/
theorem nodup_cipherIds {rows : List VaultCipher} (hrows : (rows.map rowId).Nodup) (accountId : String) :
    ((rows.filter fun c => c.accountId = accountId).map (·.cipherId)).Nodup := by
  have hown : (rows.filter fun c => c.accountId = accountId).map rowId =
      ((rows.filter fun c => c.accountId = accountId).map (·.cipherId)).map (cipherRowId accountId) := by
    rw [List.map_map]
    refine List.map_congr_left ?_
    intro c hc
    have haccount : c.accountId = accountId := of_decide_eq_true (List.mem_filter.1 hc).2
    rw [Function.comp, ← haccount]
    rfl
  refine List.Nodup.of_map (cipherRowId accountId) ?_
  rw [← hown]
  exact hrows.sublist (List.filter_sublist.map rowId)

/-- Ids without the separator tell all pairs apart. -/
theorem keepsPairs_of_plain (hh : HoldsCiphers h ciphers) (hplain : ∀ c ∈ ciphers, c.IsPlain)
    (hlevels : ∀ c, lastWith pair ciphers (pair c) = some c → c.toJson.nesting < Json.nestingLimit) :
    h.store.KeepsPairs ciphers := by
  have hread : ∀ ids c, lastWith pair ciphers ids = some c → c.recalled = .ok c := by
    intro ids c hc
    obtain ⟨-, rfl⟩ := lastWith_eq_some hc
    exact VaultCipher.recalled_eq_ok_iff.2 ⟨hlevels c hc, rfl⟩
  constructor
  · intro accountId cipherId
    rw [hh.getCipher?_eq, lastWith_rowId hplain]
    cases hc : lastWith pair ciphers (accountId, cipherId) with
    | none => rfl
    | some c =>
        simp only [hread _ c hc]
        rfl
  · intro accountId
    obtain ⟨ids, hsorted, hids, hlist⟩ := hh.ciphersOf_eq
    -- A row that is listed holds the last cipher of its pair.
    have hrows : ∀ c, c ∈ ids.filterMap (lastWith rowId ciphers) ↔
        lastWith pair ciphers (pair c) = some c := by
      intro c
      rw [mem_filterMap_lastWith hids]
      exact iff_of_eq (congrArg (· = some c) (lastWith_rowId hplain c.accountId c.cipherId))
    have hall : ∀ c ∈ ids.filterMap (lastWith rowId ciphers), c.recalled = .ok c :=
      fun c hc => hread _ c ((hrows c).1 hc)
    have hdistinct : ((ids.filterMap (lastWith rowId ciphers)).map rowId).Nodup := by
      rw [map_key_filterMap fun id hid => (hids id).1 hid]
      exact Table.nodup_of_pairwise hsorted
    refine ⟨(ids.filterMap (lastWith rowId ciphers)).filter fun c => c.accountId = accountId, ?_,
      nodup_cipherIds hdistinct accountId, fun c => ?_⟩
    · rw [hlist, VaultCipher.mapM_recalled hall]
      rfl
    rw [List.mem_filter, hrows, decide_eq_true_eq]
    constructor
    · rintro ⟨hc, rfl⟩
      exact hc
    · intro hc
      have haccount : c.accountId = accountId := congrArg Prod.fst (lastWith_eq_some hc).2
      subst haccount
      exact ⟨hc, rfl⟩

/-- A second pair for the row of a cipher would be answered in the same way, but no cipher has two pairs. -/
theorem KeepsPairs.pair_eq (hkeeps : h.store.KeepsPairs ciphers) (hh : HoldsCiphers h ciphers)
    {c : VaultCipher} (hc : c ∈ ciphers) {accountId cipherId : String}
    (hrow : cipherRowId accountId cipherId = rowId c) : pair c = (accountId, cipherId) := by
  obtain ⟨last, hlast⟩ := exists_lastWith pair hc
  -- Both pairs are answered from the row of the cipher.
  have hown := hkeeps.get c.accountId c.cipherId
  have hother := hkeeps.get accountId cipherId
  rw [hh.getCipher?_eq] at hown hother
  rw [hrow] at hother
  have hsame : lastWith pair ciphers (accountId, cipherId) = some last :=
    (Except.ok.inj (hother.symm.trans hown)).trans hlast
  rw [← (lastWith_eq_some hlast).2, (lastWith_eq_some hsame).2]

/-- There is no slash in the id of a row but the one that ends the id of the account. -/
theorem KeepsPairs.accountId_eq (hkeeps : h.store.KeepsPairs ciphers) (hh : HoldsCiphers h ciphers)
    {c : VaultCipher} (hc : c ∈ ciphers) {front back : List Char}
    (hsplit : (rowId c).toList = front ++ '/' :: back) : c.accountId.toList = front := by
  have hrow : cipherRowId (String.ofList front) (String.ofList back) = rowId c := by
    refine String.toList_injective ?_
    rw [toList_cipherRowId, String.toList_ofList, String.toList_ofList, hsplit]
  have haccount : c.accountId = String.ofList front := congrArg Prod.fst (hkeeps.pair_eq hh hc hrow)
  rw [haccount, String.toList_ofList]

/-- Where the law holds, no cipher was put whose row has another pair of ids. -/
theorem plain_of_keepsPairs (hh : HoldsCiphers h ciphers) (hkeeps : h.store.KeepsPairs ciphers)
    {c : VaultCipher} (hc : c ∈ ciphers) : c.IsPlain := by
  have hrow : (rowId c).toList = c.accountId.toList ++ '/' :: c.cipherId.toList :=
    toList_cipherRowId c.accountId c.cipherId
  constructor
  · intro hslash
    obtain ⟨front, back, hids⟩ := List.append_of_mem hslash
    have hshort : c.accountId.toList = front :=
      hkeeps.accountId_eq hh hc (by rw [hrow, hids, List.append_assoc, List.cons_append])
    have hlength := congrArg List.length (hids.symm.trans hshort)
    simp at hlength
  · intro hslash
    obtain ⟨front, back, hids⟩ := List.append_of_mem hslash
    have hlong : c.accountId.toList = c.accountId.toList ++ '/' :: front :=
      hkeeps.accountId_eq hh hc (by rw [hrow, hids, List.append_assoc, List.cons_append])
    have hlength := congrArg List.length hlong
    simp at hlength

/-- A store keeps pairs apart exactly if no id that was put has a slash and none of the last ciphers nests
too deeply. -/
theorem keepsPairs_iff (hh : HoldsCiphers h ciphers) :
    h.store.KeepsPairs ciphers ↔ (∀ c ∈ ciphers, c.IsPlain) ∧
      ∀ c, lastWith pair ciphers (pair c) = some c → c.toJson.nesting < Json.nestingLimit := by
  constructor
  · intro hkeeps
    have hplain : ∀ c ∈ ciphers, c.IsPlain := fun c hc => plain_of_keepsPairs hh hkeeps hc
    refine ⟨hplain, ?_⟩
    intro c hc
    have hlast : lastWith pair ciphers (c.accountId, c.cipherId) = some c := hc
    have hget := hkeeps.get c.accountId c.cipherId
    rw [hh.getCipher?_eq, lastWith_rowId hplain, hlast] at hget
    cases hrecalled : c.recalled with
    | error e =>
        simp only [hrecalled] at hget
        cases hget
    | ok found => exact (VaultCipher.recalled_eq_ok_iff.1 hrecalled).1
  · rintro ⟨hplain, hlevels⟩
    exact keepsPairs_of_plain hh hplain hlevels

/-- After any ciphers were put in a store that had none, whatever else it was used for, every row holds the
last cipher that was put in it, and reading and listing answer accordingly. This is the law of pairs
exactly if no id has a slash and no cipher that counts nests too deeply. -/
theorem holds_last_ciphers (masterKey : MasterKey) (fresh : Envelope.Fresh) (s : Store)
    (before : List Request) (puts : List (VaultCipher × Envelope.Fresh))
    (hopen : (openFile .blank masterKey fresh).1 = .ok s)
    (hbefore : ∀ r ∈ before, ∀ id, r.leavesAt? (cipherKind, id) = none) :
    let ciphers := puts.map Prod.fst
    ∃ s', (Handle.run ⟨masterKey, s⟩ before).store.putCiphers puts = .ok s' ∧
      (∀ accountId cipherId, s'.getCipher? accountId cipherId =
        match lastWith rowId ciphers (cipherRowId accountId cipherId) with
        | none => .ok none
        | some c => some <$> c.recalled) ∧
      (∃ ids : List String, (ids.Pairwise fun a b => Bytes.ofText a < Bytes.ofText b) ∧
        (∀ id, id ∈ ids ↔ (lastWith rowId ciphers id).isSome = true) ∧
        ∀ accountId, s'.ciphersOf accountId =
          (List.filter fun c => c.accountId = accountId) <$>
            (ids.filterMap (lastWith rowId ciphers)).mapM VaultCipher.recalled) ∧
      (∀ c fresh', ∃ s'', s'.putCipher c fresh' = .ok s'' ∧
        (∀ accountId cipherId, rowId c ≠ cipherRowId accountId cipherId →
          s''.getCipher? accountId cipherId = s'.getCipher? accountId cipherId) ∧
        (c.IsPlain → ∀ accountId cipherId, pair c ≠ (accountId, cipherId) →
          s''.getCipher? accountId cipherId = s'.getCipher? accountId cipherId)) ∧
      (s'.KeepsPairs ciphers ↔ (∀ c ∈ ciphers, c.IsPlain) ∧
        ∀ c, lastWith pair ciphers (pair c) = some c → c.toJson.nesting < Json.nestingLimit) := by
  intro ciphers
  have hstart : HoldsCiphers (Handle.run ⟨masterKey, s⟩ before) [] :=
    (Handle.holds_of_blank hopen cipherKind rowId VaultCipher.toJson).run hbefore
  obtain ⟨s', hputs, hh⟩ := hstart.putCiphers puts
  exact ⟨s', hputs, hh.getCipher?_eq, hh.ciphersOf_eq, hh.getCipher?_of_put, keepsPairs_iff hh⟩

/-- Ciphers of two accounts without slashes in their ids are kept apart. -/
theorem holds_last_ciphers_run :
    ∃ s, (openFile .blank ⟨KdfVersion.v0, List.replicate 32 1⟩
        ⟨Block.fit 16 [], Block.fit 32 []⟩).1 = .ok s ∧
      ∃ s', (Handle.run ⟨⟨KdfVersion.v0, List.replicate 32 1⟩, s⟩
            [.put "account" "a" (.string "own") ⟨Block.fit 16 [], Block.fit 32 []⟩]).store.putCiphers
          [(.new "a" "c" .login .epoch, ⟨Block.fit 16 [], Block.fit 32 []⟩),
            (.new "b" "c" .card .epoch, ⟨Block.fit 16 [], Block.fit 32 []⟩)] = .ok s' ∧
        s'.KeepsPairs [.new "a" "c" .login .epoch, .new "b" "c" .card .epoch] := by
  obtain ⟨s, hopen⟩ := @Handle.exists_blank ⟨KdfVersion.v0, List.replicate 32 1⟩ (by decide)
    ⟨Block.fit 16 [], Block.fit 32 []⟩
  have hbefore : ∀ r ∈ [Request.put "account" "a" (.string "own") ⟨Block.fit 16 [], Block.fit 32 []⟩],
      ∀ id, r.leavesAt? (cipherKind, id) = none := by
    intro r hr id
    have hne : ("account", "a") ≠ (cipherKind, id) := by simp [cipherKind]
    rw [List.mem_singleton.1 hr, Request.leavesAt?, if_neg hne]
  obtain ⟨s', hputs, -, -, -, hlaw⟩ := holds_last_ciphers _ _ s _
    [(.new "a" "c" .login .epoch, ⟨Block.fit 16 [], Block.fit 32 []⟩),
      (.new "b" "c" .card .epoch, ⟨Block.fit 16 [], Block.fit 32 []⟩)] hopen hbefore
  refine ⟨s, hopen, s', hputs, hlaw.2 ⟨?_, ?_⟩⟩
  · simp only [List.map_cons, List.map_nil, List.forall_mem_cons]
    exact ⟨⟨by decide, by decide⟩, ⟨by decide, by decide⟩, List.forall_mem_nil _⟩
  · have hlevels : (VaultCipher.toJson (.new "a" "c" .login .epoch)).nesting < Json.nestingLimit ∧
        (VaultCipher.toJson (.new "b" "c" .card .epoch)).nesting < Json.nestingLimit := by
      decide +kernel
    intro c hc
    obtain ⟨hmem, -⟩ := lastWith_eq_some hc
    simp only [List.map_cons, List.map_nil, List.mem_cons, List.not_mem_nil, or_false] at hmem
    rcases hmem with rfl | rfl
    · exact hlevels.1
    · exact hlevels.2

/-- Two accounts whose ciphers stand in one row: the cipher of the first is lost, and that of the second is
returned in its place. -/
theorem getCipher?_crossed :
    ∃ s, (openFile .blank ⟨KdfVersion.v0, List.replicate 32 1⟩
        ⟨Block.fit 16 [], Block.fit 32 []⟩).1 = .ok s ∧
      ∃ s', s.putCiphers [(.new "a/b" "c" .login .epoch, ⟨Block.fit 16 [], Block.fit 32 []⟩),
          (.new "a" "b/c" .card .epoch, ⟨Block.fit 16 [], Block.fit 32 []⟩)] = .ok s' ∧
        s'.getCipher? "a/b" "c" = .ok (some (.new "a" "b/c" .card .epoch)) ∧
        ¬ s'.KeepsPairs [.new "a/b" "c" .login .epoch, .new "a" "b/c" .card .epoch] := by
  obtain ⟨s, hopen⟩ := @Handle.exists_blank ⟨KdfVersion.v0, List.replicate 32 1⟩ (by decide)
    ⟨Block.fit 16 [], Block.fit 32 []⟩
  have hstart : HoldsCiphers ⟨⟨KdfVersion.v0, List.replicate 32 1⟩, s⟩ [] :=
    Handle.holds_of_blank hopen cipherKind rowId VaultCipher.toJson
  obtain ⟨s', hputs, hh⟩ := hstart.putCiphers
    [(.new "a/b" "c" .login .epoch, ⟨Block.fit 16 [], Block.fit 32 []⟩),
      (.new "a" "b/c" .card .epoch, ⟨Block.fit 16 [], Block.fit 32 []⟩)]
  -- Both pairs name one row, and the second item is in it.
  have hlast : lastWith rowId [.new "a/b" "c" .login .epoch, .new "a" "b/c" .card .epoch]
      (cipherRowId "a/b" "c") = some (.new "a" "b/c" .card .epoch) := by
    decide +kernel
  have hread : (VaultCipher.new "a" "b/c" .card .epoch).recalled = .ok (.new "a" "b/c" .card .epoch) :=
    VaultCipher.recalled_eq_ok_iff.2 ⟨by decide +kernel, rfl⟩
  have hget : s'.getCipher? "a/b" "c" = .ok (some (.new "a" "b/c" .card .epoch)) := by
    have hrow := hh.getCipher?_eq "a/b" "c"
    rw [List.map_cons, List.map_cons, List.map_nil, hlast] at hrow
    simp only [hread] at hrow
    exact hrow
  refine ⟨s, hopen, s', hputs, hget, ?_⟩
  intro hlaw
  have hown : lastWith pair [.new "a/b" "c" .login .epoch, .new "a" "b/c" .card .epoch] ("a/b", "c") =
      some (.new "a/b" "c" .login .epoch) := by
    decide +kernel
  have hsame := Except.ok.inj (hget.symm.trans (hlaw.get "a/b" "c"))
  rw [hown] at hsame
  have haccount : "a" = "a/b" := congrArg (fun c => c.accountId) (Option.some.inj hsame)
  exact absurd haccount (by decide)

end Store
end PasswordVault
