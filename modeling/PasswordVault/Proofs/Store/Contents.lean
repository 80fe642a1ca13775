import PasswordVault.Proofs.Json.Records
import PasswordVault.Proofs.Store.Rotation
import PasswordVault.Proofs.Text.ByteOrder

/-!
# Contents — a store as a map from places to values

What a store holds is determined by the requests made to it: at every place stands the value that was
last put there, unless it was deleted since. Sealing, JSON texts and changes of the key do not show.

* `valueAt`: the value at a place after some requests, read off the requests alone.
* `Handle.Shows`: the invariant. The rows of a store open to the texts of the values of a map.
* `Store.holds_last_values`: what every operation answers after any requests.
-/

namespace PasswordVault

/-! ## Rows in order -/

theorem eq_singleton_of_nodup {α : Type} {l : List α} {a : α} (hnodup : l.Nodup)
    (hmem : ∀ x, x ∈ l ↔ x = a) : l = [a] := by
  refine List.Perm.eq_singleton ?_
  rw [List.perm_ext_iff_of_nodup hnodup (List.nodup_singleton a)]
  intro x
  rw [hmem, List.mem_singleton]

namespace Table

variable {t : Table}

/-- No id is listed twice. -/
theorem nodup_ids (kind : String) : ((t.ofKind kind).map Row.id).Nodup := by
  have hkind : ∀ r ∈ t.ofKind kind, r.kind = kind := fun r hr => (mem_ofKind.1 hr).2
  have hperm : (t.ofKind kind).Perm (t.rows.filter fun r => r.kind = kind) :=
    List.mergeSort_perm _ _
  have hplaces : ((t.ofKind kind).map Row.place).Nodup := by
    have hfiltered := t.distinct.sublist
      ((List.filter_sublist (p := fun r : Row => r.kind = kind)).map Row.place)
    exact (hperm.map Row.place).nodup_iff.2 hfiltered
  refine List.Nodup.of_map (fun id => (kind, id)) ?_
  have hsame : ((t.ofKind kind).map Row.id).map (fun id => (kind, id)) =
      (t.ofKind kind).map Row.place := by
    rw [List.map_map]
    apply List.map_congr_left
    intro r hr
    rw [Function.comp, ← hkind r hr, Row.place]
  rw [hsame]
  exact hplaces

/-- Rows of a kind are listed by the bytes of their ids. -/
theorem pairwise_ids (t : Table) (kind : String) :
    ((t.ofKind kind).map Row.id).Pairwise fun a b => Bytes.ofText a < Bytes.ofText b := by
  have hsorted : (t.ofKind kind).Pairwise fun r r' => r.id ≤ r'.id := by
    have htrans : ∀ a b c : Row, decide (a.id ≤ b.id) → decide (b.id ≤ c.id) →
        decide (a.id ≤ c.id) := by
      intro a b c hab hbc
      simp only [decide_eq_true_eq] at hab hbc ⊢
      exact le_trans hab hbc
    have htotal : ∀ a b : Row, (decide (a.id ≤ b.id) || decide (b.id ≤ a.id)) := by
      intro a b
      simpa using le_total a.id b.id
    have hmerged := List.pairwise_mergeSort htrans htotal (t.rows.filter fun r => r.kind = kind)
    exact hmerged.imp fun hle => of_decide_eq_true hle
  -- Rows are sorted by id, and no two of one kind have the same.
  have hdistinct := nodup_ids (t := t) kind
  rw [List.Nodup, List.pairwise_map] at hdistinct
  rw [List.pairwise_map]
  refine (hsorted.and hdistinct).imp ?_
  rintro r r' ⟨hle, hne⟩
  exact Bytes.ofText_lt_ofText_iff.2 (lt_of_le_of_ne hle hne)

theorem nodup_of_pairwise {ids : List String}
    (h : ids.Pairwise fun a b => Bytes.ofText a < Bytes.ofText b) : ids.Nodup := by
  refine h.imp ?_
  rintro a _ hlt rfl
  exact List.lt_irrefl _ hlt

/-- An id is listed exactly if there is a row for it. -/
theorem mem_ids {kind id : String} :
    id ∈ (t.ofKind kind).map Row.id ↔ (t.find? kind id).isSome = true := by
  constructor
  · intro h
    obtain ⟨r, hr, rfl⟩ := List.mem_map.1 h
    obtain ⟨hrow, rfl⟩ := mem_ofKind.1 hr
    rw [find?_of_mem hrow]
    rfl
  · intro h
    obtain ⟨data, hfind⟩ := Option.isSome_iff_exists.1 h
    obtain ⟨r, hr, hplace, -⟩ := mem_of_find? hfind
    obtain ⟨hkind, hid⟩ : r.kind = kind ∧ r.id = id := by simpa [Row.place] using hplace
    exact List.mem_map.2 ⟨r, mem_ofKind.2 ⟨hr, hkind⟩, hid⟩

theorem count_eq_length_ids (kind : String) : t.count kind = ((t.ofKind kind).map Row.id).length := by
  simp [count, ofKind]

end Table

/-! ## Values by requests -/

/-- What a request leaves at a place, if it concerns the place: a value, or none. -/
def Request.leavesAt? (place : String × String) : Request → Option (Option Json)
  | .put kind id value _ => if (kind, id) = place then some (some value) else none
  | .delete kind id => if (kind, id) = place then some none else none
  | .changePassword .. => none
  | .reopen .. => none

/-- The value at a place after some requests to an empty store: what the last request that concerns the
place has left. -/
def valueAt (requests : List Request) (place : String × String) : Option Json :=
  (requests.reverse.findSome? (Request.leavesAt? place)).getD none

/-! ## Values that are read -/

/-- What is read from a row that holds a value. -/
def readBack {α : Type} (read : Json.Reader α) (value : Json) : Except StoreError α :=
  match readRow read (Bytes.ofText value.compact) with
  | some a => .ok a
  | none => .error (.serialization "the row holds another type of value")

theorem readBack_of_readRow {α : Type} {read : Json.Reader α} {value : Json} {a : α}
    (hread : readRow read (Bytes.ofText value.compact) = some a) : readBack read value = .ok a := by
  rw [readBack, hread]

/-- What was written for a thing is read as that thing, unless it nests too deeply. -/
theorem readBack_of_finds {α : Type} {read : Json.Reader α} {value : Json} {a : α}
    (h : Json.Reader.Finds read value a) : readBack read value =
      if value.nesting < Json.nestingLimit then .ok a
      else .error (.serialization "the row holds another type of value") := by
  have hread : ∀ b, readRow read (Bytes.ofText value.compact) = some b ↔
      value.nesting < Json.nestingLimit ∧ a = b := by
    intro b
    rw [readRow, Json.parseBytes?_compact h.exact]
    exact h.reads Json.nestingLimit (by decide) b
  split_ifs with hlevels
  · exact readBack_of_readRow ((hread a).2 ⟨hlevels, rfl⟩)
  · rw [readBack]
    cases hfound : readRow read (Bytes.ofText value.compact) with
    | none => rfl
    | some b => exact absurd ((hread b).1 hfound).1 hlevels

/-! ## Stores that show a map -/

namespace Handle

/-- Whether the rows of a store open to the texts of the values of a map. -/
structure Shows (h : Handle) (contents : String × String → Option Json) : Prop where
  healthy : h.Healthy
  rows : ∀ t, h.store.table = .ok t → ∀ kind id,
    (t.find? kind id).map (unsealBytes h.store.key) =
      (contents (kind, id)).map fun value => .ok (Bytes.ofText value.compact)

variable {h : Handle} {contents : String × String → Option Json}

/-- A new store can be opened with every key that is long enough. -/
theorem exists_blank {masterKey : MasterKey} (hlong : 32 ≤ masterKey.bytes.length)
    (fresh : Envelope.Fresh) : ∃ s, (Store.openFile .blank masterKey fresh).1 = .ok s := by
  obtain ⟨key, hderive⟩ := exists_deriveSubKeys_iff.2 hlong
  have hnone : Store.OpensCheck key {} := by
    intro check hcheck
    cases hcheck
  obtain ⟨c, -, hopen, -⟩ := Store.openFile_of_opensCheck hderive hnone fresh
  exact ⟨_, congrArg Prod.fst hopen⟩

/-- A new store shows nothing. -/
theorem shows_of_blank {masterKey : MasterKey} {fresh : Envelope.Fresh} {s : Store}
    (hopen : (Store.openFile .blank masterKey fresh).1 = .ok s) :
    Shows ⟨masterKey, s⟩ fun _ => none := by
  refine ⟨healthy_of_blank hopen, ?_⟩
  intro t htable kind id
  have hderive := Store.deriveSubKeys_of_openFile hopen
  have hnone : Store.OpensCheck s.key {} := by
    intro check hcheck
    cases hcheck
  obtain ⟨c, check, hopened, hrows, -, -⟩ := Store.openFile_of_opensCheck hderive hnone fresh
  rw [StoreFile.blank, hopened] at hopen
  have hfile : s.file = .store c := congrArg Store.file (Except.ok.inj hopen).symm
  have hempty : s.table = .ok .empty := Store.table_eq_ok_iff.2 ⟨c, hfile, hrows⟩
  rw [hempty] at htable
  cases htable
  rfl

/-! ### One request -/

/-- A put succeeds, shows its value and leaves the rest. -/
theorem Shows.put (hs : h.Shows contents) (kind id : String) (value : Json) (fresh : Envelope.Fresh) :
    (∃ s, h.store.put kind id value fresh = .ok s ∧
      h.step (.put kind id value fresh) = (.ok (), { h with store := s })) ∧
      (h.step (.put kind id value fresh)).2.Shows fun place =>
        if (kind, id) = place then some value else contents place := by
  have hhealthy := hs.healthy.put kind id value fresh
  obtain ⟨c, t, check, hfile, htable, -⟩ := hs.healthy.opens
  have hput := Store.put_eq hs.healthy.isDerived hfile htable kind id value fresh
  have hold := hs.rows t (Store.table_eq_ok_iff.2 ⟨c, hfile, htable⟩)
  refine ⟨⟨_, hput, by simp only [step, hput]⟩, hhealthy, ?_⟩
  intro t' htable' kind' id'
  simp only [step, hput] at htable' ⊢
  obtain ⟨c', hfile', hrows'⟩ := Store.table_eq_ok_iff.1 htable'
  cases hfile'
  cases hrows'
  rw [Table.find?_insert, Row.place]
  by_cases hplace : (kind', id') = (kind, id)
  · -- The row of the place is sealed with the key that opens it.
    have hopens := unsealBytes_sealBytes hs.healthy.isDerived
      (sealBytes_eq hs.healthy.isDerived (Bytes.ofText value.compact) fresh)
    rw [if_pos hplace, if_pos hplace.symm]
    exact congrArg some hopens
  · rw [if_neg hplace, if_neg fun heq => hplace heq.symm]
    exact hold kind' id'

/-- A delete succeeds, tells whether there was a row and leaves the rest. -/
theorem Shows.delete (hs : h.Shows contents) (kind id : String) :
    (∃ s, h.store.delete kind id = .ok ((contents (kind, id)).isSome, s) ∧
      h.step (.delete kind id) = (.ok (), { h with store := s })) ∧
      (h.step (.delete kind id)).2.Shows fun place =>
        if (kind, id) = place then none else contents place := by
  have hhealthy := hs.healthy.delete kind id
  obtain ⟨c, t, check, hfile, htable, -⟩ := hs.healthy.opens
  have hdelete := Store.delete_eq hfile htable kind id
  have hold := hs.rows t (Store.table_eq_ok_iff.2 ⟨c, hfile, htable⟩)
  have hfound : (t.find? kind id).isSome = (contents (kind, id)).isSome := by
    have hmapped := congrArg Option.isSome (hold kind id)
    simpa using hmapped
  refine ⟨⟨_, by rw [hdelete, hfound], by simp only [step, hdelete]⟩, hhealthy, ?_⟩
  intro t' htable' kind' id'
  simp only [step, hdelete] at htable' ⊢
  obtain ⟨c', hfile', hrows'⟩ := Store.table_eq_ok_iff.1 htable'
  cases hfile'
  cases hrows'
  -- Only the one place is emptied.
  rw [Table.find?_erase]
  by_cases hplace : (kind', id') = (kind, id)
  · rw [if_pos hplace, if_pos hplace.symm]
    rfl
  · rw [if_neg hplace, if_neg fun heq => hplace heq.symm]
    exact hold kind' id'

/-- Rows that are sealed anew open to the same texts. -/
theorem Shows.changePassword (hs : h.Shows contents) (masterKey : MasterKey)
    (fresh : Nat → Envelope.Fresh) : (h.step (.changePassword masterKey fresh)).2.Shows contents := by
  refine ⟨hs.healthy.changePassword masterKey fresh, ?_⟩
  obtain ⟨c, t, check, hfile, htable, -⟩ := hs.healthy.opens
  have hold := hs.rows t (Store.table_eq_ok_iff.2 ⟨c, hfile, htable⟩)
  simp only [step, Store.rotate_eq]
  cases hchange : h.store.changePassword masterKey fresh with
  -- A refused change leaves the store as it was.
  | error e => exact hs.rows
  | ok s' =>
      obtain ⟨-, c', t', hfile', htable', -, -, hpairs, -⟩ :=
        Store.store_of_changePassword hfile htable hchange
      intro t'' htable'' kind id
      have hsame : s'.table = .ok t' := Store.table_eq_ok_iff.2 ⟨c', hfile', htable'⟩
      simp only [hsame, Except.ok.injEq] at htable''
      rw [← htable'', ← hold kind id]
      exact Table.find?_congr hpairs kind id

/-- Opening the file again shows the same values. -/
theorem Shows.reopen (hs : h.Shows contents) (fresh : Envelope.Fresh) :
    (h.step (.reopen fresh)).2.Shows contents := by
  refine ⟨(hs.healthy.reopen fresh).2, ?_⟩
  obtain ⟨c, t, check, hfile, htable, hcheck, hunseal, -⟩ := hs.healthy.opens
  have hold := hs.rows t (Store.table_eq_ok_iff.2 ⟨c, hfile, htable⟩)
  have hopens : Store.OpensCheck h.store.key c := by
    intro check' hcheck'
    rw [hcheck] at hcheck'
    cases hcheck'
    exact hunseal
  obtain ⟨c', check', hopen, htable', -, -⟩ :=
    Store.openFile_of_opensCheck hs.healthy.derived hopens fresh
  -- Opening brings the schema up to date and leaves the table as it was.
  have hkept : c'.table = some t := by
    simpa [htable] using htable'
  simp only [step, hfile, hopen]
  intro t' htable'' kind id
  obtain ⟨c'', hfile'', hrows''⟩ := Store.table_eq_ok_iff.1 htable''
  cases hfile''
  rw [hkept] at hrows''
  cases hrows''
  exact hold kind id

/-- A request changes the map at the place that it concerns. -/
theorem Shows.step (hs : h.Shows contents) (r : Request) :
    (h.step r).2.Shows fun place => (r.leavesAt? place).getD (contents place) := by
  cases r with
  | put kind id value fresh =>
      have hput := (hs.put kind id value fresh).2
      have hmap : (fun place => ((Request.put kind id value fresh).leavesAt? place).getD
          (contents place)) = fun place => if (kind, id) = place then some value else contents place := by
        funext place
        by_cases hplace : (kind, id) = place <;> simp [Request.leavesAt?, hplace]
      rw [hmap]
      exact hput
  | delete kind id =>
      have hdelete := (hs.delete kind id).2
      have hmap : (fun place => ((Request.delete kind id).leavesAt? place).getD (contents place)) =
          fun place => if (kind, id) = place then none else contents place := by
        funext place
        by_cases hplace : (kind, id) = place <;> simp [Request.leavesAt?, hplace]
      rw [hmap]
      exact hdelete
  | changePassword masterKey fresh => exact hs.changePassword masterKey fresh
  | reopen fresh => exact hs.reopen fresh

/-! ### Any number of requests -/

/-- By induction over the requests, a store shows what the last of them left at each place. -/
theorem Shows.run (hs : h.Shows contents) (requests : List Request) :
    (h.run requests).Shows fun place =>
      (requests.reverse.findSome? (Request.leavesAt? place)).getD (contents place) := by
  induction requests generalizing h contents with
  | nil => exact hs
  | cons r rest ih =>
      have hrest := ih (hs.step r)
      have hmap : (fun place => ((r :: rest).reverse.findSome? (Request.leavesAt? place)).getD
            (contents place)) = fun place =>
          (rest.reverse.findSome? (Request.leavesAt? place)).getD
            ((r.leavesAt? place).getD (contents place)) := by
        funext place
        -- A later request that concerns the place comes before this one.
        rw [List.reverse_cons, List.findSome?_append]
        cases rest.reverse.findSome? (Request.leavesAt? place) with
        | some left => rfl
        | none => simp
      rw [hmap]
      exact hrest

theorem shows_valueAt {masterKey : MasterKey} {fresh : Envelope.Fresh} {s : Store}
    (hopen : (Store.openFile .blank masterKey fresh).1 = .ok s) (requests : List Request) :
    (Handle.run ⟨masterKey, s⟩ requests).Shows (valueAt requests) :=
  (shows_of_blank hopen).run requests

/-! ### Answers -/

variable {α : Type} {kind id : String}

/-- A value is found at a place exactly if the map has one there; what is read is its text. -/
theorem Shows.get?_eq (hs : h.Shows contents) (kind id : String) (read : Json.Reader α) :
    h.store.get? kind id read =
      match contents (kind, id) with
      | none => .ok none
      | some value => some <$> readBack read value := by
  obtain ⟨t, htable, -⟩ := hs.healthy.table
  have hrow := hs.rows t htable kind id
  cases hfind : t.find? kind id with
  | none =>
      rw [hfind, Option.map_none] at hrow
      have hnone : contents (kind, id) = none := Option.map_eq_none_iff.1 hrow.symm
      rw [Store.get?_of_none htable hfind, hnone]
  | some data =>
      rw [hfind, Option.map_some] at hrow
      obtain ⟨value, hvalue, hopen⟩ := Option.map_eq_some_iff.1 hrow.symm
      rw [Store.get?_of_some htable hfind, Store.unsealValue_of_ok hopen.symm, hvalue]
      rfl

theorem Shows.get?_of_none (hs : h.Shows contents) (hnone : contents (kind, id) = none)
    (read : Json.Reader α) : h.store.get? kind id read = .ok none := by
  rw [hs.get?_eq, hnone]

/-- A value that is shown is read by every reader that takes it. -/
theorem Shows.get?_of_some (hs : h.Shows contents) {value : Json} {read : Json.Reader α} {a : α}
    (hvalue : contents (kind, id) = some value)
    (hread : readRow read (Bytes.ofText value.compact) = some a) :
    h.store.get? kind id read = .ok (some a) := by
  rw [hs.get?_eq, hvalue]
  simp only [readBack_of_readRow hread]
  rfl

/-- The rows of a kind are those that the map has values for, each once and by the bytes of their ids. -/
theorem Shows.list_eq (hs : h.Shows contents) (kind : String) :
    ∃ ids : List String, (ids.Pairwise fun a b => Bytes.ofText a < Bytes.ofText b) ∧
      (∀ id, id ∈ ids ↔ (contents (kind, id)).isSome = true) ∧
      h.store.count kind = .ok ids.length ∧
      ∀ (α : Type) (read : Json.Reader α),
        h.store.list kind read = (ids.filterMap fun id => contents (kind, id)).mapM (readBack read) := by
  obtain ⟨t, htable, -⟩ := hs.healthy.table
  have hrows := hs.rows t htable
  refine ⟨(t.ofKind kind).map Row.id, t.pairwise_ids kind, ?_, ?_, ?_⟩
  · intro id
    have hfound := congrArg Option.isSome (hrows kind id)
    rw [Option.isSome_map, Option.isSome_map] at hfound
    rw [Table.mem_ids, hfound]
  · rw [Store.count, htable, ok_bind, Table.count_eq_length_ids]
    rfl
  · intro α read
    -- Every row opens to the text of the value that the map has at its place.
    have hopens : ∀ r ∈ t.ofKind kind, ∃ value, contents (kind, r.id) = some value ∧
        Store.unsealValue h.store.key read r.data = readBack read value := by
      intro r hr
      obtain ⟨hrow, rfl⟩ := Table.mem_ofKind.1 hr
      have hshown := hrows r.kind r.id
      rw [Table.find?_of_mem hrow, Option.map_some] at hshown
      obtain ⟨value, hvalue, hopen⟩ := Option.map_eq_some_iff.1 hshown.symm
      exact ⟨value, hvalue, Store.unsealValue_of_ok hopen.symm⟩
    rw [Store.list_of_table htable]
    generalize t.ofKind kind = rows at hopens
    induction rows with
    | nil => rfl
    | cons r rest ih =>
        obtain ⟨value, hvalue, hread⟩ := hopens r List.mem_cons_self
        have hrest := ih fun r' hr' => hopens r' (List.mem_cons_of_mem r hr')
        simp only [List.map_cons, List.filterMap_cons, hvalue, List.mapM_cons, hread, hrest]

/-- A list of places whose values are read is the list of what is read. -/
theorem mapM_readBack {ids : List String} {read : Json.Reader α} {values : String → α}
    (hvalues : ∀ id ∈ ids, ∃ value, contents (kind, id) = some value ∧
      readRow read (Bytes.ofText value.compact) = some (values id)) :
    (ids.filterMap fun id => contents (kind, id)).mapM (readBack read) = .ok (ids.map values) := by
  induction ids with
  | nil => rfl
  | cons id rest ih =>
      obtain ⟨value, hvalue, hread⟩ := hvalues id List.mem_cons_self
      have hrest := ih fun id' hid' => hvalues id' (List.mem_cons_of_mem id hid')
      simp only [List.filterMap_cons, hvalue, List.mapM_cons, readBack_of_readRow hread, hrest]
      rfl

end Handle

namespace Store

/-- After any requests to a new store, every place holds the value that was last put there, unless it was
deleted since: reading, deleting, counting and listing answer accordingly, and a request changes no place
but its own. Only too short a new master key is refused. -/
theorem holds_last_values (masterKey : MasterKey) (fresh : Envelope.Fresh) (s : Store)
    (requests : List Request) (hopen : (openFile .blank masterKey fresh).1 = .ok s) :
    let h := Handle.run ⟨masterKey, s⟩ requests
    (∀ kind id, valueAt requests (kind, id) = none →
      ∀ (α : Type) (read : Json.Reader α), h.store.get? kind id read = .ok none) ∧
    (∀ kind id value, valueAt requests (kind, id) = some value →
      ∀ (α : Type) (read : Json.Reader α) (a : α),
        readRow read (Bytes.ofText value.compact) = some a →
        h.store.get? kind id read = .ok (some a)) ∧
    (∀ kind id, ∃ s', h.store.delete kind id = .ok ((valueAt requests (kind, id)).isSome, s')) ∧
    (∀ kind, ∃ ids : List String, (ids.Pairwise fun a b => Bytes.ofText a < Bytes.ofText b) ∧
      (∀ id, id ∈ ids ↔ (valueAt requests (kind, id)).isSome = true) ∧
      h.store.count kind = .ok ids.length ∧
      ∀ (α : Type) (read : Json.Reader α) (values : String → α),
        (∀ id ∈ ids, ∃ value, valueAt requests (kind, id) = some value ∧
          readRow read (Bytes.ofText value.compact) = some (values id)) →
        h.store.list kind read = .ok (ids.map values)) ∧
    (∀ r kind id, r.leavesAt? (kind, id) = none → ∀ (α : Type) (read : Json.Reader α),
      (h.step r).2.store.get? kind id read = h.store.get? kind id read) ∧
    (∀ r, (∀ next fresh, r = .changePassword next fresh → 32 ≤ next.bytes.length) →
      (h.step r).1 = .ok ()) := by
  intro h
  have hs : h.Shows (valueAt requests) := Handle.shows_valueAt hopen requests
  -- Everything is read off what the store shows.
  refine ⟨?_, ?_, ?_, ?_, ?_, ?_⟩
  · intro kind id hnone α read
    exact hs.get?_of_none hnone read
  · intro kind id value hvalue α read a hread
    exact hs.get?_of_some hvalue hread
  · intro kind id
    obtain ⟨s', hdelete, -⟩ := (hs.delete kind id).1
    exact ⟨s', hdelete⟩
  · intro kind
    obtain ⟨ids, hsorted, hids, hcount, hlist⟩ := hs.list_eq kind
    refine ⟨ids, hsorted, hids, hcount, ?_⟩
    intro α read values hvalues
    rw [hlist, Handle.mapM_readBack hvalues]
  · intro r kind id hspares α read
    rw [(hs.step r).get?_eq, hs.get?_eq, hspares, Option.getD_none]
  · intro r hlong
    cases r with
    | put kind id value fresh =>
        obtain ⟨s', -, hstep⟩ := (hs.put kind id value fresh).1
        rw [hstep]
    | delete kind id =>
        obtain ⟨s', -, hstep⟩ := (hs.delete kind id).1
        rw [hstep]
    | changePassword next fresh =>
        obtain ⟨s', hrotate⟩ := hs.healthy.rotate (hlong next fresh rfl) fresh
        simp only [Handle.step, hrotate]
    | reopen fresh => exact (hs.healthy.reopen fresh).1

/-- A run that leaves one value of two: a removal, a refused change of the key, a successful one and a
restart. -/
theorem holds_last_values_run :
    ∃ s, (openFile .blank ⟨KdfVersion.v0, List.replicate 32 1⟩
        ⟨Block.fit 16 [], Block.fit 32 []⟩).1 = .ok s ∧
      let h := Handle.run ⟨⟨KdfVersion.v0, List.replicate 32 1⟩, s⟩
        [.put "k" "b" (.string "old") ⟨Block.fit 16 [], Block.fit 32 []⟩,
          .put "k" "a" (.string "new") ⟨Block.fit 16 [], Block.fit 32 []⟩,
          .delete "k" "b",
          .changePassword ⟨KdfVersion.v0, []⟩ fun _ => ⟨Block.fit 16 [], Block.fit 32 []⟩,
          .changePassword ⟨KdfVersion.v0, List.replicate 32 2⟩ fun _ =>
            ⟨Block.fit 16 [1], Block.fit 32 []⟩,
          .reopen ⟨Block.fit 16 [], Block.fit 32 []⟩]
      h.store.get? "k" "b" Json.Reader.text = .ok none ∧
      h.store.get? "k" "a" Json.Reader.text = .ok (some "new") ∧
      h.store.count "k" = .ok 1 ∧
      h.store.list "k" Json.Reader.text = .ok ["new"] ∧
      (h.step (.delete "k" "b")).2.store.get? "k" "a" Json.Reader.text =
        h.store.get? "k" "a" Json.Reader.text ∧
      (h.step (.reopen ⟨Block.fit 16 [], Block.fit 32 []⟩)).1 = .ok () := by
  obtain ⟨s, hopen⟩ := @Handle.exists_blank ⟨KdfVersion.v0, List.replicate 32 1⟩ (by decide)
    ⟨Block.fit 16 [], Block.fit 32 []⟩
  refine ⟨s, hopen, ?_⟩
  obtain ⟨hget, hread, -, hlist, hother, hstep⟩ := holds_last_values _ _ _
    [.put "k" "b" (.string "old") ⟨Block.fit 16 [], Block.fit 32 []⟩,
      .put "k" "a" (.string "new") ⟨Block.fit 16 [], Block.fit 32 []⟩,
      .delete "k" "b",
      .changePassword ⟨KdfVersion.v0, []⟩ fun _ => ⟨Block.fit 16 [], Block.fit 32 []⟩,
      .changePassword ⟨KdfVersion.v0, List.replicate 32 2⟩ fun _ => ⟨Block.fit 16 [1], Block.fit 32 []⟩,
      .reopen ⟨Block.fit 16 [], Block.fit 32 []⟩] hopen
  have htext : readRow Json.Reader.text (Bytes.ofText (Json.string "new").compact) = some "new" := by
    decide +kernel
  obtain ⟨ids, hsorted, hids, hcount, hvalues⟩ := hlist "k"
  -- Only one id is left, so the rows of the kind are known.
  have hone : ∀ id, id ∈ ids ↔ id = "a" := by
    intro id
    rw [hids]
    by_cases ha : id = "a"
    · subst ha
      exact iff_of_true rfl rfl
    · by_cases hb : id = "b"
      · subst hb
        exact iff_of_false (by decide) ha
      · refine iff_of_false ?_ ha
        have ha' : ("k", "a") ≠ ("k", id) := fun heq => ha (congrArg Prod.snd heq).symm
        have hb' : ("k", "b") ≠ ("k", id) := fun heq => hb (congrArg Prod.snd heq).symm
        simp only [valueAt, List.reverse_cons, List.reverse_nil, List.nil_append, List.cons_append,
          List.findSome?_cons, List.findSome?_nil, Request.leavesAt?, if_neg ha', if_neg hb',
          Option.getD_none, Option.isSome_none, Bool.false_eq_true, not_false_eq_true]
  have hsingle : ids = ["a"] := eq_singleton_of_nodup (Table.nodup_of_pairwise hsorted) hone
  subst hsingle
  refine ⟨hget "k" "b" rfl _ _, hread "k" "a" _ rfl _ _ _ htext, hcount, ?_, hother _ _ _ rfl _ _, ?_⟩
  · refine hvalues _ _ (fun _ => "new") ?_
    intro id hid
    rw [hone id |>.1 hid]
    exact ⟨_, rfl, htext⟩
  · refine hstep _ ?_
    intro next fresh heq
    cases heq

end Store
end PasswordVault
