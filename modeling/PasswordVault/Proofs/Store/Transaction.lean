import PasswordVault.Proofs.Store.Operations

/-!
# Transactions — another key, statement by statement

The rows of a store are sealed anew one after the other inside a transaction. Each statement changes
the working content, the file keeps the committed one, and the key of the handle is exchanged after
the commit (`Store.rotate`).

* `Store.rotate_eq`: the outcome is the one of `Store.changePassword`, and a failure at any statement
  leaves the store as it was.
-/

namespace PasswordVault

namespace Table

/-- A table with another text in the row at a place, if there is one. -/
def update (t : Table) (kind id data : String) : Table where
  rows := t.rows.map fun r => if r.place = (kind, id) then { r with data } else r
  distinct := by
    have hplaces : (t.rows.map fun r => if r.place = (kind, id) then { r with data } else r).map
        Row.place = t.rows.map Row.place := by
      rw [List.map_map]
      apply List.map_congr_left
      intro r _
      by_cases h : r.place = (kind, id)
      · simp only [Function.comp, if_pos h]
        rfl
      · simp only [Function.comp, if_neg h]
    rw [hplaces]
    exact t.distinct

theorem eq_of_rows_eq {t t' : Table} (h : t.rows = t'.rows) : t = t' := by
  cases t
  cases t'
  cases h
  rfl

/-- No other row stands at the place of a row, so one row is changed. -/
theorem rows_update {t : Table} {before after : List Row} {r : Row}
    (h : t.rows = before ++ r :: after) (data : String) :
    (t.update r.kind r.id data).rows = before ++ { r with data } :: after := by
  have hdistinct := t.distinct
  rw [h, List.map_append, List.map_cons, List.nodup_append] at hdistinct
  rcases hdistinct with ⟨-, hafter, hdisjoint⟩
  -- The places of a table are distinct, so the statement meets no other row.
  have hbefore : ∀ x ∈ before, x.place ≠ r.place := by
    intro x hx
    exact hdisjoint x.place (List.mem_map_of_mem hx) r.place (by simp)
  have hafter' : ∀ x ∈ after, x.place ≠ r.place := by
    intro x hx heq
    exact (List.nodup_cons.1 hafter).1 (heq ▸ List.mem_map_of_mem hx)
  have hkeep : ∀ rows : List Row, (∀ x ∈ rows, x.place ≠ r.place) →
      (rows.map fun x => if x.place = r.place then { x with data } else x) = rows := by
    intro rows hrows
    have hmap : (rows.map fun x => if x.place = r.place then { x with data } else x) = rows.map id := by
      apply List.map_congr_left
      intro x hx
      exact if_neg (hrows x hx)
    rw [hmap, List.map_id]
  calc
    (t.update r.kind r.id data).rows
        = (before ++ r :: after).map fun x => if x.place = r.place then { x with data } else x := by
          rw [← h]
          rfl
    _ = before ++ { r with data } :: after := by
          rw [List.map_append, List.map_cons, hkeep before hbefore, hkeep after hafter', if_pos rfl]

end Table

/-! ## Transactions -/

/-- What the statements of a transaction work on, and what the file holds until they are committed. -/
structure Transaction where
  committed : StoreContent
  working : StoreContent

namespace Transaction

def start (c : StoreContent) : Transaction := ⟨c, c⟩

def updateRow (tx : Transaction) (kind id data : String) : Transaction :=
  { tx with working := { tx.working with table := tx.working.table.map fun t => t.update kind id data } }

def updateCheck (tx : Transaction) (check : String) : Transaction :=
  { tx with working := { tx.working with keyCheck := tx.working.keyCheck.map fun _ => check } }

def commit (tx : Transaction) : StoreContent := tx.working

def rollback (tx : Transaction) : StoreContent := tx.committed

end Transaction

namespace Store

/-- The statements for some rows, the first failure if there is one. They are told how many rows come
before. -/
def resealRows (old new : SymmetricKey) (fresh : Nat → Envelope.Fresh) :
    (before : Nat) → List Row → Transaction → Except StoreError Unit × Transaction
  | _, [], tx => (.ok (), tx)
  | n, r :: rest, tx =>
    match reseal old new fresh n r.data with
    | .error e => (.error e, tx)
    | .ok data => resealRows old new fresh (n + 1) rest (tx.updateRow r.kind r.id data)

/-- The statements that seal a store anew under the keys of another master key: the result, and the
store afterwards. -/
def rotate (s : Store) (masterKey : MasterKey) (fresh : Nat → Envelope.Fresh) :
    Except StoreError Unit × Store :=
  match deriveSubKeys masterKey with
  | .error e => (.error (.crypto e), s)
  | .ok key =>
    match s.file.content with
    | .error e => (.error e, s)
    | .ok c =>
      match c.requireTable with
      | .error e => (.error e, s)
      | .ok t =>
        match resealRows s.key key fresh 0 t.rows (.start c) with
        | (.error e, tx) => (.error e, { s with file := .store tx.rollback })
        | (.ok (), tx) =>
          match sealBytes key keyCheckText (fresh 0) with
          | .error e => (.error e, { s with file := .store tx.rollback })
          | .ok check => (.ok (), ⟨key, .store (tx.updateCheck check).commit⟩)

variable {old new : SymmetricKey} {fresh : Nat → Envelope.Fresh}

/-- Nothing is committed by the statements for rows. -/
theorem rollback_resealRows (n : Nat) (rows : List Row) (tx : Transaction) :
    (resealRows old new fresh n rows tx).2.rollback = tx.rollback := by
  induction rows generalizing n tx with
  | nil => rfl
  | cons r rest ih =>
      rw [resealRows]
      split
      · rfl
      · exact ih (n + 1) _

/-- The statements stop at the first row that cannot be sealed anew. -/
theorem resealRows_of_error {n : Nat} {rows : List Row} {e : StoreError}
    (h : Table.mapRowData (reseal old new fresh) n rows = .error e) (tx : Transaction) :
    (resealRows old new fresh n rows tx).1 = .error e := by
  induction rows generalizing n tx with
  | nil => cases h
  | cons r rest ih =>
      rw [resealRows]
      rcases bind_eq_error_iff.1 h with hfirst | ⟨data, hdata, hrest⟩
      · rw [hfirst]
      · rw [hdata]
        rcases bind_eq_error_iff.1 hrest with hmore | ⟨_, _, hpure⟩
        · exact ih hmore _
        · cases hpure

/-- The statements for the last rows of a table put the new rows in their place. -/
theorem resealRows_of_ok {n : Nat} {before rows rows' : List Row} {tx : Transaction} {t t' : Table}
    (h : Table.mapRowData (reseal old new fresh) n rows = .ok rows')
    (htable : tx.working.table = some t) (hrows : t.rows = before ++ rows)
    (hrows' : t'.rows = before ++ rows') :
    resealRows old new fresh n rows tx =
      (.ok (), { tx with working := { tx.working with table := some t' } }) := by
  -- The rows that were written grow at the expense of those still to come.
  induction rows generalizing n before rows' tx t with
  | nil =>
      cases h
      have heq : t' = t := Table.eq_of_rows_eq (hrows'.trans hrows.symm)
      rw [resealRows, heq, ← htable]
  | cons r rest ih =>
      rcases bind_eq_ok_iff.1 h with ⟨data, hdata, hrest⟩
      rcases bind_eq_ok_iff.1 hrest with ⟨more, hmore, heq⟩
      cases heq
      have hupdated : (tx.updateRow r.kind r.id data).working.table =
          some (t.update r.kind r.id data) := by
        simp [Transaction.updateRow, htable]
      have hafter : (t.update r.kind r.id data).rows = (before ++ [{ r with data }]) ++ rest := by
        rw [Table.rows_update hrows, List.append_assoc, List.singleton_append]
      rw [resealRows, hdata]
      exact ih hmore hupdated hafter (by simpa using hrows')

variable {s : Store} {c : StoreContent} {t : Table} {key : SymmetricKey} {masterKey : MasterKey}

/-- If a row can not be sealed anew, the transaction is rolled back to where it started. -/
theorem rotate_of_error (hderive : deriveSubKeys masterKey = .ok key) (hfile : s.file = .store c)
    (htable : c.table = some t) {e : StoreError} (h : t.mapData (reseal s.key key fresh) = .error e) :
    s.rotate masterKey fresh = (.error e, s) := by
  have hrequire : c.requireTable = .ok t := by
    simp [StoreContent.requireTable, htable]
  have hfails := resealRows_of_error (Table.mapData_eq_error_iff.1 h) (.start c)
  have hback := @rollback_resealRows s.key key fresh 0 t.rows (.start c)
  rcases hrun : resealRows s.key key fresh 0 t.rows (.start c) with ⟨result, tx⟩
  rw [hrun] at hfails hback
  cases hfails
  have hsame : { s with file := .store tx.rollback } = s := by
    rw [hback]
    exact congrArg (Store.mk s.key) hfile.symm
  simp only [rotate, hderive, hfile, StoreFile.content, hrequire, hrun]
  exact congrArg (Prod.mk _) hsame

/-- If all rows can be sealed anew, they are committed together with the check. -/
theorem rotate_of_ok (hderive : deriveSubKeys masterKey = .ok key) (hfile : s.file = .store c)
    (htable : c.table = some t) {t' : Table} (h : t.mapData (reseal s.key key fresh) = .ok t') :
    s.rotate masterKey fresh =
      (.ok (), ⟨key, .store { c with
        keyCheck := c.keyCheck.map fun _ => rowText key keyCheckText (fresh 0)
        table := some t' }⟩) := by
  have hrequire : c.requireTable = .ok t := by
    simp [StoreContent.requireTable, htable]
  have hdone : resealRows s.key key fresh 0 t.rows (.start c) =
      (.ok (), ⟨c, { c with table := some t' }⟩) :=
    resealRows_of_ok (Table.mapData_eq_ok_iff.1 h) htable (List.nil_append t.rows).symm
      (List.nil_append t'.rows).symm
  simp only [rotate, hderive, hfile, StoreFile.content, hrequire, hdone,
    sealBytes_eq ⟨masterKey, hderive⟩]
  rfl

/-- The statements do what the change of the key as a whole does, or nothing. -/
theorem rotate_eq (s : Store) (masterKey : MasterKey) (fresh : Nat → Envelope.Fresh) :
    s.rotate masterKey fresh =
      match s.changePassword masterKey fresh with
      | .ok s' => (.ok (), s')
      | .error e => (.error e, s) := by
  cases hderive : deriveSubKeys masterKey with
  | error e => simp [rotate, changePassword, hderive, error_bind]
  | ok key =>
      cases hfile : s.file with
      | «foreign» => simp [rotate, changePassword, hderive, hfile, StoreFile.content, ok_bind, error_bind]
      | store c =>
          cases htable : c.table with
          | none =>
              simp [rotate, changePassword, hderive, hfile, StoreFile.content,
                StoreContent.requireTable, htable, ok_bind, error_bind]
          | some t =>
              rw [changePassword_eq hderive hfile htable]
              cases hmap : t.mapData (reseal s.key key fresh) with
              | error e => exact rotate_of_error hderive hfile htable hmap
              | ok t' => exact rotate_of_ok hderive hfile htable hmap

theorem rotate_eq_ok_iff {s' : Store} :
    s.rotate masterKey fresh = (.ok (), s') ↔ s.changePassword masterKey fresh = .ok s' := by
  rw [rotate_eq]
  cases s.changePassword masterKey fresh <;> simp

theorem rotate_eq_error_iff {s' : Store} {e : StoreError} :
    s.rotate masterKey fresh = (.error e, s') ↔
      s.changePassword masterKey fresh = .error e ∧ s' = s := by
  rw [rotate_eq]
  cases s.changePassword masterKey fresh <;> simp [eq_comm]

end Store
end PasswordVault
