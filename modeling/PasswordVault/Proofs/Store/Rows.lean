import PasswordVault.Proofs.Outcome
import PasswordVault.Store.Table
import Mathlib.Data.List.Nodup

/-!
# Rows — what the operations of a table keep

* Insertion and removal leave the rows at other places alone.
* New texts in the same rows (`Table.mapData`) are compared row by row: `List.Forall₂` carries what
  holds of each pair over to lookups (`Table.find?_congr`) and to sorted lists
  (`Table.forall₂_ofKind`).
-/

namespace PasswordVault
namespace Table

/-! ## Single rows -/

theorem mem_rows_erase {t : Table} {kind id : String} {r : Row} :
    r ∈ (t.erase kind id).rows ↔ r ∈ t.rows ∧ r.place ≠ (kind, id) := by
  simp [erase]

theorem mem_rows_insert {t : Table} {new r : Row} :
    r ∈ (t.insert new).rows ↔ r ∈ t.rows ∧ r.place ≠ new.place ∨ r = new := by
  rw [insert, List.mem_append, mem_rows_erase, List.mem_singleton]
  rfl

theorem mem_ofKind {t : Table} {kind : String} {r : Row} :
    r ∈ t.ofKind kind ↔ r ∈ t.rows ∧ r.kind = kind := by
  simp [ofKind, List.mem_mergeSort]

/-- A text that is found stands in a row. -/
theorem mem_of_find? {t : Table} {kind id data : String} (h : t.find? kind id = some data) :
    ∃ r ∈ t.rows, r.place = (kind, id) ∧ r.data = data := by
  rcases Option.map_eq_some_iff.1 h with ⟨r, hr, hdata⟩
  refine ⟨r, List.mem_of_find?_eq_some hr, ?_, hdata⟩
  simpa using List.find?_some hr

/-- A row is found at its place, for no other row stands there. -/
theorem find?_of_mem {t : Table} {r : Row} (h : r ∈ t.rows) : t.find? r.kind r.id = some r.data := by
  cases hfind : t.find? r.kind r.id with
  | none =>
      have hnone := Option.map_eq_none_iff.1 hfind
      have hother := List.find?_eq_none.1 hnone r h
      simp [Row.place] at hother
  | some data =>
      obtain ⟨r', hr', hplace, rfl⟩ := mem_of_find? hfind
      have hsame : r' = r := List.inj_on_of_nodup_map t.distinct hr' h hplace
      rw [hsame]

/-- Erasing a row changes what is found at its own place alone. -/
theorem find?_erase (t : Table) (kind id kind' id' : String) :
    (t.erase kind id).find? kind' id' =
      if (kind', id') = (kind, id) then none else t.find? kind' id' := by
  by_cases hplace : (kind', id') = (kind, id)
  · rw [if_pos hplace, find?, Option.map_eq_none_iff, List.find?_eq_none]
    intro r hr
    have hne := (mem_rows_erase.1 hr).2
    simpa [hplace] using hne
  · have hrows : (t.erase kind id).rows.find? (fun r => r.place = (kind', id')) =
        t.rows.find? fun r => r.place = (kind', id') := by
      rw [erase, List.find?_filter]
      congr 1
      funext r
      -- A row at the place that is asked for is none of those removed.
      by_cases hr : r.place = (kind', id')
      · simp [hr, hplace]
      · simp [hr]
    rw [if_neg hplace, find?, find?, hrows]

/-- A row that is put in is found at its place, and elsewhere nothing changes. -/
theorem find?_insert (t : Table) (r : Row) (kind id : String) :
    (t.insert r).find? kind id = if (kind, id) = r.place then some r.data else t.find? kind id := by
  have herase : (t.erase r.kind r.id).find? kind id =
      if (kind, id) = r.place then none else t.find? kind id := find?_erase t r.kind r.id kind id
  have hrows : (t.insert r).find? kind id =
      ((t.erase r.kind r.id).find? kind id).or
        (([r].find? fun x => x.place = (kind, id)).map (·.data)) := by
    rw [find?, find?, insert, List.find?_append, Option.map_or]
  rw [hrows, herase]
  by_cases hplace : (kind, id) = r.place
  · simp [hplace]
  · have hlast : [r].find? (fun x => x.place = (kind, id)) = none := by
      simpa using fun heq => hplace heq.symm
    rw [hlast, if_neg hplace, if_neg hplace, Option.map_none, Option.or_none]

/-! ## Rows in pairs -/

variable {R : Row → Row → Prop}

theorem exists_pairs {rows rows' : List Row} (h : List.Forall₂ R rows rows') :
    ∃ pairs : List (Row × Row),
      pairs.map Prod.fst = rows ∧ pairs.map Prod.snd = rows' ∧ ∀ p ∈ pairs, R p.1 p.2 := by
  induction h with
  | nil => exact ⟨[], by simp⟩
  | @cons r r' _ _ hfirst _ ih =>
      rcases ih with ⟨pairs, rfl, rfl, hpairs⟩
      refine ⟨(r, r') :: pairs, by simp, by simp, ?_⟩
      intro p hp
      rcases List.mem_cons.1 hp with rfl | hp
      · exact hfirst
      · exact hpairs p hp

theorem exists_partner {rows rows' : List Row} (h : List.Forall₂ R rows rows') {r : Row}
    (hr : r ∈ rows) : ∃ r' ∈ rows', R r r' := by
  rcases exists_pairs h with ⟨pairs, rfl, rfl, hpairs⟩
  rcases List.mem_map.1 hr with ⟨p, hp, rfl⟩
  exact ⟨p.2, List.mem_map_of_mem hp, hpairs p hp⟩

theorem exists_partner' {rows rows' : List Row} (h : List.Forall₂ R rows rows') {r' : Row}
    (hr : r' ∈ rows') : ∃ r ∈ rows, R r r' := by
  rcases exists_pairs h with ⟨pairs, rfl, rfl, hpairs⟩
  rcases List.mem_map.1 hr with ⟨p, hp, rfl⟩
  exact ⟨p.1, List.mem_map_of_mem hp, hpairs p hp⟩

/-- Rows at the same places are sorted alike. -/
theorem forall₂_ofKind {t t' : Table} (hplace : ∀ r r', R r r' → r'.place = r.place)
    (h : List.Forall₂ R t.rows t'.rows) (kind : String) :
    List.Forall₂ R (t.ofKind kind) (t'.ofKind kind) := by
  rcases exists_pairs h with ⟨pairs, hrows, hrows', hpairs⟩
  have hkind : ∀ p ∈ pairs, p.2.kind = p.1.kind ∧ p.2.id = p.1.id := by
    intro p hp
    simpa [Row.place] using hplace _ _ (hpairs p hp)
  -- One sorted list of pairs projects to either sorted list of rows.
  let sorted := (pairs.filter fun p => p.1.kind = kind).mergeSort fun p q => p.1.id ≤ q.1.id
  have hmem : ∀ p ∈ sorted, p ∈ pairs := by
    intro p hp
    exact (List.mem_filter.1 ((List.mem_mergeSort).1 hp)).1
  have hfst : sorted.map Prod.fst = t.ofKind kind := by
    rw [ofKind, ← hrows, List.filter_map, List.map_mergeSort]
    · rfl
    · intro p _ q _
      rfl
  have hsnd : sorted.map Prod.snd = t'.ofKind kind := by
    have hfilter : (pairs.map Prod.snd).filter (fun r => r.kind = kind) =
        (pairs.filter fun p => p.1.kind = kind).map Prod.snd := by
      rw [List.filter_map]
      congr 1
      apply List.filter_congr
      intro p hp
      simp [(hkind p hp).1]
    rw [ofKind, ← hrows', hfilter, List.map_mergeSort]
    intro p hp q hq
    have hp' := (hkind p (List.mem_filter.1 hp).1).2
    have hq' := (hkind q (List.mem_filter.1 hq).1).2
    simp [hp', hq']
  rw [← hfst, ← hsnd, List.forall₂_map_left_iff, List.forall₂_map_right_iff, List.forall₂_same]
  exact fun p hp => hpairs p (hmem p hp)

/-- Rows at the same places whose texts agree under some readings are found alike. -/
theorem find?_congr {α : Type} {t t' : Table} {f f' : String → α}
    (h : List.Forall₂ (fun r r' => r'.place = r.place ∧ f' r'.data = f r.data) t.rows t'.rows)
    (kind id : String) : (t'.find? kind id).map f' = (t.find? kind id).map f := by
  -- The lists are walked in parallel; a look-up stops at the same pair in both.
  have hrows : ∀ rows rows' : List Row,
      List.Forall₂ (fun r r' => r'.place = r.place ∧ f' r'.data = f r.data) rows rows' →
      ((rows'.find? fun r => r.place = (kind, id)).map fun r => f' r.data) =
        (rows.find? fun r => r.place = (kind, id)).map fun r => f r.data := by
    intro rows rows' hrows
    induction hrows with
    | nil => rfl
    | @cons r r' _ _ hfirst _ ih =>
        by_cases hplace : r.place = (kind, id)
        · have hplace' : r'.place = (kind, id) := hfirst.1.trans hplace
          simp [hplace, hplace', hfirst.2]
        · have hplace' : r'.place ≠ (kind, id) := fun heq => hplace (hfirst.1.symm.trans heq)
          simpa [hplace, hplace'] using ih
  simpa [find?, Option.map_map, Function.comp_def] using hrows t.rows t'.rows h

/-! ## New texts -/

variable {ε : Type} {f : Nat → String → Except ε String}

/-- The new table has the old rows with the new texts. -/
theorem mapData_eq_ok_iff {t t' : Table} :
    t.mapData f = .ok t' ↔ mapRowData f 0 t.rows = .ok t'.rows := by
  unfold mapData
  split
  case h_1 rows hrows =>
    constructor
    · intro h
      cases h
      exact hrows
    · intro h
      have heq : rows = t'.rows := Except.ok.inj (hrows.symm.trans h)
      subst heq
      rfl
  case h_2 e he => simp [he]

theorem mapData_eq_error_iff {t : Table} {e : ε} :
    t.mapData f = .error e ↔ mapRowData f 0 t.rows = .error e := by
  unfold mapData
  split
  case h_1 rows hrows => simp [hrows]
  case h_2 e' he => simp [he]

/-- Every row keeps its place and gets the text that the function gives for the one it had. -/
theorem forall₂_mapRowData {n : Nat} {rows rows' : List Row} (h : mapRowData f n rows = .ok rows') :
    List.Forall₂ (fun r r' => r'.place = r.place ∧ ∃ i, f i r.data = .ok r'.data) rows rows' := by
  induction rows generalizing n rows' with
  | nil =>
      cases h
      exact .nil
  | cons r rest ih =>
      rcases bind_eq_ok_iff.1 h with ⟨data, hdata, hrest⟩
      rcases bind_eq_ok_iff.1 hrest with ⟨more, hmore, heq⟩
      cases heq
      exact .cons ⟨rfl, n, hdata⟩ (ih hmore)

/-- If the function never fails on the texts of the rows, there are new rows. -/
theorem exists_mapRowData {n : Nat} {rows : List Row}
    (h : ∀ r ∈ rows, ∀ i, ∃ data, f i r.data = .ok data) :
    ∃ rows', mapRowData f n rows = .ok rows' := by
  induction rows generalizing n with
  | nil => exact ⟨[], rfl⟩
  | cons r rest ih =>
      rcases h r (by simp) n with ⟨data, hdata⟩
      rcases ih (n := n + 1) fun x hx => h x (List.mem_cons_of_mem _ hx) with ⟨more, hmore⟩
      refine ⟨{ r with data } :: more, ?_⟩
      rw [mapRowData, hdata, ok_bind, hmore]
      rfl

end Table
end PasswordVault
