/-!
# The table of rows

Every row stands at a kind and an id and holds a text. There is at most one row at a place, which is
part of the type. Rows are kept in the order in which they were last written; `Table.ofKind` lists the
rows of one kind by the order of their ids.
-/

namespace PasswordVault

/-- A row: a text at a kind and an id. -/
structure Row where
  kind : String
  id : String
  data : String
deriving DecidableEq, Repr

namespace Row

def place (r : Row) : String × String := (r.kind, r.id)

end Row

/-- Rows of which no two stand at the same place, in the order in which they were last written. -/
structure Table where
  rows : List Row
  distinct : (rows.map Row.place).Nodup

namespace Table

def empty : Table := ⟨[], by simp⟩

def find? (t : Table) (kind id : String) : Option String :=
  (t.rows.find? fun r => r.place = (kind, id)).map (·.data)

def erase (t : Table) (kind id : String) : Table where
  rows := t.rows.filter fun r => r.place ≠ (kind, id)
  distinct := t.distinct.sublist (List.filter_sublist.map _)

/-- A table with a row; it replaces the one at its place. -/
def insert (t : Table) (r : Row) : Table where
  rows := (t.erase r.kind r.id).rows ++ [r]
  distinct := by
    rw [List.map_append, List.nodup_append]
    refine ⟨(t.erase r.kind r.id).distinct, by simp, ?_⟩
    intro a ha b hb
    simp only [List.map_cons, List.map_nil, List.mem_singleton] at hb
    obtain ⟨x, hx, rfl⟩ := List.mem_map.1 ha
    rw [hb]
    exact of_decide_eq_true (List.mem_filter.1 hx).2

def ofKind (t : Table) (kind : String) : List Row :=
  (t.rows.filter fun r => r.kind = kind).mergeSort fun a b => a.id ≤ b.id

def count (t : Table) (kind : String) : Nat := (t.rows.filter fun r => r.kind = kind).length

def sorted (t : Table) : List Row :=
  t.rows.mergeSort fun a b => a.kind < b.kind ∨ a.kind = b.kind ∧ a.id ≤ b.id

/-! ## New texts in the same rows -/

/-- Rows with new texts at the same places, the first failure if there is one. The function is told how
many rows come before. -/
def mapRowData {ε : Type} (f : Nat → String → Except ε String) :
    (before : Nat) → List Row → Except ε (List Row)
  | _, [] => .ok []
  | n, r :: rest => do
    let data ← f n r.data
    return { r with data } :: (← mapRowData f (n + 1) rest)

/-- New texts stay at the places of the old ones. -/
theorem map_place_mapRowData {ε : Type} {f : Nat → String → Except ε String} {n : Nat}
    {rows out : List Row} (h : mapRowData f n rows = .ok out) :
    out.map Row.place = rows.map Row.place := by
  induction rows generalizing n out with
  | nil =>
    simp only [mapRowData, Except.ok.injEq] at h
    simp [← h]
  | cons r rest ih =>
    rw [mapRowData] at h
    cases hf : f n r.data with
    | error e => simp [hf, bind, Except.bind] at h
    | ok data =>
      cases hr : mapRowData f (n + 1) rest with
      | error e => simp [hf, hr, bind, Except.bind] at h
      | ok tail =>
        simp only [hf, hr, bind, Except.bind, pure, Except.pure, Except.ok.injEq] at h
        simp [← h, ih hr, Row.place]

/-- The table with new texts in the same order, the first failure if there is one. -/
def mapData {ε : Type} (t : Table) (f : Nat → String → Except ε String) : Except ε Table :=
  match h : mapRowData f 0 t.rows with
  | .ok rows => .ok ⟨rows, by rw [map_place_mapRowData h]; exact t.distinct⟩
  | .error e => .error e

end Table
end PasswordVault
