import PasswordVault.Proofs.Json.Records

/-!
# Fields — what a value gives for the fields of a record

A record is read from an object, whose members may stand in any order and between others, or from an array with
the fields in their order. Either way there is a row of values for each field, and the row of a field that is
read has one value at most.

* `Json.given`: the values that a value gives for a field.
* `Json.Reader.values_of_fields`, `Json.Reader.exists_fields`: the fields of a record are found exactly if none is
  given twice, and what is in them is what is given.
* `Json.Field.required_iff`, `Json.Field.withDefault_iff`: what a field must hold to be read.
-/

namespace PasswordVault
namespace Json

/-- The values that a record gives for a field: those of the members with one of its names, or the item in its
place. -/
def given (names : List String) (place : Nat) : Json → List Json
  | .object members => (members.filter fun m => m.1 ∈ names).map (·.2)
  | .array items => items[place]?.toList
  | _ => []

/-- Whether a value is a record of so many fields: an object, or an array with no more items. -/
def IsRecord (size : Nat) : Json → Prop
  | .object _ => True
  | .array items => items.length ≤ size
  | _ => False

/-! ## What is in a field -/

namespace Field

def values : Field → List Json
  | .given v => [v]
  | .missing => []
  | .beyond => []

variable {α : Type} {read : Reader α} {depth : Nat} {field : Field} {a : α}

/-- A field that must be given is read from the one value in it. -/
theorem required_iff : field.required read depth = some a ↔ ∃ v, field.values = [v] ∧ read depth v = some a := by
  cases field with
  | given v => simp [required, values]
  | missing | beyond => simp [required, values]

/-- A field with a value of its own is read like any other, unless nothing is in it. -/
theorem withDefault_iff {value : α} : field.withDefault value read depth = some a ↔
    (field.values = [] ∧ a = value) ∨ ∃ v, field.values = [v] ∧ read depth v = some a := by
  cases field with
  | given v => simp [withDefault, values]
  | missing | beyond => simp [withDefault, values, eq_comm]

/-- The field at a place of a record without names. -/
def placed (items : List Json) (place : Nat) : Field := items[place]?.elim .beyond .given

theorem values_placed (items : List Json) (place : Nat) : (placed items place).values = items[place]?.toList := by
  unfold placed
  cases items[place]? <;> rfl

end Field

/-! ## The fields that are found -/

namespace Reader

/-- An integer is read between the bounds of its reader, and nothing else. -/
theorem integer_eq_some_iff {least greatest n : Int} {depth : Nat} {v : Json} :
    integer least greatest depth v = some n ↔ v = .int n ∧ least ≤ n ∧ n ≤ greatest := by
  unfold integer
  split
  · next m =>
    rw [Option.ite_none_right_eq_some, Option.some.injEq, int, number.injEq, Number.int.injEq]
    constructor
    · rintro ⟨hbounds, rfl⟩
      exact ⟨rfl, hbounds⟩
    · rintro ⟨rfl, hbounds⟩
      exact ⟨hbounds, rfl⟩
  · next hother =>
    refine iff_of_false (by simp) ?_
    rintro ⟨rfl, -⟩
    exact hother n rfl

/-- A field that is looked up holds the values of the members with its names. -/
theorem values_of_lookUp {names : List String} {members : List (String × Json)} {field : Field}
    (h : lookUp names members = some field) :
    field.values = (members.filter fun m => m.1 ∈ names).map (·.2) := by
  unfold lookUp at h
  split at h
  · next hnone =>
    cases h
    rw [hnone]
    rfl
  · next m hone =>
    cases h
    rw [hone]
    rfl
  · cases h

/-- A field that is not named twice is found, be it as missing. -/
theorem exists_lookUp {names : List String} {members : List (String × Json)}
    (h : ((members.filter fun m => m.1 ∈ names).map (·.2)).length ≤ 1) :
    ∃ field, lookUp names members = some field := by
  unfold lookUp
  split
  · exact ⟨.missing, rfl⟩
  · next m _ => exact ⟨.given m.2, rfl⟩
  · next hnone hone =>
    rw [List.length_map] at h
    cases hfilter : members.filter fun m => m.1 ∈ names with
    | nil => exact absurd hfilter hnone
    | cons m rest =>
        rw [hfilter, List.length_cons] at h
        have hrest : rest = [] := List.length_eq_zero_iff.1 (by omega)
        rw [hrest] at hfilter
        exact absurd hfilter (hone m)

/-- The items of an array are the fields from the first on, if they are not too many. -/
theorem inOrder_eq (names : List (List String)) (items : List Json) :
    inOrder names items =
      if items.length ≤ names.length then some ((List.range names.length).map (Field.placed items))
      else none := by
  -- The fields behind the first are those of the items behind the first, each one place further.
  induction names generalizing items with
  | nil => cases items <;> rfl
  | cons first names ih =>
      rw [List.length_cons, List.range_succ_eq_map, List.map_cons, List.map_map]
      cases items with
      | nil =>
          rw [inOrder, ih]
          simp only [List.length_nil, Nat.zero_le, if_true]
          rfl
      | cons v rest =>
          rw [inOrder, ih, List.length_cons]
          simp only [Nat.add_le_add_iff_right]
          split <;> rfl

variable {names : List (List String)} {members : List (String × Json)} {items : List Json} {j : Json}
  {found : List Field}

theorem mapIdx_given_object : (names.mapIdx fun place ns => given ns place (.object members)) =
    names.map fun ns => (members.filter fun m => m.1 ∈ ns).map (·.2) :=
  List.ext_getElem (by simp) (by simp [given])

theorem mapIdx_given_array : (names.mapIdx fun place ns => given ns place (.array items)) =
    ((List.range names.length).map (Field.placed items)).map Field.values :=
  List.ext_getElem (by simp) (by simp [given, Field.values_placed])

/-- The fields that are found hold what is given for them. -/
theorem values_of_fields (h : fields names j = some found) :
    IsRecord names.length j ∧ found.map Field.values = names.mapIdx fun place ns => given ns place j := by
  cases j with
  | object members =>
      refine ⟨trivial, ?_⟩
      rw [mapIdx_given_object]
      have hfound := mapM_eq_some_iff_forall₂.1 h
      clear h
      induction hfound with
      | nil => rfl
      | cons hfield _ ih => rw [List.map_cons, List.map_cons, values_of_lookUp hfield, ih]
  | array items =>
      rw [fields, inOrder_eq, Option.ite_none_right_eq_some, Option.some.injEq] at h
      obtain ⟨hlength, rfl⟩ := h
      exact ⟨hlength, mapIdx_given_array.symm⟩
  | null | bool | number | string | unreadable => cases h

/-- A record that gives no field twice has its fields. -/
theorem exists_fields (hrecord : IsRecord names.length j)
    (hgiven : ∀ values ∈ names.mapIdx fun place ns => given ns place j, values.length ≤ 1) :
    ∃ found, fields names j = some found := by
  cases j with
  | object members =>
      rw [mapIdx_given_object, List.forall_mem_map] at hgiven
      have hfields : ∀ ns ∈ names, ∃ field, lookUp ns members = some field :=
        fun ns hns => exists_lookUp (hgiven ns hns)
      clear hgiven hrecord
      simp only [fields, mapM_eq_some_iff_forall₂]
      induction names with
      | nil => exact ⟨[], .nil⟩
      | cons ns rest ih =>
          obtain ⟨field, hfield⟩ := hfields ns List.mem_cons_self
          obtain ⟨more, hmore⟩ := ih fun ns' hns' => hfields ns' (List.mem_cons_of_mem ns hns')
          exact ⟨field :: more, .cons hfield hmore⟩
  | array items => exact ⟨_, (inOrder_eq names items).trans (if_pos hrecord)⟩
  | null | bool | number | string | unreadable => exact hrecord.elim

/-! ## Lists -/

/-- A list is read from an array of what its items are read from. -/
theorem list_eq_some_iff {α : Type} {read : Reader α} {depth : Nat} {xs : List α} :
    list read depth j = some xs ↔
      1 < depth ∧ ∃ items, j = .array items ∧ List.Forall₂ (fun v x => read (depth - 1) v = some x) items xs := by
  cases j with
  | array items =>
      rw [list]
      by_cases hone : depth ≤ 1
      · rw [if_pos hone]
        exact iff_of_false (by simp) fun h => absurd h.1 (by omega)
      · simp [hone, show 1 < depth by omega, mapM_eq_some_iff_forall₂]
  | null | bool | number | string | object | unreadable => simp [list]

end Reader
end Json
end PasswordVault
