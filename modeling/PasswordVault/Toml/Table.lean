import PasswordVault.Json.Basic

/-!
# Tables of TOML

A document is built statement by statement. A table may be named in several ways, and it matters which:
one that only stood on the way to another may still be given its own header, and one that was made by
keys with dots may only be extended by such keys.
-/

namespace PasswordVault
namespace Toml

/-- How a table came to be. -/
inductive Origin where
  /-- It stood on the way in a header. -/
  | implied
  /-- It stood on the way in a key with dots. -/
  | dotted
  /-- It has its own header, or is the document. -/
  | header
deriving DecidableEq, Repr

/-- What stands at a key: a value, a table, or a row of tables, of which the last one is open. -/
inductive Node where
  | value (v : Json)
  | table (origin : Origin) (entries : List (String × Node))
  | row (tables : List (List (String × Node)))

abbrev Entries := List (String × Node)

namespace Entries

def put (t : Entries) (key : String) (n : Node) : Entries := t.filter (fun e => e.1 ≠ key) ++ [(key, n)]

/-- The entries with the table at a path changed; tables on the way that are missing are made. Keys with
dots cannot pass through a table that has its own header. -/
def change (dotted : Bool) (f : Origin → Entries → Option Entries) :
    (path : List String) → Origin → Entries → Option Entries
  | [], origin, t => f origin t
  | key :: path, _, t => do
    let made := if dotted then Origin.dotted else .implied
    match t.lookup key with
    | none => return t.put key (.table made (← change dotted f path made []))
    | some (.value _) => none
    | some (.table origin inner) =>
      if dotted ∧ origin = .header then none
      else return t.put key (.table origin (← change dotted f path origin inner))
    | some (.row tables) =>
      let last ← tables.getLast?
      return t.put key (.row (tables.dropLast ++ [← change dotted f path .header last]))

/-- The entries with a value at a path of keys. A key is given only once, and keys with dots extend only
tables that were made by such keys. -/
def assign (path : List String) (v : Json) (origin : Origin) (t : Entries) : Option Entries := do
  let key ← path.getLast?
  let within := path.dropLast
  change true (fun origin t =>
    if (origin = .dotted ↔ within = []) ∨ (t.lookup key).isSome then none
    else some (t.put key (.value v))) within origin t

def openTable (path : List String) (t : Entries) : Option Entries := do
  let key ← path.getLast?
  change false (fun _ t =>
    match t.lookup key with
    | none => some (t.put key (.table .header []))
    | some (.table .implied inner) => some (t.put key (.table .header inner))
    | some _ => none) path.dropLast .header t

/-- The entries with one more table in the row at a path. -/
def openRow (path : List String) (t : Entries) : Option Entries := do
  let key ← path.getLast?
  change false (fun _ t =>
    match t.lookup key with
    | none => some (t.put key (.row [[]]))
    | some (.row tables) => some (t.put key (.row (tables ++ [[]])))
    | some _ => none) path.dropLast .header t

end Entries

/-! ## Values -/

mutual

def Node.toJson : Node → Json
  | .value v => v
  | .table _ entries => .object (entriesToJson entries)
  | .row tables => .array (rowToJson tables)

def entriesToJson : List (String × Node) → List (String × Json)
  | [] => []
  | e :: rest => entryToJson e :: entriesToJson rest

def entryToJson : String × Node → String × Json
  | (key, n) => (key, n.toJson)

def rowToJson : List (List (String × Node)) → List Json
  | [] => []
  | entries :: rest => .object (entriesToJson entries) :: rowToJson rest

end

end Toml
end PasswordVault
