import PasswordVault.Json.Parser

/-!
# Reading records from JSON

A record is an object with known fields; each field has one or more names. Unknown members are
skipped whatever they hold, a field given twice is an error, and the readers `Field.required`,
`Field.optional` and `Field.withDefault` say what a missing field means. A record may also be written
as an array of its fields in declaration order.

A `Reader` is told how many levels of nesting are left, so that a text nested too deeply is refused
where a value is read and not where one is skipped.
-/

namespace PasswordVault
namespace Json

/-- Reads a value nested in fewer than the given number of levels. -/
abbrev Reader (α : Type) := (depth : Nat) → Json → Option α

/-- What stands in a field of a record. -/
inductive Field where
  | given (value : Json)
  /-- The field is named nowhere. -/
  | missing
  /-- The record is an array that ends before this field. -/
  | beyond
deriving DecidableEq

namespace Reader

/-! ## Plain values -/

def text : Reader String
  | _, .string s => some s
  | _, _ => none

def bool : Reader Bool
  | _, .bool b => some b
  | _, _ => none

/-- An integer between two bounds, written without fraction or exponent. -/
def integer (least greatest : Int) : Reader Int
  | _, .number (.int n) => if least ≤ n ∧ n ≤ greatest then some n else none
  | _, _ => none

def int32 : Reader Int := integer (-0x80000000) 0x7fffffff

def int64 : Reader Int := integer (-0x8000000000000000) 0x7fffffffffffffff

def nat32 : Reader Nat := fun depth j => (integer 0 0xffffffff depth j).map Int.toNat

def orNull {α : Type} (read : Reader α) : Reader (Option α)
  | _, .null => some none
  | depth, j => (read depth j).map some

def list {α : Type} (read : Reader α) : Reader (List α)
  | depth, .array items => if depth ≤ 1 then none else items.mapM (read (depth - 1))
  | _, _ => none

/-- One of a few words, given as a string or as an object with the word as its key and null as its
value. -/
def choice {α : Type} (words : List (String × α)) : Reader α
  | _, .string s => words.lookup s
  | depth, .object [(s, .null)] => if depth ≤ 1 then none else words.lookup s
  | _, _ => none

/-- Any value, in its free-form reading. -/
def free : Reader Json := canonicalWithin?

/-! ## Records -/

/-- The value of a field among the members of an object: none if it is given twice. -/
def lookUp (names : List String) (members : List (String × Json)) : Option Field :=
  match members.filter fun m => m.1 ∈ names with
  | [] => some .missing
  | [m] => some (.given m.2)
  | _ => none

/-- The items of an array as the fields of a record: none if there are too many. -/
def inOrder : (fields : List (List String)) → (items : List Json) → Option (List Field)
  | [], [] => some []
  | [], _ :: _ => none
  | _ :: fields, [] => (inOrder fields []).map (.beyond :: ·)
  | _ :: fields, x :: items => (inOrder fields items).map (.given x :: ·)

/-- The fields of a record in declaration order, each known by the names listed. -/
def fields (names : List (List String)) : Json → Option (List Field)
  | .object members => names.mapM fun ns => lookUp ns members
  | .array items => inOrder names items
  | _ => none

/-- A record with the given fields, built from what stands in them. -/
def record {α : Type} (names : List (List String)) (build : (depth : Nat) → List Field → Option α) :
    Reader α
  | depth, j => if depth ≤ 1 then none else do
    let found ← fields names j
    build (depth - 1) found

end Reader

namespace Field

def required {α : Type} (read : Reader α) (depth : Nat) : Field → Option α
  | .given j => read depth j
  | .missing => none
  | .beyond => none

def optional {α : Type} (read : Reader α) (depth : Nat) : Field → Option (Option α)
  | .given j => Reader.orNull read depth j
  | .missing => some none
  | .beyond => none

/-- A field that has a value of its own when it is left out. -/
def withDefault {α : Type} (value : α) (read : Reader α) (depth : Nat) : Field → Option α
  | .given j => read depth j
  | .missing => some value
  | .beyond => some value

end Field

/-! ## Texts -/

/-- The value that a reader finds in a text. -/
def Reader.run? {α : Type} (read : Reader α) (text : String) : Option α := do
  let j ← parse? text
  read nestingLimit j

end Json
end PasswordVault
