import PasswordVault.Decimal.Double

/-!
# JSON values

A value keeps the members of an object in the order of the text, repeated keys included, so that a
reader of records can see a repetition. `canonical?` gives the free-form reading: keys sorted, the
last of equal keys kept.

`unreadable` stands for a well-formed literal that has no value: a string that spells half a
surrogate pair, a number beyond the range of doubles, or an object with such a key. It may be
skipped, but no reader accepts it.
-/

namespace PasswordVault

/-- Integers of up to 64 bits are kept exactly; all other numbers are doubles. -/
inductive Json.Number where
  | int (n : Int)
  | real (x : Double)
deriving DecidableEq, Repr

/-- A JSON value. -/
inductive Json where
  | null
  | bool (b : Bool)
  | number (n : Json.Number)
  | string (s : String)
  | array (items : List Json)
  | object (members : List (String × Json))
  | unreadable
deriving Repr, Inhabited

namespace Json

def int (n : Int) : Json := .number (.int n)

def nat (n : Nat) : Json := .number (.int n)

def optString : Option String → Json
  | some s => .string s
  | none => .null

/-! ## Equality -/

mutual

/-- Equality of values is decidable. -/
def decEq : (a b : Json) → Decidable (a = b)
  | .null, b =>
    match b with
    | .null => isTrue rfl
    | .bool _ | .number _ | .string _ | .array _ | .object _ | .unreadable => isFalse (by simp)
  | .bool x, b =>
    match b with
    | .bool y => decidable_of_iff (x = y) (by simp)
    | .null | .number _ | .string _ | .array _ | .object _ | .unreadable => isFalse (by simp)
  | .number x, b =>
    match b with
    | .number y => decidable_of_iff (x = y) (by simp)
    | .null | .bool _ | .string _ | .array _ | .object _ | .unreadable => isFalse (by simp)
  | .string x, b =>
    match b with
    | .string y => decidable_of_iff (x = y) (by simp)
    | .null | .bool _ | .number _ | .array _ | .object _ | .unreadable => isFalse (by simp)
  | .array xs, b =>
    match b with
    | .array ys => match decEqItems xs ys with
      | isTrue h => isTrue (by rw [h])
      | isFalse h => isFalse (by simpa using h)
    | .null | .bool _ | .number _ | .string _ | .object _ | .unreadable => isFalse (by simp)
  | .object xs, b =>
    match b with
    | .object ys => match decEqMembers xs ys with
      | isTrue h => isTrue (by rw [h])
      | isFalse h => isFalse (by simpa using h)
    | .null | .bool _ | .number _ | .string _ | .array _ | .unreadable => isFalse (by simp)
  | .unreadable, b =>
    match b with
    | .unreadable => isTrue rfl
    | .null | .bool _ | .number _ | .string _ | .array _ | .object _ => isFalse (by simp)

def decEqItems : (xs ys : List Json) → Decidable (xs = ys)
  | [], [] => isTrue rfl
  | [], _ :: _ => isFalse (by simp)
  | _ :: _, [] => isFalse (by simp)
  | x :: xs, y :: ys =>
    match decEq x y, decEqItems xs ys with
    | isTrue h, isTrue h' => isTrue (by rw [h, h'])
    | isFalse h, _ => isFalse (by simp [h])
    | _, isFalse h => isFalse (by simp [h])

def decEqMember : (a b : String × Json) → Decidable (a = b)
  | (k, x), (l, y) =>
    match decEq x y with
    | isTrue h => decidable_of_iff (k = l) (by simp [h])
    | isFalse h => isFalse (by simp [h])

def decEqMembers : (xs ys : List (String × Json)) → Decidable (xs = ys)
  | [], [] => isTrue rfl
  | [], _ :: _ => isFalse (by simp)
  | _ :: _, [] => isFalse (by simp)
  | x :: xs, y :: ys =>
    match decEqMember x y, decEqMembers xs ys with
    | isTrue h, isTrue h' => isTrue (by rw [h, h'])
    | isFalse h, _ => isFalse (by simp [h])
    | _, isFalse h => isFalse (by simp [h])

end

instance : DecidableEq Json := decEq

/-! ## Free-form values -/

/-- A member put into a list sorted by key; it replaces one with the same key. -/
def insertMember {α : Type} (key : String) (value : α) : List (String × α) → List (String × α)
  | [] => [(key, value)]
  | (k, v) :: rest =>
    if key < k then (key, value) :: (k, v) :: rest
    else if key = k then (key, value) :: rest
    else (k, v) :: insertMember key value rest

/-- Members sorted by key, the last of equal keys kept. -/
def sortMembers {α : Type} (members : List (String × α)) : List (String × α) :=
  members.foldl (fun sorted (key, value) => insertMember key value sorted) []

mutual

/-- The free-form reading of a value nested in fewer than `depth` levels: keys sorted, the last of
equal keys kept, nothing unreadable within. -/
def canonicalWithin? (depth : Nat) : Json → Option Json
  | .array items => if depth ≤ 1 then none else (canonicalItems? (depth - 1) items).map .array
  | .object members =>
    if depth ≤ 1 then none
    else (canonicalMembers? (depth - 1) members).map fun ms => .object (sortMembers ms)
  | .unreadable => none
  | .null => some .null
  | .bool b => some (.bool b)
  | .number n => some (.number n)
  | .string s => some (.string s)

/-- `canonicalWithin?` on every item. -/
def canonicalItems? (depth : Nat) : List Json → Option (List Json)
  | [] => some []
  | x :: rest => do return (← canonicalWithin? depth x) :: (← canonicalItems? depth rest)

/-- `canonicalWithin?` on the value of a member. -/
def canonicalMember? (depth : Nat) : String × Json → Option (String × Json)
  | (key, value) => (canonicalWithin? depth value).map fun v => (key, v)

/-- `canonicalWithin?` on every member. -/
def canonicalMembers? (depth : Nat) : List (String × Json) → Option (List (String × Json))
  | [] => some []
  | m :: rest => do return (← canonicalMember? depth m) :: (← canonicalMembers? depth rest)

end

/-- The nesting limit of a text that is read: values nest in fewer than this many levels. -/
def nestingLimit : Nat := 128

/-- The free-form reading of a value. -/
def canonical? (j : Json) : Option Json := canonicalWithin? nestingLimit j

/-! ## Members -/

/-- The value of a key; of equal keys the last. -/
def member? (j : Json) (key : String) : Option Json :=
  match j with
  | .object members => (members.reverse.find? fun m => m.1 = key).map (·.2)
  | _ => none

def setMember (j : Json) (key : String) (value : Json) : Json :=
  match j with
  | .object members => .object (insertMember key value members)
  | _ => j

def removeMember (j : Json) (key : String) : Json :=
  match j with
  | .object members => .object (members.filter fun m => m.1 ≠ key)
  | _ => j

end Json
end PasswordVault
