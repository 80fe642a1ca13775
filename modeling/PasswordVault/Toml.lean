import PasswordVault.Toml.Scalar
import PasswordVault.Toml.Table
import PasswordVault.Toml.Text

/-!
# TOML documents

A document is read as the JSON value of the same structure, so that what reads records from JSON reads
them from TOML as well. Dates and numbers with a fraction have no counterpart there and become
unreadable values.
-/

namespace PasswordVault
namespace Toml

def Scalar.toJson : Scalar → Json
  | .integer n => .int n
  | .boolean b => .bool b
  | .float => .unreadable
  | .moment => .unreadable

/-! ## Values -/

/-- The text without blanks, line ends and comments in front, in at most `lines` lines. -/
def skipLines : (lines : Nat) → List Char → List Char
  | 0, cs => cs
  | lines + 1, cs =>
    let rest := skipComment (skipBlanks cs)
    match lineEnd? rest with
    | some after => skipLines lines after
    | none => rest

/-- The text without blanks, line ends and comments in front. -/
def skipFill (cs : List Char) : List Char := skipLines (cs.length + 1) cs

mutual

/-- A value, in fewer than `steps` steps: each takes a character at least every other time. -/
def value : (steps : Nat) → List Char → Option (Json × List Char)
  | 0, _ => none
  | steps + 1, cs =>
    match cs with
    | '"' :: _ | '\'' :: _ => (string cs).map fun (s, rest) => (.string s, rest)
    | '[' :: rest => do
      let (items, rest) ← arrayItems steps (skipFill rest)
      return (.array items, rest)
    | '{' :: rest => do
      let (entries, rest) ← match skipBlanks rest with
        | '}' :: rest => some ([], rest)
        | rest => inlineEntries steps [] rest
      return ((Node.table .header entries).toJson, rest)
    | _ => (scalar cs).map fun (s, rest) => (s.toJson, rest)

/-- The items of an array up to its end. -/
def arrayItems : (steps : Nat) → List Char → Option (List Json × List Char)
  | 0, _ => none
  | steps + 1, cs =>
    match cs with
    | ']' :: rest => some ([], rest)
    | _ => do
      let (v, rest) ← value steps cs
      match skipFill rest with
      | ',' :: rest => do
        let (items, rest) ← arrayItems steps (skipFill rest)
        return (v :: items, rest)
      | ']' :: rest => return ([v], rest)
      | _ => none

/-- The entries of a table within a line up to its end, after those before. -/
def inlineEntries : (steps : Nat) → Entries → List Char → Option (Entries × List Char)
  | 0, _, _ => none
  | steps + 1, t, cs => do
    let (path, rest) ← keys cs
    match rest with
    | '=' :: rest => do
      let (v, rest) ← value steps (skipBlanks rest)
      let t ← t.assign path v .header
      match skipBlanks rest with
      | ',' :: rest => inlineEntries steps t rest
      | '}' :: rest => return (t, rest)
      | _ => none
    | _ => none

end

/-! ## Statements -/

/-- The end of a statement: blanks, a comment, and the end of the line or of the document. -/
def statementEnd (cs : List Char) : Option (List Char) :=
  match skipComment (skipBlanks cs) with
  | [] => some []
  | rest => lineEnd? rest

/-- A document so far, and the path of the table that is open. -/
structure Draft where
  entries : Entries := []
  current : List String := []

namespace Draft

def assign (d : Draft) (path : List String) (v : Json) : Option Draft := do
  return { d with entries := ← d.entries.change false (fun origin t => t.assign path v origin) d.current .header }

/-- A draft with one more statement, and what follows it. -/
def statement (d : Draft) (cs : List Char) : Option (Draft × List Char) :=
  match skipBlanks cs with
  | '[' :: '[' :: rest => do
    let (path, rest) ← keys rest
    match rest with
    | ']' :: ']' :: rest => return (⟨← d.entries.openRow path, path⟩, rest)
    | _ => none
  | '[' :: rest => do
    let (path, rest) ← keys rest
    match rest with
    | ']' :: rest => return (⟨← d.entries.openTable path, path⟩, rest)
    | _ => none
  | rest => do
    let (path, rest) ← keys rest
    match rest with
    | '=' :: rest => do
      let rest := skipBlanks rest
      let (v, rest) ← value (2 * rest.length + 2) rest
      return (← d.assign path v, rest)
    | _ => none

/-- The draft after all statements, at most `lines` of them. -/
def statements : (lines : Nat) → Draft → List Char → Option Draft
  | 0, _, _ => none
  | lines + 1, d, cs =>
    match statementEnd cs with
    | some [] => some d
    | some rest => statements lines d rest
    | none => do
      let (d, rest) ← d.statement cs
      match ← statementEnd rest with
      | [] => return d
      | rest => statements lines d rest

end Draft

/-- The value of a document. A byte order mark in front does not count. -/
def parse? (text : String) : Option Json := do
  let cs := match text.toList with
    | c :: rest => if c.toNat = 0xfeff then rest else c :: rest
    | [] => []
  let d ← Draft.statements (cs.length + 1) {} cs
  return .object (entriesToJson d.entries)

end Toml
end PasswordVault
