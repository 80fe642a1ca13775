import PasswordVault.Bytes
import PasswordVault.Json.Token

/-!
# Reading JSON

A text is read word by word by a machine whose state is the stack of open arrays and objects
together with what must come next. Reading is one pass over the words, so it ends on every text,
and nesting costs no more than a longer stack.
-/

namespace PasswordVault
namespace Json

/-- An array or object that is still open. What it holds so far is listed last first. -/
inductive Frame where
  | array (done : List Json)
  | object (done : List (Option String × Json)) (key : Option String)

/-- Where a reader stands between two words. -/
inductive Reading where
  /-- A value must follow. -/
  | value (stack : List Frame)
  /-- An array has been opened: a value or its end must follow. -/
  | arrayStart (stack : List Frame)
  /-- An object has been opened: a key or its end must follow. -/
  | objectStart (stack : List Frame)
  /-- A comma in an object has been read: a key must follow. -/
  | key (stack : List Frame) (done : List (Option String × Json))
  /-- A key has been read: a colon must follow. -/
  | colon (stack : List Frame) (done : List (Option String × Json)) (key : Option String)
  /-- A value is complete. -/
  | complete (v : Json) (stack : List Frame)

def ofText : Option String → Json
  | some s => .string s
  | none => .unreadable

/-- The object with the given members, last first; it is unreadable if one of its keys is. -/
def ofMembers (done : List (Option String × Json)) : Json :=
  match done.reverse.mapM fun (key, v) => key.map fun k => (k, v) with
  | some members => .object members
  | none => .unreadable

namespace Reading

def startValue (stack : List Frame) : Token → Option Reading
  | .scalar j => some (.complete j stack)
  | .text s => some (.complete (ofText s) stack)
  | .openBracket => some (.arrayStart stack)
  | .openBrace => some (.objectStart stack)
  | _ => none

/-- One word read. -/
def step : Reading → Token → Option Reading
  | .value stack, t => startValue stack t
  | .arrayStart stack, .closeBracket => some (.complete (.array []) stack)
  | .arrayStart stack, t => startValue (.array [] :: stack) t
  | .objectStart stack, .closeBrace => some (.complete (.object []) stack)
  | .objectStart stack, .text k => some (.colon stack [] k)
  | .key stack done, .text k => some (.colon stack done k)
  | .colon stack done k, .colon => some (.value (.object done k :: stack))
  | .complete v (.array done :: stack), .comma => some (.value (.array (v :: done) :: stack))
  | .complete v (.array done :: stack), .closeBracket =>
    some (.complete (.array (v :: done).reverse) stack)
  | .complete v (.object done k :: stack), .comma => some (.key stack ((k, v) :: done))
  | .complete v (.object done k :: stack), .closeBrace =>
    some (.complete (ofMembers ((k, v) :: done)) stack)
  | _, _ => none

def run (state : Reading) : List Token → Option Reading
  | [] => some state
  | t :: rest => (state.step t).bind fun next => run next rest

end Reading

def ofTokens? (tokens : List Token) : Option Json :=
  match Reading.run (.value []) tokens with
  | some (.complete v []) => some v
  | _ => none

def parse? (text : String) : Option Json := do
  let tokens ← tokens? text.toList
  ofTokens? tokens

def parseCanonical? (text : String) : Option Json := do
  let j ← parse? text
  canonical? j

def parseBytes? (bytes : Bytes) : Option Json := do
  let text ← bytes.text?
  parse? text

end Json
end PasswordVault
