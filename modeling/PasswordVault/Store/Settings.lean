import PasswordVault.Json.Printer
import PasswordVault.Json.Parser
import PasswordVault.Store.Error
import PasswordVault.Text.Case

/-!
# Settings

Named texts that survive a restart. They are kept in memory (`Settings`) or as a JSON object in a file
(`SettingsFile`), and whoever uses them reaches both through `SettingsAccess`.
-/

namespace PasswordVault

abbrev Settings := List (String × String)

/-- How settings of some kind are read and changed. -/
structure SettingsAccess (σ : Type) where
  /-- The value of a setting. -/
  get : σ → (name : String) → Except StoreError (Option String)
  /-- The settings with a value set, or removed. -/
  put : σ → (name : String) → (value : Option String) → Except StoreError σ

namespace Settings

def get? (s : Settings) (name : String) : Option String := s.lookup name

def put (s : Settings) (name : String) : Option String → Settings
  | some value => Json.insertMember name value s
  | none => s.filter fun m => m.1 ≠ name

def access : SettingsAccess Settings where
  get s name := .ok (s.get? name)
  put s name value := .ok (s.put name value)

/-! ## The form in a file -/

/-- The settings that a JSON object of strings holds, the last of equal names counting. -/
def ofJson? : Json → Option Settings
  | .object members => do
    let values ← members.mapM fun (name, v) =>
      match v with
      | .string value => some (name, value)
      | _ => none
    return Json.sortMembers values
  | _ => none

def toJson (s : Settings) : Json := .object (s.map fun (name, value) => (name, .string value))

def toText (s : Settings) : String := s.toJson.indented

/-- The settings in a text. A blank text holds none. -/
def parse (text : String) : Except StoreError Settings :=
  if Text.trim text = "" then .ok []
  else match (Json.parse? text).bind ofJson? with
    | some s => .ok s
    | none => .error (.settings "the file holds no JSON object of strings")

end Settings

/-- What a settings file holds: nothing while it does not exist. -/
abbrev SettingsFile := Option Bytes

namespace SettingsFile

def read : SettingsFile → Except StoreError Settings
  | none => .ok []
  | some bytes =>
    match Bytes.text? bytes with
    | some text => Settings.parse text
    | none => .error (.io "the file is not valid UTF-8")

def write (s : Settings) : SettingsFile := some (Bytes.ofText s.toText)

def get (file : SettingsFile) (name : String) : Except StoreError (Option String) := do
  return (← file.read).get? name

def put (file : SettingsFile) (name : String) (value : Option String) : Except StoreError SettingsFile := do
  return write ((← file.read).put name value)

def access : SettingsAccess SettingsFile where
  get := get
  put := put

end SettingsFile
end PasswordVault
