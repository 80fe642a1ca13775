import PasswordVault.Base64
import PasswordVault.Json.Record
import PasswordVault.MasterPassword
import PasswordVault.Store.Settings

/-!
# The key of the store

The store has a master key of its own, which no user ever sees. It is kept in the settings; on first
use it is derived from a random password and a random salt by the oldest derivation, which is enough
for a password that nobody chose.
-/

namespace PasswordVault
namespace StoredKey

def settingName : String := "database_key"

def passwordLength : Nat := 32

def kdfVersion : KdfVersion := KdfVersion.v0

/-! ## The form in the settings -/

def toJson (k : MasterKey) : Json :=
  .object [("version", .int k.version.raw), ("key", .string (Base64.encode k.bytes))]

def reader : Json.Reader (KdfVersion × String) :=
  Json.Reader.record [["version"], ["key"]] fun depth fields =>
    match fields with
    | [version, key] => do return (⟨← version.required .int32 depth⟩, ← key.required .text depth)
    | _ => none

/-- The key that a setting holds. -/
def parse (text : String) : Except StoreError MasterKey :=
  match reader.run? text with
  | none => .error (.serialization "the setting holds no key")
  | some (version, encoded) =>
    match Base64.decode encoded with
    | .ok bytes => .ok ⟨version, bytes⟩
    | .error fault => .error (.settings s!"Invalid {settingName}: {fault.message}")

/-! ## Loading and saving -/

variable {σ τ : Type}

def save (access : SettingsAccess σ) (settings : σ) (k : MasterKey) : Except StoreError σ :=
  access.put settings settingName (some (toJson k).compact)

def generate (g : Generator τ) : Attempt τ MasterKey := do
  let password ← g.seed passwordLength
  let salt ← MasterPassword.newSalt g
  MasterPassword.key g password (← MasterPassword.hash g password salt kdfVersion)

/-- The key in the settings, or a new one, which is saved. The settings afterwards come with the key: a
failure leaves them as they were. -/
def loadOrCreate (access : SettingsAccess σ) (g : Generator τ) (settings : σ) :
    StateM τ (Except StoreError (MasterKey × σ)) := do
  match access.get settings settingName with
  | .error e => return .error e
  | .ok (some text) => return (parse text).map fun k => (k, settings)
  | .ok none =>
    match ← (generate g).run with
    | .error e => return .error (.crypto e)
    | .ok k => return (save access settings k).map fun settings => (k, settings)

end StoredKey
end PasswordVault
