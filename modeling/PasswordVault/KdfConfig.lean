import PasswordVault.Base64
import PasswordVault.Generator
import PasswordVault.Json.Printer
import PasswordVault.Json.Record
import PasswordVault.Key
import PasswordVault.Text.Case

/-!
# Key derivation for a server

The server says how a password is stretched to the master key of an account (`KdfConfig`). From the
master key follow the keys that encrypt (`deriveSubKeys`) and the proof of the password
(`passwordHash`).
-/

namespace PasswordVault

/-- A key derivation function that servers may ask for. -/
inductive KdfType where
  | pbkdf2Sha256
  | argon2id
deriving DecidableEq, Repr

namespace KdfType

def raw : KdfType → Int
  | .pbkdf2Sha256 => 0
  | .argon2id => 1

def ofRaw (n : Int) : Except CryptoError KdfType :=
  if n = 0 then .ok .pbkdf2Sha256
  else if n = 1 then .ok .argon2id
  else .error (.unsupportedKdfVersion n)

end KdfType

/-- What a server asks for: a function and its costs. The memory is in MiB. -/
structure KdfConfig where
  kdfType : Int
  iterations : Nat
  memoryMb : Option Nat
  parallelism : Option Nat
deriving DecidableEq, Repr

namespace KdfConfig

def pbkdf2 (iterations : Nat) : KdfConfig := ⟨KdfType.pbkdf2Sha256.raw, iterations, none, none⟩

def argon2id (iterations memoryMb parallelism : Nat) : KdfConfig :=
  ⟨KdfType.argon2id.raw, iterations, some memoryMb, some parallelism⟩

def kdf (c : KdfConfig) : Except CryptoError KdfType := KdfType.ofRaw c.kdfType

/-! ## JSON -/

/-- The names of the fields, the written one first. -/
def fieldNames : List (List String) :=
  [["kdfType", "kdf"], ["iterations", "kdfIterations"], ["memoryMb", "kdfMemory"],
    ["parallelism", "kdfParallelism"]]

def reader : Json.Reader KdfConfig :=
  Json.Reader.record fieldNames fun depth fields =>
    match fields with
    | [kdfType, iterations, memoryMb, parallelism] => do
      return {
        kdfType := ← kdfType.required .int32 depth
        iterations := ← iterations.required .nat32 depth
        memoryMb := ← memoryMb.withDefault none (.orNull .nat32) depth
        parallelism := ← parallelism.withDefault none (.orNull .nat32) depth }
    | _ => none

def optNat : Option Nat → Json
  | some n => .nat n
  | none => .null

def toJson (c : KdfConfig) : Json :=
  .object [("kdfType", .int c.kdfType), ("iterations", .nat c.iterations), ("memoryMb", optNat c.memoryMb),
    ("parallelism", optNat c.parallelism)]

/-! ## Checks -/

/-- The function that is asked for, if its costs are given and not zero. -/
def validate (c : KdfConfig) : Except CryptoError KdfType := do
  let kdf ← c.kdf
  if c.iterations < 1 then .error (.invalidKdfParams "Iterations too low (minimum: 1)")
  match kdf with
  | .pbkdf2Sha256 => return kdf
  | .argon2id =>
    match c.memoryMb, c.parallelism with
    | none, _ => .error (.invalidKdfParams "Argon2id requires a memory cost")
    | some 0, _ => .error (.invalidKdfParams "Memory cost too low (minimum: 1 MiB)")
    | some _, none => .error (.invalidKdfParams "Argon2id requires a parallelism")
    | some _, some 0 => .error (.invalidKdfParams "Parallelism too low (minimum: 1)")
    | some _, some _ => return kdf

end KdfConfig

/-! ## Master keys -/

def masterKeyLength : Nat := 32

/-- The byte string that an email address salts a password with. -/
def emailSalt (email : String) : Bytes := Bytes.ofText (Text.lowercase (Text.trim email))

/-- The master key of a password, with the functions of a generator. The version of the key names the
function; its costs are those of the server. -/
def deriveMasterKey {σ : Type} (g : Generator σ) (password salt : Bytes) (c : KdfConfig) :
    Attempt σ MasterKey := do
  match ← Generator.lift c.validate with
  | .pbkdf2Sha256 =>
    let key ← g.pbkdf2 password salt c.iterations masterKeyLength
    return ⟨KdfVersion.v0, key⟩
  | .argon2id =>
    let memoryKb := c.memoryMb.getD 0 * 1024
    if 0xffffffff < memoryKb then throw (.outOfMemoryKdf memoryKb)
    let hashedSalt ← g.sha256 salt
    let key ← g.argon2 .id password hashedSalt ⟨c.iterations, memoryKb, c.parallelism.getD 0⟩
    return ⟨KdfVersion.v1, key⟩

/-- The keys that encrypt and authenticate under a master key. -/
def deriveSubKeysWith {σ : Type} (g : Generator σ) (key : MasterKey) : Attempt σ SymmetricKey := do
  let enc ← g.hkdfExpand key.bytes (Bytes.ofText "enc") 32
  let mac ← g.hkdfExpand key.bytes (Bytes.ofText "mac") 32
  Generator.lift (SymmetricKey.ofParts enc mac)

/-- The keys that encrypt and authenticate under a master key. -/
def deriveSubKeys (key : MasterKey) : Except CryptoError SymmetricKey := do
  let enc ← Hkdf.deriveExpanded key.bytes (Bytes.ofText "enc") 32
  let mac ← Hkdf.deriveExpanded key.bytes (Bytes.ofText "mac") 32
  SymmetricKey.ofParts enc mac

/-! ## Proof of the password -/

/-- The digest that proves knowledge of a password to the server. -/
def passwordDigest (key : MasterKey) (password : Bytes) : Bytes :=
  Pbkdf2.derive key.bytes password 1 masterKeyLength

def passwordHash (key : MasterKey) (password : Bytes) : String :=
  Base64.encode (passwordDigest key password)

/-- Nothing, if a text is the proof of a password. -/
def verifyPasswordHash (key : MasterKey) (password : Bytes) (expected : String) : Except CryptoError Unit :=
  match Base64.decode expected with
  | .error _ => .error .passwordMismatch
  | .ok found => if passwordDigest key password = found then .ok () else .error .passwordMismatch

/-! ## Shared keys -/

/-- A key for a shared object, from random material and the name and purpose of the object. -/
def deriveSharedKey (seed : Bytes) (name info : String) : Except CryptoError SymmetricKey := do
  let salt := Bytes.ofText ("bitwarden-" ++ name)
  SymmetricKey.ofBytes (← Hkdf.derive seed (some salt) (some (Bytes.ofText info)) 64)

end PasswordVault
