import PasswordVault.Cipher
import PasswordVault.Json.Parser
import PasswordVault.Json.Printer
import PasswordVault.Store.File

/-!
# The encrypted store

An open store is a file and the keys of its rows. The value of a row is written as JSON and sealed in
an envelope, so nothing readable is kept.

* `Store.put`, `Store.get?`, `Store.list`, `Store.delete` and `Store.count` work on rows.
* `Store.changePassword` seals all rows anew under another key, all of them or none.

Whatever is drawn at random for an envelope is handed in.
-/

namespace PasswordVault

/-- An open store. -/
structure Store where
  key : SymmetricKey
  file : StoreFile

namespace Store

/-- The store in a file opened under a master key, and the file as it is from then on. -/
def openFile (file : StoreFile) (masterKey : MasterKey) (fresh : Envelope.Fresh) :
    Except StoreError Store × StoreFile :=
  let (key, file) := file.unlock masterKey fresh
  (key.map fun k => ⟨k, file⟩, file)

def inMemory (masterKey : MasterKey) (fresh : Envelope.Fresh) : Except StoreError Store :=
  (openFile .blank masterKey fresh).1

def table (s : Store) : Except StoreError Table := do
  (← s.file.content).requireTable

/-- The store with another table. -/
def withTable (s : Store) (t : Table) : Except StoreError Store := do
  let c ← s.file.content
  return { s with file := .store { c with table := some t } }

def schemaVersion (s : Store) : Except StoreError Int := do
  return (← s.file.content).version

/-- The store with its schema made. -/
def initializeSchema (s : Store) : Except StoreError Store := do
  let c ← s.file.content
  return { s with file := .store c.withSchema }

/-! ## Values -/

def sealValue (key : SymmetricKey) (value : Json) (fresh : Envelope.Fresh) : Except StoreError String :=
  sealBytes key (Bytes.ofText value.compact) fresh

def unsealValue {α : Type} (key : SymmetricKey) (read : Json.Reader α) (data : String) :
    Except StoreError α := do
  let plaintext ← unsealBytes key data
  match (Json.parseBytes? plaintext).bind (read Json.nestingLimit) with
  | some value => return value
  | none => throw (.serialization "the row holds another type of value")

/-! ## Rows -/

/-- The store with a value at a place; it replaces the one there. -/
def put (s : Store) (kind id : String) (value : Json) (fresh : Envelope.Fresh) : Except StoreError Store := do
  let data ← sealValue s.key value fresh
  s.withTable ((← s.table).insert ⟨kind, id, data⟩)

def get? {α : Type} (s : Store) (kind id : String) (read : Json.Reader α) : Except StoreError (Option α) := do
  match (← s.table).find? kind id with
  | some data => some <$> unsealValue s.key read data
  | none => return none

/-- The values of a kind, by the order of their ids. -/
def list {α : Type} (s : Store) (kind : String) (read : Json.Reader α) : Except StoreError (List α) := do
  ((← s.table).ofKind kind).mapM fun r => unsealValue s.key read r.data

/-- The store without the row at a place, and whether there was one. -/
def delete (s : Store) (kind id : String) : Except StoreError (Bool × Store) := do
  let t ← s.table
  return ((t.find? kind id).isSome, ← s.withTable (t.erase kind id))

def count (s : Store) (kind : String) : Except StoreError Nat := do
  return (← s.table).count kind

/-! ## Ciphers -/

def cipherKind : String := "cipher"

def cipherRowId (accountId cipherId : String) : String := accountId ++ "/" ++ cipherId

def putCipher (s : Store) (c : VaultCipher) (fresh : Envelope.Fresh) : Except StoreError Store :=
  s.put cipherKind (cipherRowId c.accountId c.cipherId) c.toJson fresh

def getCipher? (s : Store) (accountId cipherId : String) : Except StoreError (Option VaultCipher) :=
  s.get? cipherKind (cipherRowId accountId cipherId) VaultCipher.reader

def ciphersOf (s : Store) (accountId : String) : Except StoreError (List VaultCipher) := do
  return (← s.list cipherKind VaultCipher.reader).filter fun c => c.accountId = accountId

/-! ## Another key -/

/-- The store with all rows sealed anew under the keys of another master key. If one of them cannot be
read, there is no new store. -/
def changePassword (s : Store) (masterKey : MasterKey) (fresh : Nat → Envelope.Fresh) :
    Except StoreError Store := do
  let key ← (deriveSubKeys masterKey).mapError .crypto
  let c ← s.file.content
  let t ← c.requireTable
  -- The plaintexts are sealed again byte for byte, whatever their kind.
  let resealed ← t.mapData fun n data => do
    sealBytes key (← unsealBytes s.key data) (fresh (n + 1))
  let check ← sealBytes key keyCheckText (fresh 0)
  return ⟨key, .store { c with keyCheck := c.keyCheck.map fun _ => check, table := some resealed }⟩

end Store
end PasswordVault
