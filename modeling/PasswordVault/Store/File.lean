import PasswordVault.Envelope.Cipher
import PasswordVault.KdfConfig
import PasswordVault.Store.Error
import PasswordVault.Store.Table

/-!
# Store files

What a file holds for the store: a schema version, the check of the key, and the table of rows. A file
that was written by something else is no store.

`StoreFile.unlock` opens a file under a master key. The check is an envelope around a fixed text: a key
that does not open it, or finds another text in it, is not the key of the file. A file without a check
is bound to the first key that opens it.
-/

namespace PasswordVault

/-- The content of a store. The table is absent until the schema is made. -/
structure StoreContent where
  version : Int := 0
  keyCheck : Option String := none
  table : Option Table := none

namespace StoreContent

def schemaVersion : Int := 1

/-- The content with the schema made: a table, and no version below the current one. -/
def withSchema (c : StoreContent) : StoreContent :=
  { c with version := max c.version schemaVersion, table := some (c.table.getD Table.empty) }

def requireTable (c : StoreContent) : Except StoreError Table :=
  match c.table with
  | some t => .ok t
  | none => .error (.storage .noSuchTable)

end StoreContent

/-- What a file is to the store. -/
inductive StoreFile where
  /-- The file of something else. -/
  | foreign
  | store (content : StoreContent)

namespace StoreFile

def blank : StoreFile := .store {}

def content : StoreFile → Except StoreError StoreContent
  | .foreign => .error (.storage .notADatabase)
  | .store c => .ok c

end StoreFile

/-! ## Sealed texts -/

/-- The type of the envelopes that rows are sealed in. -/
def rowCipherType : CipherType := .aesCbc256Hmac

def sealBytes (key : SymmetricKey) (plaintext : Bytes) (fresh : Envelope.Fresh) : Except StoreError String :=
  match Envelope.encrypt rowCipherType plaintext (some key) none fresh with
  | .ok e => .ok e.toText
  | .error e => .error (.crypto e)

def unsealBytes (key : SymmetricKey) (data : String) : Except StoreError Bytes :=
  (Envelope.decode data (some key) none).mapError .crypto

/-! ## The check of the key -/

def keyCheckText : Bytes := Bytes.ofText "vaultkeep-key-check"

/-- Nothing, if a key opens a check. -/
def checkKey (key : SymmetricKey) (check : String) : Except StoreError Unit :=
  match Envelope.decode check (some key) none with
  | .ok plaintext => if plaintext = keyCheckText then .ok () else .error .notADatabase
  | .error .authenticationFailed => .error .notADatabase
  | .error e => .error (.crypto e)

/-- The content with a check for a key: the one it has, if the key opens it, else a new one. -/
def StoreContent.boundTo (c : StoreContent) (key : SymmetricKey) (fresh : Envelope.Fresh) :
    Except StoreError StoreContent :=
  match c.keyCheck with
  | some check => do
    checkKey key check
    return c
  | none => do
    let check ← sealBytes key keyCheckText fresh
    return { c with keyCheck := some check }

/-- A file opened under a master key: the keys of its rows, and the file as it is from then on. The
schema is made before the key is checked. -/
def StoreFile.unlock (file : StoreFile) (masterKey : MasterKey) (fresh : Envelope.Fresh) :
    Except StoreError SymmetricKey × StoreFile :=
  match deriveSubKeys masterKey, file with
  | .error e, _ => (.error (.crypto e), file)
  | .ok _, .foreign => (.error (.storage .notADatabase), .foreign)
  | .ok key, .store c =>
    match c.withSchema.boundTo key fresh with
    | .ok c => (.ok key, .store c)
    | .error e => (.error e, .store c.withSchema)

end PasswordVault
