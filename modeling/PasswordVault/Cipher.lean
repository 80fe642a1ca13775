import PasswordVault.Cipher.Parts

/-!
# Ciphers

A cipher is an item of the vault. Beside its own content it records the server copy that it was last
synced with, which in turn may record an older copy; these copies are listed newest first.
-/

namespace PasswordVault

inductive CipherKind where
  | login
  | secureNote
  | card
  | identity
  | sshKey
deriving DecidableEq, Repr

def CipherKind.words : List (String × CipherKind) :=
  [("login", .login), ("secure_note", .secureNote), ("card", .card), ("identity", .identity),
    ("ssh_key", .sshKey)]

/-- The content of an item. -/
structure CipherContent where
  accountId : String
  cipherId : String
  folderId : Option String := none
  organizationId : Option String := none
  revisionDate : Instant
  deletedDate : Option Instant := none
  kind : CipherKind
  name : Option String := none
  notes : Option String := none
  favorite : Bool := false
  fields : List CustomField := []
  tags : List Tag := []
  login : Option Login := none
  card : Option Card := none
  identity : Option Identity := none
  secureNote : Option SecureNote := none
  sshKey : Option SshKey := none
  key : Option String := none
deriving DecidableEq

/-- An item with the server copies it descends from, the newest first. -/
structure VaultCipher extends CipherContent where
  synced : List CipherContent := []
deriving DecidableEq

namespace VaultCipher

def new (accountId cipherId : String) (kind : CipherKind) (now : Instant) : VaultCipher :=
  { accountId, cipherId, kind, revisionDate := now }

/-- The server copy that an item was last synced with. -/
def remoteEntity? (c : VaultCipher) : Option VaultCipher :=
  match c.synced with
  | [] => none
  | copy :: older => some { toCipherContent := copy, synced := older }

/-- An item without the copies it descends from. -/
def detached (c : VaultCipher) : VaultCipher := { c with synced := [] }

/-! ## JSON -/

def fieldNames : List String :=
  ["account_id", "cipher_id", "folder_id", "organization_id", "revision_date", "deleted_date",
   "kind", "name", "notes", "favorite", "fields", "tags", "login", "card", "identity",
   "secure_note", "ssh_key", "key", "remote_entity"]

/-- The content as values in the order of the fields. -/
def contentValues (c : CipherContent) : List Json :=
  [.string c.accountId, .string c.cipherId, .optString c.folderId, .optString c.organizationId,
    c.revisionDate.toJson, .optInstant c.deletedDate, .wordOf CipherKind.words c.kind, .optString c.name,
    .optString c.notes, .bool c.favorite, .array (c.fields.map CustomField.toJson),
    .array (c.tags.map Tag.toJson), optional Login.toJson c.login, optional Card.toJson c.card,
    optional Identity.toJson c.identity, optional SecureNote.toJson c.secureNote,
    optional SshKey.toJson c.sshKey, .optString c.key]
where
  /-- A part, or null for none. -/
  optional {α : Type} (f : α → Json) : Option α → Json
    | some a => f a
    | none => .null

/-- An item as JSON, each copy within the one that descends from it. -/
def chainToJson (c : CipherContent) : List CipherContent → Json
  | [] => .object (fieldNames.zip (contentValues c ++ [.null]))
  | copy :: older => .object (fieldNames.zip (contentValues c ++ [chainToJson copy older]))

def toJson (c : VaultCipher) : Json := chainToJson c.toCipherContent c.synced

/-- An item with the copy that is recorded in it. -/
def withCopy (content : CipherContent) : Option VaultCipher → VaultCipher
  | none => { toCipherContent := content }
  | some copy => { toCipherContent := content, synced := copy.toCipherContent :: copy.synced }

def reader : Json.Reader VaultCipher
  | 0, _ => none
  | depth + 1, j =>
    Json.Reader.record (fieldNames.map fun name => [name]) (fun depth' fields =>
      match fields with
      | [accountId, cipherId, folderId, organizationId, revisionDate, deletedDate, kind, name,
          notes, favorite, fields, tags, login, card, identity, secureNote, sshKey, key,
          remoteEntity] => do
        let content : CipherContent := {
          accountId := ← accountId.required .text depth'
          cipherId := ← cipherId.required .text depth'
          folderId := ← folderId.optional .text depth'
          organizationId := ← organizationId.optional .text depth'
          revisionDate := ← revisionDate.required Instant.reader depth'
          deletedDate := ← deletedDate.optional Instant.reader depth'
          kind := ← kind.required (.choice CipherKind.words) depth'
          name := ← name.optional .text depth'
          notes := ← notes.optional .text depth'
          favorite := ← favorite.required .bool depth'
          fields := ← fields.withDefault [] (.list CustomField.reader) depth'
          tags := ← tags.withDefault [] (.list Tag.reader) depth'
          login := ← login.optional Login.reader depth'
          card := ← card.optional Card.reader depth'
          identity := ← identity.optional Identity.reader depth'
          secureNote := ← secureNote.optional SecureNote.reader depth'
          sshKey := ← sshKey.optional SshKey.reader depth'
          key := ← key.optional .text depth' }
        return withCopy content (← remoteEntity.optional (fun _ j => reader depth j) depth')
      | _ => none) (depth + 1) j

end VaultCipher
end PasswordVault
