import PasswordVault.Instant

/-!
# Parts of a cipher

What a vault item may hold beside its name and notes: custom fields, tags, a login, a card, an
identity, a note and an SSH key, each with its form in JSON.
-/

namespace PasswordVault

/-! ## Records of optional texts -/

namespace Json

/-- The reader of a record whose fields are all texts that may be left out. -/
def Reader.texts {α : Type} (names : List String) (build : List (Option String) → Option α) : Reader α :=
  Reader.record (names.map fun name => [name]) fun depth fields => do
    build (← fields.mapM fun field => field.optional Reader.text depth)

def ofTexts (names : List String) (values : List (Option String)) : Json :=
  .object (names.zip (values.map optString))

def wordOf {α : Type} [DecidableEq α] (words : List (String × α)) (value : α) : Json :=
  match words.find? fun w => w.2 = value with
  | some (word, _) => .string word
  | none => .null

end Json

/-! ## Custom fields and tags -/

inductive FieldKind where
  | text
  | hidden
  | boolean
  | linked
deriving DecidableEq, Repr

def FieldKind.words : List (String × FieldKind) :=
  [("text", .text), ("hidden", .hidden), ("boolean", .boolean), ("linked", .linked)]

structure CustomField where
  name : Option String
  value : Option String
  kind : FieldKind
deriving DecidableEq

namespace CustomField

def reader : Json.Reader CustomField :=
  Json.Reader.record [["name"], ["value"], ["kind"]] fun depth fields =>
    match fields with
    | [name, value, kind] => do
      return {
        name := ← name.optional .text depth
        value := ← value.optional .text depth
        kind := ← kind.required (.choice FieldKind.words) depth }
    | _ => none

def toJson (f : CustomField) : Json :=
  .object [("name", .optString f.name), ("value", .optString f.value), ("kind", .wordOf FieldKind.words f.kind)]

end CustomField

structure Tag where
  name : String
deriving DecidableEq

namespace Tag

def reader : Json.Reader Tag :=
  Json.Reader.record [["name"]] fun depth fields =>
    match fields with
    | [name] => do return { name := ← name.required .text depth }
    | _ => none

def toJson (t : Tag) : Json := .object [("name", .string t.name)]

end Tag

/-! ## Logins -/

inductive UriMatch where
  | domain
  | host
  | startsWith
  | exact
  | regularExpression
  | never
deriving DecidableEq, Repr

def UriMatch.words : List (String × UriMatch) :=
  [("domain", .domain), ("host", .host), ("starts_with", .startsWith), ("exact", .exact),
    ("regular_expression", .regularExpression), ("never", .never)]

structure LoginUri where
  uri : Option String
  matchType : Option UriMatch
deriving DecidableEq

namespace LoginUri

def reader : Json.Reader LoginUri :=
  Json.Reader.record [["uri"], ["match_type"]] fun depth fields =>
    match fields with
    | [uri, matchType] => do
      return {
        uri := ← uri.optional .text depth
        matchType := ← matchType.optional (.choice UriMatch.words) depth }
    | _ => none

def toJson (u : LoginUri) : Json :=
  .object [("uri", .optString u.uri),
    ("match_type", match u.matchType with | some m => .wordOf UriMatch.words m | none => .null)]

end LoginUri

def Json.optInstant : Option Instant → Json
  | some t => t.toJson
  | none => .null

structure PasswordHistory where
  password : String
  lastUsedDate : Option Instant
deriving DecidableEq

namespace PasswordHistory

def reader : Json.Reader PasswordHistory :=
  Json.Reader.record [["password"], ["last_used_date"]] fun depth fields =>
    match fields with
    | [password, lastUsedDate] => do
      return {
        password := ← password.required .text depth
        lastUsedDate := ← lastUsedDate.optional Instant.reader depth }
    | _ => none

def toJson (h : PasswordHistory) : Json :=
  .object [("password", .string h.password), ("last_used_date", .optInstant h.lastUsedDate)]

end PasswordHistory

structure Login where
  username : Option String := none
  password : Option String := none
  passwordRevisionDate : Option Instant := none
  passwordHistory : List PasswordHistory := []
  uris : List LoginUri := []
  totp : Option String := none
deriving DecidableEq

namespace Login

def reader : Json.Reader Login :=
  Json.Reader.record
      [["username"], ["password"], ["password_revision_date"], ["password_history"], ["uris"], ["totp"]]
      fun depth fields =>
    match fields with
    | [username, password, passwordRevisionDate, passwordHistory, uris, totp] => do
      return {
        username := ← username.optional .text depth
        password := ← password.optional .text depth
        passwordRevisionDate := ← passwordRevisionDate.optional Instant.reader depth
        passwordHistory := ← passwordHistory.withDefault [] (.list PasswordHistory.reader) depth
        uris := ← uris.withDefault [] (.list LoginUri.reader) depth
        totp := ← totp.optional .text depth }
    | _ => none

def toJson (l : Login) : Json :=
  .object [("username", .optString l.username), ("password", .optString l.password),
    ("password_revision_date", .optInstant l.passwordRevisionDate),
    ("password_history", .array (l.passwordHistory.map PasswordHistory.toJson)),
    ("uris", .array (l.uris.map LoginUri.toJson)), ("totp", .optString l.totp)]

end Login

/-! ## Cards, identities, notes and SSH keys -/

structure Card where
  cardholderName : Option String := none
  brand : Option String := none
  number : Option String := none
  expMonth : Option String := none
  expYear : Option String := none
  code : Option String := none
deriving DecidableEq

namespace Card

def fieldNames : List String :=
  ["cardholder_name", "brand", "number", "exp_month", "exp_year", "code"]

def reader : Json.Reader Card :=
  Json.Reader.texts fieldNames fun values =>
    match values with
    | [cardholderName, brand, number, expMonth, expYear, code] =>
      some {
        cardholderName, brand, number, expMonth, expYear, code }
    | _ => none

def toJson (v : Card) : Json :=
  Json.ofTexts fieldNames
    [v.cardholderName, v.brand, v.number, v.expMonth, v.expYear, v.code]

end Card

/-- Personal details. -/
structure Identity where
  title : Option String := none
  firstName : Option String := none
  middleName : Option String := none
  lastName : Option String := none
  address1 : Option String := none
  address2 : Option String := none
  address3 : Option String := none
  city : Option String := none
  state : Option String := none
  postalCode : Option String := none
  country : Option String := none
  company : Option String := none
  email : Option String := none
  phone : Option String := none
  ssn : Option String := none
  username : Option String := none
  passportNumber : Option String := none
  licenseNumber : Option String := none
deriving DecidableEq

namespace Identity

def fieldNames : List String :=
  ["title", "first_name", "middle_name", "last_name", "address1", "address2", "address3", "city",
   "state", "postal_code", "country", "company", "email", "phone", "ssn", "username",
   "passport_number", "license_number"]

def reader : Json.Reader Identity :=
  Json.Reader.texts fieldNames fun values =>
    match values with
    | [title, firstName, middleName, lastName, address1, address2, address3, city, state,
        postalCode, country, company, email, phone, ssn, username, passportNumber, licenseNumber] =>
      some {
        title, firstName, middleName, lastName, address1, address2, address3, city, state,
        postalCode, country, company, email, phone, ssn, username, passportNumber, licenseNumber }
    | _ => none

def toJson (v : Identity) : Json :=
  Json.ofTexts fieldNames
    [v.title, v.firstName, v.middleName, v.lastName, v.address1, v.address2, v.address3, v.city,
     v.state, v.postalCode, v.country, v.company, v.email, v.phone, v.ssn, v.username,
     v.passportNumber, v.licenseNumber]

end Identity

inductive SecureNoteKind where
  | generic
deriving DecidableEq, Repr

def SecureNoteKind.words : List (String × SecureNoteKind) := [("generic", .generic)]

structure SecureNote where
  kind : SecureNoteKind := .generic
deriving DecidableEq

namespace SecureNote

def reader : Json.Reader SecureNote :=
  Json.Reader.record [["kind"]] fun depth fields =>
    match fields with
    | [kind] => do return { kind := ← kind.required (.choice SecureNoteKind.words) depth }
    | _ => none

def toJson (n : SecureNote) : Json := .object [("kind", .wordOf SecureNoteKind.words n.kind)]

end SecureNote

structure SshKey where
  privateKey : Option String := none
  publicKey : Option String := none
  fingerprint : Option String := none
deriving DecidableEq

namespace SshKey

def fieldNames : List String :=
  ["private_key", "public_key", "fingerprint"]

def reader : Json.Reader SshKey :=
  Json.Reader.texts fieldNames fun values =>
    match values with
    | [privateKey, publicKey, fingerprint] =>
      some {
        privateKey, publicKey, fingerprint }
    | _ => none

def toJson (v : SshKey) : Json :=
  Json.ofTexts fieldNames
    [v.privateKey, v.publicKey, v.fingerprint]

end SshKey

end PasswordVault
