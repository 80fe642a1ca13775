import PasswordVault.Instant
import PasswordVault.Text.Quoted

/-!
# Accounts

An account signs in to a server with a token that expires. A token counts as expired a little early, so
that it is not rejected on the way.
-/

namespace PasswordVault

/-- What lets an account in, and what gets it a new one. -/
structure AccountToken where
  accessToken : String
  refreshToken : String
  expirationDate : Instant
deriving DecidableEq

namespace AccountToken

/-- How many seconds before its end a token counts as expired. -/
def expirySkew : Nat := 60

def isExpired (t : AccountToken) (now : Instant) : Bool := t.expirationDate.isWithin expirySkew now

def describe (t : AccountToken) : String :=
  "AccountToken \x7b access_token: \"<redacted>\", refresh_token: \"<redacted>\", expiration_date: "
    ++ t.expirationDate.toText ++ " \x7d"

def reader : Json.Reader AccountToken :=
  Json.Reader.record [["access_token"], ["refresh_token"], ["expiration_date"]] fun depth fields =>
    match fields with
    | [accessToken, refreshToken, expirationDate] => do
      return {
        accessToken := ← accessToken.required .text depth
        refreshToken := ← refreshToken.required .text depth
        expirationDate := ← expirationDate.required Instant.reader depth }
    | _ => none

def toJson (t : AccountToken) : Json :=
  .object [("access_token", .string t.accessToken), ("refresh_token", .string t.refreshToken),
    ("expiration_date", t.expirationDate.toJson)]

end AccountToken

/-- A signed-in account. Two accounts are equal only if their tokens are. -/
structure Account where
  id : String
  serverUrl : String
  token : Option AccountToken
deriving DecidableEq

namespace Account

def accessToken? (a : Account) : Option String := a.token.map (·.accessToken)

/-- Whether an account has a token and that token counts as expired. -/
def isExpired (a : Account) (now : Instant) : Bool :=
  match a.token with
  | some t => t.isExpired now
  | none => false

def describe (a : Account) : String :=
  let token := match a.token with
    | some t => "Some(" ++ t.describe ++ ")"
    | none => "None"
  "Account \x7b id: " ++ Text.quoted a.id ++ ", server_url: " ++ Text.quoted a.serverUrl ++ ", token: "
    ++ token ++ " \x7d"

def reader : Json.Reader Account :=
  Json.Reader.record [["id"], ["server_url"], ["token"]] fun depth fields =>
    match fields with
    | [id, serverUrl, token] => do
      return {
        id := ← id.required .text depth
        serverUrl := ← serverUrl.required .text depth
        token := ← token.optional AccountToken.reader depth }
    | _ => none

def toJson (a : Account) : Json :=
  .object [("id", .string a.id), ("server_url", .string a.serverUrl),
    ("token", match a.token with | some t => t.toJson | none => .null)]

def rowKind : String := "account"

end Account
end PasswordVault
