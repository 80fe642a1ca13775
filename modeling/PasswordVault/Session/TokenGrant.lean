import PasswordVault.Http
import PasswordVault.Http.Form
import PasswordVault.Json.Parser
import PasswordVault.Session.Account
import PasswordVault.Session.Error

/-!
# Token grants

How a server is asked for a new token, and what its reply means for the account.
-/

namespace PasswordVault

/-- What a server grants: tokens, and for how many seconds the access token is valid. -/
structure TokenGrant where
  accessToken : String
  refreshToken : Option String
  expiresIn : Int
deriving DecidableEq

namespace TokenGrant

def reader : Json.Reader TokenGrant :=
  Json.Reader.record [["access_token"], ["refresh_token"], ["expires_in"]] fun depth fields =>
    match fields with
    | [accessToken, refreshToken, expiresIn] => do
      return {
        accessToken := ← accessToken.required .text depth
        refreshToken := ← refreshToken.optional .text depth
        expiresIn := ← expiresIn.required .int64 depth }
    | _ => none

def request (a : Account) (t : AccountToken) (clientId : String) : Http.Request where
  method := .post
  url := Http.address a.serverUrl "/identity/connect/token"
  contentType := some Http.formType
  body := Http.formBody
    [("grant_type", "refresh_token"), ("client_id", clientId), ("refresh_token", t.refreshToken)]

/-- The grant in a reply. -/
def read : Http.Reply → Except SessionError TokenGrant
  | .broken => .error (.transport "the connection broke")
  | .response status body =>
    if Http.isSuccess status then
      match reader.run? body with
      | some grant => .ok grant
      | none => .error (.tokenRefresh "Invalid token response: the body is no grant")
    else .error (.tokenRefresh (Http.statusText status ++ ": " ++ body))
  | .cut status =>
    if Http.isSuccess status then .error (.tokenRefresh "Invalid token response: the body breaks off")
    else .error (.tokenRefresh (Http.statusText status ++ ": " ++ Http.unknownBody))

/-- The token that a grant gives in place of another. Where none is granted, the refresh token stays. There
is no token if it would expire beyond the last date. -/
def token? (g : TokenGrant) (old : AccountToken) (now : Instant) : Option AccountToken := do
  return ⟨g.accessToken, g.refreshToken.getD old.refreshToken, ← now.addSeconds? g.expiresIn⟩

/-- The outcome of a refresh that got a reply. There is none at all if the granted time leads beyond the
dates that there are. -/
def outcome? (a : Account) (old : AccountToken) (now : Instant) (reply : Http.Reply) :
    Option (Except SessionError Account) :=
  match read reply with
  | .error e => some (.error e)
  | .ok grant => (grant.token? old now).map fun t => .ok { a with token := some t }

/-- The outcome of a refresh of an account that gets a reply to its request. Without a token there is
nothing to send. -/
def refresh? (a : Account) (now : Instant) (reply : Http.Reply) : Option (Except SessionError Account) :=
  match a.token with
  | some old => outcome? a old now reply
  | none => some (.error (.tokenRefresh s!"Account {a.id} has no refresh token"))

end TokenGrant
end PasswordVault
