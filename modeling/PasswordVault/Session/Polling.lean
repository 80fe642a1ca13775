import PasswordVault.Http
import PasswordVault.Json.Parser
import PasswordVault.Session.Account
import PasswordVault.Session.Error
import PasswordVault.Session.Notification

/-!
# Polling for notifications

A connection to a server is a row of requests, each of which the server answers when there is something
to tell or after a while. `Poll.read` says what one reply means, `Poll.follow` what a row of replies
does.
-/

namespace PasswordVault
namespace Poll

def request (a : Account) (accessToken : String) : Http.Request where
  method := .get
  url := Http.address a.serverUrl "/notifications/poll"
  authorization := some ("Bearer " ++ accessToken)

/-- The notifications in a reply, or none if the server has ended the session. -/
def read : Http.Reply → Except SessionError (Option (List Notification))
  | .broken => .error (.transport "the connection broke")
  | .response 200 body =>
    match (Json.Reader.list Notification.reader).run? body with
    | some messages => .ok (some messages)
    | none => .error (.transport "Invalid notification: the body is no list of notifications")
  | .cut 200 => .error (.transport "Invalid notification: the body breaks off")
  -- Only the list of a success and the message of a failure are looked at.
  | .response 204 _ | .cut 204 => .ok (some [])
  | .response 410 _ | .cut 410 => .ok none
  | .response 401 _ | .cut 401 => .error .unauthorized
  | .response status body => .error (.http status body)
  | .cut status => .error (.http status Http.unknownBody)

/-- What came of a connection: the notifications, the number of requests, and the outcome, which is
missing while the connection lasts. -/
structure Followed where
  messages : List Notification := []
  requests : Nat := 0
  outcome : Option (Except SessionError Unit) := none

/-- A connection that gets the given replies. -/
def follow : List Http.Reply → Followed
  | [] => {}
  | reply :: rest =>
    match read reply with
    | .ok (some messages) =>
      let later := follow rest
      { later with messages := messages ++ later.messages, requests := later.requests + 1 }
    | .ok none => { requests := 1, outcome := some (.ok ()) }
    | .error e => { requests := 1, outcome := some (.error e) }

/-- A connection for an account that gets the given replies. Without a token, or with one that cannot be
sent, no request is made. -/
def connect (a : Account) (replies : List Http.Reply) : Followed :=
  match a.accessToken? with
  | none => { outcome := some (.error .unauthorized) }
  | some accessToken =>
    if Http.isHeaderText accessToken then follow replies
    else { outcome := some (.error (.transport "the token cannot stand in a header")) }

end Poll
end PasswordVault
