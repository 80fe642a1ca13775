import PasswordVault.Json.Record

/-!
# Notifications

What a server pushes to a client. A notification of any type means that something of the account has
changed; its payload is not looked at.
-/

namespace PasswordVault

structure Notification where
  kind : Int
  payload : Json := .null
deriving DecidableEq

namespace Notification

def reader : Json.Reader Notification :=
  Json.Reader.record [["type"], ["payload"]] fun depth fields =>
    match fields with
    | [kind, payload] => do
      return {
        kind := ← kind.required .int32 depth
        payload := ← payload.withDefault .null .free depth }
    | _ => none

end Notification
end PasswordVault
