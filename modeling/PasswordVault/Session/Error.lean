import PasswordVault.Store.Error

/-!
# Errors of a session

Failures on the way to the server, and which of them are worth another attempt.
-/

namespace PasswordVault

inductive SessionError where
  | transport (reason : String)
  | http (status : Nat) (reason : String)
  | unauthorized
  | tokenRefresh (reason : String)
  | sync (reason : String)
  | store (e : StoreError)
deriving DecidableEq, Repr

namespace SessionError

def message : SessionError → String
  | .transport reason => "Transport error: " ++ reason
  | .http status reason => s!"Server returned {status}: {reason}"
  | .unauthorized => "Access token was rejected"
  | .tokenRefresh reason => "Token refresh failed: " ++ reason
  | .sync reason => "Sync failed: " ++ reason
  | .store e => "Database error: " ++ e.message

/-- Whether another attempt may succeed: the connection failed, the server asks for patience, or it
failed itself. -/
def canRetry : SessionError → Bool
  | .transport _ => true
  | .http status _ => status = 408 ∨ status = 429 ∨ 500 ≤ status ∧ status < 600
  | _ => false

end SessionError
end PasswordVault
