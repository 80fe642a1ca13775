import PasswordVault.Session.Error

/-!
# Errors of the vault

All errors under one type, with the key of the text that the user sees.
-/

namespace PasswordVault

inductive VaultError where
  | crypto (e : CryptoError)
  | store (e : StoreError)
  | session (e : SessionError)
  | invalidInput (reason : String)
  | io (reason : String)
deriving DecidableEq, Repr

namespace VaultError

def message : VaultError → String
  | .crypto e => "Crypto error: " ++ e.message
  | .store e => "Database error: " ++ e.message
  | .session e => "Session error: " ++ e.message
  | .invalidInput reason => "Invalid input: " ++ reason
  | .io reason => "IO error: " ++ reason

def userMessage : VaultError → String
  | .crypto e => e.userMessage
  | .store (.crypto e) => e.userMessage
  | .store _ => "error_database"
  | .session .unauthorized => "error_session_expired"
  | .session _ => "error_network"
  | .invalidInput _ => "error_generic"
  | .io _ => "error_generic"

end VaultError
end PasswordVault
