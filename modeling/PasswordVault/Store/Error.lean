import PasswordVault.CryptoError

/-!
# Errors of the store

What can go wrong with the file itself is kept apart from what goes wrong with the rows in it.
-/

namespace PasswordVault

inductive StorageFault where
  | notADatabase
  | noSuchTable
  | cannotOpen
deriving DecidableEq, Repr

def StorageFault.message : StorageFault → String
  | .notADatabase => "file is not a database"
  | .noSuchTable => "no such table: entities"
  | .cannotOpen => "unable to open database file"

inductive StoreError where
  | storage (fault : StorageFault)
  | crypto (e : CryptoError)
  | serialization (reason : String)
  | settings (reason : String)
  | notADatabase
  | openFailed (attempts : Nat) (lastError : String)
  | task (reason : String)
  | io (reason : String)
deriving DecidableEq, Repr

namespace StoreError

def message : StoreError → String
  | .storage fault => "SQLite error: " ++ fault.message
  | .crypto e => "Crypto error: " ++ e.message
  | .serialization reason => "Serialization error: " ++ reason
  | .settings reason => "Settings error: " ++ reason
  | .notADatabase => "File is not a database or the key is wrong"
  | .openFailed attempts lastError =>
    s!"Failed to open the database after {attempts} attempts: {lastError}"
  | .task reason => "Database task failed: " ++ reason
  | .io reason => "IO error: " ++ reason

/-- Whether the file is no store, or no store of this key. -/
def isNotADatabase : StoreError → Bool
  | .notADatabase | .storage .notADatabase => true
  | _ => false

end StoreError
end PasswordVault
