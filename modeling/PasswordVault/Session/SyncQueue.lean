import PasswordVault.Instant
import PasswordVault.Store

/-!
# The queue of sync requests

Requests to sync wait in the store until a worker takes them. There is one row per scope, so a burst of
requests for one account is a single request.
-/

namespace PasswordVault

inductive SyncScope where
  | account (id : String)
  | all
deriving DecidableEq, Repr

namespace SyncScope

def rowId : SyncScope → String
  | .account id => id
  | .all => "*"

def toJson : SyncScope → Json
  | .account id => .object [("scope", .string "account"), ("account_id", .string id)]
  | .all => .object [("scope", .string "all")]

/-- The scope with a tag and what stands beside it. -/
def ofParts (tag : String) : Json.Field → Option SyncScope
  | .given (.string id) => if tag = "account" then some (.account id) else none
  | .given .null => if tag = "all" then some .all else none
  | .missing => if tag = "all" then some .all else none
  | _ => none

def tags : List (String × String) := [("account", "account"), ("all", "all")]

/-- The reader of a scope: an object with a tag, or an array of a tag and what belongs to it. -/
def reader : Json.Reader SyncScope :=
  Json.Reader.record [["scope"], ["account_id"]] fun depth fields =>
    match fields with
    | [scope, id] => do ofParts (← scope.required (.choice tags) depth) id
    | _ => none

end SyncScope

structure SyncRequest where
  scope : SyncScope
  requestedAt : Instant
deriving DecidableEq

namespace SyncRequest

def reader : Json.Reader SyncRequest :=
  Json.Reader.record [["scope"], ["requested_at"]] fun depth fields =>
    match fields with
    | [scope, requestedAt] => do
      return {
        scope := ← scope.required SyncScope.reader depth
        requestedAt := ← requestedAt.required Instant.reader depth }
    | _ => none

def toJson (r : SyncRequest) : Json :=
  .object [("scope", r.scope.toJson), ("requested_at", r.requestedAt.toJson)]

def rowKind : String := "sync_request"

end SyncRequest

namespace Store

def queueSync (s : Store) (scope : SyncScope) (now : Instant) (fresh : Envelope.Fresh) :
    Except StoreError Store :=
  s.put SyncRequest.rowKind scope.rowId (SyncRequest.toJson ⟨scope, now⟩) fresh

/-- The requests that wait, by the ids of their rows. -/
def pendingSyncs (s : Store) : Except StoreError (List SyncRequest) :=
  s.list SyncRequest.rowKind SyncRequest.reader

/-- The requests that wait, and the store without them. -/
def takeSyncs (s : Store) : Except StoreError (List SyncRequest × Store) := do
  let requests ← s.pendingSyncs
  let s ← requests.foldlM (fun s r => (·.2) <$> s.delete SyncRequest.rowKind r.scope.rowId) s
  return (requests, s)

end Store
end PasswordVault
