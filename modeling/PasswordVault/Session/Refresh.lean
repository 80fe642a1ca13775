import PasswordVault.Session.Account
import PasswordVault.Session.Error

/-!
# Refreshing tokens on demand

An operation is run with a token that has not expired. An expired token is refreshed first; one that
the server rejects is refreshed once, and the operation is run again.

Refresh tokens may be spent only once, so refreshes of one account come one after the other, and what
the last one gave is kept in the slot of the account. Whoever comes later with another token than the
one in the slot takes the account from there.

* `withValidToken`: one use of a token from start to end.
* `TokenUse`: what one use of a token has to do next, for callers that wait for each other.
-/

namespace PasswordVault

/-- The account that the last refresh gave, by the id of the account that was refreshed. -/
abbrev RefreshSlots := List (String × Account)

namespace RefreshSlots

def get? (slots : RefreshSlots) (id : String) : Option Account := slots.lookup id

def set (slots : RefreshSlots) (id : String) (a : Account) : RefreshSlots :=
  (id, a) :: slots.filter fun s => s.1 ≠ id

/-- The account in a slot, if it can stand in for a refresh: its token is valid and another. -/
def reusable? (slots : RefreshSlots) (current : Account) (now : Instant) : Option Account :=
  (slots.get? current.id).filter fun a =>
    a.token.any (fun t => ! t.isExpired now) && a.token != current.token

end RefreshSlots

/-! ## One use of a token -/

/-- What one use of a token has to do next. `rejected` tells whether the server has rejected a token
before. -/
inductive TokenUse (α : Type) where
  /-- The token of an account has to be refreshed. -/
  | refresh (current : Account) (rejected : Bool)
  /-- The operation has to be run with an account. -/
  | operate (latest : Account) (rejected : Bool)
  /-- Nothing is left to do. -/
  | done (result : Except SessionError α)

namespace TokenUse

variable {α : Type}

/-- The start: an expired token is refreshed first. -/
def start (a : Account) (now : Instant) : TokenUse α :=
  if a.isExpired now then .refresh a false else .operate a false

/-- After a refresh: the operation follows, or the failure is the result. -/
def afterRefresh (rejected : Bool) : Except SessionError Account → TokenUse α
  | .ok latest => .operate latest rejected
  | .error e => .done (.error e)

/-- After the operation: its outcome is the result, unless a token was rejected for the first time. -/
def afterOperation (latest : Account) (rejected : Bool) : Except SessionError α → TokenUse α
  | .error .unauthorized =>
    if latest.token.isSome ∧ rejected = false then .refresh latest true else .done (.error .unauthorized)
  | outcome => .done outcome

end TokenUse

/-! ## Running it -/

/-- A way to get an account a new token, and to note what was done. -/
abbrev Refresher (σ : Type) := Account → StateM σ (Except SessionError Account)

variable {σ α : Type}

/-- The account in the slot if it can stand in, else a refreshed one, which is put into the slot. A
failure leaves the slot as it is. -/
def refreshOnce (refresher : Refresher σ) (now : Instant) (current : Account) :
    StateM (σ × RefreshSlots) (Except SessionError Account) := fun (s, slots) =>
  match slots.reusable? current now with
  | some a => (.ok a, (s, slots))
  | none =>
    match refresher current s with
    | (.ok a, s) => (.ok a, (s, slots.set current.id a))
    | (.error e, s) => (.error e, (s, slots))

/-- The outcome of an operation that is run with a valid token of an account. -/
def withValidToken (refresher : Refresher σ) (now : Instant)
    (operation : Account → StateM σ (Except SessionError α)) (a : Account) :
    StateM (σ × RefreshSlots) (Except SessionError α) := do
  let operate (latest : Account) : StateM (σ × RefreshSlots) (Except SessionError α) := fun (s, slots) =>
    let (outcome, s) := operation latest s
    (outcome, (s, slots))
  match ← if a.isExpired now then refreshOnce refresher now a else pure (.ok a) with
  | .error e => return .error e
  | .ok latest =>
    match ← operate latest with
    | .error .unauthorized =>
      if latest.token.isSome then
        match ← refreshOnce refresher now latest with
        | .error e => return .error e
        | .ok latest => operate latest
      else return .error .unauthorized
    | outcome => return outcome

end PasswordVault
