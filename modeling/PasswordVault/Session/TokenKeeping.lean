import PasswordVault.Session.Refresh
import PasswordVault.Store.Manager

/-!
# Keeping refreshed tokens

A refreshed account is written to the store and replaces the accounts with its id in the list that is
in use. If the refresh or the write fails, neither changes.

* `keepRefreshed`: the store and the list after a refresh.
* `Refresher.keeping`: a refresher that keeps what another one gives, in the store of a manager.
-/

namespace PasswordVault

namespace Account

/-- A list of accounts in which an account replaces those with its id. -/
def publish (refreshed : Account) (accounts : List Account) : List Account :=
  accounts.map fun a => if a.id = refreshed.id then refreshed else a

end Account

/-- The store and the list in use after an account was refreshed, with the outcome. -/
def keepRefreshed (outcome : Except SessionError Account) (s : Store) (accounts : List Account)
    (fresh : Envelope.Fresh) : Except SessionError (Account × Store × List Account) := do
  let refreshed ← outcome
  let s ← (s.put Account.rowKind refreshed.id refreshed.toJson fresh).mapError .store
  return (refreshed, s, refreshed.publish accounts)

/-! ## A refresher that keeps -/

/-- What a refresh meets: what is drawn to open the store and to seal the row, and the failure of the
storage that the write runs into, if there is one. -/
structure Circumstances where
  opening : Envelope.Fresh
  sealing : Envelope.Fresh
  failure : Option StoreError := none

/-- The list in use after a refreshed account was kept in an open store, and the store from then on. A
write that fails changes nothing. -/
def Circumstances.keep (met : Circumstances) (refreshed : Account) (accounts : List Account) (s : Store) :
    Except SessionError (List Account) × Store :=
  match keepRefreshed (.ok refreshed) s accounts met.sealing, met.failure with
  | .error e, _ => (.error e, s)
  | .ok _, some e => (.error (.store e), s)
  | .ok (_, s, accounts), none => (.ok accounts, s)

/-- What a refresher has that keeps what it gets: the state of the refresher that it asks, the store with
the folders around it, the list in use, and what the next refreshes will meet. -/
structure TokenKeeper (σ : Type) where
  inner : σ
  manager : StoreManager
  folder : Folder
  accounts : List Account
  ahead : Nat → Circumstances

/-- The refresher that asks another one, and keeps what that gives. -/
def Refresher.keeping {σ : Type} (refresher : Refresher σ) : Refresher (TokenKeeper σ) := fun a k =>
  match refresher a k.inner with
  | (.error e, inner) => (.error e, { k with inner })
  | (.ok refreshed, inner) =>
    let met := k.ahead 0
    let mutation := k.manager.mutate met.opening k.folder (met.keep refreshed k.accounts)
    let (manager, folder) := mutation.after
    let k := { k with inner, manager, folder, ahead := fun n => k.ahead (n + 1) }
    match mutation.result with
    | .error e => (.error (.store e), k)
    | .ok (.error e) => (.error e, k)
    | .ok (.ok accounts) => (.ok refreshed, { k with accounts })

end PasswordVault
