import PasswordVault.Store
import PasswordVault.Store.Folder

/-!
# The manager of the store

The manager opens the store on first use and keeps it open. Opening is tried several times with longer
and longer waits between; a file that the key does not open is replaced by an empty store, for the
store only caches what the server has. Whoever changes the store holds a lock, so changes never
interleave; `StoreManager.takeTurns` gives the times at which they end.
-/

namespace PasswordVault

/-! ## Opening -/

/-- A file opened under a master key, where a file that is no store of this key is replaced by an empty
one: the keys of its rows, and the file as it is from then on. -/
def StoreFile.unlockOrReplace (file : StoreFile) (masterKey : MasterKey) (fresh : Envelope.Fresh) :
    Except StoreError SymmetricKey × StoreFile :=
  match file.unlock masterKey fresh with
  | (.error e, after) => if e.isNotADatabase then StoreFile.blank.unlock masterKey fresh else (.error e, after)
  | opened => opened

def openPause (attempt : Nat) : Nat := 100 * attempt

/-- What came of opening: the result, the state afterwards, and the milliseconds spent waiting. -/
structure Opening (σ α : Type) where
  result : Except StoreError α
  after : σ
  waited : Nat

/-- Attempts at a step from number `attempt` on until one succeeds, `more` of them after the first. -/
def attemptsFrom {σ α : Type} (step : σ → Except StoreError α × σ) (total : Nat) :
    (more attempt : Nat) → σ → Opening σ α
  | 0, _, s =>
    match step s with
    | (.ok a, s) => ⟨.ok a, s, 0⟩
    | (.error e, s) => ⟨.error (.openFailed total e.message), s, 0⟩
  | more + 1, attempt, s =>
    match step s with
    | (.ok a, s) => ⟨.ok a, s, 0⟩
    | (.error _, s) =>
      let later := attemptsFrom step total more (attempt + 1) s
      { later with waited := openPause attempt + later.waited }

/-- At least one attempt at a step, and at most the given number. -/
def withAttempts {σ α : Type} (attempts : Nat) (step : σ → Except StoreError α × σ) (s : σ) :
    Opening σ α :=
  attemptsFrom step (max 1 attempts) (max 1 attempts - 1) 1 s

/-- A store in a tree of folders opened at a path. The folders on the way are made. -/
def Folder.openStore (path : Path) (masterKey : MasterKey) (fresh : Envelope.Fresh) (t : Folder) :
    Except StoreError SymmetricKey × Folder :=
  match t.makeFolders path.dropLast with
  | .error e => (.error e, t)
  | .ok t =>
    match t.openFile path with
    | .error e => (.error e, t)
    | .ok file =>
      let (key, file) := file.unlockOrReplace masterKey fresh
      (key, t.insert path (.file file))

/-! ## The manager -/

inductive StorePlace where
  | memory
  | path (path : Path)
deriving DecidableEq

/-- A manager. An open store is known by its keys, and by its content if it is kept in memory. -/
structure StoreManager where
  place : StorePlace
  attempts : Nat := 3
  masterKey : MasterKey
  opened : Option (SymmetricKey × StoreFile) := none

namespace StoreManager

/-- The store that a manager holds open, as its file stands now. -/
def store? (m : StoreManager) (t : Folder) : Option Store :=
  m.opened.map fun (key, file) =>
    match m.place with
    | .memory => ⟨key, file⟩
    | .path p =>
      -- The file may have been changed behind an open store.
      match t.entry? p with
      | some (.file file) => ⟨key, file⟩
      | _ => ⟨key, file⟩

/-- The manager and the tree after the open store has become another. -/
def keep (m : StoreManager) (t : Folder) (s : Store) : StoreManager × Folder :=
  ({ m with opened := some (s.key, s.file) },
    match m.place with
    | .memory => t
    | .path p => t.insert p (.file s.file))

/-- One attempt to open the store. -/
def openOnce (m : StoreManager) (fresh : Envelope.Fresh) (t : Folder) : Except StoreError Store × Folder :=
  match m.place with
  | .memory => (Store.inMemory m.masterKey fresh, t)
  | .path p =>
    match t.openStore p m.masterKey fresh with
    | (.error e, t) => (.error e, t)
    | (.ok key, t) =>
      match t.entry? p with
      | some (.file file) => (.ok ⟨key, file⟩, t)
      | _ => (.ok ⟨key, .blank⟩, t)

/-- The open store, opened on first use, with the manager, the tree and the milliseconds spent. -/
def get (m : StoreManager) (fresh : Envelope.Fresh) (t : Folder) :
    Opening (StoreManager × Folder) Store :=
  match m.store? t with
  | some s => ⟨.ok s, (m, t), 0⟩
  | none =>
    let opening := withAttempts m.attempts (m.openOnce fresh) t
    match opening.result with
    | .ok s => ⟨.ok s, m.keep opening.after s, opening.waited⟩
    | .error e => ⟨.error e, (m, opening.after), opening.waited⟩

/-- What a block of changes to the open store gives, with the manager and the tree afterwards. The block
runs to its end before another one starts. -/
def mutate {α : Type} (m : StoreManager) (fresh : Envelope.Fresh) (t : Folder) (block : Store → α × Store) :
    Opening (StoreManager × Folder) α :=
  let opening := m.get fresh t
  match opening.result with
  | .error e => { opening with result := .error e }
  | .ok s =>
    let (a, s) := block s
    ⟨.ok a, opening.after.1.keep opening.after.2 s, opening.waited⟩

/-! ## Taking turns -/

/-- The times at which tasks end that hold the lock for given times, if they ask for it in this order at
the start. -/
def takeTurns (start : Nat) : (holds : List Nat) → List Nat
  | [] => []
  | hold :: rest => (start + hold) :: takeTurns (start + hold) rest

end StoreManager
end PasswordVault
