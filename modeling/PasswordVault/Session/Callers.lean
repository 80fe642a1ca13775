import PasswordVault.Session.Agenda
import PasswordVault.Session.Refresh

/-!
# Callers that share a token

Several callers use tokens at once. Each account has a lock, which a caller holds while it looks into the
slot and refreshes; the others queue and are served in order. `Callers.move` is one move of one caller,
and callers may move in any order. `Callers.runAll` lets them move as they become ready, where a refresh
takes some time.
-/

namespace PasswordVault

/-- Where a caller stands. -/
inductive Caller (α : Type) where
  /-- It is free to do what its use of a token asks for. -/
  | acting (use : TokenUse α)
  /-- It waits for the lock, to refresh an account. -/
  | queued (current : Account) (rejected : Bool)
  /-- It holds the lock and has not yet looked into the slot. -/
  | holding (current : Account) (rejected : Bool)
  /-- It holds the lock while the refresh of an account is under way. -/
  | refreshing (current : Account) (rejected : Bool) (outcome : Except SessionError Account)

/-- What follows a move of a caller. -/
inductive AfterMove where
  /-- The caller can move on at once. -/
  | goOn
  /-- The caller waits for the end of a refresh. -/
  | pause
  /-- The caller waits for the lock, or is done. -/
  | stop
deriving DecidableEq

/-- All callers by their numbers, the queues for the locks with their holders in front, the slots, and
whatever the refresher keeps. -/
structure Callers (σ α : Type) where
  callers : List (Caller α)
  queues : List (String × List Nat) := []
  slots : RefreshSlots
  state : σ
  /-- The accounts that operations were run with, each with the number of its caller. -/
  operated : List (Nat × Account) := []

namespace Callers

variable {σ α : Type}

def queue (c : Callers σ α) (id : String) : List Nat := (c.queues.lookup id).getD []

def setQueue (c : Callers σ α) (id : String) (q : List Nat) : Callers σ α :=
  { c with queues := (id, q) :: c.queues.filter fun e => e.1 ≠ id }

def setCaller (c : Callers σ α) (i : Nat) (caller : Caller α) : Callers σ α :=
  { c with callers := c.callers.set i caller }

/-- A lock released by its holder and given to the caller that has waited longest. -/
def release (c : Callers σ α) (id : String) : Callers σ α × Option Nat :=
  let rest := (c.queue id).drop 1
  let c := c.setQueue id rest
  match rest.head? with
  | none => (c, none)
  | some j =>
    match c.callers[j]? with
    | some (.queued current rejected) => (c.setCaller j (.holding current rejected), some j)
    | _ => (c, some j)

/-- One move of a caller: what follows, the callers afterwards, and the caller that was given a lock. -/
def move (refresher : Refresher σ) (now : Instant) (operation : Account → Except SessionError α)
    (i : Nat) (c : Callers σ α) : AfterMove × Callers σ α × Option Nat :=
  match c.callers[i]? with
  | some (.acting (.operate latest rejected)) =>
    let next := TokenUse.afterOperation latest rejected (operation latest)
    (.goOn, { c.setCaller i (.acting next) with operated := c.operated ++ [(i, latest)] }, none)
  | some (.acting (.refresh current rejected)) =>
    match c.queue current.id with
    -- A free lock is taken at once.
    | [] => (.goOn, (c.setQueue current.id [i]).setCaller i (.holding current rejected), none)
    | q => (.stop, (c.setQueue current.id (q ++ [i])).setCaller i (.queued current rejected), none)
  | some (.holding current rejected) =>
    match c.slots.reusable? current now with
    | some a =>
      let (c, woken) := c.release current.id
      (.goOn, c.setCaller i (.acting (TokenUse.afterRefresh rejected (.ok a))), woken)
    | none =>
      let (outcome, state) := refresher current c.state
      (.pause, { c.setCaller i (.refreshing current rejected outcome) with state }, none)
  | some (.refreshing current rejected outcome) =>
    -- The slot is filled before the lock is given on, so the next holder sees it.
    let slots := match outcome with
      | .ok a => c.slots.set current.id a
      | .error _ => c.slots
    let (c, woken) := { c with slots }.release current.id
    (.goOn, c.setCaller i (.acting (TokenUse.afterRefresh rejected outcome)), woken)
  | _ => (.stop, c, none)

/-- The outcome of a caller that is done. -/
def outcome? (c : Callers σ α) (i : Nat) : Option (Except SessionError α) :=
  match c.callers[i]? with
  | some (.acting (.done r)) => some r
  | _ => none

/-! ## Moving in time -/

/-- The most moves that a caller can make without waiting. -/
def movesAtOnce : Nat := 8

/-- The moves of a caller until it waits or is done, where a refresh takes a time. -/
def moveOn (refresher : Refresher σ) (now : Instant) (operation : Account → Except SessionError α)
    (refreshTime : Nat) (i : Nat) : Nat → Callers σ α × Agenda Nat → Callers σ α × Agenda Nat
  | 0, s => s
  | moves + 1, (c, agenda) =>
    let (after, c, woken) := c.move refresher now operation i
    let agenda := match woken with
      | some j => agenda.wake j
      | none => agenda
    match after with
    | .goOn => moveOn refresher now operation refreshTime i moves (c, agenda)
    | .pause =>
      if refreshTime = 0 then moveOn refresher now operation refreshTime i moves (c, agenda)
      else (c, agenda.sleep i refreshTime)
    | .stop => (c, agenda)

/-- The moves of all callers in the order in which they become ready, at most `turns` turns. -/
def runTurns (refresher : Refresher σ) (now : Instant) (operation : Account → Except SessionError α)
    (refreshTime : Nat) : (turns : Nat) → Callers σ α × Agenda Nat → Callers σ α
  | 0, (c, _) => c
  | turns + 1, (c, agenda) =>
    match agenda.next? (agenda.nextWake?.getD agenda.now) with
    | none => c
    | some (i, agenda) =>
      runTurns refresher now operation refreshTime turns
        (moveOn refresher now operation refreshTime i movesAtOnce (c, agenda))

/-- Callers that all start at once with their accounts, run to the end. A caller takes at most five
turns: at the start, and twice for the lock and for the end of a refresh. -/
def runAll (refresher : Refresher σ) (now : Instant) (operation : Account → Except SessionError α)
    (refreshTime : Nat) (accounts : List Account) (slots : RefreshSlots) (state : σ) : Callers σ α :=
  let start : Callers σ α :=
    { callers := accounts.map fun a => .acting (.start a now), slots, state }
  runTurns refresher now operation refreshTime (5 * accounts.length + 1)
    (start, { ready := List.range accounts.length })

end Callers
end PasswordVault
