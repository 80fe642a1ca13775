import PasswordVault.Session.Agenda
import PasswordVault.Session.Connectivity
import PasswordVault.Session.Job
import PasswordVault.Session.Notification
import PasswordVault.Session.Roster
import PasswordVault.Session.TokenKeeping

/-!
# Supervision

The supervisor watches the list of accounts and keeps a job for each of them; all run on one clock. A
notification queues a sync of its account, and the start of the supervisor one of all accounts.

* `Supervision.turn`: what a task does when it is its turn.
* `Supervision.advance`: everything that happens in a time.
* `setAccounts`, `setOnline`, `closeAccounts`, `abort`: what is done from outside.
-/

namespace PasswordVault

/-- What happens on a connection: notifications arrive, and after a time it ends with an outcome, if it
ever does. -/
structure Visit where
  messages : List Notification := []
  after : Nat := 0
  outcome : Option (Except SessionError Unit) := none

/-- What happens on the connections made with each access token, in order. The last of them happens on
all later ones; without any, connections stay open. -/
abbrev Visits := List (String × List Visit)

namespace Visits

/-- What happens on the next connection with a token, and on those after it. -/
def take (v : Visits) (accessToken : String) : Visit × Visits :=
  match v.lookup accessToken with
  | some (first :: second :: rest) =>
    (first, (accessToken, second :: rest) :: v.filter fun e => e.1 ≠ accessToken)
  | some [last] => (last, v)
  | _ => ({}, v)

end Visits

/-- What the supervisor depends on and does not change. -/
structure Surroundings (σ : Type) where
  refresher : Refresher σ
  /-- Whether a refreshed account replaces the one in the list. -/
  publishes : Bool := false
  now : Instant
  pauses : JobPauses := {}

inductive Worker where
  | supervisor
  | job (number : Nat)
deriving DecidableEq, Repr

/-- A job with its number and what happens on its connection. -/
structure ActiveJob where
  number : Nat
  job : Job
  visit : Visit := {}

/-- A supervisor at some point in time, and what came of it until then. -/
structure Supervision (σ : Type) where
  accounts : List Account
  /-- Whether the list has changed since the supervisor looked at it. -/
  changed : Bool := true
  /-- Whether the list can change again. -/
  listed : Bool := true
  network : Connectivity
  visits : Visits
  slots : RefreshSlots := []
  /-- Whatever the refresher keeps. -/
  state : σ
  agenda : Agenda Worker := { ready := [.supervisor] }
  roster : Roster := {}
  active : List ActiveJob := []
  begun : Bool := false
  /-- Whether the supervisor was told to stop. -/
  aborted : Bool := false
  finished : Bool := false
  /-- The connections that were made, with their times. -/
  connects : List (Nat × Account) := []
  /-- The number of connections that went away. -/
  closed : Nat := 0
  /-- The ids of the accounts for which syncs were queued. -/
  synced : List String := []
  /-- The number of times that a sync of all accounts was queued. -/
  syncedAll : Nat := 0

namespace Supervision

variable {σ : Type}

/-! ## Jobs -/

def setJob (s : Supervision σ) (a : ActiveJob) : Supervision σ :=
  { s with active := s.active.map fun b => if b.number = a.number then a else b }

/-- A job that has moved: it goes on at once, unless it pauses. -/
def goOn (e : Surroundings σ) (a : ActiveJob) (s : Supervision σ) : Supervision σ :=
  let s := s.setJob a
  match a.job.pause? e.pauses with
  | some (time + 1) => { s with agenda := s.agenda.sleep (.job a.number) (time + 1) }
  | _ => { s with agenda := s.agenda.resume (.job a.number) }

/-- A job whose token is refreshed. A new account may be published, which wakes the supervisor. -/
def refresh (e : Surroundings σ) (a : ActiveJob) (current : Account) (s : Supervision σ) : Supervision σ :=
  -- An account from the slot was published when it was put there.
  let isNew := (s.slots.reusable? current e.now).isNone
  let (outcome, state, slots) := refreshOnce e.refresher e.now current (s.state, s.slots)
  let s := { s with state, slots }
  let s := match outcome with
    | .ok refreshed =>
      if isNew && e.publishes && s.listed then
        { s with
          accounts := refreshed.publish s.accounts
          changed := true
          agenda := s.agenda.wake .supervisor }
      else s
    | .error _ => s
  s.goOn e { a with job := a.job.refreshed e.pauses outcome }

/-- A job that connects an account: its notifications arrive. -/
def connect (e : Surroundings σ) (a : ActiveJob) (latest : Account) (s : Supervision σ) : Supervision σ :=
  let (visit, visits) := s.visits.take (latest.accessToken?.getD "")
  let a := { a with job := a.job.reached, visit }
  let s := { s with
    visits
    connects := s.connects ++ [(s.agenda.now, latest)]
    synced := s.synced ++ visit.messages.map fun _ => latest.id }
  match visit.outcome, visit.after with
  | none, _ => s.setJob a
  | some _, 0 => s.goOn e a
  | some _, time => { s.setJob a with agenda := s.agenda.sleep (.job a.number) time }

/-- The turn of a job. -/
def jobTurn (e : Surroundings σ) (number : Nat) (s : Supervision σ) : Supervision σ :=
  match s.active.find? fun a => a.number = number with
  | none => s
  | some a =>
    match a.job.stage with
    | .idle => s.goOn e { a with job := a.job.begin e.pauses e.now }
    | .refreshing current _ => s.refresh e a current
    | .waiting latest _ _ => if s.network.online then s.connect e a latest else s
    | .connected .. =>
      match a.visit.outcome with
      | some outcome =>
        { s with closed := s.closed + 1 }.goOn e { a with job := a.job.ended e.pauses outcome }
      | none => s
    | .settling .. | .pausing .. | .resting .. => s.goOn e { a with job := a.job.rested }

/-! ## The supervisor -/

/-- The jobs stopped that are not on the roster; the connections they held go away. -/
def stopUnlisted (s : Supervision σ) : Supervision σ :=
  let stopped := s.active.filter fun a => ! s.roster.runs a.number
  { s with
    active := s.active.filter fun a => s.roster.runs a.number
    closed := s.closed + (stopped.filter fun a => a.job.isConnected).length
    agenda := s.agenda.keep fun
      | .supervisor => true
      | .job number => s.roster.runs number }

/-- The jobs for the list as it is. -/
def look (s : Supervision σ) : Supervision σ :=
  let roster := s.roster.reconcile s.accounts
  -- Numbers only grow, so the new jobs are those beyond the old count.
  let started := roster.jobs.filter fun j => s.roster.started ≤ j.number
  let s := { s with changed := false, roster }.stopUnlisted
  { s with
    active := s.active ++ started.map fun j => ⟨j.number, { account := j.account }, {}⟩
    agenda := started.foldl (fun agenda j => agenda.wake (.job j.number)) s.agenda }

/-- The end of the supervisor: all jobs end with it. -/
def finish (s : Supervision σ) : Supervision σ :=
  { s with roster := { s.roster with jobs := [] }, finished := true }.stopUnlisted

def supervisorTurn (s : Supervision σ) : Supervision σ :=
  if s.finished then s
  else if s.aborted then s.finish
  else
    let s := if s.begun then s else { s with begun := true, syncedAll := s.syncedAll + 1 }
    let s := if s.changed then s.look else s
    if s.listed then s else s.finish

/-! ## Time -/

def turn (e : Surroundings σ) : Worker → Supervision σ → Supervision σ
  | .supervisor, s => s.supervisorTurn
  | .job number, s => s.jobTurn e number

/-- All turns until a time, at most `turns` of them. -/
def runUntil (e : Surroundings σ) (limit : Nat) : (turns : Nat) → Supervision σ → Supervision σ
  | 0, s => s
  | turns + 1, s =>
    match s.agenda.next? limit with
    | some (worker, agenda) => runUntil e limit turns (turn e worker { s with agenda })
    | none => { s with agenda := { s.agenda with now := limit } }

/-- A bound on the turns in a time: a task that pauses at all pauses for a millisecond, and makes only a
few moves between two pauses. -/
def turnLimit (milliseconds accounts : Nat) : Nat := 64 * (milliseconds + 1) * (accounts + 2)

/-- Everything that happens in a time. -/
def advance (e : Surroundings σ) (milliseconds : Nat) (s : Supervision σ) : Supervision σ :=
  s.runUntil e (s.agenda.now + milliseconds) (turnLimit milliseconds (s.accounts.length + s.active.length))

/-! ## What is done from outside -/

def setAccounts (accounts : List Account) (s : Supervision σ) : Supervision σ :=
  if s.listed then { s with accounts, changed := true, agenda := s.agenda.wake .supervisor } else s

/-- A report on the network. Jobs that wait for it are woken, unless they are ready already. -/
def setOnline (online : Bool) (s : Supervision σ) : Supervision σ :=
  let waiting :=
    if online then s.active.filter fun a => a.job.isWaiting ∧ .job a.number ∉ s.agenda.ready else []
  { s with
    network := s.network.report online
    agenda := waiting.foldl (fun agenda a => agenda.wake (.job a.number)) s.agenda }

def closeAccounts (s : Supervision σ) : Supervision σ :=
  { s with listed := false, agenda := s.agenda.wake .supervisor }

def abort (s : Supervision σ) : Supervision σ :=
  { s with aborted := true, agenda := s.agenda.wake .supervisor }

end Supervision
end PasswordVault
