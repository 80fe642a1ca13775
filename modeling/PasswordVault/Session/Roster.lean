import PasswordVault.Session.Account

/-!
# The roster of jobs

Which jobs run, for which accounts. `Roster.reconcile` is the step from the jobs of one list of accounts
to those of the next: a job whose account is listed unchanged goes on, every other listed account gets a
new job, and all other jobs are stopped.

Jobs have numbers in the order in which they were started; a job that is not on the roster has been
stopped.
-/

namespace PasswordVault

/-- A running job, known by its number, and the account that it was started for. -/
structure RunningJob where
  account : Account
  number : Nat
deriving DecidableEq

/-- The running jobs, and how many jobs were ever started. -/
structure Roster where
  jobs : List RunningJob := []
  started : Nat := 0
deriving DecidableEq

namespace Roster

def without (id : String) (jobs : List RunningJob) : List RunningJob := jobs.filter fun j => j.account.id ≠ id

def find? (id : String) (jobs : List RunningJob) : Option RunningJob := jobs.find? fun j => j.account.id = id

/-- One listed account: its job among those of the previous list goes on if the account is unchanged,
else a new one is started. Whatever was on the roster for it before is replaced. -/
def enroll : List RunningJob × Roster → Account → List RunningJob × Roster
  | (previous, r), a =>
    match (find? a.id previous).filter fun j => j.account = a with
    | some j => (without a.id previous, { r with jobs := without a.id r.jobs ++ [j] })
    | none => (without a.id previous, ⟨without a.id r.jobs ++ [⟨a, r.started⟩], r.started + 1⟩)

/-- The roster for a list of accounts. -/
def reconcile (r : Roster) (accounts : List Account) : Roster :=
  (accounts.foldl enroll (r.jobs, { started := r.started })).2

def runs (r : Roster) (number : Nat) : Bool := r.jobs.any fun j => j.number = number

end Roster
end PasswordVault
