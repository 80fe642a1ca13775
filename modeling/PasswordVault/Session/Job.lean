import PasswordVault.Session.Refresh
import PasswordVault.Session.Retry

/-!
# Notification jobs

A job keeps one account connected to its server. It is a machine whose stages say what it waits for;
what happens outside is reported to it.

* A connect goes through one use of a token (`TokenUse`). A token other than the one of the job is left
  to settle first, for the job is normally replaced in that time.
* Within a connect, failures that may pass are repeated at once, with growing pauses; every attempt
  waits for the network.
* A connect that ended well is followed by a fixed pause, one that failed by a pause that grows with
  the number of failures since the last one that ended well.

There is no stage in which a job is over.
-/

namespace PasswordVault

/-- What a job waits for. `rejected` tells whether the server has rejected a token in this connect, and
`delay` counts the attempts of this connect that have failed. -/
inductive JobStage where
  /-- A connect has to begin. -/
  | idle
  /-- The token of an account has to be refreshed. -/
  | refreshing (current : Account) (rejected : Bool)
  /-- A refreshed token is left to settle. -/
  | settling (latest : Account) (rejected : Bool)
  /-- The network has to be reachable. -/
  | waiting (latest : Account) (rejected : Bool) (delay : RetryDelay)
  /-- The connection has to end. -/
  | connected (latest : Account) (rejected : Bool) (delay : RetryDelay)
  /-- A pause before the next attempt. -/
  | pausing (latest : Account) (rejected : Bool) (delay : RetryDelay)
  /-- A pause before the next connect, in milliseconds. -/
  | resting (time : Nat)
deriving DecidableEq

/-- The pauses of jobs, in milliseconds. -/
structure JobPauses where
  settle : Nat := 1500
  reconnect : Nat := 5000
deriving DecidableEq, Repr

/-- A job for an account, with the failures since its last connect that ended well. -/
structure Job where
  account : Account
  failures : RetryDelay := .start
  stage : JobStage := .idle
deriving DecidableEq

namespace Job

/-- The job with what its use of a token asks for next. -/
def follow (j : Job) (pauses : JobPauses) : TokenUse Unit → Job
  | .refresh current rejected => { j with stage := .refreshing current rejected }
  | .operate latest rejected =>
    { j with stage := if latest = j.account then .waiting latest rejected .start else .settling latest rejected }
  | .done (.ok ()) => { j with failures := .start, stage := .resting pauses.reconnect }
  | .done (.error _) => { j with failures := j.failures.next, stage := .resting j.failures.pause }

/-! ## What is reported to a job -/

/-- A connect begins. -/
def begin (j : Job) (pauses : JobPauses) (now : Instant) : Job := j.follow pauses (.start j.account now)

/-- A refresh has an outcome. -/
def refreshed (j : Job) (pauses : JobPauses) (outcome : Except SessionError Account) : Job :=
  match j.stage with
  | .refreshing _ rejected => j.follow pauses (TokenUse.afterRefresh rejected outcome)
  | _ => j

/-- The network can be reached. -/
def reached (j : Job) : Job :=
  match j.stage with
  | .waiting latest rejected delay => { j with stage := .connected latest rejected delay }
  | _ => j

/-- A connection has ended. -/
def ended (j : Job) (pauses : JobPauses) (outcome : Except SessionError Unit) : Job :=
  match j.stage with
  | .connected latest rejected delay =>
    if isFinal outcome then j.follow pauses (TokenUse.afterOperation latest rejected outcome)
    else { j with stage := .pausing latest rejected delay }
  | _ => j

/-- A pause is over. -/
def rested (j : Job) : Job :=
  match j.stage with
  | .settling latest rejected => { j with stage := .waiting latest rejected .start }
  | .pausing latest rejected delay => { j with stage := .waiting latest rejected delay.next }
  | .resting _ => { j with stage := .idle }
  | _ => j

/-- How long a job pauses in its stage, if it does. -/
def pause? (j : Job) (pauses : JobPauses) : Option Nat :=
  match j.stage with
  | .settling .. => some pauses.settle
  | .pausing _ _ delay => some delay.pause
  | .resting time => some time
  | _ => none

def isWaiting (j : Job) : Bool :=
  match j.stage with
  | .waiting .. => true
  | _ => false

def isConnected (j : Job) : Bool :=
  match j.stage with
  | .connected .. => true
  | _ => false

end Job
end PasswordVault
