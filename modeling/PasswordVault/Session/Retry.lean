import PasswordVault.Session.Error

/-!
# Retries

Failed attempts are repeated after a pause that grows with every failure up to a limit: the first is
immediate, the longest takes about 73 seconds.
-/

namespace PasswordVault

/-- How many attempts have failed in a row. The count stops at the greatest number of 32 bits. -/
structure RetryDelay where
  attempt : Nat := 0
deriving DecidableEq, Repr

namespace RetryDelay

def unit : Nat := 100

/-- The number of failures after which the pause no longer grows. -/
def maxExponent : Nat := 6

def maxAttempt : Nat := 0xffffffff

/-- The pause in milliseconds that comes next. -/
def pause (d : RetryDelay) : Nat := unit * (Nat.pow 3 (min d.attempt maxExponent) - 1)

/-- One more failure. -/
def next (d : RetryDelay) : RetryDelay := ⟨min (d.attempt + 1) maxAttempt⟩

def start : RetryDelay := {}

end RetryDelay

/-- Whether an outcome ends the attempts: a success, or an error that no other attempt can mend. -/
def isFinal {α : Type} : Except SessionError α → Bool
  | .ok _ => true
  | .error e => ¬ e.canRetry

/-- What came of attempts at an operation: the last outcome, and when each attempt was made, in
milliseconds from the start. -/
structure Retried (α : Type) where
  result : Except SessionError α
  times : List Nat

/-- Attempts at an operation that takes no time itself, from number `index` and the time `now` on, at
most `limit` of them. There is no answer if none of them has a final outcome. -/
def retryFrom {α : Type} (outcome : Nat → Except SessionError α) :
    (limit index now : Nat) → RetryDelay → Option (Retried α)
  | 0, _, _, _ => none
  | limit + 1, index, now, delay =>
    if isFinal (outcome index) then some ⟨outcome index, [now]⟩
    else (retryFrom outcome limit (index + 1) (now + delay.pause) delay.next).map fun later =>
      { later with times := now :: later.times }

/-- Attempts at an operation until one of them has a final outcome, at most `limit` of them. -/
def withRetry {α : Type} (outcome : Nat → Except SessionError α) (limit : Nat) : Option (Retried α) :=
  retryFrom outcome limit 0 0 .start

end PasswordVault
