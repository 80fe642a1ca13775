import PasswordVault.Bytes

/-!
# Random bytes

Randomness is an endless row of bytes and the number of bytes used so far. Whoever needs random bytes
takes the next ones and passes the rest on, so every result is a function of the row.
-/

namespace PasswordVault

/-- A row of random bytes of which some are used. -/
structure Entropy where
  byte : Nat → UInt8
  used : Nat

namespace Entropy

def peek (e : Entropy) (n : Nat) : Bytes := (List.range n).map fun i => e.byte (e.used + i)

def skip (e : Entropy) (n : Nat) : Entropy := { e with used := e.used + n }

/-- The next `n` bytes, as a step that uses them. -/
def draw (n : Nat) : StateM Entropy Bytes := modifyGet fun e => (e.peek n, e.skip n)

def drawBlock (n : Nat) : StateM Entropy (Block n) :=
  modifyGet fun e => (⟨e.peek n, by simp [peek]⟩, e.skip n)

@[simp] theorem length_peek (e : Entropy) (n : Nat) : (e.peek n).length = n := by simp [peek]

end Entropy
end PasswordVault
