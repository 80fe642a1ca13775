import PasswordVault.Digest.Hmac

/-!
# HKDF with HMAC-SHA256

A seed is first condensed to a pseudorandom key (`extract`), which is then expanded to as many bytes
as asked (`expand`).
-/

namespace PasswordVault
namespace Hkdf

/-- The greatest number of bytes that a key expands to. -/
def maxLength : Nat := 255 * 32

/-- The pseudorandom key of a seed. An empty salt counts as zeros. -/
def extract (salt seed : Bytes) : Bytes := Hmac.sha256 salt seed

/-- The blocks from the one with the given number on, `count` of them; each continues the one before. -/
def blocks (key : Hmac.Key) (info : Bytes) : (count number : Nat) → (before : Bytes) → Bytes
  | 0, _, _ => []
  | count + 1, number, before =>
    let next := (key.digest (before ++ info ++ [UInt8.ofNat number])).bytes
    next ++ blocks key info count (number + 1) next

/-- `length` bytes expanded from a pseudorandom key. -/
def expand (key info : Bytes) (length : Nat) : Bytes :=
  (blocks (Hmac.Key.ofBytes key) info ((length + 31) / 32) 1 []).take length

theorem length_blocks (key : Hmac.Key) (info : Bytes) (count number : Nat) (before : Bytes) :
    (blocks key info count number before).length = 32 * count := by
  induction count generalizing number before with
  | zero => rfl
  | succ count ih =>
    simp only [blocks, List.length_append, ih, Sha256.State.length_bytes]
    omega

@[simp] theorem length_expand (key info : Bytes) (length : Nat) :
    (expand key info length).length = length := by
  simp only [expand, List.length_take, length_blocks]
  omega

end Hkdf
end PasswordVault
