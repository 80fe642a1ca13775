import PasswordVault.Digest.Hmac

/-!
# PBKDF2 with HMAC-SHA256

A password is stretched by applying the keyed digest as often as asked, once for each block of 32
bytes of the result.
-/

namespace PasswordVault
namespace Pbkdf2

/-- The exclusive or of `total` with the digests that follow `current`, `count` of them. -/
def iterate (key : Hmac.Key) : (count : Nat) → (current total : Sha256.State) → Sha256.State
  | 0, _, total => total
  | count + 1, current, total =>
    let next := key.digestState current
    iterate key count next (total.xor next)

/-- The block of the result with the given number, counted from one. -/
def block (key : Hmac.Key) (salt : Bytes) (iterations number : Nat) : Bytes :=
  let first := key.digest (salt ++ Bytes.ofNat 4 number)
  (iterate key (iterations - 1) first first).bytes

/-- `length` bytes derived from a password and a salt. -/
def derive (password salt : Bytes) (iterations length : Nat) : Bytes :=
  let key := Hmac.Key.ofBytes password
  ((List.range ((length + 31) / 32)).flatMap fun i => block key salt iterations (i + 1)).take length

@[simp] theorem length_derive (password salt : Bytes) (iterations length : Nat) :
    (derive password salt iterations length).length = length := by
  have hblock (key : Hmac.Key) (i : Nat) : (block key salt iterations (i + 1)).length = 32 := rfl
  simp only [derive, List.length_take, List.length_flatMap, hblock, List.map_const', List.length_range,
    List.sum_replicate_nat]
  omega

end Pbkdf2
end PasswordVault
