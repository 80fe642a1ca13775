import PasswordVault.Digest.Sha256

/-!
# HMAC-SHA256

A keyed digest. The states after the two key blocks are kept in a `Key`, so that many digests under
one key cost no more than their messages.
-/

namespace PasswordVault
namespace Hmac

/-- A key made ready: the states after the inner and the outer key block. -/
structure Key where
  inner : Sha256.State
  outer : Sha256.State

/-- The key block of a byte string: a long key is digested, and zeros fill up a short one. -/
def keyBlock (key : Bytes) : Bytes :=
  let short := if 64 < key.length then Sha256.hash key else key
  short ++ List.replicate (64 - short.length) 0

def Key.ofBytes (key : Bytes) : Key :=
  let block := keyBlock key
  ⟨Sha256.State.start.absorb (block.map (· ^^^ 0x36)), Sha256.State.start.absorb (block.map (· ^^^ 0x5c))⟩

def Key.digest (k : Key) (message : Bytes) : Sha256.State :=
  k.outer.finish 64 (k.inner.finish 64 message).bytes

/-- The state after the words of a digest and the closing of a message of 96 bytes. -/
def closeDigest (s t : Sha256.State) : Sha256.State :=
  s.compress t.a t.b t.c t.d t.e t.f t.g t.h 0x80000000 0 0 0 0 0 0 768

def Key.digestState (k : Key) (message : Sha256.State) : Sha256.State :=
  closeDigest k.outer (closeDigest k.inner message)

def sha256 (key message : Bytes) : Bytes := ((Key.ofBytes key).digest message).bytes

@[simp] theorem length_sha256 (key message : Bytes) : (sha256 key message).length = 32 := rfl

end Hmac
end PasswordVault
