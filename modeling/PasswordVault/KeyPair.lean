import PasswordVault.Ed25519
import PasswordVault.Entropy
import PasswordVault.Key
import PasswordVault.Pem
import PasswordVault.Rsa
import PasswordVault.Digest.Sha256
import PasswordVault.Ssh.Wire
import PasswordVault.Text.Case

/-!
# Key pairs

RSA and Ed25519 key pairs. A private key is kept as its document, a public key in the SSH wire format.

* `KeyPair.Raw.generate…`: new pairs.
* `KeyPair.Raw.parse`: a pair from a PEM text and a public key line.
* `KeyPair.Raw.populate`: all forms in which the parts of a pair are shown.
-/

namespace PasswordVault
namespace KeyPair

inductive Kind where
  | rsa
  | ed25519
deriving DecidableEq, Repr

namespace Kind

def sshName : Kind → String
  | .rsa => "ssh-rsa"
  | .ed25519 => "ssh-ed25519"

def label : Kind → String
  | .rsa => "Rsa"
  | .ed25519 => "Ed25519"

end Kind

inductive RsaLength where
  | b1024
  | b2048
  | b4096
deriving DecidableEq, Repr, Inhabited

namespace RsaLength

def bits : RsaLength → Nat
  | .b1024 => 1024
  | .b2048 => 2048
  | .b4096 => 4096

def standard : RsaLength := .b4096

def ofBits : Nat → Except CryptoError RsaLength
  | 1024 => .ok .b1024
  | 2048 => .ok .b2048
  | 4096 => .ok .b4096
  | other => .error (.unsupportedKeySize other)

end RsaLength

/-- A pair as it is stored: the private key document, and the public key if it is known. -/
structure Raw where
  kind : Kind
  privateKey : Bytes
  publicKey : Option Bytes
deriving DecidableEq

structure PublicPart where
  encoded : Bytes
  ssh : String
  fingerprint : String
deriving DecidableEq

structure PrivatePart where
  encoded : Bytes
  pem : String
  fingerprint : String
deriving DecidableEq

end KeyPair

/-- A pair in all its forms. -/
structure KeyPair where
  kind : KeyPair.Kind
  publicPart : KeyPair.PublicPart
  privatePart : KeyPair.PrivatePart
deriving DecidableEq

namespace KeyPair

/-! ## Public keys on the wire -/

def rsaWire (k : Rsa.PublicKey) : Bytes :=
  Ssh.string (Bytes.ofText Kind.rsa.sshName) ++ Ssh.natural k.e ++ Ssh.natural k.n

/-- The wire form of the Ed25519 public key of a seed. -/
def ed25519Wire (seed : Block 32) : Bytes :=
  Ssh.string (Bytes.ofText Kind.ed25519.sshName) ++ Ssh.string (Ed25519.publicKey seed.bytes)

def kindOfWire? (wire : Bytes) : Option Kind := do
  let (name, _) ← Ssh.readString? wire 0
  [Kind.rsa, Kind.ed25519].find? fun kind => name = Bytes.ofText kind.sshName

/-! ## Private keys -/

inductive Secret where
  | rsa (k : Rsa.PrivateKey)
  | ed25519 (seed : Block 32)

namespace Secret

def publicWire : Secret → Bytes
  | .rsa k => rsaWire k.toPublicKey
  | .ed25519 seed => ed25519Wire seed

def document : Secret → Except CryptoError Bytes
  | .rsa k =>
    match k.encode? with
    | some der => .ok der
    | none => .error (.invalidKeyMaterial "PKCS#8 cryptographic key data malformed")
  | .ed25519 seed => .ok (Ed25519.encode seed)

end Secret

def privateLabel : String := "PRIVATE KEY"

/-- The label of documents that list the numbers of an RSA key. -/
def rsaLabel : String := "RSA PRIVATE KEY"

def secretOfDocument? (kind : Kind) (der : Bytes) : Option Secret :=
  match kind with
  | .rsa => (Rsa.PrivateKey.decode? der).map .rsa
  | .ed25519 => (Ed25519.decode? der).map .ed25519

def secretOfPem? (kind : Kind) (pem : String) : Option Secret := do
  let (label, der) ← Pem.decode? pem
  if label = privateLabel then secretOfDocument? kind der
  else if label = rsaLabel ∧ kind = .rsa then (Rsa.PrivateKey.ofNumbers? der).map .rsa
  else none

/-! ## Fingerprints -/

/-- The digest of a byte string as base64 without padding. -/
def fingerprint (data : Bytes) : String :=
  "SHA256:" ++ String.ofList ((Base64.encodeChars (Sha256.hash data)).filter (· ≠ '='))

namespace Raw

/-! ## New pairs -/

def ofSecret (kind : Kind) (secret : Secret) : Except CryptoError Raw := do
  return ⟨kind, ← secret.document, some secret.publicWire⟩

def generateRsa (length : RsaLength) : StateM Entropy (Except CryptoError Raw) := do
  let random₁ ← Entropy.draw (length.bits / 16)
  let random₂ ← Entropy.draw (length.bits / 16)
  match Rsa.PrivateKey.generate? length.bits random₁ random₂ with
  | some k => return ofSecret .rsa (.rsa k)
  | none => return .error (.invalidKeyMaterial "RSA generation failed: no suitable primes")

def generateRsaBits (bits : Nat) : StateM Entropy (Except CryptoError Raw) :=
  match RsaLength.ofBits bits with
  | .ok length => generateRsa length
  | .error e => return .error e

def generateEd25519 : StateM Entropy (Except CryptoError Raw) := do
  return ofSecret .ed25519 (.ed25519 (← Entropy.drawBlock 32))

/-! ## Reading a pair -/

/-- Why a pair of texts is refused. -/
inductive Fault where
  | noKeyData
  | invalidBase64
  | unsupportedType
  | privateKey (kind : Kind)
  | foreignPublicKey
deriving DecidableEq

def Fault.message : Fault → String
  | .noKeyData => "public key line has no key data"
  | .invalidBase64 => "public key is not valid base64"
  | .unsupportedType => "unsupported public key type"
  | .privateKey kind => "can not decode " ++ (if kind = .rsa then "RSA" else "Ed25519") ++ " private key"
  | .foreignPublicKey => "public key does not belong to the private key"

/-- The error of a refusal, which quotes the begin line of the private key. -/
def Fault.toError (header : Option String) (fault : Fault) : CryptoError :=
  .invalidKeyMaterial (fault.message ++ " (" ++ header.getD "no PEM header" ++ ")")

/-- The wire form in a public key line, which stands in its second word. -/
def wireOfLine (ssh : String) : Except Fault Bytes :=
  match Text.words ssh.toList with
  | _ :: word :: _ =>
    match Base64.decode (String.ofList word) with
    | .ok wire => .ok wire
    | .error _ => .error .invalidBase64
  | _ => .error .noKeyData

/-- The public key and the private key in a pair of texts, each read on its own. -/
def partsOf (pem ssh : String) : Except Fault (Kind × Bytes × Secret) := do
  let wire ← wireOfLine ssh
  match kindOfWire? wire with
  | none => .error .unsupportedType
  | some kind =>
    match secretOfPem? kind pem with
    | none => .error (.privateKey kind)
    | some secret => .ok (kind, wire, secret)

/-- The pair in a PEM text and a public key line, which must belong together. -/
def parse (pem ssh : String) : Except CryptoError Raw := do
  let header := Pem.header? pem
  let (kind, wire, secret) ← (partsOf pem ssh).mapError (Fault.toError header)
  let der ← secret.document
  if secret.publicWire = wire then .ok ⟨kind, der, some wire⟩
  else .error (Fault.foreignPublicKey.toError header)

/-! ## Showing a pair -/

def badDocument (kind : Kind) : CryptoError :=
  .invalidKeyMaterial ((if kind = .rsa then "RSA" else "Ed25519") ++ " private key: malformed document")

/-- The pair in all its forms. A public key that is stored is shown as it is; else it is derived from
the private key. -/
def populate (raw : Raw) : Except CryptoError KeyPair :=
  match secretOfDocument? raw.kind raw.privateKey with
  | none => .error (badDocument raw.kind)
  | some secret => do
    let der ← secret.document
    let wire := raw.publicKey.getD secret.publicWire
    return {
      kind := raw.kind
      publicPart :=
        { encoded := wire
          ssh := raw.kind.sshName ++ " " ++ Base64.encode wire
          fingerprint := fingerprint wire }
      privatePart :=
        { encoded := raw.privateKey
          pem := Pem.encode privateLabel der
          fingerprint := fingerprint raw.privateKey } }

def length? (raw : Raw) : Option Nat :=
  match raw.kind with
  | .rsa => (Rsa.PrivateKey.decode? raw.privateKey).map fun k => Rsa.bitLength k.n
  | .ed25519 => none

/-- A description of a pair that keeps the private key secret. -/
def describe (raw : Raw) : String :=
  let publicKey := match raw.publicKey with
    | some key => s!"Some({key.length})"
    | none => "None"
  "KeyPairRaw \x7b key_type: " ++ raw.kind.label ++ ", private_key: \"<redacted>\", public_key: "
    ++ publicKey ++ " \x7d"

end Raw

/-- A description of a pair that leaves the private part out. -/
def describe (k : KeyPair) : String :=
  let bytes := String.intercalate ", " (k.publicPart.encoded.map fun b => toString b.toNat)
  "KeyPair \x7b key_type: " ++ k.kind.label ++ ", public_key: PublicKeyParameter \x7b encoded: ["
    ++ bytes ++ "], ssh: \"" ++ k.publicPart.ssh ++ "\", fingerprint: \"" ++ k.publicPart.fingerprint
    ++ "\" \x7d, .. \x7d"

end KeyPair
end PasswordVault
