import PasswordVault.KeyPair
import PasswordVault.Proofs.Arithmetic.Modular
import PasswordVault.Proofs.Der.Extent
import PasswordVault.Proofs.Der.RoundTrip
import PasswordVault.Proofs.Pem.RoundTrip

/-!
# Documents of private keys

The document of a private key is read back as that key, whichever document the key was first read from:
an RSA key is written with its own coefficient and exponents modulo the factors, an Ed25519 key with its
public key. What is read was checked, so what is written passes the checks.

- `Rsa.PrivateKey.exists_encode?_iff`: which RSA keys have a document;
- `KeyPair.secretOfDocument?_document`: the document of a key that was read holds that key;
- `KeyPair.secretOfPem?_encode`: and so does its PEM text, for readers of this kind of keys only.
-/

namespace PasswordVault

/-! ## RSA keys -/

namespace Rsa
namespace PrivateKey

variable {k : PrivateKey} {der : Bytes}

/-- A key that is read from its numbers fits together. -/
theorem isValid_of_ofNumbers? (h : ofNumbers? der = some k) : k.isValid := by
  simp only [ofNumbers?, Option.bind_eq_bind, Option.bind_eq_some_iff] at h
  obtain ⟨content, -, numbers, -, h⟩ := h
  split at h
  · split at h
    case isTrue hvalid =>
        cases h
        exact hvalid
    case isFalse => cases h
  · cases h

/-- A key that is read has numbers within the length of a document. -/
theorem widthOf_of_ofNumbers? (h : ofNumbers? der = some k) :
    Bytes.widthOf k.e < Der.maxLength ∧ Bytes.widthOf k.n < Der.maxLength := by
  simp only [ofNumbers?, Option.bind_eq_bind, Option.bind_eq_some_iff] at h
  obtain ⟨content, hcontent, numbers, hnumbers, h⟩ := h
  have hlength := Der.length_of_only? hcontent
  have hwidth := Der.widthOf_of_naturals? hnumbers
  split at h
  case h_1 n e d p q _ _ _ =>
    split at h
    case isTrue =>
      cases h
      exact ⟨Nat.lt_trans (hwidth e (by simp)) hlength, Nat.lt_trans (hwidth n (by simp)) hlength⟩
    case isFalse => cases h
  case h_2 => cases h

theorem decode?_eq_some_iff : decode? der = some k ↔
    ∃ info, Der.PrivateKeyInfo.decode? der = some info ∧ info.algorithm = algorithm ∧
      ofNumbers? info.key = some k := by
  simp [decode?, Option.bind_eq_some_iff]

/-- The numbers of a key are read back, and the ones that follow from them are passed over. -/
theorem ofNumbers?_sequence {dp dq coefficient : Nat} (hvalid : k.isValid)
    (h : (Der.sequence ([0, k.n, k.e, k.d, k.p, k.q, dp, dq, coefficient].map Der.natural)).length ≤
      Der.maxLength) :
    ofNumbers? (Der.sequence ([0, k.n, k.e, k.d, k.p, k.q, dp, dq, coefficient].map Der.natural)) =
      some k := by
  have hnumbers := Der.naturals?_flatten (Nat.le_trans (Der.length_flatten_le _) h)
  rw [ofNumbers?, Der.only?_sequence h, Option.bind_eq_bind, Option.bind_some]
  simp only [List.length_cons, List.length_nil, Nat.zero_add, Nat.reduceAdd] at hnumbers
  rw [hnumbers]
  exact if_pos hvalid

/-- The document of a key with the coefficient that goes into it. -/
def documentOf (k : PrivateKey) (coefficient : Nat) : Bytes :=
  let numbers := [0, k.n, k.e, k.d, k.p, k.q, k.d % (k.p - 1), k.d % (k.q - 1), coefficient]
  Der.PrivateKeyInfo.encode ⟨algorithm, Der.sequence (numbers.map Der.natural), none⟩

theorem encode?_eq_some_iff : k.encode? = some der ↔
    ∃ coefficient, k.coefficient? = some coefficient ∧
      (k.documentOf coefficient).length ≤ Der.maxLength ∧ k.documentOf coefficient = der := by
  simp [encode?, documentOf, Option.bind_eq_some_iff]

/-- A key has a document exactly if its factors have no common divisor and the document is not too long. -/
theorem exists_encode?_iff : (∃ der, k.encode? = some der) ↔
    Nat.Coprime k.q k.p ∧
      ∀ coefficient, k.coefficient? = some coefficient →
        (k.documentOf coefficient).length ≤ Der.maxLength := by
  have hcoprime : (∃ coefficient, k.coefficient? = some coefficient) ↔ Nat.Coprime k.q k.p :=
    Modular.exists_inverse?_iff
  rw [← hcoprime]
  simp only [encode?_eq_some_iff]
  cases k.coefficient? with
  | none => simp
  | some coefficient => simp

/-- A document is read as its key, whatever coefficient it holds. -/
theorem decode?_documentOf {coefficient : Nat} (hvalid : k.isValid)
    (hlength : (k.documentOf coefficient).length ≤ Der.maxLength) :
    decode? (k.documentOf coefficient) = some k := by
  have hkey := Nat.le_trans (Der.PrivateKeyInfo.length_key_le _) hlength
  exact decode?_eq_some_iff.2
    ⟨_, Der.PrivateKeyInfo.decode?_encode hlength, rfl, ofNumbers?_sequence hvalid hkey⟩

/-- The document of a key is read back as this key. -/
theorem decode?_of_encode? (hvalid : k.isValid) (h : k.encode? = some der) : decode? der = some k := by
  obtain ⟨coefficient, -, hlength, rfl⟩ := encode?_eq_some_iff.1 h
  exact decode?_documentOf hvalid hlength

example : (encode? ⟨⟨33, 3⟩, 7, 3, 11⟩).bind decode? = some ⟨⟨33, 3⟩, 7, 3, 11⟩ := by
  decide +kernel

end PrivateKey
end Rsa

/-! ## Ed25519 keys -/

namespace Ed25519

variable {seed : Block 32} {der : Bytes}

theorem length_publicKey (b : Bytes) : (publicKey b).length = 32 := by
  simp [publicKey, Point.encode, Bytes.ofNatLE]

theorem length_encode (seed : Block 32) : (encode seed).length = 83 := by
  have hkey : (Der.element Der.octetStringTag seed.bytes).length = 34 := by
    rw [Der.length_element_of_lt (by rw [seed.length_eq]; decide), seed.length_eq]
  have hversion : (Der.natural 1).length = 3 := by decide
  have halgorithm : algorithm.encode.length = 7 := by decide
  simp [encode, Der.PrivateKeyInfo.encode, Der.sequence, Der.length_element_of_lt, hkey, hversion,
    halgorithm, length_publicKey]

/-- The seed in a document is read, if the public key in it, if there is one, is that of the seed. -/
theorem decode?_encode_info {publicKey? : Option Bytes}
    (h : ∀ key, publicKey? = some key → key = publicKey seed.bytes)
    (hlength : (Der.PrivateKeyInfo.encode ⟨algorithm, Der.element Der.octetStringTag seed.bytes,
      publicKey?⟩).length ≤ Der.maxLength) :
    decode? (Der.PrivateKeyInfo.encode
      ⟨algorithm, Der.element Der.octetStringTag seed.bytes, publicKey?⟩) = some seed := by
  have hkey := Nat.le_trans (Der.PrivateKeyInfo.length_key_le _) hlength
  rw [decode?, Der.PrivateKeyInfo.decode?_encode hlength]
  cases publicKey? with
  | none => simp [Der.only?_element hkey]
  | some key => simp [Der.only?_element hkey, h key rfl]

/-- The document of a seed is read back as this seed. -/
theorem decode?_encode (seed : Block 32) : decode? (encode seed) = some seed :=
  decode?_encode_info (fun _ hkey => (Option.some.inj hkey).symm)
    (by rw [← encode, length_encode]; decide)

theorem exists_info_of_decode? (h : decode? der = some seed) :
    ∃ info, Der.PrivateKeyInfo.decode? der = some info ∧ info.algorithm = algorithm := by
  simp only [decode?, Option.bind_eq_bind, Option.bind_eq_some_iff] at h
  obtain ⟨info, hinfo, h⟩ := h
  split at h
  · cases h
  case isFalse halgorithm => exact ⟨info, hinfo, not_not.1 halgorithm⟩

end Ed25519

/-! ## Keys of either kind -/

namespace KeyPair

variable {kind kind' : Kind} {secret secret' : Secret} {der der' : Bytes}

/-- The algorithm that the documents of a kind name. -/
def Kind.algorithm : Kind → Der.Algorithm
  | .rsa => Rsa.algorithm
  | .ed25519 => Ed25519.algorithm

/-- The algorithm in a document tells the kind of its key. -/
theorem Kind.algorithm_inj (h : kind.algorithm = kind'.algorithm) : kind = kind' := by
  have hne : Rsa.algorithm ≠ Ed25519.algorithm := by decide
  cases kind with
  | rsa =>
      cases kind' with
      | rsa => rfl
      | ed25519 => exact absurd h hne
  | ed25519 =>
      cases kind' with
      | rsa => exact absurd h.symm hne
      | ed25519 => rfl

/-- A document that is read names the algorithm of its kind. -/
theorem exists_info_of_secretOfDocument? (h : secretOfDocument? kind der = some secret) :
    ∃ info, Der.PrivateKeyInfo.decode? der = some info ∧ info.algorithm = kind.algorithm := by
  cases kind with
  | rsa =>
      obtain ⟨k, hk, -⟩ := Option.map_eq_some_iff.1 h
      obtain ⟨info, hinfo, halgorithm, -⟩ := Rsa.PrivateKey.decode?_eq_some_iff.1 hk
      exact ⟨info, hinfo, halgorithm⟩
  | ed25519 =>
      obtain ⟨seed, hseed, -⟩ := Option.map_eq_some_iff.1 h
      exact Ed25519.exists_info_of_decode? hseed

/-- No document holds keys of two kinds. -/
theorem kinds_eq_of_secretOfDocument? (h : secretOfDocument? kind der = some secret)
    (h' : secretOfDocument? kind' der = some secret') : kind = kind' := by
  obtain ⟨info, hinfo, halgorithm⟩ := exists_info_of_secretOfDocument? h
  obtain ⟨info', hinfo', halgorithm'⟩ := exists_info_of_secretOfDocument? h'
  obtain rfl := Option.some.inj (hinfo.symm.trans hinfo')
  exact Kind.algorithm_inj (halgorithm.symm.trans halgorithm')

/-- The document of a key that was read from one is read back as the same key. -/
theorem secretOfDocument?_document (h : secretOfDocument? kind der = some secret)
    (hdocument : secret.document = .ok der') : secretOfDocument? kind der' = some secret := by
  cases kind with
  | rsa =>
      -- That the key was read says that its numbers are valid, which reading it again asks for.
      obtain ⟨k, hk, rfl⟩ := Option.map_eq_some_iff.1 h
      obtain ⟨info, -, -, hnumbers⟩ := Rsa.PrivateKey.decode?_eq_some_iff.1 hk
      rw [Secret.document] at hdocument
      split at hdocument
      case h_1 der'' hencode =>
          cases hdocument
          rw [secretOfDocument?,
            Rsa.PrivateKey.decode?_of_encode? (Rsa.PrivateKey.isValid_of_ofNumbers? hnumbers) hencode]
          rfl
      case h_2 => cases hdocument
  | ed25519 =>
      obtain ⟨seed, -, rfl⟩ := Option.map_eq_some_iff.1 h
      cases hdocument
      rw [secretOfDocument?, Ed25519.decode?_encode]
      rfl

theorem ne_nil_of_secretOfDocument? (h : secretOfDocument? kind der = some secret) : der ≠ [] := by
  rintro rfl
  obtain ⟨info, hinfo, -⟩ := exists_info_of_secretOfDocument? h
  cases hinfo

/-- The PEM text of a document holds, for the readers of any kind, the key that the document holds. -/
theorem secretOfPem?_encode (hne : der ≠ []) :
    secretOfPem? kind (Pem.encode privateLabel der) = secretOfDocument? kind der := by
  rw [secretOfPem?, Pem.decode?_encode (by decide) hne, Option.bind_eq_bind, Option.bind_some]
  exact if_pos rfl

end KeyPair
end PasswordVault
