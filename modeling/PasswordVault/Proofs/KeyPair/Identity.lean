import PasswordVault.Proofs.KeyPair.Documents
import PasswordVault.Proofs.KeyPair.Lines
import PasswordVault.Proofs.Outcome
import PasswordVault.Proofs.Text.Base64Grammar

/-!
# RSA public keys — a wire form names one key

Strings on the wire and the numbers in them are read in one way, so a wire form names one exponent and one
modulus, and no other wire form names these. A PEM text and a line are read as a pair exactly if the wire
form in the line names the key in the PEM text and this key can be written again. A key whose factors have
a common divisor is read, but it cannot be written.

- `KeyPair.names_iff`: which wire form names a key;
- `KeyPair.Raw.parse_eq_ok_iff`: which pairs of texts are read;
- `KeyPair.wire_names_one_key`: the law of RSA public keys.
-/

namespace PasswordVault
namespace KeyPair

/-! ## Wire forms -/

/-- Whether the contents of both numbers of a key have lengths of four bytes. -/
def Fits (k : Rsa.PublicKey) : Prop :=
  (Ssh.naturalContent k.e).length < 2 ^ 32 ∧ (Ssh.naturalContent k.n).length < 2 ^ 32

/-- Whether a wire form names a key: it is read as the name of RSA keys, the exponent and the modulus, and
nothing is left over. -/
def Names (wire : Bytes) (k : Rsa.PublicKey) : Prop :=
  ∃ e n, Ssh.IsNatural e k.e ∧ Ssh.IsNatural n k.n ∧
    Ssh.ReadsAs wire 0 [Bytes.ofText "ssh-rsa", e, n]

theorem rsaWire_eq_flatMap (k : Rsa.PublicKey) :
    rsaWire k =
      [Bytes.ofText "ssh-rsa", Ssh.naturalContent k.e, Ssh.naturalContent k.n].flatMap Ssh.string := by
  simp [rsaWire, Ssh.natural, Kind.sshName]

/-- The only wire form that names a key is the one that is written for it. -/
theorem names_iff {wire : Bytes} {k : Rsa.PublicKey} : Names wire k ↔ Fits k ∧ wire = rsaWire k := by
  have hname : (Bytes.ofText "ssh-rsa").length < 2 ^ 32 := by decide
  have hreads := fun e n => Ssh.readsAs_iff (Nat.zero_le wire.length) [Bytes.ofText "ssh-rsa", e, n]
  simp only [List.drop_zero, List.forall_mem_cons] at hreads
  constructor
  · rintro ⟨e, n, he, hn, hread⟩
    obtain rfl := he.eq
    obtain rfl := hn.eq
    obtain ⟨⟨-, hshort, hshort', -⟩, hwire⟩ := (hreads _ _).1 hread
    exact ⟨⟨hshort, hshort'⟩, hwire.trans (rsaWire_eq_flatMap k).symm⟩
  · rintro ⟨⟨hshort, hshort'⟩, rfl⟩
    have hread := (hreads _ _).2 ⟨⟨hname, hshort, hshort', nofun⟩, rsaWire_eq_flatMap k⟩
    exact ⟨_, _, Ssh.isNatural_naturalContent k.e, Ssh.isNatural_naturalContent k.n, hread⟩

/-- A wire form names one exponent and one modulus. -/
theorem Names.unique {wire : Bytes} {k k' : Rsa.PublicKey} (h : Names wire k) (h' : Names wire k') :
    k.e = k'.e ∧ k.n = k'.n := by
  obtain ⟨e, n, he, hn, hread⟩ := h
  obtain ⟨e', n', he', hn', hread'⟩ := h'
  cases hread.unique hread'
  exact ⟨he.value.symm.trans he'.value, hn.value.symm.trans hn'.value⟩

/-- The numbers of a key that is read fit their lengths, as its document is much shorter. -/
theorem fits_of_ofNumbers? {k : Rsa.PrivateKey} {der : Bytes}
    (h : Rsa.PrivateKey.ofNumbers? der = some k) : Fits k.toPublicKey := by
  obtain ⟨he, hn⟩ := Rsa.PrivateKey.widthOf_of_ofNumbers? h
  have hbound : Der.maxLength + 1 < 2 ^ 32 := by decide
  have hcontent := Ssh.length_naturalContent_le k.e
  have hcontent' := Ssh.length_naturalContent_le k.n
  exact ⟨by omega, by omega⟩

/-! ## Private keys -/

/-- An RSA key in a PEM text is read from a document that lists its numbers. -/
theorem exists_numbers_of_secretOfPem? {pem : String} {secret : Secret}
    (h : secretOfPem? .rsa pem = some secret) :
    ∃ k der, secret = .rsa k ∧ Rsa.PrivateKey.ofNumbers? der = some k := by
  simp only [secretOfPem?, Option.bind_eq_bind, Option.bind_eq_some_iff, Prod.exists] at h
  obtain ⟨label, der, -, h⟩ := h
  split at h
  case isTrue =>
    obtain ⟨k, hk, rfl⟩ := Option.map_eq_some_iff.1 h
    obtain ⟨info, -, -, hnumbers⟩ := Rsa.PrivateKey.decode?_eq_some_iff.1 hk
    exact ⟨k, info.key, rfl, hnumbers⟩
  case isFalse =>
    split at h
    case isTrue =>
      obtain ⟨k, hk, rfl⟩ := Option.map_eq_some_iff.1 h
      exact ⟨k, der, rfl, hk⟩
    case isFalse => cases h

theorem document_rsa_eq_ok_iff {k : Rsa.PrivateKey} {der : Bytes} :
    (Secret.rsa k).document = .ok der ↔ k.encode? = some der := by
  rw [Secret.document]
  cases k.encode? with
  | none => simp
  | some found => simp

/-! ## Pairs of texts -/

namespace Raw

variable {pem ssh : String} {kind : Kind} {wire : Bytes} {secret : Secret} {raw : Raw}

/-- Texts whose parts are read make a pair exactly if the wire form is that of the private key, and this
has a document. -/
theorem parse_eq_ok_iff (hline : wireOfLine ssh = .ok wire) (hkind : kindOfWire? wire = some kind)
    (hread : secretOfPem? kind pem = some secret) :
    parse pem ssh = .ok raw ↔
      wire = secret.publicWire ∧ ∃ der, secret.document = .ok der ∧ raw = ⟨kind, der, some wire⟩ := by
  have hparts : partsOf pem ssh = .ok (kind, wire, secret) := by
    simp only [partsOf, hline, ok_bind, hkind, hread]
  rw [parse, hparts, mapError_ok, ok_bind, bind_eq_ok_iff]
  constructor
  · rintro ⟨der, hder, h⟩
    split at h
    case isTrue hwire =>
      cases h
      exact ⟨hwire.symm, der, hder, rfl⟩
    case isFalse => cases h
  · rintro ⟨hwire, der, hder, rfl⟩
    exact ⟨der, hder, if_pos hwire.symm⟩

/-- Texts with an RSA key and a wire form of RSA keys make a pair exactly if the one names the other, and
the key can be written. -/
theorem parse_rsa_eq_ok_iff {first word : List Char} {rest : List (List Char)} {next : Nat}
    {k : Rsa.PrivateKey} (hread : secretOfPem? .rsa pem = some (.rsa k))
    (hwords : Text.words ssh.toList = first :: word :: rest) (hword : Base64.Canonical word wire)
    (hname : Ssh.readString? wire 0 = some (Bytes.ofText "ssh-rsa", next)) :
    parse pem ssh = .ok raw ↔
      Names wire k.toPublicKey ∧ ∃ der, k.encode? = some der ∧ raw = ⟨.rsa, der, some wire⟩ := by
  have hline : wireOfLine ssh = .ok wire := by
    rw [Base64.eq_encodeChars hword] at hwords
    exact wireOfLine_of_words hwords
  have hkind : kindOfWire? wire = some .rsa := by
    rw [kindOfWire?, hname, Option.bind_eq_bind, Option.bind_some]
    exact List.find?_cons_of_pos (by decide)
  obtain ⟨k', der, hsecret, hnumbers⟩ := exists_numbers_of_secretOfPem? hread
  cases hsecret
  rw [parse_eq_ok_iff hline hkind hread, names_iff, Secret.publicWire]
  simp only [document_rsa_eq_ok_iff, fits_of_ofNumbers? hnumbers, true_and]

end Raw

/-! ## The law of public keys -/

/-- A wire form is read back as the name, the exponent and the modulus that it was written from, so keys
have the same wire form exactly if they have the same numbers. Texts with a private key and a wire form of
RSA keys make a pair exactly if the wire form names the private key, and this has a document, which takes
factors without a common divisor. Whatever the data, no string is read from outside of them. -/
theorem wire_names_one_key :
    (∀ k, Fits k → Names (rsaWire k) k) ∧
    (∀ k k', Fits k → Fits k' → (rsaWire k = rsaWire k' ↔ k.e = k'.e ∧ k.n = k'.n)) ∧
    (∀ pem ssh secret first word rest wire next, secretOfPem? .rsa pem = some secret →
      Text.words ssh.toList = first :: word :: rest → Base64.Canonical word wire →
      Ssh.readString? wire 0 = some (Bytes.ofText "ssh-rsa", next) →
      ∃ k, secret = .rsa k ∧ ∀ raw, Raw.parse pem ssh = .ok raw ↔
        Names wire k.toPublicKey ∧ ∃ der, k.encode? = some der ∧ raw = ⟨.rsa, der, some wire⟩) ∧
    (∀ k : Rsa.PrivateKey, (∃ der, k.encode? = some der) ↔
      Nat.Coprime k.q k.p ∧ ∀ coefficient, k.coefficient? = some coefficient →
        (k.documentOf coefficient).length ≤ Der.maxLength) ∧
    (∀ data offset, Ssh.readString? data offset = none ∨
      ∃ content next, Ssh.readString? data offset = some (content, next) ∧
        offset + 4 ≤ next ∧ next ≤ data.length ∧ content = (data.take next).drop (offset + 4)) := by
  refine ⟨fun k hk => names_iff.2 ⟨hk, rfl⟩, ?_, ?_, fun k => Rsa.PrivateKey.exists_encode?_iff, ?_⟩
  · intro k k' hk hk'
    constructor
    · intro hwire
      exact Names.unique (names_iff.2 ⟨hk, rfl⟩) (names_iff.2 ⟨hk', hwire⟩)
    · rintro ⟨he, hn⟩
      rw [rsaWire, rsaWire, he, hn]
  · intro pem ssh secret first word rest wire next hread hwords hword hname
    -- What is read as RSA holds the numbers of an RSA key.
    obtain ⟨k, -, rfl, -⟩ := exists_numbers_of_secretOfPem? hread
    exact ⟨k, rfl, fun raw => Raw.parse_rsa_eq_ok_iff hread hwords hword hname⟩
  · intro data offset
    cases hread : Ssh.readString? data offset with
    | none => exact .inl rfl
    | some found => exact .inr ⟨found.1, found.2, rfl, Ssh.readString?_within hread⟩

/-- The PEM text of the document of a key with a given coefficient. -/
def pemOf (k : Rsa.PrivateKey) (coefficient : Nat) : String :=
  Pem.encode privateLabel (k.documentOf coefficient)

theorem secretOfPem?_pemOf {k : Rsa.PrivateKey} {coefficient : Nat} (hvalid : k.isValid)
    (hlength : (k.documentOf coefficient).length ≤ Der.maxLength) :
    secretOfPem? .rsa (pemOf k coefficient) = some (.rsa k) := by
  have hdocument : secretOfDocument? .rsa (k.documentOf coefficient) = some (.rsa k) := by
    rw [secretOfDocument?, Rsa.PrivateKey.decode?_documentOf hvalid hlength]
    rfl
  rw [pemOf, secretOfPem?_encode (ne_nil_of_secretOfDocument? hdocument), hdocument]

def smallKey : Rsa.PrivateKey := ⟨⟨33, 3⟩, 7, 3, 11⟩

theorem secretOfPem?_smallKey : secretOfPem? .rsa (pemOf smallKey 2) = some (.rsa smallKey) :=
  secretOfPem?_pemOf (by decide) (by decide)

/-- The texts of a key and of its own wire form make a pair, and those of another wire form do not. -/
theorem wire_names_one_key_smallKey :
    Fits ⟨33, 3⟩ ∧ Names (rsaWire ⟨33, 3⟩) ⟨33, 3⟩ ∧ rsaWire ⟨33, 3⟩ ≠ rsaWire ⟨35, 3⟩ ∧
      (∃ raw, Raw.parse (pemOf smallKey 2) (line .rsa (rsaWire ⟨33, 3⟩)) = .ok raw) ∧
      ¬ ∃ raw, Raw.parse (pemOf smallKey 2) (line .rsa (rsaWire ⟨35, 3⟩)) = .ok raw := by
  have hfits : Fits ⟨33, 3⟩ := ⟨by decide, by decide⟩
  have hfits' : Fits ⟨35, 3⟩ := ⟨by decide, by decide⟩
  obtain ⟨hnames, hwires, hparse, hdocument, -⟩ := wire_names_one_key
  obtain ⟨_, ⟨⟩, hown⟩ := hparse _ (line .rsa (rsaWire ⟨33, 3⟩)) _ _ _ _ _ 11 secretOfPem?_smallKey
    (words_line .rsa (by decide)) (Base64.canonical_encodeChars _) (by decide)
  obtain ⟨_, ⟨⟩, hother⟩ := hparse _ (line .rsa (rsaWire ⟨35, 3⟩)) _ _ _ _ _ 11 secretOfPem?_smallKey
    (words_line .rsa (by decide)) (Base64.canonical_encodeChars _) (by decide)
  obtain ⟨der, hder⟩ : ∃ der, smallKey.encode? = some der := by
    refine (hdocument smallKey).2 ⟨by decide, fun coefficient hcoefficient => ?_⟩
    have htwo : smallKey.coefficient? = some 2 := by decide +kernel
    obtain rfl := Option.some.inj (htwo.symm.trans hcoefficient)
    decide
  have hdiffer : rsaWire ⟨33, 3⟩ ≠ rsaWire ⟨35, 3⟩ := fun hsame =>
    absurd ((hwires _ _ hfits hfits').1 hsame).2 (by decide)
  refine ⟨hfits, hnames _ hfits, hdiffer, ⟨_, (hown _).2 ⟨hnames _ hfits, der, hder, rfl⟩⟩, ?_⟩
  rintro ⟨raw, hraw⟩
  obtain ⟨hforeign, -⟩ := (hother raw).1 hraw
  exact hdiffer (names_iff.1 hforeign).2.symm

def squareKey : Rsa.PrivateKey := ⟨⟨121, 3⟩, 7, 11, 11⟩

/-- A key whose factors are the same is read, and its wire form names it, but it has no document, so its
texts make no pair. -/
theorem parse_squareKey :
    secretOfPem? .rsa (pemOf squareKey 1) = some (.rsa squareKey) ∧
      Raw.wireOfLine (line .rsa (rsaWire ⟨121, 3⟩)) = .ok (rsaWire ⟨121, 3⟩) ∧
      Names (rsaWire ⟨121, 3⟩) squareKey.toPublicKey ∧
      Raw.parse (pemOf squareKey 1) (line .rsa (rsaWire ⟨121, 3⟩)) =
        .error (.invalidKeyMaterial "PKCS#8 cryptographic key data malformed") := by
  have hread : secretOfPem? .rsa (pemOf squareKey 1) = some (.rsa squareKey) :=
    secretOfPem?_pemOf (by decide) (by decide)
  have hline : Raw.wireOfLine (line .rsa (rsaWire ⟨121, 3⟩)) = .ok (rsaWire ⟨121, 3⟩) :=
    Raw.wireOfLine_line .rsa (by decide)
  have hkind : kindOfWire? (rsaWire ⟨121, 3⟩) = some .rsa := kindOfWire?_publicWire (.rsa squareKey)
  have hdocument : squareKey.encode? = none := by
    refine Option.eq_none_iff_forall_ne_some.2 fun der hder => ?_
    obtain ⟨hcoprime, -⟩ := Rsa.PrivateKey.exists_encode?_iff.1 ⟨der, hder⟩
    exact absurd hcoprime (by decide)
  refine ⟨hread, hline, names_iff.2 ⟨⟨by decide, by decide⟩, rfl⟩, ?_⟩
  simp only [Raw.parse, Raw.partsOf, hline, ok_bind, hkind, hread, mapError_ok, Secret.document, hdocument,
    error_bind]

end KeyPair
end PasswordVault
