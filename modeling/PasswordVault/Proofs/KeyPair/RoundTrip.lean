import PasswordVault.Proofs.KeyPair.Documents
import PasswordVault.Proofs.KeyPair.Lines
import PasswordVault.Proofs.KeyPair.Refusal
import PasswordVault.Proofs.Outcome

/-!
# Shown pairs — what their texts are read as

A pair is shown as a PEM text of its private key and a public key line, and both texts are read on their
own. The PEM text holds the private key that was shown, whatever document it came from, and the line holds
the public key that was shown, whatever comment follows. So a pair is read back from its texts exactly if
the public key that is shown is the one of the private key, and a public key that is supplied with the
private key is shown as it is.

- `KeyPair.Raw.populate_eq_ok_iff`: the forms of a pair;
- `KeyPair.Raw.parse_populate`: a pair of a private key alone is read back from its texts;
- `KeyPair.Raw.populate_own_iff`: which pairs are shown with the public key of their private key.
-/

namespace PasswordVault
namespace KeyPair
namespace Raw

/-! ## The forms of a pair -/

/-- The public key that is shown with a private key. -/
def shownWire (raw : Raw) (secret : Secret) : Bytes := raw.publicKey.getD secret.publicWire

/-- The forms of a pair whose private key was read and has a document. -/
def shown (raw : Raw) (secret : Secret) (der : Bytes) : KeyPair where
  kind := raw.kind
  publicPart :=
    { encoded := raw.shownWire secret
      ssh := line raw.kind (raw.shownWire secret)
      fingerprint := fingerprint (raw.shownWire secret) }
  privatePart :=
    { encoded := raw.privateKey
      pem := Pem.encode privateLabel der
      fingerprint := fingerprint raw.privateKey }

@[simp] theorem shown_encoded (raw : Raw) (secret : Secret) (der : Bytes) :
    (raw.shown secret der).publicPart.encoded = raw.shownWire secret :=
  rfl

@[simp] theorem shown_ssh (raw : Raw) (secret : Secret) (der : Bytes) :
    (raw.shown secret der).publicPart.ssh = line raw.kind (raw.shownWire secret) :=
  rfl

@[simp] theorem shown_pem (raw : Raw) (secret : Secret) (der : Bytes) :
    (raw.shown secret der).privatePart.pem = Pem.encode privateLabel der :=
  rfl

theorem shownWire_eq_iff {raw : Raw} {secret : Secret} :
    raw.shownWire secret = secret.publicWire ↔
      ∀ supplied, raw.publicKey = some supplied → supplied = secret.publicWire := by
  rw [shownWire]
  cases raw.publicKey with
  | none => simp
  | some supplied => simp

/-- A raw key is completed exactly if its document holds a private key of its kind that has a document of its
own. -/
theorem populate_eq_ok_iff {raw : Raw} {p : KeyPair} :
    populate raw = .ok p ↔ ∃ secret der, secretOfDocument? raw.kind raw.privateKey = some secret ∧
      secret.document = .ok der ∧ p = raw.shown secret der := by
  rw [populate]
  cases hread : secretOfDocument? raw.kind raw.privateKey with
  | none => simp
  | some secret =>
      simp only [bind_eq_ok_iff]
      constructor
      · rintro ⟨der, hder, hp⟩
        cases hp
        exact ⟨secret, der, rfl, hder, rfl⟩
      · rintro ⟨_, der, hsecret, hder, rfl⟩
        cases hsecret
        exact ⟨der, hder, rfl⟩

/-! ## Reading the texts of a pair -/

variable {kind : Kind} {der der' : Bytes} {secret : Secret}

theorem kind_of_secretOfDocument? (h : secretOfDocument? kind der = some secret) :
    secret.kind = kind := by
  cases kind with
  | rsa =>
      obtain ⟨k, -, rfl⟩ := Option.map_eq_some_iff.1 h
      rfl
  | ed25519 =>
      obtain ⟨seed, -, rfl⟩ := Option.map_eq_some_iff.1 h
      rfl

/-- The PEM text of a private key holds this key, and no key of another kind. -/
theorem secretOfPem?_document (hread : secretOfDocument? kind der = some secret)
    (hdocument : secret.document = .ok der') (kind' : Kind) :
    secretOfPem? kind' (Pem.encode privateLabel der') = if kind' = kind then some secret else none := by
  have hown := secretOfDocument?_document hread hdocument
  rw [secretOfPem?_encode (ne_nil_of_secretOfDocument? hown)]
  split
  case isTrue hkind => rw [hkind, hown]
  case isFalse hkind =>
      cases hforeign : secretOfDocument? kind' der' with
      | none => rfl
      | some secret' => exact absurd (kinds_eq_of_secretOfDocument? hforeign hown) hkind

/-- What the texts of a private key and of a line are read as. -/
theorem partsOf_document (hread : secretOfDocument? kind der = some secret)
    (hdocument : secret.document = .ok der') {ssh : String} {wire : Bytes}
    (hline : wireOfLine ssh = .ok wire) :
    partsOf (Pem.encode privateLabel der') ssh =
      match kindOfWire? wire with
      | none => .error .unsupportedType
      | some kind' => if kind' = kind then .ok (kind, wire, secret) else .error (.privateKey kind') := by
  rw [partsOf, hline, ok_bind]
  cases kindOfWire? wire with
  | none => rfl
  | some kind' =>
      simp only [secretOfPem?_document hread hdocument]
      by_cases hkind : kind' = kind
      · simp [hkind]
      · simp [hkind]

/-- The texts of a private key and of its own public key are read as this pair. -/
theorem parse_own (hread : secretOfDocument? kind der = some secret)
    (hdocument : secret.document = .ok der') {ssh : String}
    (hline : wireOfLine ssh = .ok secret.publicWire) :
    parse (Pem.encode privateLabel der') ssh = .ok ⟨kind, der', some secret.publicWire⟩ := by
  have hkind := kindOfWire?_publicWire secret
  rw [kind_of_secretOfDocument? hread] at hkind
  have hparts := partsOf_document hread hdocument hline
  simp only [hkind, if_true] at hparts
  simp [parse, hparts, ok_bind, hdocument]

theorem publicWire_ne_nil (secret : Secret) : secret.publicWire ≠ [] :=
  ne_nil_of_kindOfWire? (kindOfWire?_publicWire secret)

/-! ## Private keys alone -/

/-- A pair of a private key alone is read back from its texts, whatever the comment: with its kind and
the public key that was shown. What is read is shown alike, and its texts are read as the same again. -/
theorem parse_populate {p : KeyPair} (h : populate ⟨kind, der, none⟩ = .ok p) (comment : String) :
    ∃ raw p', parse p.privatePart.pem (p.publicPart.ssh ++ " " ++ comment) = .ok raw ∧
      raw.kind = kind ∧ raw.publicKey = some p.publicPart.encoded ∧
      populate raw = .ok p' ∧ p'.publicPart = p.publicPart ∧
      p'.privatePart.pem = p.privatePart.pem ∧
      parse p'.privatePart.pem p'.publicPart.ssh = .ok raw := by
  obtain ⟨secret, der', hread, hdocument, rfl⟩ := populate_eq_ok_iff.1 h
  have hne := publicWire_ne_nil secret
  have hown := secretOfDocument?_document hread hdocument
  refine ⟨⟨kind, der', some secret.publicWire⟩, shown ⟨kind, der', some secret.publicWire⟩ secret der',
    parse_own hread hdocument (wireOfLine_comment kind hne comment), rfl, rfl,
    populate_eq_ok_iff.2 ⟨secret, der', hown, hdocument, rfl⟩, rfl, rfl,
    parse_own hread hdocument (wireOfLine_line kind hne)⟩

/-- A seed of which both keys are known. -/
def knownSeed : Block 32 :=
  Block.fit 32 [0x9d, 0x61, 0xb1, 0x9d, 0xef, 0xfd, 0x5a, 0x60, 0xba, 0x84, 0x4a, 0xf4, 0x92, 0xec, 0x2c,
    0xc4, 0x44, 0x49, 0xc5, 0x69, 0x7b, 0x32, 0x69, 0x19, 0x70, 0x3b, 0xac, 0x03, 0x1c, 0xae, 0x7f, 0x60]

/-- The document of a seed without its public key. -/
def seedDocument (seed : Block 32) : Bytes :=
  Der.PrivateKeyInfo.encode ⟨Ed25519.algorithm, Der.element Der.octetStringTag seed.bytes, none⟩

theorem secretOfDocument?_knownSeed :
    secretOfDocument? .ed25519 (seedDocument knownSeed) = some (.ed25519 knownSeed) := by
  have hread : Ed25519.decode? (seedDocument knownSeed) = some knownSeed :=
    Ed25519.decode?_encode_info (fun _ hkey => by cases hkey) (by decide)
  rw [secretOfDocument?, hread]
  rfl

theorem populate_knownSeed (publicKey : Option Bytes) :
    populate ⟨.ed25519, seedDocument knownSeed, publicKey⟩ =
      .ok (shown ⟨.ed25519, seedDocument knownSeed, publicKey⟩ (.ed25519 knownSeed)
        (Ed25519.encode knownSeed)) :=
  populate_eq_ok_iff.2 ⟨_, _, secretOfDocument?_knownSeed, rfl, rfl⟩

/-- A document of the older version is read back from its texts as one of the newer. -/
theorem parse_populate_knownSeed : ∃ p raw p',
    populate ⟨.ed25519, seedDocument knownSeed, none⟩ = .ok p ∧
      parse p.privatePart.pem (p.publicPart.ssh ++ " " ++ "ann@host") = .ok raw ∧
      raw.kind = .ed25519 ∧ raw.publicKey = some p.publicPart.encoded ∧
      populate raw = .ok p' ∧ p'.publicPart = p.publicPart ∧
      p'.privatePart.pem = p.privatePart.pem ∧
      parse p'.privatePart.pem p'.publicPart.ssh = .ok raw := by
  have hshown := populate_knownSeed none
  obtain ⟨raw, p', hread⟩ := parse_populate hshown "ann@host"
  exact ⟨_, raw, p', hshown, hread⟩

/-! ## Supplied public keys -/

/-- Why the texts of a private key and of a wire form are no pair. -/
def mismatch? (kind : Kind) (secret : Secret) (wire : Bytes) : Option Fault :=
  if wire = secret.publicWire then none
  else if wire = [] then some .noKeyData
  else match kindOfWire? wire with
    | none => some .unsupportedType
    | some kind' => some (if kind' = kind then .foreignPublicKey else .privateKey kind')

/-- The texts of a private key and of a wire form are refused exactly for their mismatch. -/
theorem refusal?_line (hread : secretOfDocument? kind der = some secret)
    (hdocument : secret.document = .ok der') (wire : Bytes) :
    refusal? (Pem.encode privateLabel der') (line kind wire) =
      (mismatch? kind secret wire).map .fault := by
  have hown := publicWire_ne_nil secret
  have hkind := kindOfWire?_publicWire secret
  rw [kind_of_secretOfDocument? hread] at hkind
  -- No word stands for an empty wire form, so that line fails before its kind is asked for.
  by_cases hempty : wire = []
  · subst hempty
    have hparts : partsOf (Pem.encode privateLabel der') (line kind []) = .error .noKeyData := by
      rw [partsOf, wireOfLine_line_nil, error_bind]
    simp [refusal?, hparts, mismatch?, hown.symm]
  · have hparts := partsOf_document hread hdocument (wireOfLine_line kind hempty)
    by_cases hwire : wire = secret.publicWire
    · subst hwire
      simp only [hkind, if_true] at hparts
      simp [refusal?, hparts, hdocument, mismatch?]
    · cases hfound : kindOfWire? wire with
      | none =>
          simp only [hfound] at hparts
          simp [refusal?, hparts, mismatch?, hwire, hempty, hfound]
      | some kind' =>
          by_cases hsame : kind' = kind
          · simp only [hfound, hsame, if_true] at hparts
            simp [refusal?, hparts, hdocument, mismatch?, hwire, Ne.symm hwire, hempty, hfound, hsame]
          · simp only [hfound, if_neg hsame] at hparts
            simp [refusal?, hparts, mismatch?, hwire, hempty, hfound, hsame]

/-- A pair of texts is read exactly if there is no reason to refuse it. -/
theorem exists_parse_iff {pem ssh : String} :
    (∃ parsed, parse pem ssh = .ok parsed) ↔ refusal? pem ssh = none := by
  constructor
  · rintro ⟨parsed, hparsed⟩
    by_contra hrefused
    obtain ⟨reason, hreason⟩ := Option.ne_none_iff_exists'.1 hrefused
    have herror := parse_eq_error_iff.2 ⟨reason, hreason, rfl⟩
    rw [hparsed] at herror
    cases herror
  · intro hnone
    cases hparse : parse pem ssh with
    | ok parsed => exact ⟨parsed, rfl⟩
    | error e =>
        obtain ⟨reason, hreason, -⟩ := parse_eq_error_iff.1 hparse
        rw [hnone] at hreason
        cases hreason

/-- Two texts are a pair exactly if the wire form is that of the private key. -/
theorem mismatch?_eq_none_iff {wire : Bytes} :
    mismatch? kind secret wire = none ↔ wire = secret.publicWire := by
  rw [mismatch?]
  split
  case isTrue hwire => exact iff_of_true rfl hwire
  case isFalse hwire =>
      refine iff_of_false ?_ hwire
      split
      · exact Option.some_ne_none _
      · split
        · exact Option.some_ne_none _
        · exact Option.some_ne_none _

/-- The public key of another pair is told apart from a text that names no such key. -/
theorem mismatch?_eq_foreign_iff {wire : Bytes} :
    mismatch? kind secret wire = some .foreignPublicKey ↔
      wire ≠ secret.publicWire ∧ kindOfWire? wire = some kind := by
  rw [mismatch?]
  split
  case isTrue hwire => simp [hwire]
  case isFalse hwire =>
      split
      case isTrue hempty =>
          subst hempty
          have hnone : kindOfWire? [] = none := rfl
          simp [hnone]
      case isFalse =>
          cases kindOfWire? wire with
          | none => simp
          | some kind' => by_cases hkind : kind' = kind <;> simp [hkind, hwire]

/-- A pair is shown with the public key of its private key exactly if no other is supplied. Exactly then
its texts are read back as a pair, and they are refused as a mismatch exactly if the public key that is
supplied is another one that names the same kind. -/
theorem populate_own_iff {raw : Raw} {p : KeyPair} (h : populate raw = .ok p) :
    ∃ secret, secretOfDocument? raw.kind raw.privateKey = some secret ∧
      (p.publicPart.encoded = secret.publicWire ↔
        ∀ supplied, raw.publicKey = some supplied → supplied = secret.publicWire) ∧
      ((∃ parsed, parse p.privatePart.pem p.publicPart.ssh = .ok parsed) ↔
        p.publicPart.encoded = secret.publicWire) ∧
      (refusal? p.privatePart.pem p.publicPart.ssh = some (.fault .foreignPublicKey) ↔
        p.publicPart.encoded ≠ secret.publicWire ∧
          kindOfWire? p.publicPart.encoded = some raw.kind) := by
  obtain ⟨secret, der, hread, hdocument, rfl⟩ := populate_eq_ok_iff.1 h
  have hrefusal := refusal?_line hread hdocument (raw.shownWire secret)
  refine ⟨secret, hread, shownWire_eq_iff, ?_, ?_⟩
  · rw [exists_parse_iff, shown_pem, shown_ssh, shown_encoded, hrefusal, Option.map_eq_none_iff,
      mismatch?_eq_none_iff]
  · rw [shown_pem, shown_ssh, shown_encoded, hrefusal, ← mismatch?_eq_foreign_iff]
    simp

/-- With its own public key supplied a pair is read back. -/
theorem populate_own_knownSeed : ∃ p parsed,
    populate ⟨.ed25519, seedDocument knownSeed, some (ed25519Wire knownSeed)⟩ = .ok p ∧
      p.publicPart.encoded = ed25519Wire knownSeed ∧
      parse p.privatePart.pem p.publicPart.ssh = .ok parsed := by
  have hshown := populate_knownSeed (some (ed25519Wire knownSeed))
  obtain ⟨secret, hsecret, hown, hread, -⟩ := populate_own_iff hshown
  obtain rfl := Option.some.inj (secretOfDocument?_knownSeed.symm.trans hsecret)
  have hencoded := hown.2 fun supplied hsupplied => (Option.some.inj hsupplied).symm
  obtain ⟨parsed, hparsed⟩ := hread.2 hencoded
  exact ⟨_, parsed, hshown, hencoded, hparsed⟩

/-- With the public key of another seed supplied a pair is shown with that, and its texts are refused. -/
theorem populate_foreignKey : ∃ p e,
    populate ⟨.ed25519, seedDocument knownSeed, some (ed25519Wire (Block.fit 32 []))⟩ = .ok p ∧
      secretOfDocument? .ed25519 (seedDocument knownSeed) = some (.ed25519 knownSeed) ∧
      p.publicPart.encoded ≠ (Secret.ed25519 knownSeed).publicWire ∧
      parse p.privatePart.pem p.publicPart.ssh = .error e ∧
      e.message = "Invalid key material: public key does not belong to the private key " ++
        "(BEGIN PRIVATE KEY)" := by
  have hother : ed25519Wire (Block.fit 32 []) ≠ ed25519Wire knownSeed := by decide +kernel
  have hrefusal := refusal?_line secretOfDocument?_knownSeed rfl (ed25519Wire (Block.fit 32 []))
  have hforeign : mismatch? .ed25519 (.ed25519 knownSeed) (ed25519Wire (Block.fit 32 [])) =
      some .foreignPublicKey :=
    mismatch?_eq_foreign_iff.2 ⟨hother, kindOfWire?_publicWire (.ed25519 _)⟩
  rw [hforeign, Option.map_some] at hrefusal
  refine ⟨_, _, populate_knownSeed _, secretOfDocument?_knownSeed, hother,
    parse_eq_error_iff.2 ⟨_, hrefusal, rfl⟩, ?_⟩
  rw [shown_pem, Pem.header?_encode (by decide) (by decide) (by decide)]
  decide +kernel

end Raw
end KeyPair
end PasswordVault
