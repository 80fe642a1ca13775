import PasswordVault.Proofs.Merge.CipherFields
import PasswordVault.Proofs.Merge.Independence

/-!
# The rules for items do not get in each other's way

Every rule for items looks at one field of an item, a login, a card or an identity, and writes that field
alone; no two rules of one group look at the same. So nothing is lost or crossed over by putting back what a
lens sees, and the order in which the rules are listed does not show.

* `VaultCipher.mergeRules_independent`: the fields of the rules, and what follows for every item and every
  order.
-/

namespace PasswordVault

open Merge (Record Rule Rules)

/-! ## Fields -/

/-- The fields of a login. -/
inductive Login.Field where
  | username
  | password
  | passwordRevisionDate
  | passwordHistory
  | uris
  | totp

def Login.Field.Value : Login.Field → Type
  | .username | .password | .totp => Option String
  | .passwordRevisionDate => Option Instant
  | .passwordHistory => List PasswordHistory
  | .uris => List LoginUri

def Login.Field.read : (field : Login.Field) → Login → field.Value
  | .username, l => l.username
  | .password, l => l.password
  | .passwordRevisionDate, l => l.passwordRevisionDate
  | .passwordHistory, l => l.passwordHistory
  | .uris, l => l.uris
  | .totp, l => l.totp

instance : Record Login where
  Name := Login.Field
  Value := Login.Field.Value
  read := Login.Field.read
  ext {l l'} h := by
    cases l
    cases l'
    simp only [Login.mk.injEq]
    exact ⟨h .username, h .password, h .passwordRevisionDate, h .passwordHistory, h .uris, h .totp⟩

-- All fields of a card and of an identity are single values.

instance : Record Card where
  Name := Card.Scalar
  Value _ := Option String
  read := Card.Scalar.read
  ext {c c'} h := by
    cases c
    cases c'
    simp only [Card.mk.injEq]
    exact ⟨h .cardholderName, h .brand, h .number, h .expMonth, h .expYear, h .code⟩

instance : Record Identity where
  Name := Identity.Scalar
  Value _ := Option String
  read := Identity.Scalar.read
  ext {i i'} h := by
    cases i
    cases i'
    simp only [Identity.mk.injEq]
    exact ⟨h .title, h .firstName, h .middleName, h .lastName, h .address1, h .address2, h .address3, h .city,
      h .state, h .postalCode, h .country, h .company, h .email, h .phone, h .ssn, h .username,
      h .passportNumber, h .licenseNumber⟩

/-- The fields of an item. -/
inductive VaultCipher.Field where
  | accountId
  | cipherId
  | folderId
  | organizationId
  | revisionDate
  | deletedDate
  | kind
  | name
  | notes
  | favorite
  | fields
  | tags
  | login
  | card
  | identity
  | secureNote
  | sshKey
  | key
  | synced

/-- What a field of an item holds. -/
def VaultCipher.Field.Value : VaultCipher.Field → Type
  | .accountId | .cipherId => String
  | .folderId | .organizationId | .name | .notes | .key => Option String
  | .revisionDate => Instant
  | .deletedDate => Option Instant
  | .kind => CipherKind
  | .favorite => Bool
  | .fields => List CustomField
  | .tags => List Tag
  | .login => Option Login
  | .card => Option Card
  | .identity => Option Identity
  | .secureNote => Option SecureNote
  | .sshKey => Option SshKey
  | .synced => List CipherContent

/-- What an item has in a field. -/
def VaultCipher.Field.read : (field : VaultCipher.Field) → VaultCipher → field.Value
  | .accountId, c => c.accountId
  | .cipherId, c => c.cipherId
  | .folderId, c => c.folderId
  | .organizationId, c => c.organizationId
  | .revisionDate, c => c.revisionDate
  | .deletedDate, c => c.deletedDate
  | .kind, c => c.kind
  | .name, c => c.name
  | .notes, c => c.notes
  | .favorite, c => c.favorite
  | .fields, c => c.fields
  | .tags, c => c.tags
  | .login, c => c.login
  | .card, c => c.card
  | .identity, c => c.identity
  | .secureNote, c => c.secureNote
  | .sshKey, c => c.sshKey
  | .key, c => c.key
  | .synced, c => c.synced

instance : Record VaultCipher where
  Name := VaultCipher.Field
  Value := VaultCipher.Field.Value
  read := VaultCipher.Field.read
  ext {c c'} h := by
    obtain ⟨content, synced⟩ := c
    obtain ⟨content', synced'⟩ := c'
    cases content
    cases content'
    simp only [VaultCipher.mk.injEq, CipherContent.mk.injEq]
    exact ⟨⟨h .accountId, h .cipherId, h .folderId, h .organizationId, h .revisionDate, h .deletedDate, h .kind,
      h .name, h .notes, h .favorite, h .fields, h .tags, h .login, h .card, h .identity, h .secureNote,
      h .sshKey, h .key⟩, h .synced⟩

/-! ## The rules of each part -/

-- The rules are passed one by one; every other field of the record is read off past the one that was put in.

theorem Login.onto_mergeRules :
    mergeRules.Onto [Login.Field.username, .totp, .password, .passwordRevisionDate, .uris] := by
  unfold mergeRules
  iterate 4
    refine .cons (Lens.focuses_optional (fun _ _ => rfl) (fun _ _ => Iff.rfl) ?_) (by simp) .leaf ?_
    · intro _ _ other hother
      cases other <;> first | rfl | exact absurd rfl hother
  refine .cons (Lens.focuses_field (fun _ _ => rfl) (fun _ _ => Iff.rfl) ?_) (by simp) .leaf .nil
  intro _ _ other hother
  cases other <;> first | rfl | exact absurd rfl hother

theorem Card.onto_mergeRules :
    mergeRules.Onto [Card.Scalar.cardholderName, .brand, .number, .expMonth, .expYear, .code] := by
  unfold mergeRules
  iterate 6
    refine .cons (Lens.focuses_optional (fun _ _ => rfl) (fun _ _ => Iff.rfl) ?_) (by simp) .leaf ?_
    · intro _ _ other hother
      cases other <;> first | rfl | exact absurd rfl hother
  exact .nil

/-- The rules for an identity are onto its fields, each once. -/
theorem Identity.onto_mergeRules :
    mergeRules.Onto [Identity.Scalar.title, .firstName, .middleName, .lastName, .address1, .address2, .address3,
      .city, .state, .postalCode, .country, .company, .email, .phone, .ssn, .username, .passportNumber,
      .licenseNumber] := by
  unfold mergeRules
  iterate 18
    refine .cons (Lens.focuses_optional (fun _ _ => rfl) (fun _ _ => Iff.rfl) ?_) (by simp) .leaf ?_
    · intro _ _ other hother
      cases other <;> first | rfl | exact absurd rfl hother
  exact .nil

namespace VaultCipher

/-- The rules for an item are onto its parts, each once. -/
theorem onto_partRules :
    partRules.Onto [Field.name, .notes, .favorite, .fields, .tags, .login, .card, .identity, .sshKey] := by
  unfold partRules
  refine .cons (Lens.focuses_optional (fun _ _ => rfl) (fun _ _ => Iff.rfl) ?name) (by simp) .leaf
    (.cons (Lens.focuses_optional (fun _ _ => rfl) (fun _ _ => Iff.rfl) ?notes) (by simp) .leaf
    (.cons (Lens.focuses_field (fun _ _ => rfl) (fun _ _ => Iff.rfl) ?favorite) (by simp) .leaf
    (.cons (Lens.focuses_field (fun _ _ => rfl) (fun _ _ => Iff.rfl) ?fields) (by simp) .leaf
    (.cons (Lens.focuses_field (fun _ _ => rfl) (fun _ _ => Iff.rfl) ?tags) (by simp) .leaf
    (.cons (Lens.focuses_optional (fun _ _ => rfl) (fun _ _ => Iff.rfl) ?login) (by simp)
      (.group Login.onto_mergeRules)
    (.cons (Lens.focuses_optional (fun _ _ => rfl) (fun _ _ => Iff.rfl) ?card) (by simp)
      (.group Card.onto_mergeRules)
    (.cons (Lens.focuses_optional (fun _ _ => rfl) (fun _ _ => Iff.rfl) ?identity) (by simp)
      (.group Identity.onto_mergeRules)
    (.cons (Lens.focuses_optional (fun _ _ => rfl) (fun _ _ => Iff.rfl) ?sshKey) (by simp) .leaf .nil))))))))
  all_goals
    intro _ _ other hother
    cases other <;> first | rfl | exact absurd rfl hother

/-- The rules for items are onto these fields, in every part each onto its own: what is put in is seen, and no
other field changes. So every lens that an item reaches is lossless for it, and the merge is the same in
every order of the rules of every part. -/
theorem mergeRules_independent :
    (partRules.Onto [Field.name, .notes, .favorite, .fields, .tags, .login, .card, .identity, .sshKey] ∧
      Login.mergeRules.Onto [Login.Field.username, .totp, .password, .passwordRevisionDate, .uris] ∧
      Card.mergeRules.Onto [Card.Scalar.cardholderName, .brand, .number, .expMonth, .expYear, .code] ∧
      Identity.mergeRules.Onto [Identity.Scalar.title, .firstName, .middleName, .lastName, .address1, .address2,
        .address3, .city, .state, .postalCode, .country, .company, .email, .phone, .ssn, .username,
        .passportNumber, .licenseNumber]) ∧
    (∀ c, mergeRules.isLosslessAt c = true) ∧
    ∀ rule, mergeRules.Reorders rule → ∀ base here there,
      rule.mergeIntoRemote base here there = mergeRules.mergeIntoRemote base here there := by
  have hindependent : mergeRules.Independent := .group onto_partRules
  refine ⟨⟨onto_partRules, Login.onto_mergeRules, Card.onto_mergeRules, Identity.onto_mergeRules⟩, ?_, ?_⟩
  · intro c
    exact hindependent.isLosslessAt (fun _ => rfl) c
  · intro rule hreorders base here there
    exact hreorders.merge_eq hindependent base here there there

/-- With the rules for the parts of an item listed backwards, edits of its name and its notes are merged as
well. -/
theorem mergeRules_backwards :
    ∃ list : List (Rule VaultCipher), partRules = .ofList list ∧
      (Rule.group .id (new "" "" .login Instant.epoch) (.ofList list.reverse)).mergeIntoRemote
          (new "account" "item" .login Instant.epoch)
          { new "account" "item" .login Instant.epoch with name := some "Mail" }
          { new "account" "item" .login Instant.epoch with notes := some "old" } =
        { new "account" "item" .login Instant.epoch with name := some "Mail", notes := some "old" } := by
  refine ⟨_, rfl, ?_⟩
  refine (mergeRules_independent.2.2 _ (.group _ _ ?_) _ _ _).trans ?_
  · exact Rules.reorders_ofList_of_perm (List.reverse_perm _).symm
  · decide +kernel

end VaultCipher
end PasswordVault
