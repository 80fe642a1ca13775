import PasswordVault.Cipher.Merge
import PasswordVault.Proofs.Merge.FieldOutcome

/-!
# No field of an item loses an update

The rules for items mention some thirty single values, most of them inside a login, a card or an
identity that may be absent. `VaultCipher.Scalar` lists them, and `Scalar.read` reads one of an
item: a value of an absent part is absent.

The main statement is `VaultCipher.mergeIntoRemote_noLostUpdate`. Whatever parts the three versions
have, and whatever shortcut the merge takes, every one of these values is merged by the same rule.
-/

namespace PasswordVault

open Merge (NoLostUpdate Rule Rules)

variable {F : Type}

/-! ## The single values of an item -/

/-- The single values of a login that are merged, by their types. -/
inductive Login.Scalar : Type → Type where
  | username : Scalar String
  | totp : Scalar String
  | password : Scalar String
  | passwordRevisionDate : Scalar Instant

def Login.Scalar.read : Login.Scalar F → Login → Option F
  | .username, l => l.username
  | .totp, l => l.totp
  | .password, l => l.password
  | .passwordRevisionDate, l => l.passwordRevisionDate

/-- The single values of a card. -/
inductive Card.Scalar where
  | cardholderName
  | brand
  | number
  | expMonth
  | expYear
  | code

def Card.Scalar.read : Card.Scalar → Card → Option String
  | .cardholderName, c => c.cardholderName
  | .brand, c => c.brand
  | .number, c => c.number
  | .expMonth, c => c.expMonth
  | .expYear, c => c.expYear
  | .code, c => c.code

/-- The single values of an identity. -/
inductive Identity.Scalar where
  | title
  | firstName
  | middleName
  | lastName
  | address1
  | address2
  | address3
  | city
  | state
  | postalCode
  | country
  | company
  | email
  | phone
  | ssn
  | username
  | passportNumber
  | licenseNumber

/-- A single value of an identity. -/
def Identity.Scalar.read : Identity.Scalar → Identity → Option String
  | .title, i => i.title
  | .firstName, i => i.firstName
  | .middleName, i => i.middleName
  | .lastName, i => i.lastName
  | .address1, i => i.address1
  | .address2, i => i.address2
  | .address3, i => i.address3
  | .city, i => i.city
  | .state, i => i.state
  | .postalCode, i => i.postalCode
  | .country, i => i.country
  | .company, i => i.company
  | .email, i => i.email
  | .phone, i => i.phone
  | .ssn, i => i.ssn
  | .username, i => i.username
  | .passportNumber, i => i.passportNumber
  | .licenseNumber, i => i.licenseNumber

/-- The single values of an item that are merged, by their types. -/
inductive VaultCipher.Scalar : Type → Type 1 where
  | name : Scalar String
  | notes : Scalar String
  | favorite : Scalar Bool
  | sshKey : Scalar SshKey
  | login {F : Type} (field : Login.Scalar F) : Scalar F
  | card (field : Card.Scalar) : Scalar String
  | identity (field : Identity.Scalar) : Scalar String

/-- A single value of an item; one of an absent part is absent. -/
def VaultCipher.Scalar.read : VaultCipher.Scalar F → VaultCipher → Option F
  | .name, c => c.name
  | .notes, c => c.notes
  | .favorite, c => some c.favorite
  | .sshKey, c => c.sshKey
  | .login field, c => c.login.bind field.read
  | .card field, c => c.card.bind field.read
  | .identity field, c => c.identity.bind field.read

/-! An empty part, which stands in for an absent one, has no values. -/

theorem Login.Scalar.read_empty (field : Login.Scalar F) : field.read {} = none := by
  cases field <;> rfl

theorem Card.Scalar.read_empty (field : Card.Scalar) : field.read {} = none := by
  cases field <;> rfl

theorem Identity.Scalar.read_empty (field : Identity.Scalar) : field.read {} = none := by
  cases field <;> rfl

/-! ## Each part settles its values -/

-- Every value is found by passing over the rules in front of its own; the rules behind it spare it.

theorem Login.settles_mergeRules (field : Login.Scalar F) : mergeRules.Settles field.read := by
  unfold mergeRules
  cases field <;>
    repeat
      first
      | exact Rules.settles_scalar_optional (fun _ _ => rfl)
          (by simp [Rule.scalar, Rule.list])
      | apply Rules.settles_of_rest

theorem Card.settles_mergeRules (field : Card.Scalar) : mergeRules.Settles field.read := by
  unfold mergeRules
  cases field <;>
    repeat
      first
      | exact Rules.settles_scalar_optional (fun _ _ => rfl) (by simp [Rule.scalar])
      | apply Rules.settles_of_rest

theorem Identity.settles_mergeRules (field : Identity.Scalar) : mergeRules.Settles field.read := by
  unfold mergeRules
  cases field <;>
    repeat
      first
      | exact Rules.settles_scalar_optional (fun _ _ => rfl) (by simp [Rule.scalar])
      | apply Rules.settles_of_rest

namespace VaultCipher

/-- The rules for the parts settle each single value by itself. -/
theorem settles_partRules (field : Scalar F) : partRules.Settles field.read := by
  unfold partRules
  -- The rules before a field's own leave it alone, and its own settles it.
  cases field with
  | name =>
      exact Rules.settles_scalar_optional (fun _ _ => rfl) (by simp [Rule.scalar, Rule.list])
  | notes =>
      iterate 1 apply Rules.settles_of_rest
      exact Rules.settles_scalar_optional (fun _ _ => rfl) (by simp [Rule.scalar, Rule.list])
  | favorite =>
      iterate 2 apply Rules.settles_of_rest
      exact Rules.settles_of_first (Rule.settles_scalar (Lens.putGet_field fun _ _ => rfl))
        (by simp [Rule.scalar, Rule.list, Scalar.read])
  | login field =>
      iterate 5 apply Rules.settles_of_rest
      exact Rules.settles_group_optional (fun _ _ => rfl) (Login.settles_mergeRules field)
        field.read_empty (by simp [Rule.scalar])
  | card field =>
      iterate 6 apply Rules.settles_of_rest
      exact Rules.settles_group_optional (fun _ _ => rfl) (Card.settles_mergeRules field)
        field.read_empty (by simp [Rule.scalar])
  | identity field =>
      iterate 7 apply Rules.settles_of_rest
      exact Rules.settles_group_optional (fun _ _ => rfl) (Identity.settles_mergeRules field)
        field.read_empty (by simp [Rule.scalar])
  | sshKey =>
      iterate 8 apply Rules.settles_of_rest
      exact Rules.settles_scalar_optional (fun _ _ => rfl) Rules.spares_ofList_nil

/-! ## The whole item -/

/-- The whole item is never absent, so its placeholder does not show. -/
theorem settles_mergeRules (field : Scalar F) : mergeRules.Settles field.read :=
  Rule.settles_group Lens.putGet_id (settles_partRules field) (Or.inl (by simp [Lens.id]))

/-- No single value of an item loses an update: a remote change wins, without one a local change is
kept, and without either the value is the one of the base or of the server. -/
theorem mergeIntoRemote_noLostUpdate (field : Scalar F) (base here there : VaultCipher) :
    NoLostUpdate (field.read base) (field.read here) (field.read there)
      (field.read (mergeRules.mergeIntoRemote base here there)) := by
  rw [Rule.mergeIntoRemote]
  exact (settles_mergeRules field).outcome base here there there

end VaultCipher
end PasswordVault
