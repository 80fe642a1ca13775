import PasswordVault.Cipher
import PasswordVault.Merge.Rule

/-!
# Merging ciphers

Local edits of an item are reconciled with a newer server copy field by field, against the copy that
both descend from. Whatever no rule mentions is taken from the server: identifiers, folder,
organization, dates, the password history and the key of the item.
-/

namespace PasswordVault

open Merge (Rule Rules)

/-- The rules for the parts of a login. The password and its date are merged independently. -/
def Login.mergeRules : Rules Login :=
  .ofList [
      .scalar (.optional (·.username) fun x v => { x with username := v }),
      .scalar (.optional (·.totp) fun x v => { x with totp := v }),
      .scalar (.optional (·.password) fun x v => { x with password := v }),
      .scalar (.optional (·.passwordRevisionDate) fun x v => { x with passwordRevisionDate := v }),
      .list (.field (·.uris) fun x v => { x with uris := v })]

def Card.mergeRules : Rules Card :=
  .ofList [
      .scalar (.optional (·.cardholderName) fun x v => { x with cardholderName := v }),
      .scalar (.optional (·.brand) fun x v => { x with brand := v }),
      .scalar (.optional (·.number) fun x v => { x with number := v }),
      .scalar (.optional (·.expMonth) fun x v => { x with expMonth := v }),
      .scalar (.optional (·.expYear) fun x v => { x with expYear := v }),
      .scalar (.optional (·.code) fun x v => { x with code := v })]

/-- The rules for the parts of an identity. -/
def Identity.mergeRules : Rules Identity :=
  .ofList [
      .scalar (.optional (·.title) fun x v => { x with title := v }),
      .scalar (.optional (·.firstName) fun x v => { x with firstName := v }),
      .scalar (.optional (·.middleName) fun x v => { x with middleName := v }),
      .scalar (.optional (·.lastName) fun x v => { x with lastName := v }),
      .scalar (.optional (·.address1) fun x v => { x with address1 := v }),
      .scalar (.optional (·.address2) fun x v => { x with address2 := v }),
      .scalar (.optional (·.address3) fun x v => { x with address3 := v }),
      .scalar (.optional (·.city) fun x v => { x with city := v }),
      .scalar (.optional (·.state) fun x v => { x with state := v }),
      .scalar (.optional (·.postalCode) fun x v => { x with postalCode := v }),
      .scalar (.optional (·.country) fun x v => { x with country := v }),
      .scalar (.optional (·.company) fun x v => { x with company := v }),
      .scalar (.optional (·.email) fun x v => { x with email := v }),
      .scalar (.optional (·.phone) fun x v => { x with phone := v }),
      .scalar (.optional (·.ssn) fun x v => { x with ssn := v }),
      .scalar (.optional (·.username) fun x v => { x with username := v }),
      .scalar (.optional (·.passportNumber) fun x v => { x with passportNumber := v }),
      .scalar (.optional (·.licenseNumber) fun x v => { x with licenseNumber := v })]

namespace VaultCipher

/-- The rules for the parts of an item. -/
def partRules : Rules VaultCipher :=
  .ofList [
      .scalar (.optional (·.name) fun x v => { x with name := v }),
      .scalar (.optional (·.notes) fun x v => { x with notes := v }),
      .scalar (.field (·.favorite) fun x v => { x with favorite := v }),
      .list (.field (·.fields) fun x v => { x with fields := v }),
      .list (.field (·.tags) fun x v => { x with tags := v }),
      .group (.optional (·.login) fun x v => { x with login := v }) {} Login.mergeRules,
      .group (.optional (·.card) fun x v => { x with card := v }) {} Card.mergeRules,
      .group (.optional (·.identity) fun x v => { x with identity := v }) {} Identity.mergeRules,
      .scalar (.optional (·.sshKey) fun x v => { x with sshKey := v })]

def mergeRules : Rule VaultCipher := .group .id (new "" "" .login Instant.epoch) partRules

/-- A local item reconciled with a newer server copy, which becomes the copy that it descends from. An
item that was never synced takes the server copy as the base, so that every local edit is kept. -/
def mergeWithRemote (here there : VaultCipher) : VaultCipher :=
  let there := there.detached
  let base := here.remoteEntity?.getD there
  { mergeRules.mergeIntoRemote base here.detached there with synced := [there.toCipherContent] }

end VaultCipher
end PasswordVault
