import PasswordVault.Cipher.Merge

/-!
# The outcome of merging items

The rules for items are a tree that is walked with a carrier in hand. This module says once what the
walk amounts to, record by record, so that no later proof looks at a rule again:

- `Merge.mergePart`: the outcome for an optional part with rules of its own;
- `Login.merge_mergeRules`, `Card.merge_mergeRules`, `Identity.merge_mergeRules`: the outcome for the
  parts of an item, field by field;
- `VaultCipher.merge_mergeRules`: the outcome for an item.

The first consequence is which parts a carrier keeps. `VaultCipher.unlisted` gathers the parts of an
item that no rule mentions, and `VaultCipher.unlisted_merge_eq_iff` says when the merge has those of
the carrier.
-/

namespace PasswordVault

namespace Merge

variable {S F α : Type}

/-! ## Single rules -/

/-- The outcome for an optional part: removed if both sides lack it, taken from the server if it was
not touched, and else merged by the rules for it. -/
def mergePart [DecidableEq F] (placeholder : F) (children : Rules F)
    (base here there carrier : Option F) : Option F :=
  if here = none ∧ there = none then none
  else if base = here then there
  else
    some (children.merge (base.getD placeholder) (here.getD placeholder) (there.getD placeholder)
      (carrier.getD placeholder))

/-- A placeholder that lacks a value shows no more of it than an absent part does. -/
theorem view_getD {view : F → Option α} {placeholder : F} (h : view placeholder = none)
    (part : Option F) : view (part.getD placeholder) = part.bind view := by
  cases part with
  | none => exact h
  | some x => rfl

/-- A group writes its merged part into the carrier and nothing else. -/
theorem Rule.merge_group [DecidableEq F] {lens : Lens S F} {placeholder : F} {children : Rules F}
    (base here there carrier : S) :
    (Rule.group lens placeholder children).merge base here there carrier =
      lens.set carrier (mergePart placeholder children (lens.get base) (lens.get here) (lens.get there)
        (lens.get carrier)) := by
  -- Every branch ends in one write, so the writing comes out of the cases.
  simp only [Rule.merge, mergePart, apply_ite (lens.set carrier)]

theorem Rule.merge_group_optional [DecidableEq F] {get : S → Option F} {put : S → Option F → S}
    {placeholder : F} {children : Rules F} (base here there carrier : S) :
    (Rule.group (.optional get put) placeholder children).merge base here there carrier =
      put carrier (mergePart placeholder children (get base) (get here) (get there) (get carrier)) :=
  Rule.merge_group base here there carrier

/-- A single value that may be absent is what its three versions amount to. -/
theorem Rule.merge_scalar_optional [DecidableEq F] {get : S → Option F} {put : S → Option F → S}
    (base here there carrier : S) :
    (Rule.scalar (.optional get put)).merge base here there carrier =
      put carrier (Merge.scalar (get base) (get here) (get there)) := by
  rw [Rule.scalar, Rule.merge]
  rfl

/-- A value that is never absent is taken from the server if it changed there, else from this side. -/
theorem scalar_some [DecidableEq F] (base here there : F) :
    Merge.scalar (some base) (some here) (some there) = some (if there = base then here else there) := by
  by_cases hthere : there = base
  · by_cases hhere : here = base
    · simp [Merge.scalar, changed?, hthere, hhere]
    · simp [Merge.scalar, changed?, hthere, hhere]
  · simp [Merge.scalar, changed?, hthere]

/-- A single value that is always there is the server's, or the local one where the server has kept that of
the base. -/
theorem Rule.merge_scalar_field [DecidableEq F] {get : S → F} {put : S → F → S}
    (base here there carrier : S) :
    (Rule.scalar (.field get put)).merge base here there carrier =
      put carrier (if get there = get base then get here else get there) := by
  simp only [Rule.scalar, Rule.merge, Lens.field, scalar_some]

/-- A list takes the edits of both sides. -/
theorem Rule.merge_list_field [DecidableEq F] {get : S → List F} {put : S → List F → S}
    (base here there carrier : S) :
    (Rule.list (.field get put)).merge base here there carrier =
      put carrier (mergeLists (get base) (get here) (get there)) := by
  rw [Rule.list, Rule.merge]
  rfl

end Merge

open Merge (mergeLists mergePart)

/-! ## The parts of an item -/

/-- The outcome for a login, field by field; all later statements about logins are read off it. -/
theorem Login.merge_mergeRules (base here there carrier : Login) :
    mergeRules.merge base here there carrier =
      { username := Merge.scalar base.username here.username there.username
        password := Merge.scalar base.password here.password there.password
        passwordRevisionDate := Merge.scalar base.passwordRevisionDate here.passwordRevisionDate
          there.passwordRevisionDate
        passwordHistory := carrier.passwordHistory
        uris := mergeLists base.uris here.uris there.uris
        totp := Merge.scalar base.totp here.totp there.totp } := by
  simp only [mergeRules, Merge.Rules.ofList, Merge.Rules.merge, Merge.Rule.merge_scalar_optional,
    Merge.Rule.merge_list_field]

/-- Every field of a card is a single value, so nothing of the carrier is left. -/
theorem Card.merge_mergeRules (base here there carrier : Card) :
    mergeRules.merge base here there carrier =
      { cardholderName := Merge.scalar base.cardholderName here.cardholderName there.cardholderName
        brand := Merge.scalar base.brand here.brand there.brand
        number := Merge.scalar base.number here.number there.number
        expMonth := Merge.scalar base.expMonth here.expMonth there.expMonth
        expYear := Merge.scalar base.expYear here.expYear there.expYear
        code := Merge.scalar base.code here.code there.code } := by
  simp only [mergeRules, Merge.Rules.ofList, Merge.Rules.merge, Merge.Rule.merge_scalar_optional]

/-- Every field of an identity is a single value, so nothing of the carrier is left. -/
theorem Identity.merge_mergeRules (base here there carrier : Identity) :
    mergeRules.merge base here there carrier =
      { title := Merge.scalar base.title here.title there.title
        firstName := Merge.scalar base.firstName here.firstName there.firstName
        middleName := Merge.scalar base.middleName here.middleName there.middleName
        lastName := Merge.scalar base.lastName here.lastName there.lastName
        address1 := Merge.scalar base.address1 here.address1 there.address1
        address2 := Merge.scalar base.address2 here.address2 there.address2
        address3 := Merge.scalar base.address3 here.address3 there.address3
        city := Merge.scalar base.city here.city there.city
        state := Merge.scalar base.state here.state there.state
        postalCode := Merge.scalar base.postalCode here.postalCode there.postalCode
        country := Merge.scalar base.country here.country there.country
        company := Merge.scalar base.company here.company there.company
        email := Merge.scalar base.email here.email there.email
        phone := Merge.scalar base.phone here.phone there.phone
        ssn := Merge.scalar base.ssn here.ssn there.ssn
        username := Merge.scalar base.username here.username there.username
        passportNumber := Merge.scalar base.passportNumber here.passportNumber there.passportNumber
        licenseNumber := Merge.scalar base.licenseNumber here.licenseNumber there.licenseNumber } := by
  simp only [mergeRules, Merge.Rules.ofList, Merge.Rules.merge, Merge.Rule.merge_scalar_optional]

namespace VaultCipher

/-! ## The whole item -/

/-- The outcome for an item, part by part. -/
theorem merge_partRules (base here there carrier : VaultCipher) :
    partRules.merge base here there carrier =
      { carrier with
        name := Merge.scalar base.name here.name there.name
        notes := Merge.scalar base.notes here.notes there.notes
        favorite := if there.favorite = base.favorite then here.favorite else there.favorite
        fields := mergeLists base.fields here.fields there.fields
        tags := mergeLists base.tags here.tags there.tags
        login := mergePart {} Login.mergeRules base.login here.login there.login carrier.login
        card := mergePart {} Card.mergeRules base.card here.card there.card carrier.card
        identity :=
          mergePart {} Identity.mergeRules base.identity here.identity there.identity carrier.identity
        sshKey := Merge.scalar base.sshKey here.sshKey there.sshKey } := by
  simp only [partRules, Merge.Rules.ofList, Merge.Rules.merge, Merge.Rule.merge_scalar_optional,
    Merge.Rule.merge_scalar_field, Merge.Rule.merge_list_field, Merge.Rule.merge_group_optional]

/-- An item that was not touched here is replaced as a whole, carrier and all. -/
theorem merge_mergeRules (base here there carrier : VaultCipher) :
    mergeRules.merge base here there carrier =
      if base = here then there else partRules.merge base here there carrier := by
  simp only [mergeRules, Merge.Rule.merge, Lens.id, Option.some.injEq, Option.getD_some]
  split
  case isTrue h => exact absurd h.1 (by simp)
  case isFalse => split <;> rfl

/-! ## What the carrier keeps -/

/-- The parts of an item that no rule mentions. -/
structure Unlisted where
  accountId : String
  cipherId : String
  folderId : Option String
  organizationId : Option String
  revisionDate : Instant
  deletedDate : Option Instant
  kind : CipherKind
  secureNote : Option SecureNote
  key : Option String
  remoteEntity : Option VaultCipher
deriving DecidableEq

/-- What an item has in the parts that no rule mentions. -/
def unlisted (c : VaultCipher) : Unlisted where
  accountId := c.accountId
  cipherId := c.cipherId
  folderId := c.folderId
  organizationId := c.organizationId
  revisionDate := c.revisionDate
  deletedDate := c.deletedDate
  kind := c.kind
  secureNote := c.secureNote
  key := c.key
  remoteEntity := c.remoteEntity?

/-- The carrier keeps them, unless the item was not touched here: then they are those of the server. -/
theorem unlisted_merge (base here there carrier : VaultCipher) :
    (mergeRules.merge base here there carrier).unlisted =
      if base = here then there.unlisted else carrier.unlisted := by
  rw [merge_mergeRules]
  split
  · rfl
  · rw [merge_partRules]
    rfl

/-- The carrier keeps what no rule mentions exactly if the item was touched here or the server has the
same there; in particular the server's own copy keeps it as a carrier. -/
theorem unlisted_merge_eq_iff (base here there carrier : VaultCipher) :
    (mergeRules.merge base here there carrier).unlisted = carrier.unlisted ↔
      base ≠ here ∨ there.unlisted = carrier.unlisted := by
  rw [unlisted_merge]
  split
  case isTrue h => simp [h]
  case isFalse h => simp [h]

/-- With an item that nobody touched the carrier is lost, down to the account that it belongs to. -/
theorem unlisted_merge_untouched :
    (mergeRules.merge (new "a" "c" .login Instant.epoch) (new "a" "c" .login Instant.epoch)
      (new "a" "c" .login Instant.epoch) (new "b" "c" .login Instant.epoch)).unlisted ≠
      (new "b" "c" .login Instant.epoch).unlisted := by
  decide +kernel

end VaultCipher
end PasswordVault
