import PasswordVault.Proofs.Merge.CipherFields
import PasswordVault.Proofs.Merge.CipherOutcome
import PasswordVault.Proofs.Merge.Lists

/-!
# The same edit on both sides

When both sides hold the same item, the merge is that item laid over the base
(`VaultCipher.laidOver`): a value that both sides cleared is as in the base again, since an absent
value is no change, and a list is the list of the base with the edits applied to it, which takes no
notice of moved items.

- `Merge.rebuilt`: the list that edits of a base lead to, against the list that they were read from;
- `VaultCipher.PlainEdit`: edits that clear no value and move no list item;
- `VaultCipher.mergeIntoRemote_agreement`: the outcome, and that it is the edit exactly if the edit is
  plain.
-/

namespace PasswordVault

namespace Merge

variable {F : Type} [DecidableEq F]

/-! ## Lists -/

/-- The list that the edits from one list to another lead to: the old items that are still there, in
their old order, and then the new ones. -/
def rebuilt (old new : List F) : List F := old.filter (· ∈ new) ++ new.filter (· ∉ old)

/-- Edits that both sides made count once. -/
theorem mergeLists_same (base items : List F) : mergeLists base items items = rebuilt base items := by
  have hnone : (items.filter (· ∉ base)).diff (items.filter (· ∉ base)) = [] := by
    rw [filter_diff_filter]
    simp
  rw [mergeLists_eq, hnone, List.append_nil, rebuilt]
  simp only [and_self]

/-- Items that were moved on both sides stay where they were. -/
example : mergeLists [1, 2] [2, 1, 3] [2, 1, 3] = [1, 2, 3] := by decide

theorem rebuilt_self (items : List F) : rebuilt items items = items := by
  have hkept : items.filter (· ∈ items) = items := by simp
  have hnew : items.filter (· ∉ items) = [] := by simp
  rw [rebuilt, hkept, hnew, List.append_nil]

theorem rebuilt_nil (items : List F) : rebuilt [] items = items := by
  simp [rebuilt]

/-! ## Values and parts -/

theorem scalar_same (base value : Option F) : Merge.scalar base value value = value.or base := by
  by_cases h : value = base
  · simp [Merge.scalar, changed?, h]
  · cases value <;> simp [Merge.scalar, changed?, h]

/-- A part that is the same on both sides is laid over the base. -/
theorem mergePart_same {placeholder : F} {children : Rules F} {lay : F → F → F}
    (hmerge : ∀ base x, children.merge base x x x = lay x base) (hself : ∀ x, lay x x = x)
    (base part : Option F) :
    mergePart placeholder children base part part part =
      part.map fun x => lay x (base.getD placeholder) := by
  cases part with
  | none => simp [mergePart]
  | some x =>
      by_cases h : base = some x
      · simp [mergePart, h, hself]
      · simp [mergePart, h, hmerge]

omit [DecidableEq F] in
theorem or_eq_left {value base : Option F} (h : value = none → base = none) : value.or base = value := by
  cases value with
  | none => simpa using h
  | some x => rfl

end Merge

open Merge (rebuilt)

/-! ## Logins -/

namespace Login

/-- A login whose absent values are those of another, and whose addresses are in its order. -/
def laidOver (l base : Login) : Login :=
  { l with
    username := l.username.or base.username
    password := l.password.or base.password
    passwordRevisionDate := l.passwordRevisionDate.or base.passwordRevisionDate
    uris := rebuilt base.uris l.uris
    totp := l.totp.or base.totp }

/-- An item merged with itself is laid over the base. -/
theorem merge_same (base l : Login) : mergeRules.merge base l l l = l.laidOver base := by
  simp only [merge_mergeRules, Merge.scalar_same, Merge.mergeLists_same, laidOver]

/-- A value that is absent is that of the base, in every part that the item has. -/
theorem read_laidOver {F : Type} (field : Scalar F) (l base : Login) :
    field.read (l.laidOver base) = (field.read l).or (field.read base) := by
  cases field <;> rfl

/-- A login is its values, its addresses and its password history. -/
theorem eq_of_read {l l' : Login} (hread : ∀ {F : Type} (field : Scalar F), field.read l = field.read l')
    (huris : l.uris = l'.uris) (hhistory : l.passwordHistory = l'.passwordHistory) : l = l' := by
  cases l
  cases l'
  rw [mk.injEq]
  exact ⟨hread .username, hread .password, hread .passwordRevisionDate, hhistory, huris, hread .totp⟩

theorem laidOver_eq_self {l base : Login}
    (huncleared : ∀ {F : Type} (field : Scalar F), field.read l = none → field.read base = none)
    (huris : rebuilt base.uris l.uris = l.uris) : l.laidOver base = l := by
  refine eq_of_read ?_ huris rfl
  intro F field
  rw [read_laidOver]
  exact Merge.or_eq_left (huncleared field)

theorem laidOver_self (l : Login) : l.laidOver l = l :=
  laidOver_eq_self (fun _ h => h) (Merge.rebuilt_self _)

end Login

/-! ## Cards and identities -/

namespace Card

/-- A card whose absent values are those of another. -/
def laidOver (c base : Card) : Card where
  cardholderName := c.cardholderName.or base.cardholderName
  brand := c.brand.or base.brand
  number := c.number.or base.number
  expMonth := c.expMonth.or base.expMonth
  expYear := c.expYear.or base.expYear
  code := c.code.or base.code

theorem merge_same (base c : Card) : mergeRules.merge base c c c = c.laidOver base := by
  simp only [merge_mergeRules, Merge.scalar_same, laidOver]

theorem read_laidOver (field : Scalar) (c base : Card) :
    field.read (c.laidOver base) = (field.read c).or (field.read base) := by
  cases field <;> rfl

/-- A card is its values. -/
theorem eq_of_read {c c' : Card} (hread : ∀ field : Scalar, field.read c = field.read c') : c = c' := by
  cases c
  cases c'
  rw [mk.injEq]
  exact ⟨hread .cardholderName, hread .brand, hread .number, hread .expMonth, hread .expYear, hread .code⟩

theorem laidOver_eq_self {c base : Card}
    (huncleared : ∀ field : Scalar, field.read c = none → field.read base = none) :
    c.laidOver base = c := by
  refine eq_of_read fun field => ?_
  rw [read_laidOver]
  exact Merge.or_eq_left (huncleared field)

theorem laidOver_self (c : Card) : c.laidOver c = c :=
  laidOver_eq_self fun _ h => h

end Card

namespace Identity

/-- An identity whose absent values are those of another. -/
def laidOver (i base : Identity) : Identity where
  title := i.title.or base.title
  firstName := i.firstName.or base.firstName
  middleName := i.middleName.or base.middleName
  lastName := i.lastName.or base.lastName
  address1 := i.address1.or base.address1
  address2 := i.address2.or base.address2
  address3 := i.address3.or base.address3
  city := i.city.or base.city
  state := i.state.or base.state
  postalCode := i.postalCode.or base.postalCode
  country := i.country.or base.country
  company := i.company.or base.company
  email := i.email.or base.email
  phone := i.phone.or base.phone
  ssn := i.ssn.or base.ssn
  username := i.username.or base.username
  passportNumber := i.passportNumber.or base.passportNumber
  licenseNumber := i.licenseNumber.or base.licenseNumber

theorem merge_same (base i : Identity) : mergeRules.merge base i i i = i.laidOver base := by
  simp only [merge_mergeRules, Merge.scalar_same, laidOver]

theorem read_laidOver (field : Scalar) (i base : Identity) :
    field.read (i.laidOver base) = (field.read i).or (field.read base) := by
  cases field <;> rfl

/-- An identity is its values. -/
theorem eq_of_read {i i' : Identity} (hread : ∀ field : Scalar, field.read i = field.read i') :
    i = i' := by
  cases i
  cases i'
  rw [mk.injEq]
  exact ⟨hread .title, hread .firstName, hread .middleName, hread .lastName, hread .address1,
    hread .address2, hread .address3, hread .city, hread .state, hread .postalCode, hread .country,
    hread .company, hread .email, hread .phone, hread .ssn, hread .username, hread .passportNumber,
    hread .licenseNumber⟩

theorem laidOver_eq_self {i base : Identity}
    (huncleared : ∀ field : Scalar, field.read i = none → field.read base = none) :
    i.laidOver base = i := by
  refine eq_of_read fun field => ?_
  rw [read_laidOver]
  exact Merge.or_eq_left (huncleared field)

theorem laidOver_self (i : Identity) : i.laidOver i = i :=
  laidOver_eq_self fun _ h => h

end Identity

namespace VaultCipher

/-! ## Items -/

/-- An item laid over another: its absent values are those of the other, and its lists are in the
order of the other's. A login, card or identity that it lacks stays absent. -/
def laidOver (x base : VaultCipher) : VaultCipher :=
  { x with
    name := x.name.or base.name
    notes := x.notes.or base.notes
    fields := rebuilt base.fields x.fields
    tags := rebuilt base.tags x.tags
    login := x.login.map fun l => l.laidOver (base.login.getD {})
    card := x.card.map fun c => c.laidOver (base.card.getD {})
    identity := x.identity.map fun i => i.laidOver (base.identity.getD {})
    sshKey := x.sshKey.or base.sshKey }

/-- Whether an item has the part that a value stands in. -/
def Scalar.HasPart {F : Type} : Scalar F → VaultCipher → Prop
  | .login _, c => c.login ≠ none
  | .card _, c => c.card ≠ none
  | .identity _, c => c.identity ≠ none
  | _, _ => True

/-- An edit of an item that clears no value, other than with the whole part it stands in, and that
leaves the items of its lists in place, with new ones at the end. -/
structure PlainEdit (base x : VaultCipher) : Prop where
  uncleared : ∀ {F : Type} (field : Scalar F), field.HasPart x → field.read x = none →
    field.read base = none
  fields : rebuilt base.fields x.fields = x.fields
  tags : rebuilt base.tags x.tags = x.tags
  uris : ∀ b l, base.login = some b → x.login = some l → rebuilt b.uris l.uris = l.uris

theorem PlainEdit.refl (x : VaultCipher) : PlainEdit x x where
  uncleared _ _ h := h
  fields := Merge.rebuilt_self _
  tags := Merge.rebuilt_self _
  uris b l hb hl := by
    rw [hb] at hl
    cases hl
    exact Merge.rebuilt_self _

theorem read_laidOver {F : Type} {field : Scalar F} {x : VaultCipher} (hpart : field.HasPart x)
    (base : VaultCipher) : field.read (x.laidOver base) = (field.read x).or (field.read base) := by
  cases field with
  | name | notes | favorite | sshKey => rfl
  | login field =>
      rcases Option.ne_none_iff_exists'.1 hpart with ⟨l, hl⟩
      have hbase := Merge.view_getD field.read_empty base.login
      simp [Scalar.read, laidOver, hl, Login.read_laidOver, hbase]
  | card field =>
      rcases Option.ne_none_iff_exists'.1 hpart with ⟨c, hc⟩
      have hbase := Merge.view_getD field.read_empty base.card
      simp [Scalar.read, laidOver, hc, Card.read_laidOver, hbase]
  | identity field =>
      rcases Option.ne_none_iff_exists'.1 hpart with ⟨i, hi⟩
      have hbase := Merge.view_getD field.read_empty base.identity
      simp [Scalar.read, laidOver, hi, Identity.read_laidOver, hbase]

/-- An item is laid over another without a change exactly if it is a plain edit of the other. -/
theorem laidOver_eq_self_iff (x base : VaultCipher) : x.laidOver base = x ↔ PlainEdit base x := by
  constructor
  · intro h
    refine ⟨?_, congrArg (·.fields) h, congrArg (·.tags) h, ?_⟩
    · intro F field hpart hcleared
      have hread := congrArg field.read h
      rw [read_laidOver hpart, hcleared, Option.none_or] at hread
      exact hread
    · intro b l hb hl
      have hlogin := congrArg (·.login) h
      simp only [laidOver, hb, hl, Option.map_some, Option.getD_some, Option.some.injEq] at hlogin
      exact congrArg (·.uris) hlogin
  · intro h
    have hname : x.name.or base.name = x.name := Merge.or_eq_left (h.uncleared .name trivial)
    have hnotes : x.notes.or base.notes = x.notes := Merge.or_eq_left (h.uncleared .notes trivial)
    have hsshKey : x.sshKey.or base.sshKey = x.sshKey :=
      Merge.or_eq_left (h.uncleared .sshKey trivial)
    -- A part that the item has is left alone, value by value.
    have hlogin : (x.login.map fun l => l.laidOver (base.login.getD {})) = x.login := by
      cases hl : x.login with
      | none => rfl
      | some l =>
          refine congrArg some (Login.laidOver_eq_self ?_ ?_)
          · intro F field hcleared
            rw [Merge.view_getD field.read_empty]
            exact h.uncleared (.login field) (by simp [Scalar.HasPart, hl])
              (by simpa [Scalar.read, hl] using hcleared)
          · cases hb : base.login with
            | none => exact Merge.rebuilt_nil _
            | some b => exact h.uris b l hb hl
    have hcard : (x.card.map fun c => c.laidOver (base.card.getD {})) = x.card := by
      cases hc : x.card with
      | none => rfl
      | some c =>
          refine congrArg some (Card.laidOver_eq_self fun field hcleared => ?_)
          rw [Merge.view_getD field.read_empty]
          exact h.uncleared (.card field) (by simp [Scalar.HasPart, hc])
            (by simpa [Scalar.read, hc] using hcleared)
    have hidentity : (x.identity.map fun i => i.laidOver (base.identity.getD {})) = x.identity := by
      cases hi : x.identity with
      | none => rfl
      | some i =>
          refine congrArg some (Identity.laidOver_eq_self fun field hcleared => ?_)
          rw [Merge.view_getD field.read_empty]
          exact h.uncleared (.identity field) (by simp [Scalar.HasPart, hi])
            (by simpa [Scalar.read, hi] using hcleared)
    simp only [laidOver, hname, hnotes, hsshKey, h.fields, h.tags, hlogin, hcard, hidentity]

theorem merge_same (base x : VaultCipher) : mergeRules.merge base x x x = x.laidOver base := by
  rw [merge_mergeRules]
  split
  case isTrue h =>
    rw [h]
    exact ((laidOver_eq_self_iff x x).2 (.refl x)).symm
  case isFalse =>
    rw [merge_partRules, Merge.mergePart_same Login.merge_same Login.laidOver_self,
      Merge.mergePart_same Card.merge_same Card.laidOver_self,
      Merge.mergePart_same Identity.merge_same Identity.laidOver_self]
    simp only [Merge.scalar_same, Merge.mergeLists_same, ite_self, laidOver]

/-- What both sides agree on is the outcome, except for what the rules do not count as an edit: cleared
values are as in the base again, and list items are in the order of the base. So the outcome is the
edit exactly if the edit is plain. -/
theorem mergeIntoRemote_agreement (base x : VaultCipher) :
    mergeRules.mergeIntoRemote base x x = x.laidOver base ∧
      (mergeRules.mergeIntoRemote base x x = x ↔ PlainEdit base x) := by
  rw [Merge.Rule.mergeIntoRemote, merge_same]
  exact ⟨rfl, laidOver_eq_self_iff x base⟩

/-- Both sides cleared the name, and the merge brings it back. -/
theorem not_forall_agreement :
    ¬ ∀ base x : VaultCipher, mergeRules.mergeIntoRemote base x x = x := by
  intro hagree
  have hcleared := hagree { new "a" "c" .login Instant.epoch with name := some "Mail" }
    (new "a" "c" .login Instant.epoch)
  exact absurd hcleared (by decide +kernel)

end VaultCipher
end PasswordVault
