import PasswordVault.Proofs.Merge.CipherFields
import PasswordVault.Proofs.Merge.CipherOutcome

/-!
# Values that were not touched here

A single value that is the same here as in the base defers to the server, whatever else was edited on
either side. What happens when the server cleared it depends on the part around it. A part that was
not touched at all is taken from the server as it is, and the value is cleared with it; in a part that
was edited the value is merged on its own, and there an absent value is no change, so it stays as in
the base.

- `VaultCipher.Scalar.PartEdited`: whether the part around a value was edited;
- `VaultCipher.mergeIntoRemote_untouched`: the outcome for a value that was not touched here.
-/

namespace PasswordVault

variable {F α : Type}

namespace Merge

/-! ## One value, one part -/

/-- Without a local change the value on the server wins, if there is one. -/
theorem scalar_untouched [DecidableEq F] (base there : Option F) :
    Merge.scalar base base there = there.or base := by
  by_cases hthere : there = base
  · simp [Merge.scalar, changed?, hthere]
  · simp [Merge.scalar, changed?, hthere]

theorem mergePart_untouched [DecidableEq F] {placeholder : F} {children : Rules F}
    (base there carrier : Option F) : mergePart placeholder children base base there carrier = there := by
  rw [mergePart]
  split
  case isTrue h => exact h.2.symm
  case isFalse => exact if_pos rfl

/-- In an edited part an untouched value is merged by the rules for the part. The placeholder does not
show, as it lacks the value. -/
theorem bind_mergePart_of_ne [DecidableEq F] {placeholder : F} {children : Rules F}
    {view : F → Option α} (hplaceholder : view placeholder = none)
    (hchildren : ∀ base here there carrier, view here = view base →
      view (children.merge base here there carrier) = (view there).or (view base))
    {base here : Option F} (hedited : base ≠ here) (hview : here.bind view = base.bind view)
    (there carrier : Option F) :
    (mergePart placeholder children base here there carrier).bind view =
      (there.bind view).or (base.bind view) := by
  have hgetD := view_getD hplaceholder
  rw [mergePart]
  split
  case isTrue habsent =>
    -- The value is absent here, hence in the base as well.
    rw [habsent.1] at hview
    rw [habsent.2, ← hview]
    rfl
  case isFalse =>
    rw [Option.bind_some, hchildren, hgetD, hgetD]
    rw [hgetD, hgetD, hview]

end Merge

/-! ## Values of a part -/

/-- A value that was not edited here is that of the server, or of the base if the server has none. -/
theorem Login.read_merge_untouched (field : Scalar F) (base here there carrier : Login)
    (h : field.read here = field.read base) :
    field.read (mergeRules.merge base here there carrier) =
      (field.read there).or (field.read base) := by
  rw [merge_mergeRules]
  cases field <;> simp_all [Scalar.read, Merge.scalar_untouched]

theorem Card.read_merge_untouched (field : Scalar) (base here there carrier : Card)
    (h : field.read here = field.read base) :
    field.read (mergeRules.merge base here there carrier) =
      (field.read there).or (field.read base) := by
  rw [merge_mergeRules]
  cases field <;> simp_all [Scalar.read, Merge.scalar_untouched]

theorem Identity.read_merge_untouched (field : Scalar) (base here there carrier : Identity)
    (h : field.read here = field.read base) :
    field.read (mergeRules.merge base here there carrier) =
      (field.read there).or (field.read base) := by
  rw [merge_mergeRules]
  cases field <;> simp_all [Scalar.read, Merge.scalar_untouched]

namespace VaultCipher

/-! ## Values of an item -/

/-- Whether the part that a value stands in was edited: the login, card or identity, and for a value
that stands in none of them the item. -/
def Scalar.PartEdited : Scalar F → (base here : VaultCipher) → Prop
  | .login _, base, here => base.login ≠ here.login
  | .card _, base, here => base.card ≠ here.card
  | .identity _, base, here => base.identity ≠ here.identity
  | _, base, here => base ≠ here

instance (field : Scalar F) (base here : VaultCipher) : Decidable (field.PartEdited base here) :=
  match field with
  | .login _ => inferInstanceAs (Decidable (base.login ≠ here.login))
  | .card _ => inferInstanceAs (Decidable (base.card ≠ here.card))
  | .identity _ => inferInstanceAs (Decidable (base.identity ≠ here.identity))
  | .name | .notes | .favorite | .sshKey => inferInstanceAs (Decidable (base ≠ here))

theorem Scalar.PartEdited.ne {field : Scalar F} {base here : VaultCipher}
    (h : field.PartEdited base here) : base ≠ here := by
  rintro rfl
  cases field <;> exact h rfl

/-- A value whose part was not edited is the one on the server, present or not. -/
theorem read_merge_of_not_partEdited {field : Scalar F} {base here : VaultCipher}
    (h : ¬ field.PartEdited base here) (there carrier : VaultCipher) :
    field.read (mergeRules.merge base here there carrier) = field.read there := by
  rw [merge_mergeRules]
  split
  case isTrue => rfl
  case isFalse hne =>
    rw [merge_partRules]
    cases field with
    | name | notes | favorite | sshKey => exact absurd hne h
    | login | card | identity =>
        have hsame := Decidable.not_not.1 h
        simp only [Scalar.read, hsame, Merge.mergePart_untouched]

/-- A value whose part was edited elsewhere is the one on the server, or else the one of the base. -/
theorem read_merge_of_partEdited {field : Scalar F} {base here : VaultCipher}
    (hedited : field.PartEdited base here) (h : field.read here = field.read base)
    (there carrier : VaultCipher) :
    field.read (mergeRules.merge base here there carrier) =
      (field.read there).or (field.read base) := by
  rw [merge_mergeRules, if_neg hedited.ne, merge_partRules]
  -- A field at the root is merged as it stands; one of a part, with the part.
  cases field with
  | name | notes | sshKey =>
      simp only [Scalar.read] at h ⊢
      rw [h, Merge.scalar_untouched]
  | favorite =>
      have hsame : here.favorite = base.favorite := Option.some.inj h
      simp only [Scalar.read, hsame, Option.some_or]
      split
      case isTrue heq => rw [heq]
      case isFalse => rfl
  | login field =>
      exact Merge.bind_mergePart_of_ne field.read_empty (Login.read_merge_untouched field)
        hedited h _ _
  | card field =>
      exact Merge.bind_mergePart_of_ne field.read_empty (Card.read_merge_untouched field)
        hedited h _ _
  | identity field =>
      exact Merge.bind_mergePart_of_ne field.read_empty (Identity.read_merge_untouched field)
        hedited h _ _

/-- A value that was not touched here is the one on the server, whatever else was edited on either
side, and also if the server cleared it while the part around it was not touched here. A value that
the server cleared while its part was edited stays as in the base. -/
theorem mergeIntoRemote_untouched (field : Scalar F) (base here there : VaultCipher)
    (huntouched : field.read here = field.read base) :
    (field.read there ≠ none ∨ ¬ field.PartEdited base here →
      field.read (mergeRules.mergeIntoRemote base here there) = field.read there) ∧
    (field.read there = none → field.PartEdited base here →
      field.read (mergeRules.mergeIntoRemote base here there) = field.read base) := by
  rw [Merge.Rule.mergeIntoRemote]
  refine ⟨?_, ?_⟩
  · intro hdefers
    by_cases hedited : field.PartEdited base here
    · have hpresent : field.read there ≠ none := hdefers.resolve_right (not_not_intro hedited)
      rw [read_merge_of_partEdited hedited huntouched]
      exact Option.or_of_isSome (Option.isSome_iff_ne_none.2 hpresent)
    · exact read_merge_of_not_partEdited hedited _ _
  · intro hcleared hedited
    rw [read_merge_of_partEdited hedited huntouched, hcleared, Option.none_or]

def mail : VaultCipher := { new "a" "c" .login Instant.epoch with name := some "Mail" }

/-- A name comes back if the server cleared it while the item was marked as a favorite here. -/
theorem mergeIntoRemote_untouched_mail :
    Scalar.name.read { mail with favorite := true } = Scalar.name.read mail ∧
      Scalar.name.PartEdited mail { mail with favorite := true } ∧
      Scalar.name.read (mergeRules.mergeIntoRemote mail { mail with favorite := true }
        { mail with name := none }) = some "Mail" := by
  have hedited : Scalar.name.PartEdited mail { mail with favorite := true } := by decide +kernel
  refine ⟨rfl, hedited, ?_⟩
  exact (mergeIntoRemote_untouched .name mail { mail with favorite := true } { mail with name := none }
    rfl).2 rfl hedited

/-- So that name was not touched here, and is not the one on the server. -/
theorem read_mergeIntoRemote_ne_remote :
    Scalar.name.read { mail with favorite := true } = Scalar.name.read mail ∧
      Scalar.name.read (mergeRules.mergeIntoRemote mail { mail with favorite := true }
        { mail with name := none }) ≠ Scalar.name.read { mail with name := none } :=
  ⟨rfl, by decide +kernel⟩

end VaultCipher
end PasswordVault
