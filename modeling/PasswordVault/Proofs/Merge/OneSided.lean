import PasswordVault.Proofs.Merge.Syncs

/-!
# Parts that only one side has

A login, card or identity that one side lacks is merged as one without content. A single value that is
missing there is no change, while a list that is missing there is a list whose items were all removed.

- `VaultCipher.mergeIntoRemote_added`: a part that was added here is there after the merge, except that a
  login comes without the history of its passwords, which no rule mentions;
- `VaultCipher.mergeIntoRemote_removed`: a part that was removed here is there again, except that a login
  comes back without its addresses.
-/

namespace PasswordVault

open Merge (mergePart Rules)

variable {F : Type}

namespace Merge

variable [DecidableEq F]

/-! ## One value, one list, one part -/

/-- A value that is missing here was not changed. -/
theorem scalar_removed (base : Option F) : Merge.scalar base none base = base := by
  cases base with
  | none => rfl
  | some value => simp [Merge.scalar, changed?]

/-- The items of a list that is empty here were all removed. -/
theorem mergeLists_removed (items : List F) : mergeLists items [] items = [] := by
  rw [mergeLists_of_there, rebuilt]
  simp

theorem mergePart_added (placeholder : F) (children : Rules F) (x : F) :
    mergePart placeholder children none (some x) none none =
      some (children.merge placeholder x placeholder placeholder) := by
  simp [mergePart]

theorem mergePart_removed (placeholder : F) (children : Rules F) (x : F) :
    mergePart placeholder children (some x) none (some x) (some x) =
      some (children.merge x placeholder x x) := by
  simp [mergePart]

end Merge

/-! ## Added parts -/

/-- The history of passwords is that of the carrier, and there the login is empty. -/
theorem Login.merge_added (l : Login) :
    mergeRules.merge {} l {} {} = { l with passwordHistory := [] } := by
  -- With no address in the base, all of them are new.
  have huris : (mergeRules.merge {} l {} {}).uris = l.uris := by
    rw [merge_mergeRules, Merge.mergeLists_of_there]
    exact Merge.rebuilt_nil l.uris
  have hhistory : (mergeRules.merge {} l {} {}).passwordHistory = [] := by rw [merge_mergeRules]
  refine eq_of_read ?_ huris hhistory
  intro F field
  calc field.read (mergeRules.merge {} l {} {})
      = field.read l := read_merge_of_there (fun _ => field.read_empty) {}
    _ = field.read { l with passwordHistory := [] } := by cases field <;> rfl

theorem Card.merge_added (c : Card) : mergeRules.merge {} c {} {} = c :=
  merge_of_there fun field _ => field.read_empty

theorem Identity.merge_added (i : Identity) : mergeRules.merge {} i {} {} = i :=
  merge_of_there fun field _ => field.read_empty

/-! ## Removed parts -/

/-- The values of the login come back, and its addresses do not. -/
theorem Login.merge_removed (l : Login) : mergeRules.merge l {} l l = { l with uris := [] } := by
  -- The login without content has no address, so all of them were removed.
  have huris : (mergeRules.merge l {} l l).uris = [] := by
    rw [merge_mergeRules]
    exact Merge.mergeLists_removed l.uris
  have hhistory : (mergeRules.merge l {} l l).passwordHistory = l.passwordHistory := by
    rw [merge_mergeRules]
  refine eq_of_read ?_ huris hhistory
  intro F field
  rw [merge_mergeRules]
  cases field <;> exact Merge.scalar_removed _

theorem Card.merge_removed (c : Card) : mergeRules.merge c {} c c = c := by
  refine eq_of_read fun field => ?_
  rw [merge_mergeRules]
  cases field <;> exact Merge.scalar_removed _

theorem Identity.merge_removed (i : Identity) : mergeRules.merge i {} i i = i := by
  refine eq_of_read fun field => ?_
  rw [merge_mergeRules]
  cases field <;> exact Merge.scalar_removed _

namespace VaultCipher

/-! ## Parts of an item -/

/-- The parts of an item that it may lack as a whole, by their types. -/
inductive Part : Type → Type 1 where
  | login : Part Login
  | card : Part Card
  | identity : Part Identity

namespace Part

def read : Part F → VaultCipher → Option F
  | .login, c => c.login
  | .card, c => c.card
  | .identity, c => c.identity

/-- The past passwords in a part. Only a login has any. -/
def history : Part F → F → List PasswordHistory
  | .login, l => l.passwordHistory
  | .card, _ => []
  | .identity, _ => []

/-- A part without its past passwords. -/
def withoutHistory : Part F → F → F
  | .login, l => { l with passwordHistory := [] }
  | .card, c => c
  | .identity, i => i

/-- The addresses in a part. Only a login has any. -/
def uris : Part F → F → List LoginUri
  | .login, l => l.uris
  | .card, _ => []
  | .identity, _ => []

/-- A part without its addresses. -/
def withoutUris : Part F → F → F
  | .login, l => { l with uris := [] }
  | .card, c => c
  | .identity, i => i

/-- Past passwords are lost only where there are some. -/
theorem withoutHistory_eq_self_iff (part : Part F) (x : F) :
    part.withoutHistory x = x ↔ part.history x = [] := by
  cases part with
  | login =>
      constructor
      · exact fun h => (congrArg Login.passwordHistory h).symm
      · intro h
        cases x
        cases h
        rfl
  | card => exact iff_of_true rfl rfl
  | identity => exact iff_of_true rfl rfl

/-- Addresses are lost only where there are some. -/
theorem withoutUris_eq_self_iff (part : Part F) (x : F) :
    part.withoutUris x = x ↔ part.uris x = [] := by
  cases part with
  | login =>
      constructor
      · exact fun h => (congrArg Login.uris h).symm
      · intro h
        cases x
        cases h
        rfl
  | card => exact iff_of_true rfl rfl
  | identity => exact iff_of_true rfl rfl

/-- A part of three versions, merged by its rules into that of the server. -/
def merged : Part F → Option F → Option F → Option F → Option F
  | .login, base, here, there => mergePart {} Login.mergeRules base here there there
  | .card, base, here, there => mergePart {} Card.mergeRules base here there there
  | .identity, base, here, there => mergePart {} Identity.mergeRules base here there there

theorem merged_added (part : Part F) (x : F) :
    part.merged none (some x) none = some (part.withoutHistory x) := by
  cases part with
  | login => rw [merged, Merge.mergePart_added, Login.merge_added, withoutHistory]
  | card => rw [merged, Merge.mergePart_added, Card.merge_added, withoutHistory]
  | identity => rw [merged, Merge.mergePart_added, Identity.merge_added, withoutHistory]

theorem merged_removed (part : Part F) (x : F) :
    part.merged (some x) none (some x) = some (part.withoutUris x) := by
  cases part with
  | login => rw [merged, Merge.mergePart_removed, Login.merge_removed, withoutUris]
  | card => rw [merged, Merge.mergePart_removed, Card.merge_removed, withoutUris]
  | identity => rw [merged, Merge.mergePart_removed, Identity.merge_removed, withoutUris]

/-- A part that differs here from that of the base is merged by its own rules. -/
theorem read_mergeIntoRemote (part : Part F) {base here there : VaultCipher}
    (h : part.read base ≠ part.read here) :
    part.read (mergeRules.mergeIntoRemote base here there) =
      part.merged (part.read base) (part.read here) (part.read there) := by
  -- An item that is the same here would have been replaced as a whole.
  have hne : base ≠ here := fun heq => h (congrArg part.read heq)
  rw [Merge.Rule.mergeIntoRemote, merge_mergeRules, if_neg hne, merge_partRules]
  cases part <;> rfl

end Part

/-! ## The merged item -/

/-- A part that was added here is there after the merge, up to the history of its passwords. -/
theorem mergeIntoRemote_added (part : Part F) {base here there : VaultCipher} {x : F}
    (hbase : part.read base = none) (hhere : part.read here = some x)
    (hthere : part.read there = none) :
    part.read (mergeRules.mergeIntoRemote base here there) = some (part.withoutHistory x) ∧
      (part.read (mergeRules.mergeIntoRemote base here there) = part.read here ↔
        part.history x = []) := by
  have hmerged : part.read (mergeRules.mergeIntoRemote base here there) =
      some (part.withoutHistory x) := by
    rw [part.read_mergeIntoRemote (by simp [hbase, hhere]), hbase, hhere, hthere, part.merged_added]
  refine ⟨hmerged, ?_⟩
  rw [hmerged, hhere, Option.some.injEq]
  exact part.withoutHistory_eq_self_iff x

def withLogin (login : Option Login) : VaultCipher :=
  { new "a" "c" .login Instant.epoch with login }

def mailLogin : Login where
  username := some "ann"
  passwordHistory := [⟨"old", none⟩]
  uris := [⟨some "https://example.com", none⟩]

theorem mergeIntoRemote_added_mailLogin :
    Part.login.read (mergeRules.mergeIntoRemote (withLogin none) (withLogin (some mailLogin))
      (withLogin none)) = some { mailLogin with passwordHistory := [] } :=
  (@mergeIntoRemote_added _ .login (withLogin none) (withLogin (some mailLogin)) (withLogin none)
    mailLogin rfl rfl rfl).1

/-- The past passwords of a login that was added here are lost. -/
theorem mergeIntoRemote_added_history :
    (mergeRules.mergeIntoRemote (withLogin none) (withLogin (some mailLogin))
      (withLogin none)).login ≠ (withLogin (some mailLogin)).login := by
  decide +kernel

/-- A part that was removed here is there again as the server has it, up to its addresses. So it is never
half removed exactly if it has no addresses. -/
theorem mergeIntoRemote_removed (part : Part F) {base here there : VaultCipher} {x : F}
    (hbase : part.read base = some x) (hhere : part.read here = none)
    (hthere : part.read there = some x) :
    part.read (mergeRules.mergeIntoRemote base here there) = some (part.withoutUris x) ∧
      ((part.read (mergeRules.mergeIntoRemote base here there) = none ∨
          part.read (mergeRules.mergeIntoRemote base here there) = part.read there) ↔
        part.uris x = []) := by
  have hmerged : part.read (mergeRules.mergeIntoRemote base here there) =
      some (part.withoutUris x) := by
    rw [part.read_mergeIntoRemote (by simp [hbase, hhere]), hbase, hhere, hthere, part.merged_removed]
  refine ⟨hmerged, ?_⟩
  -- The part is there, so it has to be the server's.
  rw [hmerged, hthere, Option.some.injEq, or_iff_right (Option.some_ne_none _)]
  exact part.withoutUris_eq_self_iff x

theorem mergeIntoRemote_removed_mailLogin :
    Part.login.read (mergeRules.mergeIntoRemote (withLogin (some mailLogin)) (withLogin none)
      (withLogin (some mailLogin))) = some { mailLogin with uris := [] } :=
  (@mergeIntoRemote_removed _ .login (withLogin (some mailLogin)) (withLogin none)
    (withLogin (some mailLogin)) mailLogin rfl rfl rfl).1

/-- A login with an address that was removed here is neither absent nor that of the server. -/
theorem mergeIntoRemote_removed_uris :
    (mergeRules.mergeIntoRemote (withLogin (some mailLogin)) (withLogin none)
        (withLogin (some mailLogin))).login ≠ none ∧
      (mergeRules.mergeIntoRemote (withLogin (some mailLogin)) (withLogin none)
        (withLogin (some mailLogin))).login ≠ (withLogin (some mailLogin)).login := by
  decide +kernel

end VaultCipher
end PasswordVault
