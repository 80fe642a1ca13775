import PasswordVault.Proofs.Merge.Syncs
import PasswordVault.Proofs.Merge.Untouched

/-!
# Bookkeeping — what the records of older copies decide

An item records the server copy that it was last synced with, and any copy may record an older one in
turn. Before a sync the record of the server copy is put aside, and so is that of the item itself. The
record of the recorded copy is not, and it takes part in the comparison that tells whether the item was
edited here: an item that was not edited then counts as one that was.

- `VaultCipher.mergeWithRemote_recorded`: the outcome, by whether the item counts as edited;
- `CipherContent.Retains`: server copies for which both ways lead to the same item;
- `VaultCipher.mergeWithRemote_congr_iff`: when the records of older copies do not show.
-/

namespace PasswordVault

open Merge (rebuilt)

namespace CipherContent

/-- A copy with the values of another where it has none, and its lists in the order of the other. The
login, card and identity are left alone. -/
def filledFrom (r b : CipherContent) : CipherContent :=
  { r with
    name := r.name.or b.name
    notes := r.notes.or b.notes
    fields := rebuilt b.fields r.fields
    tags := rebuilt b.tags r.tags
    sshKey := r.sshKey.or b.sshKey }

/-- Whether a copy clears no single value of another outside of its parts, and keeps the custom fields and
tags that it still has in place, with new ones at the end. -/
structure Retains (b r : CipherContent) : Prop where
  name : r.name = none → b.name = none
  notes : r.notes = none → b.notes = none
  sshKey : r.sshKey = none → b.sshKey = none
  fields : rebuilt b.fields r.fields = r.fields
  tags : rebuilt b.tags r.tags = r.tags

/-- Filling in changes nothing exactly if nothing of the base was lost. -/
theorem filledFrom_eq_self_iff (r b : CipherContent) : r.filledFrom b = r ↔ Retains b r := by
  constructor
  · intro h
    have hvalue : ∀ {F : Type} {value other : Option F}, value.or other = value →
        value = none → other = none := by
      intro F value other hor hnone
      rwa [hnone, Option.none_or] at hor
    exact ⟨hvalue (congrArg (·.name) h), hvalue (congrArg (·.notes) h), hvalue (congrArg (·.sshKey) h),
      congrArg (·.fields) h, congrArg (·.tags) h⟩
  · intro h
    have hname : r.name.or b.name = r.name := Merge.or_eq_left h.name
    have hnotes : r.notes.or b.notes = r.notes := Merge.or_eq_left h.notes
    have hsshKey : r.sshKey.or b.sshKey = r.sshKey := Merge.or_eq_left h.sshKey
    simp only [filledFrom, hname, hnotes, hsshKey, h.fields, h.tags]

end CipherContent

namespace Merge

theorem mergeLists_untouched {F : Type} [DecidableEq F] (base there : List F) :
    mergeLists base base there = rebuilt base there := by
  have hnew : base.filter (· ∉ base) = [] := by simp
  have hkept : base.filter (fun x => x ∈ base ∧ x ∈ there) = base.filter (· ∈ there) :=
    List.filter_congr fun x hx => by simp [hx]
  rw [mergeLists_eq, hnew, hkept, List.append_nil, List.diff_nil, rebuilt]

end Merge

namespace VaultCipher

variable {c b r : CipherContent} {older copies : List CipherContent}

/-- The parts are merged without a look at any record. -/
theorem merge_partRules_older (c b r : CipherContent) (older : List CipherContent) :
    partRules.merge ⟨b, older⟩ ⟨c, []⟩ ⟨r, []⟩ ⟨r, []⟩ =
      partRules.merge ⟨b, []⟩ ⟨c, []⟩ ⟨r, []⟩ ⟨r, []⟩ := by
  rw [merge_partRules, merge_partRules]

/-- The parts of an item that was not edited are those of the server, other than what the server cleared. -/
theorem merge_partRules_untouched (b r : CipherContent) :
    partRules.merge ⟨b, []⟩ ⟨b, []⟩ ⟨r, []⟩ ⟨r, []⟩ = ⟨r.filledFrom b, []⟩ := by
  have hfavorite : (if r.favorite = b.favorite then b.favorite else r.favorite) = r.favorite := by
    split
    case isTrue hsame => exact hsame.symm
    case isFalse => rfl
  rw [merge_partRules]
  simp only [Merge.scalar_untouched, Merge.mergePart_untouched, Merge.mergeLists_untouched, hfavorite]
  rfl

/-- An item counts as edited if its content is another than that of the recorded copy, or if that copy
records an older one. -/
theorem mergeWithRemote_recorded (c b r : CipherContent) (older copies : List CipherContent) :
    (⟨c, b :: older⟩ : VaultCipher).mergeWithRemote ⟨r, copies⟩ =
      if c = b ∧ older = [] then ⟨r, [r]⟩
      else { partRules.merge ⟨b, []⟩ ⟨c, []⟩ ⟨r, []⟩ ⟨r, []⟩ with synced := [r] } := by
  have huntouched : (⟨b, older⟩ : VaultCipher) = ⟨c, []⟩ ↔ c = b ∧ older = [] := by
    rw [VaultCipher.mk.injEq, eq_comm (a := b)]
  calc (⟨c, b :: older⟩ : VaultCipher).mergeWithRemote ⟨r, copies⟩
      = { mergeRules.merge ⟨b, older⟩ ⟨c, []⟩ ⟨r, []⟩ ⟨r, []⟩ with synced := [r] } := rfl
    _ = if c = b ∧ older = [] then ⟨r, [r]⟩
        else { partRules.merge ⟨b, []⟩ ⟨c, []⟩ ⟨r, []⟩ ⟨r, []⟩ with synced := [r] } := by
      rw [merge_mergeRules, merge_partRules_older]
      by_cases hsame : c = b ∧ older = []
      · rw [if_pos hsame, if_pos (huntouched.2 hsame)]
      · rw [if_neg hsame, if_neg (mt huntouched.1 hsame)]

/-- The record of the server copy never shows, and that of the recorded copy shows only by whether there is
one. It does not show at all exactly if the item was edited here, or the server retains whatever of the
recorded copy a merge would bring back. -/
theorem mergeWithRemote_congr_iff (c b r : CipherContent) :
    ((∀ older older' copies copies',
        (⟨c, b :: older⟩ : VaultCipher).mergeWithRemote ⟨r, copies⟩ =
          (⟨c, b :: older'⟩ : VaultCipher).mergeWithRemote ⟨r, copies'⟩) ↔
      (c = b → CipherContent.Retains b r)) ∧
    (∀ (x : VaultCipher) copies copies', x.mergeWithRemote ⟨r, copies⟩ = x.mergeWithRemote ⟨r, copies'⟩) ∧
    (∀ older older', older ≠ [] → older' ≠ [] →
      (⟨c, b :: older⟩ : VaultCipher).mergeWithRemote ⟨r, []⟩ =
        (⟨c, b :: older'⟩ : VaultCipher).mergeWithRemote ⟨r, []⟩) := by
  refine ⟨⟨?_, ?_⟩, fun x copies copies' => rfl, ?_⟩
  · -- An older copy and none lead to the two ways, which must agree.
    rintro hsame rfl
    have hways := hsame [] [c] [] []
    rw [mergeWithRemote_recorded, mergeWithRemote_recorded, if_pos ⟨rfl, rfl⟩, if_neg (by simp),
      merge_partRules_untouched] at hways
    exact (CipherContent.filledFrom_eq_self_iff r c).1 (congrArg (·.toCipherContent) hways).symm
  · intro hretains older older' copies copies'
    rw [mergeWithRemote_recorded, mergeWithRemote_recorded]
    by_cases hedited : c = b
    · subst hedited
      have hfilled := (CipherContent.filledFrom_eq_self_iff r c).2 (hretains rfl)
      simp only [merge_partRules_untouched, hfilled, ite_self]
    · simp only [hedited, false_and, if_false]
  · intro older older' holder holder'
    rw [mergeWithRemote_recorded, mergeWithRemote_recorded, if_neg fun h => holder h.2,
      if_neg fun h => holder' h.2]

/-- The server cleared the name of an item that nobody edited here. The name stays if the recorded copy
records an older one. -/
theorem mergeWithRemote_older_ne :
    let blank := (new "a" "c" .login Instant.epoch).toCipherContent
    let mail := { blank with name := some "Mail" }
    (⟨mail, [mail]⟩ : VaultCipher).mergeWithRemote ⟨blank, []⟩ ≠
      (⟨mail, [mail, mail]⟩ : VaultCipher).mergeWithRemote ⟨blank, []⟩ := by
  decide +kernel

end VaultCipher
end PasswordVault
