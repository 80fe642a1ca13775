import Mathlib.Data.List.Basic
import Mathlib.Data.List.Count
import PasswordVault.Merge.Strategy

/-!
# Merged lists

The merge of lists replays edits on the base: those of this side, then those of the server that are not
among them. What the replay amounts to can be said without edits.

- `Merge.mergeLists_eq`: the items of the base that both sides kept, then the items that are new here,
  then those that are new on the server, less one for each that is new here;
- `Merge.count_mergeLists`: how often an item is in the merged list;
- `Merge.list_outcome`: both for versions that may be absent.
-/

namespace PasswordVault
namespace Merge

variable {F : Type} [DecidableEq F]

/-! ## Differences of lists -/

/-- Two selections of the same items hold each item equally often or not at all, so the difference is a
selection as well. -/
theorem filter_diff_filter (p q : F → Bool) (items : List F) :
    (items.filter p).diff (items.filter q) = items.filter fun x => p x && !q x := by
  induction items with
  | nil => rfl
  | cons x rest ih =>
      by_cases hp : p x
      · by_cases hq : q x
        · simp [hp, hq, ih]
        · have hkept : x ∉ rest.filter q := by simp [hq]
          simp [hp, hq, List.cons_diff_of_not_mem hkept, ih]
      · by_cases hq : q x
        · have habsent : x ∉ rest.filter p := by simp [hp]
          simp [hp, hq, List.erase_of_not_mem habsent, ih]
        · simp [hp, hq, ih]

/-- What is removed from one part of a list leaves the other alone. -/
theorem append_diff_of_notMem_right {kept others removed : List F} (h : ∀ x ∈ removed, x ∉ others) :
    (kept ++ others).diff removed = kept.diff removed ++ others := by
  induction removed generalizing kept with
  | nil => rfl
  | cons x rest ih =>
      have hx : x ∉ others := h x (by simp)
      have hrest : ∀ y ∈ rest, y ∉ others := fun y hy => h y (by simp [hy])
      have herase : (kept ++ others).erase x = kept.erase x ++ others := by
        by_cases hkept : x ∈ kept
        · exact List.erase_append_left others hkept
        · rw [List.erase_append_right others hkept, List.erase_of_not_mem hx,
            List.erase_of_not_mem hkept]
      rw [List.diff_cons, herase, ih hrest, List.diff_cons]

theorem append_diff_of_notMem_left {others items removed : List F} (h : ∀ x ∈ removed, x ∉ others) :
    (others ++ items).diff removed = others ++ items.diff removed := by
  induction removed generalizing items with
  | nil => rfl
  | cons x rest ih =>
      have hx : x ∉ others := h x (by simp)
      have hrest : ∀ y ∈ rest, y ∉ others := fun y hy => h y (by simp [hy])
      rw [List.diff_cons, List.erase_append_right items hx, ih hrest, List.diff_cons]

/-! ## Replayed edits -/

omit [DecidableEq F] in
theorem foldl_concat (added items : List F) :
    added.foldl (fun acc x => acc ++ [x]) items = items ++ added := by
  induction added generalizing items with
  | nil => simp
  | cons x rest ih => simp [ih]

/-- Removals and then additions, replayed. -/
theorem foldl_apply (removed added items : List F) :
    (removed.map Edit.remove ++ added.map Edit.add).foldl Edit.apply items =
      items.diff removed ++ added := by
  simp only [List.foldl_append, List.foldl_map, Edit.apply, foldl_concat, List.diff_eq_foldl]

/-- Removals cancel removals and additions cancel additions. -/
theorem remaining_map (removed added removed' added' : List F) :
    remaining (removed.map Edit.remove ++ added.map Edit.add)
        (removed'.map Edit.remove ++ added'.map Edit.add) =
      (removed'.diff removed).map Edit.remove ++ (added'.diff added).map Edit.add := by
  have hremove : Function.Injective (Edit.remove : F → Edit F) := fun _ _ h => Edit.remove.inj h
  have hadd : Function.Injective (Edit.add : F → Edit F) := fun _ _ h => Edit.add.inj h
  rw [remaining, ← List.diff_eq_foldl, List.diff_append,
    append_diff_of_notMem_right (by simp), ← List.map_diff hremove,
    append_diff_of_notMem_left (by simp), ← List.map_diff hadd]

/-! ## The merged list -/

/-- The merged list: the items of the base that both sides kept, in the order of the base, then the items
that are new here, then those that are new on the server, where each item that is new here stands for the
first like it. -/
theorem mergeLists_eq (base here there : List F) :
    mergeLists base here there =
      base.filter (fun x => x ∈ here ∧ x ∈ there) ++ here.filter (· ∉ base) ++
        (there.filter (· ∉ base)).diff (here.filter (· ∉ base)) := by
  -- Once this side's edits are replayed, the base is without what was removed here.
  have hhere : base.diff (base.filter (· ∉ here)) = base.filter (· ∈ here) := by
    have hall := filter_diff_filter (fun _ => true) (· ∉ here) base
    rw [List.filter_true] at hall
    simpa using hall
  -- What is left of the server's removals is what only the server removed.
  have hleft : (base.filter (· ∉ there)).diff (base.filter (· ∉ here)) =
      base.filter fun x => x ∉ there ∧ x ∈ here := by
    simpa using filter_diff_filter (· ∉ there) (· ∉ here) base
  have hboth : (base.filter (· ∈ here)).diff (base.filter fun x => x ∉ there ∧ x ∈ here) =
      base.filter fun x => x ∈ here ∧ x ∈ there := by
    rw [filter_diff_filter]
    refine List.filter_congr fun x _ => ?_
    by_cases hx : x ∈ here <;> simp [hx]
  have hnew : ∀ x ∈ base.filter (fun x => x ∉ there ∧ x ∈ here), x ∉ here.filter (· ∉ base) := by
    intro x hx
    simp [(List.mem_filter.1 hx).1]
  calc mergeLists base here there
      = (remaining (edits base here) (edits base there)).foldl Edit.apply
          ((edits base here).foldl Edit.apply base) := List.foldl_append
    _ = (base.diff (base.filter (· ∉ here)) ++ here.filter (· ∉ base)).diff
            ((base.filter (· ∉ there)).diff (base.filter (· ∉ here))) ++
          (there.filter (· ∉ base)).diff (here.filter (· ∉ base)) := by
        simp only [edits, remaining_map, foldl_apply]
    _ = base.filter (fun x => x ∈ here ∧ x ∈ there) ++ here.filter (· ∉ base) ++
          (there.filter (· ∉ base)).diff (here.filter (· ∉ base)) := by
        rw [hhere, hleft, append_diff_of_notMem_right hnew, hboth]

/-- An item of the base is in the merged list as often as in the base if both sides kept it, and else not
at all. A new item is in it as often as on the side that has more of it. -/
theorem count_mergeLists (base here there : List F) (x : F) :
    (mergeLists base here there).count x =
      if x ∈ base then (if x ∈ here ∧ x ∈ there then base.count x else 0)
      else max (here.count x) (there.count x) := by
  rw [mergeLists_eq, List.count_append, List.count_append, List.count_diff]
  -- An item of the base stays if both sides have kept it; another one comes as often as a side has it.
  by_cases hbase : x ∈ base
  · have hhere : (here.filter (· ∉ base)).count x = 0 := by simp [List.count_eq_zero, hbase]
    have hthere : (there.filter (· ∉ base)).count x = 0 := by simp [List.count_eq_zero, hbase]
    by_cases hboth : x ∈ here ∧ x ∈ there
    · rw [hhere, hthere, List.count_filter (by simpa using hboth), if_pos hbase, if_pos hboth]
      omega
    · have hgone : (base.filter fun y => y ∈ here ∧ y ∈ there).count x = 0 := by
        rw [List.count_eq_zero]
        intro hx
        exact hboth (by simpa using (List.mem_filter.1 hx).2)
      rw [hhere, hthere, hgone, if_pos hbase, if_neg hboth]
  · have hgone : (base.filter fun y => y ∈ here ∧ y ∈ there).count x = 0 := by
      simp [List.count_eq_zero, hbase]
    rw [hgone, List.count_filter (by simpa using hbase), List.count_filter (by simpa using hbase),
      if_neg hbase]
    omega

/-- What becomes of lists whose versions may be absent, an absent one counting as empty. There always is a
merged list. It holds the items of the base that both sides kept, then the items that are new here, then
those that are new on the server without the first match for each that is new here. So an item of the base
survives only if both sides kept it, with all its repetitions, and a new item is there as often as on the
side that has more of it. -/
theorem list_outcome (base here there : Option (List F)) :
    let old := base.getD []
    let newHere := (here.getD []).filter (· ∉ old)
    let newThere := (there.getD []).filter (· ∉ old)
    ∃ merged, list base here there = some merged ∧
      merged = old.filter (fun x => x ∈ here.getD [] ∧ x ∈ there.getD []) ++ newHere ++
        newThere.diff newHere ∧
      ∀ x, merged.count x =
        if x ∈ old then (if x ∈ here.getD [] ∧ x ∈ there.getD [] then old.count x else 0)
        else max ((here.getD []).count x) ((there.getD []).count x) :=
  ⟨_, rfl, mergeLists_eq _ _ _, count_mergeLists _ _ _⟩

/-- Both sides removed 2, one of them 1 and the other 3; 4 was added twice here and once there. -/
example : mergeLists [1, 1, 2, 3, 5] [4, 5, 3, 4] [5, 1, 4, 6] = [5, 4, 4, 6] := by decide

end Merge
end PasswordVault
