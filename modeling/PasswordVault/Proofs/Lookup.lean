import Mathlib.Data.List.Basic

/-!
# Lists of pairs as maps

A key is given a value by a new pair in front and the removal of the old ones.
-/

namespace PasswordVault

variable {κ β : Type} [BEq κ] [LawfulBEq κ] [DecidableEq κ]

theorem lookup_pair (key key' : κ) (b : β) (pairs : List (κ × β)) :
    ((key, b) :: pairs).lookup key' = if key' = key then some b else pairs.lookup key' := by
  by_cases hkey : key' = key
  · rw [if_pos hkey, hkey, List.lookup_cons_self]
  · rw [if_neg hkey, List.lookup_cons, beq_eq_false_iff_ne.2 hkey]

/-- A list of pairs where one key was taken out. -/
theorem lookup_without (key key' : κ) (pairs : List (κ × β)) :
    (pairs.filter fun e => e.1 ≠ key).lookup key' = if key' = key then none else pairs.lookup key' := by
  induction pairs with
  | nil => simp
  | cons e pairs ih =>
      obtain ⟨k, b⟩ := e
      by_cases he : k = key
      · rw [List.filter_cons_of_neg (by simpa using he), ih, lookup_pair, he]
        by_cases hkey : key' = key
        · rw [if_pos hkey, if_pos hkey]
        · rw [if_neg hkey, if_neg hkey, if_neg hkey]
      · rw [List.filter_cons_of_pos (by simpa using he), lookup_pair, lookup_pair, ih]
        by_cases hkey : key' = key
        · rw [if_neg (hkey ▸ Ne.symm he), if_pos hkey, if_pos hkey]
        · rw [if_neg hkey, if_neg hkey]

/-- A list of pairs where one key was given another value. -/
theorem lookup_replaced (key key' : κ) (b : β) (pairs : List (κ × β)) :
    ((key, b) :: pairs.filter fun e => e.1 ≠ key).lookup key'
      = if key' = key then some b else pairs.lookup key' := by
  rw [lookup_pair, lookup_without]
  by_cases hkey : key' = key
  · rw [if_pos hkey, if_pos hkey]
  · rw [if_neg hkey, if_neg hkey, if_neg hkey]

end PasswordVault
