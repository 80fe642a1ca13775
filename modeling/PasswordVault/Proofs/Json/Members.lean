import Mathlib.Data.List.Induction
import Mathlib.Data.String.Basic
import PasswordVault.Json.Basic
import PasswordVault.Proofs.Lookup

/-!
# Members — sorted lists of named values

The members of an object in its free-form reading are a map, kept as a list that is sorted by name.

* `Json.lookup_insertMember`: what a name stands for after a member was put in.
* `Json.Sorted`: each name stands before the next; a list that is sorted stays so when a member is put in,
  and sorting it changes nothing.
-/

namespace PasswordVault
namespace Json

variable {α : Type}

/-- Putting a member in gives its name a value and leaves all other names alone, in whatever order the
members are. -/
theorem lookup_insertMember (key name : String) (value : α) (members : List (String × α)) :
    (insertMember key value members).lookup name =
      if name = key then some value else members.lookup name := by
  induction members with
  | nil => exact lookup_pair key name value []
  | cons m rest ih =>
      obtain ⟨k, v⟩ := m
      rw [insertMember]
      by_cases hbefore : key < k
      · rw [if_pos hbefore, lookup_pair]
      · rw [if_neg hbefore]
        by_cases hsame : key = k
        · -- The old value of the name is gone, and no other name is looked up there.
          rw [if_pos hsame, lookup_pair, lookup_pair, ← hsame]
          by_cases hname : name = key
          · rw [if_pos hname, if_pos hname]
          · rw [if_neg hname, if_neg hname, if_neg hname]
        · rw [if_neg hsame, lookup_pair, lookup_pair, ih]
          by_cases hname : name = key
          · rw [if_neg (hname ▸ hsame), if_pos hname, if_pos hname]
          · rw [if_neg hname, if_neg hname]

/-! ## Order -/

/-- Whether each name stands before the next. -/
def Sorted (members : List (String × α)) : Prop := members.Pairwise fun a b => a.1 < b.1

/-- Nothing but the new member comes in. -/
theorem mem_insertMember {key : String} {value : α} {members : List (String × α)} {m : String × α}
    (hm : m ∈ insertMember key value members) : m = (key, value) ∨ m ∈ members := by
  induction members with
  | nil => exact Or.inl (List.mem_singleton.1 hm)
  | cons first rest ih =>
      obtain ⟨k, v⟩ := first
      rw [insertMember] at hm
      split_ifs at hm with hbefore hsame
      · exact List.mem_cons.1 hm
      · rcases List.mem_cons.1 hm with hm | hm
        · exact Or.inl hm
        · exact Or.inr (List.mem_cons_of_mem _ hm)
      · rcases List.mem_cons.1 hm with hm | hm
        · exact Or.inr (hm ▸ List.mem_cons_self)
        · exact (ih hm).imp id (List.mem_cons_of_mem _)

/-- A list of members stays sorted, and no key comes twice. -/
theorem sorted_insertMember {members : List (String × α)} (h : Sorted members) (key : String) (value : α) :
    Sorted (insertMember key value members) := by
  induction members with
  | nil => exact List.pairwise_singleton _ _
  | cons first rest ih =>
      obtain ⟨k, v⟩ := first
      obtain ⟨hfirst, hrest⟩ := List.pairwise_cons.1 h
      rw [insertMember]
      -- The new member stands before the first one, takes its place, or goes on.
      split_ifs with hbefore hsame
      · refine List.pairwise_cons.2 ⟨?_, h⟩
        intro m hm
        rcases List.mem_cons.1 hm with rfl | hm
        · exact hbefore
        · exact lt_trans hbefore (hfirst m hm)
      · exact List.pairwise_cons.2 ⟨hsame ▸ hfirst, hrest⟩
      · refine List.pairwise_cons.2 ⟨?_, ih hrest⟩
        intro m hm
        rcases mem_insertMember hm with rfl | hm
        · exact lt_of_le_of_ne (not_lt.1 hbefore) (Ne.symm hsame)
        · exact hfirst m hm

theorem sorted_sortMembers (members : List (String × α)) : Sorted (sortMembers members) := by
  induction members using List.reverseRecOn with
  | nil => exact List.Pairwise.nil
  | append_singleton rest m ih =>
      rw [sortMembers, List.foldl_append]
      exact sorted_insertMember ih m.1 m.2

/-- A member with a name beyond all others is put in at the end. -/
theorem insertMember_of_forall_lt {key : String} {members : List (String × α)}
    (h : ∀ m ∈ members, m.1 < key) (value : α) : insertMember key value members = members ++ [(key, value)] := by
  induction members with
  | nil => rfl
  | cons first rest ih =>
      obtain ⟨k, v⟩ := first
      have hfirst : k < key := h (k, v) List.mem_cons_self
      rw [insertMember, if_neg (lt_asymm hfirst), if_neg (ne_of_gt hfirst),
        ih fun m hm => h m (List.mem_cons_of_mem _ hm), List.cons_append]

/-- Sorting changes nothing where each name stands before the next. -/
theorem sortMembers_of_sorted {members : List (String × α)} (h : Sorted members) :
    sortMembers members = members := by
  induction members using List.reverseRecOn with
  | nil => rfl
  | append_singleton rest m ih =>
      obtain ⟨hrest, -, hlast⟩ := List.pairwise_append.1 h
      have hsorted : sortMembers (rest ++ [m]) = insertMember m.1 m.2 (sortMembers rest) := by
        rw [sortMembers, List.foldl_append]
        rfl
      rw [hsorted, ih hrest]
      exact insertMember_of_forall_lt (fun x hx => hlast x hx m List.mem_cons_self) m.2

end Json
end PasswordVault
