import Mathlib.Data.List.Nodup
import PasswordVault.Config

/-!
# Accounts — who is signed in at the start

The accounts of a configuration are put together with those of the store. Stored accounts are looked for by
their ids: one that the configuration names takes the place of its entry there, and the others are added
behind, unless their id is there already.

* `OneEntryEach`: the law that every account has one entry, in the order in which the ids are named.
* `Config.oneEntryEach_iff`: the law holds exactly if the configuration names no id twice. Entries of the
  configuration are not compared with each other, so an id that is named twice has two entries.
-/

namespace PasswordVault

/-! ## Lists without repetitions -/

section Repetitions

variable {α : Type} [BEq α] [LawfulBEq α]

theorem nodup_eraseDups : ∀ xs : List α, xs.eraseDups.Nodup
  | [] => by simp
  | x :: xs => by
      have hrest := nodup_eraseDups (xs.filter fun y => !y == x)
      rw [List.eraseDups_cons, List.nodup_cons]
      exact ⟨by simp [List.mem_eraseDups], hrest⟩
termination_by xs => xs.length
decreasing_by exact Nat.lt_succ_of_le (List.length_filter_le _ xs)

/-- Where nothing is repeated nothing is left out. -/
theorem eraseDups_eq_self {xs : List α} (h : xs.Nodup) : xs.eraseDups = xs := by
  induction xs with
  | nil => rfl
  | cons x xs ih =>
      obtain ⟨hx, hxs⟩ := List.nodup_cons.1 h
      have hothers : xs.filter (fun y => !y == x) = xs := by
        rw [List.filter_eq_self]
        intro y hy
        have hne : y ≠ x := fun heq => hx (heq ▸ hy)
        simp [hne]
      rw [List.eraseDups_cons, hothers, ih hxs]

end Repetitions

/-! ## Stored accounts, one after the other -/

theorem addMissing_of_mem {merged : List Account} {a : Account} (h : a.id ∈ merged.map (·.id)) :
    addMissing merged a = merged := by
  rw [addMissing, if_pos]
  simpa using h

theorem addMissing_of_notMem {merged : List Account} {a : Account} (h : a.id ∉ merged.map (·.id)) :
    addMissing merged a = merged ++ [a] := by
  rw [addMissing, if_neg]
  simpa using h

theorem prefix_foldl_addMissing (merged stored : List Account) : merged <+: stored.foldl addMissing merged := by
  induction stored generalizing merged with
  | nil => exact List.prefix_rfl
  | cons s rest ih =>
      refine List.IsPrefix.trans ?_ (ih (addMissing merged s))
      by_cases hs : s.id ∈ merged.map (·.id)
      · simp only [addMissing_of_mem hs, List.prefix_rfl]
      · rw [addMissing_of_notMem hs]
        exact List.prefix_append merged [s]

/-- The ids that are added are the new ones, each at its first place. -/
theorem map_id_foldl_addMissing (merged stored : List Account) :
    (stored.foldl addMissing merged).map (·.id) =
      merged.map (·.id) ++ ((stored.map (·.id)).removeAll (merged.map (·.id))).eraseDups := by
  induction stored generalizing merged with
  | nil => simp [List.removeAll]
  | cons s rest ih =>
      rw [List.foldl_cons, ih]
      -- The id is passed over if it is there already; otherwise it is taken, and no later one like it.
      by_cases hs : s.id ∈ merged.map (·.id)
      · have hskip : ((s :: rest).map (·.id)).removeAll (merged.map (·.id)) =
            (rest.map (·.id)).removeAll (merged.map (·.id)) := by
          simp only [List.map_cons, List.removeAll]
          exact List.filter_cons_of_neg (by simpa using hs)
        rw [addMissing_of_mem hs, hskip]
      · have htake : ((s :: rest).map (·.id)).removeAll (merged.map (·.id)) =
            s.id :: (rest.map (·.id)).removeAll (merged.map (·.id)) := by
          simp only [List.map_cons, List.removeAll]
          exact List.filter_cons_of_pos (by simpa using hs)
        have hleft : (rest.map (·.id)).removeAll ((merged ++ [s]).map (·.id)) =
            ((rest.map (·.id)).removeAll (merged.map (·.id))).filter fun id => !id == s.id := by
          simp only [List.removeAll, List.filter_filter]
          refine List.filter_congr ?_
          intro id _
          by_cases hid : id = s.id <;> simp [hid]
        rw [addMissing_of_notMem hs, htake, List.eraseDups_cons, hleft]
        simp

/-- An account that is added is the first stored one with its id. -/
theorem mem_foldl_addMissing {merged stored : List Account} {a : Account}
    (h : a ∈ stored.foldl addMissing merged) :
    a ∈ merged ∨ a.id ∉ merged.map (·.id) ∧ stored.find? (fun s => s.id = a.id) = some a := by
  induction stored generalizing merged with
  | nil => exact Or.inl h
  | cons s rest ih =>
      rw [List.foldl_cons] at h
      by_cases hs : s.id ∈ merged.map (·.id)
      · rw [addMissing_of_mem hs] at h
        refine (ih h).imp_right ?_
        rintro ⟨hnew, hfirst⟩
        have hne : s.id ≠ a.id := fun heq => hnew (heq ▸ hs)
        exact ⟨hnew, by simpa [hne] using hfirst⟩
      · rw [addMissing_of_notMem hs] at h
        -- What was there before the rest is either older or the account that was just added.
        rcases ih h with hmem | ⟨hnew, hfirst⟩
        · rcases List.mem_append.1 hmem with hmem | hlast
          · exact Or.inl hmem
          · obtain rfl := List.mem_singleton.1 hlast
            exact Or.inr ⟨hs, by simp⟩
        · rw [List.map_append, List.mem_append, not_or] at hnew
          have hne : s.id ≠ a.id := fun heq => hnew.2 (by simp [heq])
          exact Or.inr ⟨hnew.1, by simpa [hne] using hfirst⟩

/-! ## Entries of the configuration -/

/-- An account in the form in which it is stored, if it is. -/
def inStore (stored : List Account) (a : Account) : Account := (stored.find? fun s => s.id = a.id).getD a

theorem id_inStore (stored : List Account) (a : Account) : (inStore stored a).id = a.id := by
  unfold inStore
  cases hfind : stored.find? fun s => s.id = a.id with
  | none => rfl
  | some s => simpa using List.find?_some hfind

/-- The first stored account with its id, or else what the configuration has. -/
theorem inStore_cases (stored : List Account) (a : Account) :
    stored.find? (fun s => s.id = (inStore stored a).id) = some (inStore stored a) ∨
      stored.find? (fun s => s.id = (inStore stored a).id) = none ∧ inStore stored a = a := by
  rw [id_inStore]
  cases hfind : stored.find? fun s => s.id = a.id with
  | none => exact Or.inr ⟨rfl, by rw [inStore, hfind]; rfl⟩
  | some s => exact Or.inl (by rw [inStore, hfind]; rfl)

theorem mergeAccounts_eq (seed stored : List Account) :
    mergeAccounts seed stored = stored.foldl addMissing (seed.map (inStore stored)) := rfl

theorem map_id_inStore (seed stored : List Account) :
    (seed.map (inStore stored)).map (·.id) = seed.map (·.id) := by
  rw [List.map_map]
  exact List.map_congr_left fun a _ => id_inStore stored a

/-- The ids of the configuration as it lists them, and then the other stored ones. -/
theorem map_id_mergeAccounts (seed stored : List Account) :
    (mergeAccounts seed stored).map (·.id) =
      seed.map (·.id) ++ ((stored.map (·.id)).removeAll (seed.map (·.id))).eraseDups := by
  rw [mergeAccounts_eq, map_id_foldl_addMissing, map_id_inStore]

/-- Every entry is the first stored account with its id, or one of the configuration that is not stored. -/
theorem mem_mergeAccounts {seed stored : List Account} {a : Account} (h : a ∈ mergeAccounts seed stored) :
    stored.find? (fun s => s.id = a.id) = some a ∨
      stored.find? (fun s => s.id = a.id) = none ∧ a ∈ seed := by
  rw [mergeAccounts_eq] at h
  rcases mem_foldl_addMissing h with hseed | ⟨-, hfirst⟩
  · obtain ⟨b, hb, rfl⟩ := List.mem_map.1 hseed
    refine (inStore_cases stored b).imp_right ?_
    rintro ⟨hnone, hsame⟩
    exact ⟨hnone, hsame.symm ▸ hb⟩
  · exact Or.inl hfirst

/-! ## One entry for each account -/

/-- Whether every account of a configuration or of the store has one entry: the first stored account with its
id, or else the one of the configuration. The ids stand in the order in which they are named first, those of
the configuration before those that only the store names. -/
structure OneEntryEach (seed stored merged : List Account) : Prop where
  once : ∀ id ∈ seed.map (·.id) ++ stored.map (·.id), (merged.map (·.id)).count id = 1
  inOrder : merged.map (·.id) = (seed.map (·.id) ++ stored.map (·.id)).eraseDups
  entry : ∀ a ∈ merged, stored.find? (fun s => s.id = a.id) = some a ∨
    stored.find? (fun s => s.id = a.id) = none ∧ a ∈ seed

theorem oneEntryEach_mergeAccounts {seed : List Account} (hseed : (seed.map (·.id)).Nodup)
    (stored : List Account) : OneEntryEach seed stored (mergeAccounts seed stored) := by
  have horder : (mergeAccounts seed stored).map (·.id) =
      (seed.map (·.id) ++ stored.map (·.id)).eraseDups := by
    rw [map_id_mergeAccounts, List.eraseDups_append, eraseDups_eq_self hseed]
  refine ⟨?_, horder, fun a ha => mem_mergeAccounts ha⟩
  intro id hid
  rw [horder]
  exact List.count_eq_one_of_mem (nodup_eraseDups _) (List.mem_eraseDups.2 hid)

theorem OneEntryEach.nodup_seed {seed stored : List Account}
    (h : OneEntryEach seed stored (mergeAccounts seed stored)) : (seed.map (·.id)).Nodup := by
  have hall := nodup_eraseDups (seed.map (·.id) ++ stored.map (·.id))
  rw [← h.inOrder, map_id_mergeAccounts] at hall
  exact (List.nodup_append.1 hall).1

namespace Config

theorem map_id_seedAccounts (c : Config) : c.seedAccounts.map (·.id) = c.accounts.map (·.id) := by
  rw [seedAccounts, List.map_map]
  rfl

/-- Every account has one entry exactly if the configuration names no id twice. In any case its entries come
first, each in its stored form, then one entry for each other id of the store, and every entry is the first
stored account with its id or an account of the configuration that is not stored. -/
theorem oneEntryEach_iff (c : Config) (stored : List Account) :
    (OneEntryEach c.seedAccounts stored (mergeAccounts c.seedAccounts stored) ↔
      (c.accounts.map (·.id)).Nodup) ∧
    c.seedAccounts.map (inStore stored) <+: mergeAccounts c.seedAccounts stored ∧
    (mergeAccounts c.seedAccounts stored).map (·.id) =
      c.accounts.map (·.id) ++ ((stored.map (·.id)).removeAll (c.accounts.map (·.id))).eraseDups ∧
    ∀ a ∈ mergeAccounts c.seedAccounts stored, stored.find? (fun s => s.id = a.id) = some a ∨
      stored.find? (fun s => s.id = a.id) = none ∧ a ∈ c.seedAccounts := by
  have hids := map_id_seedAccounts c
  refine ⟨⟨?_, ?_⟩, ?_, ?_, fun a ha => mem_mergeAccounts ha⟩
  · intro hlaw
    rw [← hids]
    exact hlaw.nodup_seed
  · intro hnodup
    rw [← hids] at hnodup
    exact oneEntryEach_mergeAccounts hnodup stored
  · rw [mergeAccounts_eq]
    exact prefix_foldl_addMissing _ stored
  · rw [map_id_mergeAccounts, hids]

/-- An account that is named twice and stored once has two entries, both the stored one. -/
theorem not_oneEntryEach_repeated :
    let c : Config := { standard "/xdg" with
      accounts := [⟨"a", none, "T1", "r1", none⟩, ⟨"a", none, "T2", "r2", none⟩] }
    let s : Account := ⟨"a", c.serverUrl, some ⟨"S", "r", Instant.epoch⟩⟩
    mergeAccounts c.seedAccounts [s] = [s, s] ∧
      ¬ OneEntryEach c.seedAccounts [s] (mergeAccounts c.seedAccounts [s]) := by
  intro c s
  refine ⟨by decide, ?_⟩
  intro hlaw
  have honce := hlaw.once "a" (by decide)
  exact absurd honce (by decide)

end Config
end PasswordVault
