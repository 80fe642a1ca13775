import Mathlib.Data.List.Find
import Mathlib.Data.List.Induction
import PasswordVault.Proofs.Store.Contents

/-!
# Latest — rows that hold the last of what was written

Things of one kind are written to rows whose ids are taken from the things themselves, so a row holds the
last thing with its id, and things that share an id share a row.

* `lastWith`: the last of some values that has a key.
* `Handle.Holds`: the rows of a kind hold the last of some things, whatever else is stored.
* `Handle.Holds.put`, `get?`, `list`, `step`: one more thing written, one read, all of them read, and a
  request that concerns other kinds.
-/

namespace PasswordVault

/-! ## The last with a key -/

section

variable {α β γ : Type} [DecidableEq β] [DecidableEq γ] {key : α → β} {xs : List α}

/-- The last of some values that has a key. -/
def lastWith (key : α → β) (xs : List α) (k : β) : Option α := xs.reverse.find? fun x => key x = k

theorem lastWith_append (key : α → β) (xs : List α) (x : α) (k : β) :
    lastWith key (xs ++ [x]) k = if key x = k then some x else lastWith key xs k := by
  rw [lastWith, List.reverse_append, List.reverse_singleton, List.singleton_append, List.find?_cons]
  by_cases hkey : key x = k <;> simp [hkey, lastWith]

theorem lastWith_eq_some {k : β} {x : α} (h : lastWith key xs k = some x) : x ∈ xs ∧ key x = k := by
  have hmem := List.mem_of_find?_eq_some h
  have hkey := List.find?_some h
  exact ⟨List.mem_reverse.1 hmem, by simpa using hkey⟩

theorem exists_lastWith (key : α → β) {x : α} (hx : x ∈ xs) :
    ∃ last, lastWith key xs (key x) = some last := by
  rw [← Option.isSome_iff_exists, lastWith, List.find?_isSome]
  exact ⟨x, List.mem_reverse.2 hx, by simp⟩

/-- Keys that tell the same values from the others pick the same value. -/
theorem lastWith_congr {key' : α → γ} {k : β} {k' : γ} (h : ∀ x ∈ xs, key x = k ↔ key' x = k') :
    lastWith key xs k = lastWith key' xs k' := by
  refine List.find?_congr ?_
  intro x hx
  exact decide_eq_decide.2 (h x (List.mem_reverse.1 hx))

theorem map_key_filterMap {ks : List β} (hks : ∀ k ∈ ks, (lastWith key xs k).isSome = true) :
    (ks.filterMap (lastWith key xs)).map key = ks := by
  induction ks with
  | nil => rfl
  | cons k rest ih =>
      -- What a key finds has that key.
      obtain ⟨x, hx⟩ := Option.isSome_iff_exists.1 (hks k List.mem_cons_self)
      rw [List.filterMap_cons_some hx, List.map_cons, (lastWith_eq_some hx).2,
        ih fun k' hk' => hks k' (List.mem_cons_of_mem k hk')]

/-- If every key is asked for that has a last value, the values found are those that are the last with
their own keys. -/
theorem mem_filterMap_lastWith {ks : List β} (hks : ∀ k, k ∈ ks ↔ (lastWith key xs k).isSome = true)
    {x : α} : x ∈ ks.filterMap (lastWith key xs) ↔ lastWith key xs (key x) = some x := by
  rw [List.mem_filterMap]
  constructor
  · rintro ⟨k, -, hx⟩
    rw [(lastWith_eq_some hx).2]
    exact hx
  · intro hx
    exact ⟨key x, (hks (key x)).2 (by rw [hx]; rfl), hx⟩

end

/-! ## Rows of a kind -/

namespace Handle

variable {α : Type} {kind : String} {rowId : α → String} {write : α → Json} {xs : List α} {h : Handle}

/-- Whether the rows of a kind hold the last of some things that were written, whatever the rows of other
kinds hold. -/
def Holds (h : Handle) (kind : String) (rowId : α → String) (write : α → Json) (xs : List α) : Prop :=
  ∃ contents, h.Shows contents ∧ ∀ id, contents (kind, id) = (lastWith rowId xs id).map write

theorem holds_of_blank {masterKey : MasterKey} {fresh : Envelope.Fresh} {s : Store}
    (hopen : (Store.openFile .blank masterKey fresh).1 = .ok s) (kind : String) (rowId : α → String)
    (write : α → Json) : Holds ⟨masterKey, s⟩ kind rowId write [] :=
  ⟨_, shows_of_blank hopen, fun _ => rfl⟩

/-- One more value is written to its row, and the others stay the last of theirs. -/
theorem Holds.put (hh : h.Holds kind rowId write xs) (x : α) (fresh : Envelope.Fresh) :
    ∃ s, h.store.put kind (rowId x) (write x) fresh = .ok s ∧
      Holds { h with store := s } kind rowId write (xs ++ [x]) := by
  obtain ⟨contents, hs, hrows⟩ := hh
  obtain ⟨⟨s, hput, hstep⟩, hnext⟩ := hs.put kind (rowId x) (write x) fresh
  rw [hstep] at hnext
  refine ⟨s, hput, _, hnext, ?_⟩
  intro id
  by_cases hid : rowId x = id <;> simp [lastWith_append, hid, hrows]

/-- The last value with a row id is read. -/
theorem Holds.get? (hh : h.Holds kind rowId write xs) {read : Json.Reader α}
    {found : α → Except StoreError α} (hfound : ∀ x, readBack read (write x) = found x) (id : String) :
    h.store.get? kind id read =
      match lastWith rowId xs id with
      | none => .ok none
      | some x => some <$> found x := by
  obtain ⟨contents, hs, hrows⟩ := hh
  rw [hs.get?_eq, hrows]
  cases lastWith rowId xs id with
  | none => rfl
  | some x => simp only [Option.map_some, hfound]

/-- The values are listed once for each row id, in the order of the ids. -/
theorem Holds.list (hh : h.Holds kind rowId write xs) {read : Json.Reader α}
    {found : α → Except StoreError α} (hfound : ∀ x, readBack read (write x) = found x) :
    ∃ ids : List String, (ids.Pairwise fun a b => Bytes.ofText a < Bytes.ofText b) ∧
      (∀ id, id ∈ ids ↔ (lastWith rowId xs id).isSome = true) ∧
      h.store.list kind read = (ids.filterMap (lastWith rowId xs)).mapM found := by
  obtain ⟨contents, hs, hrows⟩ := hh
  obtain ⟨ids, hsorted, hids, -, hlist⟩ := hs.list_eq kind
  refine ⟨ids, hsorted, ?_, ?_⟩
  · intro id
    rw [hids, hrows, Option.isSome_map]
  · rw [hlist, funext hrows, ← List.map_filterMap, List.mapM_map]
    congr 1
    funext x
    exact hfound x

/-- Requests that concern other kinds, changes of the key and restarts leave the rows of a kind alone. -/
theorem Holds.step (hh : h.Holds kind rowId write xs) {r : Request}
    (hspares : ∀ id, r.leavesAt? (kind, id) = none) : (h.step r).2.Holds kind rowId write xs := by
  obtain ⟨contents, hs, hrows⟩ := hh
  refine ⟨_, hs.step r, ?_⟩
  intro id
  rw [hspares, Option.getD_none, hrows]

theorem Holds.run (hh : h.Holds kind rowId write xs) {requests : List Request}
    (hspares : ∀ r ∈ requests, ∀ id, r.leavesAt? (kind, id) = none) :
    (h.run requests).Holds kind rowId write xs := by
  induction requests generalizing h with
  | nil => exact hh
  | cons r rest ih =>
      exact ih (hh.step (hspares r List.mem_cons_self)) fun r' hr' => hspares r' (List.mem_cons_of_mem r hr')

end Handle
end PasswordVault
