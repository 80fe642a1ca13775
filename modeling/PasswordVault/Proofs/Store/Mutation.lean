import PasswordVault.Proofs.Envelope.Recovery
import PasswordVault.Proofs.Store.Contents
import PasswordVault.Proofs.Store.Opening

/-!
# Mutations — what a block of changes leaves

A block of changes runs on the store that is open, or that is opened for it, and the store it gives is
open from then on. Opening neither adds nor removes rows, whether it succeeds or not.

* `Store.ChangesRow`: one row has another value, and nothing else of the store has changed.
* `StoreManager.rows`: the rows of the store of a manager, open or not.
* `StoreManager.rows_get`: opening keeps them, whatever is in the tree of folders.
* `StoreManager.mutate_of_ok` and `mutate_of_error`: what a mutation leaves.
-/

namespace PasswordVault

/-- What any key seals it opens again. -/
theorem unsealBytes_of_sealBytes {key : SymmetricKey} {plaintext : Bytes} {fresh : Envelope.Fresh}
    {text : String} (h : sealBytes key plaintext fresh = .ok text) : unsealBytes key text = .ok plaintext := by
  have hopens : Envelope.Opens rowCipherType (some key) (some key) none none := ⟨.inl rfl, nofun⟩
  rw [sealBytes] at h
  split at h
  · next e hencrypt =>
    cases h
    rw [unsealBytes, Envelope.decode_of_encrypt hopens hencrypt]
    rfl
  · cases h

/-! ## One row -/

namespace Store

variable {α : Type} {s s' : Store} {kind id : String} {value : Json} {fresh : Envelope.Fresh}

/-- Whether a store has a value in a row, and is otherwise as another one. -/
structure ChangesRow (s s' : Store) (kind id : String) (read : Json.Reader α) (a : α) : Prop where
  reads : s'.get? kind id read = .ok (some a)
  key : s'.key = s.key
  rest : ∃ c t t', s.file = .store c ∧ c.table = some t ∧ s'.file = .store { c with table := some t' } ∧
    ∀ kind' id', (kind', id') ≠ (kind, id) → t'.find? kind' id' = t.find? kind' id'

/-- All that writing a value can do to a store. -/
theorem put_cases (h : s.put kind id value fresh = .ok s') : ∃ c t data, s.file = .store c ∧
    c.table = some t ∧ unsealBytes s.key data = .ok (Bytes.ofText value.compact) ∧
    s' = { s with file := .store { c with table := some (t.insert ⟨kind, id, data⟩) } } := by
  obtain ⟨data, hsealed, hrest⟩ := bind_eq_ok_iff.1 h
  obtain ⟨t, htable, hwith⟩ := bind_eq_ok_iff.1 hrest
  obtain ⟨c, hfile, hrows⟩ := table_eq_ok_iff.1 htable
  rw [withTable_eq hfile] at hwith
  cases hwith
  exact ⟨c, t, data, hfile, hrows, unsealBytes_of_sealBytes hsealed, rfl⟩

/-- A put changes its own row and nothing else. -/
theorem changesRow_of_put {read : Json.Reader α} {a : α} (hread : readBack read value = .ok a)
    (h : s.put kind id value fresh = .ok s') : s.ChangesRow s' kind id read a := by
  obtain ⟨c, t, data, hfile, htable, hopens, rfl⟩ := put_cases h
  refine ⟨?_, rfl, c, t, _, hfile, htable, rfl, fun kind' id' hplace => ?_⟩
  · have hfind : (t.insert ⟨kind, id, data⟩).find? kind id = some data := by
      rw [Table.find?_insert]
      exact if_pos rfl
    have hvalue : unsealValue s.key read data = readBack read value := unsealValue_of_ok hopens
    rw [get?_of_some (table_eq_ok_iff.2 ⟨_, rfl, rfl⟩) hfind, hvalue, hread]
    rfl
  · rw [Table.find?_insert]
    exact if_neg hplace

end Store

/-! ## Rows that are not open yet -/

namespace StoreFile

/-- The rows that a file has for a master key. A file that the key does not open has none for it: opening
starts anew there. -/
def rowsFor (masterKey : MasterKey) (file : StoreFile) : Table :=
  match deriveSubKeys masterKey with
  | .error _ => file.rows
  | .ok key =>
    match file.finding key with
    | .strange => .empty
    | .own | .unbound | .broken _ => file.rows

variable {masterKey : MasterKey} {file after : StoreFile} {fresh : Envelope.Fresh}

theorem rowsFor_blank (masterKey : MasterKey) : rowsFor masterKey blank = .empty := by
  rw [rowsFor]
  cases deriveSubKeys masterKey <;> rfl

/-- A file that opens has the rows that it had for the key. -/
theorem rows_of_unlockOrReplace_ok {key : SymmetricKey}
    (h : file.unlockOrReplace masterKey fresh = (.ok key, after)) : after.rows = file.rowsFor masterKey := by
  rcases Nat.lt_or_ge masterKey.bytes.length 32 with hshort | hlong
  · rw [unlockOrReplace_of_short hshort] at h
    cases h
  · obtain ⟨derived, hderive⟩ := exists_deriveSubKeys_iff.2 hlong
    have hopening := unlockOrReplace_of_finding hderive file fresh
    simp only [rowsFor, hderive]
    cases hfinding : file.finding derived with
    | own | unbound =>
        rw [hfinding] at hopening
        obtain ⟨opened, hopened, hbound⟩ := hopening
        cases hopened.symm.trans h
        exact hbound.finding_eq.2
    | strange =>
        rw [hfinding] at hopening
        obtain ⟨opened, hopened, -, hbound⟩ := hopening
        cases hopened.symm.trans h
        exact hbound.finding_eq.2
    | broken cause =>
        rw [hfinding] at hopening
        obtain ⟨left, hleft, -⟩ := hopening
        cases hleft.symm.trans h

/-- A file that does not open keeps the rows that it had for the key. -/
theorem rowsFor_of_unlockOrReplace_error {e : StoreError}
    (h : file.unlockOrReplace masterKey fresh = (.error e, after)) :
    after.rowsFor masterKey = file.rowsFor masterKey := by
  rcases Nat.lt_or_ge masterKey.bytes.length 32 with hshort | hlong
  · rw [unlockOrReplace_of_short hshort] at h
    cases h
    rfl
  · obtain ⟨derived, hderive⟩ := exists_deriveSubKeys_iff.2 hlong
    have hopening := unlockOrReplace_of_finding hderive file fresh
    -- Only a check that cannot be read is left.
    cases hfinding : file.finding derived with
    | own | unbound | strange =>
        rw [hfinding] at hopening
        obtain ⟨opened, hopened, -⟩ := hopening
        cases hopened.symm.trans h
    | broken cause =>
        rw [hfinding] at hopening
        obtain ⟨left, hleft, hrows, hsame⟩ := hopening
        cases hleft.symm.trans h
        simp only [rowsFor, hderive, hsame, hrows]

end StoreFile

namespace Folder

variable {t t' : Folder} {path : Path} {masterKey : MasterKey} {fresh : Envelope.Fresh}

/-- The rows that a tree has at a path for a master key. -/
def rowsFor (masterKey : MasterKey) (path : Path) (t : Folder) : Table :=
  match t.entry? path with
  | some (.file file) => file.rowsFor masterKey
  | _ => .empty

theorem rowsFor_of_file {file : StoreFile} (h : t.entry? path = some (.file file)) :
    t.rowsFor masterKey path = file.rowsFor masterKey := by
  rw [rowsFor, h]

/-- Folders are made only where nothing is. -/
theorem rowsFor_makeFolders {way : Path} (h : t.makeFolders way = .ok t') :
    t'.rowsFor masterKey path = t.rowsFor masterKey path := by
  rw [Folder.makeFolders] at h
  generalize (List.range way.length).map (fun n => way.take (n + 1)) = ps at h
  -- Only a place that is empty becomes a folder, and neither an empty place nor a folder has rows.
  induction ps generalizing t with
  | nil =>
      cases h
      rfl
  | cons q rest ih =>
      rw [List.foldlM_cons] at h
      obtain ⟨t₁, hfirst, hrest⟩ := bind_eq_ok_iff.1 h
      rw [ih hrest]
      split at hfirst
      · next hnone =>
        cases hfirst
        by_cases hq : path = q
        · subst hq
          have hne : path ≠ [] := by
            rintro rfl
            cases hnone
          rw [rowsFor, rowsFor, entry?_insert_self hne, hnone]
        · rw [rowsFor, rowsFor, entry?_insert_of_ne hq]
      · cases hfirst
        rfl
      · cases hfirst

/-- A file that is opened has the rows of its path; a new one has none. -/
theorem rowsFor_openFile (masterKey : MasterKey) {file : StoreFile} (h : t.openFile path = .ok file) :
    path ≠ [] ∧ file.rowsFor masterKey = t.rowsFor masterKey path := by
  rw [openFile] at h
  split at h
  · next f hentry =>
    cases h
    refine ⟨?_, (rowsFor_of_file hentry).symm⟩
    rintro rfl
    cases hentry
  · next hnone _ =>
    cases h
    refine ⟨?_, ?_⟩
    · rintro rfl
      cases hnone
    · rw [rowsFor, hnone]
      exact StoreFile.rowsFor_blank masterKey
  · cases h

/-- Opening a store at a path: with the rows of the path, or else these are still there. -/
theorem rowsFor_openStore (masterKey : MasterKey) (fresh : Envelope.Fresh) (path : Path) (t : Folder) :
    match t.openStore path masterKey fresh with
    | (.ok _, t') => ∃ file, t'.entry? path = some (.file file) ∧ file.rows = t.rowsFor masterKey path
    | (.error _, t') => t'.rowsFor masterKey path = t.rowsFor masterKey path := by
  cases hfolders : t.makeFolders path.dropLast with
  | error e => simp only [openStore, hfolders]
  | ok t₁ =>
      have hmade : t₁.rowsFor masterKey path = t.rowsFor masterKey path := rowsFor_makeFolders hfolders
      cases hfile : t₁.openFile path with
      | error e =>
          simp only [openStore, hfolders, hfile]
          exact hmade
      | ok file =>
          obtain ⟨hne, hrows⟩ := rowsFor_openFile masterKey hfile
          rcases hopening : file.unlockOrReplace masterKey fresh with ⟨e | key, after⟩ <;>
            simp only [openStore, hfolders, hfile, hopening]
          · calc Folder.rowsFor masterKey path (t₁.insert path (.file after))
                = after.rowsFor masterKey := rowsFor_of_file (entry?_insert_self hne)
              _ = file.rowsFor masterKey := StoreFile.rowsFor_of_unlockOrReplace_error hopening
              _ = t.rowsFor masterKey path := hrows.trans hmade
          · refine ⟨after, entry?_insert_self hne, ?_⟩
            calc after.rows
                = file.rowsFor masterKey := StoreFile.rows_of_unlockOrReplace_ok hopening
              _ = t.rowsFor masterKey path := hrows.trans hmade

end Folder

/-- Attempts end with what a step gives where all failing steps before it have kept something. -/
theorem attemptsFrom_cases {σ α : Type} {step : σ → Except StoreError α × σ} {s : σ} {P : σ → Prop}
    {Q : α → Prop} (hok : ∀ s a s', P s → step s = (.ok a, s') → Q a)
    (herror : ∀ s e s', P s → step s = (.error e, s') → P s') (hs : P s) (total more attempt : Nat) :
    match (attemptsFrom step total more attempt s).result with
    | .ok a => Q a
    | .error _ => P (attemptsFrom step total more attempt s).after := by
  induction more generalizing s attempt with
  | zero =>
      rw [attemptsFrom]
      rcases hrun : step s with ⟨e | a, s'⟩
      · exact herror s e s' hs hrun
      · exact hok s a s' hs hrun
  | succ more ih =>
      rw [attemptsFrom]
      rcases hrun : step s with ⟨e | a, s'⟩
      · exact ih (herror s e s' hs hrun) (attempt + 1)
      · exact hok s a s' hs hrun

/-! ## Mutations -/

namespace StoreManager

variable {m : StoreManager} {t : Folder} {s : Store} {fresh : Envelope.Fresh} {e : StoreError}

/-- The rows that the store of a manager has before it is opened. -/
def closedRows (m : StoreManager) (t : Folder) : Table :=
  match m.place with
  | .memory => .empty
  | .path p => t.rowsFor m.masterKey p

def rows (m : StoreManager) (t : Folder) : Table :=
  match m.store? t with
  | some s => s.file.rows
  | none => m.closedRows t

theorem rows_of_store? (h : m.store? t = some s) : m.rows t = s.file.rows := by
  rw [rows, h]

/-- One attempt to open a store. -/
theorem rows_openOnce (m : StoreManager) (fresh : Envelope.Fresh) (t : Folder) :
    match m.openOnce fresh t with
    | (.ok s, _) => s.file.rows = m.closedRows t
    | (.error _, t') => m.closedRows t' = m.closedRows t := by
  cases hplace : m.place with
  | memory =>
      simp only [openOnce, closedRows, hplace]
      cases hnew : Store.inMemory m.masterKey fresh with
      | error e => trivial
      | ok s =>
          -- A store in memory starts from a blank file, which has no rows.
          have hderive := Store.deriveSubKeys_of_openFile hnew
          obtain ⟨after, hblank, hbound⟩ := StoreFile.unlock_blank hderive fresh
          have hopened : Store.inMemory m.masterKey fresh = .ok ⟨s.key, after⟩ := by
            simp only [Store.inMemory, Store.openFile, hblank, Except.map]
          have hafter : s.file = after := congrArg Store.file (Except.ok.inj (hnew.symm.trans hopened))
          rw [← hafter] at hbound
          exact hbound.finding_eq.2
  | path p =>
      have hopening := Folder.rowsFor_openStore m.masterKey fresh p t
      rcases hrun : t.openStore p m.masterKey fresh with ⟨e | key, t'⟩ <;> rw [hrun] at hopening
      · simpa only [openOnce, closedRows, hplace, hrun] using hopening
      · obtain ⟨file, hentry, hrows⟩ := hopening
        simpa only [openOnce, closedRows, hplace, hrun, hentry] using hrows

/-- An open store is not opened again. -/
theorem get_of_store? (h : m.store? t = some s) (fresh : Envelope.Fresh) :
    m.get fresh t = ⟨.ok s, (m, t), 0⟩ := by
  simp only [get, h]

/-- A store in memory is opened by the first attempt. -/
theorem get_of_memory (hplace : m.place = .memory) (hclosed : m.opened = none)
    (hnew : Store.inMemory m.masterKey fresh = .ok s) (t : Folder) : (m.get fresh t).result = .ok s := by
  have hstep : m.openOnce fresh t = (.ok s, t) := by
    simp only [openOnce, hplace, hnew]
  simp only [get, store?_of_closed hclosed, withAttempts_of_ok hstep]

/-- Asking for the store neither adds nor removes rows. -/
theorem rows_get (m : StoreManager) (fresh : Envelope.Fresh) (t : Folder) :
    match (m.get fresh t).result with
    | .ok s => s.file.rows = m.rows t
    | .error _ => (m.get fresh t).after.1 = m ∧ m.rows (m.get fresh t).after.2 = m.rows t := by
  cases hstore : m.store? t with
  | some s =>
      rw [get_of_store? hstore]
      exact (rows_of_store? hstore).symm
  | none =>
      have hclosed : m.opened = none := Option.map_eq_none_iff.1 hstore
      have hrows : ∀ t', m.rows t' = m.closedRows t' := by
        intro t'
        rw [rows, store?_of_closed hclosed]
      -- What the attempts keep while they fail, and what they find when one does not.
      let Kept : Folder → Prop := fun t' => m.closedRows t' = m.closedRows t
      let Found : Store → Prop := fun s => s.file.rows = m.closedRows t
      have hok : ∀ t' s t'', Kept t' → m.openOnce fresh t' = (.ok s, t'') → Found s := by
        intro t' s t'' ht' hrun
        have honce := rows_openOnce m fresh t'
        rw [hrun] at honce
        exact honce.trans ht'
      have herror : ∀ t' e t'', Kept t' → m.openOnce fresh t' = (.error e, t'') → Kept t'' := by
        intro t' e t'' ht' hrun
        have honce := rows_openOnce m fresh t'
        rw [hrun] at honce
        exact honce.trans ht'
      have hattempts := attemptsFrom_cases hok herror rfl (max 1 m.attempts) (max 1 m.attempts - 1) 1
      rw [← withAttempts] at hattempts
      rw [hrows]
      cases hresult : (withAttempts m.attempts (m.openOnce fresh) t).result with
      | ok s =>
          rw [hresult] at hattempts
          simp only [get, hstore, hresult]
          exact hattempts
      | error e =>
          rw [hresult] at hattempts
          simp only [get, hstore, hresult, true_and, hrows]
          exact hattempts

/-- A store that is kept is the open one. -/
theorem store?_keep (m : StoreManager) (t : Folder) (s : Store) :
    StoreManager.store? (m.keep t s).1 (m.keep t s).2 = some s := by
  cases hplace : m.place with
  | memory => simp only [store?, keep, hplace, Option.map_some]
  | path p =>
      simp only [store?, keep, hplace, Option.map_some]
      by_cases hroot : p = []
      · subst hroot
        rfl
      · rw [Folder.entry?_insert_self hroot]

/-- The store that a block gives is the open one from then on. -/
theorem mutate_of_ok {α : Type} (h : (m.get fresh t).result = .ok s) (block : Store → α × Store) :
    (m.mutate fresh t block).result = .ok (block s).1 ∧
      StoreManager.store? (m.mutate fresh t block).after.1 (m.mutate fresh t block).after.2 =
        some (block s).2 := by
  simp only [mutate, h, true_and]
  exact store?_keep _ _ _

/-- A store that does not open is left as the attempts to open it leave it. -/
theorem mutate_of_error {α : Type} (h : (m.get fresh t).result = .error e) (block : Store → α × Store) :
    (m.mutate fresh t block).result = .error e ∧
      (m.mutate fresh t block).after = (m.get fresh t).after := by
  simp only [mutate, h, true_and]

end StoreManager
end PasswordVault
