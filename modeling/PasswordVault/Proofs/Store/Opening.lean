import PasswordVault.Proofs.Lookup
import PasswordVault.Proofs.Store.Unlocking

/-!
# Opening — a store that can be read is never destroyed

The manager opens the file at its path, several times if it has to. What it may do to the file follows
from what the key finds in it, and no other entry of the tree changes.

* `Folder.Holds`: a file is at a path. Opening there comes down to `StoreFile.unlockOrReplace`.
* `attemptsFrom_of_error`: whatever a failing step keeps is kept by all attempts.
* `StoreManager.get_keeps_readable`: the rows that come of opening any file under any key.
-/

namespace PasswordVault

/-! ## Entries of a tree -/

namespace Folder

variable {t : Folder} {path p : Path} {e : FolderEntry} {file : StoreFile}

theorem entry?_insert (h : p ≠ []) :
    Folder.entry? (t.insert path e) p = if p = path then some e else t.entry? p := by
  rw [ entry?, entry?, if_neg h, if_neg h]
  exact lookup_replaced path p e t.entries

theorem entry?_insert_self (h : path ≠ []) : Folder.entry? (t.insert path e) path = some e := by
  rw [entry?_insert h, if_pos rfl]

theorem entry?_insert_of_ne (h : p ≠ path) : Folder.entry? (t.insert path e) p = t.entry? p := by
  by_cases hroot : p = []
  · rw [ entry?, entry?, if_pos hroot, if_pos hroot]
  · rw [entry?_insert hroot, if_neg h]

/-- Whether a file is at a path, with all folders on the way. -/
structure Holds (t : Folder) (path : Path) (file : StoreFile) : Prop where
  entry : t.entry? path = some (.file file)
  way : ∀ n < path.length, t.entry? (path.take n) = some .folder

theorem Holds.ne_nil (h : t.Holds path file) : path ≠ [] := by
  rintro rfl
  have hroot := h.entry
  simp [ entry?] at hroot

/-- Another file may be put at the path. -/
theorem Holds.insert (h : t.Holds path file) (after : StoreFile) :
    (t.insert path (.file after)).Holds path after := by
  refine ⟨entry?_insert_self h.ne_nil, fun n hn => ?_⟩
  have hne : path.take n ≠ path := by
    intro heq
    have hlength := congrArg List.length heq
    rw [List.length_take] at hlength
    omega
  rw [entry?_insert_of_ne hne, h.way n hn]

/-- No folder has to be made on the way to a file. -/
theorem Holds.makeFolders (h : t.Holds path file) : t.makeFolders path.dropLast = .ok t := by
  -- All folders on the way are there, so none is made.
  have hway : ∀ p ∈ (List.range path.dropLast.length).map fun n => path.dropLast.take (n + 1),
      t.entry? p = some .folder := by
    intro p hp
    obtain ⟨n, hn, rfl⟩ := List.mem_map.1 hp
    rw [List.mem_range, List.length_dropLast] at hn
    rw [List.dropLast_eq_take, List.take_take, Nat.min_eq_left (by omega)]
    exact h.way (n + 1) (by omega)
  rw [Folder.makeFolders]
  generalize (List.range path.dropLast.length).map (fun n => path.dropLast.take (n + 1)) = ps at hway
  induction ps with
  | nil => rfl
  | cons p rest ih =>
      rw [List.foldlM_cons, hway p (List.mem_cons_self ..)]
      exact ih fun q hq => hway q (List.mem_cons_of_mem p hq)

/-- Opening the store where a file is. -/
theorem Holds.openStore (h : t.Holds path file) (masterKey : MasterKey) (fresh : Envelope.Fresh) :
    t.openStore path masterKey fresh =
      ((file.unlockOrReplace masterKey fresh).1,
        t.insert path (.file (file.unlockOrReplace masterKey fresh).2)) := by
  simp only [Folder.openStore, h.makeFolders, openFile, h.entry]

end Folder

/-! ## Attempts -/

section Attempts

variable {σ α : Type} {step : σ → Except StoreError α × σ} {s s' : σ}

theorem withAttempts_of_ok {a : α} (h : step s = (.ok a, s')) (attempts : Nat) :
    withAttempts attempts step s = ⟨.ok a, s', 0⟩ := by
  rw [withAttempts]
  cases max 1 attempts - 1 <;> simp only [attemptsFrom, h]

/-- What one attempt keeps is kept by all of them. -/
theorem attemptsFrom_keeps (P : σ → Prop) (hstep : ∀ s, P s → P (step s).2) (hs : P s)
    (total more attempt : Nat) : P (attemptsFrom step total more attempt s).after := by
  induction more generalizing s attempt with
  | zero =>
      have hs' := hstep s hs
      rw [attemptsFrom]
      rcases hrun : step s with ⟨e | a, s'⟩ <;> simpa only [hrun] using hs'
  | succ more ih =>
      have hs' := hstep s hs
      rw [attemptsFrom]
      rcases hrun : step s with ⟨e | a, s'⟩ <;> simp only [hrun] at hs' ⊢
      · exact ih hs' (attempt + 1)
      · exact hs'

/-- A step that fails with one error, and so again where it ended, uses up its attempts. -/
theorem attemptsFrom_of_error {e : StoreError} (P : σ → Prop)
    (hstep : ∀ s, P s → ∃ s', step s = (.error e, s') ∧ P s') (hs : P s) (total more attempt : Nat) :
    (attemptsFrom step total more attempt s).result = .error (.openFailed total e.message) := by
  induction more generalizing s attempt with
  | zero =>
      obtain ⟨s', hfails, -⟩ := hstep s hs
      simp only [attemptsFrom, hfails]
  | succ more ih =>
      obtain ⟨s', hfails, hs'⟩ := hstep s hs
      simp only [attemptsFrom, hfails]
      exact ih hs' (attempt + 1)

end Attempts

/-! ## The manager -/

namespace StoreManager

variable {m : StoreManager} {path : Path} {t : Folder} {file : StoreFile}

/-- One attempt is one opening of the file. -/
theorem openOnce_eq (hplace : m.place = .path path) (hfile : t.Holds path file) (fresh : Envelope.Fresh) :
    m.openOnce fresh t =
      ((file.unlockOrReplace m.masterKey fresh).1.map
          fun key => ⟨key, (file.unlockOrReplace m.masterKey fresh).2⟩,
        t.insert path (.file (file.unlockOrReplace m.masterKey fresh).2)) := by
  simp only [openOnce, hplace, hfile.openStore]
  cases (file.unlockOrReplace m.masterKey fresh).1 with
  | error e => rfl
  | ok key => simp only [Folder.entry?_insert_self hfile.ne_nil, Except.map]

theorem store?_of_closed (hclosed : m.opened = none) (t : Folder) : m.store? t = none := by
  rw [store?, hclosed, Option.map_none]

/-- Opening changes no other entry. -/
theorem get_frame (hplace : m.place = .path path) (hclosed : m.opened = none) (hfile : t.Holds path file)
    (fresh : Envelope.Fresh) {p : Path} (hp : p ≠ path) :
    Folder.entry? (m.get fresh t).after.2 p = t.entry? p := by
  -- Every attempt finds a file at the path again.
  let Kept : Folder → Prop := fun t' => (∃ f, t'.Holds path f) ∧ t'.entry? p = t.entry? p
  have hstep : ∀ t', Kept t' → Kept (m.openOnce fresh t').2 := by
    rintro t' ⟨⟨f, hf⟩, hother⟩
    rw [openOnce_eq hplace hf]
    exact ⟨⟨_, hf.insert _⟩, (Folder.entry?_insert_of_ne hp).trans hother⟩
  have hkept : Kept (withAttempts m.attempts (m.openOnce fresh) t).after :=
    attemptsFrom_keeps Kept hstep ⟨⟨file, hfile⟩, rfl⟩ ..
  simp only [get, store?_of_closed hclosed]
  cases (withAttempts m.attempts (m.openOnce fresh) t).result with
  | error e => exact hkept.2
  | ok s =>
      simp only [keep, hplace]
      exact (Folder.entry?_insert_of_ne hp).trans hkept.2

/-- A file that opens is opened by the first attempt. -/
theorem get_of_unlocked (hplace : m.place = .path path) (hclosed : m.opened = none)
    (hfile : t.Holds path file) {fresh : Envelope.Fresh} {key : SymmetricKey} {after : StoreFile}
    (h : file.unlockOrReplace m.masterKey fresh = (.ok key, after)) :
    (m.get fresh t).result = .ok ⟨key, after⟩ ∧ (m.get fresh t).after.2.Holds path after := by
  have hstep : m.openOnce fresh t = (.ok ⟨key, after⟩, t.insert path (.file after)) := by
    rw [openOnce_eq hplace hfile, h]
    rfl
  simp only [get, store?_of_closed hclosed, withAttempts_of_ok hstep, keep, hplace, true_and]
  exact (hfile.insert after).insert after

/-- A file that never opens is tried until the attempts are used up, and keeps what one attempt keeps. -/
theorem get_of_failing (hplace : m.place = .path path) (hclosed : m.opened = none)
    (hfile : t.Holds path file) {fresh : Envelope.Fresh} {e : StoreError} (P : StoreFile → Prop)
    (hP : P file)
    (h : ∀ f, P f → ∃ after, f.unlockOrReplace m.masterKey fresh = (.error e, after) ∧ P after) :
    (m.get fresh t).result = .error (.openFailed (max 1 m.attempts) e.message) ∧
      ∃ after, (m.get fresh t).after.2.Holds path after ∧ P after := by
  -- What an attempt leaves behind fails the next attempt in the same way.
  let Kept : Folder → Prop := fun t' => ∃ f, t'.Holds path f ∧ P f
  have hstep : ∀ t', Kept t' → ∃ t'', m.openOnce fresh t' = (.error e, t'') ∧ Kept t'' := by
    rintro t' ⟨before, hbefore, hPbefore⟩
    obtain ⟨after, hfails, hPafter⟩ := h before hPbefore
    refine ⟨t'.insert path (.file after), ?_, after, hbefore.insert after, hPafter⟩
    rw [openOnce_eq hplace hbefore, hfails]
    rfl
  have hresult : (withAttempts m.attempts (m.openOnce fresh) t).result =
      .error (.openFailed (max 1 m.attempts) e.message) :=
    attemptsFrom_of_error Kept hstep ⟨file, hfile, hP⟩ ..
  have hkept : Kept (withAttempts m.attempts (m.openOnce fresh) t).after := by
    refine attemptsFrom_keeps Kept ?_ ⟨file, hfile, hP⟩ ..
    intro t' ht'
    obtain ⟨t'', hfails, ht''⟩ := hstep t' ht'
    rwa [hfails]
  simp only [get, store?_of_closed hclosed, hresult, true_and]
  exact hkept

/-- Whether opening gives a store that is kept at a path, is bound to a key and has exactly some rows. -/
structure Opens (m : StoreManager) (fresh : Envelope.Fresh) (t : Folder) (path : Path) (key : SymmetricKey)
    (rows : Table) (s : Store) : Prop where
  result : (m.get fresh t).result = .ok s
  kept : (m.get fresh t).after.2.Holds path s.file
  sealed : s.key = key
  check : s.file.finding key = .own
  table : s.table = .ok rows

theorem opens_of_unlocked (hplace : m.place = .path path) (hclosed : m.opened = none)
    (hfile : t.Holds path file) {fresh : Envelope.Fresh} {key : SymmetricKey} {after : StoreFile}
    {rows : Table} (h : file.unlockOrReplace m.masterKey fresh = (.ok key, after))
    (hbound : StoreFile.IsBound key rows after) : m.Opens fresh t path key rows ⟨key, after⟩ := by
  obtain ⟨hresult, hholds⟩ := get_of_unlocked hplace hclosed hfile h
  exact ⟨hresult, hholds, rfl, hbound.1, hbound.2⟩

end StoreManager

/-! ## Stores in use -/

namespace Handle

/-- The file of a store in use is bound to its key. -/
theorem Healthy.isBound {h : Handle} (hh : h.Healthy) :
    ∃ rows, StoreFile.IsBound h.store.key rows h.store.file := by
  obtain ⟨c, rows, check, hfile, htable, hcheck, hopens, -⟩ := hh.opens
  refine ⟨rows, ?_, Store.table_eq_ok_iff.2 ⟨c, hfile, htable⟩⟩
  rw [hfile]
  exact StoreFile.finding_eq_own_iff.2 ⟨check, hcheck, hopens⟩

/-- Whoever opens the file of a store in use with its key finds its rows. -/
theorem Healthy.opens_again {h : Handle} (hh : h.Healthy) {rows : Table}
    (hrows : h.store.table = .ok rows) {later : StoreManager} {path : Path} {t : Folder}
    (hplace : later.place = .path path) (hclosed : later.opened = none)
    (hkey : later.masterKey = h.masterKey) (hfile : t.Holds path h.store.file) (fresh : Envelope.Fresh) :
    ∃ s, later.Opens fresh t path h.store.key rows s := by
  obtain ⟨rows', hbound⟩ := hh.isBound
  obtain rfl : rows' = rows := Except.ok.inj (hbound.2.symm.trans hrows)
  have hunlock := StoreFile.unlockOrReplace_of_finding (hkey ▸ hh.derived) h.store.file fresh
  rw [hbound.finding_eq.1, hbound.finding_eq.2] at hunlock
  obtain ⟨after, hunlock, hafter⟩ := hunlock
  exact ⟨_, StoreManager.opens_of_unlocked hplace hclosed hfile hunlock hafter⟩

end Handle

/-- Whether a file is no store, or that of a store that was made and used, with any text for its check. -/
inductive StoreFile.IsReached : StoreFile → Prop
  | other : IsReached .foreign
  | used {masterKey : MasterKey} {fresh : Envelope.Fresh} {s : Store} (requests : List Request)
      (c : StoreContent) (hopen : (Store.openFile .blank masterKey fresh).1 = .ok s)
      (hfile : (Handle.run ⟨masterKey, s⟩ requests).store.file = .store c) : IsReached (.store c)
  | rewritten {c : StoreContent} (check : String) (h : IsReached (.store c)) :
      IsReached (.store { c with keyCheck := some check })

/-- Only a file that was never opened has no check. -/
theorem StoreFile.IsReached.finding_ne_unbound {file : StoreFile} (h : file.IsReached)
    (key : SymmetricKey) : file.finding key ≠ .unbound := by
  cases h with
  | other => nofun
  | used requests c hopen hfile =>
      obtain ⟨c', -, check, hfile', -, hcheck, -⟩ := ((Handle.healthy_of_blank hopen).run requests).opens
      obtain rfl : c' = c := StoreFile.store.inj (hfile'.symm.trans hfile)
      rw [Ne, finding_eq_unbound_iff, hcheck]
      nofun
  | rewritten check =>
      rw [Ne, finding_eq_unbound_iff]
      nofun

namespace StoreManager

variable {m : StoreManager} {path : Path} {t : Folder} {file : StoreFile}

/-- Opening never destroys a store that can be read: the rows of a file stay whenever the key opens its
check, or the check cannot be read, or there is none, or the key is too short. Only a file that is no
store, or whose check is not authentic under the key or opens to another text, becomes an empty store of
the key, and whoever opens that with its key again finds what was put into it since. -/
theorem get_keeps_readable (hplace : m.place = .path path) (hclosed : m.opened = none)
    (hfile : t.Holds path file) (fresh : Envelope.Fresh) :
    let o := m.get fresh t
    (∀ p ≠ path, Folder.entry? o.after.2 p = t.entry? p) ∧
    (m.masterKey.bytes.length < 32 →
      (∃ reason, o.result = .error (.openFailed (max 1 m.attempts) reason)) ∧
        o.after.2.Holds path file) ∧
    (32 ≤ m.masterKey.bytes.length → ∃ key, deriveSubKeys m.masterKey = .ok key ∧
      match file.finding key with
      | .own | .unbound => ∃ s, m.Opens fresh t path key file.rows s
      | .strange =>
        ∃ s, m.Opens fresh t path key .empty s ∧
          ∀ requests, let h := Handle.run ⟨m.masterKey, s⟩ requests
            ∃ rows, h.store.table = .ok rows ∧
              ∀ (later : StoreManager) (path' : Path) (t' : Folder) (fresh' : Envelope.Fresh),
                later.place = .path path' → later.opened = none → later.masterKey = h.masterKey →
                t'.Holds path' h.store.file →
                ∃ s', later.Opens fresh' t' path' h.store.key rows s'
      | .broken e =>
        o.result = .error (.openFailed (max 1 m.attempts) (StoreError.crypto e).message) ∧
          ∃ after, o.after.2.Holds path after ∧ after.rows = file.rows ∧
            ∀ key', after.finding key' = file.finding key') ∧
    (file.IsReached → ∀ key, file.finding key ≠ .unbound) := by
  intro o
  refine ⟨fun p hp => get_frame hplace hclosed hfile fresh hp, fun hshort => ?_, fun hlong => ?_,
    fun h => h.finding_ne_unbound⟩
  · obtain ⟨hresult, after, hafter, rfl⟩ := get_of_failing hplace hclosed hfile (· = file) rfl
      fun f hf => ⟨f, StoreFile.unlockOrReplace_of_short hshort f fresh, hf⟩
    exact ⟨⟨_, hresult⟩, hafter⟩
  · obtain ⟨key, hderive⟩ := exists_deriveSubKeys_iff.2 hlong
    have hunlock := StoreFile.unlockOrReplace_of_finding hderive file fresh
    refine ⟨key, hderive, ?_⟩
    cases hfinding : file.finding key with
    | own | unbound =>
        rw [hfinding] at hunlock
        obtain ⟨after, hopen, hbound⟩ := hunlock
        exact ⟨_, opens_of_unlocked hplace hclosed hfile hopen hbound⟩
    | strange =>
        rw [hfinding] at hunlock
        obtain ⟨after, hopen, hblank, hbound⟩ := hunlock
        refine ⟨⟨key, after⟩, opens_of_unlocked hplace hclosed hfile hopen hbound, fun requests => ?_⟩
        have hnew : (Store.openFile .blank m.masterKey fresh).1 = .ok ⟨key, after⟩ := by
          simp only [Store.openFile, hblank, Except.map]
        have hh := (Handle.healthy_of_blank hnew).run requests
        obtain ⟨rows, htable, -⟩ := hh.table
        refine ⟨rows, htable, ?_⟩
        intro later path' t' fresh' hplace' hclosed' hkey hfile'
        exact hh.opens_again htable hplace' hclosed' hkey hfile' fresh'
    | broken e =>
        rw [hfinding] at hunlock
        -- What every attempt finds again.
        let Same : StoreFile → Prop := fun f =>
          f.rows = file.rows ∧ ∀ key', f.finding key' = file.finding key'
        refine get_of_failing hplace hclosed hfile Same ⟨rfl, fun _ => rfl⟩ ?_
        rintro f ⟨hrows, hsame⟩
        have hagain := StoreFile.unlockOrReplace_of_finding hderive f fresh
        rw [hsame, hfinding] at hagain
        obtain ⟨after, hfails, hrows', hsame'⟩ := hagain
        exact ⟨after, hfails, hrows'.trans hrows, fun key' => (hsame' key').trans (hsame key')⟩

/-- The file of something else is replaced under a key of enough bytes, and left alone under a shorter one. -/
theorem get_keeps_readable_of_foreign :
    let t : Folder := ⟨[(["vault.db"], .file .foreign)]⟩
    let fresh : Envelope.Fresh := ⟨Block.fit 16 [], Block.fit 32 []⟩
    let m (bytes : Bytes) : StoreManager := { place := .path ["vault.db"], masterKey := ⟨.v0, bytes⟩ }
    (∃ key s, (m (List.replicate 32 1)).Opens fresh t ["vault.db"] key .empty s) ∧
      (∃ reason, ((m []).get fresh t).result = .error (.openFailed 3 reason)) ∧
      ((m []).get fresh t).after.2.Holds ["vault.db"] .foreign := by
  intro t fresh m
  have hfile : t.Holds ["vault.db"] .foreign := by
    refine ⟨rfl, fun n hn => ?_⟩
    obtain rfl : n = 0 := Nat.lt_one_iff.1 hn
    rfl
  have hlong := get_keeps_readable (m := m (List.replicate 32 1)) rfl rfl hfile fresh
  have hshort := get_keeps_readable (m := m []) rfl rfl hfile fresh
  obtain ⟨key, -, s, hopens, -⟩ := hlong.2.2.1 (by decide)
  exact ⟨⟨key, s, hopens⟩, hshort.2.1 (by decide)⟩

end StoreManager
end PasswordVault
