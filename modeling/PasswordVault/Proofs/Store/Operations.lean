import PasswordVault.Proofs.Store.Rows
import PasswordVault.Proofs.Store.Sealing
import PasswordVault.Store

/-!
# Operations — what each one needs and does

One equation or equivalence for every operation of a store. Later modules use these and do not open
the operations again.
-/

namespace PasswordVault

def rowText (key : SymmetricKey) (plaintext : Bytes) (fresh : Envelope.Fresh) : String :=
  (rowEnvelope key plaintext fresh).toText

def readRow {α : Type} (read : Json.Reader α) (plaintext : Bytes) : Option α :=
  (Json.parseBytes? plaintext).bind (read Json.nestingLimit)

theorem checkKey_eq_ok_iff {key : SymmetricKey} {check : String} :
    checkKey key check = .ok () ↔ unsealBytes key check = .ok keyCheckText := by
  rw [unsealBytes, mapError_eq_ok_iff, checkKey]
  split
  case h_1 plaintext hopen => simp [hopen]
  case h_2 hopen => simp [hopen]
  case h_3 e _ hopen => simp [hopen]

namespace Store

variable {s : Store} {c : StoreContent} {t : Table}

/-! ## Tables -/

/-- There is a table exactly in a file that is a store with its schema. -/
theorem table_eq_ok_iff : s.table = .ok t ↔ ∃ c, s.file = .store c ∧ c.table = some t := by
  rw [table, bind_eq_ok_iff]
  constructor
  · rintro ⟨c, hcontent, htable⟩
    refine ⟨c, ?_, ?_⟩
    · cases hfile : s.file with
      | «foreign» => rw [hfile] at hcontent; cases hcontent
      | store found => rw [hfile] at hcontent; cases hcontent; rfl
    · cases hfound : c.table with
      | none => simp [StoreContent.requireTable, hfound] at htable
      | some found => simpa [StoreContent.requireTable, hfound] using htable
  · rintro ⟨c, hfile, htable⟩
    exact ⟨c, by rw [hfile]; rfl, by simp [StoreContent.requireTable, htable]⟩

theorem withTable_eq (hfile : s.file = .store c) (t : Table) :
    s.withTable t = .ok { s with file := .store { c with table := some t } } := by
  rw [withTable, hfile]
  rfl

/-! ## Values -/

variable {α : Type} {key : SymmetricKey} {read : Json.Reader α} {data : String} {plaintext : Bytes}

/-- A text that opens fails only if it holds another type of value. -/
theorem unsealValue_of_ok (h : unsealBytes key data = .ok plaintext) :
    unsealValue key read data =
      match readRow read plaintext with
      | some value => .ok value
      | none => .error (.serialization "the row holds another type of value") := by
  rw [unsealValue, h, ok_bind]
  rfl

theorem unsealValue_eq_ok_iff {value : α} :
    unsealValue key read data = .ok value ↔
      ∃ plaintext, unsealBytes key data = .ok plaintext ∧ readRow read plaintext = some value := by
  cases hopen : unsealBytes key data with
  | error e => simp [unsealValue, hopen, error_bind]
  | ok plaintext =>
      rw [unsealValue_of_ok hopen]
      cases hread : readRow read plaintext with
      | none => simp [hread]
      | some found => simp [hread]

/-- A row that opens can still hold another type of value, but that is no fault of encryption. -/
theorem unsealValue_ne_crypto (h : unsealBytes key data = .ok plaintext) (e : CryptoError) :
    unsealValue key read data ≠ .error (.crypto e) := by
  rw [unsealValue_of_ok h]
  split <;> simp

/-! ## Rows -/

theorem get?_of_none {kind id : String} (htable : s.table = .ok t)
    (hfind : t.find? kind id = none) (read : Json.Reader α) : s.get? kind id read = .ok none := by
  rw [get?, htable, ok_bind, hfind]
  rfl

theorem get?_of_some {kind id : String} (htable : s.table = .ok t)
    (hfind : t.find? kind id = some data) (read : Json.Reader α) :
    s.get? kind id read = some <$> unsealValue s.key read data := by
  rw [get?, htable, ok_bind, hfind]

theorem list_of_table (htable : s.table = .ok t) (kind : String) (read : Json.Reader α) :
    s.list kind read = (t.ofKind kind).mapM fun r => unsealValue s.key read r.data := by
  rw [list, htable, ok_bind]

/-- A value is read exactly from a text that opens and that the reader takes. -/
theorem get?_eq_ok_iff {kind id : String} (htable : s.table = .ok t)
    (hfind : t.find? kind id = some data) {found : Option α} :
    s.get? kind id read = .ok found ↔
      ∃ plaintext value, unsealBytes s.key data = .ok plaintext ∧
        readRow read plaintext = some value ∧ some value = found := by
  rw [get?_of_some htable hfind]
  have hmap : some <$> unsealValue s.key read data = .ok found ↔
      ∃ value, unsealValue s.key read data = .ok value ∧ some value = found := by
    cases unsealValue s.key read data with
    | error e => simp [Functor.map, Except.map]
    | ok value => simp [Functor.map, Except.map]
  rw [hmap]
  constructor
  · rintro ⟨value, hvalue, rfl⟩
    rcases unsealValue_eq_ok_iff.1 hvalue with ⟨plaintext, hopen, hread⟩
    exact ⟨plaintext, value, hopen, hread, rfl⟩
  · rintro ⟨plaintext, value, hopen, hread, rfl⟩
    exact ⟨value, unsealValue_eq_ok_iff.2 ⟨plaintext, hopen, hread⟩, rfl⟩

/-- A list is read exactly if each of its rows is. -/
theorem list_eq_ok_iff (htable : s.table = .ok t) {kind : String} {values : List α} :
    s.list kind read = .ok values ↔
      List.Forall₂ (fun r value => ∃ plaintext, unsealBytes s.key r.data = .ok plaintext ∧
        readRow read plaintext = some value) (t.ofKind kind) values := by
  rw [list_of_table htable, mapM_eq_ok_iff]
  simp only [unsealValue_eq_ok_iff]

/-- Under a derived key a value is written at its place and nothing else changes. -/
theorem put_eq (hkey : s.key.IsDerived) (hfile : s.file = .store c) (htable : c.table = some t)
    (kind id : String) (value : Json) (fresh : Envelope.Fresh) :
    s.put kind id value fresh =
      .ok { s with
        file := .store { c with
          table := some (t.insert ⟨kind, id, rowText s.key (Bytes.ofText value.compact) fresh⟩) } } := by
  rw [put, sealValue, sealBytes_eq hkey, ok_bind, table_eq_ok_iff.2 ⟨c, hfile, htable⟩, ok_bind,
    withTable_eq hfile]
  rfl

/-- In a store with its schema deleting never fails. -/
theorem delete_eq (hfile : s.file = .store c) (htable : c.table = some t) (kind id : String) :
    s.delete kind id =
      .ok ((t.find? kind id).isSome,
        { s with file := .store { c with table := some (t.erase kind id) } }) := by
  rw [delete, table_eq_ok_iff.2 ⟨c, hfile, htable⟩, ok_bind, withTable_eq hfile]
  rfl

/-! ## Another key -/

/-- The text of a row sealed anew under another key. -/
def reseal (old new : SymmetricKey) (fresh : Nat → Envelope.Fresh) (n : Nat) (data : String) :
    Except StoreError String := do
  sealBytes new (← unsealBytes old data) (fresh (n + 1))

/-- A row is sealed anew exactly if it opens under the old key. -/
theorem reseal_eq_ok_iff {old new : SymmetricKey} (hnew : new.IsDerived)
    {fresh : Nat → Envelope.Fresh} {n : Nat} {text : String} :
    reseal old new fresh n data = .ok text ↔
      ∃ plaintext, unsealBytes old data = .ok plaintext ∧
        rowText new plaintext (fresh (n + 1)) = text := by
  rw [reseal, bind_eq_ok_iff]
  simp only [sealBytes_eq hnew, rowText, Except.ok.injEq]

/-- Only the rows can refuse a change to a key that is long enough. -/
theorem changePassword_eq {masterKey : MasterKey} (hderive : deriveSubKeys masterKey = .ok key)
    (hfile : s.file = .store c) (htable : c.table = some t) (fresh : Nat → Envelope.Fresh) :
    s.changePassword masterKey fresh =
      (t.mapData (reseal s.key key fresh)).map fun rows =>
        ⟨key, .store { c with
          keyCheck := c.keyCheck.map fun _ => rowText key keyCheckText (fresh 0)
          table := some rows }⟩ := by
  have hkey : key.IsDerived := ⟨masterKey, hderive⟩
  have hcheck : sealBytes key keyCheckText (fresh 0) = .ok (rowText key keyCheckText (fresh 0)) :=
    sealBytes_eq hkey _ _
  have hrequire : c.requireTable = .ok t := by
    simp [StoreContent.requireTable, htable]
  simp only [changePassword, hderive, mapError_ok, ok_bind, hfile, StoreFile.content, hrequire,
    hcheck]
  -- Sealing the check can not fail any more, so only the rows decide.
  change (t.mapData (reseal s.key key fresh) >>= _) = _
  cases t.mapData (reseal s.key key fresh) with
  | error e => rfl
  | ok rows => rfl

/-- Too short a master key is refused before anything is read. -/
theorem changePassword_of_short {masterKey : MasterKey} (h : masterKey.bytes.length < 32)
    (s : Store) (fresh : Nat → Envelope.Fresh) :
    s.changePassword masterKey fresh = .error (.crypto (.kdfFailed
      "Invalid HKDF key: invalid pseudorandom key length, too short")) := by
  rw [changePassword, deriveSubKeys_of_short h]
  rfl

theorem exists_table_of_changePassword {s' : Store} {masterKey : MasterKey}
    {fresh : Nat → Envelope.Fresh} (h : s.changePassword masterKey fresh = .ok s') :
    ∃ t, s.table = .ok t := by
  rcases bind_eq_ok_iff.1 h with ⟨key, -, hrest⟩
  rcases bind_eq_ok_iff.1 hrest with ⟨c, hcontent, hrest⟩
  rcases bind_eq_ok_iff.1 hrest with ⟨t, hrequire, -⟩
  exact ⟨t, bind_eq_ok_iff.2 ⟨c, hcontent, hrequire⟩⟩

/-- All that a change of the key can do. -/
theorem changePassword_cases {s' : Store} {masterKey : MasterKey} {fresh : Nat → Envelope.Fresh}
    (hfile : s.file = .store c) (htable : c.table = some t)
    (h : s.changePassword masterKey fresh = .ok s') :
    ∃ key t', deriveSubKeys masterKey = .ok key ∧
      Table.mapRowData (reseal s.key key fresh) 0 t.rows = .ok t'.rows ∧
      s' = ⟨key, .store { c with
        keyCheck := c.keyCheck.map fun _ => rowText key keyCheckText (fresh 0)
        table := some t' }⟩ := by
  rcases Nat.lt_or_ge masterKey.bytes.length 32 with hshort | hlong
  · rw [changePassword_of_short hshort] at h
    cases h
  · rcases exists_deriveSubKeys_iff.2 hlong with ⟨key, hderive⟩
    rw [changePassword_eq hderive hfile htable] at h
    cases hmap : t.mapData (reseal s.key key fresh) with
    | error e =>
        rw [hmap] at h
        cases h
    | ok t' =>
        rw [hmap] at h
        cases h
        exact ⟨key, t', hderive, Table.mapData_eq_ok_iff.1 hmap, rfl⟩

/-- Another key is taken if it is long enough and every row opens. -/
theorem exists_changePassword_iff (htable : s.table = .ok t) {masterKey : MasterKey}
    {fresh : Nat → Envelope.Fresh} :
    (∃ s', s.changePassword masterKey fresh = .ok s') ↔
      32 ≤ masterKey.bytes.length ∧
        ∀ r ∈ t.rows, ∃ plaintext, unsealBytes s.key r.data = .ok plaintext := by
  rcases table_eq_ok_iff.1 htable with ⟨c, hfile, hrows⟩
  constructor
  · rintro ⟨s', h⟩
    rcases changePassword_cases hfile hrows h with ⟨key, t', hderive, hmap, -⟩
    refine ⟨exists_deriveSubKeys_iff.1 ⟨key, hderive⟩, ?_⟩
    intro r hr
    -- Every row has a partner in the new table, which was sealed from what the row opened to.
    rcases Table.exists_partner (Table.forall₂_mapRowData hmap) hr with ⟨r', -, -, i, hreseal⟩
    rcases (reseal_eq_ok_iff ⟨masterKey, hderive⟩).1 hreseal with ⟨plaintext, hopen, -⟩
    exact ⟨plaintext, hopen⟩
  · rintro ⟨hlong, hopen⟩
    rcases exists_deriveSubKeys_iff.2 hlong with ⟨key, hderive⟩
    -- Sealing under a derived key never fails, so a row that opens can be sealed anew.
    have hreseal : ∀ r ∈ t.rows, ∀ i, ∃ text, reseal s.key key fresh i r.data = .ok text := by
      intro r hr i
      rcases hopen r hr with ⟨plaintext, hplain⟩
      exact ⟨_, (reseal_eq_ok_iff ⟨masterKey, hderive⟩).2 ⟨plaintext, hplain, rfl⟩⟩
    rcases Table.exists_mapRowData (n := 0) hreseal with ⟨rows, hmapped⟩
    rw [changePassword_eq hderive hfile hrows]
    cases hmap : t.mapData (reseal s.key key fresh) with
    | error e =>
        rw [Table.mapData_eq_error_iff, hmapped] at hmap
        cases hmap
    | ok t' => exact ⟨_, rfl⟩

/-! ## Opening -/

theorem boundTo_of_check {check : String} (hcheck : c.keyCheck = some check)
    (hopen : checkKey key check = .ok ()) (fresh : Envelope.Fresh) : c.boundTo key fresh = .ok c := by
  rw [StoreContent.boundTo, hcheck]
  simp only [hopen, ok_bind]
  rfl

theorem boundTo_of_no_check (hkey : key.IsDerived) (hcheck : c.keyCheck = none)
    (fresh : Envelope.Fresh) :
    c.boundTo key fresh = .ok { c with keyCheck := some (rowText key keyCheckText fresh) } := by
  rw [StoreContent.boundTo, hcheck]
  simp only [sealBytes_eq hkey, ok_bind]
  rfl

/-- Opening makes the schema and then the check; only the check can refuse the key. -/
theorem openFile_eq {masterKey : MasterKey} (hderive : deriveSubKeys masterKey = .ok key)
    (c : StoreContent) (fresh : Envelope.Fresh) :
    openFile (.store c) masterKey fresh =
      match c.withSchema.boundTo key fresh with
      | .ok c => (.ok ⟨key, .store c⟩, .store c)
      | .error e => (.error e, .store c.withSchema) := by
  simp only [openFile, StoreFile.unlock, hderive]
  split <;> simp_all [Except.map]

/-- Whatever is in a file, an open store has the key of the master key that opened it. -/
theorem deriveSubKeys_of_openFile {file : StoreFile} {masterKey : MasterKey} {fresh : Envelope.Fresh}
    (h : (openFile file masterKey fresh).1 = .ok s) : deriveSubKeys masterKey = .ok s.key := by
  cases hderive : deriveSubKeys masterKey with
  | error e => simp [openFile, StoreFile.unlock, hderive, Except.map] at h
  | ok key =>
      cases file with
      | «foreign» => simp [openFile, StoreFile.unlock, hderive, Except.map] at h
      | store c =>
          rw [openFile_eq hderive] at h
          split at h
          · cases h
            rfl
          · cases h

/-- Whether a key opens the check of a content, if there is one. -/
def OpensCheck (key : SymmetricKey) (c : StoreContent) : Prop :=
  ∀ check, c.keyCheck = some check → unsealBytes key check = .ok keyCheckText

/-- A content whose check opens is a store again; rows stay, and from then on there is a check. -/
theorem openFile_of_opensCheck {masterKey : MasterKey} (hderive : deriveSubKeys masterKey = .ok key)
    (hcheck : OpensCheck key c) (fresh : Envelope.Fresh) :
    ∃ c' check, openFile (.store c) masterKey fresh = (.ok ⟨key, .store c'⟩, .store c') ∧
      c'.table = some (c.table.getD .empty) ∧ c'.keyCheck = some check ∧
      unsealBytes key check = .ok keyCheckText := by
  have hkey : key.IsDerived := ⟨masterKey, hderive⟩
  rw [openFile_eq hderive]
  cases hfound : c.keyCheck with
  | none =>
      -- A file without a check is bound to the key.
      have hschema : c.withSchema.keyCheck = none := hfound
      rw [boundTo_of_no_check hkey hschema]
      exact ⟨_, _, rfl, rfl, rfl, unsealBytes_sealBytes hkey (sealBytes_eq hkey _ fresh)⟩
  | some check =>
      have hschema : c.withSchema.keyCheck = some check := hfound
      have hopen := hcheck check hfound
      rw [boundTo_of_check hschema (checkKey_eq_ok_iff.2 hopen)]
      exact ⟨_, check, rfl, rfl, hschema, hopen⟩

theorem exists_openFile_iff {masterKey : MasterKey} {check : String} {fresh : Envelope.Fresh}
    (hderive : deriveSubKeys masterKey = .ok key) (hcheck : c.keyCheck = some check) :
    (∃ s', (openFile (.store c) masterKey fresh).1 = .ok s') ↔ checkKey key check = .ok () := by
  have hschema : c.withSchema.keyCheck = some check := hcheck
  rw [openFile_eq hderive]
  cases hopen : checkKey key check with
  | ok _ => simp [boundTo_of_check hschema hopen]
  | error e => simp [StoreContent.boundTo, hschema, hopen]

end Store
end PasswordVault
