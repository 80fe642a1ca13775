import PasswordVault.Proofs.Attempt
import PasswordVault.Proofs.Json.Records
import PasswordVault.Proofs.Store.Settings
import PasswordVault.Proofs.Text.Base64
import PasswordVault.Store.StoredKey

/-!
# The key of the store — it survives its settings

The key goes through base64 and a JSON record into a setting, and in a file the setting goes through JSON
once more. If any of that changed the key, the next start would take the store for unreadable and delete it.

* `StoredKey.parse_compact`: the text of a key is read as that key.
* `StoredKey.Keeps`: settings give a key on every load, whatever else they are used for in between.
* `StoredKey.Survives`: the law of settings. A key that was saved is kept; without one, a key that was
  generated is kept, and a step that fails changes nothing.
* `StoredKey.key_survives_settings`: settings in memory obey the law, and so do those in a file that can be
  read.
-/

namespace PasswordVault
namespace StoredKey

open Json.Reader

/-! ## The text of a key -/

/-- Whether a version is a signed number of 32 bits. -/
def Fits (v : KdfVersion) : Prop := -0x80000000 ≤ v.raw ∧ v.raw ≤ 0x7fffffff

theorem fits_v0 : Fits KdfVersion.v0 := ⟨by decide, by decide⟩

theorem finds_toJson {k : MasterKey} (hk : Fits k.version) :
    Finds reader (toJson k) (k.version, Base64.encode k.bytes) := by
  have hversion := finds_integer hk.1 hk.2 (by decide) (by decide)
  have hbytes := finds_text (Base64.encode k.bytes)
  refine finds_record ["version", "key"] [.int k.version.raw, .string (Base64.encode k.bytes)] (by decide)
    rfl ?_ ?_
  · simp [hversion.exact, hbytes.exact]
  · intro depth hdepth b
    simp [int32, hversion.required_bind hdepth, hbytes.required_bind hdepth, and_assoc]

/-- A key is read from the text that it is saved as. -/
theorem parse_compact {k : MasterKey} (hk : Fits k.version) : parse (toJson k).compact = .ok k := by
  have hfinds := finds_toJson hk
  have hlevels : (toJson k).nesting < Json.nestingLimit := by
    simp [toJson, Json.nesting, Json.membersNesting, Json.memberNesting, Json.int, Json.nestingLimit]
  have hread : reader.run? (toJson k).compact = some (k.version, Base64.encode k.bytes) := by
    rw [run?, Json.parse?_compact hfinds.exact]
    exact (hfinds.reads _ (by decide) _).2 ⟨hlevels, rfl⟩
  rw [parse, hread]
  simp only [Base64.decode_encode]

/-! ## Steps of a new key -/

variable {σ τ : Type}

/-- What the steps towards a new key end in: two draws of random bytes, and two derivations that may fail,
the second salted with the outcome of the first. -/
def steps (g : Generator τ) (state : τ) : Except CryptoError Bytes × τ :=
  let (password, state) := (g.seed 32).run state
  let (salt, state) := (g.seed 64).run state
  match (g.pbkdf2 password salt 100000 32).run.run state with
  | (.error e, state) => (.error e, state)
  | (.ok hash, state) => (g.pbkdf2 password hash 10000 32).run.run state

/-- A new key is what the random password is stretched to with the salt. -/
theorem run_generate (g : Generator τ) (state : τ) :
    (generate g).run.run state =
      ((steps g state).1.map fun bytes => ⟨KdfVersion.v0, bytes⟩, (steps g state).2) := by
  have hsteps : generate g = (do
      let password ← liftM (g.seed 32)
      let salt ← liftM (g.seed 64)
      let hash ← g.pbkdf2 password salt 100000 32
      MasterKey.mk KdfVersion.v0 <$> g.pbkdf2 password hash 10000 32) := by
    simp [generate, MasterPassword.newSalt, MasterPassword.hash, MasterPassword.key, MasterPassword.stretch,
      kdfVersion, passwordLength, MasterPassword.saltLength, MasterPassword.hashIterations,
      MasterPassword.keyIterations, MasterPassword.keyLength]
  rcases hpassword : (g.seed 32).run state with ⟨password, s⟩
  rcases hsalt : (g.seed 64).run s with ⟨salt, s'⟩
  rcases hhash : (g.pbkdf2 password salt 100000 32).run.run s' with ⟨e | hash, s''⟩
  · simp only [hsteps, Attempt.run_bind, Attempt.run_lift, steps, hpassword, hsalt, hhash, Except.map]
  · simp only [hsteps, Attempt.run_bind, Attempt.run_lift, Attempt.run_map, steps, hpassword, hsalt, hhash]

/-! ## Loading -/

theorem loadOrCreate_of_some {access : SettingsAccess σ} {settings : σ} {text : String}
    (hget : access.get settings settingName = .ok (some text)) (g : Generator τ) (state : τ) :
    (loadOrCreate access g settings).run state = ((parse text).map fun k => (k, settings), state) := by
  rw [loadOrCreate, hget]
  rfl

/-- Without a stored key a new one is made, and it is given only if it could be saved. -/
theorem loadOrCreate_of_none {access : SettingsAccess σ} {settings : σ}
    (hget : access.get settings settingName = .ok none) (g : Generator τ) (state : τ) :
    (loadOrCreate access g settings).run state =
      match steps g state with
      | (.error e, after) => (.error (.crypto e), after)
      | (.ok bytes, after) =>
        ((save access settings ⟨KdfVersion.v0, bytes⟩).map fun s => (⟨KdfVersion.v0, bytes⟩, s), after) := by
  have hgenerate := run_generate g state
  rw [loadOrCreate, hget]
  simp only [StateT.run_bind]
  rw [hgenerate]
  rcases steps g state with ⟨_ | bytes, after⟩ <;> rfl

/-! ## What happens to the settings -/

/-- A use of the settings: the key of the store is loaded, or another setting is set or removed. -/
inductive Use : Type 1 where
  | load {τ : Type} (g : Generator τ) (state : τ)
  | set (name : String) (value : Option String) (hname : name ≠ settingName)

/-- The settings after a use. One that fails leaves them as they were. -/
def after (access : SettingsAccess σ) (settings : σ) : Use → σ
  | .load g state =>
    match ((loadOrCreate access g settings).run state).1 with
    | .ok (_, settings) => settings
    | .error _ => settings
  | .set name value _ =>
    match access.put settings name value with
    | .ok settings => settings
    | .error _ => settings

/-- Whether settings keep a key: after any other uses, every load gives it, calls no function of the
generator and leaves the settings as they are. -/
def Keeps (access : SettingsAccess σ) (settings : σ) (k : MasterKey) : Prop :=
  ∀ (uses : List Use) {τ : Type} (g : Generator τ) (state : τ) (calls : List Generator.Call),
    let now := uses.foldl (after access) settings
    (loadOrCreate access g.recording now).run (state, calls) = (.ok (k, now), (state, calls))

/-- Whether two settings differ in the key of the store at most. -/
def SameOthers (access : SettingsAccess σ) (settings settings' : σ) : Prop :=
  ∀ name ≠ settingName, access.get settings' name = access.get settings name

/-- The law of settings that hold the key of a store. -/
structure Survives (access : SettingsAccess σ) (settings : σ) : Prop where
  /-- A key that is saved is kept, with its version and its bytes. -/
  saved : ∀ k : MasterKey, Fits k.version →
    ∃ settings', save access settings k = .ok settings' ∧ SameOthers access settings settings' ∧
      Keeps access settings' k
  /-- Where there is no key and all steps towards a new one succeed, that is given and kept. -/
  created : access.get settings settingName = .ok none →
    ∀ {τ : Type} (g : Generator τ) (state state' : τ) (bytes : Bytes), steps g state = (.ok bytes, state') →
      ∃ settings', (loadOrCreate access g settings).run state =
          (.ok (⟨KdfVersion.v0, bytes⟩, settings'), state') ∧
        SameOthers access settings settings' ∧ Keeps access settings' ⟨KdfVersion.v0, bytes⟩
  /-- Where there is no key and a step fails, so does the load, and the settings stay as they are. -/
  failed : access.get settings settingName = .ok none →
    ∀ {τ : Type} (g : Generator τ) (state state' : τ) (e : CryptoError), steps g state = (.error e, state') →
      (loadOrCreate access g settings).run state = (.error (.crypto e), state') ∧
        after access settings (.load g state) = settings

/-- Whether the setting of the key spells a key. -/
def Spells (access : SettingsAccess σ) (settings : σ) (k : MasterKey) : Prop :=
  ∃ text, access.get settings settingName = .ok (some text) ∧ parse text = .ok k

theorem Spells.loadOrCreate {access : SettingsAccess σ} {settings : σ} {k : MasterKey}
    (h : Spells access settings k) (g : Generator τ) (state : τ) :
    (loadOrCreate access g settings).run state = (.ok (k, settings), state) := by
  obtain ⟨text, hget, hparse⟩ := h
  rw [loadOrCreate_of_some hget, hparse]
  rfl

section Lawful

variable {access : SettingsAccess σ} {readable : σ → Prop} (hlaws : access.Lawful readable)
  {settings : σ} {k : MasterKey}

include hlaws

/-- Other uses of the settings leave the key alone. -/
theorem Spells.after (hreadable : readable settings) (h : Spells access settings k) (use : Use) :
    readable (after access settings use) ∧ Spells access (after access settings use) k := by
  cases use with
  | load g state =>
      simp only [StoredKey.after, h.loadOrCreate g state]
      exact ⟨hreadable, h⟩
  | set name value hname =>
      obtain ⟨settings', hput, hreadable', hgets⟩ := hlaws.exists_put hreadable name value
      obtain ⟨text, hget, hparse⟩ := h
      simp only [StoredKey.after, hput]
      exact ⟨hreadable', text, by rw [hgets, if_neg (Ne.symm hname), hget], hparse⟩

theorem Spells.keeps (hreadable : readable settings) (h : Spells access settings k) :
    Keeps access settings k := by
  intro uses τ g state calls
  induction uses generalizing settings with
  | nil => exact h.loadOrCreate g.recording (state, calls)
  | cons use rest ih =>
      obtain ⟨hreadable', h'⟩ := Spells.after hlaws hreadable h use
      exact ih hreadable' h'

/-- A key that is saved is kept. -/
theorem exists_save (hreadable : readable settings) (hk : Fits k.version) :
    ∃ settings', save access settings k = .ok settings' ∧ SameOthers access settings settings' ∧
      Keeps access settings' k := by
  obtain ⟨settings', hput, hreadable', hgets⟩ :=
    hlaws.exists_put hreadable settingName (some (toJson k).compact)
  refine ⟨settings', hput, ?_, ?_⟩
  · intro name hname
    rw [hgets, if_neg hname]
  · refine Spells.keeps hlaws hreadable' ⟨(toJson k).compact, ?_, parse_compact hk⟩
    rw [hgets, if_pos rfl]

/-- An access that keeps the laws keeps the key, where the settings can be read. -/
theorem survives_of_lawful (hreadable : readable settings) : Survives access settings where
  saved k hk := exists_save hlaws hreadable hk
  created := by
    intro hnone τ g state state' bytes hsteps
    obtain ⟨settings', hsave, hothers, hkeeps⟩ :=
      exists_save hlaws hreadable (k := ⟨KdfVersion.v0, bytes⟩) fits_v0
    refine ⟨settings', ?_, hothers, hkeeps⟩
    rw [loadOrCreate_of_none hnone, hsteps]
    simp only [hsave]
    rfl
  failed := by
    intro hnone τ g state state' e hsteps
    have hload : (loadOrCreate access g settings).run state = (.error (.crypto e), state') := by
      rw [loadOrCreate_of_none hnone, hsteps]
    refine ⟨hload, ?_⟩
    simp only [after, hload]

end Lawful

/-- The key of the store survives its settings, in memory and in every file that can be read. -/
theorem key_survives_settings :
    (∀ settings : Settings, Survives Settings.access settings) ∧
      ∀ file : SettingsFile, file.Readable → Survives SettingsFile.access file :=
  ⟨fun _ => survives_of_lawful Settings.lawful_access trivial,
    fun _ hfile => survives_of_lawful SettingsFile.lawful_access hfile⟩

/-- A generator whose random bytes are zeros. Its derivations give the salt back, and fail for one number of
iterations. -/
def zeros (failing : Nat) : Generator Unit where
  hkdfExpand key _ _ := pure key
  pbkdf2 _ salt iterations _ := if iterations = failing then throw .passwordMismatch else pure salt
  argon2 _ _ salt _ := pure salt
  sha256 data := pure data
  seed length := pure (List.replicate length 0)

/-- At the first start there is no file yet: an empty key of an unknown version is kept, and so is a new key,
unless its last derivation fails. -/
theorem key_survives_settings_firstStart :
    SettingsFile.Readable none ∧ Fits ⟨-7⟩ ∧ SettingsFile.access.get none settingName = .ok none ∧
      (∃ file, save SettingsFile.access none ⟨⟨-7⟩, []⟩ = .ok file ∧
        Keeps SettingsFile.access file ⟨⟨-7⟩, []⟩) ∧
      (∃ file, (loadOrCreate SettingsFile.access (zeros 0) none).run () =
          (.ok (⟨KdfVersion.v0, List.replicate 64 0⟩, file), ()) ∧
        Keeps SettingsFile.access file ⟨KdfVersion.v0, List.replicate 64 0⟩) ∧
      (loadOrCreate SettingsFile.access (zeros 10000) none).run () =
        (.error (.crypto .passwordMismatch), ()) := by
  have hreadable : SettingsFile.Readable none := ⟨[], rfl⟩
  have hfits : Fits ⟨-7⟩ := ⟨by decide, by decide⟩
  have hlaw := key_survives_settings.2 none hreadable
  obtain ⟨saved, hsave, -, hsaved⟩ := hlaw.saved ⟨⟨-7⟩, []⟩ hfits
  obtain ⟨created, hload, -, hcreated⟩ := hlaw.created rfl (zeros 0) () () (List.replicate 64 0) rfl
  obtain ⟨hfailed, -⟩ := hlaw.failed rfl (zeros 10000) () () .passwordMismatch rfl
  exact ⟨hreadable, hfits, rfl, ⟨saved, hsave, hsaved⟩, ⟨created, hload, hcreated⟩, hfailed⟩

end StoredKey
end PasswordVault
