import PasswordVault.MasterPassword
import PasswordVault.Proofs.Attempt
import PasswordVault.Proofs.Outcome
import Mathlib.Data.List.Basic

/-!
# The local master password — what its confirmation proves

A password is confirmed in two steps: its hash is made again and compared with the stored one, and then the
key is made, salted with the stored proof. Nothing is assumed of the generator: its derivations may fail, and
they may depend on a state and change it.

- `MasterPassword.run_confirm`: both steps, for every outcome of the first one;
- `MasterPassword.confirms`: the law of confirmation, with the calls that it makes;
- `MasterPassword.exists_confirm_standard`: the real functions confirm every proof that they made.
-/

namespace PasswordVault

/-! ## Lengths of tags -/

namespace Blake2b

theorem length_compress {h : List UInt64} (hlength : h.length = 8) (m : Words16) (count : Nat)
    (last : Bool) : (compress h m count last).length = 8 := by
  simp [compress, hlength, Words16.toList]

theorem length_absorb {h : List UInt64} (hlength : h.length = 8) (count : Nat) (blocks : List Bytes) :
    (absorb h count blocks).length = 8 := by
  fun_induction absorb h count blocks with
  | case1 h => exact length_compress hlength _ _ _
  | case2 h count block => exact length_compress hlength _ _ _
  | case3 h count block rest hrest ih => exact ih (length_compress hlength _ _ _)

theorem length_hash {length : Nat} (h : length ≤ 64) (b : Bytes) : (hash length b).length = length := by
  have hword : ∀ w, (Bytes.ofWordLE w).length = 8 := fun _ => rfl
  simp only [hash, List.length_take, List.length_flatMap, hword, List.map_const', List.sum_replicate_nat]
  rw [length_absorb]
  · omega
  · rfl

end Blake2b

theorem Argon2.length_derive (variant : Variant) (password salt : Bytes) (c : Costs) :
    (derive variant password salt c).length = 32 := by
  simp only [derive, longHash, tagLength]
  exact Blake2b.length_hash (by decide) _

/-! ## Generators whose derivations are functions -/

/-- Whether an attempt has the same outcome in every state. -/
def Attempt.IsConstant {σ α : Type} (m : Attempt σ α) : Prop :=
  ∀ s s', (m.run.run s).1 = (m.run.run s').1

/-- Whether the outcomes of a generator's derivations depend on their arguments only. -/
structure Generator.IsFunctional {σ : Type} (g : Generator σ) : Prop where
  pbkdf2 : ∀ seed salt iterations length, (g.pbkdf2 seed salt iterations length).IsConstant
  argon2 : ∀ variant seed salt costs, (g.argon2 variant seed salt costs).IsConstant

theorem Generator.isFunctional_standard : Generator.standard.IsFunctional :=
  ⟨fun _ _ _ _ _ _ => rfl, fun _ _ _ _ _ _ => rfl⟩

namespace MasterPassword

section

variable {σ : Type} {g : Generator σ} {password salt : Bytes} {version : KdfVersion} {expected : Proof}

/-! ## Single steps -/

/-- The calls that stretch a password: one, or none for a version that is not supported. -/
def stretchCalls (version : KdfVersion) (iterations : Nat) (password salt : Bytes) :
    List Generator.Call :=
  if version = KdfVersion.v0 then [.pbkdf2 password salt iterations keyLength]
  else if version = KdfVersion.v1 then [.argon2 .id password salt argonCosts]
  else []

theorem stretch_of_unsupported (hv0 : version ≠ KdfVersion.v0) (hv1 : version ≠ KdfVersion.v1)
    (g : Generator σ) (iterations : Nat) (password salt : Bytes) :
    stretch g version iterations password salt = throw (.unsupportedKdfVersion version.raw) := by
  rw [stretch, if_neg hv0, if_neg hv1]

theorem stretch_isConstant (hg : g.IsFunctional) (version : KdfVersion) (iterations : Nat)
    (password salt : Bytes) : (stretch g version iterations password salt).IsConstant := by
  rw [stretch]
  split
  · exact hg.pbkdf2 _ _ _ _
  · split
    · exact hg.argon2 _ _ _ _
    · exact fun _ _ => rfl

/-- A generator that notes its calls stretches as the one it listens to. -/
theorem run_stretch_recording (g : Generator σ) (version : KdfVersion) (iterations : Nat)
    (password salt : Bytes) (s : σ) (calls : List Generator.Call) :
    (stretch g.recording version iterations password salt).run.run (s, calls) =
      (((stretch g version iterations password salt).run.run s).1,
        ((stretch g version iterations password salt).run.run s).2,
        calls ++ stretchCalls version iterations password salt) := by
  unfold stretch stretchCalls
  split
  · rfl
  · split
    · rfl
    · rw [List.append_nil]
      rfl

/-- A proof is what a password is stretched to with the iterations for proofs. -/
theorem run_hash (g : Generator σ) (password salt : Bytes) (version : KdfVersion) (s : σ) :
    (hash g password salt version).run.run s =
      (((stretch g version hashIterations password salt).run.run s).1.map (Proof.mk version),
        ((stretch g version hashIterations password salt).run.run s).2) := by
  rw [← Attempt.run_map, hash, map_eq_pure_bind]

/-- A key is what a password is stretched to with the proof as its salt. -/
theorem run_key (g : Generator σ) (password : Bytes) (proof : Proof) (s : σ) :
    (key g password proof).run.run s =
      (((stretch g proof.version keyIterations password proof.hash).run.run s).1.map
          (MasterKey.mk proof.version),
        ((stretch g proof.version keyIterations password proof.hash).run.run s).2) := by
  rw [← Attempt.run_map, key, map_eq_pure_bind]

theorem version_of_run_hash {actual : Proof} {s s' : σ}
    (h : (hash g password salt version).run.run s = (.ok actual, s')) : actual.version = version := by
  rw [run_hash] at h
  obtain ⟨bytes, -, rfl⟩ := map_eq_ok_iff.1 (congrArg Prod.fst h)
  rfl

/-- A hash that is made again is the stored proof if its bytes are. -/
theorem eq_of_run_hash {actual : Proof} {s s' : σ}
    (h : (hash g password salt expected.version).run.run s = (.ok actual, s'))
    (hsame : actual.hash = expected.hash) : actual = expected := by
  have hversion := version_of_run_hash h
  cases actual
  cases expected
  cases hversion
  cases hsame
  rfl

/-! ## Both steps -/

/-- What follows on the outcome of the first step. -/
theorem run_confirm (g : Generator σ) (password salt : Bytes) (expected : Proof) (s : σ) :
    (confirm g password salt expected).run.run s =
      match (hash g password salt expected.version).run.run s with
      | (.error e, between) => (.error (asMismatch e), between)
      | (.ok actual, between) =>
        if actual.hash = expected.hash then
          (((key g password expected).run.run between).1.mapError asMismatch,
            ((key g password expected).run.run between).2)
        else (.error .passwordMismatch, between) := by
  rw [confirm, Attempt.run_bind, Attempt.run_adapt]
  rcases hhash : (hash g password salt expected.version).run.run s with ⟨e | actual, between⟩
  · rfl
  · by_cases hsame : actual.hash = expected.hash
    · cases eq_of_run_hash hhash hsame
      simp only [mapError_ok, ne_eq, not_true_eq_false, if_false, if_true]
      rfl
    · simp only [mapError_ok, ne_eq, hsame, not_false_eq_true, if_true, if_false]
      rfl

/-- Only with a supported version there is a hash. -/
theorem supported_of_run_hash {actual : Proof} {s s' : σ}
    (h : (hash g password salt version).run.run s = (.ok actual, s')) :
    version = KdfVersion.v0 ∨ version = KdfVersion.v1 := by
  by_contra hversion
  rw [not_or] at hversion
  rw [run_hash, stretch_of_unsupported hversion.1 hversion.2] at h
  cases h

/-- Noting the calls changes nothing but the notes. -/
theorem run_hash_recording (g : Generator σ) (password salt : Bytes) (version : KdfVersion) (s : σ)
    (calls : List Generator.Call) :
    (hash g.recording password salt version).run.run (s, calls) =
      (((hash g password salt version).run.run s).1, ((hash g password salt version).run.run s).2,
        calls ++ stretchCalls version hashIterations password salt) := by
  simp only [run_hash, run_stretch_recording]

theorem run_key_recording (g : Generator σ) (password : Bytes) (proof : Proof) (s : σ)
    (calls : List Generator.Call) :
    (key g.recording password proof).run.run (s, calls) =
      (((key g password proof).run.run s).1, ((key g password proof).run.run s).2,
        calls ++ stretchCalls proof.version keyIterations password proof.hash) := by
  simp only [run_key, run_stretch_recording]

theorem hash_isConstant (hg : g.IsFunctional) (password salt : Bytes) (version : KdfVersion) :
    (hash g password salt version).IsConstant := by
  intro s s'
  simp only [run_hash]
  rw [stretch_isConstant hg _ _ _ _ s s']

theorem key_isConstant (hg : g.IsFunctional) (password : Bytes) (proof : Proof) :
    (key g password proof).IsConstant := by
  intro s s'
  simp only [run_key]
  rw [stretch_isConstant hg _ _ _ _ s s']

/-! ## The law of confirmation -/

/-- Everything there is to say about confirming a password against a stored proof. -/
structure Confirms (g : Generator σ) (password salt : Bytes) (expected : Proof) : Prop where
  /-- There is a key exactly if the version is supported, the hash that is made again has the stored bytes,
  and the key of the stored proof is made. It is that key. -/
  ok_iff : ∀ s k after, (confirm g password salt expected).run.run s = (.ok k, after) ↔
    (expected.version = KdfVersion.v0 ∨ expected.version = KdfVersion.v1) ∧
      ∃ actual between, (hash g password salt expected.version).run.run s = (.ok actual, between) ∧
        actual.hash = expected.hash ∧ (key g password expected).run.run between = (.ok k, after)
  /-- The key carries the stored version. -/
  version : ∀ s k after, (confirm g password salt expected).run.run s = (.ok k, after) →
    k.version = expected.version
  /-- With another version nothing is derived. -/
  unsupported : expected.version ≠ KdfVersion.v0 → expected.version ≠ KdfVersion.v1 → ∀ s,
    (confirm g password salt expected).run.run s = (.error .passwordMismatch, s)
  /-- With another hash, of the same length or not, the key is not made. -/
  differs : ∀ s actual between,
    (hash g password salt expected.version).run.run s = (.ok actual, between) →
      actual.hash ≠ expected.hash →
        (confirm g password salt expected).run.run s = (.error .passwordMismatch, between)
  /-- A fault of either step is reported as it is, unless it says that a version is not supported. -/
  fails : ∀ s e after,
    ((hash g password salt expected.version).run.run s = (.error e, after) ∨
      ∃ between, (hash g password salt expected.version).run.run s = (.ok expected, between) ∧
        (key g password expected).run.run between = (.error e, after)) →
      ((∀ v, e ≠ .unsupportedKdfVersion v) →
        (confirm g password salt expected).run.run s = (.error e, after)) ∧
      (∀ v, e = .unsupportedKdfVersion v →
        (confirm g password salt expected).run.run s = (.error .passwordMismatch, after))
  /-- No version is ever reported as not supported. -/
  ne_unsupported : ∀ s v after,
    (confirm g password salt expected).run.run s ≠ (.error (.unsupportedKdfVersion v), after)
  /-- The hash is made by one call and the key by another one, which needs the stored hash. -/
  calls_of_same : ∀ s calls,
    ((hash g password salt expected.version).run.run s).1 = .ok expected →
      ((confirm g.recording password salt expected).run.run (s, calls)).2.2 =
        calls ++ stretchCalls expected.version hashIterations password salt ++
          stretchCalls expected.version keyIterations password expected.hash
  /-- Otherwise there is the first call at most. -/
  calls_of_other : ∀ s calls,
    ((hash g password salt expected.version).run.run s).1 ≠ .ok expected →
      ((confirm g.recording password salt expected).run.run (s, calls)).2.2 =
        calls ++ stretchCalls expected.version hashIterations password salt
  /-- Where derivations are functions, a proof that was made from a password and a salt is confirmed by them,
  with the key that belongs to it. -/
  made : g.IsFunctional → ∀ s₀,
    ((hash g password salt expected.version).run.run s₀).1 = .ok expected → ∀ s s',
      ((confirm g password salt expected).run.run s).1 =
        ((key g password expected).run.run s').1.mapError asMismatch

theorem asMismatch_of_ne {e : CryptoError} (h : ∀ v, e ≠ .unsupportedKdfVersion v) : asMismatch e = e := by
  unfold asMismatch
  split
  case h_1 v => exact absurd rfl (h v)
  case h_2 => rfl

theorem asMismatch_ne (e : CryptoError) (v : Int) : asMismatch e ≠ .unsupportedKdfVersion v := by
  unfold asMismatch
  split
  case h_1 => nofun
  case h_2 other hother => exact fun h => hother v h

theorem run_confirm_of_fails {s between : σ} {e : CryptoError}
    (hhash : (hash g password salt expected.version).run.run s = (.error e, between)) :
    (confirm g password salt expected).run.run s = (.error (asMismatch e), between) := by
  rw [run_confirm, hhash]

/-- Another proof is a wrong password, whatever the key would be. -/
theorem run_confirm_of_differs {s between : σ} {actual : Proof}
    (hhash : (hash g password salt expected.version).run.run s = (.ok actual, between))
    (hdiffers : actual.hash ≠ expected.hash) :
    (confirm g password salt expected).run.run s = (.error .passwordMismatch, between) := by
  rw [run_confirm, hhash]
  exact if_neg hdiffers

theorem run_confirm_of_same {s between : σ}
    (hhash : (hash g password salt expected.version).run.run s = (.ok expected, between)) :
    (confirm g password salt expected).run.run s =
      (((key g password expected).run.run between).1.mapError asMismatch,
        ((key g password expected).run.run between).2) := by
  rw [run_confirm, hhash]
  exact if_pos rfl

/-- A password is confirmed exactly if its proof is the stored one and there is a key for it. -/
theorem run_confirm_eq_ok_iff {s after : σ} {k : MasterKey} :
    (confirm g password salt expected).run.run s = (.ok k, after) ↔
      ∃ actual between, (hash g password salt expected.version).run.run s = (.ok actual, between) ∧
        actual.hash = expected.hash ∧ (key g password expected).run.run between = (.ok k, after) := by
  constructor
  · intro h
    rcases hhash : (hash g password salt expected.version).run.run s with ⟨e | actual, between⟩
    · rw [run_confirm_of_fails hhash] at h
      cases h
    · by_cases hsame : actual.hash = expected.hash
      · cases eq_of_run_hash hhash hsame
        rw [run_confirm_of_same hhash] at h
        obtain ⟨hkey, hafter⟩ := Prod.mk.inj h
        exact ⟨_, _, rfl, rfl, Prod.ext (mapError_eq_ok_iff.1 hkey) hafter⟩
      · rw [run_confirm_of_differs hhash hsame] at h
        cases h
  · rintro ⟨actual, between, hhash, hsame, hkey⟩
    cases eq_of_run_hash hhash hsame
    rw [run_confirm_of_same hhash, hkey, mapError_ok]

/-- For every generator, a confirmation does all that is said of it. -/
theorem confirms (g : Generator σ) (password salt : Bytes) (expected : Proof) :
    Confirms g password salt expected where
  ok_iff s k after := by
    rw [run_confirm_eq_ok_iff]
    constructor
    · rintro ⟨actual, between, hhash, hsame, hkey⟩
      exact ⟨supported_of_run_hash hhash, actual, between, hhash, hsame, hkey⟩
    · rintro ⟨-, h⟩
      exact h
  version s k after h := by
    obtain ⟨actual, between, -, -, hkey⟩ := run_confirm_eq_ok_iff.1 h
    rw [run_key] at hkey
    obtain ⟨bytes, -, rfl⟩ := map_eq_ok_iff.1 (congrArg Prod.fst hkey)
    rfl
  unsupported hv0 hv1 s := by
    have hhash : (hash g password salt expected.version).run.run s =
        (.error (.unsupportedKdfVersion expected.version.raw), s) := by
      rw [run_hash, stretch_of_unsupported hv0 hv1]
      rfl
    rw [run_confirm_of_fails hhash, asMismatch]
  differs s actual between hhash hdiffers := run_confirm_of_differs hhash hdiffers
  fails s e after h := by
    have hconfirm : (confirm g password salt expected).run.run s = (.error (asMismatch e), after) := by
      -- Either stretching may fail; the failure is reported in the same way.
      rcases h with hhash | ⟨between, hhash, hkey⟩
      · exact run_confirm_of_fails hhash
      · rw [run_confirm_of_same hhash, hkey, mapError_error]
    refine ⟨fun hother => ?_, ?_⟩
    · rw [hconfirm, asMismatch_of_ne hother]
    · rintro v rfl
      rw [hconfirm, asMismatch]
  ne_unsupported s v after h := by
    rcases hhash : (hash g password salt expected.version).run.run s with ⟨e | actual, between⟩
    · rw [run_confirm_of_fails hhash] at h
      exact asMismatch_ne e v (Except.error.inj (congrArg Prod.fst h))
    · -- Only an unsupported version is reported as another error, so none is left to come out.
      by_cases hsame : actual.hash = expected.hash
      · cases eq_of_run_hash hhash hsame
        rw [run_confirm_of_same hhash] at h
        obtain ⟨e, -, he⟩ := mapError_eq_error_iff.1 (congrArg Prod.fst h)
        exact asMismatch_ne e v he
      · rw [run_confirm_of_differs hhash hsame] at h
        cases h
  calls_of_same s calls hmade := by
    have hhash := run_hash_recording g password salt expected.version s calls
    rw [hmade] at hhash
    rw [run_confirm_of_same hhash, run_key_recording]
  calls_of_other s calls hother := by
    have hhash := run_hash_recording g password salt expected.version s calls
    rcases houtcome : ((hash g password salt expected.version).run.run s).1 with e | actual
    · rw [houtcome] at hhash
      rw [run_confirm_of_fails hhash]
    · rw [houtcome] at hhash hother
      have hdiffers : actual.hash ≠ expected.hash := fun hsame =>
        hother (congrArg Except.ok (eq_of_run_hash hhash hsame))
      rw [run_confirm_of_differs hhash hdiffers]
  made hg s₀ hmade s s' := by
    have hhash : (hash g password salt expected.version).run.run s =
        (.ok expected, ((hash g password salt expected.version).run.run s).2) :=
      Prod.ext ((hash_isConstant hg password salt expected.version s s₀).trans hmade) rfl
    rw [run_confirm_of_same hhash]
    exact congrArg (Except.mapError asMismatch) (key_isConstant hg password expected _ s')

end

/-! ## The real functions -/

section

variable {version : KdfVersion} {iterations : Nat} {password salt : Bytes}

def stretched (version : KdfVersion) (iterations : Nat) (password salt : Bytes) :
    Except CryptoError Bytes :=
  if version = KdfVersion.v0 then Pbkdf2.stretch password salt iterations keyLength
  else if version = KdfVersion.v1 then Argon2.stretch .id password salt argonCosts
  else .error (.unsupportedKdfVersion version.raw)

theorem run_stretch_standard (version : KdfVersion) (iterations : Nat) (password salt : Bytes)
    (s : Entropy) :
    (stretch Generator.standard version iterations password salt).run.run s =
      (stretched version iterations password salt, s) := by
  unfold stretch stretched
  split
  · rfl
  · split <;> rfl

/-- The real functions give keys of 32 bytes. -/
theorem length_of_stretched {b : Bytes} (h : stretched version iterations password salt = .ok b) :
    b.length = 32 := by
  unfold stretched at h
  split at h
  · unfold Pbkdf2.stretch at h
    split at h
    · cases h
    · cases h
      exact Pbkdf2.length_derive _ _ _ _
  · split at h
    · -- The costs are fixed and in order, so only memory or salt may be refused.
      have hcosts : argonCosts.fault? = none := by decide
      rw [Argon2.stretch, hcosts] at h
      simp only at h
      split at h
      · cases h
      · split at h
        · cases h
        · cases h
          exact Argon2.length_derive _ _ _ _
    · cases h

/-- With a supported version only a short salt can be refused. -/
theorem exists_stretched (hversion : version = KdfVersion.v0 ∨ version = KdfVersion.v1)
    (hiterations : 0 < iterations) (password : Bytes) (hsalt : Argon2.minSaltLength ≤ salt.length) :
    ∃ b, stretched version iterations password salt = .ok b := by
  rcases hversion with rfl | rfl
  · exact ⟨_, (if_pos rfl).trans (if_neg (Nat.not_lt.2 hiterations))⟩
  · have hcosts : argonCosts.fault? = none := by decide
    have hmemory : ¬ Argon2.availableMemory < argonCosts.memory := by decide
    refine ⟨Argon2.derive .id password salt argonCosts, ?_⟩
    rw [stretched, if_neg (by decide), if_pos rfl, Argon2.stretch, hcosts]
    exact (if_neg hmemory).trans (if_neg (Nat.not_lt.2 hsalt))

theorem run_hash_standard (password salt : Bytes) (version : KdfVersion) (s : Entropy) :
    (hash Generator.standard password salt version).run.run s =
      ((stretched version hashIterations password salt).map (Proof.mk version), s) := by
  rw [run_hash, run_stretch_standard]

theorem length_of_run_hash_standard {stored : Proof} {s s' : Entropy}
    (h : (hash Generator.standard password salt version).run.run s = (.ok stored, s')) :
    stored.hash.length = 32 := by
  rw [run_hash_standard] at h
  obtain ⟨bytes, hbytes, rfl⟩ := map_eq_ok_iff.1 (congrArg Prod.fst h)
  exact length_of_stretched hbytes

/-- The real functions make a key from every proof that they made. -/
theorem exists_run_key_standard {stored : Proof} {s s' : Entropy}
    (h : (hash Generator.standard password salt version).run.run s = (.ok stored, s')) :
    ∃ k, ∀ t, (key Generator.standard password stored).run.run t = (.ok k, t) := by
  have hsupported := supported_of_run_hash h
  rw [← version_of_run_hash h] at hsupported
  have hlong : Argon2.minSaltLength ≤ stored.hash.length := by
    rw [length_of_run_hash_standard h]
    decide
  obtain ⟨bytes, hbytes⟩ : ∃ b, stretched stored.version keyIterations password stored.hash = .ok b :=
    exists_stretched hsupported (by decide) password hlong
  refine ⟨⟨stored.version, bytes⟩, fun t => ?_⟩
  rw [run_key, run_stretch_standard, hbytes]
  rfl

end

/-- Confirmation follows its law under every generator, and a proof that the real functions made from a
password and a salt is always confirmed by them, with the key that belongs to it. -/
theorem confirmation :
    (∀ {σ : Type} (g : Generator σ) (password salt : Bytes) (expected : Proof),
      Confirms g password salt expected) ∧
    (∀ password salt version stored s s',
      (hash Generator.standard password salt version).run.run s = (.ok stored, s') →
        ∃ k, ∀ t, (key Generator.standard password stored).run.run t = (.ok k, t) ∧
          (confirm Generator.standard password salt stored).run.run t = (.ok k, t)) := by
  refine ⟨confirms, ?_⟩
  intro password salt version stored s s' hmade
  obtain ⟨k, hkey⟩ := exists_run_key_standard hmade
  cases version_of_run_hash hmade
  refine ⟨k, fun t => ⟨hkey t, ?_⟩⟩
  have hagain : (hash Generator.standard password salt stored.version).run.run t = (.ok stored, t) := by
    rw [run_hash_standard] at hmade ⊢
    exact Prod.ext (congrArg Prod.fst hmade :) rfl
  rw [run_confirm_of_same hagain, hkey, mapError_ok]

/-- A password is confirmed against its own proof, and not against one that is a byte longer or has another
version. -/
theorem confirmation_hunter2 :
    let password := Bytes.ofText "hunter2"
    let salt := List.replicate saltLength 0
    ∃ (stored : Proof) (k : MasterKey), ∀ s,
      (hash Generator.standard password salt KdfVersion.v0).run.run s = (.ok stored, s) ∧
        (confirm Generator.standard password salt stored).run.run s = (.ok k, s) ∧
        (confirm Generator.standard password salt ⟨stored.version, stored.hash ++ [0]⟩).run.run s =
          (.error .passwordMismatch, s) ∧
        (confirm Generator.standard password salt ⟨⟨999⟩, stored.hash⟩).run.run s =
          (.error .passwordMismatch, s) := by
  intro password salt
  obtain ⟨bytes, hbytes⟩ : ∃ b, stretched KdfVersion.v0 hashIterations password salt = .ok b :=
    exists_stretched (.inl rfl) (by decide) password (by decide)
  have hmade : ∀ s, (hash Generator.standard password salt KdfVersion.v0).run.run s =
      (.ok ⟨KdfVersion.v0, bytes⟩, s) := by
    intro s
    rw [run_hash_standard, hbytes]
    rfl
  obtain ⟨hlaw, hstandard⟩ := confirmation
  obtain ⟨k, hconfirm⟩ := hstandard _ _ _ _ ⟨fun _ => 0, 0⟩ _ (hmade _)
  refine ⟨⟨KdfVersion.v0, bytes⟩, k, fun s => ⟨hmade s, (hconfirm s).2, ?_, ?_⟩⟩
  · refine (hlaw _ _ _ _).differs s _ s (hmade s) fun hsame => ?_
    simpa using congrArg List.length hsame
  · have hv0 : (⟨999⟩ : KdfVersion) ≠ KdfVersion.v0 := by decide
    have hv1 : (⟨999⟩ : KdfVersion) ≠ KdfVersion.v1 := by decide
    exact (hlaw _ _ _ _).unsupported hv0 hv1 s

end MasterPassword
end PasswordVault
