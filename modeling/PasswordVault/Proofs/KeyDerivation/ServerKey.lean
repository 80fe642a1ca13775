import Mathlib.Algebra.Group.Nat.Defs
import PasswordVault.KdfConfig
import PasswordVault.Proofs.Attempt
import PasswordVault.Proofs.Outcome

/-!
# Keys for a server — costs are passed on exactly

A server names a function and its costs, and any of them may be missing, zero or beyond what can be
afforded. All of this is looked at before anything is derived, and costs that pass are handed to the
function as they are.

- `KdfConfig.validate_eq_ok_iff`: the parameters that pass;
- `run_deriveMasterKey_of_pbkdf2`, `run_deriveMasterKey_of_argon2id`: what is called, and with what;
- `costs_passed_exactly`: the outcome and the calls for all parameters and all generators.
-/

namespace PasswordVault

namespace KdfConfig

/-! ## Parameters -/

/-- Whether parameters ask for a function, with all of its costs given and none of them zero. -/
def Asks (c : KdfConfig) : KdfType → Prop
  | .pbkdf2Sha256 => c.kdfType = 0 ∧ 0 < c.iterations
  | .argon2id => c.kdfType = 1 ∧ 0 < c.iterations ∧
      (∃ memory, c.memoryMb = some memory ∧ 0 < memory) ∧
      ∃ lanes, c.parallelism = some lanes ∧ 0 < lanes

variable {c : KdfConfig} {kdf : KdfType}

theorem kdf_eq_ok_iff : c.kdf = .ok kdf ↔ c.kdfType = kdf.raw := by
  rw [KdfConfig.kdf, KdfType.ofRaw]
  by_cases hzero : c.kdfType = 0
  · rw [if_pos hzero, hzero]
    cases kdf <;> simp [KdfType.raw]
  · by_cases hone : c.kdfType = 1
    · rw [if_neg hzero, if_pos hone, hone]
      cases kdf <;> simp [KdfType.raw]
    · rw [if_neg hzero, if_neg hone]
      cases kdf <;> simp [KdfType.raw, hzero, hone]

/-- Costs are accepted if all of them are given and none is zero. -/
theorem validate_of_asks (h : c.Asks kdf) : c.validate = .ok kdf := by
  have hkdf : c.kdf = .ok kdf := by
    apply kdf_eq_ok_iff.2
    cases kdf with
    | pbkdf2Sha256 => exact h.1
    | argon2id => exact h.1
  rw [validate, hkdf, ok_bind]
  cases kdf with
  | pbkdf2Sha256 =>
      have hiterations : ¬ c.iterations < 1 := by have := h.2; omega
      simp only [hiterations, if_false]
      rfl
  | argon2id =>
      obtain ⟨-, hpositive, ⟨memory, hmemory, hmemoryPositive⟩, lanes, hlanes, hlanesPositive⟩ := h
      have hiterations : ¬ c.iterations < 1 := by omega
      obtain ⟨m, rfl⟩ := Nat.exists_eq_add_one.2 hmemoryPositive
      obtain ⟨l, rfl⟩ := Nat.exists_eq_add_one.2 hlanesPositive
      simp only [hiterations, if_false, hmemory, hlanes]
      rfl

/-- No other costs are accepted. -/
theorem asks_of_validate (h : c.validate = .ok kdf) : c.Asks kdf := by
  obtain ⟨found, hfound, hrest⟩ := bind_eq_ok_iff.1 h
  have hraw := kdf_eq_ok_iff.1 hfound
  have hiterations : 0 < c.iterations := by
    by_contra hfew
    rw [if_pos (by omega)] at hrest
    cases hrest
  rw [if_neg (by omega)] at hrest
  cases found with
  | pbkdf2Sha256 =>
      cases hrest
      exact ⟨hraw, hiterations⟩
  | argon2id =>
      -- Each cost is there and is not zero, for all other cases end in an error.
      rcases hmemory : c.memoryMb with _ | _ | memory
      · rw [hmemory] at hrest
        cases hrest
      · rw [hmemory] at hrest
        cases hrest
      rcases hlanes : c.parallelism with _ | _ | lanes
      · rw [hmemory, hlanes] at hrest
        cases hrest
      · rw [hmemory, hlanes] at hrest
        cases hrest
      rw [hmemory, hlanes] at hrest
      cases hrest
      exact ⟨hraw, hiterations, ⟨memory + 1, hmemory, Nat.succ_pos _⟩, lanes + 1, hlanes, Nat.succ_pos _⟩

/-- A record is accepted exactly if it asks for a function with all its costs. -/
theorem validate_eq_ok_iff : c.validate = .ok kdf ↔ c.Asks kdf :=
  ⟨asks_of_validate, validate_of_asks⟩

end KdfConfig

/-! ## Derivation -/

section

variable {σ : Type} {g : Generator σ} {password salt : Bytes} {c : KdfConfig}

theorem run_deriveMasterKey_of_error {e : CryptoError} (h : c.validate = .error e) (s : σ) :
    (deriveMasterKey g password salt c).run.run s = (.error e, s) := by
  rw [deriveMasterKey, Attempt.run_bind, h]
  rfl

/-- PBKDF2 is called once, with the iterations of the server. -/
theorem run_deriveMasterKey_of_pbkdf2 (h : c.Asks .pbkdf2Sha256) (s : σ) :
    (deriveMasterKey g password salt c).run.run s =
      (((g.pbkdf2 password salt c.iterations 32).run.run s).1.map (MasterKey.mk KdfVersion.v0),
        ((g.pbkdf2 password salt c.iterations 32).run.run s).2) := by
  rw [deriveMasterKey, Attempt.run_bind, KdfConfig.validate_of_asks h, ← Attempt.run_map,
    map_eq_pure_bind]
  rfl

theorem run_deriveMasterKey_of_unaffordable (h : c.Asks .argon2id) {memory : Nat}
    (hmemory : c.memoryMb = some memory) (hmuch : 2 ^ 32 ≤ memory * 1024) (s : σ) :
    (deriveMasterKey g password salt c).run.run s = (.error (.outOfMemoryKdf (memory * 1024)), s) := by
  have hlimit : 0xffffffff < memory * 1024 := by omega
  rw [deriveMasterKey, Attempt.run_bind, KdfConfig.validate_of_asks h, hmemory]
  simp only [Option.getD_some, hlimit, if_true]
  rfl

/-- The salt is digested for Argon2id; the memory that the server asks for is turned into KiB. -/
theorem run_deriveMasterKey_of_argon2id (h : c.Asks .argon2id) {memory lanes : Nat}
    (hmemory : c.memoryMb = some memory) (hlanes : c.parallelism = some lanes)
    (hfits : memory * 1024 < 2 ^ 32) (s : σ) :
    (deriveMasterKey g password salt c).run.run s =
      (((g.argon2 .id password ((g.sha256 salt).run s).1 ⟨c.iterations, memory * 1024, lanes⟩).run.run
          ((g.sha256 salt).run s).2).1.map (MasterKey.mk KdfVersion.v1),
        ((g.argon2 .id password ((g.sha256 salt).run s).1 ⟨c.iterations, memory * 1024, lanes⟩).run.run
          ((g.sha256 salt).run s).2).2) := by
  have hlimit : ¬ 0xffffffff < memory * 1024 := by omega
  rw [deriveMasterKey, Attempt.run_bind, KdfConfig.validate_of_asks h, hmemory, hlanes,
    ← Attempt.run_map, map_eq_pure_bind]
  simp only [Option.getD_some, hlimit, if_false]
  rfl

/-! ## Calls -/

/-- A call is noted whether it succeeds or not. -/
theorem Generator.run_pbkdf2_recording (g : Generator σ) (seed salt : Bytes) (iterations length : Nat)
    (s : σ) (calls : List Generator.Call) :
    (g.recording.pbkdf2 seed salt iterations length).run.run (s, calls) =
      (((g.pbkdf2 seed salt iterations length).run.run s).1,
        ((g.pbkdf2 seed salt iterations length).run.run s).2,
        calls ++ [.pbkdf2 seed salt iterations length]) :=
  rfl

theorem Generator.run_argon2_recording (g : Generator σ) (variant : Argon2.Variant) (seed salt : Bytes)
    (costs : Argon2.Costs) (s : σ) (calls : List Generator.Call) :
    (g.recording.argon2 variant seed salt costs).run.run (s, calls) =
      (((g.argon2 variant seed salt costs).run.run s).1,
        ((g.argon2 variant seed salt costs).run.run s).2,
        calls ++ [.argon2 variant seed salt costs]) :=
  rfl

theorem Generator.run_sha256_recording (g : Generator σ) (data : Bytes) (s : σ)
    (calls : List Generator.Call) :
    (g.recording.sha256 data).run (s, calls) =
      (((g.sha256 data).run s).1, ((g.sha256 data).run s).2, calls ++ [.sha256 data]) :=
  rfl

theorem run_deriveMasterKey_recording_of_argon2id (h : c.Asks .argon2id) {memory lanes : Nat}
    (hmemory : c.memoryMb = some memory) (hlanes : c.parallelism = some lanes)
    (hfits : memory * 1024 < 2 ^ 32) (s : σ) (calls : List Generator.Call) :
    (deriveMasterKey g.recording password salt c).run.run (s, calls) =
      (((deriveMasterKey g password salt c).run.run s).1,
        ((deriveMasterKey g password salt c).run.run s).2,
        calls ++ [.sha256 salt,
          .argon2 .id password ((g.sha256 salt).run s).1 ⟨c.iterations, memory * 1024, lanes⟩]) := by
  rw [run_deriveMasterKey_of_argon2id h hmemory hlanes hfits,
    run_deriveMasterKey_of_argon2id h hmemory hlanes hfits, Generator.run_sha256_recording,
    Generator.run_argon2_recording, List.append_assoc]
  rfl

theorem run_deriveMasterKey_recording_of_pbkdf2 (h : c.Asks .pbkdf2Sha256) (s : σ)
    (calls : List Generator.Call) :
    (deriveMasterKey g.recording password salt c).run.run (s, calls) =
      (((deriveMasterKey g password salt c).run.run s).1,
        ((deriveMasterKey g password salt c).run.run s).2,
        calls ++ [.pbkdf2 password salt c.iterations 32]) := by
  rw [run_deriveMasterKey_of_pbkdf2 h, run_deriveMasterKey_of_pbkdf2 h, Generator.run_pbkdf2_recording]

/-- All that can come of parameters. -/
theorem KdfConfig.asks_cases (c : KdfConfig) :
    (∃ e, c.validate = .error e) ∨ c.Asks .pbkdf2Sha256 ∨
      c.Asks .argon2id ∧ ∃ memory lanes, c.memoryMb = some memory ∧ c.parallelism = some lanes ∧
        (memory * 1024 < 2 ^ 32 ∨ 2 ^ 32 ≤ memory * 1024) := by
  cases hvalidate : c.validate with
  | error e => exact .inl ⟨e, rfl⟩
  | ok kdf =>
      have hasks := asks_of_validate hvalidate
      cases kdf with
      | pbkdf2Sha256 => exact .inr (.inl hasks)
      | argon2id =>
          obtain ⟨-, -, ⟨memory, hmemory, -⟩, lanes, hlanes, -⟩ := id hasks
          exact .inr (.inr ⟨hasks, memory, lanes, hmemory, hlanes, Nat.lt_or_ge _ _⟩)

/-- Noting the calls makes no difference to the key. -/
theorem exists_run_deriveMasterKey_recording (g : Generator σ) (password salt : Bytes) (c : KdfConfig)
    (s : σ) (calls : List Generator.Call) :
    ∃ made, (deriveMasterKey g.recording password salt c).run.run (s, calls) =
      (((deriveMasterKey g password salt c).run.run s).1,
        ((deriveMasterKey g password salt c).run.run s).2, calls ++ made) := by
  rcases c.asks_cases with ⟨e, he⟩ | hasks | ⟨hasks, memory, lanes, hmemory, hlanes, hfits | hmuch⟩
  · refine ⟨[], ?_⟩
    rw [run_deriveMasterKey_of_error he, run_deriveMasterKey_of_error he, List.append_nil]
  · exact ⟨_, run_deriveMasterKey_recording_of_pbkdf2 hasks s calls⟩
  · exact ⟨_, run_deriveMasterKey_recording_of_argon2id hasks hmemory hlanes hfits s calls⟩
  · refine ⟨[], ?_⟩
    rw [run_deriveMasterKey_of_unaffordable hasks hmemory hmuch,
      run_deriveMasterKey_of_unaffordable hasks hmemory hmuch, List.append_nil]

/-- Everything there is to say about the key of a server's parameters. -/
structure PassesCosts (g : Generator σ) (password salt : Bytes) (c : KdfConfig) : Prop where
  /-- The parameters that pass. -/
  passed : ∀ kdf, c.validate = .ok kdf ↔ c.Asks kdf
  /-- Others are reported as they are found to be, and nothing is called. -/
  refused : ∀ e, c.validate = .error e → ∀ s calls,
    (deriveMasterKey g.recording password salt c).run.run (s, calls) = (.error e, s, calls)
  /-- One call, whose fault is reported as it is. -/
  pbkdf2 : c.Asks .pbkdf2Sha256 → ∀ s calls outcome after,
    (g.pbkdf2 password salt c.iterations 32).run.run s = (outcome, after) →
      (deriveMasterKey g.recording password salt c).run.run (s, calls) =
        (outcome.map (MasterKey.mk KdfVersion.v0), after,
          calls ++ [.pbkdf2 password salt c.iterations 32])
  /-- Two calls, the first for the salt of the second, whose fault is reported as it is. -/
  argon2id : c.Asks .argon2id → ∀ memory lanes, c.memoryMb = some memory → c.parallelism = some lanes →
    memory * 1024 < 2 ^ 32 → ∀ s calls hashed between outcome after,
      (g.sha256 salt).run s = (hashed, between) →
      (g.argon2 .id password hashed ⟨c.iterations, memory * 1024, lanes⟩).run.run between =
        (outcome, after) →
      (deriveMasterKey g.recording password salt c).run.run (s, calls) =
        (outcome.map (MasterKey.mk KdfVersion.v1), after,
          calls ++ [.sha256 salt, .argon2 .id password hashed ⟨c.iterations, memory * 1024, lanes⟩])
  /-- More memory than can be addressed is reported in full, and nothing is called. -/
  unaffordable : c.Asks .argon2id → ∀ memory, c.memoryMb = some memory → 2 ^ 32 ≤ memory * 1024 →
    ∀ s calls, (deriveMasterKey g.recording password salt c).run.run (s, calls) =
      (.error (.outOfMemoryKdf (memory * 1024)), s, calls)
  /-- All this is so whether the calls are noted or not. -/
  unnoted : ∀ s calls, ∃ made, (deriveMasterKey g.recording password salt c).run.run (s, calls) =
    (((deriveMasterKey g password salt c).run.run s).1,
      ((deriveMasterKey g password salt c).run.run s).2, calls ++ made)

/-- The key of a server's parameters is derived with their costs, or not at all: whatever the generator does,
nothing is called before the parameters have passed, and then only the function that they ask for, with
costs that are exactly theirs. -/
theorem costs_passed_exactly (g : Generator σ) (password salt : Bytes) (c : KdfConfig) :
    PassesCosts g password salt c where
  passed kdf := KdfConfig.validate_eq_ok_iff
  refused e h s calls := run_deriveMasterKey_of_error h (s, calls)
  pbkdf2 h s calls outcome after hcall := by
    rw [run_deriveMasterKey_recording_of_pbkdf2 h, run_deriveMasterKey_of_pbkdf2 h, hcall]
  argon2id h memory lanes hmemory hlanes hfits s calls hashed between outcome after hhash hcall := by
    rw [run_deriveMasterKey_recording_of_argon2id h hmemory hlanes hfits,
      run_deriveMasterKey_of_argon2id h hmemory hlanes hfits, hhash, hcall]
  unaffordable h memory hmemory hmuch s calls :=
    run_deriveMasterKey_of_unaffordable h hmemory hmuch (s, calls)
  unnoted := exists_run_deriveMasterKey_recording g password salt c

end

/-- Parameters of each kind: two that pass, the least memory that is too much, and a function that there is
not. -/
theorem costs_passed_exactly_hunter2 :
    let password := Bytes.ofText "hunter2"
    let salt := Bytes.ofText "user@example.com"
    let s : Entropy := ⟨fun _ => 0, 0⟩
    let run (c : KdfConfig) := (deriveMasterKey Generator.standard.recording password salt c).run.run (s, [])
    run (.pbkdf2 600000) =
        ((Pbkdf2.stretch password salt 600000 32).map (MasterKey.mk KdfVersion.v0), s,
          [.pbkdf2 password salt 600000 32]) ∧
      run (.argon2id 3 64 4) =
        ((Argon2.stretch .id password (Sha256.hash salt) ⟨3, 65536, 4⟩).map (MasterKey.mk KdfVersion.v1), s,
          [.sha256 salt, .argon2 .id password (Sha256.hash salt) ⟨3, 65536, 4⟩]) ∧
      run (.argon2id 1 0x400000 1) = (.error (.outOfMemoryKdf 0x100000000), s, []) ∧
      run ⟨7, 1, none, none⟩ = (.error (.unsupportedKdfVersion 7), s, []) := by
  intro password salt s run
  have hlaw := costs_passed_exactly Generator.standard password salt
  have hstretched : (KdfConfig.argon2id 3 64 4).Asks .argon2id :=
    ⟨rfl, by decide, ⟨64, rfl, by decide⟩, 4, rfl, by decide⟩
  have hmuch : (KdfConfig.argon2id 1 0x400000 1).Asks .argon2id :=
    ⟨rfl, by decide, ⟨0x400000, rfl, by decide⟩, 1, rfl, by decide⟩
  refine ⟨?_, ?_, ?_, ?_⟩
  · exact (hlaw (.pbkdf2 600000)).pbkdf2 ⟨rfl, by decide⟩ s [] _ _ rfl
  · exact (hlaw (.argon2id 3 64 4)).argon2id hstretched 64 4 rfl rfl (by decide) s [] _ _ _ _ rfl rfl
  · exact (hlaw (.argon2id 1 0x400000 1)).unaffordable hmuch 0x400000 rfl (by decide) s []
  · exact (hlaw ⟨7, 1, none, none⟩).refused _ rfl s []

end PasswordVault
