import PasswordVault.KdfConfig
import PasswordVault.Proofs.Json.Composition
import PasswordVault.Proofs.Json.Fields

/-!
# Parameters — a record of key derivation, however it is written

A server writes the parameters of the key derivation as a record. Each parameter has two names; the members may
stand in any order, with others between them that mean nothing here; and a parameter that is not needed may be
null or left out. A wrong reading would derive another key from the right password.

* `KdfConfig.reader_eq_some_iff`: what a record must give for each parameter.
* `KdfConfig.reads_every_writing`: a record is read from every way to write it, and a text that repeats a
  parameter, lacks one that is needed, or gives something else than an integer in range is refused.
-/

namespace PasswordVault

open Json (Exact Field Spelled objectText parse? parse?_compact parse?_objectText)

namespace KdfConfig

/-! ## Parameters -/

/-- The parameters of a key derivation. -/
inductive Parameter where
  | kdfType
  | iterations
  | memoryMb
  | parallelism
deriving DecidableEq

namespace Parameter

def names : Parameter → List String
  | kdfType => ["kdfType", "kdf"]
  | iterations => ["iterations", "kdfIterations"]
  | memoryMb => ["memoryMb", "kdfMemory"]
  | parallelism => ["parallelism", "kdfParallelism"]

def place : Parameter → Nat
  | kdfType => 0
  | iterations => 1
  | memoryMb => 2
  | parallelism => 3

def least : Parameter → Int
  | kdfType => -0x80000000
  | _ => 0

def greatest : Parameter → Int
  | kdfType => 0x7fffffff
  | _ => 0xffffffff

/-- Whether a record must give a parameter. -/
def Needed (p : Parameter) : Prop := p = kdfType ∨ p = iterations

theorem names_disjoint {p q : Parameter} (hne : p ≠ q) {name : String} (hp : name ∈ p.names) :
    name ∉ q.names := by
  cases p <;> cases q <;> simp [names] at hp hne ⊢ <;> rcases hp with rfl | rfl <;> decide

end Parameter

def value (c : KdfConfig) : Parameter → Option Int
  | .kdfType => some c.kdfType
  | .iterations => some c.iterations
  | .memoryMb => c.memoryMb.map Int.ofNat
  | .parallelism => c.parallelism.map Int.ofNat

/-- Whether the values of a record are in the ranges of their parameters. -/
def Fits (c : KdfConfig) : Prop := ∀ p, ∀ n ∈ c.value p, p.least ≤ n ∧ n ≤ p.greatest

/-! ## What a value gives for a parameter -/

/-- The values that a record gives for a parameter: those of the members with one of its names, or the item in
its place. -/
def given (p : Parameter) (j : Json) : List Json := j.given p.names p.place

/-- Whether the values given for a parameter amount to an integer, or to none. -/
inductive Amounts : Option Int → List Json → Prop where
  | integer (n : Int) : Amounts (some n) [.int n]
  | null : Amounts none [.null]
  | leftOut : Amounts none []

theorem amounts_some_iff {n : Int} {values : List Json} : Amounts (some n) values ↔ values = [.int n] := by
  constructor
  · rintro ⟨⟩
    rfl
  · rintro rfl
    exact .integer n

theorem amounts_none_iff {values : List Json} : Amounts none values ↔ values = [] ∨ values = [.null] := by
  constructor
  · rintro (_ | _)
    · exact .inr rfl
    · exact .inl rfl
  · rintro (rfl | rfl)
    · exact .leftOut
    · exact .null

theorem Amounts.length_le {o : Option Int} {values : List Json} (h : Amounts o values) : values.length ≤ 1 := by
  cases h <;> simp

/-- What is wrong with a value as a record: a parameter given twice, a needed one not given, or something else
given for one than an integer in its range; null does for one that is not needed. -/
inductive Faulty (j : Json) : Prop where
  | repeated (p : Parameter) (h : 1 < (given p j).length)
  | lacking (p : Parameter) (hneeded : p.Needed) (h : given p j = [])
  | unfit (p : Parameter) (v : Json) (h : v ∈ given p j) (hnull : v = .null → p.Needed)
      (hrange : ∀ n, p.least ≤ n → n ≤ p.greatest → v ≠ .int n)

/-! ## Fields -/

/-- Whether a reader takes just the integers between two bounds. -/
def TakesIntegers {α : Type} (read : Json.Reader α) (toInt : α → Int) (least greatest : Int) : Prop :=
  ∀ depth v a, read depth v = some a ↔ v = .int (toInt a) ∧ least ≤ toInt a ∧ toInt a ≤ greatest

theorem takesIntegers_integer (least greatest : Int) :
    TakesIntegers (.integer least greatest) id least greatest :=
  fun _ _ _ => Json.Reader.integer_eq_some_iff

theorem takesIntegers_nat32 : TakesIntegers .nat32 Int.ofNat 0 0xffffffff := by
  intro depth v n
  rw [Json.Reader.nat32, Option.map_eq_some_iff]
  constructor
  · rintro ⟨m, hread, rfl⟩
    obtain ⟨rfl, hbounds⟩ := (takesIntegers_integer 0 0xffffffff depth v m).1 hread
    have hsame : Int.ofNat m.toNat = m := Int.toNat_of_nonneg hbounds.1
    rw [hsame]
    exact ⟨rfl, hbounds⟩
  · rintro ⟨rfl, hbounds⟩
    exact ⟨n, (takesIntegers_integer 0 0xffffffff depth _ n).2 ⟨rfl, hbounds⟩, rfl⟩

section Taking

variable {α : Type} {read : Json.Reader α} {toInt : α → Int} {least greatest : Int} {depth : Nat}
  {field : Field}

theorem TakesIntegers.required_iff (h : TakesIntegers read toInt least greatest) {a : α} :
    field.required read depth = some a ↔
      Amounts (some (toInt a)) field.values ∧ least ≤ toInt a ∧ toInt a ≤ greatest := by
  rw [Field.required_iff, amounts_some_iff]
  simp only [h depth]
  constructor
  · rintro ⟨_, hvalues, rfl, hbounds⟩
    exact ⟨hvalues, hbounds⟩
  · rintro ⟨hvalues, hbounds⟩
    exact ⟨_, hvalues, rfl, hbounds⟩

/-- A parameter that may be null amounts to none if it is. -/
theorem TakesIntegers.orNull_iff (h : TakesIntegers read toInt least greatest) {v : Json} {o : Option α} :
    Json.Reader.orNull read depth v = some o ↔
      Amounts (o.map toInt) [v] ∧ ∀ n ∈ o.map toInt, least ≤ n ∧ n ≤ greatest := by
  by_cases hnull : v = .null
  · subst hnull
    cases o with
    | none => exact iff_of_true rfl ⟨.null, by simp⟩
    | some a => simp [Json.Reader.orNull, amounts_some_iff, Json.int]
  · rw [Json.Reader.orNull_of_ne hnull]
    cases o with
    | none => simp [amounts_none_iff, hnull]
    | some a => simp [h depth, amounts_some_iff]

/-- A parameter that is not needed is read from what amounts to it: an integer in range, null or nothing. -/
theorem TakesIntegers.withDefault_iff (h : TakesIntegers read toInt least greatest) {o : Option α} :
    field.withDefault none (.orNull read) depth = some o ↔
      Amounts (o.map toInt) field.values ∧ ∀ n ∈ o.map toInt, least ≤ n ∧ n ≤ greatest := by
  rw [Field.withDefault_iff]
  simp only [h.orNull_iff]
  constructor
  · rintro (⟨hvalues, rfl⟩ | ⟨v, hvalues, hread⟩)
    · rw [hvalues]
      exact ⟨.leftOut, by simp⟩
    · rw [hvalues]
      exact hread
  · intro hread
    -- With nothing in it the field is left out; it never holds more than one value.
    cases hvalues : field.values with
    | nil =>
        rw [hvalues] at hread
        cases o with
        | none => exact .inl ⟨rfl, rfl⟩
        | some a => cases hread.1
    | cons v more =>
        rw [hvalues] at hread
        have hmore : more = [] := List.eq_nil_of_length_eq_zero (by simpa using hread.1.length_le)
        rw [hmore] at hread ⊢
        exact .inr ⟨v, rfl, hread⟩

end Taking

/-! ## Records -/

def fieldRow (field : Parameter → Field) : List Field :=
  [field .kdfType, field .iterations, field .memoryMb, field .parallelism]

/-- A record has one field for each parameter, with what is given for it. -/
theorem exists_fieldRow {j : Json} {found : List Field} (h : Json.Reader.fields fieldNames j = some found) :
    j.IsRecord 4 ∧ ∃ field, found = fieldRow field ∧ ∀ p, (field p).values = given p j := by
  obtain ⟨hrecord, hvalues⟩ := Json.Reader.values_of_fields h
  refine ⟨hrecord, ?_⟩
  obtain ⟨kdfType, iterations, memoryMb, parallelism, rfl⟩ : ∃ a b c d, found = [a, b, c, d] := by
    have hlength := congrArg List.length hvalues
    rw [List.length_map, List.length_mapIdx] at hlength
    exact List.length_eq_four.1 hlength
  simp only [fieldNames, List.map_cons, List.map_nil, List.mapIdx_cons, List.mapIdx_nil, List.cons.injEq] at hvalues
  obtain ⟨htype, hiterations, hmemory, hparallelism, -⟩ := hvalues
  refine ⟨fun
    | .kdfType => kdfType
    | .iterations => iterations
    | .memoryMb => memoryMb
    | .parallelism => parallelism, rfl, ?_⟩
  intro p
  cases p with
  | kdfType => exact htype
  | iterations => exact hiterations
  | memoryMb => exact hmemory
  | parallelism => exact hparallelism

/-- A record that gives no parameter twice has its fields. -/
theorem exists_fields {j : Json} (hrecord : j.IsRecord 4) (hgiven : ∀ p, (given p j).length ≤ 1) :
    ∃ found, Json.Reader.fields fieldNames j = some found := by
  refine Json.Reader.exists_fields hrecord ?_
  simp only [fieldNames, List.mapIdx_cons, List.mapIdx_nil, List.forall_mem_cons]
  exact ⟨hgiven .kdfType, hgiven .iterations, hgiven .memoryMb, hgiven .parallelism, nofun⟩

/-- The four fields are read as what they amount to, each in the range of its parameter. -/
theorem fields_read_iff {field : Parameter → Field} {depth : Nat} {c : KdfConfig} :
    ((field .kdfType).required .int32 depth = some c.kdfType ∧
      (field .iterations).required .nat32 depth = some c.iterations ∧
      (field .memoryMb).withDefault none (.orNull .nat32) depth = some c.memoryMb ∧
      (field .parallelism).withDefault none (.orNull .nat32) depth = some c.parallelism) ↔
      c.Fits ∧ ∀ p, Amounts (c.value p) (field p).values := by
  rw [Json.Reader.int32, (takesIntegers_integer _ _).required_iff, takesIntegers_nat32.required_iff,
    takesIntegers_nat32.withDefault_iff, takesIntegers_nat32.withDefault_iff]
  constructor
  · rintro ⟨htype, hiterations, hmemory, hparallelism⟩
    refine ⟨?_, ?_⟩
    · -- A parameter that must be given has a value, so its range is one of the things the reader checks.
      intro p n hn
      cases p with
      | kdfType =>
          cases hn
          exact htype.2
      | iterations =>
          cases hn
          exact hiterations.2
      | memoryMb => exact hmemory.2 n hn
      | parallelism => exact hparallelism.2 n hn
    · intro p
      cases p with
      | kdfType => exact htype.1
      | iterations => exact hiterations.1
      | memoryMb => exact hmemory.1
      | parallelism => exact hparallelism.1
  · rintro ⟨hfits, hvalues⟩
    exact ⟨⟨hvalues .kdfType, hfits .kdfType _ rfl⟩, ⟨hvalues .iterations, hfits .iterations _ rfl⟩,
      ⟨hvalues .memoryMb, hfits .memoryMb⟩, hvalues .parallelism, hfits .parallelism⟩

/-- A value whose fields are found is read from what they amount to. -/
theorem reader_eq_some_iff_of_fieldRow {field : Parameter → Field} {depth : Nat} (hdepth : 1 < depth) {j : Json}
    {c : KdfConfig} (h : Json.Reader.fields fieldNames j = some (fieldRow field)) :
    reader depth j = some c ↔ c.Fits ∧ ∀ p, Amounts (c.value p) (field p).values := by
  rw [reader, Json.Reader.record_eq_some_iff h, and_iff_right hdepth, ← fields_read_iff]
  simp only [fieldRow, Option.bind_eq_bind, Option.pure_def, Option.bind_eq_some_iff, Option.some.injEq]
  constructor
  · rintro ⟨kdfType, htype, iterations, hiterations, memoryMb, hmemory, parallelism, hparallelism, rfl⟩
    exact ⟨htype, hiterations, hmemory, hparallelism⟩
  · rintro ⟨htype, hiterations, hmemory, hparallelism⟩
    exact ⟨_, htype, _, hiterations, _, hmemory, _, hparallelism, rfl⟩

/-- A record is read exactly if what is given for each parameter amounts to its value, in the range of the
parameter. -/
theorem reader_eq_some_iff {depth : Nat} (hdepth : 1 < depth) {j : Json} {c : KdfConfig} :
    reader depth j = some c ↔ j.IsRecord 4 ∧ c.Fits ∧ ∀ p, Amounts (c.value p) (given p j) := by
  constructor
  · intro hread
    obtain ⟨-, found, hfound, -⟩ := Json.Reader.record_eq_some_iff_exists.1 hread
    obtain ⟨hrecord, field, rfl, hfield⟩ := exists_fieldRow hfound
    obtain ⟨hfits, hvalues⟩ := (reader_eq_some_iff_of_fieldRow hdepth hfound).1 hread
    exact ⟨hrecord, hfits, fun p => hfield p ▸ hvalues p⟩
  · -- No parameter is given twice, so the fields are found.
    rintro ⟨hrecord, hfits, hgiven⟩
    obtain ⟨found, hfound⟩ := exists_fields hrecord fun p => (hgiven p).length_le
    obtain ⟨-, field, rfl, hfield⟩ := exists_fieldRow hfound
    exact (reader_eq_some_iff_of_fieldRow hdepth hfound).2 ⟨hfits, fun p => hfield p ▸ hgiven p⟩

theorem run?_eq_some_iff {text : String} {j : Json} (htext : parse? text = some j) {c : KdfConfig} :
    reader.run? text = some c ↔ j.IsRecord 4 ∧ c.Fits ∧ ∀ p, Amounts (c.value p) (given p j) := by
  rw [Json.Reader.run?, htext]
  exact reader_eq_some_iff (show 1 < Json.nestingLimit by decide)

/-! ## Ways to write a record -/

/-- Whether the members of an object are a way to write a record: for each parameter those that amount to its
value, under either name, in any order and between any other members. -/
def WrittenAs (c : KdfConfig) (members : List (String × Json)) : Prop :=
  ∃ (own : Parameter → List (String × Json)) (other : List (String × Json)),
    (∀ p, (∀ m ∈ own p, m.1 ∈ p.names) ∧ Amounts (c.value p) ((own p).map (·.2))) ∧
    (∀ m ∈ other, ∀ p : Parameter, m.1 ∉ p.names) ∧
    members.Perm (own .kdfType ++ own .iterations ++ own .memoryMb ++ own .parallelism ++ other)

/-- No member counts for two parameters. -/
theorem filter_names {own : Parameter → List (String × Json)} (hown : ∀ p, ∀ m ∈ own p, m.1 ∈ p.names)
    (p q : Parameter) : (own q).filter (fun m => m.1 ∈ p.names) = if q = p then own p else [] := by
  split
  · next h =>
    rw [h, List.filter_eq_self]
    intro m hm
    exact decide_eq_true (hown p m hm)
  · next h =>
    rw [List.filter_eq_nil_iff]
    intro m hm
    simpa using Parameter.names_disjoint h (hown q m hm)

/-- What is written for a parameter is what is given for it. -/
theorem WrittenAs.amounts {c : KdfConfig} {members : List (String × Json)} (h : c.WrittenAs members)
    (p : Parameter) : Amounts (c.value p) (given p (.object members)) := by
  obtain ⟨own, other, hown, hother, hperm⟩ := h
  have hothers : other.filter (fun m => m.1 ∈ p.names) = [] := by
    rw [List.filter_eq_nil_iff]
    intro m hm
    simpa using hother m hm p
  have hfilter := filter_names (fun q => (hown q).1) p
  have hfound : (members.filter fun m => m.1 ∈ p.names).Perm (own p) := by
    refine (hperm.filter _).trans (List.Perm.of_eq ?_)
    simp only [List.filter_append, hfilter, hothers, List.append_nil]
    cases p <;> simp
  -- There is at most one, so the order is no matter.
  have hsame : (members.filter fun m => m.1 ∈ p.names).map (·.2) = (own p).map (·.2) := by
    have hvalues := hfound.map (·.2)
    have hlength := (hown p).2.length_le
    cases hvalue : (own p).map (·.2) with
    | nil =>
        rw [hvalue] at hvalues
        exact hvalues.eq_nil
    | cons v rest =>
        rw [hvalue, List.length_cons] at hlength
        have hrest : rest = [] := List.length_eq_zero_iff.1 (by omega)
        rw [hvalue, hrest] at hvalues
        rw [hrest]
        exact hvalues.eq_singleton
  rw [given, Json.given, hsame]
  exact (hown p).2

theorem WrittenAs.run?_eq {c : KdfConfig} (hfits : c.Fits) {members : List (String × Json)}
    (h : c.WrittenAs members) {text : String} (htext : parse? text = some (.object members)) :
    reader.run? text = some c :=
  (run?_eq_some_iff htext).2 ⟨trivial, hfits, h.amounts⟩

/-! ## The written form -/

theorem amounts_optNat (o : Option Nat) : Amounts (o.map Int.ofNat) [optNat o] := by
  cases o with
  | none => exact .null
  | some n => exact .integer n

/-- A record as JSON is one of the ways to write it. -/
theorem writtenAs_toJson (c : KdfConfig) :
    ∃ members, c.toJson = .object members ∧ c.WrittenAs members := by
  refine ⟨_, rfl, fun
    | .kdfType => [("kdfType", .int c.kdfType)]
    | .iterations => [("iterations", .nat c.iterations)]
    | .memoryMb => [("memoryMb", optNat c.memoryMb)]
    | .parallelism => [("parallelism", optNat c.parallelism)], [], ?_, nofun, .refl _⟩
  intro p
  cases p with
  | kdfType => exact ⟨by simp [Parameter.names], .integer c.kdfType⟩
  | iterations => exact ⟨by simp [Parameter.names], .integer c.iterations⟩
  | memoryMb => exact ⟨by simp [Parameter.names], amounts_optNat c.memoryMb⟩
  | parallelism => exact ⟨by simp [Parameter.names], amounts_optNat c.parallelism⟩

theorem Fits.exact_optNat {c : KdfConfig} (hfits : c.Fits) {p : Parameter} {o : Option Nat}
    (ho : c.value p = o.map Int.ofNat) (hgreatest : p.greatest ≤ 0xffffffff) : Exact (optNat o) := by
  cases o with
  | none => exact .null
  | some n =>
      have hn := (hfits p n (by rw [ho]; rfl)).2
      exact .int (by omega) (by omega)

theorem Fits.exact_toJson {c : KdfConfig} (hfits : c.Fits) : Exact c.toJson := by
  obtain ⟨hleast, hgreatest⟩ := hfits .kdfType c.kdfType rfl
  have hiterations := (hfits .iterations c.iterations rfl).2
  have hmemory : Exact (optNat c.memoryMb) := hfits.exact_optNat (p := .memoryMb) rfl (by decide)
  have hparallelism : Exact (optNat c.parallelism) := hfits.exact_optNat (p := .parallelism) rfl (by decide)
  simp only [Parameter.least, Parameter.greatest] at hleast hgreatest hiterations
  refine .object ?_
  simp only [List.forall_mem_cons]
  exact ⟨.int (by omega) (by omega), .int (by omega) (by omega), hmemory, hparallelism, nofun⟩

theorem Fits.run?_compact {c : KdfConfig} (hfits : c.Fits) : reader.run? c.toJson.compact = some c := by
  obtain ⟨members, hmembers, hwritten⟩ := c.writtenAs_toJson
  have htext := parse?_compact hfits.exact_toJson
  rw [hmembers] at htext ⊢
  exact hwritten.run?_eq hfits htext

/-! ## Refusal -/

/-- Values that amount to a record have none of the faults. -/
theorem Fits.not_faulty {c : KdfConfig} (hfits : c.Fits) {j : Json}
    (hgiven : ∀ p, Amounts (c.value p) (given p j)) : ¬ Faulty j := by
  -- A needed parameter has a value, and every value amounts to one integer in range.
  have hneeded : ∀ p : Parameter, p.Needed → c.value p ≠ none := by
    rintro _ (rfl | rfl) <;> nofun
  intro hfaulty
  cases hfaulty with
  | repeated p h => exact absurd (hgiven p).length_le (by omega)
  | lacking p hneeds h =>
      have hp := hgiven p
      rw [h] at hp
      cases hvalue : c.value p with
      | none => exact hneeded p hneeds hvalue
      | some n =>
          rw [hvalue] at hp
          cases hp
  | unfit p v h hnull hrange =>
      have hp := hgiven p
      generalize hvalues : given p j = values at h hp
      cases hvalue : c.value p with
      | none =>
          rw [hvalue] at hp
          cases hp with
          | null => exact hneeded p (hnull (List.mem_singleton.1 h)) hvalue
          | leftOut => cases h
      | some n =>
          rw [hvalue] at hp
          cases hp
          have hn := hfits p n hvalue
          exact hrange n hn.1 hn.2 (List.mem_singleton.1 h)

theorem Faulty.run?_eq_none {j : Json} (h : Faulty j) {text : String} (htext : parse? text = some j) :
    reader.run? text = none := by
  cases hrun : reader.run? text with
  | none => rfl
  | some c =>
      obtain ⟨-, hfits, hgiven⟩ := (run?_eq_some_iff htext).1 hrun
      exact absurd h (hfits.not_faulty hgiven)

/-- A record is read from its own text, from every text with the members of a way to write it, and so from
every object put together of such members, whatever texts their values have. A text with a fault is refused. -/
theorem reads_every_writing :
    (∀ c : KdfConfig, c.Fits →
      reader.run? c.toJson.compact = some c ∧
      (∀ text members, parse? text = some (.object members) → c.WrittenAs members →
        reader.run? text = some c) ∧
      ∀ written members, Spelled written members → c.WrittenAs members →
        reader.run? (objectText written) = some c) ∧
    ∀ text j, parse? text = some j → Faulty j → reader.run? text = none := by
  refine ⟨fun c hfits => ⟨hfits.run?_compact, ?_, ?_⟩, ?_⟩
  · intro text members htext hwritten
    exact hwritten.run?_eq hfits htext
  · intro written members hspelled hwritten
    exact hwritten.run?_eq hfits (parse?_objectText hspelled)
  · intro text j htext hfaulty
    exact hfaulty.run?_eq_none htext

/-- Argon2id under the short names, in another order and with a hint between, is read; with two functions it is
refused. -/
theorem reads_argon2id_by_short_names :
    reader.run? (objectText [("kdfMemory", " 64"), ("hint", "[null, [3]]"), ("kdfParallelism", "4"),
      ("kdf", "1"), ("kdfIterations", "3\n")]) = some (argon2id 3 64 4) ∧
    reader.run? (objectText [("kdf", "1"), ("iterations", "3"), ("kdfType", "1")]) = none := by
  constructor
  · refine (reads_every_writing.1 (argon2id 3 64 4) ?_).2.2 _
      [("kdfMemory", .int 64), ("hint", .array [.null, .array [.int 3]]), ("kdfParallelism", .int 4),
        ("kdf", .int 1), ("kdfIterations", .int 3)] ?_ ?_
    · intro p n hn
      cases p <;> (cases hn; decide)
    · refine .cons ?_ (.cons ?_ (.cons ?_ (.cons ?_ (.cons ?_ .nil)))) <;>
        exact ⟨rfl, by decide +kernel⟩
    · refine ⟨fun
        | .kdfType => [("kdf", .int 1)]
        | .iterations => [("kdfIterations", .int 3)]
        | .memoryMb => [("kdfMemory", .int 64)]
        | .parallelism => [("kdfParallelism", .int 4)], [("hint", .array [.null, .array [.int 3]])], ?_, ?_, ?_⟩
      · intro p
        cases p <;> exact ⟨by decide, .integer _⟩
      · intro m hm p
        rw [List.mem_singleton.1 hm]
        cases p <;> decide
      · decide +kernel
  · refine reads_every_writing.2 _ (.object [("kdf", .int 1), ("iterations", .int 3), ("kdfType", .int 1)]) ?_ ?_
    · exact parse?_objectText (.cons ⟨rfl, by decide +kernel⟩ (.cons ⟨rfl, by decide +kernel⟩
        (.cons ⟨rfl, by decide +kernel⟩ .nil)))
    · exact .repeated .kdfType (by decide)

end KdfConfig
end PasswordVault
