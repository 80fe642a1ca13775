import Mathlib.Data.List.Nodup
import PasswordVault.Cipher.Parts
import PasswordVault.Proofs.Json.Words
import PasswordVault.Proofs.Outcome

/-!
# Records — readers of what writers write

A record is written as an object with all its fields; its reader finds the record in it, unless the text
nests more deeply than the reader is allowed to go.

* `Json.nesting`: the number of levels of a value.
* `Json.Reader.Finds`: a value is exact, and a reader takes it for one thing, exactly if it has few enough
  levels. There is one law for every kind of reader; `finds_record` puts them together.
-/

namespace PasswordVault
namespace Json

/-! ## Levels -/

mutual

/-- The number of levels of arrays and objects in a value. -/
def nesting : Json → Nat
  | .array items => itemsNesting items + 1
  | .object members => membersNesting members + 1
  | .null => 0
  | .bool _ => 0
  | .number _ => 0
  | .string _ => 0
  | .unreadable => 0

def itemsNesting : List Json → Nat
  | [] => 0
  | x :: rest => max (nesting x) (itemsNesting rest)

def memberNesting : String × Json → Nat
  | (_, value) => nesting value

def membersNesting : List (String × Json) → Nat
  | [] => 0
  | m :: rest => max (memberNesting m) (membersNesting rest)

end

/-- An array adds one level to its items. -/
theorem nesting_array_lt {items : List Json} {depth : Nat} :
    (Json.array items).nesting < depth ↔ 1 < depth ∧ ∀ x ∈ items, x.nesting < depth - 1 := by
  have hitems : itemsNesting items < depth - 1 ↔ 1 < depth ∧ ∀ x ∈ items, x.nesting < depth - 1 := by
    induction items with
    | nil =>
        rw [itemsNesting, and_iff_left fun _ => nofun]
        omega
    | cons x rest ih =>
        rw [itemsNesting, Nat.max_lt, ih, List.forall_mem_cons]
        tauto
  rw [nesting, ← hitems]
  omega

/-- An object adds one level to the values of its members. -/
theorem nesting_object_lt {members : List (String × Json)} {depth : Nat} :
    (Json.object members).nesting < depth ↔ 1 < depth ∧ ∀ m ∈ members, m.2.nesting < depth - 1 := by
  have hmembers : membersNesting members < depth - 1 ↔
      1 < depth ∧ ∀ m ∈ members, m.2.nesting < depth - 1 := by
    induction members with
    | nil =>
        rw [membersNesting, and_iff_left fun _ => nofun]
        omega
    | cons m rest ih =>
        rw [membersNesting, Nat.max_lt, ih, List.forall_mem_cons, memberNesting]
        tauto
  rw [nesting, ← hmembers]
  omega

namespace Reader

/-- Whether a value is exact and a reader takes it for one thing, exactly if it has fewer levels than the
reader may go. -/
structure Finds {α : Type} (read : Reader α) (j : Json) (a : α) : Prop where
  exact : j.Exact
  reads : ∀ depth, 0 < depth → ∀ b, read depth j = some b ↔ j.nesting < depth ∧ a = b

variable {α : Type} {read : Reader α} {j : Json} {a : α}

/-! ## Plain values -/

theorem finds_text (s : String) : Finds text (.string s) s := by
  refine ⟨.string s, ?_⟩
  intro depth hdepth b
  simp [text, nesting, hdepth]

theorem finds_bool (b : Bool) : Finds bool (.bool b) b := by
  refine ⟨.bool b, ?_⟩
  intro depth hdepth b
  simp [bool, nesting, hdepth]

/-- An integer of up to 64 bits is found between the bounds of its reader. -/
theorem finds_integer {least greatest n : Int} (hleast : least ≤ n) (hgreatest : n ≤ greatest)
    (hlow : -0x8000000000000000 ≤ least) (hhigh : greatest ≤ 0xffffffffffffffff) :
    Finds (integer least greatest) (.int n) n := by
  refine ⟨.int (Int.le_trans hlow hleast) (Int.le_trans hgreatest hhigh), ?_⟩
  intro depth hdepth b
  simp [integer, Json.int, nesting, hdepth, hleast, hgreatest]

/-- A word is found if it is listed before all other words for other values. -/
theorem finds_wordOf [DecidableEq α] {words : List (String × α)} {word : String}
    (hword : words.find? (fun w => w.2 = a) = some (word, a)) (hvalue : words.lookup word = some a) :
    Finds (choice words) (wordOf words a) a := by
  have hform : wordOf words a = .string word := by
    rw [wordOf, hword]
  rw [hform]
  refine ⟨.string word, ?_⟩
  intro depth hdepth b
  simp [choice, hvalue, nesting, hdepth]

theorem finds_null (read : Reader α) : Finds (orNull read) .null none := by
  refine ⟨.null, ?_⟩
  intro depth hdepth b
  simp [orNull, nesting, hdepth]

theorem orNull_of_ne (hne : j ≠ .null) (read : Reader α) (depth : Nat) :
    orNull read depth j = (read depth j).map some := by
  cases j with
  | null => exact absurd rfl hne
  | _ => rfl

/-- A value that may be null is found like one that may not, unless it is written as null. -/
theorem finds_some (h : Finds read j a) (hne : j ≠ .null) : Finds (orNull read) j (some a) := by
  refine ⟨h.exact, ?_⟩
  intro depth hdepth b
  rw [orNull_of_ne hne, Option.map_eq_some_iff]
  constructor
  · rintro ⟨a', ha', rfl⟩
    obtain ⟨hlevels, rfl⟩ := (h.reads depth hdepth a').1 ha'
    exact ⟨hlevels, rfl⟩
  · rintro ⟨hlevels, rfl⟩
    exact ⟨a, (h.reads depth hdepth a).2 ⟨hlevels, rfl⟩, rfl⟩

theorem finds_optString (s : Option String) : Finds (orNull text) (optString s) s := by
  cases s with
  | none => exact finds_null text
  | some s => exact finds_some (finds_text s) nofun

/-- A row of values is read as what they were written for, exactly if none has too many levels. -/
theorem mapM_eq_some_iff {write : α → Json} {xs bs : List α} {depth : Nat} (hdepth : 0 < depth)
    (h : ∀ x ∈ xs, Finds read (write x) x) :
    (xs.map write).mapM (read depth) = some bs ↔ (∀ y ∈ xs.map write, y.nesting < depth) ∧ xs = bs := by
  induction xs generalizing bs with
  | nil => simp
  | cons x rest ih =>
      have hx := (h x List.mem_cons_self).reads depth hdepth
      have hrest : ∀ bs, _ := fun bs => @ih bs fun y hy => h y (List.mem_cons_of_mem x hy)
      rw [List.map_cons, List.mapM_cons, List.forall_mem_cons]
      constructor
      · intro hread
        obtain ⟨b, hb, bs', hbs', hcons⟩ : ∃ b, read depth (write x) = some b ∧
            ∃ bs', (rest.map write).mapM (read depth) = some bs' ∧ b :: bs' = bs := by
          simpa [Option.bind_eq_some_iff] using hread
        obtain ⟨hlevels, rfl⟩ := (hx b).1 hb
        obtain ⟨hmore, rfl⟩ := (hrest bs').1 hbs'
        exact ⟨⟨hlevels, hmore⟩, hcons⟩
      · rintro ⟨⟨hlevels, hmore⟩, rfl⟩
        rw [(hx x).2 ⟨hlevels, rfl⟩, (hrest rest).2 ⟨hmore, rfl⟩]
        rfl

/-- A list is found in the array of what is written for its items. -/
theorem finds_list {write : α → Json} {xs : List α} (h : ∀ x ∈ xs, Finds read (write x) x) :
    Finds (list read) (.array (xs.map write)) xs := by
  refine ⟨.array ?_, ?_⟩
  · intro y hy
    obtain ⟨x, hx, rfl⟩ := List.mem_map.1 hy
    exact (h x hx).exact
  · intro depth hdepth bs
    rw [list, nesting_array_lt]
    by_cases hone : depth ≤ 1
    · rw [if_pos hone]
      exact iff_of_false nofun fun hlevels => absurd hlevels.1.1 (by omega)
    · rw [if_neg hone, mapM_eq_some_iff (by omega) h]
      simp only [show 1 < depth by omega, true_and]

/-! ## Records -/

/-- A step that reads one thing only, from values of few enough levels. -/
theorem bind_eq_some_iff_of_reads {β : Type} {read : Option α} {few : Prop}
    (h : ∀ a', read = some a' ↔ few ∧ a = a') {next : α → Option β} {b : β} :
    read.bind next = some b ↔ few ∧ next a = some b := by
  rw [Option.bind_eq_some_iff]
  constructor
  · rintro ⟨a', ha', hb⟩
    obtain ⟨hfew, rfl⟩ := (h a').1 ha'
    exact ⟨hfew, hb⟩
  · rintro ⟨hfew, hb⟩
    exact ⟨a, (h a).2 ⟨hfew, rfl⟩, hb⟩

theorem Finds.required_bind (h : Finds read j a) {depth : Nat} (hdepth : 0 < depth) {β : Type}
    {next : α → Option β} {b : β} :
    ((Field.given j).required read depth).bind next = some b ↔ j.nesting < depth ∧ next a = some b :=
  bind_eq_some_iff_of_reads (h.reads depth hdepth)

theorem Finds.withDefault_bind (h : Finds read j a) {depth : Nat} (hdepth : 0 < depth) (value : α)
    {β : Type} {next : α → Option β} {b : β} :
    ((Field.given j).withDefault value read depth).bind next = some b ↔
      j.nesting < depth ∧ next a = some b :=
  bind_eq_some_iff_of_reads (h.reads depth hdepth)

theorem Finds.optional_bind {o : Option α} (h : Finds (orNull read) j o) {depth : Nat}
    (hdepth : 0 < depth) {β : Type} {next : Option α → Option β} {b : β} :
    ((Field.given j).optional read depth).bind next = some b ↔ j.nesting < depth ∧ next o = some b :=
  bind_eq_some_iff_of_reads (h.reads depth hdepth)

/-- A field that an object gives once. -/
theorem lookUp_of_mem {members : List (String × Json)} (hkeys : (members.map Prod.fst).Nodup)
    {name : String} {value : Json} (hmem : (name, value) ∈ members) :
    lookUp [name] members = some (.given value) := by
  have hfilter : (members.filter fun m => m.1 ∈ [name]) = [(name, value)] := by
    induction members with
    | nil => cases hmem
    | cons m rest ih =>
        rw [List.map_cons, List.nodup_cons] at hkeys
        rcases List.mem_cons.1 hmem with rfl | hrest
        · have hother : (rest.filter fun m => m.1 ∈ [name]) = [] := by
            rw [List.filter_eq_nil_iff]
            intro m hm heq
            have hname : m.1 = name := by simpa using heq
            exact hkeys.1 (List.mem_map.2 ⟨m, hm, hname⟩)
          rw [List.filter_cons_of_pos (by simp), hother]
        · have hne : m.1 ∉ [name] := by
            intro heq
            have hname : m.1 = name := by simpa using heq
            exact hkeys.1 (List.mem_map.2 ⟨_, hrest, hname.symm⟩)
          rw [List.filter_cons_of_neg (by simpa using hne), ih hkeys.2 hrest]
  rw [lookUp, hfilter]

/-- The fields of an object that gives each of them once, in order. -/
theorem fields_zip {names : List String} {values : List Json} (hnames : names.Nodup)
    (hlength : names.length = values.length) :
    fields (names.map fun name => [name]) (.object (names.zip values)) = some (values.map .given) := by
  have hkeys : ((names.zip values).map Prod.fst).Nodup := by
    rwa [List.map_fst_zip (Nat.le_of_eq hlength)]
  rw [fields, mapM_eq_some_iff_forall₂, List.forall₂_map_left_iff, List.forall₂_map_right_iff,
    List.forall₂_iff_zip]
  exact ⟨hlength, fun hmem => lookUp_of_mem hkeys hmem⟩

theorem nesting_zip_lt {names : List String} {values : List Json} (hlength : names.length = values.length)
    {depth : Nat} : (Json.object (names.zip values)).nesting < depth ↔
      1 < depth ∧ ∀ v ∈ values, v.nesting < depth - 1 := by
  have hvalues : (names.zip values).map Prod.snd = values := List.map_snd_zip (Nat.le_of_eq hlength.symm)
  rw [nesting_object_lt]
  nth_rewrite 2 [← hvalues]
  rw [List.forall_mem_map]

theorem exact_zip {names : List String} {values : List Json} (h : ∀ v ∈ values, v.Exact) :
    (Json.object (names.zip values)).Exact := by
  refine .object ?_
  intro m hm
  exact h m.2 (List.of_mem_zip hm).2

/-- A record is read from a value that has its fields, from what is in them. -/
theorem record_eq_some_iff_exists {names : List (List String)} {build : Nat → List Field → Option α}
    {depth : Nat} {b : α} : record names build depth j = some b ↔
      1 < depth ∧ ∃ found, fields names j = some found ∧ build (depth - 1) found = some b := by
  rw [record]
  by_cases hone : depth ≤ 1
  · rw [if_pos hone]
    exact iff_of_false (by simp) fun h => absurd h.1 (by omega)
  · rw [if_neg hone, Option.bind_eq_bind, Option.bind_eq_some_iff]
    exact (and_iff_right (by omega)).symm

theorem record_eq_some_iff {names : List (List String)} {found : List Field}
    (hfound : fields names j = some found) {build : Nat → List Field → Option α} {depth : Nat} {b : α} :
    record names build depth j = some b ↔ 1 < depth ∧ build (depth - 1) found = some b := by
  simp only [record_eq_some_iff_exists, hfound, Option.some.injEq, exists_eq_left']

/-- A record is found if its builder finds it in the values of its fields. -/
theorem finds_record (names : List String) (values : List Json) (hnames : names.Nodup)
    (hlength : names.length = values.length) {build : Nat → List Field → Option α}
    (hexact : ∀ v ∈ values, v.Exact)
    (hbuild : ∀ depth, 0 < depth → ∀ b, build depth (values.map .given) = some b ↔
      (∀ v ∈ values, v.nesting < depth) ∧ a = b) :
    Finds (record (names.map fun name => [name]) build) (.object (names.zip values)) a := by
  refine ⟨exact_zip hexact, ?_⟩
  intro depth _ b
  rw [record_eq_some_iff (fields_zip hnames hlength), nesting_zip_lt hlength, and_assoc]
  exact and_congr_right fun hone => hbuild (depth - 1) (by omega) b

/-- A record of texts that may be absent. -/
theorem finds_texts {names : List String} {values : List (Option String)} (hnames : names.Nodup)
    (hlength : names.length = values.length) {build : List (Option String) → Option α}
    (hbuild : build values = some a) : Finds (texts names build) (ofTexts names values) a := by
  have hfields : ∀ depth, 0 < depth → ∀ found : List (Option String),
      ((values.map optString).map Field.given).mapM (fun field => field.optional text depth) = some found ↔
        (∀ v ∈ values.map optString, v.nesting < depth) ∧ values = found := by
    intro depth hdepth found
    rw [List.mapM_map]
    exact @mapM_eq_some_iff _ (orNull text) optString values found depth hdepth
      fun v _ => finds_optString v
  have hexact : ∀ v ∈ values.map optString, v.Exact := by
    intro v hv
    obtain ⟨s, -, rfl⟩ := List.mem_map.1 hv
    exact (finds_optString s).exact
  refine finds_record _ _ hnames (by rw [List.length_map, hlength]) hexact ?_
  intro depth hdepth b
  rw [Option.bind_eq_bind, bind_eq_some_iff_of_reads (hfields depth hdepth), hbuild, Option.some.injEq]

end Reader
end Json
end PasswordVault
