import Mathlib.Data.List.TakeWhile
import PasswordVault.Proofs.Json.Indentation
import PasswordVault.Proofs.Json.Members
import PasswordVault.Proofs.Outcome
import PasswordVault.Store.Settings

/-!
# Settings — a value that is set is read back

Settings are a map from names to texts, in memory and in a file alike. In a file every change reads all
settings and writes them again, so the text that is written has to spell the settings that it was made of.

* `SettingsAccess.Lawful`: a setting that is put is read back, and all others stay as they are.
* `SettingsFile.read_write`: a file that was written holds the settings that were written into it.
* `Settings.lawful_access`, `SettingsFile.lawful_access`: both kinds of settings are lawful, those in a file
  as long as it can be read.
-/

namespace PasswordVault

/-- Whether settings of some kind are a map, where they are readable: every name can be looked up, and
putting a value always works, leaves the settings readable and changes nothing but that value. -/
structure SettingsAccess.Lawful {σ : Type} (access : SettingsAccess σ) (readable : σ → Prop) : Prop where
  exists_get : ∀ {s}, readable s → ∀ name, ∃ value, access.get s name = .ok value
  exists_put : ∀ {s}, readable s → ∀ name value, ∃ s', access.put s name value = .ok s' ∧ readable s' ∧
    ∀ other, access.get s' other = if other = name then .ok value else access.get s other

namespace Settings

open Json (Sorted insertMember sortMembers)

theorem get?_put (s : Settings) (name other : String) (value : Option String) :
    (s.put name value).get? other = if other = name then value else s.get? other := by
  cases value with
  | some text => exact Json.lookup_insertMember name other text s
  | none => exact lookup_without name other s

theorem sorted_put {s : Settings} (h : Sorted s) (name : String) (value : Option String) :
    Sorted (s.put name value) := by
  cases value with
  | some text => exact Json.sorted_insertMember h name text
  | none => exact List.Pairwise.filter _ h

/-- Settings in memory can always be read and changed. -/
theorem lawful_access : access.Lawful fun _ => True where
  exists_get := fun {s} _ name => ⟨s.get? name, rfl⟩
  exists_put := by
    intro s _ name value
    refine ⟨s.put name value, rfl, trivial, ?_⟩
    intro other
    simp only [access, get?_put]
    split <;> rfl

/-! ## Texts -/

theorem exact_toJson (s : Settings) : s.toJson.Exact := by
  refine .object ?_
  intro m hm
  obtain ⟨setting, -, rfl⟩ := List.mem_map.1 hm
  exact .string setting.2

theorem ofJson?_toJson (s : Settings) : ofJson? s.toJson = some (sortMembers s) := by
  refine Option.bind_eq_some_iff.2 ⟨s, ?_, rfl⟩
  rw [List.mapM_map]
  exact (List.mapM_pure (m := Option) (f := id)).trans (congrArg some (List.map_id s))

/-- A text that starts with something else than a blank is not blank. -/
theorem trim_ne_empty {c : Char} (hc : Text.isBlank c = false) (cs : List Char) :
    Text.trim (String.ofList (c :: cs)) ≠ "" := by
  intro htrim
  have hchars := congrArg String.toList htrim
  rw [Text.trim, Text.trimChars, String.toList_ofList, String.toList_ofList,
    List.dropWhile_cons_of_neg (by simp [hc]), List.reverse_cons, String.toList_empty,
    List.reverse_eq_nil_iff, List.dropWhile_eq_nil_iff] at hchars
  have hblank := hchars c (by simp)
  rw [hc] at hblank
  cases hblank

theorem parse_toText {s : Settings} (h : Sorted s) : parse s.toText = .ok s := by
  have hstart : ∃ cs, s.toText = String.ofList ('\x7b' :: cs) := by
    cases s with
    | nil => exact ⟨_, rfl⟩
    | cons m rest => exact ⟨_, rfl⟩
  obtain ⟨cs, hcs⟩ := hstart
  have hne : Text.trim s.toText ≠ "" := hcs ▸ trim_ne_empty (by decide) cs
  rw [parse, if_neg hne, toText, Json.parse?_indented s.exact_toJson, Option.bind_some, ofJson?_toJson,
    Json.sortMembers_of_sorted h]

/-- The settings in a text are sorted, whatever the order in the text. -/
theorem sorted_of_parse {text : String} {s : Settings} (h : parse text = .ok s) : Sorted s := by
  unfold parse at h
  split at h
  · cases h
    exact List.Pairwise.nil
  · split at h
    next found hfound =>
      cases h
      obtain ⟨j, -, hj⟩ := Option.bind_eq_some_iff.1 hfound
      unfold ofJson? at hj
      split at hj
      next members =>
        obtain ⟨values, -, hvalues⟩ := Option.bind_eq_some_iff.1 hj
        cases hvalues
        exact Json.sorted_sortMembers values
      next => cases hj
    next => cases h

end Settings

namespace SettingsFile

open Json (Sorted)

/-- Whether the settings in a file can be read. -/
def Readable (file : SettingsFile) : Prop := ∃ s, file.read = .ok s

/-- Settings that are read are sorted by name. -/
theorem sorted_of_read {file : SettingsFile} {s : Settings} (h : file.read = .ok s) : Sorted s := by
  cases file with
  | none =>
      cases h
      exact List.Pairwise.nil
  | some bytes =>
      rw [read] at h
      split at h
      · exact Settings.sorted_of_parse h
      · cases h

/-- A file that was written holds what was written. -/
theorem read_write {s : Settings} (h : Sorted s) : (write s).read = .ok s := by
  rw [write, read, Bytes.text?_ofText]
  exact Settings.parse_toText h

theorem get_of_read {file : SettingsFile} {s : Settings} (h : file.read = .ok s) (name : String) :
    file.get name = .ok (s.get? name) := by
  rw [get, h]
  rfl

/-- Settings in a file can be changed as long as they can be read. -/
theorem lawful_access : access.Lawful Readable where
  exists_get := by
    rintro file ⟨s, hs⟩ name
    exact ⟨s.get? name, get_of_read hs name⟩
  exists_put := by
    rintro file ⟨s, hs⟩ name value
    have hwritten := read_write (Settings.sorted_put (sorted_of_read hs) name value)
    refine ⟨write (s.put name value), ?_, ⟨_, hwritten⟩, ?_⟩
    · simp only [access, put, hs]
      rfl
    · intro other
      simp only [access, get_of_read hwritten, get_of_read hs, Settings.get?_put]
      split <;> rfl

end SettingsFile
end PasswordVault
