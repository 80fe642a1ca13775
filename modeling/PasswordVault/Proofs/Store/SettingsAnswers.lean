import Mathlib.Logic.Function.Basic
import PasswordVault.Proofs.Store.Settings

/-!
# Settings — the same answers from a file as from memory

Settings in a file are read and written anew by every call, and the object that does so keeps nothing but the
path. No caller can tell them from settings in memory, whatever was put before and however often the file was
opened in between, as long as the file holds settings. Where it holds something else, every call fails and
the file stays as it is.

- `SettingsAccess.calls`: the answers to a row of calls;
- `SettingsAccess.sessions`: the answers when the settings are opened again between rows of calls;
- `SettingsAccess.Simulates`: a step law for two kinds of settings, and with it all their answers agree;
- `Settings.Spells`: the texts that are JSON objects of strings;
- `SettingsFile.answers_eq_memory`: the answers of settings in a file.
-/

namespace PasswordVault

/-- A call on settings: a value is asked for, or set, or removed. -/
inductive SettingsCall where
  | get (name : String)
  | put (name : String) (value : Option String)

/-- What a call answers. -/
inductive SettingsAnswer where
  | value (found : Option String)
  | done
  | failed (e : StoreError)

namespace SettingsAccess

variable {σ τ : Type}

/-- The answer to a call, and the settings after it. A call that fails leaves them as they were. -/
def call (access : SettingsAccess σ) (s : σ) : SettingsCall → SettingsAnswer × σ
  | .get name =>
    match access.get s name with
    | .ok found => (.value found, s)
    | .error e => (.failed e, s)
  | .put name value =>
    match access.put s name value with
    | .ok s' => (.done, s')
    | .error e => (.failed e, s)

/-- The answers to calls one after the other, and the settings after them. -/
def calls (access : SettingsAccess σ) (s : σ) : List SettingsCall → List SettingsAnswer × σ
  | [] => ([], s)
  | c :: rest =>
    let (answer, s') := access.call s c
    let (answers, s'') := access.calls s' rest
    (answer :: answers, s'')

/-- The answers to rows of calls, each through an object of its own, which finds what the one before left
behind. -/
def sessions (access : SettingsAccess σ) (s : σ) : List (List SettingsCall) → List SettingsAnswer × σ
  | [] => ([], s)
  | row :: rest =>
    let (answers, s') := access.calls s row
    let (more, s'') := access.sessions s' rest
    (answers ++ more, s'')

theorem calls_append (access : SettingsAccess σ) (s : σ) (row more : List SettingsCall) :
    access.calls s (row ++ more) =
      ((access.calls s row).1 ++ (access.calls (access.calls s row).2 more).1,
        (access.calls (access.calls s row).2 more).2) := by
  induction row generalizing s with
  | nil => rfl
  | cons c rest ih => simp only [List.cons_append, calls, ih]

/-- Opening the settings again changes no answer. -/
theorem sessions_eq (access : SettingsAccess σ) (s : σ) (rows : List (List SettingsCall)) :
    access.sessions s rows = access.calls s rows.flatten := by
  induction rows generalizing s with
  | nil => rfl
  | cons row rest ih => simp only [sessions, List.flatten_cons, calls_append, ih]

/-- Whether settings of one kind stand for settings of another: every call has the same answer, and leaves
them as settings that stand for each other. -/
def Simulates (access : SettingsAccess σ) (other : SettingsAccess τ) (stands : σ → τ → Prop) : Prop :=
  ∀ s t, stands s t → ∀ c, (access.call s c).1 = (other.call t c).1 ∧ stands (access.call s c).2 (other.call t c).2

/-- By induction over the calls, one access gives the answers of the other. -/
theorem Simulates.calls {access : SettingsAccess σ} {other : SettingsAccess τ} {stands : σ → τ → Prop}
    (h : access.Simulates other stands) {s : σ} {t : τ} (hst : stands s t) (row : List SettingsCall) :
    (access.calls s row).1 = (other.calls t row).1 ∧ stands (access.calls s row).2 (other.calls t row).2 := by
  induction row generalizing s t with
  | nil => exact ⟨rfl, hst⟩
  | cons c rest ih =>
      obtain ⟨hanswer, hnext⟩ := h s t hst c
      obtain ⟨hanswers, hlast⟩ := ih hnext
      exact ⟨congrArg₂ List.cons hanswer hanswers, hlast⟩

/-- Settings as a function from names to values. -/
def function : SettingsAccess (String → Option String) where
  get s name := .ok (s name)
  put s name value := .ok (Function.update s name value)

end SettingsAccess

namespace Settings

open SettingsAccess (Simulates function)

/-- Settings in memory are a function from names to values. -/
theorem simulates_function : Simulates access function fun s f => s.get? = f := by
  rintro s _ rfl (name | ⟨name, value⟩)
  · exact ⟨rfl, rfl⟩
  · refine ⟨rfl, funext fun other => ?_⟩
    simp only [SettingsAccess.call, access, function, get?_put, Function.update_apply]

/-! ## Texts -/

/-- Whether a text is a JSON object of strings, with the given members. -/
def Spells (text : String) (members : List (String × String)) : Prop :=
  Json.parse? text = some (toJson members)

/-- Settings are read from an object of strings only, the last of equal names counting. -/
theorem eq_toJson_of_ofJson? {j : Json} {s : Settings} (h : ofJson? j = some s) :
    ∃ members, j = toJson members ∧ s = Json.sortMembers members := by
  unfold ofJson? at h
  split at h
  next members =>
    obtain ⟨values, hvalues, hsorted⟩ := Option.bind_eq_some_iff.1 h
    refine ⟨values, ?_, (Option.some.inj hsorted).symm⟩
    rw [toJson, Json.object.injEq]
    refine eq_map_of_mapM_eq_some ?_ hvalues
    rintro ⟨name, v⟩ m hm
    cases v with
    | string value =>
        cases hm
        rfl
    | _ => cases hm
  next => cases h

/-- A text that is not blank is refused unless it is a JSON object of strings. -/
theorem parse_of_not_spells {text : String} (hblank : Text.trim text ≠ "")
    (h : ∀ members, ¬ Spells text members) : ∃ reason, parse text = .error (.settings reason) := by
  rw [parse, if_neg hblank]
  split
  next s hs =>
    obtain ⟨j, hj, hread⟩ := Option.bind_eq_some_iff.1 hs
    obtain ⟨members, rfl, -⟩ := eq_toJson_of_ofJson? hread
    exact absurd hj (h members)
  next => exact ⟨_, rfl⟩

end Settings

namespace SettingsFile

open SettingsAccess (Simulates function)

/-- Settings in a file that can be read stand for the settings that are read. -/
theorem simulates_memory : Simulates access Settings.access fun file s => file.read = .ok s := by
  rintro file s hs (name | ⟨name, value⟩)
  · simp only [SettingsAccess.call, access, get_of_read hs]
    exact ⟨rfl, hs⟩
  · have hput : file.put name value = .ok (write (s.put name value)) := by
      rw [put, hs]
      rfl
    simp only [SettingsAccess.call, access, hput]
    exact ⟨rfl, read_write (Settings.sorted_put (sorted_of_read hs) name value)⟩

/-- What a file holds: no settings if it does not exist or is blank, or those of a JSON object of strings,
of which the last counts where names are equal. -/
inductive Holds : SettingsFile → Settings → Prop
  | missing : Holds none []
  | blank {text : String} (hblank : Text.trim text = "") : Holds (some (Bytes.ofText text)) []
  | object {text : String} {members : List (String × String)} (hblank : Text.trim text ≠ "")
      (hspells : Settings.Spells text members) :
      Holds (some (Bytes.ofText text)) (Json.sortMembers members)

/-- A file that holds settings is read as these. -/
theorem read_of_holds {file : SettingsFile} {s : Settings} (h : Holds file s) : file.read = .ok s := by
  cases h with
  | missing => rfl
  | blank hblank =>
      rw [read, Bytes.text?_ofText]
      exact if_pos hblank
  | object hblank hspells =>
      rw [read, Bytes.text?_ofText]
      simp only [Settings.parse]
      rw [if_neg hblank, hspells, Option.bind_some, Settings.ofJson?_toJson]

theorem read_of_not_holds {text : String} (h : ∀ s, ¬ Holds (some (Bytes.ofText text)) s) :
    ∃ reason, read (some (Bytes.ofText text)) = .error (.settings reason) := by
  have hblank : Text.trim text ≠ "" := fun hblank => h [] (.blank hblank)
  have hspells : ∀ members, ¬ Settings.Spells text members := fun _ hspells => h _ (.object hblank hspells)
  rw [read, Bytes.text?_ofText]
  exact Settings.parse_of_not_spells hblank hspells

/-- Where a file cannot be read, every call fails for that reason and changes nothing. -/
theorem calls_of_read_error {file : SettingsFile} {e : StoreError} (h : file.read = .error e)
    (row : List SettingsCall) : access.calls file row = (row.map fun _ => .failed e, file) := by
  have hcall : ∀ c, access.call file c = (.failed e, file) := by
    have hget : ∀ name, file.get name = .error e := fun name => by rw [get, h]; rfl
    have hput : ∀ name value, file.put name value = .error e := fun name value => by rw [put, h]; rfl
    rintro (name | ⟨name, value⟩)
    · simp only [SettingsAccess.call, access, hget]
    · simp only [SettingsAccess.call, access, hput]
  induction row with
  | nil => rfl
  | cons c rest ih => simp only [SettingsAccess.calls, hcall, ih, List.map_cons]

/-- Settings in a file answer like settings in memory that start with what the file holds, whatever is asked
for, set and removed, and wherever the file is opened again. What both answer is what a function from names
to values says. A file with a text that holds no settings is refused by every call and stays as it is. -/
theorem answers_eq_memory :
    (∀ (file : SettingsFile) (s : Settings), Holds file s → ∀ rows : List (List SettingsCall),
        (access.sessions file rows).1 = (Settings.access.calls s rows.flatten).1 ∧
          (access.sessions file rows).1 = (function.calls s.get? rows.flatten).1) ∧
      ∀ text, (∀ s, ¬ Holds (some (Bytes.ofText text)) s) →
        ∃ reason, ∀ row : List SettingsCall, access.calls (some (Bytes.ofText text)) row =
          (row.map fun _ => .failed (.settings reason), some (Bytes.ofText text)) := by
  constructor
  · intro file s hfile rows
    have hmemory := (simulates_memory.calls (read_of_holds hfile) rows.flatten).1
    have hfunction := (Settings.simulates_function.calls (s := s) rfl rows.flatten).1
    rw [SettingsAccess.sessions_eq]
    exact ⟨hmemory, hmemory.trans hfunction⟩
  · intro text htext
    obtain ⟨reason, hreason⟩ := read_of_not_holds htext
    exact ⟨reason, calls_of_read_error hreason⟩

/-- A value with marks that JSON escapes is found after the file was opened again, and gone after it was
removed; a text that is no JSON is refused. -/
theorem answers_eq_memory_blankFile :
    let value := "\"a\\\n\u00001😀"
    let file : SettingsFile := some (Bytes.ofText " \n")
    Holds file [] ∧
      (access.sessions file [[.put "k" (some value)], [.get "k", .put "k" none], [.get "k"]]).1 =
        [.done, .value (some value), .done, .value none] ∧
      (∀ s, ¬ Holds (some (Bytes.ofText "not json")) s) ∧
      ∃ reason, access.calls (some (Bytes.ofText "not json")) [.get "k", .put "k" (some value)] =
        ([.failed (.settings reason), .failed (.settings reason)], some (Bytes.ofText "not json")) := by
  intro value file
  have hblank : Holds file [] := .blank (by decide +kernel)
  have htext : ∀ s, ¬ Holds (some (Bytes.ofText "not json")) s := by
    intro s hs
    have hread := read_of_holds hs
    rw [read, Bytes.text?_ofText] at hread
    have hparse : Json.parse? "not json" = none := by decide +kernel
    have htrim : Text.trim "not json" ≠ "" := by decide +kernel
    simp only [Settings.parse, if_neg htrim, hparse] at hread
    cases hread
  obtain ⟨reason, hreason⟩ := answers_eq_memory.2 "not json" htext
  exact ⟨hblank, (answers_eq_memory.1 file [] hblank _).1, htext, reason, hreason _⟩

end SettingsFile
end PasswordVault
