import PasswordVault.Cipher
import PasswordVault.Proofs.Json.Records
import PasswordVault.Proofs.Text.Dates

/-!
# Texts — ciphers in JSON

The reader of every part of a cipher finds the part in what is written for it, and so does the reader of
ciphers, with all the copies that a cipher descends from.

* `VaultCipher.finds_toJson`: a cipher is read from its JSON, exactly if that nests in few enough levels.
-/

namespace PasswordVault

open Json.Reader

/-! ## Parts -/

theorem CustomField.finds_kind (kind : FieldKind) :
    Finds (choice FieldKind.words) (.wordOf FieldKind.words kind) kind := by
  cases kind <;> exact finds_wordOf rfl rfl

/-- Each part of an item is found in what is written for it; this and the following are one lemma for each
part. -/
theorem CustomField.finds_toJson (f : CustomField) : Finds reader f.toJson f := by
  have hname := finds_optString f.name
  have hvalue := finds_optString f.value
  have hkind := finds_kind f.kind
  refine finds_record ["name", "value", "kind"]
    [.optString f.name, .optString f.value, .wordOf FieldKind.words f.kind] (by decide) rfl ?_ ?_
  · simp [hname.exact, hvalue.exact, hkind.exact]
  · intro depth hdepth b
    simp [hname.optional_bind hdepth, hvalue.optional_bind hdepth, hkind.required_bind hdepth, and_assoc]

theorem Tag.finds_toJson (t : Tag) : Finds reader t.toJson t := by
  have hname := finds_text t.name
  refine finds_record ["name"] [.string t.name] (by decide) rfl ?_ ?_
  · simp [hname.exact]
  · intro depth hdepth b
    simp [hname.required_bind hdepth]

theorem LoginUri.finds_matchType (matchType : Option UriMatch) :
    Finds (orNull (choice UriMatch.words))
      (match matchType with | some m => .wordOf UriMatch.words m | none => .null) matchType := by
  cases matchType with
  | none => exact finds_null _
  | some m => cases m <;> exact finds_some (finds_wordOf rfl rfl) nofun

theorem LoginUri.finds_toJson (u : LoginUri) : Finds reader u.toJson u := by
  have huri := finds_optString u.uri
  have hmatch := finds_matchType u.matchType
  refine finds_record ["uri", "match_type"] [.optString u.uri,
    match u.matchType with | some m => .wordOf UriMatch.words m | none => .null] (by decide) rfl ?_ ?_
  · simp only [List.forall_mem_cons]
    exact ⟨huri.exact, hmatch.exact, nofun⟩
  · intro depth hdepth b
    simp [huri.optional_bind hdepth, hmatch.optional_bind hdepth, and_assoc]

theorem PasswordHistory.finds_toJson (h : PasswordHistory) : Finds reader h.toJson h := by
  have hpassword := finds_text h.password
  have hlastUsed := Instant.finds_optInstant h.lastUsedDate
  refine finds_record ["password", "last_used_date"] [.string h.password, .optInstant h.lastUsedDate]
    (by decide) rfl ?_ ?_
  · simp [hpassword.exact, hlastUsed.exact]
  · intro depth hdepth b
    simp [hpassword.required_bind hdepth, hlastUsed.optional_bind hdepth, and_assoc]

/-- A login holds lists of other parts, which are found by their own lemmas. -/
theorem Login.finds_toJson (l : Login) : Finds reader l.toJson l := by
  have husername := finds_optString l.username
  have hpassword := finds_optString l.password
  have hrevision := Instant.finds_optInstant l.passwordRevisionDate
  have hhistory := finds_list fun h (_ : h ∈ l.passwordHistory) => PasswordHistory.finds_toJson h
  have huris := finds_list fun u (_ : u ∈ l.uris) => LoginUri.finds_toJson u
  have htotp := finds_optString l.totp
  refine finds_record
    ["username", "password", "password_revision_date", "password_history", "uris", "totp"]
    [.optString l.username, .optString l.password, .optInstant l.passwordRevisionDate,
      .array (l.passwordHistory.map PasswordHistory.toJson), .array (l.uris.map LoginUri.toJson),
      .optString l.totp] (by decide) rfl ?_ ?_
  · simp [husername.exact, hpassword.exact, hrevision.exact, hhistory.exact, huris.exact, htotp.exact]
  · intro depth hdepth b
    simp [husername.optional_bind hdepth, hpassword.optional_bind hdepth, hrevision.optional_bind hdepth,
      hhistory.withDefault_bind hdepth, huris.withDefault_bind hdepth, htotp.optional_bind hdepth,
      and_assoc]

theorem Card.finds_toJson (v : Card) : Finds reader v.toJson v :=
  finds_texts (by decide) rfl rfl

theorem Identity.finds_toJson (v : Identity) : Finds reader v.toJson v :=
  finds_texts (by decide) rfl rfl

theorem SshKey.finds_toJson (v : SshKey) : Finds reader v.toJson v :=
  finds_texts (by decide) rfl rfl

theorem SecureNote.finds_kind (kind : SecureNoteKind) :
    Finds (choice SecureNoteKind.words) (.wordOf SecureNoteKind.words kind) kind := by
  cases kind
  exact finds_wordOf rfl rfl

theorem SecureNote.finds_toJson (n : SecureNote) : Finds reader n.toJson n := by
  have hkind := finds_kind n.kind
  refine finds_record ["kind"] [.wordOf SecureNoteKind.words n.kind] (by decide) rfl ?_ ?_
  · simp [hkind.exact]
  · intro depth hdepth b
    -- There is only one note.
    have hsame : n = b := by
      obtain ⟨⟨⟩⟩ := n
      obtain ⟨⟨⟩⟩ := b
      rfl
    simp [hkind.required_bind hdepth, hsame]

/-! ## Ciphers -/

namespace VaultCipher

theorem finds_kind (kind : CipherKind) :
    Finds (choice CipherKind.words) (.wordOf CipherKind.words kind) kind := by
  cases kind <;> exact finds_wordOf rfl rfl

theorem finds_optional {α : Type} {read : Json.Reader α} {write : α → Json}
    (h : ∀ a, Finds read (write a) a) (hne : ∀ a, write a ≠ .null) (o : Option α) :
    Finds (orNull read) (contentValues.optional write o) o := by
  cases o with
  | none => exact finds_null read
  | some a => exact finds_some (h a) (hne a)

theorem length_contentValues (c : CipherContent) (last : Json) :
    fieldNames.length = (contentValues c ++ [last]).length :=
  rfl

/-- Nothing in an item is written inexactly. -/
theorem exact_contentValues (c : CipherContent) : ∀ v ∈ contentValues c, v.Exact := by
  have hfields := (finds_list fun f (_ : f ∈ c.fields) => f.finds_toJson).exact
  have htags := (finds_list fun t (_ : t ∈ c.tags) => t.finds_toJson).exact
  have hlogin := (finds_optional Login.finds_toJson (fun _ => Json.noConfusion) c.login).exact
  have hcard := (finds_optional Card.finds_toJson (fun _ => Json.noConfusion) c.card).exact
  have hidentity := (finds_optional Identity.finds_toJson (fun _ => Json.noConfusion) c.identity).exact
  have hnote := (finds_optional SecureNote.finds_toJson (fun _ => Json.noConfusion) c.secureNote).exact
  have hssh := (finds_optional SshKey.finds_toJson (fun _ => Json.noConfusion) c.sshKey).exact
  simp [contentValues, (finds_text _).exact, (finds_optString _).exact, (Instant.finds_toJson _).exact,
    (Instant.finds_optInstant _).exact, (finds_kind _).exact, (finds_bool _).exact, hfields, htags,
    hlogin, hcard, hidentity, hnote, hssh]

/-- A cipher is found in the values of its content and the value of the copy that it records. -/
theorem finds_zip (c : CipherContent) {last : Json} (copy : Option VaultCipher) (hexact : last.Exact)
    (hlast : ∀ depth, 0 < depth → ∀ o,
      (Json.Field.given last).optional (fun _ j => reader depth j) depth = some o ↔
        last.nesting < depth ∧ copy = o) :
    Finds reader (.object (fieldNames.zip (contentValues c ++ [last]))) (withCopy c copy) := by
  have hvalues : ∀ v ∈ contentValues c ++ [last], v.Exact := by
    intro v hv
    rcases List.mem_append.1 hv with hcontent | hrecorded
    · exact exact_contentValues c v hcontent
    · rw [List.mem_singleton.1 hrecorded]
      exact hexact
  refine ⟨exact_zip hvalues, ?_⟩
  rintro (_ | depth) hpositive b
  · cases hpositive
  have hlength := length_contentValues c last
  rw [reader, record_eq_some_iff (fields_zip (by decide) hlength), nesting_zip_lt hlength, and_assoc]
  refine and_congr_right fun hone => ?_
  have hdepth : 0 < depth := Nat.lt_of_succ_lt_succ hone
  have hfields := finds_list fun f (_ : f ∈ c.fields) => f.finds_toJson
  have htags := finds_list fun t (_ : t ∈ c.tags) => t.finds_toJson
  have hlogin := finds_optional Login.finds_toJson (fun _ => Json.noConfusion) c.login
  have hcard := finds_optional Card.finds_toJson (fun _ => Json.noConfusion) c.card
  have hidentity := finds_optional Identity.finds_toJson (fun _ => Json.noConfusion) c.identity
  have hnote := finds_optional SecureNote.finds_toJson (fun _ => Json.noConfusion) c.secureNote
  have hssh := finds_optional SshKey.finds_toJson (fun _ => Json.noConfusion) c.sshKey
  dsimp only [contentValues, List.cons_append, List.nil_append, List.map, Nat.add_one_sub_one,
    Option.bind_eq_bind]
  -- Each step is taken off before the steps in it are looked at.
  simp only [↓(finds_text _).required_bind hdepth, ↓(finds_optString _).optional_bind hdepth,
    ↓(Instant.finds_toJson _).required_bind hdepth, ↓(Instant.finds_optInstant _).optional_bind hdepth,
    ↓(finds_kind _).required_bind hdepth, ↓(finds_bool _).required_bind hdepth,
    ↓hfields.withDefault_bind hdepth, ↓htags.withDefault_bind hdepth, ↓hlogin.optional_bind hdepth,
    ↓hcard.optional_bind hdepth, ↓hidentity.optional_bind hdepth, ↓hnote.optional_bind hdepth,
    ↓hssh.optional_bind hdepth, ↓bind_eq_some_iff_of_reads (hlast depth hdepth), Option.pure_def,
    Option.some.injEq, List.forall_mem_cons, List.not_mem_nil, false_implies, implies_true, true_and,
    and_assoc]

/-- The copies that a cipher descends from stand within each other. -/
theorem finds_chainToJson (c : CipherContent) (synced : List CipherContent) :
    Finds reader (chainToJson c synced) { toCipherContent := c, synced } := by
  induction synced generalizing c with
  | nil =>
      refine finds_zip c none .null ?_
      intro depth hdepth
      exact (finds_null fun _ j => reader depth j).reads depth hdepth
  | cons copy older ih =>
      have hcopy := ih copy
      have hne : chainToJson copy older ≠ .null := by
        cases older <;> exact Json.noConfusion
      refine finds_zip c (some { toCipherContent := copy, synced := older }) hcopy.exact ?_
      intro depth hdepth o
      have hread := (finds_some hcopy hne).reads depth hdepth o
      rw [orNull_of_ne hne] at hread
      rw [Json.Field.optional, orNull_of_ne hne]
      exact hread

/-- A cipher is read from its JSON, exactly if that nests in few enough levels. -/
theorem finds_toJson (c : VaultCipher) : Finds reader c.toJson c :=
  finds_chainToJson c.toCipherContent c.synced

end VaultCipher
end PasswordVault
