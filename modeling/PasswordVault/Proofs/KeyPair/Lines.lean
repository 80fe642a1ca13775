import PasswordVault.KeyPair
import PasswordVault.Proofs.Ssh.Wire
import PasswordVault.Proofs.Text.Base64

/-!
# Public key lines

A public key line is the name of the kind, the wire form as base64, and a comment. A reader looks at the
second word alone, so it finds the wire form whatever the comment says, and the kind in the wire form.

- `KeyPair.Raw.wireOfLine_comment`, `KeyPair.Raw.wireOfLine_line`: the wire form in a line;
- `KeyPair.kindOfWire?_publicWire`: the kind of a wire form.
-/

namespace PasswordVault

/-! ## Words -/

namespace Text

theorem collect_blank (cs : List Char) : words.collect (' ' :: cs) = ([], words cs) := by
  have hblank : isBlank ' ' = true := by decide
  simp only [words, words.collect, hblank, if_true]

theorem collect_append {word : List Char} (h : ∀ c ∈ word, isBlank c = false) (cs : List Char) :
    words.collect (word ++ cs) = (word ++ (words.collect cs).1, (words.collect cs).2) := by
  induction word with
  | nil => rfl
  | cons c rest ih =>
      rw [List.cons_append, words.collect, ih fun d hd => h d (List.mem_cons_of_mem c hd)]
      simp [h c List.mem_cons_self]

/-- A word ends at a blank. -/
theorem words_append_blank {word : List Char} (hne : word ≠ []) (h : ∀ c ∈ word, isBlank c = false)
    (cs : List Char) : words (word ++ ' ' :: cs) = word :: words cs := by
  rw [words, collect_append h, collect_blank, List.append_nil]
  exact if_neg hne

/-- The last word ends with the text. -/
theorem words_of_no_blank {word : List Char} (hne : word ≠ []) (h : ∀ c ∈ word, isBlank c = false) :
    words word = [word] := by
  have hcollect := collect_append h []
  rw [List.append_nil] at hcollect
  rw [words, hcollect]
  simp [words.collect, hne]

end Text

/-! ## Lines -/

theorem Base64.isBlank_of_mem_encodeChars {c : Char} {b : Bytes} (h : c ∈ encodeChars b) :
    Text.isBlank c = false := by
  have hsymbol : ∀ n < 64, Text.isBlank (symbol n) = false := by decide
  rcases mem_encodeChars h with rfl | ⟨n, hn, rfl⟩
  · decide
  · exact hsymbol n hn

namespace KeyPair

theorem Kind.sshName_ne_nil (kind : Kind) : kind.sshName.toList ≠ [] := by
  cases kind with
  | rsa => decide
  | ed25519 => decide

theorem Kind.isBlank_of_mem_sshName (kind : Kind) : ∀ c ∈ kind.sshName.toList, Text.isBlank c = false := by
  have hall : kind.sshName.toList.all fun c => !Text.isBlank c := by
    cases kind with
    | rsa => decide
    | ed25519 => decide
  simpa using hall

def line (kind : Kind) (wire : Bytes) : String := kind.sshName ++ " " ++ Base64.encode wire

theorem toList_line (kind : Kind) (wire : Bytes) :
    (line kind wire).toList = kind.sshName.toList ++ ' ' :: Base64.encodeChars wire := by
  simp [line, Base64.encode]

theorem words_line (kind : Kind) {wire : Bytes} (hne : wire ≠ []) :
    Text.words (line kind wire).toList = [kind.sshName.toList, Base64.encodeChars wire] := by
  rw [toList_line, Text.words_append_blank kind.sshName_ne_nil kind.isBlank_of_mem_sshName,
    Text.words_of_no_blank (Base64.encodeChars_ne_nil hne) fun _ => Base64.isBlank_of_mem_encodeChars]

namespace Raw

theorem wireOfLine_of_words {ssh : String} {name : List Char} {wire : Bytes} {rest : List (List Char)}
    (h : Text.words ssh.toList = name :: Base64.encodeChars wire :: rest) : wireOfLine ssh = .ok wire := by
  rw [wireOfLine, h]
  simp only [Base64.decode_ofList_encodeChars]

/-- The wire form in a line is read, whatever the comment. -/
theorem wireOfLine_comment (kind : Kind) {wire : Bytes} (hne : wire ≠ []) (comment : String) :
    wireOfLine (line kind wire ++ " " ++ comment) = .ok wire := by
  have hchars : (line kind wire ++ " " ++ comment).toList =
      kind.sshName.toList ++ ' ' :: (Base64.encodeChars wire ++ ' ' :: comment.toList) := by
    simp [toList_line]
  have hwords : Text.words (line kind wire ++ " " ++ comment).toList =
      kind.sshName.toList :: Base64.encodeChars wire :: Text.words comment.toList := by
    rw [hchars, Text.words_append_blank kind.sshName_ne_nil kind.isBlank_of_mem_sshName,
      Text.words_append_blank (Base64.encodeChars_ne_nil hne) fun _ =>
        Base64.isBlank_of_mem_encodeChars]
  exact wireOfLine_of_words hwords

/-- A line without a comment is read as the wire form that it was written for. -/
theorem wireOfLine_line (kind : Kind) {wire : Bytes} (hne : wire ≠ []) :
    wireOfLine (line kind wire) = .ok wire :=
  wireOfLine_of_words (words_line kind hne)

/-- A line without key data has no second word. -/
theorem wireOfLine_line_nil (kind : Kind) : wireOfLine (line kind []) = .error .noKeyData := by
  rw [wireOfLine, toList_line, Text.words_append_blank kind.sshName_ne_nil kind.isBlank_of_mem_sshName]
  rfl

end Raw

/-! ## Kinds -/

def Secret.kind : Secret → Kind
  | .rsa _ => .rsa
  | .ed25519 _ => .ed25519

/-- The kind is named by the first string, whatever follows. -/
theorem kindOfWire?_string (kind : Kind) (rest : Bytes) :
    kindOfWire? (Ssh.string (Bytes.ofText kind.sshName) ++ rest) = some kind := by
  have hshort : (Bytes.ofText kind.sshName).length < 2 ^ 32 := by
    cases kind with
    | rsa => decide
    | ed25519 => decide
  have hread := Ssh.readString?_append hshort [] rest
  rw [List.nil_append, List.length_nil] at hread
  rw [kindOfWire?, hread, Option.bind_eq_bind, Option.bind_some]
  cases kind with
  | rsa => decide
  | ed25519 => decide

/-- The wire form of a public key names its kind. -/
theorem kindOfWire?_publicWire (secret : Secret) : kindOfWire? secret.publicWire = some secret.kind := by
  cases secret with
  | rsa k =>
      rw [Secret.publicWire, rsaWire, List.append_assoc]
      exact kindOfWire?_string .rsa _
  | ed25519 seed => exact kindOfWire?_string .ed25519 _

theorem ne_nil_of_kindOfWire? {wire : Bytes} {kind : Kind} (h : kindOfWire? wire = some kind) :
    wire ≠ [] := by
  rintro rfl
  cases h

end KeyPair
end PasswordVault
