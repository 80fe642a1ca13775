import PasswordVault.Proofs.Json.Words

/-!
# Indentation — the lines of a text do not change what it spells

The indented text of a value has the words of its compact text, with line ends and blanks between them.
Those are passed over, so the text is cut into the same words.

* `Json.Exact.cutsIndented`: the words of an indented text.
* `Json.parse?_indented`: the indented text of an exact value spells that value.
-/

namespace PasswordVault
namespace Json

/-! ## Blanks -/

theorem tokens?_of_isBlank {c : Char} (hblank : isBlank c = true) (cs : List Char) :
    tokens? (c :: cs) = tokens? cs := by
  rw [tokens?, if_pos hblank]

@[simp] theorem tokens?_newLine (level : Nat) (cs : List Char) :
    tokens? (newLine level ++ cs) = tokens? cs := by
  have hblanks : ∀ n, tokens? (List.replicate n ' ' ++ cs) = tokens? cs := by
    intro n
    induction n with
    | zero => rfl
    | succ n ih => rw [List.replicate_succ, List.cons_append, tokens?_of_isBlank rfl, ih]
  rw [newLine, List.cons_append, tokens?_of_isBlank rfl, hblanks]

theorem endsNumber_newLine (level : Nat) (rest : List Char) : EndsNumber (newLine level ++ rest) := by
  rintro c ⟨⟩
  decide

/-! ## Arrays and objects -/

/-- Whether the indented text of a value is cut into the words of the value, at whatever level it stands and
whatever follows. -/
def CutsIndented (j : Json) : Prop :=
  ∀ level rest, EndsNumber rest →
    tokens? (indentedChars level j ++ rest) = (tokens? rest).map (words j ++ ·)

theorem endsNumber_indentedItems (level outer : Nat) (items : List Json) (rest : List Char) :
    EndsNumber (indentedItems level false items ++ (newLine outer ++ rest)) := by
  cases items with
  | nil => exact endsNumber_newLine outer rest
  | cons x more =>
      rintro c ⟨⟩
      decide

theorem endsNumber_indentedMembers (level outer : Nat) (members : List (String × Json)) (rest : List Char) :
    EndsNumber (indentedMembers level false members ++ (newLine outer ++ rest)) := by
  cases members with
  | nil => exact endsNumber_newLine outer rest
  | cons m more =>
      rintro c ⟨⟩
      decide

/-- The items of an array, each on a line of its own, are cut into their words. -/
theorem tokens?_indentedItems {items : List Json} (hitems : ∀ x ∈ items, CutsIndented x)
    (level outer : Nat) (first : Bool) (rest : List Char) :
    tokens? (indentedItems level first items ++ (newLine outer ++ ']' :: rest)) =
      (tokens? rest).map (itemWords first items ++ ·) := by
  -- The bracket at the end stands on a line of its own.
  induction items generalizing first with
  | nil =>
      have hclose : tokens? (']' :: rest) = _ := tokens?_of_token? rfl
      simp [indentedItems, itemWords, hclose]
  | cons x more ih =>
      have hmore := ih (fun y hy => hitems y (List.mem_cons_of_mem x hy)) false
      have hx := hitems x List.mem_cons_self level _ (endsNumber_indentedItems level outer more (']' :: rest))
      cases first with
      | true => simp [indentedItems, itemWords, hx, hmore, Function.comp_def]
      | false =>
          have hcomma : ∀ cs, tokens? (',' :: cs) = (tokens? cs).map (.comma :: ·) :=
            fun cs => tokens?_of_token? rfl
          simp [indentedItems, itemWords, hcomma, hx, hmore, Function.comp_def]

theorem tokens?_indentedMember {m : String × Json} (hm : CutsIndented m.2) (level : Nat)
    {rest : List Char} (hends : EndsNumber rest) :
    tokens? (indentedMember level m ++ rest) = (tokens? rest).map (memberFormWords m ++ ·) := by
  obtain ⟨key, value⟩ := m
  have hkey : ∀ cs, tokens? (quoted key ++ cs) = (tokens? cs).map (.text (some key) :: ·) :=
    fun cs => tokens?_of_token? (token?_quoted key cs)
  have hcolon : ∀ cs, tokens? (':' :: ' ' :: cs) = (tokens? cs).map (.colon :: ·) := by
    intro cs
    have hcut : token? (':' :: ' ' :: cs) = some (.colon, ' ' :: cs) := rfl
    rw [tokens?_of_token? hcut, tokens?_of_isBlank rfl]
  simp [indentedMember, memberFormWords, hkey, hcolon, hm level rest hends, Function.comp_def]

theorem tokens?_indentedMembers {members : List (String × Json)}
    (hmembers : ∀ m ∈ members, CutsIndented m.2) (level outer : Nat) (first : Bool) (rest : List Char) :
    tokens? (indentedMembers level first members ++ (newLine outer ++ '\x7d' :: rest)) =
      (tokens? rest).map (memberWords first members ++ ·) := by
  induction members generalizing first with
  | nil =>
      have hclose : tokens? ('\x7d' :: rest) = _ := tokens?_of_token? rfl
      simp [indentedMembers, memberWords, hclose]
  | cons m more ih =>
      have hmore := ih (fun m' hm' => hmembers m' (List.mem_cons_of_mem m hm')) false
      have hm := tokens?_indentedMember (hmembers m List.mem_cons_self) level
        (endsNumber_indentedMembers level outer more ('\x7d' :: rest))
      cases first with
      | true => simp [indentedMembers, memberWords, hm, hmore, Function.comp_def]
      | false =>
          have hcomma : ∀ cs, tokens? (',' :: cs) = (tokens? cs).map (.comma :: ·) :=
            fun cs => tokens?_of_token? rfl
          simp [indentedMembers, memberWords, hcomma, hm, hmore, Function.comp_def]

/-! ## Texts -/

/-- The indented text of an exact value is cut into the words of the value. -/
theorem Exact.cutsIndented {j : Json} (hj : Exact j) : CutsIndented j := by
  -- Plain values are written as in the compact text, and so are an empty array and an empty object.
  induction hj with
  | null => exact fun _ rest hends => Exact.null.cuts rest hends
  | bool b => exact fun _ rest hends => (Exact.bool b).cuts rest hends
  | int hleast hgreatest => exact fun _ rest hends => (Exact.int hleast hgreatest).cuts rest hends
  | string s => exact fun _ rest hends => (Exact.string s).cuts rest hends
  | @array items hitems ih =>
      intro level rest hends
      cases items with
      | nil => exact (Exact.array hitems).cuts rest hends
      | cons x more =>
          have hopen : ∀ cs, tokens? ('[' :: cs) = (tokens? cs).map (.openBracket :: ·) :=
            fun cs => tokens?_of_token? rfl
          have hmore := tokens?_indentedItems ih (level + 1) level true rest
          simp [indentedChars, words, hopen, hmore, Function.comp_def]
  | @object members hmembers ih =>
      intro level rest hends
      cases members with
      | nil => exact (Exact.object hmembers).cuts rest hends
      | cons m more =>
          have hopen : ∀ cs, tokens? ('\x7b' :: cs) = (tokens? cs).map (.openBrace :: ·) :=
            fun cs => tokens?_of_token? rfl
          have hmore := tokens?_indentedMembers ih (level + 1) level true rest
          simp [indentedChars, words, hopen, hmore, Function.comp_def]

/-- The indented text of an exact value spells that value. -/
theorem parse?_indented {j : Json} (hj : Exact j) : parse? j.indented = some j := by
  have hcut := hj.cutsIndented 0 [] (fun c hc => by cases hc)
  rw [List.append_nil] at hcut
  have htokens : tokens? (indentedChars 0 j) = some (words j) := by
    rw [hcut, tokens?, Option.map_some, List.append_nil]
  rw [parse?, indented, String.toList_ofList, htokens]
  exact ofTokens?_words hj

end Json
end PasswordVault
