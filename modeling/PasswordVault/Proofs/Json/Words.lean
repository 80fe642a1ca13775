import PasswordVault.Json.Parser
import PasswordVault.Json.Printer
import PasswordVault.Proofs.Bytes
import PasswordVault.Proofs.Text.Digits

/-!
# Words — a JSON value and its text

The text of a value is cut into the words of the value, and these are read back as the value.

* `Json.Exact`: the values that their texts determine, those without fractions and unreadable parts.
* `Json.words`: the words of a value, without regard to how they are written.
* `Json.parse?_compact`: the compact text of an exact value spells that value.
-/

namespace PasswordVault
namespace Json

/-- Whether the text of a value determines it: nothing in it is a fraction, a number of more than 64 bits
or unreadable. -/
inductive Exact : Json → Prop where
  | null : Exact .null
  | bool (b : Bool) : Exact (.bool b)
  | int {n : Int} (hleast : -0x8000000000000000 ≤ n) (hgreatest : n ≤ 0xffffffffffffffff) :
      Exact (.number (.int n))
  | string (s : String) : Exact (.string s)
  | array {items : List Json} (hitems : ∀ x ∈ items, Exact x) : Exact (.array items)
  | object {members : List (String × Json)} (hmembers : ∀ m ∈ members, Exact m.2) :
      Exact (.object members)

mutual

/-- The words of a value. -/
def words : Json → List Token
  | .null => [.scalar .null]
  | .bool b => [.scalar (.bool b)]
  | .number n => [.scalar (.number n)]
  | .string s => [.text (some s)]
  | .array items => .openBracket :: itemWords true items
  | .object members => .openBrace :: memberWords true members
  | .unreadable => [.scalar .null]

/-- The words of the items that follow in an array, and of its end. -/
def itemWords (first : Bool) : List Json → List Token
  | [] => [.closeBracket]
  | x :: rest => (if first then [] else [.comma]) ++ words x ++ itemWords false rest

def memberFormWords : String × Json → List Token
  | (key, value) => .text (some key) :: .colon :: words value

/-- The words of the members that follow in an object, and of its end. -/
def memberWords (first : Bool) : List (String × Json) → List Token
  | [] => [.closeBrace]
  | m :: rest => (if first then [] else [.comma]) ++ memberFormWords m ++ memberWords false rest

end

/-! ## Strings -/

theorem readCodes_escaped {e c : Char} (hletter : e ≠ 'u') (hescaped : escaped? e = some c)
    (cs : List Char) :
    readCodes ('\\' :: e :: cs) = (readCodes cs).map fun read => (c.toNat :: read.1, read.2) := by
  rw [readCodes]
  · rw [hescaped]
    cases readCodes cs <;> rfl
  · intro _ _ _ _ _ heq
    exact absurd heq hletter

theorem readCodes_plain {c : Char} (hquote : c ≠ '"') (hbackslash : c ≠ '\\') (hcontrol : ¬ c.toNat < 0x20)
    (cs : List Char) :
    readCodes (c :: cs) = (readCodes cs).map fun read => (c.toNat :: read.1, read.2) := by
  rw [readCodes]
  · rw [if_neg (not_or.2 ⟨hbackslash, hcontrol⟩)]
    cases readCodes cs <;> rfl
  · exact hquote
  · intro _ _ _ _ _ heq
    exact absurd heq hbackslash
  · intro _ _ heq
    exact absurd heq hbackslash

/-- An escaped character is read as its code. -/
theorem readCodes_escape (c : Char) (cs : List Char) :
    readCodes (escape c ++ cs) = (readCodes cs).map fun read => (c.toNat :: read.1, read.2) := by
  have hhex : ∀ n < 32, hex4? '0' '0' (Bytes.hexDigit (n / 16)) (Bytes.hexDigit (n % 16)) = some n := by
    decide
  have hcode : ∀ n, c.toNat = n → c = Char.ofNat n := by
    intro n hn
    rw [← hn, Char.ofNat_toNat]
  unfold escape
  -- Two characters for most escapes, six for the other codes below 32, and the character itself.
  split_ifs with hquote hbackslash hbackspace hfeed hline hreturn htab hcontrol
  · exact readCodes_escaped (by decide) (by rw [hquote]; rfl) cs
  · exact readCodes_escaped (by decide) (by rw [hbackslash]; rfl) cs
  · exact readCodes_escaped (by decide) (by rw [hcode 8 hbackspace]; rfl) cs
  · exact readCodes_escaped (by decide) (by rw [hcode 12 hfeed]; rfl) cs
  · exact readCodes_escaped (by decide) (by rw [hline]; rfl) cs
  · exact readCodes_escaped (by decide) (by rw [hreturn]; rfl) cs
  · exact readCodes_escaped (by decide) (by rw [htab]; rfl) cs
  · simp only [List.cons_append, List.nil_append]
    rw [readCodes, hhex c.toNat hcontrol]
    cases readCodes cs <;> rfl
  · exact readCodes_plain hquote hbackslash hcontrol cs

theorem readCodes_quoted (s : List Char) (after : List Char) :
    readCodes (s.flatMap escape ++ '"' :: after) = some (s.map Char.toNat, after) := by
  induction s with
  | nil => rfl
  | cons c rest ih =>
      rw [List.flatMap_cons, List.append_assoc, readCodes_escape, ih]
      rfl

/-- The codes of characters are no surrogates. -/
theorem not_surrogate (c : Char) : ¬ (0xD800 ≤ c.toNat ∧ c.toNat < 0xE000) := by
  have hvalid : c.toNat.isValidChar := c.valid
  rcases hvalid with hlow | ⟨hhigh, -⟩ <;> omega

/-- The codes of a text have no surrogates among them to join. -/
theorem joinSurrogates?_codes (s : List Char) : joinSurrogates? (s.map Char.toNat) = some s := by
  induction s with
  | nil => rfl
  | cons c rest ih =>
      have hc := not_surrogate c
      cases rest with
      | nil =>
          rw [List.map_cons, List.map_nil, joinSurrogates?, if_neg hc, Char.ofNat_toNat]
      | cons d rest =>
          have hhigh : ¬ (0xD800 ≤ c.toNat ∧ c.toNat < 0xDC00) := by omega
          have hlow : ¬ (0xDC00 ≤ c.toNat ∧ c.toNat < 0xE000) := by omega
          rw [List.map_cons] at ih
          rw [List.map_cons, List.map_cons, joinSurrogates?, if_neg hhigh, if_neg hlow, ih,
            Option.map_some, Char.ofNat_toNat]

/-! ## Numbers -/

/-- What may stand after a number: nothing that would belong to it. -/
def EndsNumber (rest : List Char) : Prop :=
  ∀ c ∈ rest.head?, c.isDigit = false ∧ c ≠ '.' ∧ c ≠ 'e' ∧ c ≠ 'E'

/-- Where no fraction and no exponent follows, a whole number is all there is. -/
theorem readTail_of_endsNumber {rest : List Char} (hends : EndsNumber rest) (negative : Bool)
    (whole : List Nat) :
    readTail negative whole rest = some (readTail.ofNumber (wholeOf? negative whole), rest) := by
  cases rest with
  | nil => rfl
  | cons c after =>
      obtain ⟨-, hpoint, hlower, hupper⟩ := hends c rfl
      rw [readTail]
      · intro _ heq
        exact hpoint (List.cons.inj heq).1
      · intro _ heq
        exact hlower (List.cons.inj heq).1
      · intro _ heq
        exact hupper (List.cons.inj heq).1

/-- The digits of a number are read as the number. -/
theorem readUnsigned_toDigits {rest : List Char} (hends : EndsNumber rest) (negative : Bool) (n : Nat) :
    ∃ whole, ofDigits whole = n ∧ readUnsigned negative (Nat.toDigits 10 n ++ rest) =
      some (readTail.ofNumber (wholeOf? negative whole), rest) := by
  have hspan := spanDigits_append (isDigit_toDigits n) fun c hc => (hends c hc).1
  refine ⟨digitValues (Nat.toDigits 10 n), ofDigits_toDigits n, ?_⟩
  have hne : digitValues (Nat.toDigits 10 n) ≠ [] := by
    rw [Ne, ← List.length_eq_zero_iff, length_digitValues, List.length_eq_zero_iff]
    exact Nat.toDigits_ne_nil
  rw [readUnsigned, hspan]
  split
  · next heq => exact absurd (congrArg Prod.fst heq) hne
  · next heq => exact absurd (congrArg Prod.fst heq) (digitValues_toDigits_ne n _ _)
  · next whole after _ _ heq =>
    cases heq
    exact readTail_of_endsNumber hends negative _

/-! ## Words -/

theorem token?_quoted (s : String) (after : List Char) :
    token? (quoted s ++ after) = some (.text (some s), after) := by
  rw [quoted, List.cons_append, List.append_assoc, List.singleton_append, token?, readCodes_quoted]
  simp only [Option.bind_eq_bind, Option.bind_some, joinSurrogates?_codes, Option.map_some,
    String.ofList_toList]
  rfl

/-- Digits start no other word. -/
theorem token?_of_isDigit {c : Char} (hc : c.isDigit = true) (rest : List Char) :
    token? (c :: rest) = (readUnsigned false (c :: rest)).map fun read => (.scalar read.1, read.2) := by
  have hne : ∀ d, d.isDigit = false → c ≠ d := by
    rintro _ hd rfl
    rw [hc] at hd
    cases hd
  rw [token?]
  · cases readUnsigned false (c :: rest) <;> rfl
  all_goals
    intro _ heq
    exact absurd (List.cons.inj heq).1 (hne _ (by decide))

/-- A whole number of up to 64 bits is one word and is read exactly. -/
theorem token?_int {n : Int} (hleast : -0x8000000000000000 ≤ n) (hgreatest : n ≤ 0xffffffffffffffff)
    {rest : List Char} (hends : EndsNumber rest) :
    token? ((Number.int n).chars ++ rest) = some (.scalar (.number (.int n)), rest) := by
  rw [Number.chars, Int.toString_eq_repr, Int.repr_eq_if]
  -- Digits alone, or digits after a minus, whose number is read below zero.
  split_ifs with hsign
  · obtain ⟨whole, hwhole, hread⟩ := readUnsigned_toDigits hends false n.toNat
    have hvalue : wholeOf? false whole = some (.int n) := by
      have hfits : ofDigits whole ≤ 0xffffffffffffffff := by omega
      have hsame : ((ofDigits whole : Nat) : Int) = n := by omega
      simp [wholeOf?, hfits, hsame]
    rw [Nat.toList_repr]
    cases hdigits : Nat.toDigits 10 n.toNat with
    | nil => exact absurd hdigits Nat.toDigits_ne_nil
    | cons c more =>
        have hc := isDigit_toDigits n.toNat c (hdigits ▸ List.mem_cons_self)
        rw [hdigits, List.cons_append] at hread
        rw [List.cons_append, token?_of_isDigit hc, hread, hvalue]
        rfl
  · obtain ⟨whole, hwhole, hread⟩ := readUnsigned_toDigits hends true (-n).toNat
    have hvalue : wholeOf? true whole = some (.int n) := by
      have hpositive : 0 < ofDigits whole := by omega
      have hfits : ofDigits whole ≤ 0x8000000000000000 := by omega
      have hsame : -((ofDigits whole : Nat) : Int) = n := by omega
      simp [wholeOf?, hpositive, hfits, hsame]
    have hminus : ("-" ++ (-n).toNat.repr).toList = '-' :: Nat.toDigits 10 (-n).toNat := by
      rw [String.toList_append, Nat.toList_repr]
      rfl
    rw [hminus, List.cons_append, token?, hread, hvalue]
    rfl

theorem token?_of_isBlank {c : Char} (hblank : isBlank c = true) (cs : List Char) : token? (c :: cs) = none := by
  have hcases : c = ' ' ∨ c = '\t' ∨ c = '\n' ∨ c = '\r' := by simpa [isBlank] using hblank
  rcases hcases with rfl | rfl | rfl | rfl <;> rfl

/-- One word is cut off at a time. -/
theorem tokens?_of_token? {cs after : List Char} {t : Token} (htoken : token? cs = some (t, after)) :
    tokens? cs = (tokens? after).map (t :: ·) := by
  cases cs with
  | nil => cases htoken
  | cons c rest =>
      have hblank : ¬ isBlank c = true := by
        intro h
        rw [token?_of_isBlank h] at htoken
        cases htoken
      rw [tokens?, if_neg hblank]
      split
      · next heq =>
        rw [htoken] at heq
        cases heq
      · next heq =>
        rw [htoken] at heq
        cases heq
        rfl

/-- Whether the text of a value is cut into the words of the value, whatever follows. -/
def Cuts (j : Json) : Prop :=
  ∀ rest, EndsNumber rest → tokens? (chars j ++ rest) = (tokens? rest).map (words j ++ ·)

theorem endsNumber_itemChars (items : List Json) (rest : List Char) :
    EndsNumber (itemChars false items ++ rest) := by
  cases items <;> (rintro c ⟨⟩; decide)

theorem tokens?_itemChars {items : List Json} (hitems : ∀ x ∈ items, Cuts x) (first : Bool)
    (rest : List Char) :
    tokens? (itemChars first items ++ rest) = (tokens? rest).map (itemWords first items ++ ·) := by
  -- Every item but the first stands behind a comma, and what follows an item ends a number.
  induction items generalizing first with
  | nil => exact tokens?_of_token? rfl
  | cons x more ih =>
      have hmore := ih (fun y hy => hitems y (List.mem_cons_of_mem x hy)) false
      have hx := hitems x List.mem_cons_self _ (endsNumber_itemChars more rest)
      cases first with
      | true => simp [itemChars, itemWords, hx, hmore, Function.comp_def]
      | false =>
          have hcomma : tokens? (',' :: (chars x ++ (itemChars false more ++ rest))) = _ :=
            tokens?_of_token? rfl
          simp [itemChars, itemWords, hcomma, hx, hmore, Function.comp_def]

theorem endsNumber_memberChars (members : List (String × Json)) (rest : List Char) :
    EndsNumber (memberChars false members ++ rest) := by
  cases members <;> (rintro c ⟨⟩; decide)

theorem tokens?_memberForm {m : String × Json} (hm : Cuts m.2) {rest : List Char} (hends : EndsNumber rest) :
    tokens? (memberForm m ++ rest) = (tokens? rest).map (memberFormWords m ++ ·) := by
  obtain ⟨key, value⟩ := m
  have hkey : tokens? (quoted key ++ (':' :: (chars value ++ rest))) = _ :=
    tokens?_of_token? (token?_quoted key _)
  have hcolon : tokens? (':' :: (chars value ++ rest)) = _ := tokens?_of_token? rfl
  simp [memberForm, memberFormWords, hkey, hcolon, hm rest hends, Function.comp_def]

theorem tokens?_memberChars {members : List (String × Json)} (hmembers : ∀ m ∈ members, Cuts m.2)
    (first : Bool) (rest : List Char) :
    tokens? (memberChars first members ++ rest) = (tokens? rest).map (memberWords first members ++ ·) := by
  induction members generalizing first with
  | nil => exact tokens?_of_token? rfl
  | cons m more ih =>
      have hmore := ih (fun m' hm' => hmembers m' (List.mem_cons_of_mem m hm')) false
      have hm := tokens?_memberForm (hmembers m List.mem_cons_self) (endsNumber_memberChars more rest)
      cases first with
      | true => simp [memberChars, memberWords, hm, hmore, Function.comp_def]
      | false =>
          have hcomma : tokens? (',' :: (memberForm m ++ (memberChars false more ++ rest))) = _ :=
            tokens?_of_token? rfl
          simp [memberChars, memberWords, hcomma, hm, hmore, Function.comp_def]

/-- The text of an exact value is cut into the words of the value. -/
theorem Exact.cuts {j : Json} (hj : Exact j) : Cuts j := by
  -- Only a number asks what follows it; all other values end with a mark of their own.
  induction hj with
  | null =>
      intro rest _
      exact tokens?_of_token? rfl
  | bool b =>
      intro rest _
      cases b <;> exact tokens?_of_token? rfl
  | int hleast hgreatest =>
      intro rest hends
      exact tokens?_of_token? (token?_int hleast hgreatest hends)
  | string s =>
      intro rest _
      exact tokens?_of_token? (token?_quoted s rest)
  | @array items hitems ih =>
      intro rest _
      have hopen : tokens? ('[' :: (itemChars true items ++ rest)) = _ := tokens?_of_token? rfl
      rw [chars, List.cons_append, hopen, tokens?_itemChars ih, Option.map_map]
      rfl
  | @object members hmembers ih =>
      intro rest _
      have hopen : tokens? ('\x7b' :: (memberChars true members ++ rest)) = _ := tokens?_of_token? rfl
      rw [chars, List.cons_append, hopen, tokens?_memberChars ih, Option.map_map]
      rfl

/-! ## Reading words -/

theorem ofMembers_keyed (done : List (String × Json)) :
    ofMembers (done.map fun m => (some m.1, m.2)) = .object done.reverse := by
  have hkeys : (done.map fun m => (some m.1, m.2)).reverse.mapM (fun e => e.1.map fun k => (k, e.2)) =
      some done.reverse := by
    rw [← List.map_reverse, List.mapM_map]
    exact (List.mapM_pure (m := Option) (f := id)).trans (congrArg some (List.map_id _))
  unfold ofMembers
  split
  · next members hmembers => rw [Option.some.inj (hmembers.symm.trans hkeys)]
  · next hnone => cases hnone.symm.trans hkeys

namespace Reading

/-- Whether the words of a value are read as the value, whatever is open and whatever follows. -/
def Reads (j : Json) : Prop :=
  ∀ stack more, run (.value stack) (words j ++ more) = run (.complete j stack) more

/-- A value starts the same way behind an opened bracket as anywhere else. -/
theorem run_arrayStart {x : Json} (hx : Exact x) (stack : List Frame) (more : List Token) :
    run (.arrayStart stack) (words x ++ more) = run (.value (.array [] :: stack)) (words x ++ more) := by
  cases hx <;> rfl

/-- The words of the items complete an array that was begun, without a look at the rest of the stack. -/
theorem run_itemWords {items : List Json} (hitems : ∀ x ∈ items, Reads x) (v : Json) (done : List Json)
    (stack : List Frame) (more : List Token) :
    run (.complete v (.array done :: stack)) (itemWords false items ++ more) =
      run (.complete (.array ((v :: done).reverse ++ items)) stack) more := by
  -- Each item that is read joins those that are done, last first.
  induction items generalizing v done with
  | nil =>
      rw [List.append_nil]
      rfl
  | cons x rest ih =>
      have hrest := ih (fun y hy => hitems y (List.mem_cons_of_mem x hy)) x (v :: done)
      have hx := hitems x List.mem_cons_self (.array (v :: done) :: stack) (itemWords false rest ++ more)
      calc run (.complete v (.array done :: stack)) (itemWords false (x :: rest) ++ more)
          = run (.value (.array (v :: done) :: stack)) (words x ++ (itemWords false rest ++ more)) := by
            simp [itemWords, run, step]
        _ = run (.complete (.array ((x :: v :: done).reverse ++ rest)) stack) more := by rw [hx, hrest]
        _ = run (.complete (.array ((v :: done).reverse ++ x :: rest)) stack) more := by simp

/-- The words of the members complete an object that was begun. -/
theorem run_memberWords {members : List (String × Json)} (hmembers : ∀ m ∈ members, Reads m.2)
    (key : String) (v : Json) (done : List (String × Json)) (stack : List Frame) (more : List Token) :
    run (.complete v (.object (done.map fun m => (some m.1, m.2)) (some key) :: stack))
        (memberWords false members ++ more) =
      run (.complete (.object (((key, v) :: done).reverse ++ members)) stack) more := by
  induction members generalizing key v done with
  | nil =>
      rw [List.append_nil, ← ofMembers_keyed]
      rfl
  | cons m rest ih =>
      obtain ⟨k, x⟩ := m
      have hrest := ih (fun m' hm' => hmembers m' (List.mem_cons_of_mem (k, x) hm')) k x ((key, v) :: done)
      have hx := hmembers (k, x) List.mem_cons_self
        (.object (((key, v) :: done).map fun m => (some m.1, m.2)) (some k) :: stack)
        (memberWords false rest ++ more)
      calc run (.complete v (.object (done.map fun m => (some m.1, m.2)) (some key) :: stack))
            (memberWords false ((k, x) :: rest) ++ more)
          = run (.value (.object (((key, v) :: done).map fun m => (some m.1, m.2)) (some k) :: stack))
              (words x ++ (memberWords false rest ++ more)) := by
            simp [memberWords, memberFormWords, run, step]
        _ = run (.complete (.object (((k, x) :: (key, v) :: done).reverse ++ rest)) stack) more := by
            rw [hx, hrest]
        _ = run (.complete (.object (((key, v) :: done).reverse ++ (k, x) :: rest)) stack) more := by simp

end Reading

/-- The words of an exact value are read as the value. -/
theorem Exact.reads {j : Json} (hj : Exact j) : Reading.Reads j := by
  induction hj with
  | null =>
      intro stack more
      rfl
  | bool b =>
      intro stack more
      rfl
  | int hleast hgreatest =>
      intro stack more
      rfl
  | string s =>
      intro stack more
      rfl
  | @array items hitems ih =>
      intro stack more
      cases items with
      | nil => rfl
      | cons x rest =>
          have hx := ih x List.mem_cons_self (.array [] :: stack) (itemWords false rest ++ more)
          have hrest := Reading.run_itemWords (fun y hy => ih y (List.mem_cons_of_mem x hy)) x [] stack more
          -- An item cannot be taken for the end of the array.
          have hstart := Reading.run_arrayStart (hitems x List.mem_cons_self) stack
            (itemWords false rest ++ more)
          calc Reading.run (.value stack) (words (.array (x :: rest)) ++ more)
              = Reading.run (.arrayStart stack) (words x ++ (itemWords false rest ++ more)) := by
                simp [words, itemWords, Reading.run, Reading.step, Reading.startValue]
            _ = Reading.run (.complete (.array (x :: rest)) stack) more := by rw [hstart, hx, hrest]; rfl
  | @object members hmembers ih =>
      intro stack more
      cases members with
      | nil => rfl
      | cons m rest =>
          -- The first key is read as the object begins, and its value before the other members.
          obtain ⟨k, x⟩ := m
          have hx := ih (k, x) List.mem_cons_self (.object [] (some k) :: stack)
            (memberWords false rest ++ more)
          have hrest := Reading.run_memberWords
            (fun m' hm' => ih m' (List.mem_cons_of_mem (k, x) hm')) k x [] stack more
          calc Reading.run (.value stack) (words (.object ((k, x) :: rest)) ++ more)
              = Reading.run (.value (.object [] (some k) :: stack))
                  (words x ++ (memberWords false rest ++ more)) := by
                simp [words, memberWords, memberFormWords, Reading.run, Reading.step, Reading.startValue]
            _ = Reading.run (.complete (.object ((k, x) :: rest)) stack) more := by
                rw [hx]
                exact hrest

theorem ofTokens?_words {j : Json} (hj : Exact j) : ofTokens? (words j) = some j := by
  have hread := hj.reads [] []
  rw [List.append_nil] at hread
  rw [ofTokens?, hread]
  rfl

/-! ## Texts -/

/-- The compact text of an exact value spells that value. -/
theorem parse?_compact {j : Json} (hj : Exact j) : parse? j.compact = some j := by
  have hcut := hj.cuts [] (fun c hc => by cases hc)
  rw [List.append_nil] at hcut
  have htokens : tokens? (chars j) = some (words j) := by
    rw [hcut, tokens?, Option.map_some, List.append_nil]
  rw [parse?, compact, String.toList_ofList, htokens]
  exact ofTokens?_words hj

theorem parseBytes?_compact {j : Json} (hj : Exact j) :
    parseBytes? (Bytes.ofText j.compact) = some j := by
  rw [parseBytes?, Bytes.text?_ofText]
  exact parse?_compact hj

end Json
end PasswordVault
