import PasswordVault.Proofs.Json.Indentation

/-!
# Composition — objects put together of texts

The text of a value is read in the same way wherever it stands: its words are cut off alike as long as what
follows does not go on with a number (`token?_append`), and a reading of words looks at the innermost array or
object only (`Reading.step_within`). So an object can be put together of any texts of its members' values.

* `Json.parse?_objectText`: such an object is read as the members with the values of their texts.
-/

namespace PasswordVault
namespace Json

/-! ## Strings -/

/-- A string ends at its quote, so what follows it does not matter. -/
theorem readCodes_append {cs after : List Char} {codes : List Nat}
    (h : readCodes cs = some (codes, after)) (rest : List Char) :
    readCodes (cs ++ rest) = some (codes, after ++ rest) := by
  fun_induction readCodes cs generalizing codes after with
  | case1 => cases h
  | case2 tail =>
      cases h
      rfl
  | case3 a b c d tail ih =>
      simp only [Option.bind_eq_bind, Option.bind_eq_some_iff] at h
      obtain ⟨code, hcode, ⟨codes', after'⟩, hread, hsome⟩ := h
      cases hsome
      simp only [List.cons_append, readCodes, hcode, ih hread]
      rfl
  | case4 e tail hnot ih =>
      simp only [Option.bind_eq_bind, Option.bind_eq_some_iff] at h
      obtain ⟨c, hc, ⟨codes', after'⟩, hread, hsome⟩ := h
      cases hsome
      -- An escape of one letter is no code in hexadecimal.
      have hletter : e ≠ 'u' := by
        rintro rfl
        cases hc
      rw [List.cons_append, List.cons_append, readCodes_escaped hletter hc, ih hread]
      rfl
  | case5 => cases h
  | case6 c tail hquote _ _ hplain ih =>
      simp only [Option.bind_eq_bind, Option.bind_eq_some_iff] at h
      obtain ⟨⟨codes', after'⟩, hread, hsome⟩ := h
      cases hsome
      rw [not_or] at hplain
      rw [List.cons_append, readCodes_plain hquote hplain.1 hplain.2, ih hread]
      rfl

/-! ## Numbers -/

/-- Digits go on only into digits; the same holds of each part of a number below. -/
theorem spanDigits_append_of_eq {cs after rest : List Char} {digits : List Nat}
    (h : spanDigits cs = (digits, after)) (hends : EndsNumber rest) :
    spanDigits (cs ++ rest) = (digits, after ++ rest) := by
  fun_induction spanDigits cs generalizing digits after with
  | case1 =>
      cases h
      cases rest with
      | nil => rfl
      | cons c rest =>
          have hc := (hends c rfl).1
          simp [spanDigits, hc]
  | case2 c tail hc digits' after' hspan ih =>
      cases h
      simp only [List.cons_append, spanDigits, hc, if_true, ih hspan]
  | case3 c tail hc =>
      cases h
      simp [spanDigits, hc]

theorem exponentSign_append {cs : List Char} (hne : cs ≠ []) (rest : List Char) :
    exponentSign (cs ++ rest) = ((exponentSign cs).1, (exponentSign cs).2 ++ rest) := by
  cases cs with
  | nil => exact absurd rfl hne
  | cons c tail =>
      by_cases hminus : c = '-'
      · rw [hminus]
        rfl
      · by_cases hplus : c = '+'
        · rw [hplus]
          rfl
        · have hplain : ∀ more, exponentSign (c :: more) = (false, c :: more) := by
            intro more
            rw [exponentSign]
            · exact fun _ heq => hminus (List.cons.inj heq).1
            · exact fun _ heq => hplus (List.cons.inj heq).1
          rw [List.cons_append, hplain, hplain, List.cons_append]

theorem readExponent_append {cs after rest : List Char} {e : Bool × Nat}
    (h : readExponent cs = some (e, after)) (hends : EndsNumber rest) :
    readExponent (cs ++ rest) = some (e, after ++ rest) := by
  have hne : cs ≠ [] := by
    rintro rfl
    cases h
  simp only [readExponent] at h ⊢
  rw [exponentSign_append hne]
  split at h
  · cases h
  · next digits after' hdigits hspan =>
    cases h
    simp only [spanDigits_append_of_eq hspan hends]

/-- What follows a number that is read to its end starts no mark of a number either. -/
theorem head_append_ne {c : Char} (hc : c = '.' ∨ c = 'e' ∨ c = 'E') {after rest : List Char}
    (hafter : ∀ more, after ≠ c :: more) (hends : EndsNumber rest) (more : List Char) :
    after ++ rest ≠ c :: more := by
  cases after with
  | nil =>
      rintro rfl
      obtain ⟨-, hpoint, hlower, hupper⟩ := hends c rfl
      rcases hc with rfl | rfl | rfl
      · exact hpoint rfl
      · exact hlower rfl
      · exact hupper rfl
  | cons d tail =>
      intro heq
      exact hafter tail (by rw [(List.cons.inj heq).1])

/-- The rest of a number stands by itself where no number goes on. -/
theorem readTail_append {negative : Bool} {whole : List Nat} {cs after rest : List Char} {j : Json}
    (h : readTail negative whole cs = some (j, after)) (hends : EndsNumber rest) :
    readTail negative whole (cs ++ rest) = some (j, after ++ rest) := by
  unfold readTail at h
  split at h
  · -- A fraction, which an exponent may follow.
    next tail =>
    split at h
    · cases h
    · next fraction more hne hspan =>
      have hspan' := spanDigits_append_of_eq hspan hends
      obtain ⟨⟨⟨en, ex⟩, after'⟩, hexp, hsome⟩ := Option.bind_eq_some_iff.1 h
      cases hsome
      have hexp' := readExponent_append hexp hends
      simp [readTail, hspan', hexp']
    · next fraction more hne hspan =>
      have hspan' := spanDigits_append_of_eq hspan hends
      obtain ⟨⟨⟨en, ex⟩, after'⟩, hexp, hsome⟩ := Option.bind_eq_some_iff.1 h
      cases hsome
      have hexp' := readExponent_append hexp hends
      simp [readTail, hspan', hexp']
    · -- There is no exponent, and none arises from what follows.
      next fraction more hne hlower hupper hspan =>
      have hspan' := spanDigits_append_of_eq hspan hends
      cases h
      rw [List.cons_append, readTail, hspan']
      have hlower' := head_append_ne (.inr (.inl rfl)) hlower hends
      have hupper' := head_append_ne (.inr (.inr rfl)) hupper hends
      split
      · next heq => exact absurd (congrArg Prod.fst heq) hne
      · next heq => exact absurd (congrArg Prod.snd heq) (hlower' _)
      · next heq => exact absurd (congrArg Prod.snd heq) (hupper' _)
      · next heq =>
        cases heq
        rfl
  · next tail =>
    obtain ⟨⟨⟨en, ex⟩, after'⟩, hexp, hsome⟩ := Option.bind_eq_some_iff.1 h
    cases hsome
    simp [readTail, readExponent_append hexp hends]
  · next tail =>
    obtain ⟨⟨⟨en, ex⟩, after'⟩, hexp, hsome⟩ := Option.bind_eq_some_iff.1 h
    cases hsome
    simp [readTail, readExponent_append hexp hends]
  · next hpoint hlower hupper =>
    cases h
    rw [readTail]
    · exact head_append_ne (.inl rfl) hpoint hends
    · exact head_append_ne (.inr (.inl rfl)) hlower hends
    · exact head_append_ne (.inr (.inr rfl)) hupper hends

theorem readUnsigned_append {negative : Bool} {cs after rest : List Char} {j : Json}
    (h : readUnsigned negative cs = some (j, after)) (hends : EndsNumber rest) :
    readUnsigned negative (cs ++ rest) = some (j, after ++ rest) := by
  simp only [readUnsigned] at h ⊢
  split at h
  · cases h
  · cases h
  · next whole more hne hzero hspan =>
    have hspan' := spanDigits_append_of_eq hspan hends
    have htail := readTail_append h hends
    rw [hspan']
    split
    · next heq => exact absurd (congrArg Prod.fst heq) hne
    · next heq => exact absurd (congrArg Prod.fst heq) (hzero _ _)
    · next heq =>
      cases heq
      exact htail

/-! ## Words -/

theorem exists_isDigit_of_readUnsigned {negative : Bool} {cs after : List Char} {j : Json}
    (h : readUnsigned negative cs = some (j, after)) : ∃ c tail, cs = c :: tail ∧ c.isDigit = true := by
  cases cs with
  | nil => cases h
  | cons c tail =>
      refine ⟨c, tail, rfl, ?_⟩
      by_contra hc
      simp [readUnsigned, spanDigits, hc] at h

/-- A word is cut off in the same way whatever follows the text, as long as that does not go on with a number. -/
theorem token?_append {cs after rest : List Char} {t : Token} (h : token? cs = some (t, after))
    (hends : EndsNumber rest) : token? (cs ++ rest) = some (t, after ++ rest) := by
  -- Only texts and numbers have an end to look for; the other words are told by their letters.
  unfold token? at h
  split at h
  case h_7 tail =>
    obtain ⟨⟨codes, after'⟩, hread, hsome⟩ := Option.bind_eq_some_iff.1 h
    cases hsome
    simp [token?, readCodes_append hread rest]
  case h_11 tail =>
    obtain ⟨⟨j, after'⟩, hread, hsome⟩ := Option.bind_eq_some_iff.1 h
    cases hsome
    simp [token?, readUnsigned_append hread hends]
  case h_12 =>
    obtain ⟨⟨j, after'⟩, hread, hsome⟩ := Option.bind_eq_some_iff.1 h
    cases hsome
    obtain ⟨c, tail, rfl, hc⟩ := exists_isDigit_of_readUnsigned hread
    rw [List.cons_append, token?_of_isDigit hc, ← List.cons_append, readUnsigned_append hread hends]
    rfl
  all_goals
    cases h
    rfl

/-- The words of a text followed by another are those of both, unless a number runs from one into the other.
-/
theorem tokens?_append {cs rest : List Char} {ts : List Token} (h : tokens? cs = some ts)
    (hends : EndsNumber rest) : tokens? (cs ++ rest) = (tokens? rest).map (ts ++ ·) := by
  induction cs using tokens?.induct generalizing ts with
  | case1 =>
      rw [tokens?] at h
      cases h
      simp
  | case2 c tail hblank ih =>
      rw [tokens?_of_isBlank hblank] at h
      rw [List.cons_append, tokens?_of_isBlank hblank, ih h]
  | case3 c tail hblank hnone =>
      rw [tokens?, if_neg hblank] at h
      split at h
      · cases h
      · next heq =>
        rw [hnone] at heq
        cases heq
  | case4 c tail hblank t after htoken hlt ih =>
      rw [tokens?_of_token? htoken] at h
      -- A word stays what it is when more follows: only a number could grow, and the rest ends numbers.
      obtain ⟨more, hmore, rfl⟩ := Option.map_eq_some_iff.1 h
      rw [tokens?_of_token? (token?_append htoken hends), ih hmore, Option.map_map]
      rfl

/-! ## Reading below other values -/

namespace Reading

/-- The same reading with further arrays and objects open around it. -/
def within (outer : List Frame) : Reading → Reading
  | .value stack => .value (stack ++ outer)
  | .arrayStart stack => .arrayStart (stack ++ outer)
  | .objectStart stack => .objectStart (stack ++ outer)
  | .key stack done => .key (stack ++ outer) done
  | .colon stack done k => .colon (stack ++ outer) done k
  | .complete v stack => .complete v (stack ++ outer)

theorem startValue_within {stack : List Frame} {t : Token} {next : Reading}
    (h : startValue stack t = some next) (outer : List Frame) :
    startValue (stack ++ outer) t = some (next.within outer) := by
  cases t with
  | scalar | text | openBracket | openBrace =>
      cases h
      rfl
  | closeBrace | closeBracket | comma | colon => cases h

/-- A step looks at the innermost array or object only. -/
theorem step_within {state next : Reading} {t : Token} (h : state.step t = some next) (outer : List Frame) :
    (state.within outer).step t = some (next.within outer) := by
  -- A value may start in two states; all other steps look at the state alone.
  unfold step at h
  split at h
  case h_1 => exact startValue_within h outer
  case h_3 stack _ hne =>
    have hstart := startValue_within h outer
    rw [within, step]
    · exact hstart
    · exact hne
  case h_12 => cases h
  all_goals
    cases h
    rfl

theorem run_within {state next : Reading} {tokens : List Token} (h : state.run tokens = some next)
    (outer : List Frame) : (state.within outer).run tokens = some (next.within outer) := by
  induction tokens generalizing state with
  | nil =>
      cases h
      rfl
  | cons t rest ih =>
      obtain ⟨after, hstep, hrun⟩ := Option.bind_eq_some_iff.1 h
      rw [run, step_within hstep, Option.bind_some, ih hrun]

theorem run_append (state : Reading) (tokens more : List Token) :
    state.run (tokens ++ more) = (state.run tokens).bind fun next => next.run more := by
  induction tokens generalizing state with
  | nil => rfl
  | cons t rest ih =>
      cases hstep : state.step t with
      | none => simp [run, hstep]
      | some next => simp [run, hstep, ih]

/-- The words of a value are read as the value wherever a value must follow. -/
theorem run_value_of_ofTokens? {tokens : List Token} {v : Json} (h : ofTokens? tokens = some v)
    (stack : List Frame) (more : List Token) :
    run (.value stack) (tokens ++ more) = run (.complete v stack) more := by
  have hrun : run (.value []) tokens = some (.complete v []) := by
    unfold ofTokens? at h
    split at h
    · next heq =>
      cases h
      exact heq
    · cases h
  rw [run_append, show Reading.value stack = within stack (.value []) from rfl, run_within hrun stack]
  rfl

end Reading

/-! ## Texts of objects -/

/-- The members that follow in an object, given by their keys and the texts of their values, and its end. -/
def memberTexts (first : Bool) : List (String × String) → List Char
  | [] => ['\x7d']
  | (key, text) :: rest =>
    (if first then [] else [',']) ++ quoted key ++ ':' :: (text.toList ++ memberTexts false rest)

/-- The text of an object whose members are given by their keys and the texts of their values. -/
def objectText (members : List (String × String)) : String := String.ofList ('\x7b' :: memberTexts true members)

/-- Whether members are written as they are, each value by some text that spells it. -/
def Spelled (written : List (String × String)) (members : List (String × Json)) : Prop :=
  List.Forall₂ (fun w m => w.1 = m.1 ∧ parse? w.2 = some m.2) written members

theorem endsNumber_memberTexts (written : List (String × String)) : EndsNumber (memberTexts false written) := by
  cases written <;> (rintro c ⟨⟩; decide)

theorem tokens?_end (first : Bool) : tokens? (memberTexts first []) = some [.closeBrace] := by
  have hclose : tokens? (memberTexts first []) = (tokens? []).map (.closeBrace :: ·) := tokens?_of_token? rfl
  rw [hclose, tokens?]
  rfl

/-- A member and whatever follows it. -/
theorem tokens?_memberText (key : String) {text : String} {v : Json} (h : parse? text = some v) :
    ∃ tokens, ofTokens? tokens = some v ∧ ∀ rest, EndsNumber rest →
      tokens? (quoted key ++ ':' :: (text.toList ++ rest)) =
        (tokens? rest).map (Token.text (some key) :: .colon :: tokens ++ ·) := by
  obtain ⟨tokens, htokens, hvalue⟩ := Option.bind_eq_some_iff.1 h
  refine ⟨tokens, hvalue, fun rest hends => ?_⟩
  have hkey : ∀ cs, tokens? (quoted key ++ cs) = (tokens? cs).map (.text (some key) :: ·) :=
    fun cs => tokens?_of_token? (token?_quoted key cs)
  have hcolon : ∀ cs, tokens? (':' :: cs) = (tokens? cs).map (.colon :: ·) :=
    fun cs => tokens?_of_token? rfl
  rw [hkey, hcolon, tokens?_append htokens hends, Option.map_map, Option.map_map]
  rfl

/-- Members that follow a first one join those that were read before. -/
theorem exists_tokens_memberTexts {written : List (String × String)} {members : List (String × Json)}
    (h : Spelled written members) :
    ∃ tokens, tokens? (memberTexts false written) = some tokens ∧
      ∀ key v (done : List (String × Json)) stack,
        Reading.run (.complete v (.object (done.map fun m => (some m.1, m.2)) (some key) :: stack)) tokens =
          some (.complete (.object (((key, v) :: done).reverse ++ members)) stack) := by
  -- By induction on the members: the first of them is the last one read before the others.
  induction h with
  | nil =>
      refine ⟨[.closeBrace], tokens?_end false, fun key v done stack => ?_⟩
      rw [List.append_nil, ← ofMembers_keyed]
      rfl
  | @cons w m written members hfirst _ ih =>
      obtain ⟨key', text⟩ := w
      obtain ⟨_, value⟩ := m
      obtain ⟨rfl, hparse⟩ := hfirst
      obtain ⟨tokens, hvalue, hmember⟩ := tokens?_memberText key' hparse
      obtain ⟨more, hmore, hrun⟩ := ih
      have hcomma : ∀ cs, tokens? (',' :: cs) = (tokens? cs).map (.comma :: ·) :=
        fun cs => tokens?_of_token? rfl
      refine ⟨.comma :: .text (some key') :: .colon :: (tokens ++ more), ?_, fun key v done stack => ?_⟩
      · have hchars : memberTexts false ((key', text) :: written) =
            ',' :: (quoted key' ++ ':' :: (text.toList ++ memberTexts false written)) := rfl
        rw [hchars, hcomma, hmember _ (endsNumber_memberTexts written), hmore]
        rfl
      · have hread := Reading.run_value_of_ofTokens? hvalue
          (.object (((key, v) :: done).map fun m => (some m.1, m.2)) (some key') :: stack) more
        have hrest := hrun key' value ((key, v) :: done) stack
        calc Reading.run (.complete v (.object (done.map fun m => (some m.1, m.2)) (some key) :: stack))
              (.comma :: .text (some key') :: .colon :: (tokens ++ more))
            = Reading.run (.value
                (.object (((key, v) :: done).map fun m => (some m.1, m.2)) (some key') :: stack))
                (tokens ++ more) := rfl
          _ = some (.complete (.object (((key', value) :: (key, v) :: done).reverse ++ members)) stack) := by
              rw [hread, hrest]
          _ = some (.complete (.object (((key, v) :: done).reverse ++ (key', value) :: members)) stack) := by
              simp

/-- The text of an object spells its members, whatever texts their values have. -/
theorem parse?_objectText {written : List (String × String)} {members : List (String × Json)}
    (h : Spelled written members) : parse? (objectText written) = some (.object members) := by
  have hopen : ∀ cs, tokens? ('\x7b' :: cs) = (tokens? cs).map (.openBrace :: ·) :=
    fun cs => tokens?_of_token? rfl
  rw [parse?, objectText, String.toList_ofList, hopen]
  cases h with
  | nil =>
      rw [tokens?_end]
      rfl
  | @cons w m written members hfirst hrest =>
      obtain ⟨key, text⟩ := w
      obtain ⟨_, value⟩ := m
      obtain ⟨rfl, hparse⟩ := hfirst
      -- A value that is read alone is read the same with an object open around it.
      obtain ⟨tokens, hvalue, hmember⟩ := tokens?_memberText key hparse
      obtain ⟨more, hmore, hrun⟩ := exists_tokens_memberTexts hrest
      have hchars : memberTexts true ((key, text) :: written) =
          quoted key ++ ':' :: (text.toList ++ memberTexts false written) := rfl
      have hread := Reading.run_value_of_ofTokens? hvalue [.object [] (some key)] more
      have hall : Reading.run (.value []) (.openBrace :: .text (some key) :: .colon :: (tokens ++ more)) =
          some (.complete (.object ((key, value) :: members)) []) :=
        hread.trans (hrun key value [] [])
      rw [hchars, hmember _ (endsNumber_memberTexts written), hmore]
      simp only [Option.map_some, Option.bind_eq_bind, Option.bind_some, ofTokens?, List.cons_append, hall]

end Json
end PasswordVault
