import PasswordVault.Proofs.Envelope.RoundTrip
import PasswordVault.Proofs.Text.Base64Grammar
import Mathlib.Tactic.Ring

/-!
# Envelopes — the texts that are read

`Envelope.Spelling` gives the rules of the format on its own terms: decimal digits that name a type, a
full stop, and between bars as many segments as the type has, each in canonical base64 and, where it
holds an initial vector or a code, of the right length.

* `Envelope.ofChars_eq_ok_iff`: what is read, in terms of the pieces of a text.
* `Envelope.ofChars_eq_ok_iff_zeros`: the only freedom is the number of zeros in front.
* `Envelope.parse_grammar`: both, for texts, with the text that is written back.
-/

namespace PasswordVault

/-! ## Cutting a text -/

namespace Text

variable {sep : Char}

/-- A text is put together again from the parts that it was cut into. -/
theorem eq_of_cutAt? {cs before after : List Char} (h : cutAt? sep cs = some (before, after)) :
    cs = before ++ sep :: after := by
  induction cs generalizing before with
  | nil => cases h
  | cons c rest ih =>
      by_cases hc : c = sep
      · simp only [cutAt?, if_pos hc, Option.some.injEq, Prod.mk.injEq] at h
        obtain ⟨rfl, rfl⟩ := h
        rw [hc, List.nil_append]
      · simp only [cutAt?, if_neg hc, Option.map_eq_some_iff, Prod.mk.injEq, Prod.exists] at h
        obtain ⟨front, _, hrest, rfl, rfl⟩ := h
        rw [ih hrest, List.cons_append]

end Text

namespace Envelope

/-! ## Digits -/

/-- The first digit counts for the most. -/
theorem digitsValue_cons (c : Char) (rest : List Char) :
    digitsValue (c :: rest) = (c.toNat - 48) * 10 ^ rest.length + digitsValue rest := by
  -- Every digit that follows moves the number in front of it by one place.
  have hfold : ∀ (cs : List Char) (n : Nat),
      cs.foldl (fun n c => n * 10 + (c.toNat - 48)) n = n * 10 ^ cs.length + digitsValue cs := by
    intro cs
    induction cs with
    | nil =>
        intro n
        simp [digitsValue]
    | cons d more ih =>
        intro n
        have hfirst : digitsValue (d :: more) =
            (0 * 10 + (d.toNat - 48)) * 10 ^ more.length + digitsValue more := ih _
        rw [List.foldl_cons, ih, hfirst, List.length_cons, Nat.pow_succ]
        ring
  have hstep : digitsValue (c :: rest) =
      (0 * 10 + (c.toNat - 48)) * 10 ^ rest.length + digitsValue rest := hfold rest _
  rw [hstep, Nat.zero_mul, Nat.zero_add]

theorem digitsValue_zeros (zeros : Nat) (digits : List Char) :
    digitsValue (List.replicate zeros '0' ++ digits) = digitsValue digits := by
  induction zeros with
  | zero => rfl
  | succ zeros ih =>
      rw [List.replicate_succ, List.cons_append, digitsValue_cons, ih]
      simp

/-- A number below ten is spelled by one digit with zeros in front. -/
theorem eq_zeros_of_digitsValue_lt {digits : List Char} (hne : digits ≠ [])
    (hdigits : ∀ c ∈ digits, c.isDigit = true) (hlt : digitsValue digits < 10) :
    ∃ zeros, digits = List.replicate zeros '0' ++ [Char.ofNat (48 + digitsValue digits)] := by
  have hbounds : ∀ c : Char, c.isDigit = true → 48 ≤ c.toNat := by
    intro c hc
    simp only [Char.isDigit, Bool.and_eq_true, decide_eq_true_eq] at hc
    exact hc.1
  induction digits with
  | nil => exact absurd rfl hne
  | cons c rest ih =>
      have hc := hbounds c (hdigits c (by simp))
      cases rest with
      | nil =>
          have hvalue : 48 + digitsValue [c] = c.toNat := by
            simp only [digitsValue, List.foldl_cons, List.foldl_nil]
            omega
          refine ⟨0, ?_⟩
          rw [hvalue, Char.ofNat_toNat]
          rfl
      | cons d more =>
          -- A first digit other than zero would make the number at least ten.
          have hsum := digitsValue_cons c (d :: more)
          have hplace : 10 ≤ 10 ^ (d :: more).length := by
            rw [List.length_cons, Nat.pow_succ]
            have hpos : 0 < 10 ^ more.length := Nat.pow_pos (by decide)
            omega
          have hzero : c.toNat - 48 = 0 := by
            by_contra hpos
            have hone : 1 ≤ c.toNat - 48 := by omega
            have hbig := Nat.mul_le_mul hone hplace
            omega
          have hvalue : digitsValue (c :: d :: more) = digitsValue (d :: more) := by
            rw [hsum, hzero, Nat.zero_mul, Nat.zero_add]
          have hfirst : c = '0' := by
            apply Char.toNat_inj.1
            have hnat : '0'.toNat = 48 := rfl
            omega
          rw [hvalue] at hlt ⊢
          obtain ⟨zeros, hrest⟩ := ih (by simp) (fun x hx => hdigits x (List.mem_cons_of_mem _ hx)) hlt
          refine ⟨zeros + 1, ?_⟩
          rw [List.replicate_succ, List.cons_append, ← hrest, hfirst]

/-! ## Types -/

theorem ofRaw?_eq_some_iff {n : Nat} {t : CipherType} : CipherType.ofRaw? n = some t ↔ n = t.raw := by
  constructor
  · intro h
    unfold CipherType.ofRaw? at h
    split at h <;> cases h <;> rfl
  · rintro rfl
    cases t <;> rfl

theorem raw_lt (t : CipherType) : t.raw < 10 := by
  cases t <;> decide

/-- The number of a type is written as one digit. -/
theorem toList_raw (t : CipherType) : (toString t.raw).toList = [Char.ofNat (48 + t.raw)] := by
  cases t <;> rfl

theorem isDigit_raw (t : CipherType) : (Char.ofNat (48 + t.raw)).isDigit = true := by
  cases t <;> rfl

theorem digitsValue_raw (t : CipherType) : digitsValue [Char.ofNat (48 + t.raw)] = t.raw := by
  cases t <;> rfl

/-- A type is named by digits that spell its number, with any zeros in front. -/
theorem typeOf_eq_ok_iff {name : List Char} {t : CipherType} :
    typeOf name = .ok t ↔
      name ≠ [] ∧ (∀ c ∈ name, c.isDigit = true) ∧ digitsValue name = t.raw := by
  unfold typeOf
  split
  case isTrue hbad =>
    have hnot : ¬ (name ≠ [] ∧ ∀ c ∈ name, c.isDigit = true) := by
      rintro ⟨hne, hall⟩
      rcases hbad with hnil | hother
      · exact hne hnil
      · exact hother (List.all_eq_true.2 hall)
    constructor
    · intro h
      cases h
    · rintro ⟨hne, hall, -⟩
      exact absurd ⟨hne, hall⟩ hnot
  case isFalse hgood =>
    simp only [not_or, Classical.not_not, List.all_eq_true] at hgood
    rw [← ofRaw?_eq_some_iff]
    -- What is left to go wrong is a number that names no type.
    cases htype : CipherType.ofRaw? (digitsValue name) with
    | none => simp [htype]
    | some found => simpa [htype, hgood.1] using fun _ => hgood.2

/-! ## Segments -/

theorem segment_eq_ok_iff {piece : List Char} {b : Bytes} :
    segment piece = .ok b ↔ piece ≠ [] ∧ Base64.Canonical piece b := by
  by_cases hpiece : piece = []
  · simp [segment, hpiece]
  · rw [segment, if_neg hpiece, mapError_eq_ok_iff, Base64.decode_eq_ok_iff, String.toList_ofList]
    simp [hpiece]

theorem asIv_eq_ok_iff {b : Bytes} {iv : Block 16} : asIv b = .ok iv ↔ iv.bytes = b := by
  rw [← Block.ofBytes?_eq_some_iff, asIv]
  cases Block.ofBytes? 16 b <;> simp

theorem asMac_eq_ok_iff {b : Bytes} {mac : Mac} : asMac b = .ok mac ↔ mac.bytes = b := by
  rw [← Block.ofBytes?_eq_some_iff, asMac]
  cases Block.ofBytes? 32 b <;> simp

/-- An envelope is made from exactly the segments that it has. -/
theorem ofSegments_eq_ok_iff {t : CipherType} {found : List Bytes} {e : Envelope} :
    ofSegments t found = .ok e ↔ e.cipherType = t ∧ e.segments = found := by
  constructor
  · intro h
    unfold ofSegments at h
    -- One case for each type with its number of segments.
    split at h
    case h_1 iv data =>
      obtain ⟨x, hx, h⟩ := bind_eq_ok_iff.1 h
      cases h
      exact ⟨rfl, by rw [← asIv_eq_ok_iff.1 hx]; rfl⟩
    case h_2 iv data mac =>
      obtain ⟨x, hx, h⟩ := bind_eq_ok_iff.1 h
      obtain ⟨y, hy, h⟩ := bind_eq_ok_iff.1 h
      cases h
      exact ⟨rfl, by rw [← asIv_eq_ok_iff.1 hx, ← asMac_eq_ok_iff.1 hy]; rfl⟩
    case h_3 iv data mac =>
      obtain ⟨x, hx, h⟩ := bind_eq_ok_iff.1 h
      obtain ⟨y, hy, h⟩ := bind_eq_ok_iff.1 h
      cases h
      exact ⟨rfl, by rw [← asIv_eq_ok_iff.1 hx, ← asMac_eq_ok_iff.1 hy]; rfl⟩
    case h_4 data =>
      cases h
      exact ⟨rfl, rfl⟩
    case h_5 data =>
      cases h
      exact ⟨rfl, rfl⟩
    case h_6 data mac =>
      obtain ⟨y, hy, h⟩ := bind_eq_ok_iff.1 h
      cases h
      exact ⟨rfl, by rw [← asMac_eq_ok_iff.1 hy]; rfl⟩
    case h_7 data mac =>
      obtain ⟨y, hy, h⟩ := bind_eq_ok_iff.1 h
      cases h
      exact ⟨rfl, by rw [← asMac_eq_ok_iff.1 hy]; rfl⟩
    case h_8 => cases h
  · rintro ⟨rfl, rfl⟩
    exact ofSegments_segments e

/-! ## Pieces -/

/-- Pieces that are canonical forms are the ones that the encoder writes. -/
theorem filled_encodeChars {pieces : List (List Char)} {found : List Bytes}
    (h : List.Forall₂ (fun piece b => piece ≠ [] ∧ Base64.Canonical piece b) pieces found) :
    pieces = found.map Base64.encodeChars ∧ ∀ b ∈ found, b ≠ [] := by
  induction h with
  | nil => simp
  | @cons piece b _ _ hfirst _ ih =>
      have hpiece := Base64.eq_encodeChars hfirst.2
      have hb : b ≠ [] := by
        rintro rfl
        exact hfirst.1 hpiece
      refine ⟨?_, ?_⟩
      · rw [List.map_cons, ← hpiece, ← ih.1]
      · simpa [hb] using ih.2

theorem forall₂_encodeChars {found : List Bytes} (h : ∀ b ∈ found, b ≠ []) :
    List.Forall₂ (fun piece b => piece ≠ [] ∧ Base64.Canonical piece b)
      (found.map Base64.encodeChars) found := by
  rw [List.forall₂_map_left_iff, List.forall₂_same]
  intro b hb
  exact ⟨Base64.encodeChars_ne_nil (h b hb), Base64.canonical_encodeChars b⟩

theorem data_mem_segments (e : Envelope) : e.data ∈ e.segments := by
  simp [segments]

/-- Digits matter only for the type that they name. -/
theorem ofChars_congr {digits digits' body : List Char} (hdot : '.' ∉ digits) (hdot' : '.' ∉ digits')
    (htype : typeOf digits = typeOf digits') :
    ofChars (digits ++ '.' :: body) = ofChars (digits' ++ '.' :: body) := by
  simp only [ofChars, Text.cutAt?_append hdot, Text.cutAt?_append hdot', htype]

/-- What is read, in terms of the pieces of a text. -/
theorem ofChars_eq_ok_iff {text : List Char} {e : Envelope} :
    ofChars text = .ok e ↔
      ∃ digits pieces, text = digits ++ '.' :: Text.joinWith '|' pieces ∧
        digits ≠ [] ∧ (∀ c ∈ digits, c.isDigit = true) ∧
        digitsValue digits = e.cipherType.raw ∧
        List.Forall₂ (fun piece b => piece ≠ [] ∧ Base64.Canonical piece b) pieces e.segments := by
  constructor
  · intro h
    unfold ofChars at h
    split at h
    case h_1 => cases h
    case h_2 digits body hcut =>
      split at h
      case isTrue => cases h
      case isFalse =>
        obtain ⟨t, htype, h⟩ := bind_eq_ok_iff.1 h
        dsimp only at h
        split at h
        case isTrue => cases h
        case isFalse =>
          obtain ⟨found, hfound, hof⟩ := bind_eq_ok_iff.1 h
          obtain ⟨rfl, rfl⟩ := ofSegments_eq_ok_iff.1 hof
          obtain ⟨hne, hdigits, hvalue⟩ := typeOf_eq_ok_iff.1 htype
          have hpieces := mapM_eq_ok_iff.1 hfound
          refine ⟨digits, Text.splitAt '|' body, ?_, hne, hdigits, hvalue, ?_⟩
          · rw [Text.joinWith_splitAt]
            exact Text.eq_of_cutAt? hcut
          · exact hpieces.imp fun piece b hpiece => segment_eq_ok_iff.1 hpiece
  · rintro ⟨digits, pieces, rfl, hne, hdigits, hvalue, hpieces⟩
    -- The pieces are those of the written form, so only the digits in front may differ from it.
    obtain ⟨hwritten, hfilled⟩ := filled_encodeChars hpieces
    have hdata : e.data ≠ [] := hfilled e.data (data_mem_segments e)
    have htype : typeOf digits = .ok e.cipherType := typeOf_eq_ok_iff.2 ⟨hne, hdigits, hvalue⟩
    have hdot : '.' ∉ digits := by
      intro hmem
      cases hdigits '.' hmem
    have hread := ofChars_chars hdata
    rw [chars, ← hwritten] at hread
    rw [ofChars_congr hdot (dot_not_mem_raw _) (htype.trans (typeOf_raw _).symm)]
    exact hread

/-- The only freedom is the number of zeros in front. -/
theorem ofChars_eq_ok_iff_zeros {text : List Char} {e : Envelope} :
    ofChars text = .ok e ↔ e.data ≠ [] ∧ ∃ zeros, text = List.replicate zeros '0' ++ e.chars := by
  rw [ofChars_eq_ok_iff]
  constructor
  · rintro ⟨digits, pieces, rfl, hne, hdigits, hvalue, hpieces⟩
    obtain ⟨hwritten, hfilled⟩ := filled_encodeChars hpieces
    have hlt : digitsValue digits < 10 := by
      rw [hvalue]
      exact raw_lt e.cipherType
    -- The number is below ten, so all digits before the last are zeros.
    obtain ⟨zeros, hzeros⟩ := eq_zeros_of_digitsValue_lt hne hdigits hlt
    refine ⟨hfilled e.data (data_mem_segments e), zeros, ?_⟩
    rw [chars, toList_raw, ← hvalue, ← hwritten, ← List.append_assoc, ← hzeros]
  · rintro ⟨hdata, zeros, rfl⟩
    have hfilled : ∀ b ∈ e.segments, b ≠ [] := fun b hb => ne_nil_of_mem_segments hdata hb
    refine ⟨List.replicate zeros '0' ++ [Char.ofNat (48 + e.cipherType.raw)],
      e.segments.map Base64.encodeChars, ?_, by simp, ?_, ?_, forall₂_encodeChars hfilled⟩
    · rw [chars, toList_raw, List.append_assoc]
    · intro c hc
      rcases List.mem_append.1 hc with hzero | hlast
      · rw [List.eq_of_mem_replicate hzero]
        rfl
      · rw [List.mem_singleton.1 hlast]
        exact isDigit_raw e.cipherType
    · rw [digitsValue_zeros, digitsValue_raw]

/-! ## Texts -/

/-- The rules of the format: digits that name a type, and pieces between bars that hold the segments of
that type. -/
structure Spelling (t : CipherType) (digits : List Char) (pieces : List (List Char))
    (found : List Bytes) : Prop where
  nonempty : digits ≠ []
  decimal : ∀ c ∈ digits, c.isDigit = true
  names : digitsValue digits = t.raw
  count : pieces.length = t.segmentCount
  filled : ∀ piece ∈ pieces, piece ≠ []
  canonical : List.Forall₂ Base64.Canonical pieces found
  iv : t.hasIv = true → found.head?.map List.length = some ivLength
  mac : t.hasMac = true → found.getLast?.map List.length = some macLength

/-- The text with the given digits and pieces. -/
def spelled (digits : List Char) (pieces : List (List Char)) : String :=
  String.ofList (digits ++ '.' :: Text.joinWith '|' pieces)

/-- The lengths that the rules ask for are those of the parts of an envelope. -/
theorem exists_segments {t : CipherType} {found : List Bytes} (hcount : found.length = t.segmentCount)
    (hiv : t.hasIv = true → found.head?.map List.length = some ivLength)
    (hmac : t.hasMac = true → found.getLast?.map List.length = some macLength) :
    ∃ e : Envelope, e.cipherType = t ∧ e.segments = found := by
  -- The type tells how many segments there are and which of them has a fixed length.
  cases t with
  | aesCbc256 =>
      obtain ⟨iv, data, rfl⟩ := List.length_eq_two.1 hcount
      have hiv' : iv.length = 16 := by simpa [ivLength] using hiv rfl
      exact ⟨.aesCbc256 ⟨iv, hiv'⟩ data, rfl, rfl⟩
  | aesCbc128Hmac =>
      obtain ⟨iv, data, mac, rfl⟩ := List.length_eq_three.1 hcount
      have hiv' : iv.length = 16 := by simpa [ivLength] using hiv rfl
      have hmac' : mac.length = 32 := by simpa [macLength] using hmac rfl
      exact ⟨.aesCbc128Hmac ⟨iv, hiv'⟩ data ⟨mac, hmac'⟩, rfl, rfl⟩
  | aesCbc256Hmac =>
      obtain ⟨iv, data, mac, rfl⟩ := List.length_eq_three.1 hcount
      have hiv' : iv.length = 16 := by simpa [ivLength] using hiv rfl
      have hmac' : mac.length = 32 := by simpa [macLength] using hmac rfl
      exact ⟨.aesCbc256Hmac ⟨iv, hiv'⟩ data ⟨mac, hmac'⟩, rfl, rfl⟩
  | rsaOaepSha256 =>
      obtain ⟨data, rfl⟩ := List.length_eq_one_iff.1 hcount
      exact ⟨.rsaOaepSha256 data, rfl, rfl⟩
  | rsaOaepSha1 =>
      obtain ⟨data, rfl⟩ := List.length_eq_one_iff.1 hcount
      exact ⟨.rsaOaepSha1 data, rfl, rfl⟩
  | rsaOaepSha256Hmac =>
      obtain ⟨data, mac, rfl⟩ := List.length_eq_two.1 hcount
      have hmac' : mac.length = 32 := by simpa [macLength] using hmac rfl
      exact ⟨.rsaOaepSha256Hmac data ⟨mac, hmac'⟩, rfl, rfl⟩
  | rsaOaepSha1Hmac =>
      obtain ⟨data, mac, rfl⟩ := List.length_eq_two.1 hcount
      have hmac' : mac.length = 32 := by simpa [macLength] using hmac rfl
      exact ⟨.rsaOaepSha1Hmac data ⟨mac, hmac'⟩, rfl, rfl⟩

theorem length_iv_segments (e : Envelope) (h : e.cipherType.hasIv = true) :
    e.segments.head?.map List.length = some ivLength := by
  cases e with
  | aesCbc256 iv _ | aesCbc128Hmac iv _ _ | aesCbc256Hmac iv _ _ => exact congrArg some iv.length_eq
  | rsaOaepSha256 | rsaOaepSha1 | rsaOaepSha256Hmac | rsaOaepSha1Hmac => cases h

theorem length_mac_segments (e : Envelope) (h : e.cipherType.hasMac = true) :
    e.segments.getLast?.map List.length = some macLength := by
  cases e with
  | aesCbc128Hmac _ _ mac | aesCbc256Hmac _ _ mac => exact congrArg some mac.length_eq
  | rsaOaepSha256Hmac _ mac | rsaOaepSha1Hmac _ mac => exact congrArg some mac.length_eq
  | aesCbc256 | rsaOaepSha256 | rsaOaepSha1 => cases h

theorem spelling_segments_iff {e : Envelope} {digits : List Char} {pieces : List (List Char)} :
    Spelling e.cipherType digits pieces e.segments ↔
      digits ≠ [] ∧ (∀ c ∈ digits, c.isDigit = true) ∧ digitsValue digits = e.cipherType.raw ∧
        List.Forall₂ (fun piece b => piece ≠ [] ∧ Base64.Canonical piece b) pieces e.segments := by
  rw [List.forall₂_and_left]
  constructor
  · intro h
    exact ⟨h.nonempty, h.decimal, h.names, h.filled, h.canonical⟩
  · rintro ⟨hne, hdigits, hvalue, hfilled, hcanonical⟩
    have hcount := hcanonical.length_eq.trans (length_segments e)
    exact ⟨hne, hdigits, hvalue, hcount, hfilled, hcanonical, length_iv_segments e,
      length_mac_segments e⟩

theorem parse_eq_ok_iff_ofChars {text : String} {e : Envelope} :
    parse text = .ok e ↔ ofChars text.toList = .ok e :=
  mapError_eq_ok_iff

theorem parse_eq_ok_iff {text : String} {e : Envelope} :
    parse text = .ok e ↔ ∃ digits pieces, text = spelled digits pieces ∧
      Spelling e.cipherType digits pieces e.segments := by
  rw [parse_eq_ok_iff_ofChars, ofChars_eq_ok_iff]
  simp only [spelling_segments_iff, spelled, ← String.toList_inj, String.toList_ofList]

theorem parse_eq_ok_iff_zeros {text : String} {e : Envelope} :
    parse text = .ok e ↔
      e.data ≠ [] ∧ ∃ zeros, text.toList = List.replicate zeros '0' ++ e.toText.toList := by
  rw [parse_eq_ok_iff_ofChars, ofChars_eq_ok_iff_zeros, toText, String.toList_ofList]

/-- The digits of a type are replaced by its number, and nothing else. -/
theorem toText_of_spelling {e : Envelope} {digits : List Char} {pieces : List (List Char)}
    (h : Spelling e.cipherType digits pieces e.segments) :
    e.toText = spelled [Char.ofNat (48 + digitsValue digits)] pieces := by
  obtain ⟨-, -, hvalue, hpieces⟩ := spelling_segments_iff.1 h
  have hwritten := (filled_encodeChars hpieces).1
  rw [toText, chars, toList_raw, ← hvalue, ← hwritten, spelled]

/-- A text is read exactly if it follows the rules of the format; the text that is written back has one
digit in front and is the same from there on, so texts of one envelope differ in zeros only, and the
written text of an envelope that holds data is read as that envelope. -/
theorem parse_grammar :
    (∀ text, (∃ e, parse text = .ok e) ↔
      ∃ t digits pieces found, text = spelled digits pieces ∧ Spelling t digits pieces found) ∧
    (∀ text e, parse text = .ok e → ∃ digits pieces, text = spelled digits pieces ∧
      Spelling e.cipherType digits pieces e.segments ∧
      e.toText = spelled [Char.ofNat (48 + digitsValue digits)] pieces) ∧
    (∀ text text' e, parse text = .ok e → parse text' = .ok e → ∃ zeros zeros' common,
      text = String.ofList (List.replicate zeros '0' ++ common) ∧
      text' = String.ofList (List.replicate zeros' '0' ++ common)) ∧
    (∀ e, e.data ≠ [] → parse e.toText = .ok e) := by
  refine ⟨?_, ?_, ?_, fun e => parse_toText⟩
  · intro text
    constructor
    · rintro ⟨e, hparse⟩
      obtain ⟨digits, pieces, htext, hspelling⟩ := parse_eq_ok_iff.1 hparse
      exact ⟨e.cipherType, digits, pieces, e.segments, htext, hspelling⟩
    · rintro ⟨t, digits, pieces, found, htext, hspelling⟩
      -- Number and lengths of the pieces fit the type, so they are the segments of an envelope.
      have hcount := hspelling.canonical.length_eq.symm.trans hspelling.count
      obtain ⟨e, rfl, rfl⟩ := exists_segments hcount hspelling.iv hspelling.mac
      exact ⟨e, parse_eq_ok_iff.2 ⟨digits, pieces, htext, hspelling⟩⟩
  · intro text e hparse
    obtain ⟨digits, pieces, htext, hspelling⟩ := parse_eq_ok_iff.1 hparse
    exact ⟨digits, pieces, htext, hspelling, toText_of_spelling hspelling⟩
  · intro text text' e hparse hparse'
    obtain ⟨-, zeros, htext⟩ := parse_eq_ok_iff_zeros.1 hparse
    obtain ⟨-, zeros', htext'⟩ := parse_eq_ok_iff_zeros.1 hparse'
    refine ⟨zeros, zeros', e.toText.toList, ?_, ?_⟩
    · rw [← htext, String.ofList_toList]
    · rw [← htext', String.ofList_toList]

/-- An envelope of the first type, written with three digits and with one. -/
theorem parse_grammar_zeros :
    ∃ e, parse "000.AAAAAAAAAAAAAAAAAAAAAA==|AA==" = .ok e ∧
      parse "0.AAAAAAAAAAAAAAAAAAAAAA==|AA==" = .ok e ∧
      (∃ digits pieces, "000.AAAAAAAAAAAAAAAAAAAAAA==|AA==" = spelled digits pieces ∧
        Spelling e.cipherType digits pieces e.segments ∧
        e.toText = spelled [Char.ofNat (48 + digitsValue digits)] pieces) ∧
      (∃ zeros zeros' common,
        "000.AAAAAAAAAAAAAAAAAAAAAA==|AA==" =
          String.ofList (List.replicate zeros '0' ++ common) ∧
        "0.AAAAAAAAAAAAAAAAAAAAAA==|AA==" =
          String.ofList (List.replicate zeros' '0' ++ common)) ∧
      e.data ≠ [] ∧ parse e.toText = .ok e := by
  have hlong : parse "000.AAAAAAAAAAAAAAAAAAAAAA==|AA==" =
      .ok (.aesCbc256 (Block.fit 16 []) [0]) := by
    decide +kernel
  have hshort : parse "0.AAAAAAAAAAAAAAAAAAAAAA==|AA==" =
      .ok (.aesCbc256 (Block.fit 16 []) [0]) := by
    decide +kernel
  have hdata : (Envelope.aesCbc256 (Block.fit 16 []) [0]).data ≠ [] := by decide
  refine ⟨_, hlong, hshort, ?_, ?_, hdata, ?_⟩
  · exact parse_grammar.2.1 _ _ hlong
  · exact parse_grammar.2.2.1 _ _ _ hlong hshort
  · exact parse_grammar.2.2.2 _ hdata

end Envelope
end PasswordVault
