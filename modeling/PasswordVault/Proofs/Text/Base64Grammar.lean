import PasswordVault.Proofs.Bytes
import PasswordVault.Proofs.Text.Base64

/-!
# Base64 — the texts that are read

`Base64.Canonical` gives the rules of the format on its own terms: four symbols spell the 24 bits of
three bytes, at the end two or three of them with padding marks spell one or two bytes, and no bit is
set that no byte uses.

* `Base64.canonical_iff`: the encoder writes exactly these texts.
* `Base64.decode_eq_ok_iff`: the decoder accepts exactly these texts.
-/

namespace PasswordVault

/-! ## Texts and their bytes -/

theorem Bytes.ofText_injective : Function.Injective Bytes.ofText := by
  intro s t h
  have hread := congrArg Bytes.text? h
  rw [Bytes.text?_ofText, Bytes.text?_ofText] at hread
  exact Option.some.inj hread

theorem Bytes.toNat_ofNat_of_lt {n : Nat} (h : n < 256) : (UInt8.ofNat n).toNat = n := by
  rw [UInt8.toNat_ofNat']
  exact Nat.mod_eq_of_lt h

namespace Base64

/-! ## The format -/

/-- The symbols in the order of the numbers that they stand for. -/
def alphabet : List Char :=
  "ABCDEFGHIJKLMNOPQRSTUVWXYZabcdefghijklmnopqrstuvwxyz0123456789+/".toList

/-- Whether a character is the symbol of a number. -/
def IsSymbol (c : Char) (n : Nat) : Prop := alphabet[n]? = some c

/-- A text in padded base64 without spare bits, and the bytes that it spells. -/
inductive Canonical : List Char → Bytes → Prop where
  | nil : Canonical [] []
  | one {s t : Char} {x y : Nat} {a : UInt8} :
      IsSymbol s x → IsSymbol t y → x * 64 + y = a.toNat * 16 → Canonical [s, t, '=', '='] [a]
  | two {s t u : Char} {x y z : Nat} {a b : UInt8} :
      IsSymbol s x → IsSymbol t y → IsSymbol u z →
      (x * 64 + y) * 64 + z = (a.toNat * 256 + b.toNat) * 4 → Canonical [s, t, u, '='] [a, b]
  | group {s t u v : Char} {x y z w : Nat} {a b c : UInt8} {rest : List Char} {bytes : Bytes} :
      IsSymbol s x → IsSymbol t y → IsSymbol u z → IsSymbol v w →
      ((x * 64 + y) * 64 + z) * 64 + w = (a.toNat * 256 + b.toNat) * 256 + c.toNat →
      Canonical rest bytes → Canonical (s :: t :: u :: v :: rest) (a :: b :: c :: bytes)

theorem isSymbol_symbol : ∀ n < 64, alphabet[n]? = some (symbol n) := by
  decide

theorem isSymbol_iff {c : Char} {n : Nat} : IsSymbol c n ↔ n < 64 ∧ c = symbol n := by
  constructor
  · intro h
    have hn : n < 64 := (List.getElem?_eq_some_iff.1 h).1
    have hsymbol : some (symbol n) = some c := (isSymbol_symbol n hn).symm.trans h
    exact ⟨hn, (Option.some.inj hsymbol).symm⟩
  · rintro ⟨hn, rfl⟩
    exact isSymbol_symbol n hn

/-! ## The encoder -/

/-- The encoder writes the canonical form. -/
theorem canonical_encodeChars (b : Bytes) : Canonical (encodeChars b) b := by
  have hbyte : ∀ x : UInt8, x.toNat < 256 := fun x => x.toNat_lt
  have hwrites : ∀ n < 64, IsSymbol (symbol n) n := fun n hn => isSymbol_iff.2 ⟨hn, rfl⟩
  -- Three bytes are four symbols; one or two that are left at the end are padded.
  fun_induction encodeChars b with
  | case1 => exact .nil
  | case2 a =>
      have ha := hbyte a
      have hs := hwrites (a.toNat / 4) (by omega)
      have ht := hwrites (a.toNat % 4 * 16) (by omega)
      exact .one hs ht (by omega)
  | case3 a b =>
      have ha := hbyte a
      have hb := hbyte b
      have hs := hwrites (a.toNat / 4) (by omega)
      have ht := hwrites (a.toNat % 4 * 16 + b.toNat / 16) (by omega)
      have hu := hwrites (b.toNat % 16 * 4) (by omega)
      exact .two hs ht hu (by omega)
  | case4 a b c rest ih =>
      have ha := hbyte a
      have hb := hbyte b
      have hc := hbyte c
      have hs := hwrites (a.toNat / 4) (by omega)
      have ht := hwrites (a.toNat % 4 * 16 + b.toNat / 16) (by omega)
      have hu := hwrites (b.toNat % 16 * 4 + c.toNat / 64) (by omega)
      have hv := hwrites (c.toNat % 64) (by omega)
      exact .group hs ht hu hv (by omega) ih

/-- The bits of the bytes leave no choice of symbols. -/
theorem eq_encodeChars {cs : List Char} {b : Bytes} (h : Canonical cs b) : cs = encodeChars b := by
  have hbyte : ∀ x : UInt8, x.toNat < 256 := fun x => x.toNat_lt
  -- Spare bits are zero, so that the numbers of the symbols follow from the bytes.
  induction h with
  | nil => rfl
  | @one s t x y a hs ht hbits =>
      obtain ⟨hx, rfl⟩ := isSymbol_iff.1 hs
      obtain ⟨hy, rfl⟩ := isSymbol_iff.1 ht
      have ha := hbyte a
      have hfirst : x = a.toNat / 4 := by omega
      have hsecond : y = a.toNat % 4 * 16 := by omega
      rw [encodeChars, hfirst, hsecond]
  | @two s t u x y z a b hs ht hu hbits =>
      obtain ⟨hx, rfl⟩ := isSymbol_iff.1 hs
      obtain ⟨hy, rfl⟩ := isSymbol_iff.1 ht
      obtain ⟨hz, rfl⟩ := isSymbol_iff.1 hu
      have ha := hbyte a
      have hb := hbyte b
      have hfirst : x = a.toNat / 4 := by omega
      have hsecond : y = a.toNat % 4 * 16 + b.toNat / 16 := by omega
      have hthird : z = b.toNat % 16 * 4 := by omega
      rw [encodeChars, hfirst, hsecond, hthird]
  | @group s t u v x y z w a b c rest bytes hs ht hu hv hbits _ ih =>
      obtain ⟨hx, rfl⟩ := isSymbol_iff.1 hs
      obtain ⟨hy, rfl⟩ := isSymbol_iff.1 ht
      obtain ⟨hz, rfl⟩ := isSymbol_iff.1 hu
      obtain ⟨hw, rfl⟩ := isSymbol_iff.1 hv
      have ha := hbyte a
      have hb := hbyte b
      have hc := hbyte c
      have hfirst : x = a.toNat / 4 := by omega
      have hsecond : y = a.toNat % 4 * 16 + b.toNat / 16 := by omega
      have hthird : z = b.toNat % 16 * 4 + c.toNat / 64 := by omega
      have hfourth : w = c.toNat % 64 := by omega
      rw [encodeChars, hfirst, hsecond, hthird, hfourth, ih]

/-- A byte string has exactly one canonical text. -/
theorem canonical_iff {cs : List Char} {b : Bytes} : Canonical cs b ↔ cs = encodeChars b := by
  constructor
  · exact eq_encodeChars
  · rintro rfl
    exact canonical_encodeChars b

/-! ## The decoder -/

/-- A byte is read as a number only if it is the symbol of that number. -/
theorem isSymbol_of_value? {b : UInt8} {n : Nat} (h : value? b = some n) :
    n < 64 ∧ IsSymbol (symbol n) n ∧ b = UInt8.ofNat (symbol n).toNat := by
  have hall : ∀ m < 256, ∀ n ∈ value? (UInt8.ofNat m),
      n < 64 ∧ UInt8.ofNat m = UInt8.ofNat (symbol n).toNat := by
    decide +kernel
  have hb := hall b.toNat b.toNat_lt n
  rw [UInt8.ofNat_toNat] at hb
  obtain ⟨hn, hbyte⟩ := hb h
  exact ⟨hn, isSymbol_iff.2 ⟨hn, rfl⟩, hbyte⟩

/-- The bytes that the decoder accepts are those of a canonical text. -/
theorem exists_canonical_of_decodeBytes? {bytes b : Bytes} (h : decodeBytes? bytes = some b) :
    ∃ cs, Canonical cs b ∧ bytes = cs.map fun c => UInt8.ofNat c.toNat := by
  have hpad : pad = UInt8.ofNat '='.toNat := by decide
  -- The cases are those of the decoder: nothing left, the last group, a group before others.
  fun_induction decodeBytes? bytes generalizing b with
  | case1 =>
      cases h
      exact ⟨[], .nil, rfl⟩
  | case2 s t u v =>
      simp only [Option.bind_eq_bind, Option.bind_eq_some_iff] at h
      obtain ⟨x, hx, y, hy, h⟩ := h
      obtain ⟨hx64, hs, rfl⟩ := isSymbol_of_value? hx
      obtain ⟨hy64, ht, rfl⟩ := isSymbol_of_value? hy
      have ha := Bytes.toNat_ofNat_of_lt (n := x * 4 + y / 16) (by omega)
      split at h
      case isTrue hmarks =>
        obtain ⟨rfl, rfl⟩ := hmarks
        split at h
        case isFalse => cases h
        case isTrue hspare =>
          cases h
          refine ⟨[symbol x, symbol y, '=', '='], .one hs ht ?_, by rw [hpad]; rfl⟩
          omega
      case isFalse =>
        simp only [Option.bind_eq_some_iff] at h
        obtain ⟨z, hz, h⟩ := h
        obtain ⟨hz64, hu, rfl⟩ := isSymbol_of_value? hz
        have hb := Bytes.toNat_ofNat_of_lt (n := y % 16 * 16 + z / 4) (by omega)
        split at h
        case isTrue hmark =>
          subst hmark
          split at h
          case isFalse => cases h
          case isTrue hspare =>
            cases h
            refine ⟨[symbol x, symbol y, symbol z, '='], .two hs ht hu ?_, by rw [hpad]; rfl⟩
            omega
        case isFalse =>
          simp only [Option.bind_eq_some_iff] at h
          obtain ⟨w, hw, h⟩ := h
          obtain ⟨hw64, hv, rfl⟩ := isSymbol_of_value? hw
          have hc := Bytes.toNat_ofNat_of_lt (n := z % 4 * 64 + w) (by omega)
          cases h
          refine ⟨[symbol x, symbol y, symbol z, symbol w], .group hs ht hu hv ?_ .nil, rfl⟩
          omega
  | case3 s t u v rest hrest ih =>
      simp only [Option.bind_eq_bind, Option.bind_eq_some_iff] at h
      obtain ⟨x, hx, y, hy, z, hz, w, hw, bytes, hbytes, h⟩ := h
      obtain ⟨hx64, hs, rfl⟩ := isSymbol_of_value? hx
      obtain ⟨hy64, ht, rfl⟩ := isSymbol_of_value? hy
      obtain ⟨hz64, hu, rfl⟩ := isSymbol_of_value? hz
      obtain ⟨hw64, hv, rfl⟩ := isSymbol_of_value? hw
      obtain ⟨cs, hcs, rfl⟩ := ih hbytes
      cases h
      have ha := Bytes.toNat_ofNat_of_lt (n := x * 4 + y / 16) (by omega)
      have hb := Bytes.toNat_ofNat_of_lt (n := y % 16 * 16 + z / 4) (by omega)
      have hc := Bytes.toNat_ofNat_of_lt (n := z % 4 * 64 + w) (by omega)
      refine ⟨symbol x :: symbol y :: symbol z :: symbol w :: cs, .group hs ht hu hv ?_ hcs, rfl⟩
      omega
  | case4 => cases h

/-- The decoder accepts the canonical texts and no others. -/
theorem decode_eq_ok_iff {text : String} {b : Bytes} :
    decode text = .ok b ↔ Canonical text.toList b := by
  constructor
  · intro h
    cases hfound : decodeBytes? (Bytes.ofText text) with
    | none => simp [decode, hfound] at h
    | some found =>
      simp only [decode, hfound, Except.ok.injEq] at h
      subst h
      obtain ⟨cs, hcs, hbytes⟩ := exists_canonical_of_decodeBytes? hfound
      have hascii : ∀ c ∈ cs, c.toNat < 128 := by
        intro c hc
        rw [eq_encodeChars hcs] at hc
        exact toNat_lt_of_mem_encodeChars hc
      -- The bytes of the text are those of the canonical text, so the two are the same.
      have hsame : Bytes.ofText text = Bytes.ofText (String.ofList cs) := by
        rw [hbytes, Bytes.ofText_ofList_of_ascii hascii]
      have htext : text = String.ofList cs := Bytes.ofText_injective hsame
      rw [htext, String.toList_ofList]
      exact hcs
  · intro h
    have htext : text = String.ofList (encodeChars b) := by
      rw [← eq_encodeChars h, String.ofList_toList]
    rw [htext]
    exact decode_ofList_encodeChars b

end Base64
end PasswordVault
