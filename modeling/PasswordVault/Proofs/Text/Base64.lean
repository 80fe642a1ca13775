import PasswordVault.Base64

/-!
# Base64 — reading what was written

Every byte string is read back from its canonical text (`Base64.decode_encode`). Symbols are ASCII,
so the bytes of a written text are its characters one by one (`Bytes.ofText_ofList_of_ascii`); whole
groups of four symbols are then read independently of what follows them.
-/

namespace PasswordVault

/-! ## The bytes of ASCII texts -/

/-- The bytes of a text are those of its characters, one after the other. -/
theorem Bytes.ofText_ofList (cs : List Char) :
    Bytes.ofText (String.ofList cs) = cs.flatMap String.utf8EncodeChar := by
  simp [Bytes.ofText, String.toUTF8, List.utf8Encode]

/-- In a text of ASCII every character is one byte. -/
theorem Bytes.ofText_ofList_of_ascii {cs : List Char} (hascii : ∀ c ∈ cs, c.toNat < 128) :
    Bytes.ofText (String.ofList cs) = cs.map fun c => UInt8.ofNat c.toNat := by
  rw [Bytes.ofText_ofList]
  induction cs with
  | nil => rfl
  | cons c rest ih =>
      have hvalue : c.val ≤ 127 := by
        have hlt : c.val.toNat < 128 := hascii c (by simp)
        rw [UInt32.le_iff_toNat_le]
        exact Nat.le_of_lt_succ hlt
      have hrest := ih fun d hd => hascii d (by simp [hd])
      have hone := String.utf8EncodeChar_eq_singleton (Char.utf8Size_eq_one_iff.2 hvalue)
      rw [List.flatMap_cons, hone, hrest, List.map_cons, List.singleton_append]
      exact congrArg (· :: _) rfl

namespace Base64

/-! ## Symbols -/

theorem toNat_symbol_lt : ∀ n < 64, (symbol n).toNat < 128 := by
  decide

theorem value?_symbol : ∀ n < 64, value? (UInt8.ofNat (symbol n).toNat) = some n := by
  decide

/-- Neither separator of an envelope is a symbol. -/
theorem symbol_ne : ∀ n < 64, symbol n ≠ '.' ∧ symbol n ≠ '|' := by
  decide

/-- A symbol is no padding mark. -/
theorem ne_pad_of_value? {b : UInt8} {n : Nat} (h : value? b = some n) : b ≠ pad := by
  rintro rfl
  have hpad : value? pad = none := by decide
  rw [hpad] at h
  cases h

/-- The characters of a canonical text: symbols and padding marks. -/
theorem mem_encodeChars {c : Char} {b : Bytes} (h : c ∈ encodeChars b) :
    c = '=' ∨ ∃ n < 64, c = symbol n := by
  have hbyte : ∀ x : UInt8, x.toNat < 256 := fun x => x.toNat_lt
  have hmark : ∀ n < 64, ∃ m < 64, symbol n = symbol m := fun n hn => ⟨n, hn, rfl⟩
  -- The cases are those of the encoder: nothing left, one byte, two bytes, a whole group.
  fun_induction encodeChars b with
  | case1 => simp at h
  | case2 x =>
      have hx := hbyte x
      simp only [List.mem_cons, List.not_mem_nil, or_false] at h
      rcases h with rfl | rfl | rfl | rfl
      · exact Or.inr (hmark _ (by omega))
      · exact Or.inr (hmark _ (by omega))
      · exact Or.inl rfl
      · exact Or.inl rfl
  | case3 x y =>
      have hx := hbyte x
      have hy := hbyte y
      simp only [List.mem_cons, List.not_mem_nil, or_false] at h
      rcases h with rfl | rfl | rfl | rfl
      · exact Or.inr (hmark _ (by omega))
      · exact Or.inr (hmark _ (by omega))
      · exact Or.inr (hmark _ (by omega))
      · exact Or.inl rfl
  | case4 x y z rest ih =>
      have hx := hbyte x
      have hy := hbyte y
      have hz := hbyte z
      simp only [List.mem_cons] at h
      rcases h with rfl | rfl | rfl | rfl | h
      · exact Or.inr (hmark _ (by omega))
      · exact Or.inr (hmark _ (by omega))
      · exact Or.inr (hmark _ (by omega))
      · exact Or.inr (hmark _ (by omega))
      · exact ih h

theorem toNat_lt_of_mem_encodeChars {c : Char} {b : Bytes} (h : c ∈ encodeChars b) :
    c.toNat < 128 := by
  rcases mem_encodeChars h with rfl | ⟨n, hn, rfl⟩
  · decide
  · exact toNat_symbol_lt n hn

/-- A canonical text holds neither separator of an envelope. -/
theorem ne_separator_of_mem_encodeChars {c : Char} {b : Bytes} (h : c ∈ encodeChars b) :
    c ≠ '.' ∧ c ≠ '|' := by
  rcases mem_encodeChars h with rfl | ⟨n, hn, rfl⟩
  · decide
  · exact symbol_ne n hn

theorem encodeChars_ne_nil {b : Bytes} (h : b ≠ []) : encodeChars b ≠ [] := by
  fun_cases encodeChars b with
  | case1 => exact absurd rfl h
  | case2 => simp
  | case3 => simp
  | case4 => simp

/-! ## Groups -/

/-- A group of four symbols is read on its own, whether or not more follows. -/
theorem decodeBytes?_group {s t u v : UInt8} {x y z w : Nat} (hs : value? s = some x)
    (ht : value? t = some y) (hu : value? u = some z) (hv : value? v = some w) (tail : Bytes) :
    decodeBytes? (s :: t :: u :: v :: tail) = (decodeBytes? tail).map fun bytes =>
      UInt8.ofNat (x * 4 + y / 16) :: UInt8.ofNat (y % 16 * 16 + z / 4)
        :: UInt8.ofNat (z % 4 * 64 + w) :: bytes := by
  -- Only at the end of the text could a padding mark stand in a group.
  cases tail with
  | nil => simp [decodeBytes?, hs, ht, hu, hv, ne_pad_of_value? hu, ne_pad_of_value? hv]
  | cons b rest =>
      cases hrest : decodeBytes? (b :: rest) with
      | none => simp [decodeBytes?, hs, ht, hu, hv, hrest]
      | some bytes => simp [decodeBytes?, hs, ht, hu, hv, hrest]

/-- A group that ends in one padding mark holds two bytes. -/
theorem decodeBytes?_group_two {s t u : UInt8} {x y z : Nat} (hs : value? s = some x)
    (ht : value? t = some y) (hu : value? u = some z) (hspare : z % 4 = 0) :
    decodeBytes? [s, t, u, pad] =
      some [UInt8.ofNat (x * 4 + y / 16), UInt8.ofNat (y % 16 * 16 + z / 4)] := by
  simp [decodeBytes?, hs, ht, hu, hspare, ne_pad_of_value? hu]

/-- A group that ends in two padding marks holds one byte. -/
theorem decodeBytes?_group_one {s t : UInt8} {x y : Nat} (hs : value? s = some x)
    (ht : value? t = some y) (hspare : y % 16 = 0) :
    decodeBytes? [s, t, pad, pad] = some [UInt8.ofNat (x * 4 + y / 16)] := by
  simp [decodeBytes?, hs, ht, hspare]

/-- A byte is the number it spells, however that number was put together. -/
theorem ofNat_eq_of_toNat_eq {n : Nat} {b : UInt8} (h : n = b.toNat) : UInt8.ofNat n = b := by
  rw [h, UInt8.ofNat_toNat]

/-- The symbols of a byte string decode to it. -/
theorem decodeBytes?_map_encodeChars (b : Bytes) :
    decodeBytes? ((encodeChars b).map fun c => UInt8.ofNat c.toNat) = some b := by
  have hbyte : ∀ x : UInt8, x.toNat < 256 := fun x => x.toNat_lt
  have hpad : UInt8.ofNat '='.toNat = pad := by decide
  -- The induction follows the encoder; each case puts the bits of its symbols together again.
  fun_induction encodeChars b with
  | case1 => rfl
  | case2 x =>
      have hx := hbyte x
      have h0 := value?_symbol (x.toNat / 4) (by omega)
      have h1 := value?_symbol (x.toNat % 4 * 16) (by omega)
      have hfirst : UInt8.ofNat (x.toNat / 4 * 4 + x.toNat % 4 * 16 / 16) = x :=
        ofNat_eq_of_toNat_eq (by omega)
      simp only [List.map_cons, List.map_nil, hpad]
      rw [decodeBytes?_group_one h0 h1 (by omega), hfirst]
  | case3 x y =>
      have hx := hbyte x
      have hy := hbyte y
      have h0 := value?_symbol (x.toNat / 4) (by omega)
      have h1 := value?_symbol (x.toNat % 4 * 16 + y.toNat / 16) (by omega)
      have h2 := value?_symbol (y.toNat % 16 * 4) (by omega)
      have hfirst : UInt8.ofNat (x.toNat / 4 * 4 + (x.toNat % 4 * 16 + y.toNat / 16) / 16) = x :=
        ofNat_eq_of_toNat_eq (by omega)
      have hsecond :
          UInt8.ofNat ((x.toNat % 4 * 16 + y.toNat / 16) % 16 * 16 + y.toNat % 16 * 4 / 4) = y :=
        ofNat_eq_of_toNat_eq (by omega)
      simp only [List.map_cons, List.map_nil, hpad]
      rw [decodeBytes?_group_two h0 h1 h2 (by omega), hfirst, hsecond]
  | case4 x y z rest ih =>
      have hx := hbyte x
      have hy := hbyte y
      have hz := hbyte z
      have h0 := value?_symbol (x.toNat / 4) (by omega)
      have h1 := value?_symbol (x.toNat % 4 * 16 + y.toNat / 16) (by omega)
      have h2 := value?_symbol (y.toNat % 16 * 4 + z.toNat / 64) (by omega)
      have h3 := value?_symbol (z.toNat % 64) (by omega)
      have hfirst : UInt8.ofNat (x.toNat / 4 * 4 + (x.toNat % 4 * 16 + y.toNat / 16) / 16) = x :=
        ofNat_eq_of_toNat_eq (by omega)
      have hsecond : UInt8.ofNat ((x.toNat % 4 * 16 + y.toNat / 16) % 16 * 16 +
          (y.toNat % 16 * 4 + z.toNat / 64) / 4) = y :=
        ofNat_eq_of_toNat_eq (by omega)
      have hthird :
          UInt8.ofNat ((y.toNat % 16 * 4 + z.toNat / 64) % 4 * 64 + z.toNat % 64) = z :=
        ofNat_eq_of_toNat_eq (by omega)
      simp only [List.map_cons]
      rw [decodeBytes?_group h0 h1 h2 h3, ih, hfirst, hsecond, hthird]
      rfl

/-! ## Texts -/

theorem decode_ofList_encodeChars (b : Bytes) : decode (String.ofList (encodeChars b)) = .ok b := by
  have hascii : ∀ c ∈ encodeChars b, c.toNat < 128 := fun c hc => toNat_lt_of_mem_encodeChars hc
  simp only [decode, Bytes.ofText_ofList_of_ascii hascii, decodeBytes?_map_encodeChars]

/-- Every byte string is read back from its canonical text. -/
theorem decode_encode (b : Bytes) : decode (encode b) = .ok b := by
  rw [encode]
  exact decode_ofList_encodeChars b

end Base64
end PasswordVault
