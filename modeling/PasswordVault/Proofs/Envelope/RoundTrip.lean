import PasswordVault.Envelope
import PasswordVault.Proofs.Bytes
import PasswordVault.Proofs.Outcome
import PasswordVault.Proofs.Text.Base64

/-!
# Envelopes — reading what was written

The text of an envelope is read back as that envelope (`Envelope.parse_toText`), as long as it holds
data; an empty segment would be refused. Neither separator is a digit or a base64 symbol, so a text
falls apart exactly into the pieces that it was put together from.
-/

namespace PasswordVault

/-! ## Pieces of a text -/

namespace Text

variable {sep : Char}

theorem cutAt?_append {before after : List Char} (h : sep ∉ before) :
    cutAt? sep (before ++ sep :: after) = some (before, after) := by
  induction before with
  | nil => simp [cutAt?]
  | cons c rest ih =>
      have hc : c ≠ sep := fun heq => h (by simp [heq])
      have hrest : sep ∉ rest := fun hmem => h (by simp [hmem])
      simp [cutAt?, hc, ih hrest]

theorem splitAt_of_not_mem {cs : List Char} (h : sep ∉ cs) : splitAt sep cs = [cs] := by
  induction cs with
  | nil => rfl
  | cons c rest ih =>
      have hc : c ≠ sep := fun heq => h (by simp [heq])
      have hrest : sep ∉ rest := fun hmem => h (by simp [hmem])
      simp [splitAt, hc, ih hrest]

theorem splitAt_append {piece rest : List Char} (h : sep ∉ piece) :
    splitAt sep (piece ++ sep :: rest) = piece :: splitAt sep rest := by
  induction piece with
  | nil => simp [splitAt]
  | cons c tail ih =>
      have hc : c ≠ sep := fun heq => h (by simp [heq])
      have htail : sep ∉ tail := fun hmem => h (by simp [hmem])
      simp [splitAt, hc, ih htail]

theorem joinWith_cons {rest : List (List Char)} (hne : rest ≠ []) (piece : List Char) :
    joinWith sep (piece :: rest) = piece ++ sep :: joinWith sep rest := by
  cases rest with
  | nil => exact absurd rfl hne
  | cons next more => rfl

/-- Pieces without the separator are found again. -/
theorem splitAt_joinWith {pieces : List (List Char)} (hne : pieces ≠ [])
    (h : ∀ piece ∈ pieces, sep ∉ piece) : splitAt sep (joinWith sep pieces) = pieces := by
  induction pieces with
  | nil => exact absurd rfl hne
  | cons piece rest ih =>
      have hpiece : sep ∉ piece := h piece (by simp)
      cases rest with
      | nil => simpa [joinWith] using splitAt_of_not_mem hpiece
      | cons next more =>
          have hrest := ih (by simp) fun p hp => h p (List.mem_cons_of_mem _ hp)
          rw [joinWith_cons (by simp), splitAt_append hpiece, hrest]

/-- Joining brings in no character but the separator. -/
theorem mem_joinWith {c : Char} {pieces : List (List Char)} (h : c ∈ joinWith sep pieces) :
    c = sep ∨ ∃ piece ∈ pieces, c ∈ piece := by
  induction pieces with
  | nil => simp [joinWith] at h
  | cons piece rest ih =>
      cases rest with
      | nil => exact Or.inr ⟨piece, by simp, by simpa [joinWith] using h⟩
      | cons next more =>
          rw [joinWith_cons (by simp), List.mem_append, List.mem_cons] at h
          rcases h with h | rfl | h
          · exact Or.inr ⟨piece, by simp, h⟩
          · exact Or.inl rfl
          · rcases ih h with hsep | ⟨p, hp, hc⟩
            · exact Or.inl hsep
            · exact Or.inr ⟨p, List.mem_cons_of_mem _ hp, hc⟩

theorem joinWith_concat {pieces : List (List Char)} (hne : pieces ≠ []) (last : List Char) :
    joinWith sep (pieces ++ [last]) = joinWith sep pieces ++ sep :: last := by
  induction pieces with
  | nil => exact absurd rfl hne
  | cons piece rest ih =>
      cases rest with
      | nil => simp [joinWith]
      | cons next more =>
          have hrest := ih (by simp)
          calc
            joinWith sep (piece :: (next :: more ++ [last]))
                = piece ++ sep :: joinWith sep (next :: more ++ [last]) := joinWith_cons (by simp) piece
            _ = piece ++ sep :: (joinWith sep (next :: more) ++ sep :: last) := by rw [hrest]
            _ = joinWith sep (piece :: next :: more) ++ sep :: last := by simp [joinWith]

end Text

namespace Envelope

/-! ## Segments -/

theorem segment_encodeChars {b : Bytes} (h : b ≠ []) : segment (Base64.encodeChars b) = .ok b := by
  simp [segment, Base64.encodeChars_ne_nil h, Base64.decode_ofList_encodeChars, mapError_ok]

theorem mapM_segment_encodeChars {bs : List Bytes} (h : ∀ b ∈ bs, b ≠ []) :
    (bs.map Base64.encodeChars).mapM segment = .ok bs := by
  induction bs with
  | nil => rfl
  | cons b rest ih =>
      have hfirst := segment_encodeChars (h b (by simp))
      have hrest := ih fun x hx => h x (by simp [hx])
      simp [hfirst, hrest, bind, Except.bind, pure, Except.pure]

theorem length_segments (e : Envelope) : e.segments.length = e.cipherType.segmentCount := by
  cases e <;> rfl

/-- Only the data of an envelope could be empty. -/
theorem ne_nil_of_mem_segments {e : Envelope} (hdata : e.data ≠ []) {b : Bytes}
    (h : b ∈ e.segments) : b ≠ [] := by
  simp only [segments, List.mem_append, Option.mem_toList, Option.map_eq_some_iff,
    List.mem_singleton] at h
  rcases h with (⟨iv, -, rfl⟩ | rfl) | ⟨mac, -, rfl⟩
  · exact iv.bytes_ne_nil
  · exact hdata
  · exact mac.bytes_ne_nil

theorem ofSegments_segments (e : Envelope) : ofSegments e.cipherType e.segments = .ok e := by
  cases e <;>
    simp [ofSegments, segments, iv?, mac?, cipherType, data, asIv, asMac, bind, Except.bind, pure,
      Except.pure]

/-! ## Types -/

theorem typeOf_raw (t : CipherType) : typeOf (toString t.raw).toList = .ok t := by
  cases t <;> rfl

theorem dot_not_mem_raw (t : CipherType) : '.' ∉ (toString t.raw).toList := by
  cases t <;> decide

/-! ## Texts -/

/-- An envelope with data in it is read from its own characters. -/
theorem ofChars_chars {e : Envelope} (hdata : e.data ≠ []) : ofChars e.chars = .ok e := by
  have hpieces : ∀ piece ∈ e.segments.map Base64.encodeChars, '|' ∉ piece ∧ '.' ∉ piece := by
    intro piece hpiece
    rcases List.mem_map.1 hpiece with ⟨b, -, rfl⟩
    exact ⟨fun hbar => (Base64.ne_separator_of_mem_encodeChars hbar).2 rfl,
      fun hdot => (Base64.ne_separator_of_mem_encodeChars hdot).1 rfl⟩
  -- Without a full stop behind the type there is no second separator.
  have hne : e.segments.map Base64.encodeChars ≠ [] := by
    simp [segments]
  have hbody : '.' ∉ Text.joinWith '|' (e.segments.map Base64.encodeChars) := by
    intro hdot
    rcases Text.mem_joinWith hdot with hbar | ⟨piece, hpiece, hmem⟩
    · exact absurd hbar (by decide)
    · exact (hpieces piece hpiece).2 hmem
  have hsplit := Text.splitAt_joinWith hne fun piece hpiece => (hpieces piece hpiece).1
  have hsegments := mapM_segment_encodeChars fun b hb => ne_nil_of_mem_segments hdata hb
  simp only [ofChars, chars, Text.cutAt?_append (dot_not_mem_raw e.cipherType), if_neg hbody,
    typeOf_raw, hsplit, hsegments, List.length_map, length_segments, ofSegments_segments, bind,
    Except.bind, ne_eq, not_true_eq_false, if_false]

/-- The text of an envelope that holds data is read back as that envelope. -/
theorem parse_toText {e : Envelope} (hdata : e.data ≠ []) : parse e.toText = .ok e := by
  simp [parse, toText, ofChars_chars hdata, mapError_ok]

end Envelope
end PasswordVault
