import PasswordVault.Proofs.Pem.Header
import PasswordVault.Proofs.Text.Base64

/-!
# PEM — reading what was written

A document that was written is read back, with its label, unless it is empty: the base64 of no bytes has
no line, and the reader asks for the end of one. Full lines are joined again whatever their number.

- `Pem.exists_wrap`: the characters of full lines are found again;
- `Pem.decode?_encode`: documents are read back;
- `Pem.header?_encode`: their header says no more than the label.
-/

namespace PasswordVault
namespace Pem

/-! ## Line ends -/

def lineEnds : List Char := ['\n', '\r']

/-- A line feed alone is the line end, if no carriage return stands before it. -/
theorem beforeLineEnd?_feed {cs : List Char} (h : cs.getLast? ≠ some '\r') :
    beforeLineEnd? (cs ++ ['\n']) = some cs := by
  rw [beforeLineEnd?, List.reverse_append]
  rw [← List.head?_reverse] at h
  cases hreverse : cs.reverse with
  | nil => simp [List.reverse_eq_nil_iff.1 hreverse]
  | cons c rest =>
      rw [hreverse] at h
      have hc : c ≠ '\r' := by simpa using h
      have hcs : cs = rest.reverse ++ [c] := by
        rw [← List.reverse_cons, ← hreverse, List.reverse_reverse]
      simp [hcs, hc]

theorem beforeLineEnd?_of_disjoint {cs : List Char} (h : ∀ c ∈ cs, c ∉ lineEnds) :
    beforeLineEnd? cs = none := by
  rw [beforeLineEnd?]
  cases hreverse : cs.reverse with
  | nil => rfl
  | cons c rest =>
      have hc : c ∉ lineEnds := h c (List.mem_reverse.1 (hreverse ▸ List.mem_cons_self))
      simp only [lineEnds, List.mem_cons, List.not_mem_nil, or_false, not_or] at hc
      simp [hc.1, hc.2]

theorem beforeEnding?_append (cs ending : List Char) : beforeEnding? ending (cs ++ ending) = some cs := by
  simp [beforeEnding?]

/-! ## Lines -/

theorem wrap_of_length_le {cs : List Char} (hne : cs ≠ []) (h : cs.length ≤ lineLength) :
    wrap cs = cs ++ ['\n'] := by
  cases cs with
  | nil => exact absurd rfl hne
  | cons c rest =>
      have hrest : rest.length ≤ lineLength - 1 := by
        rw [List.length_cons] at h
        omega
      rw [wrap, List.take_of_length_le hrest, List.drop_eq_nil_of_le hrest, wrap, List.cons_append]

theorem wrap_of_lt_length {cs : List Char} (h : lineLength < cs.length) :
    wrap cs = cs.take lineLength ++ '\n' :: wrap (cs.drop lineLength) := by
  cases cs with
  | nil => cases h
  | cons c rest => rw [wrap]; rfl

/-- A full line is put in front of what the lines after it join to. -/
theorem joinLines?_append {line body cs : List Char} (hline : line.length = lineLength)
    (h : joinLines? body = some cs) : joinLines? (line ++ '\n' :: body) = some (line ++ cs) := by
  have hfull : ¬ (line ++ '\n' :: body).length ≤ lineLength := by
    rw [List.length_append, hline, List.length_cons]
    omega
  have hdrop : (line ++ '\n' :: body).drop lineLength = '\n' :: body := List.drop_left' hline
  rw [joinLines?, dif_neg hfull]
  split
  case h_1 hnone =>
      rw [hdrop] at hnone
      cases hnone
  case h_2 rest hsome =>
      rw [hdrop] at hsome
      cases hsome
      rw [h, List.take_left' hline, Option.map_some]

/-- Characters that were cut into lines are joined again, without the end of the last line. The body
does not end in the half of another line end. -/
theorem exists_wrap (cs : List Char) (hne : cs ≠ []) (h : ∀ c ∈ cs, c ∉ lineEnds) :
    ∃ body, wrap cs = body ++ ['\n'] ∧ body.getLast? ≠ some '\r' ∧ joinLines? body = some cs := by
  -- By recursion on the lines, the last of which is the base case as it may be full.
  by_cases hshort : cs.length ≤ lineLength
  · refine ⟨cs, wrap_of_length_le hne hshort, ?_, ?_⟩
    · intro hlast
      exact h '\r' (List.mem_of_getLast? hlast) (by decide)
    · rw [joinLines?, dif_pos hshort, beforeLineEnd?_of_disjoint h, Option.getD_none]
  · have hlong := Nat.not_le.1 hshort
    have hline : (cs.take lineLength).length = lineLength := List.length_take_of_le (Nat.le_of_lt hlong)
    obtain ⟨body, hbody, hlast, hjoin⟩ := exists_wrap (cs.drop lineLength)
      (fun hnil => hshort (List.drop_eq_nil_iff.1 hnil)) fun c hc => h c (List.mem_of_mem_drop hc)
    refine ⟨cs.take lineLength ++ '\n' :: body, ?_, ?_, ?_⟩
    · rw [wrap_of_lt_length hlong, hbody, List.append_assoc, List.cons_append]
    · cases body with
      | nil => simp
      | cons c more => simpa [List.getLast?_append] using hlast
    · rw [joinLines?_append hline hjoin, List.take_append_drop]
termination_by cs.length
decreasing_by
  have : 0 < lineLength := by decide
  simp only [List.length_drop]
  omega

/-! ## Documents -/

theorem not_mem_lineEnds_of_mem_encodeChars {c : Char} {b : Bytes} (h : c ∈ Base64.encodeChars b) :
    c ∉ lineEnds := by
  have hsymbol : ∀ n < 64, Base64.symbol n ∉ lineEnds := by decide
  rcases Base64.mem_encodeChars h with rfl | ⟨n, hn, rfl⟩
  · decide
  · exact hsymbol n hn

theorem toList_encode (label : String) (der : Bytes) :
    (encode label der).toList = beginMark ++ (label.toList ++ (dashes ++
      '\n' :: (wrap (Base64.encodeChars der) ++ endMark ++ label.toList ++ dashes ++ ['\n']))) := by
  simp [encode]

theorem skipPreamble?_beginMark (rest : List Char) : skipPreamble? (beginMark ++ rest) = some rest := by
  rw [skipPreamble?, afterOpening?_append]

/-- A document is read back with its label, unless it is empty. -/
theorem decode?_encode {label : String} {der : Bytes} (hlabel : '-' ∉ label.toList) (hder : der ≠ []) :
    decode? (encode label der) = some (label, der) := by
  obtain ⟨body, hwrap, hlast, hjoin⟩ := exists_wrap (Base64.encodeChars der)
    (Base64.encodeChars_ne_nil hder) fun c hc => not_mem_lineEnds_of_mem_encodeChars hc
  have hcut : ∀ rest, (label.toList ++ (dashes ++ rest)).takeWhile (· ≠ '-') = label.toList := by
    intro rest
    rw [List.takeWhile_append_of_pos]
    · simp [dashes]
    · intro c hc
      simpa using fun heq : c = '-' => hlabel (heq ▸ hc)
  have hend : ∀ cs : List Char, (cs ++ dashes).getLast? ≠ some '\r' := fun cs => by
    simp [dashes, List.getLast?_append]
  rw [decode?, toList_encode, skipPreamble?_beginMark, hwrap]
  simp only [Option.bind_eq_bind, Option.bind_some, hcut, List.drop_left, afterOpening?_append]
  -- What is left is taken off from the end: a line end, the dashes, the label, the mark, a line end.
  simp only [afterLineEnd?, Option.bind_some, beforeLineEnd?_feed (hend _), Option.getD_some,
    beforeEnding?_append, beforeLineEnd?_feed hlast, hjoin, Base64.decode_ofList_encodeChars,
    String.ofList_toList]

/-- The header of a document that was written says its label. -/
theorem header?_encode {label : String} (hlabel : '-' ∉ label.toList) (hfeed : '\n' ∉ label.toList)
    (hreturn : '\r' ∉ label.toList) (der : Bytes) :
    header? (encode label der) = some ("BEGIN " ++ label) := by
  have hline := beginLine?_of_skipPreamble? (toList_encode label der ▸ skipPreamble?_beginMark _)
  rw [collect_append hfeed hreturn, collect_append (by decide) (by decide), collect_feed,
    List.append_nil] at hline
  have htrim : (label.toList ++ dashes).rdropWhile (· = '-') = label.toList := by
    rw [rdropWhile_append_of_all (by simp [dashes]), List.rdropWhile_eq_self_iff]
    intro hne
    simpa using fun heq : label.toList.getLast hne = '-' => hlabel (heq ▸ List.getLast_mem hne)
  rw [header?_of_beginLine? hline, htrim, String.ofList_toList]

end Pem
end PasswordVault
