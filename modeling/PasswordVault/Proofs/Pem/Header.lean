import Mathlib.Data.List.DropRight
import PasswordVault.Pem

/-!
# Header and label — what a begin line says

The header of a PEM text is its first begin line without the dashes at either end. It is meant to say
`BEGIN` and the label. Lines are cut at line feeds, and nothing is cut at the dashes that close the
label, so whatever else stands in the line is in the header as well. The readers of documents take a
carriage return for the end of a line, as PEM allows: to them a whole text may be one line.

- `Pem.label?`: the label of a text, cut at the dashes that close it;
- `Pem.EndsAtLabel`: only dashes follow the label in its line;
- `Pem.header?_eq_label_iff`: exactly then the header says no more than the label;
- `Pem.beginLine?_of_skipPreamble?`: the readers of documents find the same begin line.
-/

namespace PasswordVault
namespace Pem

/-! ## Labels -/

/-- The first begin line of a text. -/
def beginLine? (text : String) : Option (List Char) :=
  (lines text.toList).find? fun line => beginMark.isPrefixOf line

def beforeDashes? : List Char → Option (List Char)
  | [] => none
  | c :: cs => if dashes.isPrefixOf (c :: cs) then some [] else (beforeDashes? cs).map (c :: ·)

/-- The label of a begin line: what stands between its mark and the next five dashes. A label does not
go on after a carriage return. -/
def labelOf? (line : List Char) : Option (List Char) :=
  (beforeDashes? (line.drop beginMark.length)).filter fun label => '\r' ∉ label

/-- The label of a text. -/
def label? (text : String) : Option String := ((beginLine? text).bind labelOf?).map String.ofList

/-- Whether the first begin line, if there is one, has a label and only dashes after it. -/
def EndsAtLabel (text : String) : Prop :=
  ∀ line, beginLine? text = some line → ∃ label, labelOf? line = some label ∧
    ∀ c ∈ (line.drop beginMark.length).drop label.length, c = '-'

theorem beginLine?_eq_append {text : String} {line : List Char} (h : beginLine? text = some line) :
    ∃ rest, line = beginMark ++ rest := by
  obtain ⟨rest, hrest⟩ := List.isPrefixOf_iff_prefix.1 (List.find?_some h)
  exact ⟨rest, hrest.symm⟩

/-- A label is closed by dashes and has none at its end. -/
theorem beforeDashes?_eq_some {cs label : List Char} (h : beforeDashes? cs = some label) :
    (∃ after, cs = label ++ (dashes ++ after)) ∧ label.rdropWhile (· = '-') = label := by
  induction cs generalizing label with
  | nil => cases h
  | cons c cs ih =>
      rw [beforeDashes?] at h
      split at h
      case isTrue hdashes =>
          cases h
          obtain ⟨after, hafter⟩ := List.isPrefixOf_iff_prefix.1 hdashes
          exact ⟨⟨after, hafter.symm⟩, rfl⟩
      case isFalse hopen =>
          obtain ⟨label, hlabel, rfl⟩ := Option.map_eq_some_iff.1 h
          obtain ⟨⟨after, hafter⟩, htrim⟩ := ih hlabel
          refine ⟨⟨after, by rw [hafter, List.cons_append]⟩, ?_⟩
          cases label with
          | nil =>
              -- A dash in front of the closing dashes would close the label one place earlier.
              have hc : c ≠ '-' := by
                rintro rfl
                rw [hafter] at hopen
                exact hopen (by simp [dashes, List.isPrefixOf])
              simp [List.rdropWhile_singleton, hc]
          | cons d rest =>
              rw [List.rdropWhile_eq_self_iff] at htrim ⊢
              intro _
              rw [List.getLast_cons (List.cons_ne_nil d rest)]
              exact htrim _

/-! ## Headers -/

theorem rdropWhile_append_of_all {p : Char → Bool} {kept removed : List Char}
    (h : ∀ c ∈ removed, p c) : (kept ++ removed).rdropWhile p = kept.rdropWhile p := by
  rw [List.rdropWhile, List.reverse_append, List.dropWhile_append_of_pos (by simpa using h),
    ← List.rdropWhile]

/-- Dashes at the end of a line that is cut at its label are all there is after the label. -/
theorem rdropWhile_eq_label_iff {cs label : List Char} (h : beforeDashes? cs = some label) :
    cs.rdropWhile (· = '-') = label ↔ ∀ c ∈ cs.drop label.length, c = '-' := by
  obtain ⟨⟨after, rfl⟩, htrim⟩ := beforeDashes?_eq_some h
  rw [List.drop_left]
  constructor
  · intro hlabel c hc
    have hsplit := List.rdropWhile_append_rtakeWhile (p := (· = '-')) (l := label ++ (dashes ++ after))
    rw [hlabel, List.append_cancel_left_eq] at hsplit
    rw [← hsplit] at hc
    simpa using List.mem_rtakeWhile_imp hc
  · intro hdashes
    rw [rdropWhile_append_of_all (by simpa using hdashes), htrim]

def headerMark : List Char := "BEGIN ".toList

theorem trimDashes_beginMark (rest : List Char) :
    trimDashes (beginMark ++ rest) = headerMark ++ rest.rdropWhile (· = '-') := by
  have hfront : (beginMark ++ rest).dropWhile (· = '-') = headerMark ++ rest := rfl
  rw [trimDashes, hfront, List.reverse_append, List.dropWhile_append, List.rdropWhile]
  split
  case isTrue hnone =>
      -- The mark of a header ends in a blank, so no dash of it is taken off.
      rw [List.isEmpty_iff.1 hnone, List.reverse_nil, List.append_nil]
      rfl
  case isFalse => rw [List.reverse_append, List.reverse_reverse]

theorem header?_eq_map (text : String) :
    header? text = (beginLine? text).map fun line => String.ofList (trimDashes line) :=
  rfl

/-- The header of a text with a begin line. -/
theorem header?_of_beginLine? {text : String} {rest : List Char}
    (h : beginLine? text = some (beginMark ++ rest)) :
    header? text = some ("BEGIN " ++ String.ofList (rest.rdropWhile (· = '-'))) := by
  rw [header?_eq_map, h, Option.map_some, trimDashes_beginMark, String.ofList_append]
  rfl

/-- Every header opens with the same word. -/
theorem exists_eq_of_header? {text header : String} (h : header? text = some header) :
    ∃ rest, header = "BEGIN " ++ rest := by
  cases hline : beginLine? text with
  | none =>
      rw [header?_eq_map, hline] at h
      cases h
  | some line =>
      obtain ⟨rest, rfl⟩ := beginLine?_eq_append hline
      rw [header?_of_beginLine? hline] at h
      exact ⟨_, (Option.some.inj h).symm⟩

theorem labelOf?_beginMark {rest label : List Char} (h : labelOf? (beginMark ++ rest) = some label) :
    beforeDashes? rest = some label := by
  rw [labelOf?, List.drop_left, Option.filter_eq_some_iff] at h
  exact h.1

/-- The header says no more than the label exactly if the begin line ends at its label. -/
theorem header?_eq_label_iff (text : String) :
    header? text = (label? text).map ("BEGIN " ++ ·) ↔ EndsAtLabel text := by
  cases hline : beginLine? text with
  | none => simp [header?_eq_map, label?, EndsAtLabel, hline]
  | some line =>
      obtain ⟨rest, rfl⟩ := beginLine?_eq_append hline
      rw [header?_of_beginLine? hline]
      cases hlabel : labelOf? (beginMark ++ rest) with
      | none => simp [label?, EndsAtLabel, hline, hlabel]
      | some label =>
          have hcut := labelOf?_beginMark hlabel
          simp [label?, EndsAtLabel, hline, hlabel, rdropWhile_eq_label_iff hcut,
            String.ofList_inj]

/-! ## Documents that are read -/

theorem afterOpening?_eq_some {opening cs rest : List Char} (h : afterOpening? opening cs = some rest) :
    cs = opening ++ rest := by
  rw [afterOpening?] at h
  split at h
  case isTrue hopening =>
      cases h
      calc cs
          = cs.take opening.length ++ cs.drop opening.length := (List.take_append_drop _ _).symm
        _ = opening ++ cs.drop opening.length := by rw [hopening]
  case isFalse => cases h

theorem afterOpening?_append (opening rest : List Char) :
    afterOpening? opening (opening ++ rest) = some rest := by
  simp [afterOpening?]

theorem collect_feed (cs : List Char) :
    lines.collect ('\n' :: cs) = ([], (lines.collect cs).1 :: (lines.collect cs).2) :=
  rfl

theorem collect_cons {c : Char} (hfeed : c ≠ '\n') (hreturn : c ≠ '\r') (cs : List Char) :
    lines.collect (c :: cs) = (c :: (lines.collect cs).1, (lines.collect cs).2) := by
  rw [lines.collect]
  · exact fun _ hc _ => hreturn hc
  · exact hfeed

/-- Whatever a line goes on with, a carriage return included, the lines after it are the same. -/
theorem collect_cons_snd {c : Char} (hfeed : c ≠ '\n') (cs : List Char) :
    (lines.collect (c :: cs)).2 = (lines.collect cs).2 := by
  by_cases hpair : c = '\r' ∧ ∃ rest, cs = '\n' :: rest
  · obtain ⟨rfl, rest, rfl⟩ := hpair
    rfl
  · rw [lines.collect]
    · exact fun rest hc hcs => hpair ⟨hc, rest, hcs⟩
    · exact hfeed

theorem collect_append {front : List Char} (hfeed : '\n' ∉ front) (hreturn : '\r' ∉ front)
    (cs : List Char) :
    lines.collect (front ++ cs) = (front ++ (lines.collect cs).1, (lines.collect cs).2) := by
  induction front with
  | nil => rfl
  | cons c rest ih =>
      rw [List.mem_cons, not_or] at hfeed hreturn
      rw [List.cons_append, collect_cons (Ne.symm hfeed.1) (Ne.symm hreturn.1), ih hfeed.2 hreturn.2]
      rfl

theorem collect_beginMark (cs : List Char) :
    lines.collect (beginMark ++ cs) = (beginMark ++ (lines.collect cs).1, (lines.collect cs).2) :=
  collect_append (by decide) (by decide) cs

theorem isPrefix_collect (cs : List Char) : (lines.collect cs).1 <+: cs := by
  fun_induction lines.collect cs with
  | case1 => exact List.prefix_rfl
  | case2 => exact List.nil_prefix
  | case3 => exact List.nil_prefix
  | case4 c cs _ _ line rest hcollect ih =>
      rw [hcollect] at ih
      exact List.cons_prefix_cons.2 ⟨rfl, ih⟩

/-- A line opens with the mark only if the text does from there on. -/
theorem not_isPrefixOf_collect {cs : List Char} (h : afterOpening? beginMark cs = none) :
    ¬ beginMark.isPrefixOf (lines.collect cs).1 := by
  intro hmark
  obtain ⟨rest, rfl⟩ := (List.isPrefixOf_iff_prefix.1 hmark).trans (isPrefix_collect cs)
  rw [afterOpening?_append] at h
  cases h

/-- The search for a mark after a line feed ends in the first begin line after the first line. -/
theorem find?_collect_of_search {cs after : List Char} (h : skipPreamble?.search cs = some after) :
    (lines.collect cs).2.find? (fun line => beginMark.isPrefixOf line) =
      some (beginMark ++ (lines.collect after).1) := by
  induction cs with
  | nil => cases h
  | cons c rest ih =>
      rw [skipPreamble?.search] at h
      split at h
      case isTrue => cases h
      case isFalse =>
          split at h
          case isTrue hfeed =>
              subst hfeed
              rw [collect_feed]
              -- A new line begins here, which either is the one that is searched for or is passed over whole.
              cases hmark : afterOpening? beginMark rest with
              | some found =>
                  rw [hmark] at h
                  cases h
                  rw [afterOpening?_eq_some hmark, collect_beginMark]
                  exact List.find?_cons_of_pos (by simp)
              | none =>
                  rw [hmark] at h
                  rw [List.find?_cons_of_neg (not_isPrefixOf_collect hmark)]
                  exact ih h
          case isFalse hfeed =>
              rw [collect_cons_snd hfeed]
              exact ih h

/-- The readers of documents and of headers find the same begin line. -/
theorem beginLine?_of_skipPreamble? {text : String} {after : List Char}
    (h : skipPreamble? text.toList = some after) :
    beginLine? text = some (beginMark ++ (lines.collect after).1) := by
  rw [skipPreamble?] at h
  rw [beginLine?, lines]
  cases hmark : afterOpening? beginMark text.toList with
  | some found =>
      rw [hmark] at h
      cases h
      rw [afterOpening?_eq_some hmark, collect_beginMark]
      exact List.find?_cons_of_pos (by simp)
  | none =>
      rw [hmark] at h
      rw [List.find?_cons_of_neg (not_isPrefixOf_collect hmark)]
      exact find?_collect_of_search h

end Pem
end PasswordVault
