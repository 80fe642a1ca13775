import Mathlib.Data.List.Perm.Basic
import PasswordVault.Proofs.Merge.FieldOutcome

/-!
# Rules that do not get in each other's way

A group applies its rules one after the other to the same value. When each of them looks at a field of its
own, their order does not show.

- `Merge.Record`: a record as its fields;
- `Lens.Focuses`: the lens looks at one field, and writes that field alone;
- `Rule.Independent`, `Rules.Onto`: in every group of a tree, each rule has a field of its own;
- `Rule.Reorders`: the same tree with the rules of its groups in another order;
- `Rule.Reorders.merge_eq`: the merge is the same in every order.

Two rules onto different fields commute (`Rule.merge_comm`): what a rule writes depends on its own field of
the carrier only, and no other field changes.
-/

namespace PasswordVault
namespace Merge

/-! ## Records -/

/-- A record as its fields: whatever has the same fields is the same. -/
class Record (S : Type) where
  /-- The names of the fields. -/
  Name : Type
  /-- What a field holds. -/
  Value : Name → Type
  /-- What a record has in a field. -/
  read : (name : Name) → S → Value name
  ext : ∀ {s t : S}, (∀ name, read name s = read name t) → s = t

/-- Two records are the same if they have the same in one field, and in all others. -/
theorem Record.ext_at {S : Type} [Record S] (name : Record.Name S) {s t : S}
    (hname : Record.read name s = Record.read name t)
    (hothers : ∀ other, other ≠ name → Record.read other s = Record.read other t) : s = t := by
  apply Record.ext
  intro other
  by_cases hother : other = name
  · rw [hother, hname]
  · exact hothers other hother

end Merge

open Merge (Record)

/-! ## Lenses onto fields -/

variable {S F : Type}

/-- Whether putting back what a lens sees never changes anything. -/
def Lens.Lossless (lens : Lens S F) : Prop := ∀ s, lens.set s (lens.get s) = s

/-- Whether a lens looks at one field of a record, and writes that field alone. -/
structure Lens.Focuses [Record S] (lens : Lens S F) (name : Record.Name S) : Prop where
  lossless : lens.Lossless
  seen : ∀ s value, lens.get (lens.set s (some value)) = some value
  apart : ∀ s focus other, other ≠ name → Record.read other (lens.set s focus) = Record.read other s
  get_congr : ∀ {s t}, Record.read name s = Record.read name t → lens.get s = lens.get t
  set_congr : ∀ {s t} focus, Record.read name s = Record.read name t →
    Record.read name (lens.set s focus) = Record.read name (lens.set t focus)

namespace Lens

variable [Record S] {name : Record.Name S}

/-- The view of a part that may be absent is onto the field that holds the part. -/
theorem focuses_optional {get : S → Option F} {put : S → Option F → S}
    (hput : ∀ s focus, get (put s focus) = focus)
    (hheld : ∀ s t, Record.read name s = Record.read name t ↔ get s = get t)
    (hapart : ∀ s focus other, other ≠ name → Record.read other (put s focus) = Record.read other s) :
    (Lens.optional get put).Focuses name where
  lossless s := Record.ext_at name ((hheld _ _).2 (hput s (get s))) (hapart s (get s))
  seen s value := hput s (some value)
  apart := hapart
  get_congr h := (hheld _ _).1 h
  set_congr focus _ := (hheld _ _).2 ((hput _ focus).trans (hput _ focus).symm)

/-- The view of a part that is always there is onto the field that holds the part. -/
theorem focuses_field {get : S → F} {put : S → F → S} (hput : ∀ s value, get (put s value) = value)
    (hheld : ∀ s t, Record.read name s = Record.read name t ↔ get s = get t)
    (hapart : ∀ s value other, other ≠ name → Record.read other (put s value) = Record.read other s) :
    (Lens.field get put).Focuses name where
  lossless s := Record.ext_at name ((hheld _ _).2 (hput s (get s))) (hapart s (get s))
  seen s value := congrArg some (hput s value)
  apart s focus other hother := by
    cases focus with
    | none => rfl
    | some value => exact hapart s value other hother
  get_congr h := congrArg some ((hheld _ _).1 h)
  set_congr focus h := by
    cases focus with
    | none => exact h
    | some value => exact (hheld _ _).2 ((hput _ value).trans (hput _ value).symm)

end Lens

namespace Merge

/-! ## Independent rules -/

/-- Whether the lens of a rule is onto a field. -/
def Rule.Focuses : {S : Type} → [Record S] → Rule S → Record.Name S → Prop
  | _, _, .leaf lens _, name => lens.Focuses name
  | _, _, @Rule.group _ _ _ lens _ _, name => lens.Focuses name

/-- Whether the lens of a rule loses nothing. -/
def Rule.Lossless : {S : Type} → Rule S → Prop
  | _, .leaf lens _ => lens.Lossless
  | _, @Rule.group _ _ _ lens _ _ => lens.Lossless

mutual

/-- Whether in every group of a tree the rules have fields of their own. -/
inductive Rule.Independent : {S : Type} → Rule S → Prop
  | leaf {S F : Type} {lens : Lens S F} {strategy : Strategy F} : Rule.Independent (.leaf lens strategy)
  | group {S F : Type} [DecidableEq F] [Record F] {lens : Lens S F} {placeholder : F} {children : Rules F}
      {names : List (Record.Name F)} (onto : Rules.Onto children names) :
      Rule.Independent (.group lens placeholder children)

/-- Whether rules are onto these fields, each onto one and no two onto the same, and so are those in every
group of them. -/
inductive Rules.Onto : {S : Type} → [Record S] → Rules S → List (Record.Name S) → Prop
  | nil {S : Type} [Record S] : Rules.Onto (.nil : Rules S) []
  | cons {S : Type} [Record S] {first : Rule S} {rest : Rules S} {name : Record.Name S}
      {names : List (Record.Name S)} (focuses : first.Focuses name) (new : name ∉ names)
      (independent : Rule.Independent first) (onto : Rules.Onto rest names) :
      Rules.Onto (.cons first rest) (name :: names)

end

section Single

variable [Record S] {rule first second : Rule S} {name other : Record.Name S}

/-! ## One rule -/

theorem Rule.Focuses.spares (h : rule.Focuses name) (hne : other ≠ name) :
    rule.Spares (Record.read (S := S) other) := by
  cases rule with
  | leaf => exact fun s focus => Lens.Focuses.apart h s focus other hne
  | group => exact fun s focus => Lens.Focuses.apart h s focus other hne

/-- What a rule makes of its field depends on that field of the carrier only. -/
theorem Rule.Focuses.read_merge_congr (h : rule.Focuses name) (base here there : S) {c c' : S}
    (heq : Record.read name c = Record.read name c') :
    Record.read name (rule.merge base here there c) = Record.read name (rule.merge base here there c') := by
  -- A leaf does not look at the carrier at all, a group only through its lens.
  cases rule with
  | leaf =>
      rw [Rule.merge, Rule.merge]
      exact Lens.Focuses.set_congr h _ heq
  | group =>
      rw [Rule.merge, Rule.merge, Lens.Focuses.get_congr h heq]
      split
      · exact Lens.Focuses.set_congr h _ heq
      · split
        · exact Lens.Focuses.set_congr h _ heq
        · exact Lens.Focuses.set_congr h _ heq

/-- Rules onto different fields commute. -/
theorem Rule.merge_comm (hfirst : first.Focuses name) (hsecond : second.Focuses other) (hne : name ≠ other)
    (base here there carrier : S) :
    second.merge base here there (first.merge base here there carrier) =
      first.merge base here there (second.merge base here there carrier) := by
  have hpassed : ∀ {rule : Rule S} {name field : Record.Name S}, rule.Focuses name → field ≠ name →
      ∀ c, Record.read field (rule.merge base here there c) = Record.read field c :=
    fun h hfield c => Rule.view_merge (h.spares hfield) base here there c
  refine Record.ext_at name ?_ ?_
  · -- In the field of the first rule the second changes nothing, before or after.
    rw [hpassed hsecond hne]
    exact hfirst.read_merge_congr base here there (hpassed hsecond hne carrier).symm
  · intro field hfield
    rw [hpassed hfirst hfield]
    by_cases hother : field = other
    · rw [hother]
      exact hsecond.read_merge_congr base here there (hpassed hfirst hne.symm carrier)
    · rw [hpassed hsecond hother, hpassed hsecond hother, hpassed hfirst hfield]

end Single

/-! ## Lossless trees -/

theorem Rule.Focuses.lossless [Record S] {rule : Rule S} {name : Record.Name S} (h : rule.Focuses name) :
    rule.Lossless := by
  cases rule with
  | leaf => exact Lens.Focuses.lossless h
  | group => exact Lens.Focuses.lossless h

mutual

/-- An independent tree is lossless at every value, if the lens of its root loses nothing. -/
theorem Rule.Independent.isLosslessAt {S : Type} [DecidableEq S] {rule : Rule S} (h : rule.Independent)
    (hroot : rule.Lossless) (s : S) : rule.isLosslessAt s = true := by
  cases h with
  | leaf => exact decide_eq_true (hroot s)
  | @group _ F _ _ lens _ _ _ onto =>
      have hlens : lens.isLosslessAt s = true := decide_eq_true (hroot s)
      rw [Rule.isLosslessAt, hlens, Bool.true_and]
      cases lens.get s with
      | none => rfl
      | some focus => exact onto.isLosslessAt focus

/-- Rules onto fields of their own are lossless at every value. -/
theorem Rules.Onto.isLosslessAt {S : Type} [Record S] [DecidableEq S] {rules : Rules S}
    {names : List (Record.Name S)} (h : rules.Onto names) (s : S) : rules.isLosslessAt s = true := by
  cases h with
  | nil => rfl
  | cons focuses _ independent onto =>
      rw [Rules.isLosslessAt, independent.isLosslessAt focuses.lossless s, onto.isLosslessAt s, Bool.and_self]

end

/-! ## Other orders -/

mutual

/-- Whether two trees are the same up to the order of the rules in their groups. -/
inductive Rule.Reorders : {S : Type} → Rule S → Rule S → Prop
  | leaf {S F : Type} (lens : Lens S F) (strategy : Strategy F) :
      Rule.Reorders (.leaf lens strategy) (.leaf lens strategy)
  | group {S F : Type} [DecidableEq F] (lens : Lens S F) (placeholder : F) {children children' : Rules F}
      (inner : Rules.Reorders children children') :
      Rule.Reorders (.group lens placeholder children) (.group lens placeholder children')

/-- Whether rules are the same up to their order, and the order in their groups. -/
inductive Rules.Reorders : {S : Type} → Rules S → Rules S → Prop
  | nil {S : Type} : Rules.Reorders (.nil : Rules S) .nil
  | cons {S : Type} {first first' : Rule S} {rest rest' : Rules S} (head : Rule.Reorders first first')
      (tail : Rules.Reorders rest rest') : Rules.Reorders (.cons first rest) (.cons first' rest')
  | swap {S : Type} (first second : Rule S) (rest : Rules S) :
      Rules.Reorders (.cons first (.cons second rest)) (.cons second (.cons first rest))
  | trans {S : Type} {rules rules' rules'' : Rules S} (left : Rules.Reorders rules rules')
      (right : Rules.Reorders rules' rules'') : Rules.Reorders rules rules''

end

mutual

theorem Rule.Reorders.refl : {S : Type} → (rule : Rule S) → rule.Reorders rule
  | _, .leaf lens strategy => .leaf lens strategy
  | _, @Rule.group _ _ _ lens placeholder children => .group lens placeholder (Rules.Reorders.refl children)

theorem Rules.Reorders.refl : {S : Type} → (rules : Rules S) → rules.Reorders rules
  | _, .nil => .nil
  | _, .cons first rest => .cons (Rule.Reorders.refl first) (Rules.Reorders.refl rest)

end

/-- Every order of a list of rules is one of these. -/
theorem Rules.reorders_ofList_of_perm {list list' : List (Rule S)} (h : list.Perm list') :
    (Rules.ofList list).Reorders (Rules.ofList list') := by
  induction h with
  | nil => exact .nil
  | cons first _ ih => exact .cons (.refl first) ih
  | swap first second rest => exact .swap second first (.ofList rest)
  | trans _ _ ih ih' => exact .trans ih ih'

theorem Rule.Reorders.focuses [Record S] {rule rule' : Rule S} (h : rule.Reorders rule')
    {name : Record.Name S} (hfocuses : rule.Focuses name) : rule'.Focuses name := by
  cases h with
  | leaf => exact hfocuses
  | group => exact hfocuses

/-- Rules in another order are onto the same fields. -/
theorem Rules.Reorders.onto {rules rules' : Rules S} (h : rules.Reorders rules') :
    ∀ [Record S] {names : List (Record.Name S)}, rules.Onto names →
      ∃ names', names.Perm names' ∧ rules'.Onto names' := by
  -- Two rules that change places take their fields with them; a group keeps its own independence.
  induction h using Rules.Reorders.rec (motive_1 := fun rule rule' _ => rule.Independent → rule'.Independent) with
  | leaf _ _ independent => exact independent
  | group _ _ _ ih independent =>
      cases independent with
      | group onto =>
          obtain ⟨names', -, onto'⟩ := ih onto
          exact .group onto'
  | nil => exact fun {_ names} honto => ⟨names, .refl names, honto⟩
  | cons head _ ihhead ihtail =>
      intro _ _ honto
      cases honto with
      | cons focuses new independent onto =>
          obtain ⟨names', hperm, onto'⟩ := ihtail onto
          have hnew := fun hmem => new (hperm.mem_iff.2 hmem)
          exact ⟨_, hperm.cons _, .cons (head.focuses focuses) hnew (ihhead independent) onto'⟩
  | swap =>
      intro _ _ honto
      cases honto with
      | cons focuses new independent onto =>
          cases onto with
          | cons focuses' new' independent' onto' =>
              rw [List.mem_cons, not_or] at new
              have hnew := List.not_mem_cons_of_ne_of_not_mem (Ne.symm new.1) new'
              exact ⟨_, .swap _ _ _, .cons focuses' hnew independent'
                (.cons focuses new.2 independent onto')⟩
  | trans _ _ ihleft ihright =>
      intro _ _ honto
      obtain ⟨names', hperm, onto'⟩ := ihleft honto
      obtain ⟨names'', hperm', onto''⟩ := ihright onto'
      exact ⟨names'', hperm.trans hperm', onto''⟩

/-- A merge by an independent tree is the same in every order of its rules. -/
theorem Rule.Reorders.merge_eq {rule rule' : Rule S} (h : rule.Reorders rule') :
    rule.Independent → ∀ base here there carrier : S,
      rule'.merge base here there carrier = rule.merge base here there carrier := by
  -- Rules that are onto fields of their own have the same merges in every order.
  induction h using Rule.Reorders.rec (motive_2 := fun {S} rules rules' _ =>
      ∀ [Record S] {names : List (Record.Name S)}, rules.Onto names → ∀ base here there carrier : S,
        rules'.merge base here there carrier = rules.merge base here there carrier) with
  | leaf => exact fun _ _ _ _ _ => rfl
  | group _ _ _ ih =>
      intro independent base here there carrier
      cases independent with
      | group onto => rw [Rule.merge, Rule.merge, ih onto]
  | nil => rfl
  | cons _ _ ihhead ihtail honto base here there carrier =>
      cases honto with
      | cons focuses new independent onto =>
          rw [Rules.merge, Rules.merge, ihhead independent, ihtail onto]
  | swap _ _ _ honto base here there carrier =>
      cases honto with
      | cons focuses new _ onto =>
          cases onto with
          | cons focuses' _ _ _ =>
              have hne := List.ne_of_not_mem_cons new
              simp only [Rules.merge, Rule.merge_comm focuses focuses' hne]
  | trans left _ ihleft ihright honto =>
      obtain ⟨names', -, onto'⟩ := left.onto honto
      rw [ihright onto', ihleft honto]

end Merge
end PasswordVault
