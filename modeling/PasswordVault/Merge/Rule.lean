import PasswordVault.Merge.Lens
import PasswordVault.Merge.Strategy

/-!
# Rules of a merge

A rule says how a part of a value is merged. A leaf merges its part by a strategy; a group looks into
its part and applies the rules of its children one after the other. The result is written into a
carrier, which keeps whatever no rule mentions.

* `Rule.merge`: the merge of three versions into a carrier.
* `Rule.isLosslessAt`: whether all lenses that a value reaches are lossless for it.
-/

namespace PasswordVault
namespace Merge

mutual

/-- How a part of a value is merged. -/
inductive Rule : Type → Type 1 where
  /-- A part with rules for its own parts. The placeholder stands in for a side that lacks the part. -/
  | group {S F : Type} [DecidableEq F] (lens : Lens S F) (placeholder : F) (children : Rules F) : Rule S
  /-- A part that is merged by a strategy. -/
  | leaf {S F : Type} (lens : Lens S F) (strategy : Strategy F) : Rule S

/-- Rules for parts of one value, in the order in which they are applied. -/
inductive Rules : Type → Type 1 where
  | nil {S : Type} : Rules S
  | cons {S : Type} (first : Rule S) (rest : Rules S) : Rules S

end

def Rules.ofList {S : Type} : List (Rule S) → Rules S
  | [] => .nil
  | r :: rest => .cons r (ofList rest)

namespace Rule

variable {S F : Type}

def scalar [DecidableEq F] (lens : Lens S F) : Rule S := .leaf lens Merge.scalar

def list [DecidableEq F] (lens : Lens S (List F)) : Rule S := .leaf lens Merge.list

end Rule

mutual

/-- The merge of three versions, written into a carrier. A group that is absent on both sides is
removed, and one without local changes is taken from the server as it is. -/
def Rule.merge : {S : Type} → Rule S → (base here there carrier : S) → S
  | _, .leaf lens strategy, base, here, there, carrier =>
    lens.set carrier (strategy (lens.get base) (lens.get here) (lens.get there))
  | _, @Rule.group _ _ _ lens placeholder children, base, here, there, carrier =>
    if lens.get here = none ∧ lens.get there = none then lens.set carrier none
    else if lens.get base = lens.get here then lens.set carrier (lens.get there)
    -- A side without the group counts as one where all parts are as in the placeholder.
    else
      lens.set carrier (some (children.merge ((lens.get base).getD placeholder)
        ((lens.get here).getD placeholder) ((lens.get there).getD placeholder)
        ((lens.get carrier).getD placeholder)))

/-- The merges of several rules, one after the other into the same carrier. -/
def Rules.merge : {S : Type} → Rules S → (base here there carrier : S) → S
  | _, .nil, _, _, _, carrier => carrier
  | _, .cons first rest, base, here, there, carrier =>
    rest.merge base here there (first.merge base here there carrier)

end

/-- The merge of three versions with the server's version as the carrier. -/
def Rule.mergeIntoRemote {S : Type} (rule : Rule S) (base here there : S) : S :=
  rule.merge base here there there

mutual

/-- Whether every lens of a rule that a value reaches is lossless for it. -/
def Rule.isLosslessAt : {S : Type} → [DecidableEq S] → Rule S → S → Bool
  | _, _, .leaf lens _, s => lens.isLosslessAt s
  | _, _, @Rule.group _ _ _ lens _ children, s =>
    lens.isLosslessAt s && match lens.get s with
      | some focus => children.isLosslessAt focus
      | none => true

/-- Whether every lens of several rules that a value reaches is lossless for it. -/
def Rules.isLosslessAt : {S : Type} → [DecidableEq S] → Rules S → S → Bool
  | _, _, .nil, _ => true
  | _, _, .cons first rest, s => first.isLosslessAt s && rest.isLosslessAt s

end

end Merge
end PasswordVault
