/-!
# Merging single values and lists

The value of a field from its three versions: the last one that both sides agreed on (`base`), the one
on this device (`local`) and the one on the server (`remote`).

* `Merge.scalar` takes a value as a whole. A remote change wins over a local one, and an absent value
  never counts as a change.
* `Merge.list` takes a list as a base with additions and removals. The edits of both sides are applied,
  those that both made only once.
-/

namespace PasswordVault
namespace Merge

/-- How the three versions of a value are merged. -/
abbrev Strategy (F : Type) := (base here there : Option F) → Option F

variable {F : Type} [DecidableEq F]

/-! ## Single values -/

/-- A value that is present and differs from the base. -/
def changed? (value base : Option F) : Option F := if value = base then none else value

def scalar : Strategy F := fun base here there =>
  (changed? there base).or ((changed? here base).or base)

/-! ## Lists -/

inductive Edit (F : Type) where
  | remove (value : F)
  | add (value : F)
deriving DecidableEq

/-- The edits that lead from one list to another: what is gone is removed, what is new is added. -/
def edits (old new : List F) : List (Edit F) :=
  (old.filter (· ∉ new)).map .remove ++ (new.filter (· ∉ old)).map .add

/-- An edit applied: the first such value is removed, or the value is added at the end. -/
def Edit.apply (items : List F) : Edit F → List F
  | .remove value => items.erase value
  | .add value => items ++ [value]

/-- The remote edits that are not local edits as well, each counted once. -/
def remaining (localEdits remoteEdits : List (Edit F)) : List (Edit F) :=
  localEdits.foldl List.erase remoteEdits

/-- The base after the local edits and the remaining remote ones. -/
def mergeLists (base here there : List F) : List F :=
  let localEdits := edits base here
  (localEdits ++ remaining localEdits (edits base there)).foldl Edit.apply base

/-- The merge of lists; an absent list counts as empty. -/
def list : Strategy (List F) := fun base here there =>
  some (mergeLists (base.getD []) (here.getD []) (there.getD []))

end Merge
end PasswordVault
