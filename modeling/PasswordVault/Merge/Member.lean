import PasswordVault.Json.Basic
import PasswordVault.Merge.Rule

/-!
# Rules for free-form documents

Lenses onto the members of a JSON object. On a value that is no object they see nothing and change
nothing.
-/

namespace PasswordVault
namespace Merge

/-- The member with a key that may be absent; null counts as absent. -/
def optionalMember (key : String) : Lens Json Json where
  get s := (s.member? key).filter (· ≠ .null)
  set s focus := match focus with
    | some value => s.setMember key value
    | none => s.removeMember key

/-- The member with a key that is always there; a missing one counts as null. -/
def member (key : String) : Lens Json Json :=
  Lens.field (fun s => (s.member? key).getD .null) fun s value => s.setMember key value

/-- The list that a lens sees; anything else counts as absent. -/
def itemsOf (lens : Lens Json Json) : Lens Json (List Json) where
  get s := match lens.get s with
    | some (.array items) => some items
    | _ => none
  set s focus := lens.set s (focus.map .array)

end Merge
end PasswordVault
