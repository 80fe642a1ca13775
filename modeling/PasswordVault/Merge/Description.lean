import PasswordVault.Merge.Member

/-!
# Described rules

Rules for free-form documents as JSON describes them: a node with its lens and, for a group, its
placeholder and its children.

* A lens is `id`, or `optional` or `field` with a `key`, or `swap`, which reads one member and writes
  another.
* A node is a `group`, a `leaf`, a `list`, or a `leaf_list`, which merges a list as a whole.
-/

namespace PasswordVault
namespace Merge

def textAt (j : Json) (key : String) : String :=
  match j.member? key with
  | some (.string s) => s
  | _ => ""

def lensOf (j : Json) : Lens Json Json :=
  match textAt j "kind" with
  | "optional" => optionalMember (textAt j "key")
  | "field" => member (textAt j "key")
  | "swap" => ⟨(optionalMember (textAt j "read")).get, (optionalMember (textAt j "write")).set⟩
  | _ => .id

mutual

/-- A described rule, of fewer than the given number of levels. -/
def Rule.ofJsonWithin : (levels : Nat) → Json → Rule Json
  | 0, _ => .scalar .id
  | levels + 1, j =>
    let lens := lensOf ((j.member? "lens").getD .null)
    match textAt j "node" with
    | "group" =>
      let children := match j.member? "children" with
        | some (.array items) => Rules.ofJsonWithin levels items
        | _ => .nil
      .group lens ((j.member? "identity").getD .null) children
    | "list" => .list (itemsOf lens)
    | "leaf_list" => .scalar (itemsOf lens)
    | _ => .scalar lens

/-- Described rules, of fewer than the given number of levels. -/
def Rules.ofJsonWithin (levels : Nat) : List Json → Rules Json
  | [] => .nil
  | j :: rest => .cons (Rule.ofJsonWithin levels j) (Rules.ofJsonWithin levels rest)

end

def Rule.ofJson (j : Json) : Rule Json := Rule.ofJsonWithin Json.nestingLimit j

end Merge
end PasswordVault
