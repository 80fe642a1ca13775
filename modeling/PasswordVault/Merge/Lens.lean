/-!
# Optional lenses

A lens looks at a part of a value that may be absent, and puts a part back. It is lossless for a value
when putting back what it sees changes nothing.
-/

namespace PasswordVault

/-- A view of an optional part of a value. -/
structure Lens (S F : Type) where
  get : S → Option F
  set : S → Option F → S

namespace Lens

variable {S F : Type}

def id : Lens S S where
  get s := some s
  set s focus := focus.getD s

/-- The view of a part that is always there. Putting nothing back leaves the part as it is. -/
def field (get : S → F) (put : S → F → S) : Lens S F where
  get s := some (get s)
  set s focus := match focus with
    | some value => put s value
    | none => s

def optional (get : S → Option F) (put : S → Option F → S) : Lens S F where
  get := get
  set := put

/-- Whether putting back what the lens sees in a value changes nothing. -/
def isLosslessAt [DecidableEq S] (lens : Lens S F) (s : S) : Bool := lens.set s (lens.get s) = s

end Lens
end PasswordVault
