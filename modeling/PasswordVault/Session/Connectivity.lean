/-!
# Connectivity

Whether the network can be reached, as somebody reports it. When nobody does any more, the last report
stands.
-/

namespace PasswordVault

/-- The last report, and whether there may be others. -/
structure Connectivity where
  online : Bool
  reported : Bool := true
deriving DecidableEq, Repr

namespace Connectivity

/-- A new report; without a reporter there is none. -/
def report (c : Connectivity) (online : Bool) : Connectivity :=
  if c.reported then { c with online } else c

def abandon (c : Connectivity) : Connectivity := { c with reported := false }

end Connectivity
end PasswordVault
