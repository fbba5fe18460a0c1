import Switchboard.Identifier

/-!
The rows of a mapping.
-/

namespace Switchboard

/-- An identifier, the type of its handler, and the line both stand on (counted from 1, and line 1
is the marker). -/
structure Entry where
  identifier : Identifier
  typeName : String
  line : Nat
deriving DecidableEq, Repr

end Switchboard
