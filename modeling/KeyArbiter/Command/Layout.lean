import KeyArbiter.Layout

/-!
# Layouts on the command line
-/

namespace KeyArbiter.Command

/-- The layout of this name, or else the us layout. -/
def resolveLayout (name : Option String) : Except String Layout :=
  let name := name.getD Layout.us.name
  match Layout.find? name with
  | some layout => .ok layout
  | none =>
    .error ("unknown layout `" ++ name ++ "` (registered: " ++
      String.intercalate ", " (Layout.registered.map (·.name)) ++ ")")

def yesNo (b : Bool) : String := if b then "yes" else "no"

end KeyArbiter.Command
