import KeyArbiter.Json.Value
import KeyArbiter.Layout
import KeyArbiter.Text.Blank

/-!
# Looking a key up

The physical key, logical key and character of one scan code and key symbol.
-/

namespace KeyArbiter.Command

open Text (decimal hex)

structure Lookup where
  layout : String
  query : LayoutQuery
  physical : PhysicalKey
  logical : LogicalKey
  character : Option Char
  deriving DecidableEq, Repr

namespace Lookup

def ofQuery (layout : Layout) (q : LayoutQuery) : Lookup where
  layout := layout.name
  query := q
  physical := .ofKeycode q.keycode
  logical := layout.lookup q
  character := charOfKeyval q.keyval

/-- One line each. A character that is blank does not show. -/
def text (l : Lookup) : String :=
  Text.trimEnd <| String.intercalate "\n" [
    "Key: keycode=" ++ hex 4 l.query.keycode.toNat ++ " keyval=" ++ hex 6 l.query.keyval.toNat ++
      " group=" ++ decimal l.query.group.toNat ++ " [" ++ l.layout ++ "]",
    "Physical: " ++ hex 0 l.physical.word.toNat,
    "Logical: " ++ hex 0 l.logical.word.toNat,
    "Character: " ++ (l.character.map String.singleton).getD "(none)"]

def value (l : Lookup) : Json.Value :=
  .object [
    ("layout", .text l.layout),
    ("keycode", .natural l.query.keycode.toNat),
    ("keyval", .natural l.query.keyval.toNat),
    ("group", .natural l.query.group.toNat),
    ("physical", .natural l.physical.word.toNat),
    ("logical", .natural l.logical.word.toNat),
    ("character", (l.character.map fun c => .text (String.singleton c)).getD .null)]

end Lookup

end KeyArbiter.Command
