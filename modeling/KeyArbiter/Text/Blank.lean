/-!
# Blank characters

The characters with Unicode's `White_Space` property, and cutting them off the ends of a text.
-/

namespace KeyArbiter.Text

/-- Unicode's `White_Space` property. -/
def isBlank (c : Char) : Bool :=
  let n := c.toNat
  (9 ≤ n && n ≤ 13) || n == 0x20 || n == 0x85 || n == 0xa0 || n == 0x1680 ||
    (0x2000 ≤ n && n ≤ 0x200a) || n == 0x2028 || n == 0x2029 || n == 0x202f || n == 0x205f ||
    n == 0x3000

def dropBlankStart (cs : List Char) : List Char := cs.dropWhile isBlank

def dropBlankEnd (cs : List Char) : List Char := (cs.reverse.dropWhile isBlank).reverse

def trim (s : String) : String := String.ofList (dropBlankEnd (dropBlankStart s.toList))

def trimEnd (s : String) : String := String.ofList (dropBlankEnd s.toList)

end KeyArbiter.Text
