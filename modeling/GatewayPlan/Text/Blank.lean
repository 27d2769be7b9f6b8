/-!
# Blank text

Whitespace is the Unicode property `White_Space`. A text is blank when it has nothing else.
-/

namespace GatewayPlan.Text

def isSpace (c : Char) : Bool :=
  let n := c.toNat
  (0x09 ≤ n && n ≤ 0x0D) || n == 0x20 || n == 0x85 || n == 0xA0 || n == 0x1680 ||
    (0x2000 ≤ n && n ≤ 0x200A) || n == 0x2028 || n == 0x2029 || n == 0x202F || n == 0x205F ||
    n == 0x3000

def isBlank (s : String) : Bool :=
  s.toList.all isSpace

/-- Whitespace at either end. -/
def isPadded (cs : List Char) : Bool :=
  cs.head?.any isSpace || cs.getLast?.any isSpace

end GatewayPlan.Text
