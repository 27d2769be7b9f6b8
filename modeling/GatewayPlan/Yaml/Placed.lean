/-!
# Characters in their places

In a YAML text the line and the column of a character count as much as the character itself. All
line breaks but the two separators of Unicode are read as a line feed.
-/

namespace GatewayPlan.Yaml

def isBreak (c : Char) : Bool :=
  c = '\n' || c = '\u2028' || c = '\u2029'

def isBlank (c : Char) : Bool :=
  c = ' ' || c = '\t'

def isAllowed (c : Char) : Bool :=
  let n := c.toNat
  n = 0x09 || n = 0x0A || n = 0x0D || (0x20 ≤ n && n ≤ 0x7E) || n = 0x85 ||
    (0xA0 ≤ n && n ≤ 0xFFFD) || 0x10000 ≤ n

def unifyBreaks : List Char → List Char
  | '\r' :: '\n' :: rest => '\n' :: unifyBreaks rest
  | c :: rest => (if c = '\r' || c = '\u0085' then '\n' else c) :: unifyBreaks rest
  | [] => []

structure Placed where
  char : Char
  line : Nat
  column : Nat
  deriving Repr

def place (line column : Nat) : List Char → List Placed
  | [] => []
  | c :: rest =>
    ⟨c, line, column⟩ :: if isBreak c then place (line + 1) 0 rest else place line (column + 1) rest

namespace Placed

/-- The text of a stream, unless it holds a character that is not allowed. -/
def ofText? (s : String) : Option (List Placed) :=
  let cs := match s.toList with
    | '\uFEFF' :: rest => rest
    | cs => cs
  if cs.all isAllowed then some (place 0 0 (unifyBreaks cs)) else none

def atGap (text : List Placed) : Bool :=
  text.head?.all fun p => isBlank p.char || isBreak p.char

def startsWith (text : List Placed) (c : Char) : Bool :=
  text.head?.any (·.char = c)

/-- The mark `c` and a gap after it. -/
def startsWithMark (c : Char) : List Placed → Bool
  | p :: rest => p.char = c && atGap rest
  | [] => false

/-- Three of the same character at the start of a line, alone or before a gap. -/
def atMarker (c : Char) : List Placed → Bool
  | p :: q :: r :: rest =>
    p.column = 0 && p.char = c && q.char = c && r.char = c && atGap rest
  | _ => false

def atBoundary (text : List Placed) : Bool :=
  atMarker '-' text || atMarker '.' text

end Placed

/-- Where a token starts, and whether a key or an item of a list may start there. -/
structure Gap where
  rest : List Placed
  fresh : Bool

/-- Skips blanks, comments and line breaks up to the next token, and a byte order mark at the start
of a line. A tab is skipped unless something may start there. In a block a line break lets
something start. -/
def skipGap (flow : Bool) (comment fresh : Bool) : List Placed → Gap
  | [] => ⟨[], fresh⟩
  | p :: rest =>
    if isBreak p.char then skipGap flow false (fresh || !flow) rest
    else if comment then skipGap flow true fresh rest
    else if p.char = ' ' || (p.char = '\t' && (flow || !fresh)) ||
        (p.char = '\uFEFF' && p.column = 0) then skipGap flow false fresh rest
    else if p.char = '#' then skipGap flow true fresh rest
    else ⟨p :: rest, fresh⟩

end GatewayPlan.Yaml
