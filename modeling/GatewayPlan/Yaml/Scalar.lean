import GatewayPlan.Decimal.Double
import GatewayPlan.Json.Token
import GatewayPlan.Yaml.Placed

/-!
# Reading YAML scalars

Scalars without quotes, in single or double quotes, and in blocks. A line break inside the first
three is folded: alone it is read as a space, and of several the first is dropped.
-/

namespace GatewayPlan.Yaml

/-- A text being read, last character first. -/
abbrev Backwards := List Char

def Backwards.text (t : Backwards) : String :=
  String.ofList t.reverse

inductive Spacing where
  | none
  | blanks (cs : List Char)
  | breaks (first : Char) (others : List Char)
  /-- Line breaks after one that was escaped. -/
  | joined (others : List Char)

namespace Spacing

def blank (c : Char) : Spacing → Spacing
  | none => blanks [c]
  | blanks cs => blanks (cs ++ [c])
  | s => s

def lineBreak (c : Char) : Spacing → Spacing
  | none => breaks c []
  | blanks _ => breaks c []
  | breaks first others => breaks first (others ++ [c])
  | joined others => joined (others ++ [c])

def folded : Spacing → List Char
  | none => []
  | blanks cs => cs
  | breaks '\n' [] => [' ']
  | breaks '\n' others => others
  | breaks first others => first :: others
  | joined others => others

def isNone : Spacing → Bool
  | none => true
  | _ => false

def crosses : Spacing → Bool
  | none => false
  | blanks _ => false
  | _ => true

def endOn (s : Spacing) (t : Backwards) : Backwards :=
  s.folded.reverse ++ t

end Spacing

structure Scanned where
  text : String
  rest : List Placed
  /-- Whether a key or an item may start after it. -/
  fresh : Bool

/-! ### Without quotes -/

def indicators : List Char :=
  ['-', '?', ':', ',', '[', ']', '\x7b', '\x7d', '#', '&', '*', '!', '|', '>', '\'', '"', '%',
    '@', '\x60']

def flowMarks : List Char := [',', '[', ']', '\x7b', '\x7d']

def startsPlain (flow : Bool) : List Placed → Bool
  | [] => false
  | p :: rest =>
    !(isBlank p.char || isBreak p.char || p.char ∈ indicators) ||
      ((p.char = '-' || (!flow && (p.char = '?' || p.char = ':'))) && !Placed.atGap rest)

/-- A mark that cannot follow a colon in a flow. -/
def clashesWithColon : List Placed → Bool
  | p :: _ => p.char ∈ '?' :: flowMarks
  | [] => false

/-- Continues a scalar without quotes. In a block its lines are at least in column `least`. -/
def scanPlain (flow : Bool) (least : Nat) (acc : Backwards) (s : Spacing) :
    List Placed → Option Scanned
  | [] => some ⟨acc.text, [], s.crosses⟩
  | p :: rest =>
    let stop := some ⟨acc.text, p :: rest, s.crosses⟩
    if Placed.atBoundary (p :: rest) then stop
    else if isBlank p.char then
      if s.crosses && p.column < least && p.char = '\t' then none
      else scanPlain flow least acc (s.blank p.char) rest
    else if isBreak p.char then scanPlain flow least acc (s.lineBreak p.char) rest
    else if s.crosses && !flow && p.column < least then stop
    else if p.char = '#' && !s.isNone then stop
    else if flow && p.char = ':' && clashesWithColon rest then none
    else if p.char = ':' && Placed.atGap rest then stop
    else if flow && p.char ∈ flowMarks then stop
    else scanPlain flow least (p.char :: s.endOn acc) .none rest

/-! ### Quotes -/

def scanSingle (acc : Backwards) (s : Spacing) : List Placed → Option Scanned
  | [] => none
  | p :: rest =>
    if Placed.atBoundary (p :: rest) then none
    else if isBlank p.char then scanSingle acc (s.blank p.char) rest
    else if isBreak p.char then scanSingle acc (s.lineBreak p.char) rest
    else if p.char ≠ '\'' then scanSingle (p.char :: s.endOn acc) .none rest
    else match rest with
      | q :: rest' =>
        if q.char = '\'' then scanSingle ('\'' :: s.endOn acc) .none rest'
        else some ⟨(s.endOn acc).text, rest, false⟩
      | [] => some ⟨(s.endOn acc).text, [], false⟩

def escape? : Char → Option Char
  | '0' => some '\x00'
  | 'a' => some '\x07'
  | 'b' => some '\x08'
  | 't' => some '\t'
  | '\t' => some '\t'
  | 'n' => some '\n'
  | 'v' => some '\x0b'
  | 'f' => some '\x0c'
  | 'r' => some '\r'
  | 'e' => some '\x1b'
  | ' ' => some ' '
  | '"' => some '"'
  | '/' => some '/'
  | '\\' => some '\\'
  | 'N' => some '\u0085'
  | '_' => some '\u00a0'
  | 'L' => some '\u2028'
  | 'P' => some '\u2029'
  | _ => none

def escapeLength? : Char → Option Nat
  | 'x' => some 2
  | 'u' => some 4
  | 'U' => some 8
  | _ => none

inductive Escape where
  | outside
  | backslash
  | digits (left value : Nat)

def scanDouble (acc : Backwards) (s : Spacing) (e : Escape) : List Placed → Option Scanned
  | [] => none
  | p :: rest =>
    match e with
    | .outside =>
      if Placed.atBoundary (p :: rest) then none
      else if isBlank p.char then scanDouble acc (s.blank p.char) .outside rest
      else if isBreak p.char then scanDouble acc (s.lineBreak p.char) .outside rest
      else if p.char = '\\' then scanDouble (s.endOn acc) .none .backslash rest
      else if p.char = '"' then some ⟨(s.endOn acc).text, rest, false⟩
      else scanDouble (p.char :: s.endOn acc) .none .outside rest
    | .backslash =>
      if isBreak p.char then scanDouble acc (.joined []) .outside rest
      else match escapeLength? p.char with
        | some n => scanDouble acc .none (.digits n 0) rest
        | none => match escape? p.char with
          | some c => scanDouble (c :: acc) .none .outside rest
          | none => none
    | .digits left value =>
      match Json.hex? p.char with
      | none => none
      | some d =>
        let value := value * 16 + d
        if 1 < left then scanDouble acc .none (.digits (left - 1) value) rest
        else if value.isValidChar then scanDouble (Char.ofNat value :: acc) .none .outside rest
        else none

/-! ### Blocks -/

inductive Chomping where
  | strip
  | clip
  | keep

def chomping? : Char → Option Chomping
  | '-' => some .strip
  | '+' => some .keep
  | _ => none

def hint? (c : Char) : Option Nat :=
  if '1' ≤ c && c ≤ '9' then some (c.toNat - 48) else none

/-- The header of a block after its mark: chomping and indentation in either order. -/
def blockHeader : List Placed → Chomping × Option Nat × List Placed
  | p :: q :: rest =>
    match chomping? p.char, hint? p.char, chomping? q.char, hint? q.char with
    | some c, _, _, some n => (c, some n, rest)
    | _, some n, some c, _ => (c, some n, rest)
    | some c, _, _, _ => (c, none, q :: rest)
    | _, some n, _, _ => (.clip, some n, q :: rest)
    | _, _, _, _ => (.clip, none, p :: q :: rest)
  | [p] =>
    match chomping? p.char, hint? p.char with
    | some c, _ => (c, none, [])
    | _, some n => (.clip, some n, [])
    | _, _ => (.clip, none, [p])
  | [] => (.clip, none, [])

/-- Goes on to the next line, past blanks and a comment. -/
def skipLine (comment : Bool) : List Placed → Option (List Placed)
  | [] => some []
  | p :: rest =>
    if isBreak p.char then some rest
    else if comment then skipLine true rest
    else if isBlank p.char then skipLine false rest
    else if p.char = '#' then skipLine true rest
    else none

/-- The indentation of a block without a hint: that of its first line with content, or of a blank
line before it that is wider, and at least `least`. Blanks at the end of the text are such a
line. -/
def detectIndent (least widest : Nat) : List Placed → Option Nat
  | [] => some (max least widest)
  | p :: rest =>
    if p.char = ' ' then
      detectIndent least (if rest.isEmpty then max widest (p.column + 1) else widest) rest
    else if p.char = '\t' then none
    else if isBreak p.char then detectIndent least (max widest p.column) rest
    else some (max least (max widest p.column))

structure Block where
  acc : Backwards
  /-- The break after the last line of content. -/
  ending : Option Char
  /-- The breaks of the blank lines after that, in order. -/
  blankLines : List Char
  /-- Whether the last line of content begins with a blank. -/
  indented : Bool
  inLine : Bool

namespace Block

def empty : Block := ⟨[], none, [], false, false⟩

def startLine (folded : Bool) (c : Char) (b : Block) : Block :=
  let foldsHere := folded && b.ending = some '\n' && !b.indented && !isBlank c
  let joint :=
    if foldsHere then (if b.blankLines.isEmpty then [' '] else [])
    else b.ending.toList
  ⟨c :: (b.blankLines.reverse ++ joint.reverse ++ b.acc), none, [], isBlank c, true⟩

def finish (b : Block) : Chomping → String
  | .strip => b.acc.text
  | .clip => Backwards.text (b.ending.toList ++ b.acc)
  | .keep => Backwards.text (b.blankLines.reverse ++ b.ending.toList ++ b.acc)

end Block

/-- Reads the lines of a block whose content is in column `indent`. -/
def scanLines (folded : Bool) (indent : Nat) (b : Block) :
    List Placed → Option (Block × List Placed)
  | [] => some (b, [])
  | p :: rest =>
    if b.inLine then
      if isBreak p.char then
        scanLines folded indent { b with ending := some p.char, inLine := false } rest
      else scanLines folded indent { b with acc := p.char :: b.acc } rest
    else if p.column < indent && p.char = ' ' then scanLines folded indent b rest
    else if p.column < indent && p.char = '\t' then none
    else if isBreak p.char then
      scanLines folded indent { b with blankLines := b.blankLines ++ [p.char] } rest
    else if p.column = indent then scanLines folded indent (b.startLine folded p.char) rest
    else some (b, p :: rest)

/-- Reads a block after its mark. Its content is at least in column `least`. -/
def scanBlock (folded : Bool) (least : Nat) (text : List Placed) : Option Scanned := do
  let (chomping, hint, afterHeader) := blockHeader text
  let lines ← skipLine false afterHeader
  let indent ← match hint with
    | some n => some (if least = 0 then n else least - 1 + n)
    | none => detectIndent (max least 1) 0 lines
  let (b, rest) ← scanLines folded indent .empty lines
  pure ⟨b.finish chomping, rest, true⟩

end GatewayPlan.Yaml
