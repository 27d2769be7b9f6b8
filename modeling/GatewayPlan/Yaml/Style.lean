import GatewayPlan.Tree.Plain
import GatewayPlan.Yaml.Placed

/-!
# Writing YAML scalars

A text with a line feed is written as a block, and any other without quotes. Where that would be
read as something else it is written in single quotes, and in double quotes where these would lose
characters. Lines are never wrapped.
-/

namespace GatewayPlan.Yaml

open GatewayPlan.Tree

/-- A character that is shown as it is. -/
def isShown (c : Char) : Bool :=
  let n := c.toNat
  c = '\n' || (0x20 ≤ n && n ≤ 0x7E) || (0xA0 ≤ n && n ≤ 0xFFFD && n ≠ 0xFEFF) || 0x10000 ≤ n

def isSpaceOrBreak (c : Char) : Bool :=
  c = ' ' || isBreak c

/-- Whether a character of the first kind stands right before one of the second. -/
def hasPair (p q : Char → Bool) : List Char → Bool
  | c :: d :: rest => (p c && q d) || hasPair p q (d :: rest)
  | _ => false

/-- Whether it ends, or a space or line break comes next. -/
def isGap (cs : List Char) : Bool :=
  cs.head?.all isSpaceOrBreak

def leadingMarks : List Char :=
  ['#', ',', '[', ']', '\x7b', '\x7d', '&', '*', '!', '|', '>', '\'', '"', '%', '@', '\x60']

/-- A mark at the start that makes a text without quotes something else. -/
def leadsWithMark : List Char → Bool
  | c :: rest =>
    c ∈ leadingMarks || ((c = '?' || c = ':' || c = '-') && isGap rest) ||
      "---".toList.isPrefixOf (c :: rest) || "...".toList.isPrefixOf (c :: rest)
  | [] => false

/-- A colon that would end a key, or the start of a comment. -/
def hasMark : List Char → Bool
  | c :: d :: rest =>
    (d = ':' && isGap rest) || (isSpaceOrBreak c && d = '#') || hasMark (d :: rest)
  | _ => false

def isStrange (cs : List Char) : Bool :=
  !cs.all isShown || hasPair (· = ' ') isBreak cs

def fitsPlain (cs : List Char) : Bool :=
  !isStrange cs && !cs.any isBreak && !cs.head?.any (· = ' ') && !cs.getLast?.any (· = ' ') &&
    !leadsWithMark cs && !hasMark cs

def fitsSingle (cs : List Char) : Bool :=
  !isStrange cs && !hasPair isBreak (· = ' ') cs

def fitsBlock (cs : List Char) : Bool :=
  !isStrange cs && !cs.getLast?.any (· = ' ')

/-- Whether a text without quotes would stand for a value of another type, or look like one. -/
def isAmbiguous (s : String) : Bool :=
  Plain.hasNeedlessZero s.toList || match Plain.resolve s with
    | .text _ => false
    | _ => true

inductive Style where
  | plain
  | single
  | double
  | block
  deriving DecidableEq, Repr

def Style.ofText (s : String) : Style :=
  let cs := s.toList
  if '\n' ∈ cs then (if fitsBlock cs then block else double)
  else if fitsPlain cs && !isAmbiguous s then plain
  else if fitsSingle cs then single
  else double

def pad (n : Nat) : String :=
  String.ofList (List.replicate n ' ')

def hexDigits (width n : Nat) : List Char :=
  let digits := (Nat.toDigits 16 n).map Char.toUpper
  List.replicate (width - digits.length) '0' ++ digits

def escapeCode (c : Char) : List Char :=
  let n := c.toNat
  if n ≤ 0xFF then 'x' :: hexDigits 2 n else 'u' :: hexDigits 4 n

def escape (c : Char) : List Char :=
  '\\' :: match c with
    | '\x00' => ['0']
    | '\x07' => ['a']
    | '\x08' => ['b']
    | '\t' => ['t']
    | '\n' => ['n']
    | '\x0b' => ['v']
    | '\x0c' => ['f']
    | '\r' => ['r']
    | '\x1b' => ['e']
    | '"' => ['"']
    | '\\' => ['\\']
    | '\u0085' => ['N']
    | '\u2028' => ['L']
    | '\u2029' => ['P']
    | c => escapeCode c

def doubleChar (c : Char) : List Char :=
  if !isShown c || isBreak c || c = '"' || c = '\\' then escape c else [c]

def double (s : String) : String :=
  "\"" ++ String.ofList (s.toList.flatMap doubleChar) ++ "\""

/-- The rest of a text in single quotes. A line after a break is indented, and so is the closing
quote. -/
def singleRest (margin : List Char) (afterBreak : Bool) : List Char → List Char
  | [] => (if afterBreak then margin else []) ++ ['\'']
  | c :: rest =>
    if isBreak c then c :: singleRest margin true rest
    else
      (if afterBreak then margin else []) ++ (if c = '\'' then ['\'', '\''] else [c]) ++
        singleRest margin false rest

def single (indent : Nat) (s : String) : String :=
  "'" ++ String.ofList (singleRest (List.replicate indent ' ') false s.toList)

/-- What a block says about its own layout: its indentation if that cannot be seen, and whether it
ends without a line break or with more than one. -/
def blockHints (cs : List Char) : String :=
  (if cs.head?.any isSpaceOrBreak then "2" else "") ++
    match cs.reverse with
    | [] => "-"
    | c :: rest => if !isBreak c then "-" else if rest.head?.all isBreak then "+" else ""

def blockRest (margin : List Char) (afterBreak : Bool) : List Char → List Char
  | [] => if afterBreak then [] else ['\n']
  | c :: rest =>
    if isBreak c then c :: blockRest margin true rest
    else (if afterBreak then margin else []) ++ c :: blockRest margin false rest

def block (indent : Nat) (s : String) : String :=
  "|" ++ blockHints s.toList ++ "\n" ++
    String.ofList (blockRest (List.replicate indent ' ') true s.toList)

/-- A text up to the end of its line, its further lines in column `indent`. -/
def textLine (indent : Nat) (s : String) : String :=
  match Style.ofText s with
  | .plain => s ++ "\n"
  | .single => single indent s ++ "\n"
  | .double => double s ++ "\n"
  | .block => block indent s

/-- A text as a key, which stands on one line. -/
def keyText (s : String) : String :=
  match Style.ofText s with
  | .plain => s
  | .single => if s.toList.any isBreak then double s else single 0 s
  | _ => double s

end GatewayPlan.Yaml
