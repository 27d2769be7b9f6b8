import GatewayPlan.Yaml.Tag

/-!
# Directives

Lines that may stand before the start of a document: the version of the language, once, and sets of
tags, each once. A set may take the place of one that needs no declaration.
-/

namespace GatewayPlan.Yaml

structure Directives where
  hasVersion : Bool
  sets : TagSets

namespace Directives

def none : Directives := ⟨false, []⟩

def isGiven (d : Directives) : Bool :=
  d.hasVersion || !d.sets.isEmpty

/-- The sets in force. -/
def allSets (d : Directives) : TagSets :=
  d.sets ++ TagSets.core

def withoutBlanks (line : List Placed) : List Placed :=
  line.dropWhile fun p => isBlank p.char

/-- Whether nothing is left of a line but blanks and a comment. -/
def isOver (line : List Placed) : Bool :=
  (withoutBlanks line).head?.all (·.char = '#')

/-- A part of a version number, of nine digits at most. -/
def number? (line : List Placed) : Option (Nat × List Placed) := do
  let (digits, rest) := takeWhile Char.isDigit line []
  if 9 < digits.length then .none
  else pure (← digits.text.toNat?, rest)

def version? (d : Directives) (line : List Placed) : Option Directives := do
  let (major, line) ← number? line
  if d.hasVersion || !Placed.startsWith line '.' then .none
  let (minor, line) ← number? (line.drop 1)
  if major = 1 && (minor = 1 || minor = 2) && isOver line then some { d with hasVersion := true }
  else .none

/-- The text for a set of tags. -/
def handle? (line : List Placed) : Option (String × List Placed) :=
  if !Placed.startsWith line '!' then .none
  else match scanHandle (line.drop 1) with
    | some scanned => some scanned
    | .none => if Placed.atGap (line.drop 1) then some ("!", line.drop 1) else .none

def set? (d : Directives) (line : List Placed) : Option Directives := do
  let (handle, line) ← handle? line
  let (meant, rest) ← takeTag [',', '[', ']'] (withoutBlanks line)
  if !Placed.atGap line || meant = "" || !Placed.atGap rest || !isOver rest ||
      (d.sets.lookup handle).isSome then .none
  else some { d with sets := (handle, meant) :: d.sets }

/-- One more line, after its percent sign. -/
def read? (d : Directives) (line : List Placed) : Option Directives :=
  let (name, rest) := takeWhile isNameChar line []
  if !Placed.atGap rest then .none
  else match name.text with
    | "YAML" => d.version? (withoutBlanks rest)
    | "TAG" => d.set? (withoutBlanks rest)
    | _ => .none

end Directives

end GatewayPlan.Yaml
