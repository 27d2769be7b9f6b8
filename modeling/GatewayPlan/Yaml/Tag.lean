import GatewayPlan.Tree.Node
import GatewayPlan.Yaml.Scalar

/-!
# Anchors and tags

The names under which a node is kept for later, and the tags that say what it is. A tag is written
in full between angle brackets, or as a name in a set of tags: after two exclamation marks in that
of the core, after one in that of the document, and after a name between two in any other. One
exclamation mark alone is a tag of its own. In a tag a percent sign and two digits stand for a byte.
-/

namespace GatewayPlan.Yaml

open GatewayPlan.Tree

def isNameChar (c : Char) : Bool :=
  c.isAlphanum || c = '_' || c = '-'

def takeWhile (q : Char → Bool) : List Placed → Backwards → Backwards × List Placed
  | [], acc => (acc, [])
  | p :: rest, acc => if q p.char then takeWhile q rest (p.char :: acc) else (acc, p :: rest)

def scanName (text : List Placed) : Option (String × List Placed) :=
  let (name, rest) := takeWhile isNameChar text []
  let ended := Placed.atGap rest ||
    rest.head?.any fun p => p.char ∈ ['?', ':', ',', ']', '\x7d', '%', '@', '\x60']
  if name.isEmpty || !ended then none else some (name.text, rest)

def isTagChar (c : Char) : Bool :=
  isNameChar c ||
    c ∈ [';', '/', '?', ':', '@', '&', '=', '+', '$', '.', '!', '~', '*', '\'', '(', ')']

def takeTagBytes (others : List Char) (acc : ByteArray) :
    List Placed → Option (ByteArray × List Placed)
  | [] => some (acc, [])
  | p :: rest =>
    if p.char = '%' then
      match rest with
      | a :: b :: rest' => do
        let n := (← Json.hex? a.char) * 16 + (← Json.hex? b.char)
        takeTagBytes others (acc.push (UInt8.ofNat n)) rest'
      | _ => none
    else if isTagChar p.char || p.char ∈ others then
      takeTagBytes others (acc.push p.char.toUInt8) rest
    else some (acc, p :: rest)

def takeTag (others : List Char) (text : List Placed) : Option (String × List Placed) := do
  let (bytes, rest) ← takeTagBytes others .empty text
  pure (← String.fromUTF8? bytes, rest)

/-- Sets of tags: the text that stands for each before a name, and the one meant by it. -/
abbrev TagSets := List (String × String)

def TagSets.core : TagSets := [("!", "!"), ("!!", Node.coreTag "")]

/-- The text for a set that ends in an exclamation mark of its own, after its first one. -/
def scanHandle (text : List Placed) : Option (String × List Placed) :=
  let (name, rest) := takeWhile isNameChar text []
  if Placed.startsWith rest '!' then some ("!" ++ name.text ++ "!", rest.drop 1) else none

def scanTagText (sets : TagSets) (text : List Placed) : Option (String × List Placed) := do
  if Placed.startsWith text '<' then
    let (name, rest) ← takeTag [',', '[', ']'] (text.drop 1)
    if name ≠ "" && Placed.startsWith rest '>' then some (name, rest.drop 1) else none
  else match scanHandle text with
    | some (handle, rest) =>
      let (name, rest) ← takeTag [] rest
      if name ≠ "" then some ((← sets.lookup handle) ++ name, rest) else none
    | none =>
      let (name, rest) ← takeTag [] text
      if name = "" then some ("!", rest) else some ((← sets.lookup "!") ++ name, rest)

/-- A tag and the gap that has to follow it. -/
def scanTag (sets : TagSets) (flow : Bool) (text : List Placed) :
    Option (String × List Placed) := do
  let (tag, rest) ← scanTagText sets text
  if Placed.atGap rest || (flow && Placed.startsWith rest ',') then some (tag, rest) else none

end GatewayPlan.Yaml
