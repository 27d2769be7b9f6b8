import GatewayPlan.Text.Unprintable

/-!
# Punycode

A label of a domain with characters beyond ASCII, written in letters, digits and hyphens. What is
ASCII stands first. Each number after the last hyphen then says how far the next character is from
the one before, counting all places of the label for each code point. A number is written least
digit first and goes on as long as its digits reach a threshold, which the size of the numbers
before it sets.
-/

namespace GatewayPlan.Punycode

def digit? (c : Char) : Option Nat :=
  if 'a' ≤ c && c ≤ 'z' then some (c.toNat - 'a'.toNat)
  else if c.isDigit then some (c.toNat - '0'.toNat + 26)
  else none

def threshold (place bias : Nat) : Nat :=
  max 1 (min 26 (place - bias))

def biasOf (distance : Nat) : Nat :=
  if 455 < distance then 36 + biasOf (distance / 35) else 36 * distance / (distance + 38)
termination_by distance
decreasing_by omega

/-- The label so far and the last code point put in, at the place before `start`. The digits of the
next number lead to the place `target`, and `digit` and `weight` are those of its next digit. -/
structure Decoder where
  label : List Char
  code : Nat
  start : Nat
  bias : Nat
  target : Nat
  digit : Nat
  weight : Nat

namespace Decoder

def initial (label : List Char) : Decoder :=
  ⟨label, 128, 0, 72, 0, 36, 1⟩

def insert (d : Decoder) (target : Nat) : Option Decoder :=
  let places := d.label.length + 1
  let code := d.code + target / places
  let place := target % places
  let distance := (target - d.start) / if d.start = 0 then 700 else 2
  if code.isValidChar then
    some ⟨d.label.insertIdx place (Char.ofNat code), code, place + 1,
      biasOf (distance + distance / places), place + 1, 36, 1⟩
  else none

def step (d : Decoder) (c : Char) : Option Decoder := do
  let n ← digit? c
  let least := threshold d.digit d.bias
  let target := d.target + n * d.weight
  if n < least then d.insert target
  else pure { d with target, digit := d.digit + 36, weight := d.weight * (36 - least) }

end Decoder

def cutLabel (cs : List Char) : List Char × List Char :=
  let tail := (cs.reverse.takeWhile (· ≠ '-')).reverse
  (cs.take (cs.length - tail.length - 1), tail)

def decode? (cs : List Char) : Option (List Char) := do
  if cs.head? = some '-' && cs.tail.all (· ≠ '-') then none
  let (basic, numbers) := cutLabel cs
  let d ← numbers.foldlM Decoder.step (.initial basic)
  if d.digit = 36 then pure d.label else none

/-- Whether this is the form of a label that needs it and starts with a character to be seen. -/
def isNeeded (cs : List Char) : Bool :=
  match decode? cs with
  | some label => label.any (0x80 ≤ ·.toNat) && !label.head?.any Text.isUnprintable
  | none => false

end GatewayPlan.Punycode
