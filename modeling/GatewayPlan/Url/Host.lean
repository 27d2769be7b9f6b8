import GatewayPlan.Url.Basic
import GatewayPlan.Url.Percent
import GatewayPlan.Url.Punycode

/-!
# Reading hosts

A host in brackets is an IPv6 address. Of a scheme with hosts of the network, a name that ends in
a number is an IPv4 address, in any of its historical spellings, and any other is a domain.
-/

namespace GatewayPlan.Host

def splitParts (separator : Char) : List Char → List (List Char)
  | [] => [[]]
  | c :: rest =>
    if c = separator then [] :: splitParts separator rest
    else (splitParts separator rest).modifyHead (c :: ·)

def number (base : Nat) (digits : List Char) : Nat :=
  digits.foldl (fun n c => n * base + (Percent.hexValue? c).getD 0) 0

/-- A number of an IPv4 address: hexadecimal after `0x`, octal after `0`, else decimal. -/
def ipv4Number? : List Char → Option Nat
  | [] => none
  | '0' :: 'x' :: rest => hex? rest
  | '0' :: 'X' :: rest => hex? rest
  | '0' :: d :: rest =>
    if (d :: rest).all fun c => '0' ≤ c && c ≤ '7' then some (number 8 (d :: rest)) else none
  | cs => if cs.all Char.isDigit then some (number 10 cs) else none
where
  hex? (cs : List Char) : Option Nat :=
    if cs.all fun c => (Percent.hexValue? c).isSome then some (number 16 cs) else none

/-- The parts of a name between dots, without the empty one after a final dot. -/
def dottedParts (cs : List Char) : List (List Char) :=
  let parts := splitParts '.' cs
  if 1 < parts.length && parts.getLast? = some [] then parts.dropLast else parts

def endsInNumber (cs : List Char) : Bool :=
  match (dottedParts cs).getLast? with
  | some last => (!last.isEmpty && last.all Char.isDigit) || (ipv4Number? last).isSome
  | none => false

/-- The last number fills all the places that the others leave. -/
def ipv4? (cs : List Char) : Option Nat := do
  let numbers ← (dottedParts cs).mapM ipv4Number?
  let last ← numbers.getLast?
  let front := numbers.dropLast
  if 3 < front.length || Nat.pow 256 (4 - front.length) ≤ last || front.any (255 < ·) then none
  else some (front.zipIdx.foldl (fun sum (n, i) => sum + n * Nat.pow 256 (3 - i)) last)

/-- Four decimal numbers without needless zeros, as two pieces. -/
def embeddedIpv4? (cs : List Char) : Option (List Nat) := do
  let parts := splitParts '.' cs
  if parts.length ≠ 4 then none
  let numbers ← parts.mapM fun part =>
    if part.isEmpty || !part.all Char.isDigit || (1 < part.length && part.head? = some '0') ||
        255 < number 10 part then none
    else some (number 10 part)
  match numbers with
  | [a, b, c, d] => some [a * 256 + b, c * 256 + d]
  | _ => none

def hexPiece? (part : List Char) : Option Nat :=
  if part.isEmpty || 4 < part.length || !part.all fun c => (Percent.hexValue? c).isSome then none
  else some (number 16 part)

/-- Pieces between colons; the last part may be an IPv4 address. -/
def ipv6Pieces? : List (List Char) → Option (List Nat)
  | [] => some []
  | [last] => if '.' ∈ last then embeddedIpv4? last else (hexPiece? last).map ([·])
  | part :: rest => do
    let piece ← hexPiece? part
    let pieces ← ipv6Pieces? rest
    pure (piece :: pieces)

def cutAtDoubleColon : List Char → Option (List Char × List Char)
  | ':' :: ':' :: rest => some ([], rest)
  | c :: rest => (cutAtDoubleColon rest).map fun cut => (c :: cut.1, cut.2)
  | [] => none

def piecesOf? (cs : List Char) : Option (List Nat) :=
  if cs.isEmpty then some [] else ipv6Pieces? (splitParts ':' cs)

def ipv6? (cs : List Char) : Option (List Nat) :=
  match cutAtDoubleColon cs with
  | none => do
    let pieces ← piecesOf? cs
    if pieces.length = 8 then some pieces else none
  | some (front, back) => do
    if '.' ∈ front then none
    let before ← piecesOf? front
    let after ← piecesOf? back
    if before.length + after.length ≤ 7 then
      some (before ++ List.replicate (8 - before.length - after.length) 0 ++ after)
    else none

def bracketed? (cs : List Char) : Option (Except UrlFault Host) :=
  match cs with
  | '[' :: rest =>
    some (if rest.getLast? = some ']' then
      match ipv6? rest.dropLast with
      | some pieces => .ok (.ipv6 pieces)
      | none => .error .invalidIpv6
    else .error .invalidIpv6)
  | _ => none

def isForbidden (c : Char) : Bool :=
  c ∈ ['\x00', '\t', '\n', '\r', ' ', '#', '/', ':', '<', '>', '?', '@', '[', '\\', ']', '^', '|']

/-- Domain names here are ASCII. -/
def isForbiddenInDomain (c : Char) : Bool :=
  isForbidden c || Percent.isControl c || c = '%'

/-- Whether a label is announced as Punycode and is none. -/
def isBadLabel (label : List Char) : Bool :=
  match label with
  | 'x' :: 'n' :: '-' :: '-' :: rest => !Punycode.isNeeded rest
  | _ => false

def ofText (cs : List Char) : Except UrlFault Host :=
  match bracketed? cs with
  | some host => host
  | none =>
    let name := (Percent.decode cs).map Char.toLower
    if name.any isForbiddenInDomain || (splitParts '.' name).any isBadLabel then
      .error .invalidDomain
    else if name.isEmpty then .error .emptyHost
    else if endsInNumber name then
      match ipv4? name with
      | some address => .ok (.ipv4 address)
      | none => .error .invalidIpv4
    else .ok (.domain (String.ofList name))

/-- The host of any other scheme, which has no meaning here. -/
def ofUnknown (cs : List Char) : Except UrlFault Host :=
  match bracketed? cs with
  | some host => host
  | none =>
    if cs.any isForbidden then .error .invalidHostCharacter
    else .ok (.domain (Percent.encode Percent.isControl cs))

end GatewayPlan.Host
