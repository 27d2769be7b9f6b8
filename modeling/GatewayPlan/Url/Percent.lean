/-!
# Percent encoding

A character that may not stand for itself is written as its UTF-8 bytes, each a percent sign and
two digits. What may not stand for itself depends on the part of the URL.
-/

namespace GatewayPlan.Percent

def isControl (c : Char) : Bool :=
  c.toNat < 0x20 || 0x7F ≤ c.toNat

def fragment (c : Char) : Bool :=
  isControl c || c ∈ [' ', '"', '<', '>', '`']

def query (c : Char) : Bool :=
  isControl c || c ∈ [' ', '"', '#', '<', '>']

def specialQuery (c : Char) : Bool :=
  query c || c = '\''

def path (c : Char) : Bool :=
  fragment c || c ∈ ['#', '?', '\x7b', '\x7d']

def userinfo (c : Char) : Bool :=
  path c || c ∈ ['/', ':', ';', '=', '@', '[', '\\', ']', '^', '|']

def hexDigit (n : Nat) : Char :=
  if n < 10 then Char.ofNat (48 + n) else Char.ofNat (55 + n)

def encodeByte (b : UInt8) : List Char :=
  ['%', hexDigit (b.toNat / 16), hexDigit (b.toNat % 16)]

def encodeChar (escaped : Char → Bool) (c : Char) : List Char :=
  if escaped c then c.toString.toUTF8.toList.flatMap encodeByte else [c]

def encode (escaped : Char → Bool) (cs : List Char) : String :=
  String.ofList (cs.flatMap (encodeChar escaped))

def hexValue? (c : Char) : Option Nat :=
  if '0' ≤ c && c ≤ '9' then some (c.toNat - 48)
  else if 'a' ≤ c && c ≤ 'f' then some (c.toNat - 87)
  else if 'A' ≤ c && c ≤ 'F' then some (c.toNat - 55)
  else none

/-- Escaped bytes as the code points of the same number. A percent sign without two digits after
it stands for itself. -/
def decode : List Char → List Char
  | '%' :: a :: b :: rest =>
    match hexValue? a, hexValue? b with
    | some m, some n => Char.ofNat (16 * m + n) :: decode rest
    | _, _ => '%' :: decode (a :: b :: rest)
  | c :: rest => c :: decode rest
  | [] => []

end GatewayPlan.Percent
