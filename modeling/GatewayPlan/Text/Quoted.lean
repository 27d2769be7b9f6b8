import GatewayPlan.Text.Unprintable

/-!
# Quoted text

A text between double quotes, as error messages show it: the quote and the backslash take a
backslash, tab, newline, return and null have letters of their own, and every other character that
is not printed stands as its code point in braces.
-/

namespace GatewayPlan.Text

def hexDigits (n : Nat) : String :=
  String.ofList (Nat.toDigits 16 n)

def quotedChar (c : Char) : String :=
  if c = '"' then "\\\""
  else if c = '\\' then "\\\\"
  else if c = '\t' then "\\t"
  else if c = '\n' then "\\n"
  else if c = '\r' then "\\r"
  else if c = '\x00' then "\\0"
  else if isUnprintable c then "\\u\x7b" ++ hexDigits c.toNat ++ "\x7d"
  else c.toString

def quoted (s : String) : String :=
  "\"" ++ s.toList.foldr (fun c rest => quotedChar c ++ rest) "" ++ "\""

end GatewayPlan.Text
