/-!
# URLs

The parts of an absolute URL and their normalized text.
-/

namespace GatewayPlan

inductive Host where
  | domain (name : String)
  | ipv4 (address : Nat)
  | ipv6 (pieces : List Nat)
  deriving DecidableEq, Repr

namespace Host

def ipv4Text (address : Nat) : String :=
  ".".intercalate ([24, 16, 8, 0].map fun shift => toString (address / Nat.pow 2 shift % 256))

/-- The run of zero pieces that is left out: the first of the longest ones, if it has two at
least. Start and length. -/
def longestZeros (pieces : List Nat) : Nat × Nat :=
  let runs := (List.range pieces.length).map fun i =>
    (i, ((pieces.drop i).takeWhile (· = 0)).length)
  runs.foldl (fun best run => if best.2 < run.2 && 2 ≤ run.2 then run else best) (0, 0)

def piecesText (pieces : List Nat) : String :=
  ":".intercalate (pieces.map fun n => String.ofList (Nat.toDigits 16 n))

def ipv6Text (pieces : List Nat) : String :=
  match longestZeros pieces with
  | (_, 0) => piecesText pieces
  | (start, length) =>
    piecesText (pieces.take start) ++ "::" ++ piecesText (pieces.drop (start + length))

def text : Host → String
  | domain name => name
  | ipv4 address => ipv4Text address
  | ipv6 pieces => "[" ++ ipv6Text pieces ++ "]"

end Host

structure Authority where
  user : String
  password : Option String
  host : Host
  /-- Absent also when it is the scheme's own. -/
  port : Option Nat
  deriving DecidableEq, Repr

namespace Authority

def credentials (a : Authority) : String :=
  match a.password with
  | some password => a.user ++ ":" ++ password ++ "@"
  | none => if a.user = "" then "" else a.user ++ "@"

/-- The text of the authority without the slashes that announce it. -/
def bare (a : Authority) : String :=
  a.credentials ++ a.host.text ++ match a.port with
    | some port => ":" ++ toString port
    | none => ""

def text (a : Authority) : String :=
  "//" ++ a.bare

theorem toList_text (a : Authority) : a.text.toList = '/' :: '/' :: a.bare.toList := by
  simp [text]

end Authority

inductive UrlPath where
  /-- Text that is not cut into segments. -/
  | whole (text : String)
  | segments (names : List String)
  deriving DecidableEq, Repr

def UrlPath.text : UrlPath → String
  | whole text => text
  | segments names => names.foldl (fun text name => text ++ "/" ++ name) ""

structure Url where
  scheme : String
  authority : Option Authority
  path : UrlPath
  query : Option String
  fragment : Option String
  deriving DecidableEq, Repr

namespace Url

/-- Keeps a path that begins with an empty segment from being taken for an authority. -/
def pathGuard (u : Url) : String :=
  match u.authority, u.path with
  | none, .segments ("" :: _ :: _) => "/."
  | _, _ => ""

def text (u : Url) : String :=
  u.scheme ++ ":" ++ (match u.authority with
    | some a => a.text
    | none => "") ++ u.pathGuard ++ u.path.text ++ (match u.query with
    | some q => "?" ++ q
    | none => "") ++ match u.fragment with
    | some f => "#" ++ f
    | none => ""

end Url

inductive UrlFault where
  | relative
  | emptyHost
  | invalidPort
  | invalidIpv4
  | invalidIpv6
  | invalidDomain
  | invalidHostCharacter
  deriving DecidableEq, Repr

def UrlFault.message : UrlFault → String
  | relative => "relative URL without a base"
  | emptyHost => "empty host"
  | invalidPort => "invalid port number"
  | invalidIpv4 => "invalid IPv4 address"
  | invalidIpv6 => "invalid IPv6 address"
  | invalidDomain => "invalid international domain name"
  | invalidHostCharacter => "invalid domain character"

end GatewayPlan
