import GatewayPlan.Url.Host

/-!
# Reading URLs

`Url.ofText` reads an absolute URL and normalizes it. Schemes of the network and `file` are
special: they have hosts with a meaning, treat a backslash as a slash, and never have an empty
path.
-/

namespace GatewayPlan.Url

inductive SchemeKind where
  | network (defaultPort : Nat)
  | file
  | other
  deriving DecidableEq, Repr

def SchemeKind.ofName (scheme : String) : SchemeKind :=
  match scheme with
  | "http" => network 80
  | "ws" => network 80
  | "https" => network 443
  | "wss" => network 443
  | "ftp" => network 21
  | "file" => file
  | _ => other

def SchemeKind.isSpecial (k : SchemeKind) : Bool :=
  k ≠ other

/-- Without the blanks and controls around it, and without tabs and line breaks. -/
def cleaned (s : String) : List Char :=
  let isEdge (c : Char) := c.toNat ≤ 0x20
  let trimmed := ((s.toList.dropWhile isEdge).reverse.dropWhile isEdge).reverse
  trimmed.filter fun c => !(c = '\t' || c = '\n' || c = '\r')

def isSchemeChar (c : Char) : Bool :=
  c.isAlphanum || c = '+' || c = '-' || c = '.'

def scheme? (cs : List Char) : Option (String × List Char) :=
  match cs.dropWhile isSchemeChar with
  | ':' :: rest =>
    if cs.head?.any Char.isAlpha then
      some (String.ofList ((cs.takeWhile isSchemeChar).map Char.toLower), rest)
    else none
  | _ => none

def isSlash (special : Bool) (c : Char) : Bool :=
  c = '/' || (special && c = '\\')

def endsAuthority (special : Bool) (c : Char) : Bool :=
  isSlash special c || c = '?' || c = '#'

/-- The text before the last `@` of the authority, if it has one, and the rest. -/
def cutUserinfo (special : Bool) (cs : List Char) : Option (List Char) × List Char :=
  let authority := cs.takeWhile fun c => !endsAuthority special c
  let rest := cs.dropWhile fun c => !endsAuthority special c
  if '@' ∈ authority then
    let host := (authority.reverse.takeWhile (· ≠ '@')).reverse
    (some (authority.take (authority.length - host.length - 1)), host ++ rest)
  else (none, cs)

/-- User and password. An empty password counts as none. -/
def credentials (userinfo : List Char) : String × Option String :=
  let user := userinfo.takeWhile (· ≠ ':')
  let password := (userinfo.dropWhile (· ≠ ':')).drop 1
  (Percent.encode Percent.userinfo user,
    if password.isEmpty then none else some (Percent.encode Percent.userinfo password))

/-- The text of the host, up to a colon outside brackets or the end of the authority. -/
def cutHost (special inBrackets : Bool) : List Char → List Char × List Char
  | [] => ([], [])
  | c :: rest =>
    if endsAuthority special c || (c = ':' && !inBrackets) then ([], c :: rest)
    else
      let (host, after) := cutHost special
        (if c = '[' then true else if c = ']' then false else inBrackets) rest
      (c :: host, after)

def readPort (cs : List Char) : Except UrlFault (Option Nat × List Char) :=
  let digits := cs.takeWhile Char.isDigit
  let rest := cs.dropWhile Char.isDigit
  let number := Host.number 10 digits
  let ends := match rest with
    | [] => true
    | c :: _ => endsAuthority true c
  if 65535 < number || !ends then .error .invalidPort
  else .ok (if digits.isEmpty then none else some number, rest)

/-- Only a scheme that is not special goes without a host. -/
def readHost (kind : SchemeKind) (cs : List Char) : Except UrlFault Host :=
  if !kind.isSpecial then Host.ofUnknown cs
  else if cs.isEmpty then .error .emptyHost
  else Host.ofText cs

def readAfterHost (host : Host) : List Char → Except UrlFault (Option Nat × List Char)
  | ':' :: digits => if host = .domain "" then .error .emptyHost else readPort digits
  | rest => .ok (none, rest)

def SchemeKind.port (kind : SchemeKind) (port : Option Nat) : Option Nat :=
  match kind with
  | network defaultPort => port.filter (· ≠ defaultPort)
  | _ => port

/-- A user and a port want a host. -/
def readAuthority (kind : SchemeKind) (cs : List Char) : Except UrlFault (Authority × List Char) :=
  let (userinfo, afterUser) := cutUserinfo kind.isSpecial cs
  if userinfo = some [] && afterUser.head?.any (endsAuthority kind.isSpecial) then
    .error .emptyHost
  else do
    let (user, password) := credentials (userinfo.getD [])
    let (hostText, afterHost) := cutHost kind.isSpecial false afterUser
    let host ← readHost kind hostText
    let (port, rest) ← readAfterHost host afterHost
    if host = .domain "" && (user ≠ "" || password.isSome) then .error .emptyHost
    else .ok (⟨user, password, host, kind.port port⟩, rest)

def isSingleDot (segment : List Char) : Bool :=
  (String.ofList (segment.map Char.toLower)) ∈ [".", "%2e"]

def isDoubleDot (segment : List Char) : Bool :=
  (String.ofList (segment.map Char.toLower)) ∈ ["..", "%2e.", ".%2e", "%2e%2e"]

/-- The name of a drive, above which a path does not go up. -/
def isDrive : List Char → Bool
  | [c, d] => c.isAlpha && (d = ':' || d = '|')
  | _ => false

def parent (names : List String) : List String :=
  if names.getLast?.any fun name => isDrive name.toList then names else names.dropLast

/-- The first name of a `file` path is written with a colon if it is a drive. -/
def segmentText (kind : SchemeKind) (first : Bool) (segment : List Char) : String :=
  if kind = .file && first && isDrive segment then String.ofList (segment.take 1) ++ ":"
  else Percent.encode Percent.path segment

/-- Segments in order, where dots go nowhere or up. A dot at the end leaves an empty name. -/
def resolveSegments (kind : SchemeKind) (names : List String) : List (List Char) → List String
  | [] => names
  | segment :: rest =>
    let final := rest.isEmpty
    let names' :=
      if isDoubleDot segment then parent names ++ if final then [""] else []
      else if isSingleDot segment then names ++ if final then [""] else []
      else names ++ [segmentText kind names.isEmpty segment]
    resolveSegments kind names' rest

def segmentsOf (kind : SchemeKind) (cs : List Char) : List String :=
  let slashed := cs.map fun c => if isSlash kind.isSpecial c then '/' else c
  resolveSegments kind [] (Host.splitParts '/' slashed)

def queryAndFragment (kind : SchemeKind) (cs : List Char) : Option String × Option String :=
  let escaped := if kind.isSpecial then Percent.specialQuery else Percent.query
  let beforeFragment := cs.takeWhile (· ≠ '#')
  let query := match beforeFragment with
    | '?' :: q => some (Percent.encode escaped q)
    | _ => none
  let fragment := match cs.dropWhile (· ≠ '#') with
    | _ :: f => some (Percent.encode Percent.fragment f)
    | [] => none
  (query, fragment)

def endsPath (c : Char) : Bool :=
  c = '?' || c = '#'

def cutPath (cs : List Char) : List Char × List Char :=
  (cs.takeWhile fun c => !endsPath c, cs.dropWhile fun c => !endsPath c)

def assemble (scheme : String) (kind : SchemeKind) (authority : Option Authority)
    (path : List Char → UrlPath) (cs : List Char) : Url :=
  let (pathText, rest) := cutPath cs
  let (query, fragment) := queryAndFragment kind rest
  ⟨scheme, authority, path pathText, query, fragment⟩

def withoutSlash (special : Bool) (cs : List Char) : List Char :=
  if cs.head?.any (isSlash special) then cs.drop 1 else cs

def pathAfterAuthority (kind : SchemeKind) (cs : List Char) : UrlPath :=
  if cs.isEmpty && !kind.isSpecial then .segments []
  else .segments (segmentsOf kind (withoutSlash kind.isSpecial cs))

/-- What stands between the two slashes of a `file` URL and its path. A drive is no host, and the
local machine need not be named. Without a host the path keeps its own slash, which makes its first
name empty. -/
def fileHost (cs : List Char) : Except UrlFault (Host × List Char) := do
  let text := cs.takeWhile fun c => !endsAuthority true c
  let rest := cs.dropWhile fun c => !endsAuthority true c
  if isDrive text then pure (.domain "", cs)
  else if text.isEmpty then pure (.domain "", rest)
  else
    let host ← Host.ofText text
    pure (if host = .domain "localhost" then (.domain "", rest) else (host, withoutSlash true rest))

/-- A path that starts with a drive leaves no host. Empty names in front of a path are left out. -/
def assembleFile (host : Host) (cs : List Char) : Url :=
  let (pathText, rest) := cutPath cs
  let names := segmentsOf .file pathText
  let host := if names.head?.any fun name => isDrive name.toList then .domain "" else host
  let path := match names.dropWhile (· = "") with
    | [] => [""]
    | names => names
  let (query, fragment) := queryAndFragment .file rest
  ⟨"file", some ⟨"", none, host, none⟩, .segments path, query, fragment⟩

def ofFile (cs : List Char) : Except UrlFault Url :=
  match cs with
  | a :: b :: rest =>
    if isSlash true a && isSlash true b then do
      let (host, rest) ← fileHost rest
      pure (assembleFile host rest)
    else pure (assembleFile (.domain "") (withoutSlash true cs))
  | _ => pure (assembleFile (.domain "") (withoutSlash true cs))

def ofOther (scheme : String) (cs : List Char) : Except UrlFault Url :=
  match cs with
  | '/' :: '/' :: rest => do
    let (a, rest) ← readAuthority .other rest
    pure (assemble scheme .other (some a) (pathAfterAuthority .other) rest)
  | '/' :: _ => .ok (assemble scheme .other none (pathAfterAuthority .other) cs)
  | _ => .ok (assemble scheme .other none
      (fun path => .whole (Percent.encode Percent.isControl path)) cs)

def ofText (s : String) : Except UrlFault Url :=
  match scheme? (cleaned s) with
  | none => .error .relative
  | some (scheme, rest) =>
    match SchemeKind.ofName scheme with
    | .file => ofFile rest
    | .other => ofOther scheme rest
    | kind => do
      let (a, rest) ← readAuthority kind (rest.dropWhile (isSlash true))
      pure (assemble scheme kind (some a) (pathAfterAuthority kind) rest)

end GatewayPlan.Url
