import GatewayPlan.Tree.Codec
import GatewayPlan.Yaml.Directive

/-!
# YAML documents

The tree of a YAML text that holds one document. Lists and maps are blocks, marked by their column,
or flows between brackets. A key stands on one line with its colon, unless a question mark before
it says that it is one.

A node is read first and becomes a key if a colon follows. In a flow the place of a node may be
empty, and an item with a colon is a map of its own. `least` is always the first column where
content of the innermost block may stand, and `column` that of the block itself. What a node holds
may also be named in it: a node that is still being read cannot be used under its name, and a name
given again stands for the later node.
-/

namespace GatewayPlan.Yaml

open GatewayPlan.Tree

structure Position where
  rest : List Placed
  /-- Whether a key or an item of a list may start here. -/
  fresh : Bool
  anchors : Array (String × Node)
  sets : TagSets

abbrev Reading := StateT Position Option

/-- An anchor, by its place among all anchors, and a tag. -/
structure Properties where
  anchor? : Option Nat
  tag? : Option String

namespace Properties

def none : Properties := ⟨.none, .none⟩

def isNone (p : Properties) : Bool :=
  p.anchor?.isNone && p.tag?.isNone

def merge? (p q : Properties) : Option Properties :=
  if (p.anchor?.isSome && q.anchor?.isSome) || (p.tag?.isSome && q.tag?.isSome) then .none
  else some ⟨p.anchor? <|> q.anchor?, p.tag? <|> q.tag?⟩

end Properties

namespace Reading

def rest : Reading (List Placed) :=
  return (← get).rest

def advance (rest : List Placed) (fresh : Bool) : Reading Unit :=
  modify fun s => { s with rest, fresh }

def drop (fresh : Bool) : Reading Unit := do
  advance ((← rest).drop 1) fresh

def skip (flow : Bool) : Reading Unit := do
  let s ← get
  let gap := skipGap flow false s.fresh s.rest
  advance gap.rest gap.fresh

def require (b : Bool) : Reading Unit :=
  if b then pure () else failure

def here : Reading Placed := do
  match ← rest with
  | p :: _ => pure p
  | [] => failure

def accept (scan : List Placed → Option Scanned) (text : List Placed) : Reading String := do
  match scan text with
  | some s =>
    advance s.rest s.fresh
    pure s.text
  | none => failure

def dress (p : Properties) (n : Node) : Reading Node := do
  let n := match p.tag? with
    | some tag => .tagged tag n
    | none => n
  match p.anchor? with
  | some i =>
    modify fun s => { s with anchors := s.anchors.modify i fun a => (a.1, n) }
    pure n
  | none => pure n

def aliased (name : String) : Reading Node := do
  match (← get).anchors.toList.reverse.lookup name with
  | some n => pure n
  | none => failure

def property (flow : Bool) : Reading Properties := do
  let text ← rest
  if Placed.startsWith text '&' then
    let (name, rest) ← liftM (scanName (text.drop 1))
    let s ← get
    set { s with rest, fresh := false, anchors := s.anchors.push (name, .unreadable) }
    pure ⟨some s.anchors.size, none⟩
  else if Placed.startsWith text '!' then
    let (tag, rest) ← liftM (scanTag (← get).sets flow (text.drop 1))
    advance rest false
    pure ⟨none, some tag⟩
  else pure .none

/-- Up to two properties and the gaps after them. In a block they end with their line. -/
def properties (flow : Bool) : Reading Properties := do
  let first ← property flow
  if first.isNone then pure first
  else
    skip flow
    if (← get).fresh then pure first
    else
      let second ← property flow
      if second.isNone then pure first
      else
        skip flow
        liftM (first.merge? second)

/-- Whether the next token is not content of the block. -/
def outside (least : Nat) : Reading Bool := do
  let text ← rest
  match text with
  | [] => pure true
  | p :: _ => pure (Placed.atBoundary text || p.column < least)

/-- Whether a colon follows that makes a key of what starts at `start`. -/
def atColon (flow : Bool) (start : Placed) : Reading Bool := do
  match ← rest with
  | p :: rest =>
    pure (p.char = ':' && (flow || Placed.atGap rest) && p.line = start.line &&
      p.column ≤ start.column + 1024)
  | [] => pure false

def leaf (flow : Bool) (least : Nat) (dressed : Bool) : Reading Node := do
  let text ← rest
  let p ← here
  if Placed.atBoundary text then failure
  else match p.char with
    | '*' =>
      require (!dressed)
      let (name, rest) ← liftM (scanName (text.drop 1))
      advance rest false
      aliased name
    | '"' => return .text (← accept (scanDouble [] .none .outside) (text.drop 1))
    | '\'' => return .text (← accept (scanSingle [] .none) (text.drop 1))
    | c =>
      if !flow && (c = '|' || c = '>') then
        return .text (← accept (scanBlock (c = '>') least) (text.drop 1))
      else
        require (startsPlain flow text)
        return .plain (← accept (scanPlain flow least [] .none) text)

def flowEnds : Reading Bool := do
  match ← rest with
  | p :: _ => pure (p.char ∈ [',', ':', ']', '\x7d'])
  | [] => pure true

mutual

def flowNode (fuel least : Nat) : Reading Node := do
  match fuel with
  | 0 => failure
  | fuel + 1 =>
    let own ← properties true
    if !own.isNone && (← flowEnds) then dress own (.plain "")
    else dress own (← content fuel true least !own.isNone)

def content (fuel : Nat) (flow : Bool) (least : Nat) (dressed : Bool) : Reading Node := do
  match fuel with
  | 0 => failure
  | fuel + 1 =>
    let p ← here
    if p.char = '[' then
      drop true
      return .seq (← flowItems fuel least true)
    else if p.char = '\x7b' then
      drop true
      return .map (← flowEntries fuel least true)
    else leaf flow least dressed

def flowPlace (fuel least : Nat) : Reading Node := do
  match fuel with
  | 0 => failure
  | fuel + 1 =>
    skip true
    if ← flowEnds then return .plain "" else flowNode fuel least

def flowValue (fuel least : Nat) (start : Placed) : Reading (Option Node) := do
  match fuel with
  | 0 => failure
  | fuel + 1 =>
    skip true
    if ← atColon true start then
      drop false
      return some (← flowPlace fuel least)
    else return none

def flowExplicitValue (fuel least : Nat) : Reading Node := do
  match fuel with
  | 0 => failure
  | fuel + 1 =>
    skip true
    if Placed.startsWith (← rest) ':' then
      drop false
      flowPlace fuel least
    else return .plain ""

/-- An item of a list that is a map of one entry, from its question mark on. Where its key should
be, a mark that is no content counts for nothing. -/
def flowExplicitItem (fuel least : Nat) : Reading Node := do
  match fuel with
  | 0 => failure
  | fuel + 1 =>
    drop false
    skip true
    let key ←
      if ← flowEnds then do
        let p ← here
        require (p.char = ',' || p.char = ':')
        drop (p.char = ',')
        pure (.plain "")
      else flowNode fuel least
    return .map [(key, ← flowExplicitValue fuel least)]

def flowItem (fuel least : Nat) : Reading Node := do
  match fuel with
  | 0 => failure
  | fuel + 1 =>
    let start ← here
    if start.char = '?' then flowExplicitItem fuel least
    else
      let n ← flowNode fuel least
      match ← flowValue fuel least start with
      | some v => return .map [(n, v)]
      | none => return n

def flowEntry (fuel least : Nat) : Reading (Node × Node) := do
  match fuel with
  | 0 => failure
  | fuel + 1 =>
    let start ← here
    if start.char = '?' then
      drop false
      let key ← flowPlace fuel least
      return (key, ← flowExplicitValue fuel least)
    else
      let key ← flowNode fuel least
      return (key, (← flowValue fuel least start).getD (.plain ""))

def flowItems (fuel least : Nat) (first : Bool) : Reading (List Node) := do
  match fuel with
  | 0 => failure
  | fuel + 1 =>
    skip true
    if Placed.startsWith (← rest) ']' then
      drop false
      return []
    else
      if !first then
        require (Placed.startsWith (← rest) ',')
        drop true
        skip true
      if Placed.startsWith (← rest) ']' then
        drop false
        return []
      else
        let item ← flowItem fuel least
        return item :: (← flowItems fuel least false)

def flowEntries (fuel least : Nat) (first : Bool) : Reading (List (Node × Node)) := do
  match fuel with
  | 0 => failure
  | fuel + 1 =>
    skip true
    if Placed.startsWith (← rest) '\x7d' then
      drop false
      return []
    else
      if !first then
        require (Placed.startsWith (← rest) ',')
        drop true
        skip true
      if Placed.startsWith (← rest) '\x7d' then
        drop false
        return []
      else
        let entry ← flowEntry fuel least
        return entry :: (← flowEntries fuel least false)

end

mutual

/-- What stands in the column of the block itself: below a key, a list, and anywhere the text of a
block. Otherwise the place of the node is empty. -/
def outsideNode (fuel least : Nat) (belowKey : Bool) : Reading Node := do
  match fuel with
  | 0 => failure
  | fuel + 1 =>
    let text ← rest
    if !text.head?.any (·.column + 1 = least) || Placed.atBoundary text then return .plain ""
    else if belowKey && Placed.startsWithMark '-' text && (← get).fresh then
      return .seq (← blockItems fuel (least - 1) true)
    else if Placed.startsWith text '|' || Placed.startsWith text '>' then
      leaf false least false
    else return .plain ""

def blockNode (fuel least : Nat) (belowKey : Bool) (held : Properties) : Reading Node := do
  match fuel with
  | 0 => failure
  | fuel + 1 =>
    skip false
    let text ← rest
    if ← outside least then dress held (← outsideNode fuel least belowKey)
    else if Placed.startsWithMark '-' text then
      require (← get).fresh
      let p ← here
      dress held (.seq (← blockItems fuel p.column false))
    else if Placed.startsWithMark '?' text then
      require (← get).fresh
      let p ← here
      dress held (.map (← explicitEntries fuel p.column))
    else
      let start ← here
      let mayBeKey := (← get).fresh
      let own ← properties false
      if !own.isNone && ((← get).fresh || (← rest).isEmpty) then
        blockNode fuel least belowKey (← liftM (held.merge? own))
      else
        let n ←
          if !own.isNone && (← atColon false start) then pure (.plain "")
          else content (fuel + 1) false least !(own.isNone && held.isNone)
        skip false
        if mayBeKey && (← atColon false start) then
          let key ← dress own n
          dress held (.map (← blockEntries fuel start.column key false))
        else dress (← liftM (held.merge? own)) n

def blockItems (fuel column : Nat) (belowKey : Bool) : Reading (List Node) := do
  match fuel with
  | 0 => failure
  | fuel + 1 =>
    drop true
    let item ← blockNode fuel (column + 1) false .none
    skip false
    if ← outside column then return [item]
    else
      let p ← here
      require (p.column = column)
      if Placed.startsWithMark '-' (← rest) then
        require (← get).fresh
        return item :: (← blockItems fuel column belowKey)
      else
        require belowKey
        return [item]

def blockEntries (fuel column : Nat) (key : Node) (explicit : Bool) :
    Reading (List (Node × Node)) := do
  match fuel with
  | 0 => failure
  | fuel + 1 =>
    drop explicit
    let value ← blockNode fuel (column + 1) true .none
    return (key, value) :: (← moreEntries fuel column)

def explicitEntries (fuel column : Nat) : Reading (List (Node × Node)) := do
  match fuel with
  | 0 => failure
  | fuel + 1 =>
    drop true
    let key ← blockNode fuel (column + 1) true .none
    skip false
    let text ← rest
    if text.head?.any (·.column = column) && Placed.startsWithMark ':' text && (← get).fresh then
      blockEntries fuel column key true
    else return (key, .plain "") :: (← moreEntries fuel column)

def moreEntries (fuel column : Nat) : Reading (List (Node × Node)) := do
  match fuel with
  | 0 => failure
  | fuel + 1 =>
    skip false
    if ← outside column then return []
    else
      let p ← here
      require (p.column = column && (← get).fresh)
      if Placed.startsWithMark '?' (← rest) then explicitEntries fuel column
      else
        let key ← blockKey fuel column
        blockEntries fuel column key false

def blockKey (fuel column : Nat) : Reading Node := do
  match fuel with
  | 0 => failure
  | fuel + 1 =>
    let start ← here
    let own ← properties false
    let n ←
      if !own.isNone && (← atColon false start) then pure (.plain "")
      else content fuel false (column + 1) !own.isNone
    skip false
    require (← atColon false start)
    dress own n

end

end Reading

namespace Document

open Reading

def directives (fuel : Nat) (d : Directives) : Reading Directives := do
  match fuel with
  | 0 => failure
  | fuel + 1 =>
    skip false
    let text ← rest
    if text.head?.any fun p => p.char = '%' && p.column = 0 then
      let isInLine (p : Placed) := !isBreak p.char
      let d ← liftM (d.read? ((text.drop 1).takeWhile isInLine))
      advance (text.dropWhile isInLine) true
      directives fuel d
    else pure d

def finish (fuel : Nat) : Reading Unit := do
  match fuel with
  | 0 => failure
  | fuel + 1 =>
    skip false
    let text ← rest
    if text.isEmpty then pure ()
    else
      require (Placed.atMarker '.' text)
      advance (text.drop 3) false
      finish fuel

def read (fuel : Nat) : Reading Node := do
  let d ← directives fuel .none
  let text ← rest
  if Placed.atMarker '-' text then advance (text.drop 3) false
  else require !(d.isGiven || text.isEmpty || Placed.atBoundary text)
  modify fun s => { s with sets := d.allSets }
  let n ← blockNode fuel 0 false .none
  finish fuel
  pure n

/-- Lists and maps inside this many others are not read. -/
def depthLimit : Nat := 128

/-- The tree of a text. Every step but a bounded number takes a character, so a multiple of the
length of the text is enough for all steps. -/
def ofText? (s : String) : Option Node := do
  let text ← Placed.ofText? s
  let (n, _) ← (read (8 * text.length + 16)).run ⟨text, true, #[], .core⟩
  pure (n.limited depthLimit)

end Document

def decode {α : Type} (c : Codec α) (s : String) : Except Fault α :=
  match Document.ofText? s with
  | some n => c.decode .plainText n
  | none => .error .malformed

end GatewayPlan.Yaml
