import Pinpoint.Yaml.Token

/-!
# Layout

Turns a text into its tokens. Indentation opens and closes block collections, so it becomes tokens
here. A mapping key is recognised by the colon behind it: whatever could be a key is remembered with
its number among the tokens, and when the colon comes, the tokens that announce a key are put in
front of it. A key must lie on one line and reach at most 1024 characters.
-/

namespace Pinpoint.Yaml

/-- A token that will turn out to be a mapping key if a colon follows. -/
structure PossibleKey where
  /-- How many tokens stand in front of it. -/
  number : Nat
  /-- Whether the indentation leaves it no choice. -/
  required : Bool
  index : Nat
  line : Nat
  column : Nat
deriving DecidableEq, Repr

/-- The state of the layout: the tokens so far with the newest first, the indentations of the open
block collections, the number of open flow collections, whether a key may start here, and the
possible key of each flow level. -/
structure Layout where
  cursor : Cursor
  tokens : List Token
  size : Nat
  indent : Int
  outer : List Int
  flow : Nat
  keyAllowed : Bool
  keys : List (Nat × PossibleKey)
deriving DecidableEq, Repr

namespace Layout

def start (t : Text) : Layout :=
  { cursor := ⟨t, 0, 0, 0⟩, tokens := [], size := 0, indent := -1, outer := [], flow := 0,
    keyAllowed := true, keys := [] }

def emit (l : Layout) (t : Token) : Layout :=
  { l with tokens := t :: l.tokens, size := l.size + 1 }

/-- Adds a token behind the first `number` ones. -/
def emitAt (l : Layout) (number : Nat) (t : Token) : Layout :=
  let later := l.size - number
  { l with tokens := l.tokens.take later ++ t :: l.tokens.drop later, size := l.size + 1 }

/-- Moves over spaces, comments and line ends to the next token. A line end outside of flow
collections lets a key start. -/
def skipToToken : Nat → Layout → Layout
  | 0, l => l
  | fuel + 1, l =>
    let (b, c) := l.cursor.skipSpaces.skipComment.lineBreak
    if b.isEmpty then { l with cursor := c }
    else skipToToken fuel { l with cursor := c, keyAllowed := l.keyAllowed || l.flow == 0 }

def isStale (l : Layout) (k : PossibleKey) : Bool :=
  k.line != l.cursor.line || 1024 < l.cursor.index - k.index

def dropStaleKeys (l : Layout) : Except Fault Layout :=
  if l.keys.any fun k => l.isStale k.2 && k.2.required then .error .malformed
  else .ok { l with keys := l.keys.filter fun k => !l.isStale k.2 }

/-- How many tokens are settled: nothing can be put in front of them any more. -/
def settled (l : Layout) : Nat :=
  (l.keys.filter fun k => !l.isStale k.2).foldl (fun n k => min n k.2.number) l.size

/-- Closes the block collections that are indented beyond a column. -/
def unwind (l : Layout) (column : Int) : Layout :=
  let closed := (l.indent :: l.outer).takeWhile (column < ·)
  match (l.indent :: l.outer).drop closed.length with
  | indent :: outer =>
    { l with
      indent := indent, outer := outer
      tokens := closed.map (fun _ => Token.blockEnd) ++ l.tokens
      size := l.size + closed.length }
  | [] => l

def unwindBlock (l : Layout) (column : Int) : Layout := if l.flow == 0 then l.unwind column else l

/-- Opens a block collection at a column, if it is indented beyond the current one. -/
def deepen (l : Layout) (column : Nat) : Option Layout :=
  if l.indent < column then some { l with indent := column, outer := l.indent :: l.outer } else none

def key? (l : Layout) : Option PossibleKey := (l.keys.find? (·.1 == l.flow)).map (·.2)

def forgetKey (l : Layout) : Layout := { l with keys := l.keys.filter (·.1 != l.flow) }

/-- Gives up the possible key of the current flow level; a required one cannot be given up. -/
def giveUpKey (l : Layout) : Except Fault Layout :=
  match l.key? with
  | some k => if k.required then .error .malformed else .ok l.forgetKey
  | none => .ok l

/-- Remembers that the next token may be a key. -/
def markKey (l : Layout) : Except Fault Layout :=
  if l.keyAllowed then do
    let l ← l.giveUpKey
    let k : PossibleKey := {
      number := l.size
      required := l.flow == 0 && l.indent == l.cursor.column
      index := l.cursor.index
      line := l.cursor.line
      column := l.cursor.column }
    return { l with keys := (l.flow, k) :: l.keys }
  else .ok l

def take (l : Layout) (t : Token) : Layout := { l with cursor := l.cursor.step }.emit t

/-- A mark between documents, or a directive: it ends all block collections. -/
def betweenDocuments (l : Layout) : Except Fault Layout := do
  let l ← (l.unwindBlock (-1)).giveUpKey
  return { l with keyAllowed := false }

def openFlow (l : Layout) (t : Token) : Except Fault Layout := do
  let l ← l.markKey
  return { l with flow := l.flow + 1, keyAllowed := true }.take t

def closeFlow (l : Layout) (t : Token) : Except Fault Layout := do
  if l.flow == 0 then throw .malformed
  let l ← l.giveUpKey
  return { l with flow := l.flow - 1, keyAllowed := false }.take t

def entryFlow (l : Layout) : Except Fault Layout := do
  let l ← l.giveUpKey
  return { l with keyAllowed := true }.take .flowEntry

/-- A dash or a question mark in front of an entry. In a block it opens a collection if it is
indented further than the one around it. -/
def entryBlock (l : Layout) (opening entry : Token) (keyAfter : Bool) : Except Fault Layout := do
  if l.flow == 0 && !l.keyAllowed then throw .malformed
  let l := if l.flow == 0 then
      match l.deepen l.cursor.column with
      | some d => d.emit opening
      | none => l
    else l
  let l ← l.giveUpKey
  return { l with keyAllowed := keyAfter }.take entry

/-- A colon in front of a value. If a possible key is at hand, it is one. -/
def valueMark (l : Layout) : Except Fault Layout :=
  match l.key? with
  | some k =>
    let l := l.forgetKey.emitAt k.number .key
    let l := if l.flow == 0 then
        match l.deepen k.column with
        | some d => d.emitAt k.number .blockMappingStart
        | none => l
      else l
    .ok ({ l with keyAllowed := false }.take .value)
  | none => l.entryBlock .blockMappingStart .value (l.flow == 0)

def accept (l : Layout) (t : Token) (c : Cursor) (keyAfter : Bool) : Layout :=
  { l with cursor := c, keyAllowed := keyAfter }.emit t

def maybeKey (l : Layout) (read : Cursor → Except Fault (Token × Cursor)) :
    Except Fault Layout := do
  let l ← l.markKey
  let (t, c) ← read l.cursor
  return l.accept t c false

def plain (l : Layout) : Except Fault Layout := do
  let l ← l.markKey
  let c := l.cursor
  let (t, broken, d) :=
    scanPlainRuns (l.flow != 0) (l.indent + 1) (c.rest.length + 1) [] false c
  return l.accept (.scalar t true) d broken

def block (l : Layout) (folded : Bool) : Except Fault Layout := do
  let l ← l.giveUpKey
  let (t, c) ← scanBlockScalar folded l.indent l.cursor
  return l.accept t c true

def startsPlain (l : Layout) : Bool :=
  let next := l.cursor.peekAt 1
  match l.cursor.peek with
  | none => false
  | some ch =>
    !(endsToken (some ch) || "-?:,[]\x7b\x7d#&*!|>\x27\x22%@\x60".toList.contains ch) ||
      (!endsToken next && (ch == '-' || (l.flow == 0 && (ch == '?' || ch == ':'))))

def token (l : Layout) (ch : Char) : Except Fault Layout := do
  let c := l.cursor
  let next := c.peekAt 1
  let flow := l.flow != 0
  if ch == '%' && c.column == 0 then
    let l ← l.betweenDocuments
    let (t, d) ← scanDirective l.cursor
    return l.accept t d false
  else if c.column == 0 && c.atSeparator && (ch == '-' || ch == '.') then
    let l ← l.betweenDocuments
    return l.accept (if ch == '-' then .documentStart else .documentEnd) (c.skip 3) false
  else if ch == '[' then l.openFlow .flowSequenceStart
  else if ch == '\x7b' then l.openFlow .flowMappingStart
  else if ch == ']' then l.closeFlow .flowSequenceEnd
  else if ch == '\x7d' then l.closeFlow .flowMappingEnd
  else if ch == ',' then l.entryFlow
  else if ch == '-' && endsToken next then l.entryBlock .blockSequenceStart .blockEntry true
  else if ch == '?' && (flow || endsToken next) then l.entryBlock .blockMappingStart .key (!flow)
  else if ch == ':' && (flow || endsToken next) then l.valueMark
  else if ch == '*' then l.maybeKey fun c => (scanName c).map fun r => (.alias r.1, r.2)
  else if ch == '&' then l.maybeKey fun c => (scanName c).map fun r => (.anchor r.1, r.2)
  else if ch == '!' then l.maybeKey scanTag
  else if ch == '|' && !flow then l.block false
  else if ch == '>' && !flow then l.block true
  else if ch == '\x27' then l.maybeKey (scanQuoted false)
  else if ch == '\x22' then l.maybeKey (scanQuoted true)
  else if l.startsPlain then l.plain
  else throw .malformed

def next (l : Layout) : Except Fault (Bool × Layout) := do
  let l ← (l.skipToToken (l.cursor.rest.length + 1)).dropStaleKeys
  let l := l.unwindBlock l.cursor.column
  match l.cursor.peek with
  | none => return (false, ← (l.unwindBlock (-1)).giveUpKey)
  | some ch => return (true, ← l.token ch)

/-- The tokens so far and all from here on. A fault takes the place of the tokens that were not
settled when it was met. -/
def run : Nat → Layout → List Token
  | 0, l => l.tokens.reverse
  | fuel + 1, l =>
    match l.next with
    | .ok (true, l) => run fuel l
    | .ok (false, l) => l.tokens.reverse
    | .error e => l.tokens.reverse.take l.settled ++ [.fault e]

end Layout

/-- The tokens of a text. A byte order mark at its start is not part of it. -/
def tokens (t : Text) : List Token :=
  let body := match t with
    | c :: rest => if c == byteOrderMark then rest else t
    | [] => t
  if t.all isAllowed then (Layout.start body).run (body.length + 1) else [.fault .malformed]

/-- The tokens up to the first name that is misused: an alias must follow its anchor, and an anchor
may be set once. `seen` are the anchors in front. -/
def checkNames (seen : List Text) : List Token → List Token
  | [] => []
  | .anchor a :: rest =>
    if seen.contains a then [.fault .malformed] else .anchor a :: checkNames (a :: seen) rest
  | .alias a :: rest =>
    if seen.contains a then .alias a :: checkNames seen rest else [.fault .malformed]
  | t :: rest => t :: checkNames seen rest

end Pinpoint.Yaml
