import Pinpoint.Yaml.Cursor

/-!
# Tokens

The marks, names and scalars that a document is made of. The functions here read one token at a
cursor; which token stands where, and how indentation becomes tokens, is a matter of `Layout`.
-/

namespace Pinpoint.Yaml

/-- What a directive line says. -/
inductive Directive where
  | version (major minor : Nat)
  | tag (handle stem : Text)
  | other
deriving DecidableEq, Repr

inductive Token where
  | directive (d : Directive)
  | documentStart
  | documentEnd
  | blockSequenceStart
  | blockMappingStart
  | blockEnd
  | flowSequenceStart
  | flowSequenceEnd
  | flowMappingStart
  | flowMappingEnd
  | blockEntry
  | flowEntry
  | key
  | value
  | alias (name : Text)
  | anchor (name : Text)
  | tag (handle : Option Text) (suffix : Text)
  | scalar (text : Text) (plain : Bool)
  /-- What stands here has no token. Nothing follows. -/
  | fault (e : Fault)
deriving DecidableEq, Repr

/-! ## Names, tags and directives -/

def scanName (c : Cursor) : Except Fault (Text × Cursor) :=
  let (name, d) := c.step.takeWhile isNameChar
  let closes := endsToken d.peek || d.peek.any "?:,]\x7d%@\x60".toList.contains
  if name.isEmpty || !closes then .error .malformed else .ok (name, d)

def isTagChar (c : Char) : Bool :=
  c.isAlphanum || "-;/?:@&=+$,_.!~*\x27()[]%".toList.contains c

/-- Reads the bytes that percent signs and pairs of hexadecimal digits stand for. -/
def percentBytes : Text → Option (List UInt8 × Text)
  | '%' :: a :: b :: rest => do
    let x ← digitIn? 16 a
    let y ← digitIn? 16 b
    match rest with
    | '%' :: _ => do
      let (more, rest) ← percentBytes rest
      return (UInt8.ofNat (16 * x + y) :: more, rest)
    | _ => return ([UInt8.ofNat (16 * x + y)], rest)
  | _ => none

/-- Reads the characters of a tag, with escaped bytes decoded as UTF-8. -/
def decodeTag : Nat → Text → Option Text
  | 0, _ => none
  | _ + 1, [] => some []
  | fuel + 1, c :: rest =>
    if c == '%' then do
      let (bytes, rest) ← percentBytes (c :: rest)
      let decoded ← String.fromUTF8? ⟨bytes.toArray⟩
      let more ← decodeTag fuel rest
      return decoded.toList ++ more
    else (decodeTag fuel rest).map (c :: ·)

def scanTagText (c : Cursor) : Except Fault (Text × Cursor) :=
  let (raw, d) := c.takeWhile isTagChar
  match decodeTag (raw.length + 1) raw with
  | some t => if raw.isEmpty then .error .malformed else .ok (t, d)
  | none => .error .malformed

/-- Reads a tag handle: an exclamation mark, or a name between two of them. -/
def scanHandle (c : Cursor) : Except Fault (Text × Cursor) :=
  if c.peek != some '!' then .error .malformed
  else if c.peekAt 1 == some ' ' then .ok (['!'], c.step)
  else
    let (name, d) := c.step.takeWhile isNameChar
    if d.peek == some '!' then .ok ('!' :: name ++ ['!'], d.step) else .error .malformed

def scanTag (c : Cursor) : Except Fault (Token × Cursor) := do
  let (handle, suffix, d) ←
    if c.peekAt 1 == some '<' then do
      let (t, d) ← scanTagText (c.skip 2)
      if d.peek == some '>' then .ok ((none, t, d.step) : Option Text × Text × Cursor)
      else .error .malformed
    else if endsToken (c.peekAt 1) then .ok (none, ['!'], c.step)
    else
      let word := c.step.rest.takeWhile fun ch => !endsWord (some ch)
      let (handle, d) ← if word.contains '!' then scanHandle c else .ok (['!'], c.step)
      let (t, d) ← scanTagText d
      .ok (some handle, t, d)
  if endsWord d.peek then .ok (.tag handle suffix, d) else .error .malformed

def scanVersionNumber (c : Cursor) : Except Fault (Nat × Cursor) :=
  let (ds, d) := c.takeWhile Char.isDigit
  match readDigits? 10 ds with
  | some n => .ok (n, d)
  | none => .error .malformed

def scanDirective (c : Cursor) : Except Fault (Token × Cursor) := do
  let (name, d) := c.step.takeWhile isNameChar
  if name.isEmpty || !endsWord d.peek then throw .malformed
  let (directive, d) ←
    if name == "YAML".toList then do
      let (major, d) ← scanVersionNumber d.skipSpaces
      if d.peek != some '.' then throw .malformed
      let (minor, d) ← scanVersionNumber d.step
      if !endsWord d.peek then throw .malformed
      .ok (Directive.version major minor, d)
    else if name == "TAG".toList then do
      let (handle, d) ← scanHandle d.skipSpaces
      if d.peek != some ' ' then throw .malformed
      let (stem, d) ← scanTagText d.skipSpaces
      if !endsWord d.peek then throw .malformed
      .ok (Directive.tag handle stem, d)
    else .ok (Directive.other, d.skipLine)
  let d := d.skipSpaces.skipComment
  if endsLine d.peek then .ok (.directive directive, d.lineBreak.2) else .error .malformed

/-! ## Plain scalars -/

/-- Whether a plain scalar pauses before a character, given the one behind it. In a flow collection
more characters pause it. -/
def pausesPlain (flow : Bool) (c : Char) (next : Option Char) : Bool :=
  endsToken (some c) ||
    (c == ':' && (endsToken next || (flow && next.any ",[]\x7b\x7d".toList.contains))) ||
    (flow && ",?[]\x7b\x7d".toList.contains c)

/-- The characters of a plain scalar up to its next pause. -/
def plainRun (flow : Bool) : Text → Text
  | [] => []
  | c :: rest => if pausesPlain flow c rest.head? then [] else c :: plainRun flow rest

/-- Line ends with spaces between them. Nothing is found if a mark between documents follows one of
the line ends. -/
def plainBreaks : Nat → Cursor → Option Text × Cursor
  | 0, c => (none, c)
  | fuel + 1, c =>
    match c.peek with
    | some ch =>
      if ch == ' ' then plainBreaks fuel c.step
      else if isBreak ch then
        let (b, d) := c.lineBreak
        if d.atSeparator then (none, d)
        else
          let (more, e) := plainBreaks fuel d
          (more.map (b ++ ·), e)
      else (some [], c)
    | none => (some [], c)

/-- A line end and those that follow it as they count inside a scalar: one line feed is a space, and
of several the first one is left out. -/
def foldBreaks (first more : Text) : Text :=
  if first != ['\n'] then first ++ more else if more.isEmpty then [' '] else more

/-- What stands between two runs of a plain scalar, and whether it holds a line end. It is empty if
the scalar ends here. -/
def scanPlainGap (c : Cursor) : Text × Bool × Cursor :=
  let (spaces, d) := c.takeWhile (· == ' ')
  if !endsLine d.peek then (spaces, false, d)
  else
    let (first, e) := d.lineBreak
    if first.isEmpty then (spaces, false, d)
    else if e.atSeparator then ([], true, e)
    else
      match plainBreaks (e.rest.length + 1) e with
      | (some more, f) => (foldBreaks first more, true, f)
      | (none, f) => ([], true, f)

/-- Reads the runs of a plain scalar; `gap` is what stands in front of the next run, and `broken`
says whether a line end was seen last. -/
def scanPlainRuns (flow : Bool) (indent : Int) :
    Nat → Text → Bool → Cursor → Text × Bool × Cursor
  | 0, _, broken, c => ([], broken, c)
  | fuel + 1, gap, broken, c =>
    let run := if c.peek == some '#' then [] else plainRun flow c.rest
    if run.isEmpty then ([], broken, c)
    else
      let (next, nextBroken, d) := scanPlainGap (c.skip run.length)
      if next.isEmpty || d.peek == some '#' || (!flow && (d.column : Int) < indent) then
        (gap ++ run, nextBroken, d)
      else
        let (more, lastBroken, e) := scanPlainRuns flow indent fuel next nextBroken d
        (gap ++ run ++ more, lastBroken, e)

/-! ## Quoted scalars -/

/-- The characters that escapes of one letter stand for. -/
def escapeLetter? (c : Char) : Option Char :=
  if c == '0' then some '\x00' else if c == 'a' then some '\x07' else if c == 'b' then some '\x08'
  else if c == 't' || c == '\t' then some '\t' else if c == 'n' then some '\n'
  else if c == 'v' then some '\x0b' else if c == 'f' then some '\x0c'
  else if c == 'r' then some '\r' else if c == 'e' then some '\x1b'
  else if c == ' ' || c == '\x22' || c == '\\' || c == '/' then some c
  else if c == 'N' then some '\u0085' else if c == '_' then some '\u00a0'
  else if c == 'L' then some '\u2028' else if c == 'P' then some '\u2029'
  else none

/-- How many hexadecimal digits follow an escape letter. -/
def escapeWidth? (c : Char) : Option Nat :=
  if c == 'x' then some 2 else if c == 'u' then some 4 else if c == 'U' then some 8 else none

def isHexDigit (c : Char) : Bool :=
  c.isDigit || ('a' ≤ c && c ≤ 'f') || ('A' ≤ c && c ≤ 'F')

def readHexadecimal? (width : Nat) (t : Text) : Option Nat :=
  let ds := t.take width
  if ds.length == width && ds.all isHexDigit then
    some (ds.foldl (fun n c => 16 * n + ((digitIn? 16 c).getD 0)) 0)
  else none

/-- The second half of a surrogate pair, if it is escaped here. -/
def lowSurrogate? (t : Text) : Option Nat :=
  match t with
  | '\\' :: 'u' :: rest =>
    (readHexadecimal? 4 rest).filter fun n => 0xdc00 ≤ n && n ≤ 0xdfff
  | _ => none

/-- Reads a numeric escape behind its letter. Two escapes that form a surrogate pair give one
character, and half a pair the replacement character. -/
def scanCodePoint (width : Nat) (c : Cursor) : Except Fault (Text × Cursor) :=
  match readHexadecimal? width c.rest with
  | none => .error .malformed
  | some n =>
    let d := c.skip width
    if 0x110000 ≤ n then .error (.scalar (.codePoint n))
    else if 0xd800 ≤ n && n ≤ 0xdbff then
      match lowSurrogate? d.rest with
      | some m => .ok ([Char.ofNat (0x10000 + (n - 0xd800) * 0x400 + (m - 0xdc00))], d.skip 6)
      | none => .ok (['\ufffd'], d)
    else if 0xdc00 ≤ n && n ≤ 0xdfff then .ok (['\ufffd'], d)
    else .ok ([Char.ofNat n], d)

/-- Line ends inside a quoted scalar, with the blanks around them left out. -/
def scanQuotedBreaks : Nat → Cursor → Except Fault (Text × Cursor)
  | 0, _ => .error .malformed
  | fuel + 1, c =>
    if c.atSeparator then .error .malformed
    else
      let (_, d) := c.takeWhile fun ch => ch == ' ' || ch == '\t'
      let (b, e) := d.lineBreak
      if b.isEmpty then .ok ([], d)
      else do
        let (more, f) ← scanQuotedBreaks fuel e
        return (b ++ more, f)

/-- Reads blanks inside a quoted scalar: line ends are folded, and other blanks kept. -/
def scanQuotedBlanks (c : Cursor) : Except Fault (Text × Cursor) :=
  let (blanks, d) := c.takeWhile fun ch => ch == ' ' || ch == '\t'
  match d.peek with
  | none => .error .malformed
  | some ch =>
    if isBreak ch then do
      let (first, e) := d.lineBreak
      let (more, f) ← scanQuotedBreaks (e.rest.length + 1) e
      return (foldBreaks first more, f)
    else .ok (blanks, d)

/-- Reads a quoted scalar behind its first quote, up to and over the last one. -/
def scanQuotedRest (double : Bool) : Nat → Cursor → Except Fault (Text × Cursor)
  | 0, _ => .error .malformed
  | fuel + 1, c =>
    let quote := if double then '\x22' else '\x27'
    match c.peek with
    | none => .error .malformed
    | some ch => do
      if !double && ch == quote && c.peekAt 1 == some quote then
        let (more, d) ← scanQuotedRest double fuel (c.skip 2)
        return (quote :: more, d)
      else if ch == quote then return ([], c.step)
      else if double && ch == '\\' then
        let d := c.step
        match d.peek with
        | none => throw .malformed
        | some e =>
          match escapeLetter? e, escapeWidth? e with
          | some x, _ =>
            let (more, d) ← scanQuotedRest double fuel d.step
            return (x :: more, d)
          | none, some width =>
            let (t, d) ← scanCodePoint width d.step
            let (more, d) ← scanQuotedRest double fuel d
            return (t ++ more, d)
          | none, none =>
            if isBreak e then
              let d := d.lineBreak.2
              let (t, d) ← scanQuotedBreaks (d.rest.length + 1) d
              let (more, d) ← scanQuotedRest double fuel d
              return (t ++ more, d)
            else throw .malformed
      else if endsToken (some ch) then
        let (t, d) ← scanQuotedBlanks c
        let (more, d) ← scanQuotedRest double fuel d
        return (t ++ more, d)
      else
        let (more, d) ← scanQuotedRest double fuel c.step
        return (ch :: more, d)

def scanQuoted (double : Bool) (c : Cursor) : Except Fault (Token × Cursor) := do
  let (t, d) ← scanQuotedRest double (c.rest.length + 1) c.step
  return (.scalar t false, d)

/-! ## Block scalars -/

/-- What becomes of the line ends at the end of a block scalar. -/
inductive Chomping where
  | clip
  | strip
  | keep
deriving DecidableEq, Repr

def scanChomping (c : Cursor) : Option Chomping × Cursor :=
  match c.peek with
  | some '+' => (some .keep, c.step)
  | some '-' => (some .strip, c.step)
  | _ => (none, c)

def scanIndentation (c : Cursor) : Except Fault ((Option Nat) × Cursor) :=
  match c.peek with
  | some ch =>
    if ch == '0' then .error .malformed
    else if ch.isDigit then .ok (some (ch.toNat - 48), c.step)
    else .ok (none, c)
  | none => .ok (none, c)

/-- Reads the header line of a block scalar behind its mark: the two indicators in either order, and
perhaps a comment. -/
def scanHeader (c : Cursor) : Except Fault ((Chomping × Option Nat) × Cursor) := do
  let (before, d) := scanChomping c
  let (increment, d) ← scanIndentation d
  let (behind, d) := if before.isNone && increment.isSome then scanChomping d else (none, d)
  if !endsWord d.peek then throw .malformed
  let d := d.skipSpaces.skipComment
  if !endsLine d.peek then throw .malformed
  return (((before.or behind).getD .clip, increment), d.lineBreak.2)

/-- Reads the empty lines at the start of a block scalar; `widest` is the greatest number of spaces
seen on them or in front of the first line that is not empty. -/
def scanLeadingBreaks : Nat → Nat → Cursor → Text × Nat × Cursor
  | 0, widest, c => ([], widest, c)
  | fuel + 1, widest, c =>
    match c.peek with
    | some ch =>
      if ch == ' ' then scanLeadingBreaks fuel (max widest c.step.column) c.step
      else if isBreak ch then
        let (b, d) := c.lineBreak
        let (more, w, e) := scanLeadingBreaks fuel widest d
        (b ++ more, w, e)
      else ([], widest, c)
    | none => ([], widest, c)

/-- Moves over spaces up to a column. -/
def skipIndent (indent : Nat) (c : Cursor) : Cursor :=
  c.skip ((c.rest.take (indent - c.column)).takeWhile (· == ' ')).length

/-- Reads empty lines and the indentation of the line behind them. -/
def scanBreaks (indent : Nat) : Nat → Cursor → Text × Cursor
  | 0, c => ([], c)
  | fuel + 1, c =>
    let d := skipIndent indent c
    let (b, e) := d.lineBreak
    if b.isEmpty then ([], d)
    else
      let (more, f) := scanBreaks indent fuel e
      (b ++ more, f)

def continues (indent : Nat) (c : Cursor) : Bool := c.column == indent && c.peek.isSome

/-- Whether a line of a block scalar is more indented than the scalar. -/
def startsBlank (c : Cursor) : Bool := c.peek == some ' ' || c.peek == some '\t'

/-- Reads the lines of a block scalar. `breaks` are the line ends in front of the next line. The
result holds the text up to the last line, its line end, and the line ends behind that. -/
def scanLines (folded : Bool) (indent : Nat) :
    Nat → Text → Cursor → Text × Text × Text × Cursor
  | 0, breaks, c => ([], [], breaks, c)
  | fuel + 1, breaks, c =>
    let (content, d) := c.takeWhile (!isBreak ·)
    let (lineEnd, e) := d.lineBreak
    let (after, f) := scanBreaks indent (e.rest.length + 1) e
    if continues indent f then
      let glue :=
        if folded && lineEnd == ['\n'] && !startsBlank c && !startsBlank f then
          (if after.isEmpty then [' '] else [])
        else lineEnd
      let (more, lastEnd, trailing, g) := scanLines folded indent fuel after f
      (breaks ++ content ++ glue ++ more, lastEnd, trailing, g)
    else (breaks ++ content, lineEnd, after, f)

/-- Reads a block scalar inside collections of an indentation. -/
def scanBlockScalar (folded : Bool) (indent : Int) (c : Cursor) :
    Except Fault (Token × Cursor) := do
  let ((chomping, increment), d) ← scanHeader c.step
  let least := (max (indent + 1) 1).toNat
  let (column, breaks, d) :=
    match increment with
    | some n =>
      let (breaks, e) := scanBreaks (least + n - 1) (d.rest.length + 1) d
      (least + n - 1, breaks, e)
    | none =>
      let (breaks, widest, e) := scanLeadingBreaks (d.rest.length + 1) 0 d
      (max least widest, breaks, e)
  let (body, lastEnd, trailing, d) :=
    if continues column d then scanLines folded column (d.rest.length + 1) breaks d
    else ([], [], breaks, d)
  let text := match chomping with
    | .strip => body
    | .clip => body ++ lastEnd
    | .keep => body ++ lastEnd ++ trailing
  return (.scalar text false, d)

end Pinpoint.Yaml
