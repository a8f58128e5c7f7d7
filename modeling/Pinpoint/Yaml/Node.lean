import Pinpoint.Yaml.Layout
import Pinpoint.Yaml.Scalar

/-!
# Nodes

The tree that the tokens of a document describe: scalars, sequences and mappings, with their tags,
and aliases that stand for a node with an anchor. A stream holds at most one document.
-/

namespace Pinpoint.Yaml

inductive Node where
  | alias (name : Text)
  | scalar (anchor : Option Text) (tag : Tag) (text : Text)
  | sequence (anchor : Option Text) (tag : Tag) (items : List Node)
  | mapping (anchor : Option Text) (tag : Tag) (entries : List (Node × Node))

/-- What stands in front of a node: its anchor and its tag, written out in full. -/
structure Properties where
  anchor : Option Text
  tag : Option Text
deriving DecidableEq, Repr

/-- The short forms of tags: what a handle stands for. -/
abbrev Handles := List (Text × Text)

/-- The handles that every document knows. -/
def defaultHandles : Handles := [(['!'], ['!']), (['!', '!'], standardStem)]

/-- The fault of tokens that cannot go on like this. -/
def unexpected : List Token → Fault
  | .fault e :: _ => e
  | _ => .malformed

def fullTag (handles : Handles) (handle : Option Text) (suffix : Text) : Except Fault Text :=
  match handle with
  | none => .ok suffix
  | some h =>
    match handles.find? fun x => x.1 == h with
    | some x => .ok (x.2 ++ suffix)
    | none => .error .malformed

def readProperties (handles : Handles) (ts : List Token) : Except Fault (Properties × List Token) :=
  match ts with
  | .anchor a :: .tag h s :: rest => do return (⟨some a, some (← fullTag handles h s)⟩, rest)
  | .tag h s :: .anchor a :: rest => do return (⟨some a, some (← fullTag handles h s)⟩, rest)
  | .anchor a :: rest => .ok (⟨some a, none⟩, rest)
  | .tag h s :: rest => do return (⟨none, some (← fullTag handles h s)⟩, rest)
  | rest => .ok (⟨none, none⟩, rest)

namespace Properties

/-- Whether the tag is left to the form of the node. -/
def isOpen (p : Properties) : Bool := p.tag == none || p.tag == some ['!']

/-- The tag of a collection, which has one by its kind if none is given. -/
def collectionTag (p : Properties) (byKind : Tag) : Tag :=
  if p.isOpen then byKind else (p.tag.map Tag.ofText).getD byKind

/-- The tag of a scalar. Only a plain one is judged by its form, or one with the tag `!`. -/
def scalarTag (p : Properties) (plain : Bool) (t : Text) : Tag :=
  match p.tag with
  | none => if plain then Tag.ofPlain t else .str
  | some tag => if tag == ['!'] then Tag.ofPlain t else Tag.ofText tag

end Properties

namespace Node

/-- The node of a value that is left out. -/
def empty : Node := .scalar none .null []

def endsBlockEntry : List Token → Bool
  | .key :: _ => true
  | .value :: _ => true
  | .blockEnd :: _ => true
  | _ => false

def endsFlowEntry (closing : Token) : List Token → Bool
  | .flowEntry :: _ => true
  | t :: _ => t == closing
  | [] => false

def endsFlowKey (closing : Token) : List Token → Bool
  | .value :: _ => true
  | ts => endsFlowEntry closing ts

def endsSequenceEntry : List Token → Bool
  | .blockEntry :: _ => true
  | .blockEnd :: _ => true
  | _ => false

mutual

/-- Reads a node, with `depth` levels of nesting left. Block collections may stand in a block only;
a sequence that is not indented may be the value of a block mapping. -/
def parse (handles : Handles) :
    Nat → Nat → (block indentless : Bool) → List Token → Except Fault (Node × List Token)
  | 0, _, _, _, _ => .error .malformed
  | _ + 1, 0, _, _, _ => .error .tooDeep
  | fuel + 1, depth + 1, block, indentless, ts =>
    match ts with
    | .alias name :: rest => .ok (.alias name, rest)
    | ts => do
      let (p, rest) ← readProperties handles ts
      match rest with
      | .blockEntry :: _ =>
        if indentless then
          let (items, rest) ← parseIndentless handles fuel depth rest
          return (.sequence p.anchor (p.collectionTag .seq) items, rest)
        else if p == ⟨none, none⟩ then throw (unexpected rest)
        else return (.scalar p.anchor (p.scalarTag true []) [], rest)
      | .scalar t plain :: rest => return (.scalar p.anchor (p.scalarTag plain t) t, rest)
      | .flowSequenceStart :: rest =>
        let (items, rest) ← parseFlowSequence handles fuel depth true rest
        return (.sequence p.anchor (p.collectionTag .seq) items, rest)
      | .flowMappingStart :: rest =>
        let (entries, rest) ← parseFlowMapping handles fuel depth true rest
        return (.mapping p.anchor (p.collectionTag .map) entries, rest)
      | .blockSequenceStart :: more =>
        if block then
          let (items, rest) ← parseBlockSequence handles fuel depth more
          return (.sequence p.anchor (p.collectionTag .seq) items, rest)
        else if p == ⟨none, none⟩ then throw (unexpected rest)
        else return (.scalar p.anchor (p.scalarTag true []) [], rest)
      | .blockMappingStart :: more =>
        if block then
          let (entries, rest) ← parseBlockMapping handles fuel depth more
          return (.mapping p.anchor (p.collectionTag .map) entries, rest)
        else if p == ⟨none, none⟩ then throw (unexpected rest)
        else return (.scalar p.anchor (p.scalarTag true []) [], rest)
      | rest =>
        if p == ⟨none, none⟩ then throw (unexpected rest)
        else return (.scalar p.anchor (p.scalarTag true []) [], rest)
termination_by structural fuel => fuel

/-- Reads a node unless the tokens say that it is left out. -/
def parseOptional (handles : Handles) :
    Nat → Nat → (block indentless leftOut : Bool) → List Token → Except Fault (Node × List Token)
  | 0, _, _, _, _, _ => .error .malformed
  | fuel + 1, depth, block, indentless, leftOut, ts =>
    if leftOut then .ok (empty, ts) else parse handles fuel depth block indentless ts
termination_by structural fuel => fuel

def parseBlockSequence (handles : Handles) :
    Nat → Nat → List Token → Except Fault (List Node × List Token)
  | 0, _, _ => .error .malformed
  | fuel + 1, depth, ts =>
    match ts with
    | .blockEntry :: rest => do
      let (item, rest) ← parseOptional handles fuel depth true false (endsSequenceEntry rest) rest
      let (items, rest) ← parseBlockSequence handles fuel depth rest
      return (item :: items, rest)
    | .blockEnd :: rest => .ok ([], rest)
    | rest => .error (unexpected rest)
termination_by structural fuel => fuel

def parseIndentless (handles : Handles) :
    Nat → Nat → List Token → Except Fault (List Node × List Token)
  | 0, _, _ => .error .malformed
  | fuel + 1, depth, ts =>
    match ts with
    | .blockEntry :: rest => do
      let leftOut := endsSequenceEntry rest || endsBlockEntry rest
      let (item, rest) ← parseOptional handles fuel depth true false leftOut rest
      let (items, rest) ← parseIndentless handles fuel depth rest
      return (item :: items, rest)
    | rest => .ok ([], rest)
termination_by structural fuel => fuel

def parseBlockMapping (handles : Handles) :
    Nat → Nat → List Token → Except Fault (List (Node × Node) × List Token)
  | 0, _, _ => .error .malformed
  | fuel + 1, depth, ts =>
    match ts with
    | .key :: rest => do
      let (key, rest) ← parseOptional handles fuel depth true true (endsBlockEntry rest) rest
      let (value, rest) ←
        match rest with
        | .value :: rest => parseOptional handles fuel depth true true (endsBlockEntry rest) rest
        | rest => .ok (empty, rest)
      let (entries, rest) ← parseBlockMapping handles fuel depth rest
      return ((key, value) :: entries, rest)
    | .blockEnd :: rest => .ok ([], rest)
    | rest => .error (unexpected rest)
termination_by structural fuel => fuel

/-- Reads a key and a value in a flow collection with a closing mark. -/
def parseFlowEntry (handles : Handles) (closing : Token) :
    Nat → Nat → List Token → Except Fault ((Node × Node) × List Token)
  | 0, _, _ => .error .malformed
  | fuel + 1, depth, ts => do
    let (key, rest) ← parseOptional handles fuel depth false false (endsFlowKey closing ts) ts
    match rest with
    | .value :: rest =>
      let (value, rest) ←
        parseOptional handles fuel depth false false (endsFlowEntry closing rest) rest
      return ((key, value), rest)
    | rest => return ((key, empty), rest)
termination_by structural fuel => fuel

/-- Reads the entries of a flow sequence up to its end. A key makes a mapping of one entry. -/
def parseFlowSequence (handles : Handles) :
    Nat → Nat → Bool → List Token → Except Fault (List Node × List Token)
  | 0, _, _, _ => .error .malformed
  | fuel + 1, depth, first, ts =>
    match first, ts with
    | _, .flowSequenceEnd :: rest => .ok ([], rest)
    | false, .flowEntry :: .flowSequenceEnd :: rest => .ok ([], rest)
    | false, .flowEntry :: rest => parseFlowItems handles fuel depth rest
    | false, rest => .error (unexpected rest)
    | true, rest => parseFlowItems handles fuel depth rest
termination_by structural fuel => fuel

def parseFlowItems (handles : Handles) :
    Nat → Nat → List Token → Except Fault (List Node × List Token)
  | 0, _, _ => .error .malformed
  | fuel + 1, depth, ts => do
    let (item, rest) ←
      match ts with
      | .key :: rest => do
        let (entry, rest) ← parseFlowEntry handles .flowSequenceEnd fuel (depth - 1) rest
        pure (Node.mapping none .map [entry], rest)
      | rest => parse handles fuel depth false false rest
    let (items, rest) ← parseFlowSequence handles fuel depth false rest
    return (item :: items, rest)
termination_by structural fuel => fuel

def parseFlowMapping (handles : Handles) :
    Nat → Nat → Bool → List Token → Except Fault (List (Node × Node) × List Token)
  | 0, _, _, _ => .error .malformed
  | fuel + 1, depth, first, ts =>
    match first, ts with
    | _, .flowMappingEnd :: rest => .ok ([], rest)
    | false, .flowEntry :: .flowMappingEnd :: rest => .ok ([], rest)
    | false, .flowEntry :: rest => parseFlowEntries handles fuel depth rest
    | false, rest => .error (unexpected rest)
    | true, rest => parseFlowEntries handles fuel depth rest
termination_by structural fuel => fuel

def parseFlowEntries (handles : Handles) :
    Nat → Nat → List Token → Except Fault (List (Node × Node) × List Token)
  | 0, _, _ => .error .malformed
  | fuel + 1, depth, ts => do
    let (entry, rest) ←
      match ts with
      | .key :: rest => parseFlowEntry handles .flowMappingEnd fuel depth rest
      | rest => do
        let (key, rest) ← parse handles fuel depth false false rest
        pure ((key, empty), rest)
    let (entries, rest) ← parseFlowMapping handles fuel depth false rest
    return (entry :: entries, rest)
termination_by structural fuel => fuel

end

/-- How deeply the collections of a document may be nested. -/
def depthLimit : Nat := 486

end Node

/-! ## Documents -/

/-- Collects what the directives in front of a document say about tags. There may be one version, of
the first major number, and each handle may be set once. -/
def readDirectives (version : Bool) (handles : Handles) :
    List Token → Except Fault (Handles × List Token)
  | .directive (.version major _) :: rest =>
    if version || major != 1 then .error .malformed else readDirectives true handles rest
  | .directive (.tag h s) :: rest =>
    if handles.any fun x => x.1 == h then .error .malformed
    else readDirectives version ((h, s) :: handles) rest
  | .directive .other :: rest => readDirectives version handles rest
  | rest => .ok (handles, rest)

/-- Whether a document that was started explicitly holds nothing. -/
def isEmptyDocument : List Token → Bool
  | [] => true
  | .directive _ :: _ => true
  | .documentStart :: _ => true
  | .documentEnd :: _ => true
  | _ => false

/-- Reads the tokens of a stream that holds at most one document. -/
def Node.ofTokens (ts : List Token) : Except Fault (Option Node) := do
  let read (handles : Handles) (ts : List Token) : Except Fault (Node × List Token) :=
    Node.parse handles (4 * ts.length + 4) Node.depthLimit true false ts
  let (node?, rest) ←
    match ts with
    | [] => .ok (none, [])
    | .directive _ :: _ | .documentStart :: _ => do
      let (handles, rest) ← readDirectives false [] ts
      match rest with
      | .documentStart :: rest =>
        if isEmptyDocument rest then .ok (some Node.empty, rest)
        else do
          let (node, rest) ← read (handles ++ defaultHandles) rest
          pure (some node, rest)
      | rest => .error (unexpected rest)
    | ts => do
      let (node, rest) ← read defaultHandles ts
      pure (some node, rest)
  match rest.dropWhile (· == .documentEnd) with
  | [] => return node?
  | rest => throw (unexpected rest)

end Pinpoint.Yaml
