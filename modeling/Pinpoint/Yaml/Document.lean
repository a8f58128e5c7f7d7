import Pinpoint.Yaml.Node

/-!
# Documents and their values

A node becomes a value: aliases are replaced by what they stand for, merge keys by the entries of
the mappings that they name, and scalars by what they write. A document with a fault has no value;
of several faults the first one in level order is reported, since a collection is looked into only
after everything beside it.
-/

namespace Pinpoint.Yaml

/-- The nodes that have an anchor, by its name. -/
abbrev Anchors := List (Text × Node)

namespace Node

def anchor? : Node → Option Text
  | .alias _ => none
  | .scalar a _ _ => a
  | .sequence a _ _ => a
  | .mapping a _ _ => a

def tag : Node → Tag
  | .alias _ => .null
  | .scalar _ t _ => t
  | .sequence _ t _ => t
  | .mapping _ t _ => t

def withTag (t : Tag) : Node → Node
  | .alias name => .alias name
  | .scalar a _ s => .scalar a t s
  | .sequence a _ items => .sequence a t items
  | .mapping a _ entries => .mapping a t entries

/-- A node with its anchor, if it has one. -/
def named (n : Node) : Anchors := (n.anchor?.map fun a => (a, n)).toList

mutual

/-- The anchors of a node and the nodes in it. -/
def anchors : Node → Anchors
  | .alias _ => []
  | .scalar a t s => named (.scalar a t s)
  | .sequence a t items => named (.sequence a t items) ++ anchorsOfItems items
  | .mapping a t entries => named (.mapping a t entries) ++ anchorsOfEntries entries

def anchorsOfItems : List Node → Anchors
  | [] => []
  | n :: rest => anchors n ++ anchorsOfItems rest

def anchorsOfEntries : List (Node × Node) → Anchors
  | [] => []
  | (k, v) :: rest => anchors k ++ anchors v ++ anchorsOfEntries rest

end

mutual

/-- How many nodes a node consists of. -/
def count : Node → Nat
  | .alias _ => 1
  | .scalar _ _ _ => 1
  | .sequence _ _ items => countItems items + 1
  | .mapping _ _ entries => countEntries entries + 1

def countItems : List Node → Nat
  | [] => 0
  | n :: rest => count n + countItems rest

def countEntries : List (Node × Node) → Nat
  | [] => 0
  | (k, v) :: rest => count k + count v + countEntries rest

end

/-- The node that an alias stands for; any other node itself. -/
def target (known : Anchors) (n : Node) : Node :=
  match n with
  | .alias name => ((known.find? fun a => a.1 == name).map (·.2)).getD n
  | n => n

/-- Whether a node is the key that merges mappings. -/
def isMergeKey (known : Anchors) (n : Node) : Bool := (n.target known).tag == .merge

/-- A key as it stands in a mapping, where the default-value mark is plain text. -/
def asKey (known : Anchors) (n : Node) : Node :=
  if (n.target known).tag == .value then (n.target known).withTag .str else n

mutual

/-- The entries of a mapping after merging: those of the merged mappings first, then its own. A
mapping that is merged into itself, as the names in `within` say, adds its own entries alone. -/
def mergedEntries (known : Anchors) :
    Nat → List Text → List (Node × Node) → Except Fault (List (Node × Node))
  | 0, _, _ => .error .tooDeep
  | fuel + 1, within, entries => do
    let own := (entries.filter fun e => !isMergeKey known e.1).map fun e => (asKey known e.1, e.2)
    let merges := (entries.filter fun e => isMergeKey known e.1).map (·.2)
    let merged ← merges.mapM (mergeSource known fuel within)
    return merged.flatten ++ own
termination_by structural fuel => fuel

/-- The entries that the value of a merge key adds: those of a mapping, or of a sequence of mappings
with the last one first. -/
def mergeSource (known : Anchors) :
    Nat → List Text → Node → Except Fault (List (Node × Node))
  | 0, _, _ => .error .tooDeep
  | fuel + 1, within, n =>
    match n.target known with
    | .mapping a _ entries => mergeMapping known fuel within a entries
    | .sequence _ _ items => do
      let parts ← items.mapM fun item =>
        match item.target known with
        | .mapping a _ entries => mergeMapping known fuel within a entries
        | _ => .error .malformed
      return parts.reverse.flatten
    | _ => .error .malformed
termination_by structural fuel => fuel

def mergeMapping (known : Anchors) :
    Nat → List Text → Option Text → List (Node × Node) → Except Fault (List (Node × Node))
  | 0, _, _, _ => .error .tooDeep
  | fuel + 1, within, a, entries =>
    match a with
    | some name =>
      if within.contains name then .ok (entries.filter fun e => !isMergeKey known e.1)
      else mergedEntries known fuel (name :: within) entries
    | none => mergedEntries known fuel within entries
termination_by structural fuel => fuel

end

def allEntries (known : Anchors) (a : Option Text) (entries : List (Node × Node)) :
    Except Fault (List (Node × Node)) :=
  mergeMapping known (3 * (countItems (known.map (·.2)) + countEntries entries) + 3) [] a entries

/-- The text of a node that is taken for a scalar: its own, or that of the default value of a
mapping. -/
def scalarText? (known : Anchors) : Nat → Node → Option Text
  | 0, _ => none
  | fuel + 1, n =>
    match n.target known with
    | .scalar _ _ t => some t
    | .mapping _ _ entries =>
      (entries.find? fun e => (e.1.target known).tag == .value).bind fun e =>
        scalarText? known fuel e.2
    | _ => none

end Node

def Tag.isCollection : Tag → Bool
  | .seq => true
  | .map => true
  | .omap => true
  | .pairs => true
  | .set => true
  | _ => false

namespace Node

def readAsScalar (known : Anchors) (n : Node) : Except Fault Scalar :=
  match scalarText? known (known.length + n.count + 1) n with
  | some t => readScalar (n.target known).tag t
  | none => .error .malformed

/-! ## Faults -/

/-- The faults of a node that show before its parts are looked into. What is returned are the nodes
still to be looked into: the node itself, if it is a collection. -/
def shallowFault (known : Anchors) (n : Node) : Except Fault (List Node) :=
  let m := n.target known
  if m.tag.isCollection then .ok [m] else (readAsScalar known m).map fun _ => []

/-- The fault of a key: a collection cannot be one. -/
def keyFault (known : Anchors) (n : Node) : Except Fault Unit :=
  if (n.target known).tag.isCollection then .error .malformed
  else (readAsScalar known n).map fun _ => ()

/-- The faults that show when a collection is looked into, and the nodes to look into next. -/
def deepFault (known : Anchors) (n : Node) : Except Fault (List Node) :=
  match n with
  | .sequence _ .seq items => List.flatten <$> items.mapM (shallowFault known)
  | .sequence _ t items =>
    if t == .omap || t == .pairs then
      List.flatten <$> items.mapM fun item =>
        match item.target known with
        | .mapping _ _ [(k, v)] => do return (← shallowFault known k) ++ (← shallowFault known v)
        | _ => .error .malformed
    else .error .malformed
  | .mapping a t entries =>
    if t == .map || t == .set then do
      let entries ← allEntries known a entries
      List.flatten <$> entries.mapM fun e => do
        keyFault known e.1
        shallowFault known e.2
    else .error .malformed
  | _ => .error .malformed

/-- Leaves out the nodes with an anchor that was looked into before, and adds the anchors of the
others to those looked into. -/
def unseen (visited : List Text) : List Node → List Text × List Node
  | [] => (visited, [])
  | n :: rest =>
    match n.anchor? with
    | some a =>
      if visited.contains a then unseen visited rest
      else
        let (later, more) := unseen (a :: visited) rest
        (later, n :: more)
    | none =>
      let (later, more) := unseen visited rest
      (later, n :: more)

/-- Looks into nodes level by level up to the first fault. -/
def faults (known : Anchors) : Nat → List Text → List Node → Except Fault Unit
  | 0, _, _ => .ok ()
  | fuel + 1, visited, level => do
    let (visited, level) := unseen visited level
    if level.isEmpty then return ()
    let next ← level.mapM (deepFault known)
    faults known fuel visited next.flatten

/-! ## Values -/

/-- The values of the anchors that were looked at before. -/
abbrev AnchorValues := List (Text × Value)

def remember (a : Option Text) (v : Value) (seen : AnchorValues) : Value × AnchorValues :=
  match a with
  | some name => (v, (name, v) :: seen)
  | none => (v, seen)

def scalarOf : Value → Scalar
  | .scalar s => s
  | _ => .null

mutual

/-- The value of a node without faults. `within` are the anchors of the nodes around it; an alias of
one of these is null. -/
def value (known : Anchors) : Nat → List Text → AnchorValues → Node → Value × AnchorValues
  | 0, _, seen, _ => (Value.null, seen)
  | fuel + 1, within, seen, n =>
    match n with
    | .alias name =>
      match seen.find? fun s => s.1 == name with
      | some s => (s.2, seen)
      | none =>
        if within.contains name then (Value.null, seen)
        else value known fuel (name :: within) seen (n.target known)
    | .sequence a t items =>
      let within := a.toList ++ within
      if t == .omap || t == .pairs then
        let entries := items.map fun item =>
          match item.target known with
          | .mapping _ _ [e] => e
          | _ => (Node.empty, Node.empty)
        let (pairs, seen) := pairValues known fuel within seen entries
        remember a (.list (pairs.map fun e => .tuple [e.1, e.2])) seen
      else
        let (vs, seen) := values known fuel within seen items
        remember a (.list vs) seen
    | .mapping a t entries =>
      if t == .map || t == .set then
        let all := (allEntries known a entries).toOption.getD []
        let (pairs, seen) := pairValues known fuel (a.toList ++ within) seen all
        let found := Entries.ofPairs (pairs.map fun e => (scalarOf e.1, e.2))
        remember a (if t == .set then .set (found.map (·.1)) else .mapping found) seen
      else remember a (.scalar ((readAsScalar known n).toOption.getD .null)) seen
    | .scalar a _ _ => remember a (.scalar ((readAsScalar known n).toOption.getD .null)) seen
termination_by structural fuel => fuel

def values (known : Anchors) :
    Nat → List Text → AnchorValues → List Node → List Value × AnchorValues
  | 0, _, seen, _ => ([], seen)
  | _ + 1, _, seen, [] => ([], seen)
  | fuel + 1, within, seen, n :: rest =>
    let (v, seen) := value known fuel within seen n
    let (vs, seen) := values known fuel within seen rest
    (v :: vs, seen)
termination_by structural fuel => fuel

def pairValues (known : Anchors) :
    Nat → List Text → AnchorValues → List (Node × Node) → List (Value × Value) × AnchorValues
  | 0, _, seen, _ => ([], seen)
  | _ + 1, _, seen, [] => ([], seen)
  | fuel + 1, within, seen, (k, v) :: rest =>
    let (key, seen) := value known fuel within seen k
    let (val, seen) := value known fuel within seen v
    let (more, seen) := pairValues known fuel within seen rest
    ((key, val) :: more, seen)
termination_by structural fuel => fuel

end

def read (root : Node) : Except Fault Value := do
  let known := root.anchors
  let size := root.count
  faults known (size + 1) [] (← root.shallowFault known)
  return (root.value known (4 * (size + 1) * (size + 1)) [] []).1

end Node

/-- The value of a text. A text without a document is null. -/
def read (t : Text) : Except Fault Value := do
  match ← Node.ofTokens (checkNames [] (tokens t)) with
  | some root => root.read
  | none => return Value.null

end Pinpoint.Yaml
