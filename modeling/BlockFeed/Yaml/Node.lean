import BlockFeed.Yaml.Event
import BlockFeed.Yaml.Layout

/-!
# YAML documents

A document is a tree of scalars, sequences and mappings, in which an alias stands for a node that
carries an anchor. The fields of a mapping keep their order, duplicates included.

Anchors are numbered, and aliases refer to numbers. An anchor is given the count of the distinct
names before it, and an alias the number that its name has at that place. A name that is used again
may so be given the number of another one; an alias then stands for the last node of its number,
wherever it stands.

`Document.ofText?` reads the only document of a text.
-/

namespace BlockFeed.Yaml

/-- A node of a document. -/
inductive Node where
  | alias (number : Nat)
  | scalar (scalar : Scalar)
  | sequence (items : List Node)
  | mapping (fields : List (Node × Node))
  deriving Inhabited

namespace Node

/-- The value is left out. Tags make no difference. -/
def isOmitted : Node → Bool
  | .scalar s => s.style = .plain && s.text.isEmpty
  | _ => false

end Node

/-- A document: its content and the nodes that aliases stand for. -/
structure Document where
  root : Node
  targets : List (Nat × Node)

namespace Document

/-- The node with a number. -/
def target? (d : Document) (number : Nat) : Option Node := d.targets.lookup number

end Document

/-- What a collection that has not ended holds, last first. -/
inductive Contents where
  | sequence (items : List Node)
  /-- The fields, and a key whose value is still to come. -/
  | mapping (fields : List (Node × Node)) (key : Option Node)

namespace Contents

/-- Adds a node. -/
def push (node : Node) : Contents → Contents
  | .sequence items => .sequence (node :: items)
  | .mapping fields none => .mapping fields (some node)
  | .mapping fields (some key) => .mapping ((key, node) :: fields) none

/-- The collection, once it has ended. -/
def toNode : Contents → Node
  | .sequence items => .sequence items.reverse
  | .mapping fields _ => .mapping fields.reverse

end Contents

/-- A collection that has not ended. -/
structure OpenCollection where
  /-- The events before it. -/
  position : Nat
  isAnchored : Bool
  contents : Contents

/-- A document of which some events are read. -/
structure Assembly where
  /-- The events read. -/
  position : Nat
  /-- The collections that have not ended, innermost first. -/
  pending : List OpenCollection
  root : Option Node
  /-- The numbers of the names in use, each name once. -/
  names : List (String × Nat)
  /-- The numbers given and where their nodes begin, last first. -/
  anchors : List (Nat × Nat)
  /-- The nodes with an anchor and where they begin. -/
  nodes : List (Nat × Node)

namespace Assembly

/-- Nothing is read. -/
def start : Assembly := ⟨0, [], none, [], [], []⟩

/-- Gives an anchor its number. -/
def bind (a : Assembly) : Option String → Assembly
  | none => a
  | some name =>
    let number := a.names.length
    { a with
      names := (name, number) :: a.names.filter (·.1 ≠ name)
      anchors := (number, a.position) :: a.anchors }

/-- Adds a node that began at a position. -/
def push (a : Assembly) (position : Nat) (isAnchored : Bool) (node : Node) : Assembly :=
  let a := if isAnchored then { a with nodes := (position, node) :: a.nodes } else a
  match a.pending with
  | [] => { a with root := some node }
  | c :: pending => { a with pending := { c with contents := c.contents.push node } :: pending }

/-- Begins a collection. -/
def openCollection (a : Assembly) (anchor : Option String) (contents : Contents) : Assembly :=
  { a.bind anchor with pending := ⟨a.position, anchor.isSome, contents⟩ :: a.pending }

/-- Ends the innermost collection. -/
def close (a : Assembly) : Assembly :=
  match a.pending with
  | [] => a
  | c :: pending => { a with pending := pending }.push c.position c.isAnchored c.contents.toNode

/-- Adds what an event says. An alias must have a name that is in use. -/
def add? (a : Assembly) : Event → Option Assembly
  | .alias name => (a.names.lookup name).map fun number => a.push a.position false (.alias number)
  | .scalar anchor scalar =>
    some ((a.bind anchor).push a.position anchor.isSome (.scalar scalar))
  | .sequenceStart anchor => some (a.openCollection anchor (.sequence []))
  | .mappingStart anchor => some (a.openCollection anchor (.mapping [] none))
  | .sequenceEnd => some a.close
  | .mappingEnd => some a.close

/-- Counts an event. -/
def next (a : Assembly) : Assembly := { a with position := a.position + 1 }

/-- Adds events. -/
def addAll? (a : Assembly) (events : List Event) : Option Assembly :=
  events.foldlM (fun a event => (a.add? event).map next) a

/-- The document, once all events are read. -/
def toDocument? (a : Assembly) : Option Document := do
  return ⟨← a.root, a.anchors.filterMap fun (number, position) =>
    (a.nodes.lookup position).map (number, ·)⟩

end Assembly

namespace Document

/-- The document that the events of a stream make up. -/
def ofEvents? (events : List Event) : Option Document := do
  (← Assembly.start.addAll? events).toDocument?

/-- The only document of a text. A text that holds none is an empty one. -/
def ofText? (text : String) : Option Document := do
  ofEvents? (← Event.ofTokens? (← Token.ofText? text))

end Document

end BlockFeed.Yaml
