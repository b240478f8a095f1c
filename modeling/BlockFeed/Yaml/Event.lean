import BlockFeed.Yaml.Token

/-!
# The structure of a document

A document read from its tokens is a run of events: scalars, aliases, and the starts and ends of
sequences and mappings. Where a value or key is left out there is an empty plain scalar.

The grammar is a stack of expectations. `Expected.step?` takes the innermost one, and answers with
the events that meet it, the expectations that come in its place and the tokens that are left.
`Event.ofTokens?` reads the only document of a stream.
-/

namespace BlockFeed.Yaml

/-- The text of a scalar, how it is written and its tag. -/
structure Scalar where
  text : String
  style : ScalarStyle
  tag : Option String
  deriving DecidableEq, Repr, Inhabited

namespace Scalar

/-- What stands for a value that is left out. -/
def empty : Scalar := ⟨"", .plain, none⟩

end Scalar

/-- A part of a document. Scalars and collections can carry an anchor. -/
inductive Event where
  | alias (name : String)
  | scalar (anchor : Option String) (scalar : Scalar)
  | sequenceStart (anchor : Option String)
  | sequenceEnd
  | mappingStart (anchor : Option String)
  | mappingEnd
  deriving DecidableEq, Repr, Inhabited

namespace Event

/-- A value or key that is left out. -/
def omitted : Event := .scalar none .empty

end Event

/-- Where a node stands. -/
inductive Place where
  /-- Inside a flow collection, where block collections cannot begin. -/
  | flow
  | block
  /-- In a block mapping, where the entries of a sequence need no indentation of their own. -/
  | field
  deriving DecidableEq, Repr

/-- What the grammar expects. -/
inductive Expected where
  | node (place : Place)
  /-- An entry of a block sequence, or its end. -/
  | entry
  /-- An entry of a sequence that is not indented, which ends where no other follows. -/
  | looseEntry
  /-- A key of a block mapping, or its end. -/
  | blockKey
  | blockValue
  /-- An item of a flow sequence, or its end. -/
  | item (isFirst : Bool)
  /-- The key of a single pair in a flow sequence. -/
  | pairKey
  | pairValue
  | pairEnd
  /-- A key of a flow mapping, or its end. -/
  | flowKey (isFirst : Bool)
  | flowValue
  /-- The value of a key in a flow mapping that no colon follows. -/
  | omittedValue
  deriving DecidableEq, Repr

/-- What handles stand for, the first given first. -/
abbrev Handles := List (String × String)

namespace Handles

/-- What handles stand for where no directive says otherwise. -/
def standard : Handles := [("!", "!"), ("!!", "tag:yaml.org,2002:")]

/-- The tag that a handle and a suffix make up. -/
def tag? (handles : Handles) (handle suffix : String) : Option String :=
  if handle.isEmpty then some suffix else (handles.lookup handle).map (· ++ suffix)

end Handles

/-- The anchor and the tag of a node, in either order. -/
structure Properties where
  anchor : Option String
  tag : Option String

namespace Properties

/-- The node has an anchor or a tag, and so need have no content. -/
def isGiven (p : Properties) : Bool := p.anchor.isSome || p.tag.isSome

/-- Reads what stands before the content of a node. -/
def ofTokens? (handles : Handles) : List Token → Option (Properties × List Token)
  | .anchor a :: .tag h s :: rest => do return (⟨some a, some (← handles.tag? h s)⟩, rest)
  | .tag h s :: .anchor a :: rest => do return (⟨some a, some (← handles.tag? h s)⟩, rest)
  | .anchor a :: rest => some (⟨some a, none⟩, rest)
  | .tag h s :: rest => do return (⟨none, some (← handles.tag? h s)⟩, rest)
  | tokens => some (⟨none, none⟩, tokens)

end Properties

/-- A step of the grammar: events, the expectations that come next and the tokens left. -/
structure Step where
  events : List Event
  expected : List Expected
  rest : List Token

namespace Expected

/-- One of the given tokens comes next. -/
def isBefore (tokens : List Token) (rest : List Token) : Bool :=
  match rest with
  | [] => false
  | t :: _ => tokens.contains t

/-- A node where none of the given tokens comes next, and an omitted one otherwise. -/
def nodeUnless (tokens : List Token) (place : Place) (next : Expected) (rest : List Token) : Step :=
  if isBefore tokens rest then ⟨[.omitted], [next], rest⟩ else ⟨[], [.node place, next], rest⟩

/-- A node and its content. The tag `!` says that a scalar has no tag. -/
def nodeStep? (handles : Handles) (place : Place) (tokens : List Token) : Option Step := do
  let (p, rest) ← Properties.ofTokens? handles tokens
  let bare : Option Step :=
    if p.isGiven then some ⟨[.scalar p.anchor ⟨"", .plain, p.tag⟩], [], rest⟩ else none
  match rest with
  | .blockEntry :: _ =>
    if place = .field then return ⟨[.sequenceStart p.anchor], [.looseEntry], rest⟩ else bare
  | .scalar text style :: rest =>
    let tag := if p.tag = some "!" then none else p.tag
    return ⟨[.scalar p.anchor ⟨text, style, tag⟩], [], rest⟩
  | .flowSequenceStart :: rest => return ⟨[.sequenceStart p.anchor], [.item true], rest⟩
  | .flowMappingStart :: rest => return ⟨[.mappingStart p.anchor], [.flowKey true], rest⟩
  | .blockSequenceStart :: after =>
    if place ≠ .flow then return ⟨[.sequenceStart p.anchor], [.entry], after⟩ else bare
  | .blockMappingStart :: after =>
    if place ≠ .flow then return ⟨[.mappingStart p.anchor], [.blockKey], after⟩ else bare
  | _ => bare

/-- The comma before a part of a flow collection that is not the first. -/
def afterComma? (isFirst : Bool) (tokens : List Token) : Option (List Token) :=
  if isFirst then some tokens
  else
    match tokens with
    | .flowEntry :: rest => some rest
    | _ => none

/-- An item of a flow sequence. -/
def itemStep? (isFirst : Bool) (tokens : List Token) : Option Step :=
  match tokens with
  | .flowSequenceEnd :: rest => some ⟨[.sequenceEnd], [], rest⟩
  | _ => do
    match ← afterComma? isFirst tokens with
    | .flowSequenceEnd :: rest => return ⟨[.sequenceEnd], [], rest⟩
    | .key :: rest => return ⟨[.mappingStart none], [.pairKey], rest⟩
    | rest => return ⟨[], [.node .flow, .item false], rest⟩

/-- A key of a flow mapping. -/
def flowKeyStep? (isFirst : Bool) (tokens : List Token) : Option Step :=
  match tokens with
  | .flowMappingEnd :: rest => some ⟨[.mappingEnd], [], rest⟩
  | _ => do
    match ← afterComma? isFirst tokens with
    | .flowMappingEnd :: rest => return ⟨[.mappingEnd], [], rest⟩
    | .key :: rest => return nodeUnless [.value, .flowEntry, .flowMappingEnd] .flow .flowValue rest
    | rest => return ⟨[], [.node .flow, .omittedValue], rest⟩

/-- Meets one expectation. -/
def step? (handles : Handles) : Expected → List Token → Option Step
  | .node _, .alias name :: rest => some ⟨[.alias name], [], rest⟩
  | .node place, tokens => nodeStep? handles place tokens
  | .entry, .blockEntry :: rest => some (nodeUnless [.blockEntry, .blockEnd] .block .entry rest)
  | .entry, .blockEnd :: rest => some ⟨[.sequenceEnd], [], rest⟩
  | .entry, _ => none
  | .looseEntry, .blockEntry :: rest =>
    some (nodeUnless [.blockEntry, .key, .value, .blockEnd] .block .looseEntry rest)
  | .looseEntry, tokens => some ⟨[.sequenceEnd], [], tokens⟩
  | .blockKey, .key :: rest => some (nodeUnless [.key, .value, .blockEnd] .field .blockValue rest)
  | .blockKey, .blockEnd :: rest => some ⟨[.mappingEnd], [], rest⟩
  | .blockKey, _ => none
  | .blockValue, .value :: rest => some (nodeUnless [.key, .value, .blockEnd] .field .blockKey rest)
  | .blockValue, tokens => some ⟨[.omitted], [.blockKey], tokens⟩
  | .item isFirst, tokens => itemStep? isFirst tokens
  | .pairKey, tokens =>
    if isBefore [.value, .flowEntry, .flowSequenceEnd] tokens then
      -- The token that shows the key to be left out is passed over.
      some ⟨[.omitted], [.pairValue], tokens.drop 1⟩
    else some ⟨[], [.node .flow, .pairValue], tokens⟩
  | .pairValue, .value :: rest =>
    some (nodeUnless [.flowEntry, .flowSequenceEnd] .flow .pairEnd rest)
  | .pairValue, tokens => some ⟨[.omitted], [.pairEnd], tokens⟩
  | .pairEnd, tokens => some ⟨[.mappingEnd], [.item false], tokens⟩
  | .flowKey isFirst, tokens => flowKeyStep? isFirst tokens
  | .flowValue, .value :: rest =>
    some (nodeUnless [.flowEntry, .flowMappingEnd] .flow (.flowKey false) rest)
  | .flowValue, tokens => some ⟨[.omitted], [.flowKey false], tokens⟩
  | .omittedValue, tokens => some ⟨[.omitted], [.flowKey false], tokens⟩

/-- Meets all expectations. The events so far are given last first. -/
def run? (handles : Handles) : (fuel : Nat) → (events : List Event) → List Expected → List Token →
    Option (List Event × List Token)
  | _, events, [], tokens => some (events.reverse, tokens)
  | 0, _, _ :: _, _ => none
  | fuel + 1, events, expected :: more, tokens => do
    let step ← expected.step? handles tokens
    run? handles fuel (step.events.reverse ++ events) (step.expected ++ more) step.rest

end Expected

namespace Event

/-- The versions of the format that can be read. -/
def isReadable (major minor : Nat) : Bool := major = 1 && (minor = 1 || minor = 2)

/-- The directives before a document: one version at most, and each handle once. The handles that
they do not name stand for what they stand for elsewhere. -/
def directives? : (versioned : Bool) → Handles → List Token → Option (Handles × List Token)
  | versioned, handles, .versionDirective major minor :: rest =>
    if versioned || !isReadable major minor then none else directives? true handles rest
  | versioned, handles, .tagDirective handle replacement :: rest =>
    if (handles.lookup handle).isSome then none
    else directives? versioned (handles ++ [(handle, replacement)]) rest
  | _, handles, rest => some (handles ++ Handles.standard, rest)

/-- The handles of a document, whether its start is marked, and its tokens. Directives must be
followed by the mark. -/
def preamble? (tokens : List Token) : Option (Handles × Bool × List Token) := do
  match ← directives? false [] tokens with
  | (handles, .documentStart :: rest) => return (handles, true, rest)
  | (handles, rest) => if rest.length < tokens.length then none else return (handles, false, rest)

/-- The document has no content. -/
def isBlank (marked : Bool) (tokens : List Token) : Bool :=
  marked &&
    match tokens with
    | [] => true
    | .versionDirective _ _ :: _ => true
    | .tagDirective _ _ :: _ => true
    | .documentStart :: _ => true
    | .documentEnd :: _ => true
    | _ => false

/-- The events of the document that the tokens begin with, and the tokens behind it. Each token is
the end of at most a few expectations, for which the steps suffice. -/
def firstDocument? (tokens : List Token) : Option (List Event × List Token) := do
  let (handles, marked, tokens) ← preamble? tokens
  if isBlank marked tokens then return ([.omitted], tokens)
  else Expected.run? handles (8 * tokens.length + 8) [] [.node .block] tokens

/-- The events of the only document; a stream without any is an omitted one. Nothing but marks that
end the document may follow it. -/
def ofTokens? (tokens : List Token) : Option (List Event) :=
  if tokens.isEmpty then some [.omitted]
  else do
    let (events, rest) ← firstDocument? tokens
    if rest.all (· = .documentEnd) then return events else none

end Event

end BlockFeed.Yaml
