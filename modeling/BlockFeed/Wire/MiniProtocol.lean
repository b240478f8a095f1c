/-!
# Mini-protocols

One connection to a node carries several conversations, each of one mini-protocol. On the wire a
mini-protocol is a 15-bit number.
-/

namespace BlockFeed

/-- A conversation with a node. -/
inductive MiniProtocol where
  | handshake
  | chainSync
  | blockFetch
  deriving DecidableEq, Repr, Inhabited

namespace MiniProtocol

/-- All mini-protocols. -/
def all : List MiniProtocol := [.handshake, .chainSync, .blockFetch]

/-- The number of a mini-protocol on the wire. -/
def id : MiniProtocol → UInt16
  | .handshake => 0
  | .chainSync => 2
  | .blockFetch => 3

/-- The mini-protocol with a number. -/
def ofId? (number : UInt16) : Option MiniProtocol := all.find? (·.id = number)

/-- The name of a mini-protocol in messages. -/
def name : MiniProtocol → String
  | .handshake => "handshake"
  | .chainSync => "chain-sync"
  | .blockFetch => "block-fetch"

/-- The mini-protocol with a name. -/
def ofName? (text : String) : Option MiniProtocol := all.find? (·.name = text)

theorem ofId?_id (p : MiniProtocol) : ofId? p.id = some p := by
  cases p <;> rfl

theorem ofId?_eq_some_iff {number : UInt16} {p : MiniProtocol} :
    ofId? number = some p ↔ p.id = number := by
  constructor
  · intro h
    have := List.find?_some h
    simpa using this
  · rintro rfl
    exact ofId?_id p

end MiniProtocol

end BlockFeed
