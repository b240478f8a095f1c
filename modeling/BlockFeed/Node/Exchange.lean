import BlockFeed.Node.Error

/-!
# Exchanges

An exchange is one task of a client on one mini-protocol, as a machine that reacts to the messages
of the node: it waits for the next one, sends a request and waits, ends with a value, or fails. The
node decides how many messages come, so the machine keeps its state between them and is run by
whoever holds the channel.
-/

namespace BlockFeed

/-- What a client does next. -/
inductive Reaction (σ ε α : Type) where
  /-- Waits for a message. -/
  | await (state : σ)
  /-- Sends a message and waits for the answer. -/
  | request (message : Bytes) (state : σ)
  /-- Ends, perhaps after a last message. -/
  | conclude (farewell : Option Bytes) (value : α)
  | fail (error : ε)

/-- A task of a client on one mini-protocol. -/
structure Exchange (σ ε α : Type) where
  protocol : MiniProtocol
  /-- How the exchange begins. -/
  start : Reaction σ ε α
  /-- What follows a message in a state. -/
  react : σ → Bytes → Reaction σ ε α
  /-- The failure when a message cannot be sent. -/
  unsent : ConnectionError → ε
  /-- The failure when no message comes. -/
  unreceived : ReceiveError → ε

namespace Reaction

variable {σ ε α β : Type}

/-- Goes on with the value of a reaction once it concludes. A last message is then no longer the
last one, so there must be none. -/
def map (f : α → β) : Reaction σ ε α → Reaction σ ε β
  | .await state => .await state
  | .request message state => .request message state
  | .conclude farewell value => .conclude farewell (f value)
  | .fail error => .fail error

/-- The reaction to a message that may be of no use. -/
def ofExcept : Except ε (Reaction σ ε α) → Reaction σ ε α
  | .ok reaction => reaction
  | .error error => .fail error

end Reaction

namespace Exchange

variable {σ ε α β : Type}

/-- The same exchange with another value at its end. -/
def map (f : α → β) (x : Exchange σ ε α) : Exchange σ ε β :=
  { protocol := x.protocol
    start := x.start.map f
    react := fun state message => (x.react state message).map f
    unsent := x.unsent
    unreceived := x.unreceived }

/-- An exchange of a node call, whose failures are those of the call. -/
def ofCall (protocol : MiniProtocol) (start : Reaction σ NodeError α)
    (react : σ → Bytes → Reaction σ NodeError α) : Exchange σ NodeError α :=
  { protocol, start, react, unsent := .connection, unreceived := .ofReceive }

/-- An exchange that consists of one message to the node. -/
def announce (protocol : MiniProtocol) (message : Bytes) : Exchange Unit NodeError Unit :=
  ofCall protocol (.conclude (some message) ()) fun _ _ => .conclude none ()

end Exchange

end BlockFeed
