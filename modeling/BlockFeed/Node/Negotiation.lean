import BlockFeed.Node.Exchange

/-!
# Negotiation of a version

A client proposes one version with the magic of its network. It goes on only if the node accepts
that version on that network; every other answer is a refusal.
-/

namespace BlockFeed.Handshake

/-- The version of the mini-protocols that is spoken. -/
def spokenVersion : UInt64 := 13

/-- The proposal of a client. -/
def proposal (magic : UInt64) : Message := .proposeVersions [(spokenVersion, ⟨magic, false, 0, false⟩)]

/-- What an answer to the proposal means: the version, or why there is no agreement. -/
def judge (magic : UInt64) (answer : Bytes) : Except Refusal UInt64 :=
  match Message.decode answer with
  | .error e => .error (.malformedAnswer e)
  | .ok (.acceptVersion version data) =>
    if version ≠ spokenVersion then .error (.unproposedVersion version)
    else if data.networkMagic ≠ magic then .error (.otherNetwork data.networkMagic magic)
    else .ok version
  | .ok (.refuse reason) => .error (.byNode reason)
  | .ok message => .error (.unexpected message.name)

/-- The negotiation on a network. -/
def negotiation (magic : UInt64) : Exchange Unit ConnectionError UInt64 :=
  { protocol := .handshake
    start := .request (proposal magic).encode ()
    react := fun _ answer =>
      match judge magic answer with
      | .ok version => .conclude none version
      | .error refusal => .fail (.handshakeRefused refusal)
    unsent := id
    unreceived := fun e => .handshakeRefused (.noAnswer e) }

end BlockFeed.Handshake
