import ShardMesh.Config.Basic
import ShardMesh.Handoff.Token

/-!
# Issuing and checking tokens for a node

A signer keeps the secret of the mesh and the lifetime of tokens.
-/

namespace ShardMesh

/-- What a node needs to issue and check tokens. -/
structure HandoffSigner where
  secret : Bytes
  expirySeconds : UInt64
  deriving DecidableEq, Repr, Inhabited

namespace HandoffSigner

/-- The signer that the configuration describes; without a secret there is none. -/
def ofConfig (c : SecurityConfig) : Except ProtocolError HandoffSigner :=
  if c.handoffSecret.isEmpty then .error (.config "Handoff secret is not configured")
  else .ok ⟨Bytes.ofText c.handoffSecret, c.handoffExpirySeconds⟩

/-- Issues a token. -/
def issue (s : HandoffSigner) (request : HandoffRequest) (nowMillis : UInt64) (nonce : Bytes) :
    Except ProtocolError String :=
  Handoff.issueAt request s.secret s.expirySeconds nowMillis nonce

/-- Checks a token. -/
def verify (s : HandoffSigner) (token : String) (nowMillis : UInt64) :
    Except ProtocolError HandoffClaims :=
  Handoff.validateAt token s.secret nowMillis

/-- The signer as it appears in diagnostics. The secret does not. -/
def describe (s : HandoffSigner) : String :=
  "HandoffSigner \x7b expiry: " ++ toString s.expirySeconds.toNat ++ "s, .. \x7d"

end HandoffSigner
end ShardMesh
