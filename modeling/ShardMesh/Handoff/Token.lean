import ShardMesh.Crypto.Sha256
import ShardMesh.Error
import ShardMesh.Text.Base64
import ShardMesh.Text.Number

/-!
# Handoff tokens

A token lets a player move from one server to another without signing in again. It is a payload,
a dot and a signature, both in Base64. The payload is seven fields between vertical bars: subject,
user name, where from, where to, ownership key, expiry and nonce. The signature is the keyed hash
of the written payload, so it is checked before anything of the payload is looked at.
-/

namespace ShardMesh

/-- Who moves where. -/
structure HandoffRequest where
  subject : UInt64
  username : String
  fromServer : String
  toServer : String
  /-- The key by which the destination was chosen. -/
  ownershipKey : UInt64
  deriving DecidableEq, Repr, Inhabited

/-- What a token says. -/
structure HandoffClaims extends HandoffRequest where
  /-- The last millisecond since 1970 at which the token is good. -/
  expiresAt : UInt64
  nonce : String
  deriving DecidableEq, Repr, Inhabited

namespace Handoff

/-- Stands between the fields of a payload. -/
def fieldDelimiter : Char := '|'

/-- Stands between the payload and the signature. -/
def signatureDelimiter : Char := '.'

/-- The largest 64-bit number. -/
def maxMillis : Nat := UInt64.size - 1

/-- The last moment of a token that is issued now, as far as 64 bits can say it. -/
def expiry (nowMillis expirySeconds : UInt64) : UInt64 :=
  UInt64.ofNat (min maxMillis (nowMillis.toNat + min maxMillis (1000 * expirySeconds.toNat)))

/-- The payload of claims. -/
def payload (c : HandoffClaims) : List Char :=
  List.intercalate [fieldDelimiter] [Text.decimal c.subject.toNat, c.username.toList,
    c.fromServer.toList, c.toServer.toList, Text.decimal c.ownershipKey.toNat,
    Text.decimal c.expiresAt.toNat, c.nonce.toList]

/-- Reads a number of 64 bits. -/
def readU64 (text : List Char) : Option UInt64 := (Text.number? UInt64.size text).map UInt64.ofNat

/-- The claims of a payload. -/
def claims? (payload : List Char) : Option HandoffClaims :=
  match Text.fields fieldDelimiter payload with
  | [subject, username, fromServer, toServer, key, expiresAt, nonce] => do
    let subject ← readU64 subject
    let ownershipKey ← readU64 key
    let expiresAt ← readU64 expiresAt
    return {
      subject, ownershipKey, expiresAt
      username := String.ofList username
      fromServer := String.ofList fromServer
      toServer := String.ofList toServer
      nonce := String.ofList nonce }
  | _ => none

/-- The signature of a written payload. -/
def signature (secret : Bytes) (encoded : List Char) : Bytes :=
  Sha256.hmac secret (Bytes.ofText (String.ofList encoded))

/-- The token of claims. -/
def assemble (secret : Bytes) (c : HandoffClaims) : String :=
  let encoded := Text.Base64.encode (Bytes.ofText (String.ofList (payload c)))
  String.ofList
    (encoded ++ signatureDelimiter :: Text.Base64.encode (signature secret encoded))

/-- Issues a token at a given time. A field that holds the delimiter is refused. -/
def issueAt (request : HandoffRequest) (secret : Bytes) (expirySeconds nowMillis : UInt64)
    (nonce : Bytes) : Except ProtocolError String :=
  if [request.username, request.fromServer, request.toServer].any
      (·.toList.contains fieldDelimiter) then
    .error (.tokenRejected .reservedDelimiter)
  else
    .ok (assemble secret
      { request with expiresAt := expiry nowMillis expirySeconds, nonce := nonce.toHex })

/-- The claims of a token that was signed with the secret and is good at a given time. -/
def validateAt (token : String) (secret : Bytes) (nowMillis : UInt64) :
    Except ProtocolError HandoffClaims :=
  if token.isEmpty then .error (.tokenRejected .empty)
  else
    match Text.cutLast signatureDelimiter token.toList with
    | none | some ([], _) => .error (.tokenRejected .format)
    | some (encoded, given) =>
      if Text.Base64.decode? given ≠ some (signature secret encoded) then
        .error (.tokenRejected .signature)
      else
        match ((Text.Base64.decode? encoded).bind Bytes.toText?).bind (claims? ·.toList) with
        | none => .error (.tokenRejected .format)
        | some claims =>
          if claims.expiresAt < nowMillis then .error (.tokenRejected .expired) else .ok claims

end Handoff
end ShardMesh
