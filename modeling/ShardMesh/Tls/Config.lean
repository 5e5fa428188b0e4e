import ShardMesh.Crypto.Sha256
import ShardMesh.Error
import ShardMesh.Tls.Pem
import ShardMesh.Tls.ServerName

/-!
# Loading what secures a connection

A server needs a chain of certificates and a private key; a client needs to know whom it trusts, and
may have a certificate and key of its own. All of it is read from files, and the first thing that is
missing is the answer. What is in the certificates is of no concern here.

Files are given by a function from paths to contents.
-/

namespace ShardMesh.Tls

/-- The contents of the file at a path, if there is a file. -/
abbrev Files := String → Option Bytes

/-- How the absence of a file is reported. -/
def noSuchFile : String := "No such file or directory (os error 2)"

/-- The certificates in a file; there has to be one. -/
def loadCertificates (files : Files) (path : String) : Except ProtocolError (List Bytes) :=
  match files path with
  | none => .error (.tls ("Failed to open cert file " ++ path ++ ": " ++ noSuchFile))
  | some file =>
    match Pem.sections? file with
    | none => .error (.tls ("Failed to parse certificate " ++ path))
    | some sections =>
      match Pem.contentsOf .certificate sections with
      | [] => .error (.tls ("No certificates in " ++ path))
      | chain => .ok chain

/-- The first private key in a file. -/
def loadPrivateKey (files : Files) (path : String) : Except ProtocolError Bytes :=
  match files path with
  | none => .error (.tls ("Failed to open key file " ++ path ++ ": " ++ noSuchFile))
  | some file =>
    match Pem.sections? file with
    | none => .error (.tls "Failed to parse PKCS8 private key")
    | some sections =>
      match Pem.contentsOf .privateKey sections with
      | [] => .error (.tls "No private keys found")
      | key :: _ => .ok key

/-- The fingerprint of the first certificate in a file. -/
def fingerprint (files : Files) (path : String) : Except ProtocolError Bytes :=
  (loadCertificates files path).map fun chain => Sha256.hash (chain.headD [])

/-! ## Servers -/

/-- Where a server finds what it needs. -/
structure ServerFiles where
  certificates : String
  key : String
  /-- Certificates of those who may sign for clients, where clients have to show one. -/
  clientAuthority : Option String := none
  deriving DecidableEq, Repr, Inhabited

/-- What secures a server. -/
structure ServerMaterial where
  chain : List Bytes
  key : Bytes
  clientAnchors : Option (List Bytes)
  deriving DecidableEq, Repr, Inhabited

/-- Loads what secures a server. -/
def ServerFiles.load (c : ServerFiles) (files : Files) : Except ProtocolError ServerMaterial := do
  let chain ← loadCertificates files c.certificates
  let key ← loadPrivateKey files c.key
  match c.clientAuthority with
  | none => return { chain, key, clientAnchors := none }
  | some path => return { chain, key, clientAnchors := some (← loadCertificates files path) }

/-! ## Clients -/

/-- Whom a client trusts. -/
inductive Trust where
  /-- Whoever a certificate in this file signed for. -/
  | anchors (path : String)
  /-- The one whose certificate has this fingerprint. -/
  | pinned (fingerprint : Bytes)
  /-- Everybody. -/
  | anyone
  deriving DecidableEq, Repr, Inhabited

/-- What a client needs, and where it finds it. -/
structure ClientFiles where
  serverName : String
  trust : Trust
  /-- Certificates and key of its own. -/
  identity : Option (String × String) := none
  deriving DecidableEq, Repr, Inhabited

/-- What secures a client. -/
structure ClientMaterial where
  identity : Option (List Bytes × Bytes)
  anchors : List Bytes
  deriving DecidableEq, Repr, Inhabited

/-- Loads the certificates and the key that a client shows. -/
def loadIdentity (files : Files) :
    Option (String × String) → Except ProtocolError (Option (List Bytes × Bytes))
  | none => .ok none
  | some (certificates, key) => do
    let chain ← loadCertificates files certificates
    return some (chain, ← loadPrivateKey files key)

/-- Loads what secures a client: first what it shows, then whom it trusts. -/
def ClientFiles.load (c : ClientFiles) (files : Files) : Except ProtocolError ClientMaterial := do
  let identity ← loadIdentity files c.identity
  match c.trust with
  | .anchors path => return { identity, anchors := ← loadCertificates files path }
  | .pinned _ | .anyone => return { identity, anchors := [] }

/-- The name of the server that a client expects. -/
def expectedName (name : String) : Except ProtocolError ServerName :=
  match ServerName.ofText? name with
  | some kind => .ok kind
  | none => .error (.tls "Invalid server name")

/-- Loads what a client needs for dialing. -/
def ClientFiles.dialer (c : ClientFiles) (files : Files) :
    Except ProtocolError (ClientMaterial × ServerName) := do
  let material ← c.load files
  return (material, ← expectedName c.serverName)

end ShardMesh.Tls
