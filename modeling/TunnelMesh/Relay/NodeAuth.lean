import TunnelMesh.Authorization.Stream
import TunnelMesh.Decimal
import TunnelMesh.Storage.ServerNode

namespace TunnelMesh.Relay

open TunnelMesh.Authorization TunnelMesh.Storage Text

structure Platform extends Library where
  ipEqual : Address → Address → Bool
  hashToken : String → String

inductive Code where
  | unauthenticated
  | permissionDenied
  | failedPrecondition

structure Status where
  code : Code
  message : String

def metadataInvalid : Status := ⟨.unauthenticated, "relay metadata invalid"⟩

def authenticationFailed : Status := ⟨.unauthenticated, "relay authentication failed"⟩

def credentialDenied : Status := ⟨.permissionDenied, "relay credential denied"⟩

abbrev Metadata := List (String × String)

def Metadata.get (md : Metadata) (key : String) : List String := (md.filter fun pair => pair.1 = key).map (·.2)

def serverNodeAuthorizationMetadata : String := "authorization"

def serverNodeIDMetadata : String := "x-tunnelmesh-node-id"

def serverNodeEpochMetadata : String := "x-tunnelmesh-node-epoch"

def bearer : String := "Bearer "

-- `strings.ContainsAny(s, " \t\r\n")`
def hasBlank (s : String) : Bool := s.toList.any fun c => c = ' ' || c = '\t' || c = '\r' || c = '\n'

def callerMetadata (nodeID : String) (epoch : ℤ) (rawToken : String) : Except Status Metadata :=
  if trimSpace nodeID = "" ∨ epoch ≤ 0 ∨ trimSpace rawToken = "" ∨ hasBlank rawToken then
    .error ⟨.unauthenticated, "relay client identity is invalid"⟩
  else .ok
    [(serverNodeAuthorizationMetadata, bearer ++ rawToken), (serverNodeIDMetadata, nodeID),
      (serverNodeEpochMetadata, String.ofList (Decimal.signed epoch))]

def Metadata.one (md : Metadata) (key : String) : Except Status String :=
  match md.get key with
  | [value] => if trimSpace value = "" then .error metadataInvalid else .ok value
  | _ => .error metadataInvalid

structure Caller where
  nodeID : String
  epoch : ℤ
  rawToken : String

def rawToken (authorization : String) : Except Status String :=
  let token := String.ofList (authorization.toList.drop bearer.length)
  if (bearer.toList.isPrefixOf authorization.toList) = false ∨ trimSpace token = "" ∨ hasBlank token then
    .error metadataInvalid
  else .ok token

-- An epoch is an `int64` there, so the text of one is within the bounds of
-- `strconv.ParseInt`.
def parseServerNodeMetadata : Option Metadata → Except Status Caller
  | none => .error ⟨.unauthenticated, "relay metadata missing"⟩
  | some md => do
      let authorization ← md.one serverNodeAuthorizationMetadata
      let token ← rawToken authorization
      let nodeID ← md.one serverNodeIDMetadata
      if trimSpace nodeID ≠ nodeID then throw metadataInvalid
      let epochRaw ← md.one serverNodeEpochMetadata
      match atoi epochRaw with
      | none => throw metadataInvalid
      | some epoch => if epoch ≤ 0 then throw metadataInvalid else return ⟨nodeID, epoch, token⟩

variable (platform : Platform)

structure Certificate where
  dnsNames : List String
  ipAddresses : List platform.Address
  uris : List (Option String)

inductive Peer where
  | missing
  | unverified
  | verified (cert : Certificate platform)

def verifiedPeerCertificate {platform : Platform} : Peer platform → Except Status (Certificate platform)
  | .missing => .error ⟨.unauthenticated, "relay peer certificate missing"⟩
  | .unverified => .error ⟨.unauthenticated, "relay peer certificate invalid"⟩
  | .verified cert => .ok cert

def certificateHasExactSAN {platform : Platform} (cert : Certificate platform) (nodeID : String) : Bool :=
  nodeID ≠ "" &&
    ((cert.dnsNames.any fun name => '*' ∉ name.toList && platform.equalFold name nodeID) ||
      ((platform.parseIP nodeID).any fun ip => cert.ipAddresses.any fun candidate =>
        platform.ipEqual candidate ip) ||
      cert.uris.any fun uri => uri = some nodeID)

structure Interceptor where
  db : Database
  nodes : NodeTable
  requireMTLS : Bool

structure Incoming where
  metadata : Option Metadata
  peer : Peer platform

section Authenticate

variable (platform : Platform) (interceptor : Interceptor) (now : ℕ)

def nodeLive (nodeID : String) : Bool := (interceptor.nodes.get nodeID).any fun node => node.live now

-- `identityFromRecord` of a server-node token. Beyond what a client token
-- needs, each node of its scope has to be live.
def serverNodeScopeFromRecord (record : ServiceToken) : Option (CompiledTokenScope platform.toLibrary) := do
  let compiled ← clientScopeFromRecord platform.toLibrary interceptor.db now record
  if compiled.scope.serverNodeIDs.all fun nodeID => nodeLive interceptor now nodeID then some compiled else none

def getByHash (db : Database) (hash : String) : Option ServiceToken :=
  db.tokens.rows.find? fun record => record.tokenHash = hash

def validateServerNode (raw : String) : Option (String × List String) := do
  if trimSpace raw = "" then none
  let record ← getByHash interceptor.db (platform.hashToken raw)
  if record.type ≠ .serverNode then none
  let compiled ← serverNodeScopeFromRecord platform interceptor now record
  return (record.id, compiled.scope.serverNodeIDs)

structure ServerNodePrincipal where
  nodeID : String
  epoch : ℤ
  tokenID : String

def admitNode (nodeID : String) (epoch : ℤ) : Except Status Unit :=
  match interceptor.nodes.get nodeID with
  | none => .error authenticationFailed
  | some node =>
    if node.enabled = false ∨ node.deletedAt ≠ none then .error credentialDenied
    else if node.expired now then .error ⟨.failedPrecondition, "relay node is expired"⟩
    else if node.epoch ≠ epoch then .error ⟨.failedPrecondition, "relay node epoch is stale"⟩
    else .ok ()

def authenticatePeer (peer : Peer platform) (nodeID : String) : Except Status Unit := do
  let cert ← verifiedPeerCertificate peer
  if certificateHasExactSAN cert nodeID = false then throw ⟨.permissionDenied, "relay peer identity denied"⟩

def authorizeCaller (caller : Caller) : Except Status ServerNodePrincipal :=
  match validateServerNode platform interceptor now caller.rawToken with
  | none => .error authenticationFailed
  | some (tokenID, serverNodeIDs) =>
    if serverNodeIDs ≠ [] ∧ caller.nodeID ∉ serverNodeIDs then .error credentialDenied
    else (admitNode interceptor now caller.nodeID caller.epoch).map fun _ =>
      ⟨caller.nodeID, caller.epoch, tokenID⟩

def authenticateServerNode (incoming : Incoming platform) : Except Status ServerNodePrincipal := do
  let caller ← parseServerNodeMetadata incoming.metadata
  if interceptor.requireMTLS then authenticatePeer platform incoming.peer caller.nodeID
  authorizeCaller platform interceptor now caller

end Authenticate

end TunnelMesh.Relay
