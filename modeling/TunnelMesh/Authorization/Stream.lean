import TunnelMesh.Authorization.Facts
import TunnelMesh.Paging
import Mathlib.Data.String.Basic

namespace TunnelMesh.Authorization

open Text

structure TokenIdentity where
  tokenID : String
  ownerUserID : String
  type : TokenType
  deriving DecidableEq

section Policies

variable (lib : Library)

def policyAllows (policy : AgentPolicy) (req : StreamAuthorizationRequest) (targetIP : Option lib.Address) :
    Option Bool :=
  if policy.deletedAt ≠ none then none
  else if maxScopeAgentIDBytes < policy.agentID.utf8ByteSize then none
  else if trimSpace policy.agentID = "" then none
  else if trimSpace policy.agentID ≠ req.agentID then some false
  else if 32 < policy.protocol.utf8ByteSize then none
  else if normalizeProtocol lib policy.protocol = "" then none
  else if normalizeProtocol lib policy.protocol ≠ req.protocol then some false
  else if maxPolicyTargetBytes < policy.targetHost.utf8ByteSize then none
  else if trimSpace policy.targetHost = "" then none
  else if trimSpace policy.targetHost ≠ "*" ∧
      lib.equalFold (trimSpace policy.targetHost) req.targetHost = false then some false
  else if policy.targetPort < 0 ∨ 65535 < policy.targetPort then none
  else if policy.targetPort ≠ 0 ∧ policy.targetPort ≠ req.targetPort then some false
  else do
    let cidrs ← parseCIDRList lib policy.allowedCIDRs
    if cidrs.isEmpty || targetIP.any fun ip => cidrs.any fun network => lib.contains network ip then do
      let ports ← parsePortMatcher lib policy.allowedPorts
      return ports.allows req.targetPort
    else return false

def policyPageSize : ℕ := 100

structure Page where
  items : List AgentPolicy
  hasMore : Bool
  nextCursor : String

def activePolicies (db : Database) (agentID : String) : List AgentPolicy :=
  db.policies.rows.filter fun policy => policy.agentID = agentID && policy.deletedAt = none

-- The active policies of the agent with identifiers above the cursor. A cursor
-- stands for the identifier that it encodes.
def listByAgent (db : Database) (agentID cursor : String) (limit : ℕ) : Page :=
  let rows :=
    if cursor = "" then Paging.ordered AgentPolicy.id (activePolicies db agentID)
    else Paging.after AgentPolicy.id (activePolicies db agentID) cursor
  if limit < rows.length then
    ⟨rows.take limit, true, ((rows.take limit).getLast?.map AgentPolicy.id).getD ""⟩
  else ⟨rows, false, ""⟩

def pageAllows (items : List AgentPolicy) (req : StreamAuthorizationRequest)
    (targetIP : Option lib.Address) : Option Bool :=
  (items.mapM fun policy => policyAllows lib policy req targetIP).map fun verdicts => verdicts.any id

-- The loop over the pages. Each page moves the cursor past at least one policy,
-- so there are no more pages than policies.
def agentPolicyLoop (db : Database) (req : StreamAuthorizationRequest) (targetIP : Option lib.Address) :
    ℕ → String → Bool → Option Bool
  | 0, _, _ => none
  | fuel + 1, cursor, matched => do
      let page := listByAgent db req.agentID cursor policyPageSize
      let allowed ← pageAllows lib page.items req targetIP
      if page.hasMore = false then return matched || allowed
      else if page.nextCursor = "" ∨ page.nextCursor = cursor then none
      else agentPolicyLoop db req targetIP fuel page.nextCursor (matched || allowed)

def agentPolicyAllows (db : Database) (req : StreamAuthorizationRequest) (targetIP : Option lib.Address) :
    Option Bool :=
  agentPolicyLoop lib db req targetIP (db.policies.rows.length + 1) "" false

end Policies

def validTokenBinding (type : TokenType) (ownerUserID agentID nodeID : String) : Bool :=
  ownerUserID ≠ "" &&
    match type with
    | .agent => agentID ≠ "" && nodeID = ""
    | .client => agentID = "" && nodeID = ""
    | .serverNode => agentID = "" && nodeID = ""

def ownerActive (db : Database) (ownerUserID : String) : Bool :=
  (db.accounts.get ownerUserID).any fun account => !account.disabled && account.deletedAt = none

-- The scope of a client token that is neither revoked nor expired, and whose
-- owner is active. The part for the other types of tokens is not reached from
-- here.
def clientScopeFromRecord (lib : Library) (db : Database) (now : ℕ) (record : ServiceToken) :
    Option (CompiledTokenScope lib) :=
  if record.id = "" ∨ record.ownerUserID = "" ∨ record.revokedAt ≠ none ∨
      (record.expiresAt.any fun expires => expires ≤ now) then none
  else if validTokenBinding record.type record.ownerUserID record.agentID record.nodeID = false then none
  else if ownerActive db record.ownerUserID = false then none
  else do
    let scope ← decodeTokenScope lib record.scope
    (compileTokenScope lib scope).toOption

def normalizeRequest (lib : Library) (req : StreamAuthorizationRequest) :
    Option StreamAuthorizationRequest :=
  if maxScopeAgentIDBytes < req.agentID.utf8ByteSize ∨ 32 < req.protocol.utf8ByteSize ∨
      maxPolicyTargetBytes < req.targetHost.utf8ByteSize then none
  else
    let normal : StreamAuthorizationRequest :=
      { agentID := trimSpace req.agentID
        protocol := normalizeProtocol lib req.protocol
        targetHost := trimSpace req.targetHost
        targetPort := req.targetPort }
    if normal.agentID = "" ∨ maxScopeAgentIDBytes < normal.agentID.utf8ByteSize ∨ normal.protocol = "" ∨
        normal.targetHost = "" ∨ maxPolicyTargetBytes < normal.targetHost.utf8ByteSize ∨
        normal.targetPort < 1 ∨ 65535 < normal.targetPort then none
    else some normal

def authorizeStream (lib : Library) (db : Database) (now : ℕ) (id : TokenIdentity)
    (req : StreamAuthorizationRequest) : Bool :=
  if id.tokenID = "" ∨ id.type ≠ .client then false
  else match db.tokens.get id.tokenID with
    | none => false
    | some record =>
      if record.type ≠ .client ∨ record.ownerUserID ≠ id.ownerUserID then false
      else match clientScopeFromRecord lib db now record with
        | none => false
        | some scope => match normalizeRequest lib req with
          | none => false
          | some normal => match db.agents.get normal.agentID with
            | none => false
            | some agent =>
              if agent.enabled = false ∨ agent.ownerUserID ≠ record.ownerUserID then false
              else if scopeAllows scope normal (lib.parseIP normal.targetHost) = false then false
              else (agentPolicyAllows lib db normal (lib.parseIP normal.targetHost)).getD false

end TunnelMesh.Authorization
