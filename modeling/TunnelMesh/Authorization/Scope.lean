import TunnelMesh.Text
import Mathlib.Algebra.GroupWithZero.Nat
import Mathlib.Data.List.Sort

namespace TunnelMesh.Authorization

open Text String

structure TokenScope where
  agentIDs : List String
  serverNodeIDs : List String
  protocols : List String
  targetCIDRs : List String
  targetPorts : List ℤ

-- What the authorization takes from the standard library of Go: the case of
-- texts, addresses and networks, and JSON.
structure Library where
  toLower : String → String
  equalFold : String → String → Bool
  Address : Type
  Network : Type
  parseIP : String → Option Address
  parseCIDR : String → Option Network
  contains : Network → Address → Bool
  networkString : Network → String
  unmarshalStrings : String → Option (List String)
  unmarshalInts : String → Option (List ℤ)
  decodeScope : String → Option TokenScope
  marshalScope : TokenScope → String

inductive ScopeError where
  | entryLimit
  | agentID
  | serverNodeID
  | invalid
  | serialized
  | protocol (raw : String)
  | cidr (raw : String)
  | port (port : ℤ)

def maxTokenScopeJSONBytes : ℕ := 16 * 1024

def maxScopeAgentIDs : ℕ := 128

def maxScopeAgentIDBytes : ℕ := 255

def maxScopeServerNodeIDs : ℕ := 128

def maxScopeProtocols : ℕ := 4

def maxScopeCIDRs : ℕ := 128

def maxScopePorts : ℕ := 1024

def maxPolicyTargetBytes : ℕ := 255

variable (lib : Library)

structure CompiledTokenScope where
  scope : TokenScope
  agentIDs : List String
  serverNodeIDs : List String
  protocols : List String
  cidrs : List lib.Network
  ports : List ℤ

-- The values in their normal form, each one once, in the order of their first
-- occurrence.
def gather {α β γ : Type} [DecidableEq γ] (normalize : α → Except ScopeError β) (key : β → γ) :
    List α → List β → Except ScopeError (List β)
  | [], seen => .ok seen.reverse
  | raw :: rest, seen => do
      let value ← normalize raw
      gather normalize key rest (if key value ∈ seen.map key then seen else value :: seen)

def trimmedID (error : ScopeError) (raw : String) : Except ScopeError String :=
  let id := trimSpace raw
  if id = "" ∨ maxScopeAgentIDBytes < id.utf8ByteSize then .error error else .ok id

variable (raw : String)

def normalizeProtocol : String :=
  let protocol := lib.toLower (trimSpace raw)
  if protocol = "tcp" ∨ protocol = "udp" ∨ protocol = "http" ∨ protocol = "ws" then protocol
  else if protocol = "websocket" then "ws"
  else ""

def totalBytes (values : List String) : ℕ := (values.map utf8ByteSize).sum

def compileTokenScope (scope : TokenScope) :
    Except ScopeError (CompiledTokenScope lib) := do
  if maxScopeAgentIDs < scope.agentIDs.length ∨ maxScopeServerNodeIDs < scope.serverNodeIDs.length ∨
      maxScopeProtocols < scope.protocols.length ∨ maxScopeCIDRs < scope.targetCIDRs.length ∨
      maxScopePorts < scope.targetPorts.length then
    throw .entryLimit
  if scope.agentIDs.any fun value => maxScopeAgentIDBytes < value.utf8ByteSize then throw .agentID
  if scope.serverNodeIDs.any fun value => maxScopeAgentIDBytes < value.utf8ByteSize then
    throw .serverNodeID
  if (scope.protocols ++ scope.targetCIDRs).any fun value =>
      maxTokenScopeJSONBytes < value.utf8ByteSize then
    throw .invalid
  if maxTokenScopeJSONBytes < totalBytes (scope.agentIDs ++ scope.serverNodeIDs ++ scope.protocols ++
      scope.targetCIDRs) then
    throw .serialized
  let serverNodeIDs ← gather (trimmedID .serverNodeID) id scope.serverNodeIDs []
  let agentIDs ← gather (trimmedID .agentID) id scope.agentIDs []
  let protocols ← gather (fun raw =>
    let protocol := normalizeProtocol lib raw
    if protocol = "" then .error (.protocol raw) else .ok protocol) id scope.protocols []
  let cidrs ← gather (fun raw => (lib.parseCIDR (trimSpace raw)).elim (.error (.cidr raw)) .ok)
    lib.networkString scope.targetCIDRs []
  let ports ← gather (fun port => if port < 1 ∨ 65535 < port then .error (.port port) else .ok port) id
    scope.targetPorts []
  let normal : TokenScope :=
    { agentIDs := agentIDs.insertionSort (· ≤ ·)
      serverNodeIDs := serverNodeIDs.insertionSort (· ≤ ·)
      protocols := protocols.insertionSort (· ≤ ·)
      targetCIDRs := (cidrs.map lib.networkString).insertionSort (· ≤ ·)
      targetPorts := ports.insertionSort (· ≤ ·) }
  if maxTokenScopeJSONBytes < (lib.marshalScope normal).utf8ByteSize then throw .serialized
  return ⟨normal, agentIDs, serverNodeIDs, protocols, cidrs, ports⟩

def decodeTokenScope : Option TokenScope :=
  if maxTokenScopeJSONBytes < raw.utf8ByteSize then none
  else if (trimSpace raw).toList.head? ≠ some '\x7b' then none
  else lib.decodeScope (trimSpace raw)

structure StreamAuthorizationRequest where
  agentID : String
  protocol : String
  targetHost : String
  targetPort : ℤ
  deriving DecidableEq

def scopeAllows {lib : Library} (scope : CompiledTokenScope lib) (req : StreamAuthorizationRequest)
    (targetIP : Option lib.Address) : Bool :=
  (scope.agentIDs.isEmpty || req.agentID ∈ scope.agentIDs) &&
    (scope.protocols.isEmpty || req.protocol ∈ scope.protocols) &&
    (scope.ports.isEmpty || req.targetPort ∈ scope.ports) &&
    (scope.cidrs.isEmpty || targetIP.any fun ip => scope.cidrs.any fun network => lib.contains network ip)

def splitComma : List String := (raw.toList.splitOn ',').map ofList

def parseStringList (limit : ℕ) : Option (List String) :=
  let trimmed := trimSpace raw
  if maxTokenScopeJSONBytes < raw.utf8ByteSize then none
  else if trimmed = "" ∨ trimmed = "[]" then some []
  else if trimmed.toList.head? = some '[' then do
    let values ← lib.unmarshalStrings trimmed
    if limit < values.length then none else some (values.map trimSpace)
  else if limit < (splitComma trimmed).length then none
  else some (((splitComma trimmed).map trimSpace).filter (· ≠ ""))

def parseCIDRList : Option (List lib.Network) := do
  let values ← parseStringList lib raw maxScopeCIDRs
  values.mapM lib.parseCIDR

structure PortInterval where
  first : ℤ
  last : ℤ

abbrev PortMatcher := List PortInterval

-- `strconv.Atoi`. A number that is too large for an `int` is an error there;
-- here it fails the bounds of its caller.
def atoi (s : String) : Option ℤ :=
  match s.toList with
  | '-' :: digits => (natural digits).map fun n => -n
  | '+' :: digits => (natural digits).map Int.ofNat
  | digits => (natural digits).map Int.ofNat
where
  natural (digits : List Char) : Option ℕ :=
    if digits.isEmpty ∨ digits.any fun c => !c.isDigit then none
    else some (digits.foldl (fun n c => 10 * n + (c.toNat - '0'.toNat)) 0)

def portInterval (first last : ℤ) : Option PortInterval :=
  if first < 1 ∨ 65535 < last ∨ last < first then none else some ⟨first, last⟩

def parsePortPart (part : String) : Option PortInterval :=
  if '-' ∈ part.toList then do
    let lo ← atoi (trimSpace (ofList (part.toList.takeWhile (· ≠ '-'))))
    let hi ← atoi (trimSpace (ofList ((part.toList.dropWhile (· ≠ '-')).drop 1)))
    portInterval lo hi
  else do
    let port ← atoi part
    portInterval port port

def parsePortMatcher : Option PortMatcher :=
  let trimmed := trimSpace raw
  if maxTokenScopeJSONBytes < raw.utf8ByteSize then none
  else if trimmed = "" ∨ trimmed = "[]" then some []
  else if trimmed.toList.head? = some '[' then do
    let ports ← lib.unmarshalInts trimmed
    if maxScopePorts < ports.length then none else ports.mapM fun port => portInterval port port
  else if maxScopePorts < (splitComma trimmed).length then none
  else (((splitComma trimmed).map trimSpace).filter (· ≠ "")).mapM parsePortPart

def PortMatcher.allows (matcher : PortMatcher) (port : ℤ) : Bool :=
  matcher.isEmpty || matcher.any fun interval => interval.first ≤ port && port ≤ interval.last

end TunnelMesh.Authorization
