import TunnelMesh.Interleaving
import TunnelMesh.Vpn.Peer

namespace TunnelMesh.Vpn.PeerLifecycle

structure Principal where
  userID : String
  role : String

def isAdmin (p : Principal) : Bool := p.role.toList.map Char.toLower = "admin".toList

structure Agent where
  enabled : Bool
  ownerUserID : String

inductive CapabilityState where
  | supported
  | unsupported
  | unverified

structure Config where
  enabled : Bool
  icmpEnabled : Bool
  hasSecrets : Bool
  hasProbe : Bool

-- What a call learns on its way besides the peer's row. `none` is a failure.
structure Surroundings where
  now : ℕ
  agent : Option (Option Agent)
  capability : Option CapabilityState
  keysFail : Bool

-- Key pairs are drawn from a source that does not repeat a public key.
structure KeySource where
  publicKey : ℕ → String
  privateKey : ℕ → SealedKey
  injective : Function.Injective publicKey

def authorizeAgent (actor : Principal) (found : Option (Option Agent)) : Except PeerError Unit :=
  let unavailable :=
    PeerError.vpn (errPeerInvalid.withMessage "vpn peer is invalid: the egress agent is not available")
  match found with
  | none => .error (.other "vpn: load egress agent")
  | some none => .error unavailable
  | some (some agent) =>
    if agent.enabled = false ∨ (isAdmin actor = false ∧ agent.ownerUserID ≠ actor.userID) then
      .error unavailable
    else .ok ()

def capabilityMissing (reason : String) : PeerError :=
  .vpn (errAgentCapabilityMissing.withMessage
    ("egress agent lacks the required vpn capability: " ++ reason))

variable (config : Config)

def authorizeICMP (requested : Bool) (probed : Option CapabilityState) :
    Except PeerError Unit :=
  if requested = false then .ok ()
  else if config.icmpEnabled = false then
    .error (capabilityMissing ("icmp is disabled on this server node, " ++
      "set server.vpn.icmp_enabled=true to allow peers to request it"))
  else if config.hasProbe = false then
    .error (capabilityMissing ("this server node has no agent capability probe configured, " ++
      "so it cannot verify stream_icmp_echo.v1"))
  else
    match probed with
    | none => .error (.other "vpn: probe the egress agent icmp capability")
    | some .supported | some .unverified => .ok ()
    | some .unsupported =>
      .error (capabilityMissing ("icmp needs stream_icmp_echo.v1, " ++
        "which the agent has not negotiated or it is not connected to any server node"))

def patchedStatus (stored : PeerStatus) : Option StatusText → Except PeerError PeerStatus
  | none => .ok stored
  | some (.known .active) => .ok .active
  | some (.known .disabled) => .ok .disabled
  | some (.known .revoked) => .error (.vpn (peerInvalid
      "revocation has its own endpoint and cannot be set through a patch"))
  | some (.other text) => .error (.vpn (peerInvalid ("unsupported status " ++ text.quote)))

def updated (actor : Principal) (patch : VPNPeerPatch) (around : Surroundings)
    (stored : VPNPeer) : Except PeerError VPNPeer := do
  if stored.status = .revoked then throw (.vpn (revokedPeerConflict "modified"))
  let spec := applyVPNPeerPatch (specFromStored stored) patch
  (if patch.expiresAt.isSome then spec.validateRequest around.now else spec.validateFields).mapError
    PeerError.vpn
  if patch.agentID.isSome then authorizeAgent actor around.agent
  authorizeICMP config (spec.icmpEnabled && patch.icmpEnabled.isSome) around.capability
  let status ← patchedStatus stored.status patch.status
  return { stored with
    name := spec.name
    description := spec.description
    agentID := spec.agentID
    allowedIPs := spec.encodedAllowedIPs
    allowedPorts := spec.encodedAllowedPorts
    allowPrivateTargets := spec.allowPrivateTargets
    icmpEnabled := spec.icmpEnabled
    maxConcurrentFlows := spec.maxConcurrentFlows
    packetRateLimit := spec.packetRateLimit
    expiresAt := spec.expiresAt
    status
    updatedAt := around.now }

variable (keys : KeySource)

def rotated (n : ℕ) (around : Surroundings) (stored : VPNPeer) : VPNPeer :=
  { stored with
    publicKey := keys.publicKey n
    privateKey := keys.privateKey n
    updatedAt := around.now }

inductive Operation where
  | update (patch : VPNPeerPatch)
  | rotate
  | revoke

-- Where a call stands: before it loads the row, before the `UPDATE` of all
-- columns (a rotation knows the number of its key pair), before the `UPDATE` of
-- the status, before the read that explains why that one found no row, or done.
inductive Phase where
  | load
  | write (row loaded : VPNPeer) (drawn : Option ℕ)
  | setStatus
  | reread
  | returned (result : Except PeerError Unit)

structure Call where
  actor : Principal
  operation : Operation
  phase : Phase

structure Request where
  actor : Principal
  operation : Operation

def Call.begin (v : Request) : Call :=
  let phase : Phase :=
    if config.enabled = false then .returned (.error (.vpn errNodeDisabled))
    else
      match v.operation with
      | .rotate =>
        if config.hasSecrets = false then .returned (.error (.vpn errSecretUnavailable)) else .load
      | _ => .load
  ⟨v.actor, v.operation, phase⟩

-- The row of the peer and the number of key pairs drawn. The rest remembers the
-- keys that were ever stored, newest first, whether a revocation returned
-- success, and the keys that successful rotations found and replaced.
structure Store where
  peer : VPNPeer
  drawn : ℕ
  stored : List ℕ
  revoked : Bool
  retired : List String

def Call.return (c : Call) (result : Except PeerError Unit) : Call :=
  { c with phase := .returned result }

-- A statement runs, fails on a unique key, fails without effect, or takes effect
-- although the caller sees a failure.
inductive Input where
  | run (around : Surroundings)
  | conflict
  | fail
  | lost (around : Surroundings)

variable (store : Store)

def Store.load (c : Call)
    (around : Surroundings) : Store × Call :=
  let stored := store.peer
  if isAdmin c.actor = false ∧ stored.ownerID ≠ c.actor.userID then
    (store, c.return (.error (.vpn errPeerNotFound)))
  else
    match c.operation with
    | .update patch =>
      match updated config c.actor patch around stored with
      | .error e => (store, c.return (.error e))
      | .ok row => (store, { c with phase := .write row stored none })
    | .rotate =>
      if stored.status = .revoked then
        (store, c.return (.error (.vpn (revokedPeerConflict "rotated"))))
      else if around.keysFail then
        (store, c.return (.error (.other "vpn: generate peer key pair")))
      else
        ({ store with drawn := store.drawn + 1 },
          { c with phase := .write (rotated keys store.drawn around stored) stored (some store.drawn) })
    | .revoke =>
      if stored.status = .revoked then ({ store with revoked := true }, c.return (.ok ()))
      else (store, { c with phase := .setStatus })

-- `UPDATE vpn_peers SET ... WHERE id=?` sets all columns but two.
def Store.write (row : VPNPeer) (drawn : Option ℕ) : Store :=
  { store with
    peer := { row with id := store.peer.id, createdAt := store.peer.createdAt }
    stored := drawn.toList ++ store.stored }

-- What a rotation that returns success has retired: the key it loaded and the
-- key its statement replaced.
def Store.retire (replaced : String) (loaded : VPNPeer) (drawn : Option ℕ) : Store :=
  if drawn.isSome then { store with retired := loaded.publicKey :: replaced :: store.retired }
  else store

def Store.setRevoked (now : ℕ) : Store :=
  { store with peer := { store.peer with status := .revoked, updatedAt := now } }

def Store.run (c : Call)
    (around : Surroundings) : Option (Store × Call) :=
  match c.phase with
  | .load => some (store.load config keys c around)
  | .write row loaded drawn =>
    match validateVPNPeer row with
    | .error e => some (store, c.return (.error (.other e)))
    | .ok () =>
      some ((store.write row drawn).retire store.peer.publicKey loaded drawn, c.return (.ok ()))
  | .setStatus =>
    if store.peer.status = .revoked then some (store, { c with phase := .reread })
    else some ({ store.setRevoked around.now with revoked := true }, c.return (.ok ()))
  | .reread =>
    -- `ErrVPNPeerRevoked` counts as success, and so does a row that is not
    -- revoked, which is taken for one that already had the status.
    some ({ store with revoked := true }, c.return (.ok ()))
  | .returned _ => none

def move (c : Call) :
    Input → Option (Store × Call)
  | .run around => store.run config keys c around
  | .conflict =>
    match c.phase with
    | .write _ _ _ => some (store, c.return (.error (.vpn errPeerConflict)))
    | _ => none
  | .fail =>
    match c.phase with
    | .returned _ => none
    | _ => some (store, c.return (.error (.other "database error")))
  | .lost around =>
    match c.phase with
    | .write row _ drawn =>
      match validateVPNPeer row with
      | .error _ => none
      | .ok () => some (store.write row drawn, c.return (.error (.other "database error")))
    | .setStatus =>
      if store.peer.status = .revoked then none
      else some (store.setRevoked around.now, c.return (.error (.other "database error")))
    | _ => none

def system :
    Interleaving.System Store Call Request Input Empty where
  start := Call.begin config
  move := move config keys
  event _ e := nomatch e

def init (peer : VPNPeer) : Interleaving.State Store Call :=
  ⟨⟨{ peer with publicKey := keys.publicKey 0, privateKey := keys.privateKey 0 }, 1, [0], false, []⟩, []⟩

end TunnelMesh.Vpn.PeerLifecycle
