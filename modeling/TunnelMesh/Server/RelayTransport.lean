import TunnelMesh.Interleaving
import TunnelMesh.Relay.StreamTarget
import TunnelMesh.Server.AgentSessions

namespace TunnelMesh.Server

open Relay Interleaving

structure RelayGeneration where
  agentID : String
  connectionID : String
  connectionEpoch : ℤ
  serverGeneration : ℕ
  deriving DecidableEq

structure RelayStreamKey where
  generation : RelayGeneration
  wireID : ℕ
  deriving DecidableEq

-- `handle` tells streams of one key apart. Only the fields a stream is found by
-- are kept.
structure RelayStream where
  generation : RelayGeneration
  wireID : ℕ
  handle : ℕ
  deriving DecidableEq

def RelayStream.key (stream : RelayStream) : RelayStreamKey := ⟨stream.generation, stream.wireID⟩

def AgentSession.relayGeneration (s : AgentSession) (agentID : String) : RelayGeneration :=
  ⟨agentID, s.connectionID, s.connectionEpoch, s.serverGeneration⟩

-- An allocator is the last wire id it gave away.
structure AgentRelayTransport where
  streams : AList fun _ : RelayStreamKey => RelayStream
  allocators : AList fun _ : RelayGeneration => ℕ
  closed : Bool

def newAgentRelayTransport : AgentRelayTransport := ⟨∅, ∅, false⟩

inductive AllocateError where
  | closed
  | wireIDsExhausted
  | capacity

namespace AgentRelayTransport

variable (t : AgentRelayTransport)

def lastWireID (generation : RelayGeneration) : ℕ :=
  (t.allocators.lookup generation).getD 0

variable (agentID : String)

def agentStreamCount : ℕ :=
  (t.streams.entries.filter fun entry => entry.2.generation.agentID = agentID).length

-- What `OpenStream` does while it has the lock. A refusal for want of capacity
-- has used up its wire id.
def allocate (maxActiveStreamsPerAgent : ℤ) (t : AgentRelayTransport) (agentID : String) (session : AgentSession)
    (handle : ℕ) : AgentRelayTransport × Except AllocateError RelayStream :=
  let generation := session.relayGeneration agentID
  let last := t.lastWireID generation
  if t.closed then (t, .error .closed)
  else if 2 ^ 32 - 1 ≤ last then
    ({ t with allocators := t.allocators.insert generation last }, .error .wireIDsExhausted)
  else
    let t : AgentRelayTransport := { t with allocators := t.allocators.insert generation (last + 1) }
    if 0 < maxActiveStreamsPerAgent ∧ maxActiveStreamsPerAgent ≤ t.agentStreamCount agentID then
      (t, .error .capacity)
    else
      let stream : RelayStream := ⟨generation, last + 1, handle⟩
      ({ t with streams := t.streams.insert stream.key stream }, .ok stream)

def detach (stream : RelayStream) : AgentRelayTransport :=
  if t.streams.lookup stream.key = some stream then { t with streams := t.streams.erase stream.key } else t

def streamsOf (serverGeneration : ℕ) : List RelayStreamKey :=
  (t.streams.entries.filter fun entry =>
    entry.2.generation.agentID = agentID ∧ entry.2.generation.serverGeneration = serverGeneration).map Sigma.fst

-- `failAgentGeneration`. The allocator goes with the last stream it comes to.
def failAgentGeneration (serverGeneration : ℕ) : AgentRelayTransport :=
  let failed := t.streamsOf agentID serverGeneration
  { t with
    streams := failed.foldl (fun streams key => streams.erase key) t.streams
    allocators := match failed.getLast? with
      | none => t.allocators
      | some key => t.allocators.erase key.generation }

def close : AgentRelayTransport := if t.closed then t else ⟨∅, ∅, true⟩

-- The stream a frame is for: it came in on the connection of `serverGeneration`,
-- and `found` is the session of that generation.
def streamFor (serverGeneration : ℕ) (found : AgentSession)
    (wireID : ℕ) : Option RelayStream :=
  let generation : RelayGeneration := ⟨agentID, found.connectionID, found.connectionEpoch, serverGeneration⟩
  (t.streams.lookup ⟨generation, wireID⟩).filter fun stream => stream.generation = generation

end AgentRelayTransport

-- `none` is a panic: `OpenStream` takes the id of a session that may be nil.
def findSession (fold : Char → Char) (m : AgentSessionManager) (request : StreamRequest String) :
    Option (Option (String × AgentSession)) :=
  if request.caseInsensitiveAgentID then
    match m.getCaseInsensitive fold request.agentID with
    | .ok found => found.map fun s => some (s.agentID, s)
    | .error _ => some none
  else some ((m.get request.agentID).map fun s => (request.agentID, s))

def targetSession (m : AgentSessionManager) (request : StreamRequest String) (agentID : String) (s : AgentSession) :
    Option AgentSession :=
  if request.targetConnectionID = "" then some s
  else (m.getConnection agentID request.targetConnectionID).filter fun target =>
    request.targetConnectionEpoch = 0 ∨ target.connectionEpoch = request.targetConnectionEpoch.toInt

def capabilityStreamOpenResult : String := "stream_open_result.v1"

structure RelayConfig where
  sessions : AgentSessionConfig
  maxActiveStreamsPerAgent : ℤ
  fold : Char → Char

-- The sessions and the streams of a node, with the OPEN_STREAM frames its Agents
-- were sent, as generation and wire id, and the streams that frames came to.
structure RelayStore where
  registry : SessionRegistry
  transport : AgentRelayTransport
  handles : ℕ
  sent : List (ℕ × ℕ)
  delivered : List (AgentSession × RelayStream)

def newRelayStore : RelayStore := ⟨newSessionRegistry, newAgentRelayTransport, 0, [], []⟩

-- A call of `OpenStream` up to the end of its stream, or the connection of an Agent
-- from its registration on. A connection handles one frame after another. At its
-- end it removes its session, and only then fails the streams of its generation.
inductive RelayCall where
  | lookup (request : StreamRequest String)
  | target (request : StreamRequest String) (agentID : String) (session : AgentSession)
  | allocate (agentID : String) (session : AgentSession)
  | send (stream : RelayStream)
  | opened (stream : RelayStream)
  | detach (stream : RelayStream)
  | connect (req : AgentRegistration)
  | serving (session : AgentSession)
  | handling (session found : AgentSession) (wireID : ℕ)
  | removed (session : AgentSession)
  | finished
  | panicked

inductive RelayRequest where
  | open (request : StreamRequest String)
  | connect (req : AgentRegistration)

-- What is decided elsewhere. `refuse` stands for an ended context, a payload that
-- cannot be encoded, credentials that do not hold, a session that is closed and a
-- queue that is full, each where it can happen; `hangUp` also for a frame that
-- ends its stream.
inductive RelayInput where
  | proceed
  | refuse
  | frame (wireID : ℕ)
  | hangUp

inductive RelayEvent where
  | manage (op : SessionOperation)
  | close

namespace RelayStore

variable (cfg : RelayConfig) (store : RelayStore)

def lookup (request : StreamRequest String) : RelayCall :=
  if request.agentID = "" ∨
      openStreamRefuses cfg.fold request.protocol request.targetHost request.targetPort.toInt then .finished
  else match findSession cfg.fold store.registry.manager request with
    | none => .panicked
    | some none => .finished
    | some (some (agentID, s)) => .target request agentID s

def target (request : StreamRequest String) (agentID : String) (s : AgentSession) : RelayCall :=
  match targetSession store.registry.manager request agentID s with
  | none => .finished
  | some s =>
    if request.strictOpen ∧ capabilityStreamOpenResult ∉ s.capabilities then .finished
    else .allocate agentID s

def register (req : AgentRegistration) (authenticated : Bool) :
    RelayStore × RelayCall :=
  let store' := { store with registry := store.registry.register cfg.sessions req authenticated }
  match (store.registry.manager.register cfg.sessions req authenticated).2 with
  | .ok s => (store', .serving s)
  | .error _ => (store', .finished)

def allocate (agentID : String) (session : AgentSession) :
    RelayStore × RelayCall :=
  match store.transport.allocate cfg.maxActiveStreamsPerAgent agentID session store.handles with
  | (t, .ok stream) => ({ store with transport := t, handles := store.handles + 1 }, .send stream)
  | (t, .error _) => ({ store with transport := t }, .finished)

def send (stream : RelayStream) : RelayStore × RelayCall :=
  match store.registry.manager.sendServerGeneration stream.generation.agentID stream.generation.serverGeneration with
  | some s => ({ store with sent := store.sent ++ [(s.serverGeneration, stream.wireID)] }, .opened stream)
  | none => (store, .detach stream)

def receive (s : AgentSession) (wireID : ℕ) : RelayCall :=
  match store.registry.manager.getServerGeneration s.serverGeneration with
  | none => .serving s
  | some found => .handling s found wireID

-- `ends` says that the frame takes its stream out of the table.
def deliver (session found : AgentSession) (wireID : ℕ) (ends : Bool) : RelayStore :=
  match store.transport.streamFor session.agentID session.serverGeneration found wireID with
  | none => store
  | some stream =>
    let t : AgentRelayTransport :=
      if ends then { store.transport with streams := store.transport.streams.erase stream.key } else store.transport
    { store with transport := t, delivered := store.delivered ++ [(session, stream)] }

def move : RelayCall → RelayInput → Option (RelayStore × RelayCall)
  | .lookup request, .proceed => some (store, store.lookup cfg request)
  | .lookup _, .refuse => some (store, .finished)
  | .target request agentID s, .proceed => some (store, store.target request agentID s)
  | .allocate agentID s, .proceed => some (store.allocate cfg agentID s)
  | .allocate _ _, .refuse => some (store, .finished)
  | .send stream, .proceed => some (store.send stream)
  | .send stream, .refuse => some (store, .detach stream)
  | .opened stream, .hangUp => some (store, .detach stream)
  | .detach stream, .proceed => some ({ store with transport := store.transport.detach stream }, .finished)
  | .connect req, .proceed => some (store.register cfg req true)
  | .connect req, .refuse => some (store.register cfg req false)
  | .serving s, .frame wireID => some (store, store.receive s wireID)
  | .handling s found wireID, .proceed => some (store.deliver s found wireID false, .serving s)
  | .handling s found wireID, .hangUp => some (store.deliver s found wireID true, .serving s)
  | .handling s _ _, .refuse => some (store, .serving s)
  | .serving s, .hangUp =>
    some ({ store with registry := store.registry.apply cfg.sessions (.removeSession s.agentID s) }, .removed s)
  | .removed s, .proceed =>
    some ({ store with transport := store.transport.failAgentGeneration s.agentID s.serverGeneration }, .finished)
  | _, _ => none

def event : RelayEvent → Option RelayStore
  | .manage op => some { store with registry := store.registry.apply cfg.sessions op }
  | .close => some { store with transport := store.transport.close }

end RelayStore

def relaySystem (cfg : RelayConfig) : System RelayStore RelayCall RelayRequest RelayInput RelayEvent where
  start
    | .open request => .lookup request
    | .connect req => .connect req
  move := RelayStore.move cfg
  event := RelayStore.event cfg

abbrev RelayState := State RelayStore RelayCall

abbrev RelayLabel := Label RelayRequest RelayInput RelayEvent

def newRelayState : RelayState := ⟨newRelayStore, []⟩

end TunnelMesh.Server
