import TunnelMesh.Program
import TunnelMesh.Registry.Database

namespace TunnelMesh.ServerNode

open TunnelMesh.Registry TunnelMesh.Storage Storage Registration

inductive Actor where
  | administrator
  | dataPlane

-- The statements of the services, each of them atomic, and the clock.
inductive Command where
  | clock
  | getNode (id : String)
  | createNode (v : ServerNode)
  | updateNode (actor : Actor) (v : ServerNode)
  | touchNode (id : String) (lastSeen expires : ℕ)
  | writeAudit
  | stats (id : String)
  | selectLease (pair : String × String)
  | takeoverLease (v : Request) (now : ℕ) (autoEpoch : Bool) (oldEpoch : ℤ)
  | insertLease (v : Request) (now : ℕ)
  | renewLease (agentID connectionID : String) (epoch ttl : ℤ)
  | listLeases (agentID : String)
  | releaseLease (agentID connectionID : String) (epoch : ℤ)

-- A read answers `none` for `sql.ErrNoRows`. A write of a lease answers whether
-- it has changed a row.
abbrev Answer : Command → Type
  | .clock => ℕ
  | .getNode _ => Option ServerNode
  | .createNode _ => Unit
  | .updateNode _ _ => Unit
  | .touchNode _ _ _ => Unit
  | .writeAudit => Unit
  | .stats _ => Unit
  | .selectLease _ => Option AgentLease
  | .takeoverLease _ _ _ _ => Bool
  | .insertLease _ _ => Bool
  | .renewLease _ _ _ _ => Bool
  | .listLeases _ => List AgentLease
  | .releaseLease _ _ _ => Bool

inductive NodeError where
  | noRows
  | duplicate
  | database
  | required
  | leaseHeld
  | fencing
  | registration (e : RegisterError)
  | invalidInput (message : String)
  | deleted (nodeID : String)
  | disabled (nodeID : String)

-- The decisions of administrators are recorded for the proofs, the last one
-- first.
structure Store where
  nodes : NodeTable
  leases : LeaseTable
  decisions : List (String × Bool × Option ℕ)

-- A statement may fail, or take effect although its caller sees a failure.
inductive Fault where
  | failed
  | lost

structure Input where
  now : ℕ
  fault : Option Fault

variable (store : Store)

def Store.wrote (leases : Option LeaseTable) : Store × Except NodeError Bool :=
  match leases with
  | none => (store, .ok false)
  | some leases => ({ store with leases }, .ok true)

def takeoverLease (leases : LeaseTable) (v : Request) (now : ℕ) (autoEpoch : Bool)
    (oldEpoch : ℤ) : Option LeaseTable :=
  let cond := takeoverCond v.pair now autoEpoch oldEpoch
  if leases.affected cond = 1 then some (leases.update cond (v.takeover now) (v.key_takeover now)) else none

def Store.decide (v : ServerNode) : Actor → Store
  | .administrator => { store with decisions := (v.id, v.lifecycle) :: store.decisions }
  | .dataPlane => store

def run : (c : Command) → ℕ → Store × Except NodeError (Answer c)
  | .clock, now => (store, .ok now)
  | .getNode id, _ => (store, .ok (store.nodes.get id))
  | .createNode v, _ =>
    match createNode store.nodes v with
    | none => (store, .error .duplicate)
    | some nodes => ({ store with nodes }, .ok ())
  | .updateNode actor v, _ =>
    match updateNode store.nodes v with
    | none => (store, .error .noRows)
    | some nodes => ({ store with nodes }.decide v actor, .ok ())
  | .touchNode id lastSeen expires, _ =>
    match touchNode store.nodes id lastSeen expires with
    | none => (store, .error .noRows)
    | some nodes => ({ store with nodes }, .ok ())
  | .writeAudit, _ => (store, .ok ())
  | .stats _, _ => (store, .ok ())
  | .selectLease pair, _ => (store, .ok (store.leases.get pair))
  | .takeoverLease v time autoEpoch oldEpoch, _ =>
    store.wrote (takeoverLease store.leases v time autoEpoch oldEpoch)
  | .insertLease v time, _ => store.wrote (store.leases.insert (v.lease time))
  | .renewLease agentID connectionID epoch ttl, now =>
    store.wrote (renewConnection store.leases agentID connectionID epoch ttl now)
  | .listLeases agentID, now => (store, .ok (listActiveByAgent store.leases agentID now))
  | .releaseLease agentID connectionID epoch, _ =>
    store.wrote (releaseConnection store.leases agentID connectionID epoch)

def exec (c : Command) (input : Input) : Store × Except NodeError (Answer c) :=
  match c, input.fault with
  | .clock, _ => (store, .ok input.now)
  | c, none => run store c input.now
  | _, some .failed => (store, .error .database)
  | c, some .lost => ((run store c input.now).1, .error .database)

abbrev Proc := Program Command Answer NodeError

def throw {α : Type} (e : NodeError) : Proc α := Program.throw e

def perform (c : Command) : Proc (Answer c) := Program.perform c

-- One attempt of `RegisterConnection`: the request with its epochs filled in,
-- and the lease if the attempt has written it.
def attemptLease (v : Request) : Proc (Request × Option AgentLease) := do
  let now ← perform .clock
  let row ← perform (.selectLease v.pair)
  let (v, phase) := v.select now row
  match phase with
  | .update time autoEpoch oldEpoch => do
      let won ← perform (.takeoverLease v time autoEpoch oldEpoch)
      return (v, if won then some (v.lease time) else none)
  | .insert time => do
      let inserted ← perform (.insertLease v time)
      return (v, if inserted then some (v.lease time) else none)
  | .returned (.error e) => throw (.registration e)
  | .returned (.ok lease) => return (v, some lease)
  | .ready => return (v, none)

def registerLoop : ℕ → Request → Proc AgentLease
  | 0, _ => throw (.registration .contention)
  | attempts + 1, v => do
      let (v, lease) ← attemptLease v
      match lease with
      | some lease => return lease
      | none => registerLoop attempts v

def registerConnection (v : Request) : Proc AgentLease :=
  match v.validate with
  | .error e => throw (.registration e)
  | .ok v => registerLoop 8 v

-- The data plane reads a node's row, changes some of its columns and writes all
-- of them back.
def refreshNode (id : String) (missing : Proc Unit) (change : ServerNode → ServerNode) :
    Proc Unit := do
  match ← perform (.getNode id) with
  | none => missing
  | some node => perform (.updateNode .dataPlane (change node))

variable (req : NodeRegistration) (lease : AgentLease)

def freshNode (now : ℕ) : ServerNode where
  id := req.nodeID
  name := ""
  address := req.address
  epoch := lease.epoch
  metadata := req.metadata
  enabled := false
  deletedAt := none
  lastSeenAt := some now
  expiresAt := some lease.expiresAt

def registeredNode (now : ℕ) (node : ServerNode) :
    ServerNode :=
  { node with
    address := req.address
    metadata := req.metadata
    epoch := lease.epoch
    lastSeenAt := some now
    expiresAt := some lease.expiresAt }

def registeredOwner : NodeOwner where
  nodeID := req.nodeID
  address := req.address
  metadata := req.metadata
  agentID := req.agentID
  instanceID := lease.instanceID
  connectionID := lease.connectionID
  serverNodeID := lease.serverNodeID
  epoch := lease.connectionEpoch
  connectionEpoch := lease.connectionEpoch
  serverNodeEpoch := lease.epoch
  activeStreams := lease.activeStreams
  healthScore := lease.healthScore
  expiresAt := lease.expiresAt
  leaseID := 0

-- The node's part of `Register`: its row is created or all its columns are
-- written. Where that fails the lease is given up.
def publishNode : Proc NodeOwner := do
  let now ← perform .clock
  let written ← Program.attempt (refreshNode req.nodeID (perform (.createNode (freshNode req lease now)))
    (registeredNode req lease now))
  match written with
  | .ok _ => return registeredOwner req lease
  | .error e => do
      let _ ← (perform (.releaseLease req.agentID lease.connectionID lease.connectionEpoch)).attempt
      throw e

def register : Proc NodeOwner :=
  match Registry.Database.register req with
  | .error _ => throw .required
  | .ok request => do
      match ← (registerConnection request).attempt with
      | .error (.registration (.held _ _)) => throw .leaseHeld
      | .error e => throw e
      | .ok lease => publishNode req lease

def renewedNode (now expires : ℕ) (node : ServerNode) : ServerNode :=
  { node with lastSeenAt := some now, expiresAt := some expires }

def keepAlive (owner : NodeOwner) (ttl : ℤ) : Proc NodeOwner := do
  let renewed ← perform (.renewLease owner.agentID owner.connectionID owner.epoch ttl)
  if renewed = false then throw .fencing
  else do
    let leases ← perform (.listLeases owner.agentID)
    match leases.find? fun lease => lease.connectionID = owner.connectionID with
    | none => throw .fencing
    | some lease =>
      if lease.connectionEpoch ≠ owner.epoch ∨ lease.nodeID ≠ owner.nodeID then throw .fencing
      else do
        let now ← perform .clock
        let _ ← Program.attempt (refreshNode owner.nodeID (return ()) (renewedNode now lease.expiresAt))
        return { owner with expiresAt := lease.expiresAt }

def revoke (owner : NodeOwner) : Proc Unit := do
  let released ← perform (.releaseLease owner.agentID owner.connectionID owner.epoch)
  if released = false then throw .fencing else return ()

def ensuredNode (v existing : ServerNode) : ServerNode :=
  { existing with
    address := v.address
    metadata := v.metadata
    lastSeenAt := v.lastSeenAt.or existing.lastSeenAt
    expiresAt := v.expiresAt.or existing.expiresAt }

def ensure (v : ServerNode) : Proc Unit :=
  refreshNode v.id (perform (.createNode v)) (ensuredNode v)

def findNode (id : String) : Proc ServerNode := do
  match ← perform (.getNode id) with
  | none => throw .noRows
  | some node => return node

def startNode (nodeID address : String) (ttl : ℕ) : Proc Unit := do
  let now ← perform .clock
  ensure ⟨nodeID, nodeID, address, 1, "\x7b\x7d", false, none, some now, some (now + ttl)⟩
  let found ← findNode nodeID
  if found.deletedAt ≠ none then throw (.deleted nodeID)
  else if found.enabled = false then throw (.disabled nodeID)
  else perform (.touchNode nodeID now (now + ttl))

def heartbeat (nodeID : String) (ttl : ℕ) : Proc Unit := do
  let now ← perform .clock
  perform (.touchNode nodeID now (now + ttl))

-- The end of an administrator's call: the row is written, then the audit log,
-- and the view of the node is read.
def decideNode (node : ServerNode) : Proc ServerNode := do
  perform (.updateNode .administrator node)
  perform .writeAudit
  let found ← findNode node.id
  perform (.stats found.id)
  return found

def renamedNode (name : Option String) (node : ServerNode) : Except NodeError ServerNode :=
  match name with
  | none => .ok node
  | some name =>
    let name := Text.trimSpace name
    if name = "" ∨ 255 < name.utf8ByteSize then
      .error (.invalidInput "invalid server node input: name must be 1-255 characters")
    else .ok { node with name }

def updateNode (id : String) (name : Option String) (enabled : Option Bool) : Proc ServerNode :=
  if name = none ∧ enabled = none then
    throw (.invalidInput "invalid server node input: name or enabled is required")
  else do
    let node ← findNode id
    let node ← Program.fromExcept (renamedNode name node)
    decideNode { node with enabled := enabled.getD node.enabled }

def deleteNode (id : String) : Proc ServerNode := do
  let node ← findNode id
  let now ← perform .clock
  decideNode { node with deletedAt := some now, enabled := false }

def restoreNode (id : String) : Proc ServerNode := do
  let node ← findNode id
  decideNode { node with deletedAt := none, enabled := true }

inductive Call where
  | register (req : NodeRegistration)
  | keepAlive (owner : NodeOwner) (ttl : ℤ)
  | revoke (owner : NodeOwner)
  | ensure (v : ServerNode)
  | touch (id : String) (lastSeen expires : ℕ)
  | start (nodeID address : String) (ttl : ℕ)
  | heartbeat (nodeID : String) (ttl : ℕ)
  | update (id : String) (name : Option String) (enabled : Option Bool)
  | delete (id : String)
  | restore (id : String)

def discard {α : Type} (p : Proc α) : Proc Unit := p >>= fun _ => return ()

def Call.program : Call → Proc Unit
  | .register req => discard (ServerNode.register req)
  | .keepAlive owner ttl => discard (ServerNode.keepAlive owner ttl)
  | .revoke owner => ServerNode.revoke owner
  | .ensure v => ServerNode.ensure v
  | .touch id lastSeen expires => perform (.touchNode id lastSeen expires)
  | .start nodeID address ttl => startNode nodeID address ttl
  | .heartbeat nodeID ttl => ServerNode.heartbeat nodeID ttl
  | .update id name enabled => discard (updateNode id name enabled)
  | .delete id => discard (deleteNode id)
  | .restore id => discard (restoreNode id)

section Exec

variable {store : Store} {c : Command}

inductive NodeEffect (store : Store) : Command → Store → Prop where
  | none {c : Command} (hnodes : next.nodes = store.nodes)
      (hdecisions : next.decisions = store.decisions) : NodeEffect store c next
  | create (hcreate : createNode store.nodes v = some nodes) :
      NodeEffect store (.createNode v) { store with nodes }
  | update
      (hupdate : Storage.updateNode store.nodes v = some nodes) :
      NodeEffect store (.updateNode actor v) ({ store with nodes }.decide v actor)
  | touch {id : String}
      (htouch : touchNode store.nodes id lastSeen expires = some nodes) :
      NodeEffect store (.touchNode id lastSeen expires) { store with nodes }

def Command.writesNode : Command → Bool
  | .createNode _ | .updateNode _ _ | .touchNode _ _ _ => true
  | _ => false

theorem NodeEffect.nodes_eq (h : NodeEffect store c next) (hw : c.writesNode = false) : next.nodes = store.nodes := by
  cases h with
  | none hn hdecisions => exact hn
  | create | update | touch => cases hw

theorem exec_store (store : Store) (c : Command) (input : Input) :
    (exec store c input).1 = store ∨ (exec store c input).1 = (run store c input.now).1 := by
  obtain ⟨now, fault⟩ := input
  cases c <;> cases fault with
  | none => exact .inr rfl
  | some fault => cases fault <;> first | exact .inl rfl | exact .inr rfl

theorem exec_of_ok (h : (exec store c input).2 = .ok answer) : exec store c input = run store c input.now := by
  obtain ⟨now, fault⟩ := input
  cases c <;> cases fault with
  | none => rfl
  | some fault => cases fault <;> first | rfl | cases h

theorem wrote_effect (store : Store) (c : Command) (leases : Option LeaseTable) :
    NodeEffect store c (store.wrote leases).1 := by cases leases <;> exact .none rfl rfl

theorem run_effect (store : Store) (c : Command) (now : ℕ) : NodeEffect store c (run store c now).1 := by
  cases c with
  | createNode v =>
    rw [run]
    cases hc : createNode store.nodes v with
    | none => exact .none rfl rfl
    | some nodes => exact .create hc
  | updateNode actor v =>
    rw [run]
    cases hu : Storage.updateNode store.nodes v with
    | none => exact .none rfl rfl
    | some nodes => exact .update hu
  | touchNode id lastSeen expires =>
    rw [run]
    cases ht : touchNode store.nodes id lastSeen expires with
    | none => exact .none rfl rfl
    | some nodes => exact .touch ht
  | takeoverLease | insertLease | renewLease | releaseLease => exact wrote_effect store _ _
  | _ => exact .none rfl rfl

theorem exec_effect (store : Store) (c : Command) (input : Input) : NodeEffect store c (exec store c input).1 := by
  rcases exec_store store c input with hs | hrun
  · rw [hs]; exact .none rfl rfl
  · rw [hrun]; exact run_effect store c input.now

end Exec

end TunnelMesh.ServerNode
