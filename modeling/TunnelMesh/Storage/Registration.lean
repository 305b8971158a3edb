import TunnelMesh.Storage.ConnectionLease
import TunnelMesh.Transition

namespace TunnelMesh.Storage

namespace Registration

-- The argument of `RegisterConnection`. The retry loop works on one copy of it
-- and changes the epochs of that copy.
structure Request where
  agentID : String
  connectionID : String
  nodeID : String
  instanceID : String
  serverNodeID : String
  epoch : ℤ
  connectionEpoch : ℤ
  activeStreams : ℤ
  healthScore : ℤ
  ttl : ℤ

inductive RegisterError where
  | invalid
  | held (agentID connectionID : String)
  | staleEpoch
  | contention
  | database

def RegisterError.message : RegisterError → String
  | .invalid => "invalid agent connection lease"
  | .held agentID connectionID =>
    "agent " ++ agentID ++ " connection " ++ connectionID ++ " lease is held by another owner"
  | .staleEpoch => "runtime stats epoch is stale"
  | .contention => "connection lease registration contention exceeded retry budget"
  | .database => "database error"

variable (v : Request)

def Request.pair : String × String := (v.agentID, v.connectionID)

def Request.validate : Except RegisterError Request :=
  if v.agentID = "" ∨ v.nodeID = "" then .error .invalid
  else .ok
    { v with
      connectionID := if v.connectionID = "" then "legacy" else v.connectionID
      serverNodeID := if v.serverNodeID = "" then v.nodeID else v.serverNodeID
      healthScore := if v.healthScore = 0 then 100 else v.healthScore
      ttl := ttlOrMinute v.ttl }

def Request.defaultEpochs (next : ℤ) : Request :=
  let connectionEpoch := if v.connectionEpoch ≤ 0 then next else v.connectionEpoch
  { v with connectionEpoch, epoch := if v.epoch ≤ 0 then connectionEpoch else v.epoch }

def Request.lease (now : ℕ) : AgentLease where
  agentID := v.agentID
  connectionID := v.connectionID
  nodeID := v.nodeID
  instanceID := v.instanceID
  serverNodeID := v.serverNodeID
  epoch := v.epoch
  connectionEpoch := v.connectionEpoch
  activeStreams := v.activeStreams
  healthScore := v.healthScore
  acquiredAt := now
  expiresAt := now + v.ttl.toNat
  updatedAt := now

-- Where one attempt stands: before its `SELECT`, before the `UPDATE` of the row
-- it found, before the `INSERT` of a row it did not find, or done.
inductive Phase where
  | ready
  | update (now : ℕ) (autoEpoch : Bool) (oldEpoch : ℤ)
  | insert (now : ℕ)
  | returned (result : Except RegisterError AgentLease)

structure Call where
  request : Request
  automatic : Bool
  attempt : ℕ
  phase : Phase

def Call.begin : Call :=
  match v.validate with
  | .error e => ⟨v, v.connectionEpoch ≤ 0, 0, .returned (.error e)⟩
  | .ok v => ⟨v, v.connectionEpoch ≤ 0, 0, .ready⟩

-- The part of an attempt between its `SELECT` and its write.
def Request.select (now : ℕ) : Option AgentLease → Request × Phase
  | some old =>
    let autoEpoch : Bool := v.connectionEpoch ≤ 0
    if autoEpoch ∧ now < old.expiresAt then
      (v, .returned (.error (.held v.agentID v.connectionID)))
    else
      let v := v.defaultEpochs (int64 (old.connectionEpoch + 1))
      if v.connectionEpoch ≤ old.connectionEpoch then (v, .returned (.error .staleEpoch))
      else (v, .update now autoEpoch old.connectionEpoch)
  | none => (v.defaultEpochs 1, .insert now)

def Call.retry (c : Call) : Call :=
  if c.attempt + 1 < 8 then { c with attempt := c.attempt + 1, phase := .ready }
  else { c with phase := .returned (.error .contention) }

-- The `WHERE` of the takeover. Only an automatic attempt adds `expires_at<=?`.
def takeoverCond (pair : String × String) (now : ℕ) (autoEpoch : Bool) (oldEpoch : ℤ)
    (lease : AgentLease) : Bool :=
  lease.heldAt pair oldEpoch && (!autoEpoch || !lease.activeText now)

def Request.takeover (now : ℕ) (old : AgentLease) : AgentLease :=
  { v.lease now with agentID := old.agentID, connectionID := old.connectionID }

theorem Request.key_takeover (now : ℕ) (old : AgentLease) : (v.takeover now old).key = old.key := rfl

structure Entry where
  lease : AgentLease
  automatic : Bool
  now : ℕ
  replaced : Option AgentLease

structure State where
  leases : LeaseTable
  calls : List Call
  registrations : List Entry

-- On a store with row locks, the `SELECT ... FOR UPDATE` that found a row holds
-- it until the end of its transaction.
def Call.locks (pair : String × String) (c : Call) : Bool :=
  match c.phase with
  | .update _ _ _ => c.request.pair = pair
  | _ => false

def State.blocked (rowLocks : Bool) (s : State) (pair : String × String) : Bool :=
  rowLocks && s.calls.any (·.locks pair)

inductive Label where
  | register (v : Request)
  | select (call now : ℕ)
  | write (call : ℕ)
  | abort (call : ℕ)
  | renew (agentID connectionID : String) (epoch ttl : ℤ) (now : ℕ)
  | release (agentID connectionID : String) (epoch : ℤ)
  | updateStats (agentID connectionID : String) (epoch activeStreams healthScore : ℤ) (now : ℕ)

def State.setCall (s : State) (i : ℕ) (c : Call) : State := { s with calls := s.calls.set i c }

def State.writeUpdate (s : State) (i : ℕ) (c : Call) (now : ℕ) (autoEpoch : Bool) (oldEpoch : ℤ) :
    State :=
  let cond := takeoverCond c.request.pair now autoEpoch oldEpoch
  let row := c.request.lease now
  if s.leases.affected cond = 1 then
    { leases := s.leases.update cond (c.request.takeover now) (c.request.key_takeover now)
      calls := s.calls.set i { c with phase := .returned (.ok row) }
      registrations := s.registrations ++ [⟨row, c.automatic, now, s.leases.get c.request.pair⟩] }
  else s.setCall i c.retry

def State.writeInsert (s : State) (i : ℕ) (c : Call) (now : ℕ) : State :=
  let row := c.request.lease now
  match s.leases.insert row with
  | none => s.setCall i c.retry
  | some leases =>
    { leases
      calls := s.calls.set i { c with phase := .returned (.ok row) }
      registrations := s.registrations ++ [⟨row, c.automatic, now, none⟩] }

-- One statement of one call, or one of the other statements on the table. A
-- statement that finds no row fails and changes nothing.
def step (rowLocks : Bool) (s : State) : Label → Option State
  | .register v => some { s with calls := s.calls ++ [Call.begin v] }
  | .select i now => do
      let c ← s.calls[i]?
      match c.phase with
      | .ready =>
        if s.blocked rowLocks c.request.pair then none
        else
          let (request, phase) := c.request.select now (s.leases.get c.request.pair)
          some (s.setCall i { c with request, phase })
      | _ => none
  | .write i => do
      let c ← s.calls[i]?
      match c.phase with
      | .update now autoEpoch oldEpoch => some (s.writeUpdate i c now autoEpoch oldEpoch)
      | .insert now =>
        if s.blocked rowLocks c.request.pair then none else some (s.writeInsert i c now)
      | _ => none
  | .abort i => do
      let c ← s.calls[i]?
      match c.phase with
      | .returned _ => none
      | _ => some (s.setCall i { c with phase := .returned (.error .database) })
  | .renew agentID connectionID epoch ttl now =>
    if s.blocked rowLocks (agentID, connectionID) then none
    else some { s with
      leases := (renewConnection s.leases agentID connectionID epoch ttl now).getD s.leases }
  | .release agentID connectionID epoch =>
    if s.blocked rowLocks (agentID, connectionID) then none
    else some { s with
      leases := (releaseConnection s.leases agentID connectionID epoch).getD s.leases }
  | .updateStats agentID connectionID epoch activeStreams healthScore now =>
    if s.blocked rowLocks (agentID, connectionID) then none
    else some { s with
      leases := (updateConnectionStats s.leases agentID connectionID epoch activeStreams
        healthScore now).getD s.leases }

def init : State := ⟨Table.empty, [], []⟩

end Registration

end TunnelMesh.Storage
