import TunnelMesh.Relay.ConnectionClose.Delivery

namespace TunnelMesh.Relay

open Rounding CloseProcedure AgentLeases Float64

theorem newClientConnectionEpoch_pos (entropy : Vector UInt8 8) : 0 < newClientConnectionEpoch entropy := by
  have hpos (epoch : Int64) : 0 < if epoch ≤ 0 then 1 else epoch := by
    split
    · decide
    · rename_i he; exact Int64.not_le.mp he
  exact hpos _

namespace CloseProcedure

variable {request : Type} {procedure : CloseProcedure request}

theorem closeStatus_eq_ok (h : closeStatus result = .ok) : result = .ok () := by
  match result, h with
  | .ok (), _ => rfl

theorem invoke_eq_ok (h : procedure.invoke outside nodeID close req = .ok) :
    ∃ got, procedure.received outside req = some got ∧ close got = .ok () := by
  unfold invoke at h
  split at h
  · cases h
  split at h
  · cases h
  · rename_i got hgot
    split_ifs at h
    exact ⟨got, hgot, closeStatus_eq_ok h⟩

-- A close from another node does what the owner itself would do if and only if the
-- request arrives as it was sent, where some state of the owner tells the two apart.
theorem invoke_iff {state : Type} (close : state → request → Except CloseError Unit)
    (hv : procedure.invalid req = false) (hn : procedure.requestedByNodeID req = nodeID)
    (hr : procedure.received outside req = some got)
    (hapart : ∃ s, close s req = .ok () ∧ (close s got = .ok () → got = req)) :
    (∀ s, procedure.invoke outside nodeID (close s) req = closeStatus (close s req)) ↔ got = req := by
  constructor
  · intro h
    obtain ⟨s, hl, hs⟩ := hapart
    have hremote := h s
    rw [hl] at hremote
    obtain ⟨arrived, ha, hc⟩ := invoke_eq_ok hremote
    rw [hr] at ha
    cases ha
    exact hs hc
  · intro h s
    rw [h] at hr
    simp only [invoke, hv, hr, hn, ne_eq, not_true_eq_false, if_false, Bool.false_eq_true]

end CloseProcedure

structure Identifier where
  bytes : ByteArray
  nonempty : bytes ≠ ByteArray.empty
  unicode : bytes.IsValidUTF8

section Received

theorem CloseProcedure.received_eq {request : Type} {procedure : CloseProcedure request} {req got : request}
    (he : ∀ field ∈ procedure.metadata req, field.2.Encodable)
    (hgot : ∀ fields, newStruct (procedure.metadata req) = some fields → procedure.fromMetadata outside fields = got) :
    procedure.received outside req = some got := by
  obtain ⟨fields, hf⟩ := Option.isSome_iff_exists.mp (isSome_newStruct.mpr he)
  rw [received, hf, Option.map_some, hgot fields hf]

theorem received_client (connectionID nodeID : Identifier) (epoch : Int64) :
    closeClientConnection.received outside ⟨connectionID.bytes, epoch, nodeID.bytes⟩ =
      some ⟨connectionID.bytes, (ofInt epoch.toInt).toInt64 outside, nodeID.bytes⟩ := by
  refine received_eq ?_ fun fields hf => ?_
  · simp [closeClientConnection, closeClientConnectionMetadata, Field.Encodable, connectionID.unicode, nodeID.unicode]
  · simp only [closeClientConnection, closeClientConnectionRequestFromMetadata]
    rw [getStringValue_lookup hf "connection_id" rfl, getNumberValue_lookup hf "connection_epoch" rfl,
      getStringValue_lookup hf "requested_by_node_id" rfl]

theorem received_agent (agentID connectionID nodeID : Identifier) (epoch : Int64) :
    closeAgentConnection.received outside ⟨agentID.bytes, connectionID.bytes, epoch, nodeID.bytes⟩ =
      some ⟨agentID.bytes, connectionID.bytes, (ofInt epoch.toInt).toInt64 outside, nodeID.bytes⟩ := by
  refine received_eq ?_ fun fields hf => ?_
  · simp [closeAgentConnection, closeAgentConnectionMetadata, Field.Encodable, agentID.unicode, connectionID.unicode,
      nodeID.unicode]
  · simp only [closeAgentConnection, closeAgentConnectionRequestFromMetadata]
    rw [getStringValue_lookup hf "agent_id" rfl, getStringValue_lookup hf "connection_id" rfl,
      getNumberValue_lookup hf "connection_epoch" rfl, getStringValue_lookup hf "requested_by_node_id" rfl]

end Received

def sampleIdentifier : Identifier where
  bytes := "node-a".toByteArray
  nonempty := by decide
  unicode := "node-a".isValidUTF8

theorem client_close_iff (connectionID nodeID : Identifier) (he : 0 < epoch) : (∀ sessions : ClientSessions,
      closeClientConnection.invoke outside nodeID.bytes sessions.closeConnection
          ⟨connectionID.bytes, epoch, nodeID.bytes⟩ =
        closeStatus (sessions.closeConnection ⟨connectionID.bytes, epoch, nodeID.bytes⟩)) ↔
      (ofInt epoch.toInt).toInt64 outside = epoch := by
  have hv : closeClientConnection.invalid ⟨connectionID.bytes, epoch, nodeID.bytes⟩ = false := by
    simp only [closeClientConnection, connectionID.nonempty, nodeID.nonempty, Int64.not_le.mpr he, or_self,
      decide_false]
  refine (invoke_iff ClientSessions.closeConnection hv rfl
    (received_client connectionID nodeID epoch) ?_).trans ?_
  · refine ⟨fun _ => some epoch, ?_, ?_⟩
    · simp only [ClientSessions.closeConnection, connectionID.nonempty, if_false, ne_eq, not_true_eq_false]
    · intro hc
      simp only [ClientSessions.closeConnection, connectionID.nonempty, if_false] at hc
      split_ifs at hc with hs
      rw [← not_not.mp hs]
  · simp only [CloseClientConnectionRequest.mk.injEq, true_and, and_true]

theorem agent_close_iff (agentID connectionID nodeID : Identifier) (he : 0 < epoch) : (∀ leases : AgentLeases,
      closeAgentConnection.invoke outside nodeID.bytes leases.closeConnection
          ⟨agentID.bytes, connectionID.bytes, epoch, nodeID.bytes⟩ =
        closeStatus (leases.closeConnection ⟨agentID.bytes, connectionID.bytes, epoch, nodeID.bytes⟩)) ↔
      (ofInt epoch.toInt).toInt64 outside = epoch := by
  have hv : closeAgentConnection.invalid ⟨agentID.bytes, connectionID.bytes, epoch, nodeID.bytes⟩ = false := by
    simp only [closeAgentConnection, agentID.nonempty, connectionID.nonempty, nodeID.nonempty,
      Int64.not_le.mpr he, or_self, decide_false]
  refine (invoke_iff closeConnection hv rfl (received_agent agentID connectionID nodeID epoch) ?_).trans ?_
  · refine ⟨⟨[⟨agentID.bytes, connectionID.bytes, epoch, 1⟩], fun _ _ => some ⟨1, false⟩⟩, ?_, ?_⟩
    · simp [closeConnection, closeSession, connectionID.nonempty]
    · intro hc
      simp only [closeConnection, List.find?_singleton, and_self, decide_true, if_true] at hc
      split_ifs at hc with hs
      rw [← not_not.mp hs]
  · simp only [CloseAgentConnectionRequest.mk.injEq, true_and, and_true]

-- A close of a connection of another node names the same epoch there, and does what
-- the owner would do itself, exactly where the epoch comes back from a `float64`.
theorem remote_close_iff (outside : OutOfRange) (connectionID nodeID : Identifier) : (∀ entropy : Vector UInt8 8,
      (closeClientConnection.received outside ⟨connectionID.bytes, newClientConnectionEpoch entropy, nodeID.bytes⟩ =
          some ⟨connectionID.bytes, newClientConnectionEpoch entropy, nodeID.bytes⟩ ↔
        Float64.Kept outside (newClientConnectionEpoch entropy)) ∧ ((∀ sessions : ClientSessions,
        closeClientConnection.invoke outside nodeID.bytes sessions.closeConnection
            ⟨connectionID.bytes, newClientConnectionEpoch entropy, nodeID.bytes⟩ = closeStatus (sessions.closeConnection
            ⟨connectionID.bytes, newClientConnectionEpoch entropy, nodeID.bytes⟩)) ↔
        Float64.Kept outside (newClientConnectionEpoch entropy))) ∧
    ∀ (agentID : Identifier) (epoch : Int64), 0 < epoch →
      (closeAgentConnection.received outside ⟨agentID.bytes, connectionID.bytes, epoch, nodeID.bytes⟩ =
          some ⟨agentID.bytes, connectionID.bytes, epoch, nodeID.bytes⟩ ↔ Float64.Kept outside epoch) ∧
      ((∀ leases : AgentLeases, closeAgentConnection.invoke outside nodeID.bytes leases.closeConnection
            ⟨agentID.bytes, connectionID.bytes, epoch, nodeID.bytes⟩ =
          closeStatus (leases.closeConnection ⟨agentID.bytes, connectionID.bytes, epoch, nodeID.bytes⟩)) ↔
        Float64.Kept outside epoch) := by
  simp only [← toInt64_ofInt_iff, received_client, received_agent, Option.some.injEq,
    CloseClientConnectionRequest.mk.injEq, CloseAgentConnectionRequest.mk.injEq, true_and, and_true]
  constructor
  · intro entropy; exact client_close_iff connectionID nodeID (newClientConnectionEpoch_pos entropy)
  · intro agentID epoch hepoch; exact agent_close_iff agentID connectionID nodeID hepoch

theorem remote_close_small_epoch : closeAgentConnection.received .wrapping
        ⟨sampleIdentifier.bytes, sampleIdentifier.bytes, 7, sampleIdentifier.bytes⟩ =
      some ⟨sampleIdentifier.bytes, sampleIdentifier.bytes, 7, sampleIdentifier.bytes⟩ := by
  have hkept : Float64.Kept .wrapping 7 := Or.inl (by decide)
  exact ((remote_close_iff .wrapping sampleIdentifier sampleIdentifier).2 sampleIdentifier 7 (by decide)).1.mpr hkept

-- The epoch `2 ^ 53 + 1` arrives as `2 ^ 53`, so that the connection is not closed.
theorem remote_close_misses : newClientConnectionEpoch #v[0, 32, 0, 0, 0, 0, 0, 1] = 9007199254740993 ∧
      closeClientConnection.received .wrapping ⟨sampleIdentifier.bytes, 9007199254740993, sampleIdentifier.bytes⟩ =
        some ⟨sampleIdentifier.bytes, 9007199254740992, sampleIdentifier.bytes⟩ ∧
      closeClientConnection.invoke .wrapping sampleIdentifier.bytes
          (ClientSessions.closeConnection fun _ => some 9007199254740993)
          ⟨sampleIdentifier.bytes, 9007199254740993, sampleIdentifier.bytes⟩ = .failedPrecondition := by
  have hreceived : closeClientConnection.received .wrapping
      ⟨sampleIdentifier.bytes, 9007199254740993, sampleIdentifier.bytes⟩ =
      some ⟨sampleIdentifier.bytes, 9007199254740992, sampleIdentifier.bytes⟩ := by
    have hepoch : (ofInt (9007199254740993 : Int64).toInt).toInt64 .wrapping = 9007199254740992 := by decide
    rw [received_client, hepoch]
  refine ⟨by decide, hreceived, ?_⟩
  decide

end TunnelMesh.Relay
