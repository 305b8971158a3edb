import TunnelMesh.Storage.ClientLease
import TunnelMesh.Storage.ConnectionLease

namespace TunnelMesh.Storage

open List AgentLease

variable (pair : String × String)

@[simp] theorem heldAt_iff (epoch : ℤ) (lease : AgentLease) :
    lease.heldAt pair epoch ↔ lease.key = pair ∧ lease.connectionEpoch = epoch := by
  simp [heldAt]

@[simp] theorem activeText_iff (now : ℕ) (lease : AgentLease) :
    lease.activeText now ↔ tm now < tm lease.expiresAt := by simp [activeText]

@[simp] theorem expiredText_iff (cutoff : ℕ) (lease : ClientConnectionLease) :
    lease.expiredText cutoff ↔ ¬ tm cutoff < tm lease.expiresAt := by
  simp [ClientConnectionLease.expiredText]

@[simp] theorem activeAt_iff (epoch : ℤ) (now : ℕ) (lease : AgentLease) : lease.activeAt pair epoch now ↔
      (lease.key = pair ∧ lease.connectionEpoch = epoch) ∧ tm now < tm lease.expiresAt := by
  simp [activeAt]

theorem key_of_heldAt (epoch : ℤ) (lease : AgentLease) (h : lease.heldAt pair epoch) : lease.key = pair :=
  ((heldAt_iff pair epoch lease).mp h).1

theorem key_of_activeAt (epoch : ℤ) (now : ℕ) (lease : AgentLease)
    (h : lease.activeAt pair epoch now) : lease.key = pair :=
  ((activeAt_iff pair epoch now lease).mp h).1.1

theorem renewConnection_isSome_iff (leases : LeaseTable) (agentID connectionID : String) (epoch ttl : ℤ) (now : ℕ) :
    (renewConnection leases agentID connectionID epoch ttl now).isSome ↔
      ∃ lease, leases.get (agentID, connectionID) = some lease ∧ lease.connectionEpoch = epoch ∧
        tm now < tm lease.expiresAt := by
  have hz := leases.affected_eq_zero_iff (key_of_activeAt (agentID, connectionID) epoch now)
  simp only [renewConnection]
  split_ifs with h
  · simp only [Option.isSome_none, Bool.false_eq_true, false_iff]
    rintro ⟨lease, hget, he, ha⟩
    have hf := hz.mp h lease hget
    simp [← Bool.not_eq_true, leases.key_of_get hget, he, ha] at hf
  · simp only [hz, not_forall, Bool.not_eq_false, activeAt_iff] at h
    obtain ⟨lease, hget, ⟨-, he⟩, ha⟩ := h
    simp only [Option.isSome_some, true_iff]
    exact ⟨lease, hget, he, ha⟩

theorem mem_listActiveByAgent (leases : LeaseTable) (agentID : String) (now : ℕ) (lease : AgentLease) :
    lease ∈ listActiveByAgent leases agentID now ↔
      lease ∈ leases.rows ∧ lease.agentID = agentID ∧ tm now < tm lease.expiresAt := by
  simp [listActiveByAgent, mem_mergeSort]

theorem mem_selectExpired {id : String} (h : id ∈ selectExpired leases cutoff limit) :
    ∃ lease ∈ leases.rows, lease.connectionID = id ∧ ¬ tm cutoff < tm lease.expiresAt := by
  obtain ⟨lease, hmem, rfl⟩ := mem_map.mp h
  have hs := mem_mergeSort.mp (mem_of_mem_take hmem)
  obtain ⟨hrow, he⟩ := mem_filter.mp hs
  exact ⟨lease, hrow, rfl, by simpa using he⟩

theorem selectExpired_complete (hl : (selectExpired leases cutoff limit).length < limit)
    (hmem : lease ∈ leases.rows) (he : ¬ tm cutoff < tm lease.expiresAt) :
    lease.connectionID ∈ selectExpired leases cutoff limit := by
  simp only [selectExpired, length_map, length_take, length_mergeSort] at hl
  rw [selectExpired, take_of_length_le (by rw [length_mergeSort]; omega)]
  apply mem_map_of_mem
  rw [mem_mergeSort, mem_filter]
  exact ⟨hmem, by simpa using he⟩

section Exact

variable (hnow : InRange now)

include hnow

theorem listActiveByAgent_exact_iff (leases : LeaseTable) (agentID : String)
    (hr : ∀ lease ∈ leases.rows, InRange lease.expiresAt) : (∀ lease, lease ∈ listActiveByAgent leases agentID now ↔
      lease ∈ leases.rows ∧ lease.agentID = agentID ∧ now < lease.expiresAt) ↔
      ∀ lease ∈ leases.rows, lease.agentID = agentID → ¬ Ambiguous now lease.expiresAt := by
  simp only [mem_listActiveByAgent]
  constructor
  · intro h lease hmem ha
    rw [← tm_order_iff hnow (hr lease hmem)]
    have := h lease
    simpa only [hmem, ha, true_and] using this
  · intro h lease
    by_cases hl : lease ∈ leases.rows ∧ lease.agentID = agentID
    · have := (tm_order_iff hnow (hr lease hl.1)).mpr (h lease hl.1 hl.2)
      simp only [hl, true_and, this]
    · tauto

theorem selectExpired_sound (hr : ∀ lease ∈ leases.rows, InRange lease.expiresAt)
    (hc : ∀ lease ∈ leases.rows, ¬ Ambiguous now lease.expiresAt) (hmem : lease ∈ leases.rows)
    (hs : lease.connectionID ∈ selectExpired leases now limit) : lease.expiresAt ≤ now := by
  obtain ⟨found, hf, hid, ht⟩ := mem_selectExpired hs
  obtain rfl : found = lease := inj_on_of_nodup_map leases.nodup hf hmem hid
  rw [tm_lt_tm_iff hnow (hr found hmem) (hc found hmem)] at ht
  omega

-- A sweep below its limit takes the expired rows and no others exactly when no
-- row is ambiguous with the cutoff.
theorem selectExpired_exact_iff {limit : ℕ} (hr : ∀ lease ∈ leases.rows, InRange lease.expiresAt)
    (hl : (selectExpired leases now limit).length < limit) :
    (∀ lease ∈ leases.rows, lease.connectionID ∈ selectExpired leases now limit ↔
      lease.expiresAt ≤ now) ↔ ∀ lease ∈ leases.rows, ¬ Ambiguous now lease.expiresAt := by
  have ht : ∀ lease ∈ leases.rows, (lease.connectionID ∈ selectExpired leases now limit ↔
      ¬ tm now < tm lease.expiresAt) := by
    intro lease hmem
    refine ⟨fun h => ?_, selectExpired_complete hl hmem⟩
    obtain ⟨found, hf, hid, he⟩ := mem_selectExpired h
    obtain rfl : found = lease := inj_on_of_nodup_map leases.nodup hf hmem hid
    exact he
  refine forall₂_congr fun lease hmem => ?_
  rw [ht lease hmem, ← tm_order_iff hnow (hr lease hmem), ← not_lt, not_iff_not]

end Exact

-- The text comparisons are exact, for the order itself and for each of the
-- statements that rest on it, exactly on the instants that are not ambiguous.
theorem text_order_exact_iff {now : ℕ} (hnow : InRange now) :
    (∀ b, InRange b → ((tm now < tm b ↔ now < b) ↔ ¬ Ambiguous now b)) ∧
    (∀ (leases : LeaseTable) agentID connectionID ttl lease, InRange lease.expiresAt →
      leases.get (agentID, connectionID) = some lease →
      (((renewConnection leases agentID connectionID lease.connectionEpoch ttl now).isSome ↔
        now < lease.expiresAt) ↔ ¬ Ambiguous now lease.expiresAt)) ∧
    (∀ (leases : LeaseTable) agentID, (∀ lease ∈ leases.rows, InRange lease.expiresAt) →
      ((∀ lease, lease ∈ listActiveByAgent leases agentID now ↔
        lease ∈ leases.rows ∧ lease.agentID = agentID ∧ now < lease.expiresAt) ↔
        ∀ lease ∈ leases.rows, lease.agentID = agentID → ¬ Ambiguous now lease.expiresAt)) ∧
    (∀ (leases : ClientLeaseTable) limit, (∀ lease ∈ leases.rows, InRange lease.expiresAt) →
      (selectExpired leases now limit).length < limit →
      ((∀ lease ∈ leases.rows, lease.connectionID ∈ selectExpired leases now limit ↔
        lease.expiresAt ≤ now) ↔ ∀ lease ∈ leases.rows, ¬ Ambiguous now lease.expiresAt)) ∧
    (∀ (leases : ClientLeaseTable) limit, (∀ lease ∈ leases.rows, InRange lease.expiresAt) →
      (∀ lease ∈ leases.rows, ¬ Ambiguous now lease.expiresAt) →
      ∀ lease ∈ leases.rows, lease.connectionID ∈ selectExpired leases now limit → lease.expiresAt ≤ now) := by
  refine ⟨fun b => tm_order_iff hnow, ?_, ?_, ?_, ?_⟩
  · intro leases agentID connectionID ttl lease hrange hget
    rw [← tm_order_iff hnow hrange, renewConnection_isSome_iff]
    simp [hget]
  · intro leases agentID hrange; exact listActiveByAgent_exact_iff hnow leases agentID hrange
  · intro leases limit hrange hlimit; exact selectExpired_exact_iff hnow hrange hlimit
  · intro leases limit hrange hclear lease hmem hselected
    exact selectExpired_sound hnow hrange hclear hmem hselected

theorem text_order_exact_at_whole_seconds : tm (63925286400 * nanosPerSecond) < tm (63925286401 * nanosPerSecond) ∧
      ¬ Ambiguous (63925286400 * nanosPerSecond) (63925286401 * nanosPerSecond) := by
  have hclear : ¬ Ambiguous (63925286400 * nanosPerSecond) (63925286401 * nanosPerSecond) := by decide
  refine ⟨?_, hclear⟩
  exact (((text_order_exact_iff (by decide)).1 _ (by decide)).mpr hclear).mpr (by decide)

def endedLease : AgentLease where
  agentID := "agent"
  connectionID := "legacy"
  nodeID := "node"
  instanceID := ""
  serverNodeID := "node"
  epoch := 1
  connectionEpoch := 1
  activeStreams := 0
  healthScore := 100
  acquiredAt := 63925286340 * nanosPerSecond
  expiresAt := 63925286400 * nanosPerSecond
  updatedAt := 63925286340 * nanosPerSecond

def endedClientLease : ClientConnectionLease where
  connectionID := "connection"
  clientInstanceID := "client"
  tokenID := "token"
  ownerUserID := "owner"
  serverNodeID := "node"
  connectionEpoch := 1
  activeStreams := 0
  healthScore := 100
  acquiredAt := 63925286340 * nanosPerSecond
  expiresAt := 63925286400 * nanosPerSecond
  updatedAt := 63925286340 * nanosPerSecond

-- Half a second after its end the lease still sorts as the later text, so it
-- is renewed and listed as active, and the sweep passes it over.
theorem ended_lease_sorts_after_now :
    let now := 63925286400 * nanosPerSecond + 500000000
    let leases : LeaseTable := ⟨[endedLease], by decide⟩
    let clients : ClientLeaseTable := ⟨[endedClientLease], by decide⟩
    InRange now ∧ endedLease.expiresAt < now ∧ ¬ tm endedLease.expiresAt < tm now ∧
      (renewConnection leases "agent" "legacy" 1 0 now).isSome ∧ endedLease ∈ listActiveByAgent leases "agent" now ∧
      endedClientLease.expiresAt < now ∧ endedClientLease.connectionID ∉ selectExpired clients now 1000 := by
  refine ⟨by decide, by decide, by decide, by decide, ?_, by decide, ?_⟩
  · rw [mem_listActiveByAgent]; decide
  · intro h
    obtain ⟨lease, hmem, -, htext⟩ := mem_selectExpired h
    obtain rfl := mem_singleton.mp hmem
    exact htext (by decide)

end TunnelMesh.Storage
