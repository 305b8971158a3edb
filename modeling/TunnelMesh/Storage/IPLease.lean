import Mathlib.Data.List.Sort
import TunnelMesh.Storage.ConnectionLease
import TunnelMesh.Text
import TunnelMesh.Vpn.Pool

namespace TunnelMesh.Storage

open Vpn (IPNet)

-- A row of `vpn_ip_leases`. The column `subnet` holds the text of the network.
structure VPNIPLease where
  nodeID : String
  subnet : IPNet
  allocatedCount : ℤ
  leaseHolder : String
  leaseExpiresAt : ℕ
  epoch : ℕ
  acquiredAt : ℕ
  updatedAt : ℕ

-- `UNIQUE(node_id, subnet)`
def VPNIPLease.key (lease : VPNIPLease) : String × IPNet := (lease.nodeID, lease.subnet)

abbrev IPLeaseTable := Table VPNIPLease.key

inductive IPLeaseError where
  | required (field : String)
  | held
  | staleEpoch
  | retry
  | contention
  | counterContention
  | noRows
  | cannotRelease (subnet : IPNet) (nodeID : String) (allocated count : ℤ)
  | database
  deriving DecidableEq

def IPLeaseError.message : IPLeaseError → String
  | .required field => "vpn ip lease " ++ field ++ " is required"
  | .held => "vpn ip subnet lease is held by another node"
  | .staleEpoch => "vpn ip lease epoch is stale"
  | .retry => "vpn ip lease compare-and-set lost a race"
  | .contention => "vpn ip subnet lease contention exceeded retry budget"
  | .counterContention => "vpn ip lease counter contention exceeded retry budget"
  | .noRows => "sql: no rows in result set"
  | .cannotRelease subnet nodeID allocated count =>
    "vpn ip lease " ++ subnet.text ++ " on node " ++ nodeID ++ " holds " ++ toString allocated ++
      " addresses and cannot release " ++ toString count
  | .database => "database error"

def vpnIPLeaseRetryBudget : ℕ := 8

-- The subnet and the counters of a request are never blank or negative here.
def validateVPNIPLease (nodeID leaseHolder : String) : Except IPLeaseError Unit :=
  if Text.trimSpace nodeID = "" then .error (.required "node")
  else if Text.trimSpace leaseHolder = "" then .error (.required "holder")
  else .ok ()

-- `node_id=? AND subnet=? AND epoch=?`
def VPNIPLease.heldAt (key : String × IPNet) (epoch : ℕ) (lease : VPNIPLease) : Bool :=
  lease.key = key ∧ lease.epoch = epoch

def VPNIPLease.acquired (leaseHolder : String) (now expires nextEpoch : ℕ) (lease : VPNIPLease) :
    VPNIPLease :=
  { lease with
    leaseHolder, leaseExpiresAt := expires, epoch := nextEpoch, acquiredAt := now, updatedAt := now }

theorem VPNIPLease.key_acquired (leaseHolder : String) (now expires nextEpoch : ℕ)
    (lease : VPNIPLease) : (lease.acquired leaseHolder now expires nextEpoch).key = lease.key := rfl

variable (leases : IPLeaseTable)

def tryAcquireSubnet (nodeID : String) (subnet : IPNet)
    (leaseHolder : String) (now expires : ℕ) : Except IPLeaseError (VPNIPLease × IPLeaseTable) :=
  match leases.get (nodeID, subnet) with
  | none =>
    let row : VPNIPLease := ⟨nodeID, subnet, 0, leaseHolder, expires, 1, now, now⟩
    match leases.insert row with
    | none => .error .retry
    | some leases => .ok (row, leases)
  | some current =>
    if current.leaseHolder ≠ leaseHolder ∧ now < current.leaseExpiresAt then .error .held
    else
      let cond := VPNIPLease.heldAt (nodeID, subnet) current.epoch
      let nextEpoch := current.epoch + 1
      if leases.affected cond = 1 then
        .ok (current.acquired leaseHolder now expires nextEpoch,
          leases.update cond (VPNIPLease.acquired leaseHolder now expires nextEpoch)
            (VPNIPLease.key_acquired leaseHolder now expires nextEpoch))
      else .error .retry

-- `node_id=? AND subnet=? AND lease_holder=? AND epoch=?`
def VPNIPLease.fenced (key : String × IPNet) (leaseHolder : String) (epoch : ℕ)
    (lease : VPNIPLease) : Bool :=
  lease.heldAt key epoch && lease.leaseHolder = leaseHolder

def VPNIPLease.renewed (ttl : ℤ) (now : ℕ) (lease : VPNIPLease) : VPNIPLease :=
  { lease with leaseExpiresAt := now + ttlOrMinute ttl, updatedAt := now }

theorem VPNIPLease.key_renewed (ttl : ℤ) (now : ℕ) (lease : VPNIPLease) : (lease.renewed ttl now).key = lease.key := rfl

def renewSubnet (nodeID : String) (subnet : IPNet) (leaseHolder : String)
    (epoch : ℕ) (ttl : ℤ) (now : ℕ) : Except IPLeaseError IPLeaseTable :=
  if Text.trimSpace leaseHolder = "" then .error (.required "holder")
  else
    let cond := VPNIPLease.fenced (nodeID, subnet) leaseHolder epoch
    if 0 < leases.affected cond then
      .ok (leases.update cond (VPNIPLease.renewed ttl now) (VPNIPLease.key_renewed ttl now))
    else if (leases.get (nodeID, subnet)).isNone then .error .noRows
    else .error .staleEpoch

def VPNIPLease.counted (next : ℤ) (now : ℕ) (lease : VPNIPLease) : VPNIPLease :=
  { lease with allocatedCount := next, updatedAt := now }

theorem VPNIPLease.key_counted (next : ℤ) (now : ℕ) (lease : VPNIPLease) :
    (lease.counted next now).key = lease.key := rfl

def tryAddAllocated (nodeID : String) (subnet : IPNet)
    (leaseHolder : String) (epoch : ℕ) (delta : ℤ) (now : ℕ) :
    Except IPLeaseError (ℤ × IPLeaseTable) :=
  match leases.get (nodeID, subnet) with
  | none => .error .noRows
  | some current =>
    if current.epoch ≠ epoch ∨ current.leaseHolder ≠ leaseHolder then .error .staleEpoch
    else
      let next := int64 (current.allocatedCount + delta)
      if next < 0 then .error (.cannotRelease subnet nodeID current.allocatedCount (int64 (-delta)))
      else
        let cond := VPNIPLease.heldAt (nodeID, subnet) epoch
        if leases.affected cond = 1 then
          .ok (next, leases.update cond (VPNIPLease.counted next now)
            (VPNIPLease.key_counted next now))
        else .error .retry

-- `WHERE lease_holder=? ORDER BY subnet`
def listByHolder (holder : String) : List VPNIPLease :=
  if Text.trimSpace holder = "" then []
  else (leases.rows.filter fun lease => lease.leaseHolder = holder).insertionSort
    fun a b => a.subnet.text ≤ b.subnet.text

namespace VPNIPLease

theorem key_of_heldAt (key : String × IPNet) (epoch : ℕ) (lease : VPNIPLease)
    (h : lease.heldAt key epoch) : lease.key = key := by
  simp only [heldAt, decide_eq_true_eq] at h
  exact h.1

theorem key_of_fenced (key : String × IPNet) (leaseHolder : String) (epoch : ℕ) (lease : VPNIPLease)
    (h : lease.fenced key leaseHolder epoch) : lease.key = key := by
  simp only [fenced, Bool.and_eq_true] at h
  exact key_of_heldAt key epoch lease h.1

end VPNIPLease

theorem tryAcquireSubnet_own (nodeID : String) (subnet : IPNet)
    (now expires : ℕ) (hown : ∀ row, leases.get (nodeID, subnet) = some row → row.leaseHolder = nodeID) :
    ∃ row next, tryAcquireSubnet leases nodeID subnet nodeID now expires = .ok (row, next) ∧
      row.key = (nodeID, subnet) ∧ row.leaseHolder = nodeID ∧ row.leaseExpiresAt = expires ∧ leases.Puts row next := by
  unfold tryAcquireSubnet
  cases hget : leases.get (nodeID, subnet) with
  | none =>
    let row : VPNIPLease := ⟨nodeID, subnet, 0, nodeID, expires, 1, now, now⟩
    obtain ⟨next, hi⟩ : ∃ next, leases.insert row = some next := by
      rw [← Option.ne_none_iff_exists', ne_eq, leases.insert_eq_none_iff]
      simp [row, VPNIPLease.key, hget]
    exact ⟨row, next, by simp only [row, hi], rfl, rfl, rfl, leases.puts_insert hi⟩
  | some current =>
    have hkey := leases.key_of_get hget
    have hc : current.heldAt (nodeID, subnet) current.epoch := by simp [VPNIPLease.heldAt, hkey]
    have ha := (leases.affected_eq_one_iff (VPNIPLease.key_of_heldAt (nodeID, subnet) current.epoch)).mpr
        ⟨current, hget, hc⟩
    have hp := leases.puts_update (VPNIPLease.key_of_heldAt (nodeID, subnet) current.epoch)
      (VPNIPLease.key_acquired nodeID now expires (current.epoch + 1)) hget hc
    refine ⟨current.acquired nodeID now expires (current.epoch + 1), _, ?_, hkey, rfl, rfl, hp⟩
    simp [hown current hget, ha]

theorem renewSubnet_eq_ok {leases next : IPLeaseTable} {subnet : IPNet} {epoch : ℕ} {ttl : ℤ} {now : ℕ}
    (h : renewSubnet leases nodeID subnet leaseHolder epoch ttl now = .ok next) :
    0 < leases.affected (VPNIPLease.fenced (nodeID, subnet) leaseHolder epoch) ∧
      ∃ row, row.key = (nodeID, subnet) ∧ row.leaseHolder = leaseHolder ∧
        row.leaseExpiresAt = now + ttlOrMinute ttl ∧ leases.Puts row next := by
  simp only [renewSubnet] at h
  split_ifs at h with hblank hpos
  cases h
  refine ⟨hpos, ?_⟩
  obtain ⟨old, hmem, hf⟩ := (leases.affected_pos_iff _).mp hpos
  have hkey : old.key = (nodeID, subnet) := VPNIPLease.key_of_fenced _ _ _ _ hf
  have hget := (leases.get_eq_some_iff _ _).mpr ⟨hmem, hkey⟩
  have hh : old.leaseHolder = leaseHolder := by
    simp only [VPNIPLease.fenced, Bool.and_eq_true, decide_eq_true_eq] at hf
    exact hf.2
  exact ⟨old.renewed ttl now, hkey, hh, rfl,
    leases.puts_update (VPNIPLease.key_of_fenced (nodeID, subnet) leaseHolder epoch)
      (VPNIPLease.key_renewed ttl now) hget hf⟩

def VPNIPLease.SameClaim (a b : VPNIPLease) : Prop :=
  a.key = b.key ∧ a.leaseHolder = b.leaseHolder ∧ a.leaseExpiresAt = b.leaseExpiresAt

theorem tryAddAllocated_eq_ok {leases next : IPLeaseTable} {subnet : IPNet} {epoch : ℕ} {delta total : ℤ} {now : ℕ}
    (h : tryAddAllocated leases nodeID subnet leaseHolder epoch delta now = .ok (total, next)) :
    ∀ row ∈ next.rows, ∃ old ∈ leases.rows, row.SameClaim old := by
  unfold tryAddAllocated at h
  split at h
  · cases h
  simp only at h
  split_ifs at h
  cases h
  intro row hrow
  obtain ⟨old, hold, rfl⟩ := List.mem_map.mp hrow
  refine ⟨old, hold, ?_⟩
  split_ifs
  · exact ⟨rfl, rfl, rfl⟩
  · exact ⟨rfl, rfl, rfl⟩

theorem mem_listByHolder {leases : IPLeaseTable} {holder : String} {row : VPNIPLease}
    (h : row ∈ listByHolder leases holder) : row ∈ leases.rows := by
  unfold listByHolder at h
  split_ifs at h
  · cases h
  · exact (List.mem_filter.mp ((List.mem_insertionSort _).mp h)).1

end TunnelMesh.Storage
