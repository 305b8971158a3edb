import TunnelMesh.Storage.Expiry
import TunnelMesh.Transition

namespace TunnelMesh.Storage

open Transition Option List

-- `sweeps` are the calls of `DeleteExpired` between their two statements. The leases
-- that a `DELETE` has taken before their end are `lost`.
structure Sweeping where
  leases : ClientLeaseTable
  now : ℕ
  sweeps : List (List String)
  lost : List ClientConnectionLease

-- One statement of a call each. `Renew` has read the clock before.
inductive SweepLabel where
  | tick (elapsed : ℕ)
  | select (cutoff : ℕ) (limit : ℤ)
  | delete (i : ℕ)
  | renew (connectionID : String) (epoch : ℤ) (ttl now : ℕ)
  | register (lease : ClientConnectionLease)

def validateClientConnection (lease : ClientConnectionLease) : Bool :=
  lease.connectionID ≠ "" ∧ lease.clientInstanceID ≠ "" ∧ lease.tokenID ≠ "" ∧ lease.ownerUserID ≠ "" ∧
    lease.serverNodeID ≠ "" ∧ 0 < lease.connectionEpoch ∧ 0 ≤ lease.activeStreams ∧ 0 ≤ lease.healthScore ∧
    lease.acquiredAt ≠ 0 ∧ lease.expiresAt ≠ 0

-- The transaction of `Register`. A lower epoch leaves the row alone.
def registerClient (leases : ClientLeaseTable) (lease : ClientConnectionLease) : Option ClientLeaseTable :=
  let put := { lease with
    updatedAt := if lease.updatedAt = 0 then lease.acquiredAt else lease.updatedAt
    healthScore := if lease.healthScore = 0 then 100 else lease.healthScore }
  if ¬ validateClientConnection lease then none
  else match leases.get lease.connectionID with
    | none => leases.insert put
    | some row =>
      if row.clientInstanceID ≠ lease.clientInstanceID then none
      else some (leases.update
        (fun row => row.connectionID = lease.connectionID ∧ row.connectionEpoch ≤ lease.connectionEpoch)
        (fun row => { put with
          connectionID := row.connectionID, clientInstanceID := row.clientInstanceID, acquiredAt := row.acquiredAt })
        fun _ => rfl)

namespace Sweeping

def cutoffOr (s : Sweeping) (cutoff : ℕ) : ℕ := if cutoff = 0 then s.now else cutoff

def step (s : Sweeping) : SweepLabel → Option Sweeping
  | .tick elapsed => some { s with now := s.now + elapsed }
  | .select cutoff limit =>
    let ids := selectExpired s.leases (s.cutoffOr cutoff)
      (if limit ≤ 0 then defaultClientConnectionDeleteBatch else limit.toNat)
    some { s with sweeps := s.sweeps ++ [ids] }
  | .delete i => s.sweeps[i]?.map fun ids =>
    { s with
      leases := s.leases.delete (·.connectionID ∈ ids), sweeps := s.sweeps.eraseIdx i
      lost := s.lost ++ s.leases.rows.filter fun lease => lease.connectionID ∈ ids ∧ s.now < lease.expiresAt }
  | .renew connectionID epoch ttl now =>
    if connectionID = "" ∨ epoch ≤ 0 ∨ ttl = 0 then none
    else some { s with
      leases := s.leases.update (fun lease => lease.connectionID = connectionID ∧ lease.connectionEpoch = epoch)
        (fun lease => { lease with expiresAt := now + ttl, updatedAt := now }) fun _ => rfl }
  | .register lease => (registerClient s.leases lease).map fun leases => { s with leases }

-- The cutoff is not in the future, and no text is ambiguous with its own; a connection
-- that a sweep has selected is neither renewed nor registered until its `DELETE`.
def undisturbed (s : Sweeping) : SweepLabel → Bool
  | .select cutoff _ =>
    s.cutoffOr cutoff ≤ s.now ∧ InRange s.now ∧
      ∀ lease ∈ s.leases.rows, InRange lease.expiresAt ∧ ¬ Ambiguous (s.cutoffOr cutoff) lease.expiresAt
  | .renew connectionID .. => ∀ ids ∈ s.sweeps, connectionID ∉ ids
  | .register lease => ∀ ids ∈ s.sweeps, lease.connectionID ∉ ids
  | _ => true

structure Sound (s : Sweeping) : Prop where
  ended : ∀ ids ∈ s.sweeps, ∀ id ∈ ids, ∀ lease, s.leases.get id = some lease → lease.expiresAt ≤ s.now
  lost : s.lost = []

variable {s next : Sweeping}

theorem Sound.beside {leases : ClientLeaseTable} (h : s.Sound) (hn : ∀ ids ∈ s.sweeps, other ∉ ids)
    (hk : ∀ id ≠ other, leases.get id = s.leases.get id) : Sound { s with leases } := by
  refine ⟨fun ids hi id hid lease hl => h.ended ids hi id hid lease ?_, h.lost⟩
  rwa [← hk id fun he => hn ids hi (he ▸ hid)]

theorem get_registerClient {leases next : ClientLeaseTable} {id : String}
    (h : registerClient leases lease = some next) (hid : id ≠ lease.connectionID) : next.get id = leases.get id := by
  simp only [registerClient, ite_none_left_eq_some] at h
  obtain ⟨-, h⟩ := h
  split at h
  · rw [Table.get_insert _ h, if_neg fun he => hid he.symm]
  · obtain ⟨-, h⟩ := ite_none_left_eq_some.mp h
    cases h
    exact leases.get_update_of_ne (fun row hr => (of_decide_eq_true hr).1) _ hid.symm

theorem step_sound {label : SweepLabel} (h : s.Sound) (hg : s.undisturbed label) (hs : s.step label = some next) :
    next.Sound := by
  cases label with
  | tick elapsed =>
    cases hs
    exact ⟨fun ids hi id hid lease hl => (h.ended ids hi id hid lease hl).trans (Nat.le_add_right ..), h.lost⟩
  | select cutoff limit =>
    cases hs
    refine ⟨fun ids hi id hid lease hl => ?_, h.lost⟩
    simp only [undisturbed, decide_eq_true_eq] at hg
    rcases mem_append.mp hi with hi | hi
    · exact h.ended ids hi id hid lease hl
    cases mem_singleton.mp hi
    obtain ⟨hm, rfl⟩ := (s.leases.get_eq_some_iff id lease).mp hl
    exact (selectExpired_sound (hg.1.trans_lt hg.2.1) (fun l hl => (hg.2.2 l hl).1) (fun l hl => (hg.2.2 l hl).2) hm
      hid).trans hg.1
  | delete i =>
    obtain ⟨ids, hi, rfl⟩ := map_eq_some_iff.mp hs
    refine ⟨fun other ho id hid lease hl => ?_, ?_⟩
    · rw [Table.get_delete, filter_eq_some_iff] at hl
      exact h.ended other (mem_of_mem_eraseIdx ho) id hid lease hl.1
    · have hl (lease) (hm : lease ∈ s.leases.rows) (hid : lease.connectionID ∈ ids) : lease.expiresAt ≤ s.now :=
        h.ended ids (mem_of_getElem? hi) _ hid lease ((s.leases.get_eq_some_iff _ lease).mpr ⟨hm, rfl⟩)
      simpa [h.lost] using hl
  | renew connectionID epoch ttl now =>
    obtain ⟨-, hs⟩ := ite_none_left_eq_some.mp hs
    cases hs
    exact h.beside (by simpa [undisturbed] using hg) fun id hid =>
      s.leases.get_update_of_ne (fun row hr => (of_decide_eq_true hr).1) _ hid.symm
  | register lease =>
    obtain ⟨leases, hr, rfl⟩ := map_eq_some_iff.mp hs
    exact h.beside (by simpa [undisturbed] using hg) fun id hid => get_registerClient hr hid

-- A sweep that is left alone from its `SELECT` to its `DELETE` takes no live lease.
theorem sweep_spares_live (leases : ClientLeaseTable) (now : ℕ) (labels : List SweepLabel)
    (ha : Along step (fun s label => s.undisturbed label) ⟨leases, now, [], []⟩ labels) :
    Always step (fun s => s.lost = []) ⟨leases, now, [], []⟩ labels :=
  (always_of_invariant (fun _ _ _ h hg hs => step_sound h hg hs) ⟨leases, now, [], []⟩ labels ⟨by simp, rfl⟩ ha).mono
    fun _ h => h.lost

def defaultClientConnectionLeaseRetention : ℕ := 24 * 60 * minute

-- The `SELECT` of a `SweepOnce` that has read the clock at `now`.
def sweepOnce (now : ℕ) : SweepLabel :=
  .select (now - defaultClientConnectionLeaseRetention) defaultClientConnectionDeleteBatch

def endedSweep : Sweeping where
  leases := ⟨[endedClientLease], by decide⟩
  now := 63925286401 * nanosPerSecond + defaultClientConnectionLeaseRetention
  sweeps := []
  lost := []

theorem ended_lease_swept : Always step (fun s => s.lost = []) endedSweep [sweepOnce endedSweep.now, .delete 0] :=
  sweep_spares_live _ _ _ (by decide +kernel)

-- The Client comes back after a day, between the two statements.
theorem renewed_lease_swept :
    ∃ s, run step endedSweep [sweepOnce endedSweep.now, .renew "connection" 1 minute endedSweep.now, .delete 0] =
        some s ∧ s.lost ≠ [] :=
  exists_run_of_any (by decide +kernel)

end Sweeping

end TunnelMesh.Storage
