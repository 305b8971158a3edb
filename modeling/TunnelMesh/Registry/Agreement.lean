import TunnelMesh.Registry.Database
import TunnelMesh.Registry.Etcd.Fencing
import TunnelMesh.Storage.Registration.Fencing

namespace TunnelMesh.Registry

open TunnelMesh.Transition TunnelMesh.Storage Registration Database Option

theorem Database.stale_owner_fenced (hf : Along (step rowLocks) Registration.FreshInsert init labels)
    (hrun : run (step rowLocks) init labels = some s)
    (he : owner.epoch ∈ (s.ledger owner.pair).issued.dropLast)
    (hepoch : owner.connectionEpoch = owner.epoch) (listed : LeaseTable) (ttl : ℤ) (now later : ℕ) :
    keepAlive s.leases listed owner ttl now later = .error .fencing ∧ revoke s.leases owner = .error .fencing ∧
      updateConnectionStats s.leases owner now = none := by
  have hinv : Registration.Inv s := run_preserves
    (fun s label next (h : Registration.Inv s) hs => h.step hs) inv_init hrun
  have hi : s.Increasing :=
    ((increasing_iff_freshInsert rowLocks labels).mpr hf).run hrun
  obtain ⟨hrenew, hr, hstats⟩ := stale_fails hinv hi he now ttl owner.activeStreams owner.healthScore
  refine ⟨?_, ?_, ?_⟩
  · simp only [keepAlive, hrenew]
  · simp only [revoke, hr]
  · rw [updateConnectionStats, hepoch, hstats]

-- On the database the epochs of a pair increase exactly when no insertion
-- restarts them, and stale owners are then turned away. On etcd, where the
-- counter outlives the connection, both hold in every regular run.
theorem connection_epochs_fence (rowLocks : Bool) (labels : List Registration.Label) (root : String)
    (etcdLabels : List Etcd.Label) :
    (Always (Registration.step rowLocks) Registration.State.Increasing Registration.init labels ↔
      Along (Registration.step rowLocks) Registration.FreshInsert Registration.init labels) ∧
    (∀ s, Along (Registration.step rowLocks) Registration.FreshInsert Registration.init labels →
      run (Registration.step rowLocks) Registration.init labels = some s →
      ∀ owner : NodeOwner, owner.epoch ∈ (s.ledger owner.pair).issued.dropLast →
      owner.connectionEpoch = owner.epoch → ∀ listed ttl now later,
      Database.keepAlive s.leases listed owner ttl now later = .error .fencing ∧
        Database.revoke s.leases owner = .error .fencing ∧ Database.updateConnectionStats s.leases owner now = none) ∧
    (∀ s, Along (Etcd.step root) Etcd.Regular Etcd.init etcdLabels →
      run (Etcd.step root) Etcd.init etcdLabels = some s → ∀ pair, Etcd.Plain pair.1 → (s.ledger root pair).Increasing ∧
        ∀ i c epoch seen next, s.calls[i]? = some c → c.carries = some (pair, epoch, seen) →
          epoch ∈ (s.ledger root pair).issued.dropLast → Etcd.step root s (.commit i) = some next →
          next.store = s.store ∧ next.calls[i]? = some (.returned (.error .fencing))) := by
  refine ⟨increasing_iff_freshInsert rowLocks labels, ?_, ?_⟩
  · intro s hfresh hrun owner hearlier hepoch listed ttl now later
    exact Database.stale_owner_fenced hfresh hrun hearlier hepoch listed ttl now later
  · intro s hregular hrun pair hplain
    have hinv := Etcd.run_inv hregular hrun
    refine ⟨hinv.increasing pair hplain, ?_⟩
    intro i c epoch seen next hc hcarries hearlier hstep
    exact Etcd.stale_commit_fails hinv hc hcarries hearlier hstep

def explicitRun : List Label :=
  let request (epoch : ℤ) : Request :=
    ⟨"agent", "connection", "node", "", "", 0, epoch, 0, 0, 0⟩
  [.register (request 1), .select 0 0, .write 0, .register (request 2), .select 1 0, .write 1]

def staleOwner : NodeOwner :=
  ⟨"node", "", "", "agent", "", "connection", "node", 1, 1, 1, 0, 0, 0, 0⟩

-- A keep-alive reads the first registration, whose lease then ends; a second
-- registration comes before the keep-alive commits.
def overtakenRun : List Etcd.Label :=
  let request : NodeRegistration := ⟨"node", "", "", "agent", "", "connection", "node", 0⟩
  [.register request, .getConnection 0 0, .getEpoch 0, .commitRegister 0 0, .keepAlive staleOwner,
    .endLease 1, .register request, .getConnection 2 0, .getEpoch 2, .commitRegister 2 0,
    .keepAliveOnce 1 1 0]

theorem connection_epochs_fence_stale_owner :
    (∃ s, run (Registration.step true) Registration.init explicitRun = some s ∧
      staleOwner.epoch ∈ (s.ledger staleOwner.pair).issued.dropLast ∧
      Database.revoke s.leases staleOwner = .error .fencing) ∧
    ∃ s next, run (Etcd.step "") Etcd.init overtakenRun = some s ∧
      staleOwner.epoch ∈ (s.ledger "" staleOwner.pair).issued.dropLast ∧
      Etcd.step "" s (.commit 1) = some next ∧ next.store = s.store := by
  constructor
  · obtain ⟨s, hrun, hearlier⟩ : ∃ s, run (Registration.step true) Registration.init explicitRun = some s ∧
        staleOwner.epoch ∈ (s.ledger staleOwner.pair).issued.dropLast := exists_run_of_any (by decide)
    exact ⟨s, hrun, hearlier, ((connection_epochs_fence true explicitRun "" []).2.1 s (by decide) hrun
      staleOwner hearlier rfl s.leases 0 0 0).2.1⟩
  · obtain ⟨s, hrun, hearlier, hcarries, hstep⟩ : ∃ s, run (Etcd.step "") Etcd.init overtakenRun = some s ∧
        staleOwner.epoch ∈ (s.ledger "" staleOwner.pair).issued.dropLast ∧
        (s.calls[1]?.bind (·.carries)).map (fun c => (c.1, c.2.1)) =
          some (staleOwner.pair, staleOwner.epoch) ∧
        (Etcd.step "" s (.commit 1)).isSome = true := exists_run_of_any (by decide)
    obtain ⟨next, hnext⟩ := Option.isSome_iff_exists.mp hstep
    obtain ⟨⟨pair, epoch, seen⟩, hbind, heq⟩ := Option.map_eq_some_iff.mp hcarries
    obtain ⟨c, hc, hcall⟩ := Option.bind_eq_some_iff.mp hbind
    obtain ⟨rfl, rfl⟩ : pair = staleOwner.pair ∧ epoch = staleOwner.epoch := by simpa using heq
    have hplain : Etcd.Plain staleOwner.pair.1 := by decide
    exact ⟨s, next, hrun, hearlier, hnext, ((((connection_epochs_fence true [] "" overtakenRun).2.2 s (by decide)
      hrun staleOwner.pair hplain).2 1 c _ seen next hc hcall hearlier hnext).1)⟩

-- A release deletes the row, so the next registration of the pair starts again
-- at epoch 1, and the owner of the first one renews the lease of the second.
def releasedRun : List Label :=
  let request : Request := ⟨"agent", "connection", "node", "", "", 0, 0, 0, 0, 0⟩
  [.register request, .select 0 0, .write 0, .release "agent" "connection" 1, .register request, .select 1 0, .write 1]

theorem release_restarts_epochs : (∃ s, run (Registration.step false) Registration.init releasedRun = some s ∧
      (s.ledger ("agent", "connection")).issued = [1, 1] ∧
      (renewConnection s.leases "agent" "connection" 1 0 1).isSome) ∧
    ∃ s, run (Registration.step true) Registration.init releasedRun = some s ∧
      (s.ledger ("agent", "connection")).issued = [1, 1] ∧
      (renewConnection s.leases "agent" "connection" 1 0 1).isSome := by
  constructor
  · apply exists_run_of_any; decide
  · apply exists_run_of_any; decide

end TunnelMesh.Registry
