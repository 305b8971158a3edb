import TunnelMesh.Storage.Expiry
import TunnelMesh.Storage.Registration

namespace TunnelMesh.Storage.Registration

open Option

@[simp] theorem Request.key_lease (v : Request) (now : ℕ) : (v.lease now).key = v.pair := rfl

@[simp] theorem Request.connectionEpoch_lease (v : Request) (now : ℕ) :
    (v.lease now).connectionEpoch = v.connectionEpoch := rfl

@[simp] theorem Request.connectionEpoch_takeover (v : Request) (now : ℕ) (old : AgentLease) :
    (v.takeover now old).connectionEpoch = v.connectionEpoch := rfl

theorem step_select_eq_some (h : step rowLocks s (.select i now) = some next) :
    ∃ c, s.calls[i]? = some c ∧ c.phase = .ready ∧ s.blocked rowLocks c.request.pair = false ∧
      next = s.setCall i { c with
        request := (c.request.select now (s.leases.get c.request.pair)).1
        phase := (c.request.select now (s.leases.get c.request.pair)).2 } := by
  simp only [step, bind_eq_bind, bind_eq_some_iff] at h
  obtain ⟨c, hc, h⟩ := h
  split at h
  · rename_i hp
    split_ifs at h with hfree
    exact ⟨c, hc, hp, by simpa using hfree, (some.inj h).symm⟩
  · cases h

theorem step_write_eq_some (h : step rowLocks s (.write i) = some next) : ∃ c, s.calls[i]? = some c ∧
      ((∃ now autoEpoch oldEpoch, c.phase = .update now autoEpoch oldEpoch ∧
        next = s.writeUpdate i c now autoEpoch oldEpoch) ∨
      (∃ now, c.phase = .insert now ∧ next = s.writeInsert i c now)) := by
  simp only [step, bind_eq_bind, bind_eq_some_iff] at h
  obtain ⟨c, hc, h⟩ := h
  split at h
  · rename_i now autoEpoch oldEpoch hp
    exact ⟨c, hc, Or.inl ⟨now, autoEpoch, oldEpoch, hp, (some.inj h).symm⟩⟩
  · rename_i now hp
    split_ifs at h
    exact ⟨c, hc, Or.inr ⟨now, hp, (some.inj h).symm⟩⟩
  · cases h

theorem step_abort_eq_some (h : step rowLocks s (.abort i) = some next) :
    ∃ c : Call, next = s.setCall i { c with phase := .returned (.error .database) } := by
  simp only [step, bind_eq_bind, bind_eq_some_iff] at h
  obtain ⟨c, -, h⟩ := h
  split at h
  · cases h
  · exact ⟨c, (some.inj h).symm⟩

theorem step_renew_eq_some (h : step rowLocks s (.renew agentID connectionID epoch ttl now) = some next) :
    next = { s with
      leases := (renewConnection s.leases agentID connectionID epoch ttl now).getD s.leases } := by
  simp only [step, ite_none_left_eq_some] at h
  exact (some.inj h.2).symm

theorem step_release_eq_some (h : step rowLocks s (.release agentID connectionID epoch) = some next) : next = { s with
      leases := (releaseConnection s.leases agentID connectionID epoch).getD s.leases } := by
  simp only [step, ite_none_left_eq_some] at h
  exact (some.inj h.2).symm

theorem step_updateStats_eq_some (h : step rowLocks s
      (.updateStats agentID connectionID epoch activeStreams healthScore now) = some next) : next = { s with
      leases := (updateConnectionStats s.leases agentID connectionID epoch activeStreams
        healthScore now).getD s.leases } := by
  simp only [step, ite_none_left_eq_some] at h
  exact (some.inj h.2).symm

theorem step_calls {p : Call → Prop} (hb : ∀ v, p (Call.begin v))
    (hselect : ∀ (c : Call) now row, p c → c.phase = .ready →
      p { c with request := (c.request.select now row).1, phase := (c.request.select now row).2 })
    (hretry : ∀ c : Call, p c.retry) (hr : ∀ (c : Call) result, p { c with phase := .returned result }) {s : State} (h : ∀ c ∈ s.calls, p c)
    (hs : step rowLocks s label = some next) : ∀ c ∈ next.calls, p c := by
  have hset : ∀ i c, p c → ∀ other ∈ s.calls.set i c, p other := by
    intro i c hc other hmem
    rcases List.mem_or_eq_of_mem_set hmem with hold | rfl
    · exact h other hold
    · exact hc
  cases label with
  | register v =>
    simp only [step, some.injEq] at hs
    subst hs
    intro c hc
    rcases List.mem_append.mp hc with hold | hnew
    · exact h c hold
    · rw [List.mem_singleton.mp hnew]; exact hb v
  | select i now =>
    obtain ⟨c, hc, hready, -, rfl⟩ := step_select_eq_some hs
    exact hset i _ (hselect c now _ (h c (List.mem_of_getElem? hc)) hready)
  | write i =>
    obtain ⟨c, -, ⟨now, autoEpoch, oldEpoch, -, rfl⟩ | ⟨now, -, rfl⟩⟩ := step_write_eq_some hs
    · simp only [State.writeUpdate]
      split_ifs
      · exact hset i _ (hr c _)
      · exact hset i _ (hretry c)
    · simp only [State.writeInsert]
      split
      · exact hset i _ (hretry c)
      · exact hset i _ (hr c _)
  | abort i => obtain ⟨c, rfl⟩ := step_abort_eq_some hs; exact hset i _ (hr c _)
  | renew agentID connectionID epoch ttl now => rw [step_renew_eq_some hs]; exact h
  | release agentID connectionID epoch => rw [step_release_eq_some hs]; exact h
  | updateStats agentID connectionID epoch activeStreams healthScore now =>
    rw [step_updateStats_eq_some hs]
    exact h

variable (leases : LeaseTable)

theorem epoch_update (cond : AgentLease → Bool) (hkey : ∀ lease, (change lease).key = lease.key)
    (he : ∀ lease, (change lease).connectionEpoch = lease.connectionEpoch) (pair : String × String) :
    ((leases.update cond change hkey).get pair).map (·.connectionEpoch) =
      (leases.get pair).map (·.connectionEpoch) := by
  rw [Table.get_update, map_map]
  congr 1
  funext lease
  simp only [Function.comp]
  split_ifs
  · exact he lease
  · rfl

variable (agentID connectionID : String)

theorem epoch_renewConnection (epoch ttl : ℤ) (now : ℕ) (pair : String × String) :
    (((renewConnection leases agentID connectionID epoch ttl now).getD leases).get pair).map
      (·.connectionEpoch) = (leases.get pair).map (·.connectionEpoch) := by
  simp only [renewConnection]
  split_ifs
  · rfl
  · exact epoch_update leases _ (AgentLease.key_renewed ttl now) (fun _ => rfl) pair

theorem epoch_updateConnectionStats
    (epoch activeStreams healthScore : ℤ) (now : ℕ) (pair : String × String) :
    (((updateConnectionStats leases agentID connectionID epoch activeStreams healthScore now).getD
      leases).get pair).map (·.connectionEpoch) = (leases.get pair).map (·.connectionEpoch) := by
  simp only [updateConnectionStats]
  split_ifs
  · rfl
  · exact epoch_update leases _ (AgentLease.key_withStats activeStreams healthScore now) (fun _ => rfl) pair

theorem get_releaseConnection (epoch : ℤ) (pair : String × String) :
    let next := (releaseConnection leases agentID connectionID epoch).getD leases
    next.get pair = none ∨ next.get pair = leases.get pair := by
  simp only [releaseConnection]
  split_ifs
  · exact Or.inr rfl
  simp only [getD_some, Table.get_delete]
  cases leases.get pair with
  | none => exact Or.inl rfl
  | some lease =>
    by_cases h : lease.heldAt (agentID, connectionID) epoch
    · exact Or.inl (by simp [Option.filter, h])
    · exact Or.inr (by simp [Option.filter, h])

end TunnelMesh.Storage.Registration
