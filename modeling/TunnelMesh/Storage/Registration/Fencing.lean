import TunnelMesh.Fencing
import TunnelMesh.Storage.Registration.Theorems

namespace TunnelMesh.Storage.Registration

open TunnelMesh.Fencing State Ledger Call Option Transition

-- What the table and the history say about one pair: the connection epoch of
-- its row, and the epochs of its registrations.
def State.ledger (s : State) (pair : String × String) : Ledger ℤ where
  current := (s.leases.get pair).map (·.connectionEpoch)
  issued := (s.registrations.filter fun entry => entry.lease.key = pair).map
    (·.lease.connectionEpoch)

def Call.Raises (c : Call) : Prop :=
  ∀ now autoEpoch oldEpoch, c.phase = .update now autoEpoch oldEpoch → oldEpoch < c.request.connectionEpoch

theorem select_raises (v : Request) (now : ℕ) (row : Option AgentLease) (c : Call) :
    Raises { c with request := (v.select now row).1, phase := (v.select now row).2 } := by
  intro time autoEpoch oldEpoch hp
  cases row with
  | none => simp [Request.select] at hp
  | some old =>
    simp only [Request.select] at hp ⊢
    split_ifs at hp ⊢ with hheld hs
    cases hp
    exact not_le.mp hs

theorem begin_raises (v : Request) : (begin v).Raises := by
  intro now autoEpoch oldEpoch hp
  simp only [begin] at hp
  split at hp <;> cases hp

theorem retry_raises (c : Call) : c.retry.Raises := by
  intro now autoEpoch oldEpoch hp
  simp only [retry] at hp
  split_ifs at hp

theorem returned_raises (c : Call) (result : Except RegisterError AgentLease) :
    Raises { c with phase := .returned result } := by
  intro now autoEpoch oldEpoch hp
  cases hp

def Inserts (s : State) (label : Label) (pair : String × String) (epoch : ℤ) : Prop :=
  ∃ i c now, label = .write i ∧ s.calls[i]? = some c ∧ c.phase = .insert now ∧
    c.request.pair = pair ∧ c.request.connectionEpoch = epoch ∧ s.leases.get pair = none

theorem ledger_setCall (s : State) (i : ℕ) (c : Call) (pair : String × String) :
    (s.setCall i c).ledger pair = s.ledger pair := rfl

theorem ledger_leases (s : State) (leases : LeaseTable) (he : (leases.get pair).map (·.connectionEpoch) =
      (s.leases.get pair).map (·.connectionEpoch)) :
    ledger { s with leases } pair = s.ledger pair := by simp only [ledger, he]

theorem ledger_append (s : State) (leases : LeaseTable) (calls : List Call) (entry : Entry) (pair : String × String) :
    ledger ⟨leases, calls, s.registrations ++ [entry]⟩ pair = ⟨(leases.get pair).map (·.connectionEpoch),
        (s.ledger pair).issued ++
          if entry.lease.key = pair then [entry.lease.connectionEpoch] else []⟩ := by
  by_cases h : entry.lease.key = pair <;> simp [ledger, h]

theorem takeoverCond_iff (pair : String × String) (now : ℕ) (autoEpoch : Bool) (oldEpoch : ℤ) (lease : AgentLease) :
    takeoverCond pair now autoEpoch oldEpoch lease ↔ (lease.key = pair ∧ lease.connectionEpoch = oldEpoch) ∧
        (autoEpoch → ¬ tm now < tm lease.expiresAt) := by
  cases autoEpoch <;> simp [takeoverCond, ← Bool.not_eq_true]

theorem key_of_takeoverCond (pair : String × String) (now : ℕ) (autoEpoch : Bool) (oldEpoch : ℤ)
    (lease : AgentLease) (h : takeoverCond pair now autoEpoch oldEpoch lease) : lease.key = pair :=
  ((takeoverCond_iff pair now autoEpoch oldEpoch lease).mp h).1.1

theorem writeUpdate_refines (s : State) (i : ℕ) (c : Call) (now : ℕ) (autoEpoch : Bool)
    (oldEpoch : ℤ) (pair : String × String) : (s.writeUpdate i c now autoEpoch oldEpoch).ledger pair = s.ledger pair ∨
      (s.ledger pair).current = some oldEpoch ∧ (s.writeUpdate i c now autoEpoch oldEpoch).ledger pair =
          (s.ledger pair).move (.issue c.request.connectionEpoch) := by
  simp only [writeUpdate]
  split_ifs with ha
  · obtain ⟨row, hget, hc⟩ := (s.leases.affected_eq_one_iff
      (key_of_takeoverCond c.request.pair now autoEpoch oldEpoch)).mp ha
    obtain ⟨⟨hkey, he⟩, -⟩ := (takeoverCond_iff _ _ _ _ _).mp hc
    rw [ledger_append]
    by_cases hp : c.request.pair = pair
    · subst hp
      right
      refine ⟨by simp [ledger, hget, he], ?_⟩
      simp [move, hget, hc]
    · left
      have ho := s.leases.get_update_of_ne
        (key_of_takeoverCond c.request.pair now autoEpoch oldEpoch) (c.request.key_takeover now) hp
      simp [ledger, ho, hp]
  · exact Or.inl (ledger_setCall _ _ _ _)

theorem writeInsert_refines (s : State) (i : ℕ) (c : Call) (now : ℕ) (pair : String × String) :
    (s.writeInsert i c now).ledger pair =
      if c.request.pair = pair ∧ s.leases.get pair = none then (s.ledger pair).move (.issue c.request.connectionEpoch)
      else s.ledger pair := by
  have hn := s.leases.insert_eq_none_iff (c.request.lease now)
  simp only [writeInsert, Request.key_lease] at hn ⊢
  cases hi : s.leases.insert (c.request.lease now) with
  | none =>
    rw [if_neg]
    · rfl
    · rintro ⟨rfl, hget⟩; simp [hi, hget] at hn
  | some leases =>
    have hget := s.leases.get_insert hi pair
    simp only [ledger_append, hget, Request.key_lease]
    by_cases hp : c.request.pair = pair
    · subst hp
      have hf : s.leases.get c.request.pair = none := by simpa [hi] using hn
      simp [hf, move]
    · simp [ledger, hp]

-- Each step makes one move in the ledger of each pair. A token is issued by a
-- takeover, above the present one, or by an insertion.
theorem step_refines (hr : ∀ c ∈ s.calls, c.Raises) (hs : step rowLocks s label = some next) (pair : String × String) :
    ∃ m, next.ledger pair = (s.ledger pair).move m ∧ ∀ epoch, m = .issue epoch →
      (∃ old, (s.ledger pair).current = some old ∧ old < epoch) ∨ Inserts s label pair epoch := by
  have hk : ∀ t : State, t.ledger pair = s.ledger pair →
      ∃ m, t.ledger pair = (s.ledger pair).move m ∧ ∀ epoch, m = .issue epoch →
        (∃ old, (s.ledger pair).current = some old ∧ old < epoch) ∨ Inserts s label pair epoch :=
    fun t ht => ⟨.keep, ht, fun epoch h => by cases h⟩
  cases label with
  | register v =>
    simp only [step, some.injEq] at hs
    subst hs
    exact hk _ rfl
  | select i now =>
    obtain ⟨c, -, -, -, rfl⟩ := step_select_eq_some hs
    exact hk _ (ledger_setCall _ _ _ _)
  | write i =>
    obtain ⟨c, hc, ⟨now, autoEpoch, oldEpoch, hp, rfl⟩ | ⟨now, hp, rfl⟩⟩ :=
      step_write_eq_some hs
    · have hlt := hr c (List.mem_of_getElem? hc) now autoEpoch oldEpoch hp
      rcases writeUpdate_refines s i c now autoEpoch oldEpoch pair with hsame | ⟨hcurrent, hissue⟩
      · exact hk _ hsame
      · refine ⟨_, hissue, ?_⟩
        rintro epoch ⟨⟩
        exact Or.inl ⟨oldEpoch, hcurrent, hlt⟩
    · have hl := writeInsert_refines s i c now pair
      split_ifs at hl with hi
      · refine ⟨_, hl, ?_⟩
        rintro epoch ⟨⟩
        exact Or.inr ⟨i, c, now, rfl, hc, hp, hi.1, rfl, hi.2⟩
      · exact hk _ hl
  | abort i => obtain ⟨c, rfl⟩ := step_abort_eq_some hs; exact hk _ (ledger_setCall _ _ _ _)
  | renew agentID connectionID epoch ttl now =>
    rw [step_renew_eq_some hs]
    exact hk _ (ledger_leases _ _ (epoch_renewConnection _ _ _ _ _ _ _))
  | release agentID connectionID epoch =>
    rw [step_release_eq_some hs]
    rcases get_releaseConnection s.leases agentID connectionID epoch pair with hn | hsame
    · refine ⟨.drop, ?_, fun epoch h => by cases h⟩; simp only [ledger, hn, move, map_none]
    · exact hk _ (ledger_leases _ _ (congrArg _ hsame))
  | updateStats agentID connectionID epoch activeStreams healthScore now =>
    rw [step_updateStats_eq_some hs]
    exact hk _ (ledger_leases _ _ (epoch_updateConnectionStats _ _ _ _ _ _ _ _))

theorem ledger_of_inserts (hi : Inserts s label pair epoch) (hs : step rowLocks s label = some next) :
    next.ledger pair = (s.ledger pair).move (.issue epoch) := by
  obtain ⟨i, c, now, rfl, hc, hp, hpair, rfl, hn⟩ := hi
  obtain ⟨found, hf, ⟨time, autoEpoch, oldEpoch, ho, -⟩ | ⟨time, -, rfl⟩⟩ :=
    step_write_eq_some hs
  · obtain rfl : c = found := some.inj (hc.symm.trans hf); simp [hp] at ho
  · obtain rfl : c = found := some.inj (hc.symm.trans hf)
    rw [writeInsert_refines, if_pos ⟨hpair, hn⟩]

structure Inv (s : State) : Prop where
  raises : ∀ c ∈ s.calls, c.Raises
  held : ∀ pair, (s.ledger pair).Held

theorem inv_init : Inv init where
  raises := by simp [init]
  held := by simp [init, ledger, Held]

theorem Inv.step (h : Inv s) (hs : step rowLocks s label = some next) : Inv next where
  raises := step_calls begin_raises (fun c now row _ _ => select_raises c.request now row c) retry_raises
    returned_raises h.raises hs
  held := by
    intro pair
    obtain ⟨m, hm, -⟩ := step_refines h.raises hs pair
    rw [hm]
    exact (h.held pair).move m

def State.Increasing (s : State) : Prop := ∀ pair, (s.ledger pair).Increasing

def Call.inserting (c : Call) : Bool :=
  match c.phase with
  | .insert _ => true
  | _ => false

-- A row that is inserted where there is none carries an epoch above all the
-- pair has had before.
def FreshInsert (s : State) : Label → Prop
  | .write i => ∀ c ∈ s.calls[i]?, c.inserting → s.leases.get c.request.pair = none →
      ∀ earlier ∈ (s.ledger c.request.pair).issued, earlier < c.request.connectionEpoch
  | _ => True

instance (s : State) (label : Label) : Decidable (FreshInsert s label) := by
  cases label <;> dsimp only [FreshInsert] <;> infer_instance

theorem freshInsert_iff (s : State) (label : Label) : FreshInsert s label ↔ ∀ pair epoch, Inserts s label pair epoch →
      ∀ earlier ∈ (s.ledger pair).issued, earlier < epoch := by
  constructor
  · rintro h pair epoch ⟨i, c, now, rfl, hc, hp, rfl, rfl, hn⟩
    exact h c hc (by simp [inserting, hp]) hn
  · intro h
    cases label with
    | write i =>
      intro c hc hi hn
      simp only [inserting] at hi
      split at hi
      · rename_i now hp; exact h _ _ ⟨i, c, now, rfl, hc, hp, rfl, rfl, hn⟩
      · cases hi
    | _ => trivial

theorem increasing_step_iff (h : Inv s) (hi : s.Increasing) (hs : step rowLocks s label = some next) :
    next.Increasing ↔ FreshInsert s label := by
  rw [freshInsert_iff]
  constructor
  · intro hn pair epoch hinserts
    have hp := hn pair
    rw [ledger_of_inserts hinserts hs, increasing_issue_iff] at hp
    exact hp.2
  · intro hf pair
    obtain ⟨m, hm, hissue⟩ := step_refines h.raises hs pair
    rw [hm]
    cases m with
    | keep | drop => exact hi pair
    | issue epoch =>
      rcases hissue epoch rfl with ⟨old, hc, hlt⟩ | hinserts
      · exact (hi pair).issue (h.held pair) hc hlt
      · exact (increasing_issue_iff epoch).mpr ⟨hi pair, hf pair epoch hinserts⟩

theorem increasing_iff_freshInsert (rowLocks : Bool) (labels : List Label) :
    Always (step rowLocks) Increasing init labels ↔ Along (step rowLocks) FreshInsert init labels := by
  have hinv : ∀ s label next, Inv s → step rowLocks s label = some next → Inv next :=
    fun s label next h hs => h.step hs
  refine always_iff_along hinv ?_ init labels inv_init fun pair => List.Pairwise.nil
  exact fun s label next h hi hs => increasing_step_iff h hi hs

theorem stale_finds_no_row (h : Inv s) (hi : s.Increasing)
    (he : epoch ∈ (s.ledger (agentID, connectionID)).issued.dropLast) (lease : AgentLease)
    (hget : s.leases.get (agentID, connectionID) = some lease) :
    lease.heldAt (agentID, connectionID) epoch = false := by
  have hne := (hi (agentID, connectionID)).current_ne (h.held _) he
  simp only [ledger, hget, map_some, ne_eq, some.injEq] at hne
  simp [AgentLease.heldAt, hne]

theorem stale_fails (h : Inv s) (hi : s.Increasing)
    (he : epoch ∈ (s.ledger (agentID, connectionID)).issued.dropLast) (now : ℕ) (ttl activeStreams healthScore : ℤ) :
    renewConnection s.leases agentID connectionID epoch ttl now = none ∧
      releaseConnection s.leases agentID connectionID epoch = none ∧
      updateConnectionStats s.leases agentID connectionID epoch activeStreams healthScore now = none := by
  have hf := stale_finds_no_row h hi he
  have ha := (s.leases.affected_eq_zero_iff (key_of_activeAt (agentID, connectionID) epoch now)).mpr
    (fun lease hget => by simp [AgentLease.activeAt, hf lease hget])
  have hh := (s.leases.affected_eq_zero_iff (key_of_heldAt (agentID, connectionID) epoch)).mpr hf
  simp [renewConnection, releaseConnection, updateConnectionStats, ha, hh]

end TunnelMesh.Storage.Registration
