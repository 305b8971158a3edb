import TunnelMesh.Vpn.SubnetLease

namespace TunnelMesh.Vpn.SubnetLease

open Storage Interleaving Call Store Text Option List Config

def Store.Exclusive (store : Store) : Prop :=
  ∀ a ∈ store.leases.rows, ∀ b ∈ store.leases.rows, a.subnet = b.subnet →
    store.clock < a.leaseExpiresAt → store.clock < b.leaseExpiresAt → a.leaseHolder = b.leaseHolder
  deriving Decidable

def Store.holds (store : Store) (nodeID : String) (subnet : IPNet) : Bool :=
  store.leases.rows.any fun row =>
    row.leaseHolder = nodeID && row.subnet = subnet && store.clock < row.leaseExpiresAt

-- Peers of different nodes have different addresses while both leases live.
def Store.DistinctAddresses (store : Store) : Prop :=
  ∀ p ∈ store.issued, ∀ q ∈ store.issued, p.nodeID ≠ q.nodeID →
    store.holds p.nodeID p.subnet → store.holds q.nodeID q.subnet → p.vpnIP ≠ q.vpnIP
  deriving Decidable

def Store.SkipsForeign (store : Store) : Prop :=
  ∀ grant ∈ store.grants, ∀ row ∈ grant.foreign, row.leaseExpiresAt ≤ grant.now
  deriving Decidable

def Store.Separate (store : Store) : Prop :=
  store.Exclusive ∧ store.DistinctAddresses ∧ store.SkipsForeign

-- The call is before a transaction that writes a lease: a `Renew` that finds its
-- row, or an acquisition.
def Call.leasing (c : Call) (leases : IPLeaseTable) : Bool :=
  match c.phase with
  | .renew lease _ _ =>
    0 < leases.affected (VPNIPLease.fenced (c.nodeID, lease.subnet) c.nodeID lease.epoch)
  | .reacquire _ _ _ | .scan _ _ _ => true
  | _ => false

-- A node leases only when no other node has an unexpired lease, on any subnet.
def Alone (store : Store) (c : Call) : Input → Prop
  | .run now => c.leasing store.leases →
      ∀ row ∈ store.leases.rows, row.leaseHolder ≠ c.nodeID → row.leaseExpiresAt ≤ now
  | .fail => True

variable (config : Config)

def Store.OnFirst (store : Store) : Prop :=
  ∀ row ∈ store.leases.rows, row.subnet = config.pool.first ∧ row.leaseHolder = row.nodeID

def Phase.OnFirst : Phase → Prop
  | .renew lease subnet held =>
    lease.subnet = config.pool.first ∧ subnet = config.pool.first ∧ ∀ other ∈ held, other.subnet = config.pool.first
  | .reacquire subnet held _ =>
    subnet = config.pool.first ∧ ∀ other ∈ held, other.subnet = config.pool.first
  | .scan subnet _ _ => subnet = config.pool.first
  | _ => True

def Call.OnFirst (c : Call) : Prop :=
  (∃ e, c.phase = .failed e) ∨ (trimSpace c.nodeID ≠ "" ∧ c.phase.OnFirst config)

theorem Call.onFirst_of_phase {config : Config} {c : Call} (hn : trimSpace c.nodeID ≠ "")
    {phase : Phase} (hp : phase.OnFirst config) : OnFirst config { c with phase } :=
  Or.inr ⟨hn, hp⟩

theorem begin_onFirst (v : Request) : (begin v).OnFirst config := by
  by_cases hb : trimSpace v.nodeID = ""
  · exact Or.inl ⟨.noNodeID, by simp [begin, hb]⟩
  · refine Or.inr ⟨?_, ?_⟩
    · simpa [begin, trimSpace_trimSpace] using hb
    · simp [begin, hb, Phase.OnFirst]

theorem next_onFirst (held : List VPNIPLease)
    (hh : ∀ lease ∈ held, lease.subnet = config.pool.first) : (config.next held).OnFirst config := by
  cases held with
  | nil =>
    obtain ⟨rest, hs⟩ := config.pool.subnets_eq_cons
    simp [Config.next, hs, scan, Phase.OnFirst]
  | cons lease held =>
    have hl := hh lease mem_cons_self
    have hr : ∀ other ∈ held, other.subnet = config.pool.first :=
      fun other ho => hh other (mem_cons_of_mem _ ho)
    simp only [Config.next, hl, Pool.nodeSubnet_first]
    exact ⟨hl, rfl, hr⟩

structure Store.Keeps (store next : Store) : Prop where
  clock : store.clock ≤ next.clock
  grants : next.grants = store.grants
  rows : ∀ row ∈ next.leases.rows, ∃ old ∈ store.leases.rows, row.SameClaim old

theorem Store.Keeps.of_leases_eq {store next : Store} (hc : store.clock ≤ next.clock)
    (hg : next.grants = store.grants) (hl : next.leases = store.leases) : store.Keeps next :=
  ⟨hc, hg, fun row hrow => ⟨row, hl ▸ hrow, rfl, rfl, rfl⟩⟩

theorem Store.Keeps.refl (store : Store) : store.Keeps store :=
  .of_leases_eq le_rfl rfl rfl

structure Store.Leases (store : Store) (c : Call) (now : ℕ) (next : Store) (row : VPNIPLease)
    (leases : IPLeaseTable) : Prop where
  eq : next = store.grant c.nodeID config.pool.first now leases
  puts : store.leases.Puts row leases
  key : row.key = (c.nodeID, config.pool.first)
  holder : row.leaseHolder = c.nodeID

theorem acquire_onFirst {config : Config} {store : Store} (hs : store.OnFirst config)
    (hn : trimSpace c.nodeID ≠ "") (now attempt : ℕ) (again : ℕ → Phase) (held : Phase) :
    (store.acquire c config.pool.first now attempt again held).2.OnFirst config ∧ ∃ row leases,
        store.Leases config c now (store.acquire c config.pool.first now attempt again held).1 row leases := by
  have hown : ∀ row, store.leases.get (c.nodeID, config.pool.first) = some row → row.leaseHolder = c.nodeID := by
    intro row hget
    obtain ⟨hmem, hkey⟩ := (store.leases.get_eq_some_iff _ _).mp hget
    exact (hs row hmem).2.trans (congrArg Prod.fst hkey)
  obtain ⟨row, leases, ha, hkey, hh, -, hp⟩ := tryAcquireSubnet_own store.leases c.nodeID
    config.pool.first now (now + ttlOrMinute c.ttl) hown
  have heq : store.acquire c config.pool.first now attempt again held =
      (store.grant c.nodeID config.pool.first now leases, { c with phase := .probe row config.pool.first 2 }) := by
    simp [acquire, validateVPNIPLease, hn, ha]
  rw [heq]
  exact ⟨Or.inr ⟨hn, trivial⟩, row, leases, rfl, hp, hkey, hh⟩

theorem addAllocated_onFirst (store : Store)
    (hn : trimSpace c.nodeID ≠ "") (lease : VPNIPLease) (delta : ℤ) (now attempt : ℕ)
    (again : ℕ → Phase) (done : Phase) (failed : IPLeaseError → Phase)
    (ha : ∀ n, (again n).OnFirst config) (hd : done.OnFirst config) (hf : ∀ e, (failed e).OnFirst config) :
    store.Keeps (store.addAllocated c lease delta now attempt again done failed).1 ∧
      (store.addAllocated c lease delta now attempt again done failed).2.OnFirst config := by
  simp only [addAllocated]
  split
  · rename_i total leases hadd; exact ⟨⟨le_rfl, rfl, tryAddAllocated_eq_ok hadd⟩, Or.inr ⟨hn, hd⟩⟩
  · split_ifs
    · exact ⟨.refl store, Or.inr ⟨hn, ha (attempt + 1)⟩⟩
    · exact ⟨.refl store, Or.inr ⟨hn, hf _⟩⟩
  · exact ⟨.refl store, Or.inr ⟨hn, hf _⟩⟩

theorem broken_onFirst {config : Config} {c : Call} (hc : c.OnFirst config) {phase : Phase}
    (h : c.phase.broken c.nodeID = some phase) : OnFirst config { c with phase } := by
  rcases hc with ⟨e, hf⟩ | ⟨hn, hp⟩
  · simp [hf, Phase.broken] at h
  refine Or.inr ⟨hn, ?_⟩
  cases hat : c.phase with
  | renew lease subnet held =>
    rw [hat] at h hp
    cases h
    exact ⟨hp.2.1, hp.2.2⟩
  | issued | failed => simp [hat, Phase.broken] at h
  | _ =>
    rw [hat] at h
    cases h
    trivial

-- What a move of a call does. Either it writes no lease, and it did not stand
-- before a transaction that would, or it leases the first subnet.
theorem move_cases {config : Config} {store next : Store}
    (hstore : store.OnFirst config) (hc : c.OnFirst config) (h : move config store c input = some (next, moved)) :
    moved.OnFirst config ∧ ((store.Keeps next ∧ Alone store c input) ∨
        ∃ now row leases, input = .run now ∧ now ≤ store.clock ∧ c.leasing store.leases ∧
          store.Leases config c now next row leases) := by
  cases input with
  | fail =>
    simp only [move, map_eq_some_iff] at h
    obtain ⟨phase, hb, heq⟩ := h
    cases heq
    exact ⟨broken_onFirst hc hb, Or.inl ⟨.refl store, trivial⟩⟩
  | run now =>
    simp only [move, ite_none_right_eq_some] at h
    obtain ⟨hnow, h⟩ := h
    rcases hc with ⟨e, hf⟩ | ⟨hn, hp⟩
    · simp [run, hf] at h
    unfold run at h
    cases hat : c.phase with
    | list =>
      simp only [hat, some.injEq, Prod.mk.injEq] at h
      obtain ⟨rfl, rfl⟩ := h
      have hh : ∀ lease ∈ listByHolder store.leases c.nodeID, lease.subnet = config.pool.first :=
        fun lease hl => (hstore lease (mem_listByHolder hl)).1
      have hnext := next_onFirst config _ hh
      refine ⟨onFirst_of_phase hn hnext, Or.inl ⟨.refl store, ?_⟩⟩
      simp [Alone, leasing, hat]
    | renew lease subnet held =>
      simp only [hat] at h hp
      obtain ⟨hl, hs, hh⟩ := hp
      rw [hl] at h
      split at h
      · rename_i leases hr
        cases h
        obtain ⟨hpos, row, hkey, hholder, -, hputs⟩ := renewSubnet_eq_ok hr
        exact ⟨Or.inr ⟨hn, trivial⟩, Or.inr ⟨now, row, leases, rfl, hnow,
          by simpa [leasing, hat, hl] using hpos, rfl, hputs, hkey, hholder⟩⟩
      · rename_i e hr
        cases h
        refine ⟨Or.inr ⟨hn, hs, hh⟩, Or.inl ⟨.refl store, ?_⟩⟩
        intro hleasing
        have hpos : 0 < store.leases.affected
            (VPNIPLease.fenced (c.nodeID, config.pool.first) c.nodeID lease.epoch) := by
          simpa [leasing, hat, hl] using hleasing
        simp [renewSubnet, hn, hpos] at hr
    | reacquire subnet held attempt =>
      simp only [hat] at h hp
      have ha := acquire_onFirst hstore hn now attempt (.reacquire subnet held) (config.next held)
      rw [← hp.1, some.inj h] at ha
      obtain ⟨hm, row, leases, hleases⟩ := ha
      exact ⟨hm, Or.inr ⟨now, row, leases, rfl, hnow, by simp [leasing, hat], hleases⟩⟩
    | scan subnet rest attempt =>
      simp only [hat] at h hp
      have hs : subnet = config.pool.first := hp
      have ha := acquire_onFirst hstore hn now attempt (.scan subnet rest) (config.scan rest)
      rw [← hs, some.inj h] at ha
      obtain ⟨hm, row, leases, hleases⟩ := ha
      exact ⟨hm, Or.inr ⟨now, row, leases, rfl, hnow, by simp [leasing, hat], hleases⟩⟩
    | probe lease subnet offset =>
      simp only [hat, some.injEq, Prod.mk.injEq] at h
      obtain ⟨rfl, rfl⟩ := h
      have hprobe : (config.probe store c lease subnet offset).OnFirst config := by
        simp only [probe]
        split
        · trivial
        split_ifs
        · trivial
        · trivial
        · trivial
      refine ⟨onFirst_of_phase hn hprobe, Or.inl ⟨.refl store, ?_⟩⟩
      simp [Alone, leasing, hat]
    | count lease address attempt =>
      simp only [hat, some.injEq] at h
      have hadd := addAllocated_onFirst config store hn lease 1 now attempt
        (.count lease address) (.create lease address) (fun e => .failed (.lease c.nodeID e))
        (fun _ => trivial) trivial (fun _ => trivial)
      rw [h] at hadd
      exact ⟨hadd.2, Or.inl ⟨hadd.1, by simp [Alone, leasing, hat]⟩⟩
    | create lease address =>
      simp only [hat, create] at h
      split at h
      · cases h
        exact ⟨Or.inr ⟨hn, trivial⟩, Or.inl ⟨.refl store, by simp [Alone, leasing, hat]⟩⟩
      · cases h
        exact ⟨Or.inr ⟨hn, trivial⟩, Or.inl ⟨.of_leases_eq le_rfl rfl rfl, by simp [Alone, leasing, hat]⟩⟩
    | giveBack lease e attempt =>
      simp only [hat, some.injEq] at h
      have hadd := addAllocated_onFirst config store hn lease (-1) now attempt
        (.giveBack lease e) (.failed e) (fun _ => .failed e)
        (fun _ => trivial) trivial (fun _ => trivial)
      rw [h] at hadd
      exact ⟨hadd.2, Or.inl ⟨hadd.1, by simp [Alone, leasing, hat]⟩⟩
    | issued | failed => simp [hat] at h

section Steps

variable {config : Config} {store next : Store}

theorem Store.Keeps.onFirst (h : store.Keeps next) (hstore : store.OnFirst config) : next.OnFirst config := by
  intro row hrow
  obtain ⟨old, hold, hkey, hh, -⟩ := h.rows row hrow
  obtain ⟨hsubnet, hn⟩ := hstore old hold
  have hs := Prod.mk.inj hkey
  exact ⟨hs.2.trans hsubnet, by rw [hh, hn, hs.1]⟩

theorem Store.Keeps.exclusive (h : store.Keeps next) (he : store.Exclusive) : next.Exclusive := by
  intro a ha b hb hs hlivea hliveb
  obtain ⟨olda, ho, hk, hh, hexpirya⟩ := h.rows a ha
  obtain ⟨oldb, holdb, hkeyb, hholderb, hexpiryb⟩ := h.rows b hb
  have hclock := h.clock
  have hsame : olda.subnet = oldb.subnet := by
    rw [← (Prod.mk.inj hk).2, ← (Prod.mk.inj hkeyb).2, hs]
  have hholder := he olda ho oldb holdb hsame (by omega) (by omega)
  rw [hh, hholderb, hholder]

theorem Store.Keeps.skipsForeign (h : store.Keeps next) (hs : store.SkipsForeign) : next.SkipsForeign := by
  unfold SkipsForeign
  rw [h.grants]
  exact hs

variable {leases : IPLeaseTable}

theorem Store.Leases.rows (h : store.Leases config c now next row leases) (other : VPNIPLease) :
    other ∈ next.leases.rows ↔ other = row ∨ (other ∈ store.leases.rows ∧ row.key ≠ other.key) := by
  rw [h.eq]
  exact h.puts.mem_rows_iff other

theorem Store.Leases.onFirst (h : store.Leases config c now next row leases)
    (hstore : store.OnFirst config) : next.OnFirst config := by
  intro other ho
  rcases (h.rows other).mp ho with rfl | ⟨hold, -⟩
  · obtain ⟨hn, hs⟩ := Prod.mk.inj h.key; exact ⟨hs, h.holder.trans hn.symm⟩
  · exact hstore other hold

theorem mem_foreign_iff (hs : store.OnFirst config) (nodeID : String) (other : VPNIPLease) :
    other ∈ store.foreign nodeID config.pool.first ↔ other ∈ store.leases.rows ∧ other.leaseHolder ≠ nodeID := by
  simp only [foreign, mem_filter, Bool.and_eq_true, decide_eq_true_eq]
  constructor
  · exact fun h => ⟨h.1, h.2.2⟩
  · exact fun h => ⟨h.1, (hs other h.1).1, h.2⟩

theorem Store.Leases.skipsForeign_iff (h : store.Leases config c now next row leases)
    (hs : store.OnFirst config) (hskips : store.SkipsForeign) : next.SkipsForeign ↔
      ∀ other ∈ store.leases.rows, other.leaseHolder ≠ c.nodeID → other.leaseExpiresAt ≤ now := by
  have hg : next.grants =
      store.grants ++ [⟨c.nodeID, config.pool.first, now, store.foreign c.nodeID config.pool.first⟩] := by
    rw [h.eq]
    rfl
  unfold SkipsForeign
  rw [hg]
  constructor
  · intro hall other hmem hh
    exact hall _ (mem_append_right _ mem_cons_self) other
      ((mem_foreign_iff hs c.nodeID other).mpr ⟨hmem, hh⟩)
  · intro ha grant hgrant other ho
    rcases mem_append.mp hgrant with hold | hnew
    · exact hskips grant hold other ho
    · obtain rfl := mem_singleton.mp hnew
      obtain ⟨hmem, hh⟩ := (mem_foreign_iff hs c.nodeID other).mp ho
      exact ha other hmem hh

theorem Store.Leases.exclusive (h : store.Leases config c now next row leases) (hnow : now ≤ store.clock)
    (halone : ∀ other ∈ store.leases.rows, other.leaseHolder ≠ c.nodeID → other.leaseExpiresAt ≤ now) :
    next.Exclusive := by
  have hclock : next.clock = store.clock := by rw [h.eq]; rfl
  have hl : ∀ other ∈ next.leases.rows, next.clock < other.leaseExpiresAt → other.leaseHolder = c.nodeID := by
    intro other ho hexpiry
    rcases (h.rows other).mp ho with rfl | ⟨hold, -⟩
    · exact h.holder
    · by_contra hh
      have hended := halone other hold hh
      omega
  intro a ha b hb _ hlivea hliveb
  rw [hl a ha hlivea, hl b hb hliveb]

end Steps

theorem holds_iff (store : Store) (nodeID : String) (subnet : IPNet) :
    store.holds nodeID subnet ↔ ∃ row ∈ store.leases.rows,
      row.leaseHolder = nodeID ∧ row.subnet = subnet ∧ store.clock < row.leaseExpiresAt := by
  simp [holds, and_assoc]

theorem distinctAddresses_of_exclusive {config : Config} {store : Store} (hs : store.OnFirst config)
    (he : store.Exclusive) : store.DistinctAddresses := by
  intro p hp q hq hn hholdsp hholdsq
  obtain ⟨a, ha, hh, -, hl⟩ := (holds_iff store _ _).mp hholdsp
  obtain ⟨b, hb, hholderb, -, hliveb⟩ := (holds_iff store _ _).mp hholdsq
  have hsubnet : a.subnet = b.subnet := (hs a ha).1.trans (hs b hb).1.symm
  have hsame := he a ha b hb hsubnet hl hliveb
  exact absurd (hh.symm.trans (hsame.trans hholderb)) hn

theorem separate_iff {config : Config} {store : Store} (hs : store.OnFirst config) :
    store.Separate ↔ store.Exclusive ∧ store.SkipsForeign :=
  ⟨fun h => ⟨h.1, h.2.2⟩, fun h => ⟨h.1, distinctAddresses_of_exclusive hs h.1, h.2⟩⟩

def Inv : State Store Call → Prop :=
  Holds (OnFirst config) fun _ c => c.OnFirst config

theorem inv_step (s : State Store Call) (label : Label Request Input ℕ) (next : State Store Call)
    (h : Inv config s) (hstep : (system config).step s label = some next) : Inv config next := by
  apply Holds.step ?_ ?_ ?_ h (onMoves_of_forall (fun _ _ _ => trivial) s label) hstep
  · intro store request hs; exact begin_onFirst config request
  · intro store c input store' moved hs hc _ hmove
    obtain ⟨hm, ⟨hk, -⟩ | ⟨now, row, leases, -, -, -, hl⟩⟩ := move_cases hs hc hmove
    · exact ⟨hk.onFirst hs, hm, fun _ hq => hq⟩
    · exact ⟨hl.onFirst hs, hm, fun _ hq => hq⟩
  · intro store elapsed store' hs he
    cases he
    exact ⟨hs, fun _ hq => hq⟩

theorem separate_step_iff (s : State Store Call) (label : Label Request Input ℕ) (next : State Store Call)
    (h : Inv config s) (hg : s.store.Separate) (hs : (system config).step s label = some next) :
    next.store.Separate ↔ OnMoves Alone s label := by
  have hn := inv_step config s label next h hs
  rw [separate_iff hn.store]
  cases label with
  | start request => rw [step_start_eq_some hs]; exact iff_of_true ⟨hg.1, hg.2.2⟩ trivial
  | event elapsed =>
    obtain ⟨store, he, rfl⟩ := step_event_eq_some hs
    cases he
    have hk : s.store.Keeps { s.store with clock := s.store.clock + elapsed } :=
      .of_leases_eq (Nat.le_add_right _ _) rfl rfl
    exact iff_of_true ⟨hk.exclusive hg.1, hk.skipsForeign hg.2.2⟩ trivial
  | move i input =>
    obtain ⟨c, store, moved, hc, hm, rfl⟩ := step_move_eq_some hs
    simp only [OnMoves, hc, mem_def, some.injEq, forall_eq']
    obtain ⟨-, ⟨hk, ha⟩ | ⟨now, row, leases, rfl, hnow, hl, hleases⟩⟩ :=
      move_cases h.store (h.procs c (mem_of_getElem? hc)) hm
    · exact iff_of_true ⟨hk.exclusive hg.1, hk.skipsForeign hg.2.2⟩ ha
    · rw [hleases.skipsForeign_iff h.store hg.2.2]
      constructor
      · exact fun hb _ => hb.2
      · intro ha; exact ⟨hleases.exclusive hnow (ha hl), ha hl⟩

theorem nodes_separate_iff_alone (config : Config) (labels : List (Interleaving.Label Request Input ℕ)) :
    Transition.Always (system config).step (fun s => s.store.Separate) init labels ↔
      Transition.Along (system config).step (Interleaving.OnMoves Alone) init labels := by
  apply Transition.always_iff_along (inv_step config) (separate_step_iff config)
  · constructor
    · simp [init, Store.OnFirst, Table.empty]
    · simp [init]
  · simp [init, Store.Separate, Store.Exclusive, Store.DistinctAddresses, Store.SkipsForeign, Table.empty]

def sampleConfig : Config where
  ipPool := "10.64.0.0/16"
  pool :=
    { network := ⟨10 * 2 ^ 24 + 64 * 2 ^ 16, 16, by decide⟩
      size := 24
      ones_le := by decide
      ones_lt := by decide
      size_le := by decide
      count_le := by decide
      canonical := by decide }

def collidingRun : List (Label Request Input ℕ) :=
  [.start ⟨"a", 0⟩, .start ⟨"b", 0⟩, .move 0 (.run 0), .move 0 (.run 0), .move 0 (.run 0), .move 0 (.run 0),
    .move 0 (.run 0), .move 1 (.run 0), .move 1 (.run 0), .move 1 (.run 0), .move 1 (.run 0),
    .move 1 (.run 0)]

theorem two_nodes_lease_first_subnet : ∃ s, Transition.run (system sampleConfig).step init collidingRun = some s ∧
      ¬ s.store.Exclusive ∧ ¬ s.store.DistinctAddresses ∧ ¬ s.store.SkipsForeign := by
  apply Transition.exists_run_of_any
  decide

end TunnelMesh.Vpn.SubnetLease
