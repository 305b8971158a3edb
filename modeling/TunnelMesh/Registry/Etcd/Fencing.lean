import TunnelMesh.Fencing
import TunnelMesh.Registry.Etcd
import TunnelMesh.Separated

namespace TunnelMesh.Registry.Etcd

open TunnelMesh.Fencing TunnelMesh.Revisioned TunnelMesh.Storage List Separated

def Plain (id : String) : Prop := '/' ∉ id.toList
  deriving Decidable

section Keys

variable (root : String)

theorem toList_connectionKey (pair : String × String) :
    (agentConnectionKey root pair).toList = root.toList ++ "/agents/".toList ++
      (pair.1.toList ++ '/' :: ("connections/".toList ++ pair.2.toList)) := by
  simp [agentConnectionKey, agentConnectionsPrefix]

theorem toList_epochKey (pair : String × String) :
    (agentConnectionEpochKey root pair).toList = root.toList ++ "/agents/".toList ++
      (pair.1.toList ++ '/' :: ("connection-epochs/".toList ++ pair.2.toList)) := by
  simp [agentConnectionEpochKey]

theorem toList_nodeKey (id : String) : (nodeKey root id).toList = root.toList ++ ("/nodes/".toList ++ id.toList) := by
  simp [nodeKey]

variable {root} {p q : String × String} (hp : Plain p.1) (hq : Plain q.1)

include hp hq

theorem connectionKey_inj : agentConnectionKey root p = agentConnectionKey root q ↔ p = q := by
  rw [← String.toList_inj, toList_connectionKey, toList_connectionKey, append_cancel_left_eq,
    append_cons_inj hp hq, append_cancel_left_eq, String.toList_inj,
    String.toList_inj, Prod.ext_iff]

theorem epochKey_inj : agentConnectionEpochKey root p = agentConnectionEpochKey root q ↔ p = q := by
  rw [← String.toList_inj, toList_epochKey, toList_epochKey, append_cancel_left_eq,
    append_cons_inj hp hq, append_cancel_left_eq, String.toList_inj,
    String.toList_inj, Prod.ext_iff]

theorem connectionKey_ne_epochKey : agentConnectionKey root p ≠ agentConnectionEpochKey root q := by
  rw [ne_eq, ← String.toList_inj, toList_connectionKey, toList_epochKey,
    append_cancel_left_eq, append_cons_inj hp hq]
  simp

omit hp hq

theorem connectionKey_ne_nodeKey (id : String) : agentConnectionKey root p ≠ nodeKey root id := by
  rw [ne_eq, ← String.toList_inj, toList_connectionKey, toList_nodeKey, append_assoc, append_cancel_left_eq]
  simp

theorem epochKey_ne_nodeKey (id : String) : agentConnectionEpochKey root p ≠ nodeKey root id := by
  rw [ne_eq, ← String.toList_inj, toList_epochKey, toList_nodeKey, append_assoc, append_cancel_left_eq]
  simp

end Keys

end TunnelMesh.Registry.Etcd

namespace TunnelMesh.Registry.Etcd

open TunnelMesh.Fencing TunnelMesh.Revisioned TunnelMesh.Storage Call Store State Etcd Value Ledger Option Transition

variable {root : String} {pair : String × String} {s : State} {owner : NodeOwner}

-- What the store and the history say about one pair: the epoch of the owner
-- under its connection key, and the epochs of its registrations.
def State.ledger (root : String) (s : State) (pair : String × String) : Ledger ℤ where
  current := ((s.store.entries (agentConnectionKey root pair)).bind (·.value.unmarshal)).map (·.epoch)
  issued := (s.registrations.filter fun owner => owner.pair = pair).map (·.epoch)

def Call.carries : Call → Option ((String × String) × ℤ × Option ℕ)
  | .keepAlive owner seen => some (owner.pair, owner.epoch, seen)
  | .kept owner seen => some (owner.pair, owner.epoch, seen)
  | .stats value pair seen => some (pair, value.epoch, seen)
  | .revoking owner seen => some (owner.pair, owner.epoch, seen)
  | _ => none

def EtcdStore.Fences (root : String) (store : EtcdStore) (pair : String × String) (epoch : ℤ) (seen : Option ℕ) : Prop :=
  Plain pair.1 ∧ ∃ value, store.Saw (agentConnectionKey root pair) seen (some (.owner value)) ∧ value.epoch = epoch

-- What a call has read is still what the store says at that revision.
def Call.Sound (root : String) (store : EtcdStore) : Call → Prop
  | .granted req _ | .sawConnection req _ _ => Plain req.agentID
  | .sawEpoch req _ _ oldEpoch seenEpoch => Plain req.agentID ∧
      ∃ value, store.Saw (agentConnectionEpochKey root req.pair) seenEpoch value ∧ oldEpoch = (value.map scan).getD 0
  | .keepAlive owner seen | .kept owner seen | .revoking owner seen => store.Fences root owner.pair owner.epoch seen
  | .stats value pair seen => store.Fences root pair value.epoch seen
  | .returned _ => True

theorem Call.Sound.fences {store : EtcdStore} {c : Call} {epoch : ℤ}
    (h : c.Sound root store) (hc : c.carries = some (pair, epoch, seen)) : store.Fences root pair epoch seen := by
  cases c with
  | keepAlive | kept | stats | revoking => cases hc; exact h
  | _ => cases hc

theorem EtcdStore.Fences.follows {store next : EtcdStore} {epoch : ℤ} (h : store.Fences root pair epoch seen)
    (hf : store.Follows next) : EtcdStore.Fences root next pair epoch seen := by
  obtain ⟨hp, value, hsaw, he⟩ := h
  exact ⟨hp, value, hsaw.follows hf, he⟩

theorem Call.Sound.follows {store next : EtcdStore} {c : Call}
    (h : c.Sound root store) (hf : store.Follows next) : c.Sound root next := by
  cases c with
  | granted | sawConnection | returned => exact h
  | sawEpoch =>
    obtain ⟨hp, value, hsaw, hold⟩ := h
    exact ⟨hp, value, hsaw.follows hf, hold⟩
  | keepAlive | kept | stats | revoking => exact EtcdStore.Fences.follows h hf

-- The epoch key of a pair holds the last epoch issued, and is tied to no lease.
def Counts (root : String) (s : State) (pair : String × String) : Prop :=
  (s.store.entries (agentConnectionEpochKey root pair)).map (fun entry => (entry.value, entry.lease)) =
    (s.ledger root pair).issued.getLast?.map fun epoch => (.epoch epoch, none)

structure Inv (root : String) (s : State) : Prop where
  numbered : s.store.Numbered
  sound : ∀ c ∈ s.calls, c.Sound root s.store
  counts : ∀ pair, Plain pair.1 → Counts root s pair
  held : ∀ pair, Plain pair.1 → (s.ledger root pair).Held
  increasing : ∀ pair, Plain pair.1 → (s.ledger root pair).Increasing

theorem inv_init (root : String) : Inv root init where
  numbered := numbered_empty
  sound := by simp [init]
  counts := by simp [init, Counts, ledger, empty]
  held := by simp [init, ledger, Held, empty]
  increasing := by simp [init, ledger, Increasing]

def Call.oldEpoch : Call → Option ℤ
  | .sawEpoch _ _ _ oldEpoch _ => some oldEpoch
  | _ => none

-- The ids of the calls do not break the keys apart, and no counter has reached
-- the largest int64.
def Regular (s : State) : Label → Prop
  | .register req => Plain req.agentID
  | .keepAlive owner => Plain owner.agentID
  | .updateConnectionStats owner => Plain owner.agentID
  | .revoke owner => Plain owner.agentID
  | .commitRegister i _ => ∀ c ∈ s.calls[i]?, ∀ oldEpoch ∈ c.oldEpoch,
      int64 (oldEpoch + 1) = oldEpoch + 1
  | _ => True

instance (s : State) (label : Label) : Decidable (Regular s label) := by
  cases label <;> dsimp only [Regular] <;> infer_instance

theorem Inv.append (h : Inv root s) (hc : c.Sound root s.store) (granted : ℕ) :
    Inv root { s with granted, calls := s.calls ++ [c] } := by
  refine { h with sound := fun other hmem => ?_ }
  rcases List.mem_append.mp hmem with hold | hnew
  · exact h.sound other hold
  · exact List.mem_singleton.mp hnew ▸ hc

theorem Inv.setCall (h : Inv root s) (i : ℕ) (hc : c.Sound root s.store) : Inv root (s.setCall i c) := by
  refine { h with sound := fun other hmem => ?_ }
  rcases List.mem_or_eq_of_mem_set hmem with hold | rfl
  · exact h.sound other hold
  · exact hc

theorem Inv.setStore (h : Inv root s) {store : EtcdStore} (hf : s.store.Follows store)
    (hepoch : ∀ pair, Plain pair.1 → store.entries (agentConnectionEpochKey root pair) =
      s.store.entries (agentConnectionEpochKey root pair))
    (hcurrent : ∀ pair, Plain pair.1 → (ledger root { s with store } pair).current = none ∨
      (ledger root { s with store } pair).current = (s.ledger root pair).current) :
    Inv root { s with store } where
  numbered := hf.numbered h.numbered
  sound := fun c hc => (h.sound c hc).follows hf
  counts := by
    intro pair hp
    simp only [Counts, hepoch pair hp]
    exact h.counts pair hp
  held := by
    intro pair hp epoch he
    rcases hcurrent pair hp with hn | hs
    · simp [hn] at he
    · exact h.held pair hp epoch (hs ▸ he)
  increasing := h.increasing

theorem entries_putOwner (root : String) (s : State) (pair : String × String) (owner : NodeOwner)
    (key : String) (hn : key ≠ nodeKey root owner.serverNodeID) :
    (s.putOwner root pair owner).entries key =
      if key = agentConnectionKey root pair then
        some ⟨.owner owner, s.store.revision + 1, some owner.leaseID⟩
      else s.store.entries key := by simp [putOwner, puts, putAt, Function.update_apply, hn]

theorem Inv.putOwner (h : Inv root s) (hp : Plain pair.1)
    (hv : (s.store.entries (agentConnectionKey root pair)).map (·.value) = some (.owner value))
    (hepoch : value.epoch = owner.epoch) : Inv root { s with store := s.putOwner root pair owner } := by
  have hf : s.store.Follows (s.putOwner root pair owner) := follows_puts _
  refine h.setStore hf ?_ ?_
  · intro other ho
    rw [entries_putOwner root s pair owner _ (epochKey_ne_nodeKey _),
      if_neg (connectionKey_ne_epochKey hp ho).symm]
  · intro other ho
    right
    simp only [ledger]
    rw [entries_putOwner root s pair owner _ (connectionKey_ne_nodeKey _)]
    by_cases hpair : other = pair
    · subst hpair
      obtain ⟨entry, hentry, hown⟩ := map_eq_some_iff.mp hv
      simp [hentry, hown, unmarshal, hepoch]
    · rw [if_neg (fun he => hpair ((connectionKey_inj ho hp).mp he))]

theorem Inv.deleteOwner (h : Inv root s) (hp : Plain pair.1) :
    Inv root { s with store := s.store.delete (agentConnectionKey root pair) } := by
  apply h.setStore (follows_delete _)
  · intro other ho; simp [delete, (connectionKey_ne_epochKey hp ho).symm]
  · intro other ho
    by_cases hpair : other = pair
    · subst hpair; exact Or.inl (by simp [ledger, delete])
    · have hne : agentConnectionKey root other ≠ agentConnectionKey root pair :=
        fun he => hpair ((connectionKey_inj ho hp).mp he)
      exact Or.inr (by simp [ledger, delete, hne])

theorem Inv.endLease (h : Inv root s) (lease : ℕ) : Inv root { s with store := s.store.endLease lease } := by
  apply h.setStore (Store.follows_endLease lease)
  · intro pair hp
    have hc := h.counts pair hp
    simp only [Counts] at hc
    cases he : s.store.entries (agentConnectionEpochKey root pair) with
    | none => simp [Store.endLease, he]
    | some entry =>
      simp only [he, map_some] at hc
      obtain ⟨epoch, -, heq⟩ := map_eq_some_iff.mp hc.symm
      have hl : entry.lease = none := (Prod.ext_iff.mp heq).2.symm
      simp [Store.endLease, he, Option.filter, hl]
  · intro pair hp
    simp only [ledger, Store.endLease]
    cases s.store.entries (agentConnectionKey root pair) with
    | none => exact Or.inl rfl
    | some entry =>
      by_cases hl : entry.lease = some lease
      · exact Or.inl (by simp [Option.filter, hl])
      · exact Or.inr (by simp [Option.filter, hl])

def registered (root : String) (store : EtcdStore) (owner : NodeOwner) : EtcdStore :=
  store.puts
    [(agentConnectionEpochKey root owner.pair, .epoch owner.epoch, none),
      (nodeKey root owner.serverNodeID, .owner owner, none),
      (agentConnectionKey root owner.pair, .owner owner, some owner.leaseID)]

theorem entries_connectionKey_registered (store : EtcdStore) (hp : Plain owner.agentID) (hpair : Plain pair.1) :
    (registered root store owner).entries (agentConnectionKey root pair) =
      if pair = owner.pair then some ⟨.owner owner, store.revision + 1, some owner.leaseID⟩
      else store.entries (agentConnectionKey root pair) := by
  have he : agentConnectionKey root pair ≠ agentConnectionEpochKey root owner.pair :=
    connectionKey_ne_epochKey hpair hp
  simp only [registered, puts, List.foldl_cons, List.foldl_nil, putAt, Function.update_apply,
    connectionKey_inj hpair (q := owner.pair) hp, connectionKey_ne_nodeKey, he, if_false]

theorem entries_epochKey_registered (store : EtcdStore) (hp : Plain owner.agentID) (hpair : Plain pair.1) :
    (registered root store owner).entries (agentConnectionEpochKey root pair) =
      if pair = owner.pair then some ⟨.epoch owner.epoch, store.revision + 1, none⟩
      else store.entries (agentConnectionEpochKey root pair) := by
  have hc : agentConnectionEpochKey root pair ≠ agentConnectionKey root owner.pair :=
    (connectionKey_ne_epochKey (p := owner.pair) hp hpair).symm
  simp only [registered, puts, List.foldl_cons, List.foldl_nil, putAt, Function.update_apply,
    epochKey_inj hpair (q := owner.pair) hp, epochKey_ne_nodeKey, hc, if_false]

theorem ledger_registered (s : State) (hp : Plain owner.agentID) (hpair : Plain pair.1) :
    ledger root { s with
      store := registered root s.store owner, registrations := s.registrations ++ [owner] } pair =
      if pair = owner.pair then (s.ledger root pair).move (.issue owner.epoch)
      else s.ledger root pair := by
  simp only [ledger, entries_connectionKey_registered s.store hp hpair]
  by_cases h : pair = owner.pair
  · subst h; simp [move, unmarshal]
  · have hne : ¬ owner.pair = pair := fun he => h he.symm; simp [h, hne]

theorem Inv.register (h : Inv root s) (hplain : Plain owner.agentID)
    (hn : ∀ epoch ∈ (s.ledger root owner.pair).issued, epoch < owner.epoch) :
    Inv root { s with
      store := registered root s.store owner, registrations := s.registrations ++ [owner] } where
  numbered := (follows_puts _).numbered h.numbered
  sound := fun c hc => (h.sound c hc).follows (follows_puts _)
  counts := by
    intro pair hp
    simp only [Counts, ledger_registered s hplain hp, entries_epochKey_registered s.store hplain hp]
    split_ifs with he
    · simp [move]
    · exact h.counts pair hp
  held := by
    intro pair hp
    rw [ledger_registered s hplain hp]
    split_ifs
    · exact (h.held pair hp).move _
    · exact h.held pair hp
  increasing := by
    intro pair hp
    rw [ledger_registered s hplain hp]
    split_ifs with he
    · subst he; exact (increasing_issue_iff _).mpr ⟨h.increasing _ hp, hn⟩
    · exact h.increasing pair hp

theorem Inv.issued_le (h : Inv root s) (hp : Plain pair.1)
    (hv : (s.store.entries (agentConnectionEpochKey root pair)).map (·.value) = value) :
    ∀ epoch ∈ (s.ledger root pair).issued, epoch ≤ (value.map scan).getD 0 := by
  have hc := h.counts pair hp
  intro epoch he
  obtain ⟨last, hl⟩ : ∃ last, (s.ledger root pair).issued.getLast? = some last :=
    ne_none_iff_exists'.mp (by simpa using List.ne_nil_of_mem he)
  simp only [Counts, hl, map_some] at hc
  obtain ⟨entry, hentry, heq⟩ := map_eq_some_iff.mp hc
  have hs : entry.value = .epoch last := (Prod.ext_iff.mp heq).1
  rw [← hv, hentry]
  simp only [map_some, hs, scan, getD_some]
  exact (h.increasing pair hp).le_last hl epoch he

theorem commitRegister_eq (root : String) (s : State) (i : ℕ) (req : NodeRegistration) (lease : ℕ)
    (seen : Option ℕ) (oldEpoch : ℤ) (seenEpoch : Option ℕ) (now : ℕ) :
    s.commitRegister root i req lease seen oldEpoch seenEpoch now =
      let owner := newOwner req lease (int64 (oldEpoch + 1)) now
      if s.store.modRevision (agentConnectionKey root req.pair) = seen ∧
          s.store.modRevision (agentConnectionEpochKey root req.pair) = seenEpoch then
        { s with
          store := registered root s.store owner
          calls := s.calls.set i (.returned (.ok owner))
          registrations := s.registrations ++ [owner] }
      else s.setCall i (.returned (.error .leaseHeld)) := rfl

theorem Inv.commitRegister (h : Inv root s) {oldEpoch : ℤ}
    (hc : s.calls[i]? = some (.sawEpoch req lease seen oldEpoch seenEpoch))
    (hregular : int64 (oldEpoch + 1) = oldEpoch + 1) (now : ℕ) :
    Inv root (s.commitRegister root i req lease seen oldEpoch seenEpoch now) := by
  obtain ⟨hp, value, hsaw, hold⟩ := h.sound _ (List.mem_of_getElem? hc)
  rw [commitRegister_eq]
  split_ifs with hcompare
  · have hi := h.issued_le (show Plain req.pair.1 from hp) (hsaw.value_eq hcompare.2)
    have hn : ∀ epoch ∈ (s.ledger root req.pair).issued,
        epoch < (newOwner req lease (int64 (oldEpoch + 1)) now).epoch := by
      intro epoch he
      have := hi epoch he
      simp only [newOwner, hregular]
      omega
    have hr := h.register (show Plain (newOwner req lease (int64 (oldEpoch + 1)) now).agentID from hp) hn
    exact hr.setCall i trivial
  · exact h.setCall i trivial

theorem Inv.fenced_value (h : Inv root s) (hc : c ∈ s.calls)
    {epoch : ℤ} (hcarries : c.carries = some (pair, epoch, seen))
    (hcompare : s.store.modRevision (agentConnectionKey root pair) = seen) :
    Plain pair.1 ∧ ∃ value : NodeOwner, value.epoch = epoch ∧
      (s.store.entries (agentConnectionKey root pair)).map (·.value) = some (.owner value) := by
  obtain ⟨hp, value, hsaw, he⟩ := (h.sound c hc).fences hcarries
  exact ⟨hp, value, he, hsaw.value_eq hcompare⟩

theorem Inv.commitFenced (h : Inv root s) (i : ℕ) (pair : String × String) (seen : Option ℕ) (owner : NodeOwner)
    (hchange : s.store.modRevision (agentConnectionKey root pair) = seen →
      Inv root { s with store := change }) :
    Inv root (s.commitFenced root i pair seen owner change) := by
  rw [State.commitFenced]
  split_ifs with hc
  · exact (hchange hc).setCall i trivial
  · exact h.setCall i trivial

section

variable (hnumbered : s.store.Numbered)

include hnumbered

theorem sound_fence (hp : Plain owner.agentID)
    (hact : ∀ current seen, current.epoch = owner.epoch → s.store.Fences root owner.pair owner.epoch seen →
      (act current seen).Sound root s.store) : (s.fence root owner act).Sound root s.store := by
  simp only [State.fence]
  split
  · trivial
  rename_i current hcurrent
  simp only [State.current, bind_eq_bind, bind_eq_some_iff] at hcurrent
  obtain ⟨entry, hentry, found, hf, hcheck⟩ := hcurrent
  split_ifs at hcheck with hne
  obtain rfl : found = current := some.inj hcheck
  have hvalue : entry.value = .owner found := by
    cases hv : entry.value with
    | owner value => rw [hv] at hf; rw [some.inj hf]
    | epoch value => simp [hv, unmarshal] at hf
  have hsaw := saw_self hnumbered (agentConnectionKey root owner.pair)
  rw [hentry, map_some, hvalue] at hsaw
  push Not at hne
  exact hact found _ hne.1 ⟨hp, found, hsaw, hne.1⟩

theorem sound_keepAlive (hp : Plain owner.agentID) :
    (s.fence root owner (keepAliveCall owner)).Sound root s.store := by
  refine sound_fence hnumbered hp fun current seen _ hf => ?_
  simp only [keepAliveCall]
  split_ifs
  · trivial
  · exact hf
  · trivial
  · exact hf

theorem sound_stats (hp : Plain owner.agentID) : (s.fence root owner (statsCall owner)).Sound root s.store :=
  sound_fence hnumbered hp fun _ _ he ⟨_, value, hsaw, hv⟩ => ⟨hp, value, hsaw, hv.trans he.symm⟩

end

theorem sound_kept {store : EtcdStore} (h : (keepAlive owner seen).Sound root store)
    (expiresAt : ℕ) : (kept { owner with expiresAt } seen).Sound root store := h

theorem validate_agentID (h : validate req = .ok checked) : checked.agentID = req.agentID := by
  rw [validate] at h
  split_ifs at h
  rw [← Except.ok.inj h]

theorem Inv.step (h : Inv root s) (hr : Regular s label) (hs : step root s label = some next) : Inv root next := by
  cases label with
  | register req =>
    cases hs
    refine h.append ?_ _
    split
    · trivial
    · next hchecked => rw [Sound, validate_agentID hchecked]; exact hr
  | getConnection i now =>
    obtain ⟨c, hc, hs⟩ := bind_eq_some_iff.mp hs
    split at hs <;> cases hs
    have hsound := h.sound _ (List.mem_of_getElem? hc)
    refine h.setCall i ?_
    split_ifs
    · trivial
    · exact hsound
  | getEpoch i =>
    obtain ⟨c, hc, hs⟩ := bind_eq_some_iff.mp hs
    split at hs <;> cases hs
    exact h.setCall i ⟨h.sound _ (List.mem_of_getElem? hc), _, saw_self h.numbered _,
      by simp [map_map, Function.comp_def]⟩
  | commitRegister i now =>
    obtain ⟨c, hc, hs⟩ := bind_eq_some_iff.mp hs
    split at hs <;> cases hs
    rename_i req lease seen oldEpoch seenEpoch
    exact h.commitRegister hc (hr _ hc _ rfl) now
  | keepAlive owner =>
    cases hs
    exact h.append (sound_keepAlive h.numbered hr) _
  | keepAliveOnce i ttl now =>
    obtain ⟨c, hc, hs⟩ := bind_eq_some_iff.mp hs
    split at hs <;> cases hs
    have hsound := h.sound _ (List.mem_of_getElem? hc)
    refine h.setCall i ?_
    split_ifs
    · trivial
    · exact sound_kept hsound _
  | updateConnectionStats owner =>
    cases hs
    exact h.append (sound_stats h.numbered hr) _
  | revoke owner =>
    cases hs
    refine h.append ?_ _
    split_ifs
    · trivial
    · exact sound_fence h.numbered hr fun _ _ _ hf => hf
  | commit i =>
    obtain ⟨c, hc, hs⟩ := bind_eq_some_iff.mp hs
    have hmem := List.mem_of_getElem? hc
    split at hs
    case h_4 => cases hs
    all_goals
      cases hs
      refine h.commitFenced i _ _ _ fun hcompare => ?_
      obtain ⟨hp, value, he, hv⟩ := h.fenced_value hmem rfl hcompare
    · exact h.putOwner hp hv he
    · exact h.putOwner hp hv he
    · exact h.deleteOwner hp
  | endLease lease =>
    cases hs
    exact h.endLease lease
  | fail i error =>
    obtain ⟨c, hc, hs⟩ := bind_eq_some_iff.mp hs
    split at hs <;> cases hs
    exact h.setCall i trivial

theorem run_inv (hregular : Along (step root) Regular init labels)
    (hrun : run (step root) init labels = some s) : Inv root s := by
  have hstep : ∀ s label next, Inv root s → Regular s label → step root s label = some next →
      Inv root next := fun s label next h hr hs => h.step hr hs
  exact run_invariant hstep (inv_init root) hregular hrun

theorem stale_commit_fails (h : Inv root s)
    (hc : s.calls[i]? = some c) {epoch : ℤ} (hcarries : c.carries = some (pair, epoch, seen))
    (he : epoch ∈ (s.ledger root pair).issued.dropLast) (hs : step root s (.commit i) = some next) :
    next.store = s.store ∧ next.calls[i]? = some (.returned (.error .fencing)) := by
  have hmem := List.mem_of_getElem? hc
  have hcompare : s.store.modRevision (agentConnectionKey root pair) ≠ seen := by
    intro hcompare
    obtain ⟨hp, value, hepoch, hv⟩ := h.fenced_value hmem hcarries hcompare
    apply (h.increasing pair hp).current_ne (h.held pair hp) he
    obtain ⟨entry, hentry, hown⟩ := map_eq_some_iff.mp hv
    simp [ledger, hentry, hown, unmarshal, hepoch]
  have hlt := (List.getElem?_eq_some_iff.mp hc).1
  simp only [step, hc, bind_eq_bind, bind_some] at hs
  have hr : ∀ owner change, s.commitFenced root i pair seen owner change =
      s.setCall i (.returned (.error .fencing)) := by
    intro owner change
    rw [commitFenced, if_neg hcompare]
  have hn : next = s.setCall i (.returned (.error .fencing)) := by
    split at hs
    case h_4 => cases hs
    all_goals
      obtain ⟨rfl, -, rfl⟩ : _ ∧ _ ∧ _ := by simpa [carries] using hcarries
      rw [← some.inj hs, hr]
  subst hn
  exact ⟨rfl, by simp [setCall, hlt]⟩

end TunnelMesh.Registry.Etcd
