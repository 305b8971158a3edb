import TunnelMesh.Vpn.FlowTable

namespace TunnelMesh.Vpn

open Dict Option

namespace FlowTable

structure Indexed (t : FlowTable) : Prop where
  mem_group : ∀ peerID key, key ∈ t.group peerID ↔ key ∈ t.flows ∧ key.peerID = peerID
  no_empty : ∀ peerID group, t.byPeer.lookup peerID = some group → ∃ key, key ∈ group
  own : ∀ key flow, t.flows.lookup key = some flow → flow.key = key

variable {t : FlowTable}

theorem mem_group_of_lookup (h : t.byPeer.lookup peerID = some peers) : key ∈ t.group peerID ↔ key ∈ peers := by
  rw [group, h, getD_some]

theorem not_mem_group_of_none (h : t.byPeer.lookup peerID = none) : key ∉ t.group peerID := by
  rw [group, h, getD_none]
  exact AList.notMem_empty key

theorem indexed_new (config : FlowTableConfig) : (new config).Indexed where
  mem_group peerID key := by simp [new, group]
  no_empty peerID group h := by simp [new] at h
  own key flow h := by simp [new] at h

theorem group_perm (h : t.Indexed) (peerID : String) :
    (t.group peerID).keys.Perm (t.flows.keys.filter fun key => key.peerID = peerID) := by
  apply (List.perm_ext_iff_of_nodup (t.group peerID).keys_nodup (t.flows.keys_nodup.filter _)).mpr
  intro key
  rw [← AList.mem_keys, h.mem_group, List.mem_filter, ← AList.mem_keys, decide_eq_true_eq]

section Add

theorem group_add (t : FlowTable) (flow : Flow) (peerID : String) : (t.add flow).group peerID =
      if peerID = flow.key.peerID then (t.group flow.key.peerID).insert flow.key () else t.group peerID := by
  simp only [group, add, lookup_insert_eq]
  split_ifs <;> rfl

theorem Indexed.add (h : t.Indexed) (flow : Flow) : (t.add flow).Indexed where
  mem_group peerID key := by
    rw [group_add, FlowTable.add, AList.mem_insert]
    split_ifs with hp
    · subst hp
      rw [AList.mem_insert, h.mem_group]
      by_cases hkey : key = flow.key <;> simp [hkey]
    · rw [h.mem_group]
      have hne : key = flow.key → ¬ key.peerID = peerID := by rintro rfl heq; exact hp heq.symm
      tauto
  no_empty peerID group hgroup := by
    simp only [FlowTable.add, lookup_insert_eq] at hgroup
    split_ifs at hgroup with hp
    · cases hgroup; exact ⟨flow.key, (AList.mem_insert _).mpr (.inl rfl)⟩
    · exact h.no_empty peerID group hgroup
  own key found hfound := by
    simp only [FlowTable.add, lookup_insert_eq] at hfound
    split_ifs at hfound with hkey
    · rw [hkey, ← some.inj hfound]
    · exact h.own key found hfound

theorem refs_add (h : t.flows.lookup flow.key = none) : (t.add flow).refs = flow.ref :: t.refs := by
  simp only [refs, add, AList.entries_insert_of_notMem (AList.lookup_eq_none.mp h), List.map_cons]

end Add

section Detach

theorem mem_unindex (h : t.Indexed) (key other : FlowKey) (peerID : String) :
    other ∈ ((t.unindex key).lookup peerID).getD ∅ ↔ other ≠ key ∧ other ∈ t.group peerID := by
  have hf : peerID ≠ key.peerID → other ∈ t.group peerID → other ≠ key := by
    rintro hne hmem rfl
    exact hne ((h.mem_group peerID other).mp hmem).2.symm
  rw [unindex]
  cases hpeers : t.byPeer.lookup key.peerID with
  | none =>
    by_cases hp : peerID = key.peerID
    · subst hp
      have ha : other ∉ t.group key.peerID := not_mem_group_of_none hpeers
      simp [hpeers, ha]
    · exact ⟨fun hmem => ⟨hf hp hmem, hmem⟩, And.right⟩
  | some peers =>
    dsimp only
    have he : other ∈ peers.erase key ↔ other ≠ key ∧ other ∈ peers := AList.mem_erase
    by_cases hp : peerID = key.peerID
    · subst hp
      rw [mem_group_of_lookup hpeers, ← he]
      split_ifs with hl
      · have hnil : (peers.erase key).keys = [] := List.length_eq_zero_iff.mp hl
        rw [AList.lookup_erase, getD_none, AList.mem_keys, AList.mem_keys, hnil, AList.keys_empty]
      · rw [AList.lookup_insert, getD_some]
    · have hk : other ∈ (t.byPeer.lookup peerID).getD ∅ ↔ other ≠ key ∧ other ∈ t.group peerID :=
        ⟨fun hmem => ⟨hf hp hmem, hmem⟩, And.right⟩
      split_ifs
      · rw [AList.lookup_erase_ne hp]; exact hk
      · rw [AList.lookup_insert_ne hp]; exact hk

theorem exists_mem_of_unindex (h : t.Indexed) {group : Dict FlowKey Unit}
    (hg : (t.unindex key).lookup peerID = some group) : ∃ other, other ∈ group := by
  rw [unindex] at hg
  cases hp : t.byPeer.lookup key.peerID with
  | none => rw [hp] at hg; exact h.no_empty peerID group hg
  | some peers =>
    simp only [hp] at hg
    split_ifs at hg with hl
    · rw [lookup_erase_eq] at hg
      split_ifs at hg
      exact h.no_empty peerID group hg
    · rw [lookup_insert_eq] at hg
      split_ifs at hg
      · cases hg; exact List.exists_mem_of_length_pos (Nat.pos_of_ne_zero hl)
      · exact h.no_empty peerID group hg

structure Detaches (t : FlowTable) (keys : List FlowKey) (out : FlowTable × List Flow) : Prop where
  indexed : out.1.Indexed
  lookup : ∀ key, out.1.flows.lookup key = if key ∈ keys then none else t.flows.lookup key
  refs : t.refs.Perm (out.2.map Flow.ref ++ out.1.refs)
  perPeerLimit : out.1.perPeerLimit = t.perPeerLimit
  totalLimit : out.1.totalLimit = t.totalLimit
  closed : out.1.closed = t.closed

section

variable (h : t.Indexed)

include h

theorem Detaches.refl : t.Detaches [] (t, []) where
  indexed := h
  lookup key := by simp
  refs := by simp
  perPeerLimit := rfl
  totalLimit := rfl
  closed := rfl

theorem detaches_locked (key : FlowKey) : t.Detaches [key] ((t.detachLocked key).1, (t.detachLocked key).2.toList) := by
  rw [detachLocked]
  cases hl : t.flows.lookup key with
  | none =>
    refine { Detaches.refl h with lookup := fun other => ?_ }
    by_cases ho : other = key
    · subst ho; simp [hl]
    · simp [ho]
  | some flow =>
    exact {
      indexed :=
        { mem_group := fun peerID other => by
            rw [group, mem_unindex h, h.mem_group, AList.mem_erase]
            tauto
          no_empty := fun peerID group hg => exists_mem_of_unindex h hg
          own := fun other found hf => by
            rw [lookup_erase_eq] at hf
            split_ifs at hf
            exact h.own other found hf }
      lookup := fun other => by simp only [lookup_erase_eq, List.mem_singleton]
      refs := by
        have hp := (entries_perm_erase hl).map fun entry => entry.2.ref
        simpa [refs] using hp
      perPeerLimit := rfl
      totalLimit := rfl
      closed := rfl }

theorem detaches_each (keys : List FlowKey) : t.Detaches keys (t.detachEach keys) := by
  induction keys generalizing t with
  | nil => exact Detaches.refl h
  | cons key rest ih =>
    have hf := detaches_locked h key
    have hr := ih hf.indexed
    exact {
      indexed := hr.indexed
      lookup := fun other => by
        rw [detachEach, hr.lookup, hf.lookup]
        by_cases hkey : other = key <;> by_cases hmem : other ∈ rest <;> simp [hkey, hmem]
      refs := by
        rw [detachEach, List.map_append, List.append_assoc]
        exact hf.refs.trans (hr.refs.append_left _)
      perPeerLimit := hr.perPeerLimit.trans hf.perPeerLimit
      totalLimit := hr.totalLimit.trans hf.totalLimit
      closed := hr.closed.trans hf.closed }

theorem detaches_remove (key : FlowKey) : t.Detaches [key] (t.remove key) := detaches_locked h key

theorem detaches_closePeer (peerID : String) : t.Detaches (t.group peerID).keys (t.closePeer peerID) := by
  rw [closePeer]
  cases hp : t.byPeer.lookup peerID with
  | none =>
    have hg : t.group peerID = ∅ := by rw [group, hp, getD_none]
    rw [hg]
    exact Detaches.refl h
  | some peers =>
    have hg : t.group peerID = peers := by rw [group, hp, getD_some]
    rw [hg]
    have hall := detaches_each h peers.keys
    have hn : (t.detachEach peers.keys).1.byPeer.lookup peerID = none := by
      cases hl : (t.detachEach peers.keys).1.byPeer.lookup peerID with
      | none => rfl
      | some left =>
        exfalso
        obtain ⟨key, hkey⟩ := hall.indexed.no_empty peerID left hl
        obtain ⟨hmem, hown⟩ := (hall.indexed.mem_group peerID key).mp ((mem_group_of_lookup hl).mpr hkey)
        obtain ⟨flow, hf⟩ := mem_iff_lookup.mp hmem
        rw [hall.lookup] at hf
        split_ifs at hf with hgone
        apply hgone
        rw [← AList.mem_keys, ← hg, h.mem_group]
        exact ⟨mem_of_lookup hf, hown⟩
    have hs : ∀ other, ((t.detachEach peers.keys).1.byPeer.erase peerID).lookup other =
        (t.detachEach peers.keys).1.byPeer.lookup other := by
      intro other
      rw [lookup_erase_eq]
      split_ifs with ho
      · rw [ho, hn]
      · rfl
    exact { hall with
      indexed :=
        { mem_group := fun other key => by
            rw [group, hs]
            exact hall.indexed.mem_group other key
          no_empty := fun other group ho => by
            rw [hs] at ho
            exact hall.indexed.no_empty other group ho
          own := hall.indexed.own } }

theorem lookup_closePeer (peerID : String) (key : FlowKey) :
    (t.closePeer peerID).1.flows.lookup key = if key.peerID = peerID then none else t.flows.lookup key := by
  rw [(detaches_closePeer h peerID).lookup]
  have hmem : key ∈ (t.group peerID).keys ↔ key ∈ t.flows ∧ key.peerID = peerID := h.mem_group peerID key
  by_cases hp : key.peerID = peerID
  · split_ifs with hg
    · rfl
    · exact AList.lookup_eq_none.mpr fun hf => hg (hmem.mpr ⟨hf, hp⟩)
  · rw [if_neg hp, if_neg fun hg => hp (hmem.mp hg).2]

theorem exists_detaches_reapIdle (now : ℤ) : ∃ keys, t.Detaches keys (t.reapIdle now) := by
  rw [reapIdle]
  split_ifs
  · exact ⟨_, Detaches.refl h⟩
  · exact ⟨_, detaches_each h _⟩

theorem indexed_drain : t.drain.Indexed := { h with }

end

end Detach

section Close

theorem close_of_closed (h : t.closed = true) : t.close = (t, []) := by rw [close, if_pos h]

theorem detaches_close (h : t.Indexed) (ho : t.closed = false) :
    Detaches { t with closed := true, draining := true } t.flows.keys t.close := by
  have hs : Indexed { t with closed := true, draining := true } :=
    { h with }
  rw [close, if_neg (by simp [ho])]
  exact detaches_each hs _

theorem flows_close (h : t.Indexed) (ho : t.closed = false) (key : FlowKey) : t.close.1.flows.lookup key = none := by
  rw [(detaches_close h ho).lookup]
  split_ifs with hkey
  · rfl
  · exact AList.lookup_eq_none.mpr hkey

end Close

section Touch

theorem lookup_touch (key : FlowKey) (ref : ℕ) (now : ℤ) (other : FlowKey) :
    ((t.touch key ref now).flows.lookup other).map Flow.ref = (t.flows.lookup other).map Flow.ref := by
  rw [touch]
  cases hl : t.flows.lookup key with
  | none => rfl
  | some flow =>
    dsimp only
    split_ifs
    · rw [lookup_insert_eq]
      split_ifs with ho
      · rw [ho, hl]; rfl
      · rfl
    · rfl

theorem Indexed.touch (h : t.Indexed) (key : FlowKey) (ref : ℕ) (now : ℤ) : (t.touch key ref now).Indexed := by
  rw [FlowTable.touch]
  cases hl : t.flows.lookup key with
  | none => exact h
  | some flow =>
    dsimp only
    split_ifs
    · exact {
        mem_group := fun peerID other => by
          rw [AList.mem_insert, group]
          refine Iff.trans (h.mem_group peerID other) ?_
          constructor
          · rintro ⟨hmem, hp⟩; exact ⟨.inr hmem, hp⟩
          · rintro ⟨rfl | hmem, hp⟩
            · exact ⟨mem_of_lookup hl, hp⟩
            · exact ⟨hmem, hp⟩
        no_empty := h.no_empty
        own := fun other found hf => by
          rw [lookup_insert_eq] at hf
          split_ifs at hf with ho
          · rw [ho, ← some.inj hf]; exact h.own key flow hl
          · exact h.own other found hf }
    · exact h

theorem refs_touch (key : FlowKey) (ref : ℕ) (now : ℤ) : (t.touch key ref now).refs.Perm t.refs := by
  rw [touch]
  cases hl : t.flows.lookup key with
  | none => rfl
  | some flow =>
    dsimp only
    split_ifs
    · have hp := (entries_perm_erase hl).map fun entry => entry.2.ref; exact hp.symm
    · rfl

end Touch

section Register

theorem register_eq_ok (h : t.register reg now ref = .ok (next, flow, created)) : t.closed = false ∧
      ((created = false ∧ next = t ∧ t.flows.lookup reg.key = some flow) ∨
        (created ∧ t.flows.lookup reg.key = none ∧ t.draining = false ∧
          ¬ (0 < t.limit reg.peerLimit ∧ t.limit reg.peerLimit ≤ (t.group reg.key.peerID).keys.length) ∧
          ¬ (0 < t.totalLimit ∧ t.totalLimit ≤ t.flows.keys.length) ∧
          flow = ⟨ref, reg.key, now⟩ ∧ next = t.add ⟨ref, reg.key, now⟩)) := by
  rw [register] at h
  by_cases hc : t.closed
  · rw [if_pos hc] at h; cases h
  rw [if_neg hc] at h
  refine ⟨by simpa using hc, ?_⟩
  cases hl : t.flows.lookup reg.key with
  | some existing =>
    rw [hl] at h
    cases h
    exact .inl ⟨rfl, rfl, rfl⟩
  | none =>
    rw [hl] at h
    split_ifs at h with hd hp ht
    cases h
    exact .inr ⟨rfl, rfl, by simpa using hd, hp, ht, rfl, rfl⟩

def WithinLimits (t : FlowTable) (config : FlowTableConfig) (reg : FlowRegistration) : Prop :=
  (0 < config.maxFlowsPerPeer → ((t.group reg.key.peerID).keys.length : ℤ) ≤ config.maxFlowsPerPeer) ∧
    (0 < reg.peerLimit → ((t.group reg.key.peerID).keys.length : ℤ) ≤ reg.peerLimit) ∧
    (0 < config.maxFlowsTotal → (t.flows.keys.length : ℤ) ≤ config.maxFlowsTotal)

theorem withinLimits_of_register (hi : t.Indexed)
    (hp : t.perPeerLimit = max config.maxFlowsPerPeer 0) (htotal : t.totalLimit = max config.maxFlowsTotal 0)
    (h : t.register reg now ref = .ok (next, flow, true)) : next.WithinLimits config reg := by
  obtain ⟨-, ⟨hf, -⟩ | ⟨-, hl, -, hg, hall, -, rfl⟩⟩ := register_eq_ok h
  · cases hf
  have hfresh : (t.group reg.key.peerID).lookup reg.key = none := by
    rw [AList.lookup_eq_none, hi.mem_group]
    exact fun hmem => AList.lookup_eq_none.mp hl hmem.1
  have hsize : ((t.add ⟨ref, reg.key, now⟩).group reg.key.peerID).keys.length =
      (t.group reg.key.peerID).keys.length + 1 := by
    rw [group_add, if_pos rfl, keys_insert_of_none hfresh, List.length_cons]
  have hflows : (t.add ⟨ref, reg.key, now⟩).flows.keys.length = t.flows.keys.length + 1 := by
    simp only [add, keys_insert_of_none hl, List.length_cons]
  rw [limit, hp] at hg
  refine ⟨?_, ?_, ?_⟩ <;> intro hpos
  · split_ifs at hg <;> omega
  · split_ifs at hg <;> omega
  · omega

end Register

end FlowTable

namespace FlowState

open Transition FlowTable List

variable {s next : FlowState}

structure Accounted (config : FlowTableConfig) (s : FlowState) : Prop where
  indexed : s.table.Indexed
  perPeerLimit : s.table.perPeerLimit = max config.maxFlowsPerPeer 0
  totalLimit : s.table.totalLimit = max config.maxFlowsTotal 0
  count : ∀ ref, s.table.refs.count ref + s.closing.count ref + s.fired.count ref = if ref < s.next then 1 else 0
  closed : s.table.closed → ∀ key, s.table.flows.lookup key = none

theorem accounted_init : (init config).Accounted config where
  indexed := indexed_new config
  perPeerLimit := rfl
  totalLimit := rfl
  count ref := by simp [init, new, refs]
  closed h := by simp [init, new] at h

section

variable (h : s.Accounted config)

include h

namespace Accounted

theorem register (reg : FlowRegistration) (now : ℤ) : (s.register reg now).Accounted config := by
  rw [FlowState.register]
  split
  · next table flow hreg =>
      obtain ⟨ho, ⟨hf, -⟩ | ⟨-, hl, -, -, -, -, rfl⟩⟩ := register_eq_ok hreg
      · cases hf
      exact {
        indexed := h.indexed.add _
        perPeerLimit := h.perPeerLimit
        totalLimit := h.totalLimit
        count := fun ref => by
          have hcount := h.count ref
          rw [refs_add hl, count_cons]
          by_cases href : s.next = ref
          · subst href
            simp only [lt_irrefl, if_false] at hcount
            simp
            omega
          · have hlt : ref < s.next + 1 ↔ ref < s.next := by omega
            simp only [beq_iff_eq, href, if_false, hlt]
            omega
        closed := fun hc => by
          rw [show s.table.closed = true from hc] at ho
          cases ho }
  · exact h

theorem detach {keys : List FlowKey} {out : FlowTable × List Flow}
    (hout : s.table.Detaches keys out) : (s.detach out).Accounted config where
  indexed := hout.indexed
  perPeerLimit := hout.perPeerLimit.trans h.perPeerLimit
  totalLimit := hout.totalLimit.trans h.totalLimit
  count ref := by
    have hp := hout.refs.count_eq ref
    rw [count_append] at hp
    refine Eq.trans ?_ (h.count ref)
    simp only [FlowState.detach, count_append]
    omega
  closed hc key := by
    have hb : s.table.closed := hout.closed.symm.trans hc
    simp only [FlowState.detach, hout.lookup, h.closed hb key, ite_self]

theorem close : (s.detach s.table.close).Accounted config := by
  cases hc : s.table.closed with
  | true => rw [close_of_closed hc]; exact h.detach (Detaches.refl h.indexed)
  | false =>
    have hout := detaches_close h.indexed hc
    exact {
      indexed := hout.indexed
      perPeerLimit := hout.perPeerLimit.trans h.perPeerLimit
      totalLimit := hout.totalLimit.trans h.totalLimit
      count := fun ref => by
        have hp : s.table.refs.count ref = _ := hout.refs.count_eq ref
        rw [count_append] at hp
        refine Eq.trans ?_ (h.count ref)
        simp only [FlowState.detach, count_append]
        omega
      closed := fun _ key => flows_close h.indexed hc key }

theorem touch (key : FlowKey) (ref : ℕ) (now : ℤ) : Accounted config { s with table := s.table.touch key ref now } := by
  have hk : (s.table.touch key ref now).perPeerLimit = s.table.perPeerLimit ∧
      (s.table.touch key ref now).totalLimit = s.table.totalLimit ∧
      (s.table.touch key ref now).closed = s.table.closed := by
    rw [FlowTable.touch]
    split
    · exact ⟨rfl, rfl, rfl⟩
    · split_ifs <;> exact ⟨rfl, rfl, rfl⟩
  exact {
    indexed := h.indexed.touch key ref now
    perPeerLimit := hk.1.trans h.perPeerLimit
    totalLimit := hk.2.1.trans h.totalLimit
    count := fun other => by
      rw [(FlowTable.refs_touch key ref now).count_eq]
      exact h.count other
    closed := fun hc other => by
      have hb := h.closed (hk.2.2.symm.trans hc) other
      have hmap := FlowTable.lookup_touch (t := s.table) key ref now other
      rw [hb, map_none] at hmap
      exact map_eq_none_iff.mp hmap }

theorem runHook (hmem : ref ∈ s.closing) : (s.runHook ref).Accounted config := by
  have hpos : 0 < s.closing.count ref := count_pos_iff.mpr hmem
  have hnew : ref ∉ s.fired := by
    intro hf
    have hc := h.count ref
    have hfiredPos : 0 < s.fired.count ref := count_pos_iff.mpr hf
    split_ifs at hc <;> omega
  refine { h with count := fun other => ?_ }
  have hc := h.count other
  simp only [FlowState.runHook, if_neg hnew, count_append, count_erase, count_singleton, beq_iff_eq]
  by_cases href : ref = other
  · subst href
    simp only [if_true]
    omega
  · simp only [href, if_false]; omega

theorem step (hs : s.step label = some next) : next.Accounted config := by
  cases label with
  | register reg now => cases hs; exact h.register reg now
  | remove key => cases hs; exact h.detach (detaches_remove h.indexed key)
  | closePeer peerID =>
    cases hs
    exact h.detach (detaches_closePeer h.indexed peerID)
  | reapIdle now =>
    cases hs
    obtain ⟨keys, hk⟩ := exists_detaches_reapIdle h.indexed now
    exact h.detach hk
  | drain => cases hs; exact { h with indexed := indexed_drain h.indexed }
  | close => cases hs; exact h.close
  | touch key ref now => cases hs; exact h.touch key ref now
  | hook ref =>
    rw [FlowState.step] at hs
    split_ifs at hs with hmem
    cases hs
    exact h.runHook hmem

theorem closed_step (hc : s.table.closed) (hs : s.step label = some next) : next.table.closed := by
  cases label with
  | register reg now => cases hs; simp [FlowState.register, FlowTable.register, hc]
  | remove key => cases hs; exact (detaches_remove h.indexed key).closed.trans hc
  | closePeer peerID => cases hs; exact (detaches_closePeer h.indexed peerID).closed.trans hc
  | reapIdle now =>
    cases hs
    obtain ⟨keys, hk⟩ := exists_detaches_reapIdle h.indexed now
    exact hk.closed.trans hc
  | drain => cases hs; exact hc
  | close => cases hs; rw [close_of_closed hc]; exact hc
  | touch key ref now =>
    cases hs
    simp only [FlowTable.touch]
    split
    · exact hc
    · split_ifs <;> exact hc
  | hook ref =>
    obtain ⟨-, rfl⟩ := guard_eq_some hs
    exact hc

theorem closed_close : (s.detach s.table.close).table.closed := by
  cases hc : s.table.closed with
  | true => rw [close_of_closed hc]; exact hc
  | false => exact (detaches_close h.indexed hc).closed

-- Each hook that is due runs, and nothing else is needed for it.
theorem run_closing : ∃ next, run FlowState.step s (s.closing.map .hook) = some next ∧ next.Accounted config ∧
    next.table = s.table ∧ next.next = s.next ∧ next.closing = [] := by
  generalize hr : s.closing = refs
  induction refs generalizing s with
  | nil => exact ⟨s, rfl, h, rfl, rfl, hr⟩
  | cons ref rest ih =>
    have hmem : ref ∈ s.closing := hr ▸ mem_cons_self
    have hrest : (s.runHook ref).closing = rest := by simp [FlowState.runHook, hr]
    obtain ⟨next, hrun, ha, ht, hn, hc⟩ := ih (h.runHook hmem) hrest
    refine ⟨next, ?_, ha, ht, hn, hc⟩
    simpa [run, FlowState.step, hmem] using hrun

end Accounted

end

structure Consistent (config : FlowTableConfig) (s : FlowState) : Prop where
  grouped : ∀ peerID, (s.table.group peerID).keys.Perm (s.table.flows.keys.filter fun key => key.peerID = peerID)
  no_empty_group : ∀ peerID group, s.table.byPeer.lookup peerID = some group → group.keys ≠ []
  limits : ∀ reg now table flow,
    s.table.register reg now s.next = .ok (table, flow, true) → table.WithinLimits config reg
  hooks : ∀ ref < s.next, s.fired.count ref + s.closing.count ref = if ref ∈ s.table.refs then 0 else 1
  hooks_run : ∃ next, run step s (s.closing.map .hook) = some next ∧ next.table = s.table ∧ next.next = s.next ∧
    ∀ ref < s.next, next.fired.count ref = if ref ∈ s.table.refs then 0 else 1
  closed : s.table.closed → s.table.flows.keys = []
  closed_step : s.table.closed → ∀ label next, s.step label = some next → next.table.closed
  close_closes : ∀ next, s.step .close = some next → next.table.closed

theorem Accounted.hooks (h : s.Accounted config) (hlt : ref < s.next) :
    s.fired.count ref + s.closing.count ref = if ref ∈ s.table.refs then 0 else 1 := by
  have hc := h.count ref
  rw [if_pos hlt] at hc
  split_ifs with hmem
  · have hpos : 0 < s.table.refs.count ref := count_pos_iff.mpr hmem; omega
  · have hzero : s.table.refs.count ref = 0 := count_eq_zero.mpr hmem; omega

theorem Accounted.consistent (h : s.Accounted config) : s.Consistent config where
  grouped := group_perm h.indexed
  no_empty_group peerID group hg hnil := by
    obtain ⟨key, hkey⟩ := h.indexed.no_empty peerID group hg
    rw [AList.mem_keys, hnil] at hkey
    cases hkey
  limits reg now table flow hreg :=
    withinLimits_of_register h.indexed h.perPeerLimit h.totalLimit hreg
  hooks _ := h.hooks
  hooks_run := by
    obtain ⟨next, hrun, ha, ht, hn, hc⟩ := h.run_closing
    refine ⟨next, hrun, ht, hn, fun ref hlt => ?_⟩
    rw [← ht, ← ha.hooks (hn ▸ hlt), hc, count_nil, Nat.add_zero]
  closed_step hc _ _ := h.closed_step hc
  close_closes next hs := by cases hs; exact h.closed_close
  closed hclosed := by
    rw [eq_nil_iff_forall_not_mem]
    intro key hkey
    exact AList.lookup_eq_none.mp (h.closed hclosed key) hkey

-- However the calls and the hooks that follow them are interleaved, the two
-- indexes agree, the ceilings hold, a flow that leaves the table is closed once,
-- and `close` empties the table for good.
theorem flow_table_consistent (config : FlowTableConfig) (labels : List FlowLabel) :
    Always step (Consistent config) (init config) labels := by
  have hinv : Always step (Accounted config) (init config) labels :=
    always_of_step (fun s label next h hstep => h.step hstep) (init config) labels accounted_init
  exact hinv.mono fun s h => h.consistent

end FlowState

end TunnelMesh.Vpn
