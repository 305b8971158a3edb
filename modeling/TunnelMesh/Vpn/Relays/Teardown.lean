import TunnelMesh.Vpn.FlowTable.Theorems
import TunnelMesh.Vpn.Relays

namespace TunnelMesh.Vpn

theorem Owner.key_onClose (owner : Owner) : owner.onClose.key = owner.key := by cases owner <;> rfl

theorem Owner.finished_onClose (owner : Owner) : owner.onClose.finished = owner.finished := by
  cases owner <;> rfl

theorem Owner.key_start (key : FlowKey) (protocol : ProtocolLabel) : (Owner.start key protocol).key = key := by
  cases protocol <;> rfl

namespace Relays

open Transition FlowTable Option

variable {s next : Relays}

def refOf (s : Relays) (key : FlowKey) : Option ℕ := (s.table.flows.lookup key).map Flow.ref

def Settled (s : Relays) : Prop :=
  ∀ key ref, s.refOf key = some ref → ∀ i owner, s.owners[i]? = some owner → owner.key = key → i ≠ ref → owner.finished

structure Orderly (s : Relays) : Prop where
  indexed : s.table.Indexed
  settled : s.Settled
  own : ∀ r ∈ s.removals, r.flow = r.owner

theorem orderly_init (config : FlowTableConfig) : (init config).Orderly where
  indexed := indexed_new config
  settled := by
    intro key ref hkey i owner ho
    simp [init] at ho
  own := by simp [init]

theorem settled_of_lookup (h : s.Settled)
    (hl : ∀ key flow, t.flows.lookup key = some flow → s.table.flows.lookup key = some flow) :
    Settled { s with table := t } := by
  intro key ref hkey i owner ho hown hne
  obtain ⟨flow, hf, rfl⟩ := map_eq_some_iff.mp hkey
  refine h key flow.ref ?_ i owner ho hown hne
  rw [refOf, hl key flow hf, map_some]

theorem lookup_of_detaches {t : FlowTable}
    (hout : t.Detaches keys out) (key : FlowKey) (flow : Flow) (h : out.1.flows.lookup key = some flow) :
    t.flows.lookup key = some flow := by
  rw [hout.lookup] at h
  split_ifs at h
  exact h

theorem Orderly.detach (h : s.Orderly) (hout : s.table.Detaches keys out) : (s.detach out).Orderly where
  indexed := hout.indexed
  settled := settled_of_lookup h.settled (lookup_of_detaches hout)
  own := h.own

theorem Orderly.close (h : s.Orderly) : (s.detach s.table.close).Orderly := by
  cases hc : s.table.closed with
  | true => rw [close_of_closed hc]; exact h.detach (Detaches.refl h.indexed)
  | false =>
    have hout := detaches_close h.indexed hc
    refine ⟨hout.indexed, settled_of_lookup h.settled ?_, h.own⟩
    intro key flow hf
    have hn := flows_close h.indexed hc key
    exact absurd (hn.symm.trans hf) (by simp)

theorem Orderly.touch (h : s.Orderly) (key : FlowKey) (ref : ℕ) (now : ℤ) :
    Orderly { s with table := s.table.touch key ref now } where
  indexed := h.indexed.touch key ref now
  settled := by
    intro other found hf
    rw [refOf, lookup_touch] at hf
    exact h.settled other found hf
  own := h.own

theorem Settled.set (h : s.Settled) (howner : s.owners[ref]? = some owner)
    (hkey : moved.key = owner.key) (hfinished : owner.finished → moved.finished) :
    Settled { s with owners := s.owners.set ref moved } := by
  intro key found hf i other ho hown hne
  rw [List.getElem?_set] at ho
  split_ifs at ho with href
  · subst href
    cases ho
    exact hfinished (h key found hf ref owner howner (hkey.symm.trans hown) hne)
  · exact h key found hf i other ho hown hne

theorem Orderly.hook (h : s.Orderly) (ho : s.owners[ref]? = some owner) : (s.hook ref owner).Orderly where
  indexed := h.indexed
  settled := by
    have hset := h.settled.set ho owner.key_onClose (by rw [owner.finished_onClose]; exact id)
    exact hset
  own := h.own

theorem Orderly.removeFor (h : s.Orderly) (ho : s.owners[ref]? = some owner)
    (hw : owner.finished = false) : (s.removeFor ref owner.key).Orderly := by
  have hout := detaches_remove h.indexed owner.key
  refine ⟨hout.indexed, (h.detach hout).settled, ?_⟩
  intro r hr
  rcases List.mem_append.mp hr with hold | hnew
  · exact h.own r hold
  obtain ⟨flow, hf, rfl⟩ := List.mem_map.mp hnew
  have hl : s.table.flows.lookup owner.key = some flow := by
    simp only [remove, detachLocked, mem_toList] at hf
    split at hf
    · cases hf
    · next found hfound =>
        rw [hfound]
        exact hf
  by_contra hne
  have hd := h.settled owner.key flow.ref (by rw [refOf, hl, map_some]) ref owner ho rfl (Ne.symm hne)
  rw [hw] at hd
  cases hd

-- A flow is created for a key only when the owners of its earlier flows have
-- returned.
def Handover (s : Relays) : RelayLabel → Prop
  | .packet reg _ =>
    s.refOf reg.key = none → (reg.key.protocol = .udp → s.udp.lookup reg.key = none) →
      ∀ owner ∈ s.owners, owner.key = reg.key → owner.finished
  | _ => True

instance Handover.decidable (s : Relays) : (label : RelayLabel) → Decidable (s.Handover label)
  | .packet .. => inferInstanceAs (Decidable (_ → (_ → _) → ∀ owner ∈ s.owners, _))
  | .closePeer _ | .reapIdle _ | .drain | .close | .touch .. | .hook _ | .forget _ | .move .. => isTrue trivial

theorem Orderly.packet (h : s.Orderly) (hg : s.Handover (.packet reg now)) : (s.packet reg now).Orderly := by
  rw [Relays.packet]
  split_ifs with hq
  · exact h
  rw [register]
  split
  · next table flow hreg =>
      obtain ⟨-, ⟨hf, -⟩ | ⟨-, hl, -, -, -, -, rfl⟩⟩ := register_eq_ok hreg
      · cases hf
      have hu : reg.key.protocol = .udp → s.udp.lookup reg.key = none := by
        intro hudp
        simpa [hudp] using hq
      have he := hg (by rw [refOf, hl, map_none]) hu
      refine ⟨h.indexed.add _, ?_, h.own⟩
      intro key ref hkey i owner ho hown hne
      rw [refOf, add, Dict.lookup_insert_eq] at hkey
      by_cases hlt : i < s.owners.length
      · rw [List.getElem?_append_left hlt] at ho
        split_ifs at hkey with hs
        · exact he owner (List.mem_of_getElem? ho) (hown.trans hs)
        · exact h.settled key ref hkey i owner ho hown hne
      · -- The new owner is at the index of the new flow.
        rw [List.getElem?_append_right (not_lt.mp hlt), List.getElem?_singleton] at ho
        split_ifs at ho with hzero
        cases ho
        rw [Owner.key_start] at hown
        rw [if_pos hown.symm] at hkey
        have href : s.owners.length = ref := some.inj hkey
        exact absurd (by omega) hne
  · exact h

theorem Orderly.move (h : s.Orderly) (hs : s.step (.move ref m) = some next) : next.Orderly := by
  simp only [step, bind_eq_bind, bind_eq_some_iff] at hs
  obtain ⟨owner, ho, ⟨moved, e⟩, hm, hn⟩ := hs
  cases hn
  have ha := Owner.advances hm
  cases e with
  | nothing | emit => exact { h with settled := h.settled.set ho ha.key ha.finished }
  | remove =>
    have hr := h.removeFor ho (ha.working rfl)
    exact { hr with settled := hr.settled.set ho ha.key ha.finished }

theorem Orderly.step (h : s.Orderly) (hg : s.Handover label) (hs : s.step label = some next) : next.Orderly := by
  cases label with
  | packet reg now => cases hs; exact h.packet hg
  | closePeer peerID =>
    cases hs
    exact h.detach (detaches_closePeer h.indexed peerID)
  | reapIdle now =>
    cases hs
    obtain ⟨keys, hk⟩ := exists_detaches_reapIdle h.indexed now
    exact h.detach hk
  | drain => cases hs; exact { h with indexed := indexed_drain h.indexed }
  | close => cases hs; exact h.close
  | touch key ref now => cases hs; exact h.touch key ref now
  | hook ref =>
    rw [Relays.step] at hs
    split_ifs at hs
    obtain ⟨owner, ho, rfl⟩ := map_eq_some_iff.mp hs
    exact h.hook ho
  | forget ref =>
    rw [Relays.step] at hs
    split_ifs at hs
    obtain ⟨owner, -, rfl⟩ := map_eq_some_iff.mp hs
    exact { h with }
  | move ref m => exact h.move hs

theorem removals_own (config : FlowTableConfig) (labels : List RelayLabel)
    (h : Along step Handover (init config) labels) :
    Always step (fun s => ∀ r ∈ s.removals, r.flow = r.owner) (init config) labels := by
  have hinv := always_of_invariant (fun s label next hinv hguard hstep => hinv.step hguard hstep) (init config) labels
      (orderly_init config) h
  exact hinv.mono fun s hs => hs.own

section Runs

def plainConfig : FlowTableConfig := ⟨0, 0, 300⟩

def keyOf (protocol : ProtocolLabel) : FlowKey := ⟨"peer-a", protocol, ⟨10, 5000⟩, ⟨20, 53⟩⟩

def servedTwice : List RelayLabel :=
  [.packet ⟨keyOf .udp, 0⟩ 0, .move 0 (.dialed true), .reapIdle 300, .hook 0, .forget 0, .move 0 .readFail,
    .move 0 .pumpRemove, .move 0 .writerDone, .packet ⟨keyOf .udp, 0⟩ 301, .move 1 (.dialed true),
    .move 1 .readFail, .move 1 .pumpRemove]

theorem removals_own_served_twice : Along step Handover (init plainConfig) servedTwice ∧
      Always step (fun s => ∀ r ∈ s.removals, r.flow = r.owner) (init plainConfig) servedTwice := by
  have hguard : Along step Handover (init plainConfig) servedTwice := by decide +kernel
  exact ⟨hguard, removals_own plainConfig servedTwice hguard⟩

-- The reaper closes the first flow. The next packet of the key gets a second
-- one before the goroutine of the first has noticed, which then removes it.
def takenOver (protocol : ProtocolLabel) (ends : List RelayLabel) : List RelayLabel :=
  [.packet ⟨keyOf protocol, 0⟩ 0, .move 0 (.dialed true), .reapIdle 300, .hook 0] ++
    (if protocol = .udp then [.forget 0] else []) ++ [.packet ⟨keyOf protocol, 0⟩ 301] ++ ends ++ [.hook 1]

def Usurped (s : Relays) : Prop := ⟨0, 1⟩ ∈ s.removals ∧ 1 ∈ s.closed
  deriving Decidable

theorem teardown_removes_successor :
    (∃ final, run step (init plainConfig) (takenOver .udp [.move 0 .readFail, .move 0 .pumpRemove]) = some final ∧
        final.Usurped) ∧
      (∃ final, run step (init plainConfig) (takenOver .icmpEcho [.move 0 .finish, .move 0 .remove]) = some final ∧
        final.Usurped) ∧
      ∃ final, run step (init plainConfig) (takenOver .tcp [.move 0 .finish, .move 0 .remove]) = some final ∧
        final.Usurped :=
  ⟨exists_run_of_any (by decide +kernel), exists_run_of_any (by decide +kernel), exists_run_of_any (by decide +kernel)⟩

end Runs

end Relays

end TunnelMesh.Vpn
