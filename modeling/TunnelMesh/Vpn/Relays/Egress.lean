import TunnelMesh.Vpn.Relays

namespace TunnelMesh.Vpn

open StreamSlot Option

section Slot

variable {slot next : StreamSlot}

namespace StreamSlot

def Held (slot : StreamSlot) : Prop :=
  ∀ st, slot.stream = some st → st.closed = false → slot.stored ∧ slot.released = false

theorem held_empty : empty.Held := by
  intro st hst
  cases hst

theorem held_store (h : slot.released = false) : slot.store.Held := fun _ _ _ => ⟨rfl, h⟩

theorem closed_release (h : slot.Held) (hst : slot.release.stream = some st) : st.closed := by
  rw [release] at hst
  split_ifs at hst with hr hs
  · by_contra ho
    have hh := h st hst (by simpa using ho)
    rw [hr] at hh
    cases hh.2
  · obtain ⟨before, -, rfl⟩ := map_eq_some_iff.mp hst; rfl
  · by_contra ho; exact hs (h st hst (by simpa using ho)).1

theorem held_release (h : slot.Held) : slot.release.Held := by
  intro st hst ho
  rw [closed_release h hst] at ho
  cases ho

theorem unread_release (h : ∀ st, slot.stream = some st → st.unread = [])
    (hst : slot.release.stream = some st) : st.unread = [] := by
  rw [release] at hst
  split_ifs at hst
  · exact h st hst
  · obtain ⟨before, hb, rfl⟩ := map_eq_some_iff.mp hst; exact h before hb
  · exact h st hst

theorem arrive_eq_some (h : slot.arrive bytes = some next) :
    ∃ unread, slot.stream = some ⟨unread, false⟩ ∧ next = { slot with stream := some ⟨unread ++ bytes, false⟩ } := by
  rw [arrive] at h
  split at h
  · next unread hs => exact ⟨unread, hs, (some.inj h).symm⟩
  · cases h

theorem read_eq_some (h : slot.read n = some (got, next)) : ∃ st, slot.stream = some st ∧ st.unread ≠ [] ∧
      next = { slot with stream := some { st with unread := st.unread.drop n } } := by
  rw [read] at h
  cases hs : slot.stream with
  | none => rw [hs] at h; cases h
  | some st =>
    rw [hs] at h
    dsimp only at h
    split_ifs at h with hn
    cases h
    refine ⟨st, rfl, ?_, rfl⟩
    intro hnil
    rw [hnil, List.length_nil] at hn
    omega

end StreamSlot

end Slot

namespace UDPFlow

variable {a next : UDPFlow} {m : RelayMove}

structure Sound (a : UDPFlow) : Prop where
  dialing : a.run = .dialing → a.slot.released = false ∧ a.pump = .unstarted
  held : a.slot.Held

structure Shut (a : UDPFlow) : Prop where
  dialed : a.run ≠ .dialing
  stream : ∀ st, a.slot.stream = some st → st.closed ∧ st.unread = []
  pump : ∀ payload, a.pump ≠ .holding payload

theorem Sound.started (h : a.Sound) (hp : a.pump ≠ .unstarted) : a.run ≠ .dialing :=
  fun hrun => hp (h.dialing hrun).2

theorem Sound.move (h : a.Sound) (hm : a.move m = some (next, e)) : next.Sound := by
  have hstarted (hp : a.pump ≠ .unstarted) {P : Prop} (hrun : a.run = .dialing) : P := absurd hrun (h.started hp)
  have hreleased := held_release h.held
  cases m
  case arrive bytes =>
    obtain ⟨slot, hslot, hn⟩ := map_eq_some_iff.mp hm
    cases hn
    obtain ⟨unread, hs, rfl⟩ := arrive_eq_some hslot
    exact ⟨h.dialing, fun _ _ _ => h.held _ hs rfl⟩
  case read n =>
    rw [move] at hm
    split_ifs at hm with hp
    obtain ⟨⟨got, slot⟩, hslot, hn⟩ := map_eq_some_iff.mp hm
    cases hn
    obtain ⟨st, hs, -, rfl⟩ := read_eq_some hslot
    refine ⟨hstarted (by simp [hp]), ?_⟩
    intro read hr ho
    cases hr
    exact h.held st hs ho
  case emit sent =>
    rw [move] at hm
    split at hm <;> cases hm
    next payload hp => exact ⟨hstarted (by simp [hp]), h.held⟩
  case finish | timeout | remove => cases hm
  all_goals
    rw [move] at hm
    split_ifs at hm with hp <;> cases hm
  · exact ⟨by simp, held_store (h.dialing hp).1⟩
  · exact ⟨by simp, hreleased⟩
  · exact ⟨hstarted (by simp [hp]), hreleased⟩
  · exact ⟨hstarted (by simp [hp]), h.held⟩
  · exact ⟨by simp, hreleased⟩
  · exact ⟨by simp, h.held⟩
  · exact ⟨by simp, h.held⟩

theorem Shut.release (h : a.Shut) (hh : a.slot.Held) : Shut { a with slot := a.slot.release } where
  dialed := h.dialed
  stream _ hst :=
    ⟨closed_release hh hst, unread_release (fun st hst => (h.stream st hst).2) hst⟩
  pump := h.pump

theorem Shut.move (h : a.Shut) (hsound : a.Sound) (hm : a.move m = some (next, e)) :
    next.Shut ∧ ∀ payload, e ≠ .emit payload := by
  have hr := h.release hsound.held
  cases m
  case dialed ok =>
    rw [move, if_neg h.dialed] at hm
    cases hm
  case arrive bytes =>
    obtain ⟨slot, hslot, -⟩ := map_eq_some_iff.mp hm
    obtain ⟨unread, hs, -⟩ := arrive_eq_some hslot
    exact absurd (h.stream _ hs).1 (by simp)
  case read n =>
    rw [move] at hm
    split_ifs at hm
    obtain ⟨⟨got, slot⟩, hslot, -⟩ := map_eq_some_iff.mp hm
    obtain ⟨st, hs, hu, -⟩ := read_eq_some hslot
    exact absurd (h.stream st hs).2 hu
  case emit sent =>
    rw [move] at hm
    split at hm <;> cases hm
    next payload hp => exact absurd hp (h.pump payload)
  case finish | timeout | remove => cases hm
  all_goals
    rw [move] at hm
    split_ifs at hm
    cases hm
  · exact ⟨{ hr with pump := by simp }, by simp⟩
  · exact ⟨{ h with pump := by simp }, by simp⟩
  · exact ⟨{ hr with dialed := by simp }, by simp⟩
  · exact ⟨{ h with dialed := by simp }, by simp⟩
  · exact ⟨{ h with dialed := by simp }, by simp⟩

def caughtUp (a : UDPFlow) : Bool :=
  a.run ≠ .dialing && (match a.pump with | .holding _ => false | _ => true) &&
    a.slot.stream.all fun st => st.unread.isEmpty

theorem Sound.release (h : a.Sound) (hd : a.run ≠ .dialing) : Sound { a with slot := a.slot.release } :=
  ⟨fun hrun => absurd hrun hd, held_release h.held⟩

theorem shut_of_caughtUp (h : a.Sound) (hc : a.caughtUp) :
    a.run ≠ .dialing ∧ Shut { a with slot := a.slot.release } := by
  simp only [caughtUp, Bool.and_eq_true, decide_eq_true_eq, ne_eq] at hc
  obtain ⟨⟨hrun, hp⟩, hu⟩ := hc
  have hr : ∀ st, a.slot.stream = some st → st.unread = [] := by
    intro st hst
    rw [hst, all_some] at hu
    exact List.isEmpty_iff.mp hu
  refine ⟨hrun, hrun, ?_, ?_⟩
  · intro st hst; exact ⟨closed_release h.held hst, unread_release hr hst⟩
  · intro payload hh
    rw [show a.pump = .holding payload from hh] at hp
    cases hp

end UDPFlow

def Owner.caughtUp : Owner → Bool
  | .udp a => a.caughtUp
  | _ => true

namespace Relays

open Transition StreamSlot UDPFlow Option List

variable {s next : Relays}

def Ended (s : Relays) : Prop :=
  (∀ ref ∈ s.closed, ∀ a, s.owners[ref]? = some (.udp a) → ∀ st, a.slot.stream = some st → st.closed) ∧
    ∀ e ∈ s.emissions, e.late = false

def Kept (closed : Prop) : Owner → Prop
  | .udp a => a.Sound ∧ (closed → a.Shut)
  | _ => True

structure Contained (s : Relays) : Prop where
  owners : ∀ ref owner, s.owners[ref]? = some owner → Kept (ref ∈ s.closed) owner
  closed : ∀ ref ∈ s.closed, ref < s.owners.length
  emissions : ∀ e ∈ s.emissions, e.late = false

theorem contained_init (config : FlowTableConfig) : (init config).Contained :=
  ⟨by simp [init], by simp [init], by simp [init]⟩

theorem Contained.ended (h : s.Contained) : s.Ended := by
  refine ⟨?_, h.emissions⟩
  intro ref hc a ha st hst
  exact (((h.owners ref _ ha).2 hc).stream st hst).1

theorem kept_start (closed : Prop) (ho : ¬ closed) (key : FlowKey) (protocol : ProtocolLabel) :
    Kept closed (Owner.start key protocol) := by
  cases protocol with
  | udp => exact ⟨⟨fun _ => ⟨rfl, rfl⟩, held_empty⟩, fun h => absurd h ho⟩
  | tcp | icmpEcho | unparsed => trivial

theorem Kept.move {closed : Prop} (h : Kept closed owner)
    (hm : owner.move m = some (moved, e)) : Kept closed moved ∧ (closed → ∀ payload, e ≠ .emit payload) := by
  cases owner with
  | udp a =>
    obtain ⟨⟨next, effect⟩, hn, heq⟩ := map_eq_some_iff.mp hm
    cases heq
    obtain ⟨hs, hshut⟩ := h
    exact ⟨⟨hs.move hn, fun hc => ((hshut hc).move hs hn).1⟩, fun hc => ((hshut hc).move hs hn).2⟩
  | icmp | tcp =>
    have hadvances := Owner.advances hm
    have hq : ∀ payload, e ≠ .emit payload := by
      intro payload he
      obtain ⟨a, ha⟩ := hadvances.emits payload he
      cases ha
    obtain ⟨next, -, heq⟩ := map_eq_some_iff.mp hm
    cases heq
    exact ⟨trivial, fun _ => hq⟩

theorem Contained.packet (h : s.Contained) (reg : FlowRegistration) (now : ℤ) : (s.packet reg now).Contained := by
  rw [Relays.packet]
  split_ifs
  · exact h
  rw [register]
  split
  · refine ⟨?_, ?_, h.emissions⟩
    · intro ref owner ho
      by_cases hlt : ref < s.owners.length
      · rw [List.getElem?_append_left hlt] at ho; exact h.owners ref owner ho
      rw [List.getElem?_append_right (not_lt.mp hlt), List.getElem?_singleton] at ho
      split_ifs at ho
      cases ho
      exact kept_start _ (fun hc => hlt (h.closed ref hc)) _ _
    · intro ref hc
      have hlt := h.closed ref hc
      rw [length_append]
      omega
  · exact h

-- A flow is closed only when its association has a stream, or has failed to get
-- one, and has passed on all that came from it.
def Quiesced (s : Relays) : RelayLabel → Prop
  | .hook ref => ∀ owner ∈ s.owners[ref]?, owner.caughtUp
  | _ => True

instance Quiesced.decidable (s : Relays) (label : RelayLabel) : Decidable (s.Quiesced label) := by
  cases label <;> dsimp only [Quiesced] <;> infer_instance

theorem Contained.hook (h : s.Contained) (howner : s.owners[ref]? = some owner)
    (hg : s.Quiesced (.hook ref)) : (s.hook ref owner).Contained := by
  have hlt : ref < s.owners.length := (List.getElem?_eq_some_iff.mp howner).1
  refine ⟨?_, ?_, h.emissions⟩
  · intro i other ho
    rw [Relays.hook, List.getElem?_set] at ho
    split_ifs at ho with href
    · cases ho
      cases owner with
      | udp a =>
        have hs := (h.owners ref _ howner).1
        obtain ⟨hd, hshut⟩ := shut_of_caughtUp hs (hg _ howner)
        exact ⟨hs.release hd, fun _ => hshut⟩
      | icmp | tcp => trivial
    · have hk := h.owners i other ho
      have hsame : i ∈ (s.hook ref owner).closed ↔ i ∈ s.closed := by
        simp [Relays.hook, Ne.symm href]
      rw [hsame]
      exact hk
  · intro i hi
    rw [Relays.hook, length_set]
    rcases mem_append.mp hi with hold | hnew
    · exact h.closed i hold
    · rw [mem_singleton.mp hnew]; exact hlt

theorem Contained.set (h : s.Contained) (howner : s.owners[ref]? = some owner) (hm : owner.move m = some (moved, e)) :
    Contained { s with owners := s.owners.set ref moved } := by
  refine ⟨?_, ?_, h.emissions⟩
  · intro i other ho
    rw [List.getElem?_set] at ho
    split_ifs at ho with href
    · subst href
      cases ho
      exact ((h.owners ref owner howner).move hm).1
    · exact h.owners i other ho
  · intro i hi
    rw [length_set]
    exact h.closed i hi

theorem Contained.move (h : s.Contained) (hs : s.step (.move ref m) = some next) : next.Contained := by
  simp only [step, bind_eq_bind, bind_eq_some_iff] at hs
  obtain ⟨owner, ho, ⟨moved, e⟩, hm, hn⟩ := hs
  cases hn
  have hset := h.set ho hm
  cases e with
  | nothing => exact hset
  | remove => exact { hset with }
  | emit payload =>
    refine { hset with emissions := ?_ }
    intro emission he
    rcases mem_append.mp he with hold | hnew
    · exact h.emissions emission hold
    · rw [mem_singleton.mp hnew]
      have hopen : ref ∉ s.closed := fun hc => ((h.owners ref owner ho).move hm).2 hc payload rfl
      simp [hopen]

theorem Contained.step (h : s.Contained) (hg : s.Quiesced label) (hs : s.step label = some next) : next.Contained := by
  cases label with
  | packet reg now => cases hs; exact h.packet reg now
  | closePeer _ | reapIdle _ | drain | close | touch _ _ _ =>
    cases hs
    exact { h with }
  | hook ref =>
    rw [Relays.step] at hs
    split_ifs at hs
    obtain ⟨owner, ho, rfl⟩ := map_eq_some_iff.mp hs
    exact h.hook ho hg
  | forget ref =>
    rw [Relays.step] at hs
    split_ifs at hs
    obtain ⟨owner, -, rfl⟩ := map_eq_some_iff.mp hs
    exact { h with }
  | move ref m => exact h.move hs

theorem egress_ends_with_flow (config : FlowTableConfig) (labels : List RelayLabel)
    (h : Along step Quiesced (init config) labels) : Always step Ended (init config) labels := by
  have hinv := always_of_invariant (fun s label next hinv hguard hstep => hinv.step hguard hstep) (init config) labels
      (contained_init config) h
  exact hinv.mono fun s hs => hs.ended

section Runs

def queryKey : FlowKey := ⟨"peer-a", .udp, ⟨10, 5000⟩, ⟨20, 53⟩⟩

def servingConfig : FlowTableConfig := ⟨0, 0, 300⟩

def answered : List RelayLabel :=
  [.packet ⟨queryKey, 0⟩ 0, .move 0 (.dialed true), .move 0 (.arrive [7]), .move 0 (.read 1),
    .move 0 (.emit true), .closePeer "peer-a", .hook 0, .forget 0, .move 0 .readFail, .move 0 .pumpRemove]

theorem egress_ends_when_answered :
    Along step Quiesced (init servingConfig) answered ∧ Always step Ended (init servingConfig) answered := by
  have hguard : Along step Quiesced (init servingConfig) answered := by decide +kernel
  exact ⟨hguard, egress_ends_with_flow servingConfig answered hguard⟩

def revokedWhileDialing : List RelayLabel :=
  [.packet ⟨queryKey, 0⟩ 0, .closePeer "peer-a", .hook 0, .forget 0, .move 0 (.dialed true),
    .move 0 (.arrive [7]), .move 0 (.read 1), .move 0 (.emit true), .move 0 .writerDone]

def Outlived (s : Relays) : Prop :=
  s.closed = [0] ∧ s.owners = [.udp ⟨queryKey, .returned, .reading, ⟨some ⟨[], false⟩, true, true⟩⟩] ∧
    s.emissions = [⟨0, [7], true⟩]
  deriving Decidable

theorem Outlived.not_ended (h : s.Outlived) : ¬ s.Ended := by
  obtain ⟨-, -, he⟩ := h
  intro hended
  have hl := hended.2 ⟨0, [7], true⟩ (by rw [he]; exact mem_singleton_self _)
  cases hl

theorem stream_outlives_flow :
    ∃ final, run step (init servingConfig) revokedWhileDialing = some final ∧ final.Outlived ∧ ¬ final.Ended := by
  obtain ⟨final, hrun, hout⟩ : ∃ final, run step (init servingConfig) revokedWhileDialing = some final ∧ final.Outlived :=
    exists_run_of_any (by decide +kernel)
  exact ⟨final, hrun, hout, hout.not_ended⟩

end Runs

end Relays

end TunnelMesh.Vpn
