import Mathlib.Algebra.BigOperators.Group.List.Basic
import TunnelMesh.Relay.AgentStream.Theorems

namespace TunnelMesh.Relay

open Protocol AgentRelayStream Reader ReadLabel List

variable {α : Type}

def Frame.bytes : Frame α → ℕ
  | .data payload => payload.length
  | .halfClose => 0
  | .windowUpdate _ => 0
  | .reset => 0

def Frame.credit : Frame α → ℕ
  | .windowUpdate credit => credit
  | .data _ => 0
  | .halfClose => 0
  | .reset => 0

def ReadLabel.credit : ReadLabel α → ℕ
  | .frame f => f.credit
  | _ => 0

def ReadLabel.bytes : ReadLabel α → ℕ
  | .frame f => f.bytes
  | _ => 0

namespace AgentRelayStream

variable {s next : AgentRelayStream α}

theorem released_total (h : s.releaseReceiveWindow windows consumed = (next, update)) :
    next.receiveUnacked + update ≤ s.receiveUnacked + consumed ∧ (s.err = none → s.receiveUnacked + consumed < 2 ^ 32 →
        next.receiveUnacked + update = s.receiveUnacked + consumed) := by
  have hle : uint32 (s.receiveUnacked + uint32 consumed) ≤ s.receiveUnacked + consumed := by
    have hinner : uint32 consumed ≤ consumed := Nat.mod_le ..
    have houter : uint32 (s.receiveUnacked + uint32 consumed) ≤ s.receiveUnacked + uint32 consumed := Nat.mod_le ..
    omega
  have he : s.receiveUnacked + consumed < 2 ^ 32 →
      uint32 (s.receiveUnacked + uint32 consumed) = s.receiveUnacked + consumed := fun hf => by
    rw [uint32_of_lt (show consumed < 2 ^ 32 by omega), uint32_of_lt hf]
  rcases s.releaseReceiveWindow_cases windows consumed with
    ⟨hs, hc⟩ | ⟨-, unacked, rfl, ⟨-, hc⟩ | ⟨-, hc⟩⟩ <;>
    obtain ⟨rfl, rfl⟩ := Prod.mk.inj (hc.symm.trans h)
  · refine ⟨by omega, fun herr _ => ?_⟩; rw [hs.resolve_right fun hne => hne herr]
  · exact ⟨by simpa using hle, fun _ hf => by simpa using he hf⟩
  · exact ⟨hle, fun _ hf => he hf⟩

theorem released_residue (hthreshold : windows.thresholdFor (uint32 s.receiveBudget) = threshold)
    (hb : s.receiveUnacked < threshold) (h : s.releaseReceiveWindow windows consumed = (next, update)) :
    next.receiveUnacked < threshold := by
  rcases s.releaseReceiveWindow_cases windows consumed with
    ⟨-, hc⟩ | ⟨-, unacked, -, ⟨-, hc⟩ | ⟨hkept, hc⟩⟩
  · obtain ⟨rfl, -⟩ := Prod.mk.inj (hc.symm.trans h); exact hb
  · obtain ⟨rfl, -⟩ := Prod.mk.inj (hc.symm.trans h)
    simp only
    omega
  · obtain ⟨rfl, -⟩ := Prod.mk.inj (hc.symm.trans h)
    simp only
    omega

end AgentRelayStream

namespace Reading

variable {windows : AgentRelayWindowConfig} {r next : Reading α} {label : ReadLabel α}

def held (r : Reading α) : ℕ :=
  r.stream.unread.length + r.reader.owed + r.stream.receiveUnacked + r.outbox.sum

variable {s : AgentRelayStream α}

theorem unacked_of_inbound (h : s.inbound = i) : s.receiveUnacked = i.unacked := congrArg Inbound.unacked h

theorem budget_of_inbound (h : s.inbound = i) : s.receiveBudget = i.budget :=
  congrArg Inbound.budget h

theorem held_of_inbound {stream : AgentRelayStream α} (h : stream.inbound = i)
    (handler : Option (RelayError × Bool)) (accepted : List (List α)) :
    held { r with stream, handler, accepted } = i.unread.length + r.reader.owed + i.unacked + r.outbox.sum := by
  rw [held, unread_of_inbound h, unacked_of_inbound h]

theorem held_took {size : ℕ} (hr : r.reader = .looking size) :
    held { r with stream := r.stream.take size, reader := .releasing (r.stream.unread.take size) } = r.held := by
  have hi := r.stream.inbound_take size
  have hunread := unread_of_inbound hi
  have hu := unacked_of_inbound hi
  have hsplit : (r.stream.unread.take size).length + (r.stream.unread.drop size).length = r.stream.unread.length := by
    rw [← length_append, take_append_drop]
  simp only [held, hr, owed, hunread, hu, inbound]
  omega

def Live (r : Reading α) : Prop := r.stream.err = none ∧ r.handler = none

def Open (r : Reading α) : Prop := r.Live ∧ r.stream.attached ∧ r.stream.remoteHalf = false

theorem attached_of_inbound (h : s.inbound = i) : s.attached = i.attached :=
  congrArg Inbound.attached h

theorem effect_attached (heffect : Effect windows r label next) (h : next.stream.attached) : r.stream.attached := by
  cases heffect with
  | call _ hs | accepted _ _ _ _ hs => exact (attached_of_inbound hs).symm.trans h
  | took => exact (attached_of_inbound (r.stream.inbound_take _)).symm.trans h
  | released _ hr | flushing _ _ hr =>
    exact (attached_of_inbound (r.stream.released_inbound hr)).symm.trans h
  | lost | reset | fail => cases h
  | refused hi hs => cases (attached_of_inbound hs).symm.trans h
  | aside hlabel hs hsame hstill => exact hstill ((attached_of_inbound hs).symm.trans h)
  | publish hi hs => exact (Bool.and_eq_true_iff.mp ((attached_of_inbound hs).symm.trans h)).1
  | _ => exact h

theorem half_of_inbound (h : s.inbound = i) : s.remoteHalf = i.remoteHalf :=
  congrArg Inbound.remoteHalf h

theorem live_of_inbound (h : next.Live) (hs : next.stream.inbound = i)
    (herr : i.err = r.stream.err) (hhalf : i.remoteHalf = r.stream.remoteHalf)
    (ha : i.attached = r.stream.attached ∨ r.stream.remoteHalf) (hh : next.handler = r.handler) :
    r.Live ∧ (r.Open → next.Open) := by
  refine ⟨⟨?_, hh.symm.trans h.2⟩, fun ho => ⟨h, ?_, ?_⟩⟩
  · rw [← herr, ← err_of_inbound hs, h.1]
  · rw [attached_of_inbound hs, ha.resolve_right (by simp [ho.2.2]), ho.2.1]
  · rw [half_of_inbound hs, hhalf, ho.2.2]

section

variable (heffect : Effect windows r label next)

include heffect

theorem effect_live (h : next.Live) : r.Live ∧ (r.Open → next.Open) := by
  cases heffect with
  | call hl hs hreader hnext hsize hgap hrest => exact live_of_inbound h hs rfl rfl (.inl rfl) hrest.1
  | failed | flushed | ignored => exact live_of_inbound h rfl rfl rfl (.inl rfl) rfl
  | took => exact live_of_inbound h (r.stream.inbound_take _) rfl rfl (.inl rfl) rfl
  | released _ hr | flushing _ _ hr =>
    exact live_of_inbound h (r.stream.released_inbound hr) rfl rfl (.inl rfl) rfl
  | lost | fail => exact absurd h.1 (published_ne_none _ _)
  | accepted hi hhalf hnone hroom hs => exact live_of_inbound h hs rfl rfl (.inl rfl) rfl
  | refused | halfClosed | reset => cases h.2
  | aside hl hs hsame => exact live_of_inbound h hs rfl rfl hsame rfl
  | publish hi hs => exact absurd ((err_of_inbound hs).symm.trans h.1) (published_ne_none _ _)

-- A step adds the bytes it accepts. Credit is lost only where the stream ends or
-- where the residue wraps.
theorem effect_held : next.held ≤ r.held + label.bytes ∧
      (r.Open → next.Live → r.held < 2 ^ 32 → next.held = r.held + label.bytes) := by
  have hof : next.held = r.held + label.bytes → _ := fun hsame =>
    And.intro hsame.le fun (_ : r.Open) (_ : next.Live) (_ : r.held < 2 ^ 32) => hsame
  cases heffect with
  | @call label next hlabel hs hr hn hsize hgap hrest =>
    have hb : label.bytes = 0 := by
      cases label with
      | frame f => exact absurd rfl (hlabel.1 f)
      | _ => rfl
    refine hof ?_
    simp only [held, unread_of_inbound hs, unacked_of_inbound hs, owed_of_bare hr,
      owed_of_bare hn, hrest.2.1, hb, inbound]
    omega
  | failed hr => exact hof (by simp [held, hr, owed, bytes])
  | took hr => exact hof (held_took hr)
  | released hr hrelease | flushing hr _ hrelease =>
    have hu := unread_of_inbound (r.stream.released_inbound hrelease)
    obtain ⟨hle, he⟩ := released_total hrelease
    simp only [held, hr, owed, hu, bytes, inbound]
    refine ⟨by omega, fun ho _ hfits => ?_⟩
    have htotal := he ho.1.1 (by omega)
    omega
  | flushed hr =>
    refine hof ?_
    simp only [held, hr, owed, sum_append, sum_singleton, bytes]
    omega
  | lost hr =>
    have hu : (r.stream.detach.finish .disconnected).unread = r.stream.unread := rfl
    have hunacked : (r.stream.detach.finish .disconnected).receiveUnacked = r.stream.receiveUnacked := rfl
    refine ⟨?_, fun _ hl => absurd hl.1 (published_ne_none _ _)⟩
    simp only [held, hr, owed, hu, hunacked]
    omega
  | ignored hd => exact ⟨Nat.le_add_right .., fun ho => by simp [ho.2.1] at hd⟩
  | accepted hi ho hnone hroom hs =>
    refine hof ?_
    rw [held_of_inbound hs]
    simp only [held, bytes, Frame.bytes, inbound, length_append]
    omega
  | refused hhandler hs =>
    rw [held_of_inbound hs]
    exact ⟨Nat.le_add_right .., fun _ hl => by cases hl.2⟩
  | halfClosed | reset => exact ⟨Nat.le_add_right .., fun _ hl => by cases hl.2⟩
  | @aside label stream attached hlabel hs hsame =>
    have hb : label.bytes = 0 := by
      cases label with
      | frame f =>
        cases f with
        | data payload => exact absurd rfl (hlabel.1 payload)
        | _ => rfl
      | _ => rfl
    exact hof (by rw [held_of_inbound hs, hb]; rfl)
  | publish hi hs =>
    refine ⟨by rw [held_of_inbound hs]; exact Nat.le_add_right .., fun _ hl => ?_⟩
    exact absurd ((err_of_inbound hs).symm.trans hl.1) (published_ne_none _ _)
  | fail => exact ⟨Nat.le_add_right .., fun _ hl => absurd hl.1 (published_ne_none _ _)⟩

theorem effect_window :
    next.stream.receiveBudget = r.stream.receiveBudget ∧ (next.stream.receiveUnacked = r.stream.receiveUnacked ∨
      ∃ consumed update, r.stream.releaseReceiveWindow windows consumed = (next.stream, update)) := by
  cases heffect with
  | call _ hs | accepted _ _ _ _ hs | refused _ hs | aside _ hs | publish _ hs =>
    exact ⟨budget_of_inbound hs, .inl (unacked_of_inbound hs)⟩
  | took =>
    exact ⟨budget_of_inbound (r.stream.inbound_take _), .inl (unacked_of_inbound (r.stream.inbound_take _))⟩
  | released hreader hr | flushing hreader _ hr =>
    exact ⟨budget_of_inbound (r.stream.released_inbound hr), .inr ⟨_, _, hr⟩⟩
  | _ => exact ⟨rfl, .inl rfl⟩

end

theorem effect_residue (ht : windows.thresholdFor (uint32 r.stream.receiveBudget) = threshold)
    (heffect : Effect windows r label next) (h : r.stream.receiveUnacked < threshold) :
    next.stream.receiveUnacked < threshold := by
  rcases (effect_window heffect).2 with hs | ⟨consumed, update, hr⟩
  · rwa [hs]
  · exact released_residue ht h hr

end Reading

end TunnelMesh.Relay
