import TunnelMesh.Relay.CrossNode

namespace TunnelMesh.Relay

open Transition List RelayMessage

variable {α : Type}

def RelayMessage.bytes : RelayMessage α → List α
  | .data payload => payload
  | .control _ => []

def RelayMessage.isControl : RelayMessage α → Bool
  | .data _ => false
  | .control _ => true

-- The messages that come to the Client's node, the end of the relay stream, and the
-- calls of `Read`. Nobody calls `ReadControl`.
inductive ConnLabel (α : Type) where
  | recv (message : RelayMessage α)
  | finish
  | read (size : ℕ)

namespace CrossNode

variable (s : CrossNode α)

def connStep : ConnLabel α → Option (CrossNode α)
  | .recv message => some (s.sendDown message)
  | .finish => some { s with serving := false }
  | .read size => if s.client.result ≠ none ∨ size = 0 then none else s.readConn size

def carried : ConnLabel α → List α
  | .recv message => if s.serving then message.bytes else []
  | .finish | .read _ => []

def mirrored : ℕ := s.controlCh.length + s.down.countP isControl

def FewMirrored : ConnLabel α → Prop
  | .recv (.control _) => s.mirrored < 16
  | .recv (.data _) | .finish | .read _ => True

instance (s : CrossNode α) (label : ConnLabel α) : Decidable (s.FewMirrored label) := by
  unfold FewMirrored
  split <;> infer_instance

def unread : List α := s.client.received ++ s.pending ++ s.down.flatMap bytes

structure Readable (s : CrossNode α) : Prop where
  room : s.mirrored ≤ 16
  ended : s.client.result ≠ none → s.serving = false ∧ s.pending = [] ∧ s.down = []

variable {s next : CrossNode α}

theorem readConn_readable (h : s.Readable) (ho : s.client.result = none) (hs : s.readConn size = some next) :
    next.Readable ∧ next.unread = s.unread := by
  have hroom := h.room
  unfold readConn at hs
  split at hs
  · cases hs
    refine ⟨⟨hroom, fun hr => absurd ho hr⟩, ?_⟩
    simp [unread, ClientNode.receive]
  · next hp =>
    have hp : s.pending = [] := by simpa using hp
    split at hs
    · next payload rest hd =>
      cases hs
      refine ⟨⟨?_, fun hr => absurd ho hr⟩, ?_⟩
      · simpa [mirrored, hd, isControl] using hroom
      · simp [unread, ClientNode.receive, hp, hd, bytes]
    · next credit rest hd =>
      have hf : s.controlCh.length < 16 := by
        simp only [mirrored, hd, countP_cons, isControl, if_true] at hroom
        omega
      rw [if_pos hf] at hs
      cases hs
      refine ⟨⟨?_, fun hr => absurd ho hr⟩, ?_⟩
      · simp only [mirrored, hd, countP_cons, isControl, if_true, length_append, length_singleton] at hroom ⊢
        omega
      · simp [unread, hd, bytes]
    · next hd =>
      split at hs <;> cases hs
      next hover => exact ⟨⟨hroom, fun _ => ⟨by simpa using hover, hp, hd⟩⟩, rfl⟩

theorem connStep_readable (h : s.Readable) (hf : s.FewMirrored label) (hs : s.connStep label = some next) :
    next.Readable ∧ next.unread = s.unread ++ s.carried label := by
  cases label with
  | recv message =>
    cases hs
    unfold sendDown carried
    split
    · next hserving =>
      refine ⟨⟨?_, fun hr => ?_⟩, by simp [unread]⟩
      · have hroom := h.room
        cases message with
        | data payload => simpa [mirrored, isControl] using hroom
        | control credit =>
          have hf : s.mirrored < 16 := hf
          simp only [mirrored, countP_append, countP_singleton, isControl, if_true] at hf ⊢
          omega
      · rw [(h.ended hr).1] at hserving; cases hserving
    · exact ⟨h, (append_nil _).symm⟩
  | finish =>
    cases hs
    exact ⟨⟨h.room, fun hr => ⟨rfl, (h.ended hr).2⟩⟩, (append_nil _).symm⟩
  | read size =>
    simp only [connStep, Option.ite_none_left_eq_some, not_or, not_not] at hs
    rw [carried, append_nil]
    exact readConn_readable h hs.1.1 hs.2

theorem run_readable (h : s.Readable) (hf : Along connStep FewMirrored s labels)
    (hrun : run connStep s labels = some next) :
    next.Readable ∧ next.unread = s.unread ++ outputs connStep carried s labels := by
  induction labels generalizing s with
  | nil => cases hrun; exact ⟨h, (append_nil _).symm⟩
  | cons label rest ih =>
    obtain ⟨mid, hs, hrest⟩ := (run_cons_eq_some s next label rest).mp hrun
    obtain ⟨hnow, hl⟩ := hf mid hs
    obtain ⟨hmid, hunread⟩ := connStep_readable h hnow hs
    obtain ⟨hr, hu⟩ := ih hmid hl hrest
    refine ⟨hr, ?_⟩
    rw [hu, hunread, outputs, hs, Option.elim_some, append_assoc]

-- As long as no more than sixteen updates are mirrored, the payloads are read in
-- order and an error is the end of the relay stream. A `Read` that has something to
-- return does not wait.
theorem read_survives_few_updates (window : ℕ) (labels : List (ConnLabel α)) (s : CrossNode α)
    (hf : Along connStep FewMirrored (opened window) labels) (hrun : run connStep (opened window) labels = some s) :
    s.client.received <+: outputs connStep carried (opened window) labels ∧ (s.client.result ≠ none →
        s.serving = false ∧ s.client.received = outputs connStep carried (opened window) labels) ∧
      (s.client.result = none → s.pending ≠ [] ∨ s.down ≠ [] → ∀ size ≠ 0, (s.connStep (.read size)).isSome) := by
  obtain ⟨hr, hu⟩ := run_readable (s := opened window) ⟨Nat.zero_le 16, fun h => absurd rfl h⟩ hf hrun
  replace hu : s.unread = outputs connStep carried (opened window) labels := hu
  refine ⟨hu ▸ ⟨_, (append_assoc ..).symm⟩, fun he => ⟨(hr.ended he).1, ?_⟩, fun ho hwaits size hz => ?_⟩
  · rw [← hu, unread, (hr.ended he).2.1, (hr.ended he).2.2]; simp
  · simp only [connStep, ho, hz, ne_eq, not_true_eq_false, or_self, if_false, readConn]
    split
    · rfl
    · next hp =>
      have hd := hwaits.resolve_left (by simpa using hp)
      split
      · rfl
      · split <;> rfl
      · next he => exact absurd he hd

theorem two_updates_read :
    let labels : List (ConnLabel ℕ) := [.recv (.control 1), .recv (.control 1), .recv (.data [7]), .read 1, .read 1, .read 1]
    Along connStep FewMirrored (opened 0) labels ∧
      ∃ s, run connStep (opened 0) labels = some s ∧ s.client.received <+: [7] := by
  have hf : Along connStep FewMirrored (opened 0 : CrossNode ℕ)
      [.recv (.control 1), .recv (.control 1), .recv (.data [7]), .read 1, .read 1, .read 1] := by decide
  exact ⟨hf, _, rfl, (read_survives_few_updates 0 _ _ hf rfl).1⟩

theorem seventeenth_update_fails : ((run connStep (opened 0 : CrossNode ℕ)
        (replicate 17 (.recv (.control 1)) ++ .recv (.data [7]) :: replicate 17 (.read 1))).any fun s =>
      s.serving && s.client.result.isSome && s.client.received.isEmpty) = true := by decide +kernel

end CrossNode

end TunnelMesh.Relay
