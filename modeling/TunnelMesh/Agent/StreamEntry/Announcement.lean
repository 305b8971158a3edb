import TunnelMesh.Agent.StreamEntry.Theorems
import TunnelMesh.Transition

namespace TunnelMesh.Agent

open Protocol Session StreamEntry Option List Transition Intake

variable {π : Type} {size : π → ℕ}

def Pump.postedUpdates : Pump π → List ℕ
  | .posting update => [update]
  | _ => []

def Intake.adding (q : Intake π) : Pump π → List ℕ
  | .flushing update => (q.addReceiveWindow update).pump.postedUpdates
  | _ => []

namespace StreamEntry

def addedBy (e : StreamEntry π) : EntryLabel π → List ℕ
  | .pump _ => e.intake.adding e.intake.pump
  | _ => []

def posting (e : StreamEntry π) : EntryLabel π → Option ℕ
  | .pump _ =>
    match e.intake.pump with
    | .posting update => some update
    | _ => none
  | _ => none

end StreamEntry

-- An entry with the control queue that all streams of its session share.
-- Recorded are the credit returned to the receive window, the WINDOW_UPDATE
-- frames that the session has accepted and the bytes that came in.
structure Announced (π : Type) where
  entry : StreamEntry π
  control : ControlQueue (Option ℕ)
  added : List ℕ
  accepted : List ℕ
  received : ℕ

inductive AnnouncedLabel (π : Type) where
  | entry (label : EntryLabel π)
  | other
  | sent
  | close

namespace Announced

variable (inboundBytes window : ℕ)

def opened : Announced π := ⟨.opened inboundBytes window, .empty, [], [], 0⟩

def move (size : π → ℕ) (bufferSize : ℕ) (a : Announced π) (label : EntryLabel π) : Option (Announced π) :=
  (a.entry.step size bufferSize label).map fun moved =>
    { a with
      entry := moved.entry
      added := a.added ++ a.entry.addedBy label
      received := a.received + label.bytes size }

def step (size : π → ℕ) (bufferSize : ℕ) (a : Announced π) : AnnouncedLabel π → Option (Announced π)
  | .entry label =>
    match a.entry.posting label with
    | none => a.move size bufferSize label
    | some update =>
      match a.control.enqueueControl (some update) with
      | some control =>
        move size bufferSize { a with control, accepted := a.accepted ++ [update] } (.pump .ok)
      | none => a.move size bufferSize (.pump .failed)
  | .other => (a.control.enqueueControl none).map fun control => { a with control }
  | .sent => a.control.next.map fun (_, control) => { a with control }
  | .close => some { a with control := a.control.close }

def Room (a : Announced π) : AnnouncedLabel π → Prop
  | .entry label => a.entry.posting label ≠ none → a.control.HasRoom
  | .other | .sent | .close => True

instance (a : Announced π) (label : AnnouncedLabel π) : Decidable (a.Room label) := by
  cases label <;> dsimp only [Room] <;> infer_instance

-- As long as the stream lives, all credit that went back to the receive window
-- was accepted by the session or is just being handed to it, and the window is
-- not ahead of what the Server is told.
structure Told (a : Announced π) : Prop where
  exact : a.added = a.accepted ++ a.entry.intake.pump.postedUpdates
  window : a.entry.intake.receiveState.receiveWindow + a.received = defaultAgentReceiveWindow + a.added.sum

variable {a next : Announced π}

theorem told_opened : (opened inboundBytes window : Announced π).Told :=
  ⟨rfl, (openedState_window (show defaultAgentReceiveWindow ≠ 0 by decide)).2⟩

theorem admitInbound_window {q after : Intake π} (h : q.admitInbound size payload = .ok after) :
    after.pump = q.pump ∧ after.receiveState.receiveWindow + size payload = q.receiveState.receiveWindow := by
  obtain ⟨hroom, rfl⟩ := admitInbound_ok h
  refine ⟨rfl, ?_⟩
  simp only
  omega

theorem pop_window {q after : Intake π} (h : q.pop = some after) :
    after.pump.postedUpdates = [] ∧ after.receiveState = q.receiveState := by
  cases pop_popped h <;> exact ⟨rfl, rfl⟩

theorem release_window (q : Intake π) (written : ℕ) : (q.releaseReceiveWindow written).pump.postedUpdates = [] ∧
      (q.releaseReceiveWindow written).receiveState = q.receiveState := by
  unfold releaseReceiveWindow
  split
  · exact ⟨rfl, rfl⟩
  · simp only; split <;> exact ⟨rfl, rfl⟩

theorem add_window (q : Intake π) (update : ℕ) : (q.addReceiveWindow update).receiveState.receiveWindow =
      q.receiveState.receiveWindow + (q.addReceiveWindow update).pump.postedUpdates.sum := by
  unfold addReceiveWindow
  split
  · next receiveState hadd =>
    obtain rfl := StreamState.addReceiveWindow_ok hadd
    simp [Pump.postedUpdates]
  · simp [Pump.postedUpdates]

theorem effect_told {e : StreamEntry π}
    (he : Effect size e label moved) (hpresent : moved.entry.present) (hposting : e.posting label = none) :
    moved.entry.intake.pump.postedUpdates = e.intake.pump.postedUpdates ++ e.addedBy label ∧
      moved.entry.intake.receiveState.receiveWindow + label.bytes size =
        e.intake.receiveState.receiveWindow + (e.addedBy label).sum := by
  cases he with
  | admitted _ _ hok =>
    obtain ⟨hp, hw⟩ := admitInbound_window hok
    simp only [quietly, hp, addedBy, append_nil, sum_nil]
    exact ⟨trivial, hw⟩
  | halfClosed => simp [quietly, addedBy, EntryLabel.bytes]
  | popped hp hpop =>
    obtain ⟨hposted, hs⟩ := pop_window hpop
    rw [addedBy, hp]
    exact ⟨hposted, by rw [quietly, hs]; rfl⟩
  | wrote hp | closedWrite hp => rw [addedBy, hp]; exact ⟨rfl, rfl⟩
  | completed | ended => cases hpresent
  | released hp =>
    rw [addedBy, hp]
    obtain ⟨hposted, hs⟩ := release_window e.intake _
    exact ⟨hposted, by rw [quietly, hs]; rfl⟩
  | added hp => rw [addedBy, hp]; exact ⟨rfl, add_window e.intake _⟩
  | posted hp | lost hp => simp only [posting, hp] at hposting; cases hposting
  | aside hl hd hi hsame =>
    have hn : e.addedBy label = [] := by
      cases label with
      | pump outcome => exact absurd rfl (hl outcome)
      | _ => rfl
    rw [hi, hn, bytes_of_ne_data (hd (hsame.symm.trans hpresent))]
    simp
  | dropped hg => rw [hg] at hpresent; cases hpresent

theorem move_told (h : a.entry.present → a.Told) (hposting : a.entry.posting label = none)
    (hmove : a.move size bufferSize label = some next) (hp : next.entry.present) : next.Told := by
  obtain ⟨moved, hm, rfl⟩ := map_eq_some_iff.mp hmove
  obtain ⟨he, hwindow⟩ := h (step_present hm hp)
  obtain ⟨hposted, hgrows⟩ := effect_told (step_effect hm) hp hposting
  refine ⟨?_, ?_⟩
  · rw [he, hposted, append_assoc]
  · simp only [sum_append]; omega

theorem posting_eq_some {e : StreamEntry π} (h : e.posting label = some update) : e.intake.pump = .posting update := by
  cases label with
  | pump outcome =>
    simp only [posting] at h
    split at h
    · next posted hp => rw [hp, some.inj h]
    · cases h
  | _ => cases h

theorem accepted_told {control : ControlQueue (Option ℕ)} (h : a.Told) (hp : a.entry.intake.pump = .posting update)
    (hm : move size bufferSize { a with control, accepted := a.accepted ++ [update] } (.pump .ok) = some next) :
    next.Told := by
  obtain ⟨he, hw⟩ := h
  simp only [move, StreamEntry.step, StreamEntry.pumpTarget, hp, map_some] at hm
  cases hm
  have ha : a.entry.addedBy (.pump .ok) = [] := by rw [StreamEntry.addedBy, hp]; rfl
  rw [hp] at he
  refine ⟨?_, ?_⟩
  · simp only [ha, append_nil]; exact he.trans (append_nil _).symm
  · simp only [ha, append_nil]; exact hw

theorem step_told {label : AnnouncedLabel π} (h : a.entry.present → a.Told) (hr : a.Room label)
    (hs : a.step size bufferSize label = some next) : next.entry.present → next.Told := by
  intro hp
  cases label with
  | entry label =>
    simp only [step] at hs
    split at hs
    · next hn => exact move_told h hn hs hp
    · next update hsome =>
      have hpump := posting_eq_some hsome
      have hhas := hr (by rw [hsome]; exact some_ne_none _)
      rw [ControlQueue.enqueueControl_of_room hhas] at hs
      have hnow : a.entry.present := by
        obtain ⟨moved, hm, rfl⟩ := map_eq_some_iff.mp hs
        exact step_present hm hp
      exact accepted_told (h hnow) hpump hs
  | other | sent =>
    obtain ⟨control, -, rfl⟩ := map_eq_some_iff.mp hs
    exact ⟨(h hp).exact, (h hp).window⟩
  | close => cases hs; exact ⟨(h hp).exact, (h hp).window⟩

def CreditTold (a : Announced π) : Prop := a.entry.present → a.Told

theorem always_told (labels : List (AnnouncedLabel π))
    (ha : Along (step size bufferSize) Room (opened inboundBytes window) labels) :
    Always (step size bufferSize) CreditTold (opened inboundBytes window) labels :=
  always_of_invariant (fun _ _ _ => step_told) _ labels
    (fun _ => told_opened inboundBytes window) ha

def flushRun : List (AnnouncedLabel ℕ) :=
  .entry (.data defaultWindowUpdateThreshold) :: List.replicate 5 (.entry (.pump .ok))

end Announced

end TunnelMesh.Agent
