import TunnelMesh.Protocol.StreamMachine

namespace TunnelMesh.Protocol

open StreamOperation FrameType Option StreamMachine

namespace StreamStatus

def rank : StreamStatus → ℕ
  | .idle => 0
  | .opened => 1
  | .halfClosedLocal => 2
  | .halfClosedRemote => 2
  | .closed => 3
  | .reset => 3

def Forward (a b : StreamStatus) : Prop := b = a ∨ a.rank < b.rank

def Terminal (a : StreamStatus) : Prop := a = .closed ∨ a = .reset

end StreamStatus

theorem toNat_add_of_room {a b : UInt32} (h : ¬2 ^ 32 - 1 < a.toNat + b.toNat) :
    (a + b).toNat = a.toNat + b.toNat := by rw [UInt32.toNat_add, Nat.mod_eq_of_lt (by omega)]

theorem toNat_length (h : n ≤ maxPayload) : (UInt32.ofNat n).toNat = n := by
  have hlt : n < 2 ^ 32 := by unfold maxPayload at h; omega
  exact UInt32.toNat_ofNat_of_lt' hlt

variable (s : StreamMachine) (op : StreamOperation)

structure Accepted (next : StreamMachine) : Prop where
  id : next.id = s.id
  live : ¬s.status.Terminal
  forward : s.status.Forward next.status
  send : (next.sendWindow.toNat : ℤ) =
    op.announcedWindow.elim (s.sendWindow.toNat + op.sendCredit - op.sendConsumption : ℤ) (fun window => window)
  receive : (next.receiveWindow.toNat : ℤ) = s.receiveWindow.toNat + op.receiveCredit - op.receiveConsumption

def Settled (outcome : MachineOutcome) : Prop :=
  (∃ e, outcome = (s, some e)) ∨ ∃ next, outcome = (next, none) ∧ Accepted s op next

section Settled

variable {s : StreamMachine} {op : StreamOperation}

theorem Settled.refused (e : MachineError) : Settled s op (s, some e) := Or.inl ⟨e, rfl⟩

theorem Settled.guard {p : Prop} [Decidable p] {e : MachineError} {outcome : MachineOutcome}
    (h : ¬p → Settled s op outcome) : Settled s op (if p then (s, some e) else outcome) := by
  split
  · exact .refused e
  · exact h ‹_›

theorem Settled.accepted {next : StreamMachine} (h : Accepted s op next) : Settled s op (next, none) :=
  Or.inr ⟨next, rfl, h⟩

structure StreamOperation.Plain (op : StreamOperation) : Prop where
  announced : op.announcedWindow = none
  sendCredit : op.sendCredit = 0
  sendConsumption : op.sendConsumption = 0
  receiveCredit : op.receiveCredit = 0
  receiveConsumption : op.receiveConsumption = 0

theorem plain_handle {f : Frame} (ho : f.type ≠ openStream) (hd : f.type ≠ data)
    (hu : f.type ≠ windowUpdate) : (handle f).Plain where
  announced := if_neg fun h => ho h.1
  sendCredit := if_neg hu
  sendConsumption := rfl
  receiveCredit := rfl
  receiveConsumption := if_neg hd

theorem Settled.status {status : StreamStatus} (hop : op.Plain) (hl : ¬s.status.Terminal)
    (hf : s.status.Forward status) : Settled s op ({ s with status }, none) := by
  refine .accepted ⟨rfl, hl, hf, ?_, ?_⟩
  · rw [hop.announced, hop.sendCredit, hop.sendConsumption, elim_none]
    exact (Int.sub_zero _).symm.trans (by rw [Int.natCast_zero, Int.add_zero])
  · rw [hop.receiveCredit, hop.receiveConsumption]
    exact (Int.sub_zero _).symm.trans (by rw [Int.natCast_zero, Int.add_zero])

theorem Settled.advance {status : StreamStatus} (hop : op.Plain) (h : s.status.rank < status.rank) :
    Settled s op ({ s with status }, none) := by
  refine .status hop ?_ (Or.inr h)
  have hmax : status.rank ≤ 3 := by cases status <;> decide
  rintro (hc | hr)
  · rw [hc] at h; exact absurd hmax (Nat.not_le.mpr h)
  · rw [hr] at h; exact absurd hmax (Nat.not_le.mpr h)

theorem Settled.sendCredit {n : UInt32} (hl : ¬s.status.Terminal) (ha : op.announcedWindow = none)
    (hcredit : op.sendCredit = n.toNat) (hc : op.sendConsumption = 0) (hreceive : op.receiveCredit = 0)
    (hr : op.receiveConsumption = 0) (hroom : ¬2 ^ 32 - 1 < s.sendWindow.toNat + n.toNat) :
    Settled s op ({ s with sendWindow := s.sendWindow + n }, none) := by
  refine .accepted ⟨rfl, hl, Or.inl rfl, ?_, ?_⟩
  · rw [ha, hcredit, hc, toNat_add_of_room hroom, elim_none]; omega
  · rw [hreceive, hr]; exact (Int.sub_zero _).symm.trans (by rw [Int.natCast_zero, Int.add_zero])

end Settled

namespace StreamMachine

variable {s : StreamMachine} {op : StreamOperation}

theorem not_terminal {status : StreamStatus} (hr : ¬status = .reset) (hc : ¬status = .closed) :
    ¬status.Terminal := fun h => h.elim hc hr

theorem openLocal_settled (hop : op.Plain) : Settled s op s.openLocal := by
  refine .guard fun hi => .advance hop ?_
  rw [not_not.mp hi]
  decide

theorem halfCloseLocal_settled (hop : op.Plain) : Settled s op s.halfCloseLocal := by
  unfold halfCloseLocal
  cases hs : s.status with
  | opened | halfClosedRemote =>
    apply Settled.advance hop
    rw [hs]
    decide
  | halfClosedLocal =>
    exact Settled.status hop (by simp [hs, StreamStatus.Terminal]) (Or.inl rfl)
  | closed | reset | idle => exact .refused _

theorem halfCloseRemote_settled (hop : op.Plain) : Settled s op s.halfCloseRemote := by
  unfold halfCloseRemote
  cases hs : s.status with
  | opened | halfClosedLocal =>
    apply Settled.advance hop
    rw [hs]
    decide
  | halfClosedRemote =>
    exact Settled.status hop (by simp [hs, StreamStatus.Terminal]) (Or.inl rfl)
  | closed | reset | idle => exact .refused _

theorem reset_settled (hop : op.Plain) : Settled s op s.reset := by
  refine .guard fun hr => .guard fun hc => .advance hop ?_
  cases hs : s.status with
  | reset => exact absurd hs hr
  | closed => exact absurd hs hc
  | _ => decide

theorem addSendWindow_settled (n : UInt32) : Settled s (.addSendWindow n) (s.addSendWindow n) := by
  refine .guard fun hr => .guard fun hc => .guard fun hroom => ?_
  exact .sendCredit (not_terminal hr hc) rfl rfl rfl rfl rfl hroom

theorem addReceiveWindow_settled (n : UInt32) : Settled s (.addReceiveWindow n) (s.addReceiveWindow n) := by
  refine .guard fun hr => .guard fun hc => .guard fun hroom => ?_
  refine .accepted ⟨rfl, not_terminal hr hc, Or.inl rfl, ?_, ?_⟩
  · simp only [announcedWindow, sendCredit, sendConsumption, elim_none]; omega
  · simp only [receiveCredit, receiveConsumption, toNat_add_of_room hroom]; omega

theorem consumeSend_settled (n : UInt32) : Settled s (.consumeSend n) (s.consumeSend n) := by
  refine .guard fun hr => .guard fun hc => .guard fun hroom => ?_
  have hle : n ≤ s.sendWindow := UInt32.not_lt.mp hroom
  have hd := UInt32.toNat_sub_of_le _ _ hle
  have hle' : n.toNat ≤ s.sendWindow.toNat := UInt32.le_iff_toNat_le.mp hle
  refine .accepted ⟨rfl, not_terminal hr fun h => hc (Or.inl h), Or.inl rfl, ?_, ?_⟩
  · simp only [announcedWindow, sendCredit, sendConsumption, elim_none, hd]; omega
  · simp only [receiveCredit, receiveConsumption]; omega

section Handle

theorem handleFrame_halfClose (h : f.type = halfClose) : s.handleFrame f = s.halfCloseRemote := by
  unfold handleFrame
  rw [h]
  rfl

theorem handleFrame_reset (h : f.type = FrameType.reset) : s.handleFrame f = s.reset := by
  unfold handleFrame
  rw [h]
  rfl

theorem handleFrame_open_settled (h : f.type = openStream) : Settled s (.handle f) (s.handleFrame f) := by
  have hd : f.type ≠ data := by rw [h]; decide
  have hu : f.type ≠ windowUpdate := by rw [h]; decide
  unfold handleFrame
  rw [if_pos h]
  refine .guard fun hi => ?_
  have hs : s.status = .idle := not_not.mp hi
  have hf : s.status.Forward .opened := by rw [hs]; exact Or.inr (by decide)
  refine .accepted ⟨rfl, by simp [hs, StreamStatus.Terminal], hf, ?_, ?_⟩
  · by_cases hw : f.window = 0
    · simp only [announcedWindow, sendCredit, sendConsumption,
        hw, hu, ne_eq, not_true_eq_false, and_false, if_false, elim_none]
      omega
    · simp only [announcedWindow, h, hw, ne_eq, not_false_eq_true, and_self, if_true, elim_some]
  · simp only [receiveCredit, receiveConsumption, hd, if_false]; omega

theorem handleFrame_data_settled (h : f.type = data) (hs : f.payload.length ≤ maxPayload) :
    Settled s (.handle f) (s.handleFrame f) := by
  have ho : f.type ≠ openStream := by rw [h]; decide
  have hu : f.type ≠ windowUpdate := by rw [h]; decide
  have hlength := toNat_length hs
  unfold handleFrame
  rw [if_neg ho, if_pos h]
  refine .guard fun hr => .guard fun hc => .guard fun hroom => ?_
  have hle := UInt32.not_lt.mp hroom
  have hd := UInt32.toNat_sub_of_le _ _ hle
  have hle' := UInt32.le_iff_toNat_le.mp hle
  refine .accepted ⟨rfl, not_terminal hr fun h => hc (Or.inl h), Or.inl rfl, ?_, ?_⟩
  · simp only [announcedWindow, sendCredit, sendConsumption, ho, hu, false_and, if_false, elim_none]
    omega
  · simp only [receiveCredit, receiveConsumption, h, if_true, hd]; omega

theorem handleFrame_windowUpdate (h : f.type = windowUpdate) (hw : f.window ≠ 0) : s.handleFrame f =
      if s.status = .reset then (s, some (.stream .reset))
      else if s.status = .closed then (s, some (.stream .closed))
      else if 2 ^ 32 - 1 < s.sendWindow.toNat + f.window.toNat then (s, some (.frame .invalidFrame))
      else ({ s with sendWindow := s.sendWindow + f.window }, none) := by
  unfold handleFrame
  simp only [h, hw, false_or]
  rfl

theorem handleFrame_windowUpdate_settled (h : f.type = windowUpdate) (hw : f.window ≠ 0) :
    Settled s (.handle f) (s.handleFrame f) := by
  have ho : f.type ≠ openStream := by rw [h]; decide
  have hd : f.type ≠ data := by rw [h]; decide
  rw [handleFrame_windowUpdate h hw]
  refine .guard fun hr => .guard fun hc => .guard fun hroom => ?_
  exact .sendCredit (not_terminal hr hc) (if_neg fun h => ho h.1) (if_pos h) rfl rfl (if_neg hd) hroom

theorem handleFrame_settled (hv : f.validate = .ok ()) : Settled s (.handle f) (s.handleFrame f) := by
  obtain ⟨hrules, hw⟩ := Frame.validate_ok_iff.mp hv
  by_cases ho : f.type = FrameType.openStream
  · exact handleFrame_open_settled ho
  by_cases hd : f.type = FrameType.data
  · exact handleFrame_data_settled hd hrules.size
  by_cases hu : f.type = FrameType.windowUpdate
  · exact handleFrame_windowUpdate_settled hu (hw hu)
  have hp := plain_handle ho hd hu
  by_cases hh : f.type = FrameType.halfClose
  · rw [handleFrame_halfClose hh]; exact halfCloseRemote_settled hp
  by_cases hr : f.type = FrameType.reset
  · rw [handleFrame_reset hr]; exact reset_settled hp
  unfold handleFrame
  rw [if_neg ho, if_neg hd, if_neg hh, if_neg hr, if_neg hu]
  exact .refused _

theorem handle_eq (hv : f.validate = .ok ()) (hid : f.streamID = s.id) : s.handle f = s.handleFrame f := by
  unfold handle
  rw [hv]
  exact if_neg (not_not.mpr hid)

theorem handle_settled : Settled s (.handle f) (s.handle f) := by
  cases hv : f.validate with
  | error e =>
    unfold handle
    rw [hv]
    exact .refused _
  | ok _ =>
    unfold handle
    rw [hv]
    exact .guard fun _ => handleFrame_settled hv

end Handle

theorem operate_settled (s : StreamMachine) (op : StreamOperation) : Settled s op (s.operate op) := by
  cases op with
  | openLocal => exact openLocal_settled ⟨rfl, rfl, rfl, rfl, rfl⟩
  | halfCloseLocal => exact halfCloseLocal_settled ⟨rfl, rfl, rfl, rfl, rfl⟩
  | halfCloseRemote => exact halfCloseRemote_settled ⟨rfl, rfl, rfl, rfl, rfl⟩
  | reset => exact reset_settled ⟨rfl, rfl, rfl, rfl, rfl⟩
  | consumeSend n => exact consumeSend_settled n
  | addSendWindow n => exact addSendWindow_settled n
  | addReceiveWindow n => exact addReceiveWindow_settled n
  | handle f => exact handle_settled

end StreamMachine

structure Balanced (s : StreamMachine × StreamLedger) : Prop where
  send : (s.1.sendWindow.toNat : ℤ) = s.2.sendBase + s.2.sendCredits - s.2.sendConsumed
  receive : (s.1.receiveWindow.toNat : ℤ) = s.2.receiveBase + s.2.receiveCredits - s.2.receiveConsumed

section Runs

variable {s : StreamMachine × StreamLedger}

theorem Balanced.record {op : StreamOperation} {next : StreamMachine} (h : Balanced s)
    (ha : Accepted s.1 op next) : Balanced (next, s.2.record op) := by
  have hsend := h.send
  have hreceive := h.receive
  have hn := ha.send
  have hnextReceive := ha.receive
  unfold StreamLedger.record
  cases hop : op.announcedWindow with
  | none | some window =>
    simp only [hop, elim_none, elim_some] at hn
    constructor <;> simp only [StreamLedger.receive] <;> omega

theorem Balanced.operateOne (h : Balanced s) (op : StreamOperation) : Balanced (operateOne s op) := by
  unfold Protocol.operateOne
  rcases s.1.operate_settled op with ⟨e, hr⟩ | ⟨next, hn, ha⟩
  · rw [hr]; exact h
  · rw [hn]; exact h.record ha

theorem Balanced.operateAll (h : Balanced s) (ops : List StreamOperation) : Balanced (operateAll s ops) := by
  induction ops generalizing s with
  | nil => exact h
  | cons op ops ih => exact ih (h.operateOne op)

theorem balanced_opening {id initialWindow : UInt32} {start : StreamMachine}
    (h : newStreamMachine id initialWindow = .ok start) :
    Balanced (start, .opening (if initialWindow = 0 then 65535 else initialWindow.toNat)) := by
  rw [newStreamMachine, guard_eq_ok] at h
  obtain ⟨-, hs⟩ := h
  cases hs
  by_cases hz : initialWindow = 0
  · simp only [hz, if_true]; exact ⟨rfl, rfl⟩
  · simp only [hz, if_false, StreamLedger.opening]; constructor <;> simp only <;> omega

end Runs

theorem StreamMachine.operate_refused {s : StreamMachine} {op : StreamOperation}
    (h : (s.operate op).2 = some e) : (s.operate op).1 = s := by
  rcases s.operate_settled op with ⟨e', hr⟩ | ⟨next, hn, -⟩
  · rw [hr]
  · rw [hn] at h; cases h

theorem StreamMachine.operate_forward :
    s.status.Forward (s.operate op).1.status ∧ (s.status.Terminal → (s.operate op).1 = s) := by
  rcases s.operate_settled op with ⟨e, hr⟩ | ⟨next, hn, ha⟩
  · rw [hr]; exact ⟨Or.inl rfl, fun _ => rfl⟩
  · rw [hn]; exact ⟨ha.forward, fun h => absurd h ha.live⟩

-- A WINDOW_UPDATE that would overflow the window is refused with another error than
-- the one of `AddSendWindow`.
theorem StreamMachine.handle_windowUpdate {s : StreamMachine} {f : Frame} (hv : f.validate = .ok ())
    (hid : f.streamID = s.id) (h : f.type = windowUpdate) : (s.handle f).1 = (s.addSendWindow f.window).1 ∧
      ((s.handle f).2 = none ↔ (s.addSendWindow f.window).2 = none) := by
  have hw := (Frame.validate_ok_iff.mp hv).2 h
  rw [handle_eq hv hid, handleFrame_windowUpdate h hw, addSendWindow]
  split
  · exact ⟨rfl, Iff.rfl⟩
  split
  · exact ⟨rfl, Iff.rfl⟩
  · split
    · exact ⟨rfl, by simp only [reduceCtorEq]⟩
    · exact ⟨rfl, Iff.rfl⟩

def sampleOpen : Frame := ⟨currentVersion, openStream, 0, 7, 1024, []⟩

theorem stream_operations {id initialWindow : UInt32} {start : StreamMachine}
    (hnew : newStreamMachine id initialWindow = .ok start) (ops : List StreamOperation)
    (s : StreamMachine × StreamLedger)
    (hs : s = operateAll (start, .opening (if initialWindow = 0 then 65535 else initialWindow.toNat)) ops) :
    (∀ op e, (s.1.operate op).2 = some e → (s.1.operate op).1 = s.1) ∧
    (∀ op, s.1.status.Forward (s.1.operate op).1.status ∧ (s.1.status.Terminal → (s.1.operate op).1 = s.1)) ∧
    ((s.1.sendWindow.toNat : ℤ) = s.2.sendBase + s.2.sendCredits - s.2.sendConsumed ∧
      (s.1.receiveWindow.toNat : ℤ) = s.2.receiveBase + s.2.receiveCredits - s.2.receiveConsumed) ∧
    ∀ f : Frame, f.validate = .ok () → f.streamID = s.1.id →
      (f.type = FrameType.halfClose → s.1.handle f = s.1.halfCloseRemote) ∧
      (f.type = FrameType.reset → s.1.handle f = s.1.reset) ∧
      (f.type = FrameType.windowUpdate → (s.1.handle f).1 = (s.1.addSendWindow f.window).1 ∧
        ((s.1.handle f).2 = none ↔ (s.1.addSendWindow f.window).2 = none)) := by
  have hbalanced : Balanced s := hs ▸ (balanced_opening hnew).operateAll ops
  refine ⟨fun op e => StreamMachine.operate_refused, s.1.operate_forward, ⟨hbalanced.send, hbalanced.receive⟩, ?_⟩
  intro f hvalid hid
  refine ⟨fun h => ?_, fun h => ?_, StreamMachine.handle_windowUpdate hvalid hid⟩
  · rw [StreamMachine.handle_eq hvalid hid, StreamMachine.handleFrame_halfClose h]
  · rw [StreamMachine.handle_eq hvalid hid, StreamMachine.handleFrame_reset h]

def sampleOperations : List StreamOperation := [.openLocal, .addSendWindow 5, .consumeSend 3, .halfCloseRemote]

theorem sampleStart : newStreamMachine 7 100 = .ok ⟨7, .idle, 100, 100⟩ := rfl

theorem stream_operations_sample :
    ((operateAll (⟨7, .idle, 100, 100⟩, .opening 100) sampleOperations).1.sendWindow.toNat : ℤ) = 100 + 5 - 3 :=
  (stream_operations sampleStart sampleOperations _ rfl).2.2.1.1

-- An OPEN_STREAM frame with a window gives no credit, but the send window is not the
-- initial one any more.
theorem announced_window_replaces_initial : newStreamMachine 7 100 = .ok ⟨7, .idle, 100, 100⟩ ∧
      ((⟨7, .idle, 100, 100⟩ : StreamMachine).operate (.handle sampleOpen)).2 = none ∧
      (((⟨7, .idle, 100, 100⟩ : StreamMachine).operate (.handle sampleOpen)).1.sendWindow.toNat : ℤ) ≠
        (100 : UInt32).toNat + (StreamOperation.handle sampleOpen).sendCredit -
          (StreamOperation.handle sampleOpen).sendConsumption :=
  ⟨rfl, by decide, by decide⟩

open StreamMachine

def StreamMachine.view (s : StreamMachine) : StreamState := ⟨s.status, s.sendWindow.toNat, s.receiveWindow.toNat⟩

def Refines (s : StreamMachine) (outcome : MachineOutcome) : Except StreamError StreamState → Prop
  | .ok next => outcome.2 = none ∧ outcome.1.view = next
  | .error e => outcome = (s, some (.stream e))

section Refinement

variable {s : StreamMachine}

theorem Refines.guard {p : Prop} [Decidable p] (h : ¬p → Refines s outcome result) :
    Refines s (if p then (s, some (.stream e)) else outcome) (if p then .error e else result) := by
  split_ifs with hp
  · rfl
  · exact h hp

theorem openLocal_refines : Refines s s.openLocal s.view.openLocal :=
  Refines.guard fun _ => ⟨rfl, rfl⟩

theorem live_bind (s : StreamState) (k : Except StreamError StreamState) :
    (do s.live; k) = if s.status = .reset then .error .reset else if s.status = .closed then .error .closed else k := by
  unfold StreamState.live
  split
  · rfl
  · split <;> rfl

theorem addSendWindow_refines (n : UInt32) : Refines s (s.addSendWindow n) (s.view.addSendWindow n.toNat) := by
  rw [StreamState.addSendWindow, live_bind]
  refine Refines.guard fun _ => Refines.guard fun _ => Refines.guard fun hroom => ⟨rfl, ?_⟩
  rw [view, toNat_add_of_room hroom]
  rfl

theorem addReceiveWindow_refines (n : UInt32) : Refines s (s.addReceiveWindow n) (s.view.addReceiveWindow n.toNat) := by
  rw [StreamState.addReceiveWindow, live_bind]
  refine Refines.guard fun _ => Refines.guard fun _ => Refines.guard fun hroom => ⟨rfl, ?_⟩
  rw [view, toNat_add_of_room hroom]
  rfl

theorem consumeSend_refines (n : UInt32) : Refines s (s.consumeSend n) (s.view.consumeSend n.toNat) := by
  refine Refines.guard fun _ => Refines.guard fun _ => Refines.guard fun hr => ⟨rfl, ?_⟩
  have hd := UInt32.toNat_sub_of_le _ _ (UInt32.not_lt.mp hr)
  rw [view, hd]
  rfl

theorem handleData_refines (hv : f.validate = .ok ()) (hid : f.streamID = s.id)
    (h : f.type = FrameType.data) : Refines s (s.handle f) (s.view.handleData f.payload.length) := by
  have hl := toNat_length (Frame.validate_ok_iff.mp hv).1.size
  have hd : Refines s (s.handleFrame f) (s.view.handleData (UInt32.ofNat f.payload.length).toNat) := by
    rw [handleFrame, if_neg (by rw [h]; decide), if_pos h]
    refine Refines.guard fun _ => Refines.guard fun _ => Refines.guard fun hr => ⟨rfl, ?_⟩
    have hdiff := UInt32.toNat_sub_of_le _ _ (UInt32.not_lt.mp hr)
    rw [view, hdiff]
    rfl
  rw [hl] at hd
  rwa [handle_eq hv hid]

end Refinement

end TunnelMesh.Protocol
