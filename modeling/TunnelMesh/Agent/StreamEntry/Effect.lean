import TunnelMesh.Agent.StreamEntry

namespace TunnelMesh.Agent

open Protocol Session StreamState Option FrameQueue

variable {π : Type} {size : π → ℕ}

namespace Intake

variable {q : Intake π}

theorem admitInbound_ok (h : q.admitInbound size payload = .ok next) : size payload ≤ q.receiveState.receiveWindow ∧
      next = { q with
        receiveState := { q.receiveState with receiveWindow := q.receiveState.receiveWindow - size payload }
        inbound := { q.inbound with frames := q.inbound.frames ++ [some payload] } } := by
  unfold admitInbound at h
  split at h
  · cases h
  · next receiveState hh =>
    obtain ⟨hr, rfl⟩ := handleData_ok hh
    split at h
    · cases h
    · next inbound hp =>
      obtain rfl := tryPush_eq_some hp
      exact ⟨hr, (Except.ok.inj h).symm⟩

-- What the pump finds at the head of its queue: a payload, the mark that the
-- Server has half-closed, or nothing any more.
inductive Popped (q : Intake π) : Intake π → Prop where
  | payload {payload : π} {rest : List (Option π)} (hframes : q.inbound.frames = some payload :: rest) :
      Popped q { q with inbound := { q.inbound with frames := rest }, pump := .writing payload }
  | half {rest : List (Option π)} (hframes : q.inbound.frames = none :: rest) :
      Popped q { q with inbound := { q.inbound with frames := rest }, pump := .closing }
  | nothing (hclosed : q.inbound.closed) : Popped q { q with pump := .stopped }

theorem pop_popped (h : q.pop = some next) : Popped q next := by
  unfold pop at h
  split at h
  · next payload inbound hq =>
    obtain ⟨hf, hs⟩ := pop_eq_some hq
    cases h
    rw [hs]
    exact .payload hf
  · next inbound hq =>
    obtain ⟨hf, hs⟩ := pop_eq_some hq
    cases h
    rw [hs]
    exact .half hf
  · simp only [ite_none_right_eq_some] at h
    cases h.2
    exact .nothing h.1

end Intake

namespace StreamEntry

-- What a step of an entry does to the side of it that takes in DATA. The entry
-- is dropped with a RESET, by the Server or the end of the dispatcher, or over a
-- send state that is no longer open; the other two ways to leave are the end of
-- both directions.
inductive Effect (size : π → ℕ) (e : StreamEntry π) : EntryLabel π → EntryMoved π → Prop where
  | admitted {payload : π} {intake : Intake π} (hpresent : e.present) (hopen : e.localHalf = false)
      (hok : e.intake.admitInbound size payload = .ok intake) :
      Effect size e (.data payload) (quietly { e with intake })
  | halfClosed (hpresent : e.present) (hopen : e.localHalf = false) :
      Effect size e .halfClose (quietly { e with
        localHalf := true
        intake := { e.intake with
          inbound := (e.intake.inbound.tryPush (frameSize size) none).getD e.intake.inbound } })
  | popped {intake : Intake π} (hpump : e.intake.pump = .popping)
      (hpop : e.intake.pop = some intake) : Effect size e (.pump outcome) (quietly { e with intake })
  | wrote (hpump : e.intake.pump = .writing payload) :
      Effect size e (.pump .ok) (quietly { e with intake := { e.intake with pump := .releasing (size payload) } })
  | closedWrite (hpump : e.intake.pump = .closing) (hopen : e.remoteHalf = false) :
      Effect size e (.pump .ok) (quietly { e with intake := { e.intake with pump := .popping } })
  | completed (hpump : e.intake.pump = .closing) (hended : e.remoteHalf) :
      Effect size e (.pump .ok) (quietly { e with intake := { e.intake with pump := .popping } }.removeAndClose)
  | released (hpump : e.intake.pump = .releasing written) :
      Effect size e (.pump outcome) (quietly { e with intake := e.intake.releaseReceiveWindow written })
  | added (hpump : e.intake.pump = .flushing update) :
      Effect size e (.pump outcome) (quietly { e with intake := e.intake.addReceiveWindow update })
  | posted (hpump : e.intake.pump = .posting update) :
      Effect size e (.pump .ok) ⟨{ e with intake := { e.intake with pump := .popping } }, [], [update], false⟩
  | lost (hpump : e.intake.pump = .posting update) :
      Effect size e (.pump .failed) (quietly { e with intake := { e.intake with pump := .popping } })
  | aside (hlabel : ∀ outcome, label ≠ .pump outcome)
      (hdata : e.present → ∀ payload, label ≠ .data payload)
      (hintake : moved.entry.intake = e.intake) (hpresent : moved.entry.present = e.present)
      (hhalf : moved.entry.localHalf = e.localHalf) (hstatus : moved.entry.sendState.status = e.sendState.status)
      (hupdates : moved.updates = []) : Effect size e label moved
  | ended (hpresent : e.present) (hback : e.back = .ending) (hhalf : e.localHalf) :
      Effect size e (.back .ok)
        ⟨{ e with present := false, intake := e.intake.finishInbound, remoteHalf := true, back := .stopped },
          [none], [], false⟩
  | dropped (hpresent : moved.entry.present = false)
      (hupdates : moved.updates = []) (hstatus : moved.entry.sendState.status = e.sendState.status)
      (hreason : moved.reset ∨ label = .retire ∨ e.sendState.status ≠ .opened) : Effect size e label moved

variable {e : StreamEntry π}

theorem rejected_effect (label : EntryLabel π) : Effect size e label e.rejectAndClose :=
  .dropped rfl rfl rfl (.inl rfl)

theorem handleData_effect (payload : π) : Effect size e (.data payload) (e.handleData size payload) := by
  unfold handleData
  split
  · next ha =>
    refine .aside nofun (fun hp => ?_) rfl rfl rfl rfl rfl
    rw [ha] at hp
    cases hp
  · next hh =>
    split
    · exact rejected_effect _
    · next ho =>
      split
      · next intake hok => exact .admitted (by simpa using hh) (by simpa using ho) hok
      · exact rejected_effect _

theorem handleHalfClose_effect : Effect size e .halfClose (e.handleHalfClose size) := by
  unfold handleHalfClose
  split
  · exact .aside nofun nofun rfl rfl rfl rfl rfl
  · next hhere =>
    have hh : e.present = true ∧ e.localHalf = false := by simpa using hhere
    exact .halfClosed hh.1 hh.2

theorem handleWindowUpdate_effect (credit : ℕ) :
    Effect size e (.windowUpdate credit) (e.handleWindowUpdate credit) := by
  unfold handleWindowUpdate
  split
  · exact .aside nofun nofun rfl rfl rfl rfl rfl
  split
  · next sendState hok =>
    obtain rfl := addSendWindow_ok hok
    exact .aside nofun nofun rfl rfl rfl rfl rfl
  · exact rejected_effect _

theorem pumpTarget_effect (hs : e.pumpTarget size outcome = some moved) : Effect size e (.pump outcome) moved := by
  simp only [pumpTarget] at hs
  split at hs
  · next hp =>
    obtain ⟨intake, hpop, rfl⟩ := map_eq_some_iff.mp hs
    exact .popped hp hpop
  · next hp =>
    split at hs <;> cases hs
    · exact .wrote hp
    · exact .dropped rfl rfl rfl (.inl rfl)
  · next hp =>
    split at hs <;> cases hs
    · simp only [closeTargetWrite]
      split
      · next he => exact .completed hp he
      · next ho => exact .closedWrite hp (by simpa using ho)
    · exact .dropped rfl rfl rfl (.inl rfl)
  · next hp =>
    cases hs
    exact .released hp
  · next hp =>
    cases hs
    exact .added hp
  · next hp =>
    split at hs <;> cases hs
    · exact .posted hp
    · exact .lost hp
  · cases hs

theorem waitForSendWindow_effect (outcome : Outcome) (payload : π) (last : Bool) :
    Effect size e (.back outcome) (quietly (e.waitForSendWindow size payload last)) := by
  unfold waitForSendWindow
  split
  · next sendState hok =>
    obtain ⟨-, rfl⟩ := consumeSend_ok hok
    exact .aside nofun nofun rfl rfl rfl rfl rfl
  · split <;> exact .aside nofun nofun rfl rfl rfl rfl rfl
  · next error hother he =>
    refine .dropped rfl rfl rfl (.inr (.inr fun ho => ?_))
    rw [consumeSend_of_opened ho] at he
    split_ifs at he
    exact hother (Except.error.inj he).symm

theorem endOfFile_effect (hb : e.back = .ending) (outcome : Outcome) :
    Effect size e (.back outcome) (e.endOfFile outcome) := by
  unfold endOfFile
  split
  · exact .aside nofun nofun rfl rfl rfl rfl rfl
  · next hh =>
    cases outcome with
    | failed => exact .dropped rfl rfl rfl (.inl rfl)
    | ok =>
      split
      · next hhalf => exact .ended (by simpa using hh) hb hhalf
      · exact .aside nofun nofun rfl rfl rfl rfl rfl

theorem readBack_effect (hs : e.readBack size outcome = some moved) : Effect size e (.back outcome) moved := by
  simp only [readBack] at hs
  split at hs
  · cases hs
  · cases hs; exact waitForSendWindow_effect outcome _ _
  · split at hs <;> cases hs
    · exact .aside nofun nofun rfl rfl rfl rfl rfl
    · exact .dropped rfl rfl rfl (.inl rfl)
  · next hb =>
    cases hs
    exact endOfFile_effect hb outcome
  · cases hs

theorem step_effect (hs : e.step size bufferSize label = some moved) : Effect size e label moved := by
  cases label with
  | data payload => cases hs; exact handleData_effect payload
  | halfClose => cases hs; exact handleHalfClose_effect
  | windowUpdate credit => cases hs; exact handleWindowUpdate_effect credit
  | pump outcome => exact pumpTarget_effect hs
  | back outcome => exact readBack_effect hs
  | targetError =>
    simp only [step, ite_none_right_eq_some] at hs
    cases hs.2
    exact .dropped rfl rfl rfl (.inl rfl)
  | retire => cases hs; exact .dropped rfl rfl rfl (.inr (.inl rfl))
  | _ =>
    simp only [step, ite_none_right_eq_some] at hs
    cases hs.2
    exact .aside nofun nofun rfl rfl rfl rfl rfl

theorem Effect.present (he : Effect size e label moved) (h : moved.entry.present) : e.present := by
  cases he with
  | admitted hp | halfClosed hp => exact hp
  | aside _ _ _ hp => exact hp.symm.trans h
  | completed | ended => cases h
  | dropped hg => rw [hg] at h; cases h
  | _ => exact h

theorem step_present (hs : e.step size bufferSize label = some moved) (h : moved.entry.present) : e.present :=
  (step_effect hs).present h

theorem Effect.status (he : Effect size e label moved) : moved.entry.sendState.status = e.sendState.status := by
  cases he with
  | aside _ _ _ _ _ hs | dropped _ _ hs => exact hs
  | _ => rfl

end StreamEntry

end TunnelMesh.Agent
