import TunnelMesh.Relay.AgentStream.Ledger
import TunnelMesh.Relay.AgentStream.Write

namespace TunnelMesh.Relay

open Protocol WriterMoved StreamState Option List

namespace Writer

theorem reserved_cases (st : StreamState) (sent rest want : ℕ) (exhausted : Writer) :
    (∃ next, st.consumeSend want = .ok next ∧
      reserved st sent rest want exhausted = ⟨next, .sending sent rest want, none, none, false⟩) ∨
    reserved st sent rest want exhausted = ⟨st, exhausted, none, none, false⟩ ∨
    ∃ e, reserved st sent rest want exhausted = ⟨st, .idle, none, some (sent, some (.protocol e)), false⟩ := by
  unfold reserved
  split
  · next next hok => exact .inl ⟨next, hok, rfl⟩
  · exact .inr (.inl rfl)
  · next e _ _ => exact .inr (.inr ⟨e, rfl⟩)

def hand : Writer → ℕ
  | .sending _ _ chunk => chunk
  | _ => 0

def left : Writer → ℕ
  | .idle => 0
  | .reserving _ rest => rest
  | .exhausted _ rest => rest
  | .partly _ rest _ => rest
  | .waiting _ rest => rest
  | .sending _ rest _ => rest

def Within (length : ℕ) : Writer → Prop
  | .idle => True
  | .reserving sent rest => sent + rest = length
  | .exhausted sent rest => sent + rest = length
  | .partly sent rest want => sent + rest = length ∧ want ≤ rest
  | .waiting sent rest => sent + rest = length
  | .sending sent rest chunk => sent + rest = length ∧ chunk ≤ rest

end Writer

def WriterMoved.bytes (moved : WriterMoved) : ℕ := moved.chunk.elim 0 Prod.snd

def WriterMoved.erred (moved : WriterMoved) : Prop := ∃ sent e, moved.result = some (sent, some e)

namespace Writer

variable {length : ℕ} {writeError doneError : Option RelayError} {st : StreamState} {writer : Writer}
  {choice : WriteChoice} {moved : WriterMoved}

structure Advances (length : ℕ) (st : StreamState) (writer : Writer) (moved : WriterMoved) : Prop where
  status : moved.sendState.status = .opened
  within : moved.writer.Within length
  chunk : ∀ chunk, moved.chunk = some chunk → chunk.1 + chunk.2 ≤ length
  credit : moved.failed = false →
    moved.sendState.sendWindow + moved.writer.hand + moved.bytes = st.sendWindow + writer.hand
  left : ¬ moved.erred → moved.writer.left + moved.bytes = writer.left

theorem advances_aside {next : Writer} {result : Option (ℕ × Option WriteError)} (hs : st.status = .opened)
    (hw : next.Within length) (hh : writer.hand = 0 ∧ next.hand = 0)
    (hl : (∃ sent e, result = some (sent, some e)) ∨ next.left = writer.left) :
    Advances length st writer ⟨st, next, none, result, false⟩ := by
  refine ⟨hs, hw, fun chunk hc => (by cases hc), fun _ => ?_, fun hok => ?_⟩
  · simp only [hh, bytes, elim_none, Nat.add_zero]
  · rcases hl with he | hl
    · exact absurd he hok
    · exact hl

theorem reserved_advances {exhausted : Writer} (hs : st.status = .opened)
    (hw : writer.hand = 0 ∧ writer.left = rest) (hl : sent + rest = length) (hwant : want ≤ rest)
    (he : exhausted.Within length ∧ exhausted.hand = 0 ∧ exhausted.left = rest) :
    Advances length st writer (reserved st sent rest want exhausted) := by
  rcases reserved_cases st sent rest want exhausted with ⟨next, hok, hm⟩ | hm | ⟨e, hm⟩
  · obtain ⟨hroom, rfl⟩ := consumeSend_ok hok
    rw [hm]
    refine ⟨hs, ⟨hl, hwant⟩, fun chunk hc => (by cases hc), fun _ => ?_, fun _ => ?_⟩
    · rw [hw.1]
      simp only [hand, bytes, elim_none]
      omega
    · rw [hw.2]; rfl
  · rw [hm]; exact advances_aside hs he.1 ⟨hw.1, he.2.1⟩ (.inr (he.2.2.trans hw.2.symm))
  · rw [hm]; exact advances_aside hs trivial ⟨hw.1, rfl⟩ (.inl ⟨sent, .protocol e, rfl⟩)

theorem move_advances (hs : st.status = .opened) (hw : writer.Within length)
    (hm : writer.move writeError doneError st choice = some moved) : Advances length st writer moved := by
  cases writer with
  | idle => cases hm
  | reserving sent rest =>
    simp only [move] at hm
    split at hm <;> cases hm
    · exact advances_aside hs trivial ⟨rfl, rfl⟩ (.inl ⟨_, _, rfl⟩)
    · exact reserved_advances hs ⟨rfl, rfl⟩ hw (Nat.min_le_left ..) ⟨hw, rfl, rfl⟩
  | exhausted sent rest =>
    simp only [move] at hm
    split at hm <;> cases hm
    · exact advances_aside hs hw ⟨rfl, rfl⟩ (.inr rfl)
    · refine advances_aside hs ⟨hw, ?_⟩ ⟨rfl, rfl⟩ (.inr rfl); omega
  | partly sent rest want =>
    cases hm
    exact reserved_advances hs ⟨rfl, rfl⟩ hw.1 hw.2 ⟨hw.1, rfl, rfl⟩
  | waiting sent rest =>
    cases choice with
    | done =>
      obtain ⟨e, -, rfl⟩ := map_eq_some_iff.mp hm
      exact advances_aside hs trivial ⟨rfl, rfl⟩ (.inl ⟨_, _, rfl⟩)
    | _ => cases hm; exact advances_aside hs hw ⟨rfl, rfl⟩ (.inr rfl)
  | sending sent rest chunk =>
    obtain ⟨hlength, hchunk⟩ := hw
    cases choice with
    | refused =>
      cases hm
      exact ⟨hs, trivial, fun chunk hsome => (by cases hsome), fun hf => (by cases hf),
        fun hok => absurd ⟨sent, .relay .disconnected, rfl⟩ hok⟩
    | _ =>
      simp only [move] at hm
      split at hm <;> cases hm
      · next hlast =>
        refine ⟨hs, trivial, ?_, fun _ => ?_, fun _ => ?_⟩
        · rintro pair ⟨⟩; omega
        · simp only [hand, bytes, elim_some]; omega
        · simp only [left, bytes, elim_some]; omega
      · next hmore =>
        refine ⟨hs, ?_, ?_, fun _ => ?_, fun _ => ?_⟩
        · simp only [Within]; omega
        · rintro pair ⟨⟩; omega
        · simp only [hand, bytes, elim_some]; omega
        · simp only [left, bytes, elim_some]; omega

theorem move_chunk {chunk : ℕ × ℕ} (hw : writer.Within length)
    (hm : writer.move writeError doneError st choice = some moved) (hc : moved.chunk = some chunk) :
    chunk.1 + writer.left = length := by
  have hr : ∀ sent rest want exhausted, (reserved st sent rest want exhausted).chunk = none := by
    intro sent rest want exhausted
    rcases reserved_cases st sent rest want exhausted with ⟨next, -, hmoved⟩ | hmoved | ⟨e, hmoved⟩ <;> rw [hmoved]
  cases writer with
  | idle => cases hm
  | reserving sent rest =>
    simp only [move] at hm
    split at hm <;> cases hm
    · cases hc
    · rw [hr] at hc; cases hc
  | exhausted sent rest => simp only [move] at hm; split at hm <;> cases hm <;> cases hc
  | partly sent rest want =>
    cases hm
    rw [hr] at hc
    cases hc
  | waiting sent rest =>
    cases choice with
    | done => obtain ⟨e, -, rfl⟩ := map_eq_some_iff.mp hm; cases hc
    | _ => cases hm; cases hc
  | sending sent rest size =>
    cases choice with
    | refused => cases hm; cases hc
    | _ => simp only [move] at hm; split at hm <;> cases hm <;> cases hc <;> exact hw.1

theorem not_erred (h : moved.result = none ∨ ∃ sent, moved.result = some (sent, none)) : ¬ moved.erred := by
  rintro ⟨sent, e, he⟩
  rcases h with hn | ⟨_, hok⟩
  · rw [hn] at he; cases he
  · rw [hok] at he; cases he

theorem move_flawless (hstatus : st.status = .opened) (hw : writeError = none)
    (hd : choice = .done → doneError = none) (hs : choice ≠ .refused)
    (hm : writer.move writeError doneError st choice = some moved) : ¬ moved.erred ∧ moved.failed = false := by
  have hreserved : ∀ sent rest want exhausted,
      ¬ (reserved st sent rest want exhausted).erred ∧ (reserved st sent rest want exhausted).failed = false := by
    intro sent rest want exhausted
    unfold reserved
    rw [consumeSend_of_opened hstatus]
    by_cases hr : st.sendWindow < want
    · rw [if_pos hr]; exact ⟨not_erred (.inl rfl), rfl⟩
    · rw [if_neg hr]; exact ⟨not_erred (.inl rfl), rfl⟩
  subst hw
  cases writer with
  | idle => cases hm
  | reserving | partly => cases hm; exact hreserved _ _ _ _
  | exhausted sent rest =>
    simp only [move] at hm
    split at hm <;> cases hm <;> exact ⟨not_erred (.inl rfl), rfl⟩
  | waiting sent rest =>
    cases choice with
    | done => rw [hd rfl] at hm; cases hm
    | refused => exact absurd rfl hs
    | go => cases hm; exact ⟨not_erred (.inl rfl), rfl⟩
  | sending sent rest size =>
    cases choice with
    | refused => exact absurd rfl hs
    | _ =>
      simp only [move] at hm
      split at hm <;> cases hm
      · exact ⟨not_erred (.inr ⟨_, rfl⟩), rfl⟩
      · exact ⟨not_erred (.inl rfl), rfl⟩

end Writer

def EndpointLabel.credit {α : Type} : EndpointLabel α → ℕ
  | .reading label => label.credit
  | .write _ => 0
  | .writer _ => 0

namespace Endpoint

variable {α : Type} {e next : Endpoint α}

def frameBytes (e : Endpoint α) : ℕ := (e.frames.map Frame.bytes).sum

def credit (e : Endpoint α) : ℕ := e.sendState.sendWindow + e.writer.hand + e.frameBytes

structure Ready (e : Endpoint α) : Prop where
  status : e.sendState.status = .opened
  within : e.writer.Within e.payload.length

theorem ready_opened (window : ℕ) : Ready (opened window : Endpoint α) := ⟨rfl, trivial⟩

theorem credited_status (hs : e.sendState.status = .opened) (label : ReadLabel α) :
    (e.credited label).status = .opened := by
  cases label with
  | frame f =>
    cases f with
    | windowUpdate credit =>
      simp only [credited]
      split
      · cases hadd : e.sendState.addSendWindow credit with
        | ok next => rw [addSendWindow_ok hadd]; exact hs
        | error _ => exact hs
      · exact hs
    | _ => exact hs
  | _ => exact hs

theorem credited_window (label : ReadLabel α) (hs : e.sendState.status = .opened)
    (ha : e.reading.stream.attached) (hf : e.sendState.sendWindow + label.credit < 2 ^ 32) :
    (e.credited label).sendWindow = e.sendState.sendWindow + label.credit := by
  cases label with
  | frame f =>
    cases f with
    | windowUpdate credit =>
      have hadd := addSendWindow_of_opened (n := credit) hs hf
      simp only [credited, if_pos ha, hadd]
      rfl
    | _ => rfl
  | _ => rfl

theorem closing_bytes (label : ReadLabel α) : ((e.closing label).map Frame.bytes).sum = 0 := by
  cases label with
  | closeWrite => simp only [closing]; split <;> rfl
  | _ => rfl

theorem write_ready {payload : List α} (h : Ready e) (hw : e.write payload = some next) :
    Ready next ∧ next.reading = e.reading ∧ next.credit = e.credit := by
  unfold write at hw
  split at hw
  · next hwriter =>
    split at hw
    · cases hw; exact ⟨⟨h.status, h.within⟩, rfl, rfl⟩
    split at hw <;> cases hw
    · exact ⟨⟨h.status, h.within⟩, rfl, rfl⟩
    · refine ⟨⟨h.status, Nat.zero_add _⟩, rfl, ?_⟩
      simp only [credit, hwriter, Writer.hand, frameBytes]
  · cases hw

theorem advance_ready {choice : WriteChoice} (h : Ready e) (hadvance : e.advance choice = some next) :
    Ready next ∧ (next.reading = e.reading ∨
      next.reading = { e.reading with stream := e.reading.stream.detach.finish .disconnected }) ∧
      (next.reading.stream.attached → next.credit = e.credit) := by
  obtain ⟨moved, hm, rfl⟩ := map_eq_some_iff.mp hadvance
  have ha := Writer.move_advances h.status h.within hm
  refine ⟨⟨ha.status, ha.within⟩, ?_, fun hattached => ?_⟩
  · cases moved.failed with
    | true => exact .inr rfl
    | false => exact .inl rfl
  · have hf : moved.failed = false := by
      cases hf : moved.failed with
      | true => simp only [hf, if_true] at hattached; cases hattached
      | false => rfl
    have hcredit := ha.credit hf
    have hb : (((moved.chunk.toList.map fun chunk => (e.payload.drop chunk.1).take chunk.2).map Frame.data).map
        Frame.bytes).sum = moved.bytes := by
      cases hc : moved.chunk with
      | none => simp [bytes, hc]
      | some chunk =>
        have hfits := ha.chunk chunk hc
        simp only [toList_some, map_cons, map_nil, Frame.bytes, sum_singleton,
          length_take, length_drop, bytes, hc, elim_some]
        omega
    simp only [credit, frameBytes, map_append, sum_append] at hb ⊢
    omega

theorem step_ready (h : Ready e) (hs : e.step windows label = some next) : Ready next := by
  cases label with
  | reading label =>
    obtain ⟨reading, -, rfl⟩ := map_eq_some_iff.mp hs
    exact ⟨credited_status h.status label, h.within⟩
  | write payload => exact (write_ready h hs).1
  | writer choice => exact (advance_ready h hs).1

theorem step_attached (h : Ready e) (hs : e.step windows label = some next)
    (ha : next.reading.stream.attached) : e.reading.stream.attached := by
  cases label with
  | reading label =>
    obtain ⟨reading, hr, rfl⟩ := map_eq_some_iff.mp hs
    exact Reading.effect_attached (Reading.step_effect hr) ha
  | write payload => exact (write_ready h hs).2.1 ▸ ha
  | writer choice =>
    rcases (advance_ready h hs).2.1 with hsame | hf
    · exact hsame ▸ ha
    · rw [hf] at ha; cases ha

-- While the transport has the stream, credit only comes with WINDOW_UPDATE frames
-- and only goes with the frames that are taken from the queue.
theorem step_credit (h : Ready e) (hf : e.sendState.sendWindow + label.credit < 2 ^ 32)
    (hs : e.step windows label = some next) (ha : next.reading.stream.attached) :
    next.credit = e.credit + label.credit := by
  have hnow := step_attached h hs ha
  cases label with
  | reading label =>
    obtain ⟨reading, hread, rfl⟩ := map_eq_some_iff.mp hs
    have hw := credited_window label h.status hnow hf
    have hc := closing_bytes (e := e) label
    simp only [credit, frameBytes, map_append, sum_append, hw, hc, EndpointLabel.credit]
    omega
  | write payload => exact (write_ready h hs).2.2
  | writer choice => exact (advance_ready h hs).2.2 ha

end Endpoint

end TunnelMesh.Relay
