import TunnelMesh.Relay.AgentStream

namespace TunnelMesh.Relay

open Protocol Reader Option List

variable {α : Type}

-- What the buffer, its consumed prefix and the fields beside it stand for.
structure Inbound (α : Type) where
  unread : List α
  budget : ℕ
  unacked : ℕ
  err : Option RelayError
  remoteHalf : Bool
  attached : Bool

def published (old : Option RelayError) (e : RelayError) : Option RelayError :=
  if old = none ∨ (old = some .eof ∧ e ≠ .eof) then some e else old

theorem published_ne_none (old : Option RelayError) (e : RelayError) : published old e ≠ none := by
  unfold published
  split
  · simp
  · next hk =>
    intro hn
    exact hk (.inl hn)

namespace AgentRelayStream

variable (s : AgentRelayStream α) {next : AgentRelayStream α}

def inbound : Inbound α := ⟨s.unread, s.receiveBudget, s.receiveUnacked, s.err, s.remoteHalf, s.attached⟩

theorem inbound_take (size : ℕ) : (s.take size).inbound = { s.inbound with unread := s.unread.drop size } := by
  have hd : s.readBuf.drop (s.readPos + min size s.unread.length) = s.unread.drop size := by
    rw [unread, drop_drop]
    by_cases hs : size ≤ (s.readBuf.drop s.readPos).length
    · rw [min_eq_left hs]
    · rw [length_drop] at hs ⊢; rw [drop_eq_nil_of_le (by omega), drop_eq_nil_of_le (by omega)]
  by_cases hend : s.readPos + min size s.unread.length = s.readBuf.length
  · have hnil : s.unread.drop size = [] := by
      rw [← hd, hend, drop_length]
    simp only [take, if_pos hend]
    rw [hnil]
    rfl
  · simp only [take, if_neg hend]
    rw [← hd]
    rfl

theorem readBuf_compact : s.compact.readBuf = s.unread := by
  unfold compact
  split
  · rfl
  · next hstart =>
    have hz : s.readPos = 0 := by omega
    rw [unread, hz, drop_zero]

theorem inbound_compact : s.compact.inbound = s.inbound := by
  have hbuf := s.readBuf_compact
  unfold compact at hbuf ⊢
  split
  · rfl
  · rfl

theorem budget_compact : s.compact.budget = s.budget := by
  unfold compact
  split <;> rfl

theorem readPos_compact : s.compact.readPos = 0 := by
  unfold compact
  split
  · rfl
  · omega

theorem enqueue_cases (payload : List α) :
    (s.remoteHalf = false ∧ s.err = none ∧ s.unread.length + payload.length ≤ s.budget ∧
      (s.enqueue payload).2 = .ok () ∧
      (s.enqueue payload).1.inbound = { s.inbound with unread := s.unread ++ payload }) ∨
    ∃ e, (s.enqueue payload).2 = .error e ∧ (s.enqueue payload).1.inbound = s.inbound ∧
      ((s.remoteHalf ∧ e = .invalidFrame) ∨ s.err = some e ∨
        (e = .backpressure ∧ s.budget < s.unread.length + payload.length)) := by
  unfold enqueue
  by_cases hh : s.remoteHalf
  · rw [if_pos hh]; exact .inr ⟨.invalidFrame, rfl, rfl, .inl ⟨hh, rfl⟩⟩
  rw [if_neg hh]
  cases herr : s.err with
  | some e => exact .inr ⟨e, rfl, rfl, .inr (.inl rfl)⟩
  | none =>
    simp only [budget_compact, readBuf_compact]
    split
    · next hf => exact .inr ⟨.backpressure, rfl, s.inbound_compact, .inr (.inr ⟨rfl, hf⟩)⟩
    refine .inl ⟨by simpa using hh, trivial, by omega, ?_⟩
    split
    · next he => rw [length_eq_zero_iff.mp he, append_nil]; exact ⟨rfl, s.inbound_compact⟩
    refine ⟨rfl, ?_⟩
    have hs := s.inbound_compact
    simp only [inbound, Inbound.mk.injEq] at hs ⊢
    refine ⟨?_, hs.2⟩
    simp only [unread, readPos_compact, drop_zero]

theorem released_inbound (h : s.releaseReceiveWindow windows consumed = (next, update)) :
    next.inbound = { s.inbound with unacked := next.receiveUnacked } := by
  unfold releaseReceiveWindow at h
  split at h
  · cases h; rfl
  simp only at h
  split at h
  · cases h; rfl
  · cases h; rfl

theorem inbound_mirror (credit : ℕ) : (s.mirror credit).inbound = s.inbound := by
  unfold mirror
  split <;> rfl

theorem inbound_readControl (h : s.readControl = some (credit, next)) : next.inbound = s.inbound := by
  unfold readControl at h
  split at h <;> cases h
  rfl

theorem inbound_closeWrite :
    ∃ attached, (s.closeWrite).inbound = { s.inbound with attached } ∧
      (attached = s.attached ∨ s.remoteHalf) ∧ (attached → s.attached) := by
  unfold closeWrite
  split
  · exact ⟨s.attached, rfl, .inl rfl, id⟩
  refine ⟨s.attached && !s.remoteHalf, rfl, ?_, fun hs => (Bool.and_eq_true_iff.mp hs).1⟩
  cases s.remoteHalf with
  | true => exact .inr rfl
  | false => exact .inl (by simp)

-- The bytes are added to the residue, and the residue is returned whole or stays
-- below the threshold. After an error nothing is returned.
theorem releaseReceiveWindow_cases (windows : AgentRelayWindowConfig) (consumed : ℕ) :
    ((consumed = 0 ∨ s.err ≠ none) ∧ s.releaseReceiveWindow windows consumed = (s, 0)) ∨
    (s.err = none ∧ ∃ unacked, unacked = uint32 (s.receiveUnacked + uint32 consumed) ∧
      ((unacked ≠ 0 ∧ s.releaseReceiveWindow windows consumed = ({ s with receiveUnacked := 0 }, unacked)) ∨
        ((unacked = 0 ∨ unacked < windows.thresholdFor (uint32 s.receiveBudget)) ∧
          s.releaseReceiveWindow windows consumed = ({ s with receiveUnacked := unacked }, 0)))) := by
  unfold releaseReceiveWindow
  by_cases hs : consumed = 0 ∨ s.err ≠ none
  · rw [if_pos hs]; exact .inl ⟨hs, rfl⟩
  rw [if_neg hs]
  have herr : s.err = none := by by_contra hne; exact hs (.inr hne)
  refine .inr ⟨herr, _, rfl, ?_⟩
  simp only [shouldFlushWindowUpdate_iff]
  split
  · next hf => exact .inl ⟨hf.1, rfl⟩
  · next hk =>
    refine .inr ⟨?_, rfl⟩
    by_cases hz : uint32 (s.receiveUnacked + uint32 consumed) = 0
    · exact .inl hz
    · refine .inr ?_
      by_contra hlow
      exact hk ⟨hz, .inl (by omega)⟩

end AgentRelayStream

namespace Reader

def hand : Reader α → List α
  | .idle | .looking _ | .polling _ | .checking _ | .waiting _ => []
  | .releasing bytes => bytes
  | .flushing bytes _ => bytes

def bare : Reader α → Bool
  | .idle | .looking _ | .polling _ | .checking _ | .waiting _ => true
  | .releasing _ => false
  | .flushing _ _ => false

def owed : Reader α → ℕ
  | .idle | .looking _ | .polling _ | .checking _ | .waiting _ => 0
  | .releasing bytes => bytes.length
  | .flushing _ update => update

def size : Reader α → Option ℕ
  | .looking size => some size
  | .polling size => some size
  | .checking size => some size
  | .waiting size => some size
  | .idle => none
  | .releasing _ => none
  | .flushing _ _ => none

theorem hand_of_bare {reader : Reader α} (h : reader.bare) : reader.hand = [] := by
  cases reader with
  | releasing | flushing => cases h
  | _ => rfl

theorem owed_of_bare {reader : Reader α} (h : reader.bare) : reader.owed = 0 := by
  cases reader with
  | releasing | flushing => cases h
  | _ => rfl

def inGap : Reader α → Bool
  | .polling _ => true
  | .checking _ => true
  | _ => false

end Reader

namespace Reading

theorem unread_of_inbound {s : AgentRelayStream α} (h : s.inbound = i) : s.unread = i.unread :=
  congrArg Inbound.unread h

theorem err_of_inbound {s : AgentRelayStream α} (h : s.inbound = i) : s.err = i.err :=
  congrArg Inbound.err h

inductive Effect (windows : AgentRelayWindowConfig) (r : Reading α) : ReadLabel α → Reading α → Prop
  | call {label : ReadLabel α} {next : Reading α}
      (hlabel : (∀ f, label ≠ .frame f) ∧ label ≠ .publish ∧ ∀ e, label ≠ .fail e)
      (hstream : next.stream.inbound = r.stream.inbound) (hreader : r.reader.bare)
      (hnext : next.reader.bare)
      (hsize : ∀ size, next.reader.size = some size → label = .read size ∨ r.reader.size = some size)
      (hgap : next.reader.inGap → r.reader.inGap ∨ r.stream.unread = [])
      (hrest : next.handler = r.handler ∧ next.outbox = r.outbox ∧ next.accepted = r.accepted)
      (hresults : next.results = r.results ∨
        next.results = r.results ++ [([], none)] ∧ (label = .read 0 ∨ ∃ choice, label = .advance choice)) :
      Effect windows r label next
  | failed {choice : Choice} {size : ℕ} {e : RelayError} (hreader : r.reader = .checking size)
      (herr : r.stream.err = some e) :
      Effect windows r (.advance choice) { r with reader := .idle, results := r.results ++ [([], some e)] }
  | took {choice : Choice} {size : ℕ} (hreader : r.reader = .looking size) (hunread : r.stream.unread ≠ []) :
      Effect windows r (.advance choice)
        { r with stream := r.stream.take size, reader := .releasing (r.stream.unread.take size) }
  | released {choice : Choice} {bytes : List α} {stream : AgentRelayStream α}
      (hreader : r.reader = .releasing bytes)
      (hrelease : r.stream.releaseReceiveWindow windows bytes.length = (stream, 0)) :
      Effect windows r (.advance choice) { r with stream, reader := .idle, results := r.results ++ [(bytes, none)] }
  | flushing {choice : Choice} {bytes : List α} {stream : AgentRelayStream α} {update : ℕ}
      (hreader : r.reader = .releasing bytes) (hupdate : update ≠ 0)
      (hrelease : r.stream.releaseReceiveWindow windows bytes.length = (stream, update)) :
      Effect windows r (.advance choice) { r with stream, reader := .flushing bytes update }
  | flushed {choice : Choice} {bytes : List α} {update : ℕ} (hreader : r.reader = .flushing bytes update) :
      Effect windows r (.advance choice)
        { r with reader := .idle, outbox := r.outbox ++ [update], results := r.results ++ [(bytes, none)] }
  | lost {bytes : List α} {update : ℕ} (hreader : r.reader = .flushing bytes update) :
      Effect windows r (.advance .refused)
        { r with
          stream := r.stream.detach.finish .disconnected
          reader := .idle
          results := r.results ++ [(bytes, none)] }
  | ignored {f : Frame α} (hattached : r.stream.attached = false) : Effect windows r (.frame f) r
  | accepted {payload : List α} {stream : AgentRelayStream α} (hhandler : r.handler = none)
      (hhalf : r.stream.remoteHalf = false) (herr : r.stream.err = none)
      (hroom : r.stream.unread.length + payload.length ≤ r.stream.budget)
      (hstream : stream.inbound = { r.stream.inbound with unread := r.stream.unread ++ payload }) :
      Effect windows r (.frame (.data payload)) { r with stream, accepted := r.accepted ++ [payload] }
  | refused {payload : List α} {stream : AgentRelayStream α} {e : RelayError} (hhandler : r.handler = none)
      (hstream : stream.inbound = { r.stream.inbound with attached := false })
      (hreason : (r.stream.remoteHalf ∧ e = .invalidFrame) ∨ r.stream.err = some e ∨
        (e = .backpressure ∧ r.stream.budget < r.stream.unread.length + payload.length)) :
      Effect windows r (.frame (.data payload)) { r with stream, handler := some (e, true) }
  | halfClosed (hhandler : r.handler = none) :
      Effect windows r (.frame .halfClose)
        { r with
          stream := { r.stream with remoteHalf := true }
          handler := some (.eof, r.stream.localHalf) }
  | reset (hhandler : r.handler = none) :
      Effect windows r (.frame .reset) { r with stream := r.stream.detach, handler := some (.reset, true) }
  | aside {label : ReadLabel α} {stream : AgentRelayStream α} {attached : Bool}
      (hlabel : (∀ payload, label ≠ .frame (.data payload)) ∧ label ≠ .publish ∧ ∀ e, label ≠ .fail e)
      (hstream : stream.inbound = { r.stream.inbound with attached })
      (hattached : attached = r.stream.attached ∨ r.stream.remoteHalf)
      (hstill : attached → r.stream.attached) : Effect windows r label { r with stream }
  | publish {e : RelayError} {complete : Bool} {stream : AgentRelayStream α} (hhandler : r.handler = some (e, complete))
      (hstream : stream.inbound =
        { r.stream.inbound with err := published r.stream.err e, attached := r.stream.attached && !complete }) :
      Effect windows r .publish { r with stream, handler := none }
  | fail {e : RelayError} (hne : e ≠ .eof) :
      Effect windows r (.fail e) { r with stream := r.stream.detach.finish e }

variable {r next : Reading α}

theorem read_effect {size : ℕ} (h : r.read size = some next) : Effect windows r (.read size) next := by
  unfold read at h
  cases hr : r.reader with
  | idle =>
    have hb : r.reader.bare = true := by rw [hr]; rfl
    simp only [hr] at h
    split at h
    · next hz =>
      cases h
      rw [← hr]
      exact .call (by simp) rfl hb hb (fun _ => .inr) (fun hgap => .inl hgap) ⟨rfl, rfl, rfl⟩
        (.inr ⟨rfl, .inl (by rw [hz])⟩)
    · cases h
      exact .call (by simp) rfl hb rfl (fun _ hs => .inl (congrArg ReadLabel.read (some.inj hs)))
        (fun hgap => by cases hgap) ⟨rfl, rfl, rfl⟩ (.inl rfl)
  | _ => simp [hr] at h

theorem call_effect {choice : Choice} {moved : Moved α} (hb : r.reader.bare)
    (hs : moved.stream.inbound = r.stream.inbound) (hn : moved.reader.bare)
    (hsize : ∀ size, moved.reader.size = some size → r.reader.size = some size)
    (hgap : moved.reader.inGap → r.reader.inGap ∨ r.stream.unread = [])
    (hu : moved.updates = []) (hr : moved.result = none ∨ moved.result = some ([], none)) :
    Effect windows r (.advance choice)
      { r with
        stream := moved.stream
        reader := moved.reader
        outbox := r.outbox ++ moved.updates
        results := r.results ++ moved.result.toList } := by
  refine .call (by simp) hs hb hn (fun size hnow => .inr (hsize size hnow)) hgap ⟨rfl, by simp [hu], rfl⟩ ?_
  rcases hr with hr | hr
  · exact .inl (by simp [hr])
  · exact .inr ⟨by simp [hr], .inr ⟨choice, rfl⟩⟩

theorem advance_effect {choice : Choice} (h : r.advance windows choice = some next) :
    Effect windows r (.advance choice) next := by
  obtain ⟨moved, hm, rfl⟩ := map_eq_some_iff.mp h
  cases hr : r.reader
  case idle => rw [hr] at hm; cases hm
  case releasing bytes =>
    rcases hrelease : r.stream.releaseReceiveWindow windows bytes.length with ⟨stream, update⟩
    simp only [hr, move, hrelease] at hm
    split at hm
    · next hz =>
      cases hm
      simp only [toList_some, append_nil]
      exact .released hr (hz ▸ hrelease)
    · next hu =>
      cases hm
      simp only [toList_none, append_nil]
      exact .flushing hr hu hrelease
  case flushing bytes update =>
    rw [hr] at hm
    cases choice with
    | refused =>
      cases hm
      simp only [toList_some, append_nil]
      exact .lost hr
    | _ => cases hm; exact .flushed hr
  all_goals have hb : r.reader.bare = true := by rw [hr]; rfl
  case looking size =>
    simp only [hr, move] at hm
    split at hm
    · next hp =>
      cases hm
      simp only [toList_none, append_nil]
      exact .took hr (ne_nil_of_length_pos hp)
    · next hempty =>
      cases hm
      have hnil : r.stream.unread = [] := eq_nil_of_length_eq_zero (by omega)
      exact call_effect hb rfl rfl (fun _ hs => hr ▸ hs) (fun _ => .inr hnil) rfl (.inl rfl)
  case polling size =>
    have hgap : r.reader.inGap = true := by rw [hr]; rfl
    simp only [hr, move] at hm
    split at hm
    · cases hm
      exact call_effect hb rfl rfl (fun _ hs => by cases hs) (fun _ => .inl hgap) rfl (.inr rfl)
    · cases hm
      exact call_effect hb rfl rfl (fun _ hs => hr ▸ hs) (fun _ => .inl hgap) rfl (.inl rfl)
  case checking size =>
    have hgap : r.reader.inGap = true := by rw [hr]; rfl
    simp only [hr, move] at hm
    split at hm
    · next e herr =>
      cases hm
      simp only [toList_some, append_nil]
      exact .failed hr herr
    · cases hm
      exact call_effect hb rfl rfl (fun _ hs => hr ▸ hs) (fun _ => .inl hgap) rfl (.inl rfl)
  case waiting size =>
    cases choice with
    | data | done =>
      simp only [hr, move] at hm
      obtain ⟨-, rfl⟩ := guard_eq_some hm
      exact call_effect hb rfl rfl (fun _ hs => hr ▸ hs) (fun hgap => by cases hgap) rfl (.inl rfl)
    | control =>
      simp only [hr, move] at hm
      obtain ⟨-, rfl⟩ := guard_eq_some hm
      exact call_effect hb rfl rfl (fun _ hs => by cases hs) (fun hgap => by cases hgap) rfl (.inr rfl)
    | refused => rw [hr] at hm; cases hm

theorem frame_effect (h : r.frame f = some next) : Effect windows r (.frame f) next := by
  unfold frame at h
  cases hh : r.handler with
  | some pending => simp [hh] at h
  | none =>
    simp only [hh] at h
    split at h
    · next ha =>
      cases h
      exact .ignored ha
    · cases h
      cases f with
      | data payload =>
        rcases he : r.stream.enqueue payload with ⟨stream, outcome⟩
        have hc := r.stream.enqueue_cases payload
        rw [he] at hc
        rcases hc with ⟨hhalf, herr, hroom, rfl, hs⟩ | ⟨e, rfl, hs, hr⟩
        · simp only [dispatch, he]; exact .accepted hh hhalf herr hroom hs
        simp only [dispatch, he]
        refine .refused hh ?_ hr
        rw [← hs]
        rfl
      | halfClose =>
        simp only [dispatch]
        split
        · exact .aside (by simp) rfl (.inl rfl) id
        · exact .halfClosed hh
      | windowUpdate credit => exact .aside (by simp) (r.stream.inbound_mirror credit) (.inl rfl) id
      | reset => exact .reset hh

theorem step_effect (h : r.step windows label = some next) : Effect windows r label next := by
  cases label with
  | read size => exact read_effect h
  | advance choice => exact advance_effect h
  | frame f => exact frame_effect h
  | publish =>
    obtain ⟨⟨e, complete⟩, hh, rfl⟩ := map_eq_some_iff.mp h
    refine .publish hh ?_
    cases complete with
    | true => rw [Bool.not_true, Bool.and_false]; rfl
    | false => rw [Bool.not_false, Bool.and_true]; rfl
  | readControl =>
    obtain ⟨⟨credit, stream⟩, hc, rfl⟩ := map_eq_some_iff.mp h
    exact .aside (by simp) (r.stream.inbound_readControl hc) (.inl rfl) id
  | closeWrite =>
    cases h
    obtain ⟨attached, hs, ha, hstill⟩ := r.stream.inbound_closeWrite
    exact .aside (by simp) hs ha hstill
  | fail e =>
    simp only [step, ite_none_left_eq_some] at h
    obtain ⟨hne, hn⟩ := h
    cases hn
    exact .fail hne

end Reading

end TunnelMesh.Relay
