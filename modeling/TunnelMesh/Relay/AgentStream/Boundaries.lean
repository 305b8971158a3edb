import TunnelMesh.Relay.AgentStream.Write.Theorems

namespace TunnelMesh.Relay

open Protocol Reader Option List Transition

variable {α : Type}

def datagrams (payloads : List (List α)) : List (List α) := payloads.filter fun payload => !payload.isEmpty

@[simp] theorem datagrams_append (first second : List (List α)) :
    datagrams (first ++ second) = datagrams first ++ datagrams second := filter_append ..

@[simp] theorem datagrams_empty : datagrams [([] : List α)] = [] := rfl

namespace Reading

variable {r next : Reading α}

theorem effect_size (he : Effect windows r label next) {size : ℕ} (hs : next.reader.size = some size) :
    label = .read size ∨ r.reader.size = some size := by
  cases he with
  | call hlabel hstream hreader hnext hsizes => exact hsizes size hs
  | failed | took | released | flushing | flushed | lost => cases hs
  | _ => exact .inr hs

-- Datagrams have at most `longest` bytes. They are returned one by one: each is
-- in the results, in the hands of a call or alone in the buffer.
structure Separate (longest : ℕ) (r : Reading α) : Prop where
  order : datagrams (r.results.map Prod.fst) ++ datagrams [r.reader.hand] ++ datagrams [r.stream.unread] =
    datagrams r.accepted
  fits : r.stream.unread.length ≤ longest
  sizes : ∀ size, r.reader.size = some size → longest ≤ size

-- What a step may meet: a buffer that is long enough for every datagram, and
-- bytes that come when no others are unread.
def Alone (longest : ℕ) (r : Reading α) : ReadLabel α → Prop
  | .read size => longest ≤ size
  | .frame (.data payload) => payload.length ≤ longest ∧ (payload.length = 0 ∨ r.stream.unread.length = 0)
  | _ => True

theorem separate_opened (longest window : ℕ) : Separate longest (opened window : Reading α) :=
  ⟨rfl, Nat.zero_le _, fun size hs => by cases hs⟩

theorem effect_order (heffect : Effect windows r label next) (h : Separate longest r) (ha : Alone longest r label) :
    datagrams (next.results.map Prod.fst) ++ datagrams [next.reader.hand] ++ datagrams [next.stream.unread] =
      datagrams next.accepted := by
  have ho := h.order
  cases heffect with
  | call hlabel hs hr hn hsize hgap hrest hresults =>
    rw [hand_of_bare hr] at ho
    rw [unread_of_inbound hs, hand_of_bare hn, hrest.2.2]
    rcases hresults with hresults | ⟨hresults, -⟩
    · rw [hresults]; exact ho
    · rw [hresults, map_append, datagrams_append]
      simp only [map_cons, map_nil, datagrams_empty, append_nil] at ho ⊢
      exact ho
  | failed hr herr => simp only [hr, hand, datagrams_empty, append_nil] at ho; simpa [hand] using ho
  | @took choice size hr hunread =>
    have hw := Nat.le_trans h.fits (h.sizes size (by rw [hr]; rfl))
    have hrest : (r.stream.take size).unread = [] := by
      rw [unread_of_inbound (r.stream.inbound_take size)]
      exact drop_eq_nil_of_le hw
    simp only [hr, hand, datagrams_empty, append_nil] at ho
    simp only [hand, take_of_length_le hw, hrest, datagrams_empty, append_nil]
    exact ho
  | released hr hrelease =>
    rw [hr] at ho
    simp only [map_append, map_cons, map_nil, datagrams_append, hand, datagrams_empty,
      append_nil, unread_of_inbound (r.stream.released_inbound hrelease)]
    exact ho
  | flushing hr hupdate hrelease =>
    rw [hr] at ho
    simp only [unread_of_inbound (r.stream.released_inbound hrelease)]
    exact ho
  | flushed hr | lost hr =>
    rw [hr] at ho
    simp only [map_append, map_cons, map_nil, datagrams_append, hand, datagrams_empty, append_nil]
    exact ho
  | ignored | halfClosed | reset | fail => exact ho
  | @accepted payload stream hhandler hhalf herr hroom hs =>
    simp only [unread_of_inbound hs, datagrams_append]
    rcases ha.2 with he | he
    · rw [eq_nil_of_length_eq_zero he, append_nil, datagrams_empty, append_nil]; exact ho
    · rw [eq_nil_of_length_eq_zero he, datagrams_empty, append_nil] at ho
      rw [eq_nil_of_length_eq_zero he, nil_append, ho]
  | refused _ hs | aside _ hs | publish _ hs => simp only [unread_of_inbound hs]; exact ho

theorem effect_fits (he : Effect windows r label next) (h : Separate longest r) (ha : Alone longest r label) :
    next.stream.unread.length ≤ longest := by
  have hf := h.fits
  cases he with
  | call _ hs | refused _ hs | aside _ hs | publish _ hs => exact (unread_of_inbound hs) ▸ hf
  | @took choice size hreader hunread =>
    rw [unread_of_inbound (r.stream.inbound_take size)]
    simp only [length_drop]
    omega
  | released _ hr | flushing _ _ hr => exact (unread_of_inbound (r.stream.released_inbound hr)) ▸ hf
  | @accepted payload stream hhandler hhalf herr hroom hs =>
    rw [unread_of_inbound hs, length_append]
    have hlength := ha.1
    rcases ha.2 with hempty | hempty
    · omega
    · omega
  | _ => exact hf

theorem step_separate (h : Separate longest r) (ha : Alone longest r label)
    (hs : r.step windows label = some next) : Separate longest next := by
  refine ⟨effect_order (step_effect hs) h ha, effect_fits (step_effect hs) h ha, ?_⟩
  intro size hsize
  rcases effect_size (step_effect hs) hsize with rfl | hold
  · exact ha
  · exact h.sizes size hold

end Reading

namespace Writer

def reserves : Writer → Bool
  | .reserving _ _ => true
  | .exhausted _ _ => true
  | _ => false

def Whole (length : ℕ) : Writer → Prop
  | .idle => True
  | .reserving sent rest => sent = 0 ∧ rest = length
  | .exhausted sent rest => sent = 0 ∧ rest = length
  | .partly sent rest want => sent = 0 ∧ rest = length ∧ want = length
  | .waiting sent rest => sent = 0 ∧ rest = length
  | .sending sent rest chunk => sent = 0 ∧ rest = length ∧ chunk = length

variable {length : ℕ} {writer : Writer}
  {choice : WriteChoice}

theorem reserved_whole (st : StreamState) {exhausted : Writer} (hs : sent = 0)
    (hrest : rest = length) (hw : want = length) (he : exhausted.Whole length) :
    (reserved st sent rest want exhausted).writer.Whole length ∧
      (reserved st sent rest want exhausted).chunk = none ∧
      ∀ result, (reserved st sent rest want exhausted).result = some result → result.2 ≠ none := by
  rcases reserved_cases st sent rest want exhausted with ⟨next, -, hm⟩ | hm | ⟨e, hm⟩
  · rw [hm]; exact ⟨⟨hs, hrest, hw⟩, rfl, fun result hr => by cases hr⟩
  · rw [hm]; exact ⟨he, rfl, fun result hr => by cases hr⟩
  · rw [hm]
    refine ⟨trivial, rfl, ?_⟩
    simp

theorem move_whole (hlength : length ≤ maxStreamFrame) (hw : writer.Whole length)
    (hc : writer.reserves → st.sendWindow = 0 ∨ length ≤ st.sendWindow)
    (hm : writer.move writeError doneError st choice = some moved) :
    moved.writer.Whole length ∧
      ((moved.chunk = none ∧ ∀ result, moved.result = some result → result.2 ≠ none) ∨
        (moved.chunk = some (0, length) ∧ moved.writer = .idle)) := by
  cases writer with
  | idle => cases hm
  | reserving sent rest =>
    obtain ⟨hs, hrest⟩ := hw
    simp only [move] at hm
    split at hm <;> cases hm
    · refine ⟨trivial, .inl ⟨rfl, ?_⟩⟩; simp
    · have hwant : min rest maxStreamFrame = length := by omega
      have hr := reserved_whole st hs hrest hwant (show (Writer.exhausted sent rest).Whole length from ⟨hs, hrest⟩)
      exact ⟨hr.1, .inl hr.2⟩
  | exhausted sent rest =>
    obtain ⟨hs, hrest⟩ := hw
    simp only [move] at hm
    split at hm <;> cases hm
    · exact ⟨⟨hs, hrest⟩, .inl ⟨rfl, fun result hresult => by cases hresult⟩⟩
    · next hp =>
      have hfull : length ≤ st.sendWindow := (hc rfl).resolve_left hp
      refine ⟨⟨hs, hrest, ?_⟩, .inl ⟨rfl, fun result hresult => by cases hresult⟩⟩
      omega
  | partly sent rest want =>
    obtain ⟨hs, hrest, hwant⟩ := hw
    cases hm
    have hr := reserved_whole st hs hrest hwant (show (Writer.waiting sent rest).Whole length from ⟨hs, hrest⟩)
    exact ⟨hr.1, .inl hr.2⟩
  | waiting sent rest =>
    cases choice with
    | done =>
      obtain ⟨e, -, rfl⟩ := map_eq_some_iff.mp hm
      refine ⟨trivial, .inl ⟨rfl, ?_⟩⟩
      simp
    | _ =>
      cases hm
      exact ⟨hw, .inl ⟨rfl, fun result hresult => by cases hresult⟩⟩
  | sending sent rest chunk =>
    obtain ⟨rfl, rfl, rfl⟩ := hw
    cases choice with
    | refused =>
      cases hm
      refine ⟨trivial, .inl ⟨rfl, ?_⟩⟩
      simp
    | _ =>
      simp only [move, le_refl, if_true] at hm
      cases hm
      exact ⟨trivial, .inr ⟨rfl, rfl⟩⟩

end Writer

namespace Endpoint

variable {windows : AgentRelayWindowConfig} {longest : ℕ} {e next : Endpoint α}

structure Bounded (e : Endpoint α) : Prop where
  reads : datagrams (e.reading.results.map Prod.fst) <+: datagrams e.reading.accepted
  writes : ∀ call ∈ e.writes, call.error = none → call.frames = [call.payload]

-- The condition on the steps of a run. The datagrams have at most `longest`
-- bytes and the buffers of `Read` at least as many.
def Spaced (longest : ℕ) (e : Endpoint α) : EndpointLabel α → Prop
  | .reading label => e.reading.Alone longest label
  | .write payload => 0 < payload.length ∧ payload.length ≤ maxStreamFrame
  | .writer _ =>
    e.writer.reserves → e.sendState.sendWindow = 0 ∨ e.payload.length ≤ e.sendState.sendWindow

structure Kept (longest : ℕ) (e : Endpoint α) : Prop where
  reading : e.reading.Separate longest
  call : e.writer ≠ .idle → e.current = [] ∧ e.payload.length ≤ maxStreamFrame
  writer : e.writer.Whole e.payload.length
  writes : ∀ call ∈ e.writes, call.error = none → call.frames = [call.payload]

theorem Kept.bounded (h : Kept longest e) : Bounded e := by
  refine ⟨?_, h.writes⟩
  have ho := h.reading.order
  rw [append_assoc] at ho
  exact ⟨_, ho⟩

theorem kept_opened (longest window : ℕ) : Kept longest (opened window : Endpoint α) :=
  ⟨Reading.separate_opened longest window, fun hw => absurd rfl hw, trivial,
    fun call hc => by cases hc⟩

theorem write_kept {payload : List α} (h : Kept longest e)
    (hs : 0 < payload.length ∧ payload.length ≤ maxStreamFrame) (hw : e.write payload = some next) :
    Kept longest next := by
  have hsmall : ¬ maxPayload < payload.length := by
    have hframe : maxStreamFrame ≤ maxPayload := by decide
    omega
  unfold write at hw
  split at hw
  · rw [if_neg (by omega), if_neg hsmall] at hw
    cases hw
    exact ⟨h.reading, fun _ => ⟨rfl, hs.2⟩, ⟨rfl, rfl⟩, h.writes⟩
  · cases hw

theorem separate_failed (h : e.reading.Separate longest) :
    Reading.Separate longest
      { e.reading with
        stream := if failed = true then e.reading.stream.detach.finish .disconnected else e.reading.stream } := by
  cases failed with
  | true => exact { h with }
  | false => exact h

theorem advance_kept {choice : WriteChoice} (h : Kept longest e)
    (hs : e.writer.reserves → e.sendState.sendWindow = 0 ∨ e.payload.length ≤ e.sendState.sendWindow)
    (ha : e.advance choice = some next) : Kept longest next := by
  obtain ⟨moved, hm, rfl⟩ := map_eq_some_iff.mp ha
  have hb : e.writer ≠ .idle := by
    intro hi
    rw [hi] at hm
    cases hm
  obtain ⟨hc, hl⟩ := h.call hb
  obtain ⟨hw, hchunk⟩ := Writer.move_whole hl h.writer hs hm
  refine ⟨separate_failed h.reading, ?_, hw, ?_⟩
  · intro hn
    rcases hchunk with ⟨hnone, -⟩ | ⟨-, hi⟩
    · exact ⟨by simp [hnone, hc], hl⟩
    · exact absurd hi hn
  · intro call hcall he
    rcases mem_append.mp hcall with hold | hnew
    · exact h.writes call hold he
    obtain ⟨result, hr, rfl⟩ := mem_map.mp hnew
    rcases hchunk with ⟨-, hf⟩ | ⟨hsome, -⟩
    · exact absurd he (hf result (by simpa using hr))
    · simp [hsome, hc]

theorem step_kept (h : Kept longest e) (hs : Spaced longest e label)
    (hstep : e.step windows label = some next) : Kept longest next := by
  cases label with
  | reading label =>
    obtain ⟨reading, hr, rfl⟩ := map_eq_some_iff.mp hstep
    exact { h with reading := Reading.step_separate h.reading hs hr }
  | write payload => exact write_kept h hs hstep
  | writer choice => exact advance_kept h hs hstep

-- In every run in which bytes arrive only when no others are unread, and in
-- which a datagram to be written fits a frame and finds credit for all of it or
-- none, the boundaries of datagrams are kept both ways.
theorem datagram_boundaries_survive (windows : AgentRelayWindowConfig) (window longest : ℕ)
    (labels : List (EndpointLabel α)) (halong : Along (step windows) (Spaced longest) (opened window) labels) :
    Always (step windows) Bounded (opened window) labels := by
  have hinv := always_of_invariant (fun _ _ _ => step_kept)
      _ labels (kept_opened longest window) halong
  exact hinv.mono fun e h => h.bounded

instance (r : Reading α) : (label : ReadLabel α) → Decidable (r.Alone longest label)
  | .read _ => inferInstanceAs (Decidable (_ ≤ _))
  | .frame (.data _) => inferInstanceAs (Decidable (_ ∧ (_ ∨ _)))
  | .frame .halfClose | .frame (.windowUpdate _) | .frame .reset | .advance _ | .publish | .readControl | .closeWrite
  | .fail _ => isTrue trivial

instance (e : Endpoint α) (label : EndpointLabel α) : Decidable (Spaced longest e label) := by
  cases label <;> dsimp only [Spaced] <;> infer_instance

def spacedLabels : List (EndpointLabel Bool) :=
  let received (payload : List Bool) : List (EndpointLabel Bool) :=
    [.reading (.frame (.data payload)), .reading (.read 4), .reading (.advance .data), .reading (.advance .data)]
  received [true] ++ received [false, true] ++ [.write [true], .writer .go, .writer .go]

theorem spaced_datagrams_survive :
    ∃ final, run (step ⟨0, 0⟩) (opened 524288) spacedLabels = some final ∧
      final.reading.results = [([true], none), ([false, true], none)] ∧ Bounded final :=
  (datagram_boundaries_survive ⟨0, 0⟩ 524288 2 spacedLabels (by decide +kernel)).exists_run (by decide +kernel)

theorem advance_reserving (hw : e.writer = .reserving sent rest)
    (he : e.reading.stream.writeError = none) (ho : e.sendState.status = .opened)
    (hroom : min rest maxStreamFrame ≤ e.sendState.sendWindow) :
    e.advance .go = some
      { e with
        sendState := { e.sendState with sendWindow := e.sendState.sendWindow - min rest maxStreamFrame }
        writer := .sending sent rest (min rest maxStreamFrame) } := by
  have hc := StreamState.consumeSend_of_opened (n := min rest maxStreamFrame) ho
  rw [if_neg (by omega)] at hc
  simp [advance, hw, Writer.move, he, Writer.reserved, hc]

theorem advance_sending (hw : e.writer = .sending sent rest chunk) (hmore : chunk < rest) :
    e.advance .go = some
      { e with
        writer := .reserving (sent + chunk) (rest - chunk)
        frames := e.frames ++ [.data ((e.payload.drop sent).take chunk)]
        current := e.current ++ [(e.payload.drop sent).take chunk] } := by
  have hnot : ¬ rest ≤ chunk := by omega
  simp [advance, hw, Writer.move, if_neg hnot]

theorem advance_last (hw : e.writer = .sending sent rest chunk) (hl : rest ≤ chunk) :
    e.advance .go = some
      { e with
        writer := .idle
        frames := e.frames ++ [.data ((e.payload.drop sent).take chunk)]
        current := e.current ++ [(e.payload.drop sent).take chunk]
        writes := e.writes ++ [⟨e.payload, e.current ++ [(e.payload.drop sent).take chunk], sent + chunk, none⟩] } := by
  simp [advance, hw, Writer.move, hl]

theorem long_write_splits (windows : AgentRelayWindowConfig) (window : ℕ) {payload : List α}
    (hl : maxStreamFrame < payload.length) (hshort : payload.length ≤ 2 * maxStreamFrame) :
    (run (step windows) (opened window) (.write payload :: replicate 4 (.writer .go))).map writes =
      some [⟨payload, [payload.take maxStreamFrame, payload.drop maxStreamFrame], payload.length, none⟩] := by
  have hmax : maxPayload = 1048576 := rfl
  have hframe : maxStreamFrame = 32768 := rfl
  have hw : (openedState defaultAgentReceiveWindow).sendWindow = 262144 := rfl
  have hf : min payload.length maxStreamFrame = maxStreamFrame := by omega
  have hs : min (payload.length - maxStreamFrame) maxStreamFrame = payload.length - maxStreamFrame := by omega
  have hwrite : (opened window : Endpoint α).write payload =
      some { (opened window : Endpoint α) with writer := .reserving 0 payload.length, payload } := by
    have hsome : ¬ payload.length = 0 := by omega
    have hfits : ¬ maxPayload < payload.length := by omega
    simp only [write, opened, if_neg hsome, if_neg hfits]
  have he : (AgentRelayStream.opened window : AgentRelayStream α).writeError = none := by
    simp [AgentRelayStream.writeError, AgentRelayStream.opened]
  simp only [replicate, run, step, hwrite, bind_some]
  rw [advance_reserving rfl he rfl (by simp only [hf, opened, hw]; omega), hf, bind_some,
    advance_sending rfl hl, bind_some,
    advance_reserving rfl he rfl (by simp only [hs, opened, hw]; omega), hs,
    bind_some, advance_last rfl (le_refl _), bind_some, map_some]
  have hr : maxStreamFrame + (payload.length - maxStreamFrame) = payload.length := by omega
  have ht : (payload.drop maxStreamFrame).take (payload.length - maxStreamFrame) = payload.drop maxStreamFrame :=
    take_of_length_le (by rw [length_drop])
  simp [opened, hr, ht]

-- Two datagrams that arrive before a read are returned as one, and a datagram of
-- 40000 bytes is sent in two frames.
theorem datagrams_merge_and_split :
    (∃ final, run (step ⟨0, 0⟩) (opened 524288)
        [.reading (.frame (.data [true])), .reading (.frame (.data [false])), .reading (.read 4),
          .reading (.advance .data), .reading (.advance .data)] = some final ∧
      final.reading.accepted = [[true], [false]] ∧ final.reading.results = [([true, false], none)]) ∧
    (run (step ⟨0, 0⟩) (opened 524288)
        (.write (List.replicate 40000 true) :: List.replicate 4 (.writer .go))).map writes =
      some [⟨List.replicate 40000 true,
        [(List.replicate 40000 true).take maxStreamFrame, (List.replicate 40000 true).drop maxStreamFrame],
        (List.replicate 40000 true).length, none⟩] := by
  refine ⟨exists_run_of_any (by decide +kernel), ?_⟩
  have hframe : maxStreamFrame = 32768 := rfl
  exact long_write_splits ⟨0, 0⟩ 524288 (by rw [length_replicate]; omega) (by rw [length_replicate]; omega)

end Endpoint

end TunnelMesh.Relay
