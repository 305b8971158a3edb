import TunnelMesh.Relay.AgentStream.Orderly
import TunnelMesh.Relay.AgentStream.Write.Theorems
import TunnelMesh.Relay.CrossNode

namespace TunnelMesh.Relay

open Protocol Reading Endpoint Writer Option List Bool

variable {α : Type} {choice : WriteChoice} {payload : List α}

theorem dataOf_append (frames more : List (Frame α)) : dataOf (frames ++ more) = dataOf frames ++ dataOf more :=
  flatMap_append

theorem dataOf_data (payloads : List (List α)) : dataOf (payloads.map .data) = payloads.flatten := by
  induction payloads with
  | nil => rfl
  | cons payload rest ih => exact congrArg (payload ++ ·) ih

namespace Endpoint

variable {e next : Endpoint α}

def unsent (e : Endpoint α) : List α := e.payload.drop (e.payload.length - e.writer.left)

theorem unsent_idle (hi : e.writer = .idle) : e.unsent = [] := by
  rw [unsent, hi]
  exact drop_length

def Flawless (e next : Endpoint α) : Prop :=
  ∀ call, next.writes[e.writes.length]? = some call → call.error = none

theorem write_unsent (hfits : payload.length ≤ maxPayload) (hw : e.write payload = some next) :
    e.writer = .idle ∧ next.frames = e.frames ∧ next.unsent = payload ∧ next.reading = e.reading ∧ Flawless e next := by
  unfold write at hw
  split at hw
  · next hi =>
    refine ⟨hi, ?_⟩
    split at hw
    · next he =>
      cases hw
      refine ⟨rfl, ?_, rfl, ?_⟩
      · rw [length_eq_zero_iff.mp he]; exact unsent_idle hi
      · intro call hc
        simp only [getElem?_concat_length, some.injEq] at hc
        subst hc
        rfl
    · rw [if_neg (by omega)] at hw
      cases hw
      refine ⟨rfl, ?_, rfl, ?_⟩
      · simp only [unsent, left, Nat.sub_self, drop_zero]
      · intro call hc; simp at hc
  · cases hw

theorem advance_unsent (h : Ready e) (hw : e.reading.stream.writeError = none)
    (hd : choice = .done → e.reading.stream.doneError = none) (hs : choice ≠ .refused)
    (hadvance : e.advance choice = some next) :
    dataOf next.frames ++ next.unsent = dataOf e.frames ++ e.unsent ∧ next.reading = e.reading ∧ Flawless e next := by
  obtain ⟨moved, hm, rfl⟩ := map_eq_some_iff.mp hadvance
  have ha := move_advances h.status h.within hm
  obtain ⟨hok, hf⟩ := move_flawless h.status hw hd hs hm
  have hl := ha.left hok
  refine ⟨?_, ?_, ?_⟩
  · simp only [unsent, dataOf_append, dataOf_data, append_assoc]
    congr 1
    cases hc : moved.chunk with
    | none =>
      simp only [WriterMoved.bytes, hc, elim_none, Nat.add_zero] at hl
      simp only [toList_none, map_nil, flatten_nil, nil_append, hl]
    | some chunk =>
      -- The frame is the next piece of the payload.
      have hstart := move_chunk h.within hm hc
      simp only [WriterMoved.bytes, hc, elim_some] at hl
      have hfrom : e.payload.length - e.writer.left = chunk.1 := by omega
      have hto : e.payload.length - moved.writer.left = chunk.1 + chunk.2 := by omega
      simp only [toList_some, map_cons, map_nil, flatten_cons, flatten_nil, append_nil, hfrom, hto, ← drop_drop]
      exact take_append_drop _ _
  · simp only [hf, false_eq_true, if_false]
  · intro call hcall
    rw [getElem?_append_right (Nat.le_refl _), Nat.sub_self] at hcall
    cases hr : moved.result with
    | none => simp [hr] at hcall
    | some result =>
      simp only [hr, toList_some, map_cons, map_nil, getElem?_cons_zero, some.injEq] at hcall
      subst hcall
      cases he : result.2 with
      | none => rfl
      | some error => exact absurd ⟨result.1, error, by rw [hr, ← he]⟩ hok

theorem frames_of_step (hs : e.step windows label = some next) :
    ∃ new, next.frames = e.frames ++ new ∧ (.halfClose ∈ new → label = .reading .closeWrite) := by
  cases label with
  | reading label =>
    obtain ⟨reading, -, rfl⟩ := map_eq_some_iff.mp hs
    refine ⟨e.closing label, rfl, fun hmem => ?_⟩
    unfold closing at hmem
    split at hmem
    · rfl
    · cases hmem
  | write payload =>
    have hw : e.write payload = some next := hs
    unfold write at hw
    split at hw
    · split at hw
      · cases hw; exact ⟨[], (append_nil _).symm, nofun⟩
      · split at hw <;> cases hw <;> exact ⟨[], (append_nil _).symm, nofun⟩
    · cases hw
  | writer choice =>
    obtain ⟨moved, -, rfl⟩ := map_eq_some_iff.mp hs
    refine ⟨_, rfl, fun hmem => ?_⟩
    obtain ⟨payload, -, hd⟩ := mem_map.mp hmem
    cases hd

theorem halfClose_of_step (hl : label ≠ .reading .closeWrite)
    (hstep : e.step windows label = some next) (hs : .halfClose ∈ next.frames) : .halfClose ∈ e.frames := by
  obtain ⟨new, hf, hnew⟩ := frames_of_step hstep
  rw [hf, mem_append] at hs
  exact hs.resolve_right fun hmem => hl (hnew hmem)

theorem exists_write (hi : e.writer = .idle) (payload : List α) : ∃ next, e.write payload = some next := by
  simp only [write, hi]
  split
  · exact ⟨_, rfl⟩
  · split <;> exact ⟨_, rfl⟩

theorem exists_advance (hb : e.writer ≠ .idle) : ∃ next, e.advance .go = some next := by
  have hmove : ∃ moved,
      e.writer.move e.reading.stream.writeError e.reading.stream.doneError e.sendState .go = some moved := by
    cases hw : e.writer with
    | idle => exact absurd hw hb
    | reserving | exhausted | sending => simp only [move]; split <;> exact ⟨_, rfl⟩
    | partly | waiting => exact ⟨_, rfl⟩
  obtain ⟨moved, hm⟩ := hmove
  exact ⟨_, map_eq_some_iff.mpr ⟨moved, hm, rfl⟩⟩

structure Sound (ended : Bool) (e : Endpoint α) : Prop where
  ready : e.Ready
  signalled : e.reading.Signalled
  accounted : e.reading.Accounted
  stage : e.reading.Stage ended

theorem sound_opened (window : ℕ) : Sound false (opened window : Endpoint α) :=
  ⟨ready_opened window, signalled_opened window, accounted_opened window, stage_opened window⟩

theorem Sound.reading (h : Sound ended e) (ho : e.reading.Orderly ended label) (hc : e.reading.Clear label)
    (hs : e.step windows (.reading label) = some next) : Sound (endedAfter ended label) next := by
  have hready := step_ready h.ready hs
  obtain ⟨reading, hr, rfl⟩ := map_eq_some_iff.mp hs
  exact ⟨hready, (step_stirs hr).signalled h.signalled,
    effect_accounted (step_effect hr) h.accounted hc, step_stage hr h.stage ho⟩

theorem Sound.write (h : Sound ended e) (hf : payload.length ≤ maxPayload)
    (hw : e.write payload = some next) : Sound ended next := by
  obtain ⟨-, -, -, hr, -⟩ := write_unsent hf hw
  have hready := (write_ready h.ready hw).1
  exact ⟨hready, hr ▸ h.signalled, hr ▸ h.accounted, hr ▸ h.stage⟩

def Writes (e : Endpoint α) (choice : WriteChoice) : Prop :=
  e.reading.stream.writeError = none ∧ (choice = .done → e.reading.stream.doneError = none) ∧ choice ≠ .refused

theorem Sound.advance (h : Sound ended e) (hw : e.Writes choice)
    (ha : e.advance choice = some next) : Sound ended next := by
  obtain ⟨-, hr, -⟩ := advance_unsent h.ready hw.1 hw.2.1 hw.2.2 ha
  have hready := (advance_ready h.ready ha).1
  exact ⟨hready, hr ▸ h.signalled, hr ▸ h.accounted, hr ▸ h.stage⟩

theorem Sound.writeError (h : Sound ended e) (hl : e.reading.stream.localHalf = false) :
    e.reading.stream.writeError = none := by
  unfold AgentRelayStream.writeError
  rw [if_neg]
  rintro (⟨hn, heof⟩ | ht)
  · rcases h.stage.err_cases with herr | ⟨herr, -⟩
    · exact hn herr
    · exact heof herr
  · rw [hl] at ht; cases ht

theorem reading_upload (hs : e.step windows (.reading label) = some next) :
    dataOf next.frames = dataOf e.frames ∧ next.unsent = e.unsent ∧ next.writer = e.writer := by
  obtain ⟨reading, -, rfl⟩ := map_eq_some_iff.mp hs
  refine ⟨?_, rfl, rfl⟩
  have hc : dataOf (e.closing label) = [] := by
    unfold closing
    split
    · split <;> rfl
    · rfl
  rw [dataOf_append, hc, append_nil]

end Endpoint

namespace AgentNode

variable {a next : AgentNode α}

theorem step_eq (hs : a.step windows label = some next) :
    ∃ endpoint, a.endpoint.step windows label = some endpoint ∧ next = { a with endpoint } := by
  obtain ⟨endpoint, he, rfl⟩ := map_eq_some_iff.mp hs
  exact ⟨endpoint, he, rfl⟩

structure Sound (a : AgentNode α) : Prop where
  endpoint : a.endpoint.Sound a.ended
  accepted : a.endpoint.reading.accepted.flatten = a.sent
  noReset : a.reset = false

theorem sound_opened (window : ℕ) : Sound (opened window : AgentNode α) := ⟨Endpoint.sound_opened window, rfl, rfl⟩

theorem Sound.writeControl (h : Sound a) (credit : ℕ) : Sound (a.writeControl credit) :=
  { h with }

theorem Sound.reading (h : Sound a) (hstep : a.step windows (.reading label) = some next)
    (hf : ∀ f, label ≠ .frame f) (ho : a.endpoint.reading.Orderly a.ended label)
    (hc : a.endpoint.reading.Clear label) : Sound next := by
  obtain ⟨endpoint, he, rfl⟩ := step_eq hstep
  have hs := h.endpoint.reading ho hc he
  obtain ⟨reading, hr, rfl⟩ := map_eq_some_iff.mp he
  have hended : endedAfter a.ended label = a.ended := by
    unfold endedAfter
    split
    · exact absurd rfl (hf _)
    · rfl
  rw [hended] at hs
  refine ⟨hs, ?_, h.noReset⟩
  rw [← h.accepted]
  exact congrArg flatten (effect_accepted (step_effect hr) fun payload => hf _)

theorem Sound.orderly (h : Sound a) (hc : a.conforms f) : a.endpoint.reading.Orderly a.ended (.frame f) := by
  cases f with
  | data payload =>
    simp only [conforms, and_eq_true, not_eq_true', or_eq_true, decide_eq_true_eq] at hc
    obtain ⟨he, hr⟩ := hc
    refine ⟨he, ?_⟩
    have hs := h.endpoint.stage
    rw [he] at hs
    cases hs with
    | flowing ho =>
      rcases hr with hg | hr
      · rw [stream, ho.2.1] at hg; cases hg
      · exact hr
  | halfClose =>
    have he : a.ended = false := by simpa [conforms] using hc
    exact he
  | windowUpdate credit => trivial
  | reset => cases hc

theorem frame_eq (hf : a.frame windows f = some next) :
    a.conforms f ∧ ∃ stepped, a.step windows (.reading (.frame f)) = some stepped ∧ next = stepped.heard f := by
  unfold frame at hf
  split_ifs at hf with hc
  obtain ⟨stepped, hs, rfl⟩ := map_eq_some_iff.mp hf
  exact ⟨hc, stepped, hs, rfl⟩

theorem Sound.frame (h : Sound a) (hframe : a.frame windows f = some next) : Sound next := by
  obtain ⟨hc, stepped, hstep, rfl⟩ := frame_eq hframe
  obtain ⟨endpoint, he, rfl⟩ := step_eq hstep
  have ho := h.orderly hc
  have hs := h.endpoint.reading ho trivial he
  obtain ⟨reading, hr, rfl⟩ := map_eq_some_iff.mp he
  have heffect := step_effect hr
  cases f with
  | data payload =>
    obtain ⟨hended, hroom⟩ := ho
    have ha := data_accepted heffect (hended ▸ h.endpoint.stage) hroom
    refine ⟨hs, ?_, h.noReset⟩
    have hf : (a.endpoint.reading.accepted ++ [payload]).flatten = a.sent ++ payload := by
      rw [← h.accepted]
      simp
    rw [← ha] at hf
    exact hf
  | halfClose | windowUpdate =>
    have ha := effect_accepted heffect (by simp)
    exact ⟨hs, (congrArg flatten ha).trans h.accepted, h.noReset⟩
  | reset => exact absurd ho id

structure Aside (a next : AgentNode α) : Prop where
  localHalf : next.stream.localHalf = a.stream.localHalf
  data : dataOf next.endpoint.frames = dataOf a.endpoint.frames
  unsent : next.endpoint.unsent = a.endpoint.unsent
  writer : next.endpoint.writer = a.endpoint.writer

theorem reading_aside (hl : label ≠ .closeWrite) (hs : a.step windows (.reading label) = some next) : Aside a next := by
  obtain ⟨endpoint, he, rfl⟩ := step_eq hs
  obtain ⟨hd, hu, hw⟩ := reading_upload he
  obtain ⟨reading, hr, rfl⟩ := map_eq_some_iff.mp he
  exact ⟨(step_stirs hr).localHalf hl, hd, hu, hw⟩

theorem reading_results (ha : ∀ choice, label ≠ .advance choice) (hread : label ≠ .read 0)
    (hs : a.step windows (.reading label) = some next) :
    next.endpoint.reading.results = a.endpoint.reading.results := by
  obtain ⟨endpoint, he, rfl⟩ := step_eq hs
  obtain ⟨reading, hr, rfl⟩ := map_eq_some_iff.mp he
  exact results_of_step ha hread hr

theorem frame_aside (hf : a.frame windows f = some next) :
    Aside a next ∧ next.endpoint.reading.results = a.endpoint.reading.results := by
  obtain ⟨-, stepped, hs, rfl⟩ := frame_eq hf
  have ha := reading_aside (by simp) hs
  have hr := reading_results (by simp) (by simp) hs
  cases f with
  | data | halfClose => exact ⟨{ ha with }, hr⟩
  | windowUpdate | reset => exact ⟨ha, hr⟩

theorem read_eq {choice : Choice} (hr : a.read windows choice = some (next, result)) :
    choice ≠ .refused ∧ a.step windows (.reading (.advance choice)) = some next ∧
      result = next.endpoint.reading.results[a.endpoint.reading.results.length]? := by
  unfold read at hr
  split_ifs at hr with hc
  obtain ⟨stepped, hs, hp⟩ := map_eq_some_iff.mp hr
  cases hp
  exact ⟨hc, hs, rfl⟩

theorem Sound.read {choice : Choice} (h : Sound a) (hread : a.read windows choice = some (next, result)) :
    Sound next ∧ next.endpoint.reading.results = a.endpoint.reading.results ++ result.toList ∧
      ∀ bytes e, result = some (bytes, some e) → bytes = [] ∧ a.stream.err = some e := by
  obtain ⟨hc, hs, hr⟩ := read_eq hread
  have ho : a.endpoint.reading.Orderly a.ended (.advance choice) := by
    cases choice with
    | refused => exact absurd rfl hc
    | _ => trivial
  refine ⟨h.reading hs (by simp) ho trivial, ?_⟩
  obtain ⟨endpoint, he, rfl⟩ := step_eq hs
  obtain ⟨reading, ha, rfl⟩ := map_eq_some_iff.mp he
  rw [hr]
  exact ⟨advance_results ha, fun bytes e herror => advance_error ha herror⟩

theorem Sound.read_blocked (h : Sound a) (hc : a.endpoint.reading.reader ≠ .idle)
    (hd : a.read windows .data = none) (hdone : a.read windows .done = none) :
    a.endpoint.reading.pending = [] ∧ a.stream.err = none := by
  have ha : ∀ choice, choice ≠ .refused → a.read windows choice = none →
      a.endpoint.reading.advance windows choice = none := by
    intro choice hchoice hn
    rw [AgentNode.read, if_neg hchoice, map_eq_none_iff, step, map_eq_none_iff] at hn
    exact map_eq_none_iff.mp hn
  rcases advance_blocked (ha .data (by simp) hd) (ha .done (by simp) hdone) with
    hi | ⟨size, hw, hs, ho⟩
  · exact absurd hi hc
  · have hu := h.endpoint.signalled.wake (by rw [hw]; rfl) hs
    have herr : ¬ a.stream.err ≠ none := fun hf => by
      rw [h.endpoint.signalled.done.mpr hf] at ho
      cases ho
    refine ⟨?_, not_not.mp herr⟩
    rw [pending, hw, hu]
    rfl

theorem startWrite_eq (hw : a.startWrite windows payload = some (next, call)) :
    ∃ endpoint, a.endpoint.write payload = some endpoint ∧ next = { a with endpoint } ∧
      call = endpoint.writes[a.endpoint.writes.length]? := by
  obtain ⟨stepped, hs, hp⟩ := map_eq_some_iff.mp hw
  cases hp
  obtain ⟨endpoint, he, rfl⟩ := step_eq hs
  exact ⟨endpoint, he, rfl, rfl⟩

theorem write_eq (hw : a.write windows choice = some (next, call)) :
    choice ≠ .refused ∧ ∃ endpoint, a.endpoint.advance choice = some endpoint ∧ next = { a with endpoint } ∧
      call = endpoint.writes[a.endpoint.writes.length]? := by
  unfold write at hw
  split_ifs at hw with hc
  obtain ⟨stepped, hs, hp⟩ := map_eq_some_iff.mp hw
  cases hp
  obtain ⟨endpoint, he, rfl⟩ := step_eq hs
  exact ⟨hc, endpoint, he, rfl, rfl⟩

-- A call of `Write` adds its payload to the bytes that go to the Agent. The read
-- side takes no part in it.
structure Adds (a : AgentNode α) (payload : List α) (next : AgentNode α) (call : Option (WriteCall α)) : Prop where
  sound : Sound next
  reading : next.endpoint.reading = a.endpoint.reading
  data : dataOf next.endpoint.frames ++ next.endpoint.unsent =
    dataOf a.endpoint.frames ++ a.endpoint.unsent ++ payload
  flawless : ∀ c, call = some c → c.error = none

theorem Sound.startWrite (h : Sound a)
    (hf : payload.length ≤ maxPayload) (hw : a.startWrite windows payload = some (next, call)) :
    Adds a payload next call := by
  obtain ⟨endpoint, he, rfl, rfl⟩ := startWrite_eq hw
  obtain ⟨hi, hframes, hu, hr, hflawless⟩ := write_unsent hf he
  refine ⟨⟨h.endpoint.write hf he, ?_, h.noReset⟩, hr, ?_, hflawless⟩
  · rw [hr]; exact h.accepted
  · rw [hframes, hu, unsent_idle hi, append_nil]

theorem Sound.write (h : Sound a) (hl : a.stream.localHalf = false) (hd : choice = .done → a.stream.err = none)
    (hwrite : a.write windows choice = some (next, call)) : Adds a [] next call := by
  obtain ⟨hc, endpoint, he, rfl, rfl⟩ := write_eq hwrite
  have hw : a.endpoint.Writes choice := by
    refine ⟨h.endpoint.writeError hl, fun hg => if_neg fun hclosed => ?_, hc⟩
    exact h.endpoint.signalled.done.mp hclosed (hd hg)
  obtain ⟨hs, hr, hf⟩ :=
    advance_unsent h.endpoint.ready hw.1 hw.2.1 hw.2.2 he
  refine ⟨⟨h.endpoint.advance hw he, ?_, h.noReset⟩, hr, ?_, hf⟩
  · rw [hr]; exact h.accepted
  · rw [hs, append_nil]

theorem write_blocked (hgo : a.write windows .go = none) : a.endpoint.writer = .idle := by
  by_contra hb
  obtain ⟨endpoint, he⟩ := Endpoint.exists_advance hb
  simp [write, step, Endpoint.step, he] at hgo

-- What the node does for itself: the Agent has not ended by it, and no HALF_CLOSE
-- goes to the Agent.
structure Calm (a next : AgentNode α) : Prop where
  ended : next.ended = a.ended
  halfClose : .halfClose ∈ next.endpoint.frames → .halfClose ∈ a.endpoint.frames

theorem step_calm (hl : label ≠ .reading .closeWrite) (hs : a.step windows label = some next) : Calm a next := by
  obtain ⟨endpoint, he, rfl⟩ := step_eq hs
  exact ⟨rfl, halfClose_of_step hl he⟩

theorem read_calm {choice : Choice} (hr : a.read windows choice = some (next, result)) : Calm a next :=
  step_calm (by simp) (read_eq hr).2.1

theorem startWrite_calm (hw : a.startWrite windows payload = some (next, call)) : Calm a next := by
  obtain ⟨endpoint, he, rfl, -⟩ := startWrite_eq hw
  have hs : a.endpoint.step windows (.write payload) = some endpoint := he
  exact ⟨rfl, halfClose_of_step (by simp) hs⟩

theorem write_calm (hw : a.write windows choice = some (next, call)) : Calm a next := by
  obtain ⟨-, endpoint, he, rfl, -⟩ := write_eq hw
  have hs : a.endpoint.step windows (.writer choice) = some endpoint := he
  exact ⟨rfl, halfClose_of_step (by simp) hs⟩

theorem frame_calm (hf : a.frame windows f = some next) : (next.ended ↔ a.ended ∨ f = .halfClose) ∧
      (.halfClose ∈ next.endpoint.frames → .halfClose ∈ a.endpoint.frames) := by
  obtain ⟨-, stepped, hs, rfl⟩ := frame_eq hf
  have hc := step_calm (by simp) hs
  cases f with
  | halfClose => exact ⟨by simp [heard], hc.halfClose⟩
  | data | windowUpdate | reset => exact ⟨by simp [heard, hc.ended], hc.halfClose⟩

end AgentNode

end TunnelMesh.Relay
