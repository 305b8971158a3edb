import TunnelMesh.Relay.CrossNode.AgentNode

namespace TunnelMesh.Relay.LocalPath

open Protocol AgentNode ReadLog Endpoint AgentRelayStream List Transition

variable {α : Type} {windows : AgentRelayWindowConfig} {s next : LocalPath α}
  {label : PathLabel α} {agent : AgentNode α}

-- The end of file does not overtake bytes, and no `Write` that waits for credit is
-- given up.
def Careful (s : LocalPath α) : PathLabel α → Prop
  | .publish => s.agent.endpoint.reading.Clear .publish
  | .writing .done => False
  | _ => True

instance (s : LocalPath α) (label : PathLabel α) : Decidable (Careful s label) := by
  unfold Careful
  split <;> infer_instance

structure Intact (s : LocalPath α) : Prop where
  sound : s.agent.Sound
  localHalf : s.agent.stream.localHalf = s.client.writeClosed
  writer : s.client.writeClosed → s.agent.endpoint.writer = .idle
  halfClose : s.client.writeClosed → .halfClose ∈ s.agent.endpoint.frames
  received : s.client.received = returned s.agent.endpoint.reading.results
  result : (s.client.result = none ∧ ended s.agent.endpoint.reading.results = false) ∨
    (s.client.result = some .eof ∧ ended s.agent.endpoint.reading.results)
  upload : dataOf s.agent.endpoint.frames ++ s.agent.endpoint.unsent = s.client.written

theorem intact_opened (window : ℕ) : Intact (opened window : LocalPath α) :=
  ⟨sound_opened window, rfl, fun _ => rfl, by simp [opened, ClientNode.opened], rfl, .inl ⟨rfl, rfl⟩, rfl⟩

theorem Intact.aside (h : Intact s) (hs : agent.Sound)
    (ha : Aside s.agent agent) (hf : s.agent.endpoint.frames <+: agent.endpoint.frames)
    (hr : agent.endpoint.reading.results = s.agent.endpoint.reading.results) : Intact { s with agent } := by
  refine ⟨hs, ha.localHalf.trans h.localHalf, fun hc => ha.writer.trans (h.writer hc),
    fun hc => hf.subset (h.halfClose hc), ?_, ?_, ?_⟩
  · rw [hr]; exact h.received
  · rw [hr]; exact h.result
  · rw [ha.data, ha.unsent]; exact h.upload

theorem frames_extend {e next : Endpoint α} {label : EndpointLabel α} (hs : e.step windows label = some next) :
    e.frames <+: next.frames := by
  obtain ⟨new, hf, -⟩ := frames_of_step hs
  exact ⟨new, hf.symm⟩

section

variable (h : Intact s)

include h

theorem Intact.reading {readLabel : ReadLabel α}
    (hs : s.agent.step windows (.reading readLabel) = some agent) (ha : ∀ choice, readLabel ≠ .advance choice)
    (hread : readLabel ≠ .read 0) (hc : readLabel ≠ .closeWrite) (hsound : agent.Sound) : Intact { s with agent } := by
  have haside := reading_aside hc hs
  have hr := reading_results ha hread hs
  obtain ⟨endpoint, he, rfl⟩ := step_eq hs
  exact h.aside hsound haside (frames_extend he) hr

theorem Intact.frame {f : Frame α} (hf : s.agent.frame windows f = some agent) : Intact { s with agent } := by
  obtain ⟨ha, hr⟩ := frame_aside hf
  refine h.aside (h.sound.frame hf) ha ?_ hr
  obtain ⟨-, stepped, hs, rfl⟩ := frame_eq hf
  obtain ⟨endpoint, he, rfl⟩ := step_eq hs
  cases f with
  | _ => exact frames_extend he

theorem Intact.adds {payload : List α} (ho : s.client.writeClosed = false) (ha : s.agent.Adds payload agent call) :
    Intact (writeReturned ⟨agent, s.client.wrote payload⟩ call) := by
  have hs : writeReturned ⟨agent, s.client.wrote payload⟩ call = ⟨agent, s.client.wrote payload⟩ := by
    unfold writeReturned
    split
    · rfl
    · next c => rw [if_pos (ha.flawless c rfl)]
  have hc : (s.client.wrote payload).writeClosed → False := by intro ht; cases ho.symm.trans ht
  rw [hs]
  refine ⟨ha.sound, ?_, fun ht => (hc ht).elim, fun ht => (hc ht).elim, ?_, ?_, ?_⟩
  · rw [stream, ha.reading]; exact h.localHalf
  · rw [ha.reading]; exact h.received
  · rw [ha.reading]; exact h.result
  · rw [ha.data, h.upload]; rfl

theorem Intact.closeWrite (ho : s.client.writeClosed = false)
    (hi : s.agent.endpoint.writer = .idle) (hs : s.agent.step windows (.reading .closeWrite) = some agent) :
    Intact ⟨agent, { s.client with writeClosed := true }⟩ := by
  have hl := h.localHalf.trans ho
  have hw := h.sound.endpoint.writeError hl
  have hsound := h.sound.reading hs (by simp) trivial trivial
  have hr := reading_results (by simp) (by simp) hs
  obtain ⟨endpoint, he, rfl⟩ := step_eq hs
  obtain ⟨hd, hu, hwriter⟩ := reading_upload he
  cases he
  refine ⟨hsound, ?_, fun _ => hwriter.trans hi, fun _ => ?_, ?_, ?_, ?_⟩
  · have hc : s.agent.endpoint.reading.stream.closeWrite.localHalf := by
      unfold writeError at hw
      unfold closeWrite
      split_ifs at hw with hends
      rw [if_neg hends]
    exact hc
  · simp [closing, hw]
  · exact h.received.trans (congrArg returned hr.symm)
  · exact h.result
  · rw [hd, hu]; exact h.upload

theorem Intact.readReturned {result : Option (List α × Option RelayError)}
    (ho : s.client.result = none) (hread : s.agent.read windows choice = some (agent, result)) :
    Intact (LocalPath.readReturned { s with agent } result) := by
  obtain ⟨hs, hr, herror⟩ := h.sound.read hread
  have ha := reading_aside (by simp) (read_eq hread).2.1
  have hf : s.agent.endpoint.frames <+: agent.endpoint.frames := by
    obtain ⟨endpoint, hendpoint, rfl⟩ := step_eq (read_eq hread).2.1
    exact frames_extend hendpoint
  have hn : ended s.agent.endpoint.reading.results = false := by
    rcases h.result with ⟨-, he⟩ | ⟨heof, -⟩
    · exact he
    · rw [ho] at heof; cases heof
  have hl := ha.localHalf.trans h.localHalf
  have hw := fun hc => ha.writer.trans (h.writer hc)
  have hh := fun hc => hf.subset (h.halfClose hc)
  have hu : dataOf agent.endpoint.frames ++ agent.endpoint.unsent = s.client.written := by
    rw [ha.data, ha.unsent]
    exact h.upload
  cases result with
  | none => rw [Option.toList_none, append_nil] at hr; exact h.aside hs ha hf hr
  | some pair =>
    obtain ⟨bytes, e⟩ := pair
    rw [Option.toList_some] at hr
    cases e with
    | none =>
      have hreturned : returned agent.endpoint.reading.results = s.client.received ++ bytes := by
        rw [hr, returned_append hn, returned_ok, ← h.received]
      have he : ended agent.endpoint.reading.results = false := by rw [hr, ended_append, hn]; rfl
      exact ⟨hs, hl, hw, hh, hreturned.symm, .inl ⟨ho, he⟩, hu⟩
    | some e =>
      -- The only error that is published is the end of file.
      obtain ⟨rfl, herr⟩ := herror bytes e rfl
      have heof : e = .eof := by
        rcases h.sound.endpoint.stage.err_cases with hnot | ⟨hsome, -⟩
        · cases hnot.symm.trans herr
        · exact Option.some.inj (herr.symm.trans hsome)
      have hreturned : returned agent.endpoint.reading.results = s.client.received ++ [] := by
        rw [hr, returned_append hn, returned_error, ← h.received]
      have he : ended agent.endpoint.reading.results := by
        rw [hr, ended_append]
        exact Bool.or_true _
      refine ⟨hs, hl, hw, hh, hreturned.symm, .inr ⟨?_, he⟩, hu⟩
      rw [heof]
      rfl

theorem step_intact (hc : Careful s label) (hs : s.step windows label = some next) : Intact next := by
  cases label with
  | agent f => obtain ⟨agent, hf, rfl⟩ := Option.map_eq_some_iff.mp hs; exact h.frame hf
  | publish =>
    obtain ⟨agent, hp, rfl⟩ := Option.map_eq_some_iff.mp hs
    exact h.reading hp (by simp) (by simp) (by simp) (h.sound.reading hp (by simp) trivial hc)
  | write payload =>
    simp only [step] at hs
    split_ifs at hs with hg
    obtain ⟨⟨agent, call⟩, hw, rfl⟩ := Option.map_eq_some_iff.mp hs
    rw [not_or] at hg
    exact h.adds (by simpa using hg.1) (h.sound.startWrite (by omega) hw)
  | writeControl credit =>
    cases hs
    exact { h with sound := h.sound.writeControl credit }
  | closeWrite =>
    simp only [step] at hs
    split_ifs at hs with hg
    obtain ⟨agent, hclose, rfl⟩ := Option.map_eq_some_iff.mp hs
    rw [not_or, not_not] at hg
    exact h.closeWrite (by simpa using hg.1) hg.2 hclose
  | read size =>
    have hr : s.read windows size = some next := hs
    unfold read at hr
    split_ifs at hr with hg
    split at hr
    · obtain ⟨agent, hcall, rfl⟩ := Option.map_eq_some_iff.mp hr
      have hsize : ReadLabel.read size ≠ (.read 0 : ReadLabel α) := by
        rw [Ne, ReadLabel.read.injEq]
        exact fun hz => hg (.inr (.inr hz))
      exact h.reading hcall (by simp) hsize (by simp) (h.sound.reading hcall (by simp) trivial trivial)
    · obtain ⟨agent, hcontrol, rfl⟩ := Option.map_eq_some_iff.mp hr
      have hagent := h.reading hcontrol (by simp) (by simp) (by simp)
        (h.sound.reading hcontrol (by simp) trivial trivial)
      exact { hagent with }
  | reading choice =>
    simp only [step] at hs
    split_ifs at hs with ho
    obtain ⟨⟨agent, result⟩, hr, rfl⟩ := Option.map_eq_some_iff.mp hs
    exact h.readReturned (not_not.mp ho) hr
  | writing choice =>
    obtain ⟨⟨agent, call⟩, hw, rfl⟩ := Option.map_eq_some_iff.mp hs
    have hd : choice = .done → s.agent.stream.err = none := by rintro rfl; exact absurd hc id
    have ho : s.client.writeClosed = false := by
      by_contra ht
      have hi := h.writer (by simpa using ht)
      obtain ⟨-, endpoint, hadvance, -⟩ := write_eq hw
      simp [advance, hi, Writer.move] at hadvance
    have ha := h.adds ho (h.sound.write (h.localHalf.trans ho) hd hw)
    rw [ClientNode.wrote, append_nil] at ha
    exact ha

theorem Intact.waiting (ho : s.client.result = none) (hsettled : Settled (step windows) s) :
    s.agent.endpoint.reading.pending = [] ∧ s.agent.ended = false := by
  have hn : ∀ label ∈ internalLabels, s.step windows label = none := fun label hmem =>
    Option.isNone_iff_eq_none.mp (hsettled label hmem)
  have hg : ∀ choice, .reading choice ∈ (internalLabels : List (PathLabel α)) → s.agent.read windows choice = none := by
    intro choice hmem
    have hb := hn (.reading choice) hmem
    simp only [step, ho, ne_eq, not_true, if_false, Option.map_eq_none_iff] at hb
    exact hb
  have hcalled : s.agent.endpoint.reading.reader ≠ .idle := by
    intro hi
    have hr : s.read windows 1 = none := hn (.read 1) (by simp [internalLabels])
    simp only [read, ho, hi, Reader.resting, ne_eq, not_true, Bool.true_eq_false, Nat.one_ne_zero, or_self,
      if_false] at hr
    split at hr
    · simp [AgentNode.step, Endpoint.step, Reading.step, Reading.read, hi] at hr
    · next credit rest hc =>
      have hf : s.agent.endpoint.reading.stream.controlCh = credit :: rest := hc
      simp [AgentNode.step, Endpoint.step, Reading.step, readControl, hf] at hr
  obtain ⟨hp, herr⟩ := h.sound.read_blocked hcalled (hg .data (by simp [internalLabels]))
    (hg .done (by simp [internalLabels]))
  refine ⟨hp, ?_⟩
  have hpublish := hn .publish (by simp [internalLabels])
  cases he : s.agent.ended with
  | false => rfl
  | true =>
    have hs := h.sound.endpoint.stage
    rw [he] at hs
    cases hs with
    | ending hhalf hnot hh =>
      simp [step, AgentNode.step, Endpoint.step, Reading.step, Reading.publish, hh] at hpublish
    | ended hhalf heof => cases herr.symm.trans heof

theorem Intact.transparent (hs : Settled (step windows) s) : Transparent s.agent s.client := by
  have hlog := h.sound.endpoint.accounted.log
  have hi : s.agent.endpoint.writer = .idle := by
    have hgo := Option.isNone_iff_eq_none.mp (hs (.writing .go) (by simp [internalLabels]))
    exact write_blocked (Option.map_eq_none_iff.mp hgo)
  have hread : s.client.received = s.agent.sent ∧ (s.agent.ended → s.client.result = some .eof) := by
    rcases h.result with ⟨ho, hr⟩ | ⟨heof, hr⟩
    · obtain ⟨hp, he⟩ := h.waiting ho hs
      have hb := hlog.bytes hr
      rw [hp, append_nil, ← h.received, h.sound.accepted] at hb
      exact ⟨hb, fun ht => by cases he.symm.trans ht⟩
    · have hb := (hlog.closed hr).2
      rw [← h.received, h.sound.accepted] at hb
      exact ⟨hb, fun _ => heof⟩
  have hu := h.upload
  rw [unsent_idle hi, append_nil] at hu
  exact ⟨hread.1, hu, hread.2, fun hc => h.sound.endpoint.writeError (h.localHalf.trans hc),
    h.halfClose, h.sound.noReset⟩

end

-- On one node the end of either direction comes to the other end, and the other
-- direction goes on.
theorem local_path_transparent (windows : AgentRelayWindowConfig) (window : ℕ) (labels : List (PathLabel α))
    (s : LocalPath α) (ha : Along (step windows) Careful (opened window) labels)
    (hrun : run (step windows) (opened window) labels = some s) (hs : Settled (step windows) s) :
    Transparent s.agent s.client := by
  have hi : Intact s := run_invariant (fun _ _ _ => step_intact) (intact_opened window) ha hrun
  exact hi.transparent hs

-- The Client ends, the Agent sends a byte and ends.
theorem local_path_half_closed :
    let labels : List (PathLabel Bool) := [.write [false], .writing .go, .writing .go, .closeWrite,
      .agent (.data [true]), .agent .halfClose, .publish, .read 1, .reading .data, .reading .data, .read 1,
      .reading .data, .reading .data, .reading .data]
    ∃ s, run (step ⟨0, 0⟩) (opened 65536) labels = some s ∧ s.client.result = some .eof ∧
      Transparent s.agent s.client := by
  intro labels
  obtain ⟨s, hrun, hs, hr⟩ : ∃ s, run (step ⟨0, 0⟩) (opened 65536) labels = some s ∧ Settled (step ⟨0, 0⟩) s ∧
      s.client.result = some .eof := exists_run_of_any (by decide +kernel)
  exact ⟨s, hrun, hr, local_path_transparent ⟨0, 0⟩ 65536 labels s (by decide +kernel) hrun hs⟩

end TunnelMesh.Relay.LocalPath
