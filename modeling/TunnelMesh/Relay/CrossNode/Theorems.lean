import TunnelMesh.Relay.CrossNode.AgentNode

namespace TunnelMesh.Relay

open Protocol AgentNode ReadLog List Transition

variable {α : Type}

def RelayMessage.payload : RelayMessage α → List α
  | .data payload => payload
  | .control _ => []

def messageData (messages : List (RelayMessage α)) : List α := messages.flatMap RelayMessage.payload

theorem messageData_append (messages more : List (RelayMessage α)) :
    messageData (messages ++ more) = messageData messages ++ messageData more := flatMap_append

namespace CrossNode

variable {s next : CrossNode α}

inductive Effect (windows : AgentRelayWindowConfig) (s : CrossNode α) : PathLabel α → CrossNode α → Prop
  | frame {f : Frame α} {agent : AgentNode α} (hframe : s.agent.frame windows f = some agent) :
      Effect windows s (.agent f) { s with agent }
  | publish {agent : AgentNode α} (hstep : s.agent.step windows (.reading .publish) = some agent) :
      Effect windows s .publish { s with agent }
  | sent {payload : List α} (hfits : payload.length ≤ maxPayload) :
      Effect windows s (.write payload)
        { s with client := s.client.wrote payload, up := s.up ++ [.data payload] }
  | sentControl {credit : ℕ} : Effect windows s (.writeControl credit) { s with up := s.up ++ [.control credit] }
  | closeWrite : Effect windows s .closeWrite { s with client.writeClosed := true }
  | credited {size credit : ℕ} {rest : List ℕ} :
      Effect windows s (.read size) { s with client := s.client.credit credit, controlCh := rest }
  | received {size : ℕ} {bytes pending : List α} {down : List (RelayMessage α)}
      (hbytes : bytes ++ pending ++ messageData down = s.pending ++ messageData s.down) :
      Effect windows s (.read size) { s with client := s.client.receive bytes, pending, down }
  | noticed {size credit : ℕ} {rest : List (RelayMessage α)} (hdown : s.down = .control credit :: rest) :
      Effect windows s (.read size) { s with controlCh := s.controlCh ++ [credit], down := rest }
  | broken {size : ℕ} (hserving : s.serving = false) :
      Effect windows s (.read size) { s with client := s.client.stop .failed }
  | called {choice : Choice} {agent : AgentNode α}
      (hstep : s.agent.step windows (.reading (.read (32 * 2 ^ 10))) = some agent) :
      Effect windows s (.reading choice) { s with agent }
  | polled {choice : Choice} : Effect windows s (.reading choice) { s with copier := .reading }
  | forwarded {choice : Choice} {credit : ℕ} {agent : AgentNode α}
      (hstep : s.agent.step windows (.reading .readControl) = some agent) :
      Effect windows s (.reading choice) ({ s with agent, copier := .reading }.sendDown (.control credit))
  | copied {choice : Choice} {agent : AgentNode α} {result : Option (List α × Option RelayError)}
      (hread : s.agent.read windows choice = some (agent, result)) :
      Effect windows s (.reading choice) ({ s with agent }.readReturned result)
  | started {choice : WriteChoice} {payload : List α} {rest : List (RelayMessage α)} {agent : AgentNode α}
      {call : Option (WriteCall α)} (hup : s.up = .data payload :: rest)
      (hwrite : s.agent.startWrite windows payload = some (agent, call)) :
      Effect windows s (.writing choice) ({ s with agent, up := rest }.writeReturned call)
  | granted {choice : WriteChoice} {credit : ℕ} {rest : List (RelayMessage α)} (hup : s.up = .control credit :: rest) :
      Effect windows s (.writing choice) { s with agent := s.agent.writeControl credit, up := rest }
  | closed {choice : WriteChoice} (hclosed : s.client.writeClosed) : Effect windows s (.writing choice) s.finish
  | went {choice : WriteChoice} {agent : AgentNode α} {call : Option (WriteCall α)}
      (hwrite : s.agent.write windows choice = some (agent, call)) :
      Effect windows s (.writing choice) ({ s with agent }.writeReturned call)

theorem read_effect (hr : s.read size = some next) : Effect windows s (.read size) next := by
  unfold read at hr
  split_ifs at hr
  split at hr
  · next hc =>
    unfold readConn at hr
    split at hr
    · cases hr; exact .received (by rw [take_append_drop])
    · next hempty =>
      have hp : s.pending = [] := eq_nil_of_length_eq_zero (by omega)
      split at hr
      · next payload rest hd =>
        cases hr
        exact .received (by rw [take_append_drop, hp, hd]; rfl)
      · next credit rest hd =>
        rw [if_pos (by rw [hc]; decide)] at hr
        cases hr
        exact .noticed hd
      · split at hr <;> cases hr
        next hs => exact .broken (by simpa using hs)
  · cases hr; exact .credited

theorem copy_effect (hc : s.copy windows choice = some next) : Effect windows s (.reading choice) next := by
  unfold copy at hc
  split at hc
  · cases hc
  · split at hc
    · cases hc; exact .polled
    · obtain ⟨agent, hs, rfl⟩ := Option.map_eq_some_iff.mp hc; exact .forwarded hs
  · split at hc
    · obtain ⟨agent, hs, rfl⟩ := Option.map_eq_some_iff.mp hc; exact .called hs
    · obtain ⟨⟨agent, result⟩, hr, rfl⟩ := Option.map_eq_some_iff.mp hc; exact .copied hr

theorem serve_effect (hs : s.serve windows choice = some next) : Effect windows s (.writing choice) next := by
  unfold serve at hs
  split at hs
  · cases hs
  split at hs
  · unfold recv at hs
    split at hs
    · next payload rest hup =>
      obtain ⟨⟨agent, call⟩, hw, rfl⟩ := Option.map_eq_some_iff.mp hs
      exact .started hup hw
    · next credit rest hup =>
      cases hs
      exact .granted hup
    · split at hs <;> cases hs
      next hc => exact .closed hc
  · obtain ⟨⟨agent, call⟩, hw, rfl⟩ := Option.map_eq_some_iff.mp hs; exact .went hw

theorem step_effect (hs : s.step windows label = some next) : Effect windows s label next := by
  cases label with
  | agent f => obtain ⟨agent, hf, rfl⟩ := Option.map_eq_some_iff.mp hs; exact .frame hf
  | publish => obtain ⟨agent, hp, rfl⟩ := Option.map_eq_some_iff.mp hs; exact .publish hp
  | write payload =>
    simp only [step, sendUp] at hs
    split_ifs at hs
    cases hs; exact .sent (by omega)
  | writeControl credit =>
    simp only [step, sendUp] at hs
    split_ifs at hs
    cases hs; exact .sentControl
  | closeWrite =>
    simp only [step] at hs
    split_ifs at hs
    cases hs; exact .closeWrite
  | read size => exact read_effect hs
  | reading choice => exact copy_effect hs
  | writing choice => exact serve_effect hs

section Returned

variable (s)

theorem sendDown_eq (message : RelayMessage α) :
    s.sendDown message = { s with down := if s.serving then s.down ++ [message] else s.down } := by
  unfold sendDown
  split <;> rfl

theorem readReturned_eq (result : Option (List α × Option RelayError)) :
    ∃ copier down, s.readReturned result = { s with copier, down } := by
  cases result with
  | none => exact ⟨s.copier, s.down, rfl⟩
  | some pair =>
    simp only [readReturned, sendDown_eq]
    split
    · exact ⟨_, _, rfl⟩
    · exact ⟨_, _, rfl⟩

theorem writeReturned_cases (call : Option (WriteCall α)) :
    s.writeReturned call = s ∨ s.writeReturned call = s.finish := by
  unfold writeReturned
  split
  · exact .inl rfl
  · split
    · exact .inl rfl
    · exact .inr rfl

theorem writeReturned_of_flawless (hc : ∀ c, call = some c → c.error = none) : s.writeReturned call = s := by
  unfold writeReturned
  split
  · rfl
  · next c => rw [if_pos (hc c rfl)]

end Returned

-- What the ends have been told. The Client has not had an end of file, and the
-- Agent no HALF_CLOSE.
structure Untold (s : CrossNode α) : Prop where
  eof : s.client.result ≠ some .eof
  halfClose : .halfClose ∉ s.agent.endpoint.frames

theorem untold_opened (window : ℕ) : Untold (opened window : CrossNode α) := by
  constructor
  · intro heof; cases heof
  · intro hmem; cases hmem

theorem Untold.calm (h : Untold s) (hcalm : Calm s.agent next.agent) (hc : next.client = s.client) : Untold next :=
  ⟨hc ▸ h.eof, fun hmem => h.halfClose (hcalm.halfClose hmem)⟩

theorem Untold.writeReturned (h : Untold s) (call : Option (WriteCall α)) : Untold (s.writeReturned call) := by
  rcases s.writeReturned_cases call with hs | hf
  · rw [hs]; exact h
  · rw [hf]; exact ⟨h.eof, h.halfClose⟩

theorem Effect.untold (he : Effect windows s label next) (h : Untold s) : Untold next := by
  cases he with
  | frame hf => exact ⟨h.eof, fun hmem => h.halfClose ((frame_calm hf).2 hmem)⟩
  | publish hs | called hs => exact h.calm (step_calm (by simp) hs) rfl
  | broken hserving => exact ⟨by simp [ClientNode.stop], h.halfClose⟩
  | forwarded hs => rw [sendDown_eq]; exact h.calm (step_calm (by simp) hs) rfl
  | @copied choice agent result hread =>
    obtain ⟨copier, down, hr⟩ := readReturned_eq { s with agent } result
    rw [hr]
    exact h.calm (read_calm hread) rfl
  | @started choice payload rest agent call hup hw =>
    have ha : Untold { s with agent, up := rest } := h.calm (startWrite_calm hw) rfl
    exact ha.writeReturned call
  | @went choice agent call hw =>
    have ha : Untold { s with agent } := h.calm (write_calm hw) rfl
    exact ha.writeReturned call
  | _ => exact ⟨h.eof, h.halfClose⟩

structure Marked (s : CrossNode α) (label : PathLabel α) (next : CrossNode α) : Prop where
  ended : next.agent.ended ↔ s.agent.ended ∨ label = .agent .halfClose
  writeClosed : next.client.writeClosed ↔ s.client.writeClosed ∨ label = .closeWrite

theorem marked_of_eq (ha : label ≠ .agent .halfClose) (hc : label ≠ .closeWrite)
    (he : next.agent.ended = s.agent.ended) (hw : next.client.writeClosed = s.client.writeClosed) :
    Marked s label next := by
  constructor
  · rw [he]; exact ⟨.inl, fun h => h.resolve_right ha⟩
  · rw [hw]; exact ⟨.inl, fun h => h.resolve_right hc⟩

theorem marked_writeReturned (t : CrossNode α) (he : t.agent.ended = s.agent.ended)
    (hc : t.client = s.client) (call : Option (WriteCall α)) : Marked s (.writing choice) (t.writeReturned call) := by
  have hw : t.client.writeClosed = s.client.writeClosed := by rw [hc]
  rcases t.writeReturned_cases call with hs | hf
  · rw [hs]; exact marked_of_eq (by simp) (by simp) he hw
  · rw [hf]; exact marked_of_eq (by simp) (by simp) he hw

theorem Effect.marked (he : Effect windows s label next) : Marked s label next := by
  cases he with
  | @frame f agent hf =>
    refine ⟨?_, by simp⟩
    rw [PathLabel.agent.injEq]
    exact (frame_calm hf).1
  | publish hs | called hs =>
    exact marked_of_eq (by simp) (by simp) (step_calm (by simp) hs).ended rfl
  | closeWrite => exact ⟨by simp, by simp⟩
  | forwarded hs =>
    rw [sendDown_eq]
    exact marked_of_eq (by simp) (by simp) (step_calm (by simp) hs).ended rfl
  | @copied choice agent result hread =>
    obtain ⟨copier, down, hr⟩ := readReturned_eq { s with agent } result
    rw [hr]
    exact marked_of_eq (by simp) (by simp) (read_calm hread).ended rfl
  | @started choice payload rest agent call hup hw =>
    exact marked_writeReturned { s with agent, up := rest } (startWrite_calm hw).ended rfl call
  | @went choice agent call hw =>
    exact marked_writeReturned { s with agent } (write_calm hw).ended rfl call
  | _ => exact marked_of_eq (by simp) (by simp) rfl rfl

theorem run_marked (hrun : run (step windows) s labels = some final) :
    (final.agent.ended ↔ s.agent.ended ∨ .agent .halfClose ∈ labels) ∧
      (final.client.writeClosed ↔ s.client.writeClosed ∨ .closeWrite ∈ labels) := by
  induction labels generalizing s with
  | nil => cases hrun; simp
  | cons label rest ih =>
    obtain ⟨next, hs, hr⟩ := (run_cons_eq_some s final label rest).mp hrun
    have hm := (step_effect hs).marked
    obtain ⟨he, hc⟩ := ih hr
    rw [he, hc, hm.ended, hm.writeClosed, mem_cons, mem_cons, or_assoc, or_assoc,
      eq_comm (a := label), eq_comm (a := label)]
    exact ⟨Iff.rfl, Iff.rfl⟩

structure Flowing (s : CrossNode α) : Prop where
  sound : s.agent.Sound
  localHalf : s.agent.stream.localHalf = false
  serving : s.serving
  copier : s.copier ≠ .ended
  result : s.client.result = none
  download : s.client.received ++ (s.pending ++ messageData s.down) =
    returned s.agent.endpoint.reading.results
  upload : dataOf s.agent.endpoint.frames ++ (s.agent.endpoint.unsent ++ messageData s.up) = s.client.written
  fits : ∀ payload, .data payload ∈ s.up → payload.length ≤ maxPayload

theorem flowing_opened (window : ℕ) : Flowing (opened window : CrossNode α) :=
  ⟨sound_opened window, rfl, rfl, by simp [opened], rfl, rfl, rfl, by simp [opened]⟩

theorem Flowing.err (h : Flowing s) (he : s.agent.ended = false) : s.agent.stream.err = none := by
  rcases h.sound.endpoint.stage.err_cases with hn | ⟨-, ht⟩
  · exact hn
  · rw [he] at ht; cases ht

variable {agent : AgentNode α}

theorem Flowing.reading (h : Flowing s) (hs : agent.Sound) (ha : Aside s.agent agent)
    (hr : agent.endpoint.reading.results = s.agent.endpoint.reading.results) : Flowing { s with agent } :=
  { h with
    sound := hs
    localHalf := ha.localHalf.trans h.localHalf
    download := h.download.trans (congrArg returned hr.symm)
    upload := by
      rw [ha.data, ha.unsent]
      exact h.upload }

theorem Flowing.copied {result : Option (List α × Option RelayError)}
    (h : Flowing s) (he : s.agent.ended = false) (hread : s.agent.read windows choice = some (agent, result)) :
    Flowing ({ s with agent }.readReturned result) := by
  obtain ⟨hs, hresults, herror⟩ := h.sound.read hread
  have ha := reading_aside (by simp) (read_eq hread).2.1
  cases result with
  | none => rw [Option.toList_none, append_nil] at hresults; exact h.reading hs ha hresults
  | some pair =>
    obtain ⟨bytes, e⟩ := pair
    cases e with
    | some e =>
      have hf := (herror bytes e rfl).2
      rw [h.err he] at hf
      cases hf
    | none =>
      -- No call has failed so far, so the bytes come after those returned before.
      have ho : ended s.agent.endpoint.reading.results = false := by
        cases hc : ended s.agent.endpoint.reading.results with
        | false => rfl
        | true => exact absurd (h.err he) (h.sound.endpoint.accounted.log.closed hc).1
      have hr : returned agent.endpoint.reading.results =
          returned s.agent.endpoint.reading.results ++ bytes := by
        rw [hresults, Option.toList_some, returned_append ho, returned_ok]
      have hu : dataOf agent.endpoint.frames ++ (agent.endpoint.unsent ++ messageData s.up) =
          s.client.written := by
        rw [ha.data, ha.unsent]
        exact h.upload
      have hl := ha.localHalf.trans h.localHalf
      simp only [readReturned]
      split
      · next hempty =>
        rw [length_eq_zero_iff.mp hempty, append_nil, ← h.download] at hr
        exact ⟨hs, hl, h.serving, by simp, h.result, hr.symm, hu, h.fits⟩
      · next hbytes =>
        rw [sendDown_eq]
        refine ⟨hs, hl, h.serving, by simp, h.result, ?_, hu, h.fits⟩
        simp only [h.serving, if_true]
        rw [messageData_append, hr, ← h.download]
        simp [messageData, RelayMessage.payload]

theorem Flowing.adds {up : List (RelayMessage α)} (h : Flowing s) (ha : s.agent.Adds payload agent call)
    (hup : messageData s.up = payload ++ messageData up) (hm : ∀ message ∈ up, message ∈ s.up) :
    Flowing ({ s with agent, up }.writeReturned call) := by
  rw [writeReturned_of_flawless _ ha.flawless]
  have hl : agent.stream.localHalf = false := by rw [stream, ha.reading]; exact h.localHalf
  refine ⟨ha.sound, hl, h.serving, h.copier, h.result, ?_, ?_, fun p hp => h.fits p (hm _ hp)⟩
  · rw [ha.reading]; exact h.download
  · rw [← append_assoc, ha.data, append_assoc, append_assoc, ← hup]; exact h.upload

theorem Effect.flowing (heffect : Effect windows s label next) (h : Flowing s) (he : s.agent.ended = false)
    (hclosed : next.client.writeClosed = false) : Flowing next := by
  cases heffect with
  | frame hframe =>
    obtain ⟨ha, hr⟩ := frame_aside hframe
    exact h.reading (h.sound.frame hframe) ha hr
  | publish hpublish =>
    have hstage := h.sound.endpoint.stage
    rw [he] at hstage
    cases hstage with
    | flowing ho =>
      obtain ⟨endpoint, hendpoint, -⟩ := step_eq hpublish
      obtain ⟨reading, hreading, -⟩ := Option.map_eq_some_iff.mp hendpoint
      obtain ⟨pending, hpending, -⟩ := Option.map_eq_some_iff.mp hreading
      rw [ho.1.2] at hpending
      cases hpending
  | @sent payload hfits =>
    refine { h with upload := ?_, fits := ?_ }
    · simp only [messageData_append]
      rw [← append_assoc s.agent.endpoint.unsent, ← append_assoc, h.upload]
      exact congrArg (s.client.written ++ ·) (append_nil payload)
    · intro p hp
      rcases mem_append.mp hp with hold | hnew
      · exact h.fits p hold
      · obtain rfl : p = payload := by simpa using hnew
        exact hfits
  | sentControl =>
    refine { h with upload := ?_, fits := ?_ }
    · simp only [messageData_append]
      exact (congrArg (fun rest => dataOf _ ++ (_ ++ rest)) (append_nil _)).trans h.upload
    · intro p hp
      rcases mem_append.mp hp with hold | hnew
      · exact h.fits p hold
      · simp at hnew
  | closeWrite => cases hclosed
  | credited => exact { h with }
  | @received size bytes pending down hb =>
    refine { h with download := ?_ }
    rw [← h.download, ← hb]
    simp only [ClientNode.receive, append_assoc]
  | noticed hd =>
    refine { h with download := ?_ }
    rw [← h.download, hd]
    rfl
  | broken hs => rw [h.serving] at hs; cases hs
  | called hcall =>
    exact h.reading (h.sound.reading hcall (by simp) trivial trivial) (reading_aside (by simp) hcall)
      (reading_results (by simp) (by simp) hcall)
  | polled => exact { h with copier := by simp }
  | forwarded hc =>
    have hf := h.reading (h.sound.reading hc (by simp) trivial trivial)
      (reading_aside (by simp) hc) (reading_results (by simp) (by simp) hc)
    rw [sendDown_eq]
    refine { hf with copier := by simp, download := ?_ }
    simp only [h.serving, if_true, messageData_append]
    exact (congrArg (fun rest => _ ++ (_ ++ rest)) (append_nil _)).trans hf.download
  | copied hread => exact h.copied he hread
  | @started choice payload rest agent call hup hw =>
    have hfits : payload.length ≤ maxPayload := h.fits payload (by rw [hup]; exact mem_cons_self)
    refine h.adds (h.sound.startWrite hfits hw) (by rw [hup]; rfl) fun message hmem => ?_
    rw [hup]
    exact mem_cons_of_mem _ hmem
  | granted hup =>
    refine { h with sound := h.sound.writeControl _, upload := ?_, fits := fun p hp => h.fits p ?_ }
    · have hu := h.upload
      rw [hup] at hu
      exact hu
    · rw [hup]; exact mem_cons_of_mem _ hp
  | closed hclosing =>
    have ho : s.client.writeClosed = false := hclosed
    rw [ho] at hclosing
    cases hclosing
  | went hw => exact h.adds (h.sound.write h.localHalf (fun _ => h.err he) hw) rfl fun _ hmem => hmem

theorem Flowing.drained (h : Flowing s) (hd : s.copy windows .data = none) (hdone : s.copy windows .done = none) :
    s.agent.endpoint.reading.pending = [] := by
  cases hc : s.copier with
  | ended => exact absurd hc h.copier
  | polling =>
    simp only [copy, hc] at hd
    split at hd
    · cases hd
    · next credit rest hcontrol =>
      have hread : s.agent.endpoint.reading.stream.controlCh = credit :: rest := hcontrol
      simp [AgentNode.step, Endpoint.step, Reading.step, AgentRelayStream.readControl, hread] at hd
  | reading =>
    simp only [copy, hc] at hd hdone
    cases hr : s.agent.endpoint.reading.reader with
    | idle => simp [AgentNode.step, Endpoint.step, Reading.step, Reading.read, Reader.resting, hr] at hd
    | _ =>
      simp only [hr, Reader.resting, Bool.false_eq_true, if_false, Option.map_eq_none_iff] at hd hdone
      exact (h.sound.read_blocked (by simp [hr]) hd hdone).1

theorem Flowing.served (h : Flowing s) (hgo : s.serve windows .go = none) :
    s.agent.endpoint.writer = .idle ∧ s.up = [] := by
  have hs : ¬ s.serving = false := by simp [h.serving]
  rw [serve, if_neg hs] at hgo
  by_cases hi : s.agent.endpoint.writer = .idle
  · refine ⟨hi, ?_⟩
    rw [if_pos hi] at hgo
    cases hup : s.up with
    | nil => rfl
    | cons message rest =>
      simp only [recv, hup] at hgo
      cases message with
      | control credit => cases hgo
      | data payload =>
        obtain ⟨endpoint, hw⟩ := Endpoint.exists_write hi payload
        simp [AgentNode.startWrite, AgentNode.step, Endpoint.step, hw] at hgo
  · rw [if_neg hi, Option.map_eq_none_iff] at hgo; exact absurd (AgentNode.write_blocked hgo) hi

theorem Flowing.delivered (h : Flowing s) (hr : s.read 1 = none) : s.pending = [] ∧ s.down = [] := by
  have hs : ¬ (s.client.result ≠ none ∨ 1 = 0) := by simp [h.result]
  rw [read, if_neg hs] at hr
  split at hr
  · unfold readConn at hr
    split at hr
    · cases hr
    · next hempty =>
      refine ⟨eq_nil_of_length_eq_zero (by omega), ?_⟩
      split at hr
      · cases hr
      · split at hr <;> cases hr
      · next hd => exact hd
  · cases hr

theorem Flowing.transparent (h : Flowing s) (he : s.agent.ended = false) (hc : s.client.writeClosed = false)
    (hs : Settled (step windows) s) : Transparent s.agent s.client := by
  have hn : ∀ label ∈ internalLabels, s.step windows label = none := fun label hmem =>
    Option.isNone_iff_eq_none.mp (hs label hmem)
  have hr := h.drained (hn (.reading .data) (by simp [internalLabels]))
    (hn (.reading .done) (by simp [internalLabels]))
  obtain ⟨hi, hup⟩ := h.served (hn (.writing .go) (by simp [internalLabels]))
  obtain ⟨hp, hdown⟩ := h.delivered (hn (.read 1) (by simp [internalLabels]))
  have hlog := h.sound.endpoint.accounted.log
  constructor
  · have ho : ended s.agent.endpoint.reading.results = false := by
      cases hf : ended s.agent.endpoint.reading.results with
      | false => rfl
      | true => exact absurd (h.err he) (hlog.closed hf).1
    have hd := h.download
    rw [hp, hdown] at hd
    calc
      s.client.received = s.client.received ++ ([] ++ messageData []) := (append_nil _).symm
      _ = returned s.agent.endpoint.reading.results := hd
      _ = returned s.agent.endpoint.reading.results ++ s.agent.endpoint.reading.pending := by
        rw [hr, append_nil]
      _ = s.agent.endpoint.reading.accepted.flatten := hlog.bytes ho
      _ = s.agent.sent := h.sound.accepted
  · have hu := h.upload
    rw [Endpoint.unsent_idle hi, hup] at hu
    exact (append_nil _).symm.trans hu
  · intro ht
    rw [he] at ht
    cases ht
  · exact fun _ => h.sound.endpoint.writeError h.localHalf
  · intro ht
    rw [hc] at ht
    cases ht
  · exact h.sound.noReset

structure Invariant (s : CrossNode α) : Prop where
  untold : Untold s
  flowing : s.agent.ended = false → s.client.writeClosed = false → Flowing s

theorem step_invariant (h : Invariant s) (hs : s.step windows label = some next) : Invariant next := by
  have he := step_effect hs
  have hm := he.marked
  refine ⟨he.untold h.untold, fun hended hc => ?_⟩
  have hb : s.agent.ended = false := by
    by_contra ht
    rw [hm.ended.mpr (.inl (by simpa using ht))] at hended
    cases hended
  have ho : s.client.writeClosed = false := by
    by_contra ht
    rw [hm.writeClosed.mpr (.inl (by simpa using ht))] at hc
    cases hc
  exact he.flowing (h.flowing hb ho) hb hc

-- The relay between nodes carries the bytes, and the end of neither direction: it
-- is as good as the local path exactly for streams whose directions do not end.
theorem relayed_without_half_close (windows : AgentRelayWindowConfig) (window : ℕ) (labels : List (PathLabel α))
    (s : CrossNode α) (hrun : run (step windows) (opened window) labels = some s)
    (hsettled : Settled (step windows) s) :
    Transparent s.agent s.client ↔ .agent .halfClose ∉ labels ∧ .closeWrite ∉ labels := by
  have hinvariant : Invariant s := run_preserves (fun _ _ _ => step_invariant)
    ⟨untold_opened window, fun _ _ => flowing_opened window⟩ hrun
  obtain ⟨hended, hclosed⟩ := run_marked hrun
  simp only [opened, AgentNode.opened, ClientNode.opened, Bool.false_eq_true, false_or] at hended hclosed
  constructor
  · intro htransparent
    refine ⟨fun hmem => ?_, fun hmem => ?_⟩
    · exact hinvariant.untold.eof (htransparent.eof (hended.mpr hmem))
    · exact hinvariant.untold.halfClose (htransparent.halfClose (hclosed.mpr hmem))
  · rintro ⟨hflows, hopen⟩
    have hnotEnded : s.agent.ended = false := by simpa using mt hended.mp hflows
    have hnotClosed : s.client.writeClosed = false := by simpa using mt hclosed.mp hopen
    exact (hinvariant.flowing hnotEnded hnotClosed).transparent hnotEnded hnotClosed hsettled

def bothFlow : List (PathLabel Bool) :=
  [.write [true], .writing .go, .writing .go, .writing .go, .agent (.data [false]), .reading .data, .reading .data,
    .reading .data, .read 1, .reading .data, .reading .data, .reading .data, .reading .data]

theorem relayed_both_ways : ∃ s, run (step ⟨0, 0⟩) (opened 65536) bothFlow = some s ∧
    Settled (step ⟨0, 0⟩) s ∧ s.client.received = [false] ∧ s.client.written = [true] ∧
      Transparent s.agent s.client := by
  obtain ⟨s, hrun, hsettled, hreceived, hwritten⟩ : ∃ s, run (step ⟨0, 0⟩) (opened 65536) bothFlow = some s ∧
      Settled (step ⟨0, 0⟩) s ∧ s.client.received = [false] ∧ s.client.written = [true] :=
    exists_run_of_any (by decide +kernel)
  have hflows : .agent .halfClose ∉ bothFlow ∧ .closeWrite ∉ bothFlow := by decide
  exact ⟨s, hrun, hsettled, hreceived, hwritten,
    (relayed_without_half_close ⟨0, 0⟩ 65536 bothFlow s hrun hsettled).mpr hflows⟩

def agentEnds : List (PathLabel Bool) :=
  [.agent (.data [true]), .agent .halfClose, .publish, .reading .data, .reading .data, .reading .data, .read 1,
    .reading .data, .reading .data, .reading .data, .reading .data]

def clientEnds : List (PathLabel Bool) :=
  [.closeWrite, .writing .go, .agent (.data [true]), .reading .data, .reading .data, .reading .data, .reading .data,
    .read 1]

-- The Client waits for an end of file that does not come. The Agent gets a RESET
-- for a HALF_CLOSE, and the Client an error for the Agent's byte.
theorem half_close_is_lost : (∃ s, run (step ⟨0, 0⟩) (opened 65536) agentEnds = some s ∧ Settled (step ⟨0, 0⟩) s ∧
      s.client.received = s.agent.sent ∧ s.agent.ended ∧ s.client.result = none ∧ ¬ Transparent s.agent s.client) ∧
    ∃ s, run (step ⟨0, 0⟩) (opened 65536) clientEnds = some s ∧ Settled (step ⟨0, 0⟩) s ∧
      .halfClose ∉ s.agent.endpoint.frames ∧ s.agent.reset ∧ s.client.result = some .failed ∧
        s.client.received ≠ s.agent.sent ∧ ¬ Transparent s.agent s.client := by
  constructor
  · apply exists_run_of_any; decide +kernel
  · apply exists_run_of_any; decide +kernel

end CrossNode

end TunnelMesh.Relay
