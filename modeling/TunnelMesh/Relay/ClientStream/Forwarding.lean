import TunnelMesh.Relay.ClientStream.Capacity

namespace TunnelMesh.Relay

open Protocol Session ClientRelayStream FrameQueue Transition Option List
open Agent (Outcome frameSize)

variable {π : Type} {size : π → ℕ}

def RelayLoop.carried : RelayLoop → List ℕ
  | .forwarding credit => [credit]
  | _ => []

-- `relayToClient` gets back to the control channel with the credit that there
-- is. DATA that is longer than the writer's queue would end the stream.
def RelayLoop.Unblocked (sendState : Option StreamState) : RelayLoop → Prop
  | .limiting => ∀ state ∈ sendState, 0 < state.sendWindow
  | .consuming n | .sending n => n ≤ streamQueueBytes
  | .looking | .forwarding _ | .reading _ => True
  | .ending _ | .returned => False

def ClientLabel.isWindowUpdate : ClientLabel π → Bool
  | .windowUpdate _ => true
  | _ => false

namespace ClientRelayStream

variable (s : ClientRelayStream π)

def forwards : ClientLabel π → List ℕ
  | .relay .ok => if s.present ∧ s.outbound.closed = false then s.relay.carried else []
  | _ => []

def Unblocked : Prop :=
  s.present ∧ s.outbound.closed = false ∧ s.relay.Unblocked s.sendState

structure Ready : Prop where
  status : ∀ state ∈ s.sendState, state.status = .opened
  reading : ∀ limit, s.relay = .reading limit → ∀ state ∈ s.sendState, limit ≤ state.sendWindow
  consuming : ∀ n, s.relay = .consuming n → ∀ state ∈ s.sendState, n ≤ state.sendWindow
  bound : s.outbound.maxBytes = streamQueueBytes

variable {s next : ClientRelayStream π}

theorem ready_opened (window : ℕ) : (opened window : ClientRelayStream π).Ready where
  status := by
    intro state hs
    simp only [opened, mem_def, ite_none_right_eq_some, some.injEq] at hs
    rw [← hs.2]
    rfl
  reading := nofun
  consuming := nofun
  bound := by simp [opened, empty, streamQueueBytes]

theorem Ready.beside (h : s.Ready) (hn : Beside s next) : next.Ready := by
  refine ⟨?_, ?_, ?_, ?_⟩
  · rw [hn.sendState]; exact h.status
  · rw [hn.sendState, hn.relay]; exact h.reading
  · rw [hn.sendState, hn.relay]; exact h.consuming
  · rw [hn.outbound]; exact h.bound

theorem relay_ready (h : s.Ready) (he : RelayEffect bufferSize s next) : next.Ready := by
  cases he with
  | took | looked | forwarded => exact ⟨h.status, nofun, nofun, h.bound⟩
  | limited _ _ hl =>
    refine ⟨h.status, fun limit hr state hs => ?_, nofun, h.bound⟩
    cases hr
    exact (hl state hs).2
  | consumed _ hn hsome =>
    refine ⟨fun state hs => ?_, nofun, nofun, h.bound⟩
    cases hsend : s.sendState with
    | none => rw [hn hsend] at hs; cases hs
    | some before =>
      obtain ⟨-, ha⟩ := hsome before hsend
      obtain rfl := some.inj (ha.symm.trans hs)
      exact h.status before hsend
  | enqueued _ hp =>
    refine ⟨h.status, nofun, nofun, ?_⟩
    rw [tryPush_eq_some hp]
    exact h.bound
  | finished hsend _ ho hr =>
    obtain ⟨-, hmax, -⟩ := outbound_of_finished ho
    exact ⟨by rw [hsend]; exact h.status, by rw [hr]; nofun, by rw [hr]; nofun, hmax.trans h.bound⟩

theorem step_ready (h : s.Ready) (hs : s.step size bufferSize label = some next) : next.Ready := by
  cases label with
  | windowUpdate credit =>
    simp only [step, ite_none_left_eq_some] at hs
    cases hs.2
    rcases handleWindowUpdate_effect s credit with hb | ⟨state, -, hsend, hsame⟩
    · exact h.beside hb
    rw [hsame]
    refine ⟨fun other ho => ?_, fun limit hr other ho => ?_, fun n hr other ho => ?_, h.bound⟩
    all_goals cases ho
    · exact h.status state hsend
    · exact (h.reading limit hr state hsend).trans (Nat.le_add_right _ _)
    · exact (h.consuming n hr state hsend).trans (Nat.le_add_right _ _)
  | agentCredit credit =>
    cases hs
    split
    · exact { h with }
    · exact h
  | relay outcome => exact relay_ready h (relayToClient_effect hs)
  | read n =>
    obtain ⟨limit, hr, hle, rfl⟩ := readBytes_eq_some hs
    refine ⟨h.status, fun other ho => ?_, fun other ho state hstate => ?_, h.bound⟩
    · split at ho <;> cases ho
    · split_ifs at ho
      cases ho; exact hle.trans (h.reading limit hr state hstate)
  | readEnd failed =>
    obtain ⟨limit, -, rfl⟩ := readEnd_eq_some hs
    exact ⟨h.status, by rintro _ ⟨⟩, by rintro _ ⟨⟩, h.bound⟩
  | drain =>
    obtain ⟨⟨frame, outbound⟩, hpop, rfl⟩ := map_eq_some_iff.mp hs
    refine { h with bound := ?_ }
    rw [(pop_eq_some hpop).2]
    exact h.bound
  | closeWriter => cases hs; exact { h with }
  | _ => exact h.beside (step_beside rfl hs)

theorem length_le_of_push {q : FrameQueue (Option ℕ)}
    (hp : q.tryPush (frameSize id) (some n) = some pushed) : n ≤ q.maxBytes := by
  unfold tryPush at hp
  split at hp
  · cases hp
  split_ifs at hp with hr
  simp only [frameSize, elim_some, id] at hr
  omega

theorem step_blocked (h : ¬s.Unblocked) (hbound : s.outbound.maxBytes = streamQueueBytes)
    (hlabel : label.isWindowUpdate = false) (hs : s.step size bufferSize label = some next) : ¬next.Unblocked := by
  rintro ⟨hp, ho, hr⟩
  have hb : Beside s next → False := by
    intro hn
    refine h ⟨hn.present hp, hn.outbound ▸ ho, ?_⟩
    rw [← hn.relay, ← hn.sendState]
    exact hr
  cases label with
  | windowUpdate credit => cases hlabel
  | agentCredit credit =>
    cases hs
    split at hr
    · next hroom =>
      rw [if_pos hroom] at hp ho
      exact h ⟨hp, ho, hr⟩
    · next hfull =>
      rw [if_neg hfull] at hp ho
      exact h ⟨hp, ho, hr⟩
  | relay outcome =>
    cases relayToClient_effect hs with
    | took hl | looked hl => exact h ⟨hp, ho, by rw [hl]; trivial⟩
    | forwarded hf => exact h ⟨hp, ho, by rw [hf]; trivial⟩
    | limited hlimiting _ hlimit =>
      refine h ⟨hp, ho, ?_⟩
      rw [hlimiting]
      exact fun state hstate => (hlimit state hstate).1
    | consumed hc => exact h ⟨hp, ho, by rw [hc]; exact hr⟩
    | enqueued hsending hpush =>
      refine h ⟨hp, ?_, ?_⟩
      · rw [tryPush_eq_some hpush] at ho; exact ho
      · rw [hsending]; exact (length_le_of_push hpush).trans hbound.le
    | finished _ _ _ hreturned => rw [hreturned] at hr; exact hr
  | read n =>
    obtain ⟨limit, hreading, -, rfl⟩ := readBytes_eq_some hs
    exact h ⟨hp, ho, by rw [hreading]; trivial⟩
  | readEnd failed => obtain ⟨limit, -, rfl⟩ := readEnd_eq_some hs; exact hr
  | drain =>
    obtain ⟨⟨frame, outbound⟩, hpop, rfl⟩ := map_eq_some_iff.mp hs
    refine h ⟨hp, ?_, hr⟩
    rw [(pop_eq_some hpop).2] at ho
    exact ho
  | closeWriter => cases hs; cases ho
  | _ => exact hb (step_beside rfl hs)

theorem forwards_of_blocked (h : ¬s.Unblocked) (label : ClientLabel π) : s.forwards label = [] := by
  unfold forwards
  split
  · split
    · next ho =>
      cases hr : s.relay with
      | forwarding credit => exact absurd ⟨ho.1, ho.2, by rw [hr]; trivial⟩ h
      | _ => rfl
    · rfl
  · rfl

end ClientRelayStream

structure Forwarding (π : Type) where
  stream : ClientRelayStream π
  forwarded : List ℕ

namespace Forwarding

def opened (window : ℕ) : Forwarding π := ⟨.opened window, []⟩

def step (size : π → ℕ) (bufferSize : ℕ) (f : Forwarding π) (label : ClientLabel π) : Option (Forwarding π) :=
  (f.stream.step size bufferSize label).map fun stream => ⟨stream, f.forwarded ++ f.stream.forwards label⟩

def CanForward (size : π → ℕ) (bufferSize : ℕ) (f : Forwarding π) : Prop :=
  ∃ labels final, (∀ label ∈ labels, label.isWindowUpdate = false) ∧ run (step size bufferSize) f labels = some final ∧
      f.forwarded ++ f.stream.relay.carried ++ f.stream.control <+: final.forwarded

variable {f final : Forwarding π}

theorem run_blocked (h : ¬f.stream.Unblocked) (hr : f.stream.Ready)
    (hl : ∀ label ∈ labels, label.isWindowUpdate = false)
    (hrun : run (step size bufferSize) f labels = some final) : final.forwarded = f.forwarded := by
  induction labels generalizing f with
  | nil => cases hrun; rfl
  | cons label rest ih =>
    obtain ⟨next, hn, hrest⟩ := (run_cons_eq_some f final label rest).mp hrun
    obtain ⟨stream, hs, rfl⟩ := map_eq_some_iff.mp hn
    have hb := step_blocked h hr.bound (hl label mem_cons_self) hs
    rw [ih hb (step_ready hr hs) (fun other ho => hl other (mem_cons_of_mem _ ho)) hrest]
    simp only [forwards_of_blocked h, append_nil]

theorem not_canForward_of_blocked (h : ¬f.stream.Unblocked) (hr : f.stream.Ready)
    (hw : f.stream.control ≠ []) : ¬f.CanForward size bufferSize := by
  rintro ⟨labels, final, hl, hrun, hp⟩
  rw [run_blocked h hr hl hrun] at hp
  have hlength := hp.length_le
  have hpos := length_pos_iff.mpr hw
  simp only [length_append] at hlength
  omega

def Reaches (size : π → ℕ) (bufferSize : ℕ) (f g : Forwarding π) : Prop :=
  ∃ labels, (∀ label ∈ labels, label.isWindowUpdate = false) ∧ run (step size bufferSize) f labels = some g

theorem Reaches.refl (f : Forwarding π) : Reaches size bufferSize f f := ⟨[], nofun, rfl⟩

theorem Reaches.trans (hf : Reaches size bufferSize f g) (hs : Reaches size bufferSize g final) :
    Reaches size bufferSize f final := by
  obtain ⟨first, hlabels, hrun⟩ := hf
  obtain ⟨second, hl, hr⟩ := hs
  refine ⟨first ++ second, fun label hlabel => ?_, ?_⟩
  · rcases mem_append.mp hlabel with hmem | hmem
    · exact hlabels label hmem
    · exact hl label hmem
  · rw [run_append, hrun, bind_some, hr]

theorem reaches_of_step (hl : label.isWindowUpdate = false)
    {stream : ClientRelayStream π} (hs : f.stream.step size bufferSize label = some stream) :
    Reaches size bufferSize f ⟨stream, f.forwarded ++ f.stream.forwards label⟩ := by
  refine ⟨[label], fun other ho => ?_, ?_⟩
  · rw [mem_singleton.mp ho]; exact hl
  · simp [run, step, hs]

theorem reaches_quietly (hl : label.isWindowUpdate = false)
    (hq : f.stream.forwards label = []) {stream : ClientRelayStream π}
    (hs : f.stream.step size bufferSize label = some stream) : Reaches size bufferSize f ⟨stream, f.forwarded⟩ := by
  have hr := reaches_of_step hl hs
  rwa [hq, append_nil] at hr

theorem forwards_of_not_forwarding {s : ClientRelayStream π} (h : s.relay.carried = []) (outcome : Outcome) :
    s.forwards (.relay outcome) = [] := by
  cases outcome with
  | ok => simp [forwards, h]
  | failed => rfl

theorem reaches_forwarded (size : π → ℕ) (bufferSize : ℕ) (control : List ℕ) (hc : f.stream.control = control)
    (hl : f.stream.relay = .looking) (hp : f.stream.present) (ho : f.stream.outbound.closed = false) :
    ∃ g, Reaches size bufferSize f g ∧ g.forwarded = f.forwarded ++ control := by
  induction control generalizing f with
  | nil => exact ⟨f, .refl f, (append_nil _).symm⟩
  | cons credit rest ih =>
    have ht : f.stream.step size bufferSize (.relay .ok) =
        some { f.stream with control := rest, relay := .forwarding credit } := by
      simp [ClientRelayStream.step, relayToClient, hl, hc]
    have hf : ClientRelayStream.step size bufferSize
        { f.stream with control := rest, relay := .forwarding credit } (.relay .ok) =
          some { f.stream with control := rest, relay := .looking } := by
      simp [ClientRelayStream.step, relayToClient, hp, ho]
    have hcarried : forwards
        { f.stream with control := rest, relay := .forwarding credit } (.relay .ok) = [credit] := by
      simp [forwards, hp, ho, RelayLoop.carried]
    have hfirst := reaches_quietly (f := f) rfl (forwards_of_not_forwarding (by rw [hl]; rfl) .ok) ht
    have hs := reaches_of_step
      (f := ⟨{ f.stream with control := rest, relay := .forwarding credit }, f.forwarded⟩) rfl hf
    rw [hcarried] at hs
    obtain ⟨g, hr, hall⟩ := ih (f := ⟨{ f.stream with control := rest, relay := .looking },
      f.forwarded ++ [credit]⟩) rfl rfl hp ho
    exact ⟨g, (hfirst.trans hs).trans hr, by rw [hall]; simp⟩

theorem reaches_drained (size : π → ℕ) (bufferSize : ℕ) (frames : List (Option ℕ))
    (hf : f.stream.outbound.frames = frames) : Reaches size bufferSize f
      ⟨{ f.stream with outbound := { f.stream.outbound with frames := [] } }, f.forwarded⟩ := by
  induction frames generalizing f with
  | nil =>
    have hs : { f.stream.outbound with frames := [] } = f.stream.outbound := by rw [← hf]
    rw [hs]
    exact .refl f
  | cons frame rest ih =>
    have hd : f.stream.step size bufferSize .drain =
        some { f.stream with outbound := { f.stream.outbound with frames := rest } } := by
      simp [ClientRelayStream.step, pop, hf]
    exact (reaches_quietly rfl rfl hd).trans
      (ih (f := ⟨{ f.stream with outbound := { f.stream.outbound with frames := rest } }, f.forwarded⟩) rfl)

def BackAt (f g : Forwarding π) : Prop :=
  g.stream.relay = .looking ∧ g.stream.control = f.stream.control ∧ g.stream.present ∧
    g.stream.outbound.closed = false ∧ g.forwarded = f.forwarded ++ f.stream.relay.carried

theorem reaches_back_of_sending (size : π → ℕ) (bufferSize : ℕ) {n : ℕ}
    (hs : f.stream.relay = .sending n) (h : f.stream.Unblocked)
    (hr : f.stream.Ready) : ∃ g, Reaches size bufferSize f g ∧ BackAt f g := by
  obtain ⟨hp, ho, hf⟩ := h
  rw [hs] at hf
  have hd := reaches_drained size bufferSize (f := f) _ rfl
  have hpush : tryPush (frameSize id) { f.stream.outbound with frames := [] } (some n) =
      some { f.stream.outbound with frames := [some n] } := by
    have hroom : ¬f.stream.outbound.maxBytes < n := by rw [hr.bound]; exact Nat.not_lt.mpr hf
    have hcount : ¬f.stream.outbound.maxBytes ≤ 0 := by rw [hr.bound]; decide
    simp [tryPush, bytes, frameSize, ho, hroom, hcount]
  have hstep : ClientRelayStream.step size bufferSize
      { f.stream with outbound := { f.stream.outbound with frames := [] } } (.relay .ok) =
        some { f.stream with outbound := { f.stream.outbound with frames := [some n] }, relay := .looking } := by
    simp [ClientRelayStream.step, relayToClient, hs, ClientRelayStream.enqueueData, hp, hpush]
  have hc : f.stream.relay.carried = [] := by rw [hs]; rfl
  have hsent := reaches_quietly
    (f := ⟨{ f.stream with outbound := { f.stream.outbound with frames := [] } }, f.forwarded⟩) rfl
    (forwards_of_not_forwarding (by exact hc) .ok) hstep
  refine ⟨_, hd.trans hsent, rfl, rfl, hp, ho, ?_⟩
  rw [hc, append_nil]

theorem reaches_back_of_reading (size : π → ℕ) (bufferSize : ℕ) {limit : ℕ}
    (hr : f.stream.relay = .reading limit) (h : f.stream.Unblocked) :
    ∃ g, Reaches size bufferSize f g ∧ BackAt f g := by
  have hs : f.stream.step size bufferSize (.read 0) = some { f.stream with relay := .looking } := by
    simp [ClientRelayStream.step, readBytes, hr]
  refine ⟨_, reaches_quietly rfl rfl hs, rfl, rfl, h.1, h.2.1, ?_⟩
  rw [hr]
  exact (append_nil _).symm

theorem reaches_back (size : π → ℕ) (bufferSize : ℕ) (h : f.stream.Unblocked) (hready : f.stream.Ready) :
    ∃ g, Reaches size bufferSize f g ∧ BackAt f g := by
  obtain ⟨hp, ho, hf⟩ := h
  cases hr : f.stream.relay with
  | looking =>
    refine ⟨f, .refl f, hr, rfl, hp, ho, ?_⟩
    rw [hr]
    exact (append_nil _).symm
  | forwarding credit =>
    have hstep : f.stream.step size bufferSize (.relay .ok) = some { f.stream with relay := .looking } := by
      simp [ClientRelayStream.step, relayToClient, hr, hp, ho]
    refine ⟨_, reaches_of_step rfl hstep, rfl, rfl, hp, ho, ?_⟩
    simp [forwards, hp, ho]
  | limiting =>
    rw [hr] at hf
    obtain ⟨limit, hstep⟩ : ∃ limit, f.stream.step size bufferSize (.relay .ok) =
        some { f.stream with relay := .reading limit } := by
      cases hs : f.stream.sendState with
      | none => exact ⟨bufferSize, by
          simp [ClientRelayStream.step, relayToClient, hr, clientSendLimit, hs]⟩
      | some state => exact ⟨min state.sendWindow bufferSize, by
          simp [ClientRelayStream.step, relayToClient, hr, clientSendLimit, hs, hf state hs]⟩
    have hc : f.stream.relay.carried = [] := by rw [hr]; rfl
    have hfirst := reaches_quietly rfl (forwards_of_not_forwarding hc .ok) hstep
    obtain ⟨g, hreaches, hl, hcontrol, hh, hw, hall⟩ :=
      reaches_back_of_reading size bufferSize
        (f := ⟨{ f.stream with relay := .reading limit }, f.forwarded⟩) rfl ⟨hp, ho, trivial⟩
    refine ⟨g, hfirst.trans hreaches, hl, hcontrol, hh, hw, ?_⟩
    rw [hall, hc]
    rfl
  | reading limit => exact reaches_back_of_reading size bufferSize hr ⟨hp, ho, hf⟩
  | consuming n =>
    rw [hr] at hf
    obtain ⟨sendState, hstep⟩ : ∃ sendState, f.stream.step size bufferSize (.relay .ok) =
        some { f.stream with sendState, relay := .sending n } := by
      cases hs : f.stream.sendState with
      | none => exact ⟨none, by
          simp [ClientRelayStream.step, relayToClient, hr, waitForClientWindow, hp, hs]⟩
      | some state =>
        have hcovered : ¬state.sendWindow < n := Nat.not_lt.mpr (hready.consuming n hr state hs)
        exact ⟨some { state with sendWindow := state.sendWindow - n }, by
          simp [ClientRelayStream.step, relayToClient, hr, waitForClientWindow, hp, hs,
            StreamState.consumeSend_of_opened (hready.status state hs), hcovered]⟩
    have hc : f.stream.relay.carried = [] := by rw [hr]; rfl
    have hfirst := reaches_quietly rfl (forwards_of_not_forwarding hc .ok) hstep
    obtain ⟨g, hreaches, hl, hcontrol, hh, hw, hall⟩ :=
      reaches_back_of_sending size bufferSize
        (f := ⟨{ f.stream with sendState, relay := .sending n }, f.forwarded⟩) rfl ⟨hp, ho, hf⟩
        (ClientRelayStream.step_ready hready hstep)
    refine ⟨g, hfirst.trans hreaches, hl, hcontrol, hh, hw, ?_⟩
    rw [hall, hc]
    rfl
  | sending n => exact reaches_back_of_sending size bufferSize hr ⟨hp, ho, hf⟩ hready
  | ending | returned => rw [hr] at hf; cases hf

theorem canForward_of_unblocked (h : f.stream.Unblocked) (hready : f.stream.Ready) : f.CanForward size bufferSize := by
  obtain ⟨g, hr, hl, hc, hp, ho, hcarried⟩ :=
    reaches_back size bufferSize h hready
  obtain ⟨final, hf, hall⟩ :=
    reaches_forwarded size bufferSize _ hc hl hp ho
  obtain ⟨labels, hlabels, hrun⟩ := hr.trans hf
  have hw : final.forwarded = f.forwarded ++ f.stream.relay.carried ++ f.stream.control := by
    rw [hall, hcarried]
  exact ⟨labels, final, hlabels, hrun, hw ▸ prefix_rfl⟩

theorem ready_of_run (hrun : run (step size bufferSize) (opened window) labels = some f) : f.stream.Ready := by
  have hstep : ∀ (f : Forwarding π) label next, f.stream.Ready → f.step size bufferSize label = some next →
      next.stream.Ready := by
    intro f label next hr hn
    obtain ⟨stream, hs, rfl⟩ := map_eq_some_iff.mp hn
    exact step_ready hr hs
  exact run_preserves hstep (ready_opened window) hrun

-- In every state with credit of the Agent in the control channel, it can go to
-- the Client without a WINDOW_UPDATE of the Client exactly if `relayToClient`
-- does not wait for one, and neither the stream nor the download has ended.
theorem upload_credit_passes_iff (size : π → ℕ) (udp : Bool) (window : ℕ) (labels : List (ClientLabel π))
    (hrun : run (step size (relayBuffer udp)) (opened window) labels = some f) (hwaiting : f.stream.control ≠ []) :
    f.CanForward size (relayBuffer udp) ↔ f.stream.Unblocked :=
  ⟨fun hforward => by_contra fun hblocked =>
      not_canForward_of_blocked hblocked (ready_of_run hrun) hwaiting hforward,
    fun hfree => canForward_of_unblocked hfree (ready_of_run hrun)⟩

def spentRun : List (ClientLabel ℕ) :=
  [.relay .ok, .relay .ok, .read 1, .relay .ok, .relay .ok, .relay .ok, .agentCredit 32768]

theorem credit_passes_with_window : ∃ f : Forwarding ℕ, run (step id (relayBuffer false)) (opened 2) spentRun = some f ∧
      f.CanForward id (relayBuffer false) := by
  obtain ⟨f, hrun, hwaiting, hfree⟩ : ∃ f : Forwarding ℕ,
      run (step id (relayBuffer false)) (opened 2) spentRun = some f ∧ f.stream.control ≠ [] ∧
        (f.stream.present ∧ f.stream.outbound.closed = false ∧ f.stream.relay = .limiting ∧
          f.stream.sendState.all (fun state => decide (0 < state.sendWindow)) = true) :=
    exists_run_of_any (by decide +kernel)
  refine ⟨f, hrun, (upload_credit_passes_iff id false 2 spentRun hrun hwaiting).mpr ⟨hfree.1, hfree.2.1, ?_⟩⟩
  rw [hfree.2.2.1]
  intro state hstate
  have hall := hfree.2.2.2
  rw [mem_def.mp hstate] at hall
  simpa using hall

theorem spent_window_blocks_upload_credit :
    ∃ f : Forwarding ℕ, run (step id (relayBuffer false)) (opened 1) spentRun = some f ∧
      f.stream.present ∧ f.stream.control = [32768] ∧ ¬f.CanForward id (relayBuffer false) := by
  obtain ⟨f, hrun, hpresent, hwaiting, hrelay, hspent⟩ : ∃ f : Forwarding ℕ,
      run (step id (relayBuffer false)) (opened 1) spentRun = some f ∧ f.stream.present ∧
        f.stream.control = [32768] ∧ f.stream.relay = .limiting ∧ f.stream.sendState = some ⟨.opened, 0, 1⟩ :=
    exists_run_of_any (by decide +kernel)
  refine ⟨f, hrun, hpresent, hwaiting, not_canForward_of_blocked ?_ (ready_of_run hrun) (by simp [hwaiting])⟩
  rintro ⟨-, -, hfree⟩
  rw [hrelay] at hfree
  exact absurd (hfree _ hspent) (by decide)

end Forwarding

end TunnelMesh.Relay
