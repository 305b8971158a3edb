import TunnelMesh.Relay.AgentStream.Ledger

namespace TunnelMesh.Relay

open Protocol AgentRelayWindowConfig Relay.Frame

variable {α : Type}

-- The direction from an Agent to the Server, with the DATA and HALF_CLOSE frames
-- on their way. The bytes that the Agent has sent and the credit that has
-- reached it are counted.
structure Download (α : Type) where
  server : Reading α
  inflight : List (Frame α)
  sent : ℕ
  credited : ℕ

inductive DownloadLabel (α : Type) where
  | send (f : Frame α)
  | deliver
  | server (label : ReadLabel α)
  | credit

-- The steps of the Server that do not wait for the frames on their way. The
-- control frames of an Agent overtake its DATA. No failure but a refused payload
-- is one of backpressure.
def ReadLabel.free : ReadLabel α → Bool
  | .frame (.data _) => false
  | .frame .halfClose => false
  | .frame (.windowUpdate _) => true
  | .frame .reset => true
  | .fail e => decide (e ≠ .backpressure)
  | _ => true

namespace Download

def opened (window : ℕ) : Download α := ⟨.opened window, [], 0, 0⟩

def deliver (windows : AgentRelayWindowConfig) (d : Download α) : Option (Download α) :=
  match d.inflight with
  | [] => none
  | f :: rest => (d.server.step windows (.frame f)).map fun server => { d with server, inflight := rest }

def credit (d : Download α) : Option (Download α) :=
  match d.server.outbox with
  | [] => none
  | update :: rest =>
    some { d with server := { d.server with outbox := rest }, credited := d.credited + update }

def step (windows : AgentRelayWindowConfig) (d : Download α) : DownloadLabel α → Option (Download α)
  | .send f => some { d with inflight := d.inflight ++ [f], sent := d.sent + f.bytes }
  | .deliver => d.deliver windows
  | .server label =>
    if label.free then (d.server.step windows label).map fun server => { d with server } else none
  | .credit => d.credit

def inflightBytes (d : Download α) : ℕ := (d.inflight.map bytes).sum

end Download

open Reading Option List Transition

variable {α : Type}

theorem ReadLabel.bytes_of_free {label : ReadLabel α} (h : label.free) : label.bytes = 0 := by
  cases label with
  | frame f =>
    cases f with
    | data payload => cases h
    | _ => rfl
  | _ => rfl

namespace Reading

def Unpressed (r : Reading α) : Prop :=
  r.stream.err ≠ some .backpressure ∧ ∀ complete, r.handler ≠ some (.backpressure, complete)

variable {r next : Reading α}

theorem published_ne (hold : old ≠ some other) (hnew : e ≠ other) : published old e ≠ some other := by
  unfold published
  split
  · intro heq; exact hnew (some.inj heq)
  · exact hold

theorem effect_unpressed (he : Effect windows r label next) (h : r.Unpressed) (hf : label ≠ .fail .backpressure)
    (hroom : ∀ payload, label = .frame (.data payload) → r.stream.unread.length + payload.length ≤ r.stream.budget) :
    next.Unpressed := by
  obtain ⟨herr, hh⟩ := h
  cases he with
  | call hlabel hs hreader hnext hsize hgap hrest =>
    refine ⟨?_, ?_⟩
    · rw [err_of_inbound hs]; exact herr
    · rw [hrest.1]; exact hh
  | failed | flushed | ignored => exact ⟨herr, hh⟩
  | took =>
    refine ⟨?_, hh⟩
    rw [err_of_inbound (r.stream.inbound_take _)]
    exact herr
  | released _ hr | flushing _ _ hr =>
    refine ⟨?_, hh⟩
    rw [err_of_inbound (r.stream.released_inbound hr)]
    exact herr
  | lost => exact ⟨published_ne herr (by decide), hh⟩
  | accepted _ _ _ _ hs | aside _ hs =>
    refine ⟨?_, hh⟩
    rw [err_of_inbound hs]
    exact herr
  | @refused payload stream e hidle hs hreason =>
    refine ⟨?_, ?_⟩
    · rw [err_of_inbound hs]; exact herr
    · rintro complete hp
      cases hp
      have hfits := hroom payload rfl
      rcases hreason with ⟨-, hw⟩ | hw | ⟨-, hfull⟩
      · cases hw
      · exact herr hw
      · omega
  | halfClosed | reset => exact ⟨herr, fun complete hp => by cases hp⟩
  | @publish e complete stream hp hs =>
    refine ⟨?_, fun complete hn => by cases hn⟩
    rw [err_of_inbound hs]
    refine published_ne herr ?_
    rintro rfl
    exact hh complete hp
  | @fail e hne =>
    refine ⟨published_ne herr ?_, hh⟩
    rintro rfl
    exact hf rfl

end Reading

namespace Download

variable {d next : Download α} {window : ℕ}

-- The Agent sends DATA only within the window of its OPEN_STREAM and the credit
-- that has reached it.
def Respects (window : ℕ) (d : Download α) : DownloadLabel α → Prop
  | .send f => d.sent + f.bytes ≤ window + d.credited
  | _ => True

-- The payload that comes next is not refused for lack of room, and the buffer
-- holds no more than its budget.
structure WithinBudget (d : Download α) : Prop where
  next : ∀ payload rest, d.inflight = .data payload :: rest → (d.server.stream.enqueue payload).2 ≠ .error .backpressure
  buffer : d.server.stream.unread.length ≤ d.server.stream.receiveBudget

structure Respected (window : ℕ) (d : Download α) : Prop where
  budget : d.server.stream.receiveBudget = window
  total : d.inflightBytes + d.server.held + d.credited ≤ d.sent
  window : d.sent ≤ window + d.credited
  unpressed : d.server.Unpressed

theorem inflightBytes_cons (h : d.inflight = f :: rest) : d.inflightBytes = f.bytes + (rest.map bytes).sum := by
  rw [inflightBytes, h, map_cons, sum_cons]

section

variable (h : Respected window d)

include h

theorem Respected.room (hwindow : 0 < window) :
    d.inflightBytes + d.server.stream.unread.length ≤ d.server.stream.budget := by
  have hbudget : d.server.stream.budget = window := by
    rw [AgentRelayStream.budget, h.budget, if_neg (by omega)]
  have ht := h.total
  have hsent := h.window
  unfold held at ht
  omega

theorem Respected.withinBudget (hwindow : 0 < window) : WithinBudget d := by
  have hroom := h.room hwindow
  refine ⟨?_, ?_⟩
  · intro payload rest hi hp
    rw [inflightBytes_cons hi, bytes] at hroom
    rcases d.server.stream.enqueue_cases payload with ⟨-, -, -, hok, -⟩ | ⟨e, he, -, hr⟩
    · rw [hok] at hp; cases hp
    obtain rfl : e = .backpressure := Except.error.inj (he.symm.trans hp)
    rcases hr with ⟨-, hw⟩ | hw | ⟨-, hfull⟩
    · cases hw
    · exact h.unpressed.1 hw
    · omega
  · have ht := h.total
    have hsent := h.window
    have hbudget := h.budget
    unfold held at ht
    omega

theorem deliver_respected (hw : 0 < window) (hd : d.deliver windows = some next) : Respected window next := by
  unfold deliver at hd
  split at hd
  · cases hd
  · next f rest hi =>
    obtain ⟨server, hs, rfl⟩ := map_eq_some_iff.mp hd
    have he := step_effect hs
    have hroom := h.room hw
    have hheld : server.held ≤ d.server.held + f.bytes := (effect_held he).1
    have htotal := h.total
    have hc := inflightBytes_cons hi
    refine ⟨(effect_window he).1.trans h.budget, ?_, h.window, ?_⟩
    · simp only [inflightBytes]; omega
    · refine effect_unpressed he h.unpressed (by simp) ?_
      intro payload hl
      obtain rfl : f = .data payload := by simpa using hl
      rw [bytes] at hc
      omega

theorem credit_respected (hc : d.credit = some next) : Respected window next := by
  unfold credit at hc
  split at hc <;> cases hc
  next update rest ho =>
    have ht := h.total
    have hsent := h.window
    refine ⟨h.budget, ?_, ?_, h.unpressed⟩
    · simp only [held, ho, sum_cons] at ht
      simp only [held, inflightBytes] at ht ⊢
      omega
    · simp only; omega

end

theorem step_respected (hw : 0 < window) (h : Respected window d) (hr : Respects window d label)
    (hs : d.step windows label = some next) : Respected window next := by
  cases label with
  | send f =>
    cases hs
    have hfits := hr
    have ht := h.total
    refine ⟨h.budget, ?_, hfits, h.unpressed⟩
    simp only [inflightBytes, map_append, map_cons, map_nil, sum_append, sum_singleton] at ht ⊢
    omega
  | deliver => exact deliver_respected h hw hs
  | server label =>
    simp only [step, ite_none_right_eq_some] at hs
    obtain ⟨hf, hmap⟩ := hs
    obtain ⟨server, hserver, rfl⟩ := map_eq_some_iff.mp hmap
    have he := step_effect hserver
    have hh := (effect_held he).1
    rw [ReadLabel.bytes_of_free hf] at hh
    have ht := h.total
    refine ⟨(effect_window he).1.trans h.budget, ?_, h.window, ?_⟩
    · simp only [inflightBytes] at ht ⊢; omega
    · refine effect_unpressed he h.unpressed ?_ ?_
      · rintro rfl; cases hf
      · rintro payload rfl; cases hf
  | credit => exact credit_respected h hs

theorem respected_opened (window : ℕ) : Respected window (opened window : Download α) :=
  ⟨rfl, Nat.le_refl _, Nat.zero_le _, by simp [opened, Reading.opened, AgentRelayStream.opened],
    fun complete hp => by cases hp⟩

-- An Agent that keeps within its window never meets the guard of `enqueue`, and
-- the buffer never holds more than its budget.
theorem window_respecting_agent_fits (windows : AgentRelayWindowConfig) (requested : ℕ)
    (labels : List (DownloadLabel α))
    (halong : Along (step windows) (Respects (windows.windowFor requested)) (opened (windows.windowFor requested))
      labels) : Always (step windows) WithinBudget (opened (windows.windowFor requested)) labels := by
  have hwindow : 0 < windows.windowFor requested := by
    have hmin : 0 < minRefillableWindow := by decide
    have hbounds := windows.windowFor_bounds requested
    omega
  have hinv := always_of_invariant (fun _ _ _ h hrespects hstep => step_respected hwindow h hrespects hstep)
      _ labels (respected_opened _) halong
  exact hinv.mono fun d h => h.withinBudget hwindow

instance (d : Download α) (label : DownloadLabel α) : Decidable (Respects window d label) := by
  cases label <;> dsimp only [Respects] <;> infer_instance

def respectingLabels : List (DownloadLabel Bool) :=
  [.send (.data [true, false]), .deliver, .server (.read 1), .server (.advance .data), .server (.advance .data),
    .server (.advance .data), .credit, .send (.data [true]), .deliver]

theorem respecting_agent_fits : ∃ final, run (step ⟨0, 1⟩) (opened (AgentRelayWindowConfig.windowFor ⟨0, 1⟩ 262144))
        respectingLabels = some final ∧
      (final.credited = 1 ∧ final.server.stream.unread = [false, true]) ∧ WithinBudget final :=
  (window_respecting_agent_fits ⟨0, 1⟩ 262144 respectingLabels (by decide +kernel)).exists_run (by decide +kernel)

end Download

end TunnelMesh.Relay

namespace TunnelMesh.Relay.Download

open Protocol Reading List

variable {α : Type} {windows : AgentRelayWindowConfig} {window : ℕ} {d next : Download α}

structure Offered (window : ℕ) : Prop where
  pos : 0 < window
  fits : window < 2 ^ 32

theorem offered_windowFor (windows : AgentRelayWindowConfig) (requested : ℕ) :
    Offered (windows.windowFor requested) := by
  have hmin : 0 < minRefillableWindow := by decide
  have hmax : defaultServerReceiveWindow < 2 ^ 32 := by decide
  have hbounds := windows.windowFor_bounds requested
  exact ⟨by omega, by omega⟩

-- Until an error is published all bytes sent are on their way, in the stream or
-- credited again, and the stream keeps back less than the threshold.
structure Exact (windows : AgentRelayWindowConfig) (window : ℕ) (d : Download α) : Prop where
  respected : Respected window d
  opened : d.server.Live → d.server.Open
  residue : d.server.stream.receiveUnacked < windows.thresholdFor window
  exact : d.server.Live → d.inflightBytes + d.server.held + d.credited = d.sent

theorem exact_opened (windows : AgentRelayWindowConfig) (requested : ℕ) :
    Exact windows (windows.windowFor requested) (opened (windows.windowFor requested) : Download α) :=
  ⟨respected_opened _, fun hl => ⟨hl, rfl, rfl⟩, (windows.thresholdFor_windowFor requested).1, fun _ => rfl⟩

theorem server_exact {server : Reading α} (ho : Offered window)
    (h : Exact windows window d) (hs : d.server.step windows readLabel = some server) :
    (server.Live → server.Open) ∧ server.stream.receiveUnacked < windows.thresholdFor window ∧
      (server.Live → server.held = d.server.held + readLabel.bytes) := by
  have he := step_effect hs
  have hb := h.respected.budget
  have ht : windows.thresholdFor (uint32 d.server.stream.receiveBudget) = windows.thresholdFor window := by
    rw [hb, uint32_of_lt ho.fits]
  have hf : d.server.held < 2 ^ 32 := by
    have htotal := h.respected.total
    have hsent := h.respected.window
    have hwindow := ho.fits
    omega
  refine ⟨fun hl => ?_, effect_residue ht he h.residue, fun hl => ?_⟩
  · exact (effect_live he hl).2 (h.opened (effect_live he hl).1)
  · exact (effect_held he).2 (h.opened (effect_live he hl).1) hl hf

theorem step_exact (ho : Offered window) (h : Exact windows window d) (hrespects : Respects window d label)
    (hstep : d.step windows label = some next) : Exact windows window next := by
  have hr := step_respected ho.pos h.respected hrespects hstep
  cases label with
  | send f =>
    cases hstep
    refine ⟨hr, h.opened, h.residue, fun hl => ?_⟩
    have he := h.exact hl
    simp only [inflightBytes, map_append, map_cons, map_nil, sum_append, sum_singleton] at he ⊢
    omega
  | deliver =>
    have hd : d.deliver windows = some next := hstep
    unfold deliver at hd
    split at hd
    · cases hd
    · next f rest hi =>
      obtain ⟨server, hs, rfl⟩ := Option.map_eq_some_iff.mp hd
      obtain ⟨hopened, hresidue, hh⟩ := server_exact ho h hs
      refine ⟨hr, hopened, hresidue, fun hl => ?_⟩
      have he := h.exact (effect_live (step_effect hs) hl).1
      have hcons := inflightBytes_cons hi
      have hnow : server.held = d.server.held + f.bytes := hh hl
      simp only [inflightBytes] at hcons he ⊢
      omega
  | server label =>
    simp only [step, Option.ite_none_right_eq_some] at hstep
    obtain ⟨hf, hmap⟩ := hstep
    obtain ⟨server, hs, rfl⟩ := Option.map_eq_some_iff.mp hmap
    obtain ⟨hopened, hresidue, hh⟩ := server_exact ho h hs
    refine ⟨hr, hopened, hresidue, fun hl => ?_⟩
    have he := h.exact (effect_live (step_effect hs) hl).1
    have hnow := hh hl
    rw [ReadLabel.bytes_of_free hf] at hnow
    simp only [inflightBytes] at he ⊢
    omega
  | credit =>
    have hc : d.credit = some next := hstep
    unfold credit at hc
    split at hc <;> cases hc
    next update rest houtbox =>
      refine ⟨hr, h.opened, h.residue, fun hl => ?_⟩
      have he := h.exact hl
      simp only [held, houtbox, sum_cons] at he
      simp only [held, inflightBytes] at he ⊢
      omega

end TunnelMesh.Relay.Download
