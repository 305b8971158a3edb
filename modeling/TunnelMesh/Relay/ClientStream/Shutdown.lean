import TunnelMesh.Relay.ClientStream.Theorems

namespace TunnelMesh.Relay

open Protocol Session ClientRelayStream UploadPump FrameQueue Option List Transition
open Agent (Outcome frameSize)

variable {π : Type} {size : π → ℕ} {inbound : FrameQueue (Option π)}

def UploadPump.payloads : UploadPump π → List π
  | .writing payload => [payload]
  | _ => []

def UploadPump.isClosing : UploadPump π → Bool
  | .closing => true
  | _ => false

def UploadPump.isCompleting : UploadPump π → Bool
  | .completing => true
  | _ => false

namespace ClientRelayStream

variable (s : ClientRelayStream π)

def unwritten : List π := s.pump.payloads ++ s.inbound.frames.filterMap id

def accepts (size : π → ℕ) (s : ClientRelayStream π) : ClientLabel π → List π
  | .data payload =>
    if s.present ∧ s.clientHalfClosed = false ∧
        (s.inbound.tryPush (frameSize size) (some payload)).isSome then [payload]
    else []
  | _ => []

def writes : ClientLabel π → List π
  | .pump _ => s.pump.payloads
  | _ => []

def callsCloseWrite : ClientLabel π → Bool
  | .pump .ok => s.pump.isClosing
  | _ => false

def completes : ClientLabel π → Bool
  | .pump _ => s.pump.isCompleting
  | .relay _ => s.relay == .ending false
  | _ => false

end ClientRelayStream

-- A stream with what it accepted, what it wrote and whether it called
-- `CloseWrite`. When the connection is closed, what had happened is kept.
structure Upload (π : Type) where
  stream : ClientRelayStream π
  accepted : List π
  written : List π
  halfClosed : Bool
  closedAfter : Option (List π × Bool)

namespace Upload

def opened (initialWindow : ℕ) : Upload π := ⟨.opened initialWindow, [], [], false, none⟩

def step (size : π → ℕ) (bufferSize : ℕ) (u : Upload π) (label : ClientLabel π) : Option (Upload π) :=
  (u.stream.step size bufferSize label).map fun stream =>
    let written := u.written ++ u.stream.writes label
    let halfClosed := u.halfClosed || u.stream.callsCloseWrite label
    { stream
      accepted := u.accepted ++ u.stream.accepts size label
      written
      halfClosed
      closedAfter :=
        if u.stream.present ∧ stream.present = false then some (written, halfClosed) else u.closedAfter }

def Orderly (size : π → ℕ) (bufferSize : ℕ) (u : Upload π) (label : ClientLabel π) : Prop :=
  u.stream.completes label ∨
    (u.stream.step size bufferSize label).all (fun next => next.present == u.stream.present) = true
  deriving Decidable

-- When the Agent's end of file completes the stream, the pump has called
-- `CloseWrite`.
def Drained (u : Upload π) : ClientLabel π → Prop
  | .relay _ => u.stream.relay = .ending false → u.stream.clientHalfClosed → u.halfClosed
  | _ => True

def Complete (u : Upload π) : Prop :=
  ∀ written halfClosed, u.closedAfter = some (written, halfClosed) → written = u.accepted ∧ halfClosed

instance [DecidableEq π] (u : Upload π) (label : ClientLabel π) : Decidable (u.Drained label) := by
  cases label <;> dsimp only [Drained] <;> infer_instance

end Upload

namespace ClientRelayStream

structure Sealed (s : ClientRelayStream π) (halfClosed : Bool) : Prop where
  frames : ∃ (payloads : List π) (k : ℕ), s.inbound.frames = payloads.map some ++ List.replicate k none ∧
    (k = 0 ∨ s.clientHalfClosed)
  pushing : s.pushing → s.clientHalfClosed
  closing : s.pump.isClosing ∨ s.pump.isCompleting → s.inbound.frames.filterMap id = [] ∧ s.clientHalfClosed
  completing : s.pump.isCompleting → halfClosed

variable {s next : ClientRelayStream π}

theorem sealed_opened (initialWindow : ℕ) : (opened initialWindow : ClientRelayStream π).Sealed false where
  frames := ⟨[], 0, rfl, .inl rfl⟩
  pushing := nofun
  closing := by rintro (h | h) <;> cases h
  completing := nofun

structure Aside (s next : ClientRelayStream π) : Prop where
  inbound : next.present → next.inbound = s.inbound
  pump : next.pump = s.pump
  half : next.clientHalfClosed = s.clientHalfClosed
  pushing : next.present → next.pushing = s.pushing
  present : next.present → s.present

theorem Aside.of_kept (h : (next.inbound, next.pump, next.clientHalfClosed, next.pushing, next.present) =
    (s.inbound, s.pump, s.clientHalfClosed, s.pushing, s.present)) : Aside s next := by
  simp only [Prod.mk.injEq] at h
  obtain ⟨hi, hp, hh, hpushing, hpresent⟩ := h
  exact ⟨fun _ => hi, hp, hh, fun _ => hpushing, fun h => hpresent ▸ h⟩

theorem Aside.of_retired (hp : next.pump = s.pump) (hh : next.clientHalfClosed = s.clientHalfClosed)
    (hg : next.present = false) : Aside s next := by
  have hnot : ∀ {p : Prop}, next.present = true → p := fun h => absurd h (by simp [hg])
  exact ⟨hnot, hp, hh, hnot, hnot⟩

section

variable (h : s.Sealed halfClosed)

include h

theorem Sealed.aside (ha : Aside s next) (hs : next.present) :
    next.Sealed halfClosed ∧ next.unwritten = s.unwritten := by
  obtain ⟨hinbound, hp, hh, hpushing, -⟩ := ha
  replace hinbound := hinbound hs
  replace hpushing := hpushing hs
  refine ⟨⟨?_, ?_, ?_, ?_⟩, ?_⟩
  · rw [hinbound, hh]; exact h.frames
  · rw [hpushing, hh]; exact h.pushing
  · rw [hp, hinbound, hh]; exact h.closing
  · rw [hp]; exact h.completing
  · rw [unwritten, unwritten, hp, hinbound]

theorem Sealed.accepted
    (ho : s.clientHalfClosed = false) (hp : s.inbound.tryPush (frameSize size) (some payload) = some inbound) :
    Sealed { s with inbound } halfClosed ∧ unwritten { s with inbound } = s.unwritten ++ [payload] := by
  have hf : inbound.frames = s.inbound.frames ++ [some payload] := by rw [tryPush_eq_some hp]
  refine ⟨⟨?_, h.pushing, fun hc => ?_, h.completing⟩, ?_⟩
  · obtain ⟨payloads, k, hq, hl⟩ := h.frames
    have hn : k = 0 := hl.resolve_right (by simp [ho])
    exact ⟨payloads ++ [payload], 0, by simp [hf, hq, hn], .inl rfl⟩
  · exact absurd (h.closing hc).2 (by simp [ho])
  · simp [unwritten, hf]

theorem Sealed.pushed (hp : s.pushing) (hpush : s.inbound.tryPush (frameSize size) none = some inbound) :
    Sealed { s with inbound, pushing := false } halfClosed ∧
      unwritten { s with inbound, pushing := false } = s.unwritten := by
  have hf : inbound.frames = s.inbound.frames ++ [none] := by rw [tryPush_eq_some hpush]
  have hh := h.pushing hp
  refine ⟨⟨?_, nofun, fun hc => ?_, h.completing⟩, ?_⟩
  · obtain ⟨payloads, k, hq, -⟩ := h.frames
    refine ⟨payloads, k + 1, ?_, .inr hh⟩
    rw [hf, hq, append_assoc, replicate_succ']
  · obtain ⟨hn, -⟩ := h.closing hc
    refine ⟨?_, hh⟩
    rw [hf, filterMap_append, hn]
    rfl
  · simp [unwritten, hf]

theorem Sealed.popped (hp : s.pump = .popping) (hpop : s.inbound.pop = some (some payload, inbound)) :
    Sealed { s with inbound, pump := .writing payload } halfClosed ∧
      unwritten { s with inbound, pump := .writing payload } = s.unwritten := by
  obtain ⟨hf, -⟩ := pop_eq_some hpop
  refine ⟨⟨?_, h.pushing, ?_, nofun⟩, ?_⟩
  · obtain ⟨payloads, k, hq, hl⟩ := h.frames
    rw [hf] at hq
    cases payloads with
    | nil =>
      cases k with
      | zero | succ => cases hq
    | cons first rest => obtain ⟨-, hr⟩ := cons.inj hq; exact ⟨rest, k, hr, hl⟩
  · rintro (hc | hc) <;> cases hc
  · simp [unwritten, hp, payloads, hf]

theorem Sealed.poppedHalfClose (hp : s.pump = .popping) (hpop : s.inbound.pop = some (none, inbound)) :
    Sealed { s with inbound, pump := .closing } halfClosed ∧
      unwritten { s with inbound, pump := .closing } = s.unwritten := by
  obtain ⟨hf, -⟩ := pop_eq_some hpop
  obtain ⟨payloads, k, hq, hl⟩ := h.frames
  rw [hf] at hq
  -- No DATA is left behind a HALF_CLOSE.
  cases payloads with
  | cons first rest => cases hq
  | nil =>
    cases k with
    | zero => cases hq
    | succ k =>
      obtain ⟨-, hr⟩ := cons.inj hq
      have hh := hl.resolve_left (Nat.succ_ne_zero k)
      refine ⟨⟨⟨[], k, hr, .inr hh⟩, h.pushing, fun _ => ⟨?_, hh⟩, nofun⟩, ?_⟩
      · rw [hr]; simp
      · simp [unwritten, hp, payloads, hf]

theorem Sealed.paused {pump : UploadPump π} (hc : pump.isClosing = false) (hd : pump.isCompleting = false) :
    Sealed { s with pump } halfClosed := by
  refine ⟨h.frames, h.pushing, ?_, fun hp => absurd (hd.symm.trans hp) nofun⟩
  rintro (hp | hp)
  · exact absurd (hc.symm.trans hp) nofun
  · exact absurd (hd.symm.trans hp) nofun

theorem pump_sealed (hs : s.pumpClientUpload outcome = some next) (hstays : next.present) :
    next.Sealed (halfClosed || s.callsCloseWrite (.pump outcome)) ∧
      s.pump.payloads ++ next.unwritten = s.unwritten := by
  have hsame {after : ClientRelayStream π} (hn : s.pump.payloads = []) (hoff : s.pump.isClosing = false)
      (ha : after.Sealed halfClosed ∧ after.unwritten = s.unwritten) :
      after.Sealed (halfClosed || s.callsCloseWrite (.pump outcome)) ∧
        s.pump.payloads ++ after.unwritten = s.unwritten := by
    have hcalls : s.callsCloseWrite (.pump outcome) = false := by
      cases outcome with
      | ok => exact hoff
      | failed => rfl
    rw [hcalls, Bool.or_false, hn]
    exact ha
  unfold pumpClientUpload at hs
  split at hs
  · next hp =>
    refine hsame (by rw [hp]; rfl) (by rw [hp]; rfl) ?_
    split at hs
    · next payload inbound hpop =>
      cases hs
      exact h.popped hp hpop
    · next inbound hpop =>
      cases hs
      exact h.poppedHalfClose hp hpop
    · obtain ⟨-, rfl⟩ := guard_eq_some hs
      exact ⟨h.paused rfl rfl, by simp [unwritten, hp, payloads]⟩
  · next hp =>
    cases hs
    simpa [callsCloseWrite, hp, isClosing, unwritten, payloads] using h.paused rfl rfl
  · next hp =>
    cases hs
    refine ⟨⟨h.frames, h.pushing, fun _ => h.closing (.inl (by rw [hp]; rfl)), fun _ => ?_⟩,
      by simp [unwritten, hp, payloads]⟩
    simp [callsCloseWrite, hp, isClosing]
  · cases hs; cases hstays
  · cases hs; cases hstays
  · next hp =>
    refine hsame (by rw [hp]; rfl) (by rw [hp]; rfl) ?_
    split_ifs at hs <;> cases hs
    · cases hstays
    · exact ⟨h.paused rfl rfl, by simp [unwritten, hp, payloads]⟩
  · cases hs

end

theorem clientSendLimit_aside (hs : s.clientSendLimit bufferSize = some next) : Aside s next := by
  unfold clientSendLimit at hs
  split at hs
  · cases hs; exact .of_kept rfl
  · split_ifs at hs <;> cases hs <;> exact .of_kept rfl

theorem waitForClientWindow_aside (hs : s.waitForClientWindow n = some next) : Aside s next := by
  unfold waitForClientWindow at hs
  split at hs
  · cases hs; exact .of_kept rfl
  split at hs
  · cases hs; exact .of_kept rfl
  · split at hs <;> cases hs
    · exact .of_kept rfl
    · exact .of_retired rfl rfl rfl

theorem enqueueData_aside (s : ClientRelayStream π) (n : ℕ) : Aside s (s.enqueueData n) := by
  unfold enqueueData
  split
  · exact .of_kept rfl
  · split
    · exact .of_kept rfl
    · exact .of_retired rfl rfl rfl

theorem endOfRead_aside (s : ClientRelayStream π) (failed : Bool) : Aside s (s.endOfRead failed) := by
  unfold endOfRead
  split_ifs
  · exact .of_kept rfl
  · exact .of_retired rfl rfl rfl
  · exact .of_retired rfl rfl rfl
  · exact .of_kept rfl

theorem relayToClient_aside (hs : s.relayToClient bufferSize outcome = some next) : Aside s next := by
  unfold relayToClient at hs
  split at hs
  · split at hs <;> cases hs <;> exact .of_kept rfl
  · split_ifs at hs <;> cases hs
    · exact .of_kept rfl
    · exact .of_retired rfl rfl rfl
    · exact .of_kept rfl
  · exact clientSendLimit_aside hs
  · exact waitForClientWindow_aside hs
  · cases hs; exact enqueueData_aside s _
  · cases hs; exact endOfRead_aside s _
  · cases hs
  · cases hs

theorem readBytes_aside (hs : s.readBytes n = some next) : Aside s next := by
  obtain ⟨limit, -, -, rfl⟩ := readBytes_eq_some hs
  exact .of_kept rfl

theorem readEnd_aside (hs : s.readEnd failed = some next) : Aside s next := by
  obtain ⟨limit, -, rfl⟩ := readEnd_eq_some hs
  exact .of_kept rfl

theorem handleWindowUpdate_aside (s : ClientRelayStream π) (credit : ℕ) : Aside s (s.handleWindowUpdate credit) := by
  unfold handleWindowUpdate
  split
  · exact .of_kept rfl
  split
  · exact .of_kept rfl
  · split
    · exact .of_kept rfl
    · exact .of_retired rfl rfl rfl

inductive UploadEffect (size : π → ℕ) (s : ClientRelayStream π) : ClientLabel π → ClientRelayStream π → Prop where
  | accepted {inbound : FrameQueue (Option π)} (hopen : s.clientHalfClosed = false)
      (hpush : s.inbound.tryPush (frameSize size) (some payload) = some inbound)
      (haccepts : s.accepts size (.data payload) = [payload]) : UploadEffect size s (.data payload) { s with inbound }
  | marked (hpresent : s.present) :
      UploadEffect size s .halfClose { s with clientHalfClosed := true, pushing := true }
  | pushed {inbound : FrameQueue (Option π)} (hpushing : s.pushing)
      (hpush : s.inbound.tryPush (frameSize size) none = some inbound) :
      UploadEffect size s .pushHalfClose { s with inbound, pushing := false }
  | pumped {next : ClientRelayStream π} (hpump : s.pumpClientUpload outcome = some next) :
      UploadEffect size s (.pump outcome) next
  | aside {label : ClientLabel π} {next : ClientRelayStream π} (haside : Aside s next)
      (haccepts : s.accepts size label = []) (hpump : ∀ outcome, label ≠ .pump outcome) :
      UploadEffect size s label next

theorem handleData_effect (s : ClientRelayStream π) (payload : π) :
    UploadEffect size s (.data payload) (s.handleData size payload) := by
  unfold handleData
  split
  · next hr =>
    refine .aside (.of_kept rfl) ?_ nofun
    rw [accepts, if_neg]
    rintro ⟨hpresent, ho, -⟩
    rcases hr with ha | hh
    · simp [ha] at hpresent
    · simp [hh] at ho
  · next ht =>
    simp only [not_or, Bool.not_eq_false, Bool.not_eq_true] at ht
    split
    · next inbound hp =>
      exact .accepted ht.2 hp (by rw [accepts, if_pos ⟨ht.1, ht.2, by rw [hp]; rfl⟩])
    · next hp =>
      refine .aside (.of_retired rfl rfl rfl) ?_ nofun
      rw [accepts, if_neg]
      rintro ⟨-, -, hs⟩
      simp [hp] at hs

theorem step_effect (hs : s.step size bufferSize label = some next) : UploadEffect size s label next := by
  cases label with
  | data payload =>
    simp only [step, ite_none_left_eq_some] at hs
    cases hs.2
    exact handleData_effect s payload
  | halfClose =>
    simp only [step, ite_none_left_eq_some] at hs
    cases hs.2
    unfold handleHalfClose
    split
    · exact .aside (.of_kept rfl) rfl (by simp)
    · next hh => exact .marked (by simpa using hh)
  | pushHalfClose =>
    obtain ⟨hg, rfl⟩ := guard_eq_some hs
    unfold pushHalfClose
    split
    · next inbound hp => exact .pushed hg hp
    · exact .aside (.of_retired rfl rfl rfl) rfl (by simp)
  | windowUpdate credit =>
    simp only [step, ite_none_left_eq_some] at hs
    cases hs.2
    exact .aside (handleWindowUpdate_aside s credit) rfl (by simp)
  | reset => cases hs; exact .aside (.of_retired rfl rfl rfl) rfl (by simp)
  | pump outcome => exact .pumped hs
  | agentCredit credit =>
    cases hs
    split <;> exact .aside (.of_kept rfl) rfl (by simp)
  | relay outcome => exact .aside (relayToClient_aside hs) rfl (by simp)
  | read n => exact .aside (readBytes_aside hs) rfl (by simp)
  | readEnd failed => exact .aside (readEnd_aside hs) rfl (by simp)
  | drain =>
    obtain ⟨popped, -, rfl⟩ := map_eq_some_iff.mp hs
    exact .aside (.of_kept rfl) rfl (by simp)
  | closeWriter => cases hs; exact .aside (.of_kept rfl) rfl (by simp)

theorem UploadEffect.present (he : UploadEffect size s label next) (h : next.present) : s.present := by
  cases he with
  | accepted | marked | pushed => exact h
  | pumped hp => exact (pumpClientUpload_beside hp).present h
  | aside ha => exact ha.present h

theorem writes_of_not_pump (h : ∀ outcome, label ≠ .pump outcome) :
    s.writes label = [] ∧ s.callsCloseWrite label = false := by
  cases label with
  | pump outcome => exact absurd rfl (h outcome)
  | _ => exact ⟨rfl, rfl⟩

theorem effect_stays (he : UploadEffect size s label next) (hstays : next.present) (h : s.Sealed halfClosed) :
    next.Sealed (halfClosed || s.callsCloseWrite label) ∧
      s.writes label ++ next.unwritten = s.unwritten ++ s.accepts size label := by
  cases he with
  | accepted ho hp ha =>
    obtain ⟨hs, hg⟩ := h.accepted ho hp
    rw [ha]
    exact ⟨by simpa [callsCloseWrite] using hs, hg⟩
  | marked =>
    refine ⟨⟨?_, fun _ => rfl, fun hclosing => ⟨(h.closing hclosing).1, rfl⟩, fun hc => ?_⟩, ?_⟩
    · obtain ⟨payloads, k, hq, -⟩ := h.frames; exact ⟨payloads, k, hq, .inr rfl⟩
    · rw [h.completing hc]; rfl
    · simp [writes, accepts, unwritten]
  | pushed hpushing hp =>
    obtain ⟨hs, hsame⟩ := h.pushed hpushing hp
    refine ⟨by simpa [callsCloseWrite] using hs, ?_⟩
    rw [hsame]
    simp [writes, accepts]
  | pumped hpump =>
    obtain ⟨hs, haccount⟩ := pump_sealed h hpump hstays
    exact ⟨hs, haccount.trans (append_nil _).symm⟩
  | aside haside ha hpump =>
    obtain ⟨hs, hsame⟩ := h.aside haside hstays
    obtain ⟨hw, hcalls⟩ := writes_of_not_pump (s := s) hpump
    rw [hcalls, Bool.or_false, hw, ha, hsame, append_nil]
    exact ⟨hs, rfl⟩

theorem pump_half (hs : s.pumpClientUpload outcome = some next) : next.clientHalfClosed = s.clientHalfClosed := by
  unfold pumpClientUpload at hs
  repeat' split at hs
  all_goals cases hs
  all_goals rfl

theorem UploadEffect.half (he : UploadEffect size s label next) (h : s.clientHalfClosed) : next.clientHalfClosed := by
  cases he with
  | accepted | pushed => exact h
  | marked => rfl
  | pumped hp => exact (pump_half hp).trans h
  | aside ha => exact ha.half.trans h

theorem accepts_of_closed (h : s.present = false ∨ s.clientHalfClosed) : s.accepts size label = [] := by
  cases label with
  | data payload => rcases h with h | h <;> simp [accepts, h]
  | _ => rfl

-- Once `CloseWrite` was called, nothing is left to be written and nothing is accepted.
theorem effect_drained (he : UploadEffect size s label next) (hstays : next.present) (h : s.Sealed halfClosed)
    (hd : halfClosed → s.unwritten = [] ∧ s.clientHalfClosed) (hc : halfClosed || s.callsCloseWrite label) :
    next.unwritten = [] ∧ next.clientHalfClosed := by
  obtain ⟨hu, hh⟩ : s.unwritten = [] ∧ s.clientHalfClosed := by
    rcases Bool.or_eq_true_iff.mp hc with hc | hc
    · exact hd hc
    unfold callsCloseWrite at hc
    split at hc
    · obtain ⟨hq, hh⟩ := h.closing (.inl hc)
      refine ⟨?_, hh⟩
      cases hp : s.pump with
      | writing => rw [hp] at hc; cases hc
      | _ => rw [unwritten, hq, hp]; rfl
    · cases hc
  have haccount := (effect_stays he hstays h).2
  rw [hu, accepts_of_closed (.inr hh)] at haccount
  exact ⟨(append_eq_nil_iff.mp haccount).2, he.half hh⟩

theorem step_completes (hs : s.step size bufferSize label = some next) (hh : s.present)
    (hg : next.present = false) (hc : s.completes label) (h : s.Sealed halfClosed)
    (hu : halfClosed → s.unwritten = [])
    (hd : ∀ outcome, label = .relay outcome → s.relay = .ending false → s.clientHalfClosed → halfClosed) :
    s.writes label = [] ∧ s.unwritten = [] ∧ s.accepts size label = [] ∧ halfClosed := by
  cases label with
  | pump outcome =>
    have hn := hu (h.completing hc)
    exact ⟨(append_eq_nil_iff.mp hn).1, hn, rfl, h.completing hc⟩
  | relay outcome =>
    have hr : s.relay = .ending false := by simpa [completes] using hc
    have hhalf : s.clientHalfClosed := by
      by_contra ho
      simp only [step, relayToClient, hr] at hs
      cases hs
      simp [endOfRead, hh, ho] at hg
    have hclosed := hd outcome rfl hr hhalf
    exact ⟨rfl, hu hclosed, rfl, hclosed⟩
  | _ => cases hc

end ClientRelayStream

namespace Upload

structure Kept (u : Upload π) : Prop where
  complete : u.Complete
  live : u.stream.present → u.closedAfter = none
  account : u.stream.present → u.written ++ u.stream.unwritten = u.accepted
  frames : u.stream.present → u.stream.Sealed u.halfClosed
  drained : u.stream.present → u.halfClosed → u.stream.unwritten = [] ∧ u.stream.clientHalfClosed

variable {u next : Upload π}

theorem kept_opened (initialWindow : ℕ) : (opened initialWindow : Upload π).Kept where
  complete := nofun
  live := fun _ => rfl
  account := fun _ => rfl
  frames := fun _ => sealed_opened initialWindow
  drained := nofun

theorem step_kept (h : u.Kept) (ho : u.Orderly size bufferSize label) (hd : u.Drained label)
    (hstep : u.step size bufferSize label = some next) : next.Kept := by
  obtain ⟨stream, hs, rfl⟩ := map_eq_some_iff.mp hstep
  have he := step_effect hs
  cases hh : u.stream.present with
  | false =>
    have hg : ¬stream.present := fun hb => by
      rw [he.present hb] at hh
      cases hh
    refine ⟨?_, fun hb => absurd hb hg, fun hb => absurd hb hg, fun hb => absurd hb hg, fun hb => absurd hb hg⟩
    intro written halfClosed hc
    rw [accepts_of_closed (.inl hh), append_nil]
    exact h.complete written halfClosed hc
  | true =>
    cases hnow : stream.present with
    | true =>
      obtain ⟨hsealed, ha⟩ := effect_stays he hnow (h.frames hh)
      refine ⟨?_, fun _ => ?_, fun _ => ?_, fun _ => hsealed,
        fun _ => effect_drained he hnow (h.frames hh) (h.drained hh)⟩
      · intro written halfClosed hc
        simp only [Bool.true_eq_false, and_false, if_false, h.live hh] at hc
        cases hc
      · simp only [Bool.true_eq_false, and_false, if_false, h.live hh]
      · rw [append_assoc, ha, ← append_assoc, h.account hh]
    | false =>
      have hg : ¬stream.present = true := by simp [hnow]
      have hcompletes : u.stream.completes label := by
        rcases ho with hdone | hsame
        · exact hdone
        · rw [hs] at hsame; simp [hnow, hh] at hsame
      obtain ⟨hw, hn, haccepts, hclosedWrite⟩ :=
        step_completes hs hh hnow hcompletes (h.frames hh) (fun hc => (h.drained hh hc).1) (by
          rintro outcome rfl hr hhalf
          exact hd hr hhalf)
      refine ⟨?_, fun hb => absurd hb hg, fun hb => absurd hb hg, fun hb => absurd hb hg, fun hb => absurd hb hg⟩
      intro written halfClosed hc
      obtain ⟨rfl, rfl⟩ := hc
      have ha := h.account hh
      rw [hn, append_nil] at ha
      exact ⟨by rw [hw, haccepts, ha], by rw [hclosedWrite, Bool.true_or]⟩

theorem orderly_end_writes_upload (size : π → ℕ) (bufferSize initialWindow : ℕ) (labels : List (ClientLabel π))
    (halong : Along (step size bufferSize) (fun u label => u.Orderly size bufferSize label ∧ u.Drained label)
      (opened initialWindow) labels) : Always (step size bufferSize) Complete (opened initialWindow) labels := by
  have hstep : ∀ u label next, Kept u → u.Orderly size bufferSize label ∧ u.Drained label →
      u.step size bufferSize label = some next → next.Kept :=
    fun _ _ _ h hguard hstep => step_kept h hguard.1 hguard.2 hstep
  exact (always_of_invariant hstep _ labels (kept_opened initialWindow) halong).mono fun _ h => h.complete

def closingRun (drain : List (ClientLabel Bool)) : List (ClientLabel Bool) :=
  [.data true, .halfClose, .pushHalfClose] ++ drain ++ [.relay .ok, .relay .ok, .readEnd false, .relay .ok]

theorem drained_upload_is_written :
    Always (step (fun _ => 1) 32768) Complete (opened 262144) (closingRun (List.replicate 5 (.pump .ok))) :=
  orderly_end_writes_upload (fun _ => 1) 32768 262144 _ (by decide +kernel)

-- The Agent's end of file comes before the pump has run. The payload is dropped
-- with the queue, and `CloseWrite` is never called.
theorem agent_end_drops_upload : ∃ final, run (step (fun _ => 1) 32768) (opened 262144) (closingRun []) = some final ∧
      Along (step (fun _ => 1) 32768) (Orderly (fun _ => 1) 32768) (opened 262144) (closingRun []) ∧
        final.accepted = [true] ∧ final.closedAfter = some ([], false) :=
  exists_run_of_any (by decide +kernel)

end Upload

end TunnelMesh.Relay
