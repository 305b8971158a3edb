import TunnelMesh.Agent.StreamEntry.Effect
import TunnelMesh.Transition

namespace TunnelMesh.Agent

open Protocol Session StreamEntry Intake List Transition Option

variable {π : Type} {size : π → ℕ}

def Pump.payloads : Pump π → List π
  | .writing payload => [payload]
  | _ => []

def Pump.isBetween : Pump π → Bool
  | .popping | .releasing _ | .flushing _ | .posting _ => true
  | .writing _ | .closing | .stopped => false

theorem Pump.payloads_of_between {pump : Pump π} (h : pump.isBetween) : pump.payloads = [] := by
  cases pump with
  | writing payload => cases h
  | _ => rfl

def Back.isEnding : Back π → Bool
  | .ending => true
  | _ => false

def Intake.unwritten (q : Intake π) : List π := q.pump.payloads ++ q.inbound.frames.filterMap id

namespace StreamEntry

def admits (size : π → ℕ) (e : StreamEntry π) : EntryLabel π → List π
  | .data payload =>
    if e.present ∧ e.localHalf = false then
      match e.intake.admitInbound size payload with
      | .ok _ => [payload]
      | .error _ => []
    else []
  | _ => []

def writes (e : StreamEntry π) : EntryLabel π → List π
  | .pump _ => e.intake.pump.payloads
  | _ => []

end StreamEntry

-- An entry and its target, whose connection is closed when the entry is
-- dropped. Recorded are the payloads admitted, those handed to the target, and
-- those handed over when the connection was closed.
structure Delivery (π : Type) where
  entry : StreamEntry π
  admitted : List π
  written : List π
  closedAfter : Option (List π)

namespace Delivery

def opened (inboundBytes window : ℕ) : Delivery π := ⟨.opened inboundBytes window, [], [], none⟩

def step (size : π → ℕ) (bufferSize : ℕ) (d : Delivery π) (label : EntryLabel π) : Option (Delivery π) :=
  (d.entry.step size bufferSize label).map fun moved =>
    let written := d.written ++ d.entry.writes label
    { entry := moved.entry
      admitted := d.admitted ++ d.entry.admits size label
      written
      closedAfter := if d.entry.present ∧ moved.entry.present = false then some written else d.closedAfter }

def Orderly (size : π → ℕ) (bufferSize : ℕ) (d : Delivery π) (label : EntryLabel π) : Prop :=
  label ≠ .retire ∧ (d.entry.step size bufferSize label).all (fun moved => !moved.reset)

def Drained (d : Delivery π) : EntryLabel π → Prop
  | .back _ => d.entry.back.isEnding → d.entry.localHalf → d.entry.intake.unwritten = []
  | _ => True

instance [DecidableEq π] (size : π → ℕ) (bufferSize : ℕ) (d : Delivery π) (label : EntryLabel π) :
    Decidable (d.Orderly size bufferSize label) := inferInstanceAs (Decidable (_ ∧ _))

instance [DecidableEq π] (d : Delivery π) (label : EntryLabel π) : Decidable (d.Drained label) := by
  cases label <;> dsimp only [Drained] <;> infer_instance

def Complete (d : Delivery π) : Prop := ∀ written, d.closedAfter = some written → written = d.admitted

variable (q : Intake π)

structure Sealed (localHalf : Bool) : Prop where
  frames : ∃ (payloads : List π) (last : List (Option π)), q.inbound.frames = payloads.map some ++ last ∧
    (last = [] ∨ last = [none] ∧ localHalf)
  closing : q.pump = .closing → q.inbound.frames = [] ∧ localHalf

structure Kept (d : Delivery π) : Prop where
  status : d.entry.sendState.status = .opened
  complete : d.Complete
  live : d.entry.present → d.closedAfter = none
  account : d.entry.present → d.written ++ d.entry.intake.unwritten = d.admitted
  frames : d.entry.present → Sealed d.entry.intake d.entry.localHalf

variable {d next : Delivery π}

theorem kept_opened (inboundBytes window : ℕ) : (opened inboundBytes window : Delivery π).Kept where
  status := rfl
  complete := nofun
  live := fun _ => rfl
  account := fun _ => rfl
  frames := fun _ => ⟨⟨[], [], rfl, .inl rfl⟩, nofun⟩

theorem admitInbound_sealed {q after : Intake π} (h : Sealed q false)
    (hok : q.admitInbound size payload = .ok after) : Sealed after false := by
  obtain ⟨-, rfl⟩ := admitInbound_ok hok
  obtain ⟨payloads, last, hq, hl⟩ := h.frames
  have hn : last = [] := hl.resolve_right (by simp)
  refine ⟨⟨payloads ++ [payload], [], by simp [hq, hn], .inl rfl⟩, fun hc => ?_⟩
  exact absurd (h.closing hc).2 (by simp)

theorem halfClose_sealed {q : Intake π} (h : Sealed q false) :
    Sealed { q with inbound := (q.inbound.tryPush (frameSize size) none).getD q.inbound } true := by
  obtain ⟨payloads, last, hq, hl⟩ := h.frames
  have hn : last = [] := hl.resolve_right (by simp)
  refine ⟨?_, fun hc => absurd (h.closing hc).2 (by simp)⟩
  cases hp : q.inbound.tryPush (frameSize size) none with
  | none => exact ⟨payloads, last, hq, .inl hn⟩
  | some inbound =>
    refine ⟨payloads, [none], ?_, .inr ⟨rfl, rfl⟩⟩
    simp only [getD_some, FrameQueue.tryPush_eq_some hp, hq, hn, append_nil]

theorem halfClose_unwritten :
    unwritten { q with inbound := (q.inbound.tryPush (frameSize size) none).getD q.inbound } = q.unwritten := by
  cases hp : q.inbound.tryPush (frameSize size) none with
  | none => rfl
  | some inbound => simp [unwritten, FrameQueue.tryPush_eq_some hp]

theorem pop_sealed {q after : Intake π} {localHalf : Bool} (hp : q.pump = .popping) (h : Sealed q localHalf)
    (hpop : q.pop = some after) : Sealed after localHalf ∧ after.unwritten = q.unwritten := by
  obtain ⟨payloads, last, hq, hl⟩ := h.frames
  cases pop_popped hpop with
  | payload hf =>
    refine ⟨⟨?_, nofun⟩, by simp [unwritten, hp, Pump.payloads, hf]⟩
    rw [hf] at hq
    cases payloads with
    | nil =>
      rcases hl with rfl | ⟨rfl, -⟩
      · cases hq
      · cases hq
    | cons first rest => obtain ⟨-, hr⟩ := cons.inj hq; exact ⟨rest, last, hr, hl⟩
  | half hf =>
    rw [hf] at hq
    -- The HALF_CLOSE was the last frame, and the queue is now empty.
    cases payloads with
    | nil =>
      rcases hl with rfl | ⟨rfl, hh⟩
      · cases hq
      · obtain ⟨-, hr⟩ := cons.inj hq
        refine ⟨⟨⟨[], [], hr, .inl rfl⟩, fun _ => ⟨hr, hh⟩⟩, ?_⟩
        simp [unwritten, hp, Pump.payloads, hf]
    | cons first rest => cases hq
  | nothing => exact ⟨⟨h.frames, nofun⟩, by simp [unwritten, hp, Pump.payloads]⟩

theorem between_sealed {q after : Intake π} {localHalf : Bool} (h : Sealed q localHalf)
    (hi : after.inbound = q.inbound) (hp : after.pump.isBetween) :
    Sealed after localHalf ∧ after.unwritten = q.inbound.frames.filterMap id := by
  refine ⟨⟨by rw [hi]; exact h.frames, fun hc => ?_⟩, ?_⟩
  · rw [hc] at hp; cases hp
  · rw [unwritten, hi, Pump.payloads_of_between hp, nil_append]

theorem release_between (written : ℕ) : (q.releaseReceiveWindow written).inbound = q.inbound ∧
      (q.releaseReceiveWindow written).pump.isBetween := by
  unfold releaseReceiveWindow
  split
  · exact ⟨rfl, rfl⟩
  · simp only; split <;> exact ⟨rfl, rfl⟩

theorem add_between (update : ℕ) :
    (q.addReceiveWindow update).inbound = q.inbound ∧ (q.addReceiveWindow update).pump.isBetween := by
  unfold addReceiveWindow
  split <;> exact ⟨rfl, rfl⟩

variable {e : StreamEntry π}

theorem effect_account (he : Effect size e label moved) (hpresent : moved.entry.present)
    (h : Sealed e.intake e.localHalf) : Sealed moved.entry.intake moved.entry.localHalf ∧
      e.writes label ++ moved.entry.intake.unwritten = e.intake.unwritten ++ e.admits size label := by
  -- The pump moves on and neither takes nor hands over a payload.
  have hb : ∀ (intake : Intake π) (outcome : Outcome), e.intake.pump.payloads = [] →
      intake.inbound = e.intake.inbound → intake.pump.isBetween → Sealed intake e.localHalf ∧
        e.writes (.pump outcome) ++ intake.unwritten = e.intake.unwritten ++ e.admits size (.pump outcome) := by
    intro intake outcome hn hi hp
    obtain ⟨hs, hr⟩ := between_sealed h hi hp
    refine ⟨hs, ?_⟩
    rw [hr, writes, unwritten, hn]
    simp [admits]
  cases he with
  | admitted hh ho hok =>
    rw [ho] at h
    refine ⟨?_, ?_⟩
    · simp only [quietly, ho]; exact admitInbound_sealed h hok
    · simp only [admits, hh, ho, and_self, if_true, hok]
      obtain ⟨-, rfl⟩ := admitInbound_ok hok
      simp [quietly, writes, unwritten]
  | halfClosed hh ho =>
    rw [ho] at h
    refine ⟨halfClose_sealed h, ?_⟩
    simp only [quietly, writes, admits, append_nil, nil_append]
    exact halfClose_unwritten e.intake
  | popped hp hpop =>
    obtain ⟨hs, hsame⟩ := pop_sealed hp h hpop
    refine ⟨hs, ?_⟩
    simp only [quietly, writes, hp, Pump.payloads, admits, append_nil, nil_append]
    exact hsame
  | wrote hp =>
    refine ⟨⟨h.frames, nofun⟩, ?_⟩
    simp [quietly, writes, unwritten, hp, Pump.payloads, admits]
  | closedWrite hp | posted hp | lost hp => exact hb _ _ (by rw [hp]; rfl) rfl rfl
  | completed | ended => cases hpresent
  | released hp => exact hb _ _ (by rw [hp]; rfl) (release_between _ _).1 (release_between _ _).2
  | added hp => exact hb _ _ (by rw [hp]; rfl) (add_between _ _).1 (add_between _ _).2
  | aside hl hd hintake hsame hhalf =>
    have hn : e.writes label = [] ∧ e.admits size label = [] := by
      cases label with
      | pump outcome => exact absurd rfl (hl outcome)
      | data payload => exact absurd rfl (hd (hsame ▸ hpresent) payload)
      | _ => exact ⟨rfl, rfl⟩
    rw [hintake, hhalf, hn.1, hn.2, append_nil, nil_append]
    exact ⟨h, rfl⟩
  | dropped hg => rw [hg] at hpresent; cases hpresent

theorem admits_of_absent (h : e.present = false) : e.admits size label = [] := by
  cases label with
  | data payload => simp [admits, h]
  | _ => rfl

theorem effect_leaves (he : Effect size e label moved) (hs : e.sendState.status = .opened)
    (hh : e.present) (hg : moved.entry.present = false) (ho : label ≠ .retire ∧ moved.reset = false)
    (hd : e.back.isEnding → e.localHalf → (∃ outcome, label = .back outcome) → e.intake.unwritten = [])
    (h : Sealed e.intake e.localHalf) : e.writes label = e.intake.unwritten ++ e.admits size label := by
  cases he with
  | completed hp => rw [writes, unwritten, hp, (h.closing hp).1]; rfl
  | ended _ hb hhalf => rw [hd (by rw [hb]; rfl) hhalf ⟨_, rfl⟩]; rfl
  | dropped _ _ _ hreason =>
    rcases hreason with hr | hretire | hc
    · rw [ho.2] at hr; cases hr
    · exact absurd hretire ho.1
    · exact absurd hs hc
  | aside _ _ _ hsame => rw [hsame, hh] at hg; cases hg
  | _ => simp only [quietly, hh] at hg; cases hg

theorem present_of_effect (he : Effect size e label moved) (h : moved.entry.present) : e.present := by
  cases he with
  | aside _ _ _ hs => exact hs ▸ h
  | dropped hg => rw [hg] at h; cases h
  | completed | ended => cases h
  | _ => exact h

theorem step_kept (h : d.Kept) (ho : d.Orderly size bufferSize label) (hd : d.Drained label)
    (hstep : d.step size bufferSize label = some next) : next.Kept := by
  obtain ⟨moved, hm, rfl⟩ := map_eq_some_iff.mp hstep
  have he := step_effect hm
  have hq : label ≠ .retire ∧ moved.reset = false := by
    obtain ⟨hl, hr⟩ := ho
    rw [hm] at hr
    exact ⟨hl, by simpa using hr⟩
  cases hh : d.entry.present with
  | false =>
    -- A stream that has left stays away and admits nothing.
    have hg : moved.entry.present ≠ true := fun hb => by
      rw [present_of_effect he hb] at hh
      cases hh
    refine ⟨he.status.trans h.status, ?_, fun hb => absurd hb hg, fun hb => absurd hb hg, fun hb => absurd hb hg⟩
    intro written hc
    rw [h.complete written hc, admits_of_absent hh, append_nil]
  | true =>
    cases hnow : moved.entry.present with
    | true =>
      obtain ⟨hs, ha⟩ := effect_account he hnow (h.frames hh)
      refine ⟨he.status.trans h.status, ?_, fun _ => ?_, fun _ => ?_, fun _ => hs⟩
      · intro written hc
        simp only [Bool.true_eq_false, and_false, if_false, h.live hh] at hc
        cases hc
      · simp only [Bool.true_eq_false, and_false, if_false, h.live hh]
      · calc
          d.written ++ d.entry.writes label ++ moved.entry.intake.unwritten =
              d.written ++ (d.entry.writes label ++ moved.entry.intake.unwritten) := append_assoc ..
          _ = d.written ++ (d.entry.intake.unwritten ++ d.entry.admits size label) := by rw [ha]
          _ = d.written ++ d.entry.intake.unwritten ++ d.entry.admits size label :=
              (append_assoc ..).symm
          _ = d.admitted ++ d.entry.admits size label := by rw [h.account hh]
    | false =>
      have hg : ¬moved.entry.present = true := by simp [hnow]
      have hlast : d.entry.writes label = d.entry.intake.unwritten ++ d.entry.admits size label := by
        refine effect_leaves he h.status hh hnow hq ?_ (h.frames hh)
        rintro hending hhalf ⟨outcome, rfl⟩
        exact hd hending hhalf
      refine ⟨he.status.trans h.status, ?_, fun hb => absurd hb hg, fun hb => absurd hb hg, fun hb => absurd hb hg⟩
      intro written hc
      simp only [and_self, if_true, some.injEq] at hc
      rw [← hc, hlast, ← append_assoc, h.account hh]

theorem orderly_close_delivers (size : π → ℕ) (bufferSize inboundBytes window : ℕ) (labels : List (EntryLabel π))
    (halong : Along (step size bufferSize) (fun d label => d.Orderly size bufferSize label ∧ d.Drained label)
      (opened inboundBytes window) labels) :
    Always (step size bufferSize) Complete (opened inboundBytes window) labels := by
  have hstep : ∀ d label next, Kept d → d.Orderly size bufferSize label ∧ d.Drained label →
      d.step size bufferSize label = some next → next.Kept :=
    fun _ _ _ h hguard hstep => step_kept h hguard.1 hguard.2 hstep
  exact (always_of_invariant hstep _ labels (kept_opened inboundBytes window) halong).mono
    fun _ h => h.complete

def closingRun (drain : List (EntryLabel Bool)) : List (EntryLabel Bool) :=
  [.data true, .halfClose] ++ drain ++ [.targetEnd, .back .ok]

theorem drained_stream_delivers :
    Always (step (fun _ => 1) 0) Complete (opened 8 8) (closingRun (List.replicate 5 (.pump .ok))) :=
  orderly_close_delivers (fun _ => 1) 0 8 8 _ (by decide +kernel)

-- The target ends its side before the pump has run. The connection is closed
-- and the payload is still in the queue.
theorem target_end_drops_payload : ∃ final, run (step (fun _ => 1) 0) (opened 8 8) (closingRun []) = some final ∧
      Along (step (fun _ => 1) 0) (Orderly (fun _ => 1) 0) (opened 8 8) (closingRun []) ∧
      final.admitted = [true] ∧ final.closedAfter = some [] :=
  exists_run_of_any (by decide +kernel)

end Delivery

end TunnelMesh.Agent
