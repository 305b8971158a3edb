import TunnelMesh.Agent.StreamDispatcher

namespace TunnelMesh.Agent

open Session Target FrameReader FrameQueue Option List Transition

variable {π : Type} {size : π → ℕ} {inboundBytes : ℕ}

-- In a line of frames, `covered` holds of the payloads before each HALF_CLOSE,
-- those in `seen` included.
def Ahead (covered : List π → Prop) : List π → List (Option π) → Prop
  | _, [] => True
  | seen, some payload :: rest => Ahead covered (seen ++ [payload]) rest
  | seen, none :: rest => covered seen ∧ Ahead covered seen rest

section Ahead

variable {covered : List π → Prop}

theorem Ahead.mono {wider : List π → Prop} (himp : ∀ l, covered l → wider l)
    (h : Ahead covered seen line) : Ahead wider seen line := by
  induction line generalizing seen with
  | nil => trivial
  | cons frame rest ih =>
    cases frame with
    | none => exact ⟨himp seen h.1, ih h.2⟩
    | some payload => exact ih h

theorem ahead_append (first second : List (Option π)) : Ahead covered seen (first ++ second) ↔
      Ahead covered seen first ∧ Ahead covered (seen ++ first.filterMap id) second := by
  induction first generalizing seen with
  | nil => simp [Ahead]
  | cons frame rest ih =>
    cases frame with
    | none => simp [Ahead, ih, and_assoc]
    | some payload => simp [Ahead, ih]

end Ahead

namespace Target

def line (t : Target π) : List (Option π) := t.hand.toList ++ t.inbound.frames

def unwritten (t : Target π) : List π := t.line.filterMap id

-- The payloads come out in the order they were received in. `rest` is received
-- and not yet admitted.
structure Delivers (covered : List π → Prop) (received rest : List π) (t : Target π) : Prop where
  start : t.written ++ t.unwritten <+: received
  whole : t.present → t.written ++ t.unwritten ++ rest = received
  gone : t.present = false → t.inbound.closed
  half : Ahead covered t.written t.line
  done : ∀ written ∈ t.closedAfter, covered written

variable {t next : Target π} {covered : List π → Prop} {received rest : List π}

theorem delivers_opened (token : ℕ) (strict : Bool) (inboundBytes : ℕ) (covered : List π → Prop) (received : List π) :
    (opened token strict inboundBytes).Delivers covered received received where
  start := nil_prefix
  whole := fun _ => rfl
  gone := nofun
  half := trivial
  done := nofun

section

variable (h : t.Delivers covered received rest)

include h

theorem Delivers.removeAndClose (other : List π) : t.removeAndClose.Delivers covered received other := by
  have hl : t.line = t.removeAndClose.line ++ t.inbound.frames := by
    simp [line, Target.removeAndClose]
  obtain ⟨hh, -⟩ := (ahead_append _ _).mp (hl ▸ h.half)
  refine ⟨?_, nofun, fun _ => rfl, hh, h.done⟩
  have hp : t.unwritten = t.removeAndClose.unwritten ++ t.inbound.frames.filterMap id := by
    rw [unwritten, hl, filterMap_append, unwritten]
  refine (prefix_append _ (t.inbound.frames.filterMap id)).trans ?_
  rw [append_assoc, ← hp]
  exact h.start

theorem Delivers.same {t' : Target π} (hu : t'.written ++ t'.unwritten = t.written ++ t.unwritten)
    (hp : t'.present = t.present) (hc : t'.inbound.closed = t.inbound.closed) (hh : Ahead covered t'.written t'.line)
    (hd : t'.closedAfter = t.closedAfter) : t'.Delivers covered received rest := by
  refine ⟨?_, ?_, ?_, hh, hd ▸ h.done⟩
  · exact hu ▸ h.start
  · exact hu ▸ hp ▸ h.whole
  · exact hp ▸ hc ▸ h.gone

theorem Delivers.finish (other : List π) : t.finish.Delivers covered received other :=
  { h with whole := nofun, gone := fun _ => rfl }

theorem push_open {inbound : FrameQueue (Option π)} (hp : t.inbound.tryPush (frameSize size) frame = some inbound) :
    t.present ∧ inbound.frames = t.inbound.frames ++ [frame] := by
  refine ⟨?_, by rw [tryPush_eq_some hp]⟩
  by_contra hg
  rw [tryPush, if_pos (h.gone (by simpa using hg))] at hp
  cases hp

end

theorem unwritten_admitInbound (hok : t.admitInbound size credit payload = some next) :
    next.written ++ next.unwritten = t.written ++ t.unwritten ++ [payload] := by
  simp only [admitInbound, ite_none_right_eq_some] at hok
  obtain ⟨inbound, hp, rfl⟩ := map_eq_some_iff.mp hok.2
  rw [tryPush_eq_some hp]
  simp [unwritten, line]

theorem Delivers.admitted {credit : Bool} (h : t.Delivers covered received (payload :: rest))
    (hok : t.admitInbound size credit payload = some next) : next.Delivers covered received rest := by
  have hpayloads := unwritten_admitInbound hok
  simp only [admitInbound, ite_none_right_eq_some] at hok
  obtain ⟨inbound, hpush, rfl⟩ := map_eq_some_iff.mp hok.2
  obtain ⟨hp, hf⟩ := push_open h hpush
  have hl : line { t with inbound } = t.line ++ [some payload] := by simp [line, hf]
  have hw : t.written ++ unwritten { t with inbound } ++ rest = received := by
    rw [← h.whole hp, hpayloads, append_assoc, singleton_append]
  refine ⟨hw ▸ prefix_append _ rest, fun _ => hw, fun hg => ?_, ?_, h.done⟩
  · exact absurd hp (by simpa using hg)
  · rw [hl]; exact (ahead_append _ _).mpr ⟨h.half, trivial⟩

section

variable (h : t.Delivers covered received rest)

include h

namespace Delivers

theorem halfClosed (hc : t.present → covered (t.written ++ t.unwritten)) :
    (t.handleHalfClose size).Delivers covered received rest := by
  unfold handleHalfClose
  split
  · exact h
  cases hpush : t.inbound.tryPush (frameSize size) none with
  | none => exact { h with }
  | some inbound =>
    obtain ⟨hpresent, hf⟩ := push_open h hpush
    have hl : line { t with localHalf := true, inbound } = t.line ++ [none] := by simp [line, hf]
    refine h.same (by simp [unwritten, hl]) rfl (by rw [tryPush_eq_some hpush]; rfl) ?_ rfl
    rw [getD_some, hl]
    exact (ahead_append _ _).mpr ⟨h.half, hc hpresent, trivial⟩

theorem wrote (hhand : t.hand = some (some payload)) :
    Delivers covered received rest { t with hand := none, written := t.written ++ [payload] } := by
  have hl : t.line = some payload :: t.inbound.frames := by rw [line, hhand]; rfl
  have hh := h.half
  rw [hl] at hh
  exact h.same (by simp [unwritten, line, hhand]) rfl rfl hh rfl

theorem closing (hhand : t.hand = some none) :
    covered t.written ∧ Delivers covered received rest { t with hand := none } := by
  have hl : t.line = none :: t.inbound.frames := by rw [line, hhand]; rfl
  have hh := h.half
  rw [hl] at hh
  exact ⟨hh.1, h.same (by simp [unwritten, line, hhand]) rfl rfl hh.2 rfl⟩

theorem mono {wider : List π → Prop} (himp : ∀ l, covered l → wider l) : t.Delivers wider received rest :=
  { h with half := h.half.mono himp, done := fun written hw => himp written (h.done written hw) }

theorem receive {wider : List π → Prop} (himp : ∀ l, covered l → wider l) (payload : π) :
    t.Delivers wider (received ++ [payload]) (rest ++ [payload]) :=
  { h.mono himp with
    start := h.start.trans (prefix_append _ _)
    whole := fun hh => by rw [← append_assoc, h.whole hh] }

theorem pumped (hs : t.pumpTarget outcome = some next) : next.Delivers covered received rest := by
  unfold pumpTarget at hs
  split at hs
  · next hh =>
    -- The frame goes from the queue to the hand.
    obtain ⟨⟨frame, inbound⟩, hpop, rfl⟩ := map_eq_some_iff.mp hs
    obtain ⟨hf, hq⟩ := pop_eq_some hpop
    have hl : line { t with inbound, hand := some frame } = t.line := by simp [line, hh, hf]
    exact h.same (by rw [unwritten, hl, unwritten]) rfl (by rw [hq]) (hl ▸ h.half) rfl
  · next payload hh =>
    cases hs
    exact h.wrote hh
  · next payload hh =>
    cases hs
    exact (h.wrote hh).removeAndClose rest
  · next hh =>
    cases hs
    obtain ⟨hnow, hlater⟩ := h.closing hh
    refine { hlater with done := ?_ }
    intro written hw
    cases hc : t.closedAfter with
    | none => simp only [hc, getD_none, mem_def, some.injEq] at hw; exact hw ▸ hnow
    | some first => simp only [hc, getD_some, mem_def, some.injEq] at hw; exact hw ▸ h.done first hc
  · next hh =>
    cases hs
    exact (h.closing hh).2.removeAndClose rest

theorem of_gone (hg : t.present = false) (other : List π) : t.Delivers covered received other :=
  { h with whole := fun hh => absurd hh (by simp [hg]) }

end Delivers

end

end Target

def DialStage.early : DialStage π → List π
  | .opening early _ => early
  | .dialing | .dialed _ | .finished => []

def DialStage.halfClosed : DialStage π → Bool
  | .opening _ halfClosed => halfClosed
  | .dialing | .dialed _ | .finished => false

namespace FrameReader

def admitted : FrameReader π → List π
  | .admitting payload => [payload]
  | .idle | .submitting | .buffering _ | .refusing | .halfClosing => []

def buffered : FrameReader π → List π
  | .buffering payload => [payload]
  | .idle | .submitting | .admitting _ | .refusing | .halfClosing => []

def onTarget : FrameReader π → Bool
  | .admitting _ | .halfClosing => true
  | .idle | .submitting | .buffering _ | .refusing => false

theorem admitted_of_not_onTarget {reader : FrameReader π} (h : reader.onTarget = false) : reader.admitted = [] := by
  cases reader with
  | admitting payload => cases h
  | _ => rfl

end FrameReader

namespace StreamSlot

def early (s : StreamSlot π) : List π := s.job.elim [] (·.stage.early)

def earlyHalf (s : StreamSlot π) : Bool := s.job.any (·.stage.halfClosed)

def Covered (s : StreamSlot π) (payloads : List π) : Prop := ∃ n ∈ s.halfAt, s.received.take n <+: payloads

def Ordered (s : StreamSlot π) : Prop :=
  ∀ t ∈ s.target, t.strict = false → t.written <+: s.received ∧ ∀ written ∈ t.closedAfter, s.Covered written

-- `Handle` passes no frame to a target that still waits for early DATA. The
-- section of `completeDial` finds the stream pending, and no payload between
-- the two sections of `Handle`.
def Calm (s : StreamSlot π) : SlotLabel π → Prop
  | .handle _ => s.reader.onTarget → s.early = []
  | .completeDial => s.holdsConnection → s.pending.isSome ∧ s.reader.buffered = []
  | _ => True

structure InOrder (s : StreamSlot π) : Prop where
  half_le : ∀ n ∈ s.halfAt, n ≤ s.received.length
  pending : ∀ p ∈ s.pending, s.isLive = false ∧ s.reader.onTarget = false ∧
    (p.strict = false → p.data ++ s.reader.buffered = s.received) ∧ (p.halfClosed → s.halfAt.isSome)
  refusing : s.reader = .refusing → ∀ p ∈ s.pending, p.strict
  buffering : s.reader.buffered ≠ [] → s.isLive = false
  halfClosing : s.reader = .halfClosing → s.halfAt.isSome
  target : ∀ t ∈ s.target, t.strict = false → t.Delivers s.Covered s.received (s.early ++ s.reader.admitted)
  closing : ∀ t ∈ s.target, t.strict = false → t.present → s.earlyHalf → s.Covered (t.written ++ t.unwritten ++ s.early)

theorem inOrder_empty : (empty : StreamSlot π).InOrder where
  half_le := nofun
  pending := nofun
  refusing := nofun
  buffering := fun h => absurd rfl h
  halfClosing := nofun
  target := nofun
  closing := nofun

variable {s next : StreamSlot π}

theorem InOrder.ordered (h : s.InOrder) : s.Ordered := by
  intro t ht hs
  have hd := h.target t ht hs
  exact ⟨(prefix_append _ _).trans hd.start, hd.done⟩

theorem Covered.append (h : s.Covered payloads) (more : List π) : s.Covered (payloads ++ more) := by
  obtain ⟨n, hn, hp⟩ := h
  exact ⟨n, hn, hp.trans (prefix_append _ _)⟩

theorem covered_received (h : s.halfAt.isSome) : s.Covered s.received := by
  obtain ⟨n, hn⟩ := isSome_iff_exists.mp h
  exact ⟨n, hn, take_prefix _ _⟩

section

variable (h : s.InOrder)

include h

namespace InOrder

theorem retarget {target : Option (Target π)} (hm : ∀ t' ∈ target, ∃ t ∈ s.target, t.Same t' ∧
      (t.strict = false → t.Delivers s.Covered s.received (s.early ++ s.reader.admitted) →
        t'.Delivers s.Covered s.received (s.early ++ s.reader.admitted))) : InOrder { s with target } := by
  have hl : s.isLive = false → isLive { s with target } = false := by
    intro hg
    cases htarget : target with
    | none => rfl
    | some t' =>
      obtain ⟨t, ht, hsame, -⟩ := hm t' htarget
      rw [mem_def] at ht
      simp only [isLive, ht, any_some] at hg ⊢
      by_contra hh
      rw [hsame.present (by simpa using hh)] at hg
      cases hg
  refine ⟨h.half_le, fun p hp => ?_, h.refusing, fun hbuffered => hl (h.buffering hbuffered), h.halfClosing,
    fun t' ht' hstrict => ?_, fun t' ht' hstrict hh hhalf => ?_⟩
  · obtain ⟨hg, hr⟩ := h.pending p hp; exact ⟨hl hg, hr⟩
  · obtain ⟨t, ht, hsame, hd⟩ := hm t' ht'
    have hs := hsame.strict ▸ hstrict
    exact hd hs (h.target t ht hs)
  · -- What has been admitted is all but the rest, before the step and after it.
    obtain ⟨t, ht, hsame, hd⟩ := hm t' ht'
    have hs := hsame.strict ▸ hstrict
    have hb := h.target t ht hs
    have ha := hd hs hb
    have he := append_cancel_right ((ha.whole hh).trans (hb.whole (hsame.present hh)).symm)
    have hc := h.closing t ht hs (hsame.present hh) hhalf
    rw [← he] at hc
    exact hc

theorem removeAndClose : InOrder { s with target := s.target.map (·.removeAndClose) } := by
  refine h.retarget fun t' ht' => ?_
  obtain ⟨t, ht, rfl⟩ := map_eq_some_iff.mp ht'
  exact ⟨t, ht, t.same_removeAndClose, fun _ hd => hd.removeAndClose _⟩

theorem closeTarget : s.closeTarget.InOrder := by
  refine h.retarget fun t' ht' => ?_
  obtain ⟨t, ht, hs, rfl | rfl⟩ := closeTarget_target s t' ht'
  · exact ⟨t, ht, hs, fun _ hd => hd.removeAndClose _⟩
  · exact ⟨t', ht, hs, fun _ hd => hd⟩

theorem halfClose (hc : ∀ t ∈ s.target, t.strict = false → t.present → s.Covered (t.written ++ t.unwritten)) :
    InOrder { s with target := s.target.map (·.handleHalfClose size) } := by
  refine h.retarget fun t' ht' => ?_
  obtain ⟨t, ht, rfl⟩ := map_eq_some_iff.mp ht'
  exact ⟨t, ht, t.same_handleHalfClose size, fun hlax hd => hd.halfClosed (hc t ht hlax)⟩

theorem without_pending (removed : List ℕ) : InOrder { s with pending := none, removed } :=
  { h with pending := nofun, refusing := nofun }

theorem with_job {job : Option (DialJob π)} (he : job.elim [] (·.stage.early) = s.early)
    (hh : job.any (·.stage.halfClosed) → s.earlyHalf) : InOrder { s with job } := by
  have hsame : early { s with job } = s.early := he
  refine ⟨h.half_le, h.pending, h.refusing, h.buffering, h.halfClosing, fun t ht hs => ?_, fun t ht hs hhere hc => ?_⟩
  · rw [hsame]; exact h.target t ht hs
  · rw [hsame]; exact h.closing t ht hs hhere (hh hc)

theorem with_idle (ha : s.reader.admitted = [])
    (hb : s.reader.buffered = [] ∨ s.pending = none) : InOrder { s with reader := .idle } := by
  refine ⟨h.half_le, fun p hp => ?_, nofun, fun hn => absurd rfl hn, nofun, fun t ht hs => ?_, h.closing⟩
  · obtain ⟨hg, -, hdata, hh⟩ := h.pending p hp
    refine ⟨hg, rfl, fun hs => ?_, hh⟩
    rcases hb with hn | hn
    · rw [← hdata hs, hn]; rfl
    · rw [mem_def, hn] at hp; cases hp
  · have hd := h.target t ht hs
    rw [ha] at hd
    exact hd

end InOrder

theorem handleOpen_inOrder (strict : Bool) : (s.handleOpen strict).InOrder := by
  unfold handleOpen
  split
  · exact h
  · refine ⟨nofun, fun p hp => ?_, nofun, fun hn => absurd rfl hn, nofun, nofun, nofun⟩
    cases hp
    exact ⟨rfl, rfl, fun _ => rfl, nofun⟩

end

theorem present_of_not_live (ht : t ∈ s.target) (h : s.isLive = false) : t.present = false := by
  rw [isLive, mem_def.mp ht] at h
  exact h

section

variable (h : s.InOrder)

include h

theorem covered_receive (payload : π) (hc : s.Covered payloads) :
    Covered { s with received := s.received ++ [payload] } payloads := by
  obtain ⟨n, hn, hp⟩ := hc
  refine ⟨n, hn, ?_⟩
  have ht : (s.received ++ [payload]).take n = s.received.take n :=
    take_append_of_le_length (h.half_le n hn)
  exact ht ▸ hp

theorem half_le_receive (payload : π) : ∀ n ∈ s.halfAt, n ≤ (s.received ++ [payload]).length := by
  intro n hn
  have hle := h.half_le n hn
  rw [length_append]
  omega

theorem receive_target (hi : s.reader = .idle) (payload : π) (ht : t ∈ s.target) (hs : t.strict = false) :
    t.Delivers (Covered { s with received := s.received ++ [payload] }) (s.received ++ [payload])
      (s.early ++ [payload]) := by
  have hd := h.target t ht hs
  rw [hi, admitted, append_nil] at hd
  exact hd.receive (fun _ => covered_receive h payload) payload

theorem receive_closing (payload : π) (ht : t ∈ s.target) (hs : t.strict = false)
    (hh : t.present) (hhalf : s.earlyHalf) :
    Covered { s with received := s.received ++ [payload] } (t.written ++ t.unwritten ++ s.early) :=
  covered_receive h payload (h.closing t ht hs hh hhalf)

theorem receive_live (hi : s.reader = .idle) (hl : s.isLive) (payload : π) :
    InOrder { s with received := s.received ++ [payload], reader := .admitting payload } := by
  refine ⟨half_le_receive h payload, fun p hp => ?_, nofun, fun hb => absurd rfl hb, nofun,
    fun t ht hs => receive_target h hi payload ht hs,
    fun t ht hs hh hhalf => receive_closing h payload ht hs hh hhalf⟩
  have hg := (h.pending p hp).1
  rw [hl] at hg
  cases hg

theorem receive_gone (hi : s.reader = .idle) (hg : s.isLive = false) (payload : π)
    (reader : FrameReader π) (hpending : ∀ p ∈ s.pending, reader.onTarget = false ∧
      (p.strict = false → p.data ++ reader.buffered = s.received ++ [payload]))
    (hr : reader = .refusing → ∀ p ∈ s.pending, p.strict) (hh : reader ≠ .halfClosing) :
    InOrder { s with received := s.received ++ [payload], reader } := by
  refine ⟨half_le_receive h payload, fun p hp => ?_, hr, fun _ => hg, fun hc => absurd hc hh,
    fun t ht hs => ?_, fun t ht hs hhere hh => receive_closing h payload ht hs hhere hh⟩
  · exact ⟨hg, (hpending p hp).1, (hpending p hp).2, (h.pending p hp).2.2.2⟩
  · exact (receive_target h hi payload ht hs).of_gone (present_of_not_live ht hg) _

end

theorem closeTarget_isLive (s : StreamSlot π) : s.closeTarget.isLive = false := by
  cases ht : s.target with
  | none => simp [closeTarget, isLive, ht]
  | some t =>
    simp only [closeTarget, isLive, ht, map_some, any_some]
    split
    · rfl
    · next hg => simpa using hg

theorem handleData_inOrder (h : s.InOrder) (hi : s.reader = .idle) (payload : π) : (s.handleData payload).InOrder := by
  have hn : ∀ p ∈ s.pending, p.strict = false → p.data = s.received := by
    intro p hp hs
    have hd := (h.pending p hp).2.2.1 hs
    rwa [hi, buffered, append_nil] at hd
  cases hl : s.isLive with
  | true =>
    rw [handleData, if_pos (by exact hl)]
    split
    · -- The stream ends, and the payload goes nowhere.
      refine receive_gone h.closeTarget hi (closeTarget_isLive s) payload s.reader (fun p hp => ?_) ?_ ?_
      · have hg := (h.pending p hp).1
        rw [hl] at hg
        cases hg
      · simp [hi]
      · simp [hi]
    · exact receive_live h hi hl payload
  | false =>
    rw [handleData, if_neg (by rw [Bool.not_eq_true]; exact hl)]
    split
    · next pending hpending =>
      have hpending' : s.pending = some pending := hpending
      split
      · next hs =>
        refine receive_gone h hi hl payload .refusing (fun p hp => ?_) (fun _ p hp => ?_) nofun
        · obtain rfl : pending = p := some.inj (hpending'.symm.trans hp)
          exact ⟨rfl, fun hlax => absurd hs (by simp [hlax])⟩
        · obtain rfl : pending = p := some.inj (hpending'.symm.trans hp); exact hs
      · refine receive_gone h hi hl payload (.buffering payload) (fun p hp => ?_) nofun nofun
        exact ⟨rfl, fun hlax => by rw [hn p hp hlax]; rfl⟩
    · next hpending =>
      have hpending' : s.pending = none := hpending
      refine receive_gone h hi hl payload s.reader (fun p hp => ?_) ?_ ?_
      · rw [mem_def, hpending'] at hp; cases hp
      · simp [hi]
      · simp [hi]

theorem covered_half (payloads : List π) (h : s.Covered payloads) :
    Covered { s with halfAt := some (s.halfAt.getD s.received.length) } payloads := by
  obtain ⟨n, hn, hp⟩ := h
  exact ⟨n, by rw [mem_def.mp hn]; rfl, hp⟩

section

variable (h : s.InOrder)

include h

theorem InOrder.with_half : InOrder { s with halfAt := some (s.halfAt.getD s.received.length) } := by
  refine ⟨fun n hn => ?_, fun p hp => ?_, h.refusing, h.buffering, fun _ => rfl,
    fun t ht hs => (h.target t ht hs).mono fun _ => covered_half _,
    fun t ht hs hhere hh => covered_half _ (h.closing t ht hs hhere hh)⟩
  · cases hn
    cases hh : s.halfAt with
    | none => exact le_rfl
    | some m => exact h.half_le m hh
  · obtain ⟨hg, hr, hd, -⟩ := h.pending p hp; exact ⟨hg, hr, hd, fun _ => rfl⟩

theorem handleHalfClose_inOrder (hi : s.reader = .idle) : s.handleHalfClose.InOrder := by
  have hh := h.with_half
  cases hl : s.isLive with
  | true =>
    rw [handleHalfClose, if_pos (by exact hl)]
    split
    · exact hh
    refine ⟨hh.half_le, fun p hp => ?_, nofun, fun hb => absurd rfl hb, fun _ => rfl, fun t ht hs => ?_, hh.closing⟩
    · have hg := (h.pending p hp).1
      rw [hl] at hg
      cases hg
    · have hd := hh.target t ht hs
      rw [hi] at hd
      exact hd
  | false =>
    rw [handleHalfClose, if_neg (by rw [Bool.not_eq_true]; exact hl)]
    refine ⟨hh.half_le, fun p hp => ?_, fun hr => ?_, hh.buffering, fun _ => rfl, hh.target, hh.closing⟩
    · obtain ⟨before, hbefore, rfl⟩ := map_eq_some_iff.mp hp
      obtain ⟨hg, hreader, hdata, -⟩ := h.pending before hbefore
      exact ⟨hg, hreader, hdata, fun _ => rfl⟩
    · rw [hi] at hr; cases hr

theorem buffer_inOrder (hr : s.reader = .buffering payload) :
    ({ s with reader := .idle }.buffer size inboundBytes payload).InOrder := by
  have ha : s.reader.admitted = [] := by rw [hr]; rfl
  unfold buffer
  split
  · next hpending => exact h.with_idle ha (.inr hpending)
  · next pending hpending =>
    have hpending' : s.pending = some pending := hpending
    split
    · exact (h.without_pending _).with_idle ha (.inr rfl)
    obtain ⟨hg, -, hd, hh⟩ := h.pending pending hpending'
    have hi := (h.without_pending s.removed).with_idle ha (.inr rfl)
    refine ⟨h.half_le, fun p hp => ?_, nofun, fun hb => absurd rfl hb, nofun, hi.target, h.closing⟩
    cases hp
    refine ⟨hg, rfl, fun hs => ?_, hh⟩
    rw [← hd hs, hr]
    simp [buffered]

theorem admitPayload_inOrder (hr : s.reader = .admitting payload)
    (he : s.early = []) : ({ s with reader := .idle }.admitPayload size ok payload).InOrder := by
  have hn : ∀ p ∈ s.pending, False := by
    intro p hp
    have hoff := (h.pending p hp).2.1
    rw [hr] at hoff
    cases hoff
  refine ⟨h.half_le, fun p hp => (hn p hp).elim, nofun, fun hb => absurd rfl hb, nofun,
    fun t' ht' hs => ?_, fun t' ht' hs hh hhalf => ?_⟩
  all_goals obtain ⟨t, ht, rfl⟩ := map_eq_some_iff.mp ht'
  · cases hok : t.admitInbound size ok payload with
    | none => rw [hok] at hs; exact (h.target t ht hs).removeAndClose _
    | some admitted =>
      have hsame := same_admitInbound hok
      rw [hok] at hs
      have hd := h.target t ht (hsame.strict ▸ hs)
      rw [he, hr] at hd
      have ha := hd.admitted hok
      rw [← he] at ha
      exact (append_nil s.early).symm ▸ ha
  · cases hok : t.admitInbound size ok payload with
    | none => rw [hok] at hh; cases hh
    | some admitted =>
      have hsame := same_admitInbound hok
      have hpayloads := unwritten_admitInbound hok
      rw [hok] at hs hh
      have hc := h.closing t ht (hsame.strict ▸ hs) (hsame.present hh) hhalf
      rw [he, append_nil] at hc
      have hall : s.Covered (admitted.written ++ admitted.unwritten ++ s.early) := by
        rw [hpayloads]
        exact (hc.append _).append _
      exact hall

theorem submit_inOrder (accepted : Bool) : (s.submit accepted).InOrder := by
  unfold submit
  split
  · next hr =>
    have hn : s.job = none := by simpa using hr.2
    exact h.with_job (by simp [early, hn, DialStage.early]) nofun
  · exact h.without_pending s.removed

theorem handleNext_inOrder (hcalm : s.Calm (.handle ok))
    (hs : s.handleNext size inboundBytes ok = some next) : next.InOrder := by
  unfold handleNext at hs
  split at hs <;> cases hs
  · next hr => exact submit_inOrder (h.with_idle (by rw [hr]; rfl) (.inl (by rw [hr]; rfl))) ok
  · next hr => exact buffer_inOrder h hr
  · next hr => exact (h.with_idle (by rw [hr]; rfl) (.inl (by rw [hr]; rfl))).without_pending _
  · next hr => exact admitPayload_inOrder h hr (hcalm (by rw [hr]; rfl))
  · next hr =>
    refine (h.with_idle (by rw [hr]; rfl) (.inl (by rw [hr]; rfl))).halfClose ?_
    intro t ht hstrict hh
    -- All that was received has been admitted.
    have hw := (h.target t ht hstrict).whole hh
    rw [hcalm (by rw [hr]; rfl), hr, admitted, append_nil, append_nil] at hw
    have hc := covered_received (h.halfClosing hr)
    rwa [← hw] at hc

theorem completeDial_inOrder {token : ℕ} (hjob : s.job = some ⟨token, .dialed ok⟩)
    (hcalm : s.Calm .completeDial) : (s.completeDial inboundBytes token ok).InOrder := by
  unfold completeDial
  split
  · exact (h.without_pending s.removed).with_job (by simp [early, hjob, DialStage.early]) nofun
  · next hok =>
    have hh : s.holdsConnection := by
      have hok' : ok = true := by simpa using fun hf => hok (.inl hf)
      simp [holdsConnection, hjob, DialStage.connected, hok']
    obtain ⟨hsome, hb⟩ := hcalm hh
    obtain ⟨p, hp⟩ := isSome_iff_exists.mp hsome
    obtain ⟨-, hreader, hd, hhalf⟩ := h.pending p hp
    refine ⟨h.half_le, nofun, nofun, fun hm => absurd hb hm, fun hclosing => ?_,
      fun t ht hs => ?_, fun t ht hs _ hc => ?_⟩
    · have hreader' : s.reader = .halfClosing := hclosing
      rw [hreader'] at hreader
      cases hreader
    all_goals cases ht
    all_goals simp only [opened, hp, any_some] at hs
    all_goals have hr : p.data = s.received := by rw [← hd hs, hb, append_nil]
    · have hrest : p.data ++ s.reader.admitted = s.received := by
        rw [admitted_of_not_onTarget hreader, append_nil, hr]
      simp only [early, hp, elim_some, DialStage.early, hrest]
      exact delivers_opened token _ inboundBytes _ s.received
    · simp only [earlyHalf, hp, any_some, DialStage.halfClosed] at hc
      simp only [early, hp, elim_some, DialStage.early, hr]
      exact covered_received (s := s) (hhalf hc)

theorem InOrder.admittedEarly {token : ℕ} {t admitted : Target π}
    (hjob : s.job = some ⟨token, .opening (payload :: rest) halfClosed⟩) (ht : s.target = some t)
    (hok : t.admitInbound size ok payload = some admitted) :
    InOrder { s with target := some admitted, job := some ⟨token, .opening rest halfClosed⟩ } := by
  have hsame := same_admitInbound hok
  have hpayloads := unwritten_admitInbound hok
  have hl : s.isLive = false → isLive { s with target := some admitted } = false := by
    simp only [isLive, ht, any_some]
    intro hg
    by_contra hh
    rw [hsame.present (by simpa using hh)] at hg
    cases hg
  have he : s.early = payload :: rest := by simp [early, hjob, DialStage.early]
  refine ⟨h.half_le, fun p hp => ?_, h.refusing, fun hb => hl (h.buffering hb), h.halfClosing,
    fun t' ht' hs => ?_, fun t' ht' hs hh hclosed => ?_⟩
  · obtain ⟨hg, hr⟩ := h.pending p hp; exact ⟨hl hg, hr⟩
  all_goals cases ht'
  · have hd := h.target t ht (hsame.strict ▸ hs)
    rw [he] at hd
    exact hd.admitted hok
  · have hc := h.closing t ht (hsame.strict ▸ hs) (hsame.present hh) (by rw [earlyHalf, hjob]; exact hclosed)
    have hequal : t.written ++ t.unwritten ++ s.early = admitted.written ++ admitted.unwritten ++ rest := by
      simp [he, hpayloads]
    rw [hequal] at hc
    exact hc

theorem admitEarly_inOrder {token : ℕ} {early : List π} (hjob : s.job = some ⟨token, .opening early halfClosed⟩) :
    (s.admitEarly size token ok early halfClosed).InOrder := by
  have he : s.early = early := by simp [StreamSlot.early, hjob, DialStage.early]
  cases early with
  | cons payload rest =>
    simp only [admitEarly]
    split
    · next target htarget =>
      obtain ⟨t, ht, hok⟩ := bind_eq_some_iff.mp htarget
      exact h.admittedEarly hjob ht hok
    · -- The stream is over, so what is left of the early DATA no longer counts.
      have hc := h.removeAndClose
      refine ⟨h.half_le, hc.pending, h.refusing, hc.buffering, h.halfClosing, fun t' ht' hs => ?_,
        fun t' ht' _ hh => ?_⟩
      all_goals obtain ⟨t, ht, rfl⟩ := map_eq_some_iff.mp ht'
      · exact (h.target t ht hs).removeAndClose _
      · cases hh
  | nil =>
    cases halfClosed with
    | true =>
      refine InOrder.with_job (h.halfClose fun t ht hs hh => ?_) ?_ nofun
      · have hcovered := h.closing t ht hs hh (by rw [earlyHalf, hjob]; rfl)
        rwa [he, append_nil] at hcovered
      · exact he.symm
    | false =>
      cases ok with
      | true => exact h.with_job he.symm nofun
      | false => exact h.removeAndClose.with_job he.symm nofun

theorem work_inOrder {label : SlotLabel π} (hc : s.Calm label)
    (hs : s.work size inboundBytes label = some next) : next.InOrder := by
  unfold work at hs
  split at hs <;> cases hs
  · next hjob => exact h.with_job (by simp [early, hjob, DialStage.early]) nofun
  · next hjob => exact completeDial_inOrder h hjob hc
  · next hjob => exact admitEarly_inOrder h hjob
  · next hjob => exact h.with_job (by simp [early, hjob, DialStage.early]) nofun

theorem step_inOrder {label : SlotLabel π} (hcalm : s.Calm label)
    (hs : s.step size inboundBytes label = some next) : next.InOrder := by
  have hr : ∀ after : StreamSlot π, (if s.reader.isIdle then some after else none) = some next →
      s.reader = .idle ∧ after = next := by
    intro after ha
    rw [ite_none_right_eq_some] at ha
    refine ⟨?_, some.inj ha.2⟩
    cases hreader : s.reader with
    | idle => rfl
    | _ => rw [hreader] at ha; cases ha.1
  cases label with
  | opening strict => obtain ⟨-, rfl⟩ := hr _ hs; exact handleOpen_inOrder h strict
  | data payload => obtain ⟨hi, rfl⟩ := hr _ hs; exact handleData_inOrder h hi payload
  | halfClose => obtain ⟨hi, rfl⟩ := hr _ hs; exact handleHalfClose_inOrder h hi
  | reset => obtain ⟨-, rfl⟩ := hr _ hs; exact (h.without_pending _).closeTarget
  | handle ok => exact handleNext_inOrder h hcalm hs
  | pump outcome =>
    obtain ⟨target, htarget, rfl⟩ := map_eq_some_iff.mp hs
    obtain ⟨t, ht, hp⟩ := bind_eq_some_iff.mp htarget
    refine h.retarget fun t' ht' => ?_
    cases ht'
    exact ⟨t, ht, same_pumpTarget hp, fun _ hd => hd.pumped hp⟩
  | retire drain =>
    obtain ⟨-, rfl⟩ := guard_eq_some hs
    refine h.retarget fun t' ht' => ?_
    obtain ⟨t, ht, rfl⟩ := map_eq_some_iff.mp ht'
    split
    · exact ⟨t, ht, t.same_finish, fun _ hd => hd.finish _⟩
    · exact ⟨t, ht, t.same_removeAndClose, fun _ hd => hd.removeAndClose _⟩
  | close =>
    cases hs
    have hc := h.closeTarget
    exact ⟨hc.half_le, hc.pending, hc.refusing, hc.buffering, hc.halfClosing, hc.target, hc.closing⟩
  | _ => exact work_inOrder h hcalm hs

end

instance [DecidableEq π] (s : StreamSlot π) (label : SlotLabel π) : Decidable (s.Calm label) := by
  cases label <;> dsimp only [Calm] <;> infer_instance

theorem target_gets_frames_in_order (size : π → ℕ) (inboundBytes : ℕ) (labels : List (SlotLabel π))
    (halong : Along (step size inboundBytes) Calm empty labels) :
    Always (step size inboundBytes) Ordered empty labels :=
  (always_of_invariant (fun _ _ _ h hg hs => step_inOrder h hg hs) _ labels inOrder_empty
    halong).mono fun _ h => h.ordered

def dialRun (late : List (SlotLabel ℕ)) : List (SlotLabel ℕ) :=
  [.opening false, .handle true, .data 1, .handle true, .dialed true, .completeDial] ++ late ++
    [.pump .ok, .pump .ok, .pump .ok, .pump .ok]

theorem early_data_in_order :
    Always (step id 8) Ordered empty (dialRun [.admitEarly true, .admitEarly true, .data 2, .handle true]) :=
  target_gets_frames_in_order id 8 _ (by decide +kernel)

-- `Handle` admits the second payload before `completeDial` admits the first.
theorem late_data_overtakes :
    ∃ final, run (step id 8) empty (dialRun [.data 2, .handle true, .admitEarly true]) = some final ∧
      final.received = [1, 2] ∧ final.target.map (·.written) = some [2, 1] ∧ final.target.map (·.strict) = some false :=
  exists_run_of_any (by decide +kernel)

end StreamSlot

end TunnelMesh.Agent
