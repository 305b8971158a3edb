import TunnelMesh.Relay.AgentStream.EndOfFile
import TunnelMesh.Relay.AgentStream.Ledger

namespace TunnelMesh.Relay

open Protocol AgentRelayStream Reader Option

variable {α : Type}

def Reader.parked : Reader α → Bool
  | .polling _ => true
  | .checking _ => true
  | .waiting _ => true
  | _ => false

namespace AgentRelayStream

structure Quiet (s t : AgentRelayStream α) : Prop where
  err : t.err = s.err
  done : t.done = s.done
  localHalf : t.localHalf = s.localHalf
  wake : t.dataSignal = false → s.dataSignal = false ∧ t.unread = s.unread

variable (s : AgentRelayStream α)

theorem quiet_self : Quiet s s := ⟨rfl, rfl, rfl, fun hs => ⟨hs, rfl⟩⟩

theorem quiet_compact : Quiet s s.compact := by
  have hu : s.compact.unread = s.unread := congrArg Inbound.unread s.inbound_compact
  unfold compact at hu ⊢
  split
  · next hpos =>
    rw [if_pos hpos] at hu
    exact ⟨rfl, rfl, rfl, fun hs => ⟨hs, hu⟩⟩
  · exact s.quiet_self

theorem quiet_enqueue (payload : List α) : Quiet s (s.enqueue payload).1 := by
  have hc := s.quiet_compact
  unfold enqueue
  split
  · exact s.quiet_self
  split
  · exact s.quiet_self
  simp only
  split
  · exact hc
  · split
    · exact hc
    · exact { hc with wake := fun hs => by cases hs }

theorem quiet_mirror (credit : ℕ) : Quiet s (s.mirror credit) := by
  unfold mirror
  split
  · exact ⟨rfl, rfl, rfl, fun hs => ⟨hs, rfl⟩⟩
  · exact s.quiet_self

theorem quiet_readControl (h : s.readControl = some (credit, next)) : Quiet s next := by
  unfold readControl at h
  split at h <;> cases h
  exact ⟨rfl, rfl, rfl, fun hs => ⟨hs, rfl⟩⟩

theorem quiet_released (h : s.releaseReceiveWindow windows consumed = (next, update)) : Quiet s next := by
  rcases s.releaseReceiveWindow_cases windows consumed with
    ⟨-, hsame⟩ | ⟨-, unacked, -, ⟨-, hsame⟩ | ⟨-, hsame⟩⟩ <;> obtain ⟨rfl, -⟩ := Prod.mk.inj (h.symm.trans hsame)
  · exact next.quiet_self
  · exact ⟨rfl, rfl, rfl, fun hs => ⟨hs, rfl⟩⟩
  · exact ⟨rfl, rfl, rfl, fun hs => ⟨hs, rfl⟩⟩

end AgentRelayStream

namespace Reading

variable {r next : Reading α}

-- What a step does to those who wait. An error that is published closes `done`,
-- and a call that is parked has a token waiting for it if there are bytes.
structure Stirs (r : Reading α) (label : ReadLabel α) (next : Reading α) : Prop where
  ends : (next.stream.done = r.stream.done ∧ next.stream.err = r.stream.err) ∨
    (next.stream.done ∧ next.stream.err ≠ none)
  localHalf : label ≠ .closeWrite → next.stream.localHalf = r.stream.localHalf
  wake : next.reader.parked → next.stream.dataSignal = false → next.stream.unread = [] ∨
      (r.reader.parked ∧ r.stream.dataSignal = false ∧ next.stream.unread = r.stream.unread)

theorem stirs_of_quiet (hq : Quiet r.stream next.stream)
    (hr : next.reader.parked → r.reader.parked) : Stirs r label next := by
  refine ⟨.inl ⟨hq.done, hq.err⟩, fun _ => hq.localHalf, fun hp hs => ?_⟩
  obtain ⟨hnow, hu⟩ := hq.wake hs
  exact .inr ⟨hr hp, hnow, hu⟩

theorem stirs_published (hd : next.stream.done)
    (herr : next.stream.err = published r.stream.err e) (hl : next.stream.localHalf = r.stream.localHalf)
    (hs : next.stream.dataSignal = r.stream.dataSignal) (hu : next.stream.unread = r.stream.unread)
    (hr : next.reader.parked → r.reader.parked) : Stirs r label next := by
  refine ⟨.inr ⟨hd, ?_⟩, fun _ => hl, fun hp hn => ?_⟩
  · rw [herr]; exact published_ne_none _ _
  · exact .inr ⟨hr hp, hs.symm.trans hn, hu⟩

theorem stirs_unparked (hp : next.reader.parked = false) (hd : next.stream.done = r.stream.done)
    (herr : next.stream.err = r.stream.err) (hl : next.stream.localHalf = r.stream.localHalf) : Stirs r label next := by
  refine ⟨.inl ⟨hd, herr⟩, fun _ => hl, fun hnow => ?_⟩
  rw [hp] at hnow
  cases hnow

theorem advance_stirs {choice : Choice} (h : r.advance windows choice = some next) :
    Stirs r (.advance choice) next := by
  obtain ⟨moved, hm, rfl⟩ := map_eq_some_iff.mp h
  cases hr : r.reader with
  | idle => rw [hr] at hm; cases hm
  | looking size =>
    simp only [hr, move] at hm
    split at hm
    · cases hm
      have herr := err_of_inbound (r.stream.inbound_take size)
      refine stirs_unparked rfl ?_ herr ?_ <;> simp only [take] <;> split <;> rfl
    · next hempty =>
      cases hm
      have hnil : r.stream.unread = [] := List.eq_nil_of_length_eq_zero (by omega)
      exact ⟨.inl ⟨rfl, rfl⟩, fun _ => rfl, fun _ _ => .inl hnil⟩
  | polling | checking =>
    simp only [hr, move] at hm
    split at hm <;> cases hm
    · exact stirs_unparked rfl rfl rfl rfl
    · exact stirs_of_quiet r.stream.quiet_self fun _ => by rw [hr]; rfl
  | waiting size =>
    cases choice with
    | refused => rw [hr] at hm; cases hm
    | _ =>
      simp only [hr, move] at hm
      obtain ⟨-, rfl⟩ := guard_eq_some hm
      exact stirs_unparked rfl rfl rfl rfl
  | releasing bytes =>
    rcases hrelease : r.stream.releaseReceiveWindow windows bytes.length with ⟨stream, update⟩
    have hq := r.stream.quiet_released hrelease
    simp only [hr, move, hrelease] at hm
    split at hm <;> cases hm
    · exact stirs_unparked rfl hq.done hq.err hq.localHalf
    · exact stirs_unparked rfl hq.done hq.err hq.localHalf
  | flushing bytes update =>
    rw [hr] at hm
    cases choice with
    | refused =>
      cases hm
      exact stirs_published rfl rfl rfl rfl rfl fun hp => by cases hp
    | _ => cases hm; exact stirs_unparked rfl rfl rfl rfl

theorem frame_stirs (h : r.frame f = some next) : Stirs r (.frame f) next := by
  unfold frame at h
  cases hh : r.handler with
  | some pending => simp [hh] at h
  | none =>
    simp only [hh] at h
    split at h
    · cases h; exact stirs_of_quiet r.stream.quiet_self id
    cases h
    cases f with
    | data payload =>
      have hq := r.stream.quiet_enqueue payload
      rcases he : r.stream.enqueue payload with ⟨stream, outcome⟩
      rw [he] at hq
      cases outcome with
      | ok _ => simp only [dispatch, he]; exact stirs_of_quiet hq id
      | error e => simp only [dispatch, he]; exact stirs_of_quiet { hq with } id
    | halfClose =>
      simp only [dispatch]
      split
      · exact stirs_of_quiet r.stream.quiet_self id
      · exact stirs_of_quiet ⟨rfl, rfl, rfl, fun hs => ⟨hs, rfl⟩⟩ id
    | windowUpdate credit => exact stirs_of_quiet (r.stream.quiet_mirror credit) id
    | reset => exact stirs_of_quiet ⟨rfl, rfl, rfl, fun hs => ⟨hs, rfl⟩⟩ id

theorem step_stirs (h : r.step windows label = some next) : Stirs r label next := by
  cases label with
  | read size =>
    have hr : r.read size = some next := h
    unfold read at hr
    cases hreader : r.reader with
    | idle =>
      simp only [hreader] at hr
      split at hr <;> cases hr
      · exact stirs_unparked rfl rfl rfl rfl
      · exact stirs_unparked rfl rfl rfl rfl
    | _ => simp [hreader] at hr
  | advance choice => exact advance_stirs h
  | frame f => exact frame_stirs h
  | publish =>
    obtain ⟨⟨e, complete⟩, -, rfl⟩ := map_eq_some_iff.mp h
    cases complete with
    | true | false => exact stirs_published rfl rfl rfl rfl rfl id
  | readControl =>
    obtain ⟨⟨credit, stream⟩, hc, rfl⟩ := map_eq_some_iff.mp h
    exact stirs_of_quiet (r.stream.quiet_readControl hc) id
  | closeWrite =>
    cases h
    refine ⟨.inl ?_, fun hl => absurd rfl hl, fun hp hs => .inr ?_⟩
    · simp only [closeWrite]; split <;> exact ⟨rfl, rfl⟩
    · simp only [closeWrite] at hs ⊢
      split at hs
      · next hskip =>
        rw [if_pos hskip]
        exact ⟨hp, hs, rfl⟩
      · next hclose =>
        rw [if_neg hclose]
        exact ⟨hp, hs, rfl⟩
  | fail e =>
    have hf : (if e = .eof then none else some { r with stream := r.stream.detach.finish e }) = some next := h
    split_ifs at hf
    cases hf; exact stirs_published rfl rfl rfl rfl rfl id

structure Signalled (r : Reading α) : Prop where
  done : r.stream.done ↔ r.stream.err ≠ none
  wake : r.reader.parked → r.stream.dataSignal = false → r.stream.unread = []

theorem signalled_opened (window : ℕ) : Signalled (opened window : Reading α) :=
  ⟨by simp [opened, AgentRelayStream.opened], fun hp => by cases hp⟩

theorem Stirs.signalled (hs : Stirs r label next) (h : Signalled r) : Signalled next := by
  constructor
  · rcases hs.ends with ⟨hd, herr⟩ | ⟨hd, herr⟩
    · rw [hd, herr]; exact h.done
    · exact ⟨fun _ => herr, fun _ => hd⟩
  · intro hp hsignal
    rcases hs.wake hp hsignal with hnil | ⟨hold, hn, hu⟩
    · exact hnil
    · rw [hu]; exact h.wake hold hn

-- How far the Agent's direction has come on a stream that does not fail. A
-- HALF_CLOSE has its end of file still to be published, or has it published.
inductive Stage (r : Reading α) : Bool → Prop
  | flowing (hopen : r.Open) : Stage r false
  | ending {complete : Bool} (hhalf : r.stream.remoteHalf) (herr : r.stream.err = none)
      (hhandler : r.handler = some (.eof, complete)) : Stage r true
  | ended (hhalf : r.stream.remoteHalf) (herr : r.stream.err = some .eof) (hhandler : r.handler = none) :
      Stage r true

theorem stage_opened (window : ℕ) : Stage (opened window : Reading α) false := .flowing ⟨⟨rfl, rfl⟩, rfl, rfl⟩

theorem Stage.kept {ended : Bool} (h : Stage r ended) (herr : next.stream.err = r.stream.err)
    (hhalf : next.stream.remoteHalf = r.stream.remoteHalf) (hh : next.handler = r.handler)
    (ha : next.stream.attached = r.stream.attached ∨ r.stream.remoteHalf) : Stage next ended := by
  cases h with
  | flowing ho =>
    obtain ⟨⟨hn, hi⟩, hthere, hf⟩ := ho
    refine .flowing ⟨⟨herr.trans hn, hh.trans hi⟩, ?_, hhalf.trans hf⟩
    rcases ha with hs | ht
    · exact hs.trans hthere
    · rw [hf] at ht; cases ht
  | ending ht hn hp => exact .ending (hhalf.trans ht) (herr.trans hn) (hh.trans hp)
  | ended ht heof hi => exact .ended (hhalf.trans ht) (herr.trans heof) (hh.trans hi)

theorem Stage.kept_inbound {ended : Bool} (h : Stage r ended) (hs : next.stream.inbound = i)
    (herr : i.err = r.stream.err) (hhalf : i.remoteHalf = r.stream.remoteHalf)
    (ha : i.attached = r.stream.attached ∨ r.stream.remoteHalf) (hh : next.handler = r.handler) : Stage next ended := by
  refine h.kept ((err_of_inbound hs).trans herr) ((half_of_inbound hs).trans hhalf) hh ?_
  rw [attached_of_inbound hs]
  exact ha

-- Neither side fails: the session takes every frame, and the Agent sends within its
-- window and up to its HALF_CLOSE.
def Orderly (r : Reading α) (ended : Bool) : ReadLabel α → Prop
  | .frame (.data payload) => ended = false ∧ r.stream.unread.length + payload.length ≤ r.stream.budget
  | .frame .halfClose => ended = false
  | .frame .reset => False
  | .advance .refused => False
  | .fail _ => False
  | _ => True

def endedAfter (ended : Bool) : ReadLabel α → Bool
  | .frame .halfClose => true
  | _ => ended

theorem effect_stage {ended : Bool} (he : Effect windows r label next) (h : Stage r ended)
    (ho : Orderly r ended label) (hl : label ≠ .frame .halfClose) : Stage next ended := by
  cases he with
  | call _ hs hreader hnext hsize hgap hrest => exact h.kept_inbound hs rfl rfl (.inl rfl) hrest.1
  | failed | flushed => exact h.kept rfl rfl rfl (.inl rfl)
  | took => exact h.kept_inbound (r.stream.inbound_take _) rfl rfl (.inl rfl) rfl
  | released _ hr | flushing _ _ hr =>
    exact h.kept_inbound (r.stream.released_inbound hr) rfl rfl (.inl rfl) rfl
  | lost | reset | fail => exact absurd ho id
  | ignored => exact h
  | accepted hh hhalf herr hroom hs => exact h.kept_inbound hs rfl rfl (.inl rfl) rfl
  | refused hh hs hreason =>
    obtain ⟨rfl, hroom⟩ := ho
    cases h with
    | flowing hopen =>
      obtain ⟨⟨hn, -⟩, -, hf⟩ := hopen
      rcases hreason with ⟨ht, -⟩ | hsome | ⟨-, hfull⟩
      · rw [hf] at ht; cases ht
      · rw [hn] at hsome; cases hsome
      · omega
  | halfClosed => exact absurd rfl hl
  | aside _ hs hsame =>
    exact h.kept (err_of_inbound hs) (half_of_inbound hs) rfl (hsame.imp_left (attached_of_inbound hs).trans)
  | publish hp hs =>
    cases h with
    | flowing hopen => rw [hopen.1.2] at hp; cases hp
    | ending hhalf herr hh =>
      obtain ⟨rfl, -⟩ := Prod.mk.inj (some.inj (hh.symm.trans hp))
      refine .ended ((half_of_inbound hs).trans hhalf) ?_ rfl
      rw [err_of_inbound hs, herr]
      rfl
    | ended hhalf herr hh => rw [hh] at hp; cases hp

theorem halfClose_stage (h : Stage r false) (hf : r.frame .halfClose = some next) : Stage next true := by
  cases h with
  | flowing ho =>
    obtain ⟨⟨hn, hi⟩, ha, hh⟩ := ho
    simp only [frame, hi, ha, dispatch, hh, Bool.true_eq_false, Bool.false_eq_true, if_false, some.injEq] at hf
    subst hf
    exact .ending rfl hn rfl

theorem step_stage (hs : r.step windows label = some next) (h : Stage r ended)
    (ho : Orderly r ended label) : Stage next (endedAfter ended label) := by
  by_cases hl : label = .frame .halfClose
  · subst hl
    obtain rfl : ended = false := ho
    exact halfClose_stage h hs
  · have hsame : endedAfter ended label = ended := by
      unfold endedAfter
      split
      · exact absurd rfl hl
      · rfl
    rw [hsame]
    exact effect_stage (step_effect hs) h ho hl

theorem Stage.err_cases {ended : Bool} (h : Stage r ended) :
    r.stream.err = none ∨ (r.stream.err = some .eof ∧ ended) := by
  cases h with
  | flowing ho => exact .inl ho.1.1
  | ending hh herr => exact .inl herr
  | ended hh herr => exact .inr ⟨herr, rfl⟩

theorem effect_accepted (he : Effect windows r label next) (hl : ∀ payload, label ≠ .frame (.data payload)) :
    next.accepted = r.accepted := by
  cases he with
  | call _ hstream hreader hnext hsize hgap hr => exact hr.2.2
  | accepted => exact absurd rfl (hl _)
  | _ => rfl

theorem data_accepted (he : Effect windows r (.frame (.data payload)) next)
    (h : Stage r false) (hroom : r.stream.unread.length + payload.length ≤ r.stream.budget) :
    next.accepted = r.accepted ++ [payload] := by
  cases h with
  | flowing ho =>
    obtain ⟨⟨hn, -⟩, ha, hh⟩ := ho
    cases he with
    | call hl => exact absurd rfl (hl.1 _)
    | ignored hg => rw [ha] at hg; cases hg
    | accepted => rfl
    | refused hhandler hstream hr =>
      rcases hr with ⟨ht, -⟩ | hs | ⟨-, hfull⟩
      · rw [hh] at ht; cases ht
      · rw [hn] at hs; cases hs
      · omega
    | aside hl => exact absurd rfl (hl.1 payload)

theorem results_of_step (ha : ∀ choice, label ≠ .advance choice) (hread : label ≠ .read 0)
    (hs : r.step windows label = some next) : next.results = r.results := by
  cases step_effect hs with
  | call _ _ _ _ _ _ _ hr =>
    exact hr.resolve_right fun hm => hm.2.elim hread fun ⟨choice, hl⟩ => ha choice hl
  | failed | took | released | flushing | flushed | lost => exact absurd rfl (ha _)
  | _ => rfl

theorem advance_results {choice : Choice} (ha : r.advance windows choice = some next) :
    next.results = r.results ++ (next.results[r.results.length]?).toList := by
  obtain ⟨moved, -, rfl⟩ := map_eq_some_iff.mp ha
  cases hresult : moved.result with
  | none | some => simp

theorem advance_error {choice : Choice} (ha : r.advance windows choice = some next)
    (hr : next.results[r.results.length]? = some (bytes, some e)) : bytes = [] ∧ r.stream.err = some e := by
  cases advance_effect ha with
  | call _ _ _ _ _ _ _ hresults => rcases hresults with hresults | ⟨hresults, -⟩ <;> simp [hresults] at hr
  | failed hreader herr =>
    simp only [List.getElem?_concat_length, some.injEq, Prod.mk.injEq] at hr
    exact ⟨hr.1.symm, hr.2 ▸ herr⟩
  | _ => simp at hr

theorem advance_blocked (hdata : r.advance windows .data = none) (hdone : r.advance windows .done = none) :
    r.reader = .idle ∨ ∃ size, r.reader = .waiting size ∧ r.stream.dataSignal = false ∧ r.stream.done = false := by
  have hm : ∀ choice, r.advance windows choice = none → r.reader.move windows r.stream choice = none :=
    fun choice hn => map_eq_none_iff.mp hn
  replace hdata := hm .data hdata
  replace hdone := hm .done hdone
  cases hr : r.reader with
  | idle => exact .inl rfl
  | looking | polling | checking | releasing =>
    simp only [hr, move] at hdata
    split at hdata <;> cases hdata
  | waiting size =>
    simp only [hr, move] at hdata hdone
    exact .inr ⟨size, rfl, by simpa using hdata, by simpa using hdone⟩
  | flushing bytes update => rw [hr] at hdata; cases hdata

end Reading

end TunnelMesh.Relay
