import TunnelMesh.Relay.AgentStream.Calls

namespace TunnelMesh.Relay

open RelayCall Interleaving RelayEntry Option List Transition

variable {α : Type}

structure AgentRelayStream.Alike (s t : AgentRelayStream α) : Prop where
  err : t.err = s.err
  localHalf : t.localHalf = s.localHalf
  remoteHalf : t.remoteHalf = s.remoteHalf
  attached : t.attached = s.attached

namespace AgentRelayStream

variable (s : AgentRelayStream α)

theorem compact_alike : Alike s s.compact := by
  unfold compact
  split <;> exact ⟨rfl, rfl, rfl, rfl⟩

theorem take_alike (size : ℕ) : Alike s (s.take size) := by
  simp only [take]
  split <;> exact ⟨rfl, rfl, rfl, rfl⟩

theorem mirror_alike (credit : ℕ) : Alike s (s.mirror credit) := by
  unfold mirror
  split <;> exact ⟨rfl, rfl, rfl, rfl⟩

theorem readControl_alike {s stream : AgentRelayStream α} (h : s.readControl = some (credit, stream)) :
    Alike s stream := by
  unfold readControl at h
  split at h <;> cases h
  exact ⟨rfl, rfl, rfl, rfl⟩

theorem enqueue_alike (payload : List α) : Alike s (s.enqueue payload).1 := by
  have hc := s.compact_alike
  unfold enqueue
  split
  · exact ⟨rfl, rfl, rfl, rfl⟩
  split
  · exact ⟨rfl, rfl, rfl, rfl⟩
  simp only
  split
  · exact hc
  · split
    · exact hc
    · exact { hc with }

end AgentRelayStream

open AgentRelayStream (Alike)

namespace RelayCall

def owesReset : RelayCall α → Bool
  | .resetting _ | .publishing _ true => true
  | _ => false

def owesHalfClose : RelayCall α → Bool
  | .halfClosing _ => true
  | _ => false

theorem owes_of_reset {call : RelayCall α} (h : call.owesReset) : call.owes := by
  cases call with
  | resetting close => rfl
  | publishing e reset =>
    cases reset with
    | true => rfl
    | false => cases h
  | _ => cases h

theorem owes_of_halfClose {call : RelayCall α} (h : call.owesHalfClose) : call.owes := by
  cases call with
  | halfClosing complete => rfl
  | _ => cases h

def idle : RelayCall α → Bool
  | .awaiting | .closing | .returned => true
  | _ => false

inductive Effect (s : RelayEntry α) : RelayCall α → RelayEntry α → RelayCall α → Prop where
  | passed {call moved : RelayCall α} (howes : call.owes = false) (hidle : moved.idle) : Effect s call s moved
  | refused (hresult : s.openResult = some false) : Effect s .awaiting s .rejecting
  | rejected : Effect s .rejecting s.detach (.publishing .reset false)
  | halfClosed : Effect s .closingWrite { s with stream := { s.stream with localHalf := true } }
      (.halfClosing s.stream.remoteHalf)
  | sentHalfClose {complete : Bool} : Effect s (.halfClosing complete) { s with sentHalfClose := true }
      (if complete then .detaching else .returned)
  | closed : Effect s .closing { s.detach with closing := true } .looking
  | looked (hover : (s.stream.localHalf ∧ s.stream.remoteHalf) ∨ s.terminal) :
      Effect s .looking s .ending
  | decided : Effect s .looking s (.resetting true)
  | sentReset {close : Bool} : Effect s (.resetting close) { s with sentReset := true }
      (if close then .ending else .returned)
  | ended : Effect s .ending (s.finish .closedPipe) .returned
  | touched {f : AgentFrame α} {stream : AgentRelayStream α} {answered gotRefusal : Bool} {openResult : Option Bool}
      (halike : Alike s.stream stream) (hrefusal : s.gotRefusal → gotRefusal)
      (hresult : openResult = some false → s.openResult = some false ∨ gotRefusal) :
      Effect s (.dispatching f) { s with stream, answered, openResult, gotRefusal } .returned
  | broke {f : AgentFrame α} {stream : AgentRelayStream α} {gotRefusal : Bool} {e : RelayError}
      (halike : Alike s.stream stream) (hrefusal : s.gotRefusal → gotRefusal) :
      Effect s (.dispatching f) { s with stream := stream.detach, gotRefusal } (.publishing e true)
  | gotHalfClose : Effect s (.dispatching .halfClose) { s with stream := { s.stream with remoteHalf := true } }
      (.finishing s.stream.localHalf)
  | gotReset : Effect s (.dispatching .reset) { s.detach with gotReset := true } (.publishing .reset false)
  | published {e : RelayError} {reset : Bool} : Effect s (.publishing e reset) (s.finish e)
      (if reset then .resetting false else .returned)
  | finished {complete : Bool} : Effect s (.finishing complete) (s.finish .eof)
      (if complete then .detaching else .returned)
  | detached : Effect s .detaching s.detach .returned
  | failed {call : RelayCall α} {t : RelayEntry α} {moved : RelayCall α} (hcall : call = .failing) :
      Effect s call t moved

theorem dispatch_effect (s : RelayEntry α) (f : AgentFrame α) :
    Effect s (.dispatching f) (s.dispatch f).1 (s.dispatch f).2 := by
  cases f with
  | openResult accepted =>
    simp only [dispatch]
    have hr : s.gotRefusal = true → (s.gotRefusal || !accepted) = true := by
      intro hgot
      rw [hgot, Bool.true_or]
    split
    · refine .touched ⟨rfl, rfl, rfl, rfl⟩ hr fun hresult => .inr ?_
      rw [some.inj hresult, Bool.not_false, Bool.or_true]
    · exact .broke ⟨rfl, rfl, rfl, rfl⟩ hr
  | invalidResult => exact .broke ⟨rfl, rfl, rfl, rfl⟩ id
  | data payload =>
    have ha := s.stream.enqueue_alike payload
    simp only [dispatch]
    split
    · next stream hok =>
      rw [hok] at ha
      exact .touched ha id .inl
    · next stream e he =>
      rw [he] at ha
      exact .broke ha id
  | halfClose =>
    simp only [dispatch]
    split
    · exact .passed rfl rfl
    · exact .gotHalfClose
  | windowUpdate credit => exact .touched (s.stream.mirror_alike credit) id .inl
  | reset => exact .gotReset

theorem move_effect (hm : move s call input = some moved) (hs : input ≠ .refused)
    (hk : call.drops = false) : Effect s call moved.1 moved.2 := by
  unfold move at hm
  split at hm <;> try cases hm
  · exact .passed rfl (by split <;> rfl)
  · exact absurd rfl hs
  · obtain ⟨accepted, hr, rfl⟩ := map_eq_some_iff.mp hm
    cases accepted with
    | true => exact .passed rfl rfl
    | false => exact .refused hr
  · cases (ite_none_right_eq_some.mp hm).2; exact .passed rfl rfl
  · exact .passed rfl rfl
  · exact .rejected
  · exact .passed rfl rfl
  · exact absurd rfl hs
  · split at hm <;> cases hm
    · exact .passed rfl rfl
    · exact .halfClosed
  · exact .sentHalfClose
  · exact absurd rfl hs
  · exact .failed rfl
  · split at hm <;> cases hm
    · exact .passed rfl rfl
    · exact .closed
  · split at hm <;> cases hm
    · next ho => exact .looked ho
    · exact .decided
  · exact .sentReset
  · exact absurd rfl hs
  · exact .ended
  · split at hm <;> cases hm
    · exact .passed rfl rfl
    · exact dispatch_effect s _
  · exact .published
  · exact .finished
  · exact .detached
  · cases hk

end RelayCall

theorem dispatch_registered (s : RelayEntry α) (f : AgentFrame α) : (s.dispatch f).1.registered = s.registered := by
  cases f with
  | openResult | data | halfClose => simp only [dispatch]; split <;> rfl
  | invalidResult | windowUpdate | reset => rfl

theorem move_registered (hm : move s call input = some moved) : moved.1.registered = s.registered := by
  unfold move at hm
  split at hm <;> try cases hm <;> rfl
  · obtain ⟨accepted, -, rfl⟩ := map_eq_some_iff.mp hm; rfl
  · cases (ite_none_right_eq_some.mp hm).2; rfl
  -- `CloseWrite` and the two sections of `Close`
  iterate 3 · split at hm <;> cases hm <;> rfl
  · split at hm <;> cases hm
    · rfl
    · exact dispatch_registered s _

variable {s next : State (RelayEntry α) (RelayCall α)}

def Due (owes : RelayCall α → Bool) (s : State (RelayEntry α) (RelayCall α)) : Prop :=
  ∃ call ∈ s.procs, owes call

def Safe (s : State (RelayEntry α) (RelayCall α)) : Prop :=
  (s.store.sentReset ∨ Due owesReset s) ∨ s.store.gotReset ∨ s.store.gotRefusal ∨
    ((s.store.sentHalfClose ∨ Due owesHalfClose s) ∧ s.store.stream.remoteHalf)

def RelayCall.Sound (s : State (RelayEntry α) (RelayCall α)) : RelayCall α → Prop
  | .halfClosing complete => s.store.stream.localHalf ∧ (complete → s.store.stream.remoteHalf)
  | .finishing complete => s.store.stream.remoteHalf ∧ (complete → s.store.stream.localHalf)
  | .detaching => s.store.stream.localHalf ∧ s.store.stream.remoteHalf
  | .publishing _ reset => reset = false → Safe s
  | .ending => Safe s
  | .rejecting => s.store.gotRefusal
  | .failing => False
  | _ => True

structure Accounted (s : State (RelayEntry α) (RelayCall α)) : Prop where
  left : s.store.stream.attached = false → Safe s ∨ looking ∈ s.procs
  failed : s.store.terminal → Safe s
  half : s.store.stream.localHalf → s.store.sentHalfClose ∨ Due owesHalfClose s
  refusal : s.store.openResult = some false → s.store.gotRefusal
  calls : ∀ call ∈ s.procs, call.Sound s

structure Later (s next : State (RelayEntry α) (RelayCall α)) : Prop where
  gotReset : s.store.gotReset → next.store.gotReset
  gotRefusal : s.store.gotRefusal → next.store.gotRefusal
  localHalf : s.store.stream.localHalf → next.store.stream.localHalf
  remoteHalf : s.store.stream.remoteHalf → next.store.stream.remoteHalf
  reset : s.store.sentReset ∨ Due owesReset s → next.store.sentReset ∨ Due owesReset next
  half : s.store.sentHalfClose ∨ Due owesHalfClose s → next.store.sentHalfClose ∨ Due owesHalfClose next

theorem Later.safe (hl : Later s next) (h : Safe s) : Safe next := by
  rcases h with hreset | hgot | hr | ⟨hh, hremote⟩
  · exact .inl (hl.reset hreset)
  · exact .inr (.inl (hl.gotReset hgot))
  · exact .inr (.inr (.inl (hl.gotRefusal hr)))
  · exact .inr (.inr (.inr ⟨hl.half hh, hl.remoteHalf hremote⟩))

theorem Later.sound {call : RelayCall α} (hl : Later s next) (h : call.Sound s) : call.Sound next := by
  cases call with
  | halfClosing complete => exact ⟨hl.localHalf h.1, fun hc => hl.remoteHalf (h.2 hc)⟩
  | finishing complete => exact ⟨hl.remoteHalf h.1, fun hc => hl.localHalf (h.2 hc)⟩
  | detaching => exact ⟨hl.localHalf h.1, hl.remoteHalf h.2⟩
  | publishing e reset => exact fun hr => hl.safe (h hr)
  | ending => exact hl.safe h
  | rejecting => exact hl.gotRefusal h
  | failing => exact h
  | _ => trivial

structure Keeps (s : RelayEntry α) (call : RelayCall α) (t : RelayEntry α) (moved : RelayCall α) : Prop where
  sentReset : s.sentReset → t.sentReset
  gotReset : s.gotReset → t.gotReset
  gotRefusal : s.gotRefusal → t.gotRefusal
  sentHalfClose : s.sentHalfClose → t.sentHalfClose
  localHalf : s.stream.localHalf → t.stream.localHalf
  remoteHalf : s.stream.remoteHalf → t.stream.remoteHalf
  owesReset : call.owesReset → moved.owesReset ∨ t.sentReset
  owesHalfClose : call.owesHalfClose → t.sentHalfClose

section Move

theorem Keeps.later (hk : Keeps s.store call t moved) (hc : s.procs[i]? = some call) :
    Later s ⟨t, s.procs.set i moved⟩ := by
  refine { hk with reset := ?_, half := ?_ }
  · rintro (hs | hdue)
    · exact .inl (hk.sentReset hs)
    · rcases exists_mem_set hc moved hdue with howes | ho
      · rcases hk.owesReset howes with hstill | hs
        · exact .inr ⟨moved, mem_set_of_getElem? hc moved, hstill⟩
        · exact .inl hs
      · exact .inr ho
  · rintro (hs | hdue)
    · exact .inl (hk.sentHalfClose hs)
    · rcases exists_mem_set hc moved hdue with howes | ho
      · exact .inl (hk.owesHalfClose howes)
      · exact .inr ho

theorem safe_of_moved (hc : s.procs[i]? = some call) (ho : moved.owesReset) : Safe ⟨t, s.procs.set i moved⟩ :=
  .inl (.inr ⟨moved, mem_set_of_getElem? hc moved, ho⟩)

theorem accounted_of_move (h : Accounted s) (hc : s.procs[i]? = some call) (hk : Keeps s.store call t moved)
    (hleft : t.stream.attached = false → (s.store.stream.attached = false ∧ call ≠ .looking) ∨
      Safe ⟨t, s.procs.set i moved⟩ ∨ moved = .looking)
    (hf : t.terminal → s.store.terminal ∨ Safe ⟨t, s.procs.set i moved⟩)
    (hh : t.stream.localHalf → s.store.stream.localHalf ∨ moved.owesHalfClose)
    (hrefusal : t.openResult = some false → s.store.openResult = some false ∨ t.gotRefusal)
    (hsound : moved.Sound ⟨t, s.procs.set i moved⟩) : Accounted ⟨t, s.procs.set i moved⟩ := by
  have hm := mem_set_of_getElem? hc moved
  have hl := hk.later hc
  refine ⟨fun hg => ?_, fun ht => ?_, fun hlocal => ?_, fun hresult => ?_, ?_⟩
  · rcases hleft hg with ⟨hb, hnot⟩ | hs | rfl
    · rcases h.left hb with hs | hlooking
      · exact .inl (hl.safe hs)
      · have hstill : ∃ r ∈ s.procs, r = looking := ⟨_, hlooking, rfl⟩
        rcases exists_mem_set hc moved hstill with heq | ⟨r, hr, rfl⟩
        · exact absurd heq hnot
        · exact .inr hr
    · exact .inl hs
    · exact .inr hm
  · rcases hf ht with hb | hs
    · exact hl.safe (h.failed hb)
    · exact hs
  · rcases hh hlocal with hb | howes
    · exact hl.half (h.half hb)
    · exact .inr ⟨moved, hm, howes⟩
  · rcases hrefusal hresult with hb | hgot
    · exact hk.gotRefusal (h.refusal hb)
    · exact hgot
  · exact forall_mem_set (fun other ho => hl.sound (h.calls other ho)) hsound

theorem safe_of_halves (h : Accounted s) (hl : s.store.stream.localHalf) (hr : s.store.stream.remoteHalf) : Safe s :=
  .inr (.inr (.inr ⟨h.half hl, hr⟩))

theorem terminal_finish_eof {s : RelayEntry α} (h : (s.finish .eof).terminal) : s.terminal := by
  unfold terminal finish AgentRelayStream.finish at h
  simp only at h
  split at h
  · exact absurd rfl h.2
  · exact h

theorem Effect.accounted (he : Effect s.store call t moved) (h : Accounted s)
    (hc : s.procs[i]? = some call) : Accounted ⟨t, s.procs.set i moved⟩ := by
  have hown : call.Sound s := h.calls call (mem_of_getElem? hc)
  cases he with
  | passed ho hidle =>
    have hk : Keeps s.store call s.store moved :=
      ⟨id, id, id, id, id, id, fun hreset => absurd (owes_of_reset hreset) (Bool.eq_false_iff.mp ho),
        fun hh => absurd (owes_of_halfClose hh) (Bool.eq_false_iff.mp ho)⟩
    refine accounted_of_move h hc hk (fun hg => .inl ⟨hg, ?_⟩) .inl .inl .inl ?_
    · rintro rfl; cases ho
    · cases moved <;> trivial
  | refused hresult =>
    exact accounted_of_move h hc ⟨id, id, id, id, id, id, nofun, nofun⟩ (fun hg => .inl ⟨hg, nofun⟩) .inl
      .inl .inl (h.refusal hresult)
  | rejected =>
    have hs : ∀ {procs : List (RelayCall α)}, Safe ⟨s.store.detach, procs⟩ := .inr (.inr (.inl hown))
    exact accounted_of_move h hc ⟨id, id, id, id, id, id, nofun, nofun⟩ (fun _ => .inr (.inl hs)) .inl .inl .inl
      fun _ => hs
  | halfClosed =>
    exact accounted_of_move h hc ⟨id, id, id, id, fun _ => rfl, id, nofun, nofun⟩
      (fun hg => .inl ⟨hg, nofun⟩) .inl (fun _ => .inr rfl) .inl ⟨rfl, id⟩
  | @sentHalfClose complete =>
    refine accounted_of_move h hc ⟨id, id, id, fun _ => rfl, id, id, nofun, fun _ => rfl⟩
      (fun hg => .inl ⟨hg, nofun⟩) .inl .inl .inl ?_
    cases complete with
    | true => exact ⟨hown.1, hown.2 rfl⟩
    | false => trivial
  | closed =>
    exact accounted_of_move h hc ⟨id, id, id, id, id, id, nofun, nofun⟩ (fun _ => .inr (.inr rfl)) .inl .inl .inl
      trivial
  | looked hover =>
    have hk : Keeps s.store .looking s.store .ending := ⟨id, id, id, id, id, id, nofun, nofun⟩
    have hs : Safe s := by
      rcases hover with ⟨hl, hr⟩ | ht
      · exact safe_of_halves h hl hr
      · exact h.failed ht
    have hn := (hk.later hc).safe hs
    exact accounted_of_move h hc hk (fun _ => .inr (.inl hn)) .inl .inl .inl hn
  | decided =>
    exact accounted_of_move h hc ⟨id, id, id, id, id, id, nofun, nofun⟩
      (fun _ => .inr (.inl (safe_of_moved hc rfl))) .inl .inl .inl trivial
  | @sentReset close =>
    have hs : ∀ {procs : List (RelayCall α)}, Safe ⟨{ s.store with sentReset := true }, procs⟩ := .inl (.inl rfl)
    refine accounted_of_move h hc ⟨fun _ => rfl, id, id, id, id, id, fun _ => .inr rfl, nofun⟩
      (fun _ => .inr (.inl hs)) .inl .inl .inl ?_
    cases close with
    | true => exact hs
    | false => trivial
  | ended =>
    have hk : Keeps s.store .ending (s.store.finish .closedPipe) .returned :=
      ⟨id, id, id, id, id, id, nofun, nofun⟩
    exact accounted_of_move h hc hk (fun hg => .inl ⟨hg, nofun⟩)
      (fun _ => .inr ((hk.later hc).safe hown)) .inl .inl trivial
  | touched ha hrefusal hresult =>
    refine accounted_of_move h hc ⟨id, id, hrefusal, id, ?_, ?_, nofun, nofun⟩ ?_ ?_ ?_ hresult trivial
    · exact fun hl => ha.localHalf.trans hl
    · exact fun hr => ha.remoteHalf.trans hr
    · exact fun hg => .inl ⟨ha.attached.symm.trans hg, nofun⟩
    · intro ht
      unfold terminal at ht ⊢
      simp only [ha.err] at ht
      exact .inl ht
    · exact fun hl => .inl (ha.localHalf.symm.trans hl)
  | @broke f stream gotRefusal e ha hrefusal =>
    have hs : ∀ {t : RelayEntry α}, Safe ⟨t, s.procs.set i (.publishing e true)⟩ := safe_of_moved hc rfl
    refine accounted_of_move h hc ⟨id, id, hrefusal, id, ?_, ?_, nofun, nofun⟩ (fun _ => .inr (.inl hs))
      (fun _ => .inr hs) ?_ (fun hb => .inl hb) nofun
    · exact fun hl => ha.localHalf.trans hl
    · exact fun hr => ha.remoteHalf.trans hr
    · exact fun hl => .inl (ha.localHalf.symm.trans hl)
  | gotHalfClose =>
    exact accounted_of_move h hc ⟨id, id, id, id, id, fun _ => rfl, nofun, nofun⟩
      (fun hg => .inl ⟨hg, nofun⟩) .inl .inl .inl ⟨rfl, id⟩
  | gotReset =>
    have hs : ∀ {procs : List (RelayCall α)}, Safe ⟨{ s.store.detach with gotReset := true }, procs⟩ :=
      .inr (.inl rfl)
    exact accounted_of_move h hc ⟨id, fun _ => rfl, id, id, id, id, nofun, nofun⟩ (fun _ => .inr (.inl hs)) .inl
      .inl .inl fun _ => hs
  | @published e reset =>
    cases reset with
    | true =>
      exact accounted_of_move h hc ⟨id, id, id, id, id, id, fun _ => .inl rfl, nofun⟩
        (fun hg => .inl ⟨hg, nofun⟩) (fun _ => .inr (safe_of_moved hc rfl)) .inl .inl trivial
    | false =>
      have hk : Keeps s.store (.publishing e false) (s.store.finish e) .returned :=
        ⟨id, id, id, id, id, id, nofun, nofun⟩
      exact accounted_of_move h hc hk (fun hg => .inl ⟨hg, nofun⟩)
        (fun _ => .inr ((hk.later hc).safe (hown rfl))) .inl .inl trivial
  | @finished complete =>
    refine accounted_of_move h hc ⟨id, id, id, id, id, id, nofun, nofun⟩ (fun hg => .inl ⟨hg, nofun⟩)
      (fun ht => .inl (terminal_finish_eof ht)) .inl .inl ?_
    cases complete with
    | true => exact ⟨hown.2 rfl, hown.1⟩
    | false => trivial
  | detached =>
    have hk : Keeps s.store .detaching s.store.detach .returned := ⟨id, id, id, id, id, id, nofun, nofun⟩
    have hs := (hk.later hc).safe (safe_of_halves h hown.1 hown.2)
    exact accounted_of_move h hc hk (fun _ => .inr (.inl hs)) .inl .inl .inl trivial
  | failed hf => rw [hf] at hown; exact hown.elim

end Move

theorem Accounted.noOrphan (h : Accounted s) : NoOrphan s := by
  intro hg _
  have ho : ∀ {owes : RelayCall α → Bool}, (∀ {call}, owes call → call.owes) → Due owes s →
      ∃ call ∈ s.procs, call.owes := fun hless ⟨call, hc, hdue⟩ => ⟨call, hc, hless hdue⟩
  rcases h.left hg with ((hs | hdue) | hgot | hr | ⟨hs | hdue, hremote⟩) | hl
  · exact .inl (.inl hs)
  · exact .inr (ho owes_of_reset hdue)
  · exact .inl (.inr (.inl hgot))
  · exact .inl (.inr (.inr (.inl hr)))
  · exact .inl (.inr (.inr (.inr ⟨hs, hremote⟩)))
  · exact .inr (ho owes_of_halfClose hdue)
  · exact .inr ⟨.looking, hl, rfl⟩

def Kept (s : State (RelayEntry α) (RelayCall α)) : Prop := s.store.registered → Accounted s

theorem accounted_of_alike {stream : AgentRelayStream α} (h : Accounted s) (ha : Alike s.store.stream stream) :
    Accounted ⟨{ s.store with stream }, s.procs⟩ := by
  have hl : Later s ⟨{ s.store with stream }, s.procs⟩ :=
    ⟨id, id, ha.localHalf.trans, ha.remoteHalf.trans, id, id⟩
  refine ⟨fun hg => ?_, fun ht => ?_, fun hlocal => ?_, h.refusal, fun call hc => ?_⟩
  · exact (h.left (ha.attached.symm.trans hg)).imp_left hl.safe
  · unfold terminal at ht
    simp only [ha.err] at ht
    exact hl.safe (h.failed ht)
  · exact h.half (ha.localHalf.symm.trans hlocal)
  · exact hl.sound (h.calls call hc)

theorem accounted_start (h : Accounted s) (request : RelayRequest α) :
    Accounted ⟨s.store, s.procs ++ [start request]⟩ := by
  have hdue : ∀ {owes : RelayCall α → Bool}, Due owes s → Due owes ⟨s.store, s.procs ++ [start request]⟩ :=
    fun ⟨call, hc, ho⟩ => ⟨call, mem_append_left _ hc, ho⟩
  have hl : Later s ⟨s.store, s.procs ++ [start request]⟩ :=
    ⟨id, id, id, id, Or.imp_right hdue, Or.imp_right hdue⟩
  refine ⟨fun hg => ?_, fun ht => hl.safe (h.failed ht), fun hlocal => hl.half (h.half hlocal), h.refusal, ?_⟩
  · exact (h.left hg).imp hl.safe (mem_append_left _)
  · refine forall_mem_append_singleton (fun call hc => hl.sound (h.calls call hc)) ?_
    cases request <;> trivial

theorem step_kept {label : Label (RelayRequest α) RelayInput RelayEvent} (h : Kept s)
    (hg : OnMoves Accepted s label) (hs : system.step s label = some next) : Kept next := by
  cases label with
  | start request => rw [step_start_eq_some hs]; exact fun hr => accounted_start (h hr) request
  | move i input =>
    obtain ⟨call, t, moved, hc, hm, rfl⟩ := step_move_eq_some hs
    intro hr
    have hb : s.store.registered := (move_registered hm).symm.trans hr
    obtain ⟨hsent, hk⟩ := hg call hc hb
    exact Effect.accounted (move_effect hm hsent hk) (h hb) hc
  | event e =>
    obtain ⟨t, he, rfl⟩ := step_event_eq_some hs
    cases e with
    | read size =>
      cases he
      exact fun hr => accounted_of_alike (h hr) (s.store.stream.take_alike size)
    | readControl =>
      obtain ⟨⟨credit, stream⟩, hread, rfl⟩ := map_eq_some_iff.mp he
      exact fun hr => accounted_of_alike (h hr) (AgentRelayStream.readControl_alike hread)
    | unregister => cases he; exact fun hr => nomatch hr

theorem accounted_started (window : ℕ) (strict : Bool) : Accounted (started window strict :
    State (RelayEntry α) (RelayCall α)) := by
  refine ⟨nofun, fun ht => absurd rfl ht.1, nofun, nofun, fun call hc => ?_⟩
  rw [mem_singleton.mp hc]
  trivial

theorem departed_stream_is_told (window : ℕ) (strict : Bool)
    (labels : List (Interleaving.Label (RelayRequest α) RelayInput RelayEvent))
    (haccepted : Along RelayEntry.system.step (OnMoves RelayEntry.Accepted) (RelayEntry.started window strict) labels) :
    Always RelayEntry.system.step NoOrphan (RelayEntry.started window strict) labels := by
  have hkept := always_of_invariant (fun _ _ _ => step_kept)
    (RelayEntry.started window strict) labels (fun _ => accounted_started window strict) haccepted
  exact hkept.mono fun _ h hgone hregistered => (h hregistered).noOrphan hgone hregistered

def orderlyEnd : List (Label (RelayRequest Unit) RelayInput RelayEvent) :=
  [.move 0 .go, .start .closeWrite, .move 1 .go, .move 1 .go, .start (.frame .halfClose), .move 2 .go, .move 2 .go,
    .move 2 .go]

theorem orderly_end_is_told :
    ∃ final, run RelayEntry.system.step (RelayEntry.started 65536 false) orderlyEnd = some final ∧
      final.store.stream.attached = false ∧ final.store.Told := by
  obtain ⟨final, hrun, ⟨hgone, hregistered, hquiet⟩, htold⟩ := (departed_stream_is_told 65536 false orderlyEnd
    (by decide +kernel)).exists_run (p := fun s => s.store.stream.attached = false ∧ s.store.registered ∧
      ∀ call ∈ s.procs, call.owes = false) (by decide +kernel)
  refine ⟨final, hrun, hgone, (htold hgone hregistered).resolve_right ?_⟩
  rintro ⟨call, hcall, howes⟩
  rw [hquiet call hcall] at howes
  cases howes

-- The manager refuses OPEN_STREAM, or a frame of `Write`, `WriteControl` or
-- `CloseWrite` before the stream is closed.
def refusedSends : List (List (Label (RelayRequest Unit) RelayInput RelayEvent)) :=
  [[.move 0 .refused, .move 0 .go, .move 0 .go],
    [.move 0 .go, .start .write, .move 1 .refused, .move 1 .go, .move 1 .go, .start .close, .move 2 .go, .move 2 .go,
      .move 2 .go],
    [.move 0 .go, .start .writeControl, .move 1 .refused, .move 1 .go, .move 1 .go, .start .close, .move 2 .go,
      .move 2 .go, .move 2 .go],
    [.move 0 .go, .start .closeWrite, .move 1 .go, .move 1 .refused, .move 1 .go, .move 1 .go, .start .close,
      .move 2 .go, .move 2 .go, .move 2 .go]]

-- After each of them all calls have returned, and the Agent does not know.
theorem refused_send_orphans_stream : refusedSends.Forall fun labels => ∃ final,
    run RelayEntry.system.step (RelayEntry.started 65536 false) labels = some final ∧
      final.store.stream.attached = false ∧ final.store.registered ∧ (∀ call ∈ final.procs, call = .returned) ∧
        ¬final.store.Told := by
  rw [forall_iff_forall_mem]
  intro labels hlabels
  apply exists_run_of_any
  revert labels
  decide +kernel

end TunnelMesh.Relay
