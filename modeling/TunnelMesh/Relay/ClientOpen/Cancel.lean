import TunnelMesh.Relay.ClientOpen
import Mathlib.Data.List.Basic

namespace TunnelMesh.Relay.ClientOpen

open Transition Option

def accepts (s : ClientOpen) : Prop := s.waiter = .removing true ∨ s.waiter = .registering

-- A connection that was accepted is in one place: with the worker, in the future,
-- with the goroutine or in the table.
structure Placed (s : ClientOpen) : Prop where
  worker : s.worker = .delivering true → s.connection = .opened
  future : s.future = some true → s.worker = .done ∧ s.connection = .opened ∧ ¬s.accepts ∧ s.entry = false
  goroutine : s.accepts → s.worker = .done ∧ s.connection = .opened
  table : s.entry → s.worker = .done ∧ s.connection = .opened
  before : s.underWay → s.entry = false

-- Only a cancelling frame loses the opening of a goroutine that is not about to
-- register.
structure Claimed (s : ClientOpen) : Prop where
  opening : s.underWay → s.opening ∨ s.waiter = .registering ∨ s.cancelled ∨ s.loop = .cancelling false
  removing : s.loop = .removing → s.cancelled

-- A cancelled open has no connection that passed the check, and its context is
-- gone.
def Withdrawn (s : ClientOpen) : Prop := s.cancelled → s.jobDone ∧ s.Unpassed

inductive Effect (s : ClientOpen) : OpenLabel → ClientOpen → Prop where
  | started (hworker : s.worker = .queued) : Effect s .start { s with worker := .opening }
  | answered (hworker : s.worker = .opening) :
      Effect s (.answer accepted)
        { s with worker := .checking, connection := if accepted then .opened else .none }
  | timedOut : Effect s .timeout { s with timedOut := true }
  | checked (hworker : s.worker = .checking) : Effect s .check s.check
  | delivered (hworker : s.worker = .delivering accepted) : Effect s .deliver (s.deliver accepted)
  | refused (hworker : s.worker = .queued) :
      Effect s .closeService { s with worker := .done, jobDone := true, future := some false }
  | took (hwaiter : s.waiter = .waiting) (hfuture : s.future = some accepted) :
      Effect s (.wait false) { s with waiter := .removing accepted, future := none }
  | gaveUp (hwaiter : s.waiter = .waiting) : Effect s (.wait true) { s with waiter := .removing false }
  | removed (hwaiter : s.waiter = .removing accepted) :
      Effect s .remove { s with opening := false, waiter := if accepted then .registering else .finished }
  | registered (hwaiter : s.waiter = .registering) : Effect s .register s.register
  | answeredClient : Effect s (.sendResult true) { s with waiter := .finished }
  | unanswered : Effect s (.sendResult false) { s.retire with waiter := .finished }
  | retired : Effect s label s.retire
  | withdrew (hidle : s.loop = .idle) : Effect s (.frame .reset) { s with opening := false, loop := .cancelling false }
  | found (hidle : s.loop = .idle) : Effect s (.frame f) { s with loop := .cancelling true }
  | missed (hidle : s.loop = .idle) (hopening : s.opening = false) : Effect s (.frame f) s.missed
  | passedOn : Effect s (.frame f) s
  | cancelled {loop : FrameLoop} : Effect s .cancel { s.cancel with loop }
  | forgot (hloop : s.loop = .removing) : Effect s .removeOpening { s with opening := false, loop := .idle }
  | tearing (hidle : s.loop = .idle) : Effect s .teardown { s with loop := .retiring s.entry }
  | cleared (hloop : s.loop = .retiring seen) : Effect s .retireStreams { s with loop := .clearing }
  | emptied (hloop : s.loop = .retiring seen) :
      Effect s .retireStreams { s.retire with loop := .clearing }
  | cancelledAll (hopening : s.opening) : Effect s .cancelOpenings { s.cancel with loop := .over }
  | missedAll (hloop : s.loop = .clearing) (hopening : s.opening = false) :
      Effect s .cancelOpenings { s.missed with loop := .over }
  | sessionEnded : Effect s .sessionDone { s.missed with sessionDone := true, jobDone := true }

variable {s next : ClientOpen}

theorem handleFrame_effect (hi : s.loop = .idle) (f : OpenFrame) : Effect s (.frame f) (s.handleFrame f) := by
  unfold handleFrame
  split
  · cases f with
    | reset => exact .withdrew hi
    | data | halfClose => exact .found hi
  · next ho =>
    split
    · exact .missed hi (Bool.eq_false_iff.mpr ho)
    · cases f with
      | reset => exact .retired
      | data | halfClose => exact .passedOn

theorem step_effect (hs : s.step label = some next) : Effect s label next := by
  cases label with
  | start => obtain ⟨hg, rfl⟩ := guard_eq_some hs; exact .started hg
  | answer accepted => obtain ⟨hg, rfl⟩ := guard_eq_some hs; exact .answered hg
  | timeout => obtain ⟨-, rfl⟩ := guard_eq_some hs; exact .timedOut
  | check => obtain ⟨hg, rfl⟩ := guard_eq_some hs; exact .checked hg
  | deliver =>
    simp only [step] at hs
    split at hs <;> cases hs
    next accepted hworker => exact .delivered hworker
  | closeService => obtain ⟨hg, rfl⟩ := guard_eq_some hs; exact .refused hg
  | wait done =>
    simp only [step, ite_none_right_eq_some] at hs
    obtain ⟨hw, hn⟩ := hs
    cases done with
    | false => obtain ⟨accepted, hf, rfl⟩ := map_eq_some_iff.mp hn; exact .took hw hf
    | true => obtain ⟨-, rfl⟩ := guard_eq_some hn; exact .gaveUp hw
  | remove =>
    simp only [step] at hs
    split at hs <;> cases hs
    next accepted hw => exact .removed hw
  | register => obtain ⟨hg, rfl⟩ := guard_eq_some hs; exact .registered hg
  | sendResult sent =>
    simp only [step, ite_none_right_eq_some] at hs
    obtain ⟨-, hn⟩ := hs
    cases sent with
    | true => cases hn; exact .answeredClient
    | false => cases hn; exact .unanswered
  | retire => cases hs; exact .retired
  | frame f => obtain ⟨hg, rfl⟩ := guard_eq_some hs; exact handleFrame_effect hg f
  | cancel =>
    simp only [step] at hs
    split at hs <;> cases hs
    exact .cancelled
  | removeOpening => obtain ⟨hg, rfl⟩ := guard_eq_some hs; exact .forgot hg
  | teardown => obtain ⟨hg, rfl⟩ := guard_eq_some hs; exact .tearing hg
  | retireStreams =>
    simp only [step] at hs
    split at hs <;> cases hs
    next seen hl =>
      split
      · exact .emptied hl
      · exact .cleared hl
  | cancelOpenings =>
    simp only [step, ite_none_right_eq_some] at hs
    obtain ⟨hl, hn⟩ := hs
    cases hn
    split
    · next ho => exact .cancelledAll ho
    · next ho => exact .missedAll hl (Bool.eq_false_iff.mpr ho)
  | sessionDone => cases hs; exact .sessionEnded

theorem placed_opened (full : Bool) : (opened full).Placed := by
  cases full <;> exact ⟨nofun, nofun, nofun, nofun, fun _ => rfl⟩

section

variable (h : s.Placed)

include h

theorem placed_retire : s.retire.Placed := by
  unfold retire
  split
  · next he =>
    obtain ⟨hd, -⟩ := h.table he
    have hafter : ¬s.underWay := fun hu => by
      rw [h.before hu] at he
      cases he
    refine ⟨fun hw => ?_, fun hf => ?_, fun ha => absurd ?_ hafter, nofun, fun _ => rfl⟩
    · rw [hd] at hw; cases hw
    · rw [(h.future hf).2.2.2] at he; cases he
    · rcases ha with hwaiter | hwaiter <;> rw [underWay, show s.waiter = _ from hwaiter]
  · exact h

theorem Placed.of_worker (hb : s.worker ≠ .done) : s.future ≠ some true ∧ ¬s.accepts ∧ s.entry = false :=
  ⟨fun hf => hb (h.future hf).1, fun ha => hb (h.goroutine ha).1, Bool.eq_false_iff.mpr fun he => hb (h.table he).1⟩

theorem placed_check (hw : s.worker = .checking) : s.check.Placed := by
  obtain ⟨hf, ha, he⟩ := h.of_worker (by rw [hw]; nofun)
  unfold check
  split
  · exact ⟨nofun, fun hs => absurd hs hf, fun hhas => absurd hhas ha,
      fun hl => absurd (he.symm.trans hl) nofun, fun _ => he⟩
  · refine ⟨fun hp => ?_, fun hs => absurd hs hf, fun hhas => absurd hhas ha,
      fun hl => absurd (he.symm.trans hl) nofun, fun _ => he⟩
    simpa using OpenWorker.delivering.inj hp

theorem placed_deliver (hw : s.worker = .delivering accepted) : (s.deliver accepted).Placed := by
  obtain ⟨-, ha, he⟩ := h.of_worker (by rw [hw]; nofun)
  refine ⟨nofun, fun hs => ?_, fun hhas => absurd hhas ha, fun hl => absurd (he.symm.trans hl) nofun, fun _ => he⟩
  cases hs
  exact ⟨rfl, h.worker hw, ha, he⟩

theorem placed_register (hw : s.waiter = .registering) : s.register.Placed := by
  have hb : s.entry = false := h.before (by rw [underWay, hw])
  obtain ⟨hd, ho⟩ := h.goroutine (.inr hw)
  have ha : s.accepts := .inr hw
  unfold register
  rw [if_neg (by simp [hb])]
  exact ⟨h.worker, fun hf => absurd ha (h.future hf).2.2.1, nofun, fun _ => ⟨hd, ho⟩, nofun⟩

theorem placed_took (hw : s.waiter = .waiting)
    (hf : s.future = some accepted) : Placed { s with waiter := .removing accepted, future := none } := by
  have he : s.entry = false := h.before (by rw [underWay, hw])
  refine ⟨h.worker, nofun, fun ha => ?_, h.table, fun _ => he⟩
  rcases ha with hremoving | hr
  · cases hremoving; exact ⟨(h.future hf).1, (h.future hf).2.1⟩
  · cases hr

theorem placed_remove (hw : s.waiter = .removing accepted) :
    Placed { s with opening := false, waiter := if accepted then .registering else .finished } := by
  have he : s.entry = false := h.before (by rw [underWay, hw])
  cases accepted with
  | false =>
    exact ⟨h.worker, fun hf => ⟨(h.future hf).1, (h.future hf).2.1, nofun, he⟩, nofun, h.table, nofun⟩
  | true =>
    have ha : s.accepts := .inl hw
    exact ⟨h.worker, fun hf => absurd ha (h.future hf).2.2.1, fun _ => h.goroutine ha, h.table, fun _ => he⟩

theorem Placed.busy (hb : s.worker ≠ .done) (hw : next.worker ≠ .delivering true)
    (hf : next.future = some true → s.future = some true) (hwaiter : next.waiter = s.waiter)
    (he : next.entry = s.entry) : next.Placed := by
  obtain ⟨hempty, ha, hg⟩ := h.of_worker hb
  have hs : ¬next.accepts := by
    unfold accepts
    rw [hwaiter]
    exact ha
  exact ⟨fun hp => absurd hp hw, fun hsome => absurd (hf hsome) hempty,
    fun hhas => absurd hhas hs, fun hl => absurd (hg.symm.trans (he.symm.trans hl)) nofun,
    fun _ => he.trans hg⟩

theorem placed_finish : Placed { s with waiter := .finished } :=
  ⟨h.worker, fun hf => ⟨(h.future hf).1, (h.future hf).2.1, nofun, (h.future hf).2.2.2⟩, nofun, h.table, nofun⟩

end

theorem Effect.placed (heffect : s.Effect label next) (h : s.Placed) : next.Placed := by
  cases heffect with
  | started hw | answered hw => exact h.busy (by rw [hw]; nofun) nofun id rfl rfl
  | checked hw => exact placed_check h hw
  | delivered hw => exact placed_deliver h hw
  | refused hw => exact h.busy (by rw [hw]; nofun) nofun nofun rfl rfl
  | took hwaiter hf => exact placed_took h hwaiter hf
  | gaveUp hwaiter =>
    have he : s.entry = false := h.before (by rw [underWay, hwaiter])
    refine ⟨h.worker, fun hf => ?_, nofun, h.table, fun _ => he⟩
    exact ⟨(h.future hf).1, (h.future hf).2.1, nofun, he⟩
  | removed hwaiter => exact placed_remove h hwaiter
  | registered hwaiter => exact placed_register h hwaiter
  | answeredClient => exact placed_finish h
  | unanswered => exact placed_finish (placed_retire h)
  | retired => exact placed_retire h
  | passedOn => exact h
  | emptied => have hr := placed_retire h; exact { hr with }
  | _ => exact { h with }

theorem retire_eq (s : ClientOpen) : s.retire = s ∨ s.retire = { s with entry := false, connection := .closed } := by
  unfold retire
  split
  · exact .inr rfl
  · exact .inl rfl

theorem retire_loop (s : ClientOpen) : s.retire.loop = s.loop := by
  rcases retire_eq s with hs | hr
  · rw [hs]
  · rw [hr]

theorem claimed_opened (full : Bool) : (opened full).Claimed := ⟨fun _ => .inl rfl, nofun⟩

theorem claimed_retire (h : s.Claimed) : s.retire.Claimed := by
  rcases retire_eq s with hs | hr
  · rw [hs]; exact h
  · rw [hr]; exact ⟨h.opening, h.removing⟩

theorem Claimed.settle (h : s.Claimed) {loop : FrameLoop} (hb : s.loop ≠ .cancelling false)
    (ha : loop ≠ .removing) : Claimed { s with loop } := by
  refine ⟨fun hu => ?_, fun hr => absurd hr ha⟩
  rcases h.opening hu with ho | hw | hc | hl
  · exact .inl ho
  · exact .inr (.inl hw)
  · exact .inr (.inr (.inl hc))
  · exact absurd hl hb

theorem claimed_missed (h : s.Claimed) : s.missed.Claimed := by
  refine ⟨fun hu => .inr (.inr (.inl ?_)), fun hr => ?_⟩
  · show (s.cancelled || s.underWay) = true; rw [show s.underWay = true from hu, Bool.or_true]
  · show (s.cancelled || s.underWay) = true; rw [h.removing hr, Bool.true_or]

theorem claimed_cancel {loop : FrameLoop} : Claimed { s.cancel with loop } :=
  ⟨fun _ => .inr (.inr (.inl rfl)), fun _ => rfl⟩

theorem Claimed.of_waiting (h : s.Claimed) (hw : s.waiter = .waiting) :
    s.opening ∨ s.cancelled ∨ s.loop = .cancelling false := by
  rcases h.opening (by rw [underWay, hw]) with ho | hr | hrest
  · exact .inl ho
  · rw [hw] at hr; cases hr
  · exact .inr hrest

theorem Effect.claimed (he : s.Effect label next) (h : s.Claimed) : next.Claimed := by
  cases he with
  | started | answered | timedOut | delivered | refused => exact ⟨h.opening, h.removing⟩
  | checked => unfold check; split <;> exact ⟨h.opening, h.removing⟩
  | took hw | gaveUp hw => exact ⟨fun _ => (h.of_waiting hw).imp_right .inr, h.removing⟩
  | @removed accepted hw =>
    cases accepted with
    | false => exact ⟨nofun, h.removing⟩
    | true => exact ⟨fun _ => .inr (.inl rfl), h.removing⟩
  | registered => unfold register; split <;> exact ⟨nofun, h.removing⟩
  | answeredClient => exact ⟨nofun, h.removing⟩
  | unanswered => exact ⟨nofun, (claimed_retire h).removing⟩
  | retired => exact claimed_retire h
  | withdrew => exact ⟨fun _ => .inr (.inr (.inr rfl)), nofun⟩
  | found hi | tearing hi => exact h.settle (by rw [hi]; nofun) nofun
  | missed => exact claimed_missed h
  | passedOn => exact h
  | cancelled | cancelledAll => exact claimed_cancel
  | forgot hl => exact ⟨fun _ => .inr (.inr (.inl (h.removing hl))), nofun⟩
  | cleared hl => exact h.settle (by rw [hl]; nofun) nofun
  | emptied hl => exact (claimed_retire h).settle (by rw [retire_loop, hl]; nofun) nofun
  | missedAll hl =>
    have hb : s.loop ≠ .cancelling false := by rw [hl]; nofun
    exact (claimed_missed h).settle hb nofun
  | sessionEnded => exact ⟨(claimed_missed h).opening, (claimed_missed h).removing⟩

theorem Withdrawn.keep (h : s.Withdrawn) (hc : next.cancelled → s.cancelled)
    (hjob : s.jobDone → next.jobDone) (hw : next.worker = s.worker)
    (hconnection : next.connection = .opened → s.connection = .opened) : next.Withdrawn := fun hn =>
  ⟨hjob (h (hc hn)).1, fun ho => hw.trans ((h (hc hn)).2 (hconnection ho))⟩

theorem Withdrawn.pass (h : s.Withdrawn) (hc : next.cancelled → s.cancelled)
    (hjob : s.jobDone → next.jobDone) (hw : s.worker ≠ .checking)
    (hconnection : next.connection = s.connection) : next.Withdrawn := fun hn =>
  ⟨hjob (h (hc hn)).1, fun ho => absurd ((h (hc hn)).2 (hconnection.symm.trans ho)) hw⟩

theorem withdrawn_check (h : s.Withdrawn) : s.check.Withdrawn := by
  unfold check
  split
  · exact fun hc => ⟨(h hc).1, nofun⟩
  · next hs =>
    intro hc
    have hjob := (h hc).1
    exact ⟨hjob, fun ho => absurd ⟨ho, .inl hjob⟩ hs⟩

theorem withdrawn_retire (h : s.Withdrawn) : s.retire.Withdrawn := by
  unfold retire
  split
  · exact h.keep id id rfl nofun
  · exact h

theorem withdrawn_missed (hp : s.Placed) (hclaimed : s.Claimed) (h : s.Withdrawn) (ho : s.opening = false)
    (hl : s.loop ≠ .cancelling false) (ht : s.underWay → s.Unpassed) : s.missed.Withdrawn := by
  intro hm
  by_cases hc : s.cancelled
  · exact h hc
  have hu : s.underWay := by
    rcases Bool.or_eq_true_iff.mp hm with hb | hu
    · exact absurd hb hc
    · exact hu
  rcases hclaimed.opening hu with hclaim | hw | hclaim | hclaim
  · rw [ho] at hclaim; cases hclaim
  · obtain ⟨hd, hopened⟩ := hp.goroutine (.inr hw)
    rw [ht hu hopened] at hd
    cases hd
  · exact absurd hclaim hc
  · exact absurd hclaim hl

theorem Effect.withdrawn (he : s.Effect label next) (hp : s.Placed) (hclaimed : s.Claimed)
    (h : s.Withdrawn) (ht : s.Timely label) : next.Withdrawn := by
  cases he with
  | started hw => exact h.pass id id (by rw [hw]; nofun) rfl
  | answered => exact fun hc => ⟨(h hc).1, fun _ => rfl⟩
  | checked => exact withdrawn_check h
  | delivered hw => exact h.pass id (fun hjob => by simp [deliver, hjob]) (by rw [hw]; nofun) rfl
  | refused hw => exact h.pass id (fun _ => rfl) (by rw [hw]; nofun) rfl
  | registered =>
    unfold register
    split
    · exact h.keep id id rfl nofun
    · exact h.keep id id rfl id
  | unanswered | emptied => exact (withdrawn_retire h).keep id id rfl id
  | retired => exact withdrawn_retire h
  | missed hi ho => exact withdrawn_missed hp hclaimed h ho (by rw [hi]; nofun) (ht ho)
  | cancelled => exact fun _ => ⟨rfl, ht⟩
  | cancelledAll ho => exact fun _ => ⟨rfl, ht (.inl ho)⟩
  | missedAll hl ho =>
    have hm := withdrawn_missed hp hclaimed h ho (by rw [hl]; nofun) fun hu => ht (.inr hu)
    exact hm.keep id id rfl id
  | sessionEnded =>
    intro hc
    refine ⟨rfl, ?_⟩
    rcases Bool.or_eq_true_iff.mp hc with hb | hu
    · exact (h hb).2
    · exact ht hu
  | _ =>
    exact h.keep id id rfl id

theorem abandoned_of_withdrawn (hp : s.Placed) (h : s.Withdrawn) : s.Abandoned := by
  intro hc
  obtain ⟨hjob, hu⟩ := h hc
  refine ⟨Bool.eq_false_iff.mpr fun he => ?_, fun ho => ?_⟩
  · obtain ⟨hd, ho⟩ := hp.table he
    rw [hu ho] at hd
    cases hd
  · exact ⟨s.check, if_pos (hu ho), by simp [check, ho, hjob]⟩

structure Sound (s : ClientOpen) : Prop where
  placed : s.Placed
  claimed : s.Claimed
  withdrawn : s.Withdrawn

theorem step_sound (h : s.Sound) (ht : s.Timely label) (hs : s.step label = some next) : next.Sound :=
  have he := step_effect hs
  ⟨he.placed h.placed, he.claimed h.claimed, he.withdrawn h.placed h.claimed h.withdrawn ht⟩

theorem cancelled_open_stays_away (full : Bool) (labels : List OpenLabel)
    (htimely : Along step Timely (opened full) labels) : Always step Abandoned (opened full) labels := by
  have hsound := always_of_invariant (fun _ _ _ => step_sound) (opened full)
    labels ⟨placed_opened full, claimed_opened full, nofun⟩ htimely
  exact hsound.mono fun _ h => abandoned_of_withdrawn h.placed h.withdrawn

instance (s : ClientOpen) : Decidable s.Unpassed := inferInstanceAs (Decidable (_ → _))

instance (s : ClientOpen) (label : OpenLabel) : Decidable (s.Timely label) := by
  cases label <;> dsimp only [Timely] <;> infer_instance

def earlyReset : List OpenLabel :=
  [.start, .frame .reset, .cancel, .answer true, .check, .deliver, .wait false, .remove]

theorem early_reset_stays_away : ∃ final, run step (opened false) earlyReset = some final ∧ final.cancelled ∧
      final.connection = .closed ∧ final.waiter = .finished ∧ final.entry = false := by
  obtain ⟨final, hrun, ⟨hcancelled, hclosed, hwaiter⟩, habandoned⟩ := (cancelled_open_stays_away false earlyReset
    (by decide +kernel)).exists_run (p := fun s => s.cancelled ∧ s.connection = .closed ∧ s.waiter = .finished)
      (by decide +kernel)
  exact ⟨final, hrun, hcancelled, hclosed, hwaiter, (habandoned hcancelled).1⟩

def cancelRuns : List (List OpenLabel) :=
  [[.frame .reset, .cancel], [.frame .data, .cancel, .removeOpening], [.frame .halfClose, .cancel, .removeOpening],
    [.teardown, .retireStreams, .cancelOpenings]]

-- After the worker's check each of them comes too late: the stream goes to the
-- table, and after the teardown it stays there.
theorem late_cancel_goes_live : cancelRuns.Forall fun labels => ∃ final, run step (opened false)
      ([.start, .answer true, .check, .deliver] ++ labels ++ [.wait false, .remove, .register, .sendResult true]) =
        some final ∧ final.cancelled ∧ final.entry ∧ final.connection = .opened ∧ final.waiter = .finished := by
  rw [List.forall_iff_forall_mem]
  intro labels hlabels
  apply exists_run_of_any
  revert labels
  decide +kernel

end TunnelMesh.Relay.ClientOpen
