import TunnelMesh.Agent.StreamDispatcher
import TunnelMesh.Interleaving

namespace TunnelMesh.Agent

open Session Option Transition List

variable {π : Type} {size : π → ℕ} {inboundBytes : ℕ}

def SlotLabel.isOpening : SlotLabel π → Bool
  | .opening _ => true
  | _ => false

namespace StreamSlot

def awaited (s : StreamSlot π) : Bool := s.job.any fun job => s.pending.any (·.token = job.token)

def refuses (size : π → ℕ) (inboundBytes : ℕ) (s : StreamSlot π) : Bool :=
  match s.reader with
  | .refusing => true
  | .buffering payload => s.pending.any fun pending => inboundBytes < pending.pendingBytes + size payload
  | _ => false

-- A dial returns a connection only for a stream that is still pending, and a
-- pending stream is removed only as long as its dial has returned none.
def Undisturbed (size : π → ℕ) (inboundBytes : ℕ) (s : StreamSlot π) : SlotLabel π → Prop
  | .dialed ok => ok → s.awaited
  | .reset => s.holdsConnection = false
  | .handle _ => s.refuses size inboundBytes → s.holdsConnection = false
  | _ => True

instance (s : StreamSlot π) : (label : SlotLabel π) → Decidable (s.Undisturbed size inboundBytes label)
  | .dialed _ | .handle _ => inferInstanceAs (Decidable (_ → _))
  | .reset => inferInstanceAs (Decidable (_ = _))
  | .opening _ | .data _ | .halfClose | .completeDial | .admitEarly _ | .removeCancel | .pump _ | .retire _
  | .close => isTrue trivial

def Withdrawn (s : StreamSlot π) : Prop := ∀ token ∈ s.removed, ∀ t ∈ s.target, t.token ≠ token

structure Owned (s : StreamSlot π) : Prop where
  connection : s.holdsConnection → s.awaited
  apart : s.pending.isSome → s.target = none
  latest : ∀ p ∈ s.pending, p.token + 1 = s.opens
  job : ∀ job ∈ s.job, job.token < s.opens ∧ (s.reader = .submitting → job.token + 1 < s.opens)
  submitting : s.reader = .submitting → 0 < s.opens
  removed : ∀ token ∈ s.removed, token < s.opens ∧ (∀ p ∈ s.pending, p.token ≠ token) ∧ ∀ t ∈ s.target, t.token ≠ token

structure Shrinks (s next : StreamSlot π) : Prop where
  opens : next.opens = s.opens
  pending : ∀ p' ∈ next.pending, ∃ p ∈ s.pending, p'.token = p.token
  target : ∀ t' ∈ next.target, ∃ t ∈ s.target, t.Same t'
  job : ∀ job' ∈ next.job, ∃ job ∈ s.job, job'.token = job.token
  reader : next.reader = .submitting → s.reader = .submitting
  connection : next.holdsConnection → next.awaited
  removed : ∀ token ∈ next.removed, token ∈ s.removed ∨ next.pending = none ∧ ∃ p ∈ s.pending, p.token = token

def active (s : StreamSlot π) : ℕ := s.isLive.toNat + s.pending.isSome.toNat

variable {s next : StreamSlot π}

theorem owned_empty : (empty : StreamSlot π).Owned where
  connection := nofun
  apart := nofun
  latest := nofun
  job := nofun
  submitting := nofun
  removed := nofun

theorem Owned.withdrawn (h : s.Owned) : s.Withdrawn := fun token hr => (h.removed token hr).2.2

theorem Shrinks.pending_of_some (hn : Shrinks s next) (h : next.pending.isSome) : s.pending.isSome := by
  obtain ⟨p', hp'⟩ := isSome_iff_exists.mp h
  obtain ⟨p, hp, -⟩ := hn.pending p' hp'
  exact isSome_iff_exists.mpr ⟨p, hp⟩

theorem Shrinks.live (hn : Shrinks s next) (h : next.isLive) : s.isLive := by
  obtain ⟨t', ht', hh⟩ := (isLive_iff next).mp h
  obtain ⟨t, ht, hs⟩ := hn.target t' ht'
  exact (isLive_iff s).mpr ⟨t, ht, hs.present hh⟩

theorem Shrinks.owned (hn : Shrinks s next) (h : s.Owned) : next.Owned := by
  refine ⟨hn.connection, fun hsome => ?_, fun p' hp' => ?_, fun job' hj => ?_, fun hr => ?_, fun token htoken => ?_⟩
  · have hnone := h.apart (hn.pending_of_some hsome)
    rw [eq_none_iff_forall_not_mem]
    intro t' ht'
    obtain ⟨t, ht, -⟩ := hn.target t' ht'
    rw [hnone] at ht
    cases ht
  · obtain ⟨p, hp, htoken⟩ := hn.pending p' hp'; rw [htoken, hn.opens, h.latest p hp]
  · obtain ⟨job, hjob, htoken⟩ := hn.job job' hj
    rw [htoken, hn.opens]
    exact ⟨(h.job job hjob).1, fun hr => (h.job job hjob).2 (hn.reader hr)⟩
  · rw [hn.opens]; exact h.submitting (hn.reader hr)
  · rw [hn.opens]
    rcases hn.removed token htoken with hold | ⟨hnone, p, hp, rfl⟩
    · obtain ⟨hlt, hpending, htarget⟩ := h.removed token hold
      refine ⟨hlt, fun p' hp' => ?_, fun t' ht' => ?_⟩
      · obtain ⟨p, hp, hs⟩ := hn.pending p' hp'; exact hs ▸ hpending p hp
      · obtain ⟨t, ht, hs⟩ := hn.target t' ht'; exact hs.token ▸ htarget t ht
    · -- A stream that was pending has no target.
      have hlatest := h.latest p hp
      refine ⟨by omega, fun p' hp' => ?_, fun t' ht' => ?_⟩
      · rw [hnone] at hp'; cases hp'
      · obtain ⟨t, ht, -⟩ := hn.target t' ht'
        rw [h.apart (isSome_iff_exists.mpr ⟨p, hp⟩)] at ht
        cases ht

theorem toNat_le_of_imp (h : a = true → b = true) : a.toNat ≤ b.toNat := by
  cases a with
  | false => exact Nat.zero_le _
  | true => rw [h rfl]

theorem Shrinks.active_le (hn : Shrinks s next) : next.active ≤ s.active :=
  Nat.add_le_add (toNat_le_of_imp hn.live) (toNat_le_of_imp hn.pending_of_some)

theorem shrinks_of_same {target : Option (Target π)} {job : Option (DialJob π)} {reader : FrameReader π}
    {closed : Bool} {received : List π} {halfAt : Option ℕ} (ht : ∀ t' ∈ target, ∃ t ∈ s.target, t.Same t')
    (hjob : ∀ job' ∈ job, ∃ job ∈ s.job, job'.token = job.token) (hr : reader = .submitting → s.reader = .submitting)
    (hc : holdsConnection { s with job } → awaited { s with job }) :
    Shrinks s { s with target, job, reader, closed, received, halfAt } where
  opens := rfl
  pending := fun p hp => ⟨p, hp, rfl⟩
  target := ht
  job := hjob
  reader := hr
  connection := hc
  removed := fun _ => .inl

theorem shrinks_of_dropped (hc : s.holdsConnection = false) {target : Option (Target π)}
    (ht : ∀ t' ∈ target, ∃ t ∈ s.target, t.Same t') : Shrinks s { s with
      pending := none, removed := s.removed ++ (s.pending.map (·.token)).toList, target, reader := .idle } where
  opens := rfl
  pending := nofun
  target := ht
  job := fun job hjob => ⟨job, hjob, rfl⟩
  reader := nofun
  connection := fun hh => absurd hh (by rw [Bool.not_eq_true]; exact hc)
  removed := by
    intro token htoken
    rcases mem_append.mp htoken with hold | hnew
    · exact .inl hold
    · obtain ⟨p, hp, rfl⟩ : ∃ p, s.pending = some p ∧ p.token = token := by simpa using hnew
      exact .inr ⟨rfl, p, hp, rfl⟩

theorem shrinks_of_pending {p p' : PendingStream π} (h : s.Owned) (hp : s.pending = some p)
    (htoken : p'.token = p.token)
    (reader : FrameReader π) (hr : reader = .submitting → s.reader = .submitting) (halfAt : Option ℕ) :
    Shrinks s { s with pending := some p', reader, halfAt } where
  opens := rfl
  pending := by
    intro other ho
    cases ho
    exact ⟨p, hp, htoken⟩
  target := fun t ht => ⟨t, ht, .refl t⟩
  job := fun job hjob => ⟨job, hjob, rfl⟩
  reader := hr
  connection := by
    intro hh
    have ha := h.connection hh
    simp only [awaited, hp, any_some] at ha
    simp only [awaited, any_some, htoken, ha]
  removed := fun _ => .inl

def Keeps (s next : StreamSlot π) : Prop := next.Owned ∧ next.active ≤ s.active

theorem Shrinks.keeps (hn : Shrinks s next) (h : s.Owned) : Keeps s next := ⟨hn.owned h, hn.active_le⟩

theorem closed_target (s : StreamSlot π) : ∀ t' ∈ s.closeTarget.target, ∃ t ∈ s.target, t.Same t' := by
  intro t' ht'
  obtain ⟨t, ht, hs, -⟩ := closeTarget_target s t' ht'
  exact ⟨t, ht, hs⟩

theorem handleOpen_keeps (h : s.Owned) (strict : Bool) :
    (s.handleOpen strict).Owned ∧ (s.handleOpen strict).active ≤ s.active + 1 := by
  unfold handleOpen
  split
  · exact ⟨h, Nat.le_succ _⟩
  · next hf =>
    simp only [not_or, Bool.not_eq_true, isSome_eq_false_iff, isNone_iff_eq_none] at hf
    obtain ⟨-, hgone, hn⟩ := hf
    refine ⟨⟨fun hh => ?_, fun _ => rfl, fun p hp => ?_, fun job hjob => ?_, fun _ => Nat.succ_pos _,
      fun token ht => ?_⟩, ?_⟩
    · -- A connection on its way is for a stream that is pending.
      have ha := h.connection hh
      simp [awaited, hn] at ha
    · cases hp; rfl
    · have hlt := (h.job job hjob).1; exact ⟨Nat.lt_succ_of_lt hlt, fun _ => Nat.succ_lt_succ hlt⟩
    · have hlt := (h.removed token ht).1
      refine ⟨Nat.lt_succ_of_lt hlt, fun p hp => ?_, nofun⟩
      cases hp
      simp only
      omega
    · simp [active, isLive]

section Shrinking

theorem same_target (target : Option (Target π)) : ∀ t ∈ target, ∃ t' ∈ target, t'.Same t :=
  fun t ht => ⟨t, ht, .refl t⟩

theorem mapped_target (target : Option (Target π)) {f : Target π → Target π} (hf : ∀ t : Target π, t.Same (f t)) :
    ∀ t' ∈ target.map f, ∃ t ∈ target, t.Same t' := by
  intro t' ht'
  obtain ⟨t, ht, rfl⟩ := map_eq_some_iff.mp ht'
  exact ⟨t, ht, hf t⟩

theorem same_job (job : Option (DialJob π)) : ∀ j ∈ job, ∃ j' ∈ job, j.token = j'.token := fun j hj => ⟨j, hj, rfl⟩

theorem handleData_shrinks (h : s.Owned) (payload : π) : Shrinks s (s.handleData payload) := by
  unfold handleData
  simp only
  split
  · split
    · exact shrinks_of_same (closed_target s) (same_job _) id h.connection
    · exact shrinks_of_same (same_target _) (same_job _) nofun h.connection
  · split
    · refine shrinks_of_same (same_target _) (same_job _) (fun hr => ?_) h.connection
      split at hr <;> cases hr
    · exact shrinks_of_same (same_target _) (same_job _) id h.connection

theorem handleHalfClose_shrinks (h : s.Owned) : Shrinks s s.handleHalfClose := by
  unfold handleHalfClose
  simp only
  split
  · split
    · exact shrinks_of_same (same_target _) (same_job _) id h.connection
    · exact shrinks_of_same (same_target _) (same_job _) nofun h.connection
  · cases hp : s.pending with
    | none =>
      rw [map_none, ← hp]
      exact shrinks_of_same (same_target _) (same_job _) id h.connection
    | some p => exact shrinks_of_pending h hp (by rfl) s.reader id _

theorem no_connection_of_submitting (h : s.Owned) (hr : s.reader = .submitting) : s.holdsConnection = false := by
  by_contra hh
  have ha := h.connection (by simpa using hh)
  cases hjob : s.job with
  | none => simp [awaited, hjob] at ha
  | some job =>
    cases hp : s.pending with
    | none => simp [awaited, hjob, hp] at ha
    | some p =>
      have hsame : p.token = job.token := by simpa [awaited, hjob, hp] using ha
      have hjob := (h.job job hjob).2 hr
      have hlatest := h.latest p hp
      omega

theorem submit_keeps (h : s.Owned) (hr : s.reader = .submitting) (ok : Bool) :
    Keeps s ({ s with reader := .idle }.submit ok) := by
  unfold submit
  split
  · refine ⟨⟨nofun, h.apart, h.latest, fun job hjob => ?_, nofun, h.removed⟩, le_rfl⟩
    cases hjob
    exact ⟨Nat.sub_lt (h.submitting hr) Nat.one_pos, nofun⟩
  · have hf := no_connection_of_submitting h hr
    have hn : Shrinks s { s with pending := none, reader := .idle } :=
      ⟨rfl, nofun, same_target _, same_job _, nofun, fun hh => absurd hh (by rw [Bool.not_eq_true]; exact hf),
        fun _ => .inl⟩
    exact hn.keeps h

theorem handleNext_keeps {ok : Bool} (h : s.Owned) (hg : s.Undisturbed size inboundBytes (.handle ok))
    (hs : s.handleNext size inboundBytes ok = some next) : Keeps s next := by
  unfold handleNext at hs
  split at hs <;> cases hs
  · next hr => exact submit_keeps h hr ok
  · next payload hr =>
    unfold buffer
    split
    · exact Shrinks.keeps (shrinks_of_same (same_target _) (same_job _) nofun h.connection) h
    · next p hp =>
      have hp' : s.pending = some p := hp
      split
      · next hf =>
        have hfree := hg (by simpa [refuses, hr, hp'] using hf)
        exact Shrinks.keeps (shrinks_of_dropped hfree (same_target _)) h
      · exact Shrinks.keeps (shrinks_of_pending h hp' (by rfl) .idle nofun s.halfAt) h
  · next hr => exact Shrinks.keeps (shrinks_of_dropped (hg (by rw [refuses, hr])) (same_target _)) h
  · exact Shrinks.keeps (shrinks_of_same (mapped_target _ (·.same_admitted size ok _)) (same_job _) nofun h.connection) h
  · exact Shrinks.keeps (shrinks_of_same (mapped_target _ (·.same_handleHalfClose size)) (same_job _) nofun
      h.connection) h

theorem completeDial_keeps (h : s.Owned) (hjob : s.job = some ⟨token, .dialed ok⟩) :
    Keeps s (s.completeDial inboundBytes token ok) := by
  unfold completeDial
  split
  · have hn : Shrinks s { s with pending := none, job := some ⟨token, .finished⟩ } := by
      refine ⟨rfl, nofun, same_target _, fun job' hj => ?_, id, nofun, fun _ => .inl⟩
      cases hj
      exact ⟨_, hjob, rfl⟩
    exact hn.keeps h
  · next hok =>
    have hh : s.holdsConnection := by
      have hok' : ok = true := by simpa using fun hf => hok (.inl hf)
      simp [holdsConnection, hjob, DialStage.connected, hok']
    -- The connection is for the stream that is pending.
    obtain ⟨p, hp, htoken⟩ : ∃ p, s.pending = some p ∧ p.token = token := by
      have ha := h.connection hh
      cases hpending : s.pending with
      | none => simp [awaited, hjob, hpending] at ha
      | some p => exact ⟨p, rfl, by simpa [awaited, hjob, hpending] using ha⟩
    refine ⟨⟨nofun, nofun, nofun, fun job' hj => ?_, h.submitting, fun gone hg => ?_⟩, ?_⟩
    · cases hj; exact h.job ⟨token, .dialed ok⟩ hjob
    · obtain ⟨hlt, hpending, -⟩ := h.removed gone hg
      refine ⟨hlt, nofun, fun t ht => ?_⟩
      cases ht
      exact htoken ▸ hpending p hp
    · simp [active, hp, isLive, Target.opened]

theorem admitEarly_shrinks {token : ℕ} {ok halfClosed : Bool} {early : List π}
    (hjob : s.job = some ⟨token, .opening early halfClosed⟩) :
    Shrinks s (s.admitEarly size token ok early halfClosed) := by
  have hs : ∀ stage, ∀ job ∈ some (⟨token, stage⟩ : DialJob π), ∃ job' ∈ s.job, job.token = job'.token := by
    intro stage job hmem
    cases hmem
    exact ⟨_, hjob, rfl⟩
  cases early with
  | cons payload rest =>
    simp only [admitEarly]
    split
    · next target htarget =>
      obtain ⟨t, ht, hok⟩ := bind_eq_some_iff.mp htarget
      refine shrinks_of_same (fun t' ht' => ?_) (hs _) id nofun
      cases ht'
      exact ⟨t, ht, Target.same_admitInbound hok⟩
    · exact shrinks_of_same (mapped_target _ (·.same_removeAndClose)) (hs _) id nofun
  | nil =>
    cases halfClosed with
    | true => exact shrinks_of_same (mapped_target _ (·.same_handleHalfClose size)) (hs _) id nofun
    | false =>
      cases ok with
      | true => exact shrinks_of_same (same_target _) (hs _) id nofun
      | false => exact shrinks_of_same (mapped_target _ (·.same_removeAndClose)) (hs _) id nofun

theorem handleReset_shrinks (hc : s.holdsConnection = false) : Shrinks s s.handleReset := by
  have hd := shrinks_of_dropped hc (closed_target s)
  exact { hd with opens := rfl, pending := nofun, reader := id }

theorem work_keeps {label : SlotLabel π} (h : s.Owned) (hg : s.Undisturbed size inboundBytes label)
    (hs : s.work size inboundBytes label = some next) : Keeps s next := by
  unfold work at hs
  split at hs <;> cases hs
  · next token ok hjob =>
    refine Shrinks.keeps (shrinks_of_same (same_target _) (fun job' hj => ?_) id
      fun hh => ?_) h
    · cases hj; exact ⟨_, hjob, rfl⟩
    · have hok : ok = true := by simpa [holdsConnection, DialStage.connected] using hh
      have ha := hg hok
      simp only [awaited, hjob, any_some] at ha
      simp only [awaited, any_some, ha]
  · next hjob => exact completeDial_keeps h hjob
  · next hjob => exact (admitEarly_shrinks hjob).keeps h
  · exact Shrinks.keeps (shrinks_of_same (same_target _) nofun id nofun) h

end Shrinking

theorem step_keeps {label : SlotLabel π} (h : s.Owned) (hg : s.Undisturbed size inboundBytes label)
    (hs : s.step size inboundBytes label = some next) :
    next.Owned ∧ next.active ≤ s.active + label.isOpening.toNat := by
  cases label with
  | opening strict => obtain ⟨-, rfl⟩ := guard_eq_some hs; exact handleOpen_keeps h strict
  | data payload =>
    obtain ⟨-, rfl⟩ := guard_eq_some hs
    exact (handleData_shrinks h payload).keeps h
  | halfClose => obtain ⟨-, rfl⟩ := guard_eq_some hs; exact (handleHalfClose_shrinks h).keeps h
  | reset => obtain ⟨-, rfl⟩ := guard_eq_some hs; exact (handleReset_shrinks hg).keeps h
  | handle ok => exact handleNext_keeps h hg hs
  | pump outcome =>
    obtain ⟨target, htarget, rfl⟩ := map_eq_some_iff.mp hs
    obtain ⟨t, ht, hp⟩ := bind_eq_some_iff.mp htarget
    refine Shrinks.keeps (shrinks_of_same (fun t' ht' => ?_) (same_job _) id
      h.connection) h
    cases ht'
    exact ⟨t, ht, Target.same_pumpTarget hp⟩
  | retire drain =>
    obtain ⟨-, rfl⟩ := guard_eq_some hs
    refine Shrinks.keeps (shrinks_of_same (mapped_target _ fun t => ?_) (same_job _) id h.connection) h
    split
    · exact t.same_finish
    · exact t.same_removeAndClose
  | close =>
    cases hs
    exact Shrinks.keeps (shrinks_of_same (closed_target s) (same_job _) id h.connection) h
  | _ => exact work_keeps h hg hs

end StreamSlot

structure StreamDispatcher (π : Type) where
  slots : List (StreamSlot π)
  maxActive : ℕ

namespace StreamDispatcher

def opened (ids maxActive : ℕ) : StreamDispatcher π := ⟨replicate ids .empty, maxActive⟩

variable (d : StreamDispatcher π)

def active : ℕ := (d.slots.map StreamSlot.active).sum

def step (size : π → ℕ) (inboundBytes : ℕ) (d : StreamDispatcher π) (label : ℕ × SlotLabel π) :
    Option (StreamDispatcher π) :=
  (d.slots[label.1]?).bind fun slot =>
    if label.2.isOpening ∧ 0 < d.maxActive ∧ d.maxActive ≤ d.active then some d
    else (slot.step size inboundBytes label.2).map fun next => { d with slots := d.slots.set label.1 next }

def Undisturbed (size : π → ℕ) (inboundBytes : ℕ) (d : StreamDispatcher π) (label : ℕ × SlotLabel π) : Prop :=
  ∀ slot ∈ d.slots[label.1]?, slot.Undisturbed size inboundBytes label.2

instance (d : StreamDispatcher π) (label : ℕ × SlotLabel π) :
    Decidable (d.Undisturbed size inboundBytes label) :=
  inferInstanceAs (Decidable (∀ slot ∈ d.slots[label.1]?, slot.Undisturbed size inboundBytes label.2))

def Limited : Prop :=
  (∀ slot ∈ d.slots, slot.Withdrawn) ∧ (0 < d.maxActive → d.active ≤ d.maxActive)

structure Kept : Prop where
  owned : ∀ slot ∈ d.slots, slot.Owned
  ceiling : 0 < d.maxActive → d.active ≤ d.maxActive

variable {d next : StreamDispatcher π}

theorem kept_opened (ids maxActive : ℕ) : (opened ids maxActive : StreamDispatcher π).Kept where
  owned := fun slot hs => eq_of_mem_replicate hs ▸ StreamSlot.owned_empty
  ceiling := fun _ => by
    have hnone : (opened ids maxActive : StreamDispatcher π).active = 0 := by
      simp [active, opened, StreamSlot.active, StreamSlot.isLive, StreamSlot.empty]
    omega

theorem step_kept (h : d.Kept) (hg : d.Undisturbed size inboundBytes label)
    (hstep : d.step size inboundBytes label = some next) : next.Kept := by
  obtain ⟨slot, hs, hm⟩ := bind_eq_some_iff.mp hstep
  split at hm
  · cases hm; exact h
  · next hadmitted =>
    obtain ⟨after, hafter, rfl⟩ := map_eq_some_iff.mp hm
    obtain ⟨howned, ha⟩ :=
      StreamSlot.step_keeps (h.owned slot (mem_of_getElem? hs)) (hg slot hs) hafter
    refine ⟨Interleaving.forall_mem_set h.owned howned, fun hc => ?_⟩
    have hsum : active { d with slots := d.slots.set label.1 after } + slot.active = d.active + after.active :=
      Interleaving.sum_map_set StreamSlot.active hs
    have hle := h.ceiling hc
    cases ho : label.2.isOpening with
    | false =>
      rw [ho, Bool.toNat_false, Nat.add_zero] at ha
      simp only at hle ⊢
      omega
    | true =>
      have hroom : d.active < d.maxActive := by
        by_contra hf
        exact hadmitted ⟨ho, hc, Nat.le_of_not_lt hf⟩
      rw [ho, Bool.toNat_true] at ha
      simp only at hle ⊢
      omega

-- A stream that was removed while it was pending never gets a target, and the
-- ceiling holds, if no connection is on its way when a pending stream goes.
theorem removed_streams_stay_away (size : π → ℕ) (inboundBytes ids maxActive : ℕ) (labels : List (ℕ × SlotLabel π))
    (halong : Along (step size inboundBytes) (Undisturbed size inboundBytes) (opened ids maxActive) labels) :
    Always (step size inboundBytes) Limited (opened ids maxActive) labels :=
  (always_of_invariant (fun _ _ _ => step_kept) _ labels
    (kept_opened ids maxActive) halong).mono
      fun _ h => ⟨fun slot hslot => (h.owned slot hslot).withdrawn, h.ceiling⟩

def resetRun (before after : List (SlotLabel ℕ)) : List (ℕ × SlotLabel ℕ) :=
  [(0, .opening false), (0, .handle true)] ++ before.map (0, ·) ++
    [(0, .reset), (1, .opening false), (1, .handle true)] ++ after.map (0, ·)

theorem reset_dial_stays_away : Always (step id 8) Limited (opened 2 1) (resetRun [] [.dialed false, .completeDial]) :=
  removed_streams_stay_away id 8 2 1 _ (by decide +kernel)

-- The RESET comes when the dial has returned. The stream goes live, and there
-- are two streams where one is allowed.
theorem reset_stream_goes_live :
    ∃ final, run (step id 8) (opened 2 1) (resetRun [.dialed true] [.completeDial]) = some final ∧
      final.active = 2 ∧ (final.slots[0]?).map (fun slot => (slot.removed, slot.target.map (·.token), slot.isLive)) =
        some ([0], some 0, true) :=
  exists_run_of_any (by decide +kernel)

end StreamDispatcher

end TunnelMesh.Agent
