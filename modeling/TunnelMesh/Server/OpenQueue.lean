import Mathlib.Algebra.Ring.Int.Defs
import TunnelMesh.Transition

namespace TunnelMesh.Server.OpenQueue

open Transition List

-- What a future receives, by the stage and the code of `failureResult`.
inductive Result where
  | protocolInternalError
  | queueFull
  | queueInternalError
  | queueTimeout
  | opened (connected : Bool)

-- Where the call inside `closeOnce` stands. At `closing` its select has found the
-- queue empty and taken the default.
inductive Closer where
  | uncalled
  | draining
  | closing
  | waiting
  | returned
  deriving DecidableEq

-- `ClientStreamService`. A call of `Open` is known by its number. The jobs in
-- the hands of workers are `busy`, and the other workers left are `idle`.
structure Service where
  maxPendingOpens : ℕ
  calls : ℕ
  panicked : Bool
  queue : List ℕ
  idle : ℕ
  busy : List ℕ
  results : List (ℕ × Result)
  closer : Closer

inductive Label where
  | openStream (streamID : UInt32)
  | close
  | closer
  | receive
  | answer (call : ℕ) (connected cancelled timedOut : Bool)

def Label.byWorker : Label → Bool
  | .receive | .answer .. => true
  | _ => false

def start (maxConcurrentOpens maxPendingOpens : Int) : Service :=
  ⟨max 1 maxPendingOpens.toNat, 0, false, [], max 1 maxConcurrentOpens.toNat, [], [], .uncalled⟩

namespace Service

variable (s : Service)

def closed : Bool := s.closer = .waiting || s.closer = .returned

def send (call : ℕ) (result : Result) : Service := { s with results := (call, result) :: s.results }

-- A select that would send on a closed channel panics, its default notwithstanding.
def openStream (streamID : UInt32) : Service :=
  let after := { s with calls := s.calls + 1 }
  if streamID = 0 then after.send s.calls .protocolInternalError
  else if s.closed then { after with panicked := true }
  else if s.queue.length < s.maxPendingOpens then { after with queue := s.queue ++ [s.calls] }
  else after.send s.calls .queueFull

def moveCloser : Option Service :=
  match s.closer with
  | .draining =>
    match s.queue with
    | call :: rest => some (send { s with queue := rest } call .queueInternalError)
    | [] => some { s with closer := .closing }
  | .closing => some { s with closer := .waiting }
  | .waiting => if s.idle = 0 ∧ s.busy = [] then some { s with closer := .returned } else none
  | _ => none

-- A closed queue still hands out what is in it, and ends the `range` of a worker
-- that finds it empty.
def receive : Option Service :=
  match s.idle, s.queue with
  | idle + 1, call :: rest => some { s with idle, queue := rest, busy := call :: s.busy }
  | idle + 1, [] => if s.closed then some { s with idle } else none
  | _, _ => none

def answer (call : ℕ) (connected cancelled timedOut : Bool) : Service :=
  send { s with busy := s.busy.erase call, idle := s.idle + 1 } call
    (if connected && cancelled || !connected && timedOut then .queueTimeout else .opened connected)

def step : Label → Option Service
  | .openStream streamID => some (s.openStream streamID)
  | .close => some (if s.closer = .uncalled then { s with closer := .draining } else s)
  | .closer => s.moveCloser
  | .receive => s.receive
  | .answer call connected cancelled timedOut =>
    if call ∈ s.busy then some (s.answer call connected cancelled timedOut) else none

-- `Open` does not reach its select once the queue is closed.
def inTime : Label → Bool
  | .openStream streamID => streamID = 0 || !s.closed
  | _ => true

def answers (call : ℕ) : ℕ := (s.results.map Prod.fst).count call

def weight : ℕ := 3 * s.queue.length + 2 * s.busy.length + s.idle

-- The workers cannot go on for ever without a call of `Open`, and where none of
-- them can move every call has its result.
structure Answering : Prop where
  calm : s.panicked = false
  once : ∀ call, s.answers call ≤ 1
  settles : ∀ label next, label.byWorker → s.step label = some next → next.weight < s.weight
  settled : (∀ label, label.byWorker → s.step label = none) → ∀ call < s.calls, s.answers call = 1
  returned : s.closer = .returned → s.queue = [] ∧ ∀ call < s.calls, s.answers call = 1

structure Inv : Prop where
  calm : s.panicked = false
  once : ∀ call, s.queue.count call + s.busy.count call + s.answers call = (range s.calls).count call
  staffed : s.idle = 0 → s.busy = [] → s.closed ∧ s.queue = []
  returned : s.closer = .returned → s.idle = 0 ∧ s.busy = []

variable {s} {next : Service}

theorem Inv.openStream (h : s.Inv) (hg : s.inTime (.openStream streamID)) : (s.openStream streamID).Inv := by
  have hsend (result : Result) : (send { s with calls := s.calls + 1 } s.calls result).Inv := by
    refine ⟨h.calm, fun call => ?_, h.staffed, h.returned⟩
    have ho := h.once call
    simp only [send, answers, map_cons, range_succ, count_append, count_cons, count_nil] at ho ⊢
    omega
  unfold Service.openStream
  split_ifs with hz hc hq
  · exact hsend _
  · simp_all [inTime]
  · refine ⟨h.calm, fun call => ?_, fun hi hb => absurd (h.staffed hi hb).1 hc, h.returned⟩
    have ho := h.once call
    simp only [answers, range_succ, count_append] at ho ⊢
    omega
  · exact hsend _

theorem Inv.setCloser (h : s.Inv) (hc : ¬s.closed) {closer : Closer} (hr : closer ≠ .returned) :
    Inv { s with closer } :=
  ⟨h.calm, h.once, fun hi hb => absurd (h.staffed hi hb).1 hc, fun he => absurd he hr⟩

theorem Inv.moveCloser (h : s.Inv) (hs : s.moveCloser = some next) : next.Inv := by
  unfold Service.moveCloser at hs
  split at hs
  · next hc =>
    split at hs <;> cases hs
    · next call rest hq =>
      refine ⟨h.calm, fun number => ?_, fun hi hb => ?_, h.returned⟩
      · have ho := h.once number
        simp only [send, answers, hq, map_cons, count_cons] at ho ⊢
        omega
      · cases hq.symm.trans (h.staffed hi hb).2
    · exact h.setCloser (by simp [closed, hc]) (by simp)
  · next hc => cases hs; exact h.setCloser (by simp [closed, hc]) (by simp)
  · obtain ⟨hw, rfl⟩ := guard_eq_some hs
    exact ⟨h.calm, h.once, fun hi hb => ⟨by simp [closed], (h.staffed hi hb).2⟩, fun _ => hw⟩
  · cases hs

theorem Inv.receive (h : s.Inv) (hs : s.receive = some next) : next.Inv := by
  unfold Service.receive at hs
  split at hs
  · next hi hq =>
    cases hs
    refine ⟨h.calm, fun number => ?_, by simp, fun hr => by cases hi.symm.trans (h.returned hr).1⟩
    have ho := h.once number
    simp only [hq, count_cons, answers] at ho ⊢
    omega
  · next hi hq =>
    obtain ⟨hc, rfl⟩ := guard_eq_some hs
    exact ⟨h.calm, h.once, fun _ _ => ⟨hc, hq⟩, fun hr => by cases hi.symm.trans (h.returned hr).1⟩
  · cases hs

theorem Inv.answer (h : s.Inv) (hm : call ∈ s.busy) (connected cancelled timedOut : Bool) :
    (s.answer call connected cancelled timedOut).Inv := by
  refine ⟨h.calm, fun number => ?_, by simp [Service.answer, send], fun hr => by simp [(h.returned hr).2] at hm⟩
  have ho := h.once number
  rw [(perm_cons_erase hm).count_eq] at ho
  simp only [Service.answer, send, answers, map_cons, count_cons] at ho ⊢
  omega

theorem step_inv {label : Label} (h : s.Inv) (hg : s.inTime label) (hs : s.step label = some next) : next.Inv := by
  cases label with
  | openStream streamID => cases hs; exact h.openStream hg
  | close =>
    cases hs
    split
    · next hc => exact h.setCloser (by simp [closed, hc]) (by simp)
    · exact h
  | closer => exact h.moveCloser hs
  | receive => exact h.receive hs
  | answer call connected cancelled timedOut =>
    obtain ⟨hm, rfl⟩ := guard_eq_some hs
    exact h.answer hm ..

theorem weight_lt (hl : label.byWorker) (hs : s.step label = some next) : next.weight < s.weight := by
  cases label with
  | receive =>
    simp only [step, receive] at hs
    split at hs
    · next hi hq => cases hs; simp [weight, hi, hq]; omega
    · next hi hq => obtain ⟨-, rfl⟩ := guard_eq_some hs; simp [weight, hi]
    · cases hs
  | answer call connected cancelled timedOut =>
    obtain ⟨hm, rfl⟩ := guard_eq_some hs
    have hp := length_pos_of_mem hm
    simp only [weight, Service.answer, send, length_erase_of_mem hm]
    omega
  | _ => cases hl

theorem Inv.answering (h : s.Inv) : s.Answering := by
  have hall (hq : s.queue = []) (hb : s.busy = []) (call : ℕ) (hc : call < s.calls) : s.answers call = 1 := by
    simpa [hq, hb, hc] using h.once call
  refine ⟨h.calm, fun call => ?_, fun _ _ => weight_lt, fun hn => ?_, fun hr => ?_⟩
  · have ho := h.once call
    rw [count_range] at ho
    split_ifs at ho <;> omega
  · have hb : s.busy = [] := by
      refine eq_nil_iff_forall_not_mem.mpr fun call hm => ?_
      simpa [step, hm] using hn (.answer call true true true) rfl
    refine hall ?_ hb
    cases hi : s.idle with
    | zero => exact (h.staffed hi hb).2
    | succ idle =>
      cases hq : s.queue with
      | nil => rfl
      | cons call rest => simpa [step, Service.receive, hi, hq] using hn .receive rfl
  · obtain ⟨hi, hb⟩ := h.returned hr
    have hq := (h.staffed hi hb).2
    exact ⟨hq, hall hq hb⟩

theorem every_open_answered (maxConcurrentOpens maxPendingOpens : Int) (labels : List Label)
    (ha : Along step (fun s label => s.inTime label) (start maxConcurrentOpens maxPendingOpens) labels) :
    Always step Answering (start maxConcurrentOpens maxPendingOpens) labels :=
  (always_of_invariant (fun _ _ _ h hg hs => step_inv h hg hs) _ labels
    ⟨rfl, by simp [start, answers], by simp [start], by simp [start]⟩ ha).mono fun _ h => h.answering

theorem close_drains_queue :
    let labels := [.openStream 1, .receive, .openStream 2, .openStream 3, .close, .closer, .openStream 0, .closer,
      .openStream 4, .closer, .answer 0 true false false, .receive, .answer 4 false true true, .receive, .closer]
    (run step (start 0 1) labels).any (·.closer = .returned) ∧ Always step Answering (start 0 1) labels :=
  ⟨by decide, every_open_answered 0 1 _ (by decide)⟩

theorem open_after_close_panics :
    ∃ s, run step (start 1 1) [.close, .closer, .closer, .openStream 1] = some s ∧ s.panicked ∧ s.calls = 1 ∧
      s.answers 0 = 0 :=
  exists_run_of_any (by decide)

end Service

end TunnelMesh.Server.OpenQueue
