import Mathlib.Algebra.Ring.Int.Defs
import TunnelMesh.Transition

namespace TunnelMesh.Server

open Transition

structure ExecExit where
  exitCode : ℤ
  signaled : Bool
  timedOut : Bool
  truncated : Bool
  durationMS : ℤ

inductive ExecResult where
  | agentUnreachable
  | noExit
  | streamError
  | exited
  | agentError

structure ExecDetails where
  result : ExecResult
  exit : Option ExecExit

inductive ExecAudit where
  | started (scriptBytes : ℕ) (timeoutS : ℤ)
  | finished (details : ExecDetails)

def ExecAudit.isFinished : ExecAudit → Bool
  | .started _ _ => false
  | .finished _ => true

inductive ExecRead where
  | output
  | exit (payload : Option ExecExit)
  | error
  | unknown
  | eof
  | failed

inductive ExecPhase where
  | redeeming
  | reading
  | opening (timeoutS : ℤ)
  | writing
  | relaying
  | finishing
  | returned
  deriving DecidableEq

-- What `Handle` learns from outside: the ticket, the browser's request (its script's
-- bytes and `timeoutSec`), the stream, the records with the success of the frame that
-- is sent for them, and whether an audit record is stored.
inductive ExecAnswer where
  | ticket (valid : Bool)
  | request (run : Option (ℕ × ℤ)) (stored : Bool)
  | opened (ok stored : Bool)
  | wrote (ok : Bool)
  | record (read : ExecRead) (sent : Bool)
  | audited (stored : Bool)

structure ExecRun where
  phase : ExecPhase
  details : ExecDetails
  log : List ExecAudit

def second : ℤ := 1000000000

def execTimeout (timeoutSec : ℤ) : ℤ :=
  let timeout := if 0 < timeoutSec then (Int64.ofInt (timeoutSec * second)).toInt else 60 * second
  if 600 * second < timeout then 600 * second else timeout

namespace ExecRun

def start : ExecRun := ⟨.redeeming, ⟨.noExit, none⟩, []⟩

def audit (s : ExecRun) (event : ExecAudit) (stored : Bool) : ExecRun :=
  if stored then { s with log := s.log ++ [event] } else s

def goOn (s : ExecRun) (ok : Bool) (phase : ExecPhase) : ExecRun :=
  { s with phase := if ok then phase else .returned }

-- `Handle` from one answer to the next. The header is refused for a negative timeout.
def handle (maxScriptBytes : ℕ) (s : ExecRun) (answer : ExecAnswer) : Option ExecRun :=
  match s.phase, answer with
  | .redeeming, .ticket valid => some (s.goOn valid .reading)
  | .reading, .request none _ => some { s with phase := .returned }
  | .reading, .request (some (scriptBytes, timeoutSec)) stored =>
    let timeoutS := (execTimeout timeoutSec).tdiv second
    if scriptBytes = 0 ∨ maxScriptBytes < scriptBytes then some { s with phase := .returned }
    else some ({ s with phase := .opening timeoutS }.audit (.started scriptBytes timeoutS) stored)
  | .opening _, .opened false stored =>
    some ({ s with phase := .returned }.audit (.finished ⟨.agentUnreachable, none⟩) stored)
  | .opening timeoutS, .opened true _ => some (s.goOn (0 ≤ timeoutS) .writing)
  | .writing, .wrote ok => some (s.goOn ok .relaying)
  | .relaying, .record .output sent => some (s.goOn sent .relaying)
  | .relaying, .record (.exit none) _ => some { s with phase := .returned }
  | .relaying, .record (.exit (some exit)) sent =>
    some ({ s with details := ⟨.exited, some exit⟩ }.goOn sent .relaying)
  | .relaying, .record .error _ => some { s with details.result := .agentError }
  | .relaying, .record .unknown _ => some s
  | .relaying, .record .eof _ => some { s with phase := .finishing }
  | .relaying, .record .failed _ => some { s with phase := .finishing, details.result := .streamError }
  | .finishing, .audited stored => some ({ s with phase := .returned }.audit (.finished s.details) stored)
  | _, _ => none

def smooth : ExecAnswer → Bool
  | .ticket _ | .request none _ => true
  | .request (some (_, timeoutSec)) _ => timeoutSec ≤ 9223372036
  | .opened ok stored => ok || stored
  | .record (.exit payload) sent => payload.isSome && sent
  | .record .output ok | .wrote ok | .audited ok => ok
  | .record _ _ => true

-- A run that is over and on record as started is on record as finished, once.
def Audited (s : ExecRun) : Prop :=
  s.phase = .returned → (s.log.any fun event => !event.isFinished) → s.log.countP ExecAudit.isFinished = 1

def Accounted (s : ExecRun) : Prop :=
  match s.phase with
  | .redeeming | .reading => s.log = []
  | .opening timeoutS => 0 ≤ timeoutS ∧ s.log.countP ExecAudit.isFinished = 0
  | .writing | .relaying | .finishing => s.log.countP ExecAudit.isFinished = 0
  | .returned => s.log = [] ∨ s.log.countP ExecAudit.isFinished = 1

theorem execTimeout_nonneg (h : timeoutSec ≤ 9223372036) : 0 ≤ execTimeout timeoutSec := by
  unfold execTimeout second
  split
  · rw [Int64.toInt_ofInt_of_le (by omega) (by omega)]
    dsimp only
    split <;> omega
  · decide

theorem handle_accounted (h : Accounted s) (hsmooth : smooth answer)
    (hs : handle maxScriptBytes s answer = some next) : Accounted next := by
  have hn {timeoutSec : ℤ} (hle : timeoutSec ≤ 9223372036) : 0 ≤ (execTimeout timeoutSec).tdiv second :=
    Int.tdiv_nonneg (execTimeout_nonneg hle) (by decide)
  unfold handle at hs
  unfold Accounted at h
  split at hs <;> grind [Accounted, smooth, goOn, audit, ExecAudit.isFinished]

theorem started_run_finishes (maxScriptBytes : ℕ) (answers : List ExecAnswer)
    (h : ∀ answer ∈ answers, smooth answer) : Always (handle maxScriptBytes) Audited start answers := by
  have ha : Along (handle maxScriptBytes) (fun _ answer => smooth answer) start answers :=
    along_of_forall fun _ => h
  refine (always_of_invariant (fun _ _ _ hi hg hs => handle_accounted hi hg hs) start answers rfl ha).mono
    fun s hi hr hany => ?_
  rw [Accounted, hr] at hi
  refine hi.resolve_left fun hnil => ?_
  rw [hnil] at hany
  cases hany

def execRun (timeoutSec : ℤ) (rest : List ExecAnswer) : List ExecAnswer :=
  [.ticket true, .request (some (3, timeoutSec)) true, .opened true true] ++ rest

theorem script_run_finishes : Always (handle 65536) Audited start
      (execRun 5 [.wrote true, .record (.exit (some ⟨0, false, false, false, 7⟩)) true, .record .eof true,
        .audited true]) :=
  started_run_finishes 65536 _ (by decide)

-- The timeout overflows; the Agent, the browser or the database fails; an exit cannot be read.
theorem started_run_unfinished :
    [execRun 9223372037 [], execRun 5 [.wrote false], execRun 5 [.wrote true, .record .output false],
      execRun 5 [.wrote true, .record (.exit none) true],
      execRun 5 [.wrote true, .record .eof true, .audited false]].all (fun answers => (run (handle 65536) start answers).any fun s => s.phase = .returned ∧
        s.log.length = 1 ∧ ¬ s.log.any ExecAudit.isFinished) := by decide +kernel

end ExecRun

end TunnelMesh.Server
