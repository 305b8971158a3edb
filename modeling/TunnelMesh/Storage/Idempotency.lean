import TunnelMesh.Storage.Timestamp
import TunnelMesh.Transition

namespace TunnelMesh.Storage

open Transition Option

-- An `IdempotencyRecord` of the one key.
structure IdempotencyRecord where
  userID : String
  response : String
  statusCode : ℤ
  createdAt : ℕ
  expiresAt : Option ℕ

-- `Get` reads the text of the zero time as no expiry.
def IdempotencyRecord.expired (v : IdempotencyRecord) (now : ℕ) : Bool := v.expiresAt.any fun e => e ≠ 0 ∧ e ≤ now

theorem IdempotencyRecord.expired_add {v : IdempotencyRecord} (h : v.expired now) (elapsed : ℕ) :
    v.expired (now + elapsed) := by
  cases he : v.expiresAt <;> simp [expired, he] at h ⊢
  omega

-- The statement that a call of `Claim` comes to next.
inductive ClaimPhase where
  | insert
  | get
  | delete
  | returned
  deriving DecidableEq

-- `holder` is the record of the last call that was granted, as updated and until a
-- `Delete` takes it. A holder that had not expired when the next call was granted is in
-- `overlaps`, and a record that a call returned is in `answers`, with the holder then.
structure Claims where
  row : Option IdempotencyRecord
  now : ℕ
  calls : List (IdempotencyRecord × ClaimPhase)
  holder : Option IdempotencyRecord
  overlaps : List IdempotencyRecord
  answers : List (IdempotencyRecord × Option IdempotencyRecord)

-- One statement each; `deleteExpired` has read the clock before. With `fail` it returns
-- an error, which `Claim` ignores after its `DELETE`. A `Get` on its own changes nothing.
inductive ClaimLabel where
  | tick (elapsed : ℕ)
  | claim (userID : String) (createdAt : ℕ) (expiresAt : Option ℕ)
  | call (i : ℕ)
  | deleteExpired (i clock : ℕ)
  | fail (i : ℕ)
  | update (v : IdempotencyRecord)
  | delete

namespace Claims

variable (s : Claims)

def timeOrNow (t : ℕ) : ℕ := if t = 0 then s.now else t

def setPhase (i : ℕ) (v : IdempotencyRecord) (phase : ClaimPhase) : Claims :=
  { s with calls := s.calls.set i (v, phase) }

def insert (i : ℕ) (v : IdempotencyRecord) : Claims :=
  match s.row with
  | some _ => s.setPhase i v .get
  | none =>
    { s.setPhase i v .returned with
      row := some v, holder := some v, overlaps := (s.holder.filter (!·.expired s.now)).toList ++ s.overlaps }

def get (i : ℕ) (v : IdempotencyRecord) : Claims :=
  match s.row with
  | some found =>
    if found.expired s.now then s.setPhase i v .delete
    else { s.setPhase i v .returned with answers := (found, s.holder) :: s.answers }
  | none => s.setPhase i v .delete

def deleteExpired (i : ℕ) (v : IdempotencyRecord) (clock : ℕ) : Claims :=
  { s.setPhase i v .insert with row := s.row.filter fun found => !found.expiresAt.any (tm · < tm clock) }

def step : ClaimLabel → Option Claims
  | .tick elapsed => some { s with now := s.now + elapsed }
  | .claim userID createdAt expiresAt =>
    let createdAt := s.timeOrNow createdAt
    let v := ⟨userID, "", 102, createdAt, expiresAt.or (some (createdAt + 24 * 60 * minute))⟩
    some { s with calls := s.calls ++ [(v, .insert)] }
  | .call i => s.calls[i]?.bind fun c =>
    match c.2 with
    | .insert => some (s.insert i c.1)
    | .get => some (s.get i c.1)
    | .delete | .returned => none
  | .deleteExpired i clock => s.calls[i]?.bind fun c =>
    if c.2 = .delete ∧ clock ≤ s.now then some (s.deleteExpired i c.1 clock) else none
  | .fail i => s.calls[i]?.map fun c => s.setPhase i c.1 (if c.2 = .delete then .insert else .returned)
  | .update v => s.row.map fun found =>
    let row := { found with
      response := v.response, statusCode := if v.statusCode = 0 then 200 else v.statusCode
      createdAt := s.timeOrNow v.createdAt, expiresAt := v.expiresAt }
    { s with row := some row, holder := some row }
  | .delete => s.row.map fun _ => { s with row := none, holder := none }

-- At a `DELETE` the texts of the expiry and of the time read compare as the times do.
def distinct : ClaimLabel → Bool
  | .deleteExpired _ clock => s.row.all fun found => found.expiresAt.all fun e =>
      e ≠ 0 ∧ InRange e ∧ InRange clock ∧ ¬Ambiguous e clock
  | _ => true

structure Exclusive : Prop where
  overlaps : s.overlaps = []
  answers : ∀ a ∈ s.answers, a.2 = some a.1

structure Inv : Prop extends s.Exclusive where
  row : ∀ v, s.row = some v → s.holder = some v
  holder : s.row = none → ∀ v, s.holder = some v → v.expired s.now

variable {s}

theorem Inv.insert (h : s.Inv) (i : ℕ) (v : IdempotencyRecord) : (s.insert i v).Inv := by
  unfold Claims.insert
  split
  · exact { h with }
  · next hr =>
    have hh : s.holder.filter (!·.expired s.now) = none := by
      simpa [filter_eq_none_iff] using h.holder hr
    exact ⟨⟨by simp [hh, h.overlaps], h.answers⟩, fun _ hv => hv, nofun⟩

theorem Inv.get (h : s.Inv) (i : ℕ) (v : IdempotencyRecord) : (s.get i v).Inv := by
  unfold Claims.get
  split
  · next found hr =>
    split
    · exact { h with }
    · refine { h with answers := ?_ }
      rintro a (_ | ⟨_, ha⟩)
      · exact h.row found hr
      · exact h.answers a ha
  · exact { h with }

theorem Inv.deleteExpired (h : s.Inv) (hg : s.distinct (.deleteExpired i clock)) (hn : clock ≤ s.now)
    (v : IdempotencyRecord) : (s.deleteExpired i v clock).Inv := by
  refine ⟨⟨h.overlaps, h.answers⟩, fun v hv => h.row v (filter_eq_some_iff.mp hv).1, fun hd v hv => ?_⟩
  cases hr : s.row with
  | none => exact h.holder hr v hv
  | some found =>
    obtain rfl : found = v := some.inj ((h.row found hr).symm.trans hv)
    cases he : found.expiresAt with
    | none => simp [Claims.deleteExpired, hr, he] at hd
    | some e =>
      simp only [distinct, hr, he, all_some, decide_eq_true_eq] at hg
      have ht : tm e < tm clock := by simpa [Claims.deleteExpired, hr, he] using hd
      have hlt := (tm_lt_tm_iff hg.2.1 hg.2.2.1 hg.2.2.2).mp ht
      simp only [IdempotencyRecord.expired, he, any_some, decide_eq_true_eq]
      exact ⟨hg.1, hlt.le.trans hn⟩

theorem step_inv (h : s.Inv) (hg : s.distinct label) (hs : s.step label = some next) : next.Inv := by
  cases label with
  | tick elapsed =>
    cases hs
    exact { h with holder := fun hr v hv => IdempotencyRecord.expired_add (h.holder hr v hv) elapsed }
  | claim => cases hs; exact { h with }
  | call i =>
    obtain ⟨c, hc, hs⟩ := bind_eq_some_iff.mp hs
    split at hs <;> cases hs
    · exact h.insert i c.1
    · exact h.get i c.1
  | deleteExpired i clock =>
    obtain ⟨c, -, hs⟩ := bind_eq_some_iff.mp hs
    obtain ⟨⟨-, hn⟩, rfl⟩ := guard_eq_some hs
    exact h.deleteExpired hg hn c.1
  | fail i => obtain ⟨c, -, rfl⟩ := map_eq_some_iff.mp hs; exact { h with }
  | update v =>
    obtain ⟨found, -, rfl⟩ := map_eq_some_iff.mp hs
    exact { h with row := fun _ hv => hv, holder := nofun }
  | delete =>
    obtain ⟨found, -, rfl⟩ := map_eq_some_iff.mp hs
    exact { h with row := nofun, holder := nofun }

-- Whatever row there is at the start, it is the first holder's.
theorem one_claimant (row : Option IdempotencyRecord) (now : ℕ) (labels : List ClaimLabel)
    (ha : Along step (fun s label => s.distinct label) ⟨row, now, [], row, [], []⟩ labels) :
    Always step Exclusive ⟨row, now, [], row, [], []⟩ labels :=
  (always_of_invariant (fun _ _ _ h hg hs => step_inv h hg hs) _ labels
    ⟨⟨rfl, by simp⟩, fun _ hv => hv, fun hr v hv => by simp_all⟩ ha).mono fun _ h => h.toExclusive

def expiredRow : Claims :=
  let row := some ⟨"", "", 200, 1, some (63925286399 * nanosPerSecond)⟩
  ⟨row, 63925286400 * nanosPerSecond + 510000000, [], row, [], []⟩

theorem expired_key_claimed_once :
    let labels := [.claim "a" 0 none, .call 0, .call 0, .deleteExpired 0 expiredRow.now, .call 0, .claim "b" 0 none,
      .call 1, .call 1]
    (run step expiredRow labels).any (·.answers ≠ []) ∧ Always step Exclusive expiredRow labels :=
  ⟨by decide +kernel, one_claimant _ _ _ (by decide +kernel)⟩

-- The first call has seen the expired row and comes to its `DELETE` a day later, 10 ms
-- before the end of the record that the second call was granted.
theorem late_delete_takes_record :
    let elapsed := 24 * 60 * minute - 10000000
    ∃ s, run step expiredRow [.claim "a" 0 none, .call 0, .call 0, .claim "b" 0 none, .call 1, .call 1,
        .deleteExpired 1 expiredRow.now, .call 1, .tick elapsed, .deleteExpired 0 (expiredRow.now + elapsed), .call 0] =
        some s ∧
      s.overlaps.map (·.userID) = ["b"] ∧ s.calls.map Prod.snd = [.returned, .returned] :=
  exists_run_of_any (by decide +kernel)

end Claims

end TunnelMesh.Storage
