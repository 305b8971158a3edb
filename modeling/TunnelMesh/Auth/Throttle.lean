import TunnelMesh.Interleaving

namespace TunnelMesh.Auth.Throttle

open Interleaving Option Transition List

-- The row of one bucket; the statements on another bucket leave it alone.
structure Attempts where
  attempts : ℕ
  windowStart : ℕ
  blockedUntil : Option ℕ

structure Store where
  clock : ℕ
  row : Option Attempts

def Store.blockedUntil (store : Store) : Option ℕ := store.row.bind (·.blockedUntil)

def Store.isBlocked (store : Store) : Bool := store.blockedUntil.any (store.clock < ·)

structure Config where
  window : ℕ
  maxAttempts : ℤ
  block : ℕ

def Config.limit (cfg : Config) : ℕ := if cfg.maxAttempts ≤ 0 then 1 else cfg.maxAttempts.toNat

-- A call of `RegisterFailure` before each of its statements. It reads the clock
-- once; `failed` is a call that finds no row to read.
inductive Failure where
  | entered
  | update (now : ℕ)
  | insert (now : ℕ)
  | select (now : ℕ)
  | block (now : ℕ)
  | returned (now : ℕ) (blocked : Bool)
  | failed

variable (cfg : Config)

def count (now : ℕ) (row : Attempts) : Attempts :=
  if row.windowStart + cfg.window < now then ⟨1, now, none⟩ else ⟨row.attempts + 1, row.windowStart, none⟩

def registerFailure (store : Store) : Failure → Option (Store × Failure)
  | .entered => some (store, .update store.clock)
  | .update now =>
    match store.row with
    | none => some (store, .insert now)
    | some row => some ({ store with row := some (count cfg now row) }, .select now)
  -- A duplicate key is no error: the row of another call stays.
  | .insert now => some ({ store with row := some (store.row.getD ⟨1, now, none⟩) }, .select now)
  | .select now =>
    match store.row with
    | none => some (store, .failed)
    | some row => some (store, if row.attempts < cfg.limit then .returned now false else .block now)
  | .block now =>
    some ({ store with row := store.row.map ({ · with blockedUntil := some (now + cfg.block) }) }, .returned now true)
  | .returned _ _ | .failed => none

def failures : System Store Failure Unit Unit ℕ where
  start _ := .entered
  move store p _ := registerFailure cfg store p
  event store elapsed := some { store with clock := store.clock + elapsed }

-- All calls begin in the window that was opened at `opened`. The insert runs on
-- an empty bucket, the update when no block is running, and the last statement
-- does not bring a block to an earlier end.
def orderly (opened : ℕ) (store : Store) : Failure → Bool
  | .entered => store.clock ≤ opened + cfg.window
  | .update _ => !store.isBlocked
  | .insert _ => store.row.isNone
  | .block now => store.blockedUntil.all (· ≤ now + cfg.block)
  | _ => true

abbrev regular (opened : ℕ) : State Store Failure → Label Unit Unit ℕ → Prop :=
  OnMoves fun store p _ => orderly cfg opened store p

-- After `k` calls have returned, the count is `k`, and a call has blocked the
-- bucket if `k` is enough; no block ends early.
structure Counted (s : State Store Failure) : Prop where
  exact : s.procs ≠ [] → (∀ p ∈ s.procs, ∃ now blocked, p = .returned now blocked) →
    (∃ row, s.store.row = some row ∧ row.attempts = s.procs.length) ∧
      (cfg.limit ≤ s.procs.length → ∃ now, .returned now true ∈ s.procs)
  blocked : ∀ now, .returned now true ∈ s.procs → s.store.clock < now + cfg.block → s.store.isBlocked

def counted : Failure → ℕ
  | .entered | .update _ | .insert _ => 0
  | _ => 1

def pending : Failure → Bool
  | .select _ | .block _ | .returned _ true => true
  | _ => false

variable (opened : ℕ)

def fresh (row : Option Attempts) : ℕ := row.elim 0 fun row => if opened ≤ row.windowStart then row.attempts else 0

def Fresh (store : Store) : Prop := ∃ row, store.row = some row ∧ opened ≤ row.windowStart

-- What a call knows: the instant it counts at, the row it has found or made,
-- and its block.
def Own (store : Store) : Failure → Prop
  | .entered => True
  | .update now | .insert now => opened ≤ now ∧ now ≤ opened + cfg.window
  | .returned now true => Fresh opened store ∧
    (store.clock < now + cfg.block → ∃ till ∈ store.blockedUntil, now + cfg.block ≤ till)
  | _ => Fresh opened store

structure Inv (s : State Store Failure) : Prop where
  clock : opened ≤ s.store.clock
  stale : ∀ row ∈ s.store.row, row.windowStart < opened → row.windowStart + cfg.window < opened
  own : ∀ p ∈ s.procs, Own cfg opened s.store p
  count : fresh opened s.store.row = s.weight counted
  seen : cfg.limit ≤ s.weight counted → ∃ p ∈ s.procs, pending p

variable {cfg opened} {next : State Store Failure}

theorem fresh_of_le (h : opened ≤ row.windowStart) : fresh opened (some row) = row.attempts := if_pos h

theorem Own.mono (h : Own cfg opened store p) (hrow : Fresh opened store → Fresh opened store')
    (hc : store.clock ≤ store'.clock)
    (hb : ∀ till ∈ store.blockedUntil, store'.clock < till → ∃ last ∈ store'.blockedUntil, till ≤ last) : Own cfg opened store' p := by
  cases p with
  | entered | update | insert => exact h
  | select | block | failed => exact hrow h
  | returned now blocked =>
    cases blocked with
    | false => exact hrow h
    | true =>
      refine ⟨hrow h.1, fun ht => ?_⟩
      obtain ⟨till, hu, hle⟩ := h.2 (Nat.lt_of_le_of_lt hc ht)
      obtain ⟨last, hl, hle'⟩ := hb till hu (Nat.lt_of_lt_of_le ht hle)
      exact ⟨last, hl, Nat.le_trans hle hle'⟩

theorem count_fresh (hstale : row.windowStart < opened → row.windowStart + cfg.window < opened)
    (hnow : opened ≤ now ∧ now ≤ opened + cfg.window) :
    opened ≤ (count cfg now row).windowStart ∧ (count cfg now row).attempts = fresh opened (some row) + 1 := by
  by_cases ho : opened ≤ row.windowStart
  · rw [count, if_neg (by omega)]; exact ⟨ho, by rw [fresh_of_le ho]⟩
  · rw [count, if_pos (by omega)]; exact ⟨hnow.1, by simp [fresh, ho]⟩

theorem Inv.keep (h : Inv cfg opened s) (hp : s.procs[i]? = some p) (ho : Own cfg opened s.store p')
    (hc : counted p' = counted p) (hpend : pending p' ∨ pending p = false ∨ s.weight counted < cfg.limit) :
    Inv cfg opened ⟨s.store, s.procs.set i p'⟩ := by
  have hw : State.weight counted ⟨s.store, s.procs.set i p'⟩ = s.weight counted := by
    have hm := weight_move counted hp s.store p'
    omega
  refine ⟨h.clock, h.stale, forall_mem_set h.own ho, by rw [hw, h.count], fun hl => ?_⟩
  rw [hw] at hl
  rcases hpend with hpend | hnot | hlt
  · exact ⟨p', mem_set_of_getElem? hp p', hpend⟩
  · exact (exists_mem_set hp p' (h.seen hl)).resolve_left (by simp [hnot])
  · exact absurd hl (Nat.not_le.mpr hlt)

theorem Inv.put (h : Inv cfg opened s) (hp : s.procs[i]? = some p) (hrow : opened ≤ row.windowStart)
    (ho : Own cfg opened ⟨s.store.clock, some row⟩ p') (hpend : pending p')
    (hc : row.attempts + counted p = fresh opened s.store.row + counted p')
    (hb : ∀ till ∈ s.store.blockedUntil, s.store.clock < till → ∃ last ∈ row.blockedUntil, till ≤ last) :
    Inv cfg opened ⟨⟨s.store.clock, some row⟩, s.procs.set i p'⟩ := by
  have hw := weight_move counted hp ⟨s.store.clock, some row⟩ p'
  have hcount := h.count
  refine ⟨h.clock, ?_, forall_mem_set (fun q hq => (h.own q hq).mono (fun _ => ⟨row, rfl, hrow⟩) (Nat.le_refl _) hb) ho,
    ?_, fun _ => ⟨p', mem_set_of_getElem? hp p', hpend⟩⟩
  · rintro _ ⟨⟩ hlt; exact absurd hrow (Nat.not_le.mpr hlt)
  · simp only [fresh_of_le hrow]; omega

theorem Inv.move (h : Inv cfg opened s) (hp : s.procs[i]? = some p)
    (hg : orderly cfg opened s.store p) (hm : registerFailure cfg s.store p = some (store', p')) :
    Inv cfg opened ⟨store', s.procs.set i p'⟩ := by
  have hown := h.own p (mem_of_getElem? hp)
  cases p with
  | entered =>
    cases hm
    exact h.keep hp ⟨h.clock, by simpa [orderly] using hg⟩ rfl (.inr (.inl rfl))
  | update now =>
    simp only [registerFailure] at hm
    split at hm
    · cases hm; exact h.keep hp hown rfl (.inr (.inl rfl))
    · next row hrow =>
      cases hm
      obtain ⟨hw, ha⟩ := count_fresh (h.stale row hrow) hown
      refine h.put hp hw ⟨_, rfl, hw⟩ rfl (by rw [ha, hrow]; rfl) fun till hu ht => ?_
      exact absurd ht (by simpa [orderly, Store.isBlocked, mem_def.mp hu] using hg)
  | insert now =>
    have hrow : s.store.row = none := by simpa [orderly] using hg
    simp only [registerFailure, hrow, getD_none] at hm
    cases hm
    refine h.put hp hown.1 ⟨_, rfl, hown.1⟩ rfl (by rw [hrow]; rfl) fun till hu => ?_
    simp [Store.blockedUntil, hrow] at hu
  | select now =>
    obtain ⟨row, hrow, ho⟩ := hown
    simp only [registerFailure, hrow] at hm
    cases hm
    have hc := h.count
    rw [hrow, fresh_of_le ho] at hc
    split
    · exact h.keep hp ⟨row, hrow, ho⟩ rfl (.inr (.inr (by omega)))
    · exact h.keep hp ⟨row, hrow, ho⟩ rfl (.inl rfl)
  | block now =>
    obtain ⟨row, hrow, ho⟩ := hown
    simp only [registerFailure, hrow, map_some] at hm
    cases hm
    refine h.put hp ho ⟨⟨_, rfl, ho⟩, fun _ => ⟨_, rfl, Nat.le_refl _⟩⟩ rfl (by rw [hrow, fresh_of_le ho]; rfl) ?_
    exact fun till hu _ => ⟨_, rfl, by simpa [orderly, mem_def.mp hu] using hg⟩
  | returned | failed => cases hm

theorem Inv.step (h : Inv cfg opened s) (hg : regular cfg opened s label)
    (hs : (failures cfg).step s label = some next) : Inv cfg opened next := by
  cases label with
  | start request =>
    rw [step_start_eq_some hs]
    refine ⟨h.clock, h.stale, forall_mem_append_singleton h.own trivial, by rw [weight_start]; exact h.count, ?_⟩
    intro hl
    obtain ⟨p, hp, hpend⟩ := h.seen (by rwa [weight_start] at hl)
    exact ⟨p, mem_append_left _ hp, hpend⟩
  | event elapsed =>
    obtain ⟨_, ⟨⟩, rfl⟩ := step_event_eq_some hs
    refine ⟨Nat.le_add_right_of_le h.clock, h.stale, fun p hp => ?_, h.count, h.seen⟩
    exact (h.own p hp).mono id (Nat.le_add_right _ _) fun till hu _ => ⟨till, hu, Nat.le_refl _⟩
  | move i input =>
    obtain ⟨p, store', p', hp, hm, rfl⟩ := step_move_eq_some hs
    exact h.move hp (hg p hp) hm

theorem Inv.exact (h : Inv cfg opened s) : Counted cfg s := by
  constructor
  · intro hne hall
    have hone : ∀ p ∈ s.procs, counted p = 1 := by
      intro p hp
      obtain ⟨now, blocked, rfl⟩ := hall p hp
      rfl
    have hw : s.weight counted = s.procs.length := by simp [State.weight, map_congr_left hone]
    constructor
    · obtain ⟨p, hp⟩ := exists_mem_of_ne_nil _ hne
      obtain ⟨row, hrow, ho⟩ : Fresh opened s.store := by
        obtain ⟨now, blocked, rfl⟩ := hall p hp
        cases blocked with
        | true => exact (h.own _ hp).1
        | false => exact h.own _ hp
      exact ⟨row, hrow, by rw [← hw, ← h.count, hrow, fresh_of_le ho]⟩
    · intro hl
      obtain ⟨p, hp, hpend⟩ := h.seen (by omega)
      obtain ⟨now, blocked, rfl⟩ := hall p hp
      cases blocked with
      | true => exact ⟨now, hp⟩
      | false => cases hpend
  · intro now hp ht
    obtain ⟨till, hu, hle⟩ := (h.own _ hp).2 ht
    simpa [Store.isBlocked, mem_def.mp hu] using Nat.lt_of_lt_of_le ht hle

theorem every_failure_counts (cfg : Config) (opened : ℕ) (row : Option Attempts) (labels : List (Label Unit Unit ℕ))
    (hrow : ∀ r ∈ row, r.windowStart + cfg.window < opened)
    (h : Along (failures cfg).step (regular cfg opened) ⟨⟨opened, row⟩, []⟩ labels) :
    Always (failures cfg).step (Counted cfg) ⟨⟨opened, row⟩, []⟩ labels := by
  have hfresh : fresh opened row = 0 := by
    cases row with
    | none => rfl
    | some row => exact if_neg (by have := hrow row rfl; omega)
  have hlimit : 0 < cfg.limit := by unfold Config.limit; split <;> omega
  refine (always_of_invariant (fun _ _ _ => Inv.step) _ _ ?_ h).mono fun _ => Inv.exact
  exact ⟨Nat.le_refl _, fun r hr _ => hrow r hr, nofun, hfresh, fun hl => absurd hlimit (Nat.not_lt.mpr hl)⟩

def sampleConfig : Config := ⟨10, 2, 5⟩

def secondFailure : List (Label Unit Unit ℕ) :=
  [.start (), .move 0 (), .move 0 (), .move 0 (), .move 0 (), .event 1,
    .start (), .move 1 (), .move 1 (), .move 1 (), .move 1 ()]

theorem second_failure_counts : run (failures sampleConfig).step ⟨⟨0, none⟩, []⟩ secondFailure =
      some ⟨⟨1, some ⟨2, 0, some 6⟩⟩, [.returned 0 false, .returned 1 true]⟩ ∧
    Always (failures sampleConfig).step (Counted sampleConfig) ⟨⟨0, none⟩, []⟩ secondFailure :=
  ⟨rfl, every_failure_counts _ _ _ _ nofun (by decide +kernel)⟩

-- Two first failures both find no row; the second insert is a duplicate.
theorem first_failures_lost : ∃ final, run (failures sampleConfig).step ⟨⟨0, none⟩, []⟩
        ([0, 1].map (fun _ => .start ()) ++ [0, 0, 1, 1, 0, 0, 1, 1].map (.move · ())) = some final ∧
      final.procs = [.returned 0 false, .returned 0 false] ∧ final.store.row = some ⟨1, 0, none⟩ :=
  ⟨_, rfl, rfl, rfl⟩

end TunnelMesh.Auth.Throttle
