import TunnelMesh.Auth.Commands.Theorems
import TunnelMesh.Auth.Services

namespace TunnelMesh.Auth.Store

open List DeviceTrustConfig Transition

variable {store next : Store}

def cap (env : Env) (store : Store) : ℤ :=
  (env.device.effective (store.seedIfMissing env.device.defaults).2).maxPerUser

theorem cap_pos (env : Env) (store : Store) : 0 < cap env store := by
  simp only [cap, effective, Env.device, withDefaults]
  split_ifs <;> omega

theorem oldest_least (devices : List UserDevice) (h : devices ≠ []) :
    ∃ device ∈ devices, oldest devices = some device ∧ ∀ other ∈ devices, seen device ≤ seen other := by
  induction devices with
  | nil => exact absurd rfl h
  | cons device rest ih =>
    by_cases hr : rest = []
    · subst hr; exact ⟨device, mem_singleton_self _, rfl, by simp⟩
    obtain ⟨first, hm, ho, hl⟩ := ih hr
    simp only [oldest, ho]
    split
    · next hb =>
      refine ⟨device, mem_cons_self, rfl, ?_⟩
      have hle : seen device ≤ seen first := hb.elim Nat.le_of_lt fun h => h.1.le
      simpa using fun other he => hle.trans (hl other he)
    · next hb =>
      have hle : seen first ≤ seen device := by_contra fun hn => hb (.inl (Nat.lt_of_not_le hn))
      exact ⟨first, mem_cons_of_mem _ hm, rfl, by simpa using ⟨hle, hl⟩⟩

theorem affected_revoked (devices : Table UserDevice.id) (cond : UserDevice → Bool) (userID : String) (now clock : ℕ) :
    devices.affected (fun device => cond device && active userID clock (revoke now device)) = 0 := by
  simp only [Table.affected, countP_eq_zero, active, revoke]
  intro device _
  split <;> simp_all

theorem affected_evict (store : Store) (userID : String) (now clock : ℕ) (hp : 0 < limit) :
    ((store.evict userID limit now clock).devices.affected (active userID clock) : ℤ) =
      store.devices.affected (active userID clock) -
        if limit ≤ store.devices.affected (active userID clock) then 1 else 0 := by
  have hlen : (store.devices.rows.filter (active userID clock)).length = store.devices.affected (active userID clock) :=
    countP_eq_length_filter.symm
  unfold evict
  simp only [hlen]
  split
  · obtain ⟨first, hm, ho, -⟩ := oldest_least (store.devices.rows.filter (active userID clock))
      (ne_nil_of_length_pos (by omega))
    obtain ⟨hf, ha⟩ := mem_filter.mp hm
    have hu := store.devices.affected_update (active userID clock)
      (fun device => device.id = first.id && device.userID = userID) (revoke now) (revoke_id now)
    have hz := affected_revoked store.devices (fun device => device.id = first.id && device.userID = userID)
      userID now clock
    have hone : store.devices.affected (fun device => (device.id = first.id && device.userID = userID) &&
        active userID clock device) = 1 := by
      refine (store.devices.affected_eq_one_iff (k := first.id) (by simp +contextual)).mpr
        ⟨first, (store.devices.get_eq_some_iff _ _).mpr ⟨hf, rfl⟩, ?_⟩
      simp_all [active]
    rw [ho]
    simp only [Option.elim_some, revokeDevice]
    omega
  · rw [Int.sub_zero]

theorem rows_subset_insert {devices next : Table UserDevice.id} (h : devices.insert device = some next) :
    devices.rows ⊆ next.rows := by
  unfold Table.insert at h
  split at h <;> cases h
  exact subset_append_left ..

theorem evict_least (store : Store) (hd : device ∈ store.devices.rows)
    (hn : device ∉ (store.evict userID limit now clock).devices.rows) (he : other ∈ store.devices.rows)
    (hother : active userID clock other) : seen device ≤ seen other := by
  unfold evict at hn
  simp only at hn
  split at hn
  · obtain ⟨first, hm, ho, hl⟩ := oldest_least (store.devices.rows.filter (active userID clock))
      (ne_nil_of_mem (mem_filter.mpr ⟨he, hother⟩))
    rw [ho] at hn
    have hsame : device.id = first.id := by
      by_contra hne
      exact hn (mem_map.mpr ⟨device, hd, by simp [hne]⟩)
    have hg := (store.devices.get_eq_some_iff first.id device).mpr ⟨hd, hsame⟩
    rw [(store.devices.get_eq_some_iff first.id first).mpr ⟨(mem_filter.mp hm).1, rfl⟩] at hg
    cases hg
    exact hl other (mem_filter.mpr ⟨he, hother⟩)
  · exact absurd hd hn

-- An `Issue` ends within the cap if it starts within it, and only then if the new
-- device is still trusted.
theorem issueDevice_cap (h : store.issueDevice env userID grounds now clock = .ok (next, token, device)) :
    (store.devices.affected (active userID clock) ≤ cap env store →
      next.devices.affected (active userID clock) ≤ cap env store) ∧
    (clock < device.expiresAt → next.devices.affected (active userID clock) ≤ cap env store →
      store.devices.affected (active userID clock) ≤ cap env store) ∧
    ∀ evicted ∈ store.devices.rows, evicted ∉ next.devices.rows →
      ∀ other ∈ store.devices.rows, active userID clock other → seen evicted ≤ seen other := by
  obtain ⟨settings, hs⟩ := seedIfMissing_fst store env.device.defaults
  simp only [issueDevice, hs] at h
  split at h
  · cases h
  split at h <;> cases h
  next hinserted =>
    obtain ⟨devices, hi, -, rfl⟩ := insertDevice_eq_ok hinserted
    have he := affected_evict { store with settings } userID now clock (cap_pos env store)
    have ha := Table.affected_insert _ hi (active userID clock)
    unfold cap at he ⊢
    dsimp only at he
    refine ⟨fun hc => ?_, fun hlt hc => ?_, fun evicted hm hn other =>
      evict_least { store with settings } hm (mt (fun hold => rows_subset_insert hi hold) hn)⟩
    · simp only [note]; split at ha <;> split at he <;> omega
    · rw [if_pos (by simpa [active] using hlt)] at ha
      simp only [note] at hc
      split at he <;> omega

section DeviceHistory

theorem affected_active_le (devices : Table UserDevice.id) (h : now ≤ clock) :
    devices.affected (active userID clock) ≤ devices.affected (active userID now) := by
  refine countP_mono_left fun device _ ha => ?_
  simp only [active, Bool.and_eq_true, decide_eq_true_eq] at ha ⊢
  exact ⟨ha.1, by omega⟩

theorem affected_revoke_le (devices : Table UserDevice.id) (cond : UserDevice → Bool) (now : ℕ) :
    (devices.update cond (revoke now) (revoke_id now)).affected (active userID clock) ≤
      devices.affected (active userID clock) := by
  refine (devices.affected_update_le ..).trans (le_of_eq ?_)
  rw [affected_revoked, Nat.add_zero]

-- A command other than an `Issue` of the account makes no device of it active.
theorem affected_effect_le (h : Effect env store c answer next)
    (hc : ∀ now grounds, c ≠ .issueDevice userID now grounds) :
    next.devices.affected (active userID clock) ≤ store.devices.affected (active userID clock) := by
  cases hm : movesDevices c with
  | false => rw [h.frame.devices hm]
  | true =>
    cases h with
    | removeFactor | revokeDevice | revokeAll => exact affected_revoke_le ..
    | touchDevice =>
      simp only [touchDevice, Table.affected, Table.update, countP_map]
      refine countP_mono_left fun device _ ha => ?_
      simp only [Function.comp] at ha
      split at ha <;> exact ha
    | @issueDevice grounds now clock' issued other _ hissue =>
      obtain ⟨token, device⟩ := issued
      obtain ⟨_, evicted, devices, he, hi, ho, -, -, rfl⟩ := issueDevice_eq_ok hissue
      have hne : other ≠ userID := fun h => hc now grounds (by rw [h])
      rw [Table.affected_insert _ hi, if_neg (by simp [active, ho, hne]), Nat.add_zero]
      rcases he with rfl | ⟨id, rfl⟩
      · exact le_rfl
      · exact affected_revoke_le ..
    | quiet => exact le_rfl
    | _ => cases hm

-- The commands of all services and what others do to the tables, in the order of
-- time. Devices expire as it passes.
structure DeviceHistory where
  store : Store
  now : ℕ

inductive DeviceLabel where
  | exec (c : Command) (input : Input)
  | change (e : Change)

def DeviceHistory.step (env : Env) (s : DeviceHistory) : DeviceLabel → Option DeviceHistory
  | .exec c input => if input.now < s.now then none else some ⟨(Auth.exec env s.store c input).1, input.now⟩
  | .change e => (Auth.change s.store e).map fun store => ⟨store, s.now⟩

def DeviceHistory.Within (env : Env) (userID : String) (s : DeviceHistory) : Prop :=
  s.store.devices.affected (active userID s.now) ≤ cap env s.store
  deriving Decidable

-- The account is within every cap that comes into force.
def CapFits (env : Env) (userID : String) (s : DeviceHistory) (label : DeviceLabel) : Prop :=
  ∀ next ∈ s.step env label, cap env next.store ≠ cap env s.store → next.Within env userID
  deriving Decidable

theorem DeviceHistory.step_within {s next : DeviceHistory} (h : s.Within env userID) (hg : CapFits env userID s label)
    (hs : s.step env label = some next) : next.Within env userID := by
  by_cases hcap : cap env next.store = cap env s.store
  swap
  · exact hg next hs hcap
  have hkeep {devices : Table UserDevice.id} {clock : ℕ} (hnow : s.now ≤ clock)
      (hle : devices.affected (active userID clock) ≤ s.store.devices.affected (active userID clock)) :
      (devices.affected (active userID clock) : ℤ) ≤ cap env s.store :=
    (Int.ofNat_le.mpr (hle.trans (affected_active_le _ hnow))).trans h
  unfold Within
  rw [hcap]
  cases label with
  | exec c input =>
    obtain ⟨hnow, hs⟩ := Option.ite_none_left_eq_some.mp hs
    cases hs
    replace hnow := Nat.not_lt.mp hnow
    rcases exec_cases env s.store c input with ⟨e, he⟩ | ⟨store, answer, hrun, he⟩
    · rw [he]; exact hkeep hnow le_rfl
    · rw [he]
      by_cases hc : ∃ now grounds, c = .issueDevice userID now grounds
      · obtain ⟨now, grounds, rfl⟩ := hc
        obtain ⟨token, device⟩ := answer
        exact (issueDevice_cap hrun).1 (hkeep hnow le_rfl)
      · exact hkeep hnow (affected_effect_le (run_effect hrun) fun now grounds h => hc ⟨now, grounds, h⟩)
  | change e =>
    obtain ⟨store, hc, rfl⟩ := Option.map_eq_some_iff.mp hs
    refine hkeep le_rfl ?_
    cases e with
    | policy settings => obtain ⟨old, -, rfl⟩ := Option.map_eq_some_iff.mp hc; exact le_rfl
    | accounts | sweepChallenges => cases hc; exact le_rfl
    | sweepDevices cutoff => cases hc; exact (filter_sublist.countP_le)

-- An `Issue` that succeeds ends within the cap, and a device it has revoked was
-- seen no later than any other that was active.
def DeviceHistory.IssuesWithin (env : Env) (userID : String) (s : DeviceHistory) : Prop :=
  ∀ grounds now clock next token device, s.now ≤ clock →
    s.store.issueDevice env userID grounds now clock = .ok (next, token, device) →
      next.devices.affected (active userID clock) ≤ cap env s.store ∧
      ∀ evicted ∈ s.store.devices.rows, evicted ∉ next.devices.rows →
        ∀ other ∈ s.store.devices.rows, active userID clock other → seen evicted ≤ seen other

end DeviceHistory

-- The second part is about every call, also one after a change of the cap that
-- left the account above it.
theorem issue_within_cap (env : Env) (userID : String) (s : DeviceHistory) (hs : s.Within env userID)
    (labels : List DeviceLabel) (halong : Along (DeviceHistory.step env) (CapFits env userID) s labels) :
    Always (DeviceHistory.step env) (DeviceHistory.IssuesWithin env userID) s labels ∧
    ∀ store grounds now clock next token device,
      store.issueDevice env userID grounds now clock = .ok (next, token, device) → clock < device.expiresAt →
        ((next.devices.affected (active userID clock) : ℤ) ≤ cap env store ↔
          (store.devices.affected (active userID clock) : ℤ) ≤ cap env store) := by
  constructor
  · refine (always_of_invariant (fun _ _ _ h hg hs => DeviceHistory.step_within h hg hs) s labels hs halong).mono
      fun s h grounds now clock next token device hnow hi => ?_
    obtain ⟨hc, -, hl⟩ := issueDevice_cap hi
    exact ⟨hc ((Int.ofNat_le.mpr (affected_active_le _ hnow)).trans h), hl⟩
  · intro store grounds now clock next token device hi hlt
    obtain ⟨hc, hc', -⟩ := issueDevice_cap hi
    exact ⟨hc' hlt, hc⟩

def trusted (id : String) (seenAt : ℕ) : UserDevice := ⟨id, "u", id, seenAt, 100, some seenAt, none⟩

def trusting (maxTrustedDevices : ℤ) : Store :=
  ⟨Table.empty, Table.empty, Table.empty, ⟨[trusted "a" 1, trusted "b" 3, trusted "c" 2], by decide⟩, Table.empty,
    some ⟨.disabled, true, 0, true, maxTrustedDevices, 0⟩, 0, []⟩

-- The cap is lowered after a device was revoked, to the number of the others.
def cappedHistory : List DeviceLabel :=
  [.exec (.issueDevice "u" 4 (.ticket "t")) ⟨4, false, false⟩, .exec (.revokeDevice "u" "a") ⟨5, false, false⟩,
    .change (.policy ⟨.disabled, true, 0, true, 3, 0⟩)]

theorem capped_history_within_cap :
    ∃ s, Transition.run (DeviceHistory.step sampleEnv) ⟨trusting 4, 4⟩ cappedHistory = some s ∧
      (s.store.issueDevice sampleEnv "u" (.ticket "t") 6 6).isOk ∧ s.IssuesWithin sampleEnv "u" :=
  (issue_within_cap sampleEnv "u" ⟨trusting 4, 4⟩ (by decide +kernel) cappedHistory (by decide +kernel)).1.exists_run
    (by decide +kernel)

theorem lowered_cap_exceeded :
    ∃ next token device, (trusting 1).issueDevice sampleEnv "u" (.ticket "t") 4 4 = .ok (next, token, device) ∧
      cap sampleEnv (trusting 1) = 1 ∧ next.devices.affected (active "u" 4) = 3 :=
  ⟨_, _, _, rfl, by decide +kernel, by decide +kernel⟩

end TunnelMesh.Auth.Store
