import TunnelMesh.Auth.Commands.Theorems
import TunnelMesh.Auth.Discipline

namespace TunnelMesh.Auth

open Store Interleaving List Transition Option

variable {log : List Event}

-- The record bears the grounds of a login out, and of every login they go back
-- to: a device speaks for the login that issued it, and a ticket for the one
-- that opened it.
inductive Entitled (userID : String) : Grounds → List Event → Prop where
  | verified {challengeID : String} {log : List Event}
      (haccepted : .codeAccepted challengeID userID ∈ log) (hconsumed : .consumed challengeID ∈ log) :
      Entitled userID (.verified challengeID) log
  | waived {settings : AuthSettings} {log : List Event}
      (hid : user.id = userID) (hrequired : (resolvePolicy settings user (enabledRow row)).required = false)
      (hpolicy : .policyRead settings ∈ log) (hread : .mfaRead userID row ∈ log) :
      Entitled userID (.waived settings user (enabledRow row)) log
  | bypass
      (hid : device.userID = userID) (hrevoked : device.revokedAt = none)
      (hexpires : now < device.expiresAt) (hkept : .factorRemoved userID ∉ later)
      (hissued : Entitled userID grounds earlier) :
      Entitled userID (.bypass device now)
        (newer ++ .deviceRead device :: (later ++ .deviceIssued device.tokenHash userID grounds :: earlier))
  | ticket
      (hopened : Entitled userID grounds earlier) :
      Entitled userID (.ticket ticketID) (later ++ .ticketOpened ticketID userID grounds :: earlier)

theorem Entitled.append
    (h : Entitled userID grounds log) (new : List Event) : Entitled userID grounds (new ++ log) := by
  cases h with
  | verified ha hc => exact .verified (mem_append_right new ha) (mem_append_right new hc)
  | waived hid hr hp hread =>
    exact .waived hid hr (mem_append_right new hp) (mem_append_right new hread)
  | bypass hid hrevoked he hk hi => rw [← append_assoc]; exact .bypass hid hrevoked he hk hi
  | ticket ho => rw [← append_assoc]; exact .ticket ho

-- The device was issued to a login that was entitled to it, and the account has
-- kept its second factor since.
def Trusted (hash userID : String) (log : List Event) : Prop :=
  ∃ grounds later earlier, log = later ++ .deviceIssued hash userID grounds :: earlier ∧
    .factorRemoved userID ∉ later ∧ Entitled userID grounds earlier

def Ticketed (ticketID userID : String) (log : List Event) : Prop :=
  ∃ grounds later earlier, log = later ++ .ticketOpened ticketID userID grounds :: earlier ∧
    Entitled userID grounds earlier

def groundsOf : Event → Option (String × Grounds)
  | .sessionIssued userID grounds | .deviceIssued _ userID grounds
  | .ticketOpened _ userID grounds => some (userID, grounds)
  | _ => none

def Backed (log : List Event) : Prop :=
  ∀ later e earlier userID grounds, log = later ++ e :: earlier → groundsOf e = some (userID, grounds) →
    Entitled userID grounds earlier

theorem Trusted.append {hash : String} (h : Trusted hash userID log)
    (hnew : .factorRemoved userID ∉ new) : Trusted hash userID (new ++ log) := by
  obtain ⟨grounds, later, earlier, rfl, hk, he⟩ := h
  refine ⟨grounds, new ++ later, earlier, by rw [append_assoc], ?_, he⟩
  rw [mem_append]
  rintro (hmem | hmem)
  · exact hnew hmem
  · exact hk hmem

theorem Ticketed.append (h : Ticketed ticketID userID log)
    (new : List Event) : Ticketed ticketID userID (new ++ log) := by
  obtain ⟨grounds, later, earlier, rfl, he⟩ := h
  exact ⟨grounds, new ++ later, earlier, by rw [append_assoc], he⟩

theorem Backed.cons (h : Backed log)
    (he : ∀ userID grounds, groundsOf e = some (userID, grounds) → Entitled userID grounds log) :
    Backed (e :: log) := by
  intro later e' earlier userID grounds hs hg
  cases later with
  | nil => obtain ⟨rfl, rfl⟩ := cons.inj hs; exact he userID grounds hg
  | cons head tail => exact h tail e' earlier userID grounds (cons.inj hs).2 hg

theorem Backed.append (h : Backed log) (hnew : ∀ e ∈ new, ∀ userID grounds, groundsOf e = some (userID, grounds) →
      Entitled userID grounds log) : Backed (new ++ log) := by
  induction new with
  | nil => exact h
  | cons head tail ih =>
    refine (ih fun e he => hnew e (mem_cons_of_mem head he)).cons fun userID grounds hg => ?_
    exact (hnew head mem_cons_self userID grounds hg).append tail

def Recorded : (Σ c, Except AuthError (Answer c)) → List Event → Prop
  | ⟨.seedSettings, .ok settings⟩, log => .policyRead settings ∈ log
  | ⟨.getMFA userID, .ok row⟩, log => .mfaRead userID row ∈ log
  | ⟨.getUser userID, .ok user⟩, _ => User.id user = userID
  | ⟨.markUsed (some challengeID) userID _, .ok _⟩, log => .codeAccepted challengeID userID ∈ log
  | ⟨.consumeCode (some challengeID) userID _, .ok (some _)⟩, log => .codeAccepted challengeID userID ∈ log
  | ⟨.consumeChallenge challengeID, .ok true⟩, log => .consumed challengeID ∈ log
  | ⟨.readDevice _, .ok (some device)⟩, log => UserDevice.revokedAt device = none →
      ∃ newer older, log = newer ++ .deviceRead device :: older ∧
        Trusted (UserDevice.tokenHash device) (UserDevice.userID device) older
  | ⟨.getChallenge _, .ok (some row)⟩, log => AuthChallenge.kind row = .loginTicket →
      Ticketed (AuthChallenge.id row) (AuthChallenge.userID row) log
  | _, _ => True

theorem Recorded.append (h : Recorded e log) (new : List Event) : Recorded e (new ++ log) := by
  unfold Recorded at h ⊢
  split at h
  · exact mem_append_right new h
  · exact mem_append_right new h
  · exact h
  · exact mem_append_right new h
  · exact mem_append_right new h
  · exact mem_append_right new h
  · intro hr
    obtain ⟨newer, older, rfl, ht⟩ := h hr
    exact ⟨new ++ newer, older, by rw [append_assoc], ht⟩
  · exact fun hk => (h hk).append new
  · simp_all

theorem entitled_of_grounded (hr : ∀ e ∈ trace, Recorded e log) (h : Grounded trace userID grounds) :
    Entitled userID grounds log := by
  cases grounds with
  | verified challengeID =>
    obtain ⟨⟨e, he, ha⟩, hc⟩ := h
    refine .verified ?_ (hr _ hc)
    have haccepted := hr e he
    unfold accepts at ha
    split at ha
    · obtain ⟨rfl, rfl⟩ := ha; exact haccepted
    · obtain ⟨rfl, rfl⟩ := ha; exact haccepted
    · exact ha.elim
  | waived settings user mfaEnabled =>
    obtain ⟨hid, hrequired, hs, row, hrow, rfl⟩ := h
    exact .waived hid hrequired (hr _ hs) (hr _ hrow)
  | bypass device now =>
    obtain ⟨hid, hrevoked, hexpires, hash, hread⟩ := h
    subst hid
    obtain ⟨newer, older, rfl, grounds, later, earlier, rfl, hk, hi⟩ := hr _ hread hrevoked
    exact .bypass rfl hrevoked hexpires hk hi
  | ticket ticketID =>
    obtain ⟨challengeID, row, user, hrow, hu, hkind, rfl, hid⟩ := h
    have howner : user.id = row.userID := hr _ hu
    obtain ⟨grounds, later, earlier, rfl, ho⟩ := hr _ hrow hkind
    rw [← howner, hid] at ho ⊢
    exact .ticket ho

-- The devices that are not revoked and the tickets go back to logins that were
-- entitled to them.
structure Sound (store : Store) : Prop where
  devices : ∀ device ∈ store.devices.rows, device.revokedAt = none → Trusted device.tokenHash device.userID store.log
  tickets : ∀ id row, store.challenges.get id = some row → row.kind = .loginTicket →
    Ticketed row.id row.userID store.log
  backed : Backed store.log

def Survives (devices : Table UserDevice.id) (device : UserDevice) : Prop :=
  ∃ old ∈ devices.rows, old.revokedAt = none ∧ old.tokenHash = device.tokenHash ∧ old.userID = device.userID

section Devices

variable {store next : Store}

theorem survives_update (devices : Table UserDevice.id) {cond : UserDevice → Bool}
    {f : UserDevice → UserDevice} (hkey : ∀ device, (f device).id = device.id)
    (hf : ∀ device, (f device).tokenHash = device.tokenHash ∧ (f device).userID = device.userID ∧
      ((f device).revokedAt = none → device.revokedAt = none))
    (hmem : device ∈ (devices.update cond f hkey).rows) (hr : device.revokedAt = none) : Survives devices device := by
  obtain ⟨old, hold, rfl⟩ := mem_map.mp hmem
  obtain ⟨hh, hu, hn⟩ := hf old
  by_cases hc : cond old
  · rw [if_pos hc] at hr ⊢; exact ⟨old, hold, hn hr, hh.symm, hu.symm⟩
  · rw [if_neg hc] at hr ⊢; exact ⟨old, hold, hr, rfl, rfl⟩

theorem revoke_revokedAt_ne_none (now : ℕ) (device : UserDevice) : (revoke now device).revokedAt ≠ none := by
  unfold revoke
  cases device.revokedAt <;> simp

theorem survives_revoke (devices : Table UserDevice.id) {cond : UserDevice → Bool}
    (hmem : device ∈ (devices.update cond (revoke now) (revoke_id now)).rows)
    (hr : device.revokedAt = none) : Survives devices device :=
  survives_update devices (revoke_id now)
    (fun device => ⟨rfl, rfl, fun h => absurd h (revoke_revokedAt_ne_none now device)⟩) hmem hr

theorem not_mem_revokeAll
    (hmem : device ∈ (store.revokeAllForUser userID now).devices.rows) (hr : device.revokedAt = none) :
    device.userID ≠ userID := by
  obtain ⟨old, -, rfl⟩ := mem_map.mp hmem
  by_cases hc : unrevoked userID old
  · rw [if_pos hc] at hr; exact absurd hr (revoke_revokedAt_ne_none now old)
  · rw [if_neg hc] at hr ⊢
    intro hu
    simp [unrevoked, hu, hr] at hc

theorem Effect.devices (h : Effect env store c answer next)
    (hmem : device ∈ next.devices.rows) (hr : device.revokedAt = none) :
    (Survives store.devices device ∧ ∀ action, c ≠ .removeFactor device.userID action) ∨
      ∃ now grounds, c = .issueDevice device.userID now grounds ∧
        next.log = .deviceIssued device.tokenHash device.userID grounds :: store.log := by
  by_cases hm : movesDevices c = false
  · rw [h.frame.devices hm] at hmem
    refine .inl ⟨⟨device, hmem, hr, rfl, rfl⟩, ?_⟩
    rintro action rfl
    cases hm
  cases h with
  | issueDevice hissue =>
    obtain ⟨settings, evicted, devices, he, hi, hu, -, -, rfl⟩ := issueDevice_eq_ok hissue
    rcases ((evicted.puts_insert hi).mem_rows_iff device).mp hmem with rfl | ⟨hold, -⟩
    · exact .inr ⟨_, _, by rw [hu], by rw [hu]⟩
    refine .inl ⟨?_, by simp⟩
    rcases he with rfl | ⟨deviceID, rfl⟩
    · exact ⟨device, hold, hr, rfl, rfl⟩
    · exact survives_revoke store.devices hold hr
  | removeFactor =>
    refine .inl ⟨survives_revoke store.devices hmem hr, fun action hs => ?_⟩
    exact not_mem_revokeAll hmem hr (Command.removeFactor.inj hs).1.symm
  | revokeDevice | revokeAll => exact .inl ⟨survives_revoke store.devices hmem hr, by simp⟩
  | touchDevice =>
    refine .inl ⟨survives_update store.devices (touch_id _) (fun _ => ⟨rfl, rfl, id⟩) hmem hr, ?_⟩
    simp
  | quiet hq => cases c <;> first | exact (hm rfl).elim | cases hq
  | _ => exact (hm rfl).elim

end Devices

section Tickets

variable {env : Env} {store next : Store} {c : Command} {id : String}

theorem charge_keeps (now : ℕ) (row : AuthChallenge) :
    (charge now row).kind = row.kind ∧ (charge now row).userID = row.userID := by
  unfold charge
  split <;> exact ⟨rfl, rfl⟩

def Persists (challenges : Table AuthChallenge.id) (id : String) (row : AuthChallenge) : Prop :=
  ∃ old, challenges.get id = some old ∧ old.kind = row.kind ∧ old.id = row.id ∧ old.userID = row.userID

theorem persists_update (challenges : Table AuthChallenge.id) {cond : AuthChallenge → Bool}
    {f : AuthChallenge → AuthChallenge} (hkey : ∀ row, (f row).id = row.id)
    (hf : ∀ row, (f row).kind = row.kind ∧ (f row).userID = row.userID)
    (hget : (challenges.update cond f hkey).get id = some row) : Persists challenges id row := by
  rw [Table.get_update] at hget
  obtain ⟨old, hold, rfl⟩ := map_eq_some_iff.mp hget
  refine ⟨old, hold, ?_⟩
  split
  · exact ⟨(hf old).1.symm, (hkey old).symm, (hf old).2.symm⟩
  · exact ⟨rfl, rfl, rfl⟩

theorem Effect.tickets (h : Effect env store c answer next)
    (ha : allowed trace c) (hget : next.challenges.get id = some row) (hk : row.kind = .loginTicket) :
    Persists store.challenges id row ∨
      ∃ payload ttl max grounds, c = .createChallenge .loginTicket row.userID payload ttl max (some grounds) ∧
        next.log = .ticketOpened row.id row.userID grounds :: .opened row.id max :: store.log := by
  by_cases hm : movesChallenges c = false
  · rw [h.frame.challenges hm] at hget; exact .inl ⟨row, hget, rfl, rfl, rfl⟩
  cases h with
  | @createChallenge kind userID payload ttl maxAttempts expiresAt grounds challenges hi =>
    have hn : challenges.get id = some row := by cases grounds <;> exact hget
    rw [store.challenges.get_insert hi] at hn
    split at hn
    · cases hn
      obtain rfl : kind = .loginTicket := hk
      cases grounds with
      | none => exact ha.elim
      | some grounds => exact .inr ⟨payload, ttl, maxAttempts, grounds, rfl, rfl⟩
    · exact .inl ⟨row, hn, rfl, rfl, rfl⟩
  | consumed =>
    exact .inl (persists_update store.challenges (consume_id _) (fun _ => ⟨rfl, rfl⟩) hget)
  | failed => exact .inl (persists_update store.challenges (charge_id _) (charge_keeps _) hget)
  | consumeRefused | failIgnored => exact .inl ⟨row, hget, rfl, rfl, rfl⟩
  | quiet hq => cases c <;> first | exact (hm rfl).elim | cases hq
  | _ => exact (hm rfl).elim

end Tickets

section Step

variable {env : Env} {store next : Store} {c : Command}

theorem grounded_of_notes (hn : notes c e) (hg : groundsOf e = some (userID, grounds)) (ha : allowed trace c) :
    Grounded trace userID grounds := by
  cases e with
  | sessionIssued u g =>
    cases hg
    cases c with
    | issueToken =>
      simp only [notes, Bool.and_eq_true, decide_eq_true_eq] at hn
      obtain ⟨rfl, rfl⟩ := hn
      exact ha.1
    | _ => cases hn
  | deviceIssued hash u g =>
    cases hg
    cases c with
    | issueDevice =>
      simp only [notes, Bool.and_eq_true, decide_eq_true_eq] at hn
      obtain ⟨rfl, rfl⟩ := hn
      exact ha
    | _ => cases hn
  | ticketOpened ticketID u g =>
    cases hg
    cases c with
    | createChallenge kind =>
      simp only [notes, Bool.and_eq_true, decide_eq_true_eq] at hn
      obtain ⟨rfl, rfl⟩ := hn
      cases kind with
      | loginMFA => exact ha.elim
      | loginTicket => exact ha.1
    | _ => cases hn
  | _ => cases hg

theorem Effect.sound (h : Effect env store c answer next) (hs : Sound store)
    (hr : ∀ e ∈ trace, Recorded e store.log) (ha : allowed trace c) : Sound next := by
  obtain ⟨new, hlog, hnew⟩ := h.frame.log
  have hentitled : ∀ e ∈ new, ∀ userID grounds, groundsOf e = some (userID, grounds) →
      Entitled userID grounds store.log := fun e he userID grounds hg =>
    entitled_of_grounded hr (grounded_of_notes (hnew e he) hg ha)
  refine ⟨fun device hmem hrevoked => ?_, fun id row hget hk => ?_, ?_⟩
  · rcases h.devices hmem hrevoked with ⟨⟨old, hold, hnone, hh, hu⟩, hkeeps⟩ | ⟨now, grounds, rfl, hi⟩
    · have ht := hs.devices old hold hnone
      rw [hh, hu] at ht
      rw [hlog]
      refine ht.append fun hremoved => ?_
      have hn := hnew _ hremoved
      cases c with
      | removeFactor userID action =>
        obtain rfl : device.userID = userID := by simpa [notes] using hn
        exact hkeeps action rfl
      | _ => cases hn
    · rw [hi]; exact ⟨grounds, [], store.log, rfl, by simp, entitled_of_grounded hr ha⟩
  · rcases h.tickets ha hget hk with
      ⟨old, hold, hsame, hid, hu⟩ | ⟨payload, ttl, max, grounds, rfl, ho⟩
    · have hticket := hs.tickets id old hold (hsame.trans hk)
      rw [hid, hu] at hticket
      rw [hlog]
      exact hticket.append new
    · rw [ho]
      refine ⟨grounds, [], _, rfl, ?_⟩
      exact (entitled_of_grounded hr ha.1).append [_]
  · rw [hlog]; exact hs.backed.append hentitled

theorem Effect.recorded (h : Effect env store c answer next) (hs : Sound store) :
    Recorded ⟨c, .ok answer⟩ next.log := by
  cases h with
  | getUser hget => exact store.users.key_of_get hget
  | seedSettings | getMFA | consumed => exact mem_cons_self
  | @markUsed _ _ _ attempt | @codeAccepted attempt =>
    cases attempt with
    | none => trivial
    | some challengeID => exact mem_cons_self
  | readDevice hmem => exact fun hr => ⟨[], store.log, rfl, hs.devices _ hmem hr⟩
  | @getChallenge found challengeID hget =>
    cases found with
    | none => trivial
    | some row => exact hs.tickets challengeID row (hget row rfl)
  | @codeRefused attempt => cases attempt <;> trivial
  | quiet hquiet => cases c <;> trivial
  | _ => trivial

theorem recorded_error (c : Command) (error : AuthError) (log : List Event) : Recorded ⟨c, .error error⟩ log := by
  cases c with
  | markUsed attempt | consumeCode attempt => cases attempt <;> trivial
  | _ => trivial

theorem exec_recorded (e : Σ c, Except AuthError (Answer c)) (h : Recorded e store.log) :
    Recorded e (exec env store c input).1.log := by
  rcases exec_cases env store c input with ⟨error, he⟩ | ⟨next, answer, hrun, he⟩
  · rw [he]; exact h
  obtain ⟨new, hlog, -⟩ := (run_effect hrun).frame.log
  rw [he]
  simp only [hlog]
  exact h.append new

theorem exec_sound (hs : Sound store) (hr : ∀ e ∈ trace, Recorded e store.log) (ha : allowed trace c) :
    Sound (exec env store c input).1 ∧ Recorded ⟨c, (exec env store c input).2⟩ (exec env store c input).1.log := by
  rcases exec_cases env store c input with ⟨error, he⟩ | ⟨next, answer, hrun, he⟩
  · rw [he]; exact ⟨hs, recorded_error c error store.log⟩
  · rw [he]; exact ⟨(run_effect hrun).sound hs hr ha, (run_effect hrun).recorded hs⟩

theorem change_sound (hs : Sound store) (h : change store e = some next) : Sound next ∧ next.log = store.log := by
  cases e with
  | policy settings => obtain ⟨old, -, rfl⟩ := map_eq_some_iff.mp h; exact ⟨{ hs with }, rfl⟩
  | accounts users => cases h; exact ⟨{ hs with }, rfl⟩
  | sweepChallenges cutoff =>
    cases h
    refine ⟨{ hs with tickets := fun id row hget hk => ?_ }, rfl⟩
    rw [Table.get_delete] at hget
    exact hs.tickets id row (filter_eq_some_iff.mp hget).1 hk
  | sweepDevices cutoff =>
    cases h
    refine ⟨{ hs with devices := fun device hmem => ?_ }, rfl⟩
    exact hs.devices device (mem_filter.mp hmem).1

end Step

abbrev Holding : State → Prop :=
  Holds Sound (Program.Aware allowed fun e store => Recorded e store.log)

theorem sound_step {env : Env} {s next : State} {label : Label} (h : Holding s)
    (hstep : (system env).step s label = some next) : Holding next := by
  have hexec : ∀ store trace c input, Sound store → (∀ e ∈ trace, Recorded e store.log) →
      allowed trace c → True → Sound (exec env store c input).1 ∧
        Recorded ⟨c, (exec env store c input).2⟩ (exec env store c input).1.log :=
    fun _ _ _ _ hs hr ha _ => exec_sound hs hr ha
  have hk : ∀ store c input e, Recorded e store.log → Recorded e (exec env store c input).1.log :=
    fun _ _ _ e hr => exec_recorded e hr
  have hevent : ∀ store e next, Sound store → change store e = some next →
      Sound next ∧ ∀ e, Recorded e store.log → Recorded e next.log := by
    intro store e next hs hc
    obtain ⟨hkept, hlog⟩ := change_sound hs hc
    exact ⟨hkept, fun e he => hlog ▸ he⟩
  have hf : OnMoves (Program.OnCommands fun _ _ _ => True) s label :=
    onMoves_of_forall (fun _ _ _ _ _ => trivial) s label
  exact Program.aware_step (start_tracks env) hexec hk hevent h hf hstep

theorem holding_init (users : Table User.id) (settings : Option AuthSettings) : Holding (init users settings) := by
  refine ⟨⟨by simp [init, Table.empty], by simp [init], ?_⟩, by simp [init]⟩
  intro later e earlier userID grounds hs
  simp [init] at hs

-- Whoever is let in by a trusted device has one that is neither expired nor
-- revoked and was issued to an earlier login of the account, whose second
-- factor was not removed since. That login had passed `VerifyMFA`, owed no
-- factor by the policy it read, or goes back to such a login.
def DevicesGoBack (s : State) : Prop :=
  ∀ later e earlier userID device now, s.store.log = later ++ e :: earlier →
    groundsOf e = some (userID, .bypass device now) →
      device.userID = userID ∧ device.revokedAt = none ∧ now < device.expiresAt ∧
        ∃ newer kept first grounds, earlier = newer ++ .deviceRead device ::
            (kept ++ .deviceIssued device.tokenHash userID grounds :: first) ∧
          .factorRemoved userID ∉ kept ∧ Entitled userID grounds first

theorem trusted_device_goes_back (env : Env) (users : Table User.id) (settings : Option AuthSettings)
    (labels : List Label) : Always (system env).step DevicesGoBack (init users settings) labels := by
  have hinv : Always (system env).step Holding (init users settings) labels :=
    always_of_step (fun _ _ _ => sound_step) _ labels
      (holding_init users settings)
  refine hinv.mono fun s h => ?_
  intro later e earlier userID device now hsplit hgrounds
  have hentitled := h.store.backed later e earlier userID _ hsplit hgrounds
  cases hentitled with
  | bypass hid hrevoked hexpires hkept hissued =>
    exact ⟨hid, hrevoked, hexpires, _, _, _, _, rfl, hkept, hissued⟩

-- Whatever the account was issued, it was entitled to at that moment.
theorem sessions_entitled (env : Env) (users : Table User.id) (settings : Option AuthSettings) (labels : List Label) :
    Always (system env).step (fun s => Backed s.store.log) (init users settings) labels :=
  (always_of_step (fun _ _ _ => sound_step) _ labels (holding_init users settings)).mono fun _ h => h.store.backed

def acceptsCode : Event → Bool
  | .codeAccepted _ _ => true
  | _ => false

def earlyDevice : UserDevice :=
  ⟨"device_xxx", "u", "xx", unix 60, unix 60 + 30 * 24 * hour, some (unix 60), none⟩

-- The device was issued before the account had a second factor. Under the mode
-- `required` it stands for the factor enabled since, though no login has ever
-- passed `VerifyMFA`.
theorem device_without_factor_bypasses : ∃ final, Transition.run (system sampleEnv).step
        (init sampleUsers (some (defaultAuthSettings .disabled true true 0 0 0)))
        (.start (.login ⟨"alice", "pw", "10.0.0.1", true, ""⟩) :: steps 0 9 (unix 60) ++
          .event (.policy (defaultAuthSettings .required true true 0 0 0)) ::
            .start (.enroll "u" "pw" sampleDrawn) :: steps 1 2 (unix 120) ++
              .start (.enable "u" "000000") :: steps 2 4 (unix 120) ++
                .start (.login ⟨"alice", "pw", "10.0.0.1", false, "xx"⟩) :: steps 3 8 (unix 180)) = some final ∧
      .sessionIssued "u" (.bypass earlyDevice (unix 180)) ∈ final.store.log ∧
      (resolvePolicy (defaultAuthSettings .required true true 0 0 0) sampleUser true).required ∧
      ∀ e ∈ final.store.log, acceptsCode e = false :=
  exists_run_of_any (by decide +kernel)

end TunnelMesh.Auth
