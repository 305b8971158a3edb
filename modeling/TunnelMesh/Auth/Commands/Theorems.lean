import TunnelMesh.Fallible
import TunnelMesh.Auth.Commands

namespace TunnelMesh.Auth

open Store List Except Bool

variable {store next : Store}

theorem exec_cases (env : Env) (store : Store) (c : Command) (input : Input) :
    (∃ e, exec env store c input = (store, .error e)) ∨
      ∃ next answer, run env store c input = .ok (next, answer) ∧
        exec env store c input = (next, .ok answer) := by
  unfold exec
  cases (if input.fails then c.failure else none) with
  | some e => exact .inl ⟨e, rfl⟩
  | none =>
    cases hrun : run env store c input with
    | error e => exact .inl ⟨e, rfl⟩
    | ok result => exact .inr ⟨result.1, result.2, rfl, rfl⟩

theorem not_fails_of_exec (h : exec env store c input = (next, .ok answer)) (hf : c.failure = some e) : input.fails = false := by
  cases hfails : input.fails with
  | false => rfl
  | true => simp [exec, hfails, hf] at h

namespace Store

theorem markUsed_eq_ok (h : store.markUsed userID step now = .ok next) : next = { store with
      mfa := store.mfa.update (unusedStep userID step) (use step now) (use_userID step now) } ∧
        ∃ row, store.mfa.get userID = some row ∧ row.lastUsedStep < step := by
  have hc : ∀ row, unusedStep userID step row → row.userID = userID := by
    intro row hrow
    simpa [unusedStep] using (and_eq_true_iff.mp hrow).1
  unfold markUsed at h
  split_ifs at h with haffected
  refine ⟨(ok.inj h).symm, ?_⟩
  have hone := (store.mfa.affected_eq_one_iff hc).mp (by have := store.mfa.affected_le_one hc; omega)
  obtain ⟨row, hget, hrow⟩ := hone
  exact ⟨row, hget, by simpa [unusedStep] using (and_eq_true_iff.mp hrow).2⟩

theorem setEnabled_eq_ok {now : ℕ} (h : store.setEnabled userID now = .ok next) :
    next = { store with
      mfa := store.mfa.update (fun row => row.userID = userID) (confirm now) (confirm_userID now) } := by
  unfold setEnabled at h
  split_ifs at h
  exact (ok.inj h).symm

theorem replaceCodes_eq_ok (h : store.replaceCodes userID step hashes now = .ok next) :
    ∃ used codes, store.markUsed userID step now = .ok used ∧ used.replaceAll userID hashes = .ok codes ∧
      next = { used with codes } := by
  obtain ⟨used, hu, h⟩ := bind_eq_ok h
  obtain ⟨codes, hc, h⟩ := bind_eq_ok h
  exact ⟨used, codes, hu, hc, (ok.inj h).symm⟩

theorem enroll_eq_ok (h : store.enroll env userID currentPassword secret hashes now = .ok (next, username)) :
    ∃ user mfa codes, store.enrollAllowed env userID currentPassword = .ok user ∧
      store.upsertMFA ⟨userID, secret, .pending, now, none, none, -1⟩ = .ok mfa ∧
        store.replaceAll userID hashes = .ok codes ∧ next = { store with mfa, codes } := by
  obtain ⟨user, hu, h⟩ := bind_eq_ok h
  obtain ⟨mfa, hmfa, h⟩ := bind_eq_ok h
  obtain ⟨codes, hc, h⟩ := bind_eq_ok h
  exact ⟨user, mfa, codes, hu, hmfa, hc, (Prod.mk.inj (ok.inj h)).1.symm⟩

theorem seedIfMissing_fst (store : Store) (defaults : AuthSettings) :
    ∃ settings, (store.seedIfMissing defaults).1 = { store with settings } := by
  unfold seedIfMissing
  split
  · exact ⟨store.settings, rfl⟩
  · exact ⟨_, rfl⟩

theorem consumeCode_cases (store : Store) (userID hash : String) (now : ℕ) :
    store.consumeCode userID hash now = (store, none) ∨
      0 < store.codes.affected (unusedCode userID hash) ∧ ∃ left, store.consumeCode userID hash now =
        ({ store with
            codes := store.codes.update (unusedCode userID hash) (spend now) (spend_hash now)
            mfa := store.mfa.update (fun row => row.userID = userID) (touchLastUsed now)
              (touchLastUsed_userID now) }, some left) := by
  unfold consumeCode
  split
  · exact .inl rfl
  · next ha => exact .inr ⟨Nat.pos_of_ne_zero ha, _, rfl⟩

theorem noteCompared_eq (store : Store) (attempt : Option String) :
    store.noteCompared attempt =
      { store with log := ((attempt.filter store.alive).map .compared).toList ++ store.log } := by
  cases attempt with
  | none => rfl
  | some challengeID =>
    unfold noteCompared
    cases ha : store.alive challengeID <;> simp [Option.filter, ha, note]

theorem noteAccepted_eq (store : Store) (userID : String) (attempt : Option String) :
    store.noteAccepted userID attempt =
      { store with log := (attempt.map (.codeAccepted · userID)).toList ++ store.log } := by
  cases attempt <;> rfl

theorem noteTicket_eq (store : Store) (ticketID userID : String) (grounds : Option Grounds) :
    store.noteTicket ticketID userID grounds =
      { store with log := (grounds.map (.ticketOpened ticketID userID)).toList ++ store.log } := by
  cases grounds <;> rfl

theorem createChallenge_eq_ok {kind : ChallengeKind} {id : String}
    {payload : List (String × String)} {ttl maxAttempts now : ℕ}
    (h : store.createChallenge env kind userID payload ttl maxAttempts now = .ok (next, id)) :
    ∃ challenges, store.challenges.insert
        ⟨challengeID env store.drawn, kind, userID, payload, 0, maxAttempts, none, now + ttl⟩ =
          some challenges ∧ id = challengeID env store.drawn ∧
      next = { store with
        challenges := challenges
        drawn := store.drawn + 1
        log := .opened (challengeID env store.drawn) maxAttempts :: store.log } := by
  unfold createChallenge at h
  simp only at h
  split at h <;> cases h
  rename_i challenges hi
  exact ⟨challenges, hi, rfl, rfl⟩

theorem open_id (challengeID : String) (row : AuthChallenge) (h : open_ challengeID row) :
    row.id = challengeID := by simpa [open_] using (and_eq_true_iff.mp h).1

theorem consumeChallenge_cases (store : Store) (challengeID : String) (now : ℕ) :
    store.consumeChallenge challengeID now = (store, false) ∨
      ∃ row, store.challenges.get challengeID = some row ∧ row.consumedAt = none ∧
        store.consumeChallenge challengeID now =
          ({ store with
              challenges := store.challenges.update (open_ challengeID) (consume now) (consume_id now)
              log := .consumed challengeID :: store.log }, true) := by
  by_cases hz : store.challenges.affected (open_ challengeID) = 0
  · exact .inl (by simp [consumeChallenge, hz])
  have hle := store.challenges.affected_le_one (open_id challengeID)
  obtain ⟨row, hget, ho⟩ :=
    (store.challenges.affected_eq_one_iff (open_id challengeID)).mp (by omega)
  refine .inr ⟨row, hget, by simpa [open_] using (and_eq_true_iff.mp ho).2, ?_⟩
  simp [consumeChallenge, hz, note]

theorem failChallenge_cases (store : Store) (challengeID : String) (now : ℕ) :
    store.failChallenge challengeID now = (store, 0, true) ∨
      ∃ row, store.challenges.get challengeID = some row ∧ row.consumedAt = none ∧
        (store.failChallenge challengeID now).1 =
          { store with
            challenges := store.challenges.update (open_ challengeID) (charge now) (charge_id now)
            log := .failureRecorded challengeID :: store.log } := by
  unfold failChallenge
  cases hget : store.challenges.get challengeID with
  | none => exact .inl rfl
  | some row =>
    by_cases ho : row.consumedAt = none
    · refine .inr ⟨row, rfl, ho, ?_⟩; simp [ho, note]
    · exact .inl (by simp [ho])

theorem evict_cases (store : Store) (userID : String) (maxPerUser : ℤ) (now clock : ℕ) :
    store.evict userID maxPerUser now clock = store ∨
      ∃ deviceID, store.evict userID maxPerUser now clock = store.revokeDevice userID deviceID now := by
  unfold evict
  simp only
  split
  · cases oldest (store.devices.rows.filter (active userID clock)) with
    | none => exact .inl rfl
    | some device => exact .inr ⟨device.id, rfl⟩
  · exact .inl rfl

theorem insertDevice_eq_ok (h : store.insertDevice device = .ok next) :
    ∃ devices, store.devices.insert device = some devices ∧
      device.tokenHash ∉ store.devices.rows.map UserDevice.tokenHash ∧
        next = { store with devices } := by
  unfold insertDevice at h
  split_ifs at h with hempty ht
  split at h
  · rename_i devices hi; exact ⟨devices, hi, ht, (ok.inj h).symm⟩
  · cases h

theorem issueDevice_eq_ok {token : String} {grounds : Grounds} {now clock : ℕ} {device : UserDevice}
    (h : store.issueDevice env userID grounds now clock = .ok (next, token, device)) :
    ∃ settings evicted devices, (evicted = store.devices ∨
        ∃ deviceID, evicted = (store.revokeDevice userID deviceID now).devices) ∧
      evicted.insert device = some devices ∧ device.userID = userID ∧ device.revokedAt = none ∧
      device.tokenHash ∉ evicted.rows.map UserDevice.tokenHash ∧
      next = { store with
        settings := settings
        devices := devices
        drawn := store.drawn + 2
        log := .deviceIssued device.tokenHash userID grounds :: store.log } := by
  unfold issueDevice at h
  obtain ⟨settings, hs⟩ := seedIfMissing_fst store env.device.defaults
  simp only [hs] at h
  split at h
  · cases h
  split at h
  · cases h
  rename_i inserted hinserted
  obtain ⟨devices, hi, hf, rfl⟩ := insertDevice_eq_ok hinserted
  obtain ⟨hn, -, rfl⟩ := by simpa only [Prod.mk.injEq] using ok.inj h
  rcases evict_cases { store with settings } userID _ now clock with he | ⟨id, he⟩
  · rw [he] at hi hf hn; exact ⟨settings, _, devices, .inl rfl, hi, rfl, rfl, hf, hn.symm⟩
  · rw [he] at hi hf hn; exact ⟨settings, _, devices, .inr ⟨id, rfl⟩, hi, rfl, rfl, hf, hn.symm⟩

end Store

def quiet : Command → Bool
  | .clock | .audit _ | .isBlocked _ | .registerFailure _ | .registerSuccess _
  | .getUserByUsername _ | .countUnused _ | .decryptPayload _ => true
  | _ => false

inductive Effect (env : Env) (store : Store) : (c : Command) → Answer c → Store → Prop where
  | quiet {c : Command} {answer : Answer c} (h : quiet c) : Effect env store c answer store
  | getUser {userID : String} (hget : store.users.get userID = some user) :
      Effect env store (.getUser userID) user store
  | seedSettings {settings : AuthSettings} :
      Effect env store .seedSettings settings
        { store with settings := stored, log := .policyRead settings :: store.log }
  | getMFA {userID : String} :
      Effect env store (.getMFA userID) (store.mfa.get userID)
        (store.note (.mfaRead userID (store.mfa.get userID)))
  | enroll {userID currentPassword username : String} {secret : Sealed} {hashes : List String}
      {now : ℕ} {user : User} {mfa : Table UserMFA.userID} {codes : Table RecoveryCode.hash}
      (hallowed : store.enrollAllowed env userID currentPassword = .ok user)
      (hmfa : store.upsertMFA ⟨userID, secret, .pending, now, none, none, -1⟩ = .ok mfa)
      (hcodes : store.replaceAll userID hashes = .ok codes) :
      Effect env store (.enroll userID currentPassword secret hashes) username
        { store with mfa, codes }
  | enable {userID : String} {next : Store}
      (henable : store.enable userID step now = .ok next) :
      Effect env store (.enable userID step) () next
  | compareTOTP :
      Effect env store (.compareTOTP attempt secret code) step (store.noteCompared attempt)
  | markUsed {userID : String}
      (hused : store.markUsed userID step now = .ok used) :
      Effect env store (.markUsed attempt userID step) () (used.noteAccepted userID attempt)
  | codeRefused {userID hash : String} :
      Effect env store (.consumeCode attempt userID hash) none (store.noteCompared attempt)
  | codeAccepted {userID hash : String}
      (hunused : 0 < store.codes.affected (unusedCode userID hash)) :
      Effect env store (.consumeCode attempt userID hash) (some left)
        (noteAccepted
          { store.noteCompared attempt with
            codes := store.codes.update (unusedCode userID hash) (spend now) (spend_hash now)
            mfa := store.mfa.update (fun row => row.userID = userID) (touchLastUsed now)
              (touchLastUsed_userID now) } userID attempt)
  | replaceCodes {userID : String} {step : ℤ} {hashes : List String} {now : ℕ} {used : Store}
      {codes : Table RecoveryCode.hash} (hused : store.markUsed userID step now = .ok used)
      (hcodes : used.replaceAll userID hashes = .ok codes) :
      Effect env store (.replaceCodes userID step hashes) () { used with codes }
  | removeFactor {userID action : String} :
      Effect env store (.removeFactor userID action) () (store.removeFactor userID now)
  | createChallenge {kind : ChallengeKind} {userID : String} {payload : List (String × String)}
      {ttl maxAttempts expiresAt : ℕ} {grounds : Option Grounds}
      {challenges : Table AuthChallenge.id}
      (hinsert : store.challenges.insert ⟨challengeID env store.drawn, kind, userID, payload, 0,
        maxAttempts, none, expiresAt⟩ = some challenges) :
      Effect env store (.createChallenge kind userID payload ttl maxAttempts grounds)
        (challengeID env store.drawn)
        (noteTicket
          { store with
            challenges := challenges
            drawn := store.drawn + 1
            log := .opened (challengeID env store.drawn) maxAttempts :: store.log }
          (challengeID env store.drawn) userID grounds)
  | getChallenge {challengeID : String}
      (hget : ∀ row ∈ found, store.challenges.get challengeID = some row) :
      Effect env store (.getChallenge challengeID) found store
  | consumeRefused {challengeID : String} :
      Effect env store (.consumeChallenge challengeID) false store
  | consumed {challengeID : String}
      (hget : store.challenges.get challengeID = some row) (hopen : row.consumedAt = none) :
      Effect env store (.consumeChallenge challengeID) true
        { store with
          challenges := store.challenges.update (open_ challengeID) (consume now)
            (consume_id now)
          log := .consumed challengeID :: store.log }
  | failIgnored {challengeID : String} {answer : ℕ × Bool} :
      Effect env store (.failChallenge challengeID) answer store
  | failed {challengeID : String} {answer : ℕ × Bool}
      (hget : store.challenges.get challengeID = some row) (hopen : row.consumedAt = none) :
      Effect env store (.failChallenge challengeID) answer
        { store with
          challenges := store.challenges.update (open_ challengeID) (charge now)
            (charge_id now)
          log := .failureRecorded challengeID :: store.log }
  | issueToken {userID token : String} :
      Effect env store (.issueToken userID ttl grounds) token
        { store with drawn := store.drawn + 1, log := .sessionIssued userID grounds :: store.log }
  | issueDevice {userID : String} {next : Store}
      (hissue : store.issueDevice env userID grounds now clock = .ok (next, issued)) :
      Effect env store (.issueDevice userID now grounds) issued next
  | readNone {hash : String} : Effect env store (.readDevice hash) none store
  | readDevice {hash : String} (hmem : device ∈ store.devices.rows) :
      Effect env store (.readDevice hash) (some device) (store.note (.deviceRead device))
  | touchDevice :
      Effect env store (.touchDevice deviceID now) () (store.touchDevice deviceID now)
  | revokeDevice {userID deviceID : String} :
      Effect env store (.revokeDevice userID deviceID) () (store.revokeDevice userID deviceID now)
  | revokeAll {userID : String} {count now : ℕ} :
      Effect env store (.revokeAll userID) count (store.revokeAllForUser userID now)

theorem run_effect (h : run env store c input = .ok (next, answer)) : Effect env store c answer next := by
  cases c with
  | getUser userID =>
    obtain ⟨user, hu, h⟩ := map_eq_ok h
    obtain ⟨rfl, rfl⟩ := Prod.mk.inj h
    unfold getUser at hu
    cases hget : store.users.get userID with
    | none => simp [hget] at hu
    | some found =>
      obtain rfl : found = user := by simpa [hget] using hu
      exact .getUser hget
  | getUserByUsername username =>
    obtain ⟨user, -, h⟩ := map_eq_ok h
    cases h
    exact .quiet rfl
  | seedSettings =>
    obtain ⟨stored, hs⟩ := seedIfMissing_fst store env.login.defaults
    simp only [run, hs] at h
    cases h
    exact .seedSettings
  | getMFA userID => cases h; exact .getMFA
  | enroll userID currentPassword secret hashes =>
    obtain ⟨user, mfa, codes, ha, hmfa, hcodes, rfl⟩ := enroll_eq_ok h
    exact .enroll ha hmfa hcodes
  | enable userID step =>
    obtain ⟨enabled, he, h⟩ := map_eq_ok h
    cases h
    exact .enable he
  | compareTOTP attempt secret code =>
    obtain ⟨step, -, h⟩ := map_eq_ok h
    cases h
    exact .compareTOTP
  | markUsed attempt userID step =>
    obtain ⟨used, hused, h⟩ := map_eq_ok h
    cases h
    exact .markUsed hused
  | consumeCode attempt userID hash =>
    have hm : (store.noteCompared attempt).mfa = store.mfa ∧ (store.noteCompared attempt).codes = store.codes := by
      rw [noteCompared_eq]
      exact ⟨rfl, rfl⟩
    cases h
    rcases (store.noteCompared attempt).consumeCode_cases userID hash input.now with
      hcode | ⟨hunused, left, hcode⟩
    · rw [hcode]; exact .codeRefused
    · rw [hcode]
      rw [hm.2] at hunused
      simp only [Option.isSome_some, if_true, hm]
      exact .codeAccepted hunused
  | replaceCodes userID step hashes =>
    obtain ⟨replaced, hreplaced, h⟩ := map_eq_ok h
    cases h
    obtain ⟨used, codes, hused, hcodes, rfl⟩ := replaceCodes_eq_ok hreplaced
    exact .replaceCodes hused hcodes
  | removeFactor userID action => cases h; exact .removeFactor
  | createChallenge kind userID payload ttl maxAttempts grounds =>
    obtain ⟨⟨created, id⟩, hcreated, h⟩ := map_eq_ok h
    cases h
    obtain ⟨challenges, hi, rfl, rfl⟩ := createChallenge_eq_ok hcreated
    exact .createChallenge hi
  | getChallenge challengeID =>
    cases h
    refine .getChallenge fun row hrow => ?_
    split at hrow
    · cases hrow
    · exact hrow
  | consumeChallenge challengeID =>
    have h := ok.inj h
    rcases store.consumeChallenge_cases challengeID input.now with hc | ⟨row, hget, ho, hc⟩
    · obtain ⟨rfl, rfl⟩ := Prod.mk.inj (hc.symm.trans h); exact .consumeRefused
    · obtain ⟨rfl, rfl⟩ := Prod.mk.inj (hc.symm.trans h); exact .consumed hget ho
  | failChallenge challengeID =>
    have h := ok.inj h
    rcases store.failChallenge_cases challengeID input.now with hc | ⟨row, hget, ho, hc⟩
    · obtain ⟨rfl, rfl⟩ := Prod.mk.inj (hc.symm.trans h); exact .failIgnored
    · obtain rfl : _ = next := hc.symm.trans (congrArg Prod.fst h); exact .failed hget ho
  | issueToken userID ttl grounds =>
    simp only [run] at h
    split_ifs at h
    cases h; exact .issueToken
  | issueDevice userID now grounds => exact .issueDevice h
  | readDevice hash =>
    simp only [run] at h
    split at h
    · rename_i device hr
      cases h
      unfold readDevice at hr
      simp only at hr
      split_ifs at hr
      exact .readDevice (mem_of_find?_eq_some hr)
    · cases h; exact .readNone
  | touchDevice deviceID now => cases h; exact .touchDevice
  | revokeDevice userID deviceID =>
    simp only [run] at h
    split_ifs at h
    cases h; exact .revokeDevice
  | revokeAll userID => cases h; exact .revokeAll
  | _ => cases h; exact .quiet rfl

def notes : Command → Event → Bool
  | .seedSettings, .policyRead _ => true
  | .getMFA userID, .mfaRead u _ => u = userID
  | .enable userID _, .enabled u => u = userID
  | .compareTOTP attempt _ _, .compared challengeID => attempt = some challengeID
  | .consumeCode attempt _ _, .compared challengeID => attempt = some challengeID
  | .consumeCode attempt userID _, .codeAccepted challengeID u => attempt = some challengeID && u = userID
  | .markUsed attempt userID _, .codeAccepted challengeID u => attempt = some challengeID && u = userID
  | .removeFactor userID _, .factorRemoved u => u = userID
  | .createChallenge _ _ _ _ _ _, .opened _ _ => true
  | .createChallenge _ userID _ _ _ grounds, .ticketOpened _ u g => u = userID && grounds = some g
  | .consumeChallenge challengeID, .consumed id => id = challengeID
  | .failChallenge challengeID, .failureRecorded id => id = challengeID
  | .issueToken userID _ grounds, .sessionIssued u g => u = userID && g = grounds
  | .issueDevice userID _ grounds, .deviceIssued _ u g => u = userID && g = grounds
  | .readDevice _, .deviceRead _ => true
  | _, _ => false

def movesDevices : Command → Bool
  | .issueDevice _ _ _ | .removeFactor _ _ | .touchDevice _ _ | .revokeDevice _ _ | .revokeAll _ => true
  | _ => false

def movesChallenges : Command → Bool
  | .createChallenge _ _ _ _ _ _ | .consumeChallenge _ | .failChallenge _ => true
  | _ => false

structure Frame (c : Command) (store next : Store) : Prop where
  log : ∃ new, next.log = new ++ store.log ∧ ∀ e ∈ new, notes c e
  drawn : store.drawn ≤ next.drawn
  devices : movesDevices c = false → next.devices = store.devices
  challenges : movesChallenges c = false → next.challenges = store.challenges

theorem notes_of_mem {α : Type} {o : Option α} {event : α → Event}
    (h : ∀ a, o = some a → notes c (event a)) : ∀ e ∈ (o.map event).toList, notes c e := by
  cases o with
  | none => simp
  | some a => simpa using h a rfl

theorem Effect.frame (h : Effect env store c answer next) : Frame c store next := by
  cases h with
  | compareTOTP | codeRefused =>
    rw [noteCompared_eq]
    refine ⟨⟨_, rfl, notes_of_mem fun id hid => ?_⟩, le_rfl, fun _ => rfl, fun _ => rfl⟩
    simp [notes, (Option.filter_eq_some_iff.mp hid).1]
  | codeAccepted =>
    rw [noteAccepted_eq, noteCompared_eq]
    refine ⟨⟨_, (append_assoc _ _ _).symm, fun e he => ?_⟩, le_rfl, fun _ => rfl, fun _ => rfl⟩
    rcases mem_append.mp he with he | he
    · exact notes_of_mem (fun id hid => by simp [notes, hid]) e he
    · exact notes_of_mem (fun id hid => by simp [notes, (Option.filter_eq_some_iff.mp hid).1]) e he
  | markUsed hu =>
    obtain ⟨rfl, -⟩ := markUsed_eq_ok hu
    rw [noteAccepted_eq]
    exact ⟨⟨_, rfl, notes_of_mem fun id hid => by simp [notes, hid]⟩, le_rfl, fun _ => rfl, fun _ => rfl⟩
  | replaceCodes hu =>
    obtain ⟨rfl, -⟩ := markUsed_eq_ok hu
    exact ⟨⟨[], rfl, by simp⟩, le_rfl, fun _ => rfl, fun _ => rfl⟩
  | enable henable =>
    obtain ⟨used, hu, h⟩ := bind_eq_ok henable
    obtain ⟨confirmed, hc, h⟩ := bind_eq_ok h
    cases h
    obtain rfl := setEnabled_eq_ok hc
    obtain ⟨rfl, -⟩ := markUsed_eq_ok hu
    exact ⟨⟨[_], rfl, by simp [notes]⟩, le_rfl, fun _ => rfl, fun _ => rfl⟩
  | createChallenge =>
    rw [noteTicket_eq]
    refine ⟨⟨_, append_cons _ _ _, fun e he => ?_⟩, Nat.le_succ _, fun _ => rfl, nofun⟩
    rcases mem_append.mp he with he | he
    · exact notes_of_mem (fun g hg => by simp [notes, hg]) e he
    · rw [mem_singleton.mp he]; rfl
  | issueDevice hi =>
    obtain ⟨settings, evicted, devices, -, -, -, -, -, rfl⟩ := issueDevice_eq_ok hi
    exact ⟨⟨[_], rfl, by simp [notes]⟩, Nat.le_add_right _ _, nofun, fun _ => rfl⟩
  | issueToken => exact ⟨⟨[_], rfl, by simp [notes]⟩, Nat.le_succ _, fun _ => rfl, fun _ => rfl⟩
  | consumed | failed => exact ⟨⟨[_], rfl, by simp [notes]⟩, le_rfl, fun _ => rfl, nofun⟩
  | removeFactor => exact ⟨⟨[_], rfl, by simp [notes]⟩, le_rfl, nofun, fun _ => rfl⟩
  | touchDevice | revokeDevice | revokeAll => exact ⟨⟨[], rfl, by simp⟩, le_rfl, nofun, fun _ => rfl⟩
  | seedSettings | getMFA | readDevice =>
    exact ⟨⟨[_], rfl, by simp [notes]⟩, le_rfl, fun _ => rfl, fun _ => rfl⟩
  | _ => exact ⟨⟨[], rfl, by simp⟩, le_rfl, fun _ => rfl, fun _ => rfl⟩

end TunnelMesh.Auth
