import TunnelMesh.Auth.Commands.Theorems
import TunnelMesh.Auth.Discipline

namespace TunnelMesh.Auth

open Store Interleaving Program Option List Transition Auth

variable {row : AuthChallenge}

def subject : Event → Option String
  | .opened challengeID _ | .compared challengeID | .failureRecorded challengeID
  | .consumed challengeID => some challengeID
  | _ => none

variable (id : String) (log : List Event)

def history : List Event := log.filter fun e => subject e = some id

def compared : ℕ := log.count (.compared id)

def failures : ℕ := log.count (.failureRecorded id)

def consumptions : ℕ := log.count (.consumed id)

def verifiedBy : Event → Bool
  | .sessionIssued _ (.verified challengeID) => challengeID = id
  | _ => false

def sessions : ℕ := log.countP (verifiedBy id)

section History

variable {id : String} {log : List Event}

theorem history_append (hnew : ∀ e ∈ new, subject e = none) : history id (new ++ log) = history id log := by
  have hn : new.filter (fun e => subject e = some id) = [] := by
    rw [filter_eq_nil_iff]
    intro e he
    simp [hnew e he]
  rw [history, filter_append, hn, nil_append, history]

theorem history_cons_of_ne (he : subject e ≠ some id) : history id (e :: log) = history id log := by
  simp [history, he]

theorem history_cons (he : subject e = some id) : history id (e :: log) = e :: history id log := by
  simp [history, he]

theorem count_history (he : subject e = some id) : (history id log).count e = log.count e :=
  count_filter (by simpa using he)

theorem opened_mem_history {max : ℕ} : .opened id max ∈ history id log ↔ .opened id max ∈ log := by
  simp [history, subject]

end History

def attemptOf : Command → Option String
  | .compareTOTP attempt _ _ => attempt
  | .consumeCode attempt _ _ => attempt
  | _ => none

inductive Touch (env : Env) (store next : Store) : Command → String → Event → Prop where
  | compared {id : String} (hattempt : attemptOf c = some id) (halive : store.alive id)
      (hchallenges : next.challenges = store.challenges) : Touch env store next c id (.compared id)
  | opened
      (hinsert : store.challenges.insert ⟨challengeID env store.drawn, kind, userID, payload, 0,
        maxAttempts, none, expiresAt⟩ = some next.challenges)
      (hdrawn : next.drawn = store.drawn + 1) :
      Touch env store next (.createChallenge kind userID payload ttl maxAttempts grounds)
        (challengeID env store.drawn) (.opened (challengeID env store.drawn) maxAttempts)
  | consumed {id : String} {row : AuthChallenge} (hget : store.challenges.get id = some row)
      (hopen : row.consumedAt = none)
      (hputs : store.challenges.Puts (consume now row) next.challenges) :
      Touch env store next (.consumeChallenge id) id (.consumed id)
  | failed {id : String} {row : AuthChallenge} (hget : store.challenges.get id = some row)
      (hopen : row.consumedAt = none)
      (hputs : store.challenges.Puts (charge now row) next.challenges) :
      Touch env store next (.failChallenge id) id (.failureRecorded id)

structure ChallengeEffect (env : Env) (store next : Store) (c : Command) : Prop where
  drawn : store.drawn ≤ next.drawn
  challenge : ∀ id, (history id next.log = history id store.log ∧ next.challenges.get id = store.challenges.get id) ∨
      ∃ e, Touch env store next c id e ∧ history id next.log = e :: history id store.log

namespace Store

theorem challengeID_injective (env : Env) : Function.Injective (challengeID env) := by
  intro n m h
  have ht := congrArg String.toList h
  simp only [challengeID, String.toList_append, append_cancel_left_eq] at ht
  exact env.randomToken_injective (String.toList_inj.mp ht)

theorem charge_maxAttempts (now : ℕ) (row : AuthChallenge) : (charge now row).maxAttempts = row.maxAttempts := by
  unfold charge
  split <;> rfl

theorem charge_of_open (h : (charge now row).consumedAt = none) :
    row.attempts + 1 < row.maxAttempts ∧ charge now row = { row with attempts := row.attempts + 1 } := by
  unfold charge at h ⊢
  split at h
  · cases h
  · rename_i hl; exact ⟨by omega, if_neg hl⟩

end Store

section Effect

variable {env : Env} {store next : Store} {c : Command}

theorem open_of_get {id : String} (hget : store.challenges.get id = some row)
    (ho : row.consumedAt = none) : open_ id row := by
  simp [open_, store.challenges.key_of_get hget, ho]

theorem ChallengeEffect.none (hc : next.challenges = store.challenges)
    (hd : store.drawn ≤ next.drawn) (hlog : next.log = new ++ store.log)
    (hnew : ∀ e ∈ new, subject e = none) : ChallengeEffect env store next c :=
  ⟨hd, fun id => .inl ⟨by rw [hlog, history_append hnew], by rw [hc]⟩⟩

theorem Touch.elsewhere {id other : String} (h : Touch env store next c id e) (hid : id ≠ other) :
    subject e ≠ some other ∧ next.challenges.get other = store.challenges.get other := by
  cases h with
  | compared hattempt halive hc => exact ⟨by simpa [subject] using hid, by rw [hc]⟩
  | opened hi => exact ⟨by simpa [subject] using hid, by rw [store.challenges.get_insert hi, if_neg hid]⟩
  | consumed hget ho hp | failed hget ho hp =>
    refine ⟨by simpa [subject] using hid, ?_⟩
    rw [hp other, if_neg]
    simpa [consume_id, charge_id, store.challenges.key_of_get hget] using hid

theorem ChallengeEffect.touch {id : String} (h : Touch env store next c id e)
    (hd : store.drawn ≤ next.drawn) (hlog : next.log = new ++ e :: store.log)
    (hnew : ∀ e ∈ new, subject e = .none) : ChallengeEffect env store next c := by
  refine ⟨hd, fun other => ?_⟩
  rw [hlog, history_append hnew]
  by_cases hid : id = other
  · subst hid; exact .inr ⟨e, h, history_cons (by cases h <;> rfl)⟩
  · obtain ⟨hs, hget⟩ := h.elsewhere hid; exact .inl ⟨history_cons_of_ne hs, hget⟩

theorem Frame.untouched (h : Frame c store next) (hm : movesChallenges c = false)
    (ha : attemptOf c = none) : ChallengeEffect env store next c := by
  obtain ⟨new, hlog, hnew⟩ := h.log
  refine .none (h.challenges hm) h.drawn hlog fun e he => ?_
  have hn := hnew e he
  cases e with
  | opened | failureRecorded | consumed => cases c <;> cases hm <;> cases hn
  | compared id => cases c <;> cases ha <;> cases hn
  | _ => rfl

theorem challengeEffect_compare {attempt : Option String} (ha : attemptOf c = attempt)
    (hf : Frame c store next) (hm : movesChallenges c = false) (new : List Event)
    (hlog : next.log = new ++ (store.noteCompared attempt).log) (hnew : ∀ e ∈ new, subject e = none) :
    ChallengeEffect env store next c := by
  rw [noteCompared_eq] at hlog
  cases ht : attempt.filter store.alive with
  | none => exact .none (hf.challenges hm) hf.drawn (by simpa [ht] using hlog) hnew
  | some id =>
    obtain ⟨hid, halive⟩ := filter_eq_some_iff.mp ht
    exact .touch (.compared (ha.trans hid) halive (hf.challenges hm)) hf.drawn (by simpa [ht] using hlog) hnew

theorem Effect.challenge (h : Effect env store c answer next) : ChallengeEffect env store next c := by
  have hf := h.frame
  cases h with
  | compareTOTP | codeRefused => exact challengeEffect_compare rfl hf rfl [] rfl (by simp)
  | @codeAccepted attempt =>
    refine challengeEffect_compare rfl hf rfl _ (congrArg log (noteAccepted_eq _ _ _)) ?_
    cases attempt <;> simp [subject]
  | @createChallenge _ _ _ _ _ _ grounds _ hi =>
    rw [noteTicket_eq] at hf ⊢
    exact .touch (.opened hi rfl) hf.drawn rfl (by cases grounds <;> simp [subject])
  | @consumed row now id hget ho =>
    exact .touch (.consumed hget ho (store.challenges.puts_update (open_id _) (consume_id now)
      hget (open_of_get hget ho))) hf.drawn (nil_append _).symm (by simp)
  | @failed row now id answer hget ho =>
    exact .touch (.failed hget ho (store.challenges.puts_update (open_id _) (charge_id now)
      hget (open_of_get hget ho))) hf.drawn (nil_append _).symm (by simp)
  | consumeRefused | failIgnored => exact .none rfl le_rfl (nil_append _).symm (by simp)
  | quiet hq =>
    have hq : movesChallenges c = false ∧ attemptOf c = none := by
      cases c <;> first | exact ⟨rfl, rfl⟩ | cases hq
    exact hf.untouched hq.1 hq.2
  | _ => exact hf.untouched rfl rfl

end Effect

-- What the events of a challenge say of its row, and of the budget once the row
-- is gone.
structure Budget (env : Env) (id : String) (count : ℕ) (found : Option AuthChallenge) (events : List Event) : Prop where
  drawn : ∀ max, .opened id max ∈ events → ∃ n < count, id = challengeID env n
  unique : ∀ max max', .opened id max ∈ events → .opened id max' ∈ events → max = max'
  row : ∀ row, found = some row → .opened id row.maxAttempts ∈ events
  fresh : (∀ max, .opened id max ∉ events) → events = []
  alive : ∀ row, found = some row → row.consumedAt = none →
    failures id events = row.attempts ∧ row.attempts < row.maxAttempts ∧ consumptions id events = 0
  spent : ∀ max, .opened id max ∈ events →
    consumptions id events ≤ 1 ∧ (failures id events < max ∨ consumptions id events = 0)

def Store.Budgeted (env : Env) (store : Store) (id : String) : Prop :=
  Budget env id store.drawn (store.challenges.get id) (history id store.log)

section Budget

variable {env : Env} {store next : Store} {id : String}

namespace Budget

theorem of_same (h : Budget env id n found events) (hfound : ∀ row, other = some row → found = some row)
    (hn : n ≤ m) : Budget env id m other events := by
  refine ⟨fun max hmax => ?_, h.unique, fun row hrow => h.row row (hfound row hrow), h.fresh,
    fun row hrow => h.alive row (hfound row hrow), h.spent⟩
  obtain ⟨k, hk, hid⟩ := h.drawn max hmax
  exact ⟨k, hk.trans_le hn, hid⟩

theorem extend (h : Budget env id n (some row) events) (he : ∀ max, e ≠ .opened id max)
    (hn : n ≤ m) (hrow : other.maxAttempts = row.maxAttempts)
    (ha : other.consumedAt = none → failures id (e :: events) = other.attempts ∧
      other.attempts < other.maxAttempts ∧ consumptions id (e :: events) = 0)
    (hs : consumptions id (e :: events) ≤ 1 ∧
      (failures id (e :: events) < row.maxAttempts ∨ consumptions id (e :: events) = 0)) :
    Budget env id m (some other) (e :: events) := by
  have ho : ∀ max, .opened id max ∈ e :: events ↔ .opened id max ∈ events := by
    intro max
    simp [(he max).symm]
  constructor
  · intro max hmax
    obtain ⟨k, hk, hid⟩ := h.drawn max ((ho max).mp hmax)
    exact ⟨k, hk.trans_le hn, hid⟩
  · exact fun max max' hmax hm => h.unique max max' ((ho max).mp hmax) ((ho max').mp hm)
  · rintro _ ⟨⟩
    rw [hrow]
    exact (ho _).mpr (h.row row rfl)
  · exact fun hnone => absurd ((ho _).mpr (h.row row rfl)) (hnone _)
  · rintro _ ⟨⟩
    exact ha
  · intro max hmax
    obtain rfl := h.unique _ _ (h.row row rfl) ((ho max).mp hmax)
    exact hs

theorem compared (h : Budget env id n (some row) events) (hn : n ≤ m) :
    Budget env id m (some row) (.compared id :: events) := by
  refine h.extend (by simp) hn rfl ?_ ?_
  · simpa [failures, consumptions] using h.alive row rfl
  · simpa [failures, consumptions] using h.spent _ (h.row row rfl)

theorem fresh_of_drawn (h : Budget env (challengeID env n) n found events) : events = [] := by
  refine h.fresh fun max hmax => ?_
  obtain ⟨k, hk, hid⟩ := h.drawn max hmax
  exact hk.ne' (challengeID_injective env hid)

theorem opened (h : Budget env (challengeID env n) n found events) (hp : 0 < row.maxAttempts)
    (hz : row.attempts = 0) :
    Budget env (challengeID env n) (n + 1) (some row) (.opened (challengeID env n) row.maxAttempts :: events) := by
  obtain rfl := h.fresh_of_drawn
  constructor
  · exact fun max _ => ⟨n, by omega, rfl⟩
  · intro max max' hmax hm
    simp only [mem_singleton, Event.opened.injEq, true_and] at hmax hm
    rw [hmax, hm]
  · rintro _ ⟨⟩; simp
  · intro hn; exact absurd (by simp) (hn row.maxAttempts)
  · rintro _ ⟨⟩ _; simpa [failures, consumptions, hz] using hp
  · intro max _; simp [consumptions]

theorem consumed (h : Budget env id n (some row) events) (hopen : row.consumedAt = none) (hn : n ≤ m) :
    Budget env id m (some (consume now row)) (.consumed id :: events) := by
  obtain ⟨hf, ha, hc⟩ := h.alive row rfl hopen
  refine h.extend (by simp) hn rfl nofun ?_
  simp_all [failures, consumptions]

theorem failed (h : Budget env id n (some row) events) (hopen : row.consumedAt = none) (hn : n ≤ m) :
    Budget env id m (some (charge now row)) (.failureRecorded id :: events) := by
  obtain ⟨hf, ha, hc⟩ := h.alive row rfl hopen
  unfold consumptions at hc
  refine h.extend (by simp) hn (charge_maxAttempts now row) (fun hnone => ?_) (by simp [consumptions, hc])
  obtain ⟨hl, hcharged⟩ := charge_of_open hnone
  simpa [hcharged, failures, consumptions, hc, ← hf] using hl

end Budget

theorem positive_of_allowed (h : allowed trace (.createChallenge kind userID payload ttl maxAttempts grounds)) :
    0 < maxAttempts := by
  cases kind with
  | loginMFA =>
    cases grounds with
    | none => exact h
    | some grounds => exact h.elim
  | loginTicket =>
    cases grounds with
    | none => exact h.elim
    | some grounds => exact h.2

theorem ChallengeEffect.budget (h : ∀ id, store.Budgeted env id)
    (ha : allowed trace c) (he : ChallengeEffect env store next c) (id : String) : next.Budgeted env id := by
  have hb := h id
  unfold Budgeted at hb ⊢
  rcases he.challenge id with ⟨hh, hget⟩ | ⟨e, ht, hh⟩
  · rw [hh, hget]; exact hb.of_same (fun _ hrow => hrow) he.drawn
  rw [hh]
  cases ht with
  | compared hattempt halive hc =>
    obtain ⟨row, hget, -⟩ := (any_eq_true _ _).mp halive
    rw [hget] at hb
    rw [hc, hget]
    exact hb.compared he.drawn
  | opened hi hd =>
    rw [store.challenges.get_insert hi, if_pos rfl, hd]
    exact hb.opened (positive_of_allowed ha) rfl
  | consumed hget ho hp =>
    rw [hget] at hb
    rw [hp id, if_pos (by rw [consume_id, store.challenges.key_of_get hget])]
    exact hb.consumed ho he.drawn
  | failed hget ho hp =>
    rw [hget] at hb
    rw [hp id, if_pos (by rw [charge_id, store.challenges.key_of_get hget])]
    exact hb.failed ho he.drawn

theorem exec_budget (h : ∀ id, store.Budgeted env id)
    (ha : allowed trace c) (id : String) : (exec env store c input).1.Budgeted env id := by
  rcases exec_cases env store c input with ⟨e, he⟩ | ⟨next, answer, hrun, he⟩
  · rw [he]; exact h id
  · rw [he]; exact (run_effect hrun).challenge.budget h ha id

theorem change_budget (h : ∀ id, store.Budgeted env id) (hc : change store e = some next)
    (id : String) : next.Budgeted env id := by
  cases e with
  | policy settings =>
    obtain ⟨old, -, rfl⟩ := map_eq_some_iff.mp hc
    exact (h id).of_same (fun _ hrow => hrow) le_rfl
  | sweepChallenges before =>
    cases hc
    refine (h id).of_same (fun row hrow => ?_) le_rfl
    rw [Table.get_delete] at hrow
    exact (filter_eq_some_iff.mp hrow).1
  | accounts | sweepDevices =>
    cases hc
    exact (h id).of_same (fun _ hrow => hrow) le_rfl

end Budget

def consumedBy : (Σ c, Except AuthError (Answer c)) → Bool
  | ⟨.consumeChallenge challengeID, .ok true⟩ => challengeID = id
  | _ => false

def credit (trace : Trace) : ℕ :=
  if trace.any (consumedBy id) && !trace.any (fun e => issuesToken e.1) then 1 else 0

section Sessions

variable {env : Env} {store next : Store} {c : Command} {id : String} {trace : Trace}

theorem sessions_append {new log : List Event} (hnew : ∀ e ∈ new, verifiedBy id e = false) :
    sessions id (new ++ log) = sessions id log := by
  have hz : new.countP (verifiedBy id) = 0 := by
    rw [countP_eq_zero]
    intro e he
    rw [hnew e he]
    exact Bool.false_ne_true
  rw [sessions, countP_append, hz, Nat.zero_add, sessions]

theorem not_verifiedBy_of_notes (hn : notes c e) (hi : issuesToken c = false) : verifiedBy id e = false := by
  cases e with
  | sessionIssued userID grounds => cases c <;> first | cases hn | cases hi
  | _ => rfl

theorem credit_le_one : credit id trace ≤ 1 := by
  unfold credit
  split <;> omega

theorem credit_cons_of_issues (answer : Except AuthError (Answer c)) (hi : issuesToken c) :
    credit id (⟨c, answer⟩ :: trace) = 0 := by simp [credit, hi]

theorem credit_cons (hi : issuesToken c = false)
    (hc : consumedBy id ⟨c, answer⟩ = false) : credit id (⟨c, answer⟩ :: trace) = credit id trace := by
  simp only [credit, any_cons, hi, hc, Bool.false_or]

theorem credit_of_allowed {userID challengeID : String}
    (h : allowed trace (.issueToken userID ttl (.verified challengeID))) : credit challengeID trace = 1 := by
  obtain ⟨⟨-, hc⟩, hi⟩ := h
  have hany : trace.any (consumedBy challengeID) :=
    any_eq_true.mpr ⟨_, hc, by simp [consumedBy]⟩
  have hn : trace.any (fun e => issuesToken e.1) = false :=
    any_eq_false.mpr fun e he => by simp [hi e he]
  simp [credit, hany, hn]

theorem sessions_of_notes (hlog : next.log = new ++ store.log) (hnew : ∀ e ∈ new, notes c e)
    (hi : issuesToken c = false) (hc : consumedBy id ⟨c, answer⟩ = false) :
    sessions id next.log + credit id (⟨c, answer⟩ :: trace) + consumptions id store.log ≤
      sessions id store.log + credit id trace + consumptions id next.log := by
  have hs : sessions id next.log = sessions id store.log := by
    rw [hlog, sessions_append fun e he => not_verifiedBy_of_notes (hnew e he) hi]
  have hgrows : consumptions id store.log ≤ consumptions id next.log := by
    rw [hlog, consumptions, consumptions, count_append]
    omega
  rw [hs, credit_cons hi hc]
  omega

theorem Effect.sessions (h : Effect env store c answer next) (ha : allowed trace c) :
    sessions id next.log + credit id (⟨c, .ok answer⟩ :: trace) + consumptions id store.log ≤
      sessions id store.log + credit id trace + consumptions id next.log := by
  have hlog := h.frame.log
  cases h with
  | @issueToken ttl grounds userID token =>
    rw [credit_cons_of_issues _ rfl]
    have hs : consumptions id (.sessionIssued userID grounds :: store.log) =
        consumptions id store.log := by simp [consumptions]
    rw [hs]
    by_cases hv : grounds = .verified id
    · subst hv
      rw [credit_of_allowed ha]
      simp [sessions, verifiedBy]
    · have ho : verifiedBy id (.sessionIssued userID grounds) = false := by
        cases grounds with
        | verified challengeID => simpa [verifiedBy] using hv
        | _ => rfl
      simp [sessions, ho]
  | @consumed row now challengeID hget hopen =>
    by_cases hid : challengeID = id
    · subst hid
      have hafter : credit challengeID (⟨.consumeChallenge challengeID, .ok true⟩ :: trace) ≤ 1 :=
        credit_le_one
      simp [sessions, verifiedBy, consumptions]
      omega
    · rw [credit_cons rfl (by simpa [consumedBy] using hid)]
      simp [sessions, verifiedBy, consumptions, hid]
  | quiet hq =>
    obtain ⟨new, hlog, hnew⟩ := hlog
    have hi : issuesToken c = false := by cases c <;> first | rfl | cases hq
    have hc : consumedBy id ⟨c, .ok answer⟩ = false := by cases c <;> first | rfl | cases hq
    exact sessions_of_notes hlog hnew hi hc
  | _ => obtain ⟨new, hlog, hnew⟩ := hlog; exact sessions_of_notes hlog hnew rfl rfl

theorem exec_sessions (env : Env) (store : Store) (input : Input) (id : String) (ha : allowed trace c) :
    sessions id (exec env store c input).1.log + credit id (⟨c, (exec env store c input).2⟩ :: trace) +
        consumptions id store.log ≤
      sessions id store.log + credit id trace + consumptions id (exec env store c input).1.log := by
  rcases exec_cases env store c input with ⟨e, he⟩ | ⟨next, answer, hrun, he⟩
  · rw [he]
    cases hi : issuesToken c with
    | true =>
      rw [credit_cons_of_issues _ hi]
      simp only
      omega
    | false =>
      have hc : consumedBy id ⟨c, .error e⟩ = false := by cases c <;> rfl
      rw [credit_cons hi hc]
  · rw [he]; exact (run_effect hrun).sessions ha

end Sessions

-- Every session and every claim to one goes back to the consumption of the
-- challenge.
def Paid (s : State) : Prop :=
  ∀ id, sessions id s.store.log + s.weight (fun p => credit id p.trace) ≤ consumptions id s.store.log

abbrev Disciplined (env : Env) : State → Prop :=
  Holds (fun store => ∀ id, store.Budgeted env id) (Aware allowed fun _ _ => True)

section Run

variable {env : Env} {next : State}

theorem change_log {store next : Store} (h : change store e = some next) : next.log = store.log := by
  cases e with
  | policy settings => obtain ⟨old, -, rfl⟩ := map_eq_some_iff.mp h; rfl
  | accounts | sweepChallenges | sweepDevices => cases h; rfl

theorem disciplined_step (h : Disciplined env s) (hs : (system env).step s label = some next) :
    Disciplined env next := by
  have hf : OnMoves (OnTraces fun _ _ _ _ => True) s label :=
    onMoves_of_forall (fun _ _ _ _ _ => trivial) s label
  exact aware_step (start_tracks env) (fun _ _ _ _ hb _ ha _ => ⟨exec_budget hb ha, trivial⟩)
    (fun _ _ _ _ _ => trivial)
    (fun _ _ _ hb hc => ⟨change_budget hb hc, fun _ _ => trivial⟩) h hf hs

theorem paid_step (h : Disciplined env s) (hpaid : Paid s) (hs : (system env).step s label = some next) :
    Paid next := by
  intro id
  have hold := hpaid id
  cases label with
  | start request =>
    rw [step_start_eq_some hs, weight_start]
    simpa [system, Program.system, credit] using hold
  | event e =>
    obtain ⟨store, hc, rfl⟩ := step_event_eq_some hs
    rw [change_log hc]
    exact hold
  | move i input =>
    obtain ⟨p, store, moved, hp, hm, rfl⟩ := step_move_eq_some hs
    obtain ⟨c, k, hr, -, rfl, rfl⟩ := Program.move_eq_some hm
    have ht := (h.procs p (mem_of_getElem? hp)).1
    rw [hr] at ht
    have hw := weight_move (fun p : Program.Process _ _ _ _ => credit id p.trace) hp (exec env s.store c input).1
      ⟨⟨c, (exec env s.store c input).2⟩ :: p.trace, k (exec env s.store c input).2⟩
    have hpays := exec_sessions env s.store input id ht.1
    simp only at hw ⊢
    omega

end Run

-- A code is compared for a challenge only when every code compared before it
-- has been charged.
def Charged (store : Store) (c : Command) (_ : Input) : Prop :=
  ∀ id ∈ attemptOf c, store.alive id → compared id store.log ≤ failures id store.log
  deriving Decidable

def WithinBudget (store : Store) : Prop :=
  ∀ id max, .opened id max ∈ store.log → compared id store.log ≤ max

section Guarded

variable {env : Env} {store next : Store} {c : Command} {trace : Trace}

theorem withinBudget_of_effect (hb : ∀ id, store.Budgeted env id) (h : WithinBudget store)
    (hg : Charged store c input) (he : ChallengeEffect env store next c) : WithinBudget next := by
  intro id max hmax
  rw [← opened_mem_history] at hmax
  rw [compared, ← count_history rfl]
  have hold : .opened id max ∈ history id store.log → (history id store.log).count (.compared id) ≤ max := by
    rw [opened_mem_history, count_history rfl]
    exact h id max
  rcases he.challenge id with ⟨hh, -⟩ | ⟨e, ht, hh⟩
  · rw [hh] at hmax ⊢; exact hold hmax
  rw [hh] at hmax ⊢
  cases ht with
  | compared hattempt ha hchallenges =>
    obtain ⟨row, hget, ho⟩ := (any_eq_true _ _).mp ha
    obtain ⟨hf, hattempts, -⟩ := (hb id).alive row hget (by simpa using ho)
    have hc := hg id hattempt ha
    have hrow : row.maxAttempts = max :=
      (hb id).unique _ _ ((hb id).row row hget) (by simpa using hmax)
    rw [count_cons_self, count_history rfl]
    rw [failures, count_history rfl] at hf
    unfold compared failures at hc
    omega
  | opened => simp [(hb _).fresh_of_drawn]
  | consumed | failed => exact hold (by simpa using hmax)

theorem exec_withinBudget (hb : ∀ id, store.Budgeted env id) (h : WithinBudget store)
    (hg : Charged store c input) : WithinBudget (exec env store c input).1 := by
  rcases exec_cases env store c input with ⟨e, he⟩ | ⟨next, answer, hrun, he⟩
  · rw [he]; exact h
  · rw [he]; exact withinBudget_of_effect hb h hg (run_effect hrun).challenge

end Guarded

theorem withinBudget_step {env : Env} {s next : State} {label : Label} (h : Disciplined env s)
    (hw : WithinBudget s.store) (hg : OnMoves (OnCommands Charged) s label)
    (hs : (system env).step s label = some next) : WithinBudget next.store := by
  cases label with
  | start request => rw [step_start_eq_some hs]; exact hw
  | event e =>
    obtain ⟨store, hchange, rfl⟩ := step_event_eq_some hs
    intro id max hmax
    simp only [change_log hchange] at hmax ⊢
    exact hw id max hmax
  | move i input =>
    obtain ⟨p, store, moved, hp, hm, rfl⟩ := step_move_eq_some hs
    obtain ⟨c, k, -, hc, rfl, rfl⟩ := move_eq_some hm
    exact exec_withinBudget h.store hw (hg p hp c hc)

theorem disciplined_init (env : Env) (users : Table User.id) (settings : Option AuthSettings) :
    Disciplined env (init users settings) ∧ Paid (init users settings) := by
  refine ⟨⟨fun id => ?_, by simp [init]⟩, ?_⟩
  · constructor <;> simp [init, history]
  · simp [Paid, init, sessions, consumptions, State.weight]

theorem sessions_of_paid (h : Disciplined env s) (hp : Paid s) (id : String) :
    sessions id s.store.log ≤ 1 ∧ ∀ max, .opened id max ∈ s.store.log →
      max ≤ failures id s.store.log → sessions id s.store.log = 0 := by
  have hb := h.store id
  have hle := hp id
  have hc : consumptions id (history id s.store.log) = consumptions id s.store.log := count_history rfl
  have hfailed : failures id (history id s.store.log) = failures id s.store.log := count_history rfl
  refine ⟨?_, fun max hmax hfull => ?_⟩
  · by_cases ho : ∃ max, .opened id max ∈ history id s.store.log
    · obtain ⟨max, hmax⟩ := ho
      have hs := (hb.spent max hmax).1
      omega
    · have he := hb.fresh (not_exists.mp ho)
      rw [he, consumptions, count_nil] at hc
      omega
  · have hs := (hb.spent max (opened_mem_history.mpr hmax)).2; omega

-- In every run a challenge yields one session at most, and none once its
-- failures have reached its budget. The codes compared stay within the budget
-- in the runs that compare no code while another one is still to be charged.
theorem challenge_guess_budget (env : Env) (users : Table User.id) (settings : Option AuthSettings)
    (labels : List Label) : Always (system env).step
      (fun s => ∀ id, sessions id s.store.log ≤ 1 ∧ ∀ max, .opened id max ∈ s.store.log →
        max ≤ failures id s.store.log → sessions id s.store.log = 0) (init users settings) labels ∧
    (Along (system env).step (Interleaving.OnMoves (Program.OnCommands Charged)) (init users settings) labels →
      Always (system env).step (fun s => WithinBudget s.store) (init users settings) labels) := by
  obtain ⟨hinit, hpaid⟩ := disciplined_init env users settings
  constructor
  · have hinv : Always (system env).step (fun s => Disciplined env s ∧ Paid s) (init users settings) labels :=
      always_of_step (fun s label next h hstep =>
        ⟨disciplined_step h.1 hstep, paid_step h.1 h.2 hstep⟩) _ labels ⟨hinit, hpaid⟩
    exact hinv.mono fun s h => sessions_of_paid h.1 h.2
  · intro halong
    have hwithin : WithinBudget (init users settings).store := by simp [WithinBudget, init]
    have hinv : Always (system env).step (fun s => Disciplined env s ∧ WithinBudget s.store)
        (init users settings) labels :=
      always_of_invariant (fun s label next h hguard hstep =>
        ⟨disciplined_step h.1 hstep, withinBudget_step h.1 h.2 hguard hstep⟩) _ labels ⟨hinit, hwithin⟩
        halong
    exact hinv.mono fun s h => h.2

def challengeRun : List Label :=
  .start (.enroll "u" "pw" sampleDrawn) :: steps 0 2 (unix 60) ++
    .start (.enable "u" "000000") :: steps 1 4 (unix 60) ++
      .start (.login ⟨"alice", "pw", "10.0.0.1", false, ""⟩) :: steps 2 8 (unix 180)

def serialRun : List Label :=
  challengeRun ++ .start (.verifyMFA "ch_x" "111111" false) :: steps 3 8 (unix 240) ++
    .start (.verifyMFA "ch_x" "000000" false) :: steps 4 12 (unix 240)

theorem serial_codes_stay_within_budget :
    ∃ final, Transition.run (system sampleEnv).step (init sampleUsers none) serialRun = some final ∧
      (sessions "ch_x" final.store.log = 1 ∧ compared "ch_x" final.store.log = 2 ∧
        .opened "ch_x" 5 ∈ final.store.log) ∧ WithinBudget final.store :=
  ((challenge_guess_budget sampleEnv sampleUsers none serialRun).2 (by decide +kernel)).exists_run (by decide +kernel)

-- Six calls that load the challenge before any of them is charged.
theorem concurrent_codes_exceed_budget : ∃ final, Transition.run (system sampleEnv).step (init sampleUsers none)
        (challengeRun ++ List.replicate 6 (.start (.verifyMFA "ch_x" "111111" false)) ++
          (List.range' 3 6).flatMap fun i => steps i 6 (unix 240)) = some final ∧
      .opened "ch_x" 5 ∈ final.store.log ∧ compared "ch_x" final.store.log = 6 :=
  exists_run_of_any (by decide +kernel)

end TunnelMesh.Auth
