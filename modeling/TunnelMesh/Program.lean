import TunnelMesh.Interleaving

namespace TunnelMesh

-- A program that calls commands `C`. A command answers with an `R` or with an
-- error, and the program goes on from the answer, to a result or to an error of
-- its own.
inductive Program (C : Type) (R : C → Type) (ε α : Type) where
  | ret (a : α)
  | throw (e : ε)
  | call (c : C) (next : Except ε (R c) → Program C R ε α)

namespace Program

variable {C : Type} {R : C → Type} {ε α β : Type} {σ ι ρ η : Type}

def bind : Program C R ε α → (α → Program C R ε β) → Program C R ε β
  | .ret a, f => f a
  | .throw e, _ => .throw e
  | .call c next, f => .call c fun answer => (next answer).bind f

instance : Monad (Program C R ε) where
  pure := .ret
  bind := bind

def fromExcept : Except ε α → Program C R ε α
  | .ok a => .ret a
  | .error e => .throw e

def perform (c : C) : Program C R ε (R c) := .call c fromExcept

def attempt : Program C R ε α → Program C R ε (Except ε α)
  | .ret a => .ret (.ok a)
  | .throw e => .ret (.error e)
  | .call c next => .call c fun answer => (next answer).attempt

abbrev Trace (C : Type) (R : C → Type) (ε : Type) := List (Σ c, Except ε (R c))

-- Every command that the program calls after the answers `trace` is allowed by
-- the answers before it, and a result meets `post`.
def Tracks (allowed : Trace C R ε → C → Prop) :
    Program C R ε α → (Trace C R ε → α → Prop) → Trace C R ε → Prop
  | .ret a, post, trace => post trace a
  | .throw _, _, _ => True
  | .call c next, post, trace =>
    allowed trace c ∧ ∀ answer, Tracks allowed (next answer) post (⟨c, answer⟩ :: trace)

def Obeys (allowed : Trace C R ε → C → Prop) : Trace C R ε → Prop
  | [] => True
  | e :: earlier => allowed earlier e.1 ∧ Obeys allowed earlier

def Only (plain : C → Prop) : Program C R ε α → Prop
  | .ret _ => True
  | .throw _ => True
  | .call c next => plain c ∧ ∀ answer, Only plain (next answer)

structure Process (C : Type) (R : C → Type) (ε α : Type) where
  trace : Trace C R ε
  rest : Program C R ε α

def Process.command (p : Process C R ε α) : Option C :=
  match p.rest with
  | .call c _ => some c
  | _ => none

def Process.result (p : Process C R ε α) : Option (Except ε α) :=
  match p.rest with
  | .ret a => some (.ok a)
  | .throw e => some (.error e)
  | .call _ _ => none

def Process.move (exec : σ → (c : C) → ι → σ × Except ε (R c)) (store : σ) (p : Process C R ε α)
    (input : ι) : Option (σ × Process C R ε α) :=
  match p.rest with
  | .call c next =>
    some ((exec store c input).1, ⟨⟨c, (exec store c input).2⟩ :: p.trace, next (exec store c input).2⟩)
  | _ => none

-- The program run alone to its end, with one input for each command. It is
-- `none` where the inputs run out.
def finish (exec : σ → (c : C) → ι → σ × Except ε (R c)) :
    Program C R ε α → σ → List ι → Option (σ × Except ε α)
  | .ret a, store, _ => some (store, .ok a)
  | .throw e, store, _ => some (store, .error e)
  | .call _ _, _, [] => none
  | .call c next, store, input :: rest =>
    finish exec (next (exec store c input).2) (exec store c input).1 rest

-- The program run alone from the store ends in `post`, whatever the inputs.
def Yields (exec : σ → (c : C) → ι → σ × Except ε (R c)) :
    Program C R ε α → (σ → Except ε α → Prop) → σ → Prop
  | .ret a, post, store => post store (.ok a)
  | .throw e, post, store => post store (.error e)
  | .call c next, post, store =>
    ∀ input, Yields exec (next (exec store c input).2) post (exec store c input).1

def system (exec : σ → (c : C) → ι → σ × Except ε (R c)) (start : ρ → Program C R ε α)
    (event : σ → η → Option σ) : Interleaving.System σ (Process C R ε α) ρ ι η where
  start request := ⟨[], start request⟩
  move := Process.move exec
  event := event

def OnCommands (guard : σ → C → ι → Prop) (store : σ) (p : Process C R ε α) (input : ι) : Prop :=
  ∀ c ∈ p.command, guard store c input

instance OnCommands.decidable (guard : σ → C → ι → Prop)
    [∀ store c input, Decidable (guard store c input)] (store : σ) (p : Process C R ε α)
    (input : ι) : Decidable (OnCommands guard store p input) :=
  inferInstanceAs (Decidable (∀ c ∈ p.command, guard store c input))

def OnTraces (guard : σ → Trace C R ε → C → ι → Prop) (store : σ) (p : Process C R ε α) (input : ι) : Prop :=
  ∀ c ∈ p.command, guard store p.trace c input

instance OnTraces.decidable (guard : σ → Trace C R ε → C → ι → Prop)
    [∀ store trace c input, Decidable (guard store trace c input)] (store : σ) (p : Process C R ε α)
    (input : ι) : Decidable (OnTraces guard store p input) :=
  inferInstanceAs (Decidable (∀ c ∈ p.command, guard store p.trace c input))

end Program

end TunnelMesh

namespace TunnelMesh.Program

open Interleaving Program

variable {σ C ι ρ η : Type} {R : C → Type} {ε α β : Type} {p p' : Program C R ε α} {post : σ → Except ε α → Prop}

theorem bind_ret (p : Program C R ε α) : p >>= ret = p := by
  induction p with
  | ret | throw => rfl
  | call c next ih => exact congrArg (call c) (funext ih)

theorem move_eq_some {exec : σ → (c : C) → ι → σ × Except ε (R c)}
    {p moved : Process C R ε α} (h : p.move exec store input = some (next, moved)) :
    ∃ c k, p.rest = .call c k ∧ p.command = some c ∧ next = (exec store c input).1 ∧
      moved = ⟨⟨c, (exec store c input).2⟩ :: p.trace, k (exec store c input).2⟩ := by
  obtain ⟨trace, rest⟩ := p
  cases rest with
  | ret | throw => cases h
  | call c k => cases h; exact ⟨c, k, rfl, rfl, rfl, rfl⟩

section Tracks

variable {allowed : Trace C R ε → C → Prop}

theorem Tracks.mono {post weaker : Trace C R ε → α → Prop}
    (h : p.Tracks allowed post trace) (himp : ∀ trace a, post trace a → weaker trace a) :
    p.Tracks allowed weaker trace := by
  induction p generalizing trace with
  | ret a => exact himp trace a h
  | throw e => trivial
  | call c next ih => exact ⟨h.1, fun answer => ih answer (h.2 answer)⟩

theorem Tracks.bind {mid : Trace C R ε → α → Prop} {post : Trace C R ε → β → Prop}
    (hp : p.Tracks allowed mid trace) (hf : ∀ trace a, mid trace a → (f a).Tracks allowed post trace) :
    (p >>= f).Tracks allowed post trace := by
  induction p generalizing trace with
  | ret a => exact hf trace a hp
  | throw e => trivial
  | call c next ih => exact ⟨hp.1, fun answer => ih answer (hp.2 answer)⟩

theorem Tracks.perform (h : allowed trace c) : (perform c : Program C R ε (R c)).Tracks allowed
      (fun after a => after = ⟨c, .ok a⟩ :: trace) trace := by
  refine ⟨h, fun answer => ?_⟩
  cases answer with
  | ok a => exact rfl
  | error e => trivial

theorem Tracks.attempt {post : Trace C R ε → Except ε α → Prop}
    (h : p.Tracks allowed (fun trace a => post trace (.ok a)) trace)
    (he : ∀ trace e, post trace (.error e)) : p.attempt.Tracks allowed post trace := by
  induction p generalizing trace with
  | ret a => exact h
  | throw e => exact he trace e
  | call c next ih => exact ⟨h.1, fun answer => ih answer (h.2 answer)⟩

theorem Tracks.attempt_true (h : p.Tracks allowed (fun _ _ => True) trace) :
    p.attempt.Tracks allowed (fun _ _ => True) trace :=
  Tracks.attempt h fun _ _ => trivial

theorem tracks_true (p : Program C R ε α) (trace : Trace C R ε) :
    p.Tracks (fun _ _ => True) (fun _ _ => True) trace := by
  induction p generalizing trace with
  | ret | throw => trivial
  | call c next ih => exact ⟨trivial, fun answer => ih answer _⟩

theorem Tracks.ite {q : Prop} [Decidable q] {post : Trace C R ε → α → Prop} (hp : q → p.Tracks allowed post trace)
    (hp' : ¬q → p'.Tracks allowed post trace) : (if q then p else p').Tracks allowed post trace := by
  split
  · exact hp ‹_›
  · exact hp' ‹_›

theorem Tracks.guard {q : Prop} [Decidable q] {post : Trace C R ε → α → Prop}
    (h : ¬q → p.Tracks allowed post trace) : (if q then .throw e else p).Tracks allowed post trace :=
  Tracks.ite (fun _ => trivial) h

end Tracks

theorem Obeys.allowed {allowed : Trace C R ε → C → Prop} {later earlier : Trace C R ε}
    {e : Σ c, Except ε (R c)} (h : Obeys allowed (later ++ e :: earlier)) : allowed earlier e.1 := by
  induction later with
  | nil => exact h.1
  | cons head tail ih => exact ih h.2

section Only

variable {plain : C → Prop}

theorem Only.bind {f : α → Program C R ε β} (hp : p.Only plain)
    (hf : ∀ a, (f a).Only plain) : (p >>= f).Only plain := by
  induction p with
  | ret a => exact hf a
  | throw e => trivial
  | call c next ih => exact ⟨hp.1, fun answer => ih answer (hp.2 answer)⟩

theorem Only.fromExcept (r : Except ε α) : (fromExcept r : Program C R ε α).Only plain := by
  cases r <;> trivial

theorem Only.perform (h : plain c) : (perform c : Program C R ε (R c)).Only plain :=
  ⟨h, fun answer => .fromExcept answer⟩

theorem Only.attempt (h : p.Only plain) : p.attempt.Only plain := by
  induction p with
  | ret | throw => trivial
  | call c next ih => exact ⟨h.1, fun answer => ih answer (h.2 answer)⟩

theorem Only.ite {q : Prop} [Decidable q] (hp : p.Only plain)
    (hp' : p'.Only plain) : (if q then p else p').Only plain := by
  split
  · exact hp
  · exact hp'

theorem Only.tracks {allowed : Trace C R ε → C → Prop} (h : p.Only plain) (ha : ∀ trace c, plain c → allowed trace c) :
    p.Tracks allowed (fun after _ => ∃ new, after = new ++ trace ∧ ∀ e ∈ new, plain e.1) trace := by
  induction p generalizing trace with
  | ret a => exact ⟨[], rfl, by simp⟩
  | throw e => trivial
  | call c next ih =>
    refine ⟨ha trace c h.1, fun answer => (ih answer (h.2 answer)).mono ?_⟩
    rintro after a ⟨new, rfl, hnew⟩
    refine ⟨new ++ [⟨c, answer⟩], by simp, fun e he => ?_⟩
    rcases List.mem_append.mp he with he | he
    · exact hnew e he
    · rw [List.mem_singleton.mp he]; exact h.1

end Only

section Yields

variable {exec : σ → (c : C) → ι → σ × Except ε (R c)}

theorem finish_of_yields (h : p.Yields exec post store) (hf : p.finish exec store inputs = some (next, result)) :
    post next result := by
  induction p generalizing store inputs with
  | ret | throw => cases hf; exact h
  | call c k ih =>
    cases inputs with
    | nil => cases hf
    | cons input rest => exact ih _ (h input) hf

theorem Yields.mono {weaker : σ → Except ε α → Prop}
    (h : p.Yields exec post store) (himp : ∀ store r, post store r → weaker store r) : p.Yields exec weaker store := by
  induction p generalizing store with
  | ret | throw => exact himp store _ h
  | call c next ih => exact fun input => ih _ (h input)

-- The second part starts where the first has left the store; an error of the
-- first is the whole program's.
theorem Yields.bind {mid : σ → Except ε α → Prop} {post : σ → Except ε β → Prop} (hp : p.Yields exec mid store)
    (hok : ∀ store a, mid store (.ok a) → (f a).Yields exec post store)
    (he : ∀ store e, mid store (.error e) → post store (.error e)) : (p >>= f).Yields exec post store := by
  induction p generalizing store with
  | ret a => exact hok store a hp
  | throw e => exact he store e hp
  | call c next ih => exact fun input => ih _ (hp input)

theorem yields_fromExcept (h : post store r) : (fromExcept r : Program C R ε α).Yields exec post store := by
  cases r <;> exact h

theorem yields_perform {post : σ → Except ε (R c) → Prop}
    (h : ∀ input, post (exec store c input).1 (exec store c input).2) :
    (perform c : Program C R ε (R c)).Yields exec post store :=
  fun input => yields_fromExcept (h input)

theorem Yields.attempt_bind {mid : σ → Except ε α → Prop} {post : σ → Except ε β → Prop} (hp : p.Yields exec mid store)
    (hf : ∀ store r, mid store r → (f r).Yields exec post store) : (p.attempt >>= f).Yields exec post store := by
  induction p generalizing store with
  | ret | throw => exact hf store _ hp
  | call c next ih => exact fun input => ih _ (hp input)

theorem Only.yields {plain : C → Prop} (rel : σ → σ → Prop) (hr : ∀ store, rel store store)
    (ht : ∀ {a b c}, rel a b → rel b c → rel a c) (he : ∀ store c input, plain c → rel store (exec store c input).1)
    (h : p.Only plain) : p.Yields exec (fun next _ => rel store next) store := by
  induction p generalizing store with
  | ret | throw => exact hr store
  | call c next ih =>
    intro input
    exact (ih _ (h.2 _)).mono fun final _ hf => ht (he store c input h.1) hf

end Yields

section System

variable {exec : σ → (c : C) → ι → σ × Except ε (R c)} {start : ρ → Program C R ε α}
  {event : σ → η → Option σ} {allowed : Trace C R ε → C → Prop} {inv : σ → Prop}
  {fact : (Σ c, Except ε (R c)) → σ → Prop}

def Aware (allowed : Trace C R ε → C → Prop) (fact : (Σ c, Except ε (R c)) → σ → Prop) (store : σ)
    (p : Process C R ε α) : Prop :=
  p.rest.Tracks allowed (fun _ _ => True) p.trace ∧ Obeys allowed p.trace ∧ ∀ e ∈ p.trace, fact e store

-- The invariant of a store that processes change by the commands they are
-- allowed, if the facts that they have learnt stay true.
theorem aware_step {guard : σ → Trace C R ε → C → ι → Prop}
    (hs : ∀ request, (start request).Tracks allowed (fun _ _ => True) [])
    (hexec : ∀ store trace c input, inv store → (∀ e ∈ trace, fact e store) → allowed trace c →
      guard store trace c input → inv (exec store c input).1 ∧ fact ⟨c, (exec store c input).2⟩ (exec store c input).1)
    (hk : ∀ store c input e, fact e store → fact e (exec store c input).1)
    (hevent : ∀ store e next, inv store → event store e = some next → inv next ∧ ∀ e, fact e store → fact e next)
    (h : Holds inv (Aware allowed fact) s) (hg : OnMoves (OnTraces guard) s label)
    (hstep : (system exec start event).step s label = some next) : Holds inv (Aware allowed fact) next := by
  have ho : ∀ {store next : σ}, (∀ e, fact e store → fact e next) →
      ∀ q : Process C R ε α, Aware allowed fact store q → Aware allowed fact next q :=
    fun hfact q hq => ⟨hq.1, hq.2.1, fun e he => hfact e (hq.2.2 e he)⟩
  apply h.step ?_ ?_ ?_ hg hstep
  · intro store request _; exact ⟨hs request, True.intro, by simp [system]⟩
  · intro store p input store' moved hinv ha hc hm
    obtain ⟨c, k, hr, hcommand, rfl, rfl⟩ := move_eq_some hm
    obtain ⟨ht, hobeys, hf⟩ := ha
    rw [hr] at ht
    obtain ⟨hkept, hnew⟩ := hexec store p.trace c input hinv hf ht.1 (hc c hcommand)
    refine ⟨hkept, ⟨ht.2 _, ⟨ht.1, hobeys⟩, ?_⟩, ho (hk store c input)⟩
    intro e he
    rcases List.mem_cons.mp he with rfl | he
    · exact hnew
    · exact hk store c input e (hf e he)
  · intro store e store' hinv he
    obtain ⟨hkept, hf⟩ := hevent store e store' hinv he
    exact ⟨hkept, ho hf⟩

end System

end TunnelMesh.Program
