import TunnelMesh.Client.Datagram
import TunnelMesh.Interleaving

namespace TunnelMesh.Client

open Session FrameQueue Interleaving Transition DatagramReader Option

-- Where the receive loop stands with a datagram: past its look at `done`, or past
-- its `TryPush`.
inductive DatagramPush where
  | idle
  | pushing (n : ℕ)
  | signalling
  deriving DecidableEq

structure DatagramStore where
  stream : DatagramStream
  loop : DatagramPush

inductive DatagramEvent where
  | data (n : ℕ)
  | push
  | finish (e : StreamEnd)

abbrev DatagramCalls := State DatagramStore (DatagramReader × Datagram)

namespace DatagramStore

def event (s : DatagramStore) : DatagramEvent → Option DatagramStore
  | .data n => if s.loop = .idle then some (if s.stream.err.isSome then s else { s with loop := .pushing n }) else none
  | .push => match s.loop with
    | .idle => none
    | .pushing n => match s.stream.readQueue.tryPush id n with
      | some readQueue => some ⟨{ s.stream with readQueue }, .signalling⟩
      | none => some ⟨s.stream.finish .windowExhausted, .idle⟩
    | .signalling => some ⟨{ s.stream with readSignal := true }, .idle⟩
  | .finish e => some { s with stream := s.stream.finish e }

-- Any number of calls of `ReadDatagram`, each with its result.
def calls : System DatagramStore (DatagramReader × Datagram) Unit Wake DatagramEvent where
  start _ := (.popping, .pending)
  move s call wake :=
    if call.1 = .idle then none
    else (readDatagram s.stream call.1 wake).map fun moved => ({ s with stream := moved.1 }, moved.2)
  event := event

def opened (inboundBytes : ℕ) : DatagramCalls := ⟨⟨.opened inboundBytes, .idle⟩, []⟩

end DatagramStore

open DatagramStore

def woken (call : DatagramReader × Datagram) : ℕ := if call.1 = .signalled then 1 else 0

def claims (s : DatagramStream) : DatagramReader → Wake → Bool
  | .popping, _ => s.readQueue.frames ≠ []
  | .waiting, .data => true
  | _, _ => false

-- A call takes the signal, or a datagram before it has waited, only while there are
-- more datagrams than calls that have taken a signal and not yet their datagram.
def Matched (s : DatagramCalls) : Label Unit Wake DatagramEvent → Prop
  | .move i wake => ∀ call ∈ s.procs[i]?, claims s.store.stream call.1 wake →
      s.store.stream.err.isSome ∨ s.weight woken < s.store.stream.readQueue.frames.length
  | .start _ | .event _ => True

instance (s : DatagramCalls) (label : Label Unit Wake DatagramEvent) : Decidable (Matched s label) := by
  cases label <;> dsimp only [Matched] <;> infer_instance

def EndsWithStream (s : DatagramCalls) : Prop := ∀ call ∈ s.procs, ∀ e, call.2 = .failed e → s.store.stream.err.isSome

-- Up to the end of the stream each call that was woken has its datagram.
def Supplied (s : DatagramCalls) : Prop :=
  s.store.stream.err.isSome ∨ s.weight woken ≤ s.store.stream.readQueue.frames.length ∧
    ∀ call ∈ s.procs, call.1 ≠ .draining ∧ ∀ e, call.2 ≠ .failed e

theorem err_readDatagram (h : readDatagram s reader wake = some moved) : moved.1.err = s.err := by
  unfold readDatagram DatagramReader.pop at h
  grind

theorem finish_isSome (s : DatagramStream) (e : StreamEnd) : (s.finish e).err.isSome := by
  unfold DatagramStream.finish
  split
  · assumption
  · rfl

theorem event_supplied (h : Supplied s) (hs : event s.store e = some next) : Supplied ⟨next, s.procs⟩ := by
  cases e with
  | data n =>
    simp only [event, ite_none_right_eq_some, some.injEq] at hs
    rw [← hs.2]
    split <;> exact h
  | push =>
    simp only [event] at hs
    split at hs
    · cases hs
    · split at hs
      · next readQueue hp =>
        cases hs
        refine h.imp id fun ⟨hw, hc⟩ => ⟨?_, hc⟩
        rw [tryPush_eq_some hp, List.length_append]
        exact Nat.le_add_right_of_le hw
      · cases hs; exact .inl (finish_isSome _ _)
    · cases hs; exact h
  | finish e => cases hs; exact .inl (finish_isSome _ _)

theorem move_supplied (h : Supplied s) (hm : Matched s (.move i wake))
    (hs : calls.step s (.move i wake) = some next) : Supplied next := by
  obtain ⟨⟨reader, result⟩, store, moved, hp, hmove, rfl⟩ := step_move_eq_some hs
  simp only [calls, ite_none_left_eq_some, map_eq_some_iff] at hmove
  obtain ⟨hcall, ⟨stream, moved⟩, hr, heq⟩ := hmove
  cases heq
  have herr := err_readDatagram hr
  by_cases he : s.store.stream.err.isSome
  · exact .inl (herr ▸ he)
  obtain ⟨hw, hc⟩ := h.resolve_left he
  have hclaim := fun hclaims => (hm _ hp hclaims).resolve_left he
  have hwhole := weight_eq_others woken hp
  have hown := hc _ (List.mem_of_getElem? hp)
  have hn : s.others woken i + woken moved ≤ stream.readQueue.frames.length ∧
      moved.1 ≠ .draining ∧ ∀ e, moved.2 ≠ .failed e := by
    unfold readDatagram DatagramReader.pop FrameQueue.pop at hr
    cases reader with
    | idle => exact absurd rfl hcall
    | draining => exact absurd rfl hown.1
    | _ => grind [woken, claims]
  refine .inr ⟨?_, forall_mem_set hc hn.2⟩
  rw [weight_set woken hp]
  exact hn.1

theorem step_supplied (h : Supplied s) (hm : Matched s label)
    (hs : calls.step s label = some next) : Supplied next := by
  cases label with
  | start request =>
    rw [step_start_eq_some hs]
    refine h.imp id fun ⟨hw, hc⟩ => ⟨?_, forall_mem_append_singleton hc ⟨nofun, nofun⟩⟩
    rw [weight_start]
    exact hw
  | move i wake => exact move_supplied h hm hs
  | event e => obtain ⟨store, he, rfl⟩ := step_event_eq_some hs; exact event_supplied h he

theorem reads_end_with_stream (inboundBytes : ℕ) (labels : List (Label Unit Wake DatagramEvent))
    (hm : Along calls.step Matched (opened inboundBytes) labels) :
    Always calls.step EndsWithStream (opened inboundBytes) labels :=
  (always_of_invariant (fun _ _ _ h hm hs => step_supplied h hm hs) (opened inboundBytes) labels
    (.inr ⟨Nat.le_refl 0, List.forall_mem_nil _⟩) hm).mono fun _ h call hc e he =>
      h.elim id fun ho => absurd he ((ho.2 call hc).2 e)

def readThen (first rest : List (Label Unit Wake DatagramEvent)) : List (Label Unit Wake DatagramEvent) :=
  [.start ()] ++ first ++ [.event (.data 1), .event .push, .event .push] ++ rest

theorem waiting_call_reads : Always calls.step EndsWithStream (opened 8)
      (readThen [.move 0 .data, .move 0 .data] [.move 0 .data, .move 0 .data]) :=
  reads_end_with_stream 8 _ (by decide)

-- The first call does not wait, so that its signal ends the second one.
theorem stale_signal_ends_read : (run calls.step (opened 8)
      (readThen [] [.move 0 .data, .start (), .move 1 .data, .move 1 .data, .move 1 .data, .move 1 .data])).any
        (fun s => s.procs = [(.idle, .read 1), (.idle, .failed .eof)] ∧ s.store.stream.err = none) := by
  decide

end TunnelMesh.Client
