import TunnelMesh.Client.FrameStream
import TunnelMesh.Relay.ClientStream.Capacity

namespace TunnelMesh.Client

open Protocol Session FrameQueue Client.Frame Option List Transition
open Agent (Outcome frameSize)
open Relay (ClientLabel ClientRelayStream RelayLoop relayBuffer)

variable {α : Type}

-- `frameDatagramStream`, where a datagram is its length. `finish` sets `err` and
-- closes `done` at once, so that `done` is closed where there is an `err`.
structure DatagramStream where
  readQueue : FrameQueue ℕ
  readSignal : Bool
  err : Option StreamEnd

-- Where a call of `ReadDatagram` stands: before its first `TryPop`, before the
-- look at `err`, in its `select`, and before the `TryPop` of either branch.
inductive DatagramReader where
  | idle
  | popping
  | checking
  | waiting
  | signalled
  | draining
  deriving DecidableEq

namespace DatagramStream

def opened (inboundBytes : ℕ) : DatagramStream := ⟨.empty inboundBytes, false, none⟩

variable (s : DatagramStream)

def finish (e : StreamEnd) : DatagramStream :=
  if s.err.isSome then s else { s with err := some e }

def push (n : ℕ) : DatagramStream × List (Frame α) :=
  if s.err.isSome then (s, [])
  else
    match s.readQueue.tryPush id n with
    | some readQueue => ({ s with readQueue, readSignal := true }, [])
    | none => (s.finish .windowExhausted, [.reset])

def close : DatagramStream × List (Frame α) := (s.finish .eof, [.halfClose])

def writeDatagram (payload : List α) : List (Frame α) :=
  if s.err.isSome then [] else [.data payload]

end DatagramStream

inductive Datagram where
  | pending
  | read (n : ℕ)
  | failed (e : StreamEnd)
  deriving DecidableEq

def DatagramReader.pop (s : DatagramStream) (none : DatagramReader × Datagram) :
    DatagramStream × DatagramReader × Datagram :=
  match s.readQueue.pop with
  | .some (n, readQueue) => ({ s with readQueue }, .idle, .read n)
  | .none => (s, none)

-- A signal that is left over from a datagram which was read without it counts
-- as the end of the file.
def DatagramReader.readDatagram (s : DatagramStream) :
    DatagramReader → Wake → Option (DatagramStream × DatagramReader × Datagram)
  | .idle, _ => some (s, .popping, .pending)
  | .popping, _ => some (pop s (.checking, .pending))
  | .checking, _ =>
    match s.err with
    | some e => some (s, .idle, .failed e)
    | none => some (s, .waiting, .pending)
  | .waiting, .data =>
    if s.readSignal then some ({ s with readSignal := false }, .signalled, .pending) else none
  | .waiting, .done => if s.err.isSome then some (s, .draining, .pending) else none
  | .signalled, _ => some (pop s (.idle, .failed .eof))
  | .draining, _ => some (pop s (.idle, .failed (s.err.getD .eof)))

def Frame.arrives : Frame α → ClientLabel (List α)
  | .data payload => .data payload
  | .halfClose => .halfClose
  | .windowUpdate credit => .windowUpdate credit
  | .reset => .reset

-- The steps that the Server takes without a frame of the Client. The end of its
-- session is a `reset`.
def ofServer : ClientLabel (List α) → Bool
  | .data _ | .halfClose | .windowUpdate _ => false
  | _ => true

def outstanding (s : ClientRelayStream (List α)) : ℕ := s.relay.reserved + s.outbound.bytes (frameSize id)

def sends (s : ClientRelayStream (List α)) : ClientLabel (List α) → List (Option ℕ)
  | .drain => (s.outbound.pop.map Prod.fst).toList
  | _ => []

-- A UDP association of a Client: the Server's stream, the frames on their way,
-- the Client's stream, and the datagrams that `ReadDatagram` has returned. In
-- `toClient` a `none` is a HALF_CLOSE.
structure Association (α : Type) where
  server : ClientRelayStream (List α)
  toServer : List (Frame α)
  toClient : List (Option ℕ)
  client : DatagramStream
  reader : DatagramReader
  read : List ℕ

inductive AssociationLabel (α : Type) where
  | server (label : ClientLabel (List α))
  | receive
  | deliver
  | finish (e : StreamEnd)
  | write (payload : List α)
  | close
  | readDatagram (wake : Wake)

namespace Association

def opened (initialWindow inboundBytes : ℕ) : Association α :=
  ⟨.opened initialWindow, [], [], .opened inboundBytes, .idle, []⟩

def deliver (a : Association α) : Option (Association α) :=
  match a.toClient with
  | [] => none
  | some n :: toClient =>
    let pushed : DatagramStream × List (Frame α) := a.client.push n
    some { a with toClient, client := pushed.1, toServer := a.toServer ++ pushed.2 }
  | none :: toClient => some { a with toClient, client := a.client.finish .eof }

def readDatagram (a : Association α) (wake : Wake) : Option (Association α) :=
  (a.reader.readDatagram a.client wake).map fun moved =>
    { a with
      client := moved.1
      reader := moved.2.1
      read := match moved.2.2 with
        | .read n => a.read ++ [n]
        | .pending | .failed _ => a.read }

-- A RESET of the Server and the end of the Client's session finish the Client's
-- stream.
def step (bufferSize : ℕ) (a : Association α) : AssociationLabel α → Option (Association α)
  | .server label =>
    if ofServer label then
      (a.server.step length bufferSize label).map fun server =>
        { a with server, toClient := a.toClient ++ sends a.server label }
    else none
  | .receive =>
    match a.toServer with
    | [] => none
    | frame :: toServer =>
      (a.server.step length bufferSize frame.arrives).map fun server => { a with server, toServer }
  | .deliver => a.deliver
  | .finish e => some { a with client := a.client.finish e }
  | .write payload => some { a with toServer := a.toServer ++ a.client.writeDatagram payload }
  | .close =>
    let closed : DatagramStream × List (Frame α) := a.client.close
    some { a with client := closed.1, toServer := a.toServer ++ closed.2 }
  | .readDatagram wake => a.readDatagram wake

@[mk_iff] structure Live (a : Association α) : Prop where
  present : a.server.present
  writer : a.server.outbound.closed = false
  client : a.client.err = none

def underWay (a : Association α) : ℕ := outstanding a.server + (a.toClient.map (frameSize id)).sum

-- The credit of the Server plus all that was downloaded makes up the window, and
-- nothing that is on its way to the Server adds to it.
structure Account (window : ℕ) (a : Association α) : Prop where
  silent : ∀ credit, windowUpdate credit ∉ a.toServer
  balance : a.Live → ∃ sendState, a.server.sendState = some sendState ∧
    sendState.sendWindow + a.underWay + a.client.readQueue.bytes id + a.read.sum = window

end Association

-- A step of the Server without a WINDOW_UPDATE. As long as the stream is there
-- and the writer open, what leaves the credit is spent on DATA.
structure Spends (s : ClientRelayStream (List α)) (label : ClientLabel (List α)) (next : ClientRelayStream (List α)) :
    Prop where
  present : s.present
  writer : s.outbound.closed = false
  balance : ∀ before ∈ s.sendState, ∃ after, next.sendState = some after ∧
    after.sendWindow + outstanding next + ((sends s label).map (frameSize id)).sum = before.sendWindow + outstanding s

variable {s next : ClientRelayStream (List α)}

theorem Spends.of_same (hp : s.present) (hw : s.outbound.closed = false)
    (hs : sends s label = []) (hsame : next.sendState = s.sendState) (hspent : outstanding next = outstanding s) :
    Spends s label next := by
  refine ⟨hp, hw, fun before hb => ⟨before, hsame.trans hb, ?_⟩⟩
  simp [hs, hspent]

theorem beside_spends (hb : s.Beside next) (hs : sends s label = []) (hp : next.present)
    (hw : next.outbound.closed = false) : Spends s label next := by
  refine .of_same (hb.present hp) (hb.outbound ▸ hw) hs hb.sendState ?_
  rw [outstanding, outstanding, hb.relay, hb.outbound]

theorem relay_spends (he : s.RelayEffect bufferSize next) (hp : next.present)
    (hw : next.outbound.closed = false) : Spends s (.relay outcome) next := by
  cases he with
  | took hr | looked hr | forwarded hr | limited hr =>
    exact .of_same hp hw rfl rfl (by rw [outstanding, outstanding, hr]; rfl)
  | @consumed n sendState hr _ hsome =>
    refine ⟨hp, hw, fun before hb => ?_⟩
    obtain ⟨hle, rfl⟩ := hsome before hb
    refine ⟨_, rfl, ?_⟩
    simp only [outstanding, hr, RelayLoop.reserved, sends, map_nil, sum_nil]
    omega
  | @enqueued n outbound hr hpush =>
    have hopen : s.outbound.closed = false := by rw [tryPush_eq_some hpush] at hw; exact hw
    refine ⟨hp, hopen, fun before hb => ⟨before, hb, ?_⟩⟩
    simp only [outstanding, hr, RelayLoop.reserved, bytes_tryPush hpush, frameSize, elim_some,
      id, sends, map_nil, sum_nil]
    omega
  | finished hsend _ ho hr hs =>
    obtain ⟨hh, hending⟩ := hs hp
    obtain ⟨hbytes, -, hc⟩ := ClientRelayStream.outbound_of_finished ho
    refine .of_same hh (hc.symm.trans hw) rfl hsend ?_
    rw [outstanding, outstanding, hr, hending, hbytes]
    rfl

theorem step_spends (hl : ∀ credit, label ≠ .windowUpdate credit)
    (hs : s.step length bufferSize label = some next) (hp : next.present)
    (hw : next.outbound.closed = false) : Spends s label next := by
  cases label with
  | windowUpdate credit => exact absurd rfl (hl credit)
  | agentCredit credit =>
    cases hs
    by_cases hroom : s.control.length < Relay.controlSlots
    · rw [if_pos hroom] at hp hw ⊢; exact .of_same hp hw rfl rfl rfl
    · rw [if_neg hroom] at hp hw ⊢; exact .of_same hp hw rfl rfl rfl
  | relay outcome => exact relay_spends (ClientRelayStream.relayToClient_effect hs) hp hw
  | read n =>
    obtain ⟨limit, hr, -, rfl⟩ := ClientRelayStream.readBytes_eq_some hs
    refine .of_same hp hw rfl rfl ?_
    rw [outstanding, outstanding, hr]
    split <;> rfl
  | readEnd failed =>
    obtain ⟨limit, hr, rfl⟩ := ClientRelayStream.readEnd_eq_some hs
    exact .of_same hp hw rfl rfl (by rw [outstanding, outstanding, hr]; rfl)
  | drain =>
    obtain ⟨popped, hpop, rfl⟩ := map_eq_some_iff.mp hs
    have ho : s.outbound.closed = false := by rw [(pop_eq_some hpop).2] at hw; exact hw
    refine ⟨hp, ho, fun before hb => ⟨before, hb, ?_⟩⟩
    simp only [outstanding, bytes_pop hpop, sends, hpop, map_some, toList_some,
      map_cons, map_nil, sum_cons, sum_nil]
    omega
  | closeWriter => cases hs; cases hw
  | _ =>
    exact beside_spends (ClientRelayStream.step_beside rfl hs) rfl hp hw

namespace Association

theorem account_opened (hw : 0 < window) (inboundBytes : ℕ) :
    Account window (opened window inboundBytes : Association α) where
  silent := fun _ => not_mem_nil
  balance := fun _ => by
    refine ⟨openedState window, by simp [opened, ClientRelayStream.opened, hw], ?_⟩
    have hs := (openedState_window (by omega : window ≠ 0)).1
    simp [opened, ClientRelayStream.opened, underWay, outstanding, RelayLoop.reserved, DatagramStream.opened,
      bytes, empty, hs]

theorem Account.server {server : ClientRelayStream (List α)} {toServer : List (Frame α)}
    (h : Account window a) (hsilent : ∀ credit, windowUpdate credit ∉ toServer)
    (hlabel : ∀ credit, label ≠ .windowUpdate credit)
    (hstep : a.server.step length bufferSize label = some server) :
    Account window { a with server, toServer, toClient := a.toClient ++ sends a.server label } := by
  refine ⟨hsilent, fun hl => ?_⟩
  have hs := step_spends hlabel hstep hl.present hl.writer
  obtain ⟨before, hb, hsum⟩ := h.balance ⟨hs.present, hs.writer, hl.client⟩
  obtain ⟨after, ha, hspent⟩ := hs.balance before hb
  refine ⟨after, ha, ?_⟩
  simp only [underWay, map_append, sum_append] at hsum ⊢
  omega

theorem Account.client {client : DatagramStream} {toServer : List (Frame α)} {toClient : List (Option ℕ)}
    {reader : DatagramReader} {read : List ℕ} (h : Account window a)
    (hs : ∀ credit, windowUpdate credit ∉ toServer) (hm : client.err = none → a.client.err = none ∧
      (toClient.map (frameSize id)).sum + client.readQueue.bytes id + read.sum =
        (a.toClient.map (frameSize id)).sum + a.client.readQueue.bytes id + a.read.sum) :
    Account window { a with client, toServer, toClient, reader, read } := by
  refine ⟨hs, fun hl => ?_⟩
  obtain ⟨hc, hkept⟩ := hm hl.client
  obtain ⟨sendState, hsend, hsum⟩ := h.balance ⟨hl.present, hl.writer, hc⟩
  refine ⟨sendState, hsend, ?_⟩
  simp only [underWay] at hsum ⊢
  omega

theorem finish_err (s : DatagramStream) (e : StreamEnd) : (s.finish e).err ≠ none := by
  unfold DatagramStream.finish
  split
  · next hs => exact isSome_iff_ne_none.mp hs
  · nofun

theorem silent_append {frames more : List (Frame α)} (h : ∀ credit, windowUpdate credit ∉ frames)
    (hm : ∀ credit, windowUpdate credit ∉ more) : ∀ credit, windowUpdate credit ∉ frames ++ more :=
  fun credit hmem => (mem_append.mp hmem).elim (h credit) (hm credit)

theorem deliver_account (h : Account window a) (hs : a.deliver = some b) : Account window b := by
  unfold deliver at hs
  split at hs
  · cases hs
  · next n toClient hf =>
    cases hs
    simp only [DatagramStream.push]
    split
    · next he =>
      refine h.client (silent_append h.silent fun _ => not_mem_nil) fun hn => ?_
      rw [hn] at he
      cases he
    · split
      · next readQueue hp =>
        refine h.client (silent_append h.silent fun _ => not_mem_nil) fun hn => ⟨hn, ?_⟩
        simp only [hf, map_cons, sum_cons, bytes_tryPush hp, frameSize, elim_some]
        omega
      · exact h.client (silent_append h.silent fun _ => by simp) fun hn => absurd hn (finish_err _ _)
  · cases hs; exact h.client h.silent fun hn => absurd hn (finish_err _ _)

theorem pop_account (h : Account window a) {none : DatagramReader × Datagram} (hn : ∀ n, none.2 ≠ .read n) :
    Account window { a with
      client := (DatagramReader.pop a.client none).1
      reader := (DatagramReader.pop a.client none).2.1
      read := match (DatagramReader.pop a.client none).2.2 with
        | .read n => a.read ++ [n]
        | .pending | .failed _ => a.read } := by
  unfold DatagramReader.pop
  split
  · next n readQueue hpop =>
    refine h.client h.silent fun herr => ⟨herr, ?_⟩
    simp only [bytes_pop hpop, id, sum_append, sum_singleton]
    omega
  · refine h.client h.silent fun herr => ⟨herr, ?_⟩
    split
    · next n heq => exact absurd heq (hn n)
    · rfl
    · rfl

theorem readDatagram_account {wake : Wake} (h : Account window a) (hstep : a.readDatagram wake = some b) :
    Account window b := by
  obtain ⟨moved, hm, rfl⟩ := map_eq_some_iff.mp hstep
  have hs : ∀ {client : DatagramStream} {reader : DatagramReader}, client.err = a.client.err →
      client.readQueue = a.client.readQueue → Account window { a with client, reader } :=
    fun herr hq => h.client h.silent fun hn => ⟨herr ▸ hn, by rw [hq]⟩
  cases hr : a.reader with
  | idle => obtain rfl := some.inj (hr ▸ hm); exact hs rfl rfl
  | popping | signalled | draining => obtain rfl := some.inj (hr ▸ hm); exact pop_account h nofun
  | checking =>
    simp only [hr, DatagramReader.readDatagram] at hm
    split at hm <;>
    · cases hm; exact hs rfl rfl
  | waiting =>
    cases wake with
    | data | done =>
      simp only [hr, DatagramReader.readDatagram] at hm
      obtain ⟨-, rfl⟩ := guard_eq_some hm
      exact hs rfl rfl

theorem step_account {label : AssociationLabel α} (h : Account window a) (hs : a.step bufferSize label = some b) :
    Account window b := by
  cases label with
  | server label =>
    simp only [step, ite_none_right_eq_some] at hs
    obtain ⟨hown, hs⟩ := hs
    obtain ⟨server, hserver, rfl⟩ := map_eq_some_iff.mp hs
    refine h.server h.silent (fun credit heq => ?_) hserver
    rw [heq] at hown
    cases hown
  | receive =>
    simp only [step] at hs
    split at hs
    · cases hs
    · next frame toServer hf =>
      obtain ⟨server, hserver, rfl⟩ := map_eq_some_iff.mp hs
      have hsilent := h.silent
      rw [hf] at hsilent
      have hl : ∀ credit, frame.arrives ≠ .windowUpdate credit := by
        intro credit heq
        cases frame with
        | windowUpdate update => exact hsilent update mem_cons_self
        | _ => cases heq
      have hk : a.toClient ++ sends a.server frame.arrives = a.toClient := by
        cases frame <;> exact append_nil _
      have hserved := h.server (fun credit hmem => hsilent credit (mem_cons_of_mem _ hmem)) hl hserver
      rwa [hk] at hserved
  | deliver => exact deliver_account h hs
  | finish e =>
    cases hs
    exact h.client h.silent fun hn => absurd hn (finish_err _ _)
  | write payload =>
    cases hs
    refine h.client (silent_append h.silent fun credit => ?_) fun hn => ⟨hn, rfl⟩
    unfold DatagramStream.writeDatagram
    split <;> simp
  | close =>
    cases hs
    exact h.client (silent_append h.silent fun credit => by simp [DatagramStream.close])
      fun hn => absurd hn (finish_err _ _)
  | readDatagram wake => exact readDatagram_account h hs

-- No call of the Client returns credit for a datagram. When the application has
-- read all that was delivered, the Server has credit left exactly if less than
-- the first window was downloaded.
theorem association_has_credit_iff {labels : List (AssociationLabel α)} (hwindow : 0 < window)
    (hrun : run (step (relayBuffer true)) (opened window inboundBytes) labels = some a) (hlive : a.Live)
    (hread : a.client.readQueue.frames = []) :
    (∃ sendState, a.server.sendState = some sendState ∧ 1 ≤ sendState.sendWindow) ↔
      a.read.sum + a.underWay < window := by
  have haccount : Account window a := run_preserves (fun _ _ _ => step_account)
    (account_opened hwindow inboundBytes) hrun
  obtain ⟨sendState, hsend, hsum⟩ := haccount.balance hlive
  have hempty : a.client.readQueue.bytes id = 0 := by simp [FrameQueue.bytes, hread]
  constructor
  · rintro ⟨other, hother, hcredit⟩
    obtain rfl : sendState = other := some.inj (hsend.symm.trans hother)
    omega
  · intro hless; exact ⟨sendState, hsend, by omega⟩

def round (n : ℕ) : List (AssociationLabel α) :=
  [.server (.relay .ok), .server (.relay .ok), .server (.read n), .server (.relay .ok), .server (.relay .ok),
    .server .drain, .deliver, .readDatagram .data, .readDatagram .data]

instance (a : Association α) : Decidable a.Live := decidable_of_iff _ (live_iff a).symm

theorem one_datagram_leaves_credit :
    ∃ a : Association Unit, run (step (relayBuffer true)) (opened 262144 262144) (round 1200) = some a ∧
      a.read = [1200] ∧ ∃ sendState, a.server.sendState = some sendState ∧ 1 ≤ sendState.sendWindow := by
  obtain ⟨a, hrun, hlive, hempty, hread, hunder⟩ :
      ∃ a : Association Unit, run (step (relayBuffer true)) (opened 262144 262144) (round 1200) = some a ∧
        a.Live ∧ a.client.readQueue.frames = [] ∧ a.read = [1200] ∧ a.underWay = 0 := by
    apply exists_run_of_any
    decide +kernel
  refine ⟨a, hrun, hread, (association_has_credit_iff (by decide) hrun hlive hempty).mpr ?_⟩
  rw [hread, hunder]
  decide

-- Eight datagrams that were all read use up the window for good.
theorem eight_datagrams_spend_the_window :
    ∃ a : Association Unit, run (step (relayBuffer true)) (opened 262144 262144)
        (List.replicate 8 (round 32768)).flatten = some a ∧
      a.Live ∧ a.client.readQueue.frames = [] ∧ a.underWay = 0 ∧ a.read = List.replicate 8 32768 ∧
        a.server.sendState = some ⟨.opened, 0, 262144⟩ := by
  apply exists_run_of_any
  decide +kernel

end Association

end TunnelMesh.Client
