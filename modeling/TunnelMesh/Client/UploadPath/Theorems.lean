import TunnelMesh.Client.UploadPath
import TunnelMesh.Interleaving

namespace TunnelMesh.Client

open Protocol Session SendCall Sender FrameQueue Interleaving Option List Transition Relay.ClientRelayStream
open List StreamState
open Agent (EntryLabel EntryMoved Outcome StreamEntry frameSize)
open Relay (ClientLabel ClientRelayStream RelayError UploadPump WriteChoice Writer WriterMoved)

section Server

variable {s next : ClientRelayStream ℕ}

theorem bytes_of_beside (hl : besideUpload label) (hstep : s.step id bufferSize label = some next) (hs : next.present) :
    next.inbound.bytes (frameSize id) = s.inbound.bytes (frameSize id) ∧ next.pump = s.pump := by
  cases ClientRelayStream.step_effect hstep with
  | accepted | marked | pumped => cases hl
  | pushed hpushing hp => exact ⟨bytes_tryPush hp, rfl⟩
  | aside ha => exact ⟨by rw [ha.inbound hs], ha.pump⟩

theorem forwards_of_forwarding {credit : ℕ} (hr : s.relay = .forwarding credit)
    (hs : s.relayToClient bufferSize outcome = some next) (hstays : next.present)
    (hp : s.present) (ho : s.outbound.closed = false) : s.forwards (.relay outcome) = [credit] := by
  cases outcome with
  | ok => rw [forwards, if_pos ⟨hp, ho⟩, hr, Relay.RelayLoop.carried]
  | failed =>
    have hf : next = { s.retire with relay := .returned } := by
      simp only [relayToClient, hr] at hs
      rw [if_neg (by simp [hp]), if_pos (by simp)] at hs
      exact (some.inj hs).symm
    rw [hf] at hstays
    cases hstays

theorem credit_of_relay (hstep : s.relayToClient bufferSize outcome = some next) (hs : next.present) :
    next.control.sum + next.relay.carried.sum + (s.forwards (.relay outcome)).sum =
      s.control.sum + s.relay.carried.sum := by
  have hn : s.relay.carried = [] → next.control = s.control → next.relay.carried = [] →
      next.control.sum + next.relay.carried.sum + (s.forwards (.relay outcome)).sum =
        s.control.sum + s.relay.carried.sum := by
    intro hb hc ha
    rw [Relay.Forwarding.forwards_of_not_forwarding hb, hc, ha, hb]
    rfl
  cases relayToClient_effect hstep with
  | @took credit control hr hc =>
    have hb : s.relay.carried = [] := by rw [hr]; rfl
    rw [Relay.Forwarding.forwards_of_not_forwarding hb, hb, hc]
    simp only [Relay.RelayLoop.carried, sum_cons, sum_nil]
    omega
  | @forwarded credit hr hp ho => rw [forwards_of_forwarding hr hstep hs hp ho, hr]; rfl
  | looked hr | limited hr | consumed hr | enqueued hr => exact hn (by rw [hr]; rfl) rfl rfl
  | finished _ hc _ hr hover =>
    obtain ⟨-, he⟩ := hover hs
    exact hn (by rw [he]; rfl) hc (by rw [hr]; rfl)

theorem credit_of_beside (hl : besideUpload label) (hs : s.step id bufferSize label = some next)
    (hstays : next.present) :
    next.control.sum + next.relay.carried.sum + (s.forwards label).sum = s.control.sum + s.relay.carried.sum := by
  cases label with
  | relay outcome => exact credit_of_relay hs hstays
  | windowUpdate credit =>
    simp only [ClientRelayStream.step, ite_none_left_eq_some] at hs
    cases hs.2
    rcases handleWindowUpdate_effect s credit with hb | ⟨sendState, -, -, hsame⟩
    · rw [hb.control, hb.relay]; rfl
    · rw [hsame]; rfl
  | read n =>
    obtain ⟨limit, hr, -, rfl⟩ := readBytes_eq_some hs
    rw [hr]
    split <;> rfl
  | readEnd failed =>
    obtain ⟨limit, hr, rfl⟩ := readEnd_eq_some hs
    rw [hr]
    rfl
  | drain => obtain ⟨popped, -, rfl⟩ := map_eq_some_iff.mp hs; rfl
  | closeWriter => cases hs; rfl
  | pushHalfClose | reset =>
    have hb := ClientRelayStream.step_beside rfl hs
    rw [hb.control, hb.relay]
    rfl
  | _ => cases hl

theorem writer_returns {writer : Writer}
    {choice : WriteChoice} (hm : writer.move writeError doneError st choice = some moved) :
    (moved.result = none → moved.writer ≠ .idle) ∧ ∀ sent, moved.result = some (sent, none) → moved.writer = .idle := by
  have hr : ∀ sent rest want exhausted, moved = Writer.reserved st sent rest want exhausted → exhausted ≠ .idle →
      (moved.result = none → moved.writer ≠ .idle) ∧
        ∀ sent, moved.result = some (sent, none) → moved.writer = .idle := by
    rintro sent rest want exhausted rfl he
    rcases Writer.reserved_cases st sent rest want exhausted with ⟨next, -, hmoved⟩ | hmoved | ⟨e, hmoved⟩
    · rw [hmoved]; exact ⟨by rintro _ ⟨⟩, by rintro _ ⟨⟩⟩
    · rw [hmoved]; exact ⟨fun _ => he, by rintro _ ⟨⟩⟩
    · rw [hmoved]; exact ⟨by rintro ⟨⟩, fun _ _ => rfl⟩
  cases writer with
  | idle => cases hm
  | reserving sent rest =>
    simp only [Writer.move] at hm
    split at hm
    · cases hm; exact ⟨by rintro ⟨⟩, fun _ _ => rfl⟩
    · exact hr _ _ _ _ (some.inj hm).symm (by rintro ⟨⟩)
  | exhausted sent rest =>
    simp only [Writer.move] at hm
    split at hm <;> cases hm <;> exact ⟨by rintro _ ⟨⟩, by rintro _ ⟨⟩⟩
  | partly sent rest want => exact hr _ _ _ _ (some.inj hm).symm (by rintro ⟨⟩)
  | waiting sent rest =>
    cases choice with
    | done => obtain ⟨e, -, rfl⟩ := map_eq_some_iff.mp hm; exact ⟨by rintro ⟨⟩, fun _ _ => rfl⟩
    | _ => cases hm; exact ⟨by rintro _ ⟨⟩, by rintro _ ⟨⟩⟩
  | sending sent rest chunk =>
    cases choice with
    | refused => cases hm; exact ⟨by rintro ⟨⟩, fun _ _ => rfl⟩
    | _ =>
      simp only [Writer.move] at hm
      split at hm <;> cases hm
      · exact ⟨by rintro ⟨⟩, fun _ _ => rfl⟩
      · exact ⟨by rintro _ ⟨⟩, by rintro _ ⟨⟩⟩

theorem bytes_of_pump (hi : ∀ n, s.pump ≠ .writing n)
    (hs : s.pumpClientUpload outcome = some next) (hstays : next.present) :
    next.inbound.bytes (frameSize id) + UploadPath.held next.pump .idle = s.inbound.bytes (frameSize id) := by
  unfold pumpClientUpload at hs
  split at hs
  · split at hs
    · next n inbound hpop =>
      cases hs
      rw [bytes_pop hpop]
      exact Nat.add_comm _ _
    · next inbound hpop =>
      cases hs
      rw [bytes_pop hpop]
      exact Nat.add_comm _ _
    · obtain ⟨-, rfl⟩ := guard_eq_some hs; rfl
  · next hp => exact absurd hp (hi _)
  · cases hs; rfl
  · cases hs; cases hstays
  · cases hs; cases hstays
  · split_ifs at hs <;> cases hs
    · cases hstays
    · rfl
  · cases hs

theorem pump_of_wrote (hp : s.pump = .writing n) (hs : s.pumpClientUpload outcome = some next) (hstays : next.present) :
    outcome = .ok ∧ next = { s with pump := .popping } := by
  cases outcome with
  | ok => simp only [pumpClientUpload, hp] at hs; exact ⟨rfl, (some.inj hs).symm⟩
  | failed =>
    simp only [pumpClientUpload, hp] at hs
    cases hs
    cases hstays

end Server

namespace Sender

variable {s next : Sender}

def owned (s : Sender) : ℕ := s.flow.sendWindow + (s.calls.map hand).sum

theorem write_owned (s : Sender) (n : ℕ) : (s.write n).owned = s.owned ∧ (s.write n).live = s.live := by
  unfold write
  split
  · exact ⟨rfl, rfl⟩
  · simp [owned, hand]

theorem owned_set (hc : s.calls[i]? = some call) (hhand : call.hand = 0)
    (moved : SendCall) (hmoved : moved.hand = 0) : owned { s with calls := s.calls.set i moved } = s.owned := by
  have hsum : ((s.calls.set i moved).map hand).sum + call.hand =
      (s.calls.map hand).sum + moved.hand := sum_map_set hand hc
  simp only [owned]
  omega

theorem reserve_owned {i : ℕ} (hr : s.reserve i = some next) : next.owned = s.owned ∧ next.live = s.live := by
  unfold reserve at hr
  split at hr
  · next rest hc =>
    simp only at hr
    split at hr
    · next flow hok =>
      cases hr
      obtain ⟨hle, rfl⟩ := consumeSend_ok hok
      have hsum : ((s.calls.set i (.sending rest (min rest maxStreamFrame))).map hand).sum + 0 =
          (s.calls.map hand).sum + min rest maxStreamFrame :=
        sum_map_set hand hc
      refine ⟨?_, rfl⟩
      simp only [owned]
      omega
    · cases hr
      split
      · exact ⟨rfl, rfl⟩
      · exact ⟨owned_set hc rfl _ rfl, rfl⟩
    · cases hr; exact ⟨owned_set hc rfl _ rfl, rfl⟩
  · cases hr

theorem send_owned {frames : List (Option ℕ)} (hs : s.send i .ok = some (next, frames)) :
    next.owned + (frames.map (frameSize id)).sum = s.owned ∧ next.live = s.live := by
  unfold send at hs
  split at hs <;> cases hs
  next rest size hc =>
    refine ⟨?_, rfl⟩
    have hsum : ∀ moved : SendCall, ((s.calls.set i moved).map hand).sum + size =
        (s.calls.map hand).sum + moved.hand := fun _ => sum_map_set hand hc
    have hmoved := hsum (if rest ≤ size then .returned else .reserving (rest - size))
    have hhand : (if rest ≤ size then returned else .reserving (rest - size)).hand = 0 := by
      split <;> rfl
    simp only [owned, map_cons, map_nil, sum_singleton, frameSize, elim_some, id]
    omega

theorem credit_owned (hl : (s.credit n).live) : (s.credit n).owned = s.owned + n ∧ s.live := by
  unfold credit at hl ⊢
  split at hl
  · next hd =>
    rw [hd] at hl
    cases hl
  · next ha =>
    rw [if_neg ha]
    split at hl
    · next flow hok =>
      obtain rfl := addSendWindow_ok hok
      refine ⟨?_, hl⟩
      simp only [owned]
      omega
    · cases hl

end Sender

namespace UploadPath

variable {p next : UploadPath}

structure Accounted (p : UploadPath) : Prop where
  total : p.total = 262144
  agent : p.agent.intake.Balanced id
  status : p.sendState.status = .opened
  writer : p.writer = .idle ∨ ∃ n, p.server.pump = .writing n ∧ p.writer.Within n

def Kept (p : UploadPath) : Prop := p.Live → p.Accounted

theorem accounted_opened (inboundBytes window : ℕ) : (opened inboundBytes window).Accounted where
  total := by
    simp [total, outside, opened, Sender.opened, openedState, newStreamState, ClientRelayStream.opened, held,
      StreamEntry.opened, Agent.Intake.carried_opened, bytes, empty, Relay.RelayLoop.carried]
  agent := Agent.Intake.balanced_opened inboundBytes
  status := rfl
  writer := .inl rfl

theorem held_of_not_writing {pump : UploadPump ℕ} (h : ∀ n, pump ≠ .writing n) (writer : Writer) :
    held pump writer = 0 := by
  cases pump with
  | writing n => exact absurd rfl (h n)
  | _ => rfl

theorem held_of_within {writer : Writer} (h : writer ≠ .idle) : held (.writing n) writer = writer.left := by
  cases writer with
  | idle => exact absurd rfl h
  | _ => rfl

theorem receive_kept (h : p.Kept) (hstep : p.receive bufferSize = some next) : next.Kept := by
  intro hl
  unfold receive at hstep
  split at hstep
  · cases hstep
  · next n toServer hf =>
    obtain ⟨server, hs, rfl⟩ := map_eq_some_iff.mp hstep
    obtain ⟨hr, ha⟩ := Bool.or_eq_false_iff.mp hl.reset
    have he := ClientRelayStream.step_effect hs
    obtain ⟨ht, hagent, hstatus, hw⟩ := h ⟨hl.sender, he.present hl.server, hl.attached, hl.agent, hr⟩
    cases he with
    | accepted hopen hp =>
      refine ⟨?_, hagent, hstatus, hw⟩
      have hbytes := bytes_tryPush hp
      simp only [total, outside, hf, map_cons, sum_cons] at ht ⊢
      omega
    | aside _ hn => rw [hn] at ha; cases ha
  · next toServer hf =>
    obtain ⟨server, hs, rfl⟩ := map_eq_some_iff.mp hstep
    have he := ClientRelayStream.step_effect hs
    have hb := ClientRelayStream.step_beside rfl hs
    obtain ⟨ht, hagent, hstatus, hw⟩ := h ⟨hl.sender, he.present hl.server, hl.attached, hl.agent, hl.reset⟩
    have hk : server.inbound = p.server.inbound ∧ server.pump = p.server.pump := by
      cases he with
      | marked => exact ⟨rfl, rfl⟩
      | aside haside => exact ⟨haside.inbound hl.server, haside.pump⟩
    refine ⟨?_, hagent, hstatus, by rw [hk.2]; exact hw⟩
    simp only [total, outside, hf, hk, hb.control, hb.relay, map_cons, sum_cons, frameSize, elim_none] at ht ⊢
    omega

theorem server_kept {label : ClientLabel ℕ} {server : ClientRelayStream ℕ} (h : p.Kept)
    (hlabel : besideUpload label) (hs : p.server.step id bufferSize label = some server) :
    Kept { p with server, toClient := p.toClient ++ p.server.forwards label } := by
  intro hl
  have he := ClientRelayStream.step_effect hs
  obtain ⟨ht, ha, hstatus, hw⟩ := h ⟨hl.sender, he.present hl.server, hl.attached, hl.agent, hl.reset⟩
  obtain ⟨hb, hp⟩ := bytes_of_beside hlabel hs hl.server
  have hcredit := credit_of_beside hlabel hs hl.server
  refine ⟨?_, ha, hstatus, by rw [hp]; exact hw⟩
  simp only [total, outside, hb, hp, sum_append] at ht ⊢
  omega

theorem pump_kept (h : p.Kept) (hs : p.pump bufferSize outcome = some next) : next.Kept := by
  intro hl
  unfold pump at hs
  split at hs
  · cases hs
  · next hi =>
    obtain ⟨server, hserver, rfl⟩ := map_eq_some_iff.mp hs
    have hb := pumpClientUpload_beside hserver
    have hwriting : ∀ n, p.server.pump ≠ .writing n := fun n heq => hi n heq
    obtain ⟨ht, ha, hstatus, hw⟩ := h ⟨hl.sender, hb.present hl.server, hl.attached, hl.agent, hl.reset⟩
    have hw : p.writer = .idle := hw.resolve_right fun ⟨n, hp, _⟩ => hwriting n hp
    have hbytes := bytes_of_pump hwriting hserver hl.server
    have hbefore := held_of_not_writing hwriting p.writer
    have hn : ∀ b : Bool, ((if b then [none] else [] : List (Option ℕ)).map (frameSize id)).sum = 0 := by
      rintro (_ | _) <;> rfl
    refine ⟨?_, ha, hstatus, .inl hw⟩
    simp only [total, outside, hw, hb.control, hb.relay, map_append, sum_append, hn] at ht hbefore ⊢
    omega

theorem wrote_kept (hp : p.server.pump = .writing n)
    (h : p.Live → p.outside = 262144 ∧ p.agent.intake.Balanced id ∧ p.sendState.status = .opened)
    (hstep : p.wrote bufferSize outcome = some next) : next.Kept := by
  intro hl
  obtain ⟨server, hs, rfl⟩ := map_eq_some_iff.mp hstep
  obtain ⟨-, rfl⟩ := pump_of_wrote hp hs hl.server
  obtain ⟨ho, ha, hstatus⟩ := h ⟨hl.sender, hl.server, hl.attached, hl.agent, hl.reset⟩
  exact ⟨ho, ha, hstatus, .inl rfl⟩

theorem wrote_failed (hp : p.server.pump = .writing n) (hstep : p.wrote bufferSize .failed = some next) :
    next.Kept := by
  intro hl
  obtain ⟨server, hs, rfl⟩ := map_eq_some_iff.mp hstep
  exact absurd (pump_of_wrote hp hs hl.server).1 nofun

theorem sent_account {choice : WriteChoice} (hp : p.server.pump = .writing n) (hb : p.writer ≠ .idle) (h : p.Kept)
    (hm : p.writer.move p.writeError p.doneError p.sendState choice = some moved) (he : ¬moved.erred)
    (hl : (p.sent moved).Live) : (p.sent moved).outside + moved.writer.left = 262144 ∧ p.agent.intake.Balanced id ∧
      moved.sendState.status = .opened ∧ moved.writer.Within n := by
  obtain ⟨hattached, -⟩ := Bool.and_eq_true_iff.mp hl.attached
  obtain ⟨ht, hagent, hs, hwriter⟩ := h ⟨hl.sender, hl.server, hattached, hl.agent, hl.reset⟩
  obtain ⟨m, hw, hwithin⟩ := hwriter.resolve_left hb
  obtain rfl : n = m := UploadPump.writing.inj (hp.symm.trans hw)
  have ha := Writer.move_advances hs hwithin hm
  have hleft := ha.left he
  have hbytes : ((moved.chunk.toList.map fun chunk => some chunk.2).map (frameSize id)).sum = moved.bytes := by
    cases hc : moved.chunk with
    | none => simp [WriterMoved.bytes, hc]
    | some chunk => simp [WriterMoved.bytes, hc, frameSize]
  refine ⟨?_, hagent, ha.status, ha.within⟩
  simp only [total, outside, hp, held_of_within hb] at ht
  simp only [sent, outside, map_append, sum_append, hbytes]
  omega

theorem advance_kept {choice : WriteChoice} (h : p.Kept) (hs : p.advance bufferSize choice = some next) :
    next.Kept := by
  unfold advance at hs
  split at hs
  · next n hp hi =>
    have hh : held p.server.pump p.writer = n := by rw [hp, hi]; rfl
    split at hs
    · next hzero =>
      refine wrote_kept hp (fun hl => ?_) hs
      obtain ⟨ht, ha, hstatus, -⟩ := h hl
      refine ⟨?_, ha, hstatus⟩
      simp only [total, hh] at ht
      omega
    · split at hs
      · exact wrote_failed hp hs
      · cases hs
        intro hl
        obtain ⟨ht, ha, hstatus, -⟩ := h ⟨hl.sender, hl.server, hl.attached, hl.agent, hl.reset⟩
        refine ⟨?_, ha, hstatus, .inr ⟨n, hp, Nat.zero_add n⟩⟩
        simp only [total, hh] at ht
        simp only [total, hp, held, Writer.left]
        exact ht
  · next n hp hb =>
    split at hs
    · cases hs
    · next moved hm =>
      obtain ⟨hg, hreturns⟩ := writer_returns hm
      have haccount := sent_account hp hb h hm
      split at hs
      · next hr =>
        cases hs
        intro hl
        have he : ¬moved.erred := by
          rintro ⟨sent, e, hsome⟩
          rw [hr] at hsome
          cases hsome
        obtain ⟨ht, ha, hstatus, hw⟩ := haccount he hl
        refine ⟨?_, ha, hstatus, .inr ⟨n, hp, hw⟩⟩
        have hh : held (p.sent moved).server.pump (p.sent moved).writer = moved.writer.left := by
          show held p.server.pump moved.writer = moved.writer.left
          rw [hp, held_of_within (hg hr)]
        rw [total, hh]
        exact ht
      · next sent hr =>
        refine wrote_kept (p := p.sent moved) hp (fun hl => ?_) hs
        have he : ¬moved.erred := by
          rintro ⟨sent, e, hsome⟩
          rw [hr] at hsome
          cases hsome
        obtain ⟨ht, ha, hstatus, -⟩ := haccount he hl
        rw [hreturns sent hr] at ht
        exact ⟨ht, ha, hstatus⟩
      · exact wrote_failed (p := p.sent moved) hp hs
  · cases hs

theorem agent_kept {label : EntryLabel ℕ} {toAgent : List (Option ℕ)} (h : p.Kept)
    (hframes : (p.toAgent.map (frameSize id)).sum = label.bytes id + (toAgent.map (frameSize id)).sum)
    (hs : p.agent.step id bufferSize label = some moved) (hloses : p.agent.losesUpdate label = false) :
    (agentMoved { p with toAgent } moved).Kept := by
  intro hl
  obtain ⟨hr, -⟩ := Bool.or_eq_false_iff.mp hl.reset
  have hp := StreamEntry.step_present hs hl.agent
  obtain ⟨ht, ha, hstatus, hw⟩ := h ⟨hl.sender, hl.server, hl.attached, hp, hr⟩
  obtain ⟨hb, hcarried⟩ := StreamEntry.step_conserves hs ha hl.agent
  replace hcarried := hcarried hloses
  refine ⟨?_, hb, hstatus, hw⟩
  simp only [total, outside, agentMoved, sum_append] at ht ⊢
  omega

theorem handle_kept (h : p.Kept) (hs : p.handle bufferSize = some next) : next.Kept := by
  unfold handle at hs
  split at hs
  · cases hs
  all_goals next hf =>
    obtain ⟨moved, hm, rfl⟩ := map_eq_some_iff.mp hs
    exact agent_kept h (by rw [hf]; rfl) hm rfl

theorem credited_status {st : StreamState} (hs : st.status = .opened) (n : ℕ) :
    ((st.addSendWindow n).toOption.getD st).status = .opened := by
  cases hadd : st.addSendWindow n with
  | ok next => rw [addSendWindow_ok hadd]; exact hs
  | error e => exact hs

theorem credit_kept (h : p.Kept) (hslot : p.server.control.length < Relay.controlSlots)
    (hs : p.credit bufferSize = some next) : next.Kept := by
  intro hl
  unfold credit at hs
  split at hs
  · cases hs
  · next n updates hu =>
    split at hs
    · next hd =>
      cases hs
      exact absurd (hd.symm.trans hl.attached) nofun
    · simp only [ClientRelayStream.step, if_pos hslot, map_some] at hs
      cases hs
      obtain ⟨ht, ha, hstatus, hw⟩ := h ⟨hl.sender, hl.server, hl.attached, hl.agent, hl.reset⟩
      refine ⟨?_, ha, credited_status hstatus n, hw⟩
      simp only [total, outside, hu, sum_cons, sum_append, sum_nil] at ht ⊢
      omega

theorem deliver_kept (h : p.Kept) (hs : p.deliver = some next) : next.Kept := by
  intro hl
  unfold deliver at hs
  split at hs <;> cases hs
  next n toClient hf =>
    obtain ⟨ho, hsender⟩ := credit_owned hl.sender
    obtain ⟨ht, ha, hstatus, hw⟩ := h ⟨hsender, hl.server, hl.attached, hl.agent, hl.reset⟩
    refine ⟨?_, ha, hstatus, hw⟩
    simp only [total, outside, hf, sum_cons, owned] at ht ho ⊢
    omega

theorem sender_kept {sender : Sender} {toServer : List (Option ℕ)} (h : p.Kept)
    (ho : sender.owned + (toServer.map (frameSize id)).sum = p.sender.owned + (p.toServer.map (frameSize id)).sum)
    (hlive : sender.live = p.sender.live) : Kept { p with sender, toServer } := by
  intro hl
  obtain ⟨ht, ha, hstatus, hw⟩ := h ⟨hlive ▸ hl.sender, hl.server, hl.attached, hl.agent, hl.reset⟩
  refine ⟨?_, ha, hstatus, hw⟩
  simp only [total, outside, owned] at ht ho ⊢
  omega

theorem step_kept (h : p.Kept) (hc : p.Carries label) (hs : p.step bufferSize label = some next) : next.Kept := by
  intro hl
  cases label with
  | write n =>
    cases hs
    have hw := write_owned p.sender n
    exact sender_kept h (by rw [hw.1]) hw.2 hl
  | reserve i =>
    obtain ⟨sender, hr, rfl⟩ := map_eq_some_iff.mp hs
    have ho := reserve_owned hr
    exact sender_kept h (by rw [ho.1]) ho.2 hl
  | send i outcome =>
    obtain rfl : outcome = .ok := hc
    obtain ⟨⟨sender, frames⟩, hsend, rfl⟩ := map_eq_some_iff.mp hs
    have ho := send_owned hsend
    refine sender_kept h ?_ ho.2 hl
    simp only [map_append, sum_append]
    omega
  | closeWrite => cases hs; exact sender_kept h (by simp [frameSize]) rfl hl
  | fail => cases hs; cases hl.sender
  | receive => exact receive_kept h hs hl
  | server label =>
    simp only [step, ite_none_right_eq_some] at hs
    obtain ⟨server, hserver, rfl⟩ := map_eq_some_iff.mp hs.2
    exact server_kept h hs.1 hserver hl
  | pump outcome => exact pump_kept h hs hl
  | writer choice => exact advance_kept h hs hl
  | agentEnd =>
    cases hs
    obtain ⟨ht, ha, hstatus, hw⟩ := h ⟨hl.sender, hl.server, hl.attached, hl.agent, hl.reset⟩
    exact ⟨ht, ha, hstatus, hw⟩
  | detach => cases hs; cases hl.attached
  | handle => exact handle_kept h hs hl
  | agent label =>
    simp only [step, ite_none_right_eq_some] at hs
    obtain ⟨hlabel, hs⟩ := hs
    obtain ⟨moved, hm, rfl⟩ := map_eq_some_iff.mp hs
    have hb : label.bytes id = 0 := by
      cases label with
      | data payload => cases hlabel
      | _ => rfl
    exact agent_kept h (by rw [hb, Nat.zero_add]) hm hc hl
  | credit => exact credit_kept h hc hs hl
  | deliver => exact deliver_kept h hs hl

theorem upload_credit_is_conserved (bufferSize inboundBytes window : ℕ) (labels : List PathLabel)
    (hcarries : Along (step bufferSize) Carries (opened inboundBytes window) labels) :
    Always (step bufferSize) Conserved (opened inboundBytes window) labels := by
  have hkept := always_of_invariant (fun _ _ _ => step_kept)
    (opened inboundBytes window) labels (fun _ => accounted_opened inboundBytes window) hcarries
  exact hkept.mono fun _ h hlive => (h hlive).total

instance (p : UploadPath) : Decidable p.Live := decidable_of_iff _ (live_iff p).symm

instance (p : UploadPath) (label : PathLabel) : Decidable (p.Carries label) := by
  cases label <;> dsimp only [Carries] <;> infer_instance

def upload (n i : ℕ) : List PathLabel :=
  [.write n, .reserve i, .send i .ok, .receive, .pump .ok, .writer .go, .writer .go, .writer .go, .handle]

def acknowledge : List PathLabel := replicate 5 (.agent (.pump .ok)) ++ [.credit]

def fullCircle : List PathLabel :=
  (range 8).flatMap (upload 32768) ++ acknowledge ++ [.server (.relay .ok), .server (.relay .ok), .deliver]

theorem credit_comes_back : ∃ final, run (step 32768) (opened 262144 262144) fullCircle = some final ∧
      final.sender.flow.sendWindow = 32768 ∧ final.total = 262144 := by
  obtain ⟨final, hrun, ⟨hlive, hwindow⟩, htotal⟩ := (upload_credit_is_conserved 32768 262144 262144 fullCircle
    (by decide +kernel)).exists_run (p := fun s => s.Live ∧ s.sender.flow.sendWindow = 32768) (by decide +kernel)
  exact ⟨final, hrun, hwindow, htotal hlive⟩

-- Frames of one byte before larger ones that use up the Agent's window: each byte
-- is acknowledged by itself, and the mirror has sixteen slots.
def crowdedMirror : List PathLabel :=
  (range 17).flatMap (upload 1) ++ (range 7).flatMap (fun i => upload 32768 (17 + i)) ++
    (replicate 17 acknowledge).flatten

theorem full_mirror_loses_credit :
    ∃ final, run (step 32768) (opened 262144 262144) crowdedMirror = some final ∧ final.Live ∧
      final.server.control = List.replicate 16 1 ∧ final.total = 262143 := by
  apply exists_run_of_any
  decide +kernel

end UploadPath

end TunnelMesh.Client
