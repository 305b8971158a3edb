import TunnelMesh.Client.FrameStream
import TunnelMesh.Relay.AgentStream.EndOfFile

namespace TunnelMesh.Client

open Protocol ReadLog Session Reader FrameStream Option List Transition Relay.Reading Reading FrameQueue

variable {α : Type}

namespace Reader

def hand : Reader α → List α
  | .releasing bytes => bytes
  | .flushing bytes _ => bytes
  | _ => []

def carried : Reader α → List α
  | .appending _ payload => payload
  | _ => []

def inGap : Reader α → Bool
  | .checking _ => true
  | _ => false

def Knows (readBuf queued : List α) (failed : Prop) : Reader α → Prop
  | .popping _ | .waiting _ => readBuf = []
  | .checking _ => readBuf = [] ∧ (failed → queued = [])
  | .draining _ => readBuf = [] ∧ failed
  | .ending => readBuf = [] ∧ failed ∧ queued = []
  | _ => True

end Reader

def Receiver.delivering : Receiver α → Bool
  | .admitting _ | .pushing _ => true
  | .idle | .finishing _ _ => false

def Receiver.finishes : Receiver α → Bool
  | .finishing _ _ => true
  | .idle | .admitting _ | .pushing _ => false

namespace Reading

variable (r : Reading α)

def queued : List α := r.stream.readQueue.frames.flatten

def pending : List α :=
  r.reader.hand ++ (r.stream.readBuf ++ (r.reader.carried ++ r.queued))

-- The stream is finished only while no call stands between the queue it has
-- found empty and the error it is about to look for, unless there still are no
-- bytes.
def Clear : ReadLabel α → Prop
  | .receive => r.receiver.finishes → r.reader.inGap → r.queued = []
  | _ => True

instance (r : Reading α) (label : ReadLabel α) : Decidable (Clear r label) := by
  cases label <;> dsimp only [Clear] <;> infer_instance

def AllReturned : Prop := Complete r.results r.accepted.flatten

structure Accounted : Prop where
  log : Conserved r.results r.pending r.accepted.flatten (r.stream.err ≠ none)
  knows : r.reader.Knows r.stream.readBuf r.queued (r.stream.err ≠ none)
  done : r.stream.done ↔ r.stream.err ≠ none
  quiet : r.stream.err ≠ none → r.receiver.delivering = false

section Step

variable {r next : Reading α}

theorem read_accounted (h : Accounted r) (hr : r.read size = some next) : Accounted next := by
  unfold read at hr
  cases hreader : r.reader with
  | idle =>
    have hp : r.pending = r.stream.readBuf ++ r.queued := by rw [pending, hreader]; rfl
    simp only [hreader] at hr
    split at hr
    · cases hr; exact ⟨h.log.returns hp.symm id, trivial, h.done, h.quiet⟩
    cases hr
    have hk := h.log.kept id
    rw [hp] at hk
    exact ⟨hk, trivial, h.done, h.quiet⟩
  | _ => simp [hreader] at hr

theorem accounted_moved {moved : Moved α} (h : Accounted r) (hlog : Conserved (r.results ++ moved.result.toList)
      (moved.reader.hand ++ (moved.stream.readBuf ++ (moved.reader.carried ++ moved.stream.readQueue.frames.flatten)))
      r.accepted.flatten (r.stream.err ≠ none))
    (hk : moved.reader.Knows moved.stream.readBuf moved.stream.readQueue.frames.flatten (r.stream.err ≠ none))
    (herr : moved.stream.err = r.stream.err) (hd : moved.stream.done = r.stream.done) :
    Accounted
      { r with
        stream := moved.stream
        reader := moved.reader
        outbox := r.outbox ++ moved.updates
        results := r.results ++ moved.result.toList } := by
  rw [← herr] at hlog hk
  refine ⟨hlog, hk, ?_, fun hf => h.quiet (herr ▸ hf)⟩
  show moved.stream.done ↔ moved.stream.err ≠ none
  rw [herr, hd]
  exact h.done

theorem popped_accounted {rest : Reader α} (h : Accounted r)
    (hp : r.pending = r.queued) (hbuf : r.stream.readBuf = []) (hh : rest.hand = []) (hc : rest.carried = [])
    (hk : r.queued = [] → rest.Knows r.stream.readBuf r.queued (r.stream.err ≠ none)) :
    Accounted
      { r with
        stream := (popped r.stream size rest).stream
        reader := (popped r.stream size rest).reader
        outbox := r.outbox ++ (popped r.stream size rest).updates
        results := r.results ++ (popped r.stream size rest).result.toList } := by
  have hlog := h.log
  rw [hp] at hlog
  unfold popped
  cases hpop : r.stream.readQueue.pop with
  | none =>
    have hf : r.stream.readQueue.frames = [] := by
      unfold pop at hpop
      split at hpop
      · assumption
      · cases hpop
    have hq : r.queued = [] := by rw [queued, hf]; rfl
    refine accounted_moved h ?_ (hk hq) rfl rfl
    simp only [hh, hc, hbuf, toList_none, append_nil, nil_append]
    exact hlog
  | some taken =>
    obtain ⟨payload, readQueue⟩ := taken
    have hq : r.queued = payload ++ readQueue.frames.flatten := by
      rw [queued, (pop_eq_some hpop).1]
      rfl
    rw [hq] at hlog
    simp only
    split
    · refine accounted_moved h ?_ trivial rfl rfl
      simp only [hand, carried, hbuf, toList_none, append_nil, nil_append]
      exact hlog
    · next hempty =>
      have hnil : payload = [] := eq_nil_of_length_eq_zero (by omega)
      refine accounted_moved h ?_ trivial rfl rfl
      rw [hnil, nil_append] at hlog
      simp only [hand, carried, hbuf, toList_none, append_nil, nil_append]
      exact hlog

def SameBytes (old new : FrameStream α) : Prop :=
  new.readBuf = old.readBuf ∧ new.readQueue = old.readQueue ∧ new.err = old.err ∧ new.done = old.done

theorem sameBytes_release {s : FrameStream α}
    (h : s.releaseReceiveWindow threshold n = (released, update)) : SameBytes s released := by
  unfold releaseReceiveWindow at h
  split at h
  · cases h; exact ⟨rfl, rfl, rfl, rfl⟩
  split at h
  · cases h; exact ⟨rfl, rfl, rfl, rfl⟩
  simp only at h
  split at h
  · cases h; exact ⟨rfl, rfl, rfl, rfl⟩
  · cases h; exact ⟨rfl, rfl, rfl, rfl⟩

theorem sameBytes_refill (s : FrameStream α) (update : ℕ) : SameBytes s (s.refill update).1 := by
  unfold refill
  split
  · exact ⟨rfl, rfl, rfl, rfl⟩
  · split <;> exact ⟨rfl, rfl, rfl, rfl⟩

theorem advance_accounted (h : Accounted r) (ha : r.advance threshold wake = some next) : Accounted next := by
  obtain ⟨moved, hm, rfl⟩ := map_eq_some_iff.mp ha
  have hlog := h.log
  have hk := h.knows
  unfold pending queued at hlog
  unfold queued at hk
  cases hr : r.reader with
  | idle => rw [hr] at hm; cases hm
  | looking size =>
    simp only [hr, move, hand, carried, nil_append] at hm hlog
    split at hm
    · cases hm
      refine accounted_moved h ?_ trivial rfl rfl
      simp only [hand, carried, toList_none, append_nil, nil_append]
      rw [← append_assoc, take_append_drop]
      exact hlog
    · next hempty =>
      cases hm
      have hnil : r.stream.readBuf = [] := eq_nil_of_length_eq_zero (by omega)
      refine accounted_moved h ?_ hnil rfl rfl
      simp only [hand, carried, toList_none, append_nil, nil_append]
      exact hlog
  | popping size =>
    simp only [hr, move, Knows] at hm hk
    cases hm
    have hp : r.pending = r.queued := by rw [pending, hr, hk]; rfl
    exact popped_accounted h hp hk rfl rfl fun hq => ⟨hk, fun _ => hq⟩
  | appending size payload =>
    simp only [hr, move, hand, carried, nil_append] at hm hlog
    cases hm
    refine accounted_moved h ?_ trivial rfl rfl
    simp only [hand, carried, toList_none, append_nil, nil_append, append_assoc]
    exact hlog
  | checking size =>
    simp only [hr, move, hand, carried, Knows, nil_append] at hm hlog hk
    split at hm
    · next e herr =>
      cases hm
      have hf : r.stream.err ≠ none := by simp [herr]
      have hnil : r.stream.readBuf ++ r.stream.readQueue.frames.flatten = [] := by
        rw [hk.1, hk.2 hf]
        rfl
      exact accounted_moved h (hlog.error e hnil hf) trivial rfl rfl
    · cases hm
      refine accounted_moved h ?_ hk.1 rfl rfl
      simp only [toList_none, append_nil]
      exact hlog
  | waiting size =>
    simp only [hr, hand, carried, Knows, nil_append] at hlog hk
    cases wake with
    | data =>
      simp only [hr, move] at hm
      obtain ⟨-, rfl⟩ := guard_eq_some hm
      refine accounted_moved h ?_ trivial rfl rfl
      simp only [toList_none, append_nil]
      exact hlog
    | done =>
      simp only [hr, move, ite_none_right_eq_some] at hm
      cases hm.2
      refine accounted_moved h ?_ ⟨hk, h.done.mp hm.1⟩ rfl rfl
      simp only [toList_none, append_nil]
      exact hlog
  | draining size =>
    simp only [hr, move, Knows] at hm hk
    cases hm
    have hp : r.pending = r.queued := by rw [pending, hr, hk.1]; rfl
    exact popped_accounted h hp hk.1 rfl rfl fun hq => ⟨hk.1, hk.2, hq⟩
  | ending =>
    simp only [hr, move, hand, carried, Knows, nil_append] at hm hlog hk
    cases hm
    obtain ⟨hbuf, hf, hq⟩ := hk
    have hnil : r.stream.readBuf ++ r.stream.readQueue.frames.flatten = [] := by rw [hbuf, hq]; rfl
    exact accounted_moved h (hlog.error _ hnil hf) trivial rfl rfl
  | releasing bytes =>
    rcases hrelease : r.stream.releaseReceiveWindow threshold bytes.length with ⟨released, update⟩
    obtain ⟨hbuf, hqueue, herr, hd⟩ := sameBytes_release hrelease
    simp only [hr, move, hand, carried, nil_append, hrelease] at hm hlog
    rw [← hbuf, ← hqueue] at hlog
    split at hm
    · cases hm; exact accounted_moved h (hlog.returns rfl id) trivial herr hd
    cases hm
    refine accounted_moved h ?_ trivial herr hd
    simp only [toList_none, append_nil]
    exact hlog
  | flushing bytes update =>
    obtain ⟨hbuf, hqueue, herr, hd⟩ := sameBytes_refill r.stream update
    simp only [hr, move, hand, carried, nil_append] at hm hlog
    rw [← hbuf, ← hqueue] at hlog
    cases hm
    exact accounted_moved h (hlog.returns rfl id) trivial herr hd

theorem Accounted.aside {stream : FrameStream α} {receiver : Receiver α} (h : Accounted r)
    (hs : SameBytes r.stream stream) (hq : r.stream.err ≠ none → receiver.delivering = false) :
    Accounted { r with stream, receiver } := by
  obtain ⟨hbuf, hqueue, herr, hd⟩ := hs
  have hlog := h.log
  have hk := h.knows
  unfold pending queued at hlog
  unfold queued at hk
  rw [← hbuf, ← hqueue, ← herr] at hlog hk
  refine ⟨hlog, hk, ?_, fun hf => hq (herr ▸ hf)⟩
  show stream.done ↔ stream.err ≠ none
  rw [herr, hd]
  exact h.done

theorem frame_accounted (h : Accounted r) (hf : r.frame f = some next) : Accounted next := by
  have hs : SameBytes r.stream r.stream := ⟨rfl, rfl, rfl, rfl⟩
  unfold frame at hf
  cases hr : r.receiver with
  | idle =>
    simp only [hr] at hf
    split at hf
    · cases hf; exact h
    cases hf
    cases f with
    | data payload =>
      simp only [dispatch]
      split
      · exact h
      · next ho => exact h.aside hs fun hfailed => absurd (h.done.mpr hfailed) ho
    | halfClose | reset => exact h.aside hs fun _ => rfl
    | windowUpdate credit =>
      simp only [dispatch, credited]
      split
      · exact h
      · split
        · exact h.aside ⟨rfl, rfl, rfl, rfl⟩ h.quiet
        · exact h.aside hs fun _ => rfl
  | _ => simp [hr] at hf

theorem handleFlow_accounted (h : Accounted r) (ho : r.stream.err = none) (payload : List α) :
    Accounted (r.handleFlow payload) := by
  have hs : SameBytes r.stream r.stream := ⟨rfl, rfl, rfl, rfl⟩
  unfold handleFlow
  split
  · exact h.aside hs fun hf => absurd ho hf
  · split
    · exact h.aside ⟨rfl, rfl, rfl, rfl⟩ fun hf => absurd ho hf
    · exact h.aside hs fun _ => rfl

theorem knows_accepts {reader : Reader α} {readBuf queued : List α} {failed : Prop}
    (h : reader.Knows readBuf queued failed) (ho : ¬ failed) (payload : List α) :
    reader.Knows readBuf (queued ++ payload) failed := by
  cases reader with
  | checking size => exact ⟨h.1, fun hf => absurd hf ho⟩
  | ending => exact absurd h.2.1 ho
  | _ => exact h

theorem push_accounted (h : Accounted r) (ho : r.stream.err = none) (payload : List α) :
    Accounted (r.push payload) := by
  unfold push
  split
  · next readQueue hpush =>
    have hf : readQueue.frames.flatten = r.queued ++ payload := by
      rw [tryPush_eq_some hpush, queued]
      simp
    have hlog : Conserved r.results (r.pending ++ payload) (r.accepted.flatten ++ payload) (r.stream.err ≠ none) :=
      h.log.accepts payload (fun hne => hne ho)
    have hp : r.pending ++ payload =
        r.reader.hand ++ (r.stream.readBuf ++ (r.reader.carried ++ readQueue.frames.flatten)) := by
      rw [hf, pending]
      simp only [append_assoc]
    have hflat : r.accepted.flatten ++ payload = (r.accepted ++ [payload]).flatten := by simp
    rw [hp, hflat] at hlog
    refine ⟨hlog, ?_, h.done, fun _ => rfl⟩
    have hk := knows_accepts h.knows (fun hne => hne ho) payload
    rw [← hf] at hk
    exact hk
  · exact h.aside ⟨rfl, rfl, rfl, rfl⟩ fun _ => rfl

theorem knows_finish {reader : Reader α} {readBuf queued : List α} {failed failed' : Prop}
    (h : reader.Knows readBuf queued failed) (hf : failed → failed')
    (hc : reader.inGap → failed' → queued = []) : reader.Knows readBuf queued failed' := by
  cases reader with
  | checking size => exact ⟨h.1, hc rfl⟩
  | draining size => exact ⟨h.1, hf h.2⟩
  | ending => exact ⟨h.1, hf h.2.1, h.2.2⟩
  | _ => exact h

theorem receive_accounted (h : Accounted r) (hc : Clear r .receive) (hreceive : r.receive = some next) :
    Accounted next := by
  unfold receive at hreceive
  have ho : r.receiver.delivering → r.stream.err = none := by
    intro hd
    by_contra hf
    rw [h.quiet hf] at hd
    cases hd
  cases hr : r.receiver
  case idle => simp [hr] at hreceive
  all_goals simp only [hr, some.injEq] at hreceive
  case admitting payload =>
    subst hreceive
    exact handleFlow_accounted h (ho (by rw [hr]; rfl)) payload
  case pushing payload =>
    subst hreceive
    exact push_accounted h (ho (by rw [hr]; rfl)) payload
  case finishing e remove =>
    subst hreceive
    have he := hc (by rw [hr]; rfl)
    unfold finish
    split
    · exact h.aside ⟨rfl, rfl, rfl, rfl⟩ fun _ => rfl
    · refine ⟨h.log.kept fun _ => by simp, ?_, by simp, fun _ => rfl⟩
      exact knows_finish h.knows (fun _ => by simp) fun hgap _ => he hgap

theorem step_accounted (h : Accounted r) (hc : Clear r label)
    (hs : r.step threshold label = some next) : Accounted next := by
  cases label with
  | read size => exact read_accounted h hs
  | advance wake => exact advance_accounted h hs
  | frame f => exact frame_accounted h hs
  | receive => exact receive_accounted h hc hs

end Step

theorem accounted_opened (inboundBytes : ℕ) (flow : Option StreamState) :
    Accounted (opened inboundBytes flow : Reading α) :=
  ⟨Conserved.empty, trivial, by simp [opened, FrameStream.opened], fun _ => rfl⟩

theorem allReturned_of_clear (threshold inboundBytes : ℕ) (flow : Option StreamState) (labels : List (ReadLabel α))
    (ha : Along (step threshold) Clear (opened inboundBytes flow) labels) :
    Always (step threshold) AllReturned (opened inboundBytes flow) labels := by
  have hinv := always_of_invariant (fun _ _ _ => step_accounted)
      _ labels (accounted_opened inboundBytes flow) ha
  exact hinv.mono fun r h => h.log.complete

end Reading

theorem reads_return_accepted_bytes {α : Type} (windows : AgentRelayWindowConfig) (window : ℕ)
    (serverLabels : List (Relay.ReadLabel α))
    (hserver : Along (Relay.Reading.step windows) Relay.Reading.Clear (.opened window) serverLabels)
    (threshold inboundBytes : ℕ) (flow : Option StreamState) (clientLabels : List (ReadLabel α))
    (hclient : Along (Reading.step threshold) Reading.Clear (.opened inboundBytes flow) clientLabels) :
    Always (Relay.Reading.step windows) Relay.Reading.AllReturned (.opened window) serverLabels ∧
      Always (Reading.step threshold) Reading.AllReturned (.opened inboundBytes flow) clientLabels :=
  ⟨Relay.Reading.allReturned_of_clear windows window serverLabels hserver,
    Reading.allReturned_of_clear threshold inboundBytes flow clientLabels hclient⟩

def sampleFlow : StreamState := openedState 262144

def orderlyServer : List (Relay.ReadLabel Bool) :=
  [.frame (.data [true]), .frame .halfClose, .publish] ++
    .read 4 :: replicate 2 (.advance .data) ++ .read 4 :: replicate 3 (.advance .data)

def orderlyClient : List (ReadLabel Bool) :=
  [.frame (.data [true]), .receive, .receive, .frame .halfClose, .receive] ++
    .read 4 :: replicate 5 (.advance .data) ++ .read 4 :: replicate 3 (.advance .data)

theorem orderly_reads_complete :
    (∃ final, run (Relay.Reading.step ⟨0, 0⟩) (.opened 524288) orderlyServer = some final ∧
      final.results = [([true], none), ([], some .eof)] ∧ Relay.Reading.AllReturned final) ∧
    ∃ final, run (Reading.step 131072) (.opened 262144 (some sampleFlow)) orderlyClient = some final ∧
      final.results = [([true], none), ([], some .eof)] ∧ Reading.AllReturned final := by
  obtain ⟨hserver, hclient⟩ := reads_return_accepted_bytes ⟨0, 0⟩ 524288 orderlyServer (by decide +kernel)
    131072 262144 (some sampleFlow) orderlyClient (by decide +kernel)
  exact ⟨hserver.exists_run (by decide +kernel), hclient.exists_run (by decide +kernel)⟩

-- A call has found no bytes; then DATA and HALF_CLOSE arrive, and the call
-- returns the end of file.
theorem end_of_file_overtakes_bytes :
    (∃ final, run (Relay.Reading.step ⟨0, 0⟩) (.opened 524288)
        ([.read 4, .advance .data, .frame (.data [true]), .frame .halfClose, .publish] ++
          List.replicate 2 (.advance .data)) = some final ∧
      final.results = [([], some .eof)] ∧ final.accepted = [[true]] ∧ final.stream.unread = [true]) ∧
    ∃ final, run (Reading.step 131072) (.opened 262144 (some sampleFlow))
        ([.read 4, .advance .data, .advance .data, .frame (.data [true]), .receive, .receive, .frame .halfClose,
          .receive] ++ [.advance .data]) = some final ∧
      final.results = [([], some .eof)] ∧ final.accepted = [[true]] ∧ final.queued = [true] :=
  ⟨exists_run_of_any (by decide +kernel),
    exists_run_of_any (by decide +kernel)⟩

end TunnelMesh.Client
