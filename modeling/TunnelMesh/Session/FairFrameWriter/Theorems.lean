import Mathlib.Algebra.Ring.Int.Defs
import TunnelMesh.Dict
import TunnelMesh.Session.FairFrameWriter
import TunnelMesh.Session.FrameQueue

namespace TunnelMesh.Session

open Protocol RoundRobin Transition BoundedFrameQueue Option List AList Function Dict

def payloadBytes (frames : List Frame) : ℤ := (frames.map fun frame => (frame.payload.length : ℤ)).sum

structure BoundedFrameQueue.Counted (bound : ℤ) (streamID : UInt32) (q : BoundedFrameQueue) : Prop where
  isOpen : q.closed = false
  limit : q.maxBytes = bound
  counted : q.bytes = payloadBytes q.frames
  bounded : q.bytes ≤ bound
  named : ∀ frame ∈ q.frames, frame.streamID = streamID

section Queue

variable {q next : BoundedFrameQueue}

theorem payloadBytes_append (frames more : List Frame) :
    payloadBytes (frames ++ more) = payloadBytes frames + payloadBytes more := by
  rw [payloadBytes, map_append, sum_append]
  rfl

theorem payloadBytes_singleton (frame : Frame) : payloadBytes [frame] = frame.payload.length := by
  rw [payloadBytes, map_singleton, sum_singleton]

theorem payloadBytes_cons (frame : Frame) (rest : List Frame) :
    payloadBytes (frame :: rest) = frame.payload.length + payloadBytes rest := by rfl

theorem counted_newBoundedFrameQueue (hb : 0 < bound) : (newBoundedFrameQueue bound).Counted bound streamID where
  isOpen := rfl
  limit := if_neg (by omega)
  counted := rfl
  bounded := Int.le_of_lt hb
  named _ hmem := nomatch hmem

namespace BoundedFrameQueue

theorem tryPush_eq_some (h : q.tryPush frame = some next) : q.bytes + frame.payload.length ≤ q.maxBytes ∧
      next = { q with frames := q.frames ++ [frame], bytes := q.bytes + frame.payload.length } := by
  unfold tryPush at h
  split_ifs at h with _ hroom
  refine ⟨?_, (some.inj h).symm⟩
  omega

theorem tryPop_eq_some (h : q.tryPop = some (frame, next)) : q.frames = frame :: next.frames ∧
      next = { q with frames := next.frames, bytes := q.bytes - frame.payload.length } := by
  obtain ⟨frames, bytes, maxBytes, closed⟩ := q
  cases frames with
  | nil => cases h
  | cons head rest => cases h; exact ⟨rfl, rfl⟩

theorem tryPop_eq_none : q.tryPop = none ↔ q.frames = [] := by
  obtain ⟨frames, bytes, maxBytes, closed⟩ := q
  cases frames with
  | nil => exact ⟨fun _ => rfl, fun _ => rfl⟩
  | cons head rest => exact ⟨nofun, nofun⟩

theorem Counted.tryPush (h : q.Counted bound streamID) (hn : frame.streamID = streamID)
    (hp : q.tryPush frame = some next) : next.Counted bound streamID := by
  obtain ⟨hr, rfl⟩ := tryPush_eq_some hp
  refine ⟨h.isOpen, h.limit, ?_, h.limit ▸ hr, fun other hmem => ?_⟩
  · rw [payloadBytes_append, payloadBytes_singleton, h.counted]
  · rcases mem_append.mp hmem with hold | hnew
    · exact h.named other hold
    · rw [mem_singleton.mp hnew]; exact hn

theorem Counted.tryPop (h : q.Counted bound streamID) (hpop : q.tryPop = some (frame, next)) :
    next.Counted bound streamID := by
  obtain ⟨hf, hn⟩ := tryPop_eq_some hpop
  have hcounted : q.bytes = frame.payload.length + payloadBytes next.frames := by
    rw [h.counted, hf, payloadBytes_cons]
  have hbounded := h.bounded
  rw [hn]
  refine ⟨h.isOpen, h.limit, ?_, ?_, fun other hmem => ?_⟩
  · dsimp only; omega
  · dsimp only; omega
  · exact h.named other (hf ▸ mem_cons_of_mem frame hmem)

def toFrameQueue (q : BoundedFrameQueue) : FrameQueue Frame := ⟨q.frames, q.maxBytes.toNat, q.closed⟩

end BoundedFrameQueue

theorem payloadBytes_eq_sum (frames : List Frame) :
    payloadBytes frames = ((frames.map fun frame => frame.payload.length).sum : ℕ) := by
  induction frames with
  | nil => rfl
  | cons head rest ih => rw [payloadBytes_cons, ih, map_cons, sum_cons]; omega

theorem BoundedFrameQueue.Counted.tryPush_refines (h : q.Counted bound streamID) (hbound : 0 < bound) (frame : Frame) :
    (q.tryPush frame).map toFrameQueue = q.toFrameQueue.tryPush (fun frame => frame.payload.length) frame := by
  have hbytes : q.bytes = (q.toFrameQueue.bytes fun frame => frame.payload.length : ℕ) :=
    h.counted.trans (payloadBytes_eq_sum q.frames)
  have hmax : (q.toFrameQueue.maxBytes : ℤ) = q.maxBytes := Int.toNat_of_nonneg (by rw [h.limit]; omega)
  have hc : q.toFrameQueue.closed = q.closed := rfl
  have hf : q.toFrameQueue.frames = q.frames := rfl
  unfold BoundedFrameQueue.tryPush FrameQueue.tryPush
  simp only [hc, hf]
  split_ifs
  · rfl
  · rfl
  · omega
  · omega
  · rfl

theorem BoundedFrameQueue.tryPop_refines (q : BoundedFrameQueue) :
    q.tryPop.map (fun popped => (popped.1, popped.2.toFrameQueue)) = q.toFrameQueue.pop := by
  obtain ⟨frames, bytes, maxBytes, closed⟩ := q
  cases frames with
  | nil | cons => rfl

end Queue

variable (w : FairFrameWriter)

def FairFrameWriter.toControlQueue : ControlQueue Frame := ⟨w.control, w.closed⟩

theorem FairFrameWriter.enqueueControl_refines (hs : w.config.controlQueueSize = controlQueueSize) (frame : Frame) :
    (if (w.enqueueControl frame).2 then some (w.enqueueControl frame).1.toControlQueue else none) =
      w.toControlQueue.enqueueControl frame := by
  unfold FairFrameWriter.enqueueControl ControlQueue.enqueueControl
  simp only [toControlQueue, hs, Int.ofNat_le]
  by_cases hc : w.closed
  · simp [hc]
  · by_cases hf : controlQueueSize ≤ w.control.length <;> simp [hc, hf]

namespace FairFrameWriter

variable (w : FairFrameWriter)

def queued (streamID : UInt32) : List Frame :=
  ((w.streams.lookup streamID).map frames).getD []

def schedule : Schedule UInt32 Frame := ⟨w.control, w.order.rotate w.cursor, w.queued⟩

structure WellFormed : Prop where
  nodup : w.order.Nodup
  tabled : ∀ id, id ∈ w.order ↔ id ∈ w.streams
  cursor : w.cursor ≤ w.order.length
  positive : 0 < w.config.streamQueueBytes
  queues : ∀ id q, w.streams.lookup id = some q → q.Counted w.config.streamQueueBytes id

section Table

variable {w : FairFrameWriter} {id : UInt32}

theorem queued_of_lookup (h : w.streams.lookup id = some q) : w.queued id = q.frames := by
  rw [queued, h]
  rfl

theorem queued_of_not_mem (h : id ∉ w.streams) : w.queued id = [] := by
  rw [queued, lookup_eq_none.mpr h]
  rfl

theorem queued_insert (w' : FairFrameWriter) (hstreams : w'.streams = w.streams.insert id q) :
    w'.queued = update w.queued id q.frames := by
  funext other
  rw [queued, hstreams, lookup_insert_eq, update_apply]
  split <;> rfl

theorem queued_erase (w' : FairFrameWriter) (hs : w'.streams = w.streams.erase id) (he : w.queued id = []) :
    w'.queued = w.queued := by
  funext other
  rw [queued, hs, lookup_erase_eq]
  split
  · next hsame => rw [hsame, he]; rfl
  · rfl

theorem WellFormed.exists_lookup (h : w.WellFormed) (hmem : id ∈ w.order) : ∃ q, w.streams.lookup id = some q :=
  isSome_iff_exists.mp (lookup_isSome.mpr ((h.tabled id).mp hmem))

theorem mem_rotation : id ∈ w.schedule.rotation ↔ id ∈ w.order := mem_rotate

theorem WellFormed.replace {cursor : ℕ} {q' : BoundedFrameQueue} (h : w.WellFormed)
    (hl : w.streams.lookup id = some q) (hcursor : cursor ≤ w.order.length)
    (hc : q'.Counted w.config.streamQueueBytes id) :
    { w with cursor, streams := w.streams.insert id q' }.WellFormed where
  nodup := h.nodup
  tabled other := by
    have hp : id ∈ w.streams := lookup_isSome.mp (isSome_of_mem hl)
    rw [mem_insert, h.tabled]
    constructor
    · exact .inr
    · rintro (rfl | hmem)
      · exact hp
      · exact hmem
  cursor := hcursor
  positive := h.positive
  queues other r hr := by
    rw [lookup_insert_eq] at hr
    split at hr
    · next hs => cases hr; exact hs ▸ hc
    · exact h.queues other r hr

theorem WellFormed.createStream (h : w.WellFormed) (habsent : id ∉ w.streams) : (w.createStream id).WellFormed where
  nodup := by
    have hnew : id ∉ w.order := fun hmem => habsent ((h.tabled id).mp hmem)
    exact nodup_append.mpr ⟨h.nodup, nodup_singleton id, fun a ha b hb => by
      rw [mem_singleton.mp hb]
      exact fun hs => hnew (hs ▸ ha)⟩
  tabled other := by
    dsimp only [FairFrameWriter.createStream]
    rw [mem_insert, mem_append, mem_singleton, h.tabled, or_comm]
  cursor := by
    dsimp only [FairFrameWriter.createStream]
    rw [length_append]
    omega
  positive := h.positive
  queues other r hr := by
    dsimp only [FairFrameWriter.createStream] at hr ⊢
    rw [lookup_insert_eq] at hr
    split at hr
    · cases hr; exact counted_newBoundedFrameQueue h.positive
    · exact h.queues other r hr

theorem order_removeStream (hmem : id ∈ w.streams) : (w.removeStream id).order = w.order.erase id := by
  rw [removeStream, if_pos hmem]
  exact List.eraseIdx_idxOf_eq_erase id w.order

theorem cursor_removeStream (h : w.WellFormed) (hmem : id ∈ w.streams) :
    (w.removeStream id).cursor = if w.order.idxOf id < w.cursor then w.cursor - 1 else w.cursor := by
  have hl : id ∈ w.order := (h.tabled id).mpr hmem
  rw [removeStream, if_pos hmem]
  simp only [hl, true_and]

theorem rotation_removeStream (h : w.WellFormed) (hmem : id ∈ w.streams) :
    (w.removeStream id).schedule.rotation = w.schedule.rotation.erase id := by
  have hl : id ∈ w.order := (h.tabled id).mpr hmem
  rw [schedule, schedule, order_removeStream hmem, cursor_removeStream h hmem]
  exact rotate_erase h.nodup h.cursor hl

theorem WellFormed.removeStream (h : w.WellFormed) (hmem : id ∈ w.streams) : (w.removeStream id).WellFormed where
  nodup := by
    rw [order_removeStream hmem]
    exact h.nodup.erase id
  tabled other := by
    rw [order_removeStream hmem, h.nodup.mem_erase_iff, h.tabled, FairFrameWriter.removeStream, if_pos hmem]
    exact mem_erase.symm
  cursor := by
    have hl : id ∈ w.order := (h.tabled id).mpr hmem
    have hlength := length_erase_add_one hl
    have hindex := List.idxOf_lt_length_of_mem hl
    have hcursor := h.cursor
    rw [cursor_removeStream h hmem, order_removeStream hmem]
    split <;> omega
  positive := by
    rw [FairFrameWriter.removeStream, if_pos hmem]
    exact h.positive
  queues other r hr := by
    rw [FairFrameWriter.removeStream, if_pos hmem] at hr ⊢
    rw [lookup_erase_eq] at hr
    split_ifs at hr
    exact h.queues other r hr

end Table

section Retire

variable {w : FairFrameWriter}

structure Retired (w : FairFrameWriter) (ids : List UInt32) (w' : FairFrameWriter) : Prop where
  wellFormed : w'.WellFormed
  config : w'.config = w.config
  control : w'.control = w.control
  closed : w'.closed = w.closed
  rotation : w'.schedule.rotation = w.schedule.rotation.filter (· ∉ ids)
  queued : w'.queued = w.queued

theorem WellFormed.retired_remove (h : w.WellFormed) {id : UInt32} (hmem : id ∈ w.streams)
    (he : w.queued id = []) : Retired w [id] (w.removeStream id) where
  wellFormed := h.removeStream hmem
  config := by rw [FairFrameWriter.removeStream, if_pos hmem]
  control := by rw [FairFrameWriter.removeStream, if_pos hmem]
  closed := by rw [FairFrameWriter.removeStream, if_pos hmem]
  rotation := by
    have hn : w.schedule.rotation.Nodup := nodup_rotate.mpr h.nodup
    rw [rotation_removeStream h hmem, hn.erase_eq_filter]
    apply filter_congr
    intro other _
    simp only [mem_singleton, decide_not, bne]
    rfl
  queued := by
    have hs : (w.removeStream id).streams = w.streams.erase id := by
      rw [FairFrameWriter.removeStream, if_pos hmem]
    exact queued_erase _ hs he

theorem WellFormed.retired_one (h : w.WellFormed) {id : UInt32} (he : w.queued id = []) :
    Retired w [id] (w.retireIdle [id]) := by
  cases hl : w.streams.lookup id with
  | none =>
    have hone : w.retireIdle [id] = w := by simp only [retireIdle, foldl_cons, foldl_nil, hl]
    rw [hone]
    have ha : id ∉ w.schedule.rotation := by rw [mem_rotation, h.tabled]; exact lookup_eq_none.mp hl
    refine ⟨h, rfl, rfl, rfl, ?_, rfl⟩
    refine (filter_eq_self.mpr ?_).symm
    intro other hmem
    apply decide_eq_true
    intro hone
    exact ha (mem_singleton.mp hone ▸ hmem)
  | some q =>
    have hf : q.frames = [] := (queued_of_lookup hl).symm.trans he
    have hmem : id ∈ w.streams := lookup_isSome.mp (isSome_of_mem hl)
    have hone : w.retireIdle [id] = w.removeStream id := by
      simp only [retireIdle, foldl_cons, foldl_nil, hl, if_pos hf]
    rw [hone]
    exact h.retired_remove hmem he

theorem WellFormed.retired (h : w.WellFormed) (ids : List UInt32) (he : ∀ id ∈ ids, w.queued id = []) :
    Retired w ids (w.retireIdle ids) := by
  induction ids generalizing w with
  | nil => exact ⟨h, rfl, rfl, rfl, (filter_eq_self.mpr fun _ _ => rfl).symm, rfl⟩
  | cons id rest ih =>
    have hone := h.retired_one (he id mem_cons_self)
    have hr := ih hone.wellFormed fun other hmem => by
      rw [hone.queued]
      exact he other (mem_cons_of_mem id hmem)
    refine ⟨hr.wellFormed, hr.config.trans hone.config, hr.control.trans hone.control,
      hr.closed.trans hone.closed, ?_, hr.queued.trans hone.queued⟩
    refine hr.rotation.trans ?_
    rw [hone.rotation, List.filter_filter]
    apply filter_congr
    intro other _
    simp only [mem_cons, not_mem_nil, or_false, not_or, Bool.decide_and, Bool.and_comm]

end Retire

section Scan

variable {w : FairFrameWriter}

-- What the loop over the order comes to. The streams it passes are idle.
inductive Scanned (w : FairFrameWriter) (turns : ℕ) (idle : List UInt32) :
    Option (UInt32 × Frame) × FairFrameWriter × List UInt32 → Prop where
  | idle {cursor : ℕ} {ids : List UInt32} (hcursor : cursor ≤ w.order.length)
      (hrotate : w.order.rotate cursor = w.schedule.rotation.rotate turns)
      (hids : ids = idle ++ w.schedule.rotation.take turns)
      (hidle : ∀ id ∈ w.schedule.rotation.take turns, w.queued id = []) :
      Scanned w turns idle (none, { w with cursor }, ids)
  | found {cursor : ℕ} {ids front rest : List UInt32} {id : UInt32} {frame : Frame} {q q' : BoundedFrameQueue}
      (hcursor : cursor ≤ w.order.length) (hrotate : w.order.rotate cursor = rest ++ front ++ [id])
      (hids : ids = idle ++ front) (hturns : front.length < turns) (hidle : ∀ j ∈ front, w.queued j = [])
      (hrotation : w.schedule.rotation = front ++ id :: rest) (hlookup : w.streams.lookup id = some q)
      (hpop : q.tryPop = some (frame, q')) :
      Scanned w turns idle (some (id, frame), { w with cursor, streams := w.streams.insert id q' }, ids)

theorem Scanned.pass {turns cursor : ℕ} {idle rest : List UInt32} {id : UInt32}
    {result : Option (UInt32 × Frame) × FairFrameWriter × List UInt32} (hr : w.schedule.rotation = id :: rest)
    (hn : w.order.rotate cursor = rest ++ [id]) (ht : turns ≤ rest.length) (he : w.queued id = [])
    (h : Scanned { w with cursor } turns (idle ++ [id]) result) : Scanned w (turns + 1) idle result := by
  have hm : { w with cursor }.schedule.rotation = rest ++ [id] := hn
  cases h with
  | @idle cursor' ids hc hrotate hids hi =>
    have htake : { w with cursor }.schedule.rotation.take turns = rest.take turns := by
      rw [hm, take_append_of_le_length ht]
    rw [htake] at hids hi
    refine .idle hc ?_ ?_ ?_
    · rw [hrotate, hm, hr, rotate_cons_succ]
    · rw [hids, hr, take_succ_cons, append_assoc]; rfl
    · rw [hr, take_succ_cons]
      intro other ho
      rcases mem_cons.mp ho with rfl | hmem
      · exact he
      · exact hi other hmem
  | @found cursor' ids front rest' other frame q q' hc hrotate hids hf hi hfound hlookup hpop =>
    rcases append_singleton_split (hm.symm.trans hfound) with ⟨-, hall, -⟩ | ⟨after, rfl, hrest⟩
    · have hl := congrArg List.length hall; omega
    have hcons : id :: rest = (id :: front) ++ other :: after := by rw [hrest, cons_append]
    have hl : (id :: front).length < turns + 1 := Nat.succ_lt_succ hf
    refine .found hc ?_ ?_ hl ?_ (hr.trans hcons) hlookup hpop
    · rw [hrotate, append_assoc after [id] front, singleton_append]
    · rw [hids, append_assoc, singleton_append]
    · intro j hj
      rcases mem_cons.mp hj with rfl | hmem
      · exact he
      · exact hi j hmem

theorem WellFormed.scanned (h : w.WellFormed) {turns : ℕ} (idle : List UInt32) (hturns : turns ≤ w.order.length) :
    Scanned w turns idle (w.scan turns idle) := by
  induction turns generalizing w idle with
  | zero =>
    refine .idle h.cursor (rotate_zero _).symm ?_ fun id hmem => nomatch hmem
    rw [take_zero, append_nil]
  | succ turns ih =>
    have hlength : w.schedule.rotation.length = w.order.length := length_rotate ..
    cases hr : w.schedule.rotation with
    | nil => rw [hr, length_nil] at hlength; omega
    | cons id rest =>
      rw [hr, length_cons] at hlength
      have hh := getElem?_cursor hr
      have hn := rotate_succ hr
      have hlisted : id ∈ w.order := mem_rotation.mp (hr ▸ mem_cons_self)
      obtain ⟨q, hl⟩ := h.exists_lookup hlisted
      have hp : 0 < w.order.length := by omega
      have hc : (w.cursor % w.order.length + 1) % w.order.length ≤ w.order.length :=
        (Nat.mod_lt _ hp).le
      unfold scan
      rw [hh]
      dsimp only
      rw [hl]
      dsimp only
      cases hpop : q.tryPop with
      | some popped =>
        refine .found hc ?_ (append_nil idle).symm (Nat.succ_pos turns) (fun j hj => (nomatch hj)) hr hl hpop
        rw [hn, append_nil]
      | none =>
        have he : w.queued id = [] :=
          (queued_of_lookup hl).trans (tryPop_eq_none.mp hpop)
        have hm : { w with cursor := (w.cursor % w.order.length + 1) % w.order.length }.WellFormed :=
          { h with cursor := hc }
        have hrest := ih hm (idle ++ [id]) (by dsimp only; omega)
        exact hrest.pass hr hn (by omega) he

end Scan

section Next

variable {w : FairFrameWriter}

-- A pass that finds nothing leaves no stream behind, and one that finds a frame
-- puts its stream at the end of the rotation.
inductive Taken (w : FairFrameWriter) : Option (UInt32 × Frame) × FairFrameWriter → Prop where
  | nothing {w' : FairFrameWriter} (hwellFormed : w'.WellFormed) (hconfig : w'.config = w.config)
      (hclosed : w'.closed = w.closed) (hqueued : ∀ id, w.queued id = [])
      (hschedule : w'.schedule = ⟨w.control, [], w.queued⟩) : Taken w (none, w')
  | frame {w' : FairFrameWriter} {idle rest : List UInt32} {id : UInt32} {frame : Frame} {more : List Frame}
      (hwellFormed : w'.WellFormed) (hconfig : w'.config = w.config) (hclosed : w'.closed = w.closed)
      (hrotation : w.schedule.rotation = idle ++ id :: rest) (hidle : ∀ j ∈ idle, w.queued j = [])
      (hqueued : w.queued id = frame :: more)
      (hschedule : w'.schedule = ⟨w.control, rest ++ [id], update w.queued id more⟩) :
      Taken w (some (id, frame), w')

theorem filter_front {id : UInt32} (hn : (front ++ id :: rest).Nodup) :
    (rest ++ front ++ [id]).filter (· ∉ front) = rest ++ [id] := by
  have ha := disjoint_of_nodup_append hn
  have hr : rest.filter (· ∉ front) = rest :=
    filter_eq_self.mpr fun j hj => decide_eq_true fun hmem => ha hmem (mem_cons_of_mem id hj)
  have hf : front.filter (· ∉ front) = [] :=
    filter_eq_nil_iff.mpr fun j hj hout => of_decide_eq_true hout hj
  have hid : [id].filter (· ∉ front) = [id] :=
    filter_eq_self.mpr fun j hj => decide_eq_true fun hmem =>
      ha hmem (mem_singleton.mp hj ▸ mem_cons_self)
  rw [filter_append, filter_append, hr, hf, hid, append_nil]

theorem schedule_eq {w' : FairFrameWriter} {control : List Frame}
    {queue : UInt32 → List Frame} (hc : w'.control = control) (hr : w'.schedule.rotation = turns)
    (hq : w'.queued = queue) : w'.schedule = ⟨control, turns, queue⟩ := by
  subst hc hr hq
  rfl

theorem WellFormed.taken (h : w.WellFormed) : Taken w w.nextData := by
  have hs := h.scanned [] (Nat.le_refl w.order.length)
  unfold nextData
  generalize w.scan w.order.length [] = result at hs
  cases hs with
  | @idle cursor ids hc hrotate hids hi =>
    have hlength : w.schedule.rotation.length = w.order.length := length_rotate ..
    rw [← hlength, take_length] at hids hi
    rw [← hlength, rotate_length] at hrotate
    subst hids
    have hm : { w with cursor }.WellFormed := { h with cursor := hc }
    have hr := hm.retired w.schedule.rotation hi
    refine .nothing hr.wellFormed hr.config hr.closed (fun id => ?_) ?_
    · by_cases hmem : id ∈ w.streams
      · exact hi id (mem_rotation.mpr ((h.tabled id).mpr hmem))
      · exact queued_of_not_mem hmem
    · refine schedule_eq hr.control (hr.rotation.trans ?_) hr.queued
      refine filter_eq_nil_iff.mpr fun id hmem hout => of_decide_eq_true hout ?_
      exact hrotate ▸ hmem
  | @found cursor ids front rest id frame q q' hc hrotate hids hturns hi hrotation hl hpop =>
    subst hids
    obtain ⟨hf, -⟩ := tryPop_eq_some hpop
    have hn : (ids ++ id :: rest).Nodup := hrotation ▸ nodup_rotate.mpr h.nodup
    have hcounted := (h.queues id q hl).tryPop hpop
    have hreplaced := h.replace hl hc hcounted
    have hq : { w with cursor, streams := w.streams.insert id q' }.queued =
        update w.queued id q'.frames := queued_insert _ rfl
    have hr := hreplaced.retired ids fun j hj => by
      have hne : j ≠ id := fun hsame => disjoint_of_nodup_append hn hj (hsame ▸ mem_cons_self)
      rw [hq, update_of_ne hne]
      exact hi j hj
    refine .frame hr.wellFormed hr.config hr.closed hrotation hi ((queued_of_lookup hl).trans hf) ?_
    refine schedule_eq hr.control (hr.rotation.trans ?_) (hr.queued.trans hq)
    have hm : { w with cursor, streams := w.streams.insert id q' }.schedule.rotation =
        rest ++ ids ++ [id] := hrotate
    rw [hm, filter_front hn]

end Next

section Enqueue

variable {w : FairFrameWriter}

-- What `EnqueueData` can do. A stream that gets a queue is the next in turn, and the
-- order starts anew behind it.
inductive Enqueued (w : FairFrameWriter) (id : UInt32) (frame : Frame) : FairFrameWriter × Bool → Prop where
  | unchanged : Enqueued w id frame (w, false)
  | pushed {w' : FairFrameWriter} (hwellFormed : w'.WellFormed) (hconfig : w'.config = w.config)
      (hclosed : w'.closed = w.closed) (hmem : id ∈ w.order)
      (hschedule : w'.schedule =
        ⟨w.control, w.schedule.rotation, update w.queued id (w.queued id ++ [frame])⟩) :
      Enqueued w id frame (w', true)
  | created {w' : FairFrameWriter} (hid : id ≠ 0) (hwellFormed : w'.WellFormed) (hconfig : w'.config = w.config)
      (hclosed : w'.closed = w.closed) (hnew : id ∉ w.order)
      (hschedule : w'.schedule = ⟨w.control, id :: w.order, update w.queued id (w.queued id ++ [frame])⟩) :
      Enqueued w id frame (w', true)
  | refused {w' : FairFrameWriter} (hid : id ≠ 0) (hwellFormed : w'.WellFormed) (hconfig : w'.config = w.config)
      (hclosed : w'.closed = w.closed) (hnew : id ∉ w.order)
      (hschedule : w'.schedule = ⟨w.control, w.order, w.queued⟩) :
      Enqueued w id frame (w', false)

theorem rotation_createStream (id : UInt32) : (w.createStream id).schedule.rotation = id :: w.order :=
  rotate_append_length_eq w.order [id]

theorem queued_createStream (id : UInt32) : (w.createStream id).queued = update w.queued id [] :=
  queued_insert (q := newBoundedFrameQueue w.config.streamQueueBytes) _ rfl

theorem WellFormed.enqueued_existing (h : w.WellFormed) {id : UInt32}
    (hl : w.streams.lookup id = some q) (hn : frame.streamID = id) (hp : q.tryPush frame = some q') :
    Enqueued w id frame ({ w with streams := w.streams.insert id q' }, true) := by
  obtain ⟨-, hf⟩ := tryPush_eq_some hp
  have hc := (h.queues id q hl).tryPush hn hp
  have hmem : id ∈ w.order := (h.tabled id).mpr (lookup_isSome.mp (isSome_of_mem hl))
  refine .pushed (h.replace hl h.cursor hc) rfl rfl hmem (schedule_eq rfl rfl ?_)
  rw [queued_of_lookup hl]
  refine (queued_insert _ rfl).trans ?_
  rw [hf]

theorem WellFormed.enqueued_new (h : w.WellFormed) {id : UInt32}
    (hid : id ≠ 0) (ha : id ∉ w.streams) (hn : frame.streamID = id)
    (hp : (newBoundedFrameQueue w.config.streamQueueBytes).tryPush frame = some q) :
    Enqueued w id frame ({ w.createStream id with streams := (w.createStream id).streams.insert id q }, true) := by
  obtain ⟨-, hf⟩ := tryPush_eq_some hp
  have hc := h.createStream ha
  have hl : (w.createStream id).streams.lookup id = some (newBoundedFrameQueue w.config.streamQueueBytes) :=
    lookup_insert _
  have hcounted := (hc.queues id _ hl).tryPush hn hp
  have hnew : id ∉ w.order := fun hmem => ha ((h.tabled id).mp hmem)
  refine .created hid (hc.replace hl hc.cursor hcounted) rfl rfl hnew (schedule_eq rfl (rotation_createStream id) ?_)
  have hfirst := queued_createStream (w := w) id
  refine (queued_insert _ rfl).trans ?_
  rw [hfirst, update_idem, queued_of_not_mem ha, hf]
  rfl

-- A new queue that does not take the frame goes away again. The cursor stays behind
-- the end of the order.
theorem WellFormed.enqueued_refused (h : w.WellFormed) {id : UInt32} {frame : Frame} (hid : id ≠ 0)
    (ha : id ∉ w.streams) : Enqueued w id frame ((w.createStream id).removeStream id, false) := by
  have hc := h.createStream ha
  have hmem : id ∈ (w.createStream id).streams := (mem_insert _).mpr (.inl rfl)
  have hf := queued_createStream (w := w) id
  have he : (w.createStream id).queued id = [] := by rw [hf, update_self]
  have hr := hc.retired_remove hmem he
  have hnew : id ∉ w.order := fun hl => ha ((h.tabled id).mp hl)
  refine .refused hid hr.wellFormed hr.config hr.closed hnew (schedule_eq hr.control ?_ (hr.queued.trans ?_))
  · rw [rotation_removeStream hc hmem, rotation_createStream, erase_cons_head]
  · rw [hf, ← queued_of_not_mem ha, update_eq_self]

theorem WellFormed.enqueued (h : w.WellFormed) (id : UInt32) (frame : Frame) :
    Enqueued w id { frame with streamID := id } (w.enqueueData id frame) := by
  unfold enqueueData
  split
  · exact .unchanged
  rename_i hr
  have hid : id ≠ 0 := fun hz => hr (.inl hz)
  cases hl : w.streams.lookup id with
  | some q =>
    dsimp only [pushStream]
    cases hp : q.tryPush { frame with streamID := id } with
    | none => exact .unchanged
    | some q' => exact h.enqueued_existing hl rfl hp
  | none =>
    have ha : id ∉ w.streams := lookup_eq_none.mp hl
    dsimp only [pushStream]
    cases hp : (newBoundedFrameQueue w.config.streamQueueBytes).tryPush { frame with streamID := id } with
    | none => exact h.enqueued_refused hid ha
    | some q' => exact h.enqueued_new hid ha rfl hp

end Enqueue

end FairFrameWriter

open FairFrameWriter

-- A frame goes to the queue of its stream, or it is not one that has to keep its
-- place in its stream.
def Channelled (history : List (Event UInt32 Frame)) : Prop :=
  ∀ channel frame, .accepted channel frame ∈ history →
    channel = some frame.streamID ∨ (channel = none ∧ isStreamOrdered frame = false)

-- No stream loses a turn when a queue is made for another one: the cursor is at the
-- start of the order, or nothing is queued from the cursor on.
def Unskipped (id : UInt32) : Prop :=
  id ∈ w.streams ∨ w.cursor % w.order.length = 0 ∨ ∀ j ∈ w.order.drop (w.cursor % w.order.length), w.queued j = []

def TurnsKept (s : WriterRun) : WriterLabel → Prop
  | .enqueueData id _ => id = 0 ∨ Unskipped s.writer id
  | .enqueueControl frame => isStreamOrdered frame → Unskipped s.writer frame.streamID
  | .dequeue => True
  | .close => True

namespace WriterRun

structure Moved (s : WriterRun) (label : WriterLabel) (s' : WriterRun) (events : List (Event UInt32 Frame)) :
    Prop where
  history : s'.history = s.history ++ events
  step : Step s.writer.schedule events s'.writer.schedule
  wellFormed : s'.writer.WellFormed
  config : s'.writer.config = s.writer.config
  closed : s'.writer.closed = s.writer.closed
  channelled : Channelled events
  orderly : (∀ i frame, events ≠ [.served (some i) frame]) → TurnsKept s label →
    Orderly s.writer.schedule s'.writer.schedule

section Moved

variable {s : WriterRun}

theorem orderly_of_rotation {s s' : Schedule UInt32 Frame} (h : s'.rotation = s.rotation) : Orderly s s' :=
  fun _ _ _ ha => h ▸ ha

theorem sublist_order {w : FairFrameWriter}
    (hu : w.cursor % w.order.length = 0 ∨ ∀ j ∈ w.order.drop (w.cursor % w.order.length), w.queued j = [])
    (hb : w.queued b ≠ []) (ha : [b, a].Sublist w.schedule.rotation) : [b, a].Sublist w.order := by
  have hr : w.schedule.rotation = w.order.rotate (w.cursor % w.order.length) := (rotate_mod ..).symm
  rw [hr] at ha
  rcases hu with hz | hi
  · rw [hz, rotate_zero] at ha; exact ha
  by_cases he : w.order.length = 0
  · rw [length_eq_zero_iff.mp he, rotate_nil] at ha; exact ha.trans (nil_sublist _)
  have hc : w.cursor % w.order.length ≤ w.order.length := (Nat.mod_lt _ (Nat.pos_of_ne_zero he)).le
  rw [rotate_eq_append hc] at ha
  have ht := sublist_right_of_not_mem _ ha fun hmem => hb (hi b hmem)
  exact ht.trans (take_sublist _ _)

theorem Moved.quiet {w : FairFrameWriter} (hs : Step s.writer.schedule [] w.schedule)
    (hw : w.WellFormed) (hc : w.config = s.writer.config) (hclosed : w.closed = s.writer.closed)
    (ho : TurnsKept s label → Orderly s.writer.schedule w.schedule) : Moved s label ⟨w, s.history⟩ [] where
  history := (append_nil _).symm
  step := hs
  wellFormed := hw
  config := hc
  closed := hclosed
  channelled _ _ hmem := nomatch hmem
  orderly _ := ho

section

variable (h : s.writer.WellFormed)

include h

theorem refl_step : Step s.writer.schedule [] s.writer.schedule :=
  .refused (nodup_rotate.mpr h.nodup) fun _ => Iff.rfl

theorem Moved.refl (label : WriterLabel) : Moved s label s [] :=
  .quiet (refl_step h) h rfl rfl fun _ => orderly_of_rotation rfl

theorem enqueueData_moved (id : UInt32) (frame : Frame) (label : WriterLabel)
    (hlabel : TurnsKept s label → id = 0 ∨ Unskipped s.writer id) :
    ∃ events, Moved s label (s.enqueueData id frame) events := by
  have hmem (j : UInt32) : j ∈ s.writer.schedule.rotation ↔ j ∈ s.writer.order := mem_rotation
  have hn : Channelled [.accepted (some id) { frame with streamID := id }] := by
    intro channel other hevent
    cases mem_singleton.mp hevent
    exact .inl rfl
  have hk (hid : id ≠ 0) (hnew : id ∉ s.writer.order) (ht : TurnsKept s label) {a b : UInt32}
      (hb : s.writer.queued b ≠ []) (ha : [b, a].Sublist s.writer.schedule.rotation) :
      [b, a].Sublist s.writer.order := by
    have hu := (hlabel ht).resolve_left hid
    exact sublist_order (hu.resolve_left fun hin => hnew ((h.tabled id).mpr hin)) hb ha
  have he := h.enqueued id frame
  unfold enqueueData
  generalize s.writer.enqueueData id frame = result at he
  cases he with
  | unchanged => exact ⟨[], .refl h label⟩
  | @pushed w hw hc hclosed hl hs =>
    refine ⟨_, rfl, ?_, hw, hc, hclosed, hn, fun _ _ => orderly_of_rotation ?_⟩
    · rw [hs]
      refine .queued id _ (nodup_rotate.mpr h.nodup) fun j => ?_
      rw [hmem]
      exact ⟨.inr, fun hj => hj.elim (fun hsame => hsame ▸ hl) fun hj => hj⟩
    · rw [hs]
  | @created w hid hw hc hclosed hnew hs =>
    refine ⟨_, rfl, ?_, hw, hc, hclosed, hn, fun _ ht a b hb ha => ?_⟩
    · rw [hs]
      refine .queued id _ (nodup_cons.mpr ⟨hnew, h.nodup⟩) fun j => ?_
      rw [hmem, mem_cons]
    · rw [hs]; exact (hk hid hnew ht hb ha).cons id
  | @refused w hid hw hc hclosed hnew hs =>
    refine ⟨[], .quiet ?_ hw hc hclosed fun ht a b hb ha => ?_⟩
    · rw [hs]; exact .refused h.nodup fun j => (hmem j).symm
    · rw [hs]; exact hk hid hnew ht hb ha

theorem enqueueControl_moved (frame : Frame) :
    ∃ events, Moved s (.enqueueControl frame) (s.enqueueControl frame) events := by
  unfold enqueueControl
  unfold FairFrameWriter.enqueueControl
  split_ifs with ho hc hf
  · exact enqueueData_moved h frame.streamID frame _ fun ht => .inr (ht ho)
  · exact ⟨[], .refl h _⟩
  · exact ⟨[], .refl h _⟩
  · refine ⟨_, rfl, .urgent frame, { h with }, rfl, rfl, ?_, fun _ _ => orderly_of_rotation rfl⟩
    intro channel other he
    cases mem_singleton.mp he
    exact .inr ⟨rfl, Bool.eq_false_iff.mpr ho⟩

theorem dequeue_moved : ∃ events, Moved s .dequeue s.dequeue events := by
  have ht := h.taken
  have hserved (channel : Option UInt32) (frame : Frame) : Channelled [.served channel frame] := by
    intro _ _ he
    cases mem_singleton.mp he
  unfold dequeue FairFrameWriter.next
  by_cases hclosed : s.writer.closed
  · rw [if_pos hclosed]; exact ⟨[], .refl h _⟩
  rw [if_neg hclosed]
  cases hc : s.writer.control with
  | cons frame rest =>
    exact ⟨_, rfl, .servedUrgent frame hc, { h with }, rfl, rfl, hserved none frame, fun _ _ => orderly_of_rotation rfl⟩
  | nil =>
    generalize s.writer.nextData = result at ht
    cases ht with
    | @nothing w hw hconfig hclosed hq hs =>
      refine ⟨[], .quiet ?_ hw hconfig hclosed fun _ a b hb _ => absurd (hq b) hb⟩
      rw [hs, hc]
      exact .drained hc hq
    | @frame w idle rest id frame more hw hconfig hclosed hr hi hq hs =>
      have hstep : Step s.writer.schedule [.served (some id) frame] w.schedule := by
        rw [hs, hc]
        exact .served id frame hc hr hi hq
      exact ⟨_, rfl, hstep, hw, hconfig, hclosed, hserved _ frame, fun hquiet => absurd rfl (hquiet id frame)⟩

end

end Moved

end WriterRun

end TunnelMesh.Session
