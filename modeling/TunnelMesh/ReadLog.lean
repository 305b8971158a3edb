import Mathlib.Data.List.Infix

namespace TunnelMesh.ReadLog

open List

variable {α ε : Type} (results : List (List α × Option ε))

-- The results of the calls of a reader, in order: the bytes that a call has
-- returned, and its error.
def ended : Bool := results.any fun result => result.2.isSome

def returned : List α :=
  (results.takeWhile fun result => result.2.isNone).flatMap Prod.fst

theorem ended_append (more : List (List α × Option ε)) :
    ended (results ++ more) = (ended results || ended more) := any_append

theorem returned_append_of_ended {results : List (List α × Option ε)} (h : ended results)
    (more : List (List α × Option ε)) : returned (results ++ more) = returned results := by
  induction results with
  | nil => cases h
  | cons head rest ih =>
    obtain ⟨bytes, e⟩ := head
    cases e with
    | some e => rfl
    | none => have hr := ih h; exact congrArg (bytes ++ ·) hr

theorem returned_append {results : List (List α × Option ε)} (h : ended results = false)
    (more : List (List α × Option ε)) : returned (results ++ more) = returned results ++ returned more := by
  induction results with
  | nil => rfl
  | cons head rest ih =>
    obtain ⟨bytes, e⟩ := head
    cases e with
    | some e => cases h
    | none =>
      have hr := ih h
      calc
        returned ((bytes, none) :: rest ++ more) = bytes ++ returned (rest ++ more) := rfl
        _ = bytes ++ (returned rest ++ returned more) := by rw [hr]
        _ = returned ((bytes, none) :: rest) ++ returned more := (append_assoc _ _ _).symm

@[simp] theorem returned_ok (bytes : List α) : returned [(bytes, (none : Option ε))] = bytes := by
  simp [returned]

@[simp] theorem returned_error (bytes : List α) (e : ε) : returned [(bytes, some e)] = [] := rfl

-- The bytes returned before the first error are the accepted ones: a prefix of
-- them, and all of them once there has been an error.
structure Complete (accepted : List α) : Prop where
  before : returned results <+: accepted
  after : ended results → returned results = accepted

-- The accepted bytes are those returned and those pending, until a call has
-- returned an error.
structure Conserved (pending accepted : List α) (failed : Prop) : Prop where
  bytes : ended results = false → returned results ++ pending = accepted
  closed : ended results → failed ∧ returned results = accepted

namespace Conserved

variable {results : List (List α × Option ε)} {pending accepted : List α} {failed failed' : Prop}

theorem empty : Conserved ([] : List (List α × Option ε)) [] [] failed := ⟨fun _ => rfl, fun h => by cases h⟩

section

variable (h : Conserved results pending accepted failed)

include h

theorem complete : Complete results accepted := by
  refine ⟨?_, fun he => (h.closed he).2⟩
  cases he : ended results with
  | true => rw [(h.closed he).2]
  | false => exact ⟨pending, h.bytes he⟩

theorem moved (more : List (List α × Option ε)) {rest : List α}
    (hb : returned more ++ rest = pending) (hm : ended more = false) (hf : failed → failed') :
    Conserved (results ++ more) rest accepted failed' := by
  have he : ended (results ++ more) = ended results := by rw [ended_append, hm, Bool.or_false]
  refine ⟨fun ho => ?_, fun hc => ?_⟩
  · rw [he] at ho
    rw [returned_append ho, append_assoc, hb]
    exact h.bytes ho
  · rw [he] at hc
    obtain ⟨hold, hall⟩ := h.closed hc
    rw [returned_append_of_ended hc]
    exact ⟨hf hold, hall⟩

theorem kept (hf : failed → failed') : Conserved results pending accepted failed' := by
  have hm := h.moved [] (nil_append _) rfl hf
  rw [append_nil] at hm
  exact hm

theorem returns {bytes rest : List α} (hb : bytes ++ rest = pending) (hf : failed → failed') :
    Conserved (results ++ [(bytes, none)]) rest accepted failed' :=
  h.moved [(bytes, none)] (by rw [returned_ok]; exact hb) rfl hf

theorem error (e : ε) (hp : pending = []) (hf : failed') :
    Conserved (results ++ [([], some e)]) pending accepted failed' := by
  have he : ended (results ++ [(([] : List α), some e)]) := by
    rw [ended_append]
    exact Bool.or_true _
  refine ⟨fun ho => ?_, fun _ => ⟨hf, ?_⟩⟩
  · rw [he] at ho; cases ho
  · cases hold : ended results with
    | true => rw [returned_append_of_ended hold]; exact (h.closed hold).2
    | false =>
      have hb := h.bytes hold
      rw [hp, append_nil] at hb
      rw [returned_append hold, returned_error, append_nil]
      exact hb

theorem accepts (payload : List α) (ho : ¬ failed) :
    Conserved results (pending ++ payload) (accepted ++ payload) failed' := by
  refine ⟨fun he => ?_, fun he => absurd (h.closed he).1 ho⟩
  rw [← append_assoc, h.bytes he]

end

end Conserved

end TunnelMesh.ReadLog
