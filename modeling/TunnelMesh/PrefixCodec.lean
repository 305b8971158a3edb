import Mathlib.Data.List.Basic

namespace TunnelMesh

open List

-- A format whose values can be read off the front of a longer input: what is
-- written comes back, and what is read was written that way.
structure PrefixCodec (ε α β : Type) where
  valid : α → Prop
  encode : α → List β
  decode : List β → Except ε (α × List β)
  decode_encode : ∀ value rest, valid value → decode (encode value ++ rest) = .ok (value, rest)
  decode_sound : ∀ input value rest, decode input = .ok (value, rest) → valid value ∧ input = encode value ++ rest

namespace PrefixCodec

def readMany {ε α β : Type} (decode : List β → Except ε (α × List β)) : ℕ → List β → Except ε (List α × List β)
  | 0, input => .ok ([], input)
  | n + 1, input => do
      let (value, rest) ← decode input
      let (values, rest) ← readMany decode n rest
      .ok (value :: values, rest)

variable {ε α β : Type} (codec : PrefixCodec ε α β)

theorem readMany_encode (values : List α) (rest : List β) (h : ∀ value ∈ values, codec.valid value) :
    readMany codec.decode values.length ((values.map codec.encode).flatten ++ rest) = .ok (values, rest) := by
  induction values with
  | nil => rfl
  | cons value values ih =>
    have hh := codec.decode_encode value ((values.map codec.encode).flatten ++ rest) (h value mem_cons_self)
    have ht := ih fun other ho => h other (mem_cons_of_mem value ho)
    rw [map_cons, flatten_cons, append_assoc, length_cons, readMany, hh]
    simp only [bind, Except.bind, ht]

theorem readMany_sound (h : readMany codec.decode n input = .ok (values, rest)) :
    (∀ value ∈ values, codec.valid value) ∧ input = (values.map codec.encode).flatten ++ rest := by
  induction n generalizing input values with
  | zero => cases h; exact ⟨fun value hvalue => absurd hvalue not_mem_nil, rfl⟩
  | succ n ih =>
    rw [readMany] at h
    cases hh : codec.decode input with
    | error e => rw [hh] at h; cases h
    | ok read =>
      obtain ⟨value, remaining⟩ := read
      cases ht : readMany codec.decode n remaining with
      | error e => simp only [hh, ht, bind, Except.bind] at h; cases h
      | ok more =>
        simp only [hh, ht, bind, Except.bind] at h
        cases h
        obtain ⟨hvalid, rfl⟩ := codec.decode_sound input value remaining hh
        obtain ⟨hv, rfl⟩ := ih ht
        refine ⟨?_, by rw [map_cons, flatten_cons, append_assoc]⟩
        intro other ho
        rcases mem_cons.mp ho with rfl | hmem
        · exact hvalid
        · exact hv other hmem

end PrefixCodec

end TunnelMesh
