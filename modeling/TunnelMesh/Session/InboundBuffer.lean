import TunnelMesh.Protocol.Window
import TunnelMesh.Session.FrameQueue

namespace TunnelMesh.Session

open Protocol List

def acceptInboundBuffer (bytes : ℤ) : Option ℕ :=
  if bytes < 2 * maxStreamFrame then none else some bytes.toNat

def inboundBuffer (standard configured : ℕ) : ℕ := if 0 < configured then configured else standard

theorem inboundBuffer_of_accepted (h : acceptInboundBuffer bytes = some configured)
    (standard : ℕ) : inboundBuffer standard configured = configured ∧ 0 < configured := by
  have hframe : maxStreamFrame = 32768 := rfl
  unfold acceptInboundBuffer at h
  split_ifs at h
  cases h
  have hpos : 0 < bytes.toNat := by omega
  exact ⟨if_pos hpos, hpos⟩

variable {α : Type}

structure Fits (window bound : ℕ) (empties : Bool) (payloads : List (List α)) : Prop where
  sizes : ∀ p ∈ payloads, empties ∨ 0 < p.length
  credit : (payloads.map length).sum ≤ window
  bytes : (payloads.map length).sum ≤ bound
  count : payloads.length ≤ bound

theorem Fits.of_append (xs ys : List (List α)) (h : Fits window bound empties (xs ++ ys)) :
    Fits window bound empties xs := by
  obtain ⟨hs, hw, hb, hc⟩ := h
  rw [map_append, sum_append] at hw hb
  rw [length_append] at hc
  exact ⟨fun p hp => hs p (mem_append_left _ hp), by omega, by omega, by omega⟩

-- Payloads that fill a queue of `bound` bytes, and one more that the window
-- still covers and the queue refuses. Without `empties` none of them is empty.
structure Overfills (window bound : ℕ) (empties : Bool) (payloads : List (List α)) (payload : List α) : Prop where
  sizes : ∀ p ∈ payload :: payloads, empties ∨ 0 < p.length
  credit : (payloads.map length).sum + payload.length ≤ window
  bytes : (payloads.map length).sum ≤ bound
  count : payloads.length ≤ bound
  full : bound < (payloads.map length).sum + payload.length ∨ bound ≤ payloads.length

theorem Overfills.fits (h : Overfills window bound empties payloads (payload : List α)) :
    Fits window bound empties payloads :=
  ⟨fun p hp => h.sizes p (mem_cons_of_mem _ hp), by have := h.credit; omega, h.bytes, h.count⟩

theorem exists_overfills [Inhabited α] (hpos : 0 < bound) (h : ¬ (window ≤ bound ∧ empties = false)) :
    ∃ (payloads : List (List α)) (payload : List α), Overfills window bound empties payloads payload := by
  by_cases hr : window ≤ bound
  · -- Empty frames take no credit and fill the queue all the same.
    have he : empties = true := by simpa using fun hn => h ⟨hr, hn⟩
    refine ⟨replicate bound [], [], fun _ _ => .inl he, ?_, ?_, ?_, ?_⟩
    all_goals simp
  · -- One frame fills the queue, and the credit covers a byte more.
    refine ⟨[replicate bound default], [default], fun p hmem => .inr ?_, ?_, ?_, ?_, ?_⟩
    · simp only [mem_cons, not_mem_nil, or_false] at hmem
      rcases hmem with rfl | rfl
      · exact Nat.one_pos
      · rwa [length_replicate]
    all_goals simp
    all_goals omega

end TunnelMesh.Session
