import Mathlib.Data.Finset.Basic
import TunnelMesh.Vpn.FlowTable

namespace TunnelMesh.Vpn

-- The stack of the gvisor library: the addresses its interface has, whoever
-- claimed them, and the pairs something listens on.
structure NetStack where
  addresses : Finset ℕ
  listening : Finset AddrPort

namespace NetStack

def empty : NetStack := ⟨∅, ∅⟩

variable (net : NetStack)

def addProtocolAddress (address : ℕ) : Option NetStack :=
  if address ∈ net.addresses then none else some { net with addresses := insert address net.addresses }

def removeAddress (address : ℕ) : NetStack := { net with addresses := net.addresses.erase address }

def listenTCP (target : AddrPort) : Option NetStack :=
  if target ∈ net.listening then none else some { net with listening := insert target net.listening }

def closeListener (target : AddrPort) : NetStack :=
  { net with listening := net.listening.erase target }

end NetStack

inductive StackError where
  | closed
  | addressConflict
  | listen (target : AddrPort)
  deriving DecidableEq

-- `vpnStack`. The registry counts the references to the listener of a pair, and
-- `dropped` counts the segments that the stack reports as `stack_error`.
structure VPNStack where
  net : NetStack
  listeners : Dict AddrPort ℕ
  closed : Bool
  dropped : ℕ

namespace VPNStack

def empty : VPNStack := ⟨.empty, ∅, false, 0⟩

variable (s : VPNStack) (target : AddrPort)

def listen (net : NetStack) : VPNStack × Except StackError Unit :=
  match net.listenTCP target with
  | some net => ({ s with net, listeners := s.listeners.insert target 1 }, .ok ())
  | none =>
    ({ s with net := net.removeAddress target.addr, dropped := s.dropped + 1 }, .error (.listen target))

def registerTCP : VPNStack × Except StackError Unit :=
  if s.closed then (s, .error .closed)
  else
    match s.listeners.lookup target with
    | some refs => ({ s with listeners := s.listeners.insert target (refs + 1) }, .ok ())
    | none =>
      match s.net.addProtocolAddress target.addr with
      | none => ({ s with dropped := s.dropped + 1 }, .error .addressConflict)
      | some net => s.listen target net

def closeListenerLocked : VPNStack :=
  { s with net := (s.net.closeListener target).removeAddress target.addr }

def releaseTCP : VPNStack :=
  match s.listeners.lookup target with
  | none => s
  | some refs =>
    if 0 < refs - 1 then { s with listeners := s.listeners.insert target (refs - 1) }
    else closeListenerLocked { s with listeners := s.listeners.erase target } target

inductive Call where
  | register (target : AddrPort)
  | release (target : AddrPort)

def call : Call → VPNStack
  | .register target => (s.registerTCP target).1
  | .release target => s.releaseTCP target

def after (calls : List Call) : VPNStack := calls.foldl call empty

end VPNStack

end TunnelMesh.Vpn

namespace TunnelMesh.Vpn.VPNStack

open NetStack AList

variable {s : VPNStack}

structure Claimed (s : VPNStack) : Prop where
  notClosed : s.closed = false
  addresses : ∀ address, address ∈ s.net.addresses ↔ ∃ target ∈ s.listeners, target.addr = address
  listening : ∀ target, target ∈ s.net.listening ↔ target ∈ s.listeners
  alone : ∀ target ∈ s.listeners, ∀ other ∈ s.listeners, target.addr = other.addr → target = other

def Room (s : VPNStack) (target : AddrPort) : Prop :=
  target ∈ s.listeners ∨ ∀ other ∈ s.listeners, other.addr ≠ target.addr

theorem claimed_empty : empty.Claimed where
  notClosed := rfl
  addresses address := by simp [empty, NetStack.empty]
  listening target := by simp [empty, NetStack.empty]
  alone target h := absurd h (notMem_empty target)

theorem mem_insert_of_mem (h : target ∈ s.listeners) (refs : ℕ) (other : AddrPort) :
    other ∈ s.listeners.insert target refs ↔ other ∈ s.listeners := by
  rw [mem_insert]
  constructor
  · rintro (rfl | hmem)
    · exact h
    · exact hmem
  · exact .inr

theorem Claimed.count (h : s.Claimed) (hmem : target ∈ s.listeners) (refs : ℕ) :
    Claimed { s with listeners := s.listeners.insert target refs } := by
  have hs := mem_insert_of_mem hmem refs
  exact {
    notClosed := h.notClosed
    addresses := fun address => by
      simp only [hs]
      exact h.addresses address
    listening := fun other => by
      simp only [hs]
      exact h.listening other
    alone := fun other ho third ht => by
      rw [hs] at ho ht
      exact h.alone other ho third ht }

section Register

theorem registerTCP_of_mem (h : s.Claimed) (hl : s.listeners.lookup target = some refs) :
    s.registerTCP target = ({ s with listeners := s.listeners.insert target (refs + 1) }, .ok ()) := by
  rw [registerTCP, if_neg (by simp [h.notClosed]), hl]

theorem registerTCP_of_conflict (h : s.Claimed) (hl : s.listeners.lookup target = none)
    (hmem : target.addr ∈ s.net.addresses) :
    s.registerTCP target = ({ s with dropped := s.dropped + 1 }, .error .addressConflict) := by
  rw [registerTCP, if_neg (by simp [h.notClosed]), hl]
  simp [addProtocolAddress, hmem]

theorem registerTCP_of_free (h : s.Claimed) (hl : s.listeners.lookup target = none)
    (hf : target.addr ∉ s.net.addresses) : s.registerTCP target = ({ s with
          net := ⟨insert target.addr s.net.addresses, insert target s.net.listening⟩
          listeners := s.listeners.insert target 1 }, .ok ()) := by
  have hlisten : target ∉ s.net.listening := by rw [h.listening]; exact lookup_eq_none.mp hl
  rw [registerTCP, if_neg (by simp [h.notClosed]), hl]
  simp [addProtocolAddress, hf, listen, listenTCP, hlisten]

theorem mem_addresses_iff (h : s.Claimed) (hl : s.listeners.lookup target = none) :
    target.addr ∈ s.net.addresses ↔ ¬ s.Room target := by
  have ha : target ∉ s.listeners := lookup_eq_none.mp hl
  rw [h.addresses, Room]
  push Not
  exact ⟨fun he => ⟨ha, he⟩, And.right⟩

theorem Claimed.register (h : s.Claimed) (target : AddrPort) : (s.registerTCP target).1.Claimed := by
  cases hl : s.listeners.lookup target with
  | some refs => rw [registerTCP_of_mem h hl]; exact h.count (Dict.mem_of_lookup hl) _
  | none =>
    by_cases hmem : target.addr ∈ s.net.addresses
    · rw [registerTCP_of_conflict h hl hmem]; exact { h with }
    rw [registerTCP_of_free h hl hmem]
    have ho : ∀ other ∈ s.listeners, other.addr ≠ target.addr := by
      intro other ho heq
      exact hmem ((h.addresses _).mpr ⟨other, ho, heq⟩)
    exact {
      notClosed := h.notClosed
      addresses := fun address => by
        simp only [Finset.mem_insert, h.addresses, mem_insert]
        constructor
        · rintro (rfl | ⟨other, hmem, rfl⟩)
          · exact ⟨target, .inl rfl, rfl⟩
          · exact ⟨other, .inr hmem, rfl⟩
        · rintro ⟨other, rfl | hmem, rfl⟩
          · exact .inl rfl
          · exact .inr ⟨other, hmem, rfl⟩
      listening := fun other => by simp only [Finset.mem_insert, h.listening, mem_insert]
      alone := fun first hf second hs heq => by
        rcases (mem_insert _).mp hf with hnew | hold <;>
          rcases (mem_insert _).mp hs with hn | hold'
        · rw [hnew, hn]
        · rw [hnew] at heq; exact absurd heq.symm (ho second hold')
        · rw [hn] at heq; exact absurd heq (ho first hold)
        · exact h.alone first hold second hold' heq }

end Register

theorem Claimed.release (h : s.Claimed) (target : AddrPort) : (s.releaseTCP target).Claimed := by
  rw [releaseTCP]
  cases hl : s.listeners.lookup target with
  | none => exact h
  | some refs =>
    have hmem : target ∈ s.listeners := Dict.mem_of_lookup hl
    dsimp only
    split_ifs
    · exact h.count hmem _
    exact {
      notClosed := h.notClosed
      addresses := fun address => by
        simp only [closeListenerLocked, removeAddress, closeListener, Finset.mem_erase, h.addresses, mem_erase]
        constructor
        · rintro ⟨hne, other, ho, rfl⟩; exact ⟨other, ⟨fun heq => hne (by rw [heq]), ho⟩, rfl⟩
        · rintro ⟨other, ⟨hne, ho⟩, rfl⟩
          exact ⟨fun heq => hne (h.alone other ho target hmem heq), other, ho, rfl⟩
      listening := fun other => by
        simp only [closeListenerLocked, removeAddress, closeListener, Finset.mem_erase, h.listening, mem_erase]
      alone := fun first hf second hs => by
        have hf := (mem_erase.mp hf).2
        have hs := (mem_erase.mp hs).2
        exact h.alone first hf second hs }

theorem claimed_after (calls : List Call) : (after calls).Claimed := by
  have hf : ∀ s : VPNStack, s.Claimed → (calls.foldl call s).Claimed := by
    induction calls with
    | nil => exact fun s h => h
    | cons first rest ih =>
      intro s h
      cases first with
      | register target => exact ih _ (h.register target)
      | release target => exact ih _ (h.release target)
  exact hf empty claimed_empty

-- Whatever was registered and released before, a registration succeeds exactly
-- where no other port holds the address, and is a conflict otherwise.
theorem registerTCP_succeeds_iff (calls : List Call) (target : AddrPort) :
    (((after calls).registerTCP target).2 = .ok () ↔ (after calls).Room target) ∧
      (((after calls).registerTCP target).2 = .error .addressConflict ↔ ¬ (after calls).Room target) := by
  have h := claimed_after calls
  cases hlookup : (after calls).listeners.lookup target with
  | some refs =>
    have hroom : (after calls).Room target := .inl (Dict.mem_of_lookup hlookup)
    simp [registerTCP_of_mem h hlookup, hroom]
  | none =>
    have hiff := mem_addresses_iff h hlookup
    by_cases hmem : target.addr ∈ (after calls).net.addresses
    · simp [registerTCP_of_conflict h hlookup hmem, hiff.mp hmem]
    · have hroom : (after calls).Room target := by by_contra hnone; exact hmem (hiff.mpr hnone)
      simp [registerTCP_of_free h hlookup hmem, hroom]

-- A service of an address keeps a second one from being served, though the
-- registry itself has the address.
theorem second_port_conflicts : (empty.registerTCP ⟨167772161, 80⟩).2 = .ok () ∧
      ((after [.register ⟨167772161, 80⟩]).registerTCP ⟨167772161, 443⟩).2 = .error .addressConflict ∧
      (after [.register ⟨167772161, 80⟩]).net.addresses = {167772161} := by decide +kernel

end TunnelMesh.Vpn.VPNStack
