import Mathlib.Algebra.GroupWithZero.Nat
import Mathlib.Data.Nat.Basic

namespace TunnelMesh.Protocol

def maxPayload : ℕ := 2 ^ 20

def maxStreamFrame : ℕ := 32768

def defaultServerReceiveWindow : ℕ := 16 * maxStreamFrame

def defaultAgentReceiveWindow : ℕ := 262144

def defaultWindowUpdateThreshold : ℕ := 131072

def minRefillableWindow : ℕ := defaultWindowUpdateThreshold + maxStreamFrame

def uint32 (n : ℕ) : ℕ := n % 2 ^ 32

def shouldFlushWindowUpdate (remaining unacked threshold : ℕ) : Bool :=
  if unacked = 0 then false else decide (threshold ≤ unacked ∨ remaining < maxStreamFrame)

def negotiateReceiveWindow (advertised : ℕ) : ℕ :=
  if advertised < minRefillableWindow ∨ defaultServerReceiveWindow < advertised then defaultServerReceiveWindow
  else advertised

structure AgentRelayWindowConfig where
  advertisedWindow : ℕ
  updateThreshold : ℕ

variable (c : AgentRelayWindowConfig)

def AgentRelayWindowConfig.advertised : ℕ :=
  if c.advertisedWindow < minRefillableWindow ∨ defaultServerReceiveWindow < c.advertisedWindow then
    defaultServerReceiveWindow
  else c.advertisedWindow

def AgentRelayWindowConfig.windowFor (requested : ℕ) : ℕ :=
  if negotiateReceiveWindow requested < c.advertised then negotiateReceiveWindow requested else c.advertised

def AgentRelayWindowConfig.thresholdFor (window : ℕ) : ℕ :=
  if c.updateThreshold = 0 ∨ window < c.updateThreshold ∨ window - c.updateThreshold < maxStreamFrame then
    defaultWindowUpdateThreshold
  else c.updateThreshold

theorem uint32_of_lt (h : n < 2 ^ 32) : uint32 n = n := Nat.mod_eq_of_lt h

theorem shouldFlushWindowUpdate_iff (remaining unacked threshold : ℕ) :
    shouldFlushWindowUpdate remaining unacked threshold ↔
      unacked ≠ 0 ∧ (threshold ≤ unacked ∨ remaining < maxStreamFrame) := by
  unfold shouldFlushWindowUpdate
  by_cases hz : unacked = 0
  · simp [hz]
  · simp [hz]

theorem negotiateReceiveWindow_bounds (advertised : ℕ) : minRefillableWindow ≤ negotiateReceiveWindow advertised ∧
      negotiateReceiveWindow advertised ≤ defaultServerReceiveWindow := by
  have hmin : minRefillableWindow ≤ defaultServerReceiveWindow := by decide
  unfold negotiateReceiveWindow
  split <;> omega

namespace AgentRelayWindowConfig

variable (c : AgentRelayWindowConfig)

theorem advertised_bounds : minRefillableWindow ≤ c.advertised ∧ c.advertised ≤ defaultServerReceiveWindow := by
  have hmin : minRefillableWindow ≤ defaultServerReceiveWindow := by decide
  unfold advertised
  split <;> omega

theorem windowFor_bounds (requested : ℕ) :
    minRefillableWindow ≤ c.windowFor requested ∧ c.windowFor requested ≤ defaultServerReceiveWindow := by
  have hpeer := negotiateReceiveWindow_bounds requested
  have hown := c.advertised_bounds
  unfold windowFor
  split <;> omega

theorem thresholdFor_bounds (h : minRefillableWindow ≤ window) :
    0 < c.thresholdFor window ∧ c.thresholdFor window + maxStreamFrame ≤ window := by
  have hdefault : 0 < defaultWindowUpdateThreshold := by decide
  unfold minRefillableWindow at h
  unfold thresholdFor
  split <;> omega

theorem thresholdFor_windowFor (requested : ℕ) : 0 < c.thresholdFor (c.windowFor requested) ∧
      c.thresholdFor (c.windowFor requested) + maxStreamFrame ≤ c.windowFor requested :=
  c.thresholdFor_bounds (c.windowFor_bounds requested).1

end AgentRelayWindowConfig

end TunnelMesh.Protocol
