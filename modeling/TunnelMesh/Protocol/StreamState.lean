import TunnelMesh.Fallible
import TunnelMesh.Protocol.Window

namespace TunnelMesh.Protocol

inductive StreamStatus where
  | idle
  | opened
  | halfClosedLocal
  | halfClosedRemote
  | closed
  | reset
  deriving DecidableEq

inductive StreamError where
  | closed
  | reset
  | windowExhausted
  | invalidTransition
  | sendOverflow
  | receiveOverflow
  deriving DecidableEq

structure StreamState where
  status : StreamStatus
  sendWindow : ℕ
  receiveWindow : ℕ
  deriving DecidableEq

def newStreamState (initialWindow : ℕ) : StreamState :=
  let window := if initialWindow = 0 then 65535 else initialWindow
  ⟨.idle, window, window⟩

namespace StreamState

variable (s : StreamState)

def openLocal : Except StreamError StreamState :=
  if s.status ≠ .idle then .error .invalidTransition else .ok { s with status := .opened }

def live : Except StreamError Unit :=
  if s.status = .reset then .error .reset
  else if s.status = .closed then .error .closed
  else .ok ()

def addSendWindow (n : ℕ) : Except StreamError StreamState := do
  s.live
  if 2 ^ 32 - 1 < s.sendWindow + n then .error .sendOverflow
  else .ok { s with sendWindow := s.sendWindow + n }

def addReceiveWindow (n : ℕ) : Except StreamError StreamState := do
  s.live
  if 2 ^ 32 - 1 < s.receiveWindow + n then .error .receiveOverflow
  else .ok { s with receiveWindow := s.receiveWindow + n }

def consumeSend (n : ℕ) : Except StreamError StreamState :=
  if s.status = .reset then .error .reset
  else if s.status = .closed ∨ s.status = .halfClosedLocal then .error .closed
  else if s.sendWindow < n then .error .windowExhausted
  else .ok { s with sendWindow := s.sendWindow - n }

def handleData (n : ℕ) : Except StreamError StreamState :=
  if s.status = .reset then .error .reset
  else if s.status = .closed ∨ s.status = .halfClosedRemote ∨ s.status = .idle then .error .closed
  else if s.receiveWindow < n then .error .windowExhausted
  else .ok { s with receiveWindow := s.receiveWindow - n }

end StreamState

def openedState (initialWindow : ℕ) : StreamState := { newStreamState initialWindow with status := .opened }

theorem openLocal_newStreamState (initialWindow : ℕ) :
    (newStreamState initialWindow).openLocal = .ok (openedState initialWindow) := rfl

theorem openedState_window (h : initialWindow ≠ 0) : (openedState initialWindow).sendWindow = initialWindow ∧
      (openedState initialWindow).receiveWindow = initialWindow := by
  simp [openedState, newStreamState, h]

namespace StreamState

variable {s : StreamState}

theorem live_of_opened (h : s.status = .opened) : s.live = .ok () := by simp [live, h]

theorem addSendWindow_ok (h : s.addSendWindow n = .ok next) : next = { s with sendWindow := s.sendWindow + n } := by
  obtain ⟨_, _, hadd⟩ := bind_eq_ok h
  split_ifs at hadd
  exact (Except.ok.inj hadd).symm

theorem addSendWindow_of_opened (h : s.status = .opened) (hfits : s.sendWindow + n < 2 ^ 32) :
    s.addSendWindow n = .ok { s with sendWindow := s.sendWindow + n } := by
  have hr : ¬ 2 ^ 32 - 1 < s.sendWindow + n := by omega
  simp only [addSendWindow, live_of_opened h, bind, Except.bind, if_neg hr]

theorem addReceiveWindow_ok (h : s.addReceiveWindow n = .ok next) :
    next = { s with receiveWindow := s.receiveWindow + n } := by
  obtain ⟨_, _, hadd⟩ := bind_eq_ok h
  split_ifs at hadd
  exact (Except.ok.inj hadd).symm

theorem addReceiveWindow_of_opened (h : s.status = .opened) (hfits : s.receiveWindow + n < 2 ^ 32) :
    s.addReceiveWindow n = .ok { s with receiveWindow := s.receiveWindow + n } := by
  have hr : ¬ 2 ^ 32 - 1 < s.receiveWindow + n := by omega
  simp only [addReceiveWindow, live_of_opened h, bind, Except.bind, if_neg hr]

theorem consumeSend_ok (h : s.consumeSend n = .ok next) :
    n ≤ s.sendWindow ∧ next = { s with sendWindow := s.sendWindow - n } := by
  unfold consumeSend at h
  split_ifs at h
  exact ⟨by omega, (Except.ok.inj h).symm⟩

theorem consumeSend_of_opened (h : s.status = .opened) : s.consumeSend n =
      if s.sendWindow < n then .error .windowExhausted else .ok { s with sendWindow := s.sendWindow - n } := by
  simp [consumeSend, h]

theorem handleData_ok (h : s.handleData n = .ok next) :
    n ≤ s.receiveWindow ∧ next = { s with receiveWindow := s.receiveWindow - n } := by
  unfold handleData at h
  split_ifs at h
  exact ⟨by omega, (Except.ok.inj h).symm⟩

end StreamState

end TunnelMesh.Protocol
