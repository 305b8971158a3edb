import TunnelMesh.ReadLog
import TunnelMesh.Relay.AgentStream.Theorems

namespace TunnelMesh.Relay.Reading

open Protocol ReadLog Transition

variable {α : Type} (r : Reading α)

def pending : List α := r.reader.hand ++ r.stream.unread

-- An error is published only while no call stands between the buffer it has
-- found empty and the error it is about to look for, unless there still are no
-- bytes.
def Clear : ReadLabel α → Prop
  | .publish => r.reader.inGap → r.stream.unread = []
  | .fail _ => r.reader.inGap → r.stream.unread = []
  | _ => True

instance (r : Reading α) (label : ReadLabel α) : Decidable (Clear r label) := by
  cases label <;> dsimp only [Clear] <;> infer_instance

def AllReturned : Prop := Complete r.results r.accepted.flatten

structure Accounted : Prop where
  log : Conserved r.results r.pending r.accepted.flatten (r.stream.err ≠ none)
  gap : r.reader.inGap → r.stream.err ≠ none → r.stream.unread = []

section Step

variable {r next : Reading α} {stream : AgentRelayStream α}

theorem Accounted.aside {handler : Option (RelayError × Bool)} (h : Accounted r)
    (hu : stream.unread = r.stream.unread) (herr : stream.err = r.stream.err) :
    Accounted { r with stream, handler } := by
  refine ⟨?_, fun hgap hf => ?_⟩
  · have hp : r.reader.hand ++ stream.unread = r.pending := by rw [hu, pending]
    have hk := h.log.kept (fun hne : r.stream.err ≠ none => (herr ▸ hne : stream.err ≠ none))
    rw [← hp] at hk
    exact hk
  · rw [hu]; exact h.gap hgap (fun hn => hf (herr.trans hn))

theorem accounted_published {handler : Option (RelayError × Bool)} (h : Accounted r)
    (hu : stream.unread = r.stream.unread) (herr : stream.err ≠ none)
    (hc : r.reader.inGap → r.stream.unread = []) : Accounted { r with stream, handler } := by
  refine ⟨?_, fun hgap _ => hu.trans (hc hgap)⟩
  have hp : r.reader.hand ++ stream.unread = r.pending := by rw [hu, pending]
  have hk := h.log.kept (fun _ : r.stream.err ≠ none => herr)
  rw [← hp] at hk
  exact hk

theorem accounted_accepted (h : Accounted r) (herr : r.stream.err = none)
    (hs : stream.inbound = { r.stream.inbound with unread := r.stream.unread ++ payload }) :
    Accounted { r with stream, accepted := r.accepted ++ [payload] } := by
  have hn : stream.err = none := (err_of_inbound hs).trans herr
  have hp : r.pending ++ payload = r.reader.hand ++ stream.unread := by
    rw [unread_of_inbound hs, pending, List.append_assoc]
  have hflat : r.accepted.flatten ++ payload = (r.accepted ++ [payload]).flatten := by simp
  refine ⟨?_, fun _ hf => absurd hn hf⟩
  have ha : Conserved r.results (r.pending ++ payload) (r.accepted.flatten ++ payload) (stream.err ≠ none) :=
    h.log.accepts payload (fun hne => hne herr)
  rw [hp, hflat] at ha
  exact ha

theorem accounted_failed (h : Accounted r) (hr : r.reader = .checking size) (herr : r.stream.err = some e) :
    Accounted { r with reader := .idle, results := r.results ++ [([], some e)] } := by
  have hf : r.stream.err ≠ none := by simp [herr]
  have hu : r.stream.unread = [] := h.gap (by rw [hr]; rfl) hf
  have hp : r.pending = [] := by rw [pending, hr, hu]; rfl
  refine ⟨?_, fun hgap => by cases hgap⟩
  have he := h.log.error e hp hf
  rw [hp] at he
  simp only [pending, Reader.hand, hu, List.append_nil]
  exact he

theorem effect_accounted (he : Effect windows r label next) (h : Accounted r) (hc : Clear r label) :
    Accounted next := by
  cases he with
  | call hlabel hs hr hn hsize hgap hrest hresults =>
    have hu := unread_of_inbound hs
    have herr := err_of_inbound hs
    have hp : next.pending = r.pending := by
      rw [pending, pending, Reader.hand_of_bare hr, Reader.hand_of_bare hn, hu]
      rfl
    have hf : r.stream.err ≠ none → next.stream.err ≠ none := fun hne => herr ▸ hne
    refine ⟨?_, fun hn hf => ?_⟩
    · rw [hp, hrest.2.2]
      rcases hresults with hresults | ⟨hresults, -⟩
      · rw [hresults]; exact h.log.kept hf
      · rw [hresults]; exact h.log.returns rfl hf
    · rw [hu]
      rcases hgap hn with hold | hempty
      · exact h.gap hold (fun hnone => hf (herr.trans hnone))
      · exact hempty
  | failed hr herr => exact accounted_failed h hr herr
  | @took _ size hr hu =>
    have hp : r.stream.unread.take size ++ (r.stream.take size).unread = r.pending := by
      rw [unread_of_inbound (r.stream.inbound_take size), pending, hr]
      exact List.take_append_drop size r.stream.unread
    have herr := err_of_inbound (r.stream.inbound_take size)
    refine ⟨?_, fun hgap => by cases hgap⟩
    have hk := h.log.kept (fun hne : r.stream.err ≠ none => (herr ▸ hne : (r.stream.take size).err ≠ none))
    rw [← hp] at hk
    exact hk
  | @released _ bytes stream hr hrelease =>
    have hsame := r.stream.released_inbound hrelease
    have hp : bytes ++ stream.unread = r.pending := by
      rw [unread_of_inbound hsame, pending, hr]
      rfl
    exact ⟨h.log.returns hp (fun hne => err_of_inbound hsame ▸ hne), fun hgap => by cases hgap⟩
  | @flushing _ bytes stream update hr hupdate hrelease =>
    have hsame := r.stream.released_inbound hrelease
    have hp : bytes ++ stream.unread = r.pending := by
      rw [unread_of_inbound hsame, pending, hr]
      rfl
    refine ⟨?_, fun hgap => by cases hgap⟩
    have hk := h.log.kept (fun hne : r.stream.err ≠ none => (err_of_inbound hsame ▸ hne : stream.err ≠ none))
    rw [← hp] at hk
    exact hk
  | @flushed _ bytes update hr =>
    have hp : bytes ++ r.stream.unread = r.pending := by rw [pending, hr]; rfl
    exact ⟨h.log.returns hp id, fun hgap => by cases hgap⟩
  | @lost bytes update hr =>
    have hp : bytes ++ r.stream.unread = r.pending := by rw [pending, hr]; rfl
    exact ⟨h.log.returns hp (fun _ => published_ne_none _ _), fun hgap => by cases hgap⟩
  | ignored hattached => exact h
  | accepted hh hhalf herr hroom hs => exact accounted_accepted h herr hs
  | refused _ hs | aside _ hs => exact h.aside (unread_of_inbound hs) (err_of_inbound hs)
  | halfClosed | reset => exact h.aside rfl rfl
  | publish hh hs =>
    refine accounted_published h (unread_of_inbound hs) ?_ hc
    rw [err_of_inbound hs]
    exact published_ne_none _ _
  | fail hne => exact accounted_published h rfl (published_ne_none _ _) hc

end Step

theorem accounted_opened (window : ℕ) : Accounted (opened window : Reading α) :=
  ⟨Conserved.empty, fun hgap => by cases hgap⟩

theorem allReturned_of_clear (windows : AgentRelayWindowConfig) (window : ℕ) (labels : List (ReadLabel α))
    (ha : Along (step windows) Clear (opened window) labels) :
    Always (step windows) AllReturned (opened window) labels := by
  have hinv := always_of_invariant (fun _ _ _ h hc hs => effect_accounted (step_effect hs) h hc)
      _ labels (accounted_opened window) ha
  exact hinv.mono fun r h => h.log.complete

end TunnelMesh.Relay.Reading
