import Pulse.Client.Lifecycle

/-!
# CONNECTED sessions

The state of a session says `CONNECTED` when a first frame was handled, or when the
request that joins the rooms again is settled. `ConnectionHistory` keeps what the
session forgets: which sockets opened, and which of them received their first frame.
A socket delivers nothing before it opens.
-/

namespace Pulse

open Transition

namespace SessionLifecycle

variable {l : SessionLifecycle}

theorem handleDisconnectOrError_unconnected (autoReconnect : Bool) (h : l.state ≠ .connected) :
    (l.handleDisconnectOrError autoReconnect).state ≠ .connected := by
  rw [handleDisconnectOrError]
  split
  · exact h
  · simp

theorem connect_unconnected (autoReconnect constructed : Bool) :
    (l.connect autoReconnect constructed).state ≠ .connected := by
  cases constructed with
  | true => simp [connect]
  | false => exact handleDisconnectOrError_unconnected autoReconnect (by simp)

/-- Unless a first frame or a settled request for rooms says so, a session is connected only
if it was, on the same socket. -/
theorem apply_connected {autoReconnect : Bool} {e : LifecycleEvent}
    (acknowledged : e ≠ .acknowledged false) (resubscribed : e ≠ .resubscribed)
    (h : (l.apply autoReconnect e).state = .connected) :
    l.state = .connected ∧ (l.apply autoReconnect e).ws = l.ws ∧
      ((l.apply autoReconnect e).Lost → l.Lost) := by
  cases e with
  | unrelated => exact ⟨h, rfl, id⟩
  | connect constructed => exact absurd h (connect_unconnected autoReconnect constructed)
  | disconnect =>
      simp only [apply, disconnect] at h ⊢
      split at h
      · rename_i hlive
        rw [if_pos hlive]
        let closing : SessionLifecycle := { l with
          isExplicitlyClosed := true, reconnectTimer := false, connectionTimeoutTimer := false }
        refine ⟨(closeSocket_state closing).symm.trans h, closeSocket_ws closing, fun hlost => ?_⟩
        exact Lost.of_closeSocket (l := closing) hlost
      · cases h
  | disconnected => cases h
  | acknowledged rooms =>
      cases rooms with
      | true => cases h
      | false => exact absurd rfl acknowledged
  | resubscribed => exact absurd rfl resubscribed
  | reconnectTimeout constructed =>
      simp only [apply] at h ⊢
      split at h
      · rename_i hclosed
        rw [if_pos hclosed]
        exact ⟨h, rfl, id⟩
      · exact absurd h (connect_unconnected autoReconnect constructed)
  | connectionTimeout =>
      simp only [apply, connectionTimeout] at h ⊢
      split at h
      · exact absurd h (handleDisconnectOrError_unconnected autoReconnect (by simp))
      · rename_i hstate
        rw [if_neg hstate]
        exact ⟨h, rfl, id⟩
  | opened w => cases h
  | closing w => exact ⟨h, rfl, fun hlost => hlost.of_setReadyState (by decide)⟩
  | closed w =>
      simp only [apply, handleClose] at h
      split at h
      · exact absurd h (handleDisconnectOrError_unconnected autoReconnect (by simp))
      · cases h
  | error w =>
      simp only [apply, handleError] at h ⊢
      split at h
      · exact absurd h (handleDisconnectOrError_unconnected autoReconnect (by simp))
      · rename_i hstate
        rw [if_neg hstate]
        exact ⟨h, rfl, fun hlost => hlost.of_setReadyState (by decide)⟩

end SessionLifecycle

structure ConnectionHistory where
  session : PulseClientSession := {}
  opened : List Nat := []
  acknowledged : List Nat := []

namespace ConnectionHistory

/-- The sockets which an event opens. -/
def openedBy : SessionEvent → List Nat
  | .opened w => [w]
  | _ => []

/-- The sockets which receive their first frame with an event. -/
def acknowledgedBy : SessionEvent → List Nat
  | .message w envelope _ => if envelope.type = .sysConnectAck then [w] else []
  | _ => []

/-- Frames come from sockets that opened. -/
def Delivers (h : ConnectionHistory) : SessionEvent → Bool
  | .message w _ _ => decide (w ∈ h.opened)
  | _ => true

def step (o : SessionOptions) (h : ConnectionHistory) (e : SessionEvent) :
    Option ConnectionHistory :=
  if h.Delivers e then
    (h.session.step o e).map fun session =>
      { session
        opened := openedBy e ++ h.opened
        acknowledged := acknowledgedBy e ++ h.acknowledged }
  else none

/-- The current socket opened, received its first frame, and is not closed. -/
def Ready (h : ConnectionHistory) : Prop :=
  ∃ w ∈ h.session.ws, w ∈ h.opened ∧ w ∈ h.acknowledged ∧
    ∃ readyState ∈ h.session.readyState, readyState ≠ .closed

/-- A session which says so is connected. -/
def Faithful (h : ConnectionHistory) : Prop := h.session.state = .connected → h.Ready

/-- A first frame which is not followed by a request for rooms arrives on the current socket,
or the current socket is ready; when a suspended request for rooms goes on, it is ready. -/
def ConnectsReady (h : ConnectionHistory) : SessionEvent → Prop
  | .message w envelope _ =>
      envelope.type = .sysConnectAck → h.session.desiredRooms.size = 0 →
        h.session.ws = some w ∨ h.Ready
  | .resubscribed _ => h.Ready
  | _ => True

instance (h : ConnectionHistory) : Decidable h.Ready :=
  inferInstanceAs (Decidable (∃ w ∈ h.session.ws, _ ∧ _ ∧ ∃ r ∈ h.session.readyState, _))

instance (h : ConnectionHistory) : ∀ e, Decidable (h.ConnectsReady e)
  | .message w envelope _ =>
      inferInstanceAs (Decidable (envelope.type = .sysConnectAck →
        h.session.desiredRooms.size = 0 → h.session.ws = some w ∨ h.Ready))
  | .resubscribed _ => inferInstanceAs (Decidable h.Ready)
  | .connect .. | .sendEnvelope .. | .joinRoom .. | .joinRooms .. | .leaveRoom ..
  | .sendRoomMessage .. | .sendDirectMessage .. | .disconnect | .disconnected
  | .ackTimeout _ | .reconnectTimeout .. | .connectionTimeout _ | .opened _ | .closing _
  | .closed .. | .error .. => isTrue trivial

variable {o : SessionOptions} {h h' : ConnectionHistory} {e : SessionEvent}

/-- The history observes the session. -/
theorem step_spec (hstep : h.step o e = some h') :
    h.Delivers e = true ∧ h.session.step o e = some h'.session ∧
      h'.opened = openedBy e ++ h.opened ∧
        h'.acknowledged = acknowledgedBy e ++ h.acknowledged := by
  simp only [step, Option.ite_none_right_eq_some, Option.map_eq_some_iff] at hstep
  obtain ⟨hdelivers, session, hsession, rfl⟩ := hstep
  exact ⟨hdelivers, hsession, rfl, rfl⟩

theorem ready_iff : h.Ready ↔ ∃ w, h.session.lifecycle.ws = some w ∧ w ∈ h.opened ∧
    w ∈ h.acknowledged ∧ ¬ h.session.lifecycle.Lost := by
  simp only [Ready, SessionLifecycle.Lost, PulseClientSession.lifecycle_readyState, not_forall,
    exists_prop]
  rfl

/-- A ready connection stays ready on the same live socket. -/
theorem Ready.keep (ready : h.Ready) (hstep : h.step o e = some h')
    (same : h'.session.lifecycle.ws = h.session.lifecycle.ws)
    (live : h'.session.lifecycle.Lost → h.session.lifecycle.Lost) : h'.Ready := by
  obtain ⟨-, -, hopenedBy, hacknowledgedBy⟩ := step_spec hstep
  obtain ⟨w, hw, hopened, hack, hlive⟩ := ready_iff.mp ready
  refine ready_iff.mpr ⟨w, same.trans hw, ?_, ?_, fun hlost => hlive (live hlost)⟩
  · rw [hopenedBy]
    exact List.mem_append_right _ hopened
  · rw [hacknowledgedBy]
    exact List.mem_append_right _ hack

/-- A first frame without rooms to join again says that the session is connected. -/
theorem faithful_acknowledged {w : Nat} {envelope : PulseEventEnvelope} {stamp : Stamp}
    (hstep : h.step o (.message w envelope stamp) = some h')
    (hack : envelope.type = .sysConnectAck) (hrooms : h.session.desiredRooms.size = 0) :
    h'.Faithful ↔ h.session.ws = some w ∨ h.Ready := by
  obtain ⟨hdelivers, hsession, hopened, hadded⟩ := step_spec hstep
  have hw : w ∈ h.opened := of_decide_eq_true hdelivers
  rw [acknowledgedBy, if_pos hack] at hadded
  have hnext := PulseClientSession.step_lifecycle hsession
  have hevent : SessionEvent.lifecycle h.session (.message w envelope stamp) =
      .acknowledged false := by
    simp [SessionEvent.lifecycle, hack, hrooms]
  rw [hevent] at hnext
  have hconnected : h'.session.state = .connected := congrArg (·.state) hnext
  have hws : h'.session.lifecycle.ws = h.session.lifecycle.ws := congrArg (·.ws) hnext
  have hsockets : h'.session.lifecycle.readyState = h.session.lifecycle.readyState := by
    rw [hnext]
    rfl
  have hlost : h'.session.lifecycle.Lost ↔ h.session.lifecycle.Lost := by
    rw [SessionLifecycle.Lost, SessionLifecycle.Lost, hsockets]
  constructor
  · intro hfaithful
    obtain ⟨v, hv, hvopened, hvack, hvlive⟩ := ready_iff.mp (hfaithful hconnected)
    rw [hadded] at hvack
    rw [hopened] at hvopened
    rw [hws] at hv
    obtain rfl | hold := List.mem_cons.mp hvack
    · exact Or.inl hv
    · exact Or.inr (ready_iff.mpr ⟨v, hv, hvopened, hold, fun hl => hvlive (hlost.mpr hl)⟩)
  · rintro (hcurrent | hready) -
    · refine ready_iff.mpr ⟨w, hws.trans hcurrent, ?_, ?_, fun hl => ?_⟩
      · rw [hopened]
        exact hw
      · rw [hadded]
        exact List.mem_cons_self
      · -- A socket that delivers a frame is not closed.
        simp only [PulseClientSession.step, Option.ite_none_right_eq_some] at hsession
        obtain ⟨hdelivers, -⟩ := hsession
        have hstill := hlost.mp hl
        simp only [SessionLifecycle.Lost, PulseClientSession.lifecycle_readyState,
          PulseClientSession.readyState, hcurrent, Option.bind_some] at hstill
        simp only [PulseClientSession.socketIs, Option.any_eq_true] at hdelivers
        obtain ⟨socket, hsocket, hready⟩ := hdelivers
        have hclosed := hstill socket.readyState (by rw [hsocket]; rfl)
        rw [hclosed] at hready
        exact absurd hready (by decide)
    · exact hready.keep hstep hws hlost.mp

/-- A settled request for rooms says so too. -/
theorem faithful_resubscribed {i : Nat} (hstep : h.step o (.resubscribed i) = some h') :
    h'.Faithful ↔ h.Ready := by
  obtain ⟨-, hsession, hopened, hadded⟩ := step_spec hstep
  have hnext : h'.session.lifecycle = { h.session.lifecycle with state := .connected } :=
    PulseClientSession.step_lifecycle hsession
  have hconnected : h'.session.state = .connected := congrArg (·.state) hnext
  rw [Faithful, ready_iff, ready_iff, hnext, hopened, hadded]
  constructor
  · exact fun hready => hready hconnected
  · exact fun hready _ => hready

/-- No other event says so. -/
theorem faithful_other (faithful : h.Faithful) (hstep : h.step o e = some h')
    (acknowledged : e.lifecycle h.session ≠ .acknowledged false)
    (resubscribed : e.lifecycle h.session ≠ .resubscribed) : h'.Faithful := by
  obtain ⟨-, hsession, -, -⟩ := step_spec hstep
  have hnext := PulseClientSession.step_lifecycle hsession
  intro hconnected
  have happlied : h'.session.lifecycle.state = .connected := hconnected
  rw [hnext] at happlied
  obtain ⟨hold, hws, hlive⟩ :=
    SessionLifecycle.apply_connected acknowledged resubscribed happlied
  rw [← hnext] at hws hlive
  exact (faithful hold).keep hstep hws hlive

theorem faithful_step (faithful : h.Faithful) (hstep : h.step o e = some h') :
    h'.Faithful ↔ h.ConnectsReady e := by
  cases e with
  | message w envelope stamp =>
      by_cases hsays : envelope.type = .sysConnectAck ∧ h.session.desiredRooms.size = 0
      · rw [faithful_acknowledged hstep hsays.1 hsays.2, ConnectsReady]
        exact ⟨fun hready _ _ => hready, fun hready => hready hsays.1 hsays.2⟩
      · refine iff_of_true (faithful_other faithful hstep ?_ ?_) fun hack hrooms => ?_
        · rw [SessionEvent.lifecycle]
          split
          · rename_i hack
            intro hrooms
            simp only [LifecycleEvent.acknowledged.injEq, decide_eq_false_iff_not, not_lt,
              Nat.le_zero_eq] at hrooms
            exact hsays ⟨hack, hrooms⟩
          · simp
        · rw [SessionEvent.lifecycle]
          split <;> simp
        · exact absurd ⟨hack, hrooms⟩ hsays
  | resubscribed i => exact faithful_resubscribed hstep
  | _ => exact iff_of_true (faithful_other faithful hstep (by simp [SessionEvent.lifecycle])
      (by simp [SessionEvent.lifecycle])) trivial

/-- A session which says that it is connected is connected, precisely in the runs in which it
says so of a ready socket. -/
theorem faithful_iff (o : SessionOptions) (es : List SessionEvent) :
    Always (step o) Faithful {} es ↔ EveryStep (step o) (fun h e _ => h.ConnectsReady e) {} es := by
  refine always_iff_everyStep (I := fun _ => True) (fun _ _ _ _ _ => trivial) ?_ trivial ?_ es
  · intro h e h' _ faithful hstep
    exact faithful_step faithful hstep
  · intro hconnected
    cases hconnected

/-- The request for rooms stays unanswered, since the socket closes behind it. -/
def unansweredRun : List SessionEvent :=
  let stamp (id : String) : Stamp := { eventId := id, correlationId := id, now := 0 }
  let connectAck : PulseEventEnvelope :=
    { eventId := "ack", type := .sysConnectAck, timestamp := .ofInt 0, senderId := "SYSTEM",
      payload := [] }
  [.joinRoom "room" (stamp "join"), .connect true 0, .opened 0,
    .message 0 connectAck (stamp "rooms"), .closed 0 0,
    .ackTimeout 1, .ackTimeout 2, .ackTimeout 3, .ackTimeout 4, .resubscribed 0]

theorem connected_without_socket :
    ¬ ∀ (o : SessionOptions) (es : List SessionEvent), Always (step o) Faithful {} es := by
  intro h
  have hrun : (run (step { userId := "alice" }) {} unansweredRun).any (fun h =>
      decide (h.session.state = .connected) && !decide h.Ready) = true := by
    decide +kernel
  refine not_always_of_run ?_ hrun (h { userId := "alice" } unansweredRun)
  intro h hsays hfaithful
  simp only [Bool.and_eq_true, decide_eq_true_eq, Bool.not_eq_true', decide_eq_false_iff_not]
    at hsays
  exact hsays.2 (hfaithful hsays.1)

end ConnectionHistory

end Pulse
