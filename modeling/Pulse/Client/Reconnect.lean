import Pulse.Client.Lifecycle

/-!
# Reconnecting

A session which reconnects by itself should never be left alone with a closed socket:
a timer is armed for the next attempt, or an attempt is in progress. The handler of
`close` arms the timer if the session was connected at that time. `Watched` carries
the argument: the timer is armed whenever the current socket is closed.
-/

namespace Pulse

open Transition

namespace SessionLifecycle

structure Watched (l : SessionLifecycle) : Prop where
  open' : l.isExplicitlyClosed = false
  quiet : l.disconnecting = 0
  armed : l.Lost → l.reconnectTimer = true

variable {l : SessionLifecycle}

theorem Watched.handleDisconnectOrError (open' : l.isExplicitlyClosed = false)
    (quiet : l.disconnecting = 0) : (l.handleDisconnectOrError true).Watched := by
  have hnext : l.handleDisconnectOrError true =
      { l with state := .reconnectingBackoff, reconnectTimer := true } := by
    simp [SessionLifecycle.handleDisconnectOrError, open']
  rw [hnext]
  exact ⟨open', quiet, fun _ => rfl⟩

theorem watched_connect (l : SessionLifecycle) (quiet : l.disconnecting = 0)
    (constructed : Bool) : (l.connect true constructed).Watched := by
  cases constructed with
  | true =>
      refine ⟨rfl, quiet, fun hlost => ?_⟩
      have hnew : (l.connect true true).readyState = some .connecting := by
        simp [connect, SessionLifecycle.readyState]
      cases hlost .connecting hnew
  | false =>
      exact Watched.handleDisconnectOrError (l := { l with
        isExplicitlyClosed := false, reconnectTimer := false, state := .disconnected }) rfl quiet

theorem Watched.handleClose (h : l.Watched) (w : Nat)
    (watched : l.ws = some w → l.state = .connected ∨ l.reconnectTimer = true) :
    (l.handleClose true w).Watched := by
  rw [SessionLifecycle.handleClose]
  simp only
  split
  · exact Watched.handleDisconnectOrError h.open' h.quiet
  · rename_i hunconnected
    refine ⟨h.open', h.quiet, fun hlost => ?_⟩
    by_cases hw : l.ws = some w
    · obtain hconnected | htimer := watched hw
      · exact absurd (by simp [hconnected, setReadyState, h.open']) hunconnected
      · exact htimer
    · apply h.armed
      have hsame := setReadyState_readyState l w .closed
      rw [if_neg hw] at hsame
      intro r hr
      exact hlost r (hsame.trans hr)

theorem Watched.apply (h : l.Watched) (e : LifecycleEvent)
    (stays : e ≠ .disconnect ∧ e ≠ .disconnected)
    (watched : ∀ w, e = .closed w → l.ws = some w →
      l.state = .connected ∨ l.reconnectTimer = true) :
    (l.apply true e).Watched := by
  cases e with
  | unrelated => exact h
  | connect constructed => exact watched_connect l h.quiet constructed
  | disconnect => exact absurd rfl stays.1
  | disconnected => exact absurd rfl stays.2
  | acknowledged rooms => exact ⟨h.open', h.quiet, h.armed⟩
  | resubscribed => exact ⟨h.open', h.quiet, h.armed⟩
  | reconnectTimeout constructed =>
      simp only [SessionLifecycle.apply, h.open', Bool.false_eq_true, if_false]
      exact watched_connect _ h.quiet constructed
  | connectionTimeout =>
      simp only [SessionLifecycle.apply, connectionTimeout]
      split
      · refine Watched.handleDisconnectOrError ?_ ?_
        · exact (closeSocket_isExplicitlyClosed _).trans h.open'
        · exact (closeSocket_disconnecting _).trans h.quiet
      · exact ⟨h.open', h.quiet, h.armed⟩
  | opened w =>
      refine ⟨h.open', h.quiet, fun hlost => h.armed ?_⟩
      have hsocket : (l.setReadyState w .open).Lost := hlost
      exact hsocket.of_setReadyState (by decide)
  | closing w =>
      exact ⟨h.open', h.quiet, fun hlost => h.armed (hlost.of_setReadyState (by decide))⟩
  | closed w => exact h.handleClose w (watched w rfl)
  | error w =>
      simp only [SessionLifecycle.apply, handleError]
      split
      · exact Watched.handleDisconnectOrError h.open' h.quiet
      · exact ⟨h.open', h.quiet, fun hlost => h.armed (hlost.of_setReadyState (by decide))⟩

end SessionLifecycle

namespace PulseClientSession

/-- The session as long as its user does not disconnect it. -/
def stepWithoutDisconnect (o : SessionOptions) (s : PulseClientSession) :
    SessionEvent → Option PulseClientSession
  | .disconnect => none
  | e => s.step o e

/-- A session on which neither `connect` nor `disconnect` was called. -/
def Unconnected (s : PulseClientSession) : Prop := s.lifecycle = {}

def ConnectInProgress (s : PulseClientSession) : Prop :=
  s.connectionTimeoutTimer = true ∨ s.state = .connecting ∨ s.state = .authenticating

/-- With its current socket closed, or without one, the session is about to connect. -/
def NeverStuck (s : PulseClientSession) : Prop :=
  (∀ readyState ∈ s.readyState, readyState = .closed) →
    s.reconnectTimer = true ∨ s.ConnectInProgress

/-- When its current socket closes, the session is connected or the timer is armed already. -/
def ClosesWatched (s : PulseClientSession) : SessionEvent → Prop
  | .closed w _ => s.ws = some w → s.state = .connected ∨ s.reconnectTimer = true
  | _ => True

instance (s : PulseClientSession) : ∀ e, Decidable (s.ClosesWatched e)
  | .closed w _ =>
      inferInstanceAs (Decidable (s.ws = some w → s.state = .connected ∨ s.reconnectTimer = true))
  | .connect .. | .sendEnvelope .. | .joinRoom .. | .joinRooms .. | .leaveRoom ..
  | .sendRoomMessage .. | .sendDirectMessage .. | .disconnect | .disconnected | .resubscribed _
  | .ackTimeout _ | .reconnectTimeout .. | .connectionTimeout _ | .opened _ | .message ..
  | .closing _ | .error .. => isTrue trivial

variable {o : SessionOptions} {s t : PulseClientSession}

theorem step_of_stepWithoutDisconnect {e : SessionEvent}
    (h : s.stepWithoutDisconnect o e = some t) : s.step o e = some t ∧ e ≠ .disconnect := by
  cases e with
  | disconnect => cases h
  | _ => exact ⟨h, by simp⟩

/-- Requests before the first `connect` do not end it. -/
theorem Unconnected.request (h : s.Unconnected) {e : SessionEvent}
    (request : e.lifecycle s = .unrelated) (hstep : s.step o e = some t) : t.Unconnected := by
  rw [Unconnected, step_lifecycle hstep, request]
  exact h

theorem watched_neverStuck (h : s.lifecycle.Watched) : s.NeverStuck := by
  intro hclosed
  refine Or.inl (h.armed ?_)
  rw [SessionLifecycle.Lost, lifecycle_readyState]
  exact hclosed

theorem lifecycle_eq_disconnect {e : SessionEvent} (h : e.lifecycle s = .disconnect) :
    e = .disconnect := by
  cases e with
  | disconnect => rfl
  | message w envelope stamp =>
      rw [SessionEvent.lifecycle] at h
      split at h <;> cases h
  | _ => cases h

theorem lifecycle_eq_disconnected {e : SessionEvent} (h : e.lifecycle s = .disconnected) :
    e = .disconnected := by
  cases e with
  | disconnected => rfl
  | message w envelope stamp =>
      rw [SessionEvent.lifecycle] at h
      split at h <;> cases h
  | _ => cases h

theorem lifecycle_eq_closed {e : SessionEvent} {w : Nat} (h : e.lifecycle s = .closed w) :
    ∃ random, e = .closed w random := by
  cases e with
  | closed w' random =>
      cases h
      exact ⟨random, rfl⟩
  | message w' envelope stamp =>
      rw [SessionEvent.lifecycle] at h
      split at h <;> cases h
  | _ => cases h

theorem watched_step (hauto : o.autoReconnect = true) {e : SessionEvent}
    (h : s.lifecycle.Watched) (hstep : s.stepWithoutDisconnect o e = some t)
    (watched : s.ClosesWatched e) : t.lifecycle.Watched := by
  obtain ⟨hstep, hstays⟩ := step_of_stepWithoutDisconnect hstep
  rw [step_lifecycle hstep, hauto]
  refine h.apply _ ⟨fun he => hstays (lifecycle_eq_disconnect he), fun he => ?_⟩ fun w he hw => ?_
  · cases lifecycle_eq_disconnected he
    have hquiet : s.disconnecting = 0 := h.quiet
    simp [step, hquiet] at hstep
  · obtain ⟨random, rfl⟩ := lifecycle_eq_closed he
    exact watched hw

/-- A session which loses its socket while it is not connected is stuck. -/
theorem closesWatched_of_neverStuck {e : SessionEvent}
    (hstep : s.stepWithoutDisconnect o e = some t) (h : t.NeverStuck) : s.ClosesWatched e := by
  cases e with
  | closed w random =>
      intro hw
      by_cases hconnected : s.state = .connected
      · exact Or.inl hconnected
      · obtain ⟨hstep, -⟩ := step_of_stepWithoutDisconnect hstep
        simp only [step, Option.ite_none_right_eq_some, Option.some.injEq] at hstep
        obtain ⟨-, rfl⟩ := hstep
        have hnext : s.handleClose o w random =
            { (s.setReadyState w .closed).setState .disconnected with
              connectionTimeoutTimer := false } := by
          simp [handleClose, hconnected]
        have hclosed : ∀ readyState ∈ (s.handleClose o w random).readyState,
            readyState = .closed := by
          intro readyState hready
          simp only [hnext, setState, setReadyState, PulseClientSession.readyState, hw,
            Option.bind_some, List.getElem?_modify_eq] at hready
          obtain ⟨socket, hsocket, rfl⟩ := Option.map_eq_some_iff.mp hready
          obtain ⟨_, -, rfl⟩ := Option.map_eq_some_iff.mp hsocket
          rfl
        obtain htimer | hprogress := h hclosed
        · rw [hnext] at htimer
          exact Or.inr htimer
        · rw [hnext] at hprogress
          obtain htimeout | hstate | hstate := hprogress
          · cases htimeout
          · cases hstate
          · cases hstate
  | _ => trivial

/-- A session that reconnects by itself is never stuck precisely if its current socket is only
lost while it is connected, or while the timer is armed. -/
theorem neverStuck_iff (hauto : o.autoReconnect = true) (fresh : s.Unconnected)
    (constructed : Bool) (random : ℚ) (es : List SessionEvent) :
    Always (stepWithoutDisconnect o) NeverStuck (s.connect o constructed random) es ↔
      EveryStep (stepWithoutDisconnect o) (fun s e _ => s.ClosesWatched e)
        (s.connect o constructed random) es := by
  have hinitial : (s.connect o constructed random).lifecycle.Watched := by
    rw [connect_lifecycle, hauto]
    refine SessionLifecycle.watched_connect _ ?_ constructed
    rw [fresh]
  refine always_iff_everyStep_of_good (G := fun s => s.lifecycle.Watched)
    (fun _ hs => watched_neverStuck hs)
    (fun _ _ _ hs hstep hwatched => watched_step hauto hs hstep hwatched)
    (fun _ _ _ _ hstep hstuck => closesWatched_of_neverStuck hstep hstuck) hinitial es

def reconnectOptions : SessionOptions := { userId := "alice" }

/-- The first frame of a connection. -/
def connectAck : PulseEventEnvelope :=
  { eventId := "ack", type := .sysConnectAck, timestamp := .ofInt 0, senderId := "SYSTEM",
    payload := [] }

/-- The session loses its connection, and the next attempt fails before it gets a new one. -/
def lossyRun : List SessionEvent :=
  let stamp : Stamp := { eventId := "unused", correlationId := "unused", now := 0 }
  [.opened 0, .message 0 connectAck stamp, .closed 0 0, .reconnectTimeout false 0,
    .reconnectTimeout true 0, .error 1 0, .closed 1 0, .reconnectTimeout true 0, .opened 2,
    .message 2 connectAck stamp]

theorem neverStuck_lossy :
    Always (stepWithoutDisconnect reconnectOptions) NeverStuck
      (({} : PulseClientSession).connect reconnectOptions true 0) lossyRun :=
  (neverStuck_iff (o := reconnectOptions) (s := {}) rfl rfl true 0 lossyRun).mpr
    (by decide +kernel)

/-- The server closes the socket before the handshake is complete, and nobody tries again. -/
theorem stuck_during_handshake :
    ¬ ∀ (o : SessionOptions) (s : PulseClientSession) (constructed : Bool) (random : ℚ)
      (es : List SessionEvent), o.autoReconnect = true → s.Unconnected →
        Always (stepWithoutDisconnect o) NeverStuck (s.connect o constructed random) es := by
  intro h
  have hrun : (run (stepWithoutDisconnect reconnectOptions)
      (({} : PulseClientSession).connect reconnectOptions true 0) [.opened 0, .closed 0 0]).any
        (fun s => decide (s.readyState = some .closed) && !s.reconnectTimer &&
          !s.connectionTimeoutTimer && decide (s.state = .disconnected)) = true := by
    decide +kernel
  refine not_always_of_run ?_ hrun (h reconnectOptions {} true 0 [.opened 0, .closed 0 0] rfl rfl)
  intro s hs hstuck
  simp only [Bool.and_eq_true, decide_eq_true_eq, Bool.not_eq_true'] at hs
  obtain ⟨⟨⟨hclosed, htimer⟩, htimeout⟩, hstate⟩ := hs
  obtain harmed | hprogress := hstuck fun readyState hready => by
    rw [hclosed] at hready
    exact (Option.some.inj hready).symm
  · exact absurd (harmed.symm.trans htimer) (by decide)
  · rw [ConnectInProgress, htimeout, hstate] at hprogress
    simp at hprogress

end PulseClientSession

end Pulse
