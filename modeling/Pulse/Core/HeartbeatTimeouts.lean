import Pulse.Core.HeartbeatWatch

/-!
# Heartbeat timeouts

A connection is reaped only after a real silence; while the timers are punctual, a
silent connection is closed and terminated in time, and one that answers its pings
is kept. Each is an invariant of the watch over the connection.
-/

theorem Js.Number.eq_natCast_of_ofInt {z : Int} {n : Nat} (h : ofInt z = ofInt n) : z = n := by
  have hsign : decide (z < 0) = decide ((n : Int) < 0) := by
    simp only [ofInt, decimal.injEq] at h
    exact h.1
  rw [decide_eq_decide] at hsign
  obtain ⟨k, rfl⟩ := Int.eq_ofNat_of_zero_le (show 0 ≤ z by omega)
  have hnat := congrArg toNat? h
  rw [toNat?_ofInt, toNat?_ofInt, Option.some.injEq] at hnat
  rw [hnat]

namespace Pulse

open Collections Js Transition

namespace Watch

/-- Heartbeats have closed or terminated the connection. -/
def Reaped (w : Watch) : Prop :=
  w.isHeartbeatTimedOut = true ∨ w.terminated = true ∨
    ∃ reason, w.socket.closeFrame = some (1002, reason)

/-- What holds of every watch. -/
structure Sound (w : Watch) : Prop where
  seen : w.lastSeenAt ≤ w.now
  live : w.socket.readyState ≠ .connecting
  known : w.registered ≠ none → w.known = true
  running : w.isRunning = w.timer.isSome
  reaped : w.Reaped → w.isHeartbeatTimedOut = true
  fallbacks : w.fallbacks ≠ [] → w.isHeartbeatTimedOut = true
  flagged : w.isHeartbeatTimedOut = true → w.known = true ∧ 2 ≤ w.socket.readyState.rank

variable {o : HeartbeatOptions} {w w' : Watch} {eventId : EventId} {maxBufferedAmountBytes : Nat}

/-- Terminating a connection which is flagged. -/
theorem Sound.terminate (h : w.Sound) (flag : w.isHeartbeatTimedOut = true) :
    w.terminate.Sound := by
  rw [Watch.terminate]
  split
  · exact h
  · exact ⟨h.seen, ReadyState.noConfusion, h.known, h.running, fun _ => flag, fun _ => flag,
      fun _ => ⟨(h.flagged flag).1, le_rfl⟩⟩

/-- Using the socket of a connection. -/
theorem Sound.serve (h : w.Sound) {socket : Socket} (follows : w.socket.Follows socket) :
    ({ w with socket } : Watch).Sound where
  seen := h.seen
  live := follows.live h.live
  known := h.known
  running := h.running
  reaped := by
    rintro (hflag | hterminated | ⟨reason, hframe⟩)
    · exact hflag
    · exact h.reaped (Or.inr (Or.inl hterminated))
    · obtain hsame | ⟨reason', hslow⟩ := follows.closeFrame
      · exact h.reaped (Or.inr (Or.inr ⟨reason, hsame ▸ hframe⟩))
      · have hframe' : socket.closeFrame = some (1002, reason) := hframe
        rw [hslow] at hframe'
        simp at hframe'
  fallbacks := h.fallbacks
  flagged := fun hflag => ⟨(h.flagged hflag).1, (h.flagged hflag).2.trans follows.rank⟩

theorem Sound.check (h : w.Sound) (registered : w.registered ≠ none) :
    (w.check o eventId maxBufferedAmountBytes).Sound := by
  rw [Watch.check]
  split_ifs
  · exact h.terminate ‹_›
  · have hrank := w.socket.rank_close 1002 "Heartbeat timeout: connection unresponsive"
    refine ⟨h.seen, ?_, h.known, h.running, fun _ => rfl, fun _ => rfl,
      fun _ => ⟨h.known registered, hrank⟩⟩
    intro hconnecting
    rw [hconnecting] at hrank
    exact absurd hrank (by decide)
  · exact h.serve (Socket.send_follows _ _ _)
  · exact h

theorem Sound.fireFallback (h : w.Sound) (flag : w.isHeartbeatTimedOut = true) :
    w.fireFallback.Sound := by
  rw [Watch.fireFallback]
  split
  · exact h.terminate flag
  · exact h

theorem Sound.step (h : w.Sound) (hstep : Step o w w') : w'.Sound := by
  cases hstep with
  | elapse ms =>
      exact ⟨h.seen.trans (Int.le_add_of_nonneg_right (Int.natCast_nonneg ms)), h.live, h.known,
        h.running, h.reaped, h.fallbacks, h.flagged⟩
  | serve follows => exact h.serve follows
  | hear registered follows =>
      have hserve := h.serve follows
      exact ⟨le_rfl, hserve.live, hserve.known, hserve.running, hserve.reaped, hserve.fallbacks,
        hserve.flagged⟩
  | connect connection fresh follows =>
      have hunflagged : w.isHeartbeatTimedOut ≠ true := fun hflag =>
        absurd (fresh.symm.trans (h.flagged hflag).1) (by decide)
      refine ⟨le_rfl, follows.live (by decide), fun _ => rfl, h.running, ?_, ?_,
        fun hflag => absurd hflag Bool.false_ne_true⟩
      · rintro (hflag | hterminated | ⟨reason, hframe⟩)
        · exact hflag
        · exact absurd hterminated Bool.false_ne_true
        · have hframe' := hframe
          obtain hsame | ⟨reason', hslow⟩ := follows.closeFrame
          · cases hsame.symm.trans hframe'
          · rw [hslow] at hframe'
            simp at hframe'
      · exact fun hpending => absurd (h.fallbacks hpending) hunflagged
  | close follows =>
      have hserve := h.serve follows
      exact ⟨hserve.seen, hserve.live, fun h => absurd rfl h, hserve.running, hserve.reaped,
        hserve.fallbacks, hserve.flagged⟩
  | @sweep due timer isDue connection registered eventId =>
      have hcheck : (w.check o eventId connection.maxBufferedAmountBytes).Sound :=
        h.check (by simp [registered])
      refine ⟨hcheck.seen, hcheck.live, hcheck.known, ?_, hcheck.reaped, hcheck.fallbacks,
        hcheck.flagged⟩
      rw [hcheck.running, check_timer, timer]
      rfl
  | unregisteredSweep timer isDue registered =>
      exact ⟨h.seen, h.live, h.known, by simp [h.running, timer], h.reaped, h.fallbacks, h.flagged⟩
  | fallback isDue fired rest =>
      have hflag := h.fallbacks (List.ne_nil_of_mem fired)
      refine Sound.fireFallback ?_ hflag
      exact ⟨h.seen, h.live, h.known, h.running, h.reaped, fun _ => hflag, h.flagged⟩
  | start stopped =>
      exact ⟨h.seen, h.live, h.known, rfl, h.reaped, h.fallbacks, h.flagged⟩
  | stop => exact ⟨h.seen, h.live, h.known, rfl, h.reaped, h.fallbacks, h.flagged⟩

/-- A connection is flagged by a sweep that finds it silent for too long. -/
theorem Step.flags (hstep : Step o w w') (before : w.isHeartbeatTimedOut = false)
    (after : w'.isHeartbeatTimedOut = true) :
    w.registered ≠ none ∧ o.thresholdMs < w.now - w.lastSeenAt := by
  cases hstep with
  | sweep timer isDue registered eventId =>
      refine ⟨by simp [registered], ?_⟩
      by_contra hsilence
      simp only [check, if_neg hsilence] at after
      split at after
      · cases before.symm.trans after
      · cases before.symm.trans after
  | connect connection fresh follows => cases after
  | fallback isDue fired rest =>
      simp only [fireFallback, terminate] at after
      split_ifs at after <;> cases before.symm.trans after
  | _ => cases before.symm.trans after

/-- The timers run, and none is late by more than `lag`. -/
structure Punctual (lag : Nat) (w : Watch) : Prop where
  running : w.isRunning = true
  sweep : ∀ due, w.timer = some due → w.now ≤ due + lag
  fallback : ∀ due ∈ w.fallbacks, w.now ≤ due + lag

/-- How long after it was last seen a silent connection is flagged at the latest. -/
def flagDelay (o : HeartbeatOptions) (lag : Nat) : Nat := o.thresholdMs + o.sweepDelay + lag

/-- No deadline was missed yet. -/
structure InTime (o : HeartbeatOptions) (lag : Nat) (w : Watch) : Prop where
  armed : ∃ due, w.timer = some due ∧ due ≤ w.now + o.sweepDelay ∧
    (w.registered ≠ none → w.isHeartbeatTimedOut = false →
      due ≤ w.lastSeenAt + o.thresholdMs + o.sweepDelay)
  pending : w.registered ≠ none → w.isHeartbeatTimedOut = true →
    w.terminated = true ∨ w.socket.readyState = .closed ∨
      ∃ due ∈ w.fallbacks, due ≤ w.lastSeenAt + flagDelay o lag + fallbackDelay

/-- A fallback timer or a further sweep terminates, unless the socket has closed. -/
theorem terminate_closed (w : Watch) :
    w.terminate.terminated = true ∨ w.terminate.socket.readyState = .closed := by
  rw [terminate]
  split
  · exact Or.inr ‹_›
  · exact Or.inl rfl

variable {lag : Nat}

theorem InTime.sweep (h : w.InTime o lag) (punctual : w.Punctual lag)
    (registered : w.registered ≠ none) (eventId : EventId) (maxBufferedAmountBytes : Nat) :
    ({ w.check o eventId maxBufferedAmountBytes with
      timer := some (w.now + o.sweepDelay) } : Watch).InTime o lag := by
  obtain ⟨due, htimer, -, hdeadline⟩ := h.armed
  have hnow := punctual.sweep due htimer
  by_cases hdead : w.now - w.lastSeenAt > o.thresholdMs
  · by_cases hflag : w.isHeartbeatTimedOut = true
    · rw [check, if_pos hdead, if_pos hflag]
      refine ⟨⟨_, rfl, by simp, fun _ hunflagged => ?_⟩, fun _ _ => ?_⟩
      · simp only [terminate_isHeartbeatTimedOut] at hunflagged
        exact absurd (hflag.symm.trans hunflagged) (by decide)
      · obtain hterminated | hclosed := w.terminate_closed
        · exact Or.inl hterminated
        · exact Or.inr (Or.inl hclosed)
    · rw [check, if_pos hdead, if_neg hflag]
      have hlate := hdeadline registered (eq_false_of_ne_true hflag)
      refine ⟨⟨_, rfl, le_rfl, fun _ hunflagged => absurd hunflagged.symm Bool.false_ne_true⟩,
        fun _ _ => ?_⟩
      refine Or.inr (Or.inr ⟨_, List.mem_append_right _ (List.mem_singleton.mpr rfl), ?_⟩)
      simp only [flagDelay]
      omega
  · have hserve : ∀ socket, w.socket.Follows socket →
        ({ w with socket, timer := some (w.now + o.sweepDelay) } : Watch).InTime o lag := by
      intro socket follows
      refine ⟨⟨_, rfl, le_rfl, fun _ _ => ?_⟩, fun hregistered flag => ?_⟩
      · simp only
        omega
      · obtain hterminated | hclosed | hpending := h.pending hregistered flag
        · exact Or.inl hterminated
        · exact Or.inr (Or.inl (follows.closed hclosed))
        · exact Or.inr (Or.inr hpending)
    rw [check, if_neg hdead]
    split
    · exact hserve _ (Socket.send_follows _ _ _)
    · exact hserve _ (.refl _)

theorem InTime.fallback (h : w.InTime o lag) (sound : w.Sound) {due : Int} {fallbacks : List Int}
    (fired : due ∈ w.fallbacks) :
    ({ w with fallbacks } : Watch).fireFallback.InTime o lag := by
  have hflag := sound.fallbacks (List.ne_nil_of_mem fired)
  obtain ⟨next, htimer, hsoon, -⟩ := h.armed
  rw [fireFallback]
  split
  · refine ⟨⟨next, ?_, ?_, fun _ hunflagged => ?_⟩, fun _ _ => ?_⟩
    · rw [terminate_timer]
      exact htimer
    · rw [terminate_now]
      exact hsoon
    · rw [terminate_isHeartbeatTimedOut] at hunflagged
      exact absurd (hflag.symm.trans hunflagged) (by decide)
    · obtain hterminated | hclosed := terminate_closed { w with fallbacks }
      · exact Or.inl hterminated
      · exact Or.inr (Or.inl hclosed)
  · -- Only a closed socket is neither open nor closing.
    rename_i hstate
    refine ⟨⟨next, htimer, hsoon, fun _ hunflagged => ?_⟩, fun _ _ => Or.inr (Or.inl ?_)⟩
    · exact absurd (hflag.symm.trans hunflagged) (by decide)
    · have hlive := sound.live
      cases hs : w.socket.readyState <;> simp_all

theorem InTime.step (h : w.InTime o lag) (sound : w.Sound) (punctual : w.Punctual lag)
    (running : w'.isRunning = true) (hstep : Step o w w') : w'.InTime o lag := by
  obtain ⟨due, htimer, hsoon, hdeadline⟩ := h.armed
  cases hstep with
  | elapse ms =>
      refine ⟨⟨due, htimer, ?_, hdeadline⟩, h.pending⟩
      simp only
      omega
  | serve follows =>
      refine ⟨h.armed, fun registered flag => ?_⟩
      obtain hterminated | hclosed | hpending := h.pending registered flag
      · exact Or.inl hterminated
      · exact Or.inr (Or.inl (follows.closed hclosed))
      · exact Or.inr (Or.inr hpending)
  | hear registered follows =>
      have hseen := sound.seen
      refine ⟨⟨due, htimer, hsoon, fun _ _ => ?_⟩, fun hregistered flag => ?_⟩
      · simp only
        omega
      · obtain hterminated | hclosed | ⟨d, hd, hlate⟩ := h.pending hregistered flag
        · exact Or.inl hterminated
        · exact Or.inr (Or.inl (follows.closed hclosed))
        · refine Or.inr (Or.inr ⟨d, hd, ?_⟩)
          simp only
          omega
  | connect connection fresh follows =>
      refine ⟨⟨due, htimer, hsoon, fun _ _ => ?_⟩, fun _ flag => absurd flag Bool.false_ne_true⟩
      simp only
      omega
  | close follows => exact ⟨⟨due, htimer, hsoon, fun hnone => absurd rfl hnone⟩,
      fun hnone => absurd rfl hnone⟩
  | sweep timer isDue registered eventId =>
      exact h.sweep punctual (by simp [registered]) eventId _
  | unregisteredSweep timer isDue registered =>
      exact ⟨⟨_, rfl, le_rfl, fun hnone => absurd registered hnone⟩,
        fun hnone => absurd registered hnone⟩
  | fallback isDue fired rest => exact h.fallback sound fired
  | start stopped => exact absurd (stopped.symm.trans punctual.running) Bool.false_ne_true
  | stop => cases running

/-- A ping was sent at this time. -/
def PingedAt (socket : Socket) (time : Int) : Prop :=
  ∃ eventId, WatchedNode.pingEnvelope eventId time ∈ socket.sent

theorem PingedAt.follows {s s' : Socket} {time : Int} (h : PingedAt s time)
    (follows : s.Follows s') : PingedAt s' time :=
  h.imp fun _ hsent => follows.sent.subset hsent

/-- The peer is heard within `answerMs` of each ping. -/
def Answers (answerMs : Nat) (w : Watch) : Prop :=
  ∀ time, PingedAt w.socket time → w.now ≤ time + answerMs ∨ time ≤ w.lastSeenAt

/-- Before the next sweep the connection is not quiet for long, or it has been pinged since
it was last heard. -/
def Probed (o : HeartbeatOptions) (lag : Nat) (w : Watch) : Prop :=
  w.registered ≠ none → w.socket.readyState = .open → ∀ due, w.timer = some due →
    due ≤ w.lastSeenAt + o.intervalMs + o.sweepDelay ∨
      ∃ time, PingedAt w.socket time ∧ w.lastSeenAt < time ∧
        time ≤ w.lastSeenAt + o.intervalMs + o.sweepDelay + lag

/-- A socket that is still open behind a ping has taken it. -/
theorem send_open {s : Socket} {envelope : PulseEventEnvelope} (accepting : s.sendFails = false)
    (after : (s.send maxBufferedAmountBytes envelope).readyState = .open) :
    envelope ∈ (s.send maxBufferedAmountBytes envelope).sent := by
  rw [Socket.send] at after ⊢
  split_ifs at after ⊢ with hclosed hslow
  · exact absurd after hclosed
  · have hrank := s.rank_close 1008 "Policy Violation: Buffer overflow / slow consumer"
    rw [after] at hrank
    exact absurd hrank (by decide)
  · rename_i hfails
    exact absurd (accepting.symm.trans hfails) Bool.false_ne_true
  · exact List.mem_append_right _ (List.mem_singleton.mpr rfl)

theorem terminate_not_open (w : Watch) : w.terminate.socket.readyState ≠ .open := by
  rw [terminate]
  split
  · rename_i hclosed
    rw [hclosed]
    exact ReadyState.noConfusion
  · exact ReadyState.noConfusion

theorem Probed.sweep (h : w.Probed o lag) (punctual : w.Punctual lag)
    (accepting : w.socket.readyState = .open → w.socket.sendFails = false) {due : Int}
    (timer : w.timer = some due) (registered : w.registered ≠ none) (eventId : EventId)
    (maxBufferedAmountBytes : Nat) :
    ({ w.check o eventId maxBufferedAmountBytes with
      timer := some (w.now + o.sweepDelay) } : Watch).Probed o lag := by
  have hnow := punctual.sweep due timer
  intro hregistered hopen next hnext
  cases hnext
  by_cases hdead : w.now - w.lastSeenAt > o.thresholdMs
  · rw [check, if_pos hdead] at hopen
    split at hopen
    · exact absurd hopen w.terminate_not_open
    · have hrank := w.socket.rank_close 1002 "Heartbeat timeout: connection unresponsive"
      rw [hopen] at hrank
      exact absurd hrank (by decide)
  · rw [check, if_neg hdead] at hopen ⊢
    by_cases hquiet : w.now - w.lastSeenAt ≥ o.intervalMs
    · rw [if_pos hquiet] at hopen ⊢
      -- Were the socket not accepting, it would not be open any more.
      have hbefore : w.socket.readyState = .open := by
        by_contra hclosed
        rw [Socket.send, if_pos hclosed] at hopen
        exact hclosed hopen
      have hping := send_open (accepting hbefore) hopen
      obtain hsoon | ⟨time, hearlier, hwindow⟩ := h registered hbefore due timer
      · -- Without an interval a ping may fall into the millisecond of the last frame.
        by_cases hlater : w.lastSeenAt < w.now
        · refine Or.inr ⟨w.now, ⟨eventId, hping⟩, hlater, ?_⟩
          simp only
          omega
        · refine Or.inl ?_
          simp only
          omega
      · exact Or.inr ⟨time, hearlier.follows (Socket.send_follows _ _ _), hwindow⟩
    · rw [if_neg hquiet]
      refine Or.inl ?_
      simp only
      omega

theorem Probed.step (h : w.Probed o lag) (inTime : w.InTime o lag) (sound : w.Sound)
    (punctual : w.Punctual lag)
    (accepting : w.socket.readyState = .open → w.socket.sendFails = false)
    (running : w'.isRunning = true) (hstep : Step o w w') : w'.Probed o lag := by
  obtain ⟨due, htimer, hsoon, -⟩ := inTime.armed
  cases hstep with
  | elapse ms => exact h
  | serve follows =>
      intro registered hopen next hnext
      obtain hsoon | ⟨time, hping, hwindow⟩ :=
        h registered (follows.opened sound.live hopen) next hnext
      · exact Or.inl hsoon
      · exact Or.inr ⟨time, hping.follows follows, hwindow⟩
  | hear registered follows =>
      intro hregistered hopen next hnext
      cases htimer.symm.trans hnext
      refine Or.inl ?_
      simp only
      omega
  | connect connection fresh follows =>
      intro hregistered hopen next hnext
      cases htimer.symm.trans hnext
      refine Or.inl ?_
      simp only
      omega
  | close follows => exact fun hnone => absurd rfl hnone
  | sweep timer isDue registered eventId =>
      exact h.sweep punctual accepting timer (by simp [registered]) eventId _
  | unregisteredSweep timer isDue registered => exact fun hnone => absurd registered hnone
  | fallback isDue fired rest =>
      intro hregistered hopen next hnext
      rw [fireFallback] at hopen
      split at hopen
      · exact absurd hopen (terminate_not_open _)
      · rename_i hstate
        exact absurd (Or.inr hopen) hstate
  | start stopped => exact absurd (stopped.symm.trans punctual.running) Bool.false_ne_true
  | stop => cases running

/-- An open connection that answers its pings is not flagged. -/
theorem Step.keeps (hstep : Step o w w') (probed : w.Probed o lag) (inTime : w.InTime o lag)
    (punctual : w.Punctual lag) {answerMs : Nat} (answers : w.Answers answerMs)
    (slack : o.sweepDelay + lag + answerMs ≤ o.timeoutMs)
    (hopen : w.socket.readyState = .open) (before : w.isHeartbeatTimedOut = false) :
    w'.isHeartbeatTimedOut = false := by
  by_contra hflagged
  obtain ⟨registered, hsilent⟩ := hstep.flags before (eq_true_of_ne_false hflagged)
  obtain ⟨due, htimer, -, -⟩ := inTime.armed
  have hnow := punctual.sweep due htimer
  rw [HeartbeatOptions.thresholdMs] at hsilent
  obtain hsoon | ⟨time, hping, hfrom, hto⟩ := probed registered hopen due htimer
  · omega
  · obtain hwaiting | hheard := answers time hping
    · omega
    · omega

end Watch

namespace WatchedEvent

def elapsed : WatchedEvent → Nat
  | .elapse ms => ms
  | _ => 0

/-- The connection is established or heard. -/
def hears (c : ConnectionId) : WatchedEvent → Bool
  | .node (.connect connection _) => connection.connectionId = c
  | .node (.frame connectionId _ _) => connectionId = c
  | .keepalive connectionId => connectionId = c
  | _ => false

end WatchedEvent

/-- How long a connection was not heard at the end of a run. -/
def silence (c : ConnectionId) (events : List WatchedEvent) : Nat :=
  events.foldl (fun quiet e => if e.hears c then 0 else quiet + e.elapsed) 0

namespace WatchedNode

variable {cfg : ServerConfig} {o : HeartbeatOptions} {s t : WatchedNode} {e : WatchedEvent}

/-- Sweeps change neither the memberships nor when a connection was seen. -/
theorem checkHeartbeats_frame (o : HeartbeatOptions) (eventIds : ConnectionId → EventId)
    (s : WatchedNode) :
    (s.checkHeartbeats o eventIds).node.memberships = s.node.memberships ∧
      (s.checkHeartbeats o eventIds).lastSeenAt = s.lastSeenAt ∧
      (s.checkHeartbeats o eventIds).now = s.now := by
  rw [checkHeartbeats]
  generalize s.node.memberships.hub.connectionManager.connections.values = connections
  induction connections generalizing s with
  | nil => exact ⟨rfl, rfl, rfl⟩
  | cons connection rest ih =>
      obtain ⟨hmemberships, hseen, hnow⟩ := ih (s.checkHeartbeat o eventIds connection)
      rw [List.foldl_cons, hmemberships, hseen, hnow]
      simp only [checkHeartbeat, terminate]
      split_ifs <;> simp

theorem fireFallback_frame (s : WatchedNode) (connection : Connection) :
    (s.fireFallback connection).node.memberships = s.node.memberships ∧
      (s.fireFallback connection).lastSeenAt = s.lastSeenAt ∧
      (s.fireFallback connection).now = s.now := by
  simp only [fireFallback, terminate]
  split_ifs <;> exact ⟨rfl, rfl, rfl⟩

theorem step_wellFormed (wf : s.node.memberships.WellFormed) (h : s.step cfg o e = some t) :
    t.node.memberships.WellFormed := by
  cases e with
  | elapse ms =>
      cases h
      exact wf
  | node e =>
      simp only [step] at h
      split at h
      · obtain ⟨node, hnode, rfl⟩ := Option.map_eq_some_iff.mp h
        exact Node.wellFormed_step cfg s.node e node wf hnode
      · cases h
  | keepalive connectionId =>
      rw [step, Option.map_eq_some_iff] at h
      obtain ⟨connection, -, rfl⟩ := h
      exact wf
  | sweep eventIds =>
      simp only [step] at h
      split at h
      · split at h
        · cases h
          simpa [(checkHeartbeats_frame o eventIds s).1] using wf
        · cases h
      · cases h
  | fallback i =>
      simp only [step] at h
      split at h
      · split at h
        · cases h
          rw [(fireFallback_frame _ _).1]
          exact wf
        · cases h
      · cases h
  | start =>
      cases h
      rw [start]
      split <;> exact wf
  | stop =>
      cases h
      exact wf

/-- A connection that is touched was seen just now. -/
theorem touch_silence (s : WatchedNode) (connectionId c : ConnectionId) :
    (s.touch connectionId).now - (s.touch connectionId).lastSeenAt c =
      if connectionId = c then 0 else s.now - s.lastSeenAt c := by
  by_cases hc : connectionId = c
  · simp [touch, hc]
  · simp [touch, hc, Function.update_of_ne (Ne.symm hc)]

/-- What a step does to the time since a connection was last seen. -/
theorem step_silence (h : s.step cfg o e = some t) (c : ConnectionId) :
    t.now - t.lastSeenAt c = if e.hears c then 0 else s.now - s.lastSeenAt c + e.elapsed := by
  cases e with
  | elapse ms =>
      cases h
      simp only [WatchedEvent.hears, WatchedEvent.elapsed, Bool.false_eq_true, if_false]
      omega
  | node e =>
      simp only [step] at h
      split at h
      · obtain ⟨node, -, rfl⟩ := Option.map_eq_some_iff.mp h
        cases e with
        | connect connection tick =>
            simpa [WatchedEvent.hears, WatchedEvent.elapsed, note] using
              touch_silence s connection.connectionId c
        | frame connectionId raw tick =>
            simpa [WatchedEvent.hears, WatchedEvent.elapsed, note] using
              touch_silence s connectionId c
        | _ => simp [WatchedEvent.hears, WatchedEvent.elapsed, note]
      · cases h
  | keepalive connectionId =>
      rw [step, Option.map_eq_some_iff] at h
      obtain ⟨connection, -, rfl⟩ := h
      simpa [WatchedEvent.hears, WatchedEvent.elapsed] using touch_silence s connectionId c
  | sweep eventIds =>
      simp only [step] at h
      split at h
      · split at h
        · cases h
          obtain ⟨-, hseen, hnow⟩ := checkHeartbeats_frame o eventIds s
          simp [WatchedEvent.hears, WatchedEvent.elapsed, hseen, hnow]
        · cases h
      · cases h
  | fallback i =>
      simp only [step] at h
      split at h
      · rename_i connection due hfound
        split at h
        · cases h
          obtain ⟨-, hseen, hnow⟩ := fireFallback_frame
            { s with fallbackTimers := s.fallbackTimers.eraseIdx i } connection
          simp [WatchedEvent.hears, WatchedEvent.elapsed, hseen, hnow]
        · cases h
      · cases h
  | start =>
      cases h
      rw [start]
      split <;> simp [WatchedEvent.hears, WatchedEvent.elapsed]
  | stop =>
      cases h
      simp [WatchedEvent.hears, WatchedEvent.elapsed, stop]

/-- The clocks of a watch tell how long its connection was not heard. -/
theorem run_silence {c : ConnectionId} {es : List WatchedEvent} (seen : s.lastSeenAt c = s.now)
    (h : run (step cfg o) s es = some t) : t.now - t.lastSeenAt c = silence c es := by
  have hfold : ∀ (es : List WatchedEvent) (s : WatchedNode) (quiet : Nat),
      s.now - s.lastSeenAt c = quiet → run (step cfg o) s es = some t →
      t.now - t.lastSeenAt c =
        es.foldl (fun quiet e => if e.hears c then 0 else quiet + e.elapsed) quiet := by
    intro es
    induction es with
    | nil =>
        intro s quiet hquiet hrun
        cases hrun
        exact hquiet
    | cons e es ih =>
        intro s quiet hquiet hrun
        rw [run_cons, Option.bind_eq_some_iff] at hrun
        obtain ⟨u, hu, hrest⟩ := hrun
        refine ih u _ ?_ hrest
        rw [step_silence hu, hquiet]
        by_cases hheard : e.hears c = true
        · simp only [if_pos hheard, Int.natCast_zero]
        · simp only [if_neg hheard, Int.natCast_add]
  exact hfold es s 0 (by simp [seen]) h

/-- The invariant of all runs. -/
structure Valid (s : WatchedNode) : Prop where
  wellFormed : s.node.memberships.WellFormed
  sound : ∀ c, (s.watch c).Sound

theorem valid_initial (redis : Option Bool) (presence : Bool) (now : Int) :
    (initial redis presence now).Valid where
  wellFormed := Node.wellFormed_initial redis presence
  sound := by
    intro c
    refine ⟨le_rfl, ReadyState.noConfusion, fun h => absurd rfl h, rfl, ?_,
      fun h => absurd rfl h, fun h => absurd h Bool.false_ne_true⟩
    rintro (hflag | hterminated | ⟨reason, hframe⟩)
    · exact hflag
    · exact hterminated
    · cases hframe

theorem valid_step (cfg : ServerConfig) (o : HeartbeatOptions) (s : WatchedNode) (e : WatchedEvent)
    (t : WatchedNode) (h : s.Valid) (hstep : s.step cfg o e = some t) : t.Valid where
  wellFormed := step_wellFormed h.wellFormed hstep
  sound := fun c => (h.sound c).step (watch_step h.wellFormed hstep c)

/-- A connection that heartbeats have closed or terminated was registered and silent for
longer than the threshold when they flagged it. -/
theorem reaped_only_after_silence (cfg : ServerConfig) (o : HeartbeatOptions)
    (redis : Option Bool) (presence : Bool) (now : Int) (c : ConnectionId)
    (es : List WatchedEvent) (t : WatchedNode)
    (hrun : run (step cfg o) (initial redis presence now) es = some t)
    (reaped : (t.watch c).Reaped) :
    ∃ before s, before <+: es ∧ run (step cfg o) (initial redis presence now) before = some s ∧
      (s.node.getConnection c).isSome ∧ s.isHeartbeatTimedOut c = false ∧
      o.thresholdMs < silence c before := by
  induction es using List.reverseRecOn generalizing t with
  | nil =>
      cases hrun
      have hflag := ((valid_initial redis presence now).sound c).reaped reaped
      cases hflag
  | append_singleton es e ih =>
      rw [run_append, Option.bind_eq_some_iff] at hrun
      obtain ⟨s, hs, hlast⟩ := hrun
      have hstep : s.step cfg o e = some t := by simpa using hlast
      have hvalid : s.Valid := invariant (valid_step cfg o) (valid_initial redis presence now) hs
      by_cases hflag : s.isHeartbeatTimedOut c = true
      · obtain ⟨before, u, hprefix, hrest⟩ := ih s hs (Or.inl hflag)
        exact ⟨before, u, hprefix.trans (List.prefix_append es [e]), hrest⟩
      · have hafter := ((valid_step cfg o s e t hvalid hstep).sound c).reaped reaped
        have hbefore := eq_false_of_ne_true hflag
        obtain ⟨hregistered, hsilent⟩ :=
          (watch_step hvalid.wellFormed hstep c).flags hbefore hafter
        refine ⟨es, s, List.prefix_append es [e], hs, Option.isSome_iff_ne_none.mpr hregistered,
          hbefore, ?_⟩
        have hquiet : s.now - s.lastSeenAt c = silence c es := run_silence rfl hs
        have hsilent' : (o.thresholdMs : Int) < s.now - s.lastSeenAt c := hsilent
        rw [hquiet] at hsilent'
        exact_mod_cast hsilent'

/-- The events of a connection that falls silent, with a sweep every 50 ms. -/
def silentEvents (sweeps : Nat) : List WatchedEvent :=
  .node (.connect { connectionId := "c", userId := "u" } ⟨0, "0197-f", "0197-r"⟩) ::
    (List.replicate sweeps [.elapse 50, .sweep fun c => c ++ "-ping"]).flatten

def heartbeatConfig : ServerConfig := { instanceId := "n", idempotency := { digest := id } }

def heartbeatOptions : HeartbeatOptions := { intervalMs := 100, timeoutMs := 200 }

/-- After 350 ms of silence the threshold of 300 ms is exceeded. -/
theorem reaped_after_seven_sweeps :
    ∃ before s, before <+: (.start :: silentEvents 7) ∧
      run (step heartbeatConfig heartbeatOptions) (initial none false 0) before = some s ∧
      (s.node.getConnection "c").isSome ∧ s.isHeartbeatTimedOut "c" = false ∧
      heartbeatOptions.thresholdMs < silence "c" before := by
  have hflag : (run (step heartbeatConfig heartbeatOptions) (initial none false 0)
      (.start :: silentEvents 7)).any (·.isHeartbeatTimedOut "c") = true := by
    decide +kernel
  obtain ⟨t, ht, hreaped⟩ := (Option.any_eq_true _ _).mp hflag
  exact reaped_only_after_silence heartbeatConfig heartbeatOptions none false 0 "c" _ t ht
    (Or.inl hreaped)

/-- The timers run, and none is late by more than `lag`. -/
structure Punctual (lag : Nat) (s : WatchedNode) : Prop where
  running : s.heartbeatManager.isRunning = true
  sweep : ∀ due, s.heartbeatManager.timer = some due → s.now ≤ due + lag
  fallback : ∀ f ∈ s.fallbackTimers, s.now ≤ f.2 + lag

instance (lag : Nat) (s : WatchedNode) : Decidable (s.Punctual lag) :=
  decidable_of_iff (s.heartbeatManager.isRunning = true ∧
      (∀ due ∈ s.heartbeatManager.timer, s.now ≤ due + lag) ∧
      ∀ f ∈ s.fallbackTimers, s.now ≤ f.2 + lag)
    ⟨fun h => ⟨h.1, h.2.1, h.2.2⟩, fun h => ⟨h.running, h.sweep, h.fallback⟩⟩

theorem Punctual.watch {lag : Nat} (h : s.Punctual lag) (c : ConnectionId) :
    (s.watch c).Punctual lag where
  running := h.running
  sweep := h.sweep
  fallback := by
    intro due hdue
    obtain ⟨f, hf, rfl⟩ := List.mem_map.mp hdue
    exact h.fallback f (List.mem_of_mem_filter hf)

/-- A punctual run keeps the deadlines of every watch. -/
theorem always_inTime {lag : Nat} {es : List WatchedEvent} (valid : s.Valid)
    (inTime : ∀ c, (s.watch c).InTime o lag)
    (punctual : Always (step cfg o) (Punctual lag) s es) :
    Always (step cfg o) (fun s => s.Valid ∧ ∀ c, (s.watch c).InTime o lag) s es := by
  refine always_of_everyStep ?_ ⟨valid, inTime⟩ punctual.endpoints
  intro s e t h hstep hpunctual
  refine ⟨valid_step cfg o s e t h.1 hstep, fun c => ?_⟩
  exact (h.2 c).step (h.1.sound c) (hpunctual.1.watch c) hpunctual.2.running
    (watch_step h.1.wellFormed hstep c)

/-- A server that has just begun to listen. -/
def listening (o : HeartbeatOptions) (redis : Option Bool) (presence : Bool) (now : Int) :
    WatchedNode :=
  (initial redis presence now).start o

theorem valid_listening (cfg : ServerConfig) (o : HeartbeatOptions) (redis : Option Bool)
    (presence : Bool) (now : Int) : (listening o redis presence now).Valid :=
  valid_step cfg o _ .start _ (valid_initial redis presence now) rfl

theorem inTime_listening (o : HeartbeatOptions) (lag : Nat) (redis : Option Bool)
    (presence : Bool) (now : Int) (c : ConnectionId) :
    ((listening o redis presence now).watch c).InTime o lag where
  armed := ⟨_, rfl, le_rfl, fun h => absurd rfl h⟩
  pending := fun h => absurd rfl h

/-- While the timers are punctual, a registered connection is closed within one sweep period
behind the threshold, and terminated 150 ms later, unless its socket closes by then. -/
theorem silent_connection_is_terminated (cfg : ServerConfig) (o : HeartbeatOptions)
    (redis : Option Bool) (presence : Bool) (now : Int) (lag : Nat) (c : ConnectionId)
    (es : List WatchedEvent) (t : WatchedNode)
    (punctual : Always (step cfg o) (Punctual lag) (listening o redis presence now) es)
    (hrun : run (step cfg o) (listening o redis presence now) es = some t)
    (registered : (t.node.getConnection c).isSome) :
    (o.thresholdMs + o.sweepDelay + lag < silence c es →
      t.isHeartbeatTimedOut c = true ∧ (t.node.sockets c).readyState ≠ .open) ∧
    (o.thresholdMs + o.sweepDelay + lag + fallbackDelay + lag < silence c es →
      t.terminated c = true ∨ (t.node.sockets c).readyState = .closed) := by
  obtain ⟨hvalid, hinTime⟩ := (always_inTime (valid_listening cfg o redis presence now)
    (inTime_listening o lag redis presence now) punctual).final hrun
  have hpunctual := punctual.final hrun
  have hquiet : t.now - t.lastSeenAt c = silence c es := run_silence rfl hrun
  have hregistered : (t.watch c).registered ≠ none := Option.isSome_iff_ne_none.mp registered
  obtain ⟨due, htimer, -, hdeadline⟩ := (hinTime c).armed
  have hsweep := hpunctual.sweep due htimer
  have hflagged : o.thresholdMs + o.sweepDelay + lag < silence c es →
      t.isHeartbeatTimedOut c = true := by
    intro hsilent
    by_contra hunflagged
    have hdue : due ≤ t.lastSeenAt c + o.thresholdMs + o.sweepDelay :=
      hdeadline hregistered (eq_false_of_ne_true hunflagged)
    omega
  refine ⟨fun hsilent => ⟨hflagged hsilent, ?_⟩, fun hsilent => ?_⟩
  · intro hopen
    have hrank : 2 ≤ (t.node.sockets c).readyState.rank :=
      (((hvalid.sound c).flagged (hflagged hsilent))).2
    rw [hopen] at hrank
    exact absurd hrank (by decide)
  · have hflag := hflagged (by omega)
    obtain hterminated | hclosed | ⟨d, hd, hlate⟩ := (hinTime c).pending hregistered hflag
    · exact Or.inl hterminated
    · exact Or.inr hclosed
    · have hfallback := (hpunctual.watch c).fallback d hd
      simp only [watch, Watch.flagDelay] at hfallback hlate
      omega

/-- Silent for 501 ms: flagged at 350 ms, terminated at 500 ms. -/
theorem terminated_after_ten_sweeps :
    ∃ t, run (step heartbeatConfig heartbeatOptions) (listening heartbeatOptions none false 0)
        (silentEvents 10 ++ [.fallback 0, .elapse 1]) = some t ∧
      (t.isHeartbeatTimedOut "c" = true ∧ (t.node.sockets "c").readyState ≠ .open) ∧
      (t.terminated "c" = true ∨ (t.node.sockets "c").readyState = .closed) := by
  have hregistered : (run (step heartbeatConfig heartbeatOptions)
      (listening heartbeatOptions none false 0)
      (silentEvents 10 ++ [.fallback 0, .elapse 1])).any
        (fun t => (t.node.getConnection "c").isSome) = true := by
    decide +kernel
  obtain ⟨t, ht, hconnection⟩ := (Option.any_eq_true _ _).mp hregistered
  have hlimits := silent_connection_is_terminated heartbeatConfig heartbeatOptions none false 0 0
    "c" _ t (by decide +kernel) ht hconnection
  exact ⟨t, ht, hlimits.1 (by decide +kernel), hlimits.2 (by decide +kernel)⟩

/-- The connections that are kept by a step: open ones stay unflagged. -/
def KeepsOpen (c : ConnectionId) (s t : WatchedNode) : Prop :=
  (s.node.sockets c).readyState = .open → s.isHeartbeatTimedOut c = false →
    t.isHeartbeatTimedOut c = false

/-- While the timers are punctual, the socket takes frames, and the peer is heard in time
after each ping, heartbeats never close the connection. -/
theorem responsive_connection_is_kept (cfg : ServerConfig) (o : HeartbeatOptions)
    (redis : Option Bool) (presence : Bool) (now : Int) (lag answerMs : Nat) (c : ConnectionId)
    (es : List WatchedEvent) (slack : o.sweepDelay + lag + answerMs ≤ o.timeoutMs)
    (punctual : Always (step cfg o) (Punctual lag) (listening o redis presence now) es)
    (accepting : Always (step cfg o)
      (fun s => (s.node.sockets c).readyState = .open → (s.node.sockets c).sendFails = false)
      (listening o redis presence now) es)
    (answers : Always (step cfg o) (fun s => (s.watch c).Answers answerMs)
      (listening o redis presence now) es) :
    EveryStep (step cfg o) (fun s _ t => KeepsOpen c s t) (listening o redis presence now) es := by
  have hinTime := always_inTime (valid_listening cfg o redis presence now)
    (inTime_listening o lag redis presence now) punctual
  have hall := ((hinTime.and punctual).and accepting).and answers
  have hprobed : Always (step cfg o) (fun s => (s.watch c).Probed o lag)
      (listening o redis presence now) es := by
    refine always_of_everyStep ?_ (fun h => absurd rfl h) hall.endpoints
    intro s e t h hstep hends
    obtain ⟨⟨⟨⟨⟨hvalid, hinTime⟩, hpunctual⟩, haccepting⟩, -⟩, ⟨⟨-, hrunning⟩, -⟩, -⟩ := hends
    exact h.step (hinTime c) (hvalid.sound c) (hpunctual.watch c) haccepting hrunning.running
      (watch_step hvalid.wellFormed hstep c)
  refine (hprobed.and hall).everyStep ?_
  intro s e t h hstep hopen hunflagged
  obtain ⟨hprobed, ⟨⟨⟨hvalid, hinTime⟩, hpunctual⟩, -⟩, hanswers⟩ := h
  exact (watch_step hvalid.wellFormed hstep c).keeps hprobed (hinTime c) (hpunctual.watch c)
    hanswers slack hopen hunflagged

/-- A connection whose peer answers the ping at 100 ms at once. -/
def answeringEvents : List WatchedEvent :=
  silentEvents 2 ++ [.keepalive "c", .elapse 50, .sweep fun c => c ++ "-ping"]

theorem answering_connection_is_kept :
    EveryStep (step heartbeatConfig heartbeatOptions) (fun s _ t => KeepsOpen "c" s t)
      (listening heartbeatOptions none false 0) answeringEvents := by
  refine responsive_connection_is_kept heartbeatConfig heartbeatOptions none false 0 0 0 "c"
    answeringEvents (by decide) (by decide +kernel) (by decide +kernel) ?_
  have htimes : Always (step heartbeatConfig heartbeatOptions)
      (fun s => ∀ f ∈ (s.node.sockets "c").sent, f.type = .sysPing →
        f.timestamp = .ofInt (100 : Nat) ∧ (s.now ≤ 100 ∨ 100 ≤ s.lastSeenAt "c"))
      (listening heartbeatOptions none false 0) answeringEvents := by
    decide +kernel
  refine htimes.mono ?_
  rintro s h time ⟨eventId, hping⟩
  obtain ⟨htime, hheard⟩ := h _ hping rfl
  rw [Number.eq_natCast_of_ofInt htime]
  simpa [watch] using hheard

end WatchedNode

end Pulse
