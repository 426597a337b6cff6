import Pulse.Transition.Run

/-!
# State of the Redis link

`RedisConnectionManager` keeps one status for each of its two clients. The
listeners of the clients write it, and so do `waitForReady` and the end of
`connect`. When one client fails during `connect`, both statuses become `error`,
also that of a client which is ready and has nothing more to report.

The log keeps, newest first, the lifecycle events of the clients and the events
which the manager emits.
-/

namespace Pulse

open Transition

inductive RedisConnectionRole
  | publisher
  | subscriber
  deriving DecidableEq, Repr

theorem RedisConnectionRole.forall_iff {P : RedisConnectionRole → Prop} :
    (∀ role, P role) ↔ P .publisher ∧ P .subscriber := by
  refine ⟨fun h => ⟨h .publisher, h .subscriber⟩, fun h role => ?_⟩
  cases role
  · exact h.1
  · exact h.2

instance decidableForallRole {P : RedisConnectionRole → Prop} [∀ role, Decidable (P role)] :
    Decidable (∀ role, P role) :=
  decidable_of_iff _ RedisConnectionRole.forall_iff.symm

inductive RedisConnectionState
  | idle
  | connecting
  | connected
  | reconnecting
  | disconnecting
  | disconnected
  | error
  deriving DecidableEq, Repr

/-- The lifecycle events of a client. An `error` which nobody listens to throws, and later
listeners do not get it. -/
inductive ClientEvent
  | connect
  | ready
  | reconnecting
  | close
  | error (heard : Bool)
  | ended
  deriving DecidableEq, Repr

inductive ManagerEvent
  | connected
  | disconnected
  | reconnecting
  | error
  deriving DecidableEq, Repr

inductive LinkRecord
  | client (role : RedisConnectionRole) (event : ClientEvent)
  | emitted (event : ManagerEvent)
  deriving DecidableEq, Repr

/-- A promise. -/
inductive Await
  | pending
  | resolved
  | rejected
  deriving DecidableEq, Repr

/-- The waits are the promises of `waitForReady`, and `connecting` is that of `connect`. -/
structure RedisConnectionManager where
  clients : Bool := false
  publisherStatus : RedisConnectionState := .idle
  subscriberStatus : RedisConnectionState := .idle
  isShuttingDown : Bool := false
  publisherWait : Await := .pending
  subscriberWait : Await := .pending
  connecting : Await := .pending
  log : List LinkRecord := []
  deriving DecidableEq, Repr

inductive RedisLinkEvent
  | client (role : RedisConnectionRole) (event : ClientEvent)
  /-- The timer of `waitForReady` expires, or `client.connect()` is rejected. -/
  | waitFailed (role : RedisConnectionRole)
  | connectSettled
  deriving DecidableEq, Repr

namespace RedisConnectionManager

def status (m : RedisConnectionManager) : RedisConnectionRole → RedisConnectionState
  | .publisher => m.publisherStatus
  | .subscriber => m.subscriberStatus

def wait (m : RedisConnectionManager) : RedisConnectionRole → Await
  | .publisher => m.publisherWait
  | .subscriber => m.subscriberWait

def isConnected (m : RedisConnectionManager) : Bool :=
  m.clients && decide (m.publisherStatus = .connected) &&
    decide (m.subscriberStatus = .connected)

def updateStatus (m : RedisConnectionManager) (role : RedisConnectionRole)
    (status : RedisConnectionState) : RedisConnectionManager :=
  match role with
  | .publisher => { m with publisherStatus := status }
  | .subscriber => { m with subscriberStatus := status }

def setWait (m : RedisConnectionManager) (role : RedisConnectionRole) (wait : Await) :
    RedisConnectionManager :=
  match role with
  | .publisher => { m with publisherWait := wait }
  | .subscriber => { m with subscriberWait := wait }

def emit (m : RedisConnectionManager) (event : ManagerEvent) : RedisConnectionManager :=
  { m with log := .emitted event :: m.log }

def checkDisconnected (m : RedisConnectionManager) : RedisConnectionManager :=
  if m.publisherStatus ≠ .connected ∨ m.subscriberStatus ≠ .connected then m.emit .disconnected
  else m

/-- `onReady` of `waitForReady`, while it is attached. -/
def onReady (m : RedisConnectionManager) (role : RedisConnectionRole) : RedisConnectionManager :=
  if m.wait role = .pending then (m.updateStatus role .connected).setWait role .resolved else m

/-- `onError` of `waitForReady`, while it is attached; its timer and the rejection of
`client.connect()` do the same. -/
def onError (m : RedisConnectionManager) (role : RedisConnectionRole) : RedisConnectionManager :=
  if m.wait role = .pending then m.setWait role .rejected else m

/-- The listeners of one client, those of `attachClientListeners` first. -/
def onClientEvent (m : RedisConnectionManager) (role : RedisConnectionRole) :
    ClientEvent → RedisConnectionManager
  | .connect => m.updateStatus role .connecting
  | .ready =>
      let m := m.updateStatus role .connected
      let m := if m.isConnected then m.emit .connected else m
      m.onReady role
  | .reconnecting => (m.updateStatus role .reconnecting).emit .reconnecting
  | .close =>
      let status := if m.isShuttingDown then .disconnected else .reconnecting
      (m.updateStatus role status).checkDisconnected
  | .error heard =>
      let m := (m.updateStatus role .error).emit .error
      if heard then m.onError role else m
  | .ended => (m.updateStatus role .disconnected).checkDisconnected

/-- The beginning of `waitForReady`, for a client which may be ready already. -/
def waitForReady (m : RedisConnectionManager) (role : RedisConnectionRole) (ready : Bool) :
    RedisConnectionManager :=
  if ready then
    ({ m with log := .client role .ready :: m.log }.updateStatus role .connected).setWait role
      .resolved
  else m

/-- `connect` up to its `await`. -/
def connect (publisherReady subscriberReady : Bool) : RedisConnectionManager :=
  let m : RedisConnectionManager :=
    { clients := true, publisherStatus := .connecting, subscriberStatus := .connecting }
  (m.waitForReady .publisher publisherReady).waitForReady .subscriber subscriberReady

/-- `connect` behind its `await`: `Promise.all` is resolved with both waits, or rejected with
the first one that is. -/
def connectSettled (m : RedisConnectionManager) : Option RedisConnectionManager :=
  if m.connecting ≠ .pending then none
  else if m.publisherWait = .rejected ∨ m.subscriberWait = .rejected then
    some ({ m with
      publisherStatus := .error, subscriberStatus := .error, connecting := .rejected }.emit .error)
  else if m.publisherWait = .resolved ∧ m.subscriberWait = .resolved then
    some ({ m with connecting := .resolved }.emit .connected)
  else none

def step (m : RedisConnectionManager) : RedisLinkEvent → Option RedisConnectionManager
  | .client role event =>
      some ({ m with log := .client role event :: m.log }.onClientEvent role event)
  | .waitFailed role => if m.wait role = .pending then some (m.onError role) else none
  | .connectSettled => m.connectSettled

/-- The last lifecycle event of a client. -/
def lastEvent (m : RedisConnectionManager) (role : RedisConnectionRole) : Option ClientEvent :=
  m.log.findSome? fun
    | .client r event => if r = role then some event else none
    | .emitted _ => none

/-- Whether `connected` was emitted after the last `ready` event in the log. -/
def announcedIn : List LinkRecord → Bool
  | [] => false
  | .emitted .connected :: _ => true
  | .client _ .ready :: _ => false
  | _ :: rest => announcedIn rest

def announced (m : RedisConnectionManager) : Bool := announcedIn m.log

/-- Both clients are ready, as far as their events tell. -/
def BothReady (m : RedisConnectionManager) : Prop := ∀ role, m.lastEvent role = some .ready

instance (m : RedisConnectionManager) : Decidable m.BothReady :=
  inferInstanceAs (Decidable (∀ role, m.lastEvent role = some .ready))

/-- Once `connect` has settled, two ready clients make a connected link, and its users were
told. -/
def FollowsClients (m : RedisConnectionManager) : Prop :=
  m.connecting ≠ .pending → m.BothReady → m.isConnected = true ∧ m.announced = true

/-- When `connect` fails, no client is ready. -/
def FailsUnready (m : RedisConnectionManager) : RedisLinkEvent → Prop
  | .connectSettled =>
      m.publisherWait = .rejected ∨ m.subscriberWait = .rejected →
        ∀ role, m.lastEvent role ≠ some .ready
  | _ => True

section status

variable (m : RedisConnectionManager) (role : RedisConnectionRole)

@[simp] theorem updateStatus_status (r : RedisConnectionRole) (status : RedisConnectionState) :
    (m.updateStatus role status).status r = if r = role then status else m.status r := by
  cases role <;> cases r <;> rfl

@[simp] theorem updateStatus_log (status : RedisConnectionState) :
    (m.updateStatus role status).log = m.log := by
  cases role <;> rfl

@[simp] theorem updateStatus_clients (status : RedisConnectionState) :
    (m.updateStatus role status).clients = m.clients := by
  cases role <;> rfl

@[simp] theorem updateStatus_connecting (status : RedisConnectionState) :
    (m.updateStatus role status).connecting = m.connecting := by
  cases role <;> rfl

@[simp] theorem setWait_status (r : RedisConnectionRole) (w : Await) :
    (m.setWait role w).status r = m.status r := by
  cases role <;> cases r <;> rfl

@[simp] theorem setWait_log (w : Await) : (m.setWait role w).log = m.log := by
  cases role <;> rfl

@[simp] theorem setWait_clients (w : Await) : (m.setWait role w).clients = m.clients := by
  cases role <;> rfl

@[simp] theorem emit_status (r : RedisConnectionRole) (event : ManagerEvent) :
    (m.emit event).status r = m.status r := by
  cases r <;> rfl

theorem isConnected_iff :
    m.isConnected = true ↔ m.clients = true ∧ ∀ role, m.status role = .connected := by
  simp only [isConnected, Bool.and_eq_true, decide_eq_true_eq, RedisConnectionRole.forall_iff,
    status, and_assoc]

end status

section events

variable (m : RedisConnectionManager) (role r : RedisConnectionRole)

@[simp] theorem lastEvent_emit (event : ManagerEvent) :
    (m.emit event).lastEvent r = m.lastEvent r := rfl

theorem lastEvent_congr {m m' : RedisConnectionManager} (h : m'.log = m.log)
    (r : RedisConnectionRole) : m'.lastEvent r = m.lastEvent r := by
  rw [lastEvent, lastEvent, h]

theorem lastEvent_record (event : ClientEvent) :
    lastEvent { m with log := .client role event :: m.log } r =
      if role = r then some event else m.lastEvent r := by
  by_cases h : role = r
  · simp [lastEvent, h]
  · simp [lastEvent, h]

theorem checkDisconnected_cases :
    m.checkDisconnected = m ∨ m.checkDisconnected = m.emit .disconnected := by
  rw [checkDisconnected]
  split
  · exact Or.inr rfl
  · exact Or.inl rfl

@[simp] theorem onReady_log : (m.onReady role).log = m.log := by
  rw [onReady]
  split <;> simp

@[simp] theorem onError_log : (m.onError role).log = m.log := by
  rw [onError]
  split <;> simp

@[simp] theorem onError_status : (m.onError role).status r = m.status r := by
  rw [onError]
  split <;> simp

@[simp] theorem onError_clients : (m.onError role).clients = m.clients := by
  rw [onError]
  split <;> simp

/-- The listeners of a client leave the status of the other one alone. -/
theorem onClientEvent_status {event : ClientEvent} (other : r ≠ role) :
    (m.onClientEvent role event).status r = m.status r := by
  cases event with
  | connect => simp [onClientEvent, other]
  | ready =>
      simp only [onClientEvent, onReady]
      split <;> split <;> simp [other]
  | reconnecting => simp [onClientEvent, other]
  | close =>
      simp only [onClientEvent]
      obtain heq | heq := checkDisconnected_cases (m.updateStatus role
        (if m.isShuttingDown = true then .disconnected else .reconnecting))
      · rw [heq]
        simp [other]
      · rw [heq]
        simp [other]
  | error heard => cases heard <;> simp [onClientEvent, other]
  | ended =>
      simp only [onClientEvent]
      obtain heq | heq := checkDisconnected_cases (m.updateStatus role .disconnected)
      · rw [heq]
        simp [other]
      · rw [heq]
        simp [other]

theorem onClientEvent_ready_status : (m.onClientEvent role .ready).status role = .connected := by
  simp only [onClientEvent, onReady]
  split <;> split <;> simp

@[simp] theorem onClientEvent_clients (event : ClientEvent) :
    (m.onClientEvent role event).clients = m.clients := by
  cases event with
  | connect => simp [onClientEvent]
  | ready =>
      simp only [onClientEvent, onReady]
      split <;> split <;> simp [emit]
  | reconnecting => simp [onClientEvent, emit]
  | close =>
      simp only [onClientEvent]
      obtain heq | heq := checkDisconnected_cases (m.updateStatus role
        (if m.isShuttingDown = true then .disconnected else .reconnecting))
      · rw [heq, updateStatus_clients]
      · rw [heq]
        exact updateStatus_clients m role _
  | error heard => cases heard <;> simp [onClientEvent, emit]
  | ended =>
      simp only [onClientEvent]
      obtain heq | heq := checkDisconnected_cases (m.updateStatus role .disconnected)
      · rw [heq, updateStatus_clients]
      · rw [heq]
        exact updateStatus_clients m role _

/-- The listeners of the clients add to the log only what they emit. -/
theorem onClientEvent_lastEvent (event : ClientEvent) :
    (m.onClientEvent role event).lastEvent r = m.lastEvent r := by
  cases event with
  | connect => exact lastEvent_congr (updateStatus_log m role _) r
  | ready =>
      simp only [onClientEvent]
      rw [lastEvent_congr (onReady_log _ role) r]
      split
      · rw [lastEvent_emit, lastEvent_congr (updateStatus_log m role _) r]
      · exact lastEvent_congr (updateStatus_log m role _) r
  | reconnecting =>
      simp only [onClientEvent, lastEvent_emit]
      exact lastEvent_congr (updateStatus_log m role _) r
  | close =>
      simp only [onClientEvent]
      obtain heq | heq := checkDisconnected_cases (m.updateStatus role
        (if m.isShuttingDown = true then .disconnected else .reconnecting))
      · rw [heq]
        exact lastEvent_congr (updateStatus_log m role _) r
      · rw [heq, lastEvent_emit]
        exact lastEvent_congr (updateStatus_log m role _) r
  | error heard =>
      simp only [onClientEvent]
      split
      · rw [lastEvent_congr (onError_log _ role) r, lastEvent_emit]
        exact lastEvent_congr (updateStatus_log m role _) r
      · rw [lastEvent_emit]
        exact lastEvent_congr (updateStatus_log m role _) r
  | ended =>
      simp only [onClientEvent]
      obtain heq | heq := checkDisconnected_cases (m.updateStatus role .disconnected)
      · rw [heq]
        exact lastEvent_congr (updateStatus_log m role _) r
      · rw [heq, lastEvent_emit]
        exact lastEvent_congr (updateStatus_log m role _) r

/-- A client which becomes ready while the other one is makes the manager tell its users. -/
theorem onClientEvent_ready_announced (clients : m.clients = true)
    (others : ∀ r, r ≠ role → m.status r = .connected) :
    (m.onClientEvent role .ready).announced = true := by
  have hconnected : (m.updateStatus role .connected).isConnected = true := by
    refine (isConnected_iff _).mpr ⟨by simpa using clients, fun r => ?_⟩
    rw [updateStatus_status]
    split
    · rfl
    · exact others r ‹_›
  rw [announced]
  simp only [onClientEvent, hconnected, if_true, onReady_log]
  rfl

end events

/-- The statuses of ready clients, and the announcement that both are. -/
structure Synced (m : RedisConnectionManager) : Prop where
  clients : m.clients = true
  status : ∀ role, m.lastEvent role = some .ready → m.status role = .connected
  told : m.BothReady → m.announced = true ∨
    (m.connecting = .pending ∧ ∀ role, m.wait role = .resolved)

theorem synced_connect (publisherReady subscriberReady : Bool) :
    (connect publisherReady subscriberReady).Synced where
  clients := by
    cases publisherReady <;> cases subscriberReady <;> rfl
  status := by
    cases publisherReady <;> cases subscriberReady <;> intro role <;> cases role <;> decide
  told := by
    intro hready
    cases publisherReady with
    | false =>
        have hnone := hready .publisher
        cases subscriberReady <;> cases hnone
    | true =>
        cases subscriberReady with
        | false => cases hready .subscriber
        | true =>
            refine Or.inr ⟨rfl, fun role => ?_⟩
            cases role <;> rfl

theorem synced_step {m t : RedisConnectionManager} {e : RedisLinkEvent} (h : m.Synced)
    (hstep : m.step e = some t) (unready : m.FailsUnready e) : t.Synced := by
  cases e with
  | client role event =>
      cases hstep
      have hlast : ∀ r, (onClientEvent { m with log := .client role event :: m.log } role
          event).lastEvent r = if role = r then some event else m.lastEvent r := by
        intro r
        rw [onClientEvent_lastEvent, lastEvent_record]
      refine ⟨?_, ?_, ?_⟩
      · rw [onClientEvent_clients]
        exact h.clients
      · intro r hready
        rw [hlast] at hready
        by_cases hr : role = r
        · subst hr
          rw [if_pos rfl, Option.some.injEq] at hready
          subst hready
          exact onClientEvent_ready_status _ role
        · rw [if_neg hr] at hready
          rw [onClientEvent_status _ _ _ (Ne.symm hr)]
          exact h.status r hready
      · intro hready
        have hrole := hready role
        rw [hlast, if_pos rfl, Option.some.injEq] at hrole
        subst hrole
        refine Or.inl (onClientEvent_ready_announced _ role h.clients fun r hr => ?_)
        have hother := hready r
        rw [hlast, if_neg (Ne.symm hr)] at hother
        exact h.status r hother
  | waitFailed role =>
      simp only [step, Option.ite_none_right_eq_some, Option.some.injEq] at hstep
      obtain ⟨hpending, rfl⟩ := hstep
      have hlast := lastEvent_congr (onError_log m role)
      refine ⟨(onError_clients m role).trans h.clients, ?_, ?_⟩
      · intro r hready
        rw [onError_status]
        exact h.status r ((hlast r).symm.trans hready)
      · intro hready
        obtain htold | ⟨-, hwaits⟩ := h.told fun r => (hlast r).symm.trans (hready r)
        · refine Or.inl ?_
          rw [announced, onError_log]
          exact htold
        · exact absurd ((hwaits role).symm.trans hpending) (by decide)
  | connectSettled =>
      simp only [step, connectSettled] at hstep
      split at hstep
      · cases hstep
      · split at hstep
        · -- Nobody is ready, so the statuses that are lost said nothing.
          rename_i hrejected
          cases hstep
          have hnone := unready hrejected
          exact ⟨h.clients, fun r hready => absurd hready (hnone r),
            fun hready => absurd (hready .publisher) (hnone .publisher)⟩
        · split at hstep
          · cases hstep
            refine ⟨h.clients, fun r hready => ?_, fun _ => Or.inl rfl⟩
            rw [emit_status]
            exact h.status r hready
          · cases hstep

theorem Synced.followsClients {m : RedisConnectionManager} (h : m.Synced) : m.FollowsClients := by
  intro hsettled hready
  refine ⟨(isConnected_iff m).mpr ⟨h.clients, fun role => h.status role (hready role)⟩, ?_⟩
  obtain htold | ⟨hpending, -⟩ := h.told hready
  · exact htold
  · exact absurd hpending hsettled

/-- In every run in which no client is ready when `connect` fails, the link follows its
clients. -/
theorem link_follows_clients {publisherReady subscriberReady : Bool} {es : List RedisLinkEvent}
    (unready : EveryStep step (fun m e _ => m.FailsUnready e)
      (connect publisherReady subscriberReady) es) :
    Always step FollowsClients (connect publisherReady subscriberReady) es := by
  have halways : Always step Synced (connect publisherReady subscriberReady) es :=
    always_of_everyStep (fun _ _ _ hs hstep hunready => synced_step hs hstep hunready)
      (synced_connect publisherReady subscriberReady) unready
  exact halways.mono fun _ hs => hs.followsClients

instance (m : RedisConnectionManager) : ∀ e, Decidable (m.FailsUnready e)
  | .connectSettled =>
      inferInstanceAs (Decidable (m.publisherWait = .rejected ∨ m.subscriberWait = .rejected →
        ∀ role, m.lastEvent role ≠ some .ready))
  | .client .. | .waitFailed _ => isTrue trivial

/-- The subscriber cannot be reached at first; both come up later, and go down once more. -/
def lateRun : List RedisLinkEvent :=
  [.client .subscriber (.error true), .connectSettled, .client .subscriber .reconnecting,
    .client .publisher .connect, .client .publisher .ready, .client .subscriber .connect,
    .client .subscriber .ready, .client .publisher .close, .client .publisher .ready]

theorem link_follows_clients_late : Always step FollowsClients (connect false false) lateRun :=
  link_follows_clients (by decide +kernel)

/-- The publisher is ready before the subscriber fails. -/
def isolatedRun : List RedisLinkEvent :=
  [.client .publisher .connect, .client .publisher .ready, .client .subscriber (.error true),
    .connectSettled, .client .subscriber .close, .client .subscriber .reconnecting,
    .client .subscriber .connect, .client .subscriber .ready]

theorem link_stays_down :
    ¬ ∀ (publisherReady subscriberReady : Bool) (es : List RedisLinkEvent),
      Always step FollowsClients (connect publisherReady subscriberReady) es := by
  intro h
  have hrun : (run step (connect false false) isolatedRun).any (fun m =>
      decide (m.connecting = .rejected) && decide m.BothReady && !m.isConnected) = true := by
    decide +kernel
  refine not_always_of_run ?_ hrun (h false false isolatedRun)
  intro m hm hfollows
  simp only [Bool.and_eq_true, decide_eq_true_eq, Bool.not_eq_true'] at hm
  obtain ⟨⟨hsettled, hready⟩, hdown⟩ := hm
  have hconnected := (hfollows (by rw [hsettled]; decide) hready).1
  exact absurd (hconnected.symm.trans hdown) (by decide)

end RedisConnectionManager

end Pulse
