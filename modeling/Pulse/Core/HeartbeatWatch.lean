import Pulse.Core.HeartbeatManager

/-!
# The watch over one connection

`Watch` is what heartbeats know of one connection, and `Watch.Step` lists all that
can happen to it: the clock runs, its socket serves the node, it is heard, a sweep
checks it, its fallback timer fires. Each event of the node is such a step for
every connection, so the properties of heartbeats are proved for one watch.
-/

namespace Pulse

open Collections Js Transition

structure Watch where
  now : Int
  /-- When the next sweep is due. -/
  timer : Option Int
  isRunning : Bool
  /-- Whether the id was ever given out. -/
  known : Bool
  registered : Option Connection
  socket : Socket
  lastSeenAt : Int
  isHeartbeatTimedOut : Bool
  terminated : Bool
  /-- The times at which its fallback terminations are due. -/
  fallbacks : List Int

namespace Watch

def terminate (w : Watch) : Watch :=
  if w.socket.readyState = .closed then w
  else { w with socket := { w.socket with readyState := .closing }, terminated := true }

/-- The check of a sweep. -/
def check (o : HeartbeatOptions) (eventId : EventId) (maxBufferedAmountBytes : Nat) (w : Watch) :
    Watch :=
  if w.now - w.lastSeenAt > o.thresholdMs then
    if w.isHeartbeatTimedOut then w.terminate
    else
      { w with
        isHeartbeatTimedOut := true
        socket := w.socket.close 1002 "Heartbeat timeout: connection unresponsive"
        fallbacks := w.fallbacks ++ [w.now + fallbackDelay] }
  else if w.now - w.lastSeenAt ≥ o.intervalMs then
    { w with
      socket := w.socket.send maxBufferedAmountBytes
        (WatchedNode.pingEnvelope eventId w.now) }
  else w

def fireFallback (w : Watch) : Watch :=
  if w.socket.readyState = .closing ∨ w.socket.readyState = .open then w.terminate else w

@[simp] theorem terminate_now (w : Watch) : w.terminate.now = w.now := by
  rw [terminate]
  split <;> rfl

@[simp] theorem terminate_isHeartbeatTimedOut (w : Watch) :
    w.terminate.isHeartbeatTimedOut = w.isHeartbeatTimedOut := by
  rw [terminate]
  split <;> rfl

@[simp] theorem check_now (o : HeartbeatOptions) (eventId : EventId)
    (maxBufferedAmountBytes : Nat) (w : Watch) :
    (w.check o eventId maxBufferedAmountBytes).now = w.now := by
  rw [check]
  split_ifs <;> simp

@[simp] theorem terminate_timer (w : Watch) : w.terminate.timer = w.timer := by
  rw [terminate]
  split <;> rfl

@[simp] theorem check_timer (o : HeartbeatOptions) (eventId : EventId)
    (maxBufferedAmountBytes : Nat) (w : Watch) :
    (w.check o eventId maxBufferedAmountBytes).timer = w.timer := by
  rw [check]
  split_ifs <;> simp

/-- All that can happen to a connection. -/
inductive Step (o : HeartbeatOptions) (w : Watch) : Watch → Prop
  | elapse (ms : Nat) : Step o w { w with now := w.now + ms }
  | serve {socket : Socket} (follows : w.socket.Follows socket) : Step o w { w with socket }
  | hear {connection : Connection} {socket : Socket} (registered : w.registered = some connection)
      (follows : w.socket.Follows socket) :
      Step o w { w with socket, lastSeenAt := w.now }
  | connect (connection : Connection) {socket : Socket} (fresh : w.known = false)
      (follows : Socket.Follows {} socket) :
      Step o w
        { w with
          known := true
          registered := some connection
          socket
          lastSeenAt := w.now
          isHeartbeatTimedOut := false
          terminated := false }
  | close {socket : Socket} (follows : w.socket.Follows socket) :
      Step o w { w with registered := none, socket }
  | sweep {due : Int} (timer : w.timer = some due) (isDue : due ≤ w.now) {connection : Connection}
      (registered : w.registered = some connection) (eventId : EventId) :
      Step o w
        { w.check o eventId connection.maxBufferedAmountBytes with
          timer := some (w.now + o.sweepDelay) }
  | unregisteredSweep {due : Int} (timer : w.timer = some due) (isDue : due ≤ w.now)
      (registered : w.registered = none) :
      Step o w { w with timer := some (w.now + o.sweepDelay) }
  | fallback {due : Int} {fallbacks : List Int} (isDue : due ≤ w.now) (fired : due ∈ w.fallbacks)
      (rest : ∀ d, d ∈ fallbacks → d ∈ w.fallbacks) :
      Step o w { w with fallbacks }.fireFallback
  | start (stopped : w.isRunning = false) :
      Step o w { w with timer := some (w.now + o.sweepDelay), isRunning := true }
  | stop : Step o w { w with timer := none, isRunning := false }

end Watch

/-- The ids of the registered connections are distinct. -/
theorem ConnectionManager.Indexed.connectionIds_nodup {m : ConnectionManager} (h : m.Indexed) :
    (m.connections.values.map (·.connectionId)).Nodup := by
  have hkeys : m.connections.values.map (·.connectionId) = m.connections.keys := by
    simp only [OrderedMap.values, OrderedMap.keys, List.map_map]
    refine List.map_congr_left ?_
    rintro ⟨c, connection⟩ hmem
    exact h.id_eq c connection (OrderedMap.mem_entries_iff.mp hmem)
  rw [hkeys]
  exact m.connections.keys_nodup

namespace ConnectionManager

theorem getConnection_removeConnection_self (m : ConnectionManager) (c : ConnectionId) :
    (m.removeConnection c).1.getConnection c = none := by
  rw [removeConnection, getConnection]
  split
  · assumption
  · exact OrderedMap.get?_delete_self _ c

theorem getConnection_removeConnection_ne (m : ConnectionManager) {c c' : ConnectionId}
    (h : c' ≠ c) : (m.removeConnection c).1.getConnection c' = m.getConnection c' := by
  rw [removeConnection, getConnection]
  split
  · rfl
  · exact OrderedMap.get?_delete_ne h

end ConnectionManager

namespace WatchedNode

/-- The fallback terminations of a connection. -/
def fallbacksOf (s : WatchedNode) (c : ConnectionId) : List Int :=
  (s.fallbackTimers.filter fun f => f.1.connectionId = c).map (·.2)

/-- What heartbeats know of a connection. -/
def watch (s : WatchedNode) (c : ConnectionId) : Watch where
  now := s.now
  timer := s.heartbeatManager.timer
  isRunning := s.heartbeatManager.isRunning
  known := decide (c ∈ s.node.memberships.known)
  registered := s.node.getConnection c
  socket := s.node.sockets c
  lastSeenAt := s.lastSeenAt c
  isHeartbeatTimedOut := s.isHeartbeatTimedOut c
  terminated := s.terminated c
  fallbacks := s.fallbacksOf c

section sweep

variable {o : HeartbeatOptions} {eventIds : ConnectionId → EventId} {s : WatchedNode}
variable {connection : Connection} {c : ConnectionId}

theorem watch_terminate_self (own : connection.connectionId = c) :
    (s.terminate connection).watch c = (s.watch c).terminate := by
  subst own
  by_cases h : (s.node.sockets connection.connectionId).readyState = .closed
  · simp [terminate, Watch.terminate, watch, h]
  · simp [terminate, Watch.terminate, watch, h, fallbacksOf, Node.getConnection]

theorem watch_terminate_other (other : connection.connectionId ≠ c) :
    (s.terminate connection).watch c = s.watch c := by
  rw [terminate]
  split
  · rfl
  · simp [watch, Function.update_of_ne (Ne.symm other), fallbacksOf, Node.getConnection]

theorem watch_fireFallback_self (own : connection.connectionId = c) :
    (s.fireFallback connection).watch c = (s.watch c).fireFallback := by
  have hstate : (s.node.sockets connection.connectionId).readyState =
      (s.watch c).socket.readyState := by rw [own, watch]
  simp only [fireFallback, Watch.fireFallback, hstate]
  split
  · exact watch_terminate_self own
  · rfl

theorem watch_fireFallback_other (other : connection.connectionId ≠ c) :
    (s.fireFallback connection).watch c = s.watch c := by
  simp only [fireFallback]
  split
  · exact watch_terminate_other other
  · rfl

theorem watch_checkHeartbeat_self (own : connection.connectionId = c) :
    (s.checkHeartbeat o eventIds connection).watch c =
      (s.watch c).check o (eventIds c) connection.maxBufferedAmountBytes := by
  subst own
  have hsilence : s.now - s.lastSeenAt connection.connectionId =
      (s.watch connection.connectionId).now - (s.watch connection.connectionId).lastSeenAt := rfl
  have hflag : s.isHeartbeatTimedOut connection.connectionId =
      (s.watch connection.connectionId).isHeartbeatTimedOut := rfl
  simp only [checkHeartbeat, Watch.check, hsilence, hflag]
  split_ifs
  · exact watch_terminate_self rfl
  · simp [watch, Node.closeSocket_socket, fallbacksOf, Node.getConnection]
  · simp [watch, Node.send_socket, fallbacksOf, Node.getConnection]
  · rfl

theorem watch_checkHeartbeat_other (other : connection.connectionId ≠ c) :
    (s.checkHeartbeat o eventIds connection).watch c = s.watch c := by
  simp only [checkHeartbeat]
  split
  · split
    · exact watch_terminate_other other
    · simp [watch, Function.update_of_ne (Ne.symm other), fallbacksOf, Node.getConnection, other,
        Node.closeSocket_socket_other _ _ _ (Ne.symm other)]
  · split
    · simp [watch, fallbacksOf, Node.getConnection,
        Node.send_socket_other _ _ (Ne.symm other)]
    · rfl

theorem watch_foldl_other {connections : List Connection}
    (others : ∀ connection ∈ connections, connection.connectionId ≠ c) :
    (connections.foldl (checkHeartbeat o eventIds) s).watch c = s.watch c := by
  induction connections generalizing s with
  | nil => rfl
  | cons first rest ih =>
      rw [List.foldl_cons, ih (fun connection h => others connection (.tail _ h))]
      exact watch_checkHeartbeat_other (others first List.mem_cons_self)

/-- A sweep checks each of its connections once. -/
theorem watch_foldl_self {connections : List Connection}
    (distinct : (connections.map (·.connectionId)).Nodup) (mem : connection ∈ connections)
    (own : connection.connectionId = c) :
    (connections.foldl (checkHeartbeat o eventIds) s).watch c =
      (s.watch c).check o (eventIds c) connection.maxBufferedAmountBytes := by
  induction connections generalizing s with
  | nil => cases mem
  | cons first rest ih =>
      rw [List.map_cons, List.nodup_cons] at distinct
      rw [List.foldl_cons]
      obtain rfl | hrest := List.mem_cons.mp mem
      · rw [watch_foldl_other, watch_checkHeartbeat_self own]
        intro other hother heq
        rw [← own] at heq
        exact distinct.1 (heq ▸ List.mem_map_of_mem hother)
      · have hne : first.connectionId ≠ c := fun heq =>
          distinct.1 (heq.trans own.symm ▸ List.mem_map_of_mem hrest)
        rw [ih distinct.2 hrest, watch_checkHeartbeat_other hne]

variable (wf : s.node.memberships.WellFormed)
include wf

theorem watch_checkHeartbeats_registered (registered : s.node.getConnection c = some connection) :
    (s.checkHeartbeats o eventIds).watch c =
      (s.watch c).check o (eventIds c) connection.maxBufferedAmountBytes := by
  have hid := (wf.registered registered).1
  refine watch_foldl_self ?_ (OrderedMap.mem_values_iff.mpr ⟨c, registered⟩) hid
  exact wf.indexed.connectionIds_nodup

theorem watch_checkHeartbeats_unregistered (unregistered : s.node.getConnection c = none) :
    (s.checkHeartbeats o eventIds).watch c = s.watch c := by
  refine watch_foldl_other fun connection hmem heq => ?_
  obtain ⟨k, hk⟩ := OrderedMap.mem_values_iff.mp hmem
  have hid := wf.indexed.id_eq k connection hk
  rw [← hid, heq] at hk
  cases unregistered.symm.trans hk

end sweep

variable {cfg : ServerConfig} {o : HeartbeatOptions} {s t : WatchedNode} {e : WatchedEvent}

/-- A step which leaves a watch as it is. -/
theorem stays (o : HeartbeatOptions) (w : Watch) : Watch.Step o w w :=
  .serve (.refl w.socket)

theorem filter_eraseIdx {α : Type} {p : α → Bool} {l : List α} {i : Nat} {a : α}
    (found : l[i]? = some a) (drops : p a = false) : (l.eraseIdx i).filter p = l.filter p := by
  induction l generalizing i with
  | nil => cases found
  | cons b l ih =>
      cases i with
      | zero =>
          cases found
          rw [List.eraseIdx_cons_zero, List.filter_cons_of_neg (by simp [drops])]
      | succ i =>
          have hrest := ih (i := i) (by simpa using found)
          rw [List.eraseIdx_cons_succ, List.filter_cons, List.filter_cons, hrest]

/-- A fallback timer leaves others behind. -/
theorem mem_of_mem_fallbacksOf_eraseIdx {i : Nat} {c : ConnectionId} {d : Int}
    (h : d ∈ ({ s with fallbackTimers := s.fallbackTimers.eraseIdx i } :
      WatchedNode).fallbacksOf c) : d ∈ s.fallbacksOf c := by
  obtain ⟨f, hf, rfl⟩ := List.mem_map.mp h
  obtain ⟨hmem, hown⟩ := List.mem_filter.mp hf
  exact List.mem_map_of_mem (List.mem_filter.mpr ⟨List.mem_of_mem_eraseIdx hmem, hown⟩)

/-- A node event which only uses the socket of a connection. -/
theorem watch_serve {e : NodeEvent} {node : Node} (hstep : s.node.step cfg e = some node)
    (forward : e.Forward s.node) {c : ConnectionId}
    (registered : (Node.connectionsAfter s.node.memberships.hub.connectionManager e).getConnection
      c = s.node.getConnection c)
    (known : c ∈ Node.knownAfter s.node.memberships.known e ↔ c ∈ s.node.memberships.known)
    (socket : s.node.socketsAt e c = s.node.sockets c)
    (seen : (s.note e).lastSeenAt c = s.lastSeenAt c)
    (flag : (s.note e).isHeartbeatTimedOut c = s.isHeartbeatTimedOut c)
    (terminated : (s.note e).terminated c = s.terminated c) :
    Watch.Step o (s.watch c) (({ s.note e with node } : WatchedNode).watch c) := by
  have hfollows := Node.step_follows hstep forward c
  obtain ⟨hmanager, hknown⟩ := (Node.step_effect hstep).connections
  have hrest : (s.note e).now = s.now ∧ (s.note e).heartbeatManager = s.heartbeatManager ∧
      (s.note e).fallbackTimers = s.fallbackTimers := by
    cases e <;> exact ⟨rfl, rfl, rfl⟩
  have hwatch : ({ s.note e with node } : WatchedNode).watch c =
      { s.watch c with socket := node.sockets c } := by
    simp [watch, fallbacksOf, Node.getConnection, hmanager, hknown, known, seen, flag,
      terminated, hrest]
    exact registered
  rw [hwatch]
  rw [socket] at hfollows
  exact .serve hfollows

/-- What an event of the node means for a connection. -/
theorem watch_note {e : NodeEvent} {node : Node} (hstep : s.node.step cfg e = some node)
    (forward : e.Forward s.node) (c : ConnectionId) :
    Watch.Step o (s.watch c) (({ s.note e with node } : WatchedNode).watch c) := by
  have hfollows := Node.step_follows hstep forward c
  have hregistered : node.getConnection c =
      (Node.connectionsAfter s.node.memberships.hub.connectionManager e).getConnection c := by
    rw [Node.getConnection, (Node.step_effect hstep).connections.1]
  have hknown := (Node.step_effect hstep).connections.2
  cases e with
  | connect connection tick =>
      by_cases hc : c = connection.connectionId
      · subst hc
        have hwatch : ({ s.note (.connect connection tick) with node } : WatchedNode).watch
            connection.connectionId =
            { s.watch connection.connectionId with
              known := true
              registered := some connection
              socket := node.sockets connection.connectionId
              lastSeenAt := (s.watch connection.connectionId).now
              isHeartbeatTimedOut := false
              terminated := false } := by
          simp [watch, note, touch, fallbacksOf, hregistered, hknown, Node.connectionsAfter,
            Node.knownAfter, ConnectionManager.addConnection, ConnectionManager.getConnection]
        rw [hwatch]
        have hfresh : connection.connectionId ∉ s.node.memberships.known :=
          (Node.step_effect hstep).1
        exact .connect connection (by simpa [watch] using hfresh)
          (by simpa [Node.socketsAt] using hfollows)
      · refine watch_serve hstep forward ?_ (by simp [Node.knownAfter, hc])
          (Function.update_of_ne hc _ _)
          (Function.update_of_ne hc _ _) (Function.update_of_ne hc _ _)
          (Function.update_of_ne hc _ _)
        exact OrderedMap.get?_set_ne hc _
  | frame connectionId raw tick =>
      by_cases hc : c = connectionId
      · subst hc
        rw [Node.step, Option.map_eq_some_iff] at hstep
        obtain ⟨sender, hsender, -⟩ := hstep
        have hwatch : ({ s.note (.frame c raw tick) with node } : WatchedNode).watch c =
            { s.watch c with socket := node.sockets c, lastSeenAt := (s.watch c).now } := by
          simp only [watch, note, touch, fallbacksOf, hregistered, hknown, Function.update_self]
          rfl
        rw [hwatch]
        exact .hear hsender hfollows
      · exact watch_serve hstep forward rfl Iff.rfl rfl (Function.update_of_ne hc _ _) rfl rfl
  | close connectionId =>
      by_cases hc : c = connectionId
      · subst hc
        have hwatch : ({ s.note (.close c) with node } : WatchedNode).watch c =
            { s.watch c with registered := none, socket := node.sockets c } := by
          simp only [watch, note, fallbacksOf, hregistered, hknown, Node.connectionsAfter,
            Node.knownAfter]
          congr 1
          exact ConnectionManager.getConnection_removeConnection_self _ c
        rw [hwatch]
        exact .close hfollows
      · exact watch_serve hstep forward (ConnectionManager.getConnection_removeConnection_ne _ hc)
          Iff.rfl rfl rfl rfl rfl
  | _ => exact watch_serve hstep forward rfl Iff.rfl rfl rfl rfl rfl

/-- The interval timer is set again behind a sweep. -/
theorem watch_rearm (o : HeartbeatOptions) (s : WatchedNode) (c : ConnectionId) :
    ({ s with
      heartbeatManager :=
        { s.heartbeatManager with timer := some (s.now + o.sweepDelay) } } : WatchedNode).watch c =
      { s.watch c with timer := some ((s.watch c).now + o.sweepDelay) } :=
  rfl

/-- The inversion lemma: every event of a watched node is a step of each watch. -/
theorem watch_step (wf : s.node.memberships.WellFormed) (h : s.step cfg o e = some t)
    (c : ConnectionId) : Watch.Step o (s.watch c) (t.watch c) := by
  cases e with
  | elapse ms =>
      cases h
      exact .elapse ms
  | node e =>
      simp only [step] at h
      split at h
      · rename_i hguard
        obtain ⟨node, hnode, rfl⟩ := Option.map_eq_some_iff.mp h
        exact watch_note hnode hguard.2 c
      · cases h
  | keepalive connectionId =>
      rw [step, Option.map_eq_some_iff] at h
      obtain ⟨connection, hregistered, rfl⟩ := h
      by_cases hc : c = connectionId
      · subst hc
        have htouched : (s.touch c).watch c =
            { s.watch c with socket := (s.watch c).socket, lastSeenAt := (s.watch c).now } := by
          simp only [watch, touch, Function.update_self]
          rfl
        rw [htouched]
        exact .hear hregistered (.refl _)
      · have htouched : (s.touch connectionId).watch c = s.watch c := by
          simp only [watch, touch, Function.update_of_ne hc]
          rfl
        rw [htouched]
        exact stays o _
  | sweep eventIds =>
      simp only [step] at h
      split at h
      · rename_i due htimer
        split at h
        · rename_i hdue
          cases h
          cases hregistered : s.node.getConnection c with
          | none =>
              rw [watch_rearm, watch_checkHeartbeats_unregistered wf hregistered]
              exact .unregisteredSweep htimer hdue hregistered
          | some connection =>
              rw [watch_rearm, watch_checkHeartbeats_registered wf hregistered, Watch.check_now]
              exact .sweep htimer hdue hregistered (eventIds c)
        · cases h
      · cases h
  | fallback i =>
      simp only [step] at h
      split at h
      · rename_i connection due hfound
        split at h
        · rename_i hdue
          cases h
          by_cases hown : connection.connectionId = c
          · rw [watch_fireFallback_self hown]
            refine .fallback hdue ?_ fun d => mem_of_mem_fallbacksOf_eraseIdx
            refine List.mem_map_of_mem (f := Prod.snd) (a := (connection, due)) ?_
            exact List.mem_filter.mpr ⟨List.mem_of_getElem? hfound, by simpa using hown⟩
          · have hsame : ({ s with fallbackTimers := s.fallbackTimers.eraseIdx i } :
                WatchedNode).watch c = s.watch c := by
              simp only [watch, fallbacksOf]
              rw [filter_eraseIdx hfound (by simpa using hown)]
            rw [watch_fireFallback_other hown, hsame]
            exact stays o _
        · cases h
      · cases h
  | start =>
      cases h
      rw [start]
      split
      · exact stays o _
      · rename_i hstopped
        exact .start (eq_false_of_ne_true hstopped)
  | stop =>
      cases h
      exact .stop

end WatchedNode

end Pulse
