import Pulse.Client.Requests
import Pulse.Core.FanOut
import Pulse.Event.Frame

/-!
# A session and a node

A session composed with the node it connects to. A link joins a socket of the session
to the connection which the node made of it, and carries the frames of each side to
the other in order. Frames are lost with the connection only: at any time one side
may close it, or its peer's frames may no longer be read. Other clients and Redis
act on the node at will.
-/

namespace Pulse

open Collections Js Transition MessageDispatcher

/-- A socket of the session and its connection at the node. -/
structure Link where
  socket : Nat
  connectionId : ConnectionId
  /-- The number of frames from the session which the node has handled. -/
  handled : Nat := 0
  /-- The number of frames from the node which the session has read. -/
  read : Nat := 0
  deriving DecidableEq

structure ClientServer where
  session : PulseClientSession := {}
  node : Node
  links : List Link := []

inductive LinkEvent
  /-- The user, a timer or the transport of the session. -/
  | session (e : SessionEvent)
  /-- The node accepts the upgrade of socket `w`. -/
  | upgrade (w : Nat) (connection : Connection) (tick : Tick)
  /-- The node handles the next frame of the `i`-th link. -/
  | handle (i : Nat) (tick : Tick)
  /-- The session reads the next frame of the `i`-th link. -/
  | read (i : Nat) (stamp : Stamp)
  /-- Anything else at the node. -/
  | node (e : NodeEvent)

/-- The side on which an event happens. -/
inductive Move
  | session (e : SessionEvent)
  | node (e : NodeEvent)

namespace ClientServer

def connectionIds (s : ClientServer) : List ConnectionId := s.links.map (·.connectionId)

/-- What an event is to its side, and the links after it. -/
def move (s : ClientServer) : LinkEvent → Option (Move × List Link)
  | .session (.message ..) => none
  | .session e => some (.session e, s.links)
  | .upgrade w connection tick =>
      if w < s.session.sockets.length ∧ w ∉ s.links.map (·.socket) then
        some (.node (.connect connection tick),
          s.links ++ [{ socket := w, connectionId := connection.connectionId }])
      else none
  | .handle i tick => do
      let link ← s.links[i]?
      let socket ← s.session.sockets[link.socket]?
      let frame ← socket.sent[link.handled]?
      return (.node (.frame link.connectionId (some frame.toJson) tick),
        s.links.set i { link with handled := link.handled + 1 })
  | .read i stamp => do
      let link ← s.links[i]?
      let frame ← (s.node.sockets link.connectionId).sent[link.read]?
      return (.session (.message link.socket frame stamp),
        s.links.set i { link with read := link.read + 1 })
  | .node (.frame connectionId raw tick) =>
      if connectionId ∈ s.connectionIds then none
      else some (.node (.frame connectionId raw tick), s.links)
  | .node e => some (.node e, s.links)

def step (o : SessionOptions) (cfg : ServerConfig) (s : ClientServer) (e : LinkEvent) :
    Option ClientServer :=
  (s.move e).bind fun (move, links) =>
    match move with
    | .session e => (s.session.step o e).map fun session => { s with session, links }
    | .node e => (s.node.step cfg e).map fun node => { s with node, links }

def initial (redis : Option Bool) (presence : Bool) : ClientServer :=
  { node := .initial redis presence }

def sessionEvent (s : ClientServer) (e : LinkEvent) : Option SessionEvent :=
  (s.move e).bind fun
    | (.session e, _) => some e
    | (.node _, _) => none

def nodeEvent (s : ClientServer) (e : LinkEvent) : Option NodeEvent :=
  (s.move e).bind fun
    | (.session _, _) => none
    | (.node e, _) => some e

end ClientServer

/-- What is logged of an event: the request it makes, what it does to the idempotency
cache, the message which the node accepts, and the node before and behind it. -/
structure Record where
  requests : List PulseEventEnvelope := []
  touches : List CacheTouch := []
  fanOuts : List PulseEventEnvelope := []
  moves : List (Node × Node) := []

namespace Record

def requestsOf (log : List Record) : List PulseEventEnvelope := log.flatMap (·.requests)
def touchesOf (log : List Record) : List CacheTouch := log.flatMap (·.touches)
def fanOutsOf (log : List Record) : List PulseEventEnvelope := log.flatMap (·.fanOuts)
def movesOf (log : List Record) : List (Node × Node) := log.flatMap (·.moves)

/-- The ids of the requests. -/
def requestedIds (log : List Record) : List EventId := (requestsOf log).map (·.eventId)

section append

variable (log : List Record) (record : Record)

@[simp] theorem requestsOf_append :
    requestsOf (log ++ [record]) = requestsOf log ++ record.requests := by
  simp [requestsOf]

@[simp] theorem touchesOf_append :
    touchesOf (log ++ [record]) = touchesOf log ++ record.touches := by
  simp [touchesOf]

@[simp] theorem fanOutsOf_append :
    fanOutsOf (log ++ [record]) = fanOutsOf log ++ record.fanOuts := by
  simp [fanOutsOf]

end append

/-- A request with new identifiers. -/
def IsFresh (log : List Record) (r : PulseEventEnvelope) : Prop :=
  r.eventId ≠ "" ∧ r.correlationId.getD "" ≠ "" ∧ r.eventId ∉ requestedIds log ∧
    r.correlationId ∉ (requestsOf log).map (·.correlationId) ∧
      r.eventId ∉ touchedIds (touchesOf log)

instance (log : List Record) (r : PulseEventEnvelope) : Decidable (IsFresh log r) :=
  inferInstanceAs (Decidable (_ ∧ _ ∧ _ ∧ _ ∧ _))

end Record

namespace ClientServer

open Record

/-- The record of an event. -/
def record (o : SessionOptions) (cfg : ServerConfig) (s : ClientServer) (e : LinkEvent) :
    List Record :=
  [{ requests := ((s.sessionEvent e).bind (s.session.submission o)).toList
     touches := (s.nodeEvent e).elim [] (s.node.touches cfg)
     fanOuts := (s.nodeEvent e).elim [] (s.node.fanOuts cfg)
     moves := ((s.nodeEvent e).bind (s.node.step cfg)).toList.map fun node => (s.node, node) }]

/-- Identifiers are not generated twice: a request has new ones, and nobody else names the
event of a request. -/
def FreshIds (o : SessionOptions) (cfg : ServerConfig) (s : ClientServer × List Record)
    (e : LinkEvent) : Prop :=
  (∀ r ∈ (s.1.sessionEvent e).bind (s.1.session.submission o), IsFresh s.2 r) ∧
    match e with
    | .node e => ∀ u ∈ s.1.node.cacheUse cfg e, u.envelope.eventId ∉ requestedIds s.2
    | _ => True

instance (o : SessionOptions) (cfg : ServerConfig) (s : ClientServer × List Record)
    (e : LinkEvent) : Decidable (FreshIds o cfg s e) :=
  match e with
  | .node _ => inferInstanceAs (Decidable (_ ∧ ∀ u ∈ Node.cacheUse cfg s.1.node _, _))
  | .session _ => inferInstanceAs (Decidable (_ ∧ True))
  | .upgrade .. => inferInstanceAs (Decidable (_ ∧ True))
  | .handle .. => inferInstanceAs (Decidable (_ ∧ True))
  | .read .. => inferInstanceAs (Decidable (_ ∧ True))

/-- The node handles the copies of a request within the idempotency window. -/
def InWindow (cfg : ServerConfig) (s : ClientServer × List Record) (e : LinkEvent) : Prop :=
  ∀ e' ∈ s.1.nodeEvent e, ∀ u ∈ s.1.node.cacheUse cfg e',
    u.envelope.eventId ∈ requestedIds s.2 → u.InWindow cfg.idempotency (touchesOf s.2)

instance (cfg : ServerConfig) (s : ClientServer × List Record) (e : LinkEvent) :
    Decidable (InWindow cfg s e) :=
  inferInstanceAs (Decidable (∀ e' ∈ s.1.nodeEvent e, ∀ u ∈ s.1.node.cacheUse cfg e', _))

variable {s : ClientServer} {e : LinkEvent} {links : List Link}

theorem connectionIds_set {i : Nat} {link link' : Link} (h : s.links[i]? = some link)
    (same : link'.connectionId = link.connectionId) :
    (s.links.set i link').map (·.connectionId) = s.connectionIds := by
  have hlt : i < s.connectionIds.length := by
    rw [connectionIds, List.length_map]
    exact (List.getElem?_eq_some_iff.mp h).1
  have hget : s.connectionIds[i] = link.connectionId := by
    simp only [connectionIds, List.getElem_map]
    rw [(List.getElem?_eq_some_iff.mp h).2]
  rw [List.map_set, same, ← hget, ← connectionIds, List.set_getElem_self]

/-- What the session receives comes from a connection on a link. -/
theorem move_session {e' : SessionEvent} (h : s.move e = some (.session e', links)) :
    links.map (·.connectionId) = s.connectionIds ∧
      ∀ w ack stamp, e' = .message w ack stamp →
        ∃ c ∈ s.connectionIds, ack ∈ (s.node.sockets c).sent := by
  cases e with
  | session e =>
      cases e with
      | message w ack stamp => cases h
      | _ =>
          cases h
          exact ⟨rfl, fun _ _ _ heq => by cases heq⟩
  | upgrade w connection tick =>
      simp only [move] at h
      split at h <;> cases h
  | handle i tick =>
      simp only [move, Option.bind_eq_bind, Option.bind_eq_some_iff] at h
      obtain ⟨link, -, socket, -, frame, -, heq⟩ := h
      cases heq
  | read i stamp =>
      simp only [move, Option.bind_eq_bind, Option.bind_eq_some_iff] at h
      obtain ⟨link, hlink, frame, hframe, heq⟩ := h
      cases heq
      refine ⟨connectionIds_set hlink rfl, ?_⟩
      rintro w ack stamp' heq
      cases heq
      exact ⟨link.connectionId, List.mem_map_of_mem (List.mem_of_getElem? hlink),
        List.mem_of_getElem? hframe⟩
  | node e =>
      cases e with
      | frame connectionId raw tick =>
          simp only [move] at h
          split at h <;> cases h
      | _ => cases h

/-- What the node does is to accept an upgrade, to handle a frame of the session, or
something else. -/
theorem move_node {e' : NodeEvent} (h : s.move e = some (.node e', links)) :
    (∃ connection tick, e' = .connect connection tick ∧
        links.map (·.connectionId) = s.connectionIds ++ [connection.connectionId]) ∨
      links.map (·.connectionId) = s.connectionIds ∧
        ((∃ c ∈ s.connectionIds, ∃ (w : Nat) (socket : ClientSocket),
            s.session.sockets[w]? = some socket ∧
            ∃ f ∈ socket.sent, ∃ tick, e' = .frame c (some f.toJson) tick) ∨
          e = .node e' ∧ ∀ c raw tick, e' = .frame c raw tick → c ∉ s.connectionIds) := by
  cases e with
  | session e =>
      cases e with
      | _ => cases h
  | upgrade w connection tick =>
      simp only [move] at h
      split at h
      · cases h
        refine Or.inl ⟨connection, tick, rfl, ?_⟩
        rw [List.map_append, connectionIds]
        rfl
      · cases h
  | handle i tick =>
      simp only [move, Option.bind_eq_bind, Option.bind_eq_some_iff] at h
      obtain ⟨link, hlink, socket, hsocket, frame, hframe, heq⟩ := h
      cases heq
      refine Or.inr ⟨connectionIds_set hlink rfl, Or.inl ?_⟩
      exact ⟨link.connectionId, List.mem_map_of_mem (List.mem_of_getElem? hlink), link.socket,
        socket, hsocket, frame, List.mem_of_getElem? hframe, tick, rfl⟩
  | read i stamp =>
      simp only [move, Option.bind_eq_bind, Option.bind_eq_some_iff] at h
      obtain ⟨link, -, frame, -, heq⟩ := h
      cases heq
  | node e =>
      refine Or.inr ?_
      cases e with
      | frame connectionId raw tick =>
          simp only [move] at h
          split at h
          · cases h
          · rename_i hunlinked
            cases h
            refine ⟨rfl, Or.inr ⟨rfl, ?_⟩⟩
            rintro c raw tick heq
            cases heq
            exact hunlinked
      | _ =>
          cases h
          exact ⟨rfl, Or.inr ⟨rfl, fun _ _ _ heq => by cases heq⟩⟩

/-- The inversion lemma of the composition. -/
theorem step_eq_some {o : SessionOptions} {cfg : ServerConfig} {t : ClientServer}
    (h : s.step o cfg e = some t) :
    (∃ e' session, s.move e = some (.session e', t.links) ∧
        s.session.step o e' = some session ∧ t = { s with session, links := t.links }) ∨
      ∃ e' node, s.move e = some (.node e', t.links) ∧
        s.node.step cfg e' = some node ∧ t = { s with node, links := t.links } := by
  rw [step, Option.bind_eq_some_iff] at h
  obtain ⟨⟨move, links⟩, hmove, h⟩ := h
  cases move with
  | session e' =>
      obtain ⟨session, hstep, rfl⟩ := Option.map_eq_some_iff.mp h
      exact Or.inl ⟨e', session, hmove, hstep, rfl⟩
  | node e' =>
      obtain ⟨node, hstep, rfl⟩ := Option.map_eq_some_iff.mp h
      exact Or.inr ⟨e', node, hmove, hstep, rfl⟩

theorem sessionEvent_of_move {e' : SessionEvent} (h : s.move e = some (.session e', links)) :
    s.sessionEvent e = some e' ∧ s.nodeEvent e = none := by
  simp [sessionEvent, nodeEvent, h]

theorem nodeEvent_of_move {e' : NodeEvent} (h : s.move e = some (.node e', links)) :
    s.sessionEvent e = none ∧ s.nodeEvent e = some e' := by
  simp [sessionEvent, nodeEvent, h]

end ClientServer

end Pulse
