import Pulse.Core.Ghost
import Pulse.Redis.PresenceEffects

/-!
# A cluster with presence

The nodes of a cluster share one Redis. A node sends its presence calls over one link:
Redis executes them in the order in which they were made, and the calls of different
nodes in any interleaving. A suspended room handler goes on when its call is answered;
the calls about the lease of a connection are not waited for.
-/

namespace Pulse

open Collections Js Transition MessageDispatcher

universe u

/-- A presence call on its way to Redis. -/
structure SentCall where
  call : PresenceCall
  /-- A suspended handler waits for the answer. -/
  awaited : Bool

namespace Suspended

/-- The call that the handler waits for. -/
def call : Suspended → PresenceCall
  | .addRoomMember sender _ roomId => .addRoomMember roomId sender.userId
  | .getRoomRoster _ _ roomId => .getRoomRoster roomId
  | .batchAddRoomMember sender _ batch =>
      .addRoomMember (batch.joinedRooms.getLast?.getD "") sender.userId
  | .removeRoomMember sender _ roomId => .removeRoomMember roomId sender.userId

/-- The room which the rest of the handler joins before it waits again. -/
def joins (cfg : Config) (m : Memberships) : Suspended → Option RoomId
  | .batchAddRoomMember sender _ batch => (m.nextJoin cfg sender.connectionId batch).map Prod.fst
  | _ => none

end Suspended

namespace Memberships

/-- A registered connection of the user. -/
def HasConnection (m : Memberships) (u : UserId) (c : ConnectionId) : Prop :=
  ∃ connection ∈ m.hub.connectionManager.getConnection c, connection.userId = u

instance (m : Memberships) (u : UserId) (c : ConnectionId) : Decidable (m.HasConnection u c) :=
  inferInstanceAs (Decidable (∃ connection ∈ m.hub.connectionManager.getConnection c,
    connection.userId = u))

/-- Some registered connection of the user is in the room. -/
def IsMember (m : Memberships) (r : RoomId) (u : UserId) : Prop :=
  ∃ c, m.HasConnection u c ∧ c ∈ m.hub.roomManager.members r

/-- The calls of the handlers which were suspended behind `kept`. -/
def awaitedCalls (kept : List Suspended) (m : Memberships) : List SentCall :=
  (m.suspended.drop kept.length).map fun k => ⟨k.call, true⟩

/-- The presence calls which a node with presence makes in an event. -/
def sentCalls (m m' : Memberships) : NodeEvent → List SentCall
  | .connect connection _ =>
      [⟨.registerConnection connection.userId connection.connectionId, false⟩]
  | .frame .. => awaitedCalls m.suspended m'
  | .resume i .. => awaitedCalls (m.suspended.eraseIdx i) m'
  | .close connectionId =>
      match m.hub.connectionManager.getConnection connectionId with
      | some connection => [⟨.removeConnection connection.userId connectionId, false⟩]
      | none => []
  | _ => []

/-- The calls which a node makes apart from its handlers: the resynchronization and the renewal
of the leases of its connections, and queries. -/
def OwnCall (m : Memberships) : PresenceCall → Prop
  | .registerConnection userId connectionId => m.HasConnection userId connectionId
  | .flushLeaseRenewals active => ∀ conn ∈ active, m.HasConnection conn.1 conn.2
  | .getUserConnectionCount _ | .pruneExpired _ | .getRoomRoster _ => True
  | .removeConnection .. | .addRoomMember .. | .removeRoomMember .. => False

instance (m : Memberships) : (call : PresenceCall) → Decidable (m.OwnCall call)
  | .registerConnection userId connectionId =>
      inferInstanceAs (Decidable (m.HasConnection userId connectionId))
  | .flushLeaseRenewals active =>
      inferInstanceAs (Decidable (∀ conn ∈ active, m.HasConnection conn.1 conn.2))
  | .getUserConnectionCount _ | .pruneExpired _ | .getRoomRoster _ => isTrue trivial
  | .removeConnection .. | .addRoomMember .. | .removeRoomMember .. => isFalse id

end Memberships

structure PresenceCluster (ι : Type u) where
  nodes : ι → Node
  /-- The calls of each node which Redis has not executed yet. -/
  pending : ι → List SentCall := fun _ => []
  store : PresenceStore := {}

inductive PresenceClusterEvent (ι : Type u)
  | node (i : ι) (e : NodeEvent)
  | call (i : ι) (call : PresenceCall)
  /-- Redis executes the next call of node `i`. -/
  | execute (i : ι) (now : ℚ)

namespace PresenceCluster

variable {ι : Type u} [DecidableEq ι]

def initial (redis : ι → Option Bool) : PresenceCluster ι :=
  { nodes := fun i => .initial (redis i) true }

/-- A handler that is resumed has its answer: the handlers which still wait are the last ones that
were suspended. -/
def Answered (s : PresenceCluster ι) (i : ι) : NodeEvent → Prop
  | .resume k _ _ =>
      k + (s.pending i).countP (·.awaited) < (s.nodes i).memberships.suspended.length
  | _ => True

instance (s : PresenceCluster ι) (i : ι) : (e : NodeEvent) → Decidable (s.Answered i e)
  | .resume k _ _ => inferInstanceAs (Decidable
      (k + (s.pending i).countP (·.awaited) < (s.nodes i).memberships.suspended.length))
  | .connect .. | .frame .. | .close _ | .redisMessage .. | .subscriptionSettled ..
  | .publishSettled | .link _ | .setPresenceManager | .transport .. => isTrue trivial

def send (s : PresenceCluster ι) (i : ι) (calls : List SentCall) : PresenceCluster ι :=
  { s with pending := Function.update s.pending i (s.pending i ++ calls) }

/-- Redis executes a call, the first one of its node. -/
def execute (cfg : ι → ServerConfig) (options : PresenceManagerOptions) (s : PresenceCluster ι)
    (i : ι) (now : ℚ) (call : PresenceCall) (rest : List SentCall) : PresenceCluster ι :=
  { s with
    pending := Function.update s.pending i rest
    store := (s.store.step options ⟨(cfg i).instanceId, now, call⟩).1 }

def step (cfg : ι → ServerConfig) (options : PresenceManagerOptions) (s : PresenceCluster ι) :
    PresenceClusterEvent ι → Option (PresenceCluster ι)
  | .node i e =>
      if s.Answered i e then
        ((s.nodes i).step (cfg i) e).map fun n =>
          ({ s with nodes := Function.update s.nodes i n } : PresenceCluster ι).send i
            ((s.nodes i).memberships.sentCalls n.memberships e)
      else none
  | .call i call =>
      if (s.nodes i).memberships.OwnCall call then some (s.send i [⟨call, false⟩]) else none
  | .execute i now =>
      match s.pending i with
      | [] => none
      | call :: rest => some (s.execute cfg options i now call.call rest)

/-- No call is on its way, and no handler waits. -/
def Settled (s : PresenceCluster ι) : Prop :=
  ∀ i, s.pending i = [] ∧ (s.nodes i).memberships.suspended = []

/-- Some live connection of the user on the node is in the room. -/
def Member (s : PresenceCluster ι) (i : ι) (r : RoomId) (u : UserId) : Prop :=
  (s.nodes i).memberships.IsMember r u

/-- A call on its way puts the user into the set of the room, or takes it out. -/
def Edits (s : PresenceCluster ι) (r : RoomId) (u : UserId) (added : Bool) : Prop :=
  ∃ i, ∃ sent ∈ s.pending i, sent.call.edit r u = some added

end PresenceCluster

end Pulse
