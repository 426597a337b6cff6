import Pulse.Core.BatchJoin
import Pulse.Core.Sending
import Pulse.Event.Frame

/-!
# Presence updates

What a presence manager publishes when a script reports that a user came online or went
offline. The rooms named by the update are asked of the node when the update is built,
which for a closed connection is after the node forgot it. So an update about the last
connection of a user names only what other connections, opened since, have joined.
-/

namespace Pulse

open Collections Js Transition MessageDispatcher Socket

inductive PresenceStatus
  | online
  | offline
  deriving DecidableEq, Repr

namespace PresenceStatus

def text : PresenceStatus → String
  | online => "ONLINE"
  | offline => "OFFLINE"

end PresenceStatus

/-- The event of `publishPresenceUpdate`. -/
def presenceUpdate (instanceId : String) (userId : UserId) (status : PresenceStatus)
    (activeConnections : Nat) (rooms : Option (List RoomId)) (fresh : Fresh) :
    PulseEventEnvelope :=
  { eventId := fresh.eventId
    type := .presenceUpdate
    timestamp := .ofInt fresh.now
    senderId := "system"
    originInstanceId := some instanceId
    originTimestampMs := some (.ofInt fresh.now)
    payload := [("userId", .str userId), ("status", .str status.text),
      ("activeConnections", jsonNat activeConnections)] ++
      Fields.property "rooms" (rooms.map fun rooms => .arr (rooms.map .str)) }

namespace Memberships

/-- The rooms of the connections of a user, as the server tells its presence manager. -/
def roomsProvider (m : Memberships) (userId : UserId) : List RoomId :=
  (((m.hub.connectionManager.getConnectionsByUserId userId).flatMap fun c =>
    (m.rooms c.connectionId).toList).foldl OrderedSet.insert ∅).toList

theorem WellFormed.mem_roomsProvider {m : Memberships} (h : m.WellFormed) {u : UserId}
    {r : RoomId} :
    r ∈ m.roomsProvider u ↔
      ∃ connection, m.hub.connectionManager.getConnection connection.connectionId =
        some connection ∧ connection.userId = u ∧ r ∈ m.rooms connection.connectionId := by
  rw [roomsProvider, ← OrderedSet.mem_def, OrderedSet.mem_foldl_insert]
  simp only [OrderedSet.not_mem_empty, false_or, List.mem_flatMap,
    h.indexed.mem_getConnectionsByUserId, and_assoc]
  rfl

end Memberships

namespace Node

def publishPresenceUpdate (cfg : ServerConfig) (n : Node) (userId : UserId)
    (status : PresenceStatus) (activeConnections : Nat) (rooms : Option (List RoomId))
    (fresh : Fresh) : Node :=
  match n.memberships.hub.channelRegistry with
  | none => n
  | some subscriptions =>
      if subscriptions.pubSub.connected then
        match subscriptions.pubSub.publish CHANNEL_PRESENCE_EVENTS
            (presenceUpdate cfg.instanceId userId status activeConnections rooms fresh) with
        | .error _ => n
        | .ok pubSub =>
            { n with
              memberships := { n.memberships with
                hub := { n.memberships.hub with
                  channelRegistry := some { subscriptions with pubSub } } } }
      else n

/-- What `removeConnection` of the presence manager does when the number of remaining
connections arrives; `transition` is the result of the script. -/
def removeAnswered (cfg : ServerConfig) (n : Node) (userId : UserId)
    (transition activeConnections : Nat) (fresh : Fresh) : Node :=
  if transition = 1 then
    n.publishPresenceUpdate cfg userId .offline activeConnections
      (some (n.memberships.roomsProvider userId)) fresh
  else n

theorem publishPresenceUpdate_published (cfg : ServerConfig) (n : Node) (userId : UserId)
    (status : PresenceStatus) (activeConnections : Nat) (rooms : Option (List RoomId))
    (fresh : Fresh) :
    (n.publishPresenceUpdate cfg userId status activeConnections rooms fresh).published =
        n.published ∨
      (n.publishPresenceUpdate cfg userId status activeConnections rooms fresh).published =
        n.published ++ [(CHANNEL_PRESENCE_EVENTS,
          presenceUpdate cfg.instanceId userId status activeConnections rooms fresh)] := by
  rw [publishPresenceUpdate]
  split
  · exact Or.inl rfl
  · rename_i subscriptions hregistry
    split
    · split
      · exact Or.inl rfl
      · rename_i pubSub hpublished
        refine Or.inr ?_
        simp only [RedisPubSubManager.publish] at hpublished
        split at hpublished
        · cases hpublished
        · split at hpublished
          · cases hpublished
          · cases hpublished
            simp only [published, hregistry]
    · exact Or.inl rfl

/-- What a removal publishes, if it publishes anything. -/
theorem removeAnswered_of_longer {cfg : ServerConfig} {n : Node} {userId : UserId}
    {transition activeConnections : Nat} {fresh : Fresh}
    (h : n.published.length <
      (n.removeAnswered cfg userId transition activeConnections fresh).published.length) :
    (n.removeAnswered cfg userId transition activeConnections fresh).published =
      n.published ++ [(CHANNEL_PRESENCE_EVENTS, presenceUpdate cfg.instanceId userId .offline
        activeConnections (some (n.memberships.roomsProvider userId)) fresh)] := by
  rw [removeAnswered] at h ⊢
  split at h
  · rename_i htransition
    rw [if_pos htransition]
    refine (publishPresenceUpdate_published cfg n userId .offline activeConnections
      (some (n.memberships.roomsProvider userId)) fresh).resolve_left fun hsame => ?_
    rw [hsame] at h
    exact absurd h (Nat.lt_irrefl _)
  · exact absurd h (Nat.lt_irrefl _)

theorem removeAnswered_published {cfg : ServerConfig} {n : Node} {userId : UserId}
    {transition activeConnections : Nat} {fresh : Fresh} {channel : Channel}
    {envelope : PulseEventEnvelope}
    (h : (n.removeAnswered cfg userId transition activeConnections fresh).published =
      n.published ++ [(channel, envelope)]) :
    envelope = presenceUpdate cfg.instanceId userId .offline activeConnections
      (some (n.memberships.roomsProvider userId)) fresh := by
  have hmore : n.published.length <
      (n.removeAnswered cfg userId transition activeConnections fresh).published.length := by
    rw [h]
    simp
  rw [removeAnswered_of_longer hmore] at h
  have hlast := List.append_cancel_left h
  rw [List.singleton_inj, Prod.mk.injEq] at hlast
  exact hlast.2.symm

end Node

namespace MessageDispatcher

theorem mem_presenceTargets {m : Memberships} {userId : UserId} {hintRooms : List Json}
    {r : RoomId} {c : ConnectionId} (hint : .str r ∈ hintRooms)
    (member : c ∈ m.hub.roomManager.members r) : c ∈ presenceTargets m userId hintRooms := by
  have hsome : hintRooms.isEmpty = false := by
    cases hintRooms with
    | nil => cases hint
    | cons => rfl
  rw [presenceTargets, hsome]
  simp only [Bool.false_eq_true, if_false, OrderedSet.mem_foldl_insert,
    OrderedSet.not_mem_empty, false_or]
  exact List.mem_flatMap.mpr ⟨r, List.mem_filterMap.mpr ⟨.str r, hint, rfl⟩, member⟩

/-- The hint is the list of the rooms, unless it is no list. -/
theorem hintRooms_of_named {envelope : PulseEventEnvelope} {room : Json}
    (named : room ∈ namedRooms envelope) : hintRooms envelope = namedRooms envelope := by
  rw [namedRooms] at named ⊢
  rw [hintRooms]
  split at named
  · rename_i hrooms
    rw [hrooms]
  · cases named

/-- A presence event that is processed reaches the members of every room it names. -/
theorem handleInboundPresence_reaches {n : Node} {envelope : PulseEventEnvelope}
    (wf : n.memberships.WellFormed) (processed : (handleInboundPresence n envelope).2 = true)
    {r : RoomId} (named : .str r ∈ namedRooms envelope) {connection : Connection}
    (member : connection.connectionId ∈ n.memberships.hub.roomManager.members r)
    (registered : n.getConnection connection.connectionId = some connection)
    (login : connection.userId ≠ "" ∧ connection.userId ≠ "anonymous")
    (writable : (n.sockets connection.connectionId).Writable connection.maxBufferedAmountBytes) :
    ((handleInboundPresence n envelope).1.sockets connection.connectionId).sent =
      (n.sockets connection.connectionId).sent ++ [envelope] := by
  have hrecipient : ∀ userId, connection ∈ ((presenceTargets n.memberships userId
      (namedRooms envelope)).toList.filterMap n.getConnection).filter fun c =>
        c.userId ≠ "" ∧ c.userId ≠ "anonymous" := by
    intro userId
    refine List.mem_filter.mpr ⟨List.mem_filterMap.mpr ⟨_, ?_, registered⟩, decide_eq_true login⟩
    exact mem_presenceTargets named member
  have hdistinct : ∀ userId, ((((presenceTargets n.memberships userId
      (namedRooms envelope)).toList.filterMap n.getConnection).filter fun c =>
        c.userId ≠ "" ∧ c.userId ≠ "anonymous").map (·.connectionId)).Nodup :=
    fun userId => (wf.nodup_registered (presenceTargets n.memberships userId
      (namedRooms envelope)).nodup).sublist (List.filter_sublist.map Connection.connectionId)
  rw [handleInboundPresence] at processed ⊢
  split at processed
  · rename_i userId status huser hstatus
    split at processed
    · cases processed
    · rename_i hnamed
      split at processed
      · cases processed
      · rename_i hfresh
        rw [if_neg hnamed, if_neg hfresh]
        simp only [deliverRoomScopedPresence, hintRooms_of_named named]
        split
        · exact Node.deliver_reaches (hdistinct userId) (hrecipient userId) envelope writable
        · exact Node.deliver_reaches (hdistinct userId) (hrecipient userId) envelope writable
  · cases processed

end MessageDispatcher

/-- The event names all these rooms, and every node which processes it sends it to the
members of each of them that are logged in and whose sockets take frames. -/
structure ReachesRooms (envelope : PulseEventEnvelope) (rooms : OrderedSet RoomId) : Prop where
  names : ∀ r ∈ rooms, .str r ∈ namedRooms envelope
  delivers : ∀ (cfg : ServerConfig) (redis : Option Bool) (presence : Bool)
    (es : List NodeEvent) (n : Node) (channel : Channel) (tick : Tick),
    run (Node.step cfg) (.initial redis presence) es = some n →
    (handleInboundRedisEvent cfg n channel (some envelope.toJson) tick).2 = true →
    ∀ r ∈ rooms, ∀ connection : Connection,
      connection.connectionId ∈ n.memberships.hub.roomManager.members r →
      n.getConnection connection.connectionId = some connection →
      connection.userId ≠ "" ∧ connection.userId ≠ "anonymous" →
      (n.sockets connection.connectionId).Writable connection.maxBufferedAmountBytes →
      ∃ f : PulseEventEnvelope, f.type = .presenceUpdate ∧
        f.payload = reparseFields envelope.payload ∧
        ((handleInboundRedisEvent cfg n channel (some envelope.toJson) tick).1.sockets
          connection.connectionId).sent = (n.sockets connection.connectionId).sent ++ [f]

theorem namedRooms_presenceUpdate (instanceId : String) (userId : UserId)
    (status : PresenceStatus) (activeConnections : Nat) (rooms : List RoomId) (fresh : Fresh) :
    namedRooms (presenceUpdate instanceId userId status activeConnections (some rooms) fresh) =
      rooms.map .str := by
  simp [namedRooms, presenceUpdate]

/-- Parsing leaves the names of rooms as they are. -/
theorem namedRooms_of_payload {envelope f : PulseEventEnvelope}
    (h : f.payload = reparseFields envelope.payload) {r : RoomId}
    (named : .str r ∈ namedRooms envelope) : .str r ∈ namedRooms f := by
  rw [namedRooms, h, get?_reparseFields]
  rw [namedRooms] at named
  split at named
  · rename_i rooms hrooms
    simp only [hrooms, Option.map_some, reparse, reparseElements_eq_map]
    exact List.mem_map.mpr ⟨.str r, named, rfl⟩
  · cases named

/-- Naming the rooms is enough. -/
theorem reachesRooms_of_names {envelope : PulseEventEnvelope} {rooms : OrderedSet RoomId}
    (type : envelope.type = .presenceUpdate)
    (names : ∀ r ∈ rooms, .str r ∈ namedRooms envelope) : ReachesRooms envelope rooms where
  names := names
  delivers := by
    intro cfg redis presence es n channel tick reached processed r hr connection member registered
      login writable
    have hwf := invariant (Node.wellFormed_step cfg) (Node.wellFormed_initial redis presence)
      reached
    cases hevent : foreignEvent cfg (some envelope.toJson) tick with
    | none =>
        rw [handleInboundRedisEvent_of_none hevent] at processed
        cases processed
    | some f =>
        have hvalid : EventValidator.validateDistributed envelope.toJson tick.frame = .ok f := by
          have hsome := (Option.filter_eq_some_iff.mp hevent).1
          rw [Option.bind_some] at hsome
          cases hresult : EventValidator.validateDistributed envelope.toJson tick.frame with
          | error e => rw [hresult] at hsome; cases hsome
          | ok found => rw [hresult] at hsome; cases hsome; rfl
        obtain ⟨hcarries, -⟩ := EventValidator.validateDistributed_toJson hvalid
        have htype : f.type = .presenceUpdate := hcarries.type.trans type
        have hreaches : ∀ n₁ : Node, n₁.memberships = n.memberships → n₁.sockets = n.sockets →
            (handleInboundPresence n₁ f).2 = true →
            ((handleInboundPresence n₁ f).1.sockets connection.connectionId).sent =
              (n.sockets connection.connectionId).sent ++ [f] := by
          intro n₁ hmemberships hsockets hprocessed
          rw [← hmemberships] at hwf member
          rw [Node.getConnection, ← hmemberships] at registered
          rw [← hsockets] at writable ⊢
          exact handleInboundPresence_reaches hwf hprocessed
            (namedRooms_of_payload hcarries.payload (names r hr)) member registered login writable
        rw [handleInboundRedisEvent_of_some hevent] at processed ⊢
        simp only at processed ⊢
        split at processed
        · cases processed
        · rename_i hnew
          rw [if_neg hnew]
          simp only [deliverInbound, htype] at processed ⊢
          exact ⟨f, htype, hcarries.payload, hreaches _ rfl rfl processed⟩

namespace Node

variable {cfg : ServerConfig}

/-- No connection of a user that is registered after its last one was closed is older. -/
theorem registered_after_close {u : UserId} {c : ConnectionId} {n n' : Node}
    {later : List NodeEvent} (wf : n.memberships.WellFormed)
    (last : ∀ other, n.getConnection other.connectionId = some other → other.userId = u →
      other.connectionId = c)
    (closed : run (step cfg) n (.close c :: later) = some n') :
    ∀ other, n'.getConnection other.connectionId = some other → other.userId = u →
      other.connectionId ∉ n.memberships.known := by
  rw [run_cons, Option.bind_eq_some_iff] at closed
  obtain ⟨n₁, hclose, hlater⟩ := closed
  have heffect := step_effect hclose
  -- Behind the close only connections that are new since then belong to the user.
  refine (invariant (I := fun m : Node => m.memberships.WellFormed ∧
      (∀ c' ∈ n.memberships.known, c' ∈ m.memberships.known) ∧
      ∀ other, m.getConnection other.connectionId = some other → other.userId = u →
        other.connectionId ∉ n.memberships.known) ?_ ?_ hlater).2.2
  · rintro m e m' ⟨hwf, hknown, hnew⟩ hstep
    have heffect := step_effect hstep
    refine ⟨wellFormed_step cfg m e m' hwf hstep,
      fun c' hc' => heffect.known_mono (hknown c' hc'), ?_⟩
    intro other hother huser hold
    rcases heffect.registered hother with hbefore | ⟨hfresh, -⟩
    · exact hnew other hbefore huser hold
    · exact hfresh (hknown _ hold)
  · refine ⟨wellFormed_step cfg n _ n₁ wf hclose, fun c' hc' => heffect.known_mono hc', ?_⟩
    intro other hother huser hold
    rcases heffect.registered hother with hbefore | ⟨hfresh, -⟩
    · have hkey : other.connectionId ∈ n₁.memberships.hub.connectionManager.connections.keys :=
        OrderedMap.mem_keys_of_get? hother
      rw [heffect.2, Memberships.mem_keys_close] at hkey
      exact hkey.1 (last other hbefore huser)
    · exact hfresh hold

/-- What a node publishes when the last connection of a user is closed and the script reports
that the user is offline names the rooms of that connection, and so reaches their members, if
and only if each of them has been joined again meanwhile by a connection of the user that was
opened after the close. -/
theorem offline_reaches_rooms_iff (cfg : ServerConfig) (redis : Option Bool) (presence : Bool)
    (es : List NodeEvent) (n : Node)
    (reached : run (step cfg) (initial redis presence) es = some n)
    (u : UserId) (c : ConnectionId)
    (last : ∀ other, n.getConnection other.connectionId = some other → other.userId = u →
      other.connectionId = c)
    (later : List NodeEvent) (n' : Node)
    (closed : run (step cfg) n (.close c :: later) = some n')
    (transition activeConnections : Nat) (fresh : Fresh) (channel : Channel)
    (envelope : PulseEventEnvelope)
    (published : (n'.removeAnswered cfg u transition activeConnections fresh).published =
      n'.published ++ [(channel, envelope)]) :
    ReachesRooms envelope (n.memberships.rooms c) ↔
      ∀ r ∈ n.memberships.rooms c, ∃ other : Connection,
        other.connectionId ∉ n.memberships.known ∧ other.userId = u ∧
        n'.getConnection other.connectionId = some other ∧
        other.connectionId ∈ n'.memberships.hub.roomManager.members r := by
  have hwf := invariant (wellFormed_step cfg) (wellFormed_initial redis presence) reached
  have hwf' := invariant (wellFormed_step cfg) hwf closed
  have hnew := registered_after_close hwf last closed
  rw [removeAnswered_published published]
  have hnamed : ∀ r, .str r ∈ namedRooms (presenceUpdate cfg.instanceId u .offline
      activeConnections (some (n'.memberships.roomsProvider u)) fresh) ↔
        ∃ other, n'.getConnection other.connectionId = some other ∧
          other.userId = u ∧ r ∈ n'.memberships.rooms other.connectionId := by
    intro r
    rw [namedRooms_presenceUpdate, List.mem_map_of_injective fun _ _ h => Json.str.inj h]
    exact hwf'.mem_roomsProvider
  have hagree : ∀ {other : Connection} {r : RoomId},
      n'.getConnection other.connectionId = some other →
      (r ∈ n'.memberships.rooms other.connectionId ↔
        other.connectionId ∈ n'.memberships.hub.roomManager.members r) :=
    fun hother => hwf'.agree _ (hwf'.registered hother).2.1 _
  constructor
  · intro hreaches r hr
    obtain ⟨other, hother, huser, hroom⟩ := (hnamed r).mp (hreaches.names r hr)
    exact ⟨other, hnew other hother huser, huser, hother, (hagree hother).mp hroom⟩
  · intro hrejoined
    refine reachesRooms_of_names rfl fun r hr => ?_
    obtain ⟨other, -, huser, hother, hmember⟩ := hrejoined r hr
    exact (hnamed r).mpr ⟨other, hother, huser, (hagree hother).mpr hmember⟩

def closeConfig : ServerConfig :=
  { instanceId := "node-a", idempotency := { capacity := 10, digest := id } }

def closeTick (replyId : EventId) : Tick := { now := 0, frameId := "unused", replyId }

/-- Alice connects and joins a room. -/
def joinRun : List NodeEvent :=
  [.connect { connectionId := "c1", userId := "alice" } (closeTick "r1"),
    .frame "c1" (some (roomFrame .roomJoin "general" none)) (closeTick "r2")]

/-- Alice closes her connection, opens another one and joins the room again. -/
def rejoinRun : List NodeEvent :=
  [.close "c1", .connect { connectionId := "c2", userId := "alice" } (closeTick "r3"),
    .frame "c2" (some (roomFrame .roomJoin "general" none)) (closeTick "r4")]

/-- The states behind two runs, and that the removal is published there. -/
def removalPublished (first later : List NodeEvent) : Option (Node × Node) :=
  (run (step closeConfig) (initial (some true) true) first).bind fun n =>
    ((run (step closeConfig) n later).filter fun n' =>
      decide (n'.published.length <
        (n'.removeAnswered closeConfig "alice" 1 0 ⟨0, "p1"⟩).published.length)).map fun n' =>
          (n, n')

theorem removalPublished_eq_some {first later : List NodeEvent} {n n' : Node}
    (h : removalPublished first later = some (n, n')) :
    run (step closeConfig) (initial (some true) true) first = some n ∧
      run (step closeConfig) n later = some n' ∧
      (n'.removeAnswered closeConfig "alice" 1 0 ⟨0, "p1"⟩).published = n'.published ++
        [(CHANNEL_PRESENCE_EVENTS, presenceUpdate "node-a" "alice" .offline 0
          (some (n'.memberships.roomsProvider "alice")) ⟨0, "p1"⟩)] := by
  rw [removalPublished, Option.bind_eq_some_iff] at h
  obtain ⟨n₀, hfirst, h⟩ := h
  obtain ⟨n₁, hfound, hpair⟩ := Option.map_eq_some_iff.mp h
  cases hpair
  obtain ⟨hlater, hlonger⟩ := Option.filter_eq_some_iff.mp hfound
  exact ⟨hfirst, hlater, removeAnswered_of_longer (of_decide_eq_true hlonger)⟩

/-- Alice was back in the room before the update was built, which so names it. -/
theorem offline_reaches_rooms_rejoined : ∃ n n' : Node,
    removalPublished joinRun rejoinRun = some (n, n') ∧ "general" ∈ n.memberships.rooms "c1" ∧
      ReachesRooms (presenceUpdate "node-a" "alice" .offline 0
        (some (n'.memberships.roomsProvider "alice")) ⟨0, "p1"⟩) (n.memberships.rooms "c1") := by
  have hpublished : (removalPublished joinRun rejoinRun).any (fun s =>
      decide (s.1.memberships.hub.connectionManager.connections.keys = ["c1"]) &&
        decide ((s.1.memberships.rooms "c1").toList = ["general"]) &&
        decide ("c2" ∉ s.1.memberships.known) &&
        decide (s.2.getConnection "c2" = some { connectionId := "c2", userId := "alice" }) &&
        decide ("c2" ∈ s.2.memberships.hub.roomManager.members "general")) = true := by
    decide +kernel
  obtain ⟨⟨n, n'⟩, hsome, hstates⟩ := (Option.any_eq_true _ _).mp hpublished
  simp only [Bool.and_eq_true, decide_eq_true_eq] at hstates
  obtain ⟨⟨⟨⟨honly, hrooms⟩, hnew⟩, hopen⟩, hmember⟩ := hstates
  obtain ⟨hreached, hclosed, hevent⟩ := removalPublished_eq_some hsome
  have hlast : ∀ other, n.getConnection other.connectionId = some other →
      other.userId = "alice" → other.connectionId = "c1" := by
    intro other hother _
    have hkey := OrderedMap.mem_keys_of_get? hother
    rw [honly] at hkey
    exact List.mem_singleton.mp hkey
  refine ⟨n, n', hsome, by rw [OrderedSet.mem_def, hrooms]; exact List.mem_singleton_self _, ?_⟩
  refine (offline_reaches_rooms_iff closeConfig (some true) true joinRun n hreached "alice" "c1"
    hlast _ n' hclosed 1 0 ⟨0, "p1"⟩ CHANNEL_PRESENCE_EVENTS _ hevent).mpr fun r hr => ?_
  rw [OrderedSet.mem_def, hrooms, List.mem_singleton] at hr
  rw [hr]
  exact ⟨{ connectionId := "c2", userId := "alice" }, hnew, rfl, hopen, hmember⟩

/-- Alice was in a room when she closed her only connection, and the update names none. -/
theorem offline_names_no_room : ∃ n n' envelope,
    run (step closeConfig) (initial (some true) true) joinRun = some n ∧
    n.memberships.hub.connectionManager.connections.keys = ["c1"] ∧
    run (step closeConfig) n [.close "c1"] = some n' ∧
    (n'.removeAnswered closeConfig "alice" 1 0 ⟨0, "p1"⟩).published =
      n'.published ++ [(CHANNEL_PRESENCE_EVENTS, envelope)] ∧
    ¬ ReachesRooms envelope (n.memberships.rooms "c1") := by
  have hpublished : (removalPublished joinRun [.close "c1"]).any (fun s =>
      decide (s.1.memberships.hub.connectionManager.connections.keys = ["c1"]) &&
        decide ("general" ∈ s.1.memberships.rooms "c1") &&
        decide (s.2.memberships.roomsProvider "alice" = [])) = true := by
    decide +kernel
  obtain ⟨⟨n, n'⟩, hsome, hstates⟩ := (Option.any_eq_true _ _).mp hpublished
  simp only [Bool.and_eq_true, decide_eq_true_eq] at hstates
  obtain ⟨⟨honly, hroom⟩, hnone⟩ := hstates
  obtain ⟨hreached, hclosed, hevent⟩ := removalPublished_eq_some hsome
  refine ⟨n, n', _, hreached, honly, hclosed, hevent, fun hreaches => ?_⟩
  have hnamed := hreaches.names "general" hroom
  rw [namedRooms_presenceUpdate, hnone] at hnamed
  cases hnamed

end Node

end Pulse
