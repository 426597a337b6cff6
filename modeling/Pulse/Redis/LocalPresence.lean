import Pulse.Redis.PresenceManager
import Pulse.Redis.PresenceMetrics
import Mathlib.Data.List.Dedup

/-!
# Local bookkeeping of connections

The map of local connections which a presence manager keeps beside Redis, under
calls that overlap. A registration writes the map when the replies to its
script and to the count of the user's connections are in; a removal deletes
from it before it issues its script. Replies come in the order of the commands.
-/

namespace Pulse

open Collections Transition

inductive PresenceAction where
  | register
  | remove
  deriving DecidableEq, Repr

/-- The reply which a call awaits: of its script, or of the two commands of
`getUserConnectionCount`. -/
inductive PresenceStage where
  | script
  | prune
  | card
  deriving DecidableEq, Repr

/-- A command without reply, and the call which awaits it. -/
structure PresenceCommand where
  action : PresenceAction
  userId : UserId
  connectionId : ConnectionId
  stage : PresenceStage := .script
  /-- Whether the script reported a transition of the user. -/
  transition : Bool := false
  deriving DecidableEq, Repr

def PresenceCommand.target (k : PresenceCommand) : UserId × ConnectionId :=
  (k.userId, k.connectionId)

structure LocalPresence where
  instanceId : String
  localConnections : OrderedMap ConnectionId (UserId × ConnectionId) := ∅
  metrics : PresenceRedisMetrics := {}
  /-- In the order of issue. -/
  pending : List PresenceCommand := []
  /-- The calls which await their publication. -/
  publishing : List (UserId × ConnectionId) := []
  /-- The registrations called so far. -/
  called : List (UserId × ConnectionId) := []
  /-- Those of them whose script succeeded. -/
  registered : List (UserId × ConnectionId) := []
  /-- The connections whose removal was called. -/
  removed : List ConnectionId := []
  deriving DecidableEq

namespace LocalPresence

/-- The number of different users in the map. -/
def onlineUsers (s : LocalPresence) : Nat :=
  (s.localConnections.values.map Prod.fst).dedup.length

def updateActiveMetrics (s : LocalPresence) : LocalPresence :=
  { s with
    metrics := (s.metrics.setPresenceCounts s.onlineUsers s.localConnections.size).own
      (·.setGauges s.onlineUsers s.localConnections.size) }

/-- `presence.users.online` and `presence.connections.active` of `getMetricsSnapshot`. -/
def getMetricsSnapshot (s : LocalPresence) : Nat × Nat :=
  (s.onlineUsers, s.localConnections.size)

def issue (s : LocalPresence) (command : PresenceCommand) : LocalPresence :=
  { s with pending := s.pending ++ [command] }

/-- The script of a call; a refused identifier is an error which the call catches. -/
def executeScript (s : LocalPresence) (action : PresenceAction) (userId : UserId)
    (connectionId : ConnectionId) : LocalPresence :=
  match leaseKey s.instanceId userId connectionId with
  | .ok _ => s.issue { action, userId, connectionId }
  | .error _ => s

def registerConnection (s : LocalPresence) (userId : UserId) (connectionId : ConnectionId) :
    LocalPresence :=
  let s := { s with called := s.called ++ [(userId, connectionId)] }
  if userId = "" ∨ connectionId = "" then s else s.executeScript .register userId connectionId

def removeConnection (s : LocalPresence) (userId : UserId) (connectionId : ConnectionId) :
    LocalPresence :=
  let s := { s with removed := s.removed ++ [connectionId] }
  if userId = "" ∨ connectionId = "" then s
  else
    let s := { s with localConnections := s.localConnections.delete connectionId }
    s.updateActiveMetrics.executeScript .remove userId connectionId

/-- A call once the user's connections are counted. -/
def counted (s : LocalPresence) (k : PresenceCommand) : LocalPresence :=
  let s :=
    match k.action with
    | .register =>
        { s with
          localConnections := s.localConnections.set k.connectionId k.target }.updateActiveMetrics
    | .remove => s
  if k.transition then { s with publishing := s.publishing ++ [k.target] } else s

/-- A call once its script succeeded. -/
def scriptDone (s : LocalPresence) (k : PresenceCommand) (result : Nat) : LocalPresence :=
  let s :=
    match k.action with
    | .register => { s with registered := s.registered ++ [k.target] }
    | .remove => s
  s.issue { k with stage := .prune, transition := result = 1 }

/-- A call with its reply; `none` is an error. -/
def resume (s : LocalPresence) (k : PresenceCommand) (result : Option Nat) : LocalPresence :=
  match k.stage, result with
  | .script, some result => s.scriptDone k result
  | .script, none => s
  | .prune, some _ => s.issue { k with stage := .card }
  -- an error of the count is caught, and the count is zero
  | .prune, none => s.counted k
  | .card, _ => s.counted k

inductive Event where
  | registerConnection (userId : UserId) (connectionId : ConnectionId)
  | removeConnection (userId : UserId) (connectionId : ConnectionId)
  /-- The reply to the oldest command. -/
  | reply (result : Option Nat)
  | published (index : Nat)
  deriving DecidableEq, Repr

/-- Connections are distinct: each is registered once, and removed at most once after its
registration was called. -/
def step (s : LocalPresence) : Event → Option LocalPresence
  | .registerConnection userId connectionId =>
      if connectionId ∈ s.called.map Prod.snd then none
      else some (s.registerConnection userId connectionId)
  | .removeConnection userId connectionId =>
      if (userId, connectionId) ∈ s.called ∧ connectionId ∉ s.removed then
        some (s.removeConnection userId connectionId)
      else none
  | .reply result =>
      match s.pending with
      | [] => none
      | k :: rest => some ({ s with pending := rest }.resume k result)
  | .published index =>
      if index < s.publishing.length then
        some { s with publishing := s.publishing.eraseIdx index }
      else none

/-- All calls have settled. -/
def Settled (s : LocalPresence) : Prop := s.pending = [] ∧ s.publishing = []

instance (s : LocalPresence) : Decidable s.Settled := instDecidableAnd

/-- The figures are those of the map. -/
structure FiguresExact (s : LocalPresence) : Prop where
  users : s.metrics.presenceUsersOnline = s.onlineUsers
  connections : s.metrics.presenceConnectionsActive = s.localConnections.size
  usersGauge : s.metrics.registry.usersOnline = s.onlineUsers
  connectionsGauge : s.metrics.registry.connectionsActive = s.localConnections.size
  snapshot : s.getMetricsSnapshot = (s.onlineUsers, s.localConnections.size)

/-- The map has the connections which were registered and not removed, and the figures are
those of the map. -/
structure Exact (s : LocalPresence) : Prop where
  entries : ∀ connectionId v, s.localConnections.get? connectionId = some v ↔
    v.2 = connectionId ∧ v ∈ s.registered ∧ connectionId ∉ s.removed
  figures : s.FiguresExact

/-- The connection which an event writes to the map. -/
def writes (s : LocalPresence) : Event → Option ConnectionId
  | .reply result =>
      match s.pending with
      | [] => none
      | k :: _ =>
          if k.action = .register ∧ (k.stage = .card ∨ k.stage = .prune ∧ result = none) then
            some k.connectionId
          else none
  | _ => none

/-- A registration that writes the map was not overtaken by the removal of its connection. -/
def InTime (s : LocalPresence) (e : Event) : Prop :=
  ∀ connectionId, s.writes e = some connectionId → connectionId ∉ s.removed

instance (s : LocalPresence) (e : Event) : Decidable (s.InTime e) :=
  inferInstanceAs (Decidable (∀ connectionId ∈ s.writes e, connectionId ∉ s.removed))

/-- No removed connection is in the map. -/
def NoLeak (s : LocalPresence) : Prop :=
  ∀ connectionId ∈ s.removed, s.localConnections.get? connectionId = none

/-- What holds of the calls and of the map, whatever order they come in. -/
structure Tracked (s : LocalPresence) : Prop where
  distinct : (s.called.map Prod.snd).Nodup
  registered : ∀ v ∈ s.registered, v ∈ s.called ∧ v.1 ≠ "" ∧ v.2 ≠ ""
  pending : ∀ k ∈ s.pending, k.action = .register →
    k.target ∈ s.called ∧ k.userId ≠ "" ∧ k.connectionId ≠ "" ∧
      (k.stage ≠ .script → k.target ∈ s.registered)
  entries : ∀ connectionId v, s.localConnections.get? connectionId = some v →
    v.2 = connectionId ∧ v ∈ s.registered
  written : ∀ v ∈ s.registered, v.2 ∈ s.removed ∨ s.localConnections.get? v.2 = some v ∨
    ∃ k ∈ s.pending, k.action = .register ∧ k.stage ≠ .script ∧ k.target = v
  figures : s.FiguresExact

variable {s t : LocalPresence}

theorem tracked_initial (instanceId : String) : Tracked { instanceId } where
  distinct := List.nodup_nil
  registered := nofun
  pending := nofun
  entries := by
    intro connectionId v h
    cases h
  written := nofun
  figures := ⟨rfl, rfl, rfl, rfl, rfl⟩

theorem figures_updateActiveMetrics (s : LocalPresence) : s.updateActiveMetrics.FiguresExact :=
  ⟨rfl, rfl, rfl, rfl, rfl⟩

theorem executeScript_cases (s : LocalPresence) (action : PresenceAction) (userId : UserId)
    (connectionId : ConnectionId) :
    s.executeScript action userId connectionId = s ∨
      s.executeScript action userId connectionId = s.issue { action, userId, connectionId } := by
  rw [executeScript]
  split
  · exact .inr rfl
  · exact .inl rfl

/-- The books of two states are the same: all but what is pending and published. -/
structure SameBooks (s t : LocalPresence) : Prop where
  localConnections : t.localConnections = s.localConnections
  metrics : t.metrics = s.metrics
  called : t.called = s.called
  registered : t.registered = s.registered
  removed : t.removed = s.removed

theorem SameBooks.figures (same : SameBooks s t) (h : s.FiguresExact) : t.FiguresExact := by
  have users : t.onlineUsers = s.onlineUsers := by
    rw [onlineUsers, same.localConnections, onlineUsers]
  constructor
  · rw [same.metrics, users]
    exact h.users
  · rw [same.metrics, same.localConnections]
    exact h.connections
  · rw [same.metrics, users]
    exact h.usersGauge
  · rw [same.metrics, same.localConnections]
    exact h.connectionsGauge
  · rfl

theorem sameBooks_issue (s : LocalPresence) (k : PresenceCommand) : SameBooks s (s.issue k) :=
  ⟨rfl, rfl, rfl, rfl, rfl⟩

/-- Registrations which await a reply may change their places and move on. -/
theorem Tracked.repend (h : s.Tracked) (same : SameBooks s t)
    (from_old : ∀ k ∈ t.pending, k.action = .register → ∃ k₀ ∈ s.pending,
      k₀.action = .register ∧ k₀.target = k.target ∧ (k.stage ≠ .script → k₀.stage ≠ .script))
    (kept : ∀ k ∈ s.pending, k.action = .register → k.stage ≠ .script → ∃ k' ∈ t.pending,
      k'.action = .register ∧ k'.stage ≠ .script ∧ k'.target = k.target) : t.Tracked where
  distinct := same.called ▸ h.distinct
  registered := by
    rw [same.registered, same.called]
    exact h.registered
  pending := by
    intro k hk register
    obtain ⟨k₀, hk₀, register₀, target, stage⟩ := from_old k hk register
    obtain ⟨called, user, connection, done⟩ := h.pending k₀ hk₀ register₀
    have ids : k₀.userId = k.userId ∧ k₀.connectionId = k.connectionId := Prod.mk.inj target
    rw [target] at called done
    rw [ids.1] at user
    rw [ids.2] at connection
    rw [same.called, same.registered]
    exact ⟨called, user, connection, fun hstage => done (stage hstage)⟩
  entries := by
    rw [same.localConnections, same.registered]
    exact h.entries
  written := by
    intro v hv
    rw [same.registered] at hv
    rw [same.removed, same.localConnections]
    obtain hremoved | hin | ⟨k, hk, register, stage, target⟩ := h.written v hv
    · exact .inl hremoved
    · exact .inr (.inl hin)
    · obtain ⟨k', hk', register', stage', target'⟩ := kept k hk register stage
      exact .inr (.inr ⟨k', hk', register', stage', target'.trans target⟩)
  figures := same.figures h.figures

/-- One connection is registered for one user. -/
theorem Tracked.eq_of_called (h : s.Tracked) {v w : UserId × ConnectionId} (hv : v ∈ s.called)
    (hw : w ∈ s.called) (same : v.2 = w.2) : v = w :=
  List.inj_on_of_nodup_map h.distinct hv hw same

section calls

variable {connectionId : ConnectionId}

theorem Tracked.call (h : s.Tracked) (userId : UserId)
    (fresh : connectionId ∉ s.called.map Prod.snd) :
    Tracked { s with called := s.called ++ [(userId, connectionId)] } where
  distinct := by
    rw [List.map_append]
    exact h.distinct.append (List.nodup_singleton _) (by simpa using fresh)
  registered := fun v hv => ⟨List.mem_append_left _ (h.registered v hv).1, (h.registered v hv).2⟩
  pending := fun k hk register =>
    ⟨List.mem_append_left _ (h.pending k hk register).1, (h.pending k hk register).2⟩
  entries := h.entries
  written := h.written
  figures := ⟨h.figures.users, h.figures.connections, h.figures.usersGauge,
    h.figures.connectionsGauge, rfl⟩

/-- A further command which is no registration past its script. -/
theorem Tracked.issue (h : s.Tracked) {k : PresenceCommand}
    (allowed : k.action = .register →
      k.target ∈ s.called ∧ k.userId ≠ "" ∧ k.connectionId ≠ "" ∧ k.stage = .script) :
    (s.issue k).Tracked where
  distinct := h.distinct
  registered := h.registered
  pending := by
    intro k' hk' register
    obtain hold | hnew := List.mem_append.mp hk'
    · exact h.pending k' hold register
    · obtain rfl := List.mem_singleton.mp hnew
      obtain ⟨called, user, connection, stage⟩ := allowed register
      exact ⟨called, user, connection, fun later => absurd stage later⟩
  entries := h.entries
  written := by
    intro v hv
    obtain hremoved | hin | ⟨k', hk', rest⟩ := h.written v hv
    · exact .inl hremoved
    · exact .inr (.inl hin)
    · exact .inr (.inr ⟨k', List.mem_append_left _ hk', rest⟩)
  figures := (sameBooks_issue s k).figures h.figures

theorem Tracked.registerConnection (h : s.Tracked) (userId : UserId)
    (fresh : connectionId ∉ s.called.map Prod.snd) :
    (s.registerConnection userId connectionId).Tracked := by
  have called := h.call userId fresh
  rw [LocalPresence.registerConnection]
  split_ifs with refused
  · exact called
  · obtain none | issued := executeScript_cases
      { s with called := s.called ++ [(userId, connectionId)] } .register userId connectionId
    · rw [none]
      exact called
    · rw [issued]
      refine called.issue fun _ => ⟨List.mem_append_right _ (List.mem_singleton_self _), ?_⟩
      exact ⟨fun h => refused (.inl h), fun h => refused (.inr h), rfl⟩

/-- The books once a removal is called, with the connection still in the map or not. -/
theorem Tracked.delete (h : s.Tracked) (connectionId : ConnectionId) :
    Tracked ({ s with
      removed := s.removed ++ [connectionId]
      localConnections := s.localConnections.delete connectionId }).updateActiveMetrics where
  distinct := h.distinct
  registered := h.registered
  pending := h.pending
  entries := by
    intro c v hv
    change (s.localConnections.delete connectionId).get? c = some v at hv
    rw [OrderedMap.get?_delete] at hv
    split_ifs at hv
    exact h.entries c v hv
  written := by
    intro v hv
    by_cases deleted : v.2 = connectionId
    · exact .inl (List.mem_append_right _ (List.mem_singleton.mpr deleted))
    · obtain hremoved | hin | awaits := h.written v hv
      · exact .inl (List.mem_append_left _ hremoved)
      · refine .inr (.inl ?_)
        change (s.localConnections.delete connectionId).get? v.2 = some v
        rw [OrderedMap.get?_delete_ne deleted, hin]
      · exact .inr (.inr awaits)
  figures := figures_updateActiveMetrics _

theorem Tracked.removeConnection (h : s.Tracked) (userId : UserId) (connectionId : ConnectionId) :
    (s.removeConnection userId connectionId).Tracked := by
  rw [LocalPresence.removeConnection]
  split_ifs with refused
  · refine ⟨h.distinct, h.registered, h.pending, h.entries, ?_, ?_⟩
    · intro v hv
      obtain hremoved | others := h.written v hv
      · exact .inl (List.mem_append_left _ hremoved)
      · exact .inr others
    · exact ⟨h.figures.users, h.figures.connections, h.figures.usersGauge,
        h.figures.connectionsGauge, rfl⟩
  · have deleted := h.delete connectionId
    obtain none | issued := executeScript_cases ({ s with
      removed := s.removed ++ [connectionId]
      localConnections := s.localConnections.delete connectionId }).updateActiveMetrics
      .remove userId connectionId
    · simp only [none]
      exact deleted
    · simp only [issued]
      exact deleted.issue nofun

end calls

section replies

variable {k : PresenceCommand} {rest : List PresenceCommand}

/-- What a registration does to the map and the figures when it is counted. -/
theorem Tracked.counted_register (h : s.Tracked) (oldest : s.pending = k :: rest)
    (register : k.action = .register) (stage : k.stage ≠ .script) :
    ({ s with pending := rest }.counted k).Tracked := by
  have mem_head : k ∈ s.pending := oldest ▸ List.mem_cons_self
  obtain ⟨called, -, -, done⟩ := h.pending k mem_head register
  have written : Tracked ({ s with
      pending := rest
      localConnections :=
        s.localConnections.set k.connectionId k.target }).updateActiveMetrics := by
    refine ⟨h.distinct, h.registered, ?_, ?_, ?_, figures_updateActiveMetrics _⟩
    · exact fun k' hk' => h.pending k' (oldest ▸ .tail _ hk')
    · intro c v hv
      change (s.localConnections.set k.connectionId k.target).get? c = some v at hv
      rw [OrderedMap.get?_set] at hv
      split_ifs at hv with same
      · cases hv
        exact ⟨same.symm, done stage⟩
      · exact h.entries c v hv
    · intro v hv
      change v.2 ∈ s.removed ∨ (s.localConnections.set k.connectionId k.target).get? v.2 = some v ∨
        ∃ k' ∈ rest, _
      by_cases same : v.2 = k.connectionId
      · obtain rfl := h.eq_of_called (h.registered v hv).1 called same
        exact .inr (.inl (OrderedMap.get?_set_self ..))
      · rw [OrderedMap.get?_set_ne same]
        obtain hremoved | hin | ⟨k', hk', others⟩ := h.written v hv
        · exact .inl hremoved
        · exact .inr (.inl hin)
        · rw [oldest] at hk'
          obtain rfl | hrest := List.mem_cons.mp hk'
          · exact absurd (congrArg Prod.snd others.2.2).symm same
          · exact .inr (.inr ⟨k', hrest, others⟩)
  simp only [counted, register]
  split_ifs
  · exact written.repend ⟨rfl, rfl, rfl, rfl, rfl⟩
      (fun k' hk' register' => ⟨k', hk', register', rfl, id⟩)
      fun k' hk' register' stage' => ⟨k', hk', register', stage', rfl⟩
  · exact written

/-- A reply after which no registration is written or known. -/
theorem Tracked.resume_quiet (h : s.Tracked) (oldest : s.pending = k :: rest)
    (same : SameBooks s t)
    (from_old : ∀ k' ∈ t.pending, k' ∈ rest ∨ k'.action = k.action ∧ k'.target = k.target ∧
      k.stage ≠ .script)
    (kept : ∀ k' ∈ rest, k' ∈ t.pending)
    (moved : k.action = .register → k.stage ≠ .script → ∃ k' ∈ t.pending,
      k'.action = .register ∧ k'.stage ≠ .script ∧ k'.target = k.target) : t.Tracked := by
  refine h.repend same ?_ ?_
  · intro k' hk' register
    obtain hrest | ⟨action, target, stage⟩ := from_old k' hk'
    · exact ⟨k', oldest ▸ .tail _ hrest, register, rfl, id⟩
    · exact ⟨k, oldest ▸ List.mem_cons_self, action ▸ register, target.symm, fun _ => stage⟩
  · intro k' hk' register stage
    rw [oldest] at hk'
    obtain rfl | hrest := List.mem_cons.mp hk'
    · exact moved register stage
    · exact ⟨k', kept k' hrest, register, stage, rfl⟩

theorem Tracked.counted (h : s.Tracked) (oldest : s.pending = k :: rest)
    (stage : k.stage ≠ .script) : ({ s with pending := rest }.counted k).Tracked := by
  cases action : k.action with
  | register => exact h.counted_register oldest action stage
  | remove =>
      have quiet : Tracked { s with pending := rest } :=
        h.resume_quiet oldest ⟨rfl, rfl, rfl, rfl, rfl⟩ (fun k' hk' => .inl hk') (fun k' hk' => hk')
          fun register => by rw [action] at register; cases register
      simp only [LocalPresence.counted, action]
      split_ifs
      · exact quiet.repend ⟨rfl, rfl, rfl, rfl, rfl⟩ (fun k' hk' register' =>
          ⟨k', hk', register', rfl, id⟩)
          fun k' hk' register' stage' => ⟨k', hk', register', stage', rfl⟩
      · exact quiet

/-- What was pending and is none of a registration's commands past its script is still pending
without the oldest command, a script. -/
theorem mem_rest_of_past_script (oldest : s.pending = k :: rest) (stage : k.stage = .script)
    {k' : PresenceCommand} (hk' : k' ∈ s.pending) (past : k'.stage ≠ .script) : k' ∈ rest := by
  rw [oldest] at hk'
  obtain rfl | hrest := List.mem_cons.mp hk'
  · exact absurd stage past
  · exact hrest

theorem Tracked.scriptDone (h : s.Tracked) (oldest : s.pending = k :: rest)
    (stage : k.stage = .script) (result : Nat) :
    ({ s with pending := rest }.scriptDone k result).Tracked := by
  cases action : k.action with
  | register =>
      obtain ⟨called, user, connection, -⟩ := h.pending k (oldest ▸ List.mem_cons_self) action
      simp only [LocalPresence.scriptDone, action]
      refine ⟨h.distinct, ?_, ?_, ?_, ?_, ?_⟩
      · intro v hv
        obtain hold | hnew := List.mem_append.mp hv
        · exact h.registered v hold
        · obtain rfl := List.mem_singleton.mp hnew
          exact ⟨called, user, connection⟩
      · intro k' hk' register
        obtain hrest | hnew := List.mem_append.mp hk'
        · obtain ⟨called', user', connection', done⟩ :=
            h.pending k' (oldest ▸ .tail _ hrest) register
          exact ⟨called', user', connection', fun past => List.mem_append_left _ (done past)⟩
        · obtain rfl := List.mem_singleton.mp hnew
          exact ⟨called, user, connection,
            fun _ => List.mem_append_right _ (List.mem_singleton_self _)⟩
      · intro c v hv
        obtain ⟨same, hregistered⟩ := h.entries c v hv
        exact ⟨same, List.mem_append_left _ hregistered⟩
      · intro v hv
        obtain hold | hnew := List.mem_append.mp hv
        · obtain hremoved | hin | ⟨k', hk', register, past, target⟩ := h.written v hold
          · exact .inl hremoved
          · exact .inr (.inl hin)
          · exact .inr (.inr ⟨k', List.mem_append_left _
              (mem_rest_of_past_script oldest stage hk' past), register, past, target⟩)
        · exact .inr (.inr ⟨_, List.mem_append_right _ (List.mem_singleton_self _), rfl, nofun,
            (List.mem_singleton.mp hnew).symm⟩)
      · exact ⟨h.figures.users, h.figures.connections, h.figures.usersGauge,
          h.figures.connectionsGauge, rfl⟩
  | remove =>
      simp only [LocalPresence.scriptDone, action]
      refine h.repend ⟨rfl, rfl, rfl, rfl, rfl⟩ ?_ ?_
      · intro k' hk' register
        obtain hrest | hnew := List.mem_append.mp hk'
        · exact ⟨k', oldest ▸ .tail _ hrest, register, rfl, id⟩
        · obtain rfl := List.mem_singleton.mp hnew
          cases register
      · intro k' hk' register past
        exact ⟨k', List.mem_append_left _ (mem_rest_of_past_script oldest stage hk' past), register,
          past, rfl⟩

/-- The reply to the oldest command. -/
theorem Tracked.resume (h : s.Tracked) (oldest : s.pending = k :: rest) (result : Option Nat) :
    ({ s with pending := rest }.resume k result).Tracked := by
  cases stage : k.stage with
  | script =>
      cases result with
      | some result =>
          simp only [LocalPresence.resume, stage]
          exact h.scriptDone oldest stage result
      | none =>
          simp only [LocalPresence.resume, stage]
          exact h.resume_quiet oldest ⟨rfl, rfl, rfl, rfl, rfl⟩ (fun k' hk' => .inl hk')
            (fun k' hk' => hk') fun _ later => absurd stage later
  | prune =>
      have past : k.stage ≠ .script := by rw [stage]; exact nofun
      cases result with
      | some result =>
          simp only [LocalPresence.resume, stage]
          refine h.resume_quiet oldest ⟨rfl, rfl, rfl, rfl, rfl⟩ ?_
            (fun k' hk' => List.mem_append_left _ hk') ?_
          · intro k' hk'
            obtain hrest | hnew := List.mem_append.mp hk'
            · exact .inl hrest
            · obtain rfl := List.mem_singleton.mp hnew
              exact .inr ⟨rfl, rfl, past⟩
          · exact fun register _ => ⟨{ k with stage := .card },
              List.mem_append_right _ (List.mem_singleton_self _), register, nofun, rfl⟩
      | none =>
          simp only [LocalPresence.resume, stage]
          exact h.counted oldest past
  | card =>
      have past : k.stage ≠ .script := by rw [stage]; exact nofun
      simp only [LocalPresence.resume, stage]
      exact h.counted oldest past

end replies

theorem step_tracked {e : Event} (h : s.Tracked) (hstep : s.step e = some t) : t.Tracked := by
  cases e with
  | registerConnection userId connectionId =>
      obtain ⟨fresh, hcall⟩ := Option.ite_none_left_eq_some.mp hstep
      cases hcall
      exact h.registerConnection userId fresh
  | removeConnection userId connectionId =>
      obtain ⟨-, hcall⟩ := Option.ite_none_right_eq_some.mp hstep
      cases hcall
      exact h.removeConnection userId connectionId
  | reply result =>
      cases oldest : s.pending with
      | nil => simp [step, oldest] at hstep
      | cons k rest =>
          simp only [step, oldest, Option.some.injEq] at hstep
          cases hstep
          exact h.resume oldest result
  | published index =>
      obtain ⟨-, hcall⟩ := Option.ite_none_right_eq_some.mp hstep
      cases hcall
      exact h.repend ⟨rfl, rfl, rfl, rfl, rfl⟩ (fun k hk register => ⟨k, hk, register, rfl, id⟩)
        fun k hk register past => ⟨k, hk, register, past, rfl⟩

theorem counted_map (s : LocalPresence) (k : PresenceCommand) :
    (s.counted k).removed = s.removed ∧ (s.counted k).localConnections =
      if k.action = .register then s.localConnections.set k.connectionId k.target
      else s.localConnections := by
  cases action : k.action with
  | register =>
      simp only [counted, action, if_true]
      split_ifs <;> exact ⟨rfl, rfl⟩
  | remove =>
      simp only [counted, action, reduceCtorEq, if_false]
      split_ifs <;> exact ⟨rfl, rfl⟩

/-- What a reply does to the map and to the removed connections. -/
theorem resume_map (s : LocalPresence) (k : PresenceCommand) (result : Option Nat) :
    (s.resume k result).removed = s.removed ∧ (s.resume k result).localConnections =
      if k.action = .register ∧ (k.stage = .card ∨ k.stage = .prune ∧ result = none) then
        s.localConnections.set k.connectionId k.target
      else s.localConnections := by
  cases stage : k.stage with
  | script =>
      cases result with
      | none => simp [resume, stage]
      | some result => cases action : k.action <;> simp [resume, stage, scriptDone, action, issue]
  | prune =>
      cases result with
      | none => simpa [resume, stage] using counted_map s k
      | some result => simp [resume, stage, issue]
  | card => simpa [resume, stage] using counted_map s k

/-- What a removal does to them. -/
theorem removeConnection_map (h : s.Tracked) {userId : UserId} {connectionId : ConnectionId}
    (called : (userId, connectionId) ∈ s.called) :
    (s.removeConnection userId connectionId).removed = s.removed ++ [connectionId] ∧
      (s.removeConnection userId connectionId).localConnections.get? connectionId = none ∧
      ∀ c, c ≠ connectionId →
        (s.removeConnection userId connectionId).localConnections.get? c =
          s.localConnections.get? c := by
  rw [removeConnection]
  split_ifs with refused
  · refine ⟨rfl, ?_, fun _ _ => rfl⟩
    -- a call with an empty identifier registers nothing
    cases hin : s.localConnections.get? connectionId with
    | none => rfl
    | some v =>
        obtain ⟨same, hregistered⟩ := h.entries connectionId v hin
        obtain ⟨hcalled, user, connection⟩ := h.registered v hregistered
        obtain rfl := h.eq_of_called hcalled called same
        obtain hempty | hempty := refused
        · exact absurd hempty user
        · exact absurd hempty connection
  · have deleted : (s.localConnections.delete connectionId).get? connectionId = none ∧
        ∀ c, c ≠ connectionId →
          (s.localConnections.delete connectionId).get? c = s.localConnections.get? c :=
      ⟨OrderedMap.get?_delete_self .., fun c hc => OrderedMap.get?_delete_ne hc⟩
    obtain none | issued := executeScript_cases ({ s with
      removed := s.removed ++ [connectionId]
      localConnections := s.localConnections.delete connectionId }).updateActiveMetrics
      .remove userId connectionId
    · simp only [none]
      exact ⟨rfl, deleted⟩
    · simp only [issued]
      exact ⟨rfl, deleted⟩

theorem registerConnection_map (s : LocalPresence) (userId : UserId)
    (connectionId : ConnectionId) :
    (s.registerConnection userId connectionId).localConnections = s.localConnections ∧
      (s.registerConnection userId connectionId).removed = s.removed := by
  rw [registerConnection]
  split_ifs
  · exact ⟨rfl, rfl⟩
  · obtain none | issued := executeScript_cases
      { s with called := s.called ++ [(userId, connectionId)] } .register userId connectionId
    · rw [none]
      exact ⟨rfl, rfl⟩
    · rw [issued]
      exact ⟨rfl, rfl⟩

/-- What a step does to the map and to the removed connections: nothing, a write, or the
removal of a connection. -/
theorem step_map_cases {e : Event} (h : s.Tracked) (hstep : s.step e = some t) :
    (s.writes e = none ∧ t.localConnections = s.localConnections ∧ t.removed = s.removed) ∨
      (∃ connectionId v, s.writes e = some connectionId ∧
        t.localConnections = s.localConnections.set connectionId v ∧ t.removed = s.removed) ∨
      ∃ connectionId, s.writes e = none ∧ connectionId ∉ s.removed ∧
        t.removed = s.removed ++ [connectionId] ∧ t.localConnections.get? connectionId = none ∧
        ∀ c, c ≠ connectionId → t.localConnections.get? c = s.localConnections.get? c := by
  cases e with
  | registerConnection userId connectionId =>
      obtain ⟨-, hcall⟩ := Option.ite_none_left_eq_some.mp hstep
      cases hcall
      exact .inl ⟨rfl, registerConnection_map s userId connectionId⟩
  | removeConnection userId connectionId =>
      obtain ⟨⟨called, fresh⟩, hcall⟩ := Option.ite_none_right_eq_some.mp hstep
      cases hcall
      exact .inr (.inr ⟨connectionId, rfl, fresh, removeConnection_map h called⟩)
  | reply result =>
      cases oldest : s.pending with
      | nil => simp [step, oldest] at hstep
      | cons k rest =>
          simp only [step, oldest, Option.some.injEq] at hstep
          cases hstep
          obtain ⟨hremoved, hmap⟩ := resume_map { s with pending := rest } k result
          simp only [writes, oldest]
          split_ifs at hmap ⊢ with hwrites
          · exact .inr (.inl ⟨k.connectionId, k.target, rfl, hmap, hremoved⟩)
          · exact .inl ⟨rfl, hmap, hremoved⟩
  | published index =>
      obtain ⟨-, hcall⟩ := Option.ite_none_right_eq_some.mp hstep
      cases hcall
      exact .inl ⟨rfl, rfl, rfl⟩

/-- A step keeps removed connections out of the map exactly when it writes none of them. -/
theorem noLeak_step_iff {e : Event} (h : s.Tracked) (clean : s.NoLeak)
    (hstep : s.step e = some t) : t.NoLeak ↔ s.InTime e := by
  obtain ⟨hwrites, hmap, hremoved⟩ | ⟨connectionId, v, hwrites, hmap, hremoved⟩ |
    ⟨connectionId, hwrites, -, hremoved, hdeleted, hothers⟩ := step_map_cases h hstep
  · rw [NoLeak, hmap, hremoved]
    exact iff_of_true clean (by intro c hc; rw [hwrites] at hc; cases hc)
  · constructor
    · intro later c hc hmem
      obtain rfl := Option.some.inj (hwrites.symm.trans hc)
      have gone := later connectionId (hremoved ▸ hmem)
      rw [hmap, OrderedMap.get?_set_self] at gone
      cases gone
    · intro inTime c hc
      rw [hremoved] at hc
      have other : c ≠ connectionId := fun heq => inTime connectionId hwrites (heq ▸ hc)
      rw [hmap, OrderedMap.get?_set_ne other]
      exact clean c hc
  · refine iff_of_true ?_ (by intro c hc; rw [hwrites] at hc; cases hc)
    intro c hc
    by_cases same : c = connectionId
    · rw [same, hdeleted]
    · rw [hothers c same]
      rw [hremoved] at hc
      obtain hold | hnew := List.mem_append.mp hc
      · exact clean c hold
      · exact absurd (List.mem_singleton.mp hnew) same

/-- A removed connection which is in the map stays there. -/
theorem noLeak_of_step {e : Event} (h : s.Tracked) (hstep : s.step e = some t) (later : t.NoLeak) :
    s.NoLeak := by
  intro c hc
  obtain ⟨-, hmap, hremoved⟩ | ⟨connectionId, v, -, hmap, hremoved⟩ |
    ⟨connectionId, -, fresh, hremoved, -, hothers⟩ := step_map_cases h hstep
  · rw [← hmap]
    exact later c (hremoved ▸ hc)
  · have gone := later c (hremoved ▸ hc)
    rw [hmap, OrderedMap.get?_set] at gone
    split_ifs at gone
    exact gone
  · have other : c ≠ connectionId := fun heq => fresh (heq ▸ hc)
    rw [← hothers c other]
    exact later c (hremoved ▸ List.mem_append_left _ hc)

/-- Once all calls have settled, the map is exact when it has no removed connection. -/
theorem exact_iff_noLeak (h : s.Tracked) (settled : s.Settled) : s.Exact ↔ s.NoLeak := by
  constructor
  · intro exact c hc
    cases hin : s.localConnections.get? c with
    | none => rfl
    | some v => exact absurd hc ((exact.entries c v).mp hin).2.2
  · intro clean
    refine ⟨fun c v => ⟨fun hin => ?_, ?_⟩, h.figures⟩
    · obtain ⟨same, hregistered⟩ := h.entries c v hin
      refine ⟨same, hregistered, fun hmem => ?_⟩
      rw [clean c hmem] at hin
      cases hin
    · rintro ⟨rfl, hregistered, hmem⟩
      obtain hremoved | hin | ⟨k, hk, -⟩ := h.written v hregistered
      · exact absurd hremoved hmem
      · exact hin
      · rw [settled.1] at hk
        cases hk

/-- Local bookkeeping: once all calls of a run have settled, the map has exactly the connections
registered and not removed, and the figures are its own, if and only if no registration wrote
the map after the removal of its connection was called. -/
theorem settled_exact_iff (instanceId : String) (es : List Event) (s : LocalPresence)
    (hrun : run step { instanceId } es = some s) (settled : s.Settled) :
    s.Exact ↔ EveryStep step (fun s e _ => s.InTime e) { instanceId } es := by
  have start := tracked_initial instanceId
  have clean : NoLeak { instanceId } := nofun
  have tracked : s.Tracked := Transition.invariant (fun _ _ _ h => step_tracked h) start hrun
  rw [exact_iff_noLeak tracked settled,
    ← always_iff_final (fun _ _ _ h => step_tracked h) (fun _ _ _ h => noLeak_of_step h) start hrun]
  exact always_iff_everyStep (fun _ _ _ h => step_tracked h)
    (fun _ _ _ h hclean => noLeak_step_iff h hclean) start clean es

/-- Two connections of a user, the first of which is removed once it is registered. -/
def removedLater : List Event :=
  [.registerConnection "u" "c", .registerConnection "u" "d", .reply (some 1), .reply (some 0),
    .reply (some 0), .reply (some 0), .reply (some 1), .reply (some 2),
    .removeConnection "u" "c", .reply (some 0), .reply (some 0), .reply (some 1), .published 0]

theorem removed_later_exact :
    ∃ s, run step { instanceId := "node" } removedLater = some s ∧ s.registered.length = 2 ∧
      s.removed = ["c"] ∧ s.getMetricsSnapshot = (1, 1) ∧ s.Exact := by
  have hrun : (run step { instanceId := "node" } removedLater).any (fun s =>
      decide (s.Settled ∧ s.registered.length = 2 ∧ s.removed = ["c"] ∧
        s.getMetricsSnapshot = (1, 1))) = true := by
    decide +kernel
  obtain ⟨s, hs, hend⟩ := (Option.any_eq_true _ _).mp hrun
  rw [decide_eq_true_eq] at hend
  obtain ⟨settled, registered, removed, figures⟩ := hend
  have inTime : EveryStep step (fun s e _ => s.InTime e) { instanceId := "node" } removedLater := by
    decide +kernel
  exact ⟨s, hs, registered, removed, figures,
    (settled_exact_iff "node" removedLater s hs settled).mpr inTime⟩

/-- The removal of a connection is called while its registration awaits its replies: the
connection stays in the map and in the figures. -/
theorem overtaken_registration_stays :
    ¬ ∀ (instanceId : String) (es : List Event) (s : LocalPresence),
      run step { instanceId } es = some s → s.Settled → s.Exact := by
  intro h
  have hrun : (run step { instanceId := "node" } [.registerConnection "u" "c",
      .removeConnection "u" "c", .reply (some 1), .reply (some 1), .reply (some 0),
      .reply (some 0), .reply (some 0), .reply (some 0), .published 0, .published 0]).any (fun s =>
        decide (s.Settled ∧ s.removed = ["c"] ∧ s.getMetricsSnapshot = (1, 1) ∧
          s.localConnections.get? "c" = some ("u", "c"))) = true := by
    decide +kernel
  obtain ⟨s, hs, hend⟩ := (Option.any_eq_true _ _).mp hrun
  rw [decide_eq_true_eq] at hend
  obtain ⟨settled, removed, -, listed⟩ := hend
  have gone := (((h "node" _ s hs settled).entries "c" ("u", "c")).mp listed).2.2
  rw [removed] at gone
  exact gone (List.mem_singleton.mpr rfl)

end LocalPresence

end Pulse
