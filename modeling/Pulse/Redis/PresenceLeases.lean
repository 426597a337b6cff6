import Pulse.Redis.PresenceManager
import Pulse.Redis.RosterQuery
import Pulse.Transition.Simulation

/-!
# Presence leases

What the presence keys are for: a map from leases to the times at which they expire. A
user is online as long as one of its leases is not expired. The sorted sets with their
deadlines, the scripts and the pipeline simulate this map, as long as a lease does not
live longer than the deadline which each write gives to the key.

The map is stated for any `Naming` of users and leases by their identifiers. The keys
name a user by its trimmed id and a lease by one string of instance and connection.
-/

namespace Pulse

open Collections Js Transition

/-- Which user and which lease the identifiers of a call stand for. -/
structure Naming (κ : Type) where
  user : UserId → UserId
  lease : String → ConnectionId → κ

/-- The naming of the Redis keys. -/
def Naming.keys : Naming String :=
  { user := trim, lease := fun instanceId connectionId => instanceId ++ ":" ++ connectionId }

/-- Different identifiers name different users and leases. -/
def Naming.plain : Naming (String × ConnectionId) := { user := id, lease := Prod.mk }

def error? {α : Type} : Except String α → Option String
  | .error message => some message
  | .ok _ => none

namespace PresenceOp

variable {κ : Type}

/-- The error of a call whose identifiers are refused. -/
def refusal (op : PresenceOp) : Option String :=
  match op.call with
  | .registerConnection userId connectionId =>
      if userId = "" ∨ connectionId = "" then
        some "userId and connectionId are required for presence registration"
      else error? (leaseKey op.instanceId userId connectionId)
  | .removeConnection userId connectionId =>
      if userId = "" ∨ connectionId = "" then
        some "userId and connectionId are required for presence removal"
      else error? (leaseKey op.instanceId userId connectionId)
  | .flushLeaseRenewals active =>
      error? (active.mapM fun conn => leaseKey op.instanceId conn.1 conn.2)
  | .getUserConnectionCount userId | .pruneExpired userId => error? (getPresenceUserKey userId)
  | _ => none

/-- The leases which a call registers or renews. -/
def granted (naming : Naming κ) (op : PresenceOp) : List (UserId × κ) :=
  match op.refusal, op.call with
  | none, .registerConnection userId connectionId =>
      [(naming.user userId, naming.lease op.instanceId connectionId)]
  | none, .flushLeaseRenewals active =>
      active.map fun conn => (naming.user conn.1, naming.lease op.instanceId conn.2)
  | _, _ => []

/-- The leases which a call removes. -/
def revoked (naming : Naming κ) (op : PresenceOp) : List (UserId × κ) :=
  match op.refusal, op.call with
  | none, .removeConnection userId connectionId =>
      [(naming.user userId, naming.lease op.instanceId connectionId)]
  | _, _ => []

end PresenceOp

/-- When each lease expires, and the users noted for each room. -/
structure LeaseMap (κ : Type) where
  expiry : UserId → κ → Option Score := fun _ _ => none
  members : RoomId → OrderedSet UserId := fun _ => ∅

namespace LeaseMap

variable {κ : Type}

def Online (a : LeaseMap κ) (now : ℚ) (userId : UserId) : Prop :=
  ∃ lease e, a.expiry userId lease = some e ∧ (now : Score) < e

noncomputable def connectionCount (a : LeaseMap κ) (now : ℚ) (userId : UserId) : Nat :=
  {lease | ∃ e, a.expiry userId lease = some e ∧ (now : Score) < e}.ncard

open scoped Classical in
/-- Leases are granted until `now + ttl`. -/
noncomputable def grant (naming : Naming κ) (ttl : Score) (a : LeaseMap κ) (op : PresenceOp) :
    LeaseMap κ :=
  { a with
    expiry := fun userId lease =>
      if (userId, lease) ∈ op.granted naming then some (op.now + ttl)
      else if (userId, lease) ∈ op.revoked naming then none
      else a.expiry userId lease }

open scoped Classical in
/-- The online users of a room; the others are no longer noted. -/
noncomputable def onlineMembers (a : LeaseMap κ) (now : ℚ) (roomId : RoomId) :
    OrderedSet UserId :=
  (a.members roomId).filter fun userId => decide (a.Online now userId)

def setMembers (a : LeaseMap κ) (roomId : RoomId) (members : OrderedSet UserId) : LeaseMap κ :=
  { a with members := Function.update a.members roomId members }

open scoped Classical in
/-- What a call answers; `a` is the map before it and `b` the map behind it. -/
noncomputable def answer (naming : Naming κ) (a b : LeaseMap κ) (op : PresenceOp) :
    LeaseMap κ × PresenceReply :=
  match op.call with
  | .registerConnection userId _ =>
      (b, .transition (if a.Online op.now (naming.user userId) then 0 else 1))
  | .removeConnection userId _ =>
      (b, .transition (if b.Online op.now (naming.user userId) then 0 else 1))
  | .flushLeaseRenewals active => (b, .renewed active.length)
  | .getUserConnectionCount userId => (b, .count (b.connectionCount op.now (naming.user userId)))
  | .pruneExpired _ => (b, .done)
  | .getRoomRoster roomId =>
      if trim roomId = "" then (b, .roster [])
      else
        let online := b.onlineMembers op.now (trim roomId)
        (b.setMembers (trim roomId) online, .roster (splitRoster (concatRoster online.toList)))
  | .addRoomMember roomId userId =>
      if trim roomId = "" ∨ trim userId = "" then (b, .done)
      else (b.setMembers (trim roomId) ((b.members (trim roomId)).insert (trim userId)), .done)
  | .removeRoomMember roomId userId =>
      if trim roomId = "" ∨ trim userId = "" then (b, .done)
      else (b.setMembers (trim roomId) ((b.members (trim roomId)).erase (trim userId)), .done)

noncomputable def step (naming : Naming κ) (ttl : Score) (a : LeaseMap κ) (op : PresenceOp) :
    LeaseMap κ × PresenceReply :=
  match op.refusal with
  | some message => (a, .failed message)
  | none => answer naming a (a.grant naming ttl op) op

theorem grant_bounded {naming : Naming κ} {ttl : Score} {a : LeaseMap κ} {op : PresenceOp}
    (h : ∀ u m e, a.expiry u m = some e → e ≤ op.now + ttl) (u : UserId) (m : κ) (e : Score)
    (he : (a.grant naming ttl op).expiry u m = some e) : e ≤ op.now + ttl := by
  simp only [grant] at he
  split at he
  · cases he
    exact le_rfl
  · split at he
    · cases he
    · exact h u m e he

theorem grant_expiry_granted {naming : Naming κ} {ttl : Score} {a : LeaseMap κ}
    {op : PresenceOp} {u : UserId} {m : κ} [DecidableEq κ] (h : op.granted naming = [(u, m)])
    (hrevoked : op.revoked naming = []) :
    (a.grant naming ttl op).expiry =
      Function.update a.expiry u (Function.update (a.expiry u) m (some (op.now + ttl))) := by
  funext u' m'
  by_cases hu : u' = u
  · subst hu
    by_cases hm : m' = m <;> simp [grant, h, hrevoked, hm]
  · simp [grant, h, hrevoked, hu]

theorem grant_expiry_revoked {naming : Naming κ} {ttl : Score} {a : LeaseMap κ}
    {op : PresenceOp} {u : UserId} {m : κ} [DecidableEq κ] (h : op.revoked naming = [(u, m)])
    (hgranted : op.granted naming = []) :
    (a.grant naming ttl op).expiry =
      Function.update a.expiry u (Function.update (a.expiry u) m none) := by
  funext u' m'
  by_cases hu : u' = u
  · subst hu
    by_cases hm : m' = m <;> simp [grant, h, hgranted, hm]
  · simp [grant, h, hgranted, hu]

theorem grant_eq_self {naming : Naming κ} {ttl : Score} {a : LeaseMap κ} {op : PresenceOp}
    (h : op.granted naming = []) (hrevoked : op.revoked naming = []) :
    a.grant naming ttl op = a := by
  simp [grant, h, hrevoked]

end LeaseMap

/-- How many expired members a prune finds is left open. -/
def PresenceReply.observed : PresenceReply → PresenceReply
  | .pruned _ => .done
  | reply => reply

/-- The store stands for the map from time `t` on. -/
structure Refines (options : PresenceManagerOptions) (t : ℚ) (s : PresenceStore)
    (a : LeaseMap String) : Prop where
  tracks : ∀ u, (s.users (PRESENCE_USER_KEY_PREFIX ++ u)).Tracks t (a.expiry u)
  bounded : ∀ u m e, a.expiry u m = some e → e ≤ t + options.presenceTtlMs
  rooms : ∀ r, s.rooms (PRESENCE_ROOM_MEMBERS_PREFIX ++ r ++ ":members") = a.members r

namespace Refines

variable {options : PresenceManagerOptions} {t now : ℚ} {s : PresenceStore}
  {a : LeaseMap String}

theorem initial (options : PresenceManagerOptions) (t : ℚ) : Refines options t {} {} where
  tracks _ := SortedSet.tracks_empty fun _ _ h => nomatch h
  bounded := by
    intro u m e h
    cases h
  rooms _ := rfl

theorem later (h : Refines options t s a) (le : t ≤ now) : Refines options now s a where
  tracks u := (h.tracks u).later (WithTop.coe_le_coe.mpr le)
  bounded := by
    intro u m e he
    have hshift : (t : Score) + options.presenceTtlMs ≤ now + options.presenceTtlMs :=
      add_le_add_left (WithTop.coe_le_coe.mpr le) _
    exact (h.bounded u m e he).trans hshift
  rooms := h.rooms

end Refines

section scripts

variable {now : ℚ} {leases : SortedSet String Score} {expiry : String → Option Score}
  {keyTtl : Int}

open SortedSet

open scoped Classical in
theorem registerPresence_result (h : leases.Reads now expiry) (member : String)
    (expireAt : Score) :
    (registerPresence leases member expireAt now keyTtl).2 =
      if ∃ m e, expiry m = some e ∧ (now : Score) < e then 0 else 1 := by
  simp only [registerPresence, h.zcard_prune_eq_zero, ite_not]

theorem registerPresence_tracks (h : leases.Reads now expiry) {member : String}
    {expireAt : Score} (covered : ∀ m e, expiry m = some e → e ≤ keyDeadline now keyTtl)
    (hexpire : expireAt ≤ keyDeadline now keyTtl) :
    (registerPresence leases member expireAt now keyTtl).1.Tracks now
      (Function.update expiry member (some expireAt)) := by
  refine (h.prune.zadd member expireAt).expire ?_
  intro m e he
  by_cases hm : m = member
  · subst hm
    rw [Function.update_self] at he
    cases he
    exact hexpire
  · rw [Function.update_of_ne hm] at he
    exact covered m e he

open scoped Classical in
theorem removePresence_result (h : leases.Tracks now expiry) (member : String) :
    (removePresence leases member now keyTtl).2 =
      if ∃ m e, Function.update expiry member none m = some e ∧ (now : Score) < e then 0
      else 1 := by
  have hzero := (h.zrem member).reads.zcard_prune_eq_zero
  simp only [removePresence]
  split
  · rename_i hpos
    have hsome := (not_congr hzero).mp (Nat.pos_iff_ne_zero.mp hpos)
    rw [if_pos (not_not.mp hsome)]
  · rename_i hnone
    rw [if_neg (hzero.mp (Nat.eq_zero_of_not_pos hnone))]

theorem removePresence_tracks (h : leases.Tracks now expiry) {member : String}
    (covered : ∀ m e, expiry m = some e → e ≤ keyDeadline now keyTtl) :
    (removePresence leases member now keyTtl).1.Tracks now
      (Function.update expiry member none) := by
  have hpruned := (h.zrem member).prune
  simp only [removePresence]
  split
  · dsimp only
    refine hpruned.reads.expire ?_
    intro m e he
    by_cases hm : m = member
    · subst hm
      rw [Function.update_self] at he
      cases he
    · rw [Function.update_of_ne hm] at he
      exact covered m e he
  · rename_i hnone
    have hzero := (h.zrem member).reads.zcard_prune_eq_zero.mp (Nat.eq_zero_of_not_pos hnone)
    apply tracks_empty
    intro m e he
    exact not_lt.mp fun hlt => hzero ⟨m, e, he, hlt⟩

end scripts

section pipeline

variable {now : ℚ} {s : PresenceStore}

/-- The key and the member of a lease. -/
def keyOf (lease : UserId × String) : String × String :=
  (PRESENCE_USER_KEY_PREFIX ++ lease.1, lease.2)

namespace PresenceStore

@[simp] theorem setUser_users_self (s : PresenceStore) (key : String)
    (leases : SortedSet String Score) : (s.setUser key leases).users key = leases :=
  Function.update_self _ _ _

theorem setUser_users_ne {key key' : String} (h : key' ≠ key) (s : PresenceStore)
    (leases : SortedSet String Score) : (s.setUser key leases).users key' = s.users key' :=
  Function.update_of_ne h _ _

@[simp] theorem setUser_rooms (s : PresenceStore) (key : String)
    (leases : SortedSet String Score) : (s.setUser key leases).rooms = s.rooms := rfl

@[simp] theorem setRoom_users (s : PresenceStore) (key : String)
    (members : OrderedSet UserId) : (s.setRoom key members).users = s.users := rfl

@[simp] theorem setRoom_rooms (s : PresenceStore) (key : String)
    (members : OrderedSet UserId) :
    (s.setRoom key members).rooms = Function.update s.rooms key members := rfl

open scoped Classical in
theorem addLeases_reads {expiry : UserId → String → Option Score}
    (h : ∀ u, (s.users (PRESENCE_USER_KEY_PREFIX ++ u)).Reads now (expiry u)) (expireAt : Score)
    (named : List (UserId × String)) (u : UserId) :
    ((s.addLeases now expireAt (named.map keyOf)).users (PRESENCE_USER_KEY_PREFIX ++ u)).Reads now
      fun m => if (u, m) ∈ named then some expireAt else expiry u m := by
  induction named generalizing s expiry with
  | nil => simpa [addLeases] using h u
  | cons lease named ih =>
      obtain ⟨u₀, m₀⟩ := lease
      have hfirst : ∀ u, ((s.setUser (PRESENCE_USER_KEY_PREFIX ++ u₀)
          ((s.users (PRESENCE_USER_KEY_PREFIX ++ u₀)).zadd now m₀ expireAt)).users
            (PRESENCE_USER_KEY_PREFIX ++ u)).Reads now
          fun m => if (u, m) = (u₀, m₀) then some expireAt else expiry u m := by
        intro u
        by_cases hu : u = u₀
        · subst hu
          rw [setUser_users_self]
          refine ((h u).zadd m₀ expireAt).congr fun m => ?_
          by_cases hm : m = m₀
          · simp [hm]
          · simp [hm]
        · rw [setUser_users_ne (by simpa using hu)]
          simpa [hu] using h u
      refine (ih hfirst).congr fun m => ?_
      by_cases hm : (u, m) = (u₀, m₀)
      · simp [hm]
      · simp only [hm, if_false, List.mem_cons, false_or]

theorem addLeases_users_of_not_mem {key : String} {leases : List (String × String)}
    (h : key ∉ leases.map Prod.fst) (expireAt : Score) :
    (s.addLeases now expireAt leases).users key = s.users key := by
  induction leases generalizing s with
  | nil => rfl
  | cons lease leases ih =>
      rw [List.map_cons, List.mem_cons, not_or] at h
      exact (ih h.2).trans (setUser_users_ne h.1 _ _)

@[simp] theorem addLeases_rooms (expireAt : Score) (leases : List (String × String)) :
    (s.addLeases now expireAt leases).rooms = s.rooms := by
  induction leases generalizing s with
  | nil => rfl
  | cons lease leases ih => exact ih

theorem expireKeys_users {keys : List String} (hnodup : keys.Nodup) (deadline : Score)
    (key : String) :
    (s.expireKeys now deadline keys).users key =
      if key ∈ keys then (s.users key).expire now deadline else s.users key := by
  induction keys generalizing s with
  | nil => rfl
  | cons k keys ih =>
      rw [List.nodup_cons] at hnodup
      refine (ih hnodup.2).trans ?_
      by_cases hk : key = k
      · subst hk
        simp [hnodup.1]
      · rw [setUser_users_ne hk]
        simp [hk]

@[simp] theorem expireKeys_rooms (deadline : Score) (keys : List String) :
    (s.expireKeys now deadline keys).rooms = s.rooms := by
  induction keys generalizing s with
  | nil => rfl
  | cons key keys ih => exact ih

end PresenceStore

end pipeline

section roster

open scoped Classical

variable {now : ℚ} {expiry : UserId → String → Option Score}

/-- Some lease of the user is not expired. -/
private noncomputable def online (now : ℚ) (expiry : UserId → String → Option Score)
    (u : UserId) : Bool :=
  decide (∃ m e, expiry u m = some e ∧ (now : Score) < e)

theorem leased_eq_online {s : PresenceStore} {u : UserId}
    (h : (s.users (PRESENCE_USER_KEY_PREFIX ++ u)).Tracks now (expiry u)) :
    s.leased now u = online now expiry u := by
  have hzero := h.reads.zcard_prune_eq_zero
  rw [PresenceStore.leased, online, decide_eq_decide, gt_iff_lt, Nat.pos_iff_ne_zero, ne_eq,
    hzero, not_not]

/-- The loop for leases that stand for a map: it stays, and the members which are online stay. -/
theorem rosterLoop_tracks (roomKey : String) {members : List UserId} (nodup : members.Nodup)
    (s : PresenceStore)
    (h : ∀ u, (s.users (PRESENCE_USER_KEY_PREFIX ++ u)).Tracks now (expiry u)) :
    (∀ u, ((members.foldl (rosterTurn now roomKey) (s, [])).1.users
        (PRESENCE_USER_KEY_PREFIX ++ u)).Tracks now (expiry u)) ∧
      (members.foldl (rosterTurn now roomKey) (s, [])).2 =
        members.filter (online now expiry) ∧
      (members.foldl (rosterTurn now roomKey) (s, [])).1.rooms =
        Function.update s.rooms roomKey
          ((s.rooms roomKey).filter fun u => decide (u ∉ members) || online now expiry u) := by
  obtain ⟨husers, hfound, hrooms⟩ := rosterLoop now roomKey nodup s []
  have hleased : s.leased now = online now expiry := funext fun u => leased_eq_online (h u)
  refine ⟨fun u => ?_, ?_, ?_⟩
  · rw [husers]
    by_cases hmember : PRESENCE_USER_KEY_PREFIX ++ u ∈ members.map (PRESENCE_USER_KEY_PREFIX ++ ·)
    · rw [if_pos hmember]
      exact (h u).prune
    · rw [if_neg hmember]
      exact h u
  · rw [hfound, hleased, List.nil_append]
  · rw [hrooms, hleased]

end roster

theorem getPresenceUserKey_ok {userId : UserId} {key : String}
    (h : getPresenceUserKey userId = .ok key) : key = PRESENCE_USER_KEY_PREFIX ++ trim userId := by
  rw [getPresenceUserKey] at h
  split at h
  · cases h
  · cases h
    rfl

theorem leaseKey_ok {instanceId : String} {userId : UserId} {connectionId : ConnectionId}
    {key : String × String} (h : leaseKey instanceId userId connectionId = .ok key) :
    key = keyOf (Naming.keys.user userId, Naming.keys.lease instanceId connectionId) := by
  rw [leaseKey] at h
  cases hkey : getPresenceUserKey userId with
  | error message =>
      rw [hkey] at h
      cases h
  | ok userKey =>
      cases hmember : formatPresenceMember instanceId connectionId with
      | error message =>
          rw [hkey, hmember] at h
          cases h
      | ok member =>
          rw [hkey, hmember] at h
          cases h
          rw [formatPresenceMember] at hmember
          split at hmember
          · cases hmember
          · cases hmember
            rw [getPresenceUserKey_ok hkey]
            rfl

/-- The leases of a pipeline. -/
theorem mapM_leaseKey_ok {instanceId : String} {active : List (UserId × ConnectionId)}
    {leases : List (String × String)}
    (h : (active.mapM fun conn => leaseKey instanceId conn.1 conn.2) = .ok leases) :
    leases = (active.map fun conn =>
      (Naming.keys.user conn.1, Naming.keys.lease instanceId conn.2)).map keyOf := by
  induction active generalizing leases with
  | nil =>
      cases h
      rfl
  | cons conn active ih =>
      rw [List.mapM_cons] at h
      cases hfirst : leaseKey instanceId conn.1 conn.2 with
      | error message =>
          rw [hfirst] at h
          cases h
      | ok key =>
          cases hrest : active.mapM fun conn => leaseKey instanceId conn.1 conn.2 with
          | error message =>
              rw [hfirst, hrest] at h
              cases h
          | ok keys =>
              rw [hfirst, hrest] at h
              cases h
              rw [leaseKey_ok hfirst, ih hrest]
              rfl

theorem executeRegisterPresence_eq (s : PresenceStore) (userId : UserId) (instanceId : String)
    (connectionId : ConnectionId) (expireAt : Score) (now : ℚ) (keyTtl : Int) :
    executeRegisterPresence s userId instanceId connectionId expireAt now keyTtl =
      (leaseKey instanceId userId connectionId).map fun key =>
        let (leases, result) := registerPresence (s.users key.1) key.2 expireAt now keyTtl
        (s.setUser key.1 leases, result) := by
  rw [executeRegisterPresence, leaseKey]
  cases getPresenceUserKey userId with
  | error message => rfl
  | ok userKey =>
      cases formatPresenceMember instanceId connectionId with
      | error message => rfl
      | ok member => rfl

theorem executeRemovePresence_eq (s : PresenceStore) (userId : UserId) (instanceId : String)
    (connectionId : ConnectionId) (now : ℚ) (keyTtl : Int) :
    executeRemovePresence s userId instanceId connectionId now keyTtl =
      (leaseKey instanceId userId connectionId).map fun key =>
        let (leases, result) := removePresence (s.users key.1) key.2 now keyTtl
        (s.setUser key.1 leases, result) := by
  rw [executeRemovePresence, leaseKey]
  cases getPresenceUserKey userId with
  | error message => rfl
  | ok userKey =>
      cases formatPresenceMember instanceId connectionId with
      | error message => rfl
      | ok member => simp only [bind, Except.bind, pure, Except.pure, Except.map]

namespace PresenceStore

theorem leaseKey_of_blank {userId : UserId} (h : trim userId = "") (instanceId : String)
    (connectionId : ConnectionId) :
    leaseKey instanceId userId connectionId =
      .error "Invalid userId provided for presence key" := by
  rw [leaseKey, getPresenceUserKey, if_pos h]
  rfl

/-- A registration is refused, or writes the lease it names. -/
theorem step_registerConnection (options : PresenceManagerOptions) (s : PresenceStore)
    (instanceId : String) (now : ℚ) (userId : UserId) (connectionId : ConnectionId) :
    (∃ message, s.step options ⟨instanceId, now, .registerConnection userId connectionId⟩ =
        (s, .failed message)) ∨ trim userId ≠ "" ∧
      s.step options ⟨instanceId, now, .registerConnection userId connectionId⟩ =
        let registered := registerPresence (s.users (PRESENCE_USER_KEY_PREFIX ++ trim userId))
          (instanceId ++ ":" ++ connectionId) (now + options.presenceTtlMs) now
          options.keySafeguardTtlSec
        (s.setUser (PRESENCE_USER_KEY_PREFIX ++ trim userId) registered.1,
          .transition registered.2) := by
  simp only [step, perform, registerConnection, executeRegisterPresence_eq]
  split
  · rename_i hresult
    split at hresult
    · cases hresult
    · cases hlease : leaseKey instanceId userId connectionId with
      | error message =>
          rw [hlease] at hresult
          cases hresult
      | ok key =>
          have hnamed : trim userId ≠ "" := by
            intro hblank
            rw [leaseKey_of_blank hblank] at hlease
            cases hlease
          simp only [hlease, Except.map, leaseKey_ok hlease, keyOf, Naming.keys,
            Except.ok.injEq] at hresult
          exact Or.inr ⟨hnamed, hresult.symm⟩
  · exact Or.inl ⟨_, rfl⟩

/-- A removal is refused, or removes the lease it names. -/
theorem step_removeConnection (options : PresenceManagerOptions) (s : PresenceStore)
    (instanceId : String) (now : ℚ) (userId : UserId) (connectionId : ConnectionId) :
    (∃ message, s.step options ⟨instanceId, now, .removeConnection userId connectionId⟩ =
        (s, .failed message)) ∨ trim userId ≠ "" ∧
      s.step options ⟨instanceId, now, .removeConnection userId connectionId⟩ =
        let removed := removePresence (s.users (PRESENCE_USER_KEY_PREFIX ++ trim userId))
          (instanceId ++ ":" ++ connectionId) now options.keySafeguardTtlSec
        (s.setUser (PRESENCE_USER_KEY_PREFIX ++ trim userId) removed.1,
          .transition removed.2) := by
  simp only [step, perform, removeConnection, executeRemovePresence_eq]
  split
  · rename_i hresult
    split at hresult
    · cases hresult
    · cases hlease : leaseKey instanceId userId connectionId with
      | error message =>
          rw [hlease] at hresult
          cases hresult
      | ok key =>
          have hnamed : trim userId ≠ "" := by
            intro hblank
            rw [leaseKey_of_blank hblank] at hlease
            cases hlease
          simp only [hlease, Except.map, leaseKey_ok hlease, keyOf, Naming.keys,
            Except.ok.injEq] at hresult
          exact Or.inr ⟨hnamed, hresult.symm⟩
  · exact Or.inl ⟨_, rfl⟩

/-- A count prunes the key of its user. -/
theorem step_getUserConnectionCount {userId : UserId} (named : trim userId ≠ "")
    (options : PresenceManagerOptions) (s : PresenceStore) (instanceId : String) (now : ℚ) :
    s.step options ⟨instanceId, now, .getUserConnectionCount userId⟩ =
      let pruned := s.pruneKey (PRESENCE_USER_KEY_PREFIX ++ trim userId) now
      (pruned, .count ((pruned.users (PRESENCE_USER_KEY_PREFIX ++ trim userId)).zcard now)) := by
  simp only [step, perform, getUserConnectionCount, getPresenceUserKey, if_neg named, bind,
    Except.bind, pure, Except.pure, Except.map]

end PresenceStore

namespace Refines

variable {options : PresenceManagerOptions} {op : PresenceOp} {s : PresenceStore}
  {a : LeaseMap String}

/-- The store and the map take the same step. -/
def StepsAlike (options : PresenceManagerOptions) (op : PresenceOp) (s : PresenceStore)
    (a : LeaseMap String) : Prop :=
  Refines options op.now (s.step options op).1 (a.step .keys options.presenceTtlMs op).1 ∧
    (s.step options op).2.observed = (a.step .keys options.presenceTtlMs op).2

theorem refused (message : String) (h : Refines options op.now s a)
    (herror : s.perform options op = .error message) (hrefused : op.refusal = some message) :
    StepsAlike options op s a := by
  simp only [StepsAlike, PresenceStore.step, LeaseMap.step, herror, hrefused]
  exact ⟨h, rfl⟩

/-- No lease of the map outlives the deadline which a write gives to its key. -/
theorem le_keyDeadline {now : ℚ} (h : Refines options now s a)
    (covered : options.presenceTtlMs ≤ ((1000 * options.keySafeguardTtlSec : ℚ) : Score))
    (u : UserId) (m : String) (e : Score) (he : a.expiry u m = some e) :
    e ≤ keyDeadline now options.keySafeguardTtlSec :=
  (h.bounded u m e he).trans (add_le_add_right covered _)

theorem add_ttl_le_keyDeadline (now : ℚ)
    (covered : options.presenceTtlMs ≤ ((1000 * options.keySafeguardTtlSec : ℚ) : Score)) :
    now + options.presenceTtlMs ≤ keyDeadline now options.keySafeguardTtlSec :=
  add_le_add_right covered _

/-- A write to the leases of one user. -/
theorem write {now : ℚ} {u : UserId} {leases : SortedSet String Score}
    {expiry : String → Option Score} {b : LeaseMap String} (h : Refines options now s a)
    (tracks : leases.Tracks now expiry)
    (bounded : ∀ u m e, b.expiry u m = some e → e ≤ now + options.presenceTtlMs)
    (hexpiry : b.expiry = Function.update a.expiry u expiry) (hmembers : b.members = a.members) :
    Refines options now (s.setUser (PRESENCE_USER_KEY_PREFIX ++ u) leases) b where
  tracks u' := by
    rw [hexpiry]
    by_cases hu : u' = u
    · rw [hu, PresenceStore.setUser_users_self, Function.update_self]
      exact tracks
    · rw [PresenceStore.setUser_users_ne (by simpa using hu), Function.update_of_ne hu]
      exact h.tracks u'
  bounded := bounded
  rooms r := by
    rw [hmembers]
    exact h.rooms r

theorem register {now : ℚ} (h : Refines options now s a)
    (covered : options.presenceTtlMs ≤ ((1000 * options.keySafeguardTtlSec : ℚ) : Score))
    (instanceId : String) (userId : UserId) (connectionId : ConnectionId) :
    StepsAlike options ⟨instanceId, now, .registerConnection userId connectionId⟩ s a := by
  by_cases hempty : userId = "" ∨ connectionId = ""
  · refine h.refused "userId and connectionId are required for presence registration" ?_ ?_
    · simp [PresenceStore.perform, PresenceStore.registerConnection, hempty, Except.map]
    · simp [PresenceOp.refusal, hempty]
  · cases hlease : leaseKey instanceId userId connectionId with
    | error message =>
        refine h.refused message ?_ ?_
        · simp [PresenceStore.perform, PresenceStore.registerConnection, hempty,
            executeRegisterPresence_eq, hlease, Except.map]
        · simp [PresenceOp.refusal, hempty, hlease, error?]
    | ok key =>
        have haccepted : PresenceOp.refusal
            ⟨instanceId, now, .registerConnection userId connectionId⟩ = none := by
          simp [PresenceOp.refusal, hempty, hlease, error?]
        have hkey := leaseKey_ok hlease
        subst hkey
        have hcovered := h.le_keyDeadline covered (Naming.keys.user userId)
        simp only [StepsAlike, PresenceStore.step, PresenceStore.perform,
          PresenceStore.registerConnection, hempty, if_false, executeRegisterPresence_eq, hlease,
          Except.map, LeaseMap.step, haccepted, LeaseMap.answer, keyOf]
        constructor
        · refine h.write (registerPresence_tracks (h.tracks _).reads hcovered
            (add_ttl_le_keyDeadline now covered)) (LeaseMap.grant_bounded h.bounded) ?_ rfl
          exact LeaseMap.grant_expiry_granted (by simp [PresenceOp.granted, haccepted])
            (by simp [PresenceOp.revoked])
        · rw [registerPresence_result (h.tracks _).reads]
          rfl

theorem remove {now : ℚ} (h : Refines options now s a)
    (covered : options.presenceTtlMs ≤ ((1000 * options.keySafeguardTtlSec : ℚ) : Score))
    (instanceId : String) (userId : UserId) (connectionId : ConnectionId) :
    StepsAlike options ⟨instanceId, now, .removeConnection userId connectionId⟩ s a := by
  by_cases hempty : userId = "" ∨ connectionId = ""
  · refine h.refused "userId and connectionId are required for presence removal" ?_ ?_
    · simp [PresenceStore.perform, PresenceStore.removeConnection, hempty, Except.map]
    · simp [PresenceOp.refusal, hempty]
  · cases hlease : leaseKey instanceId userId connectionId with
    | error message =>
        refine h.refused message ?_ ?_
        · simp [PresenceStore.perform, PresenceStore.removeConnection, hempty,
            executeRemovePresence_eq, hlease, Except.map]
        · simp [PresenceOp.refusal, hempty, hlease, error?]
    | ok key =>
        have haccepted : PresenceOp.refusal
            ⟨instanceId, now, .removeConnection userId connectionId⟩ = none := by
          simp [PresenceOp.refusal, hempty, hlease, error?]
        have hkey := leaseKey_ok hlease
        subst hkey
        have hcovered := h.le_keyDeadline covered (Naming.keys.user userId)
        have hexpiry : (a.grant .keys options.presenceTtlMs
            ⟨instanceId, now, .removeConnection userId connectionId⟩).expiry =
            Function.update a.expiry (Naming.keys.user userId)
              (Function.update (a.expiry (Naming.keys.user userId))
                (Naming.keys.lease instanceId connectionId) none) :=
          LeaseMap.grant_expiry_revoked (by simp [PresenceOp.revoked, haccepted])
            (by simp [PresenceOp.granted])
        simp only [StepsAlike, PresenceStore.step, PresenceStore.perform,
          PresenceStore.removeConnection, hempty, if_false, executeRemovePresence_eq, hlease,
          Except.map, LeaseMap.step, haccepted, LeaseMap.answer, keyOf]
        constructor
        · exact h.write (removePresence_tracks (h.tracks _) hcovered)
            (LeaseMap.grant_bounded h.bounded) hexpiry rfl
        · rw [removePresence_result (h.tracks _), LeaseMap.Online, hexpiry, Function.update_self]
          rfl

open scoped Classical in
/-- All keys of a pipeline are written at one instant. -/
theorem pipeline_tracks {now : ℚ} (h : Refines options now s a)
    (covered : options.presenceTtlMs ≤ ((1000 * options.keySafeguardTtlSec : ℚ) : Score))
    (named : List (UserId × String)) (u : UserId) :
    (((s.addLeases now (now + options.presenceTtlMs) (named.map keyOf)).expireKeys now
      (keyDeadline now options.keySafeguardTtlSec)
      (((named.map keyOf).map Prod.fst).foldl OrderedSet.insert ∅).toList).users
        (PRESENCE_USER_KEY_PREFIX ++ u)).Tracks now
      fun m => if (u, m) ∈ named then some (now + options.presenceTtlMs) else a.expiry u m := by
  rw [PresenceStore.expireKeys_users (OrderedSet.nodup _)]
  split
  · have hreads := PresenceStore.addLeases_reads (fun u => (h.tracks u).reads)
      (now + options.presenceTtlMs) named u
    refine hreads.expire ?_
    intro m e he
    split at he
    · cases he
      exact add_ttl_le_keyDeadline now covered
    · exact h.le_keyDeadline covered u m e he
  · rename_i htouched
    have huntouched : PRESENCE_USER_KEY_PREFIX ++ u ∉ (named.map keyOf).map Prod.fst := by
      intro hmem
      exact htouched (OrderedSet.mem_foldl_insert.mpr (Or.inr hmem))
    have hnot : ∀ m, (u, m) ∉ named := by
      intro m hm
      exact huntouched (List.mem_map_of_mem (List.mem_map_of_mem hm))
    rw [PresenceStore.addLeases_users_of_not_mem huntouched]
    simp only [hnot, if_false]
    exact h.tracks u

theorem flush {now : ℚ} (h : Refines options now s a)
    (covered : options.presenceTtlMs ≤ ((1000 * options.keySafeguardTtlSec : ℚ) : Score))
    (instanceId : String) (active : List (UserId × ConnectionId)) :
    StepsAlike options ⟨instanceId, now, .flushLeaseRenewals active⟩ s a := by
  cases hleases : active.mapM fun conn => leaseKey instanceId conn.1 conn.2 with
  | error message =>
      have hactive : active ≠ [] := by
        rintro rfl
        cases hleases
      refine h.refused message ?_ ?_
      · simp [PresenceStore.perform, PresenceStore.renewLeases, hactive, hleases, bind,
          Except.bind, Except.map]
      · simp [PresenceOp.refusal, hleases, error?]
  | ok leases =>
      have haccepted : PresenceOp.refusal ⟨instanceId, now, .flushLeaseRenewals active⟩ = none := by
        simp [PresenceOp.refusal, hleases, error?]
      have hnamed := mapM_leaseKey_ok hleases
      simp only [StepsAlike, PresenceStore.step, PresenceStore.perform,
        PresenceStore.renewLeases, PresenceStore.execRenewals, hleases, LeaseMap.step, haccepted,
        LeaseMap.answer]
      by_cases hactive : active = []
      · subst hactive
        have hgrant : a.grant .keys options.presenceTtlMs
            ⟨instanceId, now, .flushLeaseRenewals []⟩ = a :=
          LeaseMap.grant_eq_self (by simp [PresenceOp.granted, haccepted])
            (by simp [PresenceOp.revoked])
        rw [hgrant]
        exact ⟨h, rfl⟩
      · simp only [if_neg hactive, bind, Except.bind, pure, Except.pure, Except.map]
        have hgranted : PresenceOp.granted .keys ⟨instanceId, now, .flushLeaseRenewals active⟩ =
            active.map fun conn =>
              (Naming.keys.user conn.1, Naming.keys.lease instanceId conn.2) := by
          simp only [PresenceOp.granted, haccepted]
        have hrevoked :
            PresenceOp.revoked .keys ⟨instanceId, now, .flushLeaseRenewals active⟩ = [] := by
          simp [PresenceOp.revoked]
        subst hnamed
        refine ⟨⟨?_, LeaseMap.grant_bounded h.bounded, ?_⟩, rfl⟩
        · intro u
          simp only [LeaseMap.grant, hgranted, hrevoked, List.not_mem_nil, if_false]
          exact h.pipeline_tracks covered _ u
        · intro r
          rw [PresenceStore.expireKeys_rooms, PresenceStore.addLeases_rooms]
          exact h.rooms r

theorem count {now : ℚ} (h : Refines options now s a) (instanceId : String) (userId : UserId) :
    StepsAlike options ⟨instanceId, now, .getUserConnectionCount userId⟩ s a := by
  cases hkey : getPresenceUserKey userId with
  | error message =>
      refine h.refused message ?_ ?_
      · simp [PresenceStore.perform, PresenceStore.getUserConnectionCount, hkey, bind,
          Except.bind, Except.map]
      · simp [PresenceOp.refusal, hkey, error?]
  | ok userKey =>
      have haccepted : PresenceOp.refusal
          ⟨instanceId, now, .getUserConnectionCount userId⟩ = none := by
        simp [PresenceOp.refusal, hkey, error?]
      have hkey' := getPresenceUserKey_ok hkey
      subst hkey'
      have hgrant : a.grant .keys options.presenceTtlMs
          ⟨instanceId, now, .getUserConnectionCount userId⟩ = a :=
        LeaseMap.grant_eq_self (by simp [PresenceOp.granted]) (by simp [PresenceOp.revoked])
      have hreads := (h.tracks (trim userId)).reads
      simp only [StepsAlike, PresenceStore.step, PresenceStore.perform,
        PresenceStore.getUserConnectionCount, hkey, bind, Except.bind, pure, Except.pure,
        Except.map, LeaseMap.step, haccepted, LeaseMap.answer, hgrant]
      constructor
      · exact h.write (h.tracks _).prune h.bounded (Function.update_eq_self _ _).symm rfl
      · rw [PresenceStore.pruneKey, PresenceStore.setUser_users_self, hreads.zcard_prune]
        rfl

theorem prune {now : ℚ} (h : Refines options now s a) (instanceId : String) (userId : UserId) :
    StepsAlike options ⟨instanceId, now, .pruneExpired userId⟩ s a := by
  cases hkey : getPresenceUserKey userId with
  | error message =>
      refine h.refused message ?_ ?_
      · simp [PresenceStore.perform, PresenceStore.pruneExpired, hkey, bind, Except.bind,
          Except.map]
      · simp [PresenceOp.refusal, hkey, error?]
  | ok userKey =>
      have haccepted : PresenceOp.refusal ⟨instanceId, now, .pruneExpired userId⟩ = none := by
        simp [PresenceOp.refusal, hkey, error?]
      have hkey' := getPresenceUserKey_ok hkey
      subst hkey'
      have hgrant : a.grant .keys options.presenceTtlMs
          ⟨instanceId, now, .pruneExpired userId⟩ = a :=
        LeaseMap.grant_eq_self (by simp [PresenceOp.granted]) (by simp [PresenceOp.revoked])
      simp only [StepsAlike, PresenceStore.step, PresenceStore.perform,
        PresenceStore.pruneExpired, hkey, bind, Except.bind, pure, Except.pure,
        Except.map, LeaseMap.step, haccepted, LeaseMap.answer, hgrant]
      exact ⟨h.write (h.tracks _).prune h.bounded (Function.update_eq_self _ _).symm rfl, rfl⟩

theorem getRoomMembersKey_trim {roomId : RoomId} (h : trim roomId ≠ "") :
    getRoomMembersKey (trim roomId) =
      .ok (PRESENCE_ROOM_MEMBERS_PREFIX ++ trim roomId ++ ":members") := by
  rw [getRoomMembersKey, trim_trim, if_neg h]

/-- A new set of users for one room. -/
theorem setMembers {now : ℚ} {roomId : RoomId} {members : OrderedSet UserId}
    (tracks : ∀ u, (s.users (PRESENCE_USER_KEY_PREFIX ++ u)).Tracks now (a.expiry u))
    (bounded : ∀ u m e, a.expiry u m = some e → e ≤ now + options.presenceTtlMs)
    (hrooms : ∀ r, s.rooms (PRESENCE_ROOM_MEMBERS_PREFIX ++ r ++ ":members") =
      if r = roomId then members else a.members r) :
    Refines options now s (a.setMembers roomId members) where
  tracks := tracks
  bounded := bounded
  rooms r := by
    rw [hrooms]
    by_cases hr : r = roomId
    · simp [LeaseMap.setMembers, hr]
    · simp [LeaseMap.setMembers, hr]

theorem roster {now : ℚ} (h : Refines options now s a) (instanceId : String) (roomId : RoomId) :
    StepsAlike options ⟨instanceId, now, .getRoomRoster roomId⟩ s a := by
  have haccepted : PresenceOp.refusal ⟨instanceId, now, .getRoomRoster roomId⟩ = none := rfl
  have hgrant : a.grant .keys options.presenceTtlMs
      ⟨instanceId, now, .getRoomRoster roomId⟩ = a :=
    LeaseMap.grant_eq_self rfl rfl
  simp only [StepsAlike, PresenceStore.step, PresenceStore.perform, PresenceStore.getRoomRoster,
    LeaseMap.step, haccepted, LeaseMap.answer, hgrant]
  by_cases hblank : trim roomId = ""
  · simp only [hblank, if_true, Except.map]
    exact ⟨h, rfl⟩
  · obtain ⟨htracks, hfound, hrooms⟩ := rosterLoop_tracks
      (PRESENCE_ROOM_MEMBERS_PREFIX ++ trim roomId ++ ":members")
      (a.members (trim roomId)).nodup s h.tracks
    simp only [hblank, if_false, executeGetRoomPresenceRoster, getRoomMembersKey_trim hblank,
      getRoomPresenceRoster, bind, Except.bind, pure, Except.pure, Except.map, h.rooms]
    refine ⟨setMembers htracks h.bounded ?_, ?_⟩
    · intro r
      rw [hrooms]
      by_cases hr : r = trim roomId
      · rw [hr, Function.update_self, if_pos rfl, h.rooms]
        refine OrderedSet.filter_congr fun u hu => ?_
        have hmem : u ∈ (a.members (trim roomId)).toList := hu
        simp only [hmem, not_true_eq_false, decide_false, Bool.false_or]
        rfl
      · rw [Function.update_of_ne (by simpa using hr), if_neg hr, h.rooms]
    · rw [hfound]
      rfl

theorem addMember {now : ℚ} (h : Refines options now s a) (instanceId : String)
    (roomId : RoomId) (userId : UserId) :
    StepsAlike options ⟨instanceId, now, .addRoomMember roomId userId⟩ s a := by
  have haccepted : PresenceOp.refusal ⟨instanceId, now, .addRoomMember roomId userId⟩ = none := rfl
  have hgrant : a.grant .keys options.presenceTtlMs
      ⟨instanceId, now, .addRoomMember roomId userId⟩ = a :=
    LeaseMap.grant_eq_self rfl rfl
  simp only [StepsAlike, PresenceStore.step, PresenceStore.perform, PresenceStore.addRoomMember,
    LeaseMap.step, haccepted, LeaseMap.answer, hgrant]
  by_cases hblank : trim roomId = "" ∨ trim userId = ""
  · simp only [hblank, if_true, Except.map]
    exact ⟨h, rfl⟩
  · simp only [hblank, if_false, getRoomMembersKey_trim (not_or.mp hblank).1, bind, Except.bind,
      pure, Except.pure, Except.map, h.rooms]
    refine ⟨setMembers h.tracks h.bounded ?_, rfl⟩
    intro r
    by_cases hr : r = trim roomId
    · simp [hr]
    · simp [hr, h.rooms]

theorem removeMember {now : ℚ} (h : Refines options now s a) (instanceId : String)
    (roomId : RoomId) (userId : UserId) :
    StepsAlike options ⟨instanceId, now, .removeRoomMember roomId userId⟩ s a := by
  have haccepted :
      PresenceOp.refusal ⟨instanceId, now, .removeRoomMember roomId userId⟩ = none := rfl
  have hgrant : a.grant .keys options.presenceTtlMs
      ⟨instanceId, now, .removeRoomMember roomId userId⟩ = a :=
    LeaseMap.grant_eq_self rfl rfl
  simp only [StepsAlike, PresenceStore.step, PresenceStore.perform,
    PresenceStore.removeRoomMember, LeaseMap.step, haccepted, LeaseMap.answer, hgrant]
  by_cases hblank : trim roomId = "" ∨ trim userId = ""
  · simp only [hblank, if_true, Except.map]
    exact ⟨h, rfl⟩
  · simp only [hblank, if_false, getRoomMembersKey_trim (not_or.mp hblank).1, bind, Except.bind,
      pure, Except.pure, Except.map, h.rooms]
    refine ⟨setMembers h.tracks h.bounded ?_, rfl⟩
    intro r
    by_cases hr : r = trim roomId
    · simp [hr]
    · simp [hr, h.rooms]

/-- Every call takes the store and the map to states that belong together again, with the
same answer. -/
theorem step {now : ℚ} (h : Refines options now s a)
    (covered : options.presenceTtlMs ≤ ((1000 * options.keySafeguardTtlSec : ℚ) : Score))
    (instanceId : String) (call : PresenceCall) :
    StepsAlike options ⟨instanceId, now, call⟩ s a := by
  cases call with
  | registerConnection userId connectionId =>
      exact h.register covered instanceId userId connectionId
  | removeConnection userId connectionId => exact h.remove covered instanceId userId connectionId
  | flushLeaseRenewals active => exact h.flush covered instanceId active
  | getUserConnectionCount userId => exact h.count instanceId userId
  | pruneExpired userId => exact h.prune instanceId userId
  | getRoomRoster roomId => exact h.roster instanceId roomId
  | addRoomMember roomId userId => exact h.addMember instanceId roomId userId
  | removeRoomMember roomId userId => exact h.removeMember instanceId roomId userId

end Refines

theorem store_simulates_leases {options : PresenceManagerOptions}
    (covered : options.presenceTtlMs ≤ ((1000 * options.keySafeguardTtlSec : ℚ) : Score)) :
    Simulates (Refines options) PresenceOp.now PresenceReply.observed
      (PresenceStore.step options) (LeaseMap.step .keys options.presenceTtlMs) where
  later _ _ _ _ le h := h.later le
  related op _ _ h := (h.step covered op.instanceId op.call).1
  answers op _ _ h := (h.step covered op.instanceId op.call).2

/-- The answers to any calls of any nodes are those of the lease map, and the store stands
for the map from the last call on. -/
theorem presence_refines_leases (options : PresenceManagerOptions)
    (covered : options.presenceTtlMs ≤ ((1000 * options.keySafeguardTtlSec : ℚ) : Score))
    (ops : List PresenceOp) (sorted : (ops.map PresenceOp.now).Pairwise (· ≤ ·)) :
    (outputs (PresenceStore.step options) {} ops).map PresenceReply.observed =
        outputs (LeaseMap.step .keys options.presenceTtlMs) {} ops ∧
      ∀ t, (∀ op ∈ ops, op.now ≤ t) →
        Refines options t (after (PresenceStore.step options) {} ops)
          (after (LeaseMap.step .keys options.presenceTtlMs) {} ops) := by
  have hsim := store_simulates_leases covered
  have hinitial := Refines.initial options
  exact ⟨hsim.outputs_eq hinitial sorted, fun t past => hsim.related_after hinitial sorted past⟩

/-- Two nodes register and one connection leaves again, between a renewal and a count. -/
def twoNodeOps : List PresenceOp :=
  [⟨"node-a", 0, .registerConnection "alice" "c1"⟩,
    ⟨"node-b", 10, .registerConnection "alice" "c2"⟩,
    ⟨"node-a", 15000, .flushLeaseRenewals [("alice", "c1")]⟩,
    ⟨"node-b", 60010, .getUserConnectionCount "alice"⟩,
    ⟨"node-a", 60020, .removeConnection "alice" "c1"⟩]

theorem presence_refines_leases_two_nodes :
    (outputs (PresenceStore.step {}) {} twoNodeOps).map PresenceReply.observed =
        outputs (LeaseMap.step .keys 60000) {} twoNodeOps ∧
      ∀ t, (∀ op ∈ twoNodeOps, op.now ≤ t) →
        Refines {} t (after (PresenceStore.step {}) {} twoNodeOps)
          (after (LeaseMap.step .keys 60000) {} twoNodeOps) :=
  presence_refines_leases {} (by decide +kernel) twoNodeOps (by decide +kernel)

example : outputs (PresenceStore.step {}) {} twoNodeOps =
    [.transition 1, .transition 0, .renewed 1, .count 1, .transition 1] := by
  decide +kernel

/-- Two user ids which differ in white space only. -/
def aliasOps : List PresenceOp :=
  [⟨"node-a", 0, .registerConnection "alice" "c1"⟩,
    ⟨"node-b", 10, .registerConnection "alice " "c2"⟩]

/-- The second registration is the first one of its user, but not of its key. -/
theorem register_shares_trimmed_key :
    outputs (PresenceStore.step {}) {} aliasOps = [.transition 1, .transition 0] ∧
      outputs (LeaseMap.step .plain 60000) {} aliasOps = [.transition 1, .transition 1] := by
  refine ⟨by decide +kernel, ?_⟩
  have hfirst : PresenceOp.refusal ⟨"node-a", 0, .registerConnection "alice" "c1"⟩ = none := by
    decide +kernel
  have hsecond : PresenceOp.refusal ⟨"node-b", 10, .registerConnection "alice " "c2"⟩ = none := by
    decide +kernel
  simp [aliasOps, outputs, LeaseMap.step, LeaseMap.answer, LeaseMap.Online, LeaseMap.grant,
    PresenceOp.granted, PresenceOp.revoked, Naming.plain, hfirst, hsecond]

end Pulse
