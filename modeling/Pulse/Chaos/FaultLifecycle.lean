import Pulse.Chaos.SocketPair

/-!
# Faults of the proxy

The proxy with all its connections. A fault concerns the connections which are active and
those which come; what sever and the closing of a socket have dropped stays dropped through
every later fault and restoration. In TCP mode a destination has a first part of what its
peer sent while the proxy was neither severed nor a black hole.
-/

namespace Pulse

/-- The sockets of a pair, as destinations. -/
inductive Side where
  | client
  | target
  deriving DecidableEq, Repr

namespace SocketPair

def socket (pair : SocketPair) : Side → FaultProxy
  | .client => pair.clientSocket
  | .target => pair.targetSocket

def mapSocket (pair : SocketPair) (side : Side) (f : FaultProxy → FaultProxy) : SocketPair :=
  match side with
  | .client => { pair with clientSocket := f pair.clientSocket }
  | .target => { pair with targetSocket := f pair.targetSocket }

/-- Both sockets destroyed, or ended: neither can be written. -/
def cleanup (pair : SocketPair) : SocketPair :=
  { pair with
    clientSocket := { pair.clientSocket with writable := false }
    targetSocket := { pair.targetSocket with writable := false } }

def setDropPredicate (pair : SocketPair) (predicate : Option (DecodedWebSocketFrame → Bool)) :
    SocketPair :=
  { pair with
    clientFilter := { pair.clientFilter with dropPredicate := predicate }
    targetFilter := { pair.targetFilter with dropPredicate := predicate } }

end SocketPair

/-- A pair, and whether it is one of `activePairs`. -/
structure AcceptedPair where
  pair : SocketPair
  active : Bool

/-- The proxy; the state, the latency and the time in the pairs are those of their last use. -/
structure ProxyServer where
  mode : ProxyMode
  now : Nat := 0
  state : FaultState := .normal
  latencyConfig : Option LatencyFaultConfig := none
  frameDropPredicate : Option (DecodedWebSocketFrame → Bool) := none
  /-- Whether the server takes connections. -/
  listening : Bool := false
  /-- The pairs of all accepted connections, in their order. -/
  pairs : List AcceptedPair := []

namespace ProxyServer

variable (utf8 : List UInt8 → Option String)

/-- A pair under the present faults. -/
def attach (p : ProxyServer) (pair : SocketPair) : SocketPair :=
  { pair with
    state := p.state
    clientSocket := { pair.clientSocket with now := p.now, latencyConfig := p.latencyConfig }
    targetSocket := { pair.targetSocket with now := p.now, latencyConfig := p.latencyConfig } }

def cleanupPair (x : AcceptedPair) : AcceptedPair :=
  { pair := x.pair.cleanup, active := false }

def cleanupActive (x : AcceptedPair) : AcceptedPair := if x.active then cleanupPair x else x

def handleClientConnection (p : ProxyServer) : ProxyServer :=
  match SocketPair.handleClientConnection p.mode p.state p.latencyConfig p.frameDropPredicate with
  | some pair => { p with pairs := p.pairs ++ [{ pair, active := true }] }
  | none => p

def sever (p : ProxyServer) : ProxyServer :=
  { p with state := .severed, pairs := p.pairs.map cleanupActive }

def blackhole (p : ProxyServer) (enabled : Bool) : ProxyServer :=
  { p with state := if enabled then .blackhole else .normal }

def injectLatency (p : ProxyServer) (config : Option LatencyFaultConfig) : ProxyServer :=
  { p with
    latencyConfig := config
    state :=
      if config.isSome then .degraded
      else if p.state = .degraded then .normal
      else p.state }

/-- The filters of an active pair get another predicate. -/
def setDropPredicate (predicate : Option (DecodedWebSocketFrame → Bool)) (x : AcceptedPair) :
    AcceptedPair :=
  if x.active then { x with pair := x.pair.setDropPredicate predicate } else x

def dropFrames (p : ProxyServer) (predicate : Option (DecodedWebSocketFrame → Bool)) :
    ProxyServer :=
  { p with frameDropPredicate := predicate, pairs := p.pairs.map (setDropPredicate predicate) }

def restore (p : ProxyServer) : ProxyServer :=
  { p with
    state := .normal
    latencyConfig := none
    frameDropPredicate := none
    pairs := p.pairs.map (setDropPredicate none) }

def clearTimers (x : AcceptedPair) : AcceptedPair :=
  { x with pair := { x.pair with
      clientSocket := { x.pair.clientSocket with pendingTimers := [] }
      targetSocket := { x.pair.targetSocket with pendingTimers := [] } } }

/-- `close` clears the timers of all pairs, and the server takes no more connections. -/
def close (p : ProxyServer) : ProxyServer :=
  { p with listening := false, pairs := p.pairs.map fun x => cleanupActive (clearTimers x) }

/-- Something happens to a connection which was accepted. -/
def onPair (p : ProxyServer) (i : Nat) (f : AcceptedPair → AcceptedPair) : Option ProxyServer :=
  if i < p.pairs.length then some { p with pairs := p.pairs.modify i f } else none

inductive Event where
  | elapse (ms : Nat)
  | start
  | connect
  | client (i : Nat) (chunk : List UInt8) (random : Random)
  | target (i : Nat) (chunk : List UInt8) (random random' : Random)
  | timer (i : Nat) (destination : Side) (index : Nat)
  /-- A socket whose peer has ended it, and which therefore ends itself. -/
  | ended (i : Nat) (socket : Side)
  /-- The `close` or `error` event of a socket of the pair. -/
  | closed (i : Nat)
  | sever
  | blackhole (enabled : Bool)
  | injectLatency (config : Option LatencyFaultConfig)
  | dropFrames (predicate : Option (DecodedWebSocketFrame → Bool))
  | restore
  | close

/-- The timer of a delayed write. -/
def timer? (p : ProxyServer) (i : Nat) (destination : Side) (index : Nat) : Option PendingWrite :=
  (p.pairs[i]?).bind fun x => (x.pair.socket destination).pendingTimers[index]?

def step (p : ProxyServer) : Event → Option ProxyServer
  | .elapse ms => some { p with now := p.now + ms }
  | .start => some { p with listening := true }
  | .connect => if p.listening then some p.handleClientConnection else none
  | .client i chunk random =>
      p.onPair i fun x =>
        { x with pair := (p.attach x.pair).forwardClientTraffic utf8 chunk random }
  | .target i chunk random random' =>
      p.onPair i fun x =>
        { x with pair := (p.attach x.pair).forwardTargetTraffic utf8 chunk random random' }
  | .timer i destination index =>
      match p.timer? i destination index with
      | some timer =>
          if timer.due ≤ p.now then
            p.onPair i fun x =>
              { x with pair := x.pair.mapSocket destination (·.fire index timer) }
          else none
      | none => none
  | .ended i socket =>
      p.onPair i fun x =>
        { x with pair := x.pair.mapSocket socket fun s => { s with writable := false } }
  | .closed i => p.onPair i cleanupPair
  | .sever => some p.sever
  | .blackhole enabled => some (p.blackhole enabled)
  | .injectLatency config => some (p.injectLatency config)
  | .dropFrames predicate => some (p.dropFrames predicate)
  | .restore => some p.restore
  | .close => some p.close

/-! ### Dropped pairs -/

section dropped

variable {utf8 : List UInt8 → Option String} {p q : ProxyServer} {e : Event}

/-- Neither socket of the pair can be written. -/
def Unwritable (x : AcceptedPair) : Prop := ∀ side, (x.pair.socket side).writable = false

/-- What the change of a pair respects: it makes no pair active again, drops a pair with both
of its sockets and writes nothing to a pair which cannot be written. -/
structure Keeps (f : AcceptedPair → AcceptedPair) : Prop where
  active : ∀ x, (f x).active = true → x.active = true
  dropped : ∀ x, x.active = true → (f x).active = false → Unwritable (f x)
  silent : ∀ x, Unwritable x → Unwritable (f x) ∧
    ∀ side, ((f x).pair.socket side).written = (x.pair.socket side).written

/-- A change of the sockets alone. -/
theorem Keeps.of_active {f : AcceptedPair → AcceptedPair} (active : ∀ x, (f x).active = x.active)
    (silent : ∀ x, Unwritable x → Unwritable (f x) ∧
      ∀ side, ((f x).pair.socket side).written = (x.pair.socket side).written) : Keeps f where
  active x h := (active x).symm.trans h
  dropped x hx h := absurd (((active x).symm.trans h).symm.trans hx) Bool.false_ne_true
  silent := silent

/-- A change which leaves what was written, and what can be. -/
theorem Keeps.of_same {f : AcceptedPair → AcceptedPair} (active : ∀ x, (f x).active = x.active)
    (same : ∀ x side, ((f x).pair.socket side).writable = (x.pair.socket side).writable ∧
      ((f x).pair.socket side).written = (x.pair.socket side).written) : Keeps f :=
  .of_active active fun x h =>
    ⟨fun side => (same x side).1.trans (h side), fun side => (same x side).2⟩

theorem keeps_id : Keeps fun x => x := .of_same (fun _ => rfl) fun _ _ => ⟨rfl, rfl⟩

theorem Keeps.comp {f g : AcceptedPair → AcceptedPair} (hf : Keeps f) (hg : Keeps g) :
    Keeps fun x => f (g x) where
  active x h := hg.active x (hf.active _ h)
  dropped x hx h := by
    cases hactive : (g x).active with
    | true => exact hf.dropped _ hactive h
    | false => exact (hf.silent _ (hg.dropped x hx hactive)).1
  silent x h := by
    obtain ⟨hg', hwritten⟩ := hg.silent x h
    obtain ⟨hf', hwritten'⟩ := hf.silent _ hg'
    exact ⟨hf', fun side => (hwritten' side).trans (hwritten side)⟩

/-- A change of the pair with some index. -/
theorem Keeps.at {f : AcceptedPair → AcceptedPair} (h : Keeps f) (i j : Nat) :
    Keeps fun x => if i = j then f x else x := by
  by_cases hij : i = j
  · simpa only [if_pos hij] using h
  · simpa only [if_neg hij] using keeps_id

theorem keeps_cleanupPair : Keeps cleanupPair where
  active _ h := absurd h Bool.false_ne_true
  dropped _ _ _ side := by cases side <;> rfl
  silent _ _ := ⟨fun side => by cases side <;> rfl, fun side => by cases side <;> rfl⟩

theorem keeps_cleanupActive : Keeps cleanupActive where
  active x h := by
    rw [cleanupActive] at h
    split at h
    · exact absurd h Bool.false_ne_true
    · exact h
  dropped x hx _ := by
    rw [cleanupActive, if_pos hx]
    exact fun side => by cases side <;> rfl
  silent x h := by
    rw [cleanupActive]
    split
    · exact keeps_cleanupPair.silent x h
    · exact ⟨h, fun _ => rfl⟩

theorem keeps_clearTimers : Keeps clearTimers :=
  .of_same (fun _ => rfl) fun _ side => by cases side <;> exact ⟨rfl, rfl⟩

theorem keeps_setDropPredicate (predicate : Option (DecodedWebSocketFrame → Bool)) :
    Keeps (setDropPredicate predicate) := by
  refine .of_same (fun x => ?_) fun x side => ?_
  · rw [setDropPredicate]
    split <;> rfl
  · rw [setDropPredicate]
    split
    · cases side <;> exact ⟨rfl, rfl⟩
    · exact ⟨rfl, rfl⟩

theorem socket_attach (p : ProxyServer) (pair : SocketPair) (side : Side) :
    ((p.attach pair).socket side).writable = (pair.socket side).writable ∧
      ((p.attach pair).socket side).written = (pair.socket side).written := by
  cases side <;> exact ⟨rfl, rfl⟩

theorem forwardClientTraffic_unwritable {pair : SocketPair} (chunk : List UInt8) (random : Random)
    (h : (pair.socket .target).writable = false) :
    pair.forwardClientTraffic utf8 chunk random = pair := by
  have hsocket : pair.targetSocket.writable = false := h
  rw [SocketPair.forwardClientTraffic, hsocket]
  split <;> rfl

theorem forwardTargetTraffic_unwritable {pair : SocketPair} (chunk : List UInt8)
    (random random' : Random) (h : (pair.socket .client).writable = false) :
    pair.forwardTargetTraffic utf8 chunk random random' = pair := by
  have hsocket : pair.clientSocket.writable = false := h
  rw [SocketPair.forwardTargetTraffic, hsocket]
  split <;> rfl

theorem keeps_client (p : ProxyServer) (chunk : List UInt8) (random : Random) :
    Keeps fun x =>
      { x with pair := (p.attach x.pair).forwardClientTraffic utf8 chunk random } := by
  refine .of_active (fun _ => rfl) fun x h => ?_
  have hsame : (p.attach x.pair).forwardClientTraffic utf8 chunk random = p.attach x.pair :=
    forwardClientTraffic_unwritable chunk random
      ((socket_attach p x.pair .target).1.trans (h .target))
  rw [hsame]
  exact ⟨fun side => (socket_attach p x.pair side).1.trans (h side),
    fun side => (socket_attach p x.pair side).2⟩

theorem keeps_target (p : ProxyServer) (chunk : List UInt8) (random random' : Random) :
    Keeps fun x =>
      { x with pair := (p.attach x.pair).forwardTargetTraffic utf8 chunk random random' } := by
  refine .of_active (fun _ => rfl) fun x h => ?_
  have hsame : (p.attach x.pair).forwardTargetTraffic utf8 chunk random random' =
      p.attach x.pair :=
    forwardTargetTraffic_unwritable chunk random random'
      ((socket_attach p x.pair .client).1.trans (h .client))
  rw [hsame]
  exact ⟨fun side => (socket_attach p x.pair side).1.trans (h side),
    fun side => (socket_attach p x.pair side).2⟩

theorem socket_mapSocket (pair : SocketPair) (side : Side) (f : FaultProxy → FaultProxy)
    (side' : Side) : (pair.mapSocket side f).socket side' =
      if side' = side then f (pair.socket side') else pair.socket side' := by
  cases side <;> cases side' <;> rfl

/-- A change of one socket which writes nothing that cannot be written. -/
theorem keeps_mapSocket (side : Side) {f : FaultProxy → FaultProxy}
    (silent : ∀ s : FaultProxy, s.writable = false →
      (f s).writable = false ∧ (f s).written = s.written) :
    Keeps fun x => { x with pair := x.pair.mapSocket side f } := by
  refine .of_active (fun _ => rfl) fun x h => ⟨fun side' => ?_, fun side' => ?_⟩
  · show ((x.pair.mapSocket side f).socket side').writable = false
    rw [socket_mapSocket]
    split
    · exact (silent _ (h side')).1
    · exact h side'
  · show ((x.pair.mapSocket side f).socket side').written = _
    rw [socket_mapSocket]
    split
    · exact (silent _ (h side')).2
    · rfl

theorem fire_unwritable {s : FaultProxy} (index : Nat) (timer : PendingWrite)
    (h : s.writable = false) :
    (s.fire index timer).writable = false ∧ (s.fire index timer).written = s.written := by
  rw [FaultProxy.fire]
  simp only [h, Bool.false_eq_true, if_false, and_self]

theorem onPair_eq {i : Nat} {f : AcceptedPair → AcceptedPair} (h : p.onPair i f = some q) :
    i < p.pairs.length ∧ q = { p with pairs := p.pairs.modify i f } := by
  obtain ⟨hlt, heq⟩ := Option.ite_none_right_eq_some.mp h
  exact ⟨hlt, (Option.some.inj heq).symm⟩

theorem onPair_pairs {i : Nat} {f : AcceptedPair → AcceptedPair} (hf : Keeps f)
    (h : p.onPair i f = some q) : ∃ g : Nat → AcceptedPair → AcceptedPair, (∀ j, Keeps (g j)) ∧
      ∀ j, q.pairs[j]? = (p.pairs[j]?).map (g j) := by
  obtain ⟨-, rfl⟩ := onPair_eq h
  refine ⟨fun j x => if i = j then f x else x, fun j => hf.at i j, fun j => ?_⟩
  exact List.getElem?_modify ..

/-- A timer that fires is due and writes to its socket. -/
theorem timer_eq {i : Nat} {destination : Side} {index : Nat}
    (h : p.step utf8 (.timer i destination index) = some q) : ∃ timer,
      p.timer? i destination index = some timer ∧ timer.due ≤ p.now ∧
        p.onPair i (fun x =>
          { x with pair := x.pair.mapSocket destination (·.fire index timer) }) = some q := by
  rw [step] at h
  split at h
  · rename_i timer htimer
    obtain ⟨hdue, hfire⟩ := Option.ite_none_right_eq_some.mp h
    exact ⟨timer, htimer, hdue, hfire⟩
  · cases h

/-- A connection which is taken. -/
theorem connect_eq (h : p.step utf8 .connect = some q) : q = p ∨ p.state ≠ .severed ∧
    ∃ pair, SocketPair.handleClientConnection p.mode p.state p.latencyConfig
        p.frameDropPredicate = some pair ∧
      q = { p with pairs := p.pairs ++ [{ pair, active := true }] } := by
  obtain ⟨-, heq⟩ := Option.ite_none_right_eq_some.mp h
  rw [← Option.some.inj heq, handleClientConnection]
  split
  · rename_i pair hpair
    refine Or.inr ⟨?_, pair, hpair, rfl⟩
    intro hsevered
    rw [SocketPair.handleClientConnection, if_pos hsevered] at hpair
    cases hpair
  · exact Or.inl rfl

/-- A step changes each pair on its own; a pair which it adds is active, and added only if the
proxy is not severed. -/
theorem step_pairs (h : p.step utf8 e = some q) :
    (∃ f : Nat → AcceptedPair → AcceptedPair, (∀ j, Keeps (f j)) ∧
        ∀ j, q.pairs[j]? = (p.pairs[j]?).map (f j)) ∨
      p.state ≠ .severed ∧ q.state = p.state ∧
        ∃ x, x.active = true ∧ q.pairs = p.pairs ++ [x] := by
  have hsame : ∀ j : Nat, p.pairs[j]? = (p.pairs[j]?).map fun x => x := by simp
  cases e with
  | elapse ms =>
      cases h
      exact Or.inl ⟨_, fun _ => keeps_id, hsame⟩
  | start =>
      cases h
      exact Or.inl ⟨_, fun _ => keeps_id, hsame⟩
  | connect =>
      obtain rfl | ⟨hstate, pair, -, rfl⟩ := connect_eq h
      · exact Or.inl ⟨_, fun _ => keeps_id, hsame⟩
      · exact Or.inr ⟨hstate, rfl, _, rfl, rfl⟩
  | client i chunk random => exact Or.inl (onPair_pairs (keeps_client p chunk random) h)
  | target i chunk random random' =>
      exact Or.inl (onPair_pairs (keeps_target p chunk random random') h)
  | timer i destination index =>
      obtain ⟨timer, -, -, hfire⟩ := timer_eq h
      exact Or.inl (onPair_pairs
        (keeps_mapSocket destination fun s hs => fire_unwritable index timer hs) hfire)
  | ended i socket =>
      have hended := keeps_mapSocket socket (f := fun s => { s with writable := false })
        fun s _ => ⟨rfl, rfl⟩
      exact Or.inl (onPair_pairs hended h)
  | closed i => exact Or.inl (onPair_pairs keeps_cleanupPair h)
  | sever =>
      cases h
      exact Or.inl ⟨_, fun _ => keeps_cleanupActive, fun _ => List.getElem?_map⟩
  | blackhole enabled =>
      cases h
      exact Or.inl ⟨_, fun _ => keeps_id, hsame⟩
  | injectLatency config =>
      cases h
      exact Or.inl ⟨_, fun _ => keeps_id, hsame⟩
  | dropFrames predicate =>
      cases h
      exact Or.inl ⟨_, fun _ => keeps_setDropPredicate predicate, fun _ => List.getElem?_map⟩
  | restore =>
      cases h
      exact Or.inl ⟨_, fun _ => keeps_setDropPredicate none, fun _ => List.getElem?_map⟩
  | close =>
      cases h
      exact Or.inl ⟨_, fun _ => keeps_cleanupActive.comp keeps_clearTimers,
        fun _ => List.getElem?_map⟩

/-- What holds of the proxy between two events. -/
structure Coherent (p : ProxyServer) : Prop where
  severed : p.state = .severed → ∀ x ∈ p.pairs, x.active = false
  degraded : p.state = .degraded → p.latencyConfig.isSome = true
  closed : ∀ x ∈ p.pairs, x.active = false → Unwritable x

/-- How the state of the proxy may change: only `sever` makes it severed, and a latency which
degrades it stays configured. -/
structure StateChange (p q : ProxyServer) : Prop where
  severed : q.state = .severed → p.state = .severed ∨ ∀ x ∈ q.pairs, x.active = false
  degraded : q.state = .degraded → q.latencyConfig.isSome = true ∨
    p.state = .degraded ∧ q.latencyConfig = p.latencyConfig

theorem StateChange.same (state : q.state = p.state) (latency : q.latencyConfig = p.latencyConfig) :
    StateChange p q :=
  ⟨fun hs => Or.inl (state.symm.trans hs), fun hd => Or.inr ⟨state.symm.trans hd, latency⟩⟩

theorem StateChange.to (s : FaultState) (state : q.state = s) (severed : s ≠ .severed)
    (degraded : s ≠ .degraded) : StateChange p q :=
  ⟨fun hs => absurd (state.symm.trans hs) severed, fun hd => absurd (state.symm.trans hd) degraded⟩

theorem StateChange.onPair {i : Nat} {f : AcceptedPair → AcceptedPair}
    (h : p.onPair i f = some q) : StateChange p q := by
  obtain ⟨-, rfl⟩ := onPair_eq h
  exact .same rfl rfl

theorem StateChange.sever (p : ProxyServer) : StateChange p p.sever where
  severed _ := by
    refine Or.inr fun x hx => ?_
    obtain ⟨x', -, rfl⟩ := List.mem_map.mp hx
    rw [cleanupActive]
    split
    · rfl
    · rename_i hinactive
      exact eq_false_of_ne_true hinactive
  degraded h := FaultState.noConfusion h

theorem StateChange.injectLatency (p : ProxyServer) (config : Option LatencyFaultConfig) :
    StateChange p (p.injectLatency config) := by
  cases config with
  | some config =>
      have hstate : (p.injectLatency (some config)).state = .degraded := rfl
      exact ⟨fun hs => absurd (hstate.symm.trans hs) (by decide), fun _ => Or.inl rfl⟩
  | none =>
      by_cases hdegraded : p.state = .degraded
      · exact .to .normal (if_pos hdegraded) (by decide) (by decide)
      · have hkept : (p.injectLatency none).state = p.state := if_neg hdegraded
        exact ⟨fun hs => Or.inl (hkept.symm.trans hs),
          fun hd => absurd (hkept.symm.trans hd) hdegraded⟩

theorem step_state (h : p.step utf8 e = some q) : StateChange p q := by
  cases e with
  | client i chunk random => exact .onPair h
  | target i chunk random random' => exact .onPair h
  | timer i destination index =>
      obtain ⟨timer, -, -, hfire⟩ := timer_eq h
      exact .onPair hfire
  | ended i socket => exact .onPair h
  | closed i => exact .onPair h
  | connect =>
      obtain rfl | ⟨-, pair, -, rfl⟩ := connect_eq h
      · exact .same rfl rfl
      · exact .same rfl rfl
  | elapse ms =>
      cases h
      exact .same rfl rfl
  | start =>
      cases h
      exact .same rfl rfl
  | dropFrames predicate =>
      cases h
      exact .same rfl rfl
  | close =>
      cases h
      exact .same rfl rfl
  | sever =>
      cases h
      exact .sever p
  | blackhole enabled =>
      cases h
      cases enabled with
      | true => exact .to .blackhole rfl (by decide) (by decide)
      | false => exact .to .normal rfl (by decide) (by decide)
  | injectLatency config =>
      cases h
      exact .injectLatency p config
  | restore =>
      cases h
      exact .to .normal rfl (by decide) (by decide)

theorem step_coherent (coherent : p.Coherent) (h : p.step utf8 e = some q) : q.Coherent := by
  obtain ⟨hsevered, hdegraded⟩ := step_state h
  obtain ⟨f, hf, hpairs⟩ | ⟨hstate, hkept, x, hactive, hpairs⟩ := step_pairs h
  · have hmem : ∀ y ∈ q.pairs, ∃ j, ∃ x ∈ p.pairs, f j x = y := by
      intro y hy
      obtain ⟨j, hj⟩ := List.mem_iff_getElem?.mp hy
      rw [hpairs, Option.map_eq_some_iff] at hj
      obtain ⟨x, hx, rfl⟩ := hj
      exact ⟨j, x, List.mem_of_getElem? hx, rfl⟩
    refine ⟨fun hs y hy => ?_, fun hd => ?_, fun y hy hinactive => ?_⟩
    · obtain hs' | hall := hsevered hs
      · obtain ⟨j, x, hx, rfl⟩ := hmem y hy
        cases hactive : (f j x).active with
        | false => rfl
        | true =>
            have := (hf j).active x hactive
            rw [coherent.severed hs' x hx] at this
            cases this
      · exact hall y hy
    · obtain hsome | ⟨hd', hsame⟩ := hdegraded hd
      · exact hsome
      · exact hsame ▸ coherent.degraded hd'
    · obtain ⟨j, x, hx, rfl⟩ := hmem y hy
      cases hactive : x.active with
      | true => exact (hf j).dropped x hactive hinactive
      | false => exact ((hf j).silent x (coherent.closed x hx hactive)).1
  · rw [hkept] at hsevered hdegraded
    refine ⟨fun hs => absurd (hkept.symm.trans hs) hstate, fun hd => ?_, fun y hy hinactive => ?_⟩
    · obtain hsome | ⟨hd', hsame⟩ := hdegraded (hkept.symm.trans hd)
      · exact hsome
      · exact hsame ▸ coherent.degraded hd'
    · rw [hpairs, List.mem_append, List.mem_singleton] at hy
      obtain hy | rfl := hy
      · exact coherent.closed y hy hinactive
      · exact absurd (hinactive.symm.trans hactive) Bool.false_ne_true

/-- A pair that was dropped has been written all that it ever will. -/
theorem step_dropped (coherent : p.Coherent) (h : p.step utf8 e = some q) {i : Nat}
    {x : AcceptedPair} (hx : p.pairs[i]? = some x) (dropped : x.active = false) :
    ∃ y, q.pairs[i]? = some y ∧ y.active = false ∧
      ∀ side, (y.pair.socket side).written = (x.pair.socket side).written := by
  obtain ⟨f, hf, hpairs⟩ | ⟨-, -, x', -, hpairs⟩ := step_pairs h
  · refine ⟨f i x, by rw [hpairs, hx, Option.map_some], ?_, ?_⟩
    · cases hactive : (f i x).active with
      | false => rfl
      | true => exact absurd (dropped.symm.trans ((hf i).active x hactive)) Bool.false_ne_true
    · exact ((hf i).silent x (coherent.closed x (List.mem_of_getElem? hx) dropped)).2
  · refine ⟨x, ?_, dropped, fun _ => rfl⟩
    rw [hpairs, List.getElem?_append_left (List.getElem?_eq_some_iff.mp hx).1, hx]

open Transition in
theorem run_dropped (coherent : p.Coherent) {events : List Event}
    (hrun : run (step utf8) p events = some q) {i : Nat} {x : AcceptedPair}
    (hx : p.pairs[i]? = some x) (dropped : x.active = false) :
    ∃ y, q.pairs[i]? = some y ∧ y.active = false ∧
      ∀ side, (y.pair.socket side).written = (x.pair.socket side).written := by
  induction events generalizing p x with
  | nil =>
      cases hrun
      exact ⟨x, hx, dropped, fun _ => rfl⟩
  | cons e events ih =>
      rw [run_cons, Option.bind_eq_some_iff] at hrun
      obtain ⟨r, hstep, hrest⟩ := hrun
      obtain ⟨z, hz, hinactive, hwritten⟩ := step_dropped coherent hstep hx dropped
      obtain ⟨y, hy, hinactive', hwritten'⟩ := ih (step_coherent coherent hstep) hrest hz hinactive
      exact ⟨y, hy, hinactive', fun side => (hwritten' side).trans (hwritten side)⟩

theorem coherent_initial (mode : ProxyMode) : Coherent { mode } where
  severed _ _ hx := absurd hx List.not_mem_nil
  degraded h := FaultState.noConfusion h
  closed _ hx := absurd hx List.not_mem_nil

/-- In every state of every run a severed proxy has no active pair, a degraded one has a latency,
and a pair which is not active cannot be written. -/
theorem always_coherent (utf8 : List UInt8 → Option String) (mode : ProxyMode)
    (events : List Event) : Transition.Always (step utf8) Coherent { mode } events :=
  Transition.always_of_invariant (fun _ _ _ h hstep => step_coherent h hstep)
    (coherent_initial mode) events

open Transition in
/-- A pair which sever, `close` or one of its sockets has dropped, and every pair of a severed
proxy, is not written and not active again, whatever the proxy goes through: restorations,
latency, timers which were still pending. -/
theorem dropped_stays_dropped (utf8 : List UInt8 → Option String) (mode : ProxyMode)
    (before after : List Event) (hbefore : run (step utf8) { mode } before = some p)
    (hafter : run (step utf8) p after = some q) (i : Nat) (x : AcceptedPair)
    (hx : p.pairs[i]? = some x) (dropped : x.active = false ∨ p.state = .severed) :
    ∃ y, q.pairs[i]? = some y ∧ y.active = false ∧
      ∀ side, (y.pair.socket side).written = (x.pair.socket side).written := by
  have hcoherent : p.Coherent :=
    invariant (fun _ _ _ h hstep => step_coherent h hstep) (coherent_initial mode) hbefore
  have hinactive : x.active = false := by
    obtain hinactive | hsevered := dropped
    · exact hinactive
    · exact hcoherent.severed hsevered x (List.mem_of_getElem? hx)
  exact run_dropped hcoherent hafter hx hinactive

/-- A chunk is delayed, and the proxy severed before its timer fires. -/
def severedRun : List Event :=
  [.start, .connect, .injectLatency (some ⟨60, 80⟩), .client 0 [1] FaultProxy.zero, .sever]

/-- The proxy is restored and takes another connection; the timer fires and data arrives. -/
def restoredRun : List Event :=
  [.restore, .connect, .elapse 100, .timer 0 .target 0, .client 0 [2] FaultProxy.zero,
    .client 1 [3] FaultProxy.zero]

open Transition in
theorem dropped_stays_dropped_restored : ∃ p q x y,
    run (step fun _ => none) { mode := .tcp } severedRun = some p ∧
      run (step fun _ => none) p restoredRun = some q ∧ p.pairs[0]? = some x ∧
        q.pairs[0]? = some y ∧ y.active = false ∧
          ∀ side, (y.pair.socket side).written = (x.pair.socket side).written := by
  have hok : (run (step fun _ => none) { mode := .tcp } severedRun).any (fun p =>
      decide (p.state = .severed) && (run (step fun _ => none) p restoredRun).isSome &&
        (p.pairs[0]?).isSome) = true := by
    decide +kernel
  obtain ⟨p, hbefore, hp⟩ := (Option.any_eq_true _ _).mp hok
  rw [Bool.and_eq_true, Bool.and_eq_true, decide_eq_true_eq] at hp
  obtain ⟨⟨hsevered, hq⟩, hx⟩ := hp
  obtain ⟨q, hafter⟩ := Option.isSome_iff_exists.mp hq
  obtain ⟨x, hx⟩ := Option.isSome_iff_exists.mp hx
  obtain ⟨y, hy⟩ := dropped_stays_dropped (fun _ => none) .tcp severedRun restoredRun hbefore
    hafter 0 x hx (Or.inr hsevered)
  exact ⟨p, q, x, y, hbefore, hafter, hx, hy⟩

end dropped

/-! ### Forwarding in TCP mode -/

section forwarding

variable {utf8 : List UInt8 → Option String} {p q : ProxyServer} {e : Event}
variable {i : Nat} {side : Side} {heard : List UInt8}

/-- A proxy which discards what it receives. -/
def Blocks (s : FaultState) : Prop := s = .severed ∨ s = .blackhole

instance (s : FaultState) : Decidable (Blocks s) := inferInstanceAs (Decidable (_ ∨ _))

/-- The chunk of an event which goes to a socket of a pair. -/
def Event.chunkFor (i : Nat) (side : Side) : Event → List UInt8
  | .client j chunk _ => if j = i ∧ side = .target then chunk else []
  | .target j chunk _ _ => if j = i ∧ side = .client then chunk else []
  | _ => []

/-- The bytes which come for a socket of a pair while the proxy forwards. -/
def relayed (i : Nat) (side : Side) (p : ProxyServer) (e : Event) : List UInt8 :=
  if Blocks p.state then [] else e.chunkFor i side

/-- Nothing is written to a socket while a chunk which came before still waits. -/
def InOrder (p : ProxyServer) : Event → Prop
  | .client i chunk random => ¬ Blocks p.state → ∀ x ∈ p.pairs[i]?,
      (p.attach x.pair).targetSocket.InOrder (.send [chunk] random)
  | .target i chunk random _ => ¬ Blocks p.state → ∀ x ∈ p.pairs[i]?,
      (p.attach x.pair).clientSocket.InOrder (.send [chunk] random)
  | .timer i destination index => ∀ x ∈ p.pairs[i]?,
      (x.pair.socket destination).InOrder (.timer index)
  | _ => True

instance (p : ProxyServer) : DecidablePred p.InOrder
  | .client _ _ _ | .target _ _ _ _ => inferInstanceAs (Decidable (_ → _))
  | .timer i _ _ => inferInstanceAs (Decidable (∀ x ∈ p.pairs[i]?, _))
  | .elapse _ | .start | .connect | .ended _ _ | .closed _ | .sever | .blackhole _
  | .injectLatency _ | .dropFrames _ | .restore | .close => isTrue trivial

/-- A pair in TCP mode, one of whose sockets has a first part of what came for it. -/
structure Carries (side : Side) (heard : List UInt8) (x : AcceptedPair) : Prop where
  mode : x.pair.mode = .tcp
  queued : (x.pair.socket side).Queued heard

theorem Carries.cleanupPair {x : AcceptedPair} (h : Carries side heard x) :
    Carries side heard (cleanupPair x) where
  mode := h.mode
  queued := by cases side <;> exact ⟨h.queued.inOrder, fun hw => absurd hw Bool.false_ne_true⟩

theorem Carries.cleanupActive {x : AcceptedPair} (h : Carries side heard x) :
    Carries side heard (cleanupActive x) := by
  rw [ProxyServer.cleanupActive]
  split
  · exact h.cleanupPair
  · exact h

theorem Carries.setDropPredicate {x : AcceptedPair} (h : Carries side heard x)
    (predicate : Option (DecodedWebSocketFrame → Bool)) :
    Carries side heard (setDropPredicate predicate x) := by
  rw [ProxyServer.setDropPredicate]
  split
  · exact ⟨h.mode, by cases side <;> exact h.queued⟩
  · exact h

/-- After `close` no timer is left, and no socket that can be written. -/
theorem Carries.close {x : AcceptedPair} (h : Carries side heard x)
    (closed : x.active = false → Unwritable x) :
    Carries side heard (ProxyServer.cleanupActive (clearTimers x)) := by
  cases hactive : x.active with
  | true =>
      rw [ProxyServer.cleanupActive, if_pos (show (clearTimers x).active = true from hactive)]
      refine ⟨h.mode, ?_⟩
      cases side <;> exact ⟨h.queued.inOrder, fun hw => absurd hw Bool.false_ne_true⟩
  | false =>
      have hinactive : ¬ (clearTimers x).active = true :=
        fun hw => absurd (hactive.symm.trans hw) Bool.false_ne_true
      have hclosed := closed hactive side
      rw [ProxyServer.cleanupActive, if_neg hinactive]
      refine ⟨h.mode, ?_⟩
      cases side <;>
        exact ⟨h.queued.inOrder, fun hw => absurd (hclosed.symm.trans hw) Bool.false_ne_true⟩

theorem socket_attach_queued {pair : SocketPair} (h : (pair.socket side).Queued heard) :
    ((p.attach pair).socket side).Queued heard := by
  cases side <;> exact ⟨h.inOrder, h.waits⟩

/-- In TCP mode a chunk is sent as it is, unless the proxy discards it. -/
theorem forwardClientTraffic_tcp {pair : SocketPair} (mode : pair.mode = .tcp)
    (forwards : ¬ Blocks pair.state) (chunk : List UInt8) (random : Random) :
    pair.forwardClientTraffic utf8 chunk random = pair.sendToTarget [chunk] random := by
  have htcp : pair.mode ≠ .websocket := by
    rw [mode]
    decide
  have hforwards : ¬ (pair.state = .severed ∨ pair.state = .blackhole) := forwards
  rw [SocketPair.forwardClientTraffic, if_neg hforwards, if_pos htcp]
  split
  · rename_i hwritable
    have hclosed : ¬ pair.targetSocket.writable = true := by simpa using hwritable
    rw [SocketPair.sendToTarget, FaultProxy.sendToSocket, if_neg hclosed]
  · rfl

theorem forwardTargetTraffic_tcp {pair : SocketPair} (mode : pair.mode = .tcp)
    (forwards : ¬ Blocks pair.state) (chunk : List UInt8) (random random' : Random) :
    pair.forwardTargetTraffic utf8 chunk random random' = pair.sendToClient [chunk] random := by
  have htcp : pair.mode ≠ .websocket := by
    rw [mode]
    decide
  have hforwards : ¬ (pair.state = .severed ∨ pair.state = .blackhole) := forwards
  rw [SocketPair.forwardTargetTraffic, if_neg hforwards, if_pos htcp]
  split
  · rename_i hwritable
    have hclosed : ¬ pair.clientSocket.writable = true := by simpa using hwritable
    rw [SocketPair.sendToClient, FaultProxy.sendToSocket, if_neg hclosed]
  · rfl

theorem Carries.client {x : AcceptedPair} (h : Carries side heard x) {chunk : List UInt8}
    {random : Random} (inOrder : ¬ Blocks p.state →
      (p.attach x.pair).targetSocket.InOrder (.send [chunk] random)) :
    Carries side (heard ++ if Blocks p.state then [] else if side = .target then chunk else [])
      { x with pair := (p.attach x.pair).forwardClientTraffic utf8 chunk random } := by
  have hattached : ((p.attach x.pair).socket side).Queued heard := socket_attach_queued h.queued
  by_cases hblocks : Blocks p.state
  · have hsame : (p.attach x.pair).forwardClientTraffic utf8 chunk random = p.attach x.pair := by
      rw [SocketPair.forwardClientTraffic]
      exact if_pos hblocks
    rw [if_pos hblocks, List.append_nil, hsame]
    exact ⟨h.mode, hattached⟩
  · have htcp : (p.attach x.pair).mode = .tcp := h.mode
    have hsent : (p.attach x.pair).forwardClientTraffic utf8 chunk random =
        (p.attach x.pair).sendToTarget [chunk] random :=
      forwardClientTraffic_tcp htcp hblocks chunk random
    rw [if_neg hblocks, hsent]
    refine ⟨h.mode, ?_⟩
    cases side with
    | client =>
        rw [if_neg (by decide), List.append_nil]
        exact hattached
    | target =>
        have hqueued := FaultProxy.sendToSocket_queued hattached [chunk] random (inOrder hblocks)
        rw [List.flatten_singleton] at hqueued
        rw [if_pos rfl]
        exact hqueued

theorem Carries.target {x : AcceptedPair} (h : Carries side heard x) {chunk : List UInt8}
    {random random' : Random} (inOrder : ¬ Blocks p.state →
      (p.attach x.pair).clientSocket.InOrder (.send [chunk] random)) :
    Carries side (heard ++ if Blocks p.state then [] else if side = .client then chunk else [])
      { x with pair := (p.attach x.pair).forwardTargetTraffic utf8 chunk random random' } := by
  have hattached : ((p.attach x.pair).socket side).Queued heard := socket_attach_queued h.queued
  by_cases hblocks : Blocks p.state
  · have hsame : (p.attach x.pair).forwardTargetTraffic utf8 chunk random random' =
        p.attach x.pair := by
      rw [SocketPair.forwardTargetTraffic]
      exact if_pos hblocks
    rw [if_pos hblocks, List.append_nil, hsame]
    exact ⟨h.mode, hattached⟩
  · have htcp : (p.attach x.pair).mode = .tcp := h.mode
    have hsent : (p.attach x.pair).forwardTargetTraffic utf8 chunk random random' =
        (p.attach x.pair).sendToClient [chunk] random :=
      forwardTargetTraffic_tcp htcp hblocks chunk random random'
    rw [if_neg hblocks, hsent]
    refine ⟨h.mode, ?_⟩
    cases side with
    | target =>
        rw [if_neg (by decide), List.append_nil]
        exact hattached
    | client =>
        have hqueued := FaultProxy.sendToSocket_queued hattached [chunk] random (inOrder hblocks)
        rw [List.flatten_singleton] at hqueued
        rw [if_pos rfl]
        exact hqueued

/-- A change of one socket which leaves what came for it in order. -/
theorem Carries.mapSocket {x : AcceptedPair} (h : Carries side heard x) (destination : Side)
    {f : FaultProxy → FaultProxy}
    (queued : destination = side → (f (x.pair.socket side)).Queued heard) :
    Carries side heard { x with pair := x.pair.mapSocket destination f } := by
  refine ⟨by cases destination <;> exact h.mode, ?_⟩
  show ((x.pair.mapSocket destination f).socket side).Queued heard
  rw [socket_mapSocket]
  split
  · rename_i hside
    exact queued hside.symm
  · exact h.queued

/-- What is known of the pair with index `i` in a run: nothing came for it before it was
accepted. -/
structure Relays (i : Nat) (side : Side) (p : ProxyServer) (heard : List UInt8) : Prop where
  mode : p.mode = .tcp
  carries : ∀ x, p.pairs[i]? = some x → Carries side heard x
  silent : p.pairs[i]? = none → heard = []

theorem Relays.onPair {j : Nat} {f : AcceptedPair → AcceptedPair} {sent : List UInt8}
    (h : Relays i side p heard) (hstep : p.onPair j f = some q) (others : j ≠ i → sent = [])
    (changed : j = i → ∀ x, p.pairs[i]? = some x → Carries side heard x →
      Carries side (heard ++ sent) (f x)) : Relays i side q (heard ++ sent) := by
  obtain ⟨hlt, rfl⟩ := onPair_eq hstep
  have hpairs : (p.pairs.modify j f)[i]? =
      (p.pairs[i]?).map fun x => if j = i then f x else x := List.getElem?_modify ..
  refine ⟨h.mode, fun y hy => ?_, fun hnone => ?_⟩
  · have hmapped := hpairs.symm.trans hy
    obtain ⟨x, hx, rfl⟩ := Option.map_eq_some_iff.mp hmapped
    by_cases hji : j = i
    · rw [if_pos hji]
      exact changed hji x hx (h.carries x hx)
    · rw [if_neg hji, others hji, List.append_nil]
      exact h.carries x hx
  · have hmissing := Option.map_eq_none_iff.mp (hpairs.symm.trans hnone)
    have hji : j ≠ i := by
      rintro rfl
      exact absurd (List.getElem?_eq_none_iff.mp hmissing) (Nat.not_le.mpr hlt)
    rw [h.silent hmissing, others hji, List.append_nil]

theorem Relays.map {f : AcceptedPair → AcceptedPair} (h : Relays i side p heard)
    (mode : q.mode = p.mode) (pairs : q.pairs = p.pairs.map f)
    (changed : ∀ x, p.pairs[i]? = some x → Carries side heard x → Carries side heard (f x)) :
    Relays i side q heard := by
  refine ⟨mode.trans h.mode, fun y hy => ?_, fun hnone => ?_⟩
  · rw [pairs, List.getElem?_map, Option.map_eq_some_iff] at hy
    obtain ⟨x, hx, rfl⟩ := hy
    exact changed x hx (h.carries x hx)
  · rw [pairs, List.getElem?_map, Option.map_eq_none_iff] at hnone
    exact h.silent hnone

theorem Relays.connect (h : Relays i side p heard) {pair : SocketPair}
    (hpair : SocketPair.handleClientConnection p.mode p.state p.latencyConfig
      p.frameDropPredicate = some pair) :
    Relays i side { p with pairs := p.pairs ++ [{ pair, active := true }] } heard := by
  refine ⟨h.mode, fun y hy => ?_, fun hnone => ?_⟩
  · obtain hlt | heq | hgt := Nat.lt_trichotomy i p.pairs.length
    · exact h.carries y ((List.getElem?_append_left hlt).symm.trans hy)
    · have hsilent := h.silent (List.getElem?_eq_none_iff.mpr heq.ge)
      have hnew : some { pair, active := true } = some y :=
        (List.getElem?_concat_length ..).symm.trans (heq ▸ hy)
      rw [hsilent, ← Option.some.inj hnew]
      rw [SocketPair.handleClientConnection] at hpair
      split at hpair
      · cases hpair
      · cases hpair
        exact ⟨h.mode, by cases side <;> exact ⟨List.prefix_refl [], fun _ => rfl⟩⟩
    · have hlength : (p.pairs ++ [(⟨pair, true⟩ : AcceptedPair)]).length ≤ i := by
        rw [List.length_append, List.length_singleton]
        omega
      have hnone := List.getElem?_eq_none_iff.mpr hlength
      exact absurd (hnone.symm.trans hy) (Option.some_ne_none y).symm
  · have hlength : (p.pairs ++ [(⟨pair, true⟩ : AcceptedPair)]).length ≤ i :=
      List.getElem?_eq_none_iff.mp hnone
    rw [List.length_append, List.length_singleton] at hlength
    exact h.silent (List.getElem?_eq_none_iff.mpr (by omega))

/-- An event without a chunk for the socket. -/
theorem relayed_eq_nil (h : e.chunkFor i side = []) : relayed i side p e = [] := by
  rw [relayed, h]
  exact ite_self _

theorem step_relays (h : Relays i side p heard) (coherent : p.Coherent) (inOrder : p.InOrder e)
    (hstep : p.step utf8 e = some q) : Relays i side q (heard ++ relayed i side p e) := by
  have hsame : ∀ {q : ProxyServer}, q.mode = p.mode → q.pairs = p.pairs →
      Relays i side q (heard ++ []) := fun hmode hpairs => by
    rw [List.append_nil]
    exact ⟨hmode.trans h.mode, hpairs ▸ h.carries, hpairs ▸ h.silent⟩
  have hmap : ∀ {f : AcceptedPair → AcceptedPair} {q : ProxyServer}, q.mode = p.mode →
      q.pairs = p.pairs.map f → (∀ x, p.pairs[i]? = some x → Carries side heard x →
        Carries side heard (f x)) → Relays i side q (heard ++ []) := fun hmode hpairs hf => by
    rw [List.append_nil]
    exact h.map hmode hpairs hf
  cases e with
  | client j chunk random =>
      refine h.onPair hstep (fun hji => relayed_eq_nil (if_neg fun hc => hji hc.1)) ?_
      rintro rfl x hx hcarries
      have hchunk : relayed j side p (.client j chunk random) =
          if Blocks p.state then [] else if side = .target then chunk else [] := by
        simp [relayed, Event.chunkFor]
      rw [hchunk]
      exact hcarries.client fun hforwards => inOrder hforwards x hx
  | target j chunk random random' =>
      refine h.onPair hstep (fun hji => relayed_eq_nil (if_neg fun hc => hji hc.1)) ?_
      rintro rfl x hx hcarries
      have hchunk : relayed j side p (.target j chunk random random') =
          if Blocks p.state then [] else if side = .client then chunk else [] := by
        simp [relayed, Event.chunkFor]
      rw [hchunk]
      exact hcarries.target fun hforwards => inOrder hforwards x hx
  | timer j destination index =>
      rw [relayed_eq_nil rfl]
      obtain ⟨timer, htimer, -, hfire⟩ := timer_eq hstep
      refine h.onPair hfire (fun _ => rfl) ?_
      rintro rfl x hx hcarries
      rw [List.append_nil]
      refine hcarries.mapSocket destination ?_
      rintro rfl
      rw [timer?, hx, Option.bind_some] at htimer
      exact FaultProxy.fire_queued hcarries.queued htimer (inOrder x hx)
  | ended j socket =>
      rw [relayed_eq_nil rfl]
      refine h.onPair hstep (fun _ => rfl) fun _ x _ hcarries => ?_
      rw [List.append_nil]
      refine hcarries.mapSocket socket fun _ => ?_
      exact ⟨hcarries.queued.inOrder, fun hw => absurd hw Bool.false_ne_true⟩
  | closed j =>
      rw [relayed_eq_nil rfl]
      refine h.onPair hstep (fun _ => rfl) fun _ x _ hcarries => ?_
      rw [List.append_nil]
      exact hcarries.cleanupPair
  | connect =>
      rw [relayed_eq_nil rfl]
      obtain rfl | ⟨-, pair, hpair, rfl⟩ := connect_eq hstep
      · exact hsame rfl rfl
      · rw [List.append_nil]
        exact h.connect hpair
  | elapse ms =>
      cases hstep
      exact relayed_eq_nil (p := p) (e := .elapse ms) rfl ▸ hsame rfl rfl
  | start =>
      cases hstep
      exact relayed_eq_nil (p := p) (e := .start) rfl ▸ hsame rfl rfl
  | blackhole enabled =>
      cases hstep
      exact relayed_eq_nil (p := p) (e := .blackhole enabled) rfl ▸ hsame rfl rfl
  | injectLatency config =>
      cases hstep
      exact relayed_eq_nil (p := p) (e := .injectLatency config) rfl ▸ hsame rfl rfl
  | sever =>
      cases hstep
      rw [relayed_eq_nil rfl]
      exact hmap rfl rfl fun _ _ hx => hx.cleanupActive
  | dropFrames predicate =>
      cases hstep
      rw [relayed_eq_nil rfl]
      exact hmap rfl rfl fun _ _ hx => hx.setDropPredicate predicate
  | restore =>
      cases hstep
      rw [relayed_eq_nil rfl]
      exact hmap rfl rfl fun _ _ hx => hx.setDropPredicate none
  | close =>
      cases hstep
      rw [relayed_eq_nil rfl]
      exact hmap rfl rfl fun x hx hcarries =>
        hcarries.close (coherent.closed x (List.mem_of_getElem? hx))

open Transition in
theorem run_relays {events : List Event} {heard' : List UInt8} (h : Relays i side p heard)
    (coherent : p.Coherent) (inOrder : EveryStep (step utf8) (fun p e _ => p.InOrder e) p events)
    (hrun : run (logging (step utf8) (relayed i side)) (p, heard) events = some (q, heard')) :
    Relays i side q heard' := by
  induction events generalizing p heard with
  | nil =>
      cases hrun
      exact h
  | cons e events ih =>
      rw [run_cons, Option.bind_eq_some_iff] at hrun
      obtain ⟨⟨r, log⟩, hlogged, hrest⟩ := hrun
      rw [logging, Option.map_eq_some_iff] at hlogged
      obtain ⟨r', hstep, heq⟩ := hlogged
      cases heq
      obtain ⟨hfirst, hothers⟩ := inOrder r hstep
      exact ih (step_relays h coherent hfirst hstep) (step_coherent coherent hstep) hothers hrest

open Transition in
/-- In TCP mode, in every run in which nothing is written while an earlier chunk waits, a
socket has been written a first part of what its peer sent while the proxy was neither severed
nor a black hole; as long as it can be written, the rest waits for its timers. -/
theorem written_prefix_of_relayed (utf8 : List UInt8 → Option String) (i : Nat) (side : Side)
    (events : List Event) (heard : List UInt8)
    (inOrder : EveryStep (step utf8) (fun p e _ => p.InOrder e) { mode := .tcp } events)
    (hrun : run (logging (step utf8) (relayed i side)) ({ mode := .tcp }, []) events =
      some (p, heard)) (x : AcceptedPair) (hx : p.pairs[i]? = some x) :
    (x.pair.socket side).written <+: heard ∧
      ((x.pair.socket side).writable = true →
        (x.pair.socket side).written ++ (x.pair.socket side).waiting = heard) := by
  have hinitial : Relays i side { mode := .tcp } [] :=
    ⟨rfl, fun _ hx => absurd (List.getElem?_nil.symm.trans hx) (Option.some_ne_none _).symm,
      fun _ => rfl⟩
  have hrelays := run_relays hinitial (coherent_initial .tcp) inOrder hrun
  obtain ⟨hwritten, hwaits⟩ := (hrelays.carries x hx).queued
  exact ⟨hwritten, hwaits⟩

/-- A delayed chunk, one for the black hole and one behind the restoration. -/
def blackholeRun : List Event :=
  [.start, .connect, .injectLatency (some ⟨60, 80⟩), .client 0 [1] FaultProxy.zero,
    .blackhole true, .client 0 [2] FaultProxy.zero, .restore, .elapse 100, .timer 0 .target 0,
    .client 0 [3] FaultProxy.zero]

open Transition in
theorem written_prefix_blackhole : ∃ p heard x,
    run (logging (step fun _ => none) (relayed 0 .target)) ({ mode := .tcp }, []) blackholeRun =
        some (p, heard) ∧
      p.pairs[0]? = some x ∧ (x.pair.socket .target).written <+: heard ∧
        ((x.pair.socket .target).writable = true →
          (x.pair.socket .target).written ++ (x.pair.socket .target).waiting = heard) := by
  have hok : (run (logging (step fun _ => none) (relayed 0 .target)) ({ mode := .tcp }, [])
      blackholeRun).any (fun p => (p.1.pairs[0]?).isSome) = true := by
    decide +kernel
  obtain ⟨⟨p, heard⟩, hrun, hp⟩ := (Option.any_eq_true _ _).mp hok
  obtain ⟨x, hx⟩ := Option.isSome_iff_exists.mp hp
  exact ⟨p, heard, x, hrun, hx, written_prefix_of_relayed (fun _ => none) 0 .target blackholeRun
    heard (by decide +kernel) hrun x hx⟩

/-- The chunk for the black hole is lost, and the others arrive. -/
example : ((Transition.run (Transition.logging (step fun _ => none) (relayed 0 .target))
    ({ mode := .tcp }, []) blackholeRun).map fun p =>
      (p.2, p.1.pairs.map fun x => (x.pair.socket .target).written)) =
    some ([1, 3], [[1, 3]]) := by
  decide +kernel

end forwarding

end ProxyServer

end Pulse
