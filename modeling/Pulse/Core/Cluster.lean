import Pulse.Core.Delivery

/-!
# A cluster of nodes

Nodes which share their events over Redis. Anything can happen to each node, in any
order, and Redis may hand any published event to any node, its own publisher
included, at any later time and any number of times. No connection is sent a
message twice, as long as each node's cache is used within its window.

The window counts the uses of the cache between two copies of an event that reach
it. A copy which is dropped before, by the rate limit or as the node's own echo,
does not renew the entry, so `CopiesInWindow`, which counts from any earlier copy,
is not enough.
-/

namespace Pulse

open Collections Js Transition MessageDispatcher

universe u v

/-- The events of a cluster whose nodes are named by `ι`. -/
inductive ClusterEvent (ι : Type u)
  | node (i : ι) (e : NodeEvent)
  /-- Redis delivers to node `i` the `k`-th event which node `j` published. -/
  | relay (i j : ι) (k : Nat) (tick : Tick)

namespace Cluster

variable {ι : Type u} [DecidableEq ι] {α : Type v}

/-- What an event of the cluster is to the node where it happens. -/
def nodeEvent (s : ι → Node) : ClusterEvent ι → Option (ι × NodeEvent)
  | .node i e => some (i, e)
  | .relay i j k tick =>
      ((s j).published[k]?).map fun message =>
        (i, .redisMessage message.1 (some message.2.toJson) tick)

def step (cfg : ι → ServerConfig) (s : ι → Node) (e : ClusterEvent ι) : Option (ι → Node) :=
  (nodeEvent s e).bind fun (i, e) => ((s i).step (cfg i) e).map fun n => Function.update s i n

def initial (redis : ι → Option Bool) (presence : ι → Bool) : ι → Node :=
  fun i => .initial (redis i) (presence i)

/-- What an event of the cluster adds to the log of its node. -/
def emitAt (emit : ι → Node → NodeEvent → List α) (s : ι → Node) (e : ClusterEvent ι) :
    List (ι × α) :=
  match nodeEvent s e with
  | some (i, e) => (emit i (s i) e).map (Prod.mk i)
  | none => []

/-- The entries of one node. -/
def logOf (i : ι) (log : List (ι × α)) : List α :=
  log.filterMap fun entry => if entry.1 = i then some entry.2 else none

/-- The log of the uses of the caches. -/
def touches (cfg : ι → ServerConfig) : (ι → Node) → ClusterEvent ι → List (ι × CacheTouch) :=
  emitAt fun i n e => n.touches (cfg i) e

/-- An event uses the cache of its node within the window. -/
def InWindow (cfg : ι → ServerConfig) (s : (ι → Node) × List (ι × CacheTouch))
    (e : ClusterEvent ι) : Prop :=
  ∀ a ∈ nodeEvent s.1 e, (s.1 a.1).InWindow (cfg a.1) (logOf a.1 s.2) a.2

instance (cfg : ι → ServerConfig) (s : (ι → Node) × List (ι × CacheTouch))
    (e : ClusterEvent ι) : Decidable (InWindow cfg s e) :=
  inferInstanceAs (Decidable (∀ a ∈ nodeEvent s.1 e, _))

/-- No connection of any node was sent a message twice. -/
def AtMostOnce (s : ι → Node) : Prop := ∀ i c, ((s i).messagesTo c).Nodup

theorem step_eq_some {cfg : ι → ServerConfig} {s t : ι → Node} {e : ClusterEvent ι} :
    step cfg s e = some t ↔ ∃ i e' n, nodeEvent s e = some (i, e') ∧
      (s i).step (cfg i) e' = some n ∧ t = Function.update s i n := by
  rw [step, Option.bind_eq_some_iff]
  constructor
  · rintro ⟨⟨i, e'⟩, hevent, hstep⟩
    obtain ⟨n, hn, rfl⟩ := Option.map_eq_some_iff.mp hstep
    exact ⟨i, e', n, hevent, hn, rfl⟩
  · rintro ⟨i, e', n, hevent, hn, rfl⟩
    exact ⟨(i, e'), hevent, Option.map_eq_some_iff.mpr ⟨n, hn, rfl⟩⟩

theorem logOf_append (i : ι) (log log' : List (ι × α)) :
    logOf i (log ++ log') = logOf i log ++ logOf i log' :=
  List.filterMap_append

theorem logOf_emitAt {emit : ι → Node → NodeEvent → List α} {s : ι → Node}
    {e : ClusterEvent ι} {i : ι} {e' : NodeEvent} (h : nodeEvent s e = some (i, e')) (j : ι) :
    logOf j (emitAt emit s e) = if j = i then emit i (s i) e' else [] := by
  simp only [emitAt, h, logOf, List.filterMap_map]
  by_cases hj : j = i
  · subst hj
    simp
  · have hi : i ≠ j := fun heq => hj heq.symm
    simp [hj, hi]

/-- Every node delivers once, by its part of the log. -/
def DeliversOnce (cfg : ι → ServerConfig) (s : (ι → Node) × List (ι × CacheTouch)) : Prop :=
  ∀ i, (s.1 i).DeliversOnce (cfg i) (logOf i s.2)

theorem DeliversOnce.step {cfg : ι → ServerConfig}
    (s : (ι → Node) × List (ι × CacheTouch)) (e : ClusterEvent ι)
    (t : (ι → Node) × List (ι × CacheTouch)) (h : DeliversOnce cfg s)
    (hstep : logging (Cluster.step cfg) (touches cfg) s e = some t) (window : InWindow cfg s e) :
    DeliversOnce cfg t := by
  rw [logging, Option.map_eq_some_iff] at hstep
  obtain ⟨t', ht', rfl⟩ := hstep
  obtain ⟨i, e', n, hevent, hn, rfl⟩ := step_eq_some.mp ht'
  intro j
  show (Function.update s.1 i n j).DeliversOnce (cfg j) (logOf j (s.2 ++ touches cfg s.1 e))
  rw [logOf_append, touches, logOf_emitAt hevent]
  by_cases hj : j = i
  · subst hj
    rw [Function.update_self, if_pos rfl]
    exact (h j).step hn (window _ hevent)
  · rw [Function.update_of_ne hj, if_neg hj, List.append_nil]
    exact h j

/-- Single delivery in the whole cluster, for any number of nodes and any run in which
each event that reaches a cache does so within the window. -/
theorem delivered_at_most_once (cfg : ι → ServerConfig) (redis : ι → Option Bool)
    (presence : ι → Bool) (es : List (ClusterEvent ι))
    (window : EveryStep (logging (step cfg) (touches cfg)) (fun s e _ => InWindow cfg s e)
      (initial redis presence, []) es) :
    Always (logging (step cfg) (touches cfg)) (fun s => AtMostOnce s.1)
      (initial redis presence, []) es := by
  have hinitial : DeliversOnce cfg (initial redis presence, []) :=
    fun i => Node.deliversOnce_initial (cfg i) (redis i) (presence i)
  have halways := always_of_everyStep DeliversOnce.step hinitial window
  exact halways.mono fun s hs i c => (hs i).nodup c

def echoConfig : Unit → ServerConfig := fun _ =>
  { instanceId := "node-a", idempotency := { capacity := 2, digest := id } }

def echoTick (replyId : EventId) : Tick := { now := 0, frameId := "unused", replyId }

/-- Alice sends Bob a direct message. -/
def directMessage (eventId replyId : EventId) : ClusterEvent Unit :=
  .node () (.frame "c1" (some (Node.directFrame eventId "bob")) (echoTick replyId))

def echoConnects : List (ClusterEvent Unit) :=
  [.node () (.connect { connectionId := "c1", userId := "alice" } (echoTick "r1")),
    .node () (.connect { connectionId := "c2", userId := "bob" } (echoTick "r2"))]

/-- A retransmission after an echo, within the window. -/
def retransmissionRun : List (ClusterEvent Unit) :=
  echoConnects ++
    [directMessage "e" "r3", directMessage "f" "r4", .relay () () 0 (echoTick "r5"),
      directMessage "e" "r6"]

theorem delivered_at_most_once_retransmission :
    Always (logging (step echoConfig) (touches echoConfig)) (fun s => AtMostOnce s.1)
      (initial (fun _ => some true) (fun _ => false), []) retransmissionRun :=
  delivered_at_most_once echoConfig (fun _ => some true) (fun _ => false) retransmissionRun
    (by decide +kernel)

/-- A copy of an event which a node handles, whether or not it reaches the cache. -/
structure Copy where
  eventId : EventId
  now : Int
  /-- The event was recorded or hit. -/
  used : Bool

/-- The copies among the events of a node: messages of clients, and whatever valid event
Redis delivers. -/
def copies (cfg : ServerConfig) (n : Node) (e : NodeEvent) : List Copy :=
  let copy := fun (envelope : PulseEventEnvelope) (now : Int) =>
    { eventId := envelope.eventId, now, used := !(n.touches cfg e).isEmpty : Copy }
  match e with
  | .frame connectionId raw tick =>
      (((n.getConnection connectionId).bind fun sender =>
        receivedMessage n sender raw tick).map fun envelope => copy envelope tick.now).toList
  | .redisMessage _ raw tick =>
      ((raw.bind fun parsed =>
        (EventValidator.validateDistributed parsed tick.frame).toOption).map fun envelope =>
          copy envelope tick.now).toList
  | _ => []

/-- The window counted from the last earlier copy of the event. -/
def Copy.InWindow (options : IdempotencyOptions) (log : List Copy) (copy : Copy) : Prop :=
  copy.eventId ∈ log.map (·.eventId) →
    (((log.reverse.takeWhile fun c => decide (c.eventId ≠ copy.eventId)).filter (·.used)).map
        (·.eventId)).dedup.length < options.capacity ∧
      ∀ earlier ∈ log, earlier.eventId = copy.eventId →
        copy.now - earlier.now ≤ options.ttlMs

instance (options : IdempotencyOptions) (log : List Copy) (copy : Copy) :
    Decidable (copy.InWindow options log) :=
  inferInstanceAs (Decidable (_ → _ ∧ _))

/-- Every copy comes within the window of the last one. -/
def CopiesInWindow (cfg : ι → ServerConfig) (s : (ι → Node) × List (ι × Copy))
    (e : ClusterEvent ι) : Prop :=
  ∀ a ∈ nodeEvent s.1 e, ∀ copy ∈ copies (cfg a.1) (s.1 a.1) a.2,
    copy.InWindow (cfg a.1).idempotency (logOf a.1 s.2)

instance (cfg : ι → ServerConfig) (s : (ι → Node) × List (ι × Copy)) (e : ClusterEvent ι) :
    Decidable (CopiesInWindow cfg s e) :=
  inferInstanceAs (Decidable (∀ a ∈ nodeEvent s.1 e, _))

/-- Between the echo of `e` and its retransmission only `g` is recorded, but between the
two frames with `e` both `f` and `g` are. -/
def echoRun : List (ClusterEvent Unit) :=
  echoConnects ++
    [directMessage "e" "r3", directMessage "f" "r4", .relay () () 0 (echoTick "r5"),
      directMessage "g" "r6", directMessage "e" "r7"]

/-- Counting from any earlier copy does not prevent a second delivery: the echo counts as a
copy of `e` without renewing its entry. -/
theorem delivered_twice :
    EveryStep (logging (step echoConfig) (emitAt fun i => copies (echoConfig i)))
        (fun s e _ => CopiesInWindow echoConfig s e)
        (initial (fun _ => some true) (fun _ => false), []) echoRun ∧
      ¬ Always (step echoConfig) AtMostOnce (initial (fun _ => some true) (fun _ => false))
        echoRun := by
  refine ⟨by decide +kernel, ?_⟩
  refine not_always_of_run (q := fun s => decide ((s ()).messagesTo "c2" = ["e", "f", "g", "e"]))
    ?_ (by decide +kernel)
  intro t ht honce
  have hnodup := honce () "c2"
  rw [of_decide_eq_true ht] at hnodup
  exact absurd hnodup (by decide)

end Cluster

end Pulse
