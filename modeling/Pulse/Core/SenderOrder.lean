import Pulse.Collections.Precedence
import Pulse.Core.Confinement

/-!
# The order of a sender's messages

What one connection sends to a room is published in the order in which its node accepted
it. If Redis relays every channel in order, the first copies arrive at another node in
this order; only they are new to its cache, and a copy which comes again is dropped. So
each recipient gets the messages in the order of the sender.
-/

namespace Pulse

open Collections Js Transition MessageDispatcher Socket

namespace MessageDispatcher

/-- Whether a node takes an event for one of another node does not depend on its clock. -/
theorem foreignEvent_tick {cfg : ServerConfig} {raw : Option Json} {tick : Tick}
    {f : PulseEventEnvelope} (h : foreignEvent cfg raw tick = some f) (tick' : Tick) :
    ∃ f', foreignEvent cfg raw tick' = some f' := by
  rw [foreignEvent, Option.filter_eq_some_iff, Option.bind_eq_some_iff] at h
  obtain ⟨⟨parsed, rfl, hvalid⟩, hforeign⟩ := h
  cases hvalidated : EventValidator.validateDistributed parsed tick.frame with
  | error error =>
      rw [hvalidated] at hvalid
      cases hvalid
  | ok found =>
      rw [hvalidated, Except.toOption, Option.some.injEq] at hvalid
      subst hvalid
      obtain ⟨f', hvalid', horigin⟩ :=
        EventValidator.validateDistributed_fresh hvalidated tick'.frame
      refine ⟨f', Option.filter_eq_some_iff.mpr ⟨?_, ?_⟩⟩
      · rw [Option.bind_some, hvalid']
        rfl
      · rw [horigin]
        exact hforeign

end MessageDispatcher

namespace Node

variable {cfg : ServerConfig} {n n' : Node} {e : NodeEvent} {touches : List CacheTouch}
variable {accepted : List Acceptance}

/-- Within the window what is recorded is new to the cache. -/
theorem DeliversOnce.new_of_recorded (once : n.DeliversOnce cfg touches)
    (hstep : n.step cfg e = some n') (window : n.InWindow cfg touches e) {id : EventId}
    (h : id ∈ recordedIds (n.touches cfg e)) : id ∉ recordedIds touches := by
  have hnodup := List.nodup_iff_count_le_one.mpr fun id =>
    (tracked_step once.tracked hstep fun u hu _ => window u hu).once id trivial
  rw [recordedIds_append] at hnodup
  exact fun hold => (List.nodup_append.mp hnodup).2.2 id hold id h rfl

/-- What an event does to the messages of a connection: it adds one which is new to the
cache, or none. -/
theorem messagesTo_step (h : n.Recorded cfg touches accepted) (once : n.DeliversOnce cfg touches)
    (hstep : n.step cfg e = some n') (window : n.InWindow cfg touches e) (c : ConnectionId) :
    (n'.messagesTo c = n.messagesTo c ∨ n'.messagesTo c = []) ∨
      ∃ f ∈ n.written e n' c, f.type.isMessage = true ∧
        n'.messagesTo c = n.messagesTo c ++ [f.eventId] ∧
        f.eventId ∉ recordedIds touches ∧ recordedIds (n.touches cfg e) = [f.eventId] := by
  obtain ⟨frames, houtgoing, hsends⟩ := step_sends h.wellFormed hstep
  obtain ⟨l, hl, hsent⟩ := hsends c
  have hwritten : n.written e n' c = l := by rw [written, hsent, List.drop_left]
  have hmessages : n'.messagesTo c = messageIds (n.socketsAt e c).sent ++ messageIds l := by
    rw [messagesTo, hsent, messageIds_append]
  have hids : (messageIds l).Sublist (recordedIds (n.touches cfg e)) :=
    ((hl.filter _).map _).trans (houtgoing.messages h.sourced h.acks c)
  cases hnew : messageIds l with
  | nil =>
      rw [hnew, List.append_nil] at hmessages
      refine Or.inl ?_
      cases e with
      | connect connection tick =>
          by_cases hc : c = connection.connectionId
          · rw [hmessages, socketsAt, hc, Function.update_self]
            exact Or.inr rfl
          · rw [hmessages, socketsAt, Function.update_of_ne hc]
            exact Or.inl rfl
      | _ => exact Or.inl hmessages
  | cons id rest =>
      obtain ⟨f, hf, hfid⟩ := List.mem_map.mp (show id ∈ messageIds l by rw [hnew]; simp)
      obtain ⟨hmem, hmessage⟩ := List.mem_filter.mp hf
      rw [← hwritten] at hmem
      have htouches : recordedIds (n.touches cfg e) = [f.eventId] ∧
          n.socketsAt e = n.sockets := by
        rcases step_written h hstep hmem hmessage with
          ⟨connectionId, sender, raw, tick, rfl, registered, haccepted, -⟩ |
          ⟨channel, raw, tick, rfl, hforeign, hmiss, -⟩
        · rw [touches_of_accepted registered haccepted]
          exact ⟨rfl, rfl⟩
        · rw [touches_of_inbound hforeign hmiss]
          exact ⟨rfl, rfl⟩
      refine Or.inr ⟨f, hmem, hmessage, ?_, ?_, htouches.1⟩
      · rw [htouches.1, hnew, hfid] at hids
        have hrest : rest = [] := by
          have hlength := hids.length_le
          simpa using hlength
        rw [hmessages, hnew, hrest, hfid, htouches.2, messagesTo]
      · exact once.new_of_recorded hstep window
          (by rw [htouches.1]; exact List.mem_singleton_self _)

theorem acceptances_recorded {a : Acceptance} (ha : a ∈ n.acceptances cfg e) :
    n.acceptances cfg e = [a] ∧ recordedIds (n.touches cfg e) = [a.envelope.eventId] := by
  obtain ⟨connectionId, sender, raw, tick, rfl, registered, haccepted, hlist, -⟩ :=
    mem_acceptances ha
  refine ⟨hlist, ?_⟩
  rw [touches_of_accepted registered haccepted]
  rfl

theorem acceptances_sublist (cfg : ServerConfig) (n : Node) (e : NodeEvent) :
    ((n.acceptances cfg e).map (·.envelope.eventId)).Sublist (recordedIds (n.touches cfg e)) := by
  cases h : n.acceptances cfg e with
  | nil => exact List.nil_sublist _
  | cons a rest =>
      obtain ⟨hlist, hrecorded⟩ := acceptances_recorded
        (show a ∈ n.acceptances cfg e by rw [h]; exact List.mem_cons_self)
      rw [← h, hlist, hrecorded]
      exact List.Sublist.refl _

/-- A readable event of another node is recorded, or was before. -/
theorem recorded_of_foreignEvent (h : n.Recorded cfg touches accepted) {channel : Channel}
    {raw : Option Json} {tick : Tick} {f : PulseEventEnvelope}
    (hevent : foreignEvent cfg raw tick = some f) :
    f.eventId ∈ recordedIds (touches ++ n.touches cfg (.redisMessage channel raw tick)) := by
  rw [recordedIds_append, List.mem_append]
  by_cases hhit : n.idempotencyManager.Hits cfg.idempotency f.eventId tick.now
  · obtain ⟨entry, hentry, -⟩ := hhit
    obtain ⟨envelope, hmem, hid, -⟩ := h.sourced _ entry hentry
    exact Or.inl (List.mem_filterMap.mpr ⟨_, hmem, congrArg some hid⟩)
  · rw [touches_of_inbound hevent hhit]
    exact Or.inr (List.mem_singleton_self _)

end Node

namespace ClusterHistory

open Cluster

variable {ι : Type*} [DecidableEq ι] {cfg : ι → ServerConfig} {h t : ClusterHistory ι}
variable {e : ClusterEvent ι}

def InWindow (cfg : ι → ServerConfig) (h : ClusterHistory ι) (e : ClusterEvent ι) : Prop :=
  Cluster.InWindow cfg (h.nodes, h.touches) e

/-- The channel on which a node published its `k`-th event. -/
def channelAt (h : ClusterHistory ι) (i : ι) (k : Nat) : Option Channel :=
  (h.nodes i).published[k]?.map Prod.fst

/-- Redis hands the events of a channel to a node in the order in which another one published
them; an event may come again, or not at all. -/
def RelaysInOrder (h : ClusterHistory ι) : ClusterEvent ι → Prop
  | .relay j i k _ => ⟨j, i, k⟩ ∈ h.relayed ∨
      ∀ copy ∈ h.relayed, copy.receiver = j → copy.publisher = i →
        h.channelAt i copy.index = h.channelAt i k → copy.index < k
  | .node .. => True

/-- The event that is accepted has an id, and no other node accepted it. -/
def SubmittedOnce (cfg : ι → ServerConfig) (h : ClusterHistory ι) (e : ClusterEvent ι) : Prop :=
  ∀ p ∈ nodeEvent h.nodes e, ∀ a ∈ (h.nodes p.1).acceptances (cfg p.1) p.2,
    a.envelope.eventId ≠ "" ∧
      ∀ other ∈ h.accepted, other.1 ≠ p.1 → other.2.envelope.eventId ≠ a.envelope.eventId

/-- What is assumed of an event of the cluster. -/
structure Orderly (cfg : ι → ServerConfig) (h : ClusterHistory ι) (e : ClusterEvent ι) :
    Prop where
  genuine : MessagesRelayed cfg e
  window : InWindow cfg h e
  relayed : h.RelaysInOrder e
  submitted : SubmittedOnce cfg h e

/-- The accepted messages of a node which were published, in this order. -/
def publishedBy (h : ClusterHistory ι) (i : ι) : List Acceptance :=
  (h.acceptedAt i).filter fun a => a.publication.isSome

/-- The node accepted the event, or was handed a copy of it. -/
def Reached (h : ClusterHistory ι) (j : ι) (id : EventId) : Prop :=
  (∃ a ∈ h.acceptedAt j, a.envelope.eventId = id) ∨
    ∃ i k a, ⟨j, i, k⟩ ∈ h.relayed ∧ (h.publishedBy i)[k]? = some a ∧ a.envelope.eventId = id

/-- Messages which a node accepted for one channel are sent to each connection in the order
in which they were accepted. -/
def ChannelOrder (h : ClusterHistory ι) : Prop :=
  ∀ i a b, Precedes a b (h.acceptedAt i) →
    messageChannel a.envelope = messageChannel b.envelope →
    a.envelope.eventId ≠ b.envelope.eventId →
    ∀ j c, a.envelope.eventId ∈ (h.nodes j).messagesTo c →
      b.envelope.eventId ∈ (h.nodes j).messagesTo c →
      Precedes a.envelope.eventId b.envelope.eventId ((h.nodes j).messagesTo c)

/-- The invariant behind the order. -/
structure Ordered (cfg : ι → ServerConfig) (h : ClusterHistory ι) : Prop where
  recorded : Recorded cfg h
  once : ∀ i, (h.nodes i).DeliversOnce (cfg i) (h.touchesAt i)
  accepted : ∀ i,
    ((h.acceptedAt i).map (·.envelope.eventId)).Sublist (recordedIds (h.touchesAt i))
  named : ∀ i, ∀ a ∈ h.acceptedAt i, a.envelope.eventId ≠ ""
  oneNode : ∀ i j, ∀ a ∈ h.acceptedAt i, ∀ b ∈ h.acceptedAt j,
    a.envelope.eventId = b.envelope.eventId → i = j
  relayed : ∀ copy ∈ h.relayed, copy.index < (h.nodes copy.publisher).published.length
  read : ∀ j i k, ⟨j, i, k⟩ ∈ h.relayed → ∀ message,
    (h.nodes i).published[k]? = some message → ∀ tick f,
      foreignEvent (cfg j) (some message.2.toJson) tick = some f →
        f.eventId ∈ recordedIds (h.touchesAt j)
  reached : ∀ j c, ∀ id ∈ (h.nodes j).messagesTo c, h.Reached j id
  order : h.ChannelOrder

theorem ordered_initial (cfg : ι → ServerConfig) (redis : ι → Option Bool)
    (presence : ι → Bool) : Ordered cfg (initial redis presence) where
  recorded := recorded_initial cfg redis presence
  once := fun i => Node.deliversOnce_initial (cfg i) (redis i) (presence i)
  accepted := fun _ => List.Sublist.refl _
  named := fun _ _ h => absurd h List.not_mem_nil
  oneNode := fun _ _ _ h => absurd h List.not_mem_nil
  relayed := fun _ h => absurd h List.not_mem_nil
  read := fun _ _ _ h => absurd h List.not_mem_nil
  reached := fun _ _ _ h => absurd h List.not_mem_nil
  order := fun _ _ _ h => absurd h.left_mem List.not_mem_nil

theorem mem_acceptedAt {i : ι} {a : Acceptance} : a ∈ h.acceptedAt i ↔ (i, a) ∈ h.accepted := by
  simp [acceptedAt, logOf]

theorem of_publishedBy {i : ι} {k : Nat} {a : Acceptance}
    (hindex : (h.publishedBy i)[k]? = some a) :
    a ∈ h.acceptedAt i ∧ a.publication.isSome = true :=
  List.mem_filter.mp (List.mem_of_getElem? hindex)

namespace Ordered

variable (ordered : Ordered cfg h)
include ordered

/-- Accepted messages are told apart by their ids. -/
theorem eq_of_eventId {i j : ι} {a b : Acceptance} (ha : a ∈ h.acceptedAt i)
    (hb : b ∈ h.acceptedAt j) (hid : a.envelope.eventId = b.envelope.eventId) : i = j ∧ a = b := by
  obtain rfl := ordered.oneNode i j a ha b hb hid
  have hnodup := (List.nodup_iff_count_le_one.mpr fun id =>
    (ordered.once i).tracked.once id trivial).sublist (ordered.accepted i)
  exact ⟨rfl, List.inj_on_of_nodup_map hnodup ha hb hid⟩

theorem accepted_recorded {i : ι} {a : Acceptance} (ha : a ∈ h.acceptedAt i) :
    a.envelope.eventId ∈ recordedIds (h.touchesAt i) :=
  (ordered.accepted i).subset (List.mem_map_of_mem ha)

theorem acceptedAt_nodup (i : ι) : (h.acceptedAt i).Nodup :=
  ((List.nodup_iff_count_le_one.mpr fun id =>
    (ordered.once i).tracked.once id trivial).sublist (ordered.accepted i)).of_map _

/-- The channel on which an accepted message was published. -/
theorem channelAt_eq {i : ι} {k : Nat} {a : Acceptance} (hindex : (h.publishedBy i)[k]? = some a) :
    h.channelAt i k = some (messageChannel a.envelope) := by
  obtain ⟨hmem, hpublished⟩ := of_publishedBy hindex
  obtain ⟨p, hp⟩ := Option.isSome_iff_exists.mp hpublished
  obtain ⟨now, rfl⟩ := ((ordered.recorded i).sound a hmem).published p hp
  rw [channelAt, (ordered.recorded i).published, getElem?_filterMap,
    show ((h.acceptedAt i).filter fun a => a.publication.isSome)[k]? = some a from hindex,
    Option.bind_some, hp]
  rfl

end Ordered

theorem Reached.exists_accepted {j : ι} {id : EventId} (reached : h.Reached j id) :
    ∃ i, ∃ a ∈ h.acceptedAt i, a.envelope.eventId = id := by
  rcases reached with ⟨a, ha, hid⟩ | ⟨i, k, a, -, hindex, hid⟩
  · exact ⟨j, a, ha, hid⟩
  · exact ⟨i, a, (of_publishedBy hindex).1, hid⟩

section step

variable (hstep : h.step cfg e = some t)
include hstep

theorem acceptedAt_step (i : ι) : ∃ new, t.acceptedAt i = h.acceptedAt i ++ new := by
  obtain ⟨i', e', -, -, -, haccepted, hothers, -⟩ := step_cases hstep
  rcases eq_or_ne i i' with rfl | hi
  · exact ⟨_, haccepted⟩
  · exact ⟨[], by rw [(hothers i hi).2.2, List.append_nil]⟩

theorem touchesAt_step (i : ι) : ∃ new, t.touchesAt i = h.touchesAt i ++ new := by
  obtain ⟨i', e', -, -, htouches, -, hothers, -⟩ := step_cases hstep
  rcases eq_or_ne i i' with rfl | hi
  · exact ⟨_, htouches⟩
  · exact ⟨[], by rw [(hothers i hi).2.1, List.append_nil]⟩

theorem published_step (i : ι) :
    ∃ new, (t.nodes i).published = (h.nodes i).published ++ new := by
  obtain ⟨i', e', -, hn, -, -, hothers, -⟩ := step_cases hstep
  rcases eq_or_ne i i' with rfl | hi
  · exact ⟨_, Node.step_published hn⟩
  · exact ⟨[], by rw [(hothers i hi).1, List.append_nil]⟩

theorem relayed_step : t.relayed = h.relayed ++ relays e := by
  obtain ⟨_, _, -, -, -, -, -, hrelayed⟩ := step_cases hstep
  exact hrelayed

theorem publishedBy_step {i : ι} {k : Nat} {a : Acceptance}
    (hindex : (h.publishedBy i)[k]? = some a) :
    (t.publishedBy i)[k]? = some a := by
  obtain ⟨new, hnew⟩ := acceptedAt_step hstep i
  rw [publishedBy, hnew, List.filter_append]
  exact List.getElem?_append_left (List.getElem?_eq_some_iff.mp hindex).1 ▸ hindex

theorem Reached.step {j : ι} {id : EventId} (reached : h.Reached j id) : t.Reached j id := by
  rcases reached with ⟨a, ha, hid⟩ | ⟨i, k, a, hrelayed, hindex, hid⟩
  · obtain ⟨new, hnew⟩ := acceptedAt_step hstep j
    exact Or.inl ⟨a, hnew ▸ List.mem_append_left new ha, hid⟩
  · refine Or.inr ⟨i, k, a, ?_, publishedBy_step hstep hindex, hid⟩
    rw [relayed_step hstep]
    exact List.mem_append_left _ hrelayed

omit hstep in
/-- A message which is accepted now is no one that was accepted before. -/
theorem Ordered.accepted_new (ordered : Ordered cfg h) (orderly : Orderly cfg h e) {i j : ι}
    {e' : NodeEvent} (hevent : nodeEvent h.nodes e = some (i, e'))
    (hn : (h.nodes i).step (cfg i) e' = some (t.nodes i)) {a b : Acceptance}
    (ha : a ∈ (h.nodes i).acceptances (cfg i) e') (hb : b ∈ h.acceptedAt j) :
    b.envelope.eventId ≠ a.envelope.eventId := by
  rcases eq_or_ne j i with rfl | hj
  · intro hid
    have hrecorded := (Node.acceptances_recorded ha).2
    have hnamed : b.envelope.eventId ∈ recordedIds ((h.nodes j).touches (cfg j) e') := by
      rw [hrecorded, hid]
      exact List.mem_singleton_self _
    exact (ordered.once j).new_of_recorded hn (orderly.window _ hevent) hnamed
      (ordered.accepted_recorded hb)
  · exact (orderly.submitted _ hevent a ha).2 (j, b) (mem_acceptedAt.mp hb) hj

omit hstep in
/-- A message that is written was accepted in the same step, or is a copy. -/
theorem Ordered.written_cases (ordered : Ordered cfg h) (genuine : MessagesRelayed cfg e) {j : ι}
    {e' : NodeEvent} (hevent : nodeEvent h.nodes e = some (j, e'))
    (hn : (h.nodes j).step (cfg j) e' = some (t.nodes j)) {c : ConnectionId}
    {f : PulseEventEnvelope} (hf : f ∈ (h.nodes j).written e' (t.nodes j) c)
    (message : f.type.isMessage = true) :
    (∃ a ∈ (h.nodes j).acceptances (cfg j) e', a.envelope.eventId = f.eventId) ∨
      ∃ i k tick a message, e = .relay j i k tick ∧ (h.publishedBy i)[k]? = some a ∧
        a.envelope.eventId = f.eventId ∧ (h.nodes i).published[k]? = some message ∧
        foreignEvent (cfg j) (some message.2.toJson) tick = some f := by
  rcases Node.step_written (ordered.recorded j) hn hf message with
    ⟨connectionId, sender, raw, tick, rfl, registered, haccepted, -⟩ |
    ⟨channel, raw, tick, rfl, hforeign, -⟩
  · rw [Node.acceptances_of_accepted registered haccepted]
    exact Or.inl ⟨_, List.mem_singleton_self _, rfl⟩
  · cases e with
    | node i e =>
        cases hevent
        rw [genuine f hforeign] at message
        cases message
    | relay j' i k tick' =>
        obtain ⟨message, hpublished, heq⟩ := Option.map_eq_some_iff.mp hevent
        cases heq
        obtain ⟨a, hsource, -, -, -, hid, -⟩ := ordered.recorded.relayed tick hpublished
          hforeign
        simp only [source, Option.map_eq_some_iff, Prod.mk.injEq, true_and] at hsource
        obtain ⟨_, hindex, rfl⟩ := hsource
        have hnamed := ordered.named i _ (of_publishedBy hindex).1
        exact Or.inr ⟨i, k, tick, _, message, rfl, hindex, (hid hnamed).symm, hpublished, hforeign⟩

/-- Nothing is sent before it is accepted. -/
theorem Ordered.precedes_old (ordered : Ordered cfg h) (orderly : Orderly cfg h e) {i j : ι}
    {c : ConnectionId} {a b : Acceptance} (hab : Precedes a b (t.acceptedAt i))
    (hb : b.envelope.eventId ∈ (h.nodes j).messagesTo c) : Precedes a b (h.acceptedAt i) := by
  obtain ⟨i', e', hevent, hn, -, haccepted, hothers, -⟩ := step_cases hstep
  rcases eq_or_ne i i' with rfl | hi
  · cases hnew : (h.nodes i).acceptances (cfg i) e' with
    | nil => rwa [haccepted, hnew, List.append_nil] at hab
    | cons a' rest =>
        have hmem : a' ∈ (h.nodes i).acceptances (cfg i) e' := by
          rw [hnew]
          exact List.mem_cons_self
        rw [haccepted, (Node.acceptances_recorded hmem).1] at hab
        rcases hab.of_concat with hold | ⟨-, rfl⟩
        · exact hold
        · obtain ⟨i₀, b', hb', hid⟩ := (ordered.reached j c _ hb).exists_accepted
          exact absurd hid (ordered.accepted_new orderly hevent hn hmem hb')
  · rwa [(hothers i hi).2.2] at hab

/-- What comes later in a channel was not written before. -/
theorem Ordered.not_overtaken (ordered : Ordered cfg h) (orderly : Orderly cfg h e) {i j : ι}
    {e' : NodeEvent} (hevent : nodeEvent h.nodes e = some (j, e'))
    (hn : (h.nodes j).step (cfg j) e' = some (t.nodes j)) {c c' : ConnectionId}
    {f : PulseEventEnvelope} (hf : f ∈ (h.nodes j).written e' (t.nodes j) c)
    (message : f.type.isMessage = true) (new : f.eventId ∉ recordedIds (h.touchesAt j))
    {a b : Acceptance} (hab : Precedes a b (h.acceptedAt i))
    (hchannel : messageChannel a.envelope = messageChannel b.envelope)
    (ha : a.envelope.eventId = f.eventId) :
    b.envelope.eventId ∉ (h.nodes j).messagesTo c' := by
  intro hb
  rcases ordered.written_cases orderly.genuine hevent hn hf message with ⟨a', ha', hid⟩ |
    ⟨i₁, k, tick, a₁, copy, rfl, hindex, hid, hpublished, hforeign⟩
  · exact ordered.accepted_new orderly hevent hn ha' hab.left_mem (ha.trans hid.symm)
  · obtain ⟨hmem, hsome⟩ := of_publishedBy hindex
    obtain ⟨rfl, rfl⟩ := ordered.eq_of_eventId hmem hab.left_mem (hid.trans ha.symm)
    have hother : j ≠ i₁ := by
      rintro rfl
      exact new (ha ▸ ordered.accepted_recorded hmem)
    rcases ordered.reached j c' _ hb with ⟨b', hb', hid'⟩ | ⟨i₂, k', b', hrelayed, hindex', hid'⟩
    · exact hother (ordered.eq_of_eventId hb' hab.right_mem hid').1
    · obtain ⟨hmem', hsome'⟩ := of_publishedBy hindex'
      obtain ⟨rfl, rfl⟩ := ordered.eq_of_eventId hmem' hab.right_mem hid'
      have hlt : k < k' := by
        have hpair := hab.filter (p := fun a => a.publication.isSome) hsome hsome'
        exact hpair.index_lt ((ordered.acceptedAt_nodup i₂).filter _) hindex hindex'
      rcases orderly.relayed with hagain | hlater
      · exact new (ordered.read j i₂ k hagain copy hpublished tick f hforeign)
      · have hgt := hlater ⟨j, i₂, k'⟩ hrelayed rfl rfl
          (by rw [ordered.channelAt_eq hindex, ordered.channelAt_eq hindex', hchannel])
        exact Nat.lt_asymm hlt hgt

theorem Ordered.order_step (ordered : Ordered cfg h) (orderly : Orderly cfg h e) :
    t.ChannelOrder := by
  intro i a b hab hchannel hne j c ha hb
  obtain ⟨i', e', hevent, hn, -, -, hothers, -⟩ := step_cases hstep
  have hold : a.envelope.eventId ∈ (h.nodes j).messagesTo c →
      b.envelope.eventId ∈ (h.nodes j).messagesTo c →
      Precedes a.envelope.eventId b.envelope.eventId ((h.nodes j).messagesTo c) :=
    fun ha hb => ordered.order i a b (ordered.precedes_old hstep orderly hab hb) hchannel hne j c
      ha hb
  rcases eq_or_ne j i' with rfl | hj
  · rcases Node.messagesTo_step (ordered.recorded j) (ordered.once j) hn (orderly.window _ hevent) c
      with (hsame | hnone) | ⟨f, hf, hmessage, hsent, hnew, -⟩
    · rw [hsame] at ha hb ⊢
      exact hold ha hb
    · rw [hnone] at ha
      cases ha
    · rw [hsent] at ha hb ⊢
      rcases List.mem_append.mp hb with hb | hb
      · rcases List.mem_append.mp ha with ha | ha
        · exact (hold ha hb).append_right _
        · have hprecedes := ordered.precedes_old hstep orderly hab hb
          exact absurd hb (ordered.not_overtaken hstep orderly hevent hn hf hmessage hnew hprecedes
            hchannel (List.mem_singleton.mp ha))
      · rw [List.mem_singleton.mp hb] at hne ⊢
        rcases List.mem_append.mp ha with ha | ha
        · exact .concat ha f.eventId
        · exact absurd (List.mem_singleton.mp ha) hne
  · rw [(hothers j hj).1] at ha hb ⊢
    exact hold ha hb

theorem mem_acceptedAt_step {i : ι} {a : Acceptance} (ha : a ∈ t.acceptedAt i) :
    a ∈ h.acceptedAt i ∨ ∃ e', nodeEvent h.nodes e = some (i, e') ∧
      (h.nodes i).step (cfg i) e' = some (t.nodes i) ∧ a ∈ (h.nodes i).acceptances (cfg i) e' := by
  obtain ⟨i', e', hevent, hn, -, haccepted, hothers, -⟩ := step_cases hstep
  rcases eq_or_ne i i' with rfl | hi
  · rw [haccepted] at ha
    exact (List.mem_append.mp ha).imp id fun hnew => ⟨e', hevent, hn, hnew⟩
  · rw [(hothers i hi).2.2] at ha
    exact Or.inl ha

theorem Ordered.oneNode_step (ordered : Ordered cfg h) (orderly : Orderly cfg h e) {i j : ι}
    {a b : Acceptance} (ha : a ∈ t.acceptedAt i) (hb : b ∈ t.acceptedAt j)
    (hid : a.envelope.eventId = b.envelope.eventId) : i = j := by
  rcases mem_acceptedAt_step hstep ha with ha | ⟨e₁, hevent₁, hn₁, ha⟩
  · rcases mem_acceptedAt_step hstep hb with hb | ⟨e₂, hevent₂, hn₂, hb⟩
    · exact ordered.oneNode i j a ha b hb hid
    · exact absurd hid (ordered.accepted_new orderly hevent₂ hn₂ hb ha)
  · rcases mem_acceptedAt_step hstep hb with hb | ⟨e₂, hevent₂, hn₂, hb⟩
    · exact absurd hid.symm (ordered.accepted_new orderly hevent₁ hn₁ ha hb)
    · rw [hevent₁, Option.some.injEq, Prod.mk.injEq] at hevent₂
      exact hevent₂.1

theorem Ordered.relayed_step (ordered : Ordered cfg h) :
    ∀ copy ∈ t.relayed, copy.index < (t.nodes copy.publisher).published.length := by
  have hgrows : ∀ i, (h.nodes i).published.length ≤ (t.nodes i).published.length := by
    intro i
    obtain ⟨new, hnew⟩ := published_step hstep i
    rw [hnew, List.length_append]
    exact Nat.le_add_right _ _
  intro copy hcopy
  rw [ClusterHistory.relayed_step hstep] at hcopy
  rcases List.mem_append.mp hcopy with hold | hnew
  · exact Nat.lt_of_lt_of_le (ordered.relayed copy hold) (hgrows copy.publisher)
  · obtain ⟨i', e', hevent, -⟩ := step_cases hstep
    cases e with
    | node i e => cases hnew
    | relay j i k tick =>
        rw [List.mem_singleton.mp hnew]
        obtain ⟨message, hpublished, -⟩ := Option.map_eq_some_iff.mp hevent
        exact Nat.lt_of_lt_of_le (List.getElem?_eq_some_iff.mp hpublished).1 (hgrows i)

/-- A copy that was handed to a node is recorded there, if the node can read it. -/
theorem Ordered.read_step (ordered : Ordered cfg h) {i j : ι} {k : Nat}
    (hrelayed : ⟨j, i, k⟩ ∈ t.relayed) {message : Channel × PulseEventEnvelope}
    (hpublished : (t.nodes i).published[k]? = some message) {tick : Tick} {f : PulseEventEnvelope}
    (hevent : foreignEvent (cfg j) (some message.2.toJson) tick = some f) :
    f.eventId ∈ recordedIds (t.touchesAt j) := by
  have hindex : ∀ {k : Nat}, k < (h.nodes i).published.length →
      (t.nodes i).published[k]? = (h.nodes i).published[k]? := by
    intro k hk
    obtain ⟨new, hnew⟩ := published_step hstep i
    rw [hnew, List.getElem?_append_left hk]
  rw [ClusterHistory.relayed_step hstep] at hrelayed
  rcases List.mem_append.mp hrelayed with hold | hnew
  · rw [hindex (ordered.relayed _ hold)] at hpublished
    obtain ⟨new, htouches⟩ := touchesAt_step hstep j
    rw [htouches, recordedIds_append]
    exact List.mem_append_left _ (ordered.read j i k hold message hpublished tick f hevent)
  · obtain ⟨j', e', hnode, -, htouches, -⟩ := step_cases hstep
    cases e with
    | node i e => cases hnew
    | relay j₀ i₀ k₀ tick₀ =>
        obtain ⟨rfl, rfl, rfl⟩ : j = j₀ ∧ i = i₀ ∧ k = k₀ := by
          simpa using List.mem_singleton.mp hnew
        obtain ⟨message', hpublished', heq⟩ := Option.map_eq_some_iff.mp hnode
        cases heq
        rw [hindex (List.getElem?_eq_some_iff.mp hpublished').1, hpublished',
          Option.some.injEq] at hpublished
        subst hpublished
        -- What the node reads at the time of the copy has the same id.
        obtain ⟨f', hevent'⟩ := foreignEvent_tick hevent tick₀
        have hsame : f.eventId = f'.eventId := by
          obtain ⟨a, hsource, -, -, -, hid, -⟩ := ordered.recorded.relayed tick
            hpublished' hevent
          obtain ⟨a', hsource', -, -, -, hid', -⟩ := ordered.recorded.relayed tick
            hpublished' hevent'
          rw [hsource, Option.some.injEq, Prod.mk.injEq] at hsource'
          obtain ⟨-, rfl⟩ := hsource'
          obtain ⟨_, hindex, heq⟩ := Option.map_eq_some_iff.mp hsource
          cases heq
          have hnamed := ordered.named i a (of_publishedBy hindex).1
          rw [hid hnamed, hid' hnamed]
        rw [htouches, hsame]
        exact Node.recorded_of_foreignEvent (ordered.recorded j) hevent'

theorem Ordered.reached_step (ordered : Ordered cfg h) (orderly : Orderly cfg h e) {j : ι}
    {c : ConnectionId} {id : EventId} (hid : id ∈ (t.nodes j).messagesTo c) : t.Reached j id := by
  obtain ⟨i', e', hevent, hn, -, haccepted, hothers, -⟩ := step_cases hstep
  have hold : id ∈ (h.nodes j).messagesTo c → t.Reached j id :=
    fun hid => (ordered.reached j c id hid).step hstep
  rcases eq_or_ne j i' with rfl | hj
  · rcases Node.messagesTo_step (ordered.recorded j) (ordered.once j) hn (orderly.window _ hevent) c
      with (hsame | hnone) | ⟨f, hf, hmessage, hsent, -⟩
    · exact hold (hsame ▸ hid)
    · rw [hnone] at hid
      cases hid
    · rw [hsent] at hid
      rcases List.mem_append.mp hid with hid | hid
      · exact hold hid
      · rw [List.mem_singleton.mp hid]
        rcases ordered.written_cases orderly.genuine hevent hn hf hmessage with ⟨a, ha, hid⟩ |
          ⟨i, k, tick, a, message, rfl, hindex, hid, -⟩
        · exact Or.inl ⟨a, haccepted ▸ List.mem_append_right _ ha, hid⟩
        · refine Or.inr ⟨i, k, a, ?_, publishedBy_step hstep hindex, hid⟩
          rw [ClusterHistory.relayed_step hstep]
          exact List.mem_append_right _ (List.mem_singleton_self _)
  · exact hold ((hothers j hj).1 ▸ hid)

theorem Ordered.step (ordered : Ordered cfg h) (orderly : Orderly cfg h e) : Ordered cfg t where
  recorded := ordered.recorded.step hstep
  once := forall_step (P := fun i n touches _ => n.DeliversOnce (cfg i) touches) hstep
    (fun i e' hevent hn once => once.step hn (orderly.window _ hevent)) ordered.once
  accepted := by
    refine forall_step (P := fun _ _ touches accepted =>
      (accepted.map (·.envelope.eventId)).Sublist (recordedIds touches)) hstep ?_ ordered.accepted
    intro i e' _ _ hsublist
    rw [List.map_append, recordedIds_append]
    exact hsublist.append (Node.acceptances_sublist (cfg i) (h.nodes i) e')
  named := by
    refine forall_step (P := fun _ _ _ accepted => ∀ a ∈ accepted, a.envelope.eventId ≠ "") hstep
      ?_ ordered.named
    intro i e' hevent _ hnamed a ha
    rcases List.mem_append.mp ha with ha | ha
    · exact hnamed a ha
    · exact (orderly.submitted _ hevent a ha).1
  oneNode := fun _ _ _ ha _ hb hid => ordered.oneNode_step hstep orderly ha hb hid
  relayed := ordered.relayed_step hstep
  read := fun _ _ _ hrelayed _ hpublished _ _ hevent =>
    ordered.read_step hstep hrelayed hpublished hevent
  reached := fun _ _ _ hid => ordered.reached_step hstep orderly hid
  order := ordered.order_step hstep orderly

end step

/-- Of two room messages which one connection sent to one room, each connection of any node
that was sent both was sent first the one that was accepted first. -/
def SenderOrder (h : ClusterHistory ι) : Prop :=
  ∀ i a b, Precedes a b (h.acceptedAt i) → a.connectionId = b.connectionId →
    a.envelope.type = .roomMessage → b.envelope.type = .roomMessage →
    a.envelope.targetRoomId = b.envelope.targetRoomId →
    a.envelope.eventId ≠ b.envelope.eventId →
    ∀ j c, a.envelope.eventId ∈ (h.nodes j).messagesTo c →
      b.envelope.eventId ∈ (h.nodes j).messagesTo c →
      Precedes a.envelope.eventId b.envelope.eventId ((h.nodes j).messagesTo c)

theorem ChannelOrder.senderOrder (order : h.ChannelOrder) : h.SenderOrder := by
  intro i a b hab _ ha hb hroom
  refine order i a b hab ?_
  rw [messageChannel, messageChannel, ha, hb, hroom]

/-- First in, first out for each sender over any number of nodes, for every run in which
Redis relays the channels in order, the caches are used within their window and each event
is submitted to one node. -/
theorem sender_order (cfg : ι → ServerConfig) (redis : ι → Option Bool) (presence : ι → Bool)
    (es : List (ClusterEvent ι)) (genuine : ∀ e ∈ es, MessagesRelayed cfg e)
    (fifo : EveryStep (step cfg) (fun h e _ => h.RelaysInOrder e) (initial redis presence) es)
    (submitted : EveryStep (step cfg) (fun h e _ => SubmittedOnce cfg h e)
      (initial redis presence) es)
    (window : EveryStep (step cfg) (fun h e _ => InWindow cfg h e) (initial redis presence) es) :
    Always (step cfg) SenderOrder (initial redis presence) es := by
  have hall := (((everyStep_of_forall_mem genuine _).and fifo).and submitted).and window
  refine (always_of_everyStep (I := Ordered cfg) ?_ (ordered_initial cfg redis presence) hall).mono
    fun h ordered => ordered.order.senderOrder
  intro h e t ordered hstep hr
  exact ordered.step hstep ⟨hr.1.1.1, hr.2, hr.1.1.2, hr.1.2⟩

instance (cfg : ι → ServerConfig) (h : ClusterHistory ι) (e : ClusterEvent ι) :
    Decidable (InWindow cfg h e) :=
  inferInstanceAs (Decidable (Cluster.InWindow cfg _ e))

instance (h : ClusterHistory ι) : ∀ e, Decidable (h.RelaysInOrder e)
  | .relay .. => inferInstanceAs (Decidable (_ ∨ ∀ copy ∈ h.relayed, _ → _ → _ → _ < _))
  | .node .. => isTrue trivial

instance (cfg : ι → ServerConfig) (h : ClusterHistory ι) (e : ClusterEvent ι) :
    Decidable (SubmittedOnce cfg h e) :=
  inferInstanceAs (Decidable (∀ p ∈ nodeEvent h.nodes e,
    ∀ a ∈ (h.nodes p.1).acceptances (cfg p.1) p.2, _ ≠ _ ∧ ∀ other ∈ h.accepted, _ → _ ≠ _))

/-- A message of Alice to the room. -/
def roomMessage (eventId replyId : EventId) : ClusterEvent Bool :=
  .node false (.frame "c1" (some (PulseEventEnvelope.toJson
    { eventId, type := .roomMessage, timestamp := .ofInt 1, senderId := "alice"
      target := some { roomId := some "general" }, payload := [("text", .str "hello")] }))
    (roomTick 0 replyId))

/-- Alice sends two messages and repeats the first; Redis relays it twice. -/
def orderRun : List (ClusterEvent Bool) :=
  roomRun ++ [roomMessage "m1" "r8", roomMessage "m2" "r9", roomMessage "m1" "r10",
    .relay true false 0 (roomTick 1 "r11"), .relay true false 1 (roomTick 2 "r12"),
    .relay true false 0 (roomTick 3 "r13"), .relay true false 2 (roomTick 4 "r14")]

theorem sender_order_two_nodes :
    Always (step (roomConfig "node-a")) SenderOrder
      (initial (fun _ => some true) fun _ => false) orderRun := by
  refine sender_order (roomConfig "node-a") (fun _ => some true) (fun _ => false) orderRun ?_
    (by decide +kernel) (by decide +kernel) (by decide +kernel)
  simp [orderRun, roomRun, roomMessage, MessagesRelayed]

end ClusterHistory

end Pulse
