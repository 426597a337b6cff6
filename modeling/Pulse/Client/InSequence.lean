import Pulse.Client.Link
import Pulse.Client.Numbering
import Pulse.Core.Sequence

/-!
# Frames of a session in sequence

The node answers a frame of the session with `INVALID_SEQUENCE_ORDER` only behind a
frame with a higher number on the same connection. `Traced` says why: the number of a
connection is always that of a frame which was handled on it, whichever handlers are
suspended. A session whose timers transmit nothing again never sends a frame behind
such a one.
-/

namespace Pulse

open Collections Js Transition MessageDispatcher

/-- The number of each linked connection, and those which suspended handlers are about to
write, satisfy `H`. -/
structure Traced (n : Node) (connectionIds : List ConnectionId)
    (H : ConnectionId → Nat → Prop) : Prop where
  known : ∀ c ∈ connectionIds, c ∈ n.memberships.known
  seen : ∀ c ∈ connectionIds,
    n.memberships.lastSeenSeq c = 0 ∨ H c (n.memberships.lastSeenSeq c)
  suspended : ∀ k ∈ n.memberships.suspended, k.sender.connectionId ∈ connectionIds →
    ∀ seq ∈ k.envelope.seq, H k.sender.connectionId seq

namespace Traced

variable {cfg : ServerConfig} {n n' : Node} {e : NodeEvent} {connectionIds : List ConnectionId}
variable {H H' : ConnectionId → Nat → Prop}

theorem mono (h : Traced n connectionIds H) (imp : ∀ c seq, H c seq → H' c seq) :
    Traced n connectionIds H' where
  known := h.known
  seen := fun c hc => (h.seen c hc).imp_right (imp c _)
  suspended := fun k hk hc seq hseq => imp _ seq (h.suspended k hk hc seq hseq)

/-- The node keeps it, if the frames which it handles have `H`. -/
theorem step (h : Traced n connectionIds H) (wf : n.memberships.WellFormed)
    (hstep : n.step cfg e = some n')
    (frames : ∀ c raw tick, e = .frame c raw tick → c ∈ connectionIds →
      ∀ sender envelope, (receive n sender raw tick).2 = .ok envelope →
        ∀ seq ∈ envelope.seq, H c seq) :
    Traced n' connectionIds H where
  known := fun c hc => (Node.step_effect hstep).known_mono (h.known c hc)
  seen := by
    intro c hc
    obtain hsame | ⟨connection, tick, rfl, rfl⟩ | hwrites := Node.step_lastSeenSeq wf hstep c
    · rw [hsame]
      exact h.seen c hc
    · obtain ⟨hnew, -⟩ := Node.step_effect hstep
      exact absurd (h.known _ hc) hnew
    · refine Or.inr ?_
      cases hwrites with
      | frame registered sends received numbered =>
          rename_i c' raw tick sender envelope
          obtain rfl : c = c' := sends.trans (wf.registered registered).1
          exact frames c raw tick rfl hc sender envelope received _ numbered
      | resume suspended sends numbered =>
          subst sends
          exact h.suspended _ (List.mem_of_getElem? suspended) hc _ numbered
  suspended := by
    intro k hk hc seq hseq
    obtain hold | hsuspends := Node.step_suspended hstep hk
    · exact h.suspended k hold hc seq hseq
    · cases hsuspends with
      | resume suspended sender envelope =>
          rw [sender] at hc ⊢
          exact h.suspended _ (List.mem_of_getElem? suspended) hc seq (envelope ▸ hseq)
      | frame registered received request =>
          rename_i c raw tick
          have hid := (wf.registered registered).1
          rw [hid] at hc ⊢
          exact frames c raw tick rfl hc k.sender k.envelope received seq hseq

/-- The number of a new connection is zero. -/
theorem upgrade {connection : Connection} {tick : Tick} (h : Traced n connectionIds H)
    (wf : n.memberships.WellFormed)
    (hstep : n.step cfg (.connect connection tick) = some n') :
    Traced n' (connectionIds ++ [connection.connectionId]) H := by
  have hkept := h.step wf hstep fun _ _ _ heq => by cases heq
  obtain ⟨hnew, hm⟩ := Node.step_effect hstep
  refine ⟨fun c hc => ?_, fun c hc => ?_, fun k hk hc => ?_⟩
  · rcases List.mem_append.mp hc with hold | hlast
    · exact hkept.known c hold
    · rw [List.mem_singleton.mp hlast, hm]
      exact OrderedSet.mem_insert.mpr (Or.inr rfl)
  · rcases List.mem_append.mp hc with hold | hlast
    · exact hkept.seen c hold
    · refine Or.inl ?_
      rw [List.mem_singleton.mp hlast, hm]
      exact Function.update_self _ _ _
  · rcases List.mem_append.mp hc with hold | hlast
    · exact hkept.suspended k hk hold
    · rw [hm] at hk
      refine absurd (wf.suspended_known k hk) ?_
      rw [List.mem_singleton.mp hlast]
      exact hnew

end Traced

namespace MessageDispatcher

/-- The frame comes to the sequence check: it passes the rate limit and the validation, and
the node does not remember it. -/
def Checked (cfg : ServerConfig) (n : Node) (sender : Connection) (raw : Option Json)
    (tick : Tick) : Prop :=
  ∃ envelope ∈ (receive n sender raw tick).2.toOption,
    envelope.type.isMessage = true →
      (n.idempotencyManager.check cfg.idempotency envelope.eventId envelope.payload
        tick.now).2.isDuplicate = false

instance (cfg : ServerConfig) (n : Node) (sender : Connection) (raw : Option Json)
    (tick : Tick) : Decidable (Checked cfg n sender raw tick) :=
  inferInstanceAs (Decidable (∃ envelope ∈ (receive n sender raw tick).2.toOption, _))

theorem checkSequence_outOfOrder {n : Node} {sender : Connection}
    {envelope : PulseEventEnvelope} :
    (∃ stopped seq, checkSequence n sender envelope = .outOfOrder stopped seq) ↔
      ∃ seq ∈ envelope.seq, seq < n.memberships.lastSeenSeq sender.connectionId := by
  rw [checkSequence]
  cases envelope.seq with
  | none => simp
  | some seq =>
      simp only [Option.mem_def, Option.some.injEq, exists_eq_left']
      split
      · rename_i hlt
        exact iff_of_true ⟨envelope, seq, rfl⟩ hlt
      · rename_i hle
        refine iff_of_false ?_ hle
        rintro ⟨_, _, h⟩
        cases h

theorem checkMessage_outOfOrder {cfg : ServerConfig} {n : Node} {sender : Connection}
    {envelope : PulseEventEnvelope} {now : Int} :
    (∃ stopped seq, (checkMessage cfg n sender envelope now).2 = .outOfOrder stopped seq) ↔
      (envelope.type.isMessage = true →
        (n.idempotencyManager.check cfg.idempotency envelope.eventId envelope.payload
          now).2.isDuplicate = false) ∧
        ∃ seq ∈ envelope.seq, seq < n.memberships.lastSeenSeq sender.connectionId := by
  by_cases hmessage : envelope.type.isMessage = true
  · by_cases hhit : n.idempotencyManager.Hits cfg.idempotency envelope.eventId now
    · obtain ⟨entry, hentry, hfresh⟩ := hhit
      have hcheck := IdempotencyManager.check_of_hit envelope.payload hentry hfresh
      refine iff_of_false ?_ ?_
      · rintro ⟨stopped, seq, hstopped⟩
        simp only [checkMessage, hmessage, if_true, hcheck] at hstopped
        by_cases hconflict : entry.payloadHash ≠
            IdempotencyManager.hashPayload cfg.idempotency envelope.payload
        · simp [hconflict] at hstopped
        · simp [hconflict] at hstopped
      · rintro ⟨hnew, -⟩
        have hduplicate := hnew hmessage
        rw [hcheck] at hduplicate
        split at hduplicate <;> cases hduplicate
    · have hcheck := IdempotencyManager.check_of_miss envelope.payload hhit
      have hresult : (checkMessage cfg n sender envelope now).2 = checkSequence
          { n with idempotencyManager := ⟨n.idempotencyManager.cache.delete envelope.eventId⟩ }
            sender envelope := by
        simp [checkMessage, hmessage, hcheck]
      rw [hresult, checkSequence_outOfOrder, hcheck]
      exact ⟨fun h => ⟨fun _ => rfl, h⟩, fun h => h.2⟩
  · have hresult : (checkMessage cfg n sender envelope now).2 =
        checkSequence n sender envelope := by
      simp [checkMessage, hmessage]
    rw [hresult, checkSequence_outOfOrder]
    exact ⟨fun h => ⟨fun hm => absurd hm hmessage, h⟩, fun h => h.2⟩

/-- The frames that are answered with `INVALID_SEQUENCE_ORDER`. -/
theorem judge_outOfOrder {cfg : ServerConfig} {n : Node} {sender : Connection}
    {f : PulseEventEnvelope} {tick : Tick} :
    (∃ stopped seq, (judge cfg n sender (some f.toJson) tick).2 = .outOfOrder stopped seq) ↔
      Checked cfg n sender (some f.toJson) tick ∧
        ∃ seq ∈ f.seq, seq < n.memberships.lastSeenSeq sender.connectionId := by
  have hmanager := receive_idempotencyManager n sender (some f.toJson) tick
  have hmemberships := receive_memberships n sender (some f.toJson) tick
  cases hreceived : (receive n sender (some f.toJson) tick).2 with
  | error reason =>
      have hrefused : (judge cfg n sender (some f.toJson) tick).2 = .refused reason := by
        rw [judge, ← Prod.mk.eta (p := receive n sender (some f.toJson) tick), hreceived]
        rfl
      rw [hrefused, Checked, hreceived]
      simp [Except.toOption]
  | ok envelope =>
      have hseq := EventValidator.validateIncoming_toJson_seq (receive_ok hreceived)
      have hjudge : (judge cfg n sender (some f.toJson) tick).2 =
          (checkMessage cfg (receive n sender (some f.toJson) tick).1 sender envelope
            tick.now).2 := by
        rw [judge, ← Prod.mk.eta (p := receive n sender (some f.toJson) tick), hreceived]
        rfl
      have hchecked : Checked cfg n sender (some f.toJson) tick ↔
          (envelope.type.isMessage = true →
            (n.idempotencyManager.check cfg.idempotency envelope.eventId envelope.payload
              tick.now).2.isDuplicate = false) := by
        rw [Checked, hreceived]
        simp [Except.toOption]
      rw [hjudge, hchecked, ← hseq, ← hmemberships, ← hmanager]
      exact checkMessage_outOfOrder

end MessageDispatcher

/-- A frame of the session which the node is about to handle. -/
structure Delivery where
  sender : Connection
  frame : PulseEventEnvelope
  /-- The frames which came before it on the connection. -/
  earlier : List PulseEventEnvelope
  tick : Tick

/-- A frame with a higher number came before it. -/
def Delivery.Overtaken (d : Delivery) : Prop :=
  ∃ f ∈ d.earlier, ∃ higher ∈ f.seq, ∃ seq ∈ d.frame.seq, seq < higher

instance (d : Delivery) : Decidable d.Overtaken :=
  inferInstanceAs (Decidable (∃ f ∈ d.earlier, ∃ higher ∈ f.seq, ∃ seq ∈ d.frame.seq, _))

namespace ClientServer

def delivery (s : ClientServer) : LinkEvent → Option Delivery
  | .handle i tick => do
      let link ← s.links[i]?
      let frame ← (s.session.sentOn link.socket)[link.handled]?
      let sender ← s.node.getConnection link.connectionId
      return { sender, frame, earlier := (s.session.sentOn link.socket).take link.handled, tick }
  | _ => none

/-- No frame of the session is answered with `INVALID_SEQUENCE_ORDER`. -/
def InSequence (cfg : ServerConfig) (s : ClientServer) (e : LinkEvent) : Prop :=
  ∀ d ∈ s.delivery e, ∀ stopped seq,
    (judge cfg s.node d.sender (some d.frame.toJson) d.tick).2 ≠ .outOfOrder stopped seq

/-- No frame with a higher number was accepted before an overtaken frame, unless that is
dropped, or a message which the node remembers. -/
def OvertakenFirst (cfg : ServerConfig) (s : ClientServer) (e : LinkEvent) : Prop :=
  ∀ d ∈ s.delivery e, d.Overtaken → Checked cfg s.node d.sender (some d.frame.toJson) d.tick →
    ∀ seq ∈ d.frame.seq, s.node.memberships.lastSeenSeq d.sender.connectionId ≤ seq

instance (cfg : ServerConfig) (s : ClientServer) (e : LinkEvent) :
    Decidable (OvertakenFirst cfg s e) :=
  inferInstanceAs (Decidable (∀ d ∈ s.delivery e, d.Overtaken → Checked cfg s.node d.sender
    (some d.frame.toJson) d.tick → ∀ seq ∈ d.frame.seq, _))

/-- The node handled a frame with this number on the connection. -/
def HandledOn (s : ClientServer) (c : ConnectionId) (seq : Nat) : Prop :=
  ∃ link ∈ s.links, link.connectionId = c ∧
    ∃ f ∈ (s.session.sentOn link.socket).take link.handled, f.seq = some seq

structure Tracked (s : ClientServer) : Prop where
  wellFormed : s.node.memberships.WellFormed
  distinct : s.connectionIds.Nodup
  traced : Traced s.node s.connectionIds s.HandledOn

variable {o : SessionOptions} {cfg : ServerConfig} {s t : ClientServer} {e : LinkEvent}
variable {links : List Link}

/-- The number of a connection is above that of the next frame only if a frame with a higher
number came before it. -/
theorem Tracked.overtaken (h : s.Tracked) {d : Delivery} (hd : d ∈ s.delivery e) {seq : Nat}
    (hseq : seq ∈ d.frame.seq)
    (hlt : seq < s.node.memberships.lastSeenSeq d.sender.connectionId) : d.Overtaken := by
  cases e with
  | handle i tick =>
      simp only [delivery, Option.bind_eq_bind, Option.mem_def, Option.bind_eq_some_iff] at hd
      obtain ⟨link, hlink, frame, hframe, sender, hsender, heq⟩ := hd
      cases heq
      have hid := (h.wellFormed.registered hsender).1
      have hmem := List.mem_of_getElem? hlink
      have hlinked : sender.connectionId ∈ s.connectionIds := by
        rw [hid]
        exact List.mem_map_of_mem hmem
      obtain hzero | ⟨link', hlink', hsame, f, hf, hnumber⟩ := h.traced.seen _ hlinked
      · rw [hzero] at hlt
        exact absurd hlt (Nat.not_lt_zero seq)
      · have hunique : link' = link :=
          List.inj_on_of_nodup_map h.distinct hlink' hmem (hsame.trans hid)
        subst hunique
        exact ⟨f, hf, _, hnumber, seq, hseq, hlt⟩
  | _ => cases hd

theorem Tracked.inSequence_iff (h : s.Tracked) (cfg : ServerConfig) (e : LinkEvent) :
    s.InSequence cfg e ↔ s.OvertakenFirst cfg e := by
  constructor
  · intro hin d hd _ hchecked seq hseq
    refine Nat.le_of_not_lt fun hlt => ?_
    obtain ⟨stopped, number, hstopped⟩ := judge_outOfOrder.mpr ⟨hchecked, seq, hseq, hlt⟩
    exact hin d hd stopped number hstopped
  · intro hfirst d hd stopped number hstopped
    obtain ⟨hchecked, seq, hseq, hlt⟩ := judge_outOfOrder.mp ⟨stopped, number, hstopped⟩
    have hle := hfirst d hd (h.overtaken hd hseq hlt) hchecked seq hseq
    exact absurd hlt (Nat.not_lt_of_le hle)

/-- The links stay, and the node handles further frames on them. -/
theorem move_links {m : Move} (h : s.move e = some (m, links)) {link : Link}
    (hlink : link ∈ s.links) : ∃ link' ∈ links, link'.connectionId = link.connectionId ∧
      link'.socket = link.socket ∧ link.handled ≤ link'.handled := by
  have hset : ∀ {i : Nat} {old new : Link}, s.links[i]? = some old →
      new.connectionId = old.connectionId → new.socket = old.socket →
      old.handled ≤ new.handled → ∃ link' ∈ s.links.set i new,
        link'.connectionId = link.connectionId ∧ link'.socket = link.socket ∧
          link.handled ≤ link'.handled := by
    intro i old new hold hconnection hsocket hhandled
    obtain ⟨j, hj⟩ := List.mem_iff_getElem?.mp hlink
    by_cases hij : i = j
    · subst hij
      cases hold.symm.trans hj
      refine ⟨new, List.mem_of_getElem? (i := i) ?_, hconnection, hsocket, hhandled⟩
      rw [List.getElem?_set_self (List.getElem?_eq_some_iff.mp hj).1]
    · refine ⟨link, List.mem_of_getElem? (i := j) ?_, rfl, rfl, Nat.le_refl _⟩
      rw [List.getElem?_set_ne hij]
      exact hj
  cases e with
  | session e =>
      cases e with
      | message w ack stamp => cases h
      | _ =>
          cases h
          exact ⟨link, hlink, rfl, rfl, Nat.le_refl _⟩
  | upgrade w connection tick =>
      simp only [move] at h
      split at h
      · cases h
        exact ⟨link, List.mem_append_left _ hlink, rfl, rfl, Nat.le_refl _⟩
      · cases h
  | handle i tick =>
      simp only [move, Option.bind_eq_bind, Option.bind_eq_some_iff] at h
      obtain ⟨old, hold, socket, -, frame, -, heq⟩ := h
      cases heq
      exact hset hold rfl rfl (Nat.le_succ _)
  | read i stamp =>
      simp only [move, Option.bind_eq_bind, Option.bind_eq_some_iff] at h
      obtain ⟨old, hold, frame, -, heq⟩ := h
      cases heq
      exact hset hold rfl rfl (Nat.le_refl _)
  | node e =>
      cases e with
      | frame connectionId raw tick =>
          simp only [move] at h
          split at h
          · cases h
          · cases h
            exact ⟨link, hlink, rfl, rfl, Nat.le_refl _⟩
      | _ =>
          cases h
          exact ⟨link, hlink, rfl, rfl, Nat.le_refl _⟩

/-- A frame on a linked connection is the next one which the session sent. -/
theorem move_frame {c : ConnectionId} {raw : Option Json} {tick : Tick}
    (h : s.move e = some (.node (.frame c raw tick), links)) (hc : c ∈ s.connectionIds) :
    ∃ f : PulseEventEnvelope, raw = some f.toJson ∧ ∃ link ∈ links, link.connectionId = c ∧
      f ∈ (s.session.sentOn link.socket).take link.handled := by
  cases e with
  | session e => cases e <;> cases h
  | upgrade w connection tick =>
      simp only [move] at h
      split at h <;> cases h
  | handle i tick =>
      simp only [move, Option.bind_eq_bind, Option.bind_eq_some_iff] at h
      obtain ⟨old, hold, socket, hsocket, frame, hframe, heq⟩ := h
      cases heq
      refine ⟨frame, rfl, { old with handled := old.handled + 1 }, List.mem_of_getElem? (i := i) ?_,
        rfl, List.mem_of_getElem? (i := old.handled) ?_⟩
      · rw [List.getElem?_set_self (List.getElem?_eq_some_iff.mp hold).1]
      · rw [List.getElem?_take_of_lt (Nat.lt_succ_self _), PulseClientSession.sentOn, hsocket]
        exact hframe
  | read i stamp =>
      simp only [move, Option.bind_eq_bind, Option.bind_eq_some_iff] at h
      obtain ⟨old, -, frame, -, heq⟩ := h
      cases heq
  | node e =>
      cases e with
      | frame connectionId raw' tick' =>
          simp only [move] at h
          split at h
          · cases h
          · rename_i hunlinked
            cases h
            exact absurd hc hunlinked
      | _ => cases h

/-- What was handled stays handled. -/
theorem HandledOn.mono {c : ConnectionId} {seq : Nat} (h : s.HandledOn c seq)
    (links : ∀ link ∈ s.links, ∃ link' ∈ t.links, link'.connectionId = link.connectionId ∧
      link'.socket = link.socket ∧ link.handled ≤ link'.handled)
    (sent : ∀ w, s.session.sentOn w <+: t.session.sentOn w) : t.HandledOn c seq := by
  obtain ⟨link, hlink, hc, f, hf, hseq⟩ := h
  obtain ⟨link', hlink', hconnection, hsocket, hle⟩ := links link hlink
  refine ⟨link', hlink', hconnection.trans hc, f, ?_, hseq⟩
  obtain ⟨rest, hrest⟩ := sent link.socket
  obtain ⟨j, hj⟩ := List.mem_iff_getElem?.mp hf
  rw [List.getElem?_take, Option.ite_none_right_eq_some] at hj
  obtain ⟨hlt, hj⟩ := hj
  refine List.mem_of_getElem? (i := j) ?_
  rw [List.getElem?_take_of_lt (Nat.lt_of_lt_of_le hlt hle), hsocket, ← hrest,
    List.getElem?_append_left (List.getElem?_eq_some_iff.mp hj).1]
  exact hj

theorem Tracked.step (h : s.Tracked) (hstep : s.step o cfg e = some t) : t.Tracked := by
  obtain ⟨e', session, hmove, hsession, heq⟩ | ⟨e', node, hmove, hnode, heq⟩ :=
    step_eq_some hstep
  · have hlinks := fun (link : Link) (hlink : link ∈ s.links) => move_links hmove hlink
    have hids : t.connectionIds = s.connectionIds := (move_session hmove).1
    have hnode : t.node = s.node := by rw [heq]
    have hsent : ∀ w, s.session.sentOn w <+: t.session.sentOn w := by
      rw [heq]
      exact PulseClientSession.step_sentOn hsession
    refine ⟨hnode ▸ h.wellFormed, hids ▸ h.distinct, ?_⟩
    rw [hnode, hids]
    exact h.traced.mono fun c seq hhandled => hhandled.mono hlinks hsent
  · have hlinks := fun (link : Link) (hlink : link ∈ s.links) => move_links hmove hlink
    have hsession : t.session = s.session := by rw [heq]
    have hnode' : t.node = node := by rw [heq]
    have hsent : ∀ w, s.session.sentOn w <+: t.session.sentOn w := by
      rw [hsession]
      exact fun w => List.prefix_refl _
    have hmono := h.traced.mono fun c seq hhandled => hhandled.mono (t := t) hlinks hsent
    have hwf := Node.wellFormed_step cfg s.node e' node h.wellFormed hnode
    rw [← hnode'] at hwf
    refine ⟨hwf, ?_, ?_⟩
    · obtain ⟨connection, tick, rfl, hids⟩ | ⟨hids, -⟩ := move_node hmove
      · obtain ⟨hnew, -⟩ := Node.step_effect hnode
        rw [connectionIds, hids]
        refine h.distinct.append (List.nodup_singleton _) ?_
        rw [List.disjoint_singleton]
        exact fun hold => hnew (h.traced.known _ hold)
      · rw [connectionIds, hids]
        exact h.distinct
    · obtain ⟨connection, tick, rfl, hids⟩ | ⟨hids, -⟩ := move_node hmove
      · rw [connectionIds, hids, hnode']
        exact hmono.upgrade h.wellFormed hnode
      · rw [connectionIds, hids, hnode']
        refine hmono.step h.wellFormed hnode ?_
        rintro c raw tick rfl hc sender envelope hreceived seq hseq
        obtain ⟨f, rfl, link, hlink, hid, hf⟩ := move_frame hmove hc
        rw [EventValidator.validateIncoming_toJson_seq (receive_ok hreceived)] at hseq
        refine ⟨link, hlink, hid, f, ?_, hseq⟩
        rw [hsession]
        exact hf

theorem tracked_initial (redis : Option Bool) (presence : Bool) :
    (initial redis presence).Tracked where
  wellFormed := Node.wellFormed_initial redis presence
  distinct := List.nodup_nil
  traced :=
    { known := fun _ hc => absurd hc List.not_mem_nil
      seen := fun _ hc => absurd hc List.not_mem_nil
      suspended := fun _ _ hc => absurd hc List.not_mem_nil }

/-- Over whole runs: no frame of the session is out of sequence precisely if every overtaken
frame comes to the node before one with a higher number is accepted, or is stopped before the
sequence check. -/
theorem in_sequence_iff (o : SessionOptions) (cfg : ServerConfig) (redis : Option Bool)
    (presence : Bool) (es : List LinkEvent) :
    EveryStep (step o cfg) (fun s e _ => s.InSequence cfg e) (initial redis presence) es ↔
      EveryStep (step o cfg) (fun s e _ => s.OvertakenFirst cfg e) (initial redis presence) es :=
  everyStep_iff (G := Tracked) (fun _ e _ h _ => h.inSequence_iff cfg e)
    (fun _ _ _ h hstep _ => h.step hstep) (tracked_initial redis presence) es

/-- The caller gives no number. -/
def Unnumbered : LinkEvent → Prop
  | .session (.sendEnvelope options _) => options.seq = none
  | _ => True

def droppedConfig : ServerConfig :=
  { instanceId := "node-a", idempotency := { capacity := 10, digest := id }
    inboundRateLimitBurst := 1, inboundRateLimitMax := 1 }

/-- The second of three messages is dropped by the rate limiter, and retransmitted when the
third one is accepted. -/
def droppedRun : List LinkEvent :=
  let tick (now : Int) : Tick := { now, frameId := "frame", replyId := "reply" }
  let stamp (id : String) : Stamp := { eventId := id, correlationId := id, now := 0 }
  let message (id : String) : LinkEvent := .session (.sendDirectMessage "bob" [] true (stamp id))
  [.session (.connect true 0), .session (.opened 0),
    .upgrade 0 { connectionId := "c1", userId := "alice" } (tick 0), .read 0 (stamp "unused"),
    message "e1", message "e2", .handle 0 (tick 0), .handle 0 (tick 0), message "e3",
    .handle 0 (tick 1000), .session (.ackTimeout 1)]

def lateTick : Tick := { now := 3000, frameId := "frame", replyId := "reply" }

theorem retransmission_out_of_sequence :
    ¬ ∀ (o : SessionOptions) (cfg : ServerConfig) (redis : Option Bool) (presence : Bool)
      (es : List LinkEvent), (∀ e ∈ es, Unnumbered e) →
        EveryStep (step o cfg) (fun s e _ => s.InSequence cfg e) (initial redis presence) es := by
  intro h
  have hrun : (run (step { userId := "alice" } droppedConfig) (initial none false)
      droppedRun).any (fun s => (s.step { userId := "alice" } droppedConfig
        (.handle 0 lateTick)).any fun _ => (s.delivery (.handle 0 lateTick)).any fun d =>
          match (judge droppedConfig s.node d.sender (some d.frame.toJson) d.tick).2 with
          | .outOfOrder .. => true
          | _ => false) = true := by
    decide +kernel
  refine not_everyStep_of_run ?_ hrun (h { userId := "alice" } droppedConfig none false
    (droppedRun ++ [.handle 0 lateTick]) ?_)
  · intro s _ hrejected hin
    obtain ⟨d, hd, hverdict⟩ := (Option.any_eq_true _ _).mp hrejected
    split at hverdict
    · rename_i stopped seq hstopped
      exact hin d hd stopped seq hstopped
    · cases hverdict
  · simp [droppedRun, Unnumbered]

/-- The events of the session take turns. -/
def TakesTurns (o : SessionOptions) (s : ClientServer) (e : LinkEvent) : Prop :=
  ∀ e' ∈ s.sessionEvent e, s.session.InTurn o e'

/-- On sockets with rising numbers nothing is overtaken. -/
theorem not_overtaken (h : s.session.Numbered) {d : Delivery} (hd : d ∈ s.delivery e) :
    ¬ d.Overtaken := by
  rintro ⟨f, hf, higher, hhigher, seq, hseq, hlt⟩
  cases e with
  | handle i tick =>
      simp only [delivery, Option.bind_eq_bind, Option.mem_def, Option.bind_eq_some_iff] at hd
      obtain ⟨link, -, frame, hframe, sender, -, heq⟩ := hd
      cases heq
      have hrising := h.rising link.socket
      rw [← List.take_append_drop link.handled (s.session.sentOn link.socket)] at hrising
      have hnext : frame ∈ (s.session.sentOn link.socket).drop link.handled := by
        refine List.mem_of_getElem? (i := 0) ?_
        rw [List.getElem?_drop]
        exact hframe
      have hlt' := (List.pairwise_append.mp hrising).2.2 f hf frame hnext higher hhigher seq hseq
      exact absurd hlt (Nat.not_lt_of_lt hlt')
  | _ => cases hd

/-- As long as no timer transmits a frame again, whatever is dropped or flushed after a
reconnect: every frame of the session is in sequence. -/
theorem in_sequence_of_turns {o : SessionOptions} {cfg : ServerConfig} {redis : Option Bool}
    {presence : Bool} {es : List LinkEvent}
    (turns : EveryStep (step o cfg) (fun s e _ => s.TakesTurns o e) (initial redis presence) es) :
    EveryStep (step o cfg) (fun s e _ => s.InSequence cfg e) (initial redis presence) es := by
  have halways : Always (step o cfg) (fun s => s.Tracked ∧ s.session.Numbered)
      (initial redis presence) es := by
    refine always_of_everyStep ?_
      ⟨tracked_initial redis presence, PulseClientSession.numbered_initial⟩ turns
    rintro s e t ⟨htracked, hnumbered⟩ hstep hturns
    refine ⟨htracked.step hstep, ?_⟩
    obtain ⟨e', session, hmove, hsession, heq⟩ | ⟨e', node, hmove, -, heq⟩ :=
      step_eq_some hstep
    · rw [heq]
      exact hnumbered.step (hturns e' (sessionEvent_of_move hmove).1) hsession
    · rw [heq]
      exact hnumbered
  refine halways.everyStep ?_
  rintro s e t ⟨htracked, hnumbered⟩ -
  refine (htracked.inSequence_iff cfg e).mpr fun d hd hovertaken => ?_
  exact absurd hovertaken (not_overtaken hnumbered hd)

end ClientServer

end Pulse
