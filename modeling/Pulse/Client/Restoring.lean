import Pulse.Client.Restore

/-!
# A reconnect restores the rooms

The request for the desired rooms travels on the links of the composition. When the node
handles its first copy, the connection is on its way into the rooms; when the session
learns of it, the connection is there. `Restoring` joins what the node and the session
keep of this until the session is connected.
-/

namespace Pulse

open Collections Js Transition MessageDispatcher Node Memberships

namespace Reconnect

/-- The node reads from the request for the desired rooms what it asks for. -/
theorem Marks.carried {r : Reconnect} {f envelope : PulseEventEnvelope} (marks : r.Marks f)
    (carries : Carries f envelope) (correlation : envelope.correlationId = f.correlationId)
    (marked : envelope.correlationId = some r.correlationId) :
    envelope.type = .roomBatchJoin ∧ ∃ rooms,
      envelope.payload.get? "rooms" = some (.arr rooms) ∧ rooms.map batchEntry = r.rooms := by
  obtain ⟨htype, hpayload, -⟩ := marks (correlation.symm.trans marked)
  refine ⟨carries.type.trans htype, r.desiredRooms.toList.map .str, ?_, ?_⟩
  · rw [carries.payload, hpayload, EventValidator.batchJoin_payload]
  · rw [List.map_map]
    rfl

end Reconnect

namespace ClientServer

/-- The node handles what was sent. -/
def HandlesSent (s : ClientServer) : Prop :=
  ∀ link ∈ s.links, link.handled ≤ (s.session.sentOn link.socket).length

variable {o : SessionOptions} {cfg : ServerConfig} {s t : ClientServer} {e : LinkEvent}
variable {links : List Link} {r : Reconnect}

/-- A link is an old one, on which the node may have handled one more frame, or a new one. -/
theorem mem_links {m : Move} (h : s.move e = some (m, links)) {link : Link}
    (hlink : link ∈ links) :
    (∃ old ∈ s.links, link.connectionId = old.connectionId ∧ link.socket = old.socket ∧
      (link.handled = old.handled ∨ ∃ i tick f, e = .handle i tick ∧ s.links[i]? = some old ∧
        (s.session.sentOn old.socket)[old.handled]? = some f ∧
          link.handled = old.handled + 1)) ∨ link.handled = 0 := by
  have hkept : link ∈ s.links → ∃ old ∈ s.links, link.connectionId = old.connectionId ∧
      link.socket = old.socket ∧ (link.handled = old.handled ∨ ∃ i tick f, e = .handle i tick ∧
        s.links[i]? = some old ∧ (s.session.sentOn old.socket)[old.handled]? = some f ∧
          link.handled = old.handled + 1) :=
    fun hold => ⟨link, hold, rfl, rfl, Or.inl rfl⟩
  cases e with
  | session e =>
      cases e with
      | message w ack stamp => cases h
      | _ =>
          cases h
          exact Or.inl (hkept hlink)
  | upgrade w connection tick =>
      simp only [move] at h
      split at h
      · cases h
        rcases List.mem_append.mp hlink with hold | hnew
        · exact Or.inl (hkept hold)
        · rw [List.mem_singleton.mp hnew]
          exact Or.inr rfl
      · cases h
  | handle i tick =>
      simp only [move, Option.bind_eq_bind, Option.bind_eq_some_iff] at h
      obtain ⟨old, hold, socket, hsocket, frame, hframe, heq⟩ := h
      cases heq
      refine Or.inl ?_
      rcases List.mem_or_eq_of_mem_set hlink with hmem | rfl
      · exact hkept hmem
      · refine ⟨old, List.mem_of_getElem? hold, rfl, rfl,
          Or.inr ⟨i, tick, frame, rfl, hold, ?_, rfl⟩⟩
        rw [PulseClientSession.sentOn, hsocket]
        exact hframe
  | read i stamp =>
      simp only [move, Option.bind_eq_bind, Option.bind_eq_some_iff] at h
      obtain ⟨old, hold, frame, -, heq⟩ := h
      cases heq
      refine Or.inl ?_
      rcases List.mem_or_eq_of_mem_set hlink with hmem | rfl
      · exact hkept hmem
      · exact ⟨old, List.mem_of_getElem? hold, rfl, rfl, Or.inl rfl⟩
  | node e =>
      refine Or.inl (hkept ?_)
      cases e with
      | frame connectionId raw tick =>
          simp only [move] at h
          split at h
          · cases h
          · cases h
            exact hlink
      | _ =>
          cases h
          exact hlink

/-- What the session sent stays sent. -/
theorem step_sent (hstep : s.step o cfg e = some t) (w : Nat) :
    s.session.sentOn w <+: t.session.sentOn w := by
  obtain ⟨e', session, -, hsession, heq⟩ | ⟨e', node, -, -, heq⟩ := step_eq_some hstep
  · rw [heq]
    exact PulseClientSession.step_sentOn hsession w
  · rw [heq]

theorem step_move (hstep : s.step o cfg e = some t) : ∃ m, s.move e = some (m, t.links) := by
  obtain ⟨e', session, hmove, -, -⟩ | ⟨e', node, hmove, -, -⟩ := step_eq_some hstep
  · exact ⟨_, hmove⟩
  · exact ⟨_, hmove⟩

theorem HandlesSent.step (h : s.HandlesSent) (hstep : s.step o cfg e = some t) :
    t.HandlesSent := by
  intro link hlink
  obtain ⟨m, hmove⟩ := step_move hstep
  obtain ⟨old, hold, -, hsocket, hhandled⟩ | hzero := mem_links hmove hlink
  · rw [hsocket]
    refine Nat.le_trans ?_ (step_sent hstep old.socket).length_le
    obtain hsame | ⟨i, tick, f, -, -, hf, hnext⟩ := hhandled
    · rw [hsame]
      exact h old hold
    · rw [hnext]
      exact (List.getElem?_eq_some_iff.mp hf).1
  · rw [hzero]
    exact Nat.zero_le _

/-- The node handled the request before, or now. -/
theorem requested_of_step (h : s.HandlesSent) (hstep : s.step o cfg e = some t)
    (requested : t.Requested r) : s.Requested r ∨ ∃ i tick link f, e = .handle i tick ∧
      s.links[i]? = some link ∧ link.connectionId = r.connectionId ∧
        (s.session.sentOn link.socket)[link.handled]? = some f ∧
          f.correlationId = some r.correlationId := by
  obtain ⟨link, hlink, hid, f, hf, hmarked⟩ := requested
  obtain ⟨m, hmove⟩ := step_move hstep
  obtain ⟨old, hold, hconnection, hsocket, hhandled⟩ | hzero := mem_links hmove hlink
  · rw [hconnection] at hid
    obtain ⟨rest, hrest⟩ := step_sent hstep old.socket
    rw [hsocket, ← hrest] at hf
    obtain hsame | ⟨i, tick, f', rfl, hi, hf', hnext⟩ := hhandled
    · rw [hsame, List.take_append_of_le_length (h old hold)] at hf
      exact Or.inl ⟨old, hold, hid, f, hf, hmarked⟩
    · rw [hnext, List.take_append_of_le_length (List.getElem?_eq_some_iff.mp hf').1,
        List.take_add_one, hf'] at hf
      rcases List.mem_append.mp hf with hbefore | hnow
      · exact Or.inl ⟨old, hold, hid, f, hbefore, hmarked⟩
      · rw [Option.toList_some, List.mem_singleton] at hnow
        exact Or.inr ⟨i, tick, old, f', rfl, hi, hid, hf', hnow ▸ hmarked⟩
  · rw [hzero, List.take_zero] at hf
    exact absurd hf List.not_mem_nil

/-- A frame on a linked connection, as the node handles it. -/
theorem move_handle {c : ConnectionId} {raw : Option Json} {tick : Tick}
    (h : s.move e = some (.node (.frame c raw tick), links)) (hc : c ∈ s.connectionIds) :
    ∃ i link f, e = .handle i tick ∧ s.links[i]? = some link ∧ link.connectionId = c ∧
      (s.session.sentOn link.socket)[link.handled]? = some f ∧ raw = some f.toJson := by
  cases e with
  | session e => cases e <;> cases h
  | upgrade w connection tick =>
      simp only [move] at h
      split at h <;> cases h
  | handle i tick =>
      simp only [move, Option.bind_eq_bind, Option.bind_eq_some_iff] at h
      obtain ⟨link, hlink, socket, hsocket, f, hf, heq⟩ := h
      cases heq
      refine ⟨i, link, f, rfl, hlink, rfl, ?_, rfl⟩
      rw [PulseClientSession.sentOn, hsocket]
      exact hf
  | read i stamp =>
      simp only [move, Option.bind_eq_bind, Option.bind_eq_some_iff] at h
      obtain ⟨link, -, f, -, heq⟩ := h
      cases heq
  | node e =>
      cases e with
      | frame connectionId raw' tick' =>
          simp only [move] at h
          split at h
          · cases h
          · rename_i hunlinked
            cases h
            exact absurd hc hunlinked
      | _ => cases h

theorem mem_delivery {i : Nat} (tick : Tick) {link : Link} {f : PulseEventEnvelope}
    {sender : Connection} (hlink : s.links[i]? = some link)
    (hf : (s.session.sentOn link.socket)[link.handled]? = some f)
    (hsender : s.node.getConnection link.connectionId = some sender) :
    { sender, frame := f, earlier := (s.session.sentOn link.socket).take link.handled, tick } ∈
      s.delivery (.handle i tick) := by
  simp only [delivery, hlink, hf, hsender, Option.bind_eq_bind, Option.bind_some, Option.pure_def]
  rfl

/-- A reconnect until the session is connected. -/
structure Restoring (r : Reconnect) (s : ClientServer) : Prop where
  tracked : s.Tracked
  handlesSent : s.HandlesSent
  linked : r.connectionId ∈ s.connectionIds
  registered : r.connectionId ∈ s.node.memberships.hub.connectionManager.connections.keys
  rejoining : Rejoining r.rooms r.correlationId r.connectionId s.node
  underway : s.Requested r → Underway r.rooms r.correlationId r.connectionId s.node
  awaits : s.session.Awaits r (Restored r.rooms r.connectionId s.node.memberships)

namespace Restoring

/-- When the node answered, the rooms are restored. -/
theorem answered (h : Restoring r s) (answered : s.Answered r) :
    Restored r.rooms r.connectionId s.node.memberships := by
  obtain ⟨hrequested, hnone⟩ := answered
  rcases h.underway hrequested with hrestored | ⟨k, hk, hc, hmarked⟩
  · exact hrestored
  · exact absurd hmarked (hnone k hk hc)

/-- The frames of the session are the request for the desired rooms, or have other
correlation ids. -/
theorem marks (h : Restoring r s) {w : Nat} {f : PulseEventEnvelope}
    (hf : f ∈ s.session.sentOn w) : r.Marks f := by
  rw [PulseClientSession.sentOn] at hf
  cases hsocket : s.session.sockets[w]? with
  | none =>
      rw [hsocket] at hf
      exact absurd hf List.not_mem_nil
  | some socket =>
      rw [hsocket] at hf
      exact h.awaits.holds.sent w socket hsocket f hf

/-- The session takes part. -/
theorem calm (h : Restoring r s) (undisturbed : s.Undisturbed o r e) {e' : SessionEvent}
    (hmove : s.move e = some (.session e', links)) :
    PulseClientSession.Calm o r (Restored r.rooms r.connectionId s.node.memberships)
      s.session e' := by
  cases e with
  | session e =>
      cases e with
      | message w ack stamp => cases hmove
      | joinRoom | joinRooms | leaveRoom | disconnect => exact undisturbed.elim
      | ackTimeout timer =>
          cases hmove
          exact fun hgivesUp => h.answered (undisturbed hgivesUp)
      | _ =>
          cases hmove
          exact undisturbed
  | read i stamp =>
      simp only [move, Option.bind_eq_bind, Option.bind_eq_some_iff] at hmove
      obtain ⟨link, hlink, f, hf, heq⟩ := hmove
      cases heq
      obtain ⟨hfirst, hother⟩ := undisturbed link hlink f hf
      refine ⟨hfirst, fun hack hmarked => ?_⟩
      by_cases hid : link.connectionId = r.connectionId
      · rw [hid] at hf
        exact h.rejoining.acknowledged f (List.mem_of_getElem? hf) hack hmarked
      · exact absurd hmarked (hother hid hack)
  | upgrade w connection tick =>
      simp only [move] at hmove
      split at hmove <;> cases hmove
  | handle i tick =>
      simp only [move, Option.bind_eq_bind, Option.bind_eq_some_iff] at hmove
      obtain ⟨link, -, socket, -, f, -, heq⟩ := hmove
      cases heq
  | node e =>
      cases e with
      | frame connectionId raw tick =>
          simp only [move] at hmove
          split at hmove <;> cases hmove
      | _ => cases hmove

/-- A received frame asks for the desired rooms, or spares them. -/
theorem asks (h : Restoring r s) {d : Delivery} {w : Nat} (hd : d.frame ∈ s.session.sentOn w)
    (undisturbing : d.Undisturbing r s.node) {envelope : PulseEventEnvelope}
    (received : (receive s.node d.sender (some d.frame.toJson) d.tick).2 = .ok envelope) :
    Asks r.rooms r.correlationId envelope := by
  obtain ⟨hcarries, hcorrelation, -⟩ :=
    EventValidator.validateIncoming_toJson (receive_ok received)
  have hcarried := (h.marks hd).carried hcarries hcorrelation
  obtain ⟨hnamed, hspares⟩ := undisturbing.1 envelope (by rw [received]; rfl)
  refine ⟨?_, hcarried, ?_⟩
  · cases hname : envelope.correlationId with
    | none => exact absurd (by rw [hname]; rfl) hnamed
    | some name =>
        rw [hname] at hnamed
        exact ⟨name, rfl, hnamed⟩
  · rcases hspares with hmarked | hspares
    · obtain ⟨htype, rooms, hrooms, hnames⟩ := hcarried hmarked
      refine ⟨fun hjoin => ?_, fun _ roomId hroom => ?_, fun hleave => ?_⟩
      · rw [htype] at hjoin
        cases hjoin
      · rw [batchRooms, hrooms] at hroom
        rw [← hnames]
        exact hroom
      · rw [htype] at hleave
        cases hleave
    · exact hspares

theorem asksOn (h : Restoring r s) (undisturbed : s.Undisturbed o r e) {e' : NodeEvent}
    (hmove : s.move e = some (.node e', links)) :
    s.node.AsksOn r.rooms r.correlationId r.connectionId e' := by
  cases e' with
  | frame c raw tick =>
      rintro rfl sender hsender envelope hreceived
      obtain ⟨i, link, f, rfl, hlink, hid, hf, rfl⟩ := move_handle hmove h.linked
      rw [← hid] at hsender
      have hd := mem_delivery tick hlink hf hsender
      have hsends := (h.tracked.wellFormed.registered hsender).1.trans hid
      exact h.asks (List.mem_of_getElem? hf) (undisturbed _ hd hsends) hreceived
  | _ => trivial

/-- The first copy of the request is accepted. -/
theorem underway_first (joinable : ∀ roomId ∈ r.rooms, isValidRoomId cfg.toConfig roomId = true)
    (cap : r.rooms.length ≤ cfg.maxRoomsPerConnection) (size : r.rooms.length ≤ MAX_BATCH_ROOMS)
    (h : Restoring r s) (unrequested : ¬ s.Requested r) {i : Nat} {tick : Tick} {link : Link}
    {f : PulseEventEnvelope} {n : Node} (undisturbed : s.Undisturbed o r (.handle i tick))
    (hlink : s.links[i]? = some link) (hid : link.connectionId = r.connectionId)
    (hf : (s.session.sentOn link.socket)[link.handled]? = some f)
    (hmarked : f.correlationId = some r.correlationId)
    (hnode : s.node.step cfg (.frame link.connectionId (some f.toJson) tick) = some n) :
    Underway r.rooms r.correlationId r.connectionId n := by
  by_cases hempty : r.rooms = []
  · refine Or.inl fun roomId hroom => ?_
    rw [hempty] at hroom
    exact absurd hroom List.not_mem_nil
  · have hregistered := hnode
    rw [Node.step, Option.map_eq_some_iff] at hregistered
    obtain ⟨sender, hsender, -⟩ := hregistered
    have hsent := List.mem_of_getElem? hf
    have hd := mem_delivery tick hlink hf hsender
    have hundisturbing := undisturbed _ hd ((h.tracked.wellFormed.registered hsender).1.trans hid)
    obtain ⟨hgranted, hovertaken⟩ := hundisturbing.2 hmarked fun f' hf' hmarked' =>
      unrequested ⟨link, List.mem_of_getElem? hlink, hid, f', hf', hmarked'⟩
    obtain ⟨htype, hpayload, hseq, hinstance, htimestamp⟩ := h.marks hsent hmarked
    obtain ⟨envelope, hvalid⟩ := EventValidator.validateIncoming_batchJoin
      htype hpayload hseq hinstance htimestamp
      (fun hnil => hempty (by rw [Reconnect.rooms, hnil, List.map_nil]))
      (by rwa [Reconnect.rooms, List.length_map] at size)
      (fun roomId hroom htrim => by
        have hvalid := joinable (trim roomId) (List.mem_map_of_mem hroom)
        rw [htrim] at hvalid
        cases hvalid) sender.userId tick.frame
    have hreceived := receive_of_granted hgranted hvalid
    obtain ⟨hcarries, hcorrelation, -⟩ := EventValidator.validateIncoming_toJson hvalid
    have hrequest : envelope.type.isMessage = false := by
      rw [hcarries.type, htype]
      rfl
    have hinOrder : s.node.memberships.InOrder sender envelope := by
      intro seq hseq
      rw [EventValidator.validateIncoming_toJson_seq hvalid] at hseq
      exact Nat.le_of_not_lt fun hlt => hovertaken (h.tracked.overtaken hd hseq hlt)
    rw [hid] at hsender hnode
    exact h.rejoining.underway joinable cap hsender
      (judge_of_request hreceived hrequest hinOrder) (h.asks hsent hundisturbing hreceived)
      (hcorrelation.trans hmarked) hnode

theorem step (joinable : ∀ roomId ∈ r.rooms, isValidRoomId cfg.toConfig roomId = true)
    (cap : r.rooms.length ≤ cfg.maxRoomsPerConnection) (size : r.rooms.length ≤ MAX_BATCH_ROOMS)
    (h : Restoring r s) (undisturbed : s.Undisturbed o r e) (hstep : s.step o cfg e = some t) :
    Restoring r t := by
  have htracked := h.tracked.step hstep
  have hhandlesSent := h.handlesSent.step hstep
  obtain ⟨e', session, hmove, hsession, heq⟩ | ⟨e', node, hmove, hnode, heq⟩ :=
    step_eq_some hstep
  · have hnode : t.node = s.node := by rw [heq]
    refine ⟨htracked, hhandlesSent, ?_, hnode ▸ h.registered, hnode ▸ h.rejoining, ?_, ?_⟩
    · rw [connectionIds, (move_session hmove).1]
      exact h.linked
    · intro hrequested
      rw [hnode]
      obtain hbefore | ⟨i, tick, link, f, rfl, hlink, -⟩ :=
        requested_of_step h.handlesSent hstep hrequested
      · exact h.underway hbefore
      · simp only [move, Option.bind_eq_bind, Option.bind_eq_some_iff] at hmove
        obtain ⟨link, -, socket, -, f, -, heq⟩ := hmove
        cases heq
    · rw [hnode, heq]
      refine h.awaits.step (h.calm undisturbed hmove) (fun hnone roomId hroom => ?_) hsession
      rw [Reconnect.rooms, List.length_eq_zero_iff.mp hnone] at hroom
      exact absurd hroom List.not_mem_nil
  · have hsession : t.session = s.session := by rw [heq]
    have hasks := h.asksOn undisturbed hmove
    have hnode' : t.node = node := by rw [heq]
    rw [← hnode'] at hnode
    refine ⟨htracked, hhandlesSent, ?_, ?_, h.rejoining.step joinable cap hasks hnode, ?_, ?_⟩
    · obtain ⟨connection, tick, -, hids⟩ | ⟨hids, -⟩ := move_node hmove
      · rw [connectionIds, hids]
        exact List.mem_append_left _ h.linked
      · rw [connectionIds, hids]
        exact h.linked
    · refine step_registered hnode ?_ h.registered
      rintro rfl
      obtain ⟨_, _, hconnect, -⟩ | ⟨-, ⟨_, -, _, _, -, _, -, _, hframe⟩ | ⟨rfl, -⟩⟩ :=
        move_node hmove
      · cases hconnect
      · cases hframe
      · exact undisturbed rfl
    · intro hrequested
      by_cases hbefore : s.Requested r
      · exact (h.underway hbefore).step joinable cap h.rejoining hasks hnode
      · obtain hcontra | ⟨i, tick, link, f, rfl, hlink, hid, hf, hmarked⟩ :=
          requested_of_step h.handlesSent hstep hrequested
        · exact absurd hcontra hbefore
        · refine h.underway_first joinable cap size hbefore undisturbed hlink hid hf hmarked ?_
          simp only [move, Option.bind_eq_bind, Option.bind_eq_some_iff] at hmove
          obtain ⟨link', hlink', socket, hsocket, f', hf', heq⟩ := hmove
          cases hlink.symm.trans hlink'
          rw [PulseClientSession.sentOn, hsocket] at hf
          cases hf.symm.trans hf'
          cases (Prod.mk.inj (Option.some.inj heq)).1
          exact hnode
    · rw [hsession]
      refine h.awaits.mono fun hrestored roomId hroom => ?_
      exact h.rejoining.grows joinable cap hasks hnode roomId (hrestored roomId hroom)

end Restoring

/-- What every reachable state has. -/
structure Orderly (s : ClientServer) : Prop where
  tracked : s.Tracked
  handlesSent : s.HandlesSent
  holds : PulseClientSession.Holds (fun _ => True) (fun _ => True) s.session

theorem orderly_initial (redis : Option Bool) (presence : Bool) :
    (initial redis presence).Orderly where
  tracked := tracked_initial redis presence
  handlesSent := fun _ hlink => absurd hlink List.not_mem_nil
  holds := PulseClientSession.holds_initial _ _

theorem Orderly.step (h : s.Orderly) (hstep : s.step o cfg e = some t) : t.Orderly where
  tracked := h.tracked.step hstep
  handlesSent := h.handlesSent.step hstep
  holds := by
    obtain ⟨e', session, -, hsession, heq⟩ | ⟨e', node, -, -, heq⟩ := step_eq_some hstep
    · rw [heq]
      refine PulseClientSession.holds_step (fun _ _ _ h => h) (fun _ _ _ h => h) h.holds
        (fun _ _ => trivial) ?_ hsession
      cases e' <;> first | trivial | exact fun _ _ _ _ _ _ => trivial
    · rw [heq]
      exact h.holds

/-- The reconnect of the session, as it is now, on the connection. -/
def reconnect (s : ClientServer) (connectionId : ConnectionId) (correlationId : String) :
    Reconnect where
  connectionId := connectionId
  desiredRooms := s.session.desiredRooms
  correlationId := correlationId
  earlier := s.session.resubscribing.length

/-- A correlation id that was not generated before. -/
def Unused (correlationId : String) (s : ClientServer) : Prop :=
  (∀ entry ∈ s.session.entries, entry.envelope.correlationId ≠ some correlationId) ∧
    ∀ socket ∈ s.session.sockets, ∀ f ∈ socket.sent, f.correlationId ≠ some correlationId

instance (correlationId : String) (s : ClientServer) : Decidable (s.Unused correlationId) :=
  inferInstanceAs (Decidable ((∀ entry ∈ _, _) ∧ ∀ socket ∈ _, ∀ f ∈ _, _))

/-- A reconnect begins when the node accepts the upgrade. -/
theorem restoring_upgrade (h : s.Orderly) {w : Nat} {connection : Connection} {tick : Tick}
    (hstep : s.step o cfg (.upgrade w connection tick) = some t) {κ : String}
    (unused : t.Unused κ) (unconnected : t.session.state ≠ .connected) :
    Restoring (t.reconnect connection.connectionId κ) t := by
  have hupgrade := hstep
  simp only [ClientServer.step, move] at hupgrade
  split at hupgrade
  · rw [Option.bind_some, Option.map_eq_some_iff] at hupgrade
    obtain ⟨node, hnode, rfl⟩ := hupgrade
    obtain ⟨hnew, hm⟩ := step_effect hnode
    refine ⟨h.tracked.step hstep, h.handlesSent.step hstep, ?_, ?_,
      rejoining_connect h.tracked.wellFormed hnode, ?_, ?_⟩
    · rw [connectionIds, List.map_append]
      exact List.mem_append_right _ List.mem_cons_self
    · rw [hm]
      exact OrderedMap.mem_keys_set.mpr (Or.inl rfl)
    · intro hrequested
      obtain ⟨link, hlink, hid, -⟩ | ⟨_, _, _, _, hhandle, -⟩ :=
        requested_of_step h.handlesSent hstep hrequested
      · have hold := h.tracked.traced.known _ (List.mem_map_of_mem hlink)
        rw [hid] at hold
        exact absurd hold hnew
      · cases hhandle
    · refine ⟨⟨fun i entry hentry hmarked => ?_, fun w socket hsocket f hf hmarked => ?_,
        fun _ _ _ _ _ => trivial, h.holds.queued⟩, rfl, fun i entry hentry hmarked => ?_,
        fun i awaited hi hawaited => ?_, fun hconnected => absurd hconnected unconnected⟩
      · exact absurd hmarked (unused.1 entry (List.mem_of_getElem? hentry))
      · exact absurd hmarked (unused.2 socket (List.mem_of_getElem? hsocket) f hf)
      · exact absurd hmarked (unused.1 entry (List.mem_of_getElem? hentry))
      · rw [List.getElem?_eq_none hi] at hawaited
        cases hawaited
  · cases hupgrade

/-- Over whole runs: a reconnect that nothing disturbs restores at most `MAX_BATCH_ROOMS` rooms. -/
theorem reconnect_restores {o : SessionOptions} {cfg : ServerConfig} {redis : Option Bool}
    {presence : Bool} {before es : List LinkEvent} {s t : ClientServer} {w : Nat}
    {connection : Connection} {tick : Tick} {κ : String}
    (hbefore : run (step o cfg) (initial redis presence) before = some s)
    (hupgrade : s.step o cfg (.upgrade w connection tick) = some t)
    (unconnected : t.session.state ≠ .connected) (unused : t.Unused κ)
    (joinable : ∀ roomId ∈ t.session.desiredRooms,
      isValidRoomId cfg.toConfig (trim roomId) = true)
    (cap : t.session.desiredRooms.size ≤ cfg.maxRoomsPerConnection)
    (size : t.session.desiredRooms.size ≤ MAX_BATCH_ROOMS)
    (undisturbed : EveryStep (reconnecting o cfg)
      (fun u e _ => u.Undisturbed o (t.reconnect connection.connectionId κ) e) t es) :
    Always (reconnecting o cfg) (fun u => u.session.state = .connected →
      ∀ roomId ∈ u.session.desiredRooms, connection.connectionId ∈
        u.node.memberships.hub.roomManager.members (trim roomId)) t es := by
  have horderly : s.Orderly :=
    invariant (fun _ _ _ h hstep => h.step hstep) (orderly_initial redis presence) hbefore
  have hrooms : (t.reconnect connection.connectionId κ).rooms.length =
      t.session.desiredRooms.size := List.length_map _
  have hrestoring : Always (reconnecting o cfg)
      (Restoring (t.reconnect connection.connectionId κ)) t es := by
    refine always_of_everyStep ?_ (restoring_upgrade horderly hupgrade unused unconnected)
      undisturbed
    intro u e v hu hstep hundisturbed
    rw [reconnecting] at hstep
    split at hstep
    · cases hstep
    · refine hu.step ?_ (hrooms ▸ cap) (hrooms ▸ size) hundisturbed hstep
      intro roomId hroom
      obtain ⟨desired, hdesired, rfl⟩ := List.mem_map.mp hroom
      exact joinable desired hdesired
  refine hrestoring.mono fun u hu hconnected roomId hroom => ?_
  rw [hu.awaits.desiredRooms] at hroom
  have hrestored := hu.awaits.connected hconnected (trim roomId) (List.mem_map_of_mem hroom)
  exact (hu.rejoining.wellFormed.agree _ hu.registered _).mp hrestored

/-- Frames are handled and read, and timers of the session run out. -/
def LossFree : LinkEvent → Prop
  | .handle .. | .read .. | .session (.ackTimeout _) | .session (.resubscribed _) => True
  | _ => False

/-- The node answered every frame on the connection, and the session read the answers. -/
def AnsweredOn (connectionId : ConnectionId) (s : ClientServer) : Prop :=
  ∀ link ∈ s.links, link.connectionId = connectionId →
    link.handled = (s.session.sentOn link.socket).length ∧
      (s.node.sockets connectionId).sent.length = link.handled + 1 ∧ link.read = link.handled + 1

instance (connectionId : ConnectionId) (s : ClientServer) :
    Decidable (s.AnsweredOn connectionId) :=
  inferInstanceAs (Decidable (∀ link ∈ _, _ → _ ∧ _ ∧ _))

def reconnectConfig : ServerConfig :=
  { instanceId := "node-a", idempotency := { capacity := 10, digest := id } }

def reconnectTick : Tick := { now := 0, frameId := "frame", replyId := "reply" }

def reconnectStamp (id : String) : Stamp := { eventId := id, correlationId := id, now := 0 }

def newConnection : Connection := { connectionId := "c2", userId := "alice" }

/-- The session joins rooms in two batches, loses its socket and opens a new one. -/
def lostRun (rooms rooms' : List RoomId) : List LinkEvent :=
  [.session (.connect true 0), .session (.opened 0),
    .upgrade 0 { connectionId := "c1", userId := "alice" } reconnectTick,
    .read 0 (reconnectStamp "unused"), .session (.joinRooms rooms (reconnectStamp "e1")),
    .session (.joinRooms rooms' (reconnectStamp "e2")), .handle 0 reconnectTick,
    .handle 0 reconnectTick, .read 0 (reconnectStamp "unused"),
    .read 0 (reconnectStamp "unused"), .session (.closed 0 0),
    .session (.reconnectTimeout true 0), .session (.opened 1)]

def answeredRun : List LinkEvent :=
  [.handle 1 reconnectTick, .read 1 (reconnectStamp "unused")]

/-- The session asks for its rooms, and is connected when the request is settled. -/
def restoredRun : List LinkEvent :=
  [.read 1 (reconnectStamp "rooms")] ++ answeredRun ++ [.session (.resubscribed 0)]

theorem reconnect_restores_two :
    ∃ s t u : ClientServer,
      run (step { userId := "alice" } reconnectConfig) (initial none false)
        (lostRun ["a"] ["b"]) = some s ∧
      s.step { userId := "alice" } reconnectConfig (.upgrade 1 newConnection reconnectTick) =
        some t ∧
      run (reconnecting { userId := "alice" } reconnectConfig) t restoredRun = some u ∧
      u.session.state = .connected ∧ u.session.desiredRooms.toList = ["a", "b"] ∧
      Always (reconnecting { userId := "alice" } reconnectConfig)
        (fun u => u.session.state = .connected → ∀ roomId ∈ u.session.desiredRooms,
          "c2" ∈ u.node.memberships.hub.roomManager.members (trim roomId)) t restoredRun := by
  have hrun : ((run (step { userId := "alice" } reconnectConfig) (initial none false)
      (lostRun ["a"] ["b"])).bind fun s => s.step { userId := "alice" } reconnectConfig
        (.upgrade 1 newConnection reconnectTick)).any (fun t =>
          decide (t.session.state ≠ .connected ∧ t.Unused "rooms" ∧
            (∀ roomId ∈ t.session.desiredRooms,
              isValidRoomId reconnectConfig.toConfig (trim roomId) = true) ∧
            t.session.desiredRooms.size ≤ 2 ∧
            EveryStep (reconnecting { userId := "alice" } reconnectConfig) (fun u e _ =>
              u.Undisturbed { userId := "alice" } (t.reconnect "c2" "rooms") e) t restoredRun) &&
          (run (reconnecting { userId := "alice" } reconnectConfig) t restoredRun).any fun u =>
            decide (u.session.state = .connected ∧
              u.session.desiredRooms.toList = ["a", "b"])) = true := by
    decide +kernel
  obtain ⟨t, ht, hfacts⟩ := (Option.any_eq_true _ _).mp hrun
  obtain ⟨s, hs, hupgrade⟩ := Option.bind_eq_some_iff.mp ht
  rw [Bool.and_eq_true, decide_eq_true_eq] at hfacts
  obtain ⟨⟨hstate, hunused, hjoinable, hsize, hundisturbed⟩, hreconnect⟩ := hfacts
  obtain ⟨u, hu, hend⟩ := (Option.any_eq_true _ _).mp hreconnect
  rw [decide_eq_true_eq] at hend
  exact ⟨s, t, u, hs, hupgrade, hu, hend.1, hend.2, reconnect_restores hs hupgrade hstate hunused
    hjoinable (Nat.le_trans hsize (by decide)) (Nat.le_trans hsize (by decide)) hundisturbed⟩

/-- The session desires one room more than a batch may name. -/
def manyRoomsRun : List LinkEvent :=
  lostRun
    ["a", "b", "c", "d", "e", "f", "g", "h", "i", "j", "k", "l", "m", "n", "o", "p", "q", "r",
      "s", "t", "u", "v", "w", "x", "y", "z"]
    ["A", "B", "C", "D", "E", "F", "G", "H", "I", "J", "K", "L", "M", "N", "O", "P", "Q", "R",
      "S", "T", "U", "V", "W", "X", "Y"]

/-- The node answers every copy of the request with `BATCH_SIZE_EXCEEDED`. -/
def refusedRun : List LinkEvent :=
  [.read 1 (reconnectStamp "rooms")] ++ answeredRun ++ [.session (.ackTimeout 2)] ++
    answeredRun ++ [.session (.ackTimeout 3)] ++ answeredRun ++ [.session (.ackTimeout 4)] ++
    answeredRun ++ [.session (.ackTimeout 5), .session (.resubscribed 0)]

theorem connected_without_rooms :
    ¬ ∀ (o : SessionOptions) (cfg : ServerConfig) (redis : Option Bool) (presence : Bool)
      (before es : List LinkEvent) (s t u : ClientServer) (w : Nat) (connection : Connection)
      (tick : Tick), run (step o cfg) (initial redis presence) before = some s →
        s.step o cfg (.upgrade w connection tick) = some t → t.session.state ≠ .connected →
        (∀ roomId ∈ t.session.desiredRooms, isValidRoomId cfg.toConfig (trim roomId) = true) →
        t.session.desiredRooms.size ≤ cfg.maxRoomsPerConnection → (∀ e ∈ es, LossFree e) →
        run (reconnecting o cfg) t es = some u → u.AnsweredOn connection.connectionId →
        u.session.state = .connected → ∀ roomId ∈ u.session.desiredRooms,
          connection.connectionId ∈ u.node.memberships.hub.roomManager.members (trim roomId) := by
  intro h
  have hrun : ((run (step { userId := "alice" } reconnectConfig) (initial none false)
      manyRoomsRun).bind fun s => s.step { userId := "alice" } reconnectConfig
        (.upgrade 1 newConnection reconnectTick)).any (fun t =>
          decide (t.session.state ≠ .connected ∧ (∀ roomId ∈ t.session.desiredRooms,
            isValidRoomId reconnectConfig.toConfig (trim roomId) = true) ∧
              t.session.desiredRooms.size ≤ reconnectConfig.maxRoomsPerConnection) &&
          (run (reconnecting { userId := "alice" } reconnectConfig) t refusedRun).any fun u =>
            decide (u.AnsweredOn "c2" ∧ u.session.state = .connected ∧
              ∃ roomId ∈ u.session.desiredRooms,
                "c2" ∉ u.node.memberships.hub.roomManager.members (trim roomId))) = true := by
    decide +kernel
  obtain ⟨t, ht, hfacts⟩ := (Option.any_eq_true _ _).mp hrun
  obtain ⟨s, hs, hupgrade⟩ := Option.bind_eq_some_iff.mp ht
  rw [Bool.and_eq_true, decide_eq_true_eq] at hfacts
  obtain ⟨⟨hstate, hjoinable, hcap⟩, hreconnect⟩ := hfacts
  obtain ⟨u, hu, hend⟩ := (Option.any_eq_true _ _).mp hreconnect
  rw [decide_eq_true_eq] at hend
  obtain ⟨hanswered, hconnected, roomId, hroom, hmissing⟩ := hend
  have hlossFree : ∀ e ∈ refusedRun, LossFree e := by
    simp [refusedRun, answeredRun, LossFree]
  exact hmissing (h _ _ none false manyRoomsRun refusedRun s t u 1 newConnection reconnectTick
    hs hupgrade hstate hjoinable hcap hlossFree hu hanswered hconnected roomId hroom)

end ClientServer

end Pulse
