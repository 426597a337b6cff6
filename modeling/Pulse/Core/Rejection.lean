import Pulse.Core.Handover
import Pulse.Core.PresenceOrder
import Pulse.Core.Replay

/-!
# Rejected frames

A frame can be answered with an error at many places, behind the idempotency check
or inside a handler. None of them has changed anything by then but the state of the
sender's limiter and socket, and the order of the cache.
-/

namespace Pulse

open Collections Js MessageDispatcher Transition

/-- The node is as before, but for the limiter and the socket of one connection and the
expired entries and the order of the cache. -/
structure Node.Unaffected (cfg : ServerConfig) (sender : Connection) (now : Int)
    (n n' : Node) : Prop where
  memberships : n'.memberships = n.memberships
  presenceEvents : n'.presenceEvents = n.presenceEvents
  sockets : ∀ c, c ≠ sender.connectionId → n'.sockets c = n.sockets c
  tokenBuckets : ∀ c, c ≠ sender.connectionId → n'.tokenBuckets c = n.tokenBuckets c
  entries : ∀ id entry, now - entry.timestamp ≤ cfg.idempotency.ttlMs →
    (n'.idempotencyManager.cache.get? id = some entry ↔
      n.idempotencyManager.cache.get? id = some entry)

namespace Node.Unaffected

variable {cfg : ServerConfig} {sender : Connection} {now : Int} {n n' n'' : Node}

theorem refl (cfg : ServerConfig) (sender : Connection) (now : Int) (n : Node) :
    Unaffected cfg sender now n n :=
  ⟨rfl, rfl, fun _ _ => rfl, fun _ _ => rfl, fun _ _ _ => Iff.rfl⟩

theorem trans (h : Unaffected cfg sender now n n') (h' : Unaffected cfg sender now n' n'') :
    Unaffected cfg sender now n n'' where
  memberships := h'.memberships.trans h.memberships
  presenceEvents := h'.presenceEvents.trans h.presenceEvents
  sockets := fun c hc => (h'.sockets c hc).trans (h.sockets c hc)
  tokenBuckets := fun c hc => (h'.tokenBuckets c hc).trans (h.tokenBuckets c hc)
  entries := fun id entry fresh => (h'.entries id entry fresh).trans (h.entries id entry fresh)

/-- Nothing is published. -/
theorem published (h : Unaffected cfg sender now n n') : n'.published = n.published := by
  rw [Node.published, Node.published, h.memberships]

theorem closeSocket (cfg : ServerConfig) (sender : Connection) (now : Int) (n : Node)
    (code : Nat) (reason : String) :
    Unaffected cfg sender now n (n.closeSocket sender code reason) where
  memberships := closeSocket_memberships n sender code reason
  presenceEvents := closeSocket_presenceEvents n sender code reason
  sockets := fun _ hc => closeSocket_socket_other n code reason hc
  tokenBuckets := by
    intro c _
    rw [Node.closeSocket]
    split <;> rfl
  entries := by
    intro id entry _
    rw [closeSocket_idempotencyManager]

theorem sendReply (cfg : ServerConfig) (sender : Connection) (now : Int) (n : Node)
    (reply : Option PulseEventEnvelope) :
    Unaffected cfg sender now n (n.sendReply sender reply) where
  memberships := sendReply_memberships n sender reply
  presenceEvents := sendReply_presenceEvents n sender reply
  sockets := fun _ hc => sendReply_socket_other n reply hc
  tokenBuckets := by
    intro c _
    cases reply with
    | none => rfl
    | some envelope =>
        show (n.send sender envelope).1.tokenBuckets c = n.tokenBuckets c
        simp only [send, Node.closeSocket]
        split_ifs <;> rfl
  entries := by
    intro id entry _
    rw [sendReply_idempotencyManager]

end Node.Unaffected

namespace MessageDispatcher

open Node

variable {cfg : ServerConfig} {n : Node} {sender : Connection} {raw : Option Json} {tick : Tick}

theorem receive_unaffected (cfg : ServerConfig) (n : Node) (sender : Connection)
    (raw : Option Json) (tick : Tick) :
    Unaffected cfg sender tick.now n (receive n sender raw tick).1 := by
  have hbucket : ∀ bucket, Unaffected cfg sender tick.now n { n with
      tokenBuckets := Function.update n.tokenBuckets sender.connectionId bucket } := by
    intro bucket
    refine ⟨rfl, rfl, fun _ _ => rfl, fun c hc => ?_, fun _ _ _ => Iff.rfl⟩
    exact Function.update_of_ne hc _ _
  simp only [receive]
  split
  · exact hbucket _
  · split <;> exact hbucket _

/-- A check keeps the entries which are not expired. -/
theorem check_entries {options : IdempotencyOptions} {m : IdempotencyManager} {now : Int}
    (eventId : EventId) (payload : Fields) (id : EventId) (entry : IdempotencyEntry)
    (fresh : now - entry.timestamp ≤ options.ttlMs) :
    (m.check options eventId payload now).1.cache.get? id = some entry ↔
      m.cache.get? id = some entry := by
  by_cases hhit : m.Hits options eventId now
  · rw [IdempotencyManager.get?_check_hit hhit]
  · rw [IdempotencyManager.check_of_miss payload hhit, OrderedMap.get?_delete]
    split
    · rename_i heq
      subst heq
      exact ⟨fun h => (by cases h), fun h => absurd ⟨entry, h, fresh⟩ hhit⟩
    · exact Iff.rfl

theorem checkReceived_unaffected (cfg : ServerConfig) (sender : Connection) (now : Int)
    (received : Node × Except Refusal PulseEventEnvelope) :
    Unaffected cfg sender now received.1 (checkReceived cfg sender now received).1 := by
  obtain ⟨n, received⟩ := received
  cases received with
  | error reason => exact .refl cfg sender now n
  | ok envelope =>
      rw [checkReceived, checkMessage_node]
      split
      · refine ⟨rfl, rfl, fun _ _ => rfl, fun _ _ => rfl, fun id entry fresh => ?_⟩
        exact check_entries _ _ id entry fresh
      · exact .refl cfg sender now n

/-- Up to the handlers a frame changes nothing. -/
theorem judge_unaffected (cfg : ServerConfig) (n : Node) (sender : Connection)
    (raw : Option Json) (tick : Tick) :
    Unaffected cfg sender tick.now n (judge cfg n sender raw tick).1 :=
  (receive_unaffected cfg n sender raw tick).trans (checkReceived_unaffected cfg sender tick.now _)

/-- A room handler that answers with an error has changed nothing. -/
theorem handleRoomJoin_error {cfg : Config} {m : Memberships} {envelope : PulseEventEnvelope}
    {fresh : Fresh} {reply : PulseEventEnvelope}
    (h : (handleRoomJoin cfg m sender envelope fresh).2 = some reply)
    (error : reply.type = .sysError) :
    (handleRoomJoin cfg m sender envelope fresh).1 = m := by
  simp only [handleRoomJoin] at h ⊢
  by_cases hinvalid : (!isValidRoomId cfg (envelope.targetRoomId.getD "")) = true
  · rw [if_pos hinvalid]
  · rw [if_neg hinvalid] at h ⊢
    by_cases hfull : envelope.targetRoomId.getD "" ∉ m.rooms sender.connectionId ∧
        (m.rooms sender.connectionId).size ≥ cfg.maxRoomsPerConnection
    · rw [if_pos hfull]
    · rw [if_neg hfull] at h
      split at h
      · cases h
      · simp only [roomJoinAdded] at h
        split at h
        · cases h
        · cases h
          cases error

theorem batchJoinLoop_ne_error {cfg : Config} {envelope : PulseEventEnvelope}
    {currentCount : Nat} {fresh : Fresh} {entries : List Json} {m : Memberships}
    {joinedRooms : List RoomId} {newlyAdded : Nat} {reply : PulseEventEnvelope}
    (h : (batchJoinLoop cfg sender envelope currentCount fresh entries m joinedRooms
      newlyAdded).2 = some reply) : reply.type ≠ .sysError := by
  have hdone : ∀ {m joinedRooms}, (batchJoinDone m sender envelope joinedRooms fresh).2 =
      some reply → reply.type ≠ .sysError := by
    intro m joinedRooms h
    cases h
    exact EventType.noConfusion
  induction entries generalizing m joinedRooms newlyAdded with
  | nil => exact hdone h
  | cons entry rest ih =>
      simp only [batchJoinLoop] at h
      split at h
      · exact ih h
      · split at h
        · exact hdone h
        · split at h
          · cases h
          · exact ih h

theorem handleRoomBatchJoin_error {cfg : Config} {m : Memberships} {envelope : PulseEventEnvelope}
    {fresh : Fresh} {reply : PulseEventEnvelope}
    (h : (handleRoomBatchJoin cfg m sender envelope fresh).2 = some reply)
    (error : reply.type = .sysError) :
    (handleRoomBatchJoin cfg m sender envelope fresh).1 = m := by
  simp only [handleRoomBatchJoin] at h ⊢
  split
  · rename_i hrooms
    simp only [hrooms] at h
    split
    · rfl
    · rename_i hcap
      simp only [hcap, if_false] at h
      exact absurd error (batchJoinLoop_ne_error h)
  · rfl

theorem handleRoomLeave_ne_error {m : Memberships} {envelope : PulseEventEnvelope}
    {fresh : Fresh} {reply : PulseEventEnvelope}
    (h : (handleRoomLeave m sender envelope fresh).2 = some reply) : reply.type ≠ .sysError := by
  simp only [handleRoomLeave] at h
  split at h
  · cases h
  · cases h
    exact EventType.noConfusion

/-- Handlers that go on answer with no error. -/
theorem continueHandler_ne_error {cfg : Config} {m : Memberships} {online : Option (List UserId)}
    {fresh : Fresh} {k : Suspended} {reply : PulseEventEnvelope}
    (h : (continueHandler cfg m online fresh k).2 = some reply) : reply.type ≠ .sysError := by
  cases k with
  | addRoomMember sender envelope roomId =>
      simp only [continueHandler, roomJoinAdded] at h
      split at h
      · cases h
      · cases h
        exact EventType.noConfusion
  | getRoomRoster sender envelope roomId =>
      cases h
      exact EventType.noConfusion
  | batchAddRoomMember sender envelope batch => exact batchJoinLoop_ne_error h
  | removeRoomMember sender envelope roomId =>
      cases h
      exact EventType.noConfusion

theorem runHandler_of_same {m : Memberships} {reply : Option PulseEventEnvelope}
    (same : m = n.memberships) : runHandler n sender (m, reply) = n.sendReply sender reply := by
  rw [same]
  rfl

/-- An accepted frame that is answered with an error is not handled. -/
theorem route_error {envelope reply : PulseEventEnvelope}
    (h : routeReply cfg n sender envelope tick = some reply) (error : reply.type = .sysError) :
    ¬ Deliverable n.memberships sender envelope ∧
      route cfg n sender envelope tick = n.sendReply sender (some reply) := by
  have hack : reply ≠ messageAck n sender envelope tick := by
    rintro rfl
    rw [messageAck_type] at error
    cases error
  cases htype : envelope.type with
  | roomJoin =>
      simp only [routeReply, htype] at h
      refine ⟨by simp [Deliverable, htype], ?_⟩
      simp only [route, htype]
      rw [← Prod.mk.eta (p := handleRoomJoin cfg.toConfig n.memberships sender envelope tick.reply)]
      rw [runHandler_of_same (handleRoomJoin_error h error), h]
  | roomBatchJoin =>
      simp only [routeReply, htype] at h
      refine ⟨by simp [Deliverable, htype], ?_⟩
      simp only [route, htype]
      rw [← Prod.mk.eta
        (p := handleRoomBatchJoin cfg.toConfig n.memberships sender envelope tick.reply)]
      rw [runHandler_of_same (handleRoomBatchJoin_error h error), h]
  | roomLeave =>
      simp only [routeReply, htype] at h
      exact absurd error (handleRoomLeave_ne_error h)
  | roomMessage =>
      simp only [routeReply, htype] at h
      split at h
      · rename_i member
        cases h
        refine ⟨by simpa [Deliverable, htype] using member, ?_⟩
        simp only [route, htype, handleRoomMessage, if_pos member]
      · exact absurd (Option.some.inj h).symm hack
  | directMessage =>
      simp only [routeReply, htype] at h
      exact absurd (Option.some.inj h).symm hack
  | sysPing =>
      simp only [routeReply, htype] at h
      cases h
      cases error
  | _ =>
      simp only [routeReply, htype] at h
      cases h

/-- An admitted frame that is answered with an error: the error is all that is handed over. -/
theorem answer_error {admitted : Node × Verdict} {reply : PulseEventEnvelope}
    (h : verdictReply cfg sender tick admitted = some reply) (error : reply.type = .sysError) :
    Unaffected cfg sender tick.now admitted.1 (answer cfg sender tick admitted) ∧
      verdictHandover cfg sender tick admitted = [(sender, reply)] := by
  obtain ⟨n, verdict⟩ := admitted
  have hreplied : verdictFanOut sender (n, verdict) = [] →
      verdictHandover cfg sender tick (n, verdict) = [(sender, reply)] := by
    intro hnobody
    rw [verdictHandover, hnobody, h]
    rfl
  cases verdict with
  | refused reason =>
      refine ⟨?_, hreplied rfl⟩
      cases reason with
      | rateLimited abusive =>
          simp only [answer]
          split
          · exact (Unaffected.sendReply cfg sender tick.now n _).trans (.closeSocket ..)
          · exact .sendReply ..
      | invalid error =>
          rw [answer]
          exact .sendReply ..
  | accepted envelope =>
      obtain ⟨hrefused, hroute⟩ := route_error h error
      refine ⟨?_, hreplied ?_⟩
      · rw [answer, hroute]
        exact .sendReply ..
      · simp only [verdictFanOut, Verdict.accepted?]
        rw [Option.filter_some_neg (by simpa using hrefused)]
  | _ =>
      refine ⟨?_, hreplied rfl⟩
      rw [answer]
      exact .sendReply ..

theorem frameHandover_error {f : Connection × PulseEventEnvelope}
    (h : f ∈ frameHandover cfg n sender raw tick) (error : f.2.type = .sysError) :
    Unaffected cfg sender tick.now n (dispatchRawMessage cfg n sender raw tick) ∧
      frameHandover cfg n sender raw tick = [f] := by
  rw [frameHandover_eq, verdictHandover, List.mem_append] at h
  have hreply := h.resolve_left fun hfanOut => by
    have hmessage := isMessage_of_mem_fanOut hfanOut
    rw [error] at hmessage
    cases hmessage
  obtain ⟨reply, hmem, rfl⟩ := List.mem_map.mp hreply
  obtain ⟨hunaffected, hhandover⟩ := answer_error (Option.mem_toList.mp hmem) error
  rw [frameHandover_eq]
  exact ⟨(judge_unaffected cfg n sender raw tick).trans hunaffected, hhandover⟩

end MessageDispatcher

namespace Node

/-- The pieces in which the handler of the last frame goes on, if nothing comes in between:
it is the last one to be suspended. -/
def goOn (n : Node) (answers : List (Option (List UserId) × Tick)) : List NodeEvent :=
  answers.map fun a => .resume n.memberships.suspended.length a.1 a.2

/-- No handler that goes on hands over an error. -/
theorem resume_handover_ne_error {cfg : ServerConfig} {n : Node} {i : Nat}
    {online : Option (List UserId)} {tick : Tick} {f : Connection × PulseEventEnvelope}
    (hf : f ∈ n.handover cfg (.resume i online tick)) : f.2.type ≠ .sysError := by
  rw [handover, step] at hf
  cases hk : n.memberships.suspended[i]? with
  | none =>
      rw [hk] at hf
      cases hf
  | some k =>
      rw [hk, Option.map_some, Option.elim_some, (resume_handsOver ..).handedSince] at hf
      obtain ⟨reply, hmem, rfl⟩ := List.mem_map.mp hf
      exact continueHandler_ne_error (Option.mem_toList.mp hmem)

theorem error_of_goOn {cfg : ServerConfig} {n : Node}
    {s s' : Node × List (Connection × PulseEventEnvelope)}
    {answers : List (Option (List UserId) × Tick)}
    (hrun : run (logging (step cfg) (handover cfg)) s (n.goOn answers) = some s')
    {f : Connection × PulseEventEnvelope} (hf : f ∈ s'.2) (error : f.2.type = .sysError) :
    f ∈ s.2 := by
  induction answers generalizing s with
  | nil =>
      cases hrun
      exact hf
  | cons a answers ih =>
      rw [goOn, List.map_cons, run_cons, Option.bind_eq_some_iff] at hrun
      obtain ⟨t, ht, hrest⟩ := hrun
      rw [logging, Option.map_eq_some_iff] at ht
      obtain ⟨m, -, rfl⟩ := ht
      refine (List.mem_append.mp (ih hrest)).resolve_right fun hnew => ?_
      exact resume_handover_ne_error hnew error

/-- A frame that is answered with an error, at once or when its handler has gone on without
interruption, changes nothing, and the error is the only frame that is handed over. -/
theorem rejected_frame_changes_nothing {cfg : ServerConfig} {n n' : Node} {sender : Connection}
    {raw : Option Json} {tick : Tick} {answers : List (Option (List UserId) × Tick)}
    {frames : List (Connection × PulseEventEnvelope)}
    (hrun : run (logging (step cfg) (handover cfg))
      (dispatchRawMessage cfg n sender raw tick, frameHandover cfg n sender raw tick)
      (n.goOn answers) = some (n', frames))
    (rejected : ∃ f ∈ frames, f.2.type = .sysError) :
    Unaffected cfg sender tick.now n n' ∧ n'.published = n.published ∧
      ∃ reply, frames = [(sender, reply)] := by
  obtain ⟨f, hf, herror⟩ := rejected
  have hfirst := error_of_goOn hrun hf herror
  obtain ⟨hunaffected, honly⟩ := frameHandover_error hfirst herror
  cases answers with
  | nil =>
      cases hrun
      refine ⟨hunaffected, hunaffected.published, f.2, ?_⟩
      rw [frameHandover_eq] at hfirst
      obtain ⟨reply, -, rfl⟩ := List.mem_map.mp ((List.mem_append.mp hfirst).resolve_left
        fun hfanOut => by
          have hmessage := isMessage_of_mem_fanOut hfanOut
          rw [herror] at hmessage
          cases hmessage)
      exact honly
  | cons a answers =>
      -- No handler was suspended, so none can go on.
      have hnone : n.memberships.suspended[n.memberships.suspended.length]? = none :=
        List.getElem?_eq_none (Nat.le_refl _)
      rw [goOn, List.map_cons, run_cons, logging, step, hunaffected.memberships, hnone] at hrun
      cases hrun

/-- Alice, who is in no room, sends a message to one. -/
theorem rejected_frame_changes_nothing_stranger :
    Unaffected replayConfig (connectionOf "alice") 0 (initial none false)
      (dispatchRawMessage replayConfig (initial none false) (connectionOf "alice")
        (some (roomFrame .roomMessage "r" none)) (replayTick "r1")) := by
  have hrejected : (frameHandover replayConfig (initial none false) (connectionOf "alice")
      (some (roomFrame .roomMessage "r" none)) (replayTick "r1")).any
        (fun f => decide (f.2.type = .sysError)) = true := by
    decide +kernel
  obtain ⟨f, hf, herror⟩ := List.any_eq_true.mp hrejected
  have hrun : run (logging (step replayConfig) (handover replayConfig))
      (dispatchRawMessage replayConfig (initial none false) (connectionOf "alice")
        (some (roomFrame .roomMessage "r" none)) (replayTick "r1"),
       frameHandover replayConfig (initial none false) (connectionOf "alice")
        (some (roomFrame .roomMessage "r" none)) (replayTick "r1"))
      ((initial none false).goOn []) = some _ := rfl
  exact (rejected_frame_changes_nothing hrun
    ⟨f, hf, of_decide_eq_true herror⟩).1

end Node

end Pulse
