import Pulse.Core.Rejoin

/-!
# A connection on its way into its rooms

From the first accepted request for all desired rooms on, a connection is in these rooms
or one of its suspended handlers is about to join what is missing, `Underway`, and an
acknowledgement of such a request is sent behind the last join only, `Rejoining`. Both
are kept by whatever else happens at the node.
-/

namespace Pulse

open Collections Js Transition MessageDispatcher

namespace Node

open Memberships

variable {cfg : ServerConfig} {desired : List RoomId} {κ : String} {c : ConnectionId}
variable {n n' : Node} {e : NodeEvent}

/-- All requests on the connection are as they should be, so far as they were received. -/
def AsksOn (n : Node) (desired : List RoomId) (κ : String) (c : ConnectionId) :
    NodeEvent → Prop
  | .frame connectionId raw tick => connectionId = c → ∀ sender, n.getConnection c = some sender →
      ∀ envelope, (receive n sender raw tick).2 = .ok envelope → Asks desired κ envelope
  | _ => True

/-- A connection on its way into the desired rooms. -/
structure Rejoining (desired : List RoomId) (κ : String) (c : ConnectionId) (n : Node) :
    Prop where
  wellFormed : n.memberships.WellFormed
  known : c ∈ n.memberships.known
  within : ∀ r ∈ n.memberships.rooms c, r ∈ desired
  suspended : ∀ k ∈ n.memberships.suspended, k.sender.connectionId = c →
    (∃ name, k.envelope.correlationId = some name ∧ name ≠ "") ∧
      Resumable desired κ (n.memberships.rooms c) k
  acknowledged : ∀ ack ∈ (n.sockets c).sent, ack.type.isAck = true →
    ack.correlationId = some κ → Restored desired c n.memberships

/-- A marked request was accepted: the rooms are restored, or will be by a suspended
handler. -/
def Underway (desired : List RoomId) (κ : String) (c : ConnectionId) (n : Node) : Prop :=
  Restored desired c n.memberships ∨ ∃ k ∈ n.memberships.suspended,
    k.sender.connectionId = c ∧ k.envelope.correlationId = some κ

theorem answers_named {ack request : PulseEventEnvelope} (answers : Answers ack request)
    (named : ∃ name, request.correlationId = some name ∧ name ≠ "")
    (hack : ack.correlationId = some κ) : request.correlationId = some κ := by
  obtain ⟨name, hname, hne⟩ := named
  rw [hname, ← answers name hname hne, hack]

/-- Nothing happens on the connection. -/
theorem Rejoining.elsewhere (h : Rejoining desired κ c n) (hstep : n.step cfg e = some n')
    (rooms : n'.memberships.rooms c = n.memberships.rooms c)
    (suspended : ∀ k ∈ n'.memberships.suspended, k.sender.connectionId = c →
      k ∈ n.memberships.suspended)
    (silent : ∀ ack ∈ (n'.sockets c).sent, ack.type.isAck = true →
      ack.correlationId = some κ → ack ∈ (n.sockets c).sent) : Rejoining desired κ c n' where
  wellFormed := wellFormed_step cfg n e n' h.wellFormed hstep
  known := (step_effect hstep).known_mono h.known
  within := by
    rw [rooms]
    exact h.within
  suspended := by
    intro k hk hc
    rw [rooms]
    exact h.suspended k (suspended k hk hc) hc
  acknowledged := by
    intro ack hack htype hcorrelation r hr
    rw [rooms]
    exact h.acknowledged ack (silent ack hack htype hcorrelation) htype hcorrelation r hr

/-- A turn of a handler for the connection, which goes on from `m`. -/
theorem Rejoining.turn (h : Rejoining desired κ c n) (hstep : n.step cfg e = some n')
    {m : Memberships} {envelope : PulseEventEnvelope} {reply : Option PulseEventEnvelope}
    (named : ∃ name, envelope.correlationId = some name ∧ name ≠ "")
    (turn : Turn desired κ c envelope m (n'.memberships, reply))
    (rooms : m.rooms c = n.memberships.rooms c)
    (suspended : ∀ k ∈ m.suspended, k ∈ n.memberships.suspended)
    (silent : reply = none → ∀ ack ∈ (n'.sockets c).sent, ack.type.isAck = true →
      ack.correlationId = some κ → ack ∈ (n.sockets c).sent)
    (answers : ∀ ack ∈ (n'.sockets c).sent, ack.type.isAck = true →
      ack.correlationId = some κ → ack ∈ (n.sockets c).sent ∨
        envelope.correlationId = some κ) : Rejoining desired κ c n' where
  wellFormed := wellFormed_step cfg n e n' h.wellFormed hstep
  known := (step_effect hstep).known_mono h.known
  within := turn.within
  suspended := by
    intro k hk hc
    have hgrows : ∀ r ∈ n.memberships.rooms c, r ∈ n'.memberships.rooms c := by
      rw [← rooms]
      exact turn.grows
    rcases turn.suspended k hk with hold | ⟨henvelope, hresumable⟩
    · obtain ⟨hnamed, hresumable⟩ := h.suspended k (suspended k hold) hc
      exact ⟨hnamed, hresumable.mono hgrows⟩
    · exact ⟨henvelope ▸ named, hresumable⟩
  acknowledged := by
    intro ack hack htype hcorrelation
    have hold : ack ∈ (n.sockets c).sent → Restored desired c n'.memberships := by
      intro hold r hr
      have hmem := h.acknowledged ack hold htype hcorrelation r hr
      rw [← rooms] at hmem
      exact turn.grows r hmem
    rcases answers ack hack htype hcorrelation with hsent | hmarked
    · exact hold hsent
    · cases reply with
      | none => exact hold (silent rfl ack hack htype hcorrelation)
      | some reply => exact turn.replied hmarked rfl

/-- What was under way stays so. -/
theorem Underway.turn (h : Underway desired κ c n) {m : Memberships}
    {envelope : PulseEventEnvelope} {reply : Option PulseEventEnvelope}
    (turn : Turn desired κ c envelope m (n'.memberships, reply))
    (rooms : m.rooms c = n.memberships.rooms c)
    (suspended : ∀ k ∈ n.memberships.suspended,
      k ∈ m.suspended ∨ k.envelope.correlationId = envelope.correlationId) :
    Underway desired κ c n' := by
  rcases h with hrestored | ⟨k, hk, hc, hmarked⟩
  · refine Or.inl fun r hr => ?_
    have hmem := hrestored r hr
    rw [← rooms] at hmem
    exact turn.grows r hmem
  · rcases suspended k hk with hkept | hresumed
    · exact Or.inr ⟨k, turn.kept k hkept, hc, hmarked⟩
    · cases reply with
      | none => exact Or.inr (turn.silent (hresumed ▸ hmarked) rfl)
      | some reply => exact Or.inl (turn.replied (hresumed ▸ hmarked) rfl)

/-- A frame which is stopped before its handler gets no acknowledgement for a marked request. -/
theorem silent_of_stopped {sender : Connection} {raw : Option Json} {tick : Tick}
    (wf : n.memberships.WellFormed) (registered : n.getConnection c = some sender)
    (asks : n.AsksOn desired κ c (.frame c raw tick))
    (stopped : ∀ envelope, (judge cfg n sender raw tick).2 ≠ .accepted envelope)
    (hstep : n.step cfg (.frame c raw tick) = some n') {ack : PulseEventEnvelope}
    (hack : ack ∈ (n'.sockets c).sent) (htype : ack.type.isAck = true)
    (hcorrelation : ack.correlationId = some κ) : ack ∈ (n.sockets c).sent := by
  obtain ⟨frames, houtgoing, hsends⟩ := step_sends wf hstep
  obtain ⟨l, hl, hsent⟩ := hsends c
  rw [hsent] at hack
  rcases List.mem_append.mp hack with hold | hnew
  · exact hold
  · have hmem := hl.subset hnew
    cases houtgoing with
    | silent => exact absurd hmem List.not_mem_nil
    | accepted registered' message distinct =>
        cases registered.symm.trans registered'
        exact absurd (acceptedMessage_eq_some.mp message).1 (stopped _)
    | replied registered' isReply =>
        cases registered.symm.trans registered'
        obtain ⟨-, rfl⟩ := Socket.mem_framesTo.mp hmem
        cases isReply with
        | system reply type =>
            rcases type with type | type <;> rw [type] at htype <;> cases htype
        | replayed envelope cachedAck verdict =>
            obtain ⟨hreceived, hmessage⟩ :=
              receivedMessage_eq_some.mp (replayed_entry verdict).1
            have hasks := asks rfl sender registered envelope hreceived
            have hmarked := answers_named (answers_of_replay envelope cachedAck) hasks.named
              hcorrelation
            rw [(hasks.marked hmarked).1] at hmessage
            cases hmessage
        | room reply envelope verdict request type correlation =>
            exact absurd verdict (stopped envelope)

theorem step_frame {sender : Connection} {raw : Option Json} {tick : Tick}
    (registered : n.getConnection c = some sender)
    (hstep : n.step cfg (.frame c raw tick) = some n') :
    n' = dispatchRawMessage cfg n sender raw tick := by
  rw [step, registered, Option.map_some, Option.some.injEq] at hstep
  exact hstep.symm

/-- A frame which is stopped changes no membership. -/
theorem frame_stopped {sender : Connection} {raw : Option Json} {tick : Tick}
    (registered : n.getConnection c = some sender)
    (stopped : ∀ envelope, (judge cfg n sender raw tick).2 ≠ .accepted envelope)
    (hstep : n.step cfg (.frame c raw tick) = some n') : n'.memberships = n.memberships := by
  rw [step_frame registered hstep]
  refine answer_induction (P := fun m => m = n.memberships)
    (judge_memberships cfg n sender raw tick) ?_
  exact fun envelope verdict => absurd verdict (stopped envelope)

/-- A frame changes no membership, or is accepted. -/
theorem frame_cases {raw : Option Json} {tick : Tick}
    (hstep : n.step cfg (.frame c raw tick) = some n') :
    n'.memberships = n.memberships ∨ ∃ sender envelope, n.getConnection c = some sender ∧
      (judge cfg n sender raw tick).2 = .accepted envelope := by
  have hregistered := hstep
  rw [step, Option.map_eq_some_iff] at hregistered
  obtain ⟨sender, registered, -⟩ := hregistered
  by_cases haccepted : ∃ envelope, (judge cfg n sender raw tick).2 = .accepted envelope
  · obtain ⟨envelope, verdict⟩ := haccepted
    exact Or.inr ⟨sender, envelope, registered, verdict⟩
  · exact Or.inl (frame_stopped registered (fun envelope verdict => haccepted ⟨envelope, verdict⟩)
      hstep)

/-- An accepted frame on the connection is a turn of its handler. -/
theorem frame_turn (joinable : ∀ r ∈ desired, isValidRoomId cfg.toConfig r = true)
    (cap : desired.length ≤ cfg.maxRoomsPerConnection) (h : Rejoining desired κ c n)
    {sender : Connection} {raw : Option Json} {tick : Tick} {envelope : PulseEventEnvelope}
    (registered : n.getConnection c = some sender)
    (verdict : (judge cfg n sender raw tick).2 = .accepted envelope)
    (asks : Asks desired κ envelope) (hstep : n.step cfg (.frame c raw tick) = some n') :
    ∃ reply, Turn desired κ c envelope n.memberships (n'.memberships, reply) ∧
      (envelope.correlationId = some κ → reply = none → n'.sockets = n.sockets) := by
  have hid := (h.wellFormed.registered registered).1
  rw [step_frame registered hstep, dispatchRawMessage_accepted verdict, ← judge_memberships cfg n
    sender raw tick, ← judge_sockets cfg n sender raw tick, ← hid]
  refine route_turn joinable cap ?_ asks
  rw [judge_memberships, hid]
  exact h.within

theorem Rejoining.frame (joinable : ∀ r ∈ desired, isValidRoomId cfg.toConfig r = true)
    (cap : desired.length ≤ cfg.maxRoomsPerConnection) (h : Rejoining desired κ c n)
    {raw : Option Json} {tick : Tick} (asks : n.AsksOn desired κ c (.frame c raw tick))
    (hstep : n.step cfg (.frame c raw tick) = some n') : Rejoining desired κ c n' := by
  have hregistered := hstep
  rw [step, Option.map_eq_some_iff] at hregistered
  obtain ⟨sender, registered, -⟩ := hregistered
  by_cases haccepted : ∃ envelope, (judge cfg n sender raw tick).2 = .accepted envelope
  · obtain ⟨envelope, verdict⟩ := haccepted
    have hreceived := (judge_accepted verdict).1
    have hasks := asks rfl sender registered envelope hreceived
    obtain ⟨reply, hturn, hsockets⟩ := frame_turn joinable cap h registered verdict hasks hstep
    have hanswers : ∀ ack ∈ (n'.sockets c).sent, ack.type.isAck = true →
        ack.correlationId = some κ → ack ∈ (n.sockets c).sent ∨
          envelope.correlationId = some κ := by
      intro ack hack htype hcorrelation
      refine (step_acknowledges h.wellFormed hstep hack htype).imp_right fun hacknowledges => ?_
      cases hacknowledges with
      | frame registered' received answers processed =>
          cases registered.symm.trans registered'
          cases hreceived.symm.trans received
          exact answers_named answers hasks.named hcorrelation
    refine h.turn hstep hasks.named hturn rfl (fun _ hk => hk) ?_ hanswers
    intro hnone ack hack htype hcorrelation
    rcases hanswers ack hack htype hcorrelation with hold | hmarked
    · exact hold
    · rwa [hsockets hmarked hnone] at hack
  · have hstopped : ∀ envelope, (judge cfg n sender raw tick).2 ≠ .accepted envelope :=
      fun envelope verdict => haccepted ⟨envelope, verdict⟩
    have hsame := frame_stopped registered hstopped hstep
    refine h.elsewhere hstep (by rw [hsame]) (by rw [hsame]; exact fun _ hk _ => hk) ?_
    exact fun ack hack htype hcorrelation =>
      silent_of_stopped h.wellFormed registered asks hstopped hstep hack htype hcorrelation

/-- An accepted marked request puts it under way. -/
theorem Rejoining.underway (joinable : ∀ r ∈ desired, isValidRoomId cfg.toConfig r = true)
    (cap : desired.length ≤ cfg.maxRoomsPerConnection) (h : Rejoining desired κ c n)
    {sender : Connection} {raw : Option Json} {tick : Tick} {envelope : PulseEventEnvelope}
    (registered : n.getConnection c = some sender)
    (verdict : (judge cfg n sender raw tick).2 = .accepted envelope)
    (asks : Asks desired κ envelope) (marked : envelope.correlationId = some κ)
    (hstep : n.step cfg (.frame c raw tick) = some n') : Underway desired κ c n' := by
  obtain ⟨reply, hturn, -⟩ := frame_turn joinable cap h registered verdict asks hstep
  cases reply with
  | none => exact Or.inr (hturn.silent marked rfl)
  | some reply => exact Or.inl (hturn.replied marked rfl)

/-- A handler joins and leaves rooms for its sender only, and suspends no other handler. -/
theorem kept_elsewhere (cfg : Config) (sender : Connection) (envelope : PulseEventEnvelope)
    (m₀ : Memberships) : Kept cfg sender envelope fun m =>
      (∀ c' ≠ sender.connectionId, m.rooms c' = m₀.rooms c') ∧
        ∀ k ∈ m₀.suspended, k ∈ m.suspended where
  join := by
    rintro m r - ⟨hrooms, hsuspended⟩
    refine ⟨fun c' hc => ?_, hsuspended⟩
    rw [join_rooms, if_neg hc]
    exact hrooms c' hc
  leave := by
    rintro m r ⟨hrooms, hsuspended⟩
    refine ⟨fun c' hc => ?_, hsuspended⟩
    rw [leave_rooms, if_neg hc]
    exact hrooms c' hc
  updateSeq := by
    rintro m ⟨hrooms, hsuspended⟩
    rw [updateSeq_eq]
    exact ⟨hrooms, hsuspended⟩
  suspend := fun _ _ _ _ _ h => ⟨h.1, fun k hk => List.mem_append_left _ (h.2 k hk)⟩

/-- The event is a frame on the connection, or resumes one of its handlers. -/
def Concerns (n : Node) (c : ConnectionId) : NodeEvent → Prop
  | .frame connectionId _ _ => connectionId = c
  | .resume i _ _ => ∃ k ∈ n.memberships.suspended[i]?, k.sender.connectionId = c
  | _ => False

theorem mem_eraseIdx_of_ne {l : List Suspended} {i : Nat} {k k' : Suspended}
    (hk : k ∈ l) (hk' : l[i]? = some k') (hne : k ≠ k') : k ∈ l.eraseIdx i := by
  obtain ⟨j, hj⟩ := List.mem_iff_getElem?.mp hk
  refine List.mem_eraseIdx_iff_getElem?.mpr ⟨j, ?_, hj⟩
  rintro rfl
  exact hne (Option.some.inj (hj.symm.trans hk'))

/-- Other events leave the rooms and the handlers of the connection alone. -/
theorem step_elsewhere (wf : n.memberships.WellFormed) (known : c ∈ n.memberships.known)
    (hstep : n.step cfg e = some n') (elsewhere : ¬ n.Concerns c e) :
    n'.memberships.rooms c = n.memberships.rooms c ∧
      (∀ k ∈ n.memberships.suspended, k.sender.connectionId = c →
        k ∈ n'.memberships.suspended) := by
  have heffect := step_effect hstep
  cases e with
  | frame connectionId raw tick =>
      obtain ⟨sender, registered, change⟩ := heffect
      have hid := (wf.registered registered).1
      have hkept := Kept.frameChange (fun envelope _ =>
        kept_elsewhere cfg.toConfig sender envelope n.memberships) ⟨fun _ _ => rfl, fun _ hk => hk⟩
        (fun _ _ _ h => h) change
      refine ⟨hkept.1 c ?_, fun k hk _ => hkept.2 k hk⟩
      rintro rfl
      exact elsewhere hid.symm
  | resume i online tick =>
      obtain ⟨k₀, hk₀, heq⟩ := heffect
      have hne : k₀.sender.connectionId ≠ c := fun hc => elsewhere ⟨k₀, hk₀, hc⟩
      have hkept := (kept_elsewhere cfg.toConfig k₀.sender k₀.envelope { n.memberships with
        suspended := n.memberships.suspended.eraseIdx i }).continueHandler
          ⟨fun _ _ => rfl, fun _ hk => hk⟩ online tick.reply
      rw [← heq] at hkept
      refine ⟨hkept.1 c hne.symm, fun k hk hc => hkept.2 k (mem_eraseIdx_of_ne hk hk₀ ?_)⟩
      rintro rfl
      exact hne hc
  | connect connection tick =>
      obtain ⟨hnew, heq⟩ := heffect
      rw [heq]
      refine ⟨Function.update_of_ne ?_ _ _, fun k hk _ => hk⟩
      rintro rfl
      exact hnew known
  | close connectionId =>
      rw [heffect.2]
      exact ⟨rfl, fun _ hk _ => hk⟩
  | redisMessage channel raw tick =>
      rw [heffect]
      exact ⟨rfl, fun _ hk _ => hk⟩
  | subscriptionSettled i accepted =>
      obtain ⟨s, s', -, -, heq⟩ := heffect
      rw [heq]
      exact ⟨rfl, fun _ hk _ => hk⟩
  | publishSettled =>
      obtain ⟨f, -, heq⟩ := heffect
      rw [heq]
      exact ⟨rfl, fun _ hk _ => hk⟩
  | link connected =>
      obtain ⟨f, -, heq⟩ := heffect
      rw [heq]
      exact ⟨rfl, fun _ hk _ => hk⟩
  | setPresenceManager =>
      rw [heffect]
      exact ⟨rfl, fun _ hk _ => hk⟩
  | transport connectionId readyState bufferedAmount sendFails =>
      rw [heffect]
      exact ⟨rfl, fun _ hk _ => hk⟩

/-- A handler of the connection goes on. -/
theorem resume_turn (joinable : ∀ r ∈ desired, isValidRoomId cfg.toConfig r = true)
    (cap : desired.length ≤ cfg.maxRoomsPerConnection) (h : Rejoining desired κ c n)
    {i : Nat} {online : Option (List UserId)} {tick : Tick} {k : Suspended}
    (hk : n.memberships.suspended[i]? = some k) (hc : k.sender.connectionId = c)
    (hstep : n.step cfg (.resume i online tick) = some n') :
    ∃ reply, Turn desired κ c k.envelope { n.memberships with
        suspended := n.memberships.suspended.eraseIdx i } (n'.memberships, reply) ∧
      (reply = none → n'.sockets = n.sockets) := by
  rw [step, hk, Option.map_some, Option.some.injEq] at hstep
  subst hstep
  rw [resume, runHandler_memberships]
  subst hc
  refine ⟨_, continueHandler_turn (m := { n.memberships with
    suspended := n.memberships.suspended.eraseIdx i }) joinable cap h.within
    (h.suspended k (List.mem_of_getElem? hk) rfl).2 online tick.reply, runHandler_silent⟩

theorem Rejoining.step (joinable : ∀ r ∈ desired, isValidRoomId cfg.toConfig r = true)
    (cap : desired.length ≤ cfg.maxRoomsPerConnection) (h : Rejoining desired κ c n)
    (asks : n.AsksOn desired κ c e) (hstep : n.step cfg e = some n') :
    Rejoining desired κ c n' := by
  by_cases hconcerns : n.Concerns c e
  · cases e with
    | frame connectionId raw tick =>
        obtain rfl : connectionId = c := hconcerns
        exact h.frame joinable cap asks hstep
    | resume i online tick =>
        obtain ⟨k, hk, hc⟩ := hconcerns
        obtain ⟨reply, hturn, hsockets⟩ := resume_turn joinable cap h hk hc hstep
        have hnamed := (h.suspended k (List.mem_of_getElem? hk) hc).1
        refine h.turn hstep hnamed hturn rfl (fun k' hk' => List.eraseIdx_subset hk') ?_ ?_
        · intro hnone ack hack _ _
          rwa [hsockets hnone] at hack
        · intro ack hack htype hcorrelation
          refine (step_acknowledges h.wellFormed hstep hack htype).imp_right fun hacknowledges => ?_
          cases hacknowledges with
          | resume suspended sender answers =>
              cases suspended.symm.trans hk
              exact answers_named answers hnamed hcorrelation
    | _ => exact hconcerns.elim
  · obtain ⟨hrooms, -⟩ := step_elsewhere h.wellFormed h.known hstep hconcerns
    refine h.elsewhere hstep hrooms ?_ ?_
    · intro k hk hc
      refine (step_suspended hstep hk).resolve_right fun hsuspends => hconcerns ?_
      cases hsuspends with
      | frame registered received request =>
          exact (h.wellFormed.registered registered).1.symm.trans hc
      | resume suspended sender envelope => exact ⟨_, suspended, sender ▸ hc⟩
    · intro ack hack htype hcorrelation
      rcases step_acknowledges h.wellFormed hstep hack htype with hold | hacknowledges
      · exact (socketsAt_sent n e c).subset hold
      · refine absurd ?_ hconcerns
        cases hacknowledges with
        | frame registered received answers processed => exact rfl
        | resume suspended sender answers => exact ⟨_, suspended, sender⟩

theorem Underway.step (joinable : ∀ r ∈ desired, isValidRoomId cfg.toConfig r = true)
    (cap : desired.length ≤ cfg.maxRoomsPerConnection) (h : Rejoining desired κ c n)
    (underway : Underway desired κ c n) (asks : n.AsksOn desired κ c e)
    (hstep : n.step cfg e = some n') : Underway desired κ c n' := by
  by_cases hconcerns : n.Concerns c e
  · cases e with
    | frame connectionId raw tick =>
        obtain rfl : connectionId = c := hconcerns
        obtain hsame | ⟨sender, envelope, registered, verdict⟩ := frame_cases hstep
        · rw [Underway, hsame]
          exact underway
        · have hasks := asks rfl sender registered envelope (judge_accepted verdict).1
          obtain ⟨reply, hturn, -⟩ := frame_turn joinable cap h registered verdict hasks hstep
          exact underway.turn hturn rfl fun _ hk => Or.inl hk
    | resume i online tick =>
        obtain ⟨k, hk, hc⟩ := hconcerns
        obtain ⟨reply, hturn, -⟩ := resume_turn joinable cap h hk hc hstep
        refine underway.turn hturn rfl fun k' hk' => ?_
        by_cases heq : k' = k
        · exact Or.inr (by rw [heq])
        · exact Or.inl (mem_eraseIdx_of_ne hk' hk heq)
    | _ => exact hconcerns.elim
  · obtain ⟨hrooms, hsuspended⟩ := step_elsewhere h.wellFormed h.known hstep hconcerns
    rcases underway with hrestored | ⟨k, hk, hc, hmarked⟩
    · refine Or.inl fun r hr => ?_
      rw [hrooms]
      exact hrestored r hr
    · exact Or.inr ⟨k, hsuspended k hk hc, hc, hmarked⟩

/-- No room is left. -/
theorem Rejoining.grows (joinable : ∀ r ∈ desired, isValidRoomId cfg.toConfig r = true)
    (cap : desired.length ≤ cfg.maxRoomsPerConnection) (h : Rejoining desired κ c n)
    (asks : n.AsksOn desired κ c e) (hstep : n.step cfg e = some n') :
    ∀ r ∈ n.memberships.rooms c, r ∈ n'.memberships.rooms c := by
  by_cases hconcerns : n.Concerns c e
  · cases e with
    | frame connectionId raw tick =>
        obtain rfl : connectionId = c := hconcerns
        obtain hsame | ⟨sender, envelope, registered, verdict⟩ := frame_cases hstep
        · rw [hsame]
          exact fun _ hr => hr
        · have hasks := asks rfl sender registered envelope (judge_accepted verdict).1
          obtain ⟨reply, hturn, -⟩ := frame_turn joinable cap h registered verdict hasks hstep
          exact hturn.grows
    | resume i online tick =>
        obtain ⟨k, hk, hc⟩ := hconcerns
        obtain ⟨reply, hturn, -⟩ := resume_turn joinable cap h hk hc hstep
        exact hturn.grows
    | _ => exact hconcerns.elim
  · obtain ⟨hrooms, -⟩ := step_elsewhere h.wellFormed h.known hstep hconcerns
    rw [hrooms]
    exact fun _ hr => hr

/-- A registered connection stays so until it closes. -/
theorem step_registered (hstep : n.step cfg e = some n') (open' : e ≠ .close c)
    (registered : c ∈ n.memberships.hub.connectionManager.connections.keys) :
    c ∈ n'.memberships.hub.connectionManager.connections.keys := by
  have heffect := step_effect hstep
  cases e with
  | connect connection tick =>
      rw [heffect.2]
      exact OrderedMap.mem_keys_set.mpr (Or.inr registered)
  | frame connectionId raw tick =>
      obtain ⟨sender, -, change⟩ := heffect
      rw [change.onlyConcerns.connectionManager]
      exact registered
  | resume i online tick =>
      obtain ⟨k, -, heq⟩ := heffect
      rw [heq, (continueHandler_onlyConcerns cfg.toConfig n.memberships i online tick.reply
        k).connectionManager]
      exact registered
  | close connectionId =>
      rw [heffect.2]
      refine mem_keys_close.mpr ⟨?_, registered⟩
      rintro rfl
      exact open' rfl
  | redisMessage channel raw tick =>
      rw [heffect]
      exact registered
  | subscriptionSettled i accepted =>
      obtain ⟨s, s', -, -, heq⟩ := heffect
      rw [heq]
      exact registered
  | publishSettled =>
      obtain ⟨f, -, heq⟩ := heffect
      rw [heq]
      exact registered
  | link connected =>
      obtain ⟨f, -, heq⟩ := heffect
      rw [heq]
      exact registered
  | setPresenceManager =>
      rw [heffect]
      exact registered
  | transport connectionId readyState bufferedAmount sendFails =>
      rw [heffect]
      exact registered

/-- A new connection is in no room, and nothing was asked on it. -/
theorem rejoining_connect {connection : Connection} {tick : Tick} (wf : n.memberships.WellFormed)
    (hstep : n.step cfg (.connect connection tick) = some n') :
    Rejoining desired κ connection.connectionId n' := by
  obtain ⟨hnew, hm⟩ := step_effect hstep
  have hrooms : n'.memberships.rooms connection.connectionId = ∅ := by
    rw [hm]
    exact Function.update_self _ _ _
  refine ⟨wellFormed_step cfg n _ n' wf hstep, ?_, ?_, ?_, ?_⟩
  · rw [hm]
    exact OrderedSet.mem_insert.mpr (Or.inr rfl)
  · rw [hrooms]
    exact fun r hr => absurd hr (OrderedSet.not_mem_empty r)
  · intro k hk hc
    rw [hm] at hk
    exact absurd (hc ▸ wf.suspended_known k hk) hnew
  · intro ack hack htype _
    rcases step_acknowledges wf hstep hack htype with hold | hacknowledges
    · rw [socketsAt, Function.update_self] at hold
      exact absurd hold List.not_mem_nil
    · cases hacknowledges

end Node

end Pulse
