import Pulse.Core.Acceptance
import Pulse.Core.BatchJoin

/-!
# Sequence numbers of a connection

A frame is checked against `lastSeenSeq` when it arrives. A message writes its
number in the same piece of work, a join or leave only after its presence call has
answered, when later frames may have been accepted. The numbers never decrease in
a run exactly if no handler that goes on late writes a lower number than the
current one.
-/

namespace Pulse

open Collections Js Transition MessageDispatcher

namespace Memberships

/-- The number which a suspended handler is about to write when it goes on. -/
def pendingSeq (cfg : Config) (m : Memberships) : Suspended → Option Nat
  | .addRoomMember _ envelope _ => envelope.seq
  | .getRoomRoster _ _ _ => none
  | .batchAddRoomMember sender envelope batch =>
      match m.nextJoin cfg sender.connectionId batch with
      | none => envelope.seq
      | some _ => none
  | .removeRoomMember _ envelope _ => envelope.seq

/-- A handler that goes on writes no lower number than the current one. -/
def ResumesInOrder (cfg : Config) (m : Memberships) : NodeEvent → Prop
  | .resume i _ _ => ∀ k seq, m.suspended[i]? = some k → m.pendingSeq cfg k = some seq →
      m.lastSeenSeq k.sender.connectionId ≤ seq
  | _ => True

/-- The number of no connection decreases. -/
def SeqGrows (m m' : Memberships) : Prop :=
  ∀ c ∈ m.known, m.lastSeenSeq c ≤ m'.lastSeenSeq c

theorem SeqGrows.of_eq {m m' : Memberships} (h : m'.lastSeenSeq = m.lastSeenSeq) :
    SeqGrows m m' := by
  intro c _
  rw [h]

theorem updateSeq_lastSeenSeq (m : Memberships) (c c' : ConnectionId)
    (envelope : PulseEventEnvelope) :
    (m.updateSeq c envelope).lastSeenSeq c' =
      if c' = c then envelope.seq.getD (m.lastSeenSeq c') else m.lastSeenSeq c' := by
  rw [updateSeq]
  cases envelope.seq with
  | none => simp
  | some seq => simp [Function.update_apply]

theorem SeqGrows.updateSeq {m : Memberships} {sender : Connection}
    {envelope : PulseEventEnvelope} (inOrder : m.InOrder sender envelope) :
    SeqGrows m (m.updateSeq sender.connectionId envelope) := by
  intro c _
  rw [updateSeq_lastSeenSeq]
  split
  · rename_i hc
    rw [hc]
    cases hseq : envelope.seq with
    | none => exact Nat.le_refl _
    | some seq => exact inOrder seq hseq
  · exact Nat.le_refl _

/-- The pieces of a handler write no number but that of its frame. -/
theorem kept_lastSeenSeq (cfg : Config) (sender : Connection) (envelope : PulseEventEnvelope)
    (m₀ : Memberships) : Kept cfg sender envelope fun m =>
      m.lastSeenSeq = m₀.lastSeenSeq ∨
        m.lastSeenSeq = (m₀.updateSeq sender.connectionId envelope).lastSeenSeq where
  join := fun _ _ _ h => h
  leave := fun _ _ h => h
  updateSeq := by
    intro m h
    refine Or.inr (funext fun c => ?_)
    rw [updateSeq_lastSeenSeq, updateSeq_lastSeenSeq]
    by_cases hc : c = sender.connectionId
    · rw [if_pos hc, if_pos hc]
      rcases h with h | h
      · rw [h]
      · rw [h, updateSeq_lastSeenSeq, if_pos hc]
        cases envelope.seq <;> rfl
    · rw [if_neg hc, if_neg hc]
      rcases h with h | h
      · rw [h]
      · rw [h, updateSeq_lastSeenSeq, if_neg hc]
  suspend := fun _ _ _ _ _ h => h

/-- A frame in order never lowers a number. -/
theorem FrameChange.seqGrows {cfg : Config} {sender : Connection} {m m' : Memberships}
    (change : FrameChange cfg sender m m') : SeqGrows m m' := by
  have hwrite : ∀ envelope, m.InOrder sender envelope →
      (m'.lastSeenSeq = m.lastSeenSeq ∨
        m'.lastSeenSeq = (m.updateSeq sender.connectionId envelope).lastSeenSeq) →
      SeqGrows m m' := by
    rintro envelope inOrder (h | h)
    · exact .of_eq h
    · intro c hc
      rw [h]
      exact SeqGrows.updateSeq inOrder c hc
  cases change with
  | rejected => exact .of_eq rfl
  | seq envelope inOrder f _ => exact hwrite envelope inOrder (Or.inr rfl)
  | join envelope inOrder fresh =>
      exact hwrite envelope inOrder
        ((kept_lastSeenSeq cfg sender envelope m).handleRoomJoin (Or.inl rfl) fresh)
  | batchJoin envelope inOrder fresh =>
      exact hwrite envelope inOrder
        ((kept_lastSeenSeq cfg sender envelope m).handleRoomBatchJoin (Or.inl rfl) fresh)
  | leave envelope inOrder fresh =>
      exact hwrite envelope inOrder
        ((kept_lastSeenSeq cfg sender envelope m).handleRoomLeave (Or.inl rfl) fresh)

/-- What a handler that goes on writes. -/
theorem resume_lastSeenSeq {cfg : Config} {m : Memberships} (wf : m.WellFormed) {i : Nat}
    {k : Suspended} (hk : m.suspended[i]? = some k) (online : Option (List UserId))
    (fresh : Fresh) (c : ConnectionId) :
    (continueHandler cfg { m with suspended := m.suspended.eraseIdx i } online fresh
        k).1.lastSeenSeq c =
      if c = k.sender.connectionId then (m.pendingSeq cfg k).getD (m.lastSeenSeq c)
      else m.lastSeenSeq c := by
  have hupdate : ∀ (sender : ConnectionId) (envelope : PulseEventEnvelope),
      (({ m with suspended := m.suspended.eraseIdx i } : Memberships).updateSeq sender
        envelope).lastSeenSeq c =
          if c = sender then envelope.seq.getD (m.lastSeenSeq c) else m.lastSeenSeq c :=
    fun sender envelope => updateSeq_lastSeenSeq _ sender c envelope
  cases k with
  | addRoomMember sender envelope roomId =>
      simp only [continueHandler, roomJoinAdded]
      split
      · exact hupdate _ _
      · exact hupdate _ _
  | getRoomRoster sender envelope roomId =>
      simp [continueHandler, pendingSeq]
  | batchAddRoomMember sender envelope batch =>
      rw [wf.resume_batch hk online fresh]
      simp only [pendingSeq, Suspended.sender]
      cases m.nextJoin cfg sender.connectionId batch with
      | none => exact hupdate _ _
      | some next =>
          by_cases hc : c = sender.connectionId <;> simp [suspend, join, hc]
  | removeRoomMember sender envelope roomId => exact hupdate _ _

/-- Per event: exactly `ResumesInOrder` keeps the numbers from decreasing. -/
theorem seqGrows_effect_iff {cfg : Config} {m m' : Memberships} {e : NodeEvent}
    (wf : m.WellFormed) (effect : Effect cfg m m' e) :
    SeqGrows m m' ↔ ResumesInOrder cfg m e := by
  cases e with
  | connect connection tick =>
      obtain ⟨fresh, rfl⟩ := effect
      refine iff_of_true ?_ trivial
      intro c hc
      have hne : c ≠ connection.connectionId := fun heq => fresh (heq ▸ hc)
      simp [connect, hne]
  | frame connectionId raw tick =>
      obtain ⟨sender, -, change⟩ := effect
      exact iff_of_true change.seqGrows trivial
  | resume i online tick =>
      obtain ⟨k, hk, rfl⟩ := effect
      have hknown := wf.suspended_known k (List.mem_of_getElem? hk)
      constructor
      · intro hgrows k' seq hk' hpending
        rw [hk, Option.some.injEq] at hk'
        subst hk'
        have hle := hgrows _ hknown
        rwa [resume_lastSeenSeq wf hk, if_pos rfl, hpending] at hle
      · intro hresumes c _
        rw [resume_lastSeenSeq wf hk]
        split
        · rename_i hc
          cases hpending : m.pendingSeq cfg k with
          | none => exact Nat.le_refl _
          | some seq =>
              rw [hc]
              exact hresumes k seq hk hpending
        · exact Nat.le_refl _
  | close connectionId =>
      obtain ⟨-, rfl⟩ := effect
      exact iff_of_true (.of_eq rfl) trivial
  | redisMessage channel raw tick =>
      rw [effect]
      exact iff_of_true (.of_eq rfl) trivial
  | subscriptionSettled i accepted =>
      obtain ⟨s, s', -, -, rfl⟩ := effect
      exact iff_of_true (.of_eq rfl) trivial
  | publishSettled =>
      obtain ⟨f, -, rfl⟩ := effect
      exact iff_of_true (.of_eq rfl) trivial
  | link connected =>
      obtain ⟨f, -, rfl⟩ := effect
      exact iff_of_true (.of_eq rfl) trivial
  | setPresenceManager =>
      rw [effect]
      exact iff_of_true (.of_eq rfl) trivial
  | transport connectionId readyState bufferedAmount sendFails =>
      rw [effect]
      exact iff_of_true (.of_eq rfl) trivial

end Memberships

namespace MessageDispatcher

open Memberships

/-- An accepted message is in order, and writes its number at once. -/
theorem acceptedMessage_spec {cfg : ServerConfig} {n : Node} {sender : Connection}
    {raw : Option Json} {tick : Tick} {envelope : PulseEventEnvelope}
    (h : acceptedMessage cfg n sender raw tick = some envelope) :
    n.memberships.InOrder sender envelope ∧
      (dispatchRawMessage cfg n sender raw tick).memberships.lastSeenSeq =
        (n.memberships.updateSeq sender.connectionId envelope).lastSeenSeq := by
  obtain ⟨hverdict, hdeliverable⟩ := acceptedMessage_eq_some.mp h
  refine ⟨(judge_accepted hverdict).2, ?_⟩
  have hmemberships := judge_memberships cfg n sender raw tick
  rw [dispatchRawMessage_accepted hverdict, ← hmemberships]
  rw [← hmemberships] at hdeliverable
  rcases hdeliverable with htype | ⟨htype, hmember⟩
  · obtain ⟨f, -, hf⟩ := handleDirectMessage_accepted cfg (judge cfg n sender raw tick).1 sender
      envelope tick
    simp only [route, htype, hf]
    rfl
  · obtain ⟨f, -, hf⟩ := handleRoomMessage_accepted cfg (judge cfg n sender raw tick).1 sender
      envelope tick hmember
    simp only [route, htype, hf]
    rfl

/-- A handler leaves the numbers alone, or writes that of its frame. -/
theorem route_lastSeenSeq (cfg : ServerConfig) (n : Node) (sender : Connection)
    (envelope : PulseEventEnvelope) (tick : Tick) :
    (route cfg n sender envelope tick).memberships.lastSeenSeq = n.memberships.lastSeenSeq ∨
      (route cfg n sender envelope tick).memberships.lastSeenSeq =
        (n.memberships.updateSeq sender.connectionId envelope).lastSeenSeq := by
  have hkept := kept_lastSeenSeq cfg.toConfig sender envelope n.memberships
  rw [route]
  split
  · rw [runHandler_memberships]
    exact hkept.handleRoomJoin (Or.inl rfl) _
  · rw [runHandler_memberships]
    exact hkept.handleRoomBatchJoin (Or.inl rfl) _
  · rw [runHandler_memberships]
    exact hkept.handleRoomLeave (Or.inl rfl) _
  · by_cases member : envelope.targetRoomId.getD "" ∈ n.memberships.rooms sender.connectionId
    · obtain ⟨f, -, hf⟩ := handleRoomMessage_accepted cfg n sender envelope tick member
      rw [hf]
      exact Or.inr rfl
    · simp only [handleRoomMessage, member, not_false_eq_true, if_true,
        Node.sendReply_memberships]
      exact Or.inl trivial
  · obtain ⟨f, -, hf⟩ := handleDirectMessage_accepted cfg n sender envelope tick
    rw [hf]
    exact Or.inr rfl
  · rw [handlePing, Node.sendReply_memberships]
    exact Or.inr rfl
  · exact Or.inr rfl
  · exact Or.inl rfl

/-- A frame leaves the numbers alone, or writes its own to that of its connection. -/
theorem dispatchRawMessage_lastSeenSeq {cfg : ServerConfig} {n : Node} {sender : Connection}
    {raw : Option Json} {tick : Tick} (c : ConnectionId) :
    (dispatchRawMessage cfg n sender raw tick).memberships.lastSeenSeq c =
        n.memberships.lastSeenSeq c ∨
      c = sender.connectionId ∧ ∃ envelope, (receive n sender raw tick).2 = .ok envelope ∧
        envelope.seq =
          some ((dispatchRawMessage cfg n sender raw tick).memberships.lastSeenSeq c) := by
  refine answer_induction (P := fun m => m.lastSeenSeq c = n.memberships.lastSeenSeq c ∨
    c = sender.connectionId ∧ ∃ envelope, (receive n sender raw tick).2 = .ok envelope ∧
      envelope.seq = some (m.lastSeenSeq c)) ?_ ?_
  · rw [judge_memberships]
    exact Or.inl rfl
  · intro envelope hverdict
    obtain h | h := route_lastSeenSeq cfg (judge cfg n sender raw tick).1 sender envelope tick
    · rw [h, judge_memberships]
      exact Or.inl rfl
    · rw [h, judge_memberships, updateSeq_lastSeenSeq]
      by_cases hc : c = sender.connectionId
      · rw [if_pos hc]
        cases hseq : envelope.seq with
        | none => exact Or.inl (by rw [Option.getD_none])
        | some seq => exact Or.inr ⟨hc, envelope, (judge_accepted hverdict).1, hseq⟩
      · rw [if_neg hc]
        exact Or.inl rfl

/-- The accepted messages of an event which carry a number, as connection and number. -/
def acceptedSeqs (cfg : ServerConfig) (n : Node) : NodeEvent → List (ConnectionId × Nat)
  | .frame connectionId raw tick =>
      (((n.getConnection connectionId).bind fun sender =>
        acceptedMessage cfg n sender raw tick).bind fun envelope =>
          envelope.seq.map fun seq => (connectionId, seq)).toList
  | _ => []

/-- The numbers accepted on each connection do not decrease. -/
def AcceptedInOrder (log : List (ConnectionId × Nat)) : Prop :=
  log.Pairwise fun earlier later => earlier.1 = later.1 → earlier.2 ≤ later.2

/-- No number in the log is above the current one of its connection. -/
structure LogBounded (s : Node × List (ConnectionId × Nat)) : Prop where
  wellFormed : s.1.memberships.WellFormed
  known : ∀ a ∈ s.2, a.1 ∈ s.1.memberships.known
  bounded : ∀ a ∈ s.2, a.2 ≤ s.1.memberships.lastSeenSeq a.1
  inOrder : AcceptedInOrder s.2

theorem mem_acceptedSeqs {cfg : ServerConfig} {n n' : Node} {e : NodeEvent}
    (wf : n.memberships.WellFormed) (hstep : n.step cfg e = some n') {a : ConnectionId × Nat}
    (ha : a ∈ acceptedSeqs cfg n e) :
    a.1 ∈ n.memberships.known ∧ n.memberships.lastSeenSeq a.1 ≤ a.2 ∧
      n'.memberships.lastSeenSeq a.1 = a.2 := by
  cases e with
  | frame connectionId raw tick =>
      rw [acceptedSeqs, Option.mem_toList, Option.bind_eq_some_iff] at ha
      obtain ⟨envelope, henvelope, hseq⟩ := ha
      rw [Option.bind_eq_some_iff] at henvelope
      obtain ⟨sender, hsender, hmessage⟩ := henvelope
      rw [Option.map_eq_some_iff] at hseq
      obtain ⟨seq, hseq, rfl⟩ := hseq
      obtain ⟨hid, -, hknown⟩ := wf.registered hsender
      obtain ⟨hord, hwrites⟩ := acceptedMessage_spec hmessage
      rw [Node.step, hsender, Option.map_some, Option.some.injEq] at hstep
      refine ⟨hknown, ?_, ?_⟩
      · rw [← hid]
        exact hord seq hseq
      · rw [← hstep, hwrites, updateSeq_lastSeenSeq, if_pos hid.symm, hseq]
        rfl
  | _ => simp [acceptedSeqs] at ha

/-- The acceptance log of one transition: it stays in order and bounded as long as no
number decreases. -/
theorem LogBounded.step {cfg : ServerConfig} {s : Node × List (ConnectionId × Nat)}
    {n' : Node} {e : NodeEvent} (h : LogBounded s) (hstep : s.1.step cfg e = some n')
    (hgrows : SeqGrows s.1.memberships n'.memberships) :
    LogBounded (n', s.2 ++ acceptedSeqs cfg s.1 e) where
  wellFormed := Node.wellFormed_step cfg s.1 e n' h.wellFormed hstep
  known := by
    intro a ha
    refine (Node.step_effect hstep).known_mono ?_
    rcases List.mem_append.mp ha with ha | ha
    · exact h.known a ha
    · exact (mem_acceptedSeqs h.wellFormed hstep ha).1
  bounded := by
    intro a ha
    rcases List.mem_append.mp ha with ha | ha
    · exact Nat.le_trans (h.bounded a ha) (hgrows a.1 (h.known a ha))
    · exact Nat.le_of_eq (mem_acceptedSeqs h.wellFormed hstep ha).2.2.symm
  inOrder := by
    refine List.pairwise_append.mpr ⟨h.inOrder, ?_, ?_⟩
    · -- One event accepts at most one message.
      have hlength : (acceptedSeqs cfg s.1 e).length ≤ 1 := by
        cases e with
        | frame connectionId raw tick =>
            rw [acceptedSeqs]
            exact Option.length_toList_le
        | _ => exact Nat.zero_le _
      match acceptedSeqs cfg s.1 e, hlength with
      | [], _ => exact List.Pairwise.nil
      | [a], _ => exact List.pairwise_singleton _ a
    · intro a ha b hb heq
      have hb' := mem_acceptedSeqs h.wellFormed hstep hb
      rw [← heq] at hb'
      exact Nat.le_trans (h.bounded a ha) hb'.2.1

end MessageDispatcher

namespace Node

open Memberships

/-- Where the number of a connection comes from: its next frame, or a frame whose handler
was suspended. -/
inductive WritesSeq (n : Node) (c : ConnectionId) (seq : Nat) : NodeEvent → Prop
  | frame {connectionId : ConnectionId} {raw : Option Json} {tick : Tick} {sender : Connection}
      {envelope : PulseEventEnvelope} (registered : n.getConnection connectionId = some sender)
      (sends : c = sender.connectionId) (received : (receive n sender raw tick).2 = .ok envelope)
      (numbered : envelope.seq = some seq) : WritesSeq n c seq (.frame connectionId raw tick)
  | resume {i : Nat} {online : Option (List UserId)} {tick : Tick} {k : Suspended}
      (suspended : n.memberships.suspended[i]? = some k) (sends : c = k.sender.connectionId)
      (numbered : k.envelope.seq = some seq) : WritesSeq n c seq (.resume i online tick)

theorem pendingSeq_envelope {cfg : Config} {m : Memberships} {k : Suspended} {seq : Nat}
    (h : m.pendingSeq cfg k = some seq) : k.envelope.seq = some seq := by
  cases k with
  | addRoomMember sender envelope roomId => exact h
  | getRoomRoster sender envelope roomId => cases h
  | batchAddRoomMember sender envelope batch =>
      rw [pendingSeq] at h
      split at h
      · exact h
      · cases h
  | removeRoomMember sender envelope roomId => exact h

/-- The inversion lemma of the event loop, for the number of a connection. -/
theorem step_lastSeenSeq {cfg : ServerConfig} {n n' : Node} {e : NodeEvent}
    (wf : n.memberships.WellFormed) (h : n.step cfg e = some n') (c : ConnectionId) :
    n'.memberships.lastSeenSeq c = n.memberships.lastSeenSeq c ∨
      (∃ connection tick, e = .connect connection tick ∧ c = connection.connectionId) ∨
        WritesSeq n c (n'.memberships.lastSeenSeq c) e := by
  have heffect := step_effect h
  cases e with
  | connect connection tick =>
      by_cases hc : c = connection.connectionId
      · exact Or.inr (Or.inl ⟨connection, tick, rfl, hc⟩)
      · refine Or.inl ?_
        rw [heffect.2]
        simp [Memberships.connect, hc]
  | frame connectionId raw tick =>
      rw [step, Option.map_eq_some_iff] at h
      obtain ⟨sender, hsender, rfl⟩ := h
      obtain hsame | ⟨hc, envelope, hreceived, hseq⟩ :=
        dispatchRawMessage_lastSeenSeq c
      · exact Or.inl hsame
      · exact Or.inr (Or.inr (.frame hsender hc hreceived hseq))
  | resume i online tick =>
      obtain ⟨k, hk, heq⟩ := heffect
      rw [heq, resume_lastSeenSeq wf hk]
      by_cases hc : c = k.sender.connectionId
      · rw [if_pos hc]
        cases hpending : n.memberships.pendingSeq cfg.toConfig k with
        | none => exact Or.inl rfl
        | some seq => exact Or.inr (Or.inr (.resume hk hc (pendingSeq_envelope hpending)))
      · rw [if_neg hc]
        exact Or.inl rfl
  | close connectionId =>
      rw [heffect.2]
      exact Or.inl rfl
  | redisMessage channel raw tick =>
      rw [heffect]
      exact Or.inl rfl
  | subscriptionSettled i accepted =>
      obtain ⟨s, s', -, -, heq⟩ := heffect
      rw [heq]
      exact Or.inl rfl
  | publishSettled =>
      obtain ⟨f, -, heq⟩ := heffect
      rw [heq]
      exact Or.inl rfl
  | link connected =>
      obtain ⟨f, -, heq⟩ := heffect
      rw [heq]
      exact Or.inl rfl
  | setPresenceManager =>
      rw [heffect]
      exact Or.inl rfl
  | transport connectionId readyState bufferedAmount sendFails =>
      rw [heffect]
      exact Or.inl rfl

/-- Over whole runs: the numbers of all connections grow and messages are accepted in the
order of their numbers, if and only if no suspended handler goes on with a number that
was overtaken. -/
theorem sequence_monotone_iff (cfg : ServerConfig) (redis : Option Bool) (presence : Bool)
    (es : List NodeEvent) :
    EveryStep (logging (step cfg) (acceptedSeqs cfg))
        (fun s _ t => SeqGrows s.1.memberships t.1.memberships ∧ AcceptedInOrder t.2)
        (initial redis presence, []) es ↔
      EveryStep (step cfg) (fun n e _ => ResumesInOrder cfg.toConfig n.memberships e)
        (initial redis presence) es := by
  rw [← everyStep_logging_iff (acceptedSeqs cfg) []]
  have hinitial : LogBounded (initial redis presence, []) :=
    { wellFormed := wellFormed_initial redis presence
      known := fun _ ha => absurd ha List.not_mem_nil
      bounded := fun _ ha => absurd ha List.not_mem_nil
      inOrder := List.Pairwise.nil }
  have hstepped : ∀ (s : Node × List (ConnectionId × Nat)) (e : NodeEvent)
      (t : Node × List (ConnectionId × Nat)),
      logging (step cfg) (acceptedSeqs cfg) s e = some t →
        s.1.step cfg e = some t.1 ∧ t = (t.1, s.2 ++ acceptedSeqs cfg s.1 e) := by
    intro s e t ht
    rw [logging, Option.map_eq_some_iff] at ht
    obtain ⟨n', hn', rfl⟩ := ht
    exact ⟨hn', rfl⟩
  refine everyStep_iff (G := LogBounded) ?same ?keep hinitial es
  case same =>
    intro s e t h ht
    obtain ⟨hstep, heq⟩ := hstepped s e t ht
    rw [← seqGrows_effect_iff h.wellFormed (step_effect hstep)]
    constructor
    · exact fun hboth => hboth.1
    · intro hgrows
      refine ⟨hgrows, ?_⟩
      rw [heq]
      exact (h.step hstep hgrows).inOrder
  case keep =>
    intro s e t h ht hresumes
    obtain ⟨hstep, heq⟩ := hstepped s e t ht
    rw [heq]
    exact h.step hstep ((seqGrows_effect_iff h.wellFormed (step_effect hstep)).mpr hresumes)

/-- A join with number 1 is suspended, a message with number 5 is accepted, and the join
goes on: the number is 1 again. -/
theorem sequence_decreases :
    ¬ ∀ cfg redis presence es,
      EveryStep (logging (step cfg) (acceptedSeqs cfg))
        (fun s _ t => SeqGrows s.1.memberships t.1.memberships ∧ AcceptedInOrder t.2)
        (initial redis presence, []) es := by
  let cfg : ServerConfig := { instanceId := "pulse-node-1", idempotency := { digest := id } }
  let tick : Tick := ⟨1, "0197-f", "0197-r"⟩
  let es : List NodeEvent :=
    [.connect { connectionId := "c", userId := "u" } tick,
      .frame "c" (some (roomFrame .roomJoin "a" (some 1))) tick,
      .frame "c" (some (roomFrame .roomMessage "a" (some 5))) tick]
  let late : NodeEvent := .resume 0 none tick
  let numbers (n : Node) : Option (Nat × Nat) := (n.step cfg late).map fun n' =>
    (n.memberships.lastSeenSeq "c", n'.memberships.lastSeenSeq "c")
  intro h
  have hgrows : EveryStep (step cfg) (fun n _ n' => SeqGrows n.memberships n'.memberships)
      (initial none true) (es ++ [late]) :=
    (everyStep_logging_iff _ _).mp ((h cfg none true (es ++ [late])).mono fun _ _ _ hboth =>
      hboth.1)
  have hrun : ((run (step cfg) (initial none true) es).bind numbers) = some (5, 1) := by
    decide +kernel
  have hknown : (run (step cfg) (initial none true) es).all
      (fun n => decide ("c" ∈ n.memberships.known)) = true := by
    decide +kernel
  obtain ⟨n, hn, hnumbers⟩ := Option.bind_eq_some_iff.mp hrun
  obtain ⟨n', hstep, heq⟩ := Option.map_eq_some_iff.mp hnumbers
  rw [hn, Option.all_some, decide_eq_true_eq] at hknown
  have hle := hgrows.last hn hstep "c" hknown
  rw [Prod.mk.injEq] at heq
  rw [heq.1, heq.2] at hle
  exact absurd hle (by decide)

end Node

end Pulse
