import Pulse.Client.Session

/-!
# Numbers of the transmitted frames

What an event of a session hands to its sockets: nothing but further frames for the
current one. Unless a timer transmits a frame again, they are numbered in turn, each
above all that went over the socket before.
-/

namespace Pulse

open Collections Js

/-- Frames with rising numbers above `lo` and up to `hi`. -/
structure Rising (lo hi : Nat) (frames : List PulseEventEnvelope) : Prop where
  le : lo ≤ hi
  numbered : ∀ f ∈ frames, ∃ seq, f.seq = some seq ∧ lo < seq ∧ seq ≤ hi
  pairwise : frames.Pairwise fun f g => ∀ a ∈ f.seq, ∀ b ∈ g.seq, a < b

namespace Rising

variable {lo mid hi : Nat} {frames frames' : List PulseEventEnvelope}

theorem nil (h : lo ≤ hi) : Rising lo hi [] :=
  ⟨h, fun _ hf => absurd hf List.not_mem_nil, List.Pairwise.nil⟩

theorem singleton {f : PulseEventEnvelope} (h : lo < hi) (numbered : f.seq = some hi) :
    Rising lo hi [f] := by
  refine ⟨Nat.le_of_lt h, ?_, List.pairwise_singleton _ f⟩
  intro g hg
  rw [List.mem_singleton.mp hg]
  exact ⟨hi, numbered, h, Nat.le_refl hi⟩

theorem append (h : Rising lo mid frames) (h' : Rising mid hi frames') :
    Rising lo hi (frames ++ frames') := by
  refine ⟨Nat.le_trans h.le h'.le, ?_, List.pairwise_append.mpr ⟨h.pairwise, h'.pairwise, ?_⟩⟩
  · intro f hf
    rcases List.mem_append.mp hf with hf | hf
    · obtain ⟨seq, hseq, hlo, hmid⟩ := h.numbered f hf
      exact ⟨seq, hseq, hlo, Nat.le_trans hmid h'.le⟩
    · obtain ⟨seq, hseq, hmid, hhi⟩ := h'.numbered f hf
      exact ⟨seq, hseq, Nat.lt_of_le_of_lt h.le hmid, hhi⟩
  · intro f hf g hg a ha b hb
    obtain ⟨seq, hseq, -, hmid⟩ := h.numbered f hf
    obtain ⟨seq', hseq', hmid', -⟩ := h'.numbered g hg
    cases hseq.symm.trans ha
    cases hseq'.symm.trans hb
    exact Nat.lt_of_le_of_lt hmid hmid'

end Rising

namespace PulseClientSession

/-- The frames which a socket was handed. -/
def sentOn (s : PulseClientSession) (w : Nat) : List PulseEventEnvelope :=
  ((s.sockets[w]?).map (·.sent)).getD []

/-- The socket which takes frames. -/
def openSocket (s : PulseClientSession) : Option Nat :=
  if s.readyState = some .open then s.ws else none

/-- Frames are added to the current socket only, numbered in turn under a condition. -/
structure Hands (inTurn : Prop) (s t : PulseClientSession) : Prop where
  ws : t.ws = s.ws
  length : t.sockets.length = s.sockets.length
  frames : ∃ frames, (∀ w, t.sentOn w = s.sentOn w ++ if s.ws = some w then frames else []) ∧
    (inTurn → Rising s.currentSeq t.currentSeq frames)

variable {inTurn : Prop} {o : SessionOptions} {s t u : PulseClientSession}

theorem sentOn_congr (h : t.sockets.map (·.sent) = s.sockets.map (·.sent)) (w : Nat) :
    t.sentOn w = s.sentOn w := by
  rw [sentOn, sentOn, ← List.getElem?_map, ← List.getElem?_map, h]

theorem sentOn_modify {w : Nat} {envelope : PulseEventEnvelope} {socket : ClientSocket}
    (hw : s.sockets[w]? = some socket)
    (sockets : t.sockets = s.sockets.modify w fun socket =>
      { socket with sent := socket.sent ++ [envelope] }) (v : Nat) :
    t.sentOn v = s.sentOn v ++ if w = v then [envelope] else [] := by
  rw [sentOn, sockets, List.getElem?_modify, sentOn]
  by_cases hv : w = v
  · subst hv
    simp [hw]
  · simp [hv]

theorem transmitFrame_of_not_open (h : s.readyState ≠ some .open)
    (envelope : PulseEventEnvelope) : s.transmitFrame envelope = s := by
  rw [transmitFrame]
  split
  · rfl
  · exact if_neg h

@[simp] theorem transmitFrame_ws (s : PulseClientSession) (envelope : PulseEventEnvelope) :
    (s.transmitFrame envelope).ws = s.ws := by
  rw [transmitFrame]
  split
  · rfl
  · split <;> rfl

@[simp] theorem transmitFrame_currentSeq (s : PulseClientSession)
    (envelope : PulseEventEnvelope) :
    (s.transmitFrame envelope).currentSeq = s.currentSeq := by
  rw [transmitFrame]
  split
  · rfl
  · split <;> rfl

@[simp] theorem transmitFrame_length (s : PulseClientSession) (envelope : PulseEventEnvelope) :
    (s.transmitFrame envelope).sockets.length = s.sockets.length := by
  rw [transmitFrame]
  split
  · rfl
  · split
    · exact List.length_modify ..
    · rfl

/-- A frame is added to the socket which is open, and to no other. -/
theorem sentOn_transmitFrame (s : PulseClientSession) (envelope : PulseEventEnvelope) (w : Nat) :
    (s.transmitFrame envelope).sentOn w =
      s.sentOn w ++ if s.openSocket = some w then [envelope] else [] := by
  rw [transmitFrame, openSocket]
  cases hws : s.ws with
  | none => simp
  | some v =>
      by_cases hopen : s.readyState = some .open
      · rw [if_pos hopen]
        have hfound := hopen
        rw [readyState, hws, Option.bind_some, Option.map_eq_some_iff] at hfound
        obtain ⟨socket, hsocket, -⟩ := hfound
        simp only [if_pos hopen, Option.some.injEq]
        exact sentOn_modify hsocket rfl w
      · simp [hopen]

namespace Hands

/-- Nothing is handed to a socket, and no number is given. -/
theorem of_sent (ws : t.ws = s.ws) (sent : t.sockets.map (·.sent) = s.sockets.map (·.sent))
    (seq : inTurn → s.currentSeq ≤ t.currentSeq) : Hands inTurn s t where
  ws := ws
  length := by
    have h := congrArg List.length sent
    rwa [List.length_map, List.length_map] at h
  frames := by
    refine ⟨[], fun w => ?_, fun h => .nil (seq h)⟩
    rw [sentOn_congr sent, ite_self, List.append_nil]

theorem of_eq (ws : t.ws = s.ws) (sockets : t.sockets = s.sockets)
    (seq : t.currentSeq = s.currentSeq) : Hands inTurn s t :=
  of_sent ws (by rw [sockets]) fun _ => Nat.le_of_eq seq.symm

theorem refl (s : PulseClientSession) : Hands inTurn s s := of_eq rfl rfl rfl

theorem trans (h : Hands inTurn s t) (h' : Hands inTurn t u) : Hands inTurn s u where
  ws := h'.ws.trans h.ws
  length := h'.length.trans h.length
  frames := by
    obtain ⟨frames, hsent, hrising⟩ := h.frames
    obtain ⟨frames', hsent', hrising'⟩ := h'.frames
    refine ⟨frames ++ frames', fun w => ?_, fun hturn => (hrising hturn).append (hrising' hturn)⟩
    rw [hsent', hsent, h.ws, List.append_assoc]
    split <;> simp

/-- The other variables do not matter. -/
theorem start (h : Hands inTurn t u) (ws : t.ws = s.ws) (sockets : t.sockets = s.sockets)
    (seq : t.currentSeq = s.currentSeq) : Hands inTurn s u :=
  (of_eq ws sockets seq).trans h

/-- A frame with the next number is handed to the socket, if it is open. -/
theorem transmitFrame {envelope : PulseEventEnvelope} (ws : t.ws = s.ws)
    (sockets : t.sockets = s.sockets)
    (numbered : inTurn → s.currentSeq < t.currentSeq ∧ envelope.seq = some t.currentSeq) :
    Hands inTurn s (t.transmitFrame envelope) := by
  have hsame : ∀ w, t.sentOn w = s.sentOn w := sentOn_congr (by rw [sockets])
  by_cases hopen : t.readyState = some .open
  · have hsocket : t.openSocket = s.ws := (if_pos hopen).trans ws
    refine ⟨?_, ?_, [envelope], fun w => ?_, fun hturn => ?_⟩
    · rw [transmitFrame_ws, ws]
    · rw [transmitFrame_length, sockets]
    · rw [sentOn_transmitFrame, hsame, hsocket]
    · rw [transmitFrame_currentSeq]
      exact .singleton (numbered hturn).1 (numbered hturn).2
  · rw [transmitFrame_of_not_open hopen]
    exact of_sent ws (by rw [sockets]) fun hturn => Nat.le_of_lt (numbered hturn).1

theorem handleDisconnectOrError (s : PulseClientSession) (random : ℚ) :
    Hands inTurn s (s.handleDisconnectOrError o random) := by
  rw [PulseClientSession.handleDisconnectOrError]
  split
  · exact refl s
  · exact of_eq rfl rfl rfl

theorem setReadyState (s : PulseClientSession) (w : Nat) (readyState : ReadyState) :
    Hands inTurn s (s.setReadyState w readyState) := by
  refine of_sent rfl ?_ fun _ => Nat.le_refl _
  refine List.ext_getElem? fun i => ?_
  simp only [PulseClientSession.setReadyState, List.getElem?_map, List.getElem?_modify]
  cases s.sockets[i]? with
  | none => rfl
  | some socket =>
      by_cases hi : w = i
      · simp [hi]
      · simp [hi]

theorem closeSocket (s : PulseClientSession) : Hands inTurn s s.closeSocket := by
  rw [PulseClientSession.closeSocket]
  split
  · exact refl s
  · split
    · exact refl s
    · exact setReadyState s _ _

/-- A new request gets the next number, unless the caller gives one. -/
theorem sendEnvelope {options : PulseEventEnvelope} (s : PulseClientSession)
    (generated : String) (numbered : inTurn → options.seq = none) :
    Hands inTurn s (s.sendEnvelope o options generated).1 := by
  have hseq : inTurn → (s.numbered options generated).seq = some (s.currentSeq + 1) := by
    intro hturn
    rw [PulseClientSession.numbered, numbered hturn]
    rfl
  have hnext : inTurn → s.currentSeq < (s.numbered options generated).seq.getD 0 ∧
      (s.numbered options generated).seq = some ((s.numbered options generated).seq.getD 0) := by
    intro hturn
    rw [hseq hturn]
    exact ⟨Nat.lt_succ_self _, rfl⟩
  simp only [PulseClientSession.sendEnvelope]
  split
  · exact refl s
  · split
    · exact transmitFrame rfl rfl hnext
    · exact transmitFrame rfl rfl hnext

theorem flushEntry (s : PulseClientSession) (correlationId : String) (i : Nat) :
    Hands inTurn s (s.flushEntry correlationId i) := by
  rw [PulseClientSession.flushEntry]
  split
  · exact refl s
  · rename_i entry _
    have htransmitted : Hands inTurn s ((PulseClientSession.modifyEntry
        { s.clearTimeout entry.timer with currentSeq := s.currentSeq + 1 } i fun e =>
          { e with
            envelope := { entry.envelope with seq := some (s.currentSeq + 1) } }).transmitFrame
        { entry.envelope with seq := some (s.currentSeq + 1) }) :=
      transmitFrame rfl rfl fun _ => ⟨Nat.lt_succ_self _, rfl⟩
    exact htransmitted.trans (of_eq rfl rfl rfl)

theorem flushRetryQueue (s : PulseClientSession) : Hands inTurn s s.flushRetryQueue := by
  have hfold : ∀ (queue : List (String × Nat)) (s : PulseClientSession),
      Hands inTurn s (queue.foldl (fun s entry => s.flushEntry entry.1 entry.2) s) := by
    intro queue
    induction queue with
    | nil => exact fun s => refl s
    | cons entry rest ih => exact fun s => (flushEntry s entry.1 entry.2).trans (ih _)
  have hstart : Hands inTurn s (s.setState .flushRetryQueue) := of_eq rfl rfl rfl
  exact hstart.trans (hfold _ _)

theorem resubscribeRooms (s : PulseClientSession) (stamp : Stamp) :
    Hands inTurn s (s.resubscribeRooms o stamp) := by
  have hstate : Hands inTurn s (s.setState .resubscribingRooms) := of_eq rfl rfl rfl
  have hsent : Hands inTurn s ((s.setState .resubscribingRooms).sendEnvelope o
      (batchJoinRequest o s.desiredRooms.toList stamp) stamp.correlationId).1 :=
    hstate.trans (sendEnvelope _ stamp.correlationId fun _ => rfl)
  exact hsent.trans (of_eq rfl rfl rfl)

theorem handleIncomingEnvelope (s : PulseClientSession) (envelope : PulseEventEnvelope)
    (stamp : Stamp) : Hands inTurn s (s.handleIncomingEnvelope o envelope stamp) := by
  rw [PulseClientSession.handleIncomingEnvelope]
  split
  · have hstart : Hands inTurn s { s with
        connectionTimeoutTimer := false, reconnectAttempt := 0, lastBackoffDelay := 0 } :=
      of_eq rfl rfl rfl
    simp only [handleConnectAck]
    split
    · exact hstart.trans (resubscribeRooms _ stamp)
    · exact (hstart.trans (flushRetryQueue _)).trans (of_eq rfl rfl rfl)
  · split
    · rw [handleAck]
      split
      · exact refl s
      · split
        · exact refl s
        · split
          · exact refl s
          · exact of_eq rfl rfl rfl
    · exact refl s

/-- A timer transmits the frame again as it is. -/
theorem ackTimeout (s : PulseClientSession) (timer : AckTimer)
    (quiet : inTurn → ∀ entry ∈ s.entries[timer.entry]?, entry.retries < o.maxRetries →
      s.readyState ≠ some .open) : Hands inTurn s (s.ackTimeout o timer) := by
  rw [PulseClientSession.ackTimeout]
  split
  · exact refl s
  · rename_i entry hentry
    split
    · rename_i hretries
      have hmodified : Hands inTurn s
          (s.modifyEntry timer.entry fun e => { e with retries := e.retries + 1 }) :=
        of_eq rfl rfl rfl
      by_cases hturn : inTurn
      · have hsilent : (s.modifyEntry timer.entry fun e =>
            { e with retries := e.retries + 1 }).transmitFrame entry.envelope =
              s.modifyEntry timer.entry fun e => { e with retries := e.retries + 1 } := by
          rw [PulseClientSession.transmitFrame]
          split
          · rfl
          · exact if_neg (quiet hturn entry hentry hretries)
        simp only [hsilent]
        exact hmodified.trans (of_eq rfl rfl rfl)
      · have hsent : Hands inTurn s ((s.modifyEntry timer.entry fun e =>
            { e with retries := e.retries + 1 }).transmitFrame entry.envelope) :=
          transmitFrame rfl rfl fun h => absurd h hturn
        exact hsent.trans (of_eq rfl rfl rfl)
    · exact of_eq rfl rfl rfl

end Hands

/-- The numbers which an event gives, and the frames which it transmits, follow those before:
the caller gives no number, the socket of a new connection is made, and no timer transmits
a frame again. -/
def InTurn (o : SessionOptions) (s : PulseClientSession) : SessionEvent → Prop
  | .sendEnvelope options _ => options.seq = none
  | .connect constructed _ => constructed = true
  | .reconnectTimeout constructed _ => constructed = true
  | .ackTimeout timer =>
      ∀ t ∈ s.ackTimers.find? fun t => t.id = timer, ∀ entry ∈ s.entries[t.entry]?,
        entry.retries < o.maxRetries → s.readyState ≠ some .open
  | _ => True

/-- What an event does to the frames on the sockets. -/
inductive Turn (inTurn : Prop) (s t : PulseClientSession) : Prop
  | hands (hands : Hands inTurn s t)
  /-- A new socket is current, and numbers start again. -/
  | connects (sent : ∀ w, t.sentOn w = s.sentOn w) (length : s.sockets.length ≤ t.sockets.length)
      (ws : t.ws = some s.sockets.length) (seq : t.currentSeq = 0)
  | leaves (sent : ∀ w, t.sentOn w = s.sentOn w) (length : t.sockets.length = s.sockets.length)
      (ws : t.ws = none)

theorem turn_connect (constructed : Bool) (random : ℚ) (ws : t.ws = s.ws)
    (sockets : t.sockets = s.sockets) (made : inTurn → constructed = true) :
    Turn inTurn s (t.connect o constructed random) := by
  cases constructed with
  | true =>
      refine .connects (fun w => ?_) ?_ ?_ rfl
      · simp only [PulseClientSession.connect, if_true, sentOn, List.getElem?_append, sockets]
        split
        · rfl
        · rename_i hlt
          rw [List.getElem?_eq_none (Nat.le_of_not_lt hlt), List.getElem?_singleton]
          split <;> rfl
      · simp [PulseClientSession.connect, sockets]
      · exact congrArg (fun l : List ClientSocket => some l.length) sockets
  | false =>
      have hreset : Hands inTurn s ({ t with
          isExplicitlyClosed := false, reconnectTimer := false, currentSeq := 0
          state := .disconnected } : PulseClientSession) :=
        Hands.of_sent ws (by rw [sockets]) fun hturn => absurd (made hturn) (by decide)
      exact .hands (hreset.trans (Hands.handleDisconnectOrError _ random))

/-- What `disconnect` does with the socket. -/
theorem turn_disconnect_socket (ws : t.ws = s.ws) (sockets : t.sockets = s.sockets)
    (seq : t.currentSeq = s.currentSeq) :
    Turn inTurn s
      (if t.readyState = some .open ∨ t.readyState = some .connecting then
        { t.closeSocket with disconnecting := t.disconnecting + 1 }
      else { t with ws := none, state := .disconnected }) := by
  have hsame : Hands inTurn s t := .of_eq ws sockets seq
  split
  · exact .hands ((hsame.trans (.closeSocket t)).trans (.of_eq rfl rfl rfl))
  · exact .leaves (sentOn_congr (congrArg _ sockets)) (congrArg _ sockets) rfl

theorem turn_disconnect (s : PulseClientSession) : Turn inTurn s s.disconnect := by
  have hfold : ∀ (queue : List (String × Nat)) (s : PulseClientSession),
      (queue.foldl (fun s entry => s.rejectEntry entry.2) s).ws = s.ws ∧
        (queue.foldl (fun s entry => s.rejectEntry entry.2) s).sockets = s.sockets ∧
        (queue.foldl (fun s entry => s.rejectEntry entry.2) s).currentSeq = s.currentSeq := by
    intro queue
    induction queue with
    | nil => exact fun s => ⟨rfl, rfl, rfl⟩
    | cons entry rest ih => exact fun s => ih _
  obtain ⟨hws, hsockets, hseq⟩ := hfold s.inFlightQueue.entries { s with
    isExplicitlyClosed := true, reconnectTimer := false, connectionTimeoutTimer := false }
  exact turn_disconnect_socket (s := s) (t := { s.inFlightQueue.entries.foldl
    (fun s entry => s.rejectEntry entry.2) { s with
      isExplicitlyClosed := true, reconnectTimer := false, connectionTimeoutTimer := false } with
    inFlightQueue := ∅ }) hws hsockets hseq

theorem turn_step {e : SessionEvent} (h : s.step o e = some t) : Turn (s.InTurn o e) s t := by
  cases e with
  | connect constructed random =>
      cases h
      exact turn_connect constructed random rfl rfl id
  | sendEnvelope options generated =>
      cases h
      exact .hands (.sendEnvelope s generated id)
  | joinRoom | joinRooms | leaveRoom =>
      cases h
      exact .hands (.start (.sendEnvelope _ _ fun _ => rfl) rfl rfl rfl)
  | sendRoomMessage | sendDirectMessage =>
      cases h
      exact .hands (.sendEnvelope s _ fun _ => rfl)
  | disconnect =>
      cases h
      exact turn_disconnect s
  | disconnected =>
      simp only [step] at h
      split at h
      · cases h
      · cases h
        exact .leaves (fun _ => rfl) rfl rfl
  | resubscribed i =>
      simp only [step, Option.bind_eq_some_iff] at h
      obtain ⟨awaited, -, h⟩ := h
      split at h
      · cases h
        have hstart : Hands (s.InTurn o (.resubscribed i)) s
            { s with resubscribing := s.resubscribing.eraseIdx i } := .of_eq rfl rfl rfl
        exact .hands ((hstart.trans (.flushRetryQueue _)).trans (.of_eq rfl rfl rfl))
      · cases h
  | ackTimeout timer =>
      simp only [step, Option.map_eq_some_iff] at h
      obtain ⟨found, hfound, rfl⟩ := h
      have hcleared : Hands (s.InTurn o (.ackTimeout timer)) s (s.clearTimeout (some timer)) :=
        .of_eq rfl rfl rfl
      exact .hands (hcleared.trans (.ackTimeout _ found fun hturn => hturn found hfound))
  | reconnectTimeout constructed random =>
      simp only [step, Option.ite_none_right_eq_some, Option.some.injEq] at h
      obtain ⟨-, rfl⟩ := h
      split
      · exact .hands (.of_eq rfl rfl rfl)
      · exact turn_connect constructed random rfl rfl id
  | connectionTimeout random =>
      simp only [step, Option.ite_none_right_eq_some, Option.some.injEq] at h
      obtain ⟨-, rfl⟩ := h
      have hcleared : Hands (s.InTurn o (.connectionTimeout random)) s
          { s with connectionTimeoutTimer := false } := .of_eq rfl rfl rfl
      simp only [connectionTimeout]
      split
      · exact .hands ((hcleared.trans (.closeSocket _)).trans
          (.start (.handleDisconnectOrError _ random) rfl rfl rfl))
      · exact .hands hcleared
  | opened w =>
      simp only [step, Option.ite_none_right_eq_some, Option.some.injEq] at h
      obtain ⟨-, rfl⟩ := h
      exact .hands ((Hands.setReadyState s w .open).trans (.of_eq rfl rfl rfl))
  | message w envelope stamp =>
      simp only [step, Option.ite_none_right_eq_some, Option.some.injEq] at h
      obtain ⟨-, rfl⟩ := h
      exact .hands (.handleIncomingEnvelope s envelope stamp)
  | closing w =>
      simp only [step, Option.ite_none_right_eq_some, Option.some.injEq] at h
      obtain ⟨-, rfl⟩ := h
      exact .hands (.setReadyState s w .closing)
  | closed w random =>
      simp only [step, Option.ite_none_right_eq_some, Option.some.injEq] at h
      obtain ⟨-, rfl⟩ := h
      have hclosed : Hands (s.InTurn o (.closed w random)) s
          { (s.setReadyState w .closed).setState .disconnected with
            connectionTimeoutTimer := false } :=
        (Hands.setReadyState s w .closed).trans (.of_eq rfl rfl rfl)
      simp only [handleClose]
      split
      · exact .hands (hclosed.trans (.handleDisconnectOrError _ random))
      · exact .hands hclosed
  | error w random =>
      simp only [step, Option.ite_none_right_eq_some, Option.some.injEq] at h
      obtain ⟨-, rfl⟩ := h
      have hclosing : Hands (s.InTurn o (.error w random)) s (s.setReadyState w .closing) :=
        .setReadyState s w .closing
      simp only [handleError]
      split
      · exact .hands (hclosing.trans (.start (.handleDisconnectOrError _ random) rfl rfl rfl))
      · exact .hands hclosing

/-- The frames on a socket stay, and further ones follow. -/
theorem step_sentOn {e : SessionEvent} (h : s.step o e = some t) (w : Nat) :
    s.sentOn w <+: t.sentOn w := by
  cases turn_step h with
  | hands hands =>
      obtain ⟨frames, hsent, -⟩ := hands.frames
      rw [hsent]
      exact List.prefix_append _ _
  | connects sent => exact sent w ▸ List.prefix_refl _
  | leaves sent => exact sent w ▸ List.prefix_refl _

/-- The numbers on each socket rise, those on the current one up to the last that was given. -/
structure Numbered (s : PulseClientSession) : Prop where
  rising : ∀ w, (s.sentOn w).Pairwise fun f g => ∀ a ∈ f.seq, ∀ b ∈ g.seq, a < b
  bounded : ∀ w, s.ws = some w → ∀ f ∈ s.sentOn w, ∀ seq ∈ f.seq, seq ≤ s.currentSeq

theorem numbered_initial : Numbered {} where
  rising := fun _ => List.Pairwise.nil
  bounded := fun _ hw => by cases hw

theorem Numbered.turn (h : s.Numbered) (turn : Turn True s t) : t.Numbered := by
  cases turn with
  | hands hands =>
      obtain ⟨frames, hsent, hrising⟩ := hands.frames
      have hnew := hrising trivial
      refine ⟨fun w => ?_, fun w hw f hf seq hseq => ?_⟩
      · rw [hsent]
        split
        · rename_i hw
          refine List.pairwise_append.mpr ⟨h.rising w, hnew.pairwise, ?_⟩
          intro f hf g hg a ha b hb
          obtain ⟨seq, hseq, hlo, -⟩ := hnew.numbered g hg
          cases hseq.symm.trans hb
          exact Nat.lt_of_le_of_lt (h.bounded w hw f hf a ha) hlo
        · rw [List.append_nil]
          exact h.rising w
      · rw [hsent, if_pos (hands.ws.symm.trans hw)] at hf
        rcases List.mem_append.mp hf with hf | hf
        · exact Nat.le_trans (h.bounded w (hands.ws.symm.trans hw) f hf seq hseq) hnew.le
        · obtain ⟨seq', hseq', -, hhi⟩ := hnew.numbered f hf
          cases hseq'.symm.trans hseq
          exact hhi
  | connects sent length ws seq =>
      refine ⟨fun w => ?_, fun w hw f hf => ?_⟩
      · rw [sent]
        exact h.rising w
      · -- The new socket was handed nothing yet.
        cases ws.symm.trans hw
        rw [sent, sentOn, List.getElem?_eq_none (Nat.le_refl _)] at hf
        cases hf
  | leaves sent length ws =>
      refine ⟨fun w => ?_, fun w hw => ?_⟩
      · rw [sent]
        exact h.rising w
      · cases ws.symm.trans hw

theorem Numbered.step {e : SessionEvent} (h : s.Numbered) (inTurn : s.InTurn o e)
    (hstep : s.step o e = some t) : t.Numbered := by
  have hturn := turn_step hstep
  rw [eq_true inTurn] at hturn
  exact h.turn hturn

end PulseClientSession

end Pulse
