import Pulse.Chaos.FaultProxy
import Pulse.Chaos.WebSocketFrameFilter
import Pulse.Collections.Occurrence

/-!
# Forwarding of a socket pair

In websocket mode the target's answer to the upgrade is forwarded raw, and what
follows it goes through the frame filter. The end of the answer is searched in
each chunk alone. So the client receives what the predicate leaves whenever the
terminator arrives in one chunk; a terminator which is cut leaves the pair
forwarding raw bytes.
-/

namespace Pulse

inductive ProxyMode where
  | tcp
  | websocket
  deriving DecidableEq, Repr

inductive FaultState where
  | normal
  | severed
  | blackhole
  | degraded
  deriving DecidableEq, Repr

/-- The two sockets of a connection, and what the proxy has for them. -/
structure SocketPair where
  mode : ProxyMode
  state : FaultState
  clientSocket : FaultProxy
  targetSocket : FaultProxy
  clientFilter : WebSocketFrameFilter
  targetFilter : WebSocketFrameFilter
  handshakeComplete : Bool

/-- `'\r\n\r\n'`. -/
def headTerminator : List UInt8 := [13, 10, 13, 10]

namespace SocketPair

open Collections WebSocketFrameFilter

variable (utf8 : List UInt8 → Option String)

/-- The pair of a new connection, unless it is refused. -/
def handleClientConnection (mode : ProxyMode) (state : FaultState)
    (latencyConfig : Option LatencyFaultConfig)
    (frameDropPredicate : Option (DecodedWebSocketFrame → Bool)) : Option SocketPair :=
  if state = .severed then none
  else
    some
      { mode, state
        clientSocket := { latencyConfig }
        targetSocket := { latencyConfig }
        clientFilter := { dropPredicate := frameDropPredicate }
        targetFilter := { dropPredicate := frameDropPredicate }
        handshakeComplete := mode ≠ .websocket }

/-- The writes to the client; the draw is for an injected latency. -/
def sendToClient (pair : SocketPair) (buffers : List (List UInt8)) (random : Random) :
    SocketPair :=
  { pair with clientSocket := pair.clientSocket.sendToSocket buffers random }

def sendToTarget (pair : SocketPair) (buffers : List (List UInt8)) (random : Random) :
    SocketPair :=
  { pair with targetSocket := pair.targetSocket.sendToSocket buffers random }

/-- What the target sent through its filter; a call which throws writes nothing. -/
def filterToClient (pair : SocketPair) (chunk : List UInt8) (random : Random) : SocketPair :=
  let (targetFilter, buffers) := pair.targetFilter.processChunk utf8 chunk
  let pair := { pair with targetFilter }
  match buffers with
  | some buffers => if buffers.length > 0 then pair.sendToClient buffers random else pair
  | none => pair

def filterToTarget (pair : SocketPair) (chunk : List UInt8) (random : Random) : SocketPair :=
  let (clientFilter, buffers) := pair.clientFilter.processChunk utf8 chunk
  let pair := { pair with clientFilter }
  match buffers with
  | some buffers => if buffers.length > 0 then pair.sendToTarget buffers random else pair
  | none => pair

def forwardClientTraffic (pair : SocketPair) (chunk : List UInt8) (random : Random) :
    SocketPair :=
  if pair.state = .severed ∨ pair.state = .blackhole then pair
  else if !pair.targetSocket.writable then pair
  else if pair.mode ≠ .websocket then pair.sendToTarget [chunk] random
  else if !pair.handshakeComplete then pair.sendToTarget [chunk] random
  else pair.filterToTarget utf8 chunk random

/-- The chunk in which the end of the head was found; the second draw is for the bytes after
it. -/
def switchAt (pair : SocketPair) (chunk : List UInt8) (headerEndIdx : Nat)
    (random random' : Random) : SocketPair :=
  let pair := { pair with handshakeComplete := true }
  let httpHeaderBytes := chunk.take (headerEndIdx + 4)
  let trailingBytes := chunk.drop (headerEndIdx + 4)
  let pair := pair.sendToClient [httpHeaderBytes] random
  if trailingBytes.length > 0 then pair.filterToClient utf8 trailingBytes random' else pair

def forwardTargetTraffic (pair : SocketPair) (chunk : List UInt8) (random random' : Random) :
    SocketPair :=
  if pair.state = .severed ∨ pair.state = .blackhole then pair
  else if !pair.clientSocket.writable then pair
  else if pair.mode ≠ .websocket then pair.sendToClient [chunk] random
  else if !pair.handshakeComplete then
    match indexOf headTerminator chunk with
    | some headerEndIdx => pair.switchAt utf8 chunk headerEndIdx random random'
    | none => pair.sendToClient [chunk] random
  else pair.filterToClient utf8 chunk random

/-- A chunk which one of the two sockets emits. -/
inductive Event where
  | client (chunk : List UInt8) (random : Random)
  | target (chunk : List UInt8) (random random' : Random)

def step (pair : SocketPair) : Event → SocketPair
  | .client chunk random => pair.forwardClientTraffic utf8 chunk random
  | .target chunk random random' => pair.forwardTargetTraffic utf8 chunk random random'

def run (pair : SocketPair) (events : List Event) : SocketPair := events.foldl (step utf8) pair

/-- The chunk which the target sent. -/
def Event.targetChunk? : Event → Option (List UInt8)
  | .client _ _ => none
  | .target chunk _ _ => some chunk

/-- The chunks of the target in a run. -/
def targetChunks (events : List Event) : List (List UInt8) := events.filterMap Event.targetChunk?

@[simp] theorem run_nil (pair : SocketPair) : run utf8 pair [] = pair := rfl

@[simp] theorem run_cons (pair : SocketPair) (event : Event) (events : List Event) :
    run utf8 pair (event :: events) = run utf8 (pair.step utf8 event) events := rfl

theorem run_append (pair : SocketPair) (events events' : List Event) :
    run utf8 pair (events ++ events') = run utf8 (run utf8 pair events) events' :=
  List.foldl_append

theorem targetChunks_target (chunk : List UInt8) (random random' : Random)
    (events : List Event) :
    targetChunks (.target chunk random random' :: events) = chunk :: targetChunks events := rfl

/-- Where a chunk of the target stands among the events. -/
theorem split_events {events : List Event} {before after : List (List UInt8)}
    {chunk : List UInt8} (h : targetChunks events = before ++ chunk :: after) :
    ∃ events₁ random random' events₂,
      events = events₁ ++ .target chunk random random' :: events₂ ∧
      targetChunks events₁ = before ∧ targetChunks events₂ = after := by
  obtain ⟨events₁, later, rfl, rfl, hlater⟩ := List.filterMap_eq_append_iff.mp h
  obtain ⟨others, event, events₂, rfl, none, hevent, rfl⟩ := List.filterMap_eq_cons_iff.mp hlater
  cases event with
  | client chunk' random => cases hevent
  | target chunk' random random' =>
      cases hevent
      refine ⟨events₁ ++ others, random, random', events₂, (List.append_assoc _ _ _).symm, ?_, rfl⟩
      have nothing : others.filterMap Event.targetChunk? = [] :=
        List.filterMap_eq_nil_iff.mpr none
      rw [targetChunks, List.filterMap_append, nothing, List.append_nil]

/-- What a run shows to the client: the bytes received, whether the handshake is complete and
the filter for what follows it. -/
structure ClientSide (pair : SocketPair) (received : List UInt8) (complete : Bool)
    (filter : WebSocketFrameFilter) : Prop where
  websocket : pair.mode = .websocket
  normal : pair.state = .normal
  writable : pair.clientSocket.writable = true
  immediate : pair.clientSocket.latencyConfig = none
  written : pair.clientSocket.written = received
  handshake : pair.handshakeComplete = complete
  targetFilter : pair.targetFilter = filter

theorem handleClientConnection_clientSide {pair : SocketPair}
    (frameDropPredicate : Option (DecodedWebSocketFrame → Bool))
    (h : handleClientConnection .websocket .normal none frameDropPredicate = some pair) :
    pair.ClientSide [] false { dropPredicate := frameDropPredicate } := by
  cases h
  exact ⟨rfl, rfl, rfl, rfl, rfl, rfl, rfl⟩

section steps

variable {pair : SocketPair} {received : List UInt8} {complete : Bool}
  {filter filter' : WebSocketFrameFilter}

/-- The client's own traffic changes the socket and the filter of the other direction only. -/
theorem forwardClientTraffic_eq (pair : SocketPair) (chunk : List UInt8) (random : Random) :
    ∃ targetSocket clientFilter,
      pair.forwardClientTraffic utf8 chunk random = { pair with targetSocket, clientFilter } := by
  have sends : ∀ (pair : SocketPair) (buffers : List (List UInt8)),
      ∃ targetSocket clientFilter,
        pair.sendToTarget buffers random = { pair with targetSocket, clientFilter } :=
    fun pair buffers => ⟨_, _, rfl⟩
  rw [forwardClientTraffic]
  split_ifs with stopped ended tcp raw
  · exact ⟨_, _, rfl⟩
  · exact ⟨_, _, rfl⟩
  · exact sends pair [chunk]
  · exact sends pair [chunk]
  · rw [filterToTarget]
    cases pair.clientFilter.processChunk utf8 chunk with
    | mk clientFilter buffers =>
        cases buffers with
        | none => exact ⟨_, _, rfl⟩
        | some buffers =>
            simp only
            split_ifs
            · exact ⟨_, _, rfl⟩
            · exact ⟨_, _, rfl⟩

namespace ClientSide

theorem client (h : pair.ClientSide received complete filter) (chunk : List UInt8)
    (random : Random) :
    (pair.step utf8 (.client chunk random)).ClientSide received complete filter := by
  obtain ⟨targetSocket, clientFilter, heq⟩ :=
    forwardClientTraffic_eq utf8 pair chunk random
  rw [step, heq]
  exact ⟨h.websocket, h.normal, h.writable, h.immediate, h.written, h.handshake, h.targetFilter⟩

theorem send (h : pair.ClientSide received complete filter) (buffers : List (List UInt8))
    (random : Random) :
    (pair.sendToClient buffers random).ClientSide (received ++ buffers.flatten) complete
      filter := by
  have sent : pair.clientSocket.sendToSocket buffers random = pair.clientSocket.write buffers := by
    rw [FaultProxy.sendToSocket, if_pos h.writable, h.immediate]
  rw [sendToClient, sent]
  exact ⟨h.websocket, h.normal, h.writable, h.immediate, congrArg (· ++ _) h.written,
    h.handshake, h.targetFilter⟩

theorem throughFilter (h : pair.ClientSide received complete filter) {chunk : List UInt8}
    {buffers : List (List UInt8)}
    (forwarded : filter.processChunk utf8 chunk = (filter', some buffers)) (random : Random) :
    (pair.filterToClient utf8 chunk random).ClientSide (received ++ buffers.flatten) complete
      filter' := by
  have next : ClientSide { pair with targetFilter := filter' } received complete filter' :=
    ⟨h.websocket, h.normal, h.writable, h.immediate, h.written, h.handshake, rfl⟩
  rw [filterToClient, h.targetFilter, forwarded]
  simp only
  by_cases any : buffers.length > 0
  · rw [if_pos any]
    exact next.send buffers random
  · have : buffers = [] := List.eq_nil_of_length_eq_zero (by omega)
    subst this
    rw [if_neg any, List.flatten_nil, List.append_nil]
    exact next

/-- The guards let a chunk of the target through to the part before or after the handshake. -/
theorem forwardTargetTraffic_eq (h : pair.ClientSide received complete filter)
    (chunk : List UInt8) (random random' : Random) :
    pair.forwardTargetTraffic utf8 chunk random random' =
      if complete then pair.filterToClient utf8 chunk random
      else
        match indexOf headTerminator chunk with
        | some headerEndIdx => pair.switchAt utf8 chunk headerEndIdx random random'
        | none => pair.sendToClient [chunk] random := by
  have passes : ¬ (pair.state = .severed ∨ pair.state = .blackhole) := by
    rw [h.normal]
    decide
  rw [forwardTargetTraffic, if_neg passes, h.writable, if_neg (by decide),
    if_neg (not_not.mpr h.websocket), h.handshake]
  cases complete <;> rfl

/-- Before the handshake a chunk without a terminator is forwarded as it is. -/
theorem raw (h : pair.ClientSide received false filter) {chunk : List UInt8}
    (missing : indexOf headTerminator chunk = none) (random random' : Random) :
    (pair.step utf8 (.target chunk random random')).ClientSide (received ++ chunk) false
      filter := by
  have sent := h.send [chunk] random
  rw [List.flatten_singleton] at sent
  rw [step, h.forwardTargetTraffic_eq utf8, if_neg (by decide), missing]
  exact sent

/-- The head is written when its end is found. -/
theorem headSent (h : pair.ClientSide received false filter) (httpHeaderBytes : List UInt8)
    (random : Random) :
    ({ pair with handshakeComplete := true }.sendToClient [httpHeaderBytes] random).ClientSide
      (received ++ httpHeaderBytes) true filter := by
  have switched : ClientSide { pair with handshakeComplete := true } received true filter :=
    ⟨h.websocket, h.normal, h.writable, h.immediate, h.written, rfl, h.targetFilter⟩
  have sent := switched.send [httpHeaderBytes] random
  rw [List.flatten_singleton] at sent
  exact sent

/-- A terminator switches the pair, and what follows it in the chunk goes through the filter. -/
theorem switch (h : pair.ClientSide received false filter) {chunk : List UInt8} {i : Nat}
    {buffers : List (List UInt8)} (found : indexOf headTerminator chunk = some i)
    (forwarded : filter.processChunk utf8 (chunk.drop (i + 4)) = (filter', some buffers))
    (random random' : Random) :
    (pair.step utf8 (.target chunk random random')).ClientSide
      (received ++ chunk.take (i + 4) ++ buffers.flatten) true filter' := by
  have sent := h.headSent (chunk.take (i + 4)) random
  rw [step, h.forwardTargetTraffic_eq utf8, if_neg (by decide), found]
  simp only [switchAt]
  by_cases trailing : (chunk.drop (i + 4)).length > 0
  · rw [if_pos trailing]
    exact sent.throughFilter utf8 forwarded random'
  · have nothing : chunk.drop (i + 4) = [] := List.eq_nil_of_length_eq_zero (by omega)
    rw [nothing] at forwarded
    cases forwarded
    rw [if_neg trailing, List.flatten_nil, List.append_nil]
    exact sent

theorem filtered (h : pair.ClientSide received true filter) {chunk : List UInt8}
    {buffers : List (List UInt8)}
    (forwarded : filter.processChunk utf8 chunk = (filter', some buffers))
    (random random' : Random) :
    (pair.step utf8 (.target chunk random random')).ClientSide (received ++ buffers.flatten) true
      filter' := by
  rw [step, h.forwardTargetTraffic_eq utf8, if_pos rfl]
  exact h.throughFilter utf8 forwarded random

/-- While no chunk has a terminator, the client receives what the target sent. -/
theorem run_raw {events : List Event} (h : pair.ClientSide received false filter)
    (missing : ∀ chunk ∈ targetChunks events, indexOf headTerminator chunk = none) :
    (run utf8 pair events).ClientSide (received ++ (targetChunks events).flatten) false
      filter := by
  induction events generalizing pair received with
  | nil => simpa [targetChunks] using h
  | cons event events ih =>
      cases event with
      | client chunk random => exact ih (h.client utf8 chunk random) missing
      | target chunk random random' =>
          rw [targetChunks_target] at missing ⊢
          have first := h.raw utf8 (missing chunk List.mem_cons_self) random random'
          rw [run_cons, List.flatten_cons, ← List.append_assoc]
          exact ih first fun later hlater => missing later (.tail chunk hlater)

/-- After the handshake the client receives what the filter forwards. -/
theorem run_filtered {events : List Event} {output : List (List UInt8)}
    (h : pair.ClientSide received true filter)
    (forwarded : filter.processChunks utf8 (targetChunks events) = (filter', some output)) :
    (run utf8 pair events).ClientSide (received ++ output.flatten) true filter' := by
  induction events generalizing pair received filter output with
  | nil =>
      cases forwarded
      simpa using h
  | cons event events ih =>
      cases event with
      | client chunk random => exact ih (h.client utf8 chunk random) forwarded
      | target chunk random random' =>
          rw [targetChunks_target] at forwarded
          obtain ⟨next, first, rest, hfirst, hrest, rfl⟩ := processChunks_cons_eq_some forwarded
          rw [run_cons, List.flatten_append, ← List.append_assoc]
          exact ih (h.filtered utf8 hfirst random random') hrest

/-- The first chunk with a terminator is cut behind it: what is before the cut is received, and
what is behind it goes through the filter. -/
theorem run_switch {events : List Event} {before after output : List (List UInt8)}
    {chunk : List UInt8} {i : Nat} (h : pair.ClientSide received false filter)
    (sent : targetChunks events = before ++ chunk :: after)
    (missing : ∀ chunk ∈ before, indexOf headTerminator chunk = none)
    (found : indexOf headTerminator chunk = some i)
    (forwarded : filter.processChunks utf8 (chunk.drop (i + 4) :: after) =
      (filter', some output)) :
    (run utf8 pair events).ClientSide
      (received ++ before.flatten ++ chunk.take (i + 4) ++ output.flatten) true filter' := by
  obtain ⟨events₁, random, random', events₂, rfl, rfl, rfl⟩ := split_events sent
  obtain ⟨next, first, rest, hfirst, hrest, rfl⟩ := processChunks_cons_eq_some forwarded
  have reached := h.run_raw utf8 missing
  have switched := reached.switch utf8 found hfirst random random'
  rw [run_append, run_cons, List.flatten_append, ← List.append_assoc _ first.flatten]
  exact switched.run_filtered utf8 hrest

end ClientSide

end steps

/-- The bytes end with the first terminator in them. -/
def IsHead (head : List UInt8) : Prop := indexOf headTerminator head = some (head.length - 4)

instance (head : List UInt8) : Decidable (IsHead head) := inferInstanceAs (Decidable (_ = _))

/-- One chunk has the last four bytes of the head. -/
def TerminatorInOneChunk (head : List UInt8) (chunks : List (List UInt8)) : Prop :=
  ∃ before chunk after, chunks = before ++ chunk :: after ∧
    before.flatten.length + 4 ≤ head.length ∧
    head.length ≤ before.flatten.length + chunk.length

section cuts

variable {head chunk stream rest : List UInt8} {before : List (List UInt8)}

theorem headTerminator_ne_nil : headTerminator ≠ [] := by decide

theorem found_length {chunk : List UInt8} {i : Nat}
    (found : indexOf headTerminator chunk = some i) : i + 4 ≤ chunk.length :=
  ((indexOf_eq_some_iff headTerminator_ne_nil).mp found).1.bound headTerminator_ne_nil

theorem IsHead.length_le (h : IsHead head) : 4 ≤ head.length := by
  have bound := found_length h
  omega

/-- The chunks before the end of the head show no terminator. -/
theorem IsHead.missing (h : IsHead head) (cut : before.flatten ++ stream = head ++ rest)
    (ends : before.flatten.length < head.length) :
    ∀ chunk ∈ before, indexOf headTerminator chunk = none := by
  intro chunk hchunk
  obtain ⟨earlier, later, rfl⟩ := List.append_of_mem hchunk
  have first := indexOf_append headTerminator_ne_nil h rest
  rw [← cut, List.flatten_append, List.flatten_cons, List.append_assoc, List.append_assoc] at first
  refine indexOf_segment_eq_none headTerminator_ne_nil first ?_
  have size : headTerminator.length = 4 := rfl
  have := h.length_le
  simp only [List.flatten_append, List.flatten_cons, List.length_append] at ends
  omega

/-- The chunk with the last four bytes of the head shows where it ends. -/
theorem IsHead.found (h : IsHead head)
    (cut : before.flatten ++ (chunk ++ stream) = head ++ rest)
    (starts : before.flatten.length + 4 ≤ head.length)
    (ends : head.length ≤ before.flatten.length + chunk.length) :
    indexOf headTerminator chunk = some (head.length - 4 - before.flatten.length) := by
  have first := indexOf_append headTerminator_ne_nil h rest
  have size : headTerminator.length = 4 := rfl
  have shift : head.length - 4 =
      before.flatten.length + (head.length - 4 - before.flatten.length) := by omega
  rw [← cut, shift] at first
  exact indexOf_segment headTerminator_ne_nil first (by omega)

/-- A terminator within one chunk is not before the end of the head. -/
theorem IsHead.le_of_found (h : IsHead head) {i : Nat}
    (cut : before.flatten ++ (chunk ++ stream) = head ++ rest)
    (found : indexOf headTerminator chunk = some i) :
    head.length ≤ before.flatten.length + i + 4 := by
  have first := indexOf_append headTerminator_ne_nil h rest
  have occurs := occursAt_of_indexOf_segment headTerminator_ne_nil before.flatten stream found
  rw [cut] at occurs
  by_contra earlier
  exact ((indexOf_eq_some_iff headTerminator_ne_nil).mp first).2 _ (by omega) occurs

end cuts

section prefixes

variable (pair : SocketPair)

/-- What was written to the client is not taken back. -/
theorem sendToClient_written (buffers : List (List UInt8)) (random : Random) :
    pair.clientSocket.written <+: (pair.sendToClient buffers random).clientSocket.written := by
  rw [sendToClient, FaultProxy.sendToSocket]
  split_ifs
  · cases pair.clientSocket.latencyConfig with
    | some config => exact List.prefix_refl _
    | none => exact List.prefix_append _ _
  · exact List.prefix_refl _

theorem filterToClient_written (chunk : List UInt8) (random : Random) :
    pair.clientSocket.written <+:
      (pair.filterToClient utf8 chunk random).clientSocket.written := by
  rw [filterToClient]
  cases pair.targetFilter.processChunk utf8 chunk with
  | mk targetFilter buffers =>
      cases buffers with
      | none => exact List.prefix_refl _
      | some buffers =>
          simp only
          split_ifs
          · exact sendToClient_written { pair with targetFilter } buffers random
          · exact List.prefix_refl _

theorem switchAt_written (chunk : List UInt8) (headerEndIdx : Nat) (random random' : Random) :
    ({ pair with handshakeComplete := true }.sendToClient [chunk.take (headerEndIdx + 4)]
        random).clientSocket.written <+:
      (pair.switchAt utf8 chunk headerEndIdx random random').clientSocket.written := by
  rw [switchAt]
  split_ifs
  · exact filterToClient_written utf8 _ _ random'
  · exact List.prefix_refl _

theorem step_written (event : Event) :
    pair.clientSocket.written <+: (pair.step utf8 event).clientSocket.written := by
  cases event with
  | client chunk random =>
      obtain ⟨targetSocket, clientFilter, heq⟩ := forwardClientTraffic_eq utf8 pair chunk random
      rw [step, heq]
  | target chunk random random' =>
      rw [step, forwardTargetTraffic]
      split_ifs
      · exact List.prefix_refl _
      · exact List.prefix_refl _
      · exact sendToClient_written pair [chunk] random
      · cases indexOf headTerminator chunk with
        | none => exact sendToClient_written pair [chunk] random
        | some headerEndIdx =>
            have sent := sendToClient_written { pair with handshakeComplete := true }
              [chunk.take (headerEndIdx + 4)] random
            exact sent.trans (switchAt_written utf8 pair chunk headerEndIdx random random')
      · exact filterToClient_written utf8 pair chunk random

theorem run_written (events : List Event) :
    pair.clientSocket.written <+: (run utf8 pair events).clientSocket.written := by
  induction events generalizing pair with
  | nil => exact List.prefix_refl _
  | cons event events ih => exact (step_written utf8 pair event).trans (ih (pair.step utf8 event))

end prefixes

section whole

variable {pair : SocketPair} {head chunk : List UInt8} {frames before after : List (List UInt8)}
  {filter : WebSocketFrameFilter} {events : List Event}

/-- The filter forwards the frames which its predicate does not match. -/
theorem processChunks_frames (drained : filter.Drained) (empty : filter.buffer = [])
    (complete : ∀ raw ∈ frames, CompleteFrame raw) {chunks : List (List UInt8)}
    (rest : chunks.flatten = frames.flatten) :
    filter.processChunks utf8 chunks = (filter, some (filter.forwards utf8 frames)) := by
  have ended : ∀ n, framing.head [] ≠ .frame n := by
    intro n hn
    cases hn
  have parts : framing.split (filter.buffer ++ chunks.flatten) = (frames, []) := by
    rw [empty, rest, List.nil_append, ← List.append_nil frames.flatten,
      Framing.split_flatten_append (isFrame_of_complete complete) ended]
  have wellFormed : framing.WellFormed (filter.buffer ++ chunks.flatten) := by
    rw [Framing.WellFormed, parts]
    intro malformed
    cases malformed
  rw [processChunks_eq utf8 drained wellFormed, parts, ← empty]

/-- The chunk which ends the head is cut there. -/
theorem cut_at_end {i : Nat} (there : head.length ≤ before.flatten.length + chunk.length)
    (ends : before.flatten.length + i + 4 = head.length)
    (cut : before.flatten ++ (chunk ++ after.flatten) = head ++ frames.flatten) :
    before.flatten ++ chunk.take (i + 4) = head ∧
      (chunk.drop (i + 4) :: after).flatten = frames.flatten := by
  have parts : before.flatten ++ (chunk ++ after.flatten) =
      (before.flatten ++ chunk.take (i + 4)) ++ (chunk.drop (i + 4) :: after).flatten := by
    rw [List.flatten_cons, List.append_assoc, ← List.append_assoc (chunk.take (i + 4)),
      List.take_append_drop]
  refine List.append_inj (parts.symm.trans cut) ?_
  rw [List.length_append, List.length_take]
  omega

/-- A terminator in one chunk switches the pair where the head ends. -/
theorem ClientSide.run_head (h : pair.ClientSide [] false filter) (drained : filter.Drained)
    (empty : filter.buffer = []) (isHead : IsHead head)
    (complete : ∀ raw ∈ frames, CompleteFrame raw)
    (sent : (targetChunks events).flatten = head ++ frames.flatten)
    (whole : TerminatorInOneChunk head (targetChunks events)) :
    (run utf8 pair events).clientSocket.written =
      head ++ (filter.forwards utf8 frames).flatten := by
  obtain ⟨before, chunk, after, chunks, starts, ends⟩ := whole
  have cut : before.flatten ++ (chunk ++ after.flatten) = head ++ frames.flatten := by
    rw [← sent, chunks, List.flatten_append, List.flatten_cons]
  obtain ⟨switched, rest⟩ := cut_at_end (i := head.length - 4 - before.flatten.length)
    ends (by omega) cut
  have reached := h.run_switch utf8 chunks (isHead.missing cut (by omega))
    (isHead.found cut starts ends) (processChunks_frames utf8 drained empty complete rest)
  rw [List.nil_append, switched] at reached
  exact reached.written

/-- Either no chunk of the target has a terminator, or there is a first one. -/
theorem searched (chunks : List (List UInt8)) :
    (∀ chunk ∈ chunks, indexOf headTerminator chunk = none) ∨
      ∃ before chunk after i, chunks = before ++ chunk :: after ∧
        (∀ chunk ∈ before, indexOf headTerminator chunk = none) ∧
        indexOf headTerminator chunk = some i := by
  cases found : chunks.find? fun chunk => (indexOf headTerminator chunk).isSome with
  | none =>
      left
      intro chunk hchunk
      simpa using List.find?_eq_none.mp found chunk hchunk
  | some chunk =>
      right
      obtain ⟨hchunk, before, after, heq, missing⟩ := List.find?_eq_some_iff_append.mp found
      obtain ⟨i, hi⟩ := Option.isSome_iff_exists.mp hchunk
      exact ⟨before, chunk, after, i, heq, fun earlier h => by simpa using missing earlier h, hi⟩

/-- Whatever follows, the client has all bytes up to the first terminator within a chunk. -/
theorem ClientSide.found_written {i : Nat} (h : pair.ClientSide [] false filter)
    (chunks : targetChunks events = before ++ chunk :: after)
    (missing : ∀ chunk ∈ before, indexOf headTerminator chunk = none)
    (found : indexOf headTerminator chunk = some i) :
    before.flatten ++ chunk.take (i + 4) <+: (run utf8 pair events).clientSocket.written := by
  obtain ⟨events₁, random, random', events₂, rfl, rfl, rfl⟩ := split_events chunks
  have reached := h.run_raw utf8 missing
  have sent := (reached.headSent (chunk.take (i + 4)) random).written
  rw [List.nil_append] at sent
  rw [run_append, run_cons, ← sent]
  refine List.IsPrefix.trans ?_ (run_written utf8 _ events₂)
  rw [step, reached.forwardTargetTraffic_eq utf8, if_neg (by decide), found]
  exact switchAt_written utf8 _ chunk i random random'

/-- A terminator within a chunk which is not behind the head is the one which ends it. -/
theorem IsHead.inOneChunk (isHead : IsHead head) {stream : List UInt8} {i : Nat}
    {chunks : List (List UInt8)} (sent : chunks.flatten = head ++ stream)
    (heq : chunks = before ++ chunk :: after) (found : indexOf headTerminator chunk = some i)
    (within : before.flatten.length + i + 4 ≤ head.length) : TerminatorInOneChunk head chunks := by
  have cut : before.flatten ++ (chunk ++ after.flatten) = head ++ stream := by
    rw [← sent, heq, List.flatten_append, List.flatten_cons]
  have ends := isHead.le_of_found cut found
  have there := found_length found
  exact ⟨before, chunk, after, heq, by omega, by omega⟩

/-- What is received is not longer than the head only when the terminator is in one chunk. -/
theorem ClientSide.inOneChunk_of_received (h : pair.ClientSide [] false filter)
    (isHead : IsHead head) (sent : (targetChunks events).flatten = head ++ frames.flatten)
    (within : (run utf8 pair events).clientSocket.written.length ≤ head.length) :
    frames.flatten = [] ∨ TerminatorInOneChunk head (targetChunks events) := by
  obtain missing | ⟨before, chunk, after, i, heq, missing, found⟩ :=
    searched (targetChunks events)
  · left
    rw [(h.run_raw utf8 missing).written, sent, List.nil_append, List.length_append] at within
    exact List.eq_nil_of_length_eq_zero (by omega)
  · right
    have there := found_length found
    have received := (h.found_written utf8 heq missing found).length_le
    rw [List.length_append, List.length_take] at received
    exact isHead.inOneChunk sent heq found (by omega)

/-- A head without frames is received as it is, however it is cut. -/
theorem ClientSide.run_head_alone (h : pair.ClientSide [] false filter)
    (drained : filter.Drained) (empty : filter.buffer = []) (isHead : IsHead head)
    (sent : (targetChunks events).flatten = head) :
    (run utf8 pair events).clientSocket.written = head := by
  obtain missing | ⟨before, chunk, after, i, heq, missing, found⟩ :=
    searched (targetChunks events)
  · rw [(h.run_raw utf8 missing).written, sent, List.nil_append]
  · have sent' : (targetChunks events).flatten = head ++ List.flatten [] := by
      rw [sent, List.flatten_nil, List.append_nil]
    have there := found_length found
    have sizes := congrArg List.length sent
    simp only [heq, List.flatten_append, List.flatten_cons, List.length_append] at sizes
    have whole := isHead.inOneChunk sent' heq found (by omega)
    have received := h.run_head utf8 drained empty isHead
      (fun raw hraw => absurd hraw List.not_mem_nil) sent' whole
    simpa [forwards] using received

end whole

end SocketPair

open SocketPair WebSocketFrameFilter in
/-- Segmentation: the client receives the head and the frames which the predicate does not
match, whichever predicate is set, if and only if there are no frames or the terminator of
the head arrives in one chunk. -/
theorem received_iff_terminatorInOneChunk (utf8 : List UInt8 → Option String)
    {head : List UInt8} {frames : List (List UInt8)} {events : List SocketPair.Event}
    (isHead : IsHead head) (complete : ∀ raw ∈ frames, CompleteFrame raw)
    (sent : (targetChunks events).flatten = head ++ frames.flatten) :
    (∀ predicate : DecodedWebSocketFrame → Bool,
      (handleClientConnection .websocket .normal none (some predicate)).map
          (fun pair => (run utf8 pair events).clientSocket.written) =
        some (head ++ (frames.filter fun raw => !(decode utf8 raw).any predicate).flatten)) ↔
      frames = [] ∨ TerminatorInOneChunk head (targetChunks events) := by
  have drained : ∀ predicate, Drained { dropPredicate := some predicate } := by
    intro predicate n hn
    cases hn
  constructor
  · intro h
    -- The predicate which matches every frame: nothing but the head may be received.
    have all := h fun _ => true
    rw [handleClientConnection, if_neg (by decide), Option.map_some, Option.some_inj] at all
    have none : (frames.filter fun raw => !(decode utf8 raw).any fun _ => true) = [] := by
      refine List.filter_eq_nil_iff.mpr fun raw hraw => ?_
      obtain ⟨frame, heq⟩ := (complete raw hraw).decode_eq utf8
      simp [heq]
    rw [none, List.flatten_nil, List.append_nil] at all
    have start := handleClientConnection_clientSide (some fun _ => true) rfl
    refine (start.inOneChunk_of_received utf8 isHead sent (by rw [all])).imp_left ?_
    intro empty
    refine List.eq_nil_iff_forall_not_mem.mpr fun raw hraw => ?_
    have nothing : raw = [] := List.flatten_eq_nil_iff.mp empty raw hraw
    have size := (framing.bounds (completeFrame_iff.mp (complete raw hraw))).1
    simp [nothing] at size
  · intro h predicate
    rw [handleClientConnection, if_neg (by decide), Option.map_some, Option.some_inj]
    have start := handleClientConnection_clientSide (some predicate) rfl
    obtain rfl | whole := h
    · rw [List.flatten_nil, List.append_nil] at sent
      rw [start.run_head_alone utf8 (drained predicate) rfl isHead sent, List.filter_nil,
        List.flatten_nil, List.append_nil]
    · exact start.run_head utf8 (drained predicate) rfl isHead complete sent whole

/-- A response which switches protocols. -/
def switchingProtocols : List UInt8 :=
  "HTTP/1.1 101 Switching Protocols\r\nUpgrade: websocket\r\n".toUTF8.data.toList ++
    "Connection: Upgrade\r\n".toUTF8.data.toList ++
    "Sec-WebSocket-Accept: s3pPLMBiTxaQ9kYGzzhZRbK+xOo=\r\n\r\n".toUTF8.data.toList

/-- The decoding of ASCII bytes. -/
def asciiText (bytes : List UInt8) : Option String :=
  some (String.ofList (bytes.map fun b => Char.ofNat b.toNat))

open SocketPair WebSocketFrameFilter in
theorem received_iff_terminatorInOneChunk_whole :
    (handleClientConnection .websocket .normal none
        (some fun frame => frame.text == some "hi")).map
      (fun pair =>
        (run asciiText pair
          [.target (switchingProtocols ++ [0x81]) ⟨0, by decide⟩ ⟨0, by decide⟩,
            .target [0x02, 0x68, 0x69, 0x82, 0x00] ⟨0, by decide⟩
              ⟨0, by decide⟩]).clientSocket.written) =
      some (switchingProtocols ++ ([[0x81, 0x02, 0x68, 0x69], [0x82, 0x00]].filter fun raw =>
        !(decode asciiText raw).any fun frame => frame.text == some "hi").flatten) :=
  (received_iff_terminatorInOneChunk asciiText (by decide +kernel)
    (List.forall_mem_cons.mpr ⟨by decide +kernel,
      List.forall_mem_singleton.mpr (by decide +kernel)⟩) (by decide +kernel)).mpr
    (.inr ⟨[], switchingProtocols ++ [0x81], [[0x02, 0x68, 0x69, 0x82, 0x00]], by decide +kernel,
      by decide +kernel, by decide +kernel⟩) fun frame => frame.text == some "hi"

open SocketPair WebSocketFrameFilter in
/-- The line feed which ends the head arrives with the first frame: the pair stays raw, and
the client receives the text frame which the predicate matches. -/
theorem received_terminator_cut :
    IsHead switchingProtocols ∧ CompleteFrame [0x81, 0x02, 0x68, 0x69] ∧
      [switchingProtocols.dropLast, [0x0a, 0x81, 0x02, 0x68, 0x69]].flatten =
        switchingProtocols ++ [[0x81, 0x02, 0x68, 0x69]].flatten ∧
      (handleClientConnection .websocket .normal none
          (some fun frame => frame.text == some "hi")).map
        (fun pair =>
          (run asciiText pair
            [.target switchingProtocols.dropLast ⟨0, by decide⟩ ⟨0, by decide⟩,
              .target [0x0a, 0x81, 0x02, 0x68, 0x69] ⟨0, by decide⟩
                ⟨0, by decide⟩]).clientSocket.written) ≠
        some (switchingProtocols ++ ([[0x81, 0x02, 0x68, 0x69]].filter fun raw =>
          !(decode asciiText raw).any fun frame => frame.text == some "hi").flatten) := by
  decide +kernel

end Pulse
