import Pulse.Transition.Run
import Mathlib.Data.Rat.Floor

/-!
# Latency injection

The fault proxy in front of one destination socket. Under a latency
configuration each forwarded chunk waits for a timer of its own; without one it
is written at once. A timer may fire whenever it is due, before others which are
due as well. Where timers fire when they are due, the order of the bytes depends on
the schedule alone: when each chunk was sent, and with which delay.
-/

namespace Pulse

structure LatencyFaultConfig where
  minDelayMs : Int
  maxDelayMs : Int
  deriving DecidableEq, Repr

/-- A number drawn by `Math.random`. -/
abbrev Random := {r : ℚ // 0 ≤ r ∧ r < 1}

/-- The delay drawn for a chunk. -/
def LatencyFaultConfig.delay (config : LatencyFaultConfig) (random : Random) : Int :=
  ⌊random.val * (config.maxDelayMs - config.minDelayMs + 1 : Int)⌋ + config.minDelayMs

/-- The delay which `setTimeout` uses. -/
def timeoutDelay (delay : Int) : Nat :=
  if delay < 1 ∨ 2147483647 < delay then 1 else delay.toNat

/-- The timer of a delayed write. -/
structure PendingWrite where
  setAt : Nat
  delay : Nat
  buffersToSend : List (List UInt8)
  deriving DecidableEq, Repr

def PendingWrite.due (timer : PendingWrite) : Nat := timer.setAt + timer.delay

/-- A chunk which the destination takes: the time at which it is sent, and its delay. -/
structure Scheduled where
  sentAt : Nat
  delay : Nat
  deriving DecidableEq, Repr

def Scheduled.due (chunk : Scheduled) : Nat := chunk.sentAt + chunk.delay

def PendingWrite.scheduled (timer : PendingWrite) : Scheduled :=
  { sentAt := timer.setAt, delay := timer.delay }

/-- The later of two chunks is due later, or they were sent at one time with one delay. -/
def Scheduled.Before (a b : Scheduled) : Prop := a.due < b.due ∨ a = b

instance (a b : Scheduled) : Decidable (a.Before b) :=
  inferInstanceAs (Decidable (_ ∨ _))

/-- The proxy as far as one destination is concerned; `writable` is whether the socket is
neither destroyed nor ended. -/
structure FaultProxy where
  now : Nat := 0
  latencyConfig : Option LatencyFaultConfig := none
  /-- In the order in which the timers were set. -/
  pendingTimers : List PendingWrite := []
  writable : Bool := true
  written : List UInt8 := []
  deriving DecidableEq, Repr

namespace FaultProxy

/-- The writes of one call or timer. -/
def write (p : FaultProxy) (buffersToSend : List (List UInt8)) : FaultProxy :=
  { p with written := p.written ++ buffersToSend.flatten }

def sendToSocket (p : FaultProxy) (buffersToSend : List (List UInt8)) (random : Random) :
    FaultProxy :=
  if p.writable then
    match p.latencyConfig with
    | some config =>
        { p with
          pendingTimers := p.pendingTimers ++
            [{ setAt := p.now, delay := timeoutDelay (config.delay random), buffersToSend }] }
    | none => p.write buffersToSend
  else p

/-- The callback of a timer. -/
def fire (p : FaultProxy) (index : Nat) (timer : PendingWrite) : FaultProxy :=
  let p := { p with pendingTimers := p.pendingTimers.eraseIdx index }
  if p.writable then p.write timer.buffersToSend else p

/-- `close` clears the timers and destroys the sockets. -/
def close (p : FaultProxy) : FaultProxy :=
  { p with pendingTimers := [], writable := false }

inductive Event where
  | elapse (ms : Nat)
  | injectLatency (config : Option LatencyFaultConfig)
  | send (buffersToSend : List (List UInt8)) (random : Random)
  | timer (index : Nat)
  | destinationEnds
  | close

def step (p : FaultProxy) : Event → Option FaultProxy
  | .elapse ms => some { p with now := p.now + ms }
  | .injectLatency config => some { p with latencyConfig := config }
  | .send buffersToSend random => some (p.sendToSocket buffersToSend random)
  | .timer index =>
      match p.pendingTimers[index]? with
      | some timer => if timer.due ≤ p.now then some (p.fire index timer) else none
      | none => none
  | .destinationEnds => some { p with writable := false }
  | .close => some p.close

/-- The bytes which an event forwards. -/
def Event.forwarded : Event → List UInt8
  | .send buffersToSend _ => buffersToSend.flatten
  | _ => []

/-- The bytes forwarded in a run, in order of arrival. -/
def forwarded (events : List Event) : List UInt8 := events.flatMap Event.forwarded

/-- Nothing is written while a chunk which was forwarded before it still waits. -/
def InOrder (p : FaultProxy) : Event → Prop
  | .send _ _ => p.writable = true → p.latencyConfig = none → p.pendingTimers = []
  | .timer index => p.writable = true → index = 0
  | _ => True

instance (p : FaultProxy) : DecidablePred p.InOrder
  | .send _ _ => inferInstanceAs (Decidable (_ → _ → _))
  | .timer _ => inferInstanceAs (Decidable (_ → _))
  | .elapse _ | .injectLatency _ | .destinationEnds | .close => isTrue trivial

/-- The bytes which wait. -/
def waiting (p : FaultProxy) : List UInt8 :=
  p.pendingTimers.flatMap fun timer => timer.buffersToSend.flatten

/-- The destination has a first part of what arrived, and, as long as it can be written, the
rest waits. -/
structure Queued (p : FaultProxy) (arrived : List UInt8) : Prop where
  inOrder : p.written <+: arrived
  waits : p.writable = true → p.written ++ p.waiting = arrived

theorem sendToSocket_queued {p : FaultProxy} {arrived : List UInt8} (h : p.Queued arrived)
    (buffersToSend : List (List UInt8)) (random : Random)
    (inOrder : p.InOrder (.send buffersToSend random)) :
    (p.sendToSocket buffersToSend random).Queued (arrived ++ buffersToSend.flatten) := by
  have longer : p.written <+: arrived ++ buffersToSend.flatten :=
    h.inOrder.trans (List.prefix_append _ _)
  rw [sendToSocket]
  by_cases writable : p.writable = true
  · rw [if_pos writable]
    have waits := h.waits writable
    cases config : p.latencyConfig with
    | some latency =>
        refine ⟨longer, fun _ => ?_⟩
        simp only [waiting, List.flatMap_append, List.flatMap_singleton, ← List.append_assoc]
        exact congrArg (· ++ _) waits
    | none =>
        have empty : p.pendingTimers = [] := inOrder writable config
        have all : p.written = arrived := by simpa [waiting, empty] using waits
        have done : (p.write buffersToSend).written = arrived ++ buffersToSend.flatten :=
          congrArg (· ++ _) all
        refine ⟨done ▸ List.prefix_refl _, fun _ => ?_⟩
        simp [waiting, write, empty, all]
  · rw [if_neg writable]
    exact ⟨longer, fun h => absurd h writable⟩

theorem fire_queued {p : FaultProxy} {arrived : List UInt8} (h : p.Queued arrived)
    {index : Nat} {timer : PendingWrite} (there : p.pendingTimers[index]? = some timer)
    (inOrder : p.InOrder (.timer index)) : (p.fire index timer).Queued arrived := by
  rw [fire]
  by_cases writable : p.writable = true
  · simp only [if_pos writable]
    obtain rfl : index = 0 := inOrder writable
    cases timers : p.pendingTimers with
    | nil => simp [timers] at there
    | cons first rest =>
        obtain rfl : first = timer := by simpa [timers] using there
        have waits := h.waits writable
        simp only [waiting, timers, List.flatMap_cons] at waits
        have next : (p.written ++ first.buffersToSend.flatten) ++
            rest.flatMap (fun timer => timer.buffersToSend.flatten) = arrived := by
          rw [List.append_assoc, waits]
        exact ⟨⟨_, next⟩, fun _ => next⟩
  · simp only [if_neg writable]
    exact ⟨h.inOrder, fun h => absurd h writable⟩

theorem step_queued {p q : FaultProxy} {arrived : List UInt8} {e : Event} (h : p.Queued arrived)
    (inOrder : p.InOrder e) (hstep : p.step e = some q) :
    q.Queued (arrived ++ e.forwarded) := by
  cases e with
  | send buffersToSend random =>
      cases hstep
      exact sendToSocket_queued h buffersToSend random inOrder
  | timer index =>
      have nothing : arrived ++ (Event.timer index).forwarded = arrived := List.append_nil arrived
      rw [nothing]
      simp only [step] at hstep
      cases there : p.pendingTimers[index]? with
      | none => simp [there] at hstep
      | some timer =>
          simp only [there] at hstep
          obtain ⟨-, hfire⟩ := Option.ite_none_right_eq_some.mp hstep
          cases hfire
          exact fire_queued h there inOrder
  | elapse ms =>
      cases hstep
      exact (List.append_nil arrived).symm ▸ ⟨h.inOrder, h.waits⟩
  | injectLatency config =>
      cases hstep
      exact (List.append_nil arrived).symm ▸ ⟨h.inOrder, h.waits⟩
  | destinationEnds =>
      cases hstep
      exact (List.append_nil arrived).symm ▸ ⟨h.inOrder, nofun⟩
  | close =>
      cases hstep
      exact (List.append_nil arrived).symm ▸ ⟨h.inOrder, nofun⟩

open Transition in
theorem run_queued {p q : FaultProxy} {arrived : List UInt8} {events : List Event}
    (h : p.Queued arrived) (inOrder : EveryStep step (fun p e _ => p.InOrder e) p events)
    (hrun : run step p events = some q) : q.Queued (arrived ++ forwarded events) := by
  induction events generalizing p arrived with
  | nil =>
      cases hrun
      simpa [forwarded] using h
  | cons e events ih =>
      rw [run_cons, Option.bind_eq_some_iff] at hrun
      obtain ⟨t, hstep, hrest⟩ := hrun
      obtain ⟨first, others⟩ := inOrder t hstep
      have next := ih (step_queued h first hstep) others hrest
      rwa [List.append_assoc] at next

open Transition in
/-- In every run in which nothing is written while an earlier chunk waits, the destination has
been written a first part of the bytes forwarded to it. -/
theorem written_prefix_of_inOrder {latencyConfig : Option LatencyFaultConfig}
    {events : List Event} {p : FaultProxy}
    (inOrder : EveryStep step (fun p e _ => p.InOrder e) { latencyConfig } events)
    (hrun : run step { latencyConfig } events = some p) :
    p.written <+: forwarded events :=
  have start : Queued { latencyConfig } [] := ⟨List.prefix_refl [], fun _ => rfl⟩
  (run_queued start inOrder hrun).inOrder

section schedule

open Transition

/-- The schedule of the chunks which are sent from a time on, as the configurations and the draws
have it. It ends with the destination. -/
def schedule (now : Nat) (latencyConfig : Option LatencyFaultConfig) : List Event → List Scheduled
  | [] => []
  | .elapse ms :: events => schedule (now + ms) latencyConfig events
  | .injectLatency config :: events => schedule now config events
  | .send _ random :: events =>
      { sentAt := now
        delay := latencyConfig.elim 0 fun config => timeoutDelay (config.delay random) } ::
        schedule now latencyConfig events
  | .timer _ :: events => schedule now latencyConfig events
  | .destinationEnds :: _ => []
  | .close :: _ => []

/-- Timers fire when they are due: no time passes until then, and of several timers the one
which is due first comes first. Timers with one delay which are due at one time fire in the
order in which they were set. -/
def Punctual (p : FaultProxy) : Event → Prop
  | .elapse ms => ∀ timer ∈ p.pendingTimers, p.now + ms ≤ timer.due
  | .timer index => ∀ timer ∈ p.pendingTimers[index]?,
      (∀ other ∈ p.pendingTimers, timer.due ≤ other.due) ∧
        ∀ earlier ∈ p.pendingTimers.take index, earlier.scheduled ≠ timer.scheduled
  | _ => True

instance (p : FaultProxy) : DecidablePred p.Punctual
  | .elapse _ => inferInstanceAs (Decidable (∀ _ ∈ _, _))
  | .timer _ => inferInstanceAs (Decidable (∀ _ ∈ _, _))
  | .send _ _ | .injectLatency _ | .destinationEnds | .close => isTrue trivial

/-- No chunk is sent before the time from which on the schedule is taken. -/
theorem le_sentAt_of_mem {now : Nat} {latencyConfig : Option LatencyFaultConfig}
    {events : List Event} {chunk : Scheduled} (h : chunk ∈ schedule now latencyConfig events) :
    now ≤ chunk.sentAt := by
  induction events generalizing now latencyConfig with
  | nil => cases h
  | cons e events ih =>
      cases e with
      | elapse ms => exact Nat.le_trans (Nat.le_add_right now ms) (ih h)
      | injectLatency config => exact ih h
      | send buffersToSend random =>
          obtain rfl | hrest := List.mem_cons.mp h
          · exact Nat.le_refl _
          · exact ih hrest
      | timer index => exact ih h
      | destinationEnds => cases h
      | close => cases h

/-- What waits and what is still to be sent is due in this order. -/
structure OnSchedule (p : FaultProxy) (events : List Event) : Prop where
  before : (p.pendingTimers.map PendingWrite.scheduled ++
    schedule p.now p.latencyConfig events).Pairwise Scheduled.Before
  waits : ∀ timer ∈ p.pendingTimers, p.now ≤ timer.due
  delayed : ∀ timer ∈ p.pendingTimers, 0 < timer.delay

theorem OnSchedule.tail {p q : FaultProxy} {events rest : List Event} (h : p.OnSchedule events)
    (timers : q.pendingTimers.Sublist p.pendingTimers)
    (waits : ∀ timer ∈ q.pendingTimers, q.now ≤ timer.due)
    (future : (schedule q.now q.latencyConfig rest).Sublist
      (schedule p.now p.latencyConfig events)) : q.OnSchedule rest where
  before := h.before.sublist ((timers.map _).append future)
  waits := waits
  delayed := fun timer htimer => h.delayed timer (timers.subset htimer)

/-- A chunk without delay finds no timer. -/
theorem OnSchedule.pendingTimers_eq_nil {p : FaultProxy} {buffersToSend : List (List UInt8)}
    {random : Random} {events : List Event}
    (h : p.OnSchedule (.send buffersToSend random :: events)) (config : p.latencyConfig = none) :
    p.pendingTimers = [] := by
  refine List.eq_nil_iff_forall_not_mem.mpr fun timer htimer => ?_
  have hwaits := h.waits timer htimer
  have hdelayed := h.delayed timer htimer
  have hchunk : timer.scheduled.Before { sentAt := p.now, delay := 0 } := by
    refine (List.pairwise_append.mp h.before).2.2 _ (List.mem_map_of_mem htimer) _ ?_
    rw [config]
    exact List.mem_cons_self
  obtain hdue | hsame := hchunk
  · exact absurd hdue (Nat.not_lt.mpr hwaits)
  · have hnone : timer.delay = 0 := congrArg Scheduled.delay hsame
    omega

/-- A timer which fires when it is due is the oldest. -/
theorem OnSchedule.index_eq_zero {p : FaultProxy} {events : List Event} {index : Nat}
    {timer : PendingWrite} (h : p.OnSchedule events)
    (there : p.pendingTimers[index]? = some timer) (punctual : p.Punctual (.timer index)) :
    index = 0 := by
  obtain ⟨hfirst, hties⟩ := punctual timer there
  cases htimers : p.pendingTimers with
  | nil => simp [htimers] at there
  | cons first rest =>
      rw [htimers] at hfirst hties there
      cases index with
      | zero => rfl
      | succ index =>
          have hbefore := (List.pairwise_append.mp h.before).1
          rw [htimers, List.map_cons, List.pairwise_cons] at hbefore
          have hrest : timer ∈ rest := List.mem_of_getElem? there
          obtain hdue | hsame := hbefore.1 _ (List.mem_map_of_mem hrest)
          · exact absurd hdue (Nat.not_lt.mpr (hfirst first List.mem_cons_self))
          · exact absurd hsame (hties first List.mem_cons_self)

theorem timeoutDelay_pos (delay : Int) : 0 < timeoutDelay delay := by
  rw [timeoutDelay]
  split_ifs with h
  · exact Nat.one_pos
  · omega

theorem sendToSocket_of_some {p : FaultProxy} {config : LatencyFaultConfig}
    (writable : p.writable = true) (latency : p.latencyConfig = some config)
    (buffersToSend : List (List UInt8)) (random : Random) :
    p.sendToSocket buffersToSend random =
      { p with
        pendingTimers := p.pendingTimers ++
          [{ setAt := p.now, delay := timeoutDelay (config.delay random), buffersToSend }] } := by
  rw [sendToSocket, if_pos writable, latency]

theorem sendToSocket_of_none {p : FaultProxy} (writable : p.writable = true)
    (latency : p.latencyConfig = none) (buffersToSend : List (List UInt8)) (random : Random) :
    p.sendToSocket buffersToSend random = p.write buffersToSend := by
  rw [sendToSocket, if_pos writable, latency]

@[simp] theorem sendToSocket_writable (p : FaultProxy) (buffersToSend : List (List UInt8))
    (random : Random) : (p.sendToSocket buffersToSend random).writable = p.writable := by
  rw [sendToSocket]
  split_ifs
  · cases p.latencyConfig <;> rfl
  · rfl

@[simp] theorem fire_writable (p : FaultProxy) (index : Nat) (timer : PendingWrite) :
    (p.fire index timer).writable = p.writable := by
  rw [fire]
  split_ifs <;> rfl

theorem sendToSocket_onSchedule {p : FaultProxy} {buffersToSend : List (List UInt8)}
    {random : Random} {events : List Event}
    (h : p.OnSchedule (.send buffersToSend random :: events)) (writable : p.writable = true) :
    (p.sendToSocket buffersToSend random).OnSchedule events := by
  cases config : p.latencyConfig with
  | none =>
      rw [sendToSocket_of_none writable config]
      exact h.tail (List.Sublist.refl _) h.waits (List.sublist_cons_self ..)
  | some latency =>
      rw [sendToSocket_of_some writable config]
      refine ⟨?_, ?_, ?_⟩
      · -- the head of the schedule is the last of the timers now
        have hbefore := h.before
        rw [schedule, config, Option.elim_some, ← config] at hbefore
        rw [List.map_append, List.append_assoc]
        exact hbefore
      · intro timer htimer
        obtain hold | hnew := List.mem_append.mp htimer
        · exact h.waits timer hold
        · rw [List.mem_singleton.mp hnew]
          exact Nat.le_add_right _ _
      · intro timer htimer
        obtain hold | hnew := List.mem_append.mp htimer
        · exact h.delayed timer hold
        · rw [List.mem_singleton.mp hnew]
          exact timeoutDelay_pos _

theorem fire_onSchedule {p : FaultProxy} {index : Nat} {timer : PendingWrite}
    {events : List Event} (h : p.OnSchedule (.timer index :: events)) :
    (p.fire index timer).OnSchedule events := by
  have htimers : (p.pendingTimers.eraseIdx index).Sublist p.pendingTimers :=
    List.eraseIdx_sublist ..
  have hfired : FaultProxy.OnSchedule
      { p with pendingTimers := p.pendingTimers.eraseIdx index } events :=
    h.tail htimers (fun t ht => h.waits t (htimers.subset ht)) (List.Sublist.refl _)
  rw [fire]
  split_ifs
  · exact ⟨hfired.before, hfired.waits, hfired.delayed⟩
  · exact hfired

/-- On schedule, a step writes nothing while an earlier chunk waits. -/
theorem OnSchedule.inOrder {p : FaultProxy} {e : Event} {events : List Event}
    (h : p.writable = true → p.OnSchedule (e :: events)) (punctual : p.Punctual e)
    {q : FaultProxy} (hstep : p.step e = some q) : p.InOrder e := by
  cases e with
  | send buffersToSend random =>
      exact fun writable config => (h writable).pendingTimers_eq_nil config
  | timer index =>
      intro writable
      simp only [step] at hstep
      cases there : p.pendingTimers[index]? with
      | none => simp [there] at hstep
      | some timer => exact (h writable).index_eq_zero there punctual
  | elapse ms => trivial
  | injectLatency config => trivial
  | destinationEnds => trivial
  | close => trivial

theorem step_onSchedule {p q : FaultProxy} {e : Event} {events : List Event}
    (h : p.writable = true → p.OnSchedule (e :: events)) (punctual : p.Punctual e)
    (hstep : p.step e = some q) (writable : q.writable = true) : q.OnSchedule events := by
  cases e with
  | elapse ms =>
      cases hstep
      exact (h writable).tail (List.Sublist.refl _) punctual (List.Sublist.refl _)
  | injectLatency config =>
      cases hstep
      exact (h writable).tail (List.Sublist.refl _) (h writable).waits (List.Sublist.refl _)
  | send buffersToSend random =>
      cases hstep
      rw [sendToSocket_writable] at writable
      exact sendToSocket_onSchedule (h writable) writable
  | timer index =>
      simp only [step] at hstep
      cases there : p.pendingTimers[index]? with
      | none => simp [there] at hstep
      | some timer =>
          simp only [there] at hstep
          obtain ⟨-, hfire⟩ := Option.ite_none_right_eq_some.mp hstep
          cases hfire
          rw [fire_writable] at writable
          exact fire_onSchedule (h writable)
  | destinationEnds =>
      cases hstep
      cases writable
  | close =>
      cases hstep
      cases writable

theorem everyStep_inOrder {p : FaultProxy} {events : List Event}
    (h : p.writable = true → p.OnSchedule events)
    (punctual : EveryStep step (fun p e _ => p.Punctual e) p events) :
    EveryStep step (fun p e _ => p.InOrder e) p events := by
  induction events generalizing p with
  | nil => trivial
  | cons e events ih =>
      intro q hstep
      obtain ⟨first, others⟩ := punctual q hstep
      exact ⟨OnSchedule.inOrder h first hstep,
        ih (fun writable => step_onSchedule h first hstep writable) others⟩

theorem onSchedule_initial {latencyConfig : Option LatencyFaultConfig} {events : List Event}
    (scheduled : (schedule 0 latencyConfig events).Pairwise Scheduled.Before) :
    OnSchedule { latencyConfig } events :=
  ⟨scheduled, fun _ h => absurd h List.not_mem_nil, fun _ h => absurd h List.not_mem_nil⟩

/-- Byte order: in every run in which timers fire when they are due, the destination has been
written a first part of the bytes forwarded to it, provided that each chunk is due later than
those sent before it, or was sent with one of them at one time with one delay. -/
theorem written_prefix_of_schedule (latencyConfig : Option LatencyFaultConfig)
    (events : List Event) (p : FaultProxy)
    (punctual : EveryStep step (fun p e _ => p.Punctual e) { latencyConfig } events)
    (scheduled : (schedule 0 latencyConfig events).Pairwise Scheduled.Before)
    (hrun : run step { latencyConfig } events = some p) :
    p.written <+: forwarded events := by
  have start := onSchedule_initial scheduled
  exact written_prefix_of_inOrder (everyStep_inOrder (fun _ => start) punctual) hrun

/-- Draws of one half, and of zero. -/
def half : Random := ⟨1 / 2, by norm_num⟩
def zero : Random := ⟨0, by norm_num⟩

/-- Two delayed chunks, and one after the latency is taken away. -/
def threeChunks : List Event :=
  [.send [[1]] zero, .send [[2]] half, .elapse 60, .timer 0, .elapse 10, .timer 0, .elapse 1,
    .injectLatency none, .send [[3]] zero]

theorem written_prefix_three_chunks :
    ∃ p, run step { latencyConfig := some ⟨60, 80⟩ } threeChunks = some p ∧
      p.written = [1, 2, 3] ∧ p.written <+: forwarded threeChunks := by
  have hrun : run step { latencyConfig := some ⟨60, 80⟩ } threeChunks =
      some { now := 71, written := [1, 2, 3] } := by
    decide +kernel
  exact ⟨_, hrun, rfl, written_prefix_of_schedule (some ⟨60, 80⟩) threeChunks _
    (by decide +kernel) (by decide +kernel) hrun⟩

theorem delay_of_constant {config : LatencyFaultConfig}
    (constant : config.minDelayMs = config.maxDelayMs) (random : Random) :
    config.delay random = config.minDelayMs := by
  have hspan : (config.maxDelayMs - config.minDelayMs + 1 : Int) = 1 := by omega
  have hfloor : ⌊random.val * ((1 : Int) : ℚ)⌋ = 0 := by
    rw [Int.cast_one, mul_one]
    exact Int.floor_eq_zero_iff.mpr random.property
  rw [LatencyFaultConfig.delay, hspan, hfloor, zero_add]

/-- Chunks are in the order in which they are sent. -/
theorem schedule_sorted (now : Nat) (latencyConfig : Option LatencyFaultConfig)
    (events : List Event) :
    (schedule now latencyConfig events).Pairwise fun a b => a.sentAt ≤ b.sentAt := by
  induction events generalizing now latencyConfig with
  | nil => exact .nil
  | cons e events ih =>
      cases e with
      | elapse ms => exact ih ..
      | injectLatency config => exact ih ..
      | send buffersToSend random =>
          exact List.pairwise_cons.mpr ⟨fun _ hchunk => le_sentAt_of_mem hchunk, ih ..⟩
      | timer index => exact ih ..
      | destinationEnds => exact .nil
      | close => exact .nil

/-- Under one configuration with one delay, every chunk has that delay. -/
theorem delay_of_mem_schedule {latencyConfig : Option LatencyFaultConfig}
    (constant : ∀ config ∈ latencyConfig, config.minDelayMs = config.maxDelayMs)
    {events : List Event} (unchanged : ∀ config, .injectLatency config ∉ events) {now : Nat}
    {chunk : Scheduled} (h : chunk ∈ schedule now latencyConfig events) :
    chunk.delay = latencyConfig.elim 0 fun config => timeoutDelay config.minDelayMs := by
  induction events generalizing now with
  | nil => cases h
  | cons e events ih =>
      have later : ∀ config, .injectLatency config ∉ events := fun config hmem =>
        unchanged config (List.mem_cons_of_mem _ hmem)
      cases e with
      | elapse ms => exact ih later h
      | injectLatency config => exact absurd List.mem_cons_self (unchanged config)
      | send buffersToSend random =>
          obtain rfl | hrest := List.mem_cons.mp h
          · cases latencyConfig with
            | none => rfl
            | some config =>
                simp only [Option.elim_some, delay_of_constant (constant config rfl)]
          · exact ih later hrest
      | timer index => exact ih later h
      | destinationEnds => cases h
      | close => cases h

theorem schedule_pairwise_of_constant {latencyConfig : Option LatencyFaultConfig}
    (constant : ∀ config ∈ latencyConfig, config.minDelayMs = config.maxDelayMs)
    {events : List Event} (unchanged : ∀ config, .injectLatency config ∉ events) (now : Nat) :
    (schedule now latencyConfig events).Pairwise Scheduled.Before := by
  refine (schedule_sorted now latencyConfig events).imp_of_mem fun {a b} ha hb hle => ?_
  have hdelay : a.delay = b.delay :=
    (delay_of_mem_schedule constant unchanged ha).trans
      (delay_of_mem_schedule constant unchanged hb).symm
  obtain hlt | heq := Nat.lt_or_eq_of_le hle
  · left
    rw [Scheduled.due, Scheduled.due, hdelay]
    exact Nat.add_lt_add_right hlt _
  · right
    cases a
    cases b
    simp_all

/-- A constant latency keeps the order of the bytes. -/
theorem written_prefix_of_constant {latencyConfig : Option LatencyFaultConfig}
    (constant : ∀ config ∈ latencyConfig, config.minDelayMs = config.maxDelayMs)
    {events : List Event} (unchanged : ∀ config, .injectLatency config ∉ events) {p : FaultProxy}
    (punctual : EveryStep step (fun p e _ => p.Punctual e) { latencyConfig } events)
    (hrun : run step { latencyConfig } events = some p) :
    p.written <+: forwarded events := by
  have start := onSchedule_initial (schedule_pairwise_of_constant constant unchanged 0)
  exact written_prefix_of_inOrder (everyStep_inOrder (fun _ => start) punctual) hrun

end schedule

open Transition in
/-- The second chunk overtakes the first when its delay is shorter. -/
theorem later_chunk_overtakes :
    run step { latencyConfig := some ⟨60, 80⟩ }
        [.send [[1]] half, .send [[2]] zero, .elapse 60, .timer 1] =
      some { now := 60, latencyConfig := some ⟨60, 80⟩, pendingTimers := [⟨0, 70, [[1]]⟩],
             written := [2] } ∧
      ¬ [2] <+: forwarded [.send [[1]] half, .send [[2]] zero, .elapse 60, .timer 1] := by
  decide +kernel

end FaultProxy

end Pulse
