import Pulse.Core.Admission

/-!
# Draining

`drain` refuses the requests which arrive from then on and tells the connections
of that moment about the shutdown. The handler of a request looks at the draining
flag before it awaits the embedded gateway and not again, so a request that the
gateway declines later is still admitted.
-/

namespace Pulse

open Collections Transition

/-- `ws` has the request and did not answer yet. -/
def Upgrade.handshaking (u : Upgrade) : Bool :=
  match u.phase with
  | .handshake _ => true
  | _ => false

/-- The answers of `ws`. -/
def AdmissionEvent.answersHandshake : AdmissionEvent → Bool
  | .upgraded .. | .dropped _ => true
  | _ => false

theorem Upgrade.Quiet.handshaking {u u' : Upgrade} (h : u.Quiet u')
    (handshaking : u'.handshaking = true) (live : u'.socket = .open) :
    u.handshaking = true ∧ u.socket = .open := by
  cases h with
  | handled => exact absurd handshaking Bool.false_ne_true
  | rejected => exact absurd handshaking Bool.false_ne_true
  | dropped => exact absurd handshaking Bool.false_ne_true
  | ended => cases live

namespace Admission

/-- A handshake is answered within the call that starts it, before anything else happens. -/
def HandshakeAnswered (s : Admission) (e : AdmissionEvent) : Prop :=
  (∃ u ∈ s.upgrades, u.handshaking = true) → e.answersHandshake = true

instance (s : Admission) (e : AdmissionEvent) : Decidable (s.HandshakeAnswered e) :=
  inferInstanceAs (Decidable ((∃ u ∈ s.upgrades, u.handshaking = true) →
    e.answersHandshake = true))

/-- A request which the gateway declines during the drain, and which is authenticated and
finds a free slot, has lost its socket. -/
def AdmitsNobodyWhileDraining (s : Admission) : AdmissionEvent → Prop
  | .gatewayDeclined i userId =>
      s.isShuttingDown = true → userId.isSome = true →
        s.connectionManager.hasFreeSlot = true →
          (s.upgrades[i]?).all (·.socket ≠ .open) = true
  | _ => True

instance (s : Admission) : ∀ e, Decidable (s.AdmitsNobodyWhileDraining e)
  | .gatewayDeclined i userId =>
      inferInstanceAs (Decidable (s.isShuttingDown = true → userId.isSome = true →
        s.connectionManager.hasFreeSlot = true →
          (s.upgrades[i]?).all (·.socket ≠ .open) = true))
  | .upgrade .. | .gatewayHandled _ | .gatewayFailed _ | .upgraded .. | .dropped _
  | .socketEnded _ | .socketError _ | .socketClosed _ | .disconnect _ | .drain | .stopped =>
      isTrue trivial

/-- While the server drains, no connection is registered. -/
def RegistersNobodyWhileDraining (s t : Admission) : Prop :=
  s.isShuttingDown = true →
    ∀ c ∈ t.connectionManager.connections.keys, c ∈ s.connectionManager.connections.keys

/-- While the server drains, every connection was told. -/
def AllNotified (s : Admission) : Prop :=
  s.isShuttingDown = true → ∀ c ∈ s.connectionManager.connections.keys, c ∈ s.notified

/-- While the server drains, no handshake can be completed. -/
def NoHandshake (s : Admission) : Prop :=
  s.isShuttingDown = true → ∀ u ∈ s.upgrades, u.handshaking = true → u.socket ≠ .open

section steps

variable {s : Admission} {i : Nat} {u u' : Upgrade}

theorem NoHandshake.setUpgrade (h : s.NoHandshake) (m : ConnectionManager)
    (closed : s.isShuttingDown = true → u'.handshaking = true → u'.socket ≠ .open) :
    ({ s with connectionManager := m }.setUpgrade i u').NoHandshake := by
  intro hdraining v hv hhandshaking
  obtain hv | rfl := List.mem_or_eq_of_mem_set hv
  · exact h hdraining v hv hhandshaking
  · exact closed hdraining hhandshaking

theorem NoHandshake.quiet (h : s.NoHandshake) (found : s.upgrades[i]? = some u)
    (quiet : u.Quiet u') : (s.setUpgrade i u').NoHandshake := by
  refine h.setUpgrade _ fun hdraining hhandshaking hopen => ?_
  obtain ⟨hbefore, hlive⟩ := quiet.handshaking hhandshaking hopen
  exact h hdraining u (List.mem_of_getElem? found) hbefore hlive

theorem NoHandshake.arrive (h : s.NoHandshake) : s.arrive.NoHandshake := by
  intro hdraining u hu hhandshaking
  obtain hu | hu := List.mem_append.mp hu
  · exact h hdraining u hu hhandshaking
  · cases List.mem_singleton.mp hu
    exact absurd hhandshaking Bool.false_ne_true

theorem NoHandshake.admissionControl (h : s.NoHandshake) (found : s.upgrades[i]? = some u)
    (gateway : u.phase = .gateway) {userId : Option UserId}
    (refuses : s.isShuttingDown = true → userId.isSome = true →
      s.connectionManager.hasFreeSlot = true → u.socket ≠ .open) :
    (s.admissionControl i u userId).NoHandshake := by
  obtain ⟨user, rfl, hfree, heq⟩ | ⟨-, heq⟩ := s.admissionControl_cases i u userId
  · rw [heq]
    exact h.setUpgrade _ fun hdraining _ => refuses hdraining rfl hfree
  · rw [heq]
    exact h.quiet found (.rejected gateway)

theorem noHandshake_step {embedded : Bool} {t : Admission} {e : AdmissionEvent}
    (h : s.NoHandshake) (hstep : step embedded s e = some t)
    (answered : s.HandshakeAnswered e) (refuses : s.AdmitsNobodyWhileDraining e) :
    t.NoHandshake := by
  obtain ⟨originAllowed, userId, -, rfl⟩ | ⟨i, u, userId, rfl, hu, hphase, rfl⟩ |
    ⟨-, hmove⟩ := step_cases hstep
  · obtain heq | heq | ⟨hrunning, heq⟩ := s.upgrade_cases embedded originAllowed userId
    · rw [heq]
      exact h.arrive
    · rw [heq]
      exact h.arrive.setUpgrade _ fun _ hhandshaking => absurd hhandshaking Bool.false_ne_true
    · have hfound : s.arrive.upgrades[s.upgrades.length]? = some {} := by simp [arrive]
      rw [heq]
      refine h.arrive.admissionControl hfound rfl fun hdraining => ?_
      exact absurd (hdraining.symm.trans hrunning) (by decide)
  · refine h.admissionControl hu hphase fun hdraining hsome hfree => ?_
    have hlost := refuses hdraining hsome hfree
    rw [hu] at hlost
    simpa using hlost
  · cases hmove with
    | quiet found quiet => exact h.quiet found quiet
    | earlyClose found live shut =>
        rw [onEarlyClose]
        split
        · exact h.setUpgrade _ fun _ _ => shut
        · exact h.setUpgrade _ fun _ _ => shut
    | register found handshake live fresh =>
        exact h.setUpgrade _ fun _ hhandshaking => absurd hhandshaking Bool.false_ne_true
    | disconnect connectionId => exact h
    | drain =>
        intro _ u hu hhandshaking
        have hupgrades : s.drain.upgrades = s.upgrades := by
          rw [drain]
          split <;> rfl
        rw [hupgrades] at hu
        exact absurd (answered ⟨u, hu, hhandshaking⟩) Bool.false_ne_true
    | stopped draining => exact fun hdraining => absurd hdraining Bool.false_ne_true

/-- A step registers a connection only by completing a handshake. -/
theorem registersNobody_step {embedded : Bool} {t : Admission} {e : AdmissionEvent}
    (h : s.NoHandshake) (hstep : step embedded s e = some t) :
    s.RegistersNobodyWhileDraining t := by
  intro hdraining c hc
  have hcontrol : ∀ (s : Admission) (i : Nat) (u : Upgrade) (userId : Option UserId),
      (s.admissionControl i u userId).connectionManager.connections =
        s.connectionManager.connections := by
    intro s i u userId
    obtain ⟨user, -, -, heq⟩ | ⟨-, heq⟩ := s.admissionControl_cases i u userId
    · rw [heq]
      rfl
    · rw [heq]
      rfl
  obtain ⟨originAllowed, userId, -, rfl⟩ | ⟨i, u, userId, -, hu, hphase, rfl⟩ |
    ⟨-, hmove⟩ := step_cases hstep
  · obtain heq | heq | ⟨-, heq⟩ := s.upgrade_cases embedded originAllowed userId
    · rw [heq] at hc
      exact hc
    · rw [heq] at hc
      exact hc
    · rw [heq, hcontrol] at hc
      exact hc
  · rw [hcontrol] at hc
    exact hc
  · cases hmove with
    | quiet found quiet => exact hc
    | earlyClose found live shut =>
        rw [onEarlyClose] at hc
        split at hc
        · simpa [setUpgrade] using hc
        · exact hc
    | @register i u userId connectionId found handshake live fresh =>
        have hhandshaking : u.handshaking = true := by
          rw [Upgrade.handshaking, handshake]
        exact absurd live (h hdraining u (List.mem_of_getElem? found) hhandshaking)
    | disconnect connectionId => exact ConnectionManager.mem_keys_removeConnection hc
    | drain =>
        rw [drain, if_pos hdraining] at hc
        exact hc
    | stopped draining => exact absurd hc List.not_mem_nil

/-- The flag and the list of the told connections change only by `drain` and `stop`. -/
theorem draining_step {embedded : Bool} {t : Admission} {e : AdmissionEvent}
    (hstep : step embedded s e = some t) :
    (t.isShuttingDown = s.isShuttingDown ∧ t.notified = s.notified) ∨
    t.isShuttingDown = false ∨
    (s.isShuttingDown = false ∧ t.notified = t.connectionManager.connections.keys) := by
  have hcontrol : ∀ (s : Admission) (i : Nat) (u : Upgrade) (userId : Option UserId),
      (s.admissionControl i u userId).isShuttingDown = s.isShuttingDown ∧
        (s.admissionControl i u userId).notified = s.notified := by
    intro s i u userId
    obtain ⟨user, -, -, heq⟩ | ⟨-, heq⟩ := s.admissionControl_cases i u userId
    · rw [heq]
      exact ⟨rfl, rfl⟩
    · rw [heq]
      exact ⟨rfl, rfl⟩
  obtain ⟨originAllowed, userId, -, rfl⟩ | ⟨i, u, userId, -, hu, hphase, rfl⟩ |
    ⟨-, hmove⟩ := step_cases hstep
  · obtain heq | heq | ⟨-, heq⟩ := s.upgrade_cases embedded originAllowed userId
    · rw [heq]
      exact Or.inl ⟨rfl, rfl⟩
    · rw [heq]
      exact Or.inl ⟨rfl, rfl⟩
    · rw [heq]
      exact Or.inl (hcontrol s.arrive _ _ _)
  · exact Or.inl (hcontrol s _ _ _)
  · cases hmove with
    | quiet found quiet => exact Or.inl ⟨rfl, rfl⟩
    | earlyClose found live shut =>
        rw [onEarlyClose]
        split
        · exact Or.inl ⟨rfl, rfl⟩
        · exact Or.inl ⟨rfl, rfl⟩
    | register found handshake live fresh => exact Or.inl ⟨rfl, rfl⟩
    | disconnect connectionId => exact Or.inl ⟨rfl, rfl⟩
    | drain =>
        cases hdraining : s.isShuttingDown with
        | true =>
            refine Or.inl ?_
            rw [drain, if_pos hdraining]
            exact ⟨hdraining, rfl⟩
        | false =>
            refine Or.inr (Or.inr ⟨rfl, ?_⟩)
            rw [drain, if_neg (by simp [hdraining])]
    | stopped draining => exact Or.inr (Or.inl rfl)

theorem allNotified_step {embedded : Bool} {t : Admission} {e : AdmissionEvent}
    (h : s.AllNotified) (handshake : s.NoHandshake) (hstep : step embedded s e = some t) :
    t.AllNotified := by
  intro hdraining c hc
  obtain ⟨hflag, hsame⟩ | hstopped | ⟨-, hall⟩ := draining_step hstep
  · rw [hflag] at hdraining
    rw [hsame]
    exact h hdraining c (registersNobody_step handshake hstep hdraining c hc)
  · exact absurd (hdraining.symm.trans hstopped) (by decide)
  · rw [hall]
    exact hc

end steps

/-- With handshakes answered at once, draining admits nobody in every run in which the
gateway declines nobody who would get in during the drain. -/
theorem draining_admits_nobody {embedded : Bool} {max : Nat} {es : List AdmissionEvent}
    (answered : EveryStep (step embedded) (fun s e _ => s.HandshakeAnswered e) (initial max) es)
    (refuses : EveryStep (step embedded) (fun s e _ => s.AdmitsNobodyWhileDraining e)
      (initial max) es) :
    EveryStep (step embedded) (fun s _ t => s.RegistersNobodyWhileDraining t)
      (initial max) es ∧
    Always (step embedded) AllNotified (initial max) es := by
  have hsealed : Always (step embedded) (fun s => s.NoHandshake ∧ s.AllNotified)
      (initial max) es := by
    refine always_of_everyStep ?_ ⟨nofun, nofun⟩ (answered.and refuses)
    rintro s e t ⟨hhandshake, hnotified⟩ hstep ⟨hanswered, hrefuses⟩
    exact ⟨noHandshake_step hhandshake hstep hanswered hrefuses,
      allNotified_step hnotified hhandshake hstep⟩
  refine ⟨hsealed.everyStep ?_, hsealed.mono fun s hs => hs.2⟩
  intro s e t hs hstep
  exact registersNobody_step hs.1 hstep

/-- One client is connected when the drain begins. Of the requests which wait for the gateway,
one loses its socket and one is not authenticated. -/
def drainRun : List AdmissionEvent :=
  [.upgrade true none, .upgrade true none, .upgrade true none,
    .gatewayDeclined 0 (some "alice"), .upgraded 0 "c1", .socketEnded 1, .drain,
    .gatewayDeclined 1 (some "bob"), .dropped 1, .gatewayDeclined 2 none,
    .upgrade true (some "carol"), .disconnect "c1", .stopped]

theorem draining_admits_nobody_drain :
    EveryStep (step true) (fun s _ t => s.RegistersNobodyWhileDraining t) (initial 5) drainRun ∧
    Always (step true) AllNotified (initial 5) drainRun :=
  draining_admits_nobody (by decide +kernel) (by decide +kernel)

/-- The gateway declines a request after the broadcast. -/
def lateRun : List AdmissionEvent :=
  [.upgrade true none, .drain, .gatewayDeclined 0 (some "alice"), .upgraded 0 "c1"]

theorem draining_admits_latecomer :
    ¬ ∀ (embedded : Bool) (max : Nat) (es : List AdmissionEvent),
      EveryStep (step embedded) (fun s e _ => s.HandshakeAnswered e) (initial max) es →
        EveryStep (step embedded) (fun s _ t => s.RegistersNobodyWhileDraining t)
          (initial max) es ∧
        Always (step embedded) AllNotified (initial max) es := by
  intro h
  have hanswered : EveryStep (step true) (fun s e _ => s.HandshakeAnswered e) (initial 5)
      lateRun := by
    decide +kernel
  have hrun : (run (step true) (initial 5) lateRun).any (fun s =>
      s.isShuttingDown && decide (s.connectionManager.connections.keys = ["c1"]) &&
        decide (s.notified = [])) = true := by
    decide +kernel
  have hmissed : ¬ Always (step true) AllNotified (initial 5) lateRun := by
    refine not_always_of_run ?_ hrun
    intro s hs hall
    simp only [Bool.and_eq_true, decide_eq_true_eq] at hs
    obtain ⟨⟨hdraining, hkeys⟩, hnotified⟩ := hs
    have hmem := hall hdraining "c1" (by simp [hkeys])
    rw [hnotified] at hmem
    exact absurd hmem List.not_mem_nil
  exact hmissed (h true 5 lateRun hanswered).2

end Admission

end Pulse
