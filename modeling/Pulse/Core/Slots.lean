import Pulse.Core.Admission

/-!
# Accounting of admission slots

The pending counter is exactly the number of requests that hold a slot, so
registered and pending connections stay within the limit. A slot is lost when
a request gets it after its socket has closed: the listeners that would return
it come too late.
-/

namespace Pulse

open Collections Transition

namespace Upgrade

/-- How the variables of a handler go together. -/
structure WellFormed (u : Upgrade) : Prop where
  listening : u.slotClaimed = true → u.listening = true
  given : u.slotClaimed = true → (∃ userId, u.phase = .handshake userId) ∨ u.phase = .dropped
  claimed : ∀ userId, u.phase = .handshake userId → u.socket = .open → u.slotClaimed = true

theorem WellFormed.unclaimed {u : Upgrade} (h : u.WellFormed) (hphase : u.phase = .gateway) :
    u.slotClaimed = false := by
  cases hclaimed : u.slotClaimed with
  | false => rfl
  | true =>
      obtain ⟨userId, hgiven⟩ | hgiven := h.given hclaimed
      · rw [hphase] at hgiven
        cases hgiven
      · rw [hphase] at hgiven
        cases hgiven

theorem wellFormed_new : WellFormed {} where
  listening := nofun
  given := nofun
  claimed := nofun

theorem WellFormed.handOver {u : Upgrade} (userId : UserId) : (u.handOver userId).WellFormed where
  listening _ := rfl
  given _ := Or.inl ⟨userId, rfl⟩
  claimed _ _ _ := rfl

theorem Quiet.slotClaimed {u u' : Upgrade} (h : u.Quiet u') : u'.slotClaimed = u.slotClaimed := by
  cases h <;> rfl

theorem Quiet.closed_iff {u u' : Upgrade} (h : u.Quiet u') :
    u'.socket = .closed ↔ u.socket = .closed := by
  have hshut : u.socket.shut = .closed ↔ u.socket = .closed := by
    cases hsocket : u.socket <;> simp [UpgradeSocket.shut]
  cases h with
  | handled => exact Iff.rfl
  | rejected => exact hshut
  | dropped => exact hshut
  | ended hopen => simp [hopen]

theorem Quiet.wellFormed {u u' : Upgrade} (h : u.Quiet u') (hu : u.WellFormed) :
    u'.WellFormed := by
  cases h with
  | handled hphase =>
      have hfree := hu.unclaimed hphase
      exact ⟨hu.listening, fun hclaimed => by simp_all, nofun⟩
  | rejected hphase =>
      have hfree := hu.unclaimed hphase
      exact ⟨hu.listening, fun hclaimed => by simp_all [reject], nofun⟩
  | dropped hphase => exact ⟨hu.listening, fun _ => Or.inr rfl, nofun⟩
  | ended hopen => exact ⟨hu.listening, hu.given, nofun⟩

end Upgrade

namespace Admission

/-- The invariant of the accounting, under the limit `limit`. -/
structure Accounted (limit : Option Nat) (s : Admission) : Prop where
  limit_eq : s.connectionManager.maxConnections = limit
  upgrades : ∀ u ∈ s.upgrades, u.WellFormed
  pending : s.connectionManager.pendingConnections = s.holders
  bound : ∀ max, limit = some max →
    s.connectionManager.connections.size + s.connectionManager.pendingConnections ≤ max

theorem accounted_initial (max : Nat) :
    (initial max).Accounted (ConnectionManager.setMaxConnections {} max).maxConnections where
  limit_eq := rfl
  upgrades := nofun
  pending := rfl
  bound _ _ := Nat.zero_le _

theorem holders_setUpgrade {s : Admission} {i : Nat} {u : Upgrade}
    (found : s.upgrades[i]? = some u) (u' : Upgrade) :
    (s.setUpgrade i u').holders + (if u.slotClaimed then 1 else 0) =
      s.holders + (if u'.slotClaimed then 1 else 0) := by
  obtain ⟨hi, rfl⟩ := List.getElem?_eq_some_iff.mp found
  have hcount := List.countP_set (p := (·.slotClaimed)) (a := u') hi
  have hheld : (if s.upgrades[i].slotClaimed = true then 1 else 0) ≤ s.holders := by
    split
    · rename_i hclaimed
      exact List.countP_pos_iff.mpr ⟨_, List.getElem_mem hi, hclaimed⟩
    · exact Nat.zero_le _
  rw [holders] at hheld
  simp only [holders, setUpgrade]
  omega

theorem mem_setUpgrade {s : Admission} {i : Nat} {u u' : Upgrade}
    (h : u ∈ (s.setUpgrade i u').upgrades) : u ∈ s.upgrades ∨ u = u' :=
  List.mem_or_eq_of_mem_set h

section accounted

variable {limit : Option Nat} {s : Admission} {i : Nat} {u u' : Upgrade}

/-- A change of one upgrade which moves `n` slots from the pending ones to the registered
connections or back to the pool. -/
theorem Accounted.update (h : s.Accounted limit) (found : s.upgrades[i]? = some u)
    (wellFormed : u'.WellFormed) {m : ConnectionManager}
    (limit_eq : m.maxConnections = s.connectionManager.maxConnections)
    (pending : m.pendingConnections + (if u.slotClaimed then 1 else 0) =
      s.connectionManager.pendingConnections + (if u'.slotClaimed then 1 else 0))
    (bound : ∀ max, limit = some max →
      m.connections.size + m.pendingConnections ≤ max) :
    ({ s with connectionManager := m }.setUpgrade i u').Accounted limit where
  limit_eq := limit_eq.trans h.limit_eq
  upgrades := by
    intro v hv
    obtain hv | rfl := mem_setUpgrade hv
    · exact h.upgrades v hv
    · exact wellFormed
  pending := by
    have hholders := holders_setUpgrade (s := { s with connectionManager := m }) found u'
    have hpending := h.pending
    have hsame : holders { s with connectionManager := m } = s.holders := rfl
    show m.pendingConnections = _
    omega
  bound := bound

theorem Accounted.found (h : s.Accounted limit) (found : s.upgrades[i]? = some u) :
    u.WellFormed :=
  h.upgrades u (List.mem_of_getElem? found)

theorem Accounted.arrive (h : s.Accounted limit) : s.arrive.Accounted limit where
  limit_eq := h.limit_eq
  upgrades := by
    intro u hu
    obtain hu | hu := List.mem_append.mp hu
    · exact h.upgrades u hu
    · cases List.mem_singleton.mp hu
      exact Upgrade.wellFormed_new
  pending := by
    refine h.pending.trans ?_
    simp [holders, Admission.arrive]
  bound := h.bound

theorem Accounted.quiet (h : s.Accounted limit) (found : s.upgrades[i]? = some u)
    (quiet : u.Quiet u') : (s.setUpgrade i u').Accounted limit := by
  refine h.update found (quiet.wellFormed (h.found found)) rfl ?_ h.bound
  rw [quiet.slotClaimed]

theorem Accounted.claim (h : s.Accounted limit) (found : s.upgrades[i]? = some u)
    (gateway : u.phase = .gateway) (free : s.connectionManager.hasFreeSlot = true)
    (userId : UserId) : (s.claim i u userId).Accounted limit := by
  refine h.update found (.handOver userId) rfl ?_ ?_
  · rw [(h.found found).unclaimed gateway]
    rfl
  · intro max hmax
    rw [ConnectionManager.hasFreeSlot, h.limit_eq, hmax, Option.all_some,
      decide_eq_true_eq] at free
    exact free

theorem Accounted.admissionControl (h : s.Accounted limit) (found : s.upgrades[i]? = some u)
    (gateway : u.phase = .gateway) (userId : Option UserId) :
    (s.admissionControl i u userId).Accounted limit := by
  obtain ⟨user, -, hfree, heq⟩ | ⟨-, heq⟩ := s.admissionControl_cases i u userId
  · rw [heq]
    exact h.claim found gateway hfree user
  · rw [heq]
    exact h.quiet found (.rejected gateway)

/-- The slot goes back once, and only if the request still holds it. -/
theorem Accounted.onEarlyClose (h : s.Accounted limit) (found : s.upgrades[i]? = some u)
    {socket : UpgradeSocket} (shut : socket ≠ .open) :
    (s.onEarlyClose i u socket).Accounted limit := by
  have hu := h.found found
  cases hclaimed : u.slotClaimed with
  | false =>
      have hkeeps : s.onEarlyClose i u socket = s.setUpgrade i { u with socket } := by
        simp [Admission.onEarlyClose, hclaimed]
      rw [hkeeps]
      refine h.update found ?_ rfl ?_ h.bound
      · exact ⟨hu.listening, hu.given, fun _ _ hopen => absurd hopen shut⟩
      · rfl
  | true =>
      have hreleases : s.onEarlyClose i u socket =
          { s with connectionManager := s.connectionManager.releasePendingSlot }.setUpgrade i
            { u with socket, slotClaimed := false } := by
        simp [Admission.onEarlyClose, hclaimed, hu.listening hclaimed]
      have hheld : 0 < s.connectionManager.pendingConnections := by
        rw [h.pending]
        exact List.countP_pos_iff.mpr ⟨u, List.mem_of_getElem? found, hclaimed⟩
      rw [hreleases]
      refine h.update found ?_ (by simp) ?_ ?_
      · exact ⟨nofun, nofun, fun _ _ hopen => absurd hopen shut⟩
      · simp [hclaimed]
        omega
      · intro max hmax
        have hbound := h.bound max hmax
        simp
        omega

/-- The registered connection takes over the slot of its request. -/
theorem Accounted.register (h : s.Accounted limit) (found : s.upgrades[i]? = some u)
    {userId : UserId} (handshake : u.phase = .handshake userId) (live : u.socket = .open)
    {connection : Connection}
    (fresh : connection.connectionId ∉ s.connectionManager.connections.keys) :
    (s.register i u connection).Accounted limit := by
  have hclaimed := (h.found found).claimed userId handshake live
  have hheld : 0 < s.connectionManager.pendingConnections := by
    rw [h.pending]
    exact List.countP_pos_iff.mpr ⟨u, List.mem_of_getElem? found, hclaimed⟩
  refine h.update found ?_ rfl ?_ ?_
  · exact ⟨nofun, nofun, nofun⟩
  · simp [ConnectionManager.addConnection, hclaimed]
    omega
  · intro max hmax
    have hbound := h.bound max hmax
    rw [ConnectionManager.size_addConnection fresh]
    simp only [ConnectionManager.addConnection]
    omega

theorem Accounted.move {t : Admission} {e : AdmissionEvent} (h : s.Accounted limit)
    (move : s.Move e t) : t.Accounted limit := by
  cases move with
  | quiet found quiet => exact h.quiet found quiet
  | earlyClose found _ shut => exact h.onEarlyClose found shut
  | register found handshake live fresh => exact h.register found handshake live fresh
  | disconnect connectionId =>
      refine ⟨?_, h.upgrades, ?_, ?_⟩
      · exact (ConnectionManager.removeConnection_maxConnections _ _).trans h.limit_eq
      · exact (ConnectionManager.removeConnection_pendingConnections _ _).trans h.pending
      · intro max hmax
        have hsize := s.connectionManager.size_removeConnection_le connectionId
        have hbound := h.bound max hmax
        simp only [ConnectionManager.removeConnection_pendingConnections]
        omega
  | drain =>
      rw [drain]
      split
      · exact h
      · exact ⟨h.limit_eq, h.upgrades, h.pending, h.bound⟩
  | stopped draining =>
      refine ⟨h.limit_eq, h.upgrades, h.pending, ?_⟩
      intro max hmax
      have hbound := h.bound max hmax
      show 0 + s.connectionManager.pendingConnections ≤ max
      omega

end accounted

theorem arrive_found (s : Admission) : s.arrive.upgrades[s.upgrades.length]? = some {} := by
  simp [arrive]

theorem accounted_step {embedded : Bool} {limit : Option Nat} (s : Admission)
    (e : AdmissionEvent) (t : Admission) (h : s.Accounted limit)
    (hstep : step embedded s e = some t) : t.Accounted limit := by
  obtain ⟨originAllowed, userId, -, rfl⟩ | ⟨i, u, userId, -, hu, hphase, rfl⟩ |
    ⟨-, hmove⟩ := step_cases hstep
  · obtain heq | heq | ⟨-, heq⟩ := s.upgrade_cases embedded originAllowed userId
    · rw [heq]
      exact h.arrive
    · rw [heq]
      exact h.arrive.quiet s.arrive_found (.rejected rfl)
    · rw [heq]
      exact h.arrive.admissionControl s.arrive_found rfl userId
  · exact h.admissionControl hu hphase userId
  · exact h.move hmove

/-- Registered and pending connections stay within the limit, and every slot held by a
request is counted as pending. -/
theorem admission_bound (embedded : Bool) {max : Nat} (positive : 0 < max)
    (es : List AdmissionEvent) :
    Always (step embedded)
      (fun s =>
        s.connectionManager.connections.size + s.connectionManager.pendingConnections ≤ max ∧
          s.holders ≤ s.connectionManager.pendingConnections)
      (initial max) es := by
  have hinitially := accounted_initial max
  have hlimit : (ConnectionManager.setMaxConnections {} max).maxConnections = some max :=
    if_pos positive
  rw [hlimit] at hinitially
  refine (always_of_invariant accounted_step hinitially es).mono ?_
  intro s hs
  exact ⟨hs.bound max rfl, hs.pending.ge⟩

/-- The limit holds and is reached: the only slot goes to the first request, a second one is
refused until the first has failed. -/
theorem admission_bound_one_slot :
    Always (step false)
      (fun s =>
        s.connectionManager.connections.size + s.connectionManager.pendingConnections ≤ 1 ∧
          s.holders ≤ s.connectionManager.pendingConnections)
      (initial 1)
      [.upgrade true (some "alice"), .upgrade true (some "bob"), .socketError 0, .dropped 0,
        .socketClosed 0, .upgrade true (some "bob"), .upgraded 2 "c1", .disconnect "c1"] :=
  admission_bound false (by decide) _

/-- No request holds a slot which it can no longer return. -/
def NoLeak (s : Admission) : Prop := ∀ u ∈ s.upgrades, ¬ u.Leaked

/-- A request which the gateway declines, and which is authenticated and finds a free slot,
still has its socket. -/
def AdmitsOpenSocket (s : Admission) : AdmissionEvent → Prop
  | .gatewayDeclined i userId =>
      userId.isSome = true → s.connectionManager.hasFreeSlot = true →
        (s.upgrades[i]?).all (·.socket ≠ .closed) = true
  | _ => True

instance (s : Admission) : ∀ e, Decidable (s.AdmitsOpenSocket e)
  | .gatewayDeclined i userId =>
      inferInstanceAs (Decidable (userId.isSome = true →
        s.connectionManager.hasFreeSlot = true →
          (s.upgrades[i]?).all (·.socket ≠ .closed) = true))
  | .upgrade .. | .gatewayHandled _ | .gatewayFailed _ | .upgraded .. | .dropped _
  | .socketEnded _ | .socketError _ | .socketClosed _ | .disconnect _ | .drain | .stopped =>
      isTrue trivial

section leaks

variable {limit : Option Nat} {s : Admission} {i : Nat} {u u' : Upgrade}

theorem noLeak_setUpgrade_iff (found : s.upgrades[i]? = some u) (m : ConnectionManager)
    (same : u'.Leaked ↔ u.Leaked) :
    ({ s with connectionManager := m }.setUpgrade i u').NoLeak ↔ s.NoLeak := by
  obtain ⟨hi, rfl⟩ := List.getElem?_eq_some_iff.mp found
  constructor
  · intro h v hv
    obtain ⟨j, hj, rfl⟩ := List.getElem_of_mem hv
    by_cases hij : i = j
    · subst hij
      rw [← same]
      exact h u' (List.mem_set hi u')
    · refine h s.upgrades[j] ?_
      have hlength : j < (s.upgrades.set i u').length := by simpa using hj
      have hget : (s.upgrades.set i u')[j] = s.upgrades[j] := List.getElem_set_ne hij hlength
      rw [← hget]
      exact List.getElem_mem hlength
  · intro h v hv
    obtain hv | rfl := mem_setUpgrade hv
    · exact h v hv
    · rw [same]
      exact h _ (List.getElem_mem hi)

theorem noLeak_arrive_iff : s.arrive.NoLeak ↔ s.NoLeak := by
  simp [NoLeak, arrive, Upgrade.Leaked, or_imp, forall_and]

theorem noLeak_quiet_iff (found : s.upgrades[i]? = some u) (quiet : u.Quiet u') :
    (s.setUpgrade i u').NoLeak ↔ s.NoLeak := by
  refine noLeak_setUpgrade_iff found _ ?_
  rw [Upgrade.Leaked, Upgrade.Leaked, quiet.slotClaimed, quiet.closed_iff]

theorem noLeak_claim_iff (h : s.Accounted limit) (found : s.upgrades[i]? = some u)
    (gateway : u.phase = .gateway) (userId : UserId) :
    (s.claim i u userId).NoLeak ↔ s.NoLeak ∧ u.socket ≠ .closed := by
  have hfree := (h.found found).unclaimed gateway
  by_cases hclosed : u.socket = .closed
  · have hleaked : (u.handOver userId).Leaked := ⟨rfl, hclosed⟩
    obtain ⟨hi, -⟩ := List.getElem?_eq_some_iff.mp found
    constructor
    · intro hall
      exact absurd hleaked (hall _ (List.mem_set hi _))
    · exact fun hall => absurd hclosed hall.2
  · have hsame : (u.handOver userId).Leaked ↔ u.Leaked := by
      constructor
      · exact fun hleaked => absurd hleaked.2 hclosed
      · exact fun hleaked => absurd hleaked.2 hclosed
    refine (noLeak_setUpgrade_iff found _ hsame).trans ?_
    exact ⟨fun hall => ⟨hall, hclosed⟩, And.left⟩

theorem noLeak_move_iff {t : Admission} {e : AdmissionEvent} (h : s.Accounted limit)
    (move : s.Move e t) : t.NoLeak ↔ s.NoLeak := by
  cases move with
  | quiet found quiet => exact noLeak_quiet_iff found quiet
  | @earlyClose _ i u socket found live shut =>
      have hold : ¬ u.Leaked := fun hleaked => live hleaked.2
      rw [onEarlyClose]
      split
      · refine noLeak_setUpgrade_iff found _ ?_
        exact ⟨fun hleaked => absurd hleaked.1 Bool.false_ne_true,
          fun hleaked => absurd hleaked hold⟩
      · rename_i hkept
        refine noLeak_setUpgrade_iff found _ ?_
        refine ⟨fun hleaked => ?_, fun hleaked => absurd hleaked hold⟩
        have hlistening := (h.found found).listening hleaked.1
        have hclaimed : u.slotClaimed = true := hleaked.1
        exact absurd (by simp [hlistening, hclaimed]) hkept
  | register found handshake live fresh =>
      refine noLeak_setUpgrade_iff found _ ?_
      refine ⟨fun hleaked => absurd hleaked.1 Bool.false_ne_true, fun hleaked => ?_⟩
      rw [Upgrade.Leaked, live] at hleaked
      cases hleaked.2
  | disconnect connectionId => exact Iff.rfl
  | drain =>
      rw [drain]
      split <;> exact Iff.rfl
  | stopped draining => exact Iff.rfl

/-- A slot leaks in exactly one way. -/
theorem noLeak_step_iff {embedded : Bool} {t : Admission} {e : AdmissionEvent}
    (h : s.Accounted limit) (hstep : step embedded s e = some t) :
    t.NoLeak ↔ s.NoLeak ∧ s.AdmitsOpenSocket e := by
  obtain ⟨originAllowed, userId, rfl, rfl⟩ | ⟨i, u, userId, rfl, hu, hphase, rfl⟩ |
    ⟨hother, hmove⟩ := step_cases hstep
  · simp only [AdmitsOpenSocket, and_true]
    obtain heq | heq | ⟨-, heq⟩ := s.upgrade_cases embedded originAllowed userId
    · rw [heq]
      exact noLeak_arrive_iff
    · rw [heq]
      exact (noLeak_quiet_iff s.arrive_found (.rejected rfl)).trans noLeak_arrive_iff
    · obtain ⟨user, -, -, hcontrol⟩ | ⟨-, hcontrol⟩ :=
        s.arrive.admissionControl_cases s.upgrades.length {} userId
      · rw [heq, hcontrol, noLeak_claim_iff h.arrive s.arrive_found rfl user, noLeak_arrive_iff]
        simp
      · rw [heq, hcontrol]
        exact (noLeak_quiet_iff s.arrive_found (.rejected rfl)).trans noLeak_arrive_iff
  · obtain ⟨user, rfl, hfree, hcontrol⟩ | ⟨hrefused, hcontrol⟩ :=
      s.admissionControl_cases i u userId
    · rw [hcontrol, noLeak_claim_iff h hu hphase user]
      simp [AdmitsOpenSocket, hfree, hu]
    · rw [hcontrol, noLeak_quiet_iff hu (.rejected hphase)]
      have hmet : s.AdmitsOpenSocket (.gatewayDeclined i userId) := by
        intro hsome hfree
        obtain rfl | hfull := hrefused
        · cases hsome
        · rw [hfull] at hfree
          cases hfree
      exact ⟨fun hall => ⟨hall, hmet⟩, And.left⟩
  · have hmet : s.AdmitsOpenSocket e := by
      cases e with
      | gatewayDeclined i userId => exact absurd rfl (hother i userId)
      | _ => trivial
    rw [noLeak_move_iff h hmove]
    exact ⟨fun hall => ⟨hall, hmet⟩, And.left⟩

end leaks

/-- While no request is in progress, only leaked slots are pending. -/
theorem Accounted.pending_eq_zero_iff {limit : Option Nat} {s : Admission}
    (h : s.Accounted limit) (idle : s.Idle) :
    s.connectionManager.pendingConnections = 0 ↔ s.NoLeak := by
  rw [h.pending, holders, List.countP_eq_zero]
  constructor
  · exact fun hnone u hu hleaked => hnone u hu hleaked.1
  · intro hnone u hu hclaimed
    refine hnone u hu ⟨hclaimed, ?_⟩
    have hover := idle u hu
    obtain ⟨userId, hgiven⟩ | hgiven := (h.upgrades u hu).given hclaimed
    · simpa [Upgrade.InProgress, hgiven] using hover
    · simpa [Upgrade.InProgress, hgiven] using hover

/-- Whenever no upgrade is in progress, no slot is pending, exactly if no step so far gave a
slot to a request whose socket had closed. -/
theorem no_slot_leaks_iff (embedded : Bool) (max : Nat) {es : List AdmissionEvent}
    {s : Admission} (hrun : run (step embedded) (initial max) es = some s) (idle : s.Idle) :
    s.connectionManager.pendingConnections = 0 ↔
      EveryStep (step embedded) (fun s e _ => s.AdmitsOpenSocket e) (initial max) es := by
  have hinitially := accounted_initial max
  have hfinal := invariant accounted_step hinitially hrun
  have hlasting : Always (step embedded) NoLeak (initial max) es ↔ s.NoLeak :=
    always_iff_final accounted_step
      (fun _ _ _ hs hstep ht => ((noLeak_step_iff hs hstep).mp ht).1) hinitially hrun
  have hsteps : Always (step embedded) NoLeak (initial max) es ↔
      EveryStep (step embedded) (fun s e _ => s.AdmitsOpenSocket e) (initial max) es :=
    always_iff_everyStep accounted_step
      (fun _ _ _ hs hgood hstep =>
        (noLeak_step_iff hs hstep).trans ⟨And.right, fun hmet => ⟨hgood, hmet⟩⟩)
      hinitially nofun es
  rw [hfinal.pending_eq_zero_iff idle, ← hlasting, hsteps]

/-- A client goes while the gateway considers its request; another one gets in. -/
def departureRun : List AdmissionEvent :=
  [.upgrade true none, .upgrade true none, .socketClosed 0, .gatewayDeclined 0 none,
    .gatewayDeclined 1 (some "bob"), .upgraded 1 "c1"]

/-- The state at the end of `departureRun`. -/
def departed : Admission :=
  { connectionManager := (ConnectionManager.setMaxConnections {} 2).addConnection
      { connectionId := "c1", userId := "bob" }
    upgrades := [{ socket := .closed, phase := .finished }, { phase := .registered }] }

theorem no_slot_leaks_departure : departed.connectionManager.pendingConnections = 0 := by
  have hrun : run (step true) (initial 2) departureRun = some departed := by decide +kernel
  exact (no_slot_leaks_iff true 2 hrun (by decide +kernel)).mpr (by decide +kernel)

/-- The gateway declines an authenticated request whose client has gone. -/
def leakRun : List AdmissionEvent :=
  [.upgrade true none, .socketClosed 0, .gatewayDeclined 0 (some "alice"), .dropped 0]

theorem slot_leaks :
    ¬ ∀ (embedded : Bool) (max : Nat) (es : List AdmissionEvent) (s : Admission),
      run (step embedded) (initial max) es = some s → s.Idle →
        s.connectionManager.pendingConnections = 0 := by
  intro h
  have hrun : (run (step true) (initial 1) leakRun).any (fun s =>
      decide (s.Idle ∧ s.connectionManager.pendingConnections ≠ 0)) = true := by
    decide +kernel
  obtain ⟨s, hs, hleaked⟩ := (Option.any_eq_true _ _).mp hrun
  have hidle := of_decide_eq_true hleaked
  exact hidle.2 (h true 1 leakRun s hs hidle.1)

end Admission

end Pulse
