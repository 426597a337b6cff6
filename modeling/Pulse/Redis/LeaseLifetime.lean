import Pulse.Config.Presence
import Pulse.Redis.PresenceLeases

/-!
# Lifetime of a lease

A lease is meant to live until `presenceTtlMs` after its last registration or renewal.
The key that holds it lives until its own deadline, which the server leaves at the
default. So exactly the lifetimes up to that default are kept.
-/

namespace Pulse

open Collections Js Transition

namespace LeaseMap

variable {κ : Type} {naming : Naming κ} {ttl : Score} {a : LeaseMap κ}

/-- Apart from the rooms, a call does what it grants and revokes. -/
theorem step_expiry (op : PresenceOp) :
    (a.step naming ttl op).1.expiry = (a.grant naming ttl op).expiry := by
  rw [step]
  cases hrefused : op.refusal with
  | some message =>
      have hgranted : op.granted naming = [] := by simp [PresenceOp.granted, hrefused]
      have hrevoked : op.revoked naming = [] := by simp [PresenceOp.revoked, hrefused]
      rw [grant_eq_self hgranted hrevoked]
  | none =>
      simp only [answer]
      split
      case h_6 => split <;> rfl
      case h_7 => split <;> rfl
      case h_8 => split <;> rfl
      all_goals rfl

/-- A lease that is not removed keeps at least the lifetime it was granted. -/
theorem expiry_after {s : ℚ} {later : List PresenceOp} {u : UserId} {m : κ} {e : Score}
    (sorted : ∀ op ∈ later, s ≤ op.now) (kept : ∀ op ∈ later, (u, m) ∉ op.revoked naming)
    (held : a.expiry u m = some e) (hle : s + ttl ≤ e) :
    ∃ e', (after (LeaseMap.step naming ttl) a later).expiry u m = some e' ∧ s + ttl ≤ e' := by
  induction later generalizing a e with
  | nil => exact ⟨e, held, hle⟩
  | cons op later ih =>
      have hlater : ∀ op ∈ later, s ≤ op.now := fun op' hop => sorted op' (.tail op hop)
      have hkept : ∀ op ∈ later, (u, m) ∉ op.revoked naming := fun op' hop =>
        kept op' (.tail op hop)
      by_cases hgranted : (u, m) ∈ op.granted naming
      · refine ih hlater hkept (e := op.now + ttl) ?_ ?_
        · simp [step_expiry, grant, hgranted]
        · exact add_le_add_left (WithTop.coe_le_coe.mpr (sorted op List.mem_cons_self)) _
      · refine ih hlater hkept (e := e) ?_ hle
        simp [step_expiry, grant, hgranted, kept op List.mem_cons_self, held]

end LeaseMap

/-- In every run, a lease that was registered or renewed less than `presenceTtlMs` ago and
not removed since is in the key of its user, and not expired. -/
def LosesNoLease (options : PresenceManagerOptions) : Prop :=
  ∀ (past : List PresenceOp) (op : PresenceOp) (later : List PresenceOp) (t : ℚ) (u : UserId)
    (m : String),
    ((past ++ op :: later).map PresenceOp.now).Pairwise (· ≤ ·) →
    (∀ op' ∈ op :: later, op'.now ≤ t) → (t : Score) < op.now + options.presenceTtlMs →
    (u, m) ∈ op.granted .keys → (∀ op' ∈ later, (u, m) ∉ op'.revoked .keys) →
    ∃ e, ((after (PresenceStore.step options) {} (past ++ op :: later)).users
      (PRESENCE_USER_KEY_PREFIX ++ u)).score? t m = some e ∧ (t : Score) < e

/-- Lifetimes up to the deadline of the key are kept. -/
theorem losesNoLease_of_covered {options : PresenceManagerOptions}
    (covered : options.presenceTtlMs ≤ ((1000 * options.keySafeguardTtlSec : ℚ) : Score)) :
    LosesNoLease options := by
  intro past op later t u m sorted hpast hlt hgranted hkept
  have hall : ∀ op' ∈ past ++ op :: later, op'.now ≤ t := by
    intro op' hop
    rcases List.mem_append.mp hop with hmem | hmem
    · have hbefore := List.pairwise_append.mp (List.map_append ▸ sorted)
      exact (hbefore.2.2 _ (List.mem_map_of_mem hmem) _ List.mem_cons_self).trans
        (hpast op List.mem_cons_self)
    · exact hpast op' hmem
  have hrefines := (store_simulates_leases covered).related_after (Refines.initial options)
    sorted hall
  have hlater : ∀ op' ∈ later, op.now ≤ op'.now := by
    intro op' hop
    rw [List.map_append, List.pairwise_append] at sorted
    exact (List.pairwise_cons.mp sorted.2.1).1 _ (List.mem_map_of_mem hop)
  have hheld : ((after (LeaseMap.step .keys options.presenceTtlMs) {} past).step .keys
      options.presenceTtlMs op).1.expiry u m = some (op.now + options.presenceTtlMs) := by
    rw [LeaseMap.step_expiry, LeaseMap.grant]
    exact if_pos hgranted
  obtain ⟨e, he, hle⟩ := LeaseMap.expiry_after hlater hkept hheld le_rfl
  have hmap : (after (LeaseMap.step .keys options.presenceTtlMs) {}
      (past ++ op :: later)).expiry u m = some e := by
    rw [after_append]
    exact he
  have hread := (hrefines.tracks u).reads m
  rw [hmap] at hread
  refine ⟨e, SortedSet.filter_lt_eq_some.mp (hread.trans ?_)⟩
  exact SortedSet.filter_lt_eq_some.mpr ⟨rfl, hlt.trans_le hle⟩

/-- A registration of Alice at time zero. -/
def loneRegistration : PresenceOp := ⟨"node-a", 0, .registerConnection "alice" "c1"⟩

/-- A single registration shows that the key is gone after its own deadline. -/
theorem not_losesNoLease {options : PresenceManagerOptions}
    (longer : ((1000 * options.keySafeguardTtlSec : ℚ) : Score) < options.presenceTtlMs)
    (positive : 0 ≤ options.keySafeguardTtlSec) : ¬ LosesNoLease options := by
  intro h
  have hstart : (0 : ℚ) ≤ 1000 * options.keySafeguardTtlSec := by
    have hint : 0 ≤ 1000 * options.keySafeguardTtlSec := by omega
    exact_mod_cast hint
  have hlease : leaseKey "node-a" "alice" "c1" = .ok (keyOf ("alice", "node-a:c1")) := by decide
  obtain ⟨e, he, -⟩ := h [] loneRegistration [] (1000 * options.keySafeguardTtlSec) "alice"
    "node-a:c1" (List.pairwise_singleton _ _) (by simpa [loneRegistration] using hstart)
    (by simpa [loneRegistration] using longer) (by decide) (by simp)
  have hleases : (after (PresenceStore.step options) {} ([] ++ [loneRegistration])).users
      (PRESENCE_USER_KEY_PREFIX ++ "alice") =
      (registerPresence ∅ "node-a:c1" ((0 : ℚ) + options.presenceTtlMs) 0
        options.keySafeguardTtlSec).1 := by
    simp [after, PresenceStore.step, PresenceStore.perform, loneRegistration,
      PresenceStore.registerConnection, executeRegisterPresence_eq, hlease, keyOf, Except.map]
  rw [hleases, registerPresence, SortedSet.score?_expire, if_neg] at he
  · cases he
  · rw [keyDeadline, zero_add]
    exact lt_irrefl _

theorem loadPresenceConfig_ok {ttl interval : Number} {config : PresenceConfig}
    (h : loadPresenceConfig (some ttl) (some interval) = .ok config) :
    config = { presenceTtlMs := ttl, presenceFlushIntervalMs := interval } := by
  simp only [loadPresenceConfig] at h
  split at h
  · cases h
  · split at h
    · cases h
    · cases h
      rfl

/-- The server keeps every lease exactly for lifetimes of at most two minutes. -/
theorem no_lease_lost_iff {ttl interval : Number} {config : PresenceConfig}
    (accepted : loadPresenceConfig (some ttl) (some interval) = .ok config) :
    LosesNoLease config.managerOptions ↔ durationOf ttl ≤ 120000 := by
  have hdeadline : ((1000 * DEFAULT_KEY_SAFEGUARD_TTL_SEC : ℚ) : Score) = 120000 := by
    decide +kernel
  have hoptions : config.managerOptions.presenceTtlMs = durationOf ttl := by
    rw [loadPresenceConfig_ok accepted, PresenceConfig.managerOptions]
  have hkey : config.managerOptions.keySafeguardTtlSec = DEFAULT_KEY_SAFEGUARD_TTL_SEC := rfl
  constructor
  · intro h
    by_contra hlong
    refine not_losesNoLease ?_ ?_ h
    · rw [hkey, hoptions, hdeadline]
      exact not_le.mp hlong
    · rw [hkey]
      decide
  · intro h
    apply losesNoLease_of_covered
    rw [hkey, hoptions, hdeadline]
    exact h

/-- Three minutes are accepted, but too long. -/
theorem no_lease_lost_iff_three_minutes :
    LosesNoLease (PresenceConfig.mk (.ofInt 180000) (.ofInt 15000)).managerOptions ↔
      durationOf (.ofInt 180000) ≤ 120000 := by
  have accepted : loadPresenceConfig (some (.ofInt 180000)) (some (.ofInt 15000)) =
      .ok ⟨.ofInt 180000, .ofInt 15000⟩ := by
    decide +kernel
  exact no_lease_lost_iff accepted

/-- With a lease of 200 and a flush interval of 150 seconds, which `loadConfig` accepts, a
fresh lease is gone after 120 seconds. -/
theorem lease_lost_early :
    ∃ config, loadPresenceConfig (some (.ofInt 200000)) (some (.ofInt 150000)) = .ok config ∧
      ¬ LosesNoLease config.managerOptions := by
  refine ⟨⟨.ofInt 200000, .ofInt 150000⟩, by decide +kernel, ?_⟩
  exact not_losesNoLease (by decide +kernel) (by decide)

end Pulse
