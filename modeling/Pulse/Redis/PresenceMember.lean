import Pulse.Config.LoadConfig
import Pulse.Redis.PresenceLuaScripts
import Pulse.Util.Uuidv7

/-!
# Presence members

A lease is stored under the text of an instance id and a connection id, joined by a
colon, and is read back by splitting at the first colon. Connection ids are version 7
identifiers; the configuration lets any text be an instance id.
-/

namespace Pulse

open Js

def parsePresenceMember (member : String) : Option (String × ConnectionId) :=
  if member = "" then none
  else
    let separatorIndex := member.toList.idxOf ':'
    if separatorIndex = member.toList.length then none
    else
      let instanceId := String.ofList (member.toList.take separatorIndex)
      let connectionId := String.ofList (member.toList.drop (separatorIndex + 1))
      if instanceId = "" ∨ connectionId = "" then none else some (instanceId, connectionId)

/-- The identifiers which the generator can produce, from whatever state. -/
def UUIDv7.Generated (id : String) : Prop :=
  ∃ (g : UUIDv7) (customTimestamp : Option Nat) (d : UUIDv7.Draw),
    (g.generateUUIDv7 customTimestamp d).2 = some id

/-- The instance ids of the configurations which `loadConfig` accepts. -/
def AcceptedInstanceId (instanceId : String) : Prop :=
  ∃ (overrides : PulseServerOptions) (env : Environment) (config : PulseConfig),
    loadConfig overrides env = .ok config ∧ config.instanceId = instanceId

/-- The configuration puts no condition on an instance id. -/
theorem acceptedInstanceId (instanceId : String) : AcceptedInstanceId instanceId :=
  ⟨_, _, _, loadConfig_instanceId loadConfig_defaults instanceId, rfl⟩

theorem formatUUIDv7_eq_some {ms sequenceCounter : Nat} {random : Vector UInt8 8} {id : String}
    (h : formatUUIDv7 ms sequenceCounter random = some id) :
    id = String.ofList (pieces ms sequenceCounter random) := by
  by_cases hms : ms < 2 ^ 48
  · rw [formatUUIDv7_eq hms] at h
    exact (Option.some_inj.mp h).symm
  · have hwide : ¬ ms < 281474976710656 := hms
    simp [formatUUIDv7, writeUIntBE, hwide] at h

/-- Generated identifiers have one length. -/
theorem UUIDv7.Generated.length_toList {id : String} (h : UUIDv7.Generated id) :
    id.toList.length = 36 := by
  obtain ⟨g, customTimestamp, d, h⟩ := h
  rw [formatUUIDv7_eq_some h, String.toList_ofList]
  exact length_pieces _ _ _

theorem formatPresenceMember_of_ne {instanceId : String} {connectionId : ConnectionId}
    (hi : instanceId ≠ "") (hc : connectionId ≠ "") :
    formatPresenceMember instanceId connectionId = .ok (instanceId ++ ":" ++ connectionId) := by
  rw [formatPresenceMember, if_neg (by simp [hi, hc])]

theorem formatPresenceMember_eq_ok {instanceId : String} {connectionId : ConnectionId}
    {member : String} (h : formatPresenceMember instanceId connectionId = .ok member) :
    instanceId ≠ "" ∧ connectionId ≠ "" ∧
      member.toList = instanceId.toList ++ ':' :: connectionId.toList := by
  rw [formatPresenceMember] at h
  split at h
  · cases h
  · rename_i hne
    obtain ⟨hi, hc⟩ := not_or.mp hne
    cases h
    exact ⟨hi, hc, by simp [String.toList_append]⟩

/-- The instance id which is read back has no colon. -/
theorem notMem_of_parsePresenceMember {member instanceId : String} {connectionId : ConnectionId}
    (h : parsePresenceMember member = some (instanceId, connectionId)) :
    ':' ∉ instanceId.toList := by
  simp only [parsePresenceMember] at h
  split at h
  · cases h
  · split at h
    · cases h
    · rename_i hfound
      split at h
      · cases h
      · obtain ⟨rfl, -⟩ := Prod.mk.inj (Option.some_inj.mp h)
        rw [String.toList_ofList]
        have hmem : ':' ∈ member.toList := by
          by_contra habsent
          exact hfound (List.idxOf_eq_length habsent)
        intro htake
        exact absurd ((List.mem_take_iff_idxOf_lt hmem).mp htake) (lt_irrefl _)

/-- Without a colon in the instance id, the first colon is the separator. -/
theorem parsePresenceMember_of_notMem {member instanceId : String} {connectionId : ConnectionId}
    (h : formatPresenceMember instanceId connectionId = .ok member)
    (hcolon : ':' ∉ instanceId.toList) :
    parsePresenceMember member = some (instanceId, connectionId) := by
  obtain ⟨hi, hc, hmember⟩ := formatPresenceMember_eq_ok h
  have hne : member ≠ "" := by
    rintro rfl
    simp at hmember
  have hindex : member.toList.idxOf ':' = instanceId.toList.length := by
    rw [hmember, List.idxOf_append_of_notMem hcolon, List.idxOf_cons_self, Nat.add_zero]
  have hfound : instanceId.toList.length ≠ member.toList.length := by
    rw [hmember, List.length_append, List.length_cons]
    omega
  have htake : member.toList.take instanceId.toList.length = instanceId.toList := by
    rw [hmember, List.take_left]
  have hdrop : member.toList.drop (instanceId.toList.length + 1) = connectionId.toList := by
    rw [hmember, ← List.drop_drop, List.drop_left]
    rfl
  simp only [parsePresenceMember, if_neg hne, hindex, if_neg hfound, htake, hdrop,
    String.ofList_toList]
  rw [if_neg (by simp [hi, hc])]

/-- Connection ids of one length make the member determine both parts. -/
theorem formatPresenceMember_inj {member i i' : String} {c c' : ConnectionId}
    (hlen : c.toList.length = c'.toList.length) (h : formatPresenceMember i c = .ok member)
    (h' : formatPresenceMember i' c' = .ok member) : i' = i ∧ c' = c := by
  have heq := (formatPresenceMember_eq_ok h').2.2.symm.trans (formatPresenceMember_eq_ok h).2.2
  obtain ⟨hi, hc⟩ := List.append_inj' heq (by simp [hlen])
  exact ⟨String.toList_injective hi, String.toList_injective (List.cons.inj hc).2⟩

/-- A member is read back as what it was made from, and stands for nothing else, if and
only if the instance id has no colon. -/
theorem presenceMember_codec_iff {instanceId : String} {connectionId : ConnectionId}
    (_ : AcceptedInstanceId instanceId) (hne : instanceId ≠ "")
    (hc : UUIDv7.Generated connectionId) :
    (∃ member, formatPresenceMember instanceId connectionId = .ok member ∧
        parsePresenceMember member = some (instanceId, connectionId) ∧
        ∀ i' c', AcceptedInstanceId i' → UUIDv7.Generated c' →
          formatPresenceMember i' c' = .ok member → i' = instanceId ∧ c' = connectionId) ↔
      ':' ∉ instanceId.toList := by
  have hcne : connectionId ≠ "" := by
    rintro rfl
    have hlen := hc.length_toList
    simp at hlen
  constructor
  · rintro ⟨member, -, hparse, -⟩
    exact notMem_of_parsePresenceMember hparse
  · intro hcolon
    have hformat := formatPresenceMember_of_ne hne hcne
    refine ⟨_, hformat, parsePresenceMember_of_notMem hformat hcolon, ?_⟩
    intro i' c' _ hc' h'
    exact formatPresenceMember_inj (hc.length_toList.trans hc'.length_toList.symm) hformat h'

/-- The member of the default instance id. -/
theorem presenceMember_codec_default :
    ∃ member, formatPresenceMember "pulse-node-1" "018bcfe5-6800-7000-8000-000000000000" =
        .ok member ∧
      parsePresenceMember member =
        some ("pulse-node-1", "018bcfe5-6800-7000-8000-000000000000") ∧
      ∀ i' c', AcceptedInstanceId i' → UUIDv7.Generated c' →
        formatPresenceMember i' c' = .ok member →
          i' = "pulse-node-1" ∧ c' = "018bcfe5-6800-7000-8000-000000000000" :=
  (presenceMember_codec_iff (acceptedInstanceId "pulse-node-1") (by decide)
    ⟨{}, none, { now := 1700000000000 }, by decide +kernel⟩).mpr (by decide)

/-- An instance id with a port is cut at its own colon. -/
theorem presenceMember_misread :
    AcceptedInstanceId "10.0.0.5:8080" ∧
      UUIDv7.Generated "018bcfe5-6800-7000-8000-000000000000" ∧
      formatPresenceMember "10.0.0.5:8080" "018bcfe5-6800-7000-8000-000000000000" =
        .ok "10.0.0.5:8080:018bcfe5-6800-7000-8000-000000000000" ∧
      parsePresenceMember "10.0.0.5:8080:018bcfe5-6800-7000-8000-000000000000" =
        some ("10.0.0.5", "8080:018bcfe5-6800-7000-8000-000000000000") :=
  ⟨acceptedInstanceId _, ⟨{}, none, { now := 1700000000000 }, by decide +kernel⟩,
    by decide +kernel, by decide +kernel⟩

end Pulse
