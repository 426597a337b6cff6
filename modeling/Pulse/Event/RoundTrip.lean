import Pulse.Event.Frame
import Pulse.Js.Equality

/-!
# Round trip between nodes

An accepted frame is normalised once: identifiers are trimmed, the target is completed
from the payload, missing fields are filled in. A node that receives the envelope on a
channel validates it once more, which changes nothing any more.
-/

namespace Pulse

open Js

/-- The same event. Payloads are compared as JSON values, numbers by their value. -/
structure SameEvent (e e' : PulseEventEnvelope) : Prop where
  eventId : e'.eventId = e.eventId
  type : e'.type = e.type
  timestamp : e.timestamp.Same e'.timestamp
  senderId : e'.senderId = e.senderId
  seq : e'.seq = e.seq
  target : e'.target = e.target
  payload : Same (.obj e.payload) (.obj e'.payload)
  correlationId : e'.correlationId = e.correlationId
  ackRequired : e'.ackRequired = e.ackRequired
  originInstanceId : e'.originInstanceId = e.originInstanceId
  originTimestampMs : Option.Rel Number.Same e.originTimestampMs e'.originTimestampMs

namespace EventValidator

section target

theorem stringOf_map_reparse (value : Option Json) :
    stringOf (value.map reparse) = stringOf value := by
  cases value with
  | none => rfl
  | some v =>
      cases v with
      | num n => cases n <;> rfl
      | _ => rfl

/-- Nothing is left in the payload to complete the target with. -/
structure Completed (target : Option EventTarget) (payload : Fields) : Prop where
  room : ∀ s, isMissing (target.bind (·.roomId)) = true →
    stringOf (payload.get? "roomId") = some s → ∃ t, target = some t ∧ t.roomId = some (trim s)
  recipient : ∀ s, isMissing (target.bind (·.recipientId)) = true →
    stringOf (payload.get? "recipientId") = some s →
      ∃ t, target = some t ∧ t.recipientId = some (trim s)

theorem parseTarget_completed (obj payload : Fields) :
    Completed (parseTarget obj payload) payload := by
  simp only [parseTarget]
  generalize (objectOf (obj.get? "target")).map _ = own
  constructor
  · intro s hmissing hs
    simp only [hs] at hmissing ⊢
    cases hroom : isMissing (own.bind (·.roomId)) with
    | true =>
        simp only [hroom] at hmissing ⊢
        split
        · exact ⟨_, rfl, rfl⟩
        · exact ⟨_, rfl, rfl⟩
    | false =>
        simp only [hroom] at hmissing
        exfalso
        split at hmissing
        · cases own with
          | none => cases hroom
          | some t => exact Bool.false_ne_true (hroom.symm.trans hmissing)
        · exact Bool.false_ne_true (hroom.symm.trans hmissing)
  · intro s hmissing hs
    simp only [hs] at hmissing ⊢
    split
    · rename_i hsome
      cases hsome
      exact ⟨_, rfl, rfl⟩
    · rename_i hnone
      exfalso
      split at hmissing
      · rename_i htrue _
        exact hnone _ htrue rfl
      · exact hnone s hmissing rfl

/-- A trimmed and completed target is read back as it is. -/
theorem parseTarget_of_completed {obj payload : Fields} {target : Option EventTarget}
    (htarget : obj.get? "target" = target.map fun t =>
      .obj (Fields.property "roomId" (t.roomId.map .str) ++
        Fields.property "recipientId" (t.recipientId.map .str)))
    (trimmed : NamesTrimmed target) (completed : Completed target payload) :
    parseTarget obj payload = target := by
  have htrim : ∀ name : Option String, (∀ s, name = some s → trim s = s) →
      (stringOf (name.map .str)).map trim = name := by
    intro name h
    rw [stringOf_map_str]
    cases name with
    | none => rfl
    | some s => rw [Option.map_some, h s rfl]
  have hown : ((objectOf (target.map fun t =>
      .obj (Fields.property "roomId" (t.roomId.map .str) ++
        Fields.property "recipientId" (t.recipientId.map .str)))).map fun t =>
      { roomId := (stringOf (Fields.get? t "roomId")).map trim
        recipientId := (stringOf (Fields.get? t "recipientId")).map trim : EventTarget }) =
      target := by
    cases target with
    | none => rfl
    | some t =>
        have hroom := htrim t.roomId trimmed.1
        have hrecipient := htrim t.recipientId trimmed.2
        simp [objectOf, hroom, hrecipient]
  simp only [parseTarget, htarget]
  rw [hown]
  have hroom : ∀ s, isMissing (target.bind (·.roomId)) = true →
      stringOf (payload.get? "roomId") = some s →
        some { target.getD {} with roomId := some (trim s) } = target := by
    intro s hmissing hs
    obtain ⟨t, rfl, ht⟩ := completed.room s hmissing hs
    rw [Option.getD_some, ← ht]
  have hrecipient : ∀ s, isMissing (target.bind (·.recipientId)) = true →
      stringOf (payload.get? "recipientId") = some s →
        some { target.getD {} with recipientId := some (trim s) } = target := by
    intro s hmissing hs
    obtain ⟨t, rfl, ht⟩ := completed.recipient s hmissing hs
    rw [Option.getD_some, ← ht]
  -- Completing the room leaves the target as it is, and so does completing the recipient.
  cases hmissing : isMissing (target.bind (·.roomId)) <;>
    cases hs : stringOf (payload.get? "roomId")
  case true.some s =>
    simp only [hroom s hmissing hs]
    split
    · rename_i hsome
      exact hrecipient _ ‹_› hsome
    · rfl
  all_goals
    simp only
    split
    · rename_i hsome
      exact hrecipient _ ‹_› hsome
    · rfl

end target

section requirements

theorem isNonBlankString_reparse (v : Json) :
    isNonBlankString (reparse v) = isNonBlankString v := by
  cases v with
  | num n => cases n <;> rfl
  | _ => rfl

theorem checkBatchRooms_reparse (correlationId : Option String) (payload : Fields) :
    checkBatchRooms correlationId (reparseFields payload) =
      checkBatchRooms correlationId payload := by
  simp only [checkBatchRooms, get?_reparseFields]
  cases payload.get? "rooms" with
  | none => rfl
  | some v =>
      cases v with
      | num n => cases n <;> rfl
      | arr rooms =>
          have hall : (rooms.map reparse).all isNonBlankString = rooms.all isNonBlankString := by
            rw [List.all_map]
            exact List.all_congr rfl isNonBlankString_reparse
          simp only [Option.map_some, reparse, reparseElements_eq_map, List.isEmpty_map,
            List.length_map, hall]
      | _ => rfl

/-- What a type requires survives the text. -/
theorem checkRequirements_reparse (eventType : EventType) (target : Option EventTarget)
    (payload : Fields) (correlationId : Option String) :
    checkRequirements eventType target (reparseFields payload) correlationId =
      checkRequirements eventType target payload correlationId := by
  have hempty : (reparseFields payload).isEmpty = payload.isEmpty := by
    cases payload <;> rfl
  simp only [checkRequirements, checkBatchRooms_reparse, hempty]

end requirements

section filled

/-- What validation fills in: whatever the frame says, an envelope has an id, a positive time and
a flag for the acknowledgement. -/
structure Filled (envelope : PulseEventEnvelope) : Prop where
  eventId : envelope.eventId ≠ ""
  positive : envelope.timestamp.isPositive = true
  finite : envelope.timestamp.isFinite = true
  ackRequired : ∃ required, envelope.ackRequired = some required

theorem isPositive_ofInt {z : Int} (h : 0 < z) : (Number.ofInt z).isPositive = true := by
  obtain ⟨-, hvalue⟩ := Number.normalize_value (z.natAbs + 1) z.natAbs (Int.le_refl 0)
  rw [Int.toNat_zero, Nat.pow_zero, Nat.mul_one] at hvalue
  have hdigits : (Number.normalize (z.natAbs + 1) z.natAbs 0).1 ≠ 0 := by
    intro hzero
    rw [hzero, Nat.zero_mul] at hvalue
    omega
  have hsign : ¬ z < 0 := by omega
  simp [Number.ofInt, Number.isPositive, hdigits, hsign]

theorem validateObject_filled {obj : Fields} {eventType : EventType}
    {correlationId : Option String} {senderId : String} {fresh : Fresh}
    {envelope : PulseEventEnvelope} (finite : FieldsFinite obj) (hasId : fresh.eventId ≠ "")
    (clock : 0 < fresh.now)
    (h : validateObject obj eventType correlationId senderId fresh = .ok envelope) :
    envelope.senderId = senderId ∧ Filled envelope := by
  simp only [validateObject, bind, Except.bind] at h
  split at h
  · cases h
  · split at h
    · cases h
    · split at h
      · cases h
      · split at h
        · cases h
        · cases h
          refine ⟨rfl, ?_, ?_, ?_, _, rfl⟩
          · simp only
            split
            · split
              · exact hasId
              · assumption
            · exact hasId
          · simp only
            split
            · split
              · assumption
              · exact isPositive_ofInt clock
            · exact isPositive_ofInt clock
          · simp only
            split
            · rename_i n hn
              split
              · have hnumber := finite.get? hn
                rwa [Json.AllFinite] at hnumber
              · rfl
            · rfl

theorem validateIncoming_filled {raw : Option Json} {senderId : String} {fresh : Fresh}
    {envelope : PulseEventEnvelope} (finite : ∀ v, raw = some v → v.AllFinite)
    (hasId : fresh.eventId ≠ "") (clock : 0 < fresh.now)
    (h : validateIncoming raw senderId fresh = .ok envelope) :
    envelope.senderId = senderId ∧ Filled envelope := by
  simp only [validateIncoming] at h
  split at h
  · cases h
  · have hfields := finite _ rfl
    rw [Json.AllFinite] at hfields
    split at h
    · cases h
    · split at h
      · cases h
      · split at h
        · cases h
        · exact validateObject_filled hfields hasId clock h
  · cases h

end filled

section roundTrip

theorem reparse_of_isPositive {n : Number} (positive : n.isPositive = true)
    (finite : n.isFinite = true) : reparse (.num n) = .num n := by
  cases n with
  | infinity => cases finite
  | decimal negative digits exponent =>
      simp only [Number.isPositive, Bool.and_eq_true, Bool.not_eq_true'] at positive
      rw [reparse, Number.reread, positive.1, Bool.false_and]

theorem reparse_of_isFinite {n : Number} (finite : n.isFinite = true) :
    ∃ m, reparse (.num n) = .num m ∧ m.isFinite = true ∧ n.Same m := by
  cases n with
  | infinity => cases finite
  | decimal negative digits exponent =>
      refine ⟨_, by rw [reparse, Number.reread], rfl, ?_⟩
      by_cases hzero : digits = 0 <;> simp [Number.Same, Number.value, hzero]

/-- An accepted frame is the same event for the node that receives it on a channel. -/
theorem distribution_round_trip {raw : Option Json} {senderId : String} {fresh : Fresh}
    (fresh' : Fresh) {envelope : PulseEventEnvelope} {instanceId : String}
    {originTimestampMs : Number}
    (valid : validateIncoming raw senderId fresh = .ok envelope) (sender : senderId ≠ "")
    (finite : ∀ v, raw = some v → v.AllFinite) (hasId : fresh.eventId ≠ "")
    (clock : 0 < fresh.now) (origin : trim instanceId ≠ "")
    (finiteOrigin : originTimestampMs.isFinite = true) :
    ∃ received, validateDistributed
        (stampForDistribution envelope instanceId originTimestampMs).toJson fresh' = .ok received ∧
      SameEvent
        { envelope with
          seq := none
          originInstanceId := some (trim instanceId)
          originTimestampMs := some originTimestampMs } received := by
  obtain ⟨hsender, hfilled⟩ := validateIncoming_filled finite hasId clock valid
  obtain ⟨required, hrequired⟩ := hfilled.ackRequired
  obtain ⟨obj, hobj, -, hcorrelation, -, hpayload, htarget⟩ := validateIncoming_ok valid
  let stamped := stampForDistribution envelope instanceId originTimestampMs
  have hstamped : reparse (.obj stamped.fields) = .obj stamped.fields := stamped.reparse_toJson
  obtain ⟨time, htime, hfinite, hsame⟩ := reparse_of_isFinite finiteOrigin
  -- What the receiver reads from each field.
  have horigin : stamped.fields.get? "originInstanceId" = some (.str instanceId) :=
    stamped.fields_originInstanceId
  have horiginTime : stamped.fields.get? "originTimestampMs" = some (.num time) := by
    rw [stamped.fields_originTimestampMs, ← htime]
    rfl
  have htype : stringOf (stamped.fields.get? "type") = some envelope.type.text := rfl
  have htext : envelope.type.text ≠ "" := by
    cases envelope.type <;> decide
  have hcorrelation' : stringOf (stamped.fields.get? "correlationId") = envelope.correlationId := by
    rw [stamped.fields_correlationId, stringOf_map_str]
    rfl
  have heventId : stringOf (stamped.fields.get? "eventId") = some envelope.eventId := rfl
  have htimestamp : stamped.fields.get? "timestamp" = some (.num envelope.timestamp) := by
    rw [stamped.fields_timestamp, ← reparse_of_isPositive hfilled.positive hfilled.finite]
    rfl
  have hseq : stamped.fields.get? "seq" = none := by
    rw [stamped.fields_seq]
    rfl
  have hpayload' : objectOf (stamped.fields.get? "payload") =
      some (reparseFields envelope.payload) := by
    rw [stamped.fields_payload]
    rfl
  have hack : stamped.fields.get? "ackRequired" = some (.bool required) := by
    rw [stamped.fields_ackRequired]
    show envelope.ackRequired.map Json.bool = some (.bool required)
    rw [hrequired, Option.map_some]
  have hsenderId : stringOf (stamped.fields.get? "senderId") = some senderId := by
    rw [stamped.fields_senderId]
    exact congrArg some hsender
  -- The target and the requirements are those of the sender.
  have hcompleted : Completed envelope.target (reparseFields envelope.payload) := by
    have h := parseTarget_completed obj envelope.payload
    rw [← htarget] at h
    refine ⟨fun s hmissing hs => h.room s hmissing ?_, fun s hmissing hs =>
      h.recipient s hmissing ?_⟩
    · rwa [get?_reparseFields, stringOf_map_reparse] at hs
    · rwa [get?_reparseFields, stringOf_map_reparse] at hs
  have htarget' : parseTarget stamped.fields (reparseFields envelope.payload) =
      envelope.target := by
    refine parseTarget_of_completed stamped.fields_target ?_ hcompleted
    rw [htarget]
    exact parseTarget_trimmed obj envelope.payload
  have hrequirements : checkRequirements envelope.type envelope.target
      (reparseFields envelope.payload) envelope.correlationId = .ok () :=
    (checkRequirements_reparse _ _ _ _).trans (validateIncoming_requirements valid)
  have hincoming : validateIncoming (some (.obj stamped.fields)) senderId fresh' = .ok
      { envelope with
        senderId
        seq := none
        payload := reparseFields envelope.payload
        ackRequired := some required
        originInstanceId := some (trim instanceId)
        originTimestampMs := some time } := by
    simp only [validateIncoming, hcorrelation', htype, if_neg htext, EventType.ofText?_text,
      validateObject, heventId, if_neg hfilled.eventId, htimestamp, hfilled.positive, if_true,
      hseq, parseSeq, hpayload', Option.getD_some, htarget', hrequirements, horigin,
      parseOriginInstanceId, if_neg origin, horiginTime, parseOriginTimestampMs, hfinite, hack,
      bind, Except.bind, pure, Except.pure]
  have hreceived : validateDistributed (.obj stamped.fields) fresh' = .ok
      { envelope with
        senderId
        seq := none
        payload := reparseFields envelope.payload
        ackRequired := some required
        originInstanceId := some (trim instanceId)
        originTimestampMs := some time } := by
    have horigin' : stringOf (stamped.fields.get? "originInstanceId") = some instanceId := by
      rw [horigin, stringOf]
    simp only [validateDistributed, horigin', if_neg origin, hsenderId, if_neg sender, hstamped,
      hincoming, horiginTime, hfinite, if_true]
  have hpayloadFinite : FieldsFinite envelope.payload := by
    have hobject := finite _ hobj
    rw [Json.AllFinite] at hobject
    rw [hpayload]
    cases hfield : obj.get? "payload" with
    | none => trivial
    | some v =>
        cases v with
        | obj fields =>
            have hfields := hobject.get? hfield
            rwa [Json.AllFinite] at hfields
        | _ => trivial
  refine ⟨_, hreceived, rfl, rfl, ?_, hsender.symm, rfl, rfl, ?_, rfl, hrequired.symm, rfl, ?_⟩
  · exact .refl envelope.timestamp
  · have hpayloadSame := same_reparse (.obj envelope.payload) (by rwa [Json.AllFinite])
    rwa [reparse] at hpayloadSame
  · exact .some hsame

/-- A message to a room, whose name is trimmed by the first validation. -/
theorem distribution_round_trip_message :
    ∃ envelope received, validateIncoming
        (some (.obj [("type", .str "ROOM_MESSAGE"), ("target", .obj [("roomId", .str " general ")]),
          ("payload", .obj [("text", .str "hello")])])) "alice" ⟨1, "e"⟩ = .ok envelope ∧
      validateDistributed (stampForDistribution envelope " node-a " (.ofInt 5)).toJson ⟨2, "f"⟩ =
        .ok received ∧
      SameEvent
        { envelope with
          seq := none
          originInstanceId := some (trim " node-a ")
          originTimestampMs := some (.ofInt 5) } received := by
  have hvalid : validateIncoming
      (some (.obj [("type", .str "ROOM_MESSAGE"), ("target", .obj [("roomId", .str " general ")]),
        ("payload", .obj [("text", .str "hello")])])) "alice" ⟨1, "e"⟩ = .ok _ := rfl
  obtain ⟨received, hreceived, hsame⟩ := distribution_round_trip ⟨2, "f"⟩ hvalid (by decide)
    (by
      rintro _ ⟨⟩
      simp [Json.AllFinite, FieldsFinite])
    (by decide) (by decide) (show trim " node-a " ≠ "" by decide)
    (show (Number.ofInt 5).isFinite = true from rfl)
  exact ⟨_, received, hvalid, hreceived, hsame⟩

end roundTrip

end EventValidator

end Pulse
