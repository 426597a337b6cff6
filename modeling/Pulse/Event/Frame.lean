import Pulse.Event.Validator

/-!
# Frames of an envelope

What a node reads from the frame in which a client sent an envelope: the same event
for the same target. The sender is not among it, since a node fills in the user of
the connection.
-/

namespace Pulse

open Js

/-- The envelope is the one that was sent, as a node reads it. A blank target may be filled
in from the payload. -/
structure Carries (sent envelope : PulseEventEnvelope) : Prop where
  type : envelope.type = sent.type
  payload : envelope.payload = reparseFields sent.payload
  room : ∀ roomId, sent.targetRoomId = some roomId → trim roomId ≠ "" →
    envelope.targetRoomId = some (trim roomId)
  recipient : ∀ recipientId, sent.targetRecipientId = some recipientId → trim recipientId ≠ "" →
    envelope.targetRecipientId = some (trim recipientId)

namespace PulseEventEnvelope

variable (e : PulseEventEnvelope)

theorem fields_eventId : e.fields.get? "eventId" = some (.str e.eventId) := rfl

theorem fields_type : e.fields.get? "type" = some (.str e.type.text) := rfl

theorem fields_timestamp : e.fields.get? "timestamp" = some (reparse (.num e.timestamp)) := rfl

theorem fields_senderId : e.fields.get? "senderId" = some (.str e.senderId) := rfl

theorem fields_seq : e.fields.get? "seq" = e.seq.map fun s => .num (.ofInt s) := by
  cases h : e.seq <;> simp [fields, h]

theorem fields_target : e.fields.get? "target" = e.target.map fun t =>
    .obj (Fields.property "roomId" (t.roomId.map .str) ++
      Fields.property "recipientId" (t.recipientId.map .str)) := by
  simp [fields]

theorem fields_payload : e.fields.get? "payload" = some (.obj (reparseFields e.payload)) := by
  simp [fields, reparse]

theorem fields_correlationId : e.fields.get? "correlationId" = e.correlationId.map .str := by
  simp [fields]

theorem fields_ackRequired : e.fields.get? "ackRequired" = e.ackRequired.map .bool := by
  simp [fields]

theorem fields_originInstanceId :
    e.fields.get? "originInstanceId" = e.originInstanceId.map .str := by
  simp [fields]

theorem fields_originTimestampMs :
    e.fields.get? "originTimestampMs" = e.originTimestampMs.map fun t => reparse (.num t) := by
  simp [fields]

/-- A frame is what its reader parses. -/
theorem reparse_toJson : reparse e.toJson = e.toJson := by
  rw [toJson, reparse_obj, fields]
  simp only [reparseFields_append, reparseFields_property, reparseFields, reparse_reparse,
    Option.map_map, Function.comp_def, reparse_str, reparse_bool, reparse_ofInt, reparse_obj,
    reparseFields_reparseFields]

end PulseEventEnvelope

namespace EventValidator

theorem batchJoin_payload (rooms : List String) :
    Fields.get? (reparseFields [("rooms", .arr (rooms.map .str))]) "rooms" =
      some (.arr (rooms.map .str)) := by
  have hsame : (rooms.map Json.str).map reparse = rooms.map .str := by
    rw [List.map_map]
    rfl
  rw [get?_reparseFields, Fields.get?_cons, if_pos rfl, Option.map_some, reparse,
    reparseElements_eq_map, hsame]

theorem stringOf_map_str (s : Option String) : stringOf (s.map .str) = s := by
  cases s <;> rfl

/-- A node reads from a frame what was sent. -/
theorem validateIncoming_toJson {f envelope : PulseEventEnvelope} {senderId : String}
    {fresh : Fresh} (h : validateIncoming (some f.toJson) senderId fresh = .ok envelope) :
    Carries f envelope ∧ envelope.correlationId = f.correlationId ∧
      (f.eventId ≠ "" → envelope.eventId = f.eventId) := by
  obtain ⟨obj, hobj, htype, hcorrelation, heventId, hpayload, htarget⟩ := validateIncoming_ok h
  rw [PulseEventEnvelope.toJson, Option.some.injEq, Json.obj.injEq] at hobj
  subst hobj
  rw [f.fields_type, stringOf, Option.some.injEq] at htype
  rw [f.fields_correlationId, stringOf_map_str] at hcorrelation
  rw [f.fields_payload, objectOf, Option.getD_some] at hpayload
  refine ⟨⟨EventType.text_injective htype.symm, hpayload, ?_, ?_⟩, hcorrelation,
    fun hne => heventId f.eventId (by rw [f.fields_eventId, stringOf]) hne⟩
  · intro roomId hroom hne
    obtain ⟨t, ht, hroom⟩ := Option.bind_eq_some_iff.mp hroom
    rw [PulseEventEnvelope.targetRoomId, htarget]
    refine parseTarget_roomId (Fields.property "roomId" (t.roomId.map .str) ++
      Fields.property "recipientId" (t.recipientId.map .str)) ?_ ?_ hne
    · rw [f.fields_target, ht, Option.map_some, objectOf]
    · simp [hroom, stringOf]
  · intro recipientId hrecipient hne
    obtain ⟨t, ht, hrecipient⟩ := Option.bind_eq_some_iff.mp hrecipient
    rw [PulseEventEnvelope.targetRecipientId, htarget]
    refine parseTarget_recipientId (Fields.property "roomId" (t.roomId.map .str) ++
      Fields.property "recipientId" (t.recipientId.map .str)) ?_ ?_ hne
    · rw [f.fields_target, ht, Option.map_some, objectOf]
    · simp [hrecipient, stringOf]

/-- A frame which is numbered, if at all, and meets the requirements of its type is read. -/
theorem exists_validateIncoming {f : PulseEventEnvelope} (seq : f.seq ≠ some 0)
    (originInstanceId : f.originInstanceId = none) (originTimestampMs : f.originTimestampMs = none)
    (requirements : checkRequirements f.type (parseTarget f.fields (reparseFields f.payload))
      (reparseFields f.payload) f.correlationId = .ok ()) (senderId : String) (fresh : Fresh) :
    ∃ envelope, validateIncoming (some f.toJson) senderId fresh = .ok envelope := by
  have hseq : parseSeq f.correlationId (f.fields.get? "seq") = .ok f.seq := by
    rw [f.fields_seq]
    cases hf : f.seq with
    | none => rfl
    | some n =>
        have hne : ¬ n < 1 := by
          rw [hf, ne_eq, Option.some.injEq] at seq
          omega
        simp only [Option.map_some, parseSeq, Number.toNat?_ofInt, if_neg hne]
  have htype : stringOf (f.fields.get? "type") = some f.type.text := by
    rw [f.fields_type, stringOf]
  have hne : f.type.text ≠ "" := by
    cases f.type <;> decide
  have hpayload : objectOf (f.fields.get? "payload") = some (reparseFields f.payload) := by
    rw [f.fields_payload, objectOf]
  simp only [validateIncoming, PulseEventEnvelope.toJson, f.fields_correlationId,
    stringOf_map_str, htype, if_neg hne, EventType.ofText?_text, validateObject, hseq, hpayload,
    Option.getD_some, requirements, f.fields_originInstanceId, originInstanceId,
    f.fields_originTimestampMs, originTimestampMs, bind, Except.bind, Option.map_none,
    parseOriginInstanceId, parseOriginTimestampMs]
  exact ⟨_, rfl⟩

/-- A batch of at most `MAX_BATCH_ROOMS` rooms is read as it was sent. -/
theorem validateIncoming_batchJoin {f : PulseEventEnvelope} {rooms : List String}
    (type : f.type = .roomBatchJoin) (payload : f.payload = [("rooms", .arr (rooms.map .str))])
    (seq : f.seq ≠ some 0) (originInstanceId : f.originInstanceId = none)
    (originTimestampMs : f.originTimestampMs = none) (nonempty : rooms ≠ [])
    (size : rooms.length ≤ MAX_BATCH_ROOMS) (nonblank : ∀ r ∈ rooms, trim r ≠ "")
    (senderId : String) (fresh : Fresh) :
    ∃ envelope, validateIncoming (some f.toJson) senderId fresh = .ok envelope := by
  refine exists_validateIncoming seq originInstanceId originTimestampMs ?_ senderId fresh
  have hrooms : Fields.get? (reparseFields f.payload) "rooms" =
      some (.arr (rooms.map .str)) := by
    rw [payload]
    exact batchJoin_payload rooms
  have hempty : (rooms.map Json.str).isEmpty = false := by
    cases rooms with
    | nil => exact absurd rfl nonempty
    | cons r rest => rfl
  have hsize : ¬ (rooms.map Json.str).length > MAX_BATCH_ROOMS := by
    rw [List.length_map]
    exact Nat.not_lt.mpr size
  have hnames : (rooms.map Json.str).all isNonBlankString = true := by
    rw [List.all_map, List.all_eq_true]
    intro r hr
    rw [Function.comp_apply, isNonBlankString]
    exact bne_iff_ne.mpr (nonblank r hr)
  rw [type, checkRequirements, checkBatchRooms, hrooms]
  simp only [hempty, Bool.false_eq_true, if_false, if_neg hsize, hnames, if_true]

theorem validateIncoming_toJson_seq {f envelope : PulseEventEnvelope} {senderId : String}
    {fresh : Fresh} (h : validateIncoming (some f.toJson) senderId fresh = .ok envelope) :
    envelope.seq = f.seq := by
  obtain ⟨obj, correlationId, hobj, hseq⟩ := validateIncoming_seq h
  rw [PulseEventEnvelope.toJson, Option.some.injEq, Json.obj.injEq] at hobj
  rw [← hobj, f.fields_seq] at hseq
  cases hf : f.seq with
  | none =>
      rw [hf] at hseq
      exact (Except.ok.inj hseq).symm
  | some seq =>
      simp only [hf, Option.map_some, parseSeq, Number.toNat?_ofInt] at hseq
      split at hseq
      · cases hseq
      · exact (Except.ok.inj hseq).symm

/-- A node reads from the frame of another node what was published. -/
theorem validateDistributed_toJson {f envelope : PulseEventEnvelope} {fresh : Fresh}
    (h : validateDistributed f.toJson fresh = .ok envelope) :
    Carries f envelope ∧ (f.eventId ≠ "" → envelope.eventId = f.eventId) ∧
      ∃ origin, f.originInstanceId = some origin ∧ trim origin ≠ "" ∧
        envelope.originInstanceId = some (trim origin) := by
  have hparsed := f.reparse_toJson
  rw [PulseEventEnvelope.toJson] at h hparsed
  simp only [validateDistributed, hparsed, f.fields_originInstanceId, stringOf_map_str] at h
  cases horigin : f.originInstanceId with
  | none =>
      rw [horigin] at h
      cases h
  | some origin =>
      simp only [horigin] at h
      split at h
      · cases h
      · rename_i hblank
        split at h
        · cases h
        · rename_i incoming hincoming
          cases h
          obtain ⟨hcarries, -, heventId⟩ := validateIncoming_toJson hincoming
          exact ⟨⟨hcarries.type, hcarries.payload, hcarries.room, hcarries.recipient⟩, heventId,
            origin, rfl, hblank, rfl⟩

end EventValidator

end Pulse
