import Pulse.Event.Envelope

/-!
# Frame validation

`validateIncoming` accepts a parsed client frame and normalises it into an
envelope, or names the first check that fails. `validateDistributed` accepts an
event from a Pub/Sub channel, and `stampForDistribution` prepares an envelope
for one. A frame is given as the result of `JSON.parse`, `none` standing for a
text that does not parse.
-/

namespace Pulse

open Js

structure ValidationError where
  code : String
  message : String
  correlationId : Option String := none
  deriving DecidableEq, Repr

/-- What a handler takes from the clock and the identifier generator. -/
structure Fresh where
  now : Int
  eventId : EventId
  deriving DecidableEq, Repr

def MAX_BATCH_ROOMS : Nat := 50

namespace EventValidator

def stringOf : Option Json → Option String
  | some (.str s) => some s
  | _ => none

def objectOf : Option Json → Option Fields
  | some (.obj fields) => some fields
  | _ => none

/-- `!value` for an optional string. -/
def isMissing : Option String → Bool
  | none => true
  | some s => s == ""

def parseSeq (correlationId : Option String) : Option Json →
    Except ValidationError (Option Nat)
  | none => .ok none
  | some value =>
      let failure : Except ValidationError (Option Nat) := .error
        { code := "INVALID_SEQUENCE_NUMBER"
          message := "Sequence number seq must be a positive integer"
          correlationId }
      match value with
      | .num n =>
          match n.toNat? with
          | some seq => if seq < 1 then failure else .ok (some seq)
          | none => failure
      | _ => failure

/-- The target field, completed from the payload for developer convenience. -/
def parseTarget (obj payload : Fields) : Option EventTarget :=
  let target := (objectOf (obj.get? "target")).map fun t =>
    { roomId := (stringOf (t.get? "roomId")).map trim
      recipientId := (stringOf (t.get? "recipientId")).map trim : EventTarget }
  let target :=
    match isMissing (target.bind (·.roomId)), stringOf (payload.get? "roomId") with
    | true, some roomId => some { target.getD {} with roomId := some (trim roomId) }
    | _, _ => target
  match isMissing (target.bind (·.recipientId)), stringOf (payload.get? "recipientId") with
  | true, some recipientId => some { target.getD {} with recipientId := some (trim recipientId) }
  | _, _ => target

def isNonBlankString : Json → Bool
  | .str s => trim s != ""
  | _ => false

def checkBatchRooms (correlationId : Option String) (payload : Fields) :
    Except ValidationError Unit :=
  match payload.get? "rooms" with
  | some (.arr rooms) =>
      if rooms.isEmpty then .error
        { code := "INVALID_ROOMS_ARRAY"
          message := "Event 'ROOM_BATCH_JOIN' requires a non-empty 'rooms' array in payload"
          correlationId }
      else if rooms.length > MAX_BATCH_ROOMS then .error
        { code := "BATCH_SIZE_EXCEEDED"
          message := "Event 'ROOM_BATCH_JOIN' exceeds maximum batch limit of " ++
            toString MAX_BATCH_ROOMS ++ " rooms"
          correlationId }
      else if rooms.all isNonBlankString then .ok ()
      else .error
        { code := "INVALID_ROOM_ID"
          message := "All entries in 'rooms' array must be non-empty strings"
          correlationId }
  | _ => .error
      { code := "INVALID_ROOMS_ARRAY"
        message := "Event 'ROOM_BATCH_JOIN' requires a non-empty 'rooms' array in payload"
        correlationId }

/-- The requirements which depend on the event type. -/
def checkRequirements (eventType : EventType) (target : Option EventTarget) (payload : Fields)
    (correlationId : Option String) : Except ValidationError Unit :=
  let noRoom := isMissing (target.bind (·.roomId))
  match eventType with
  | .roomJoin | .roomLeave =>
      if noRoom then .error
        { code := "MISSING_ROOM_ID"
          message := "Event '" ++ eventType.text ++ "' requires a valid non-empty roomId"
          correlationId }
      else .ok ()
  | .roomBatchJoin => checkBatchRooms correlationId payload
  | .roomMessage =>
      if noRoom then .error
        { code := "MISSING_ROOM_ID"
          message := "Event 'ROOM_MESSAGE' requires a valid non-empty roomId"
          correlationId }
      else if payload.isEmpty then .error
        { code := "EMPTY_PAYLOAD"
          message := "Event 'ROOM_MESSAGE' requires a non-empty payload"
          correlationId }
      else .ok ()
  | .directMessage =>
      if isMissing (target.bind (·.recipientId)) then .error
        { code := "MISSING_RECIPIENT_ID"
          message := "Event 'DIRECT_MESSAGE' requires a valid non-empty recipientId"
          correlationId }
      else .ok ()
  | _ => .ok ()

def parseOriginInstanceId (correlationId : Option String) : Option Json →
    Except ValidationError (Option String)
  | none => .ok none
  | some value =>
      let failure : Except ValidationError (Option String) := .error
        { code := "INVALID_ORIGIN_INSTANCE_ID"
          message := "originInstanceId must be a non-empty string"
          correlationId }
      match value with
      | .str s => if trim s = "" then failure else .ok (some (trim s))
      | _ => failure

def parseOriginTimestampMs (correlationId : Option String) : Option Json →
    Except ValidationError (Option Number)
  | none => .ok none
  | some value =>
      let failure : Except ValidationError (Option Number) := .error
        { code := "INVALID_ORIGIN_TIMESTAMP"
          message := "originTimestampMs must be a valid finite number"
          correlationId }
      match value with
      | .num n => if n.isFinite then .ok (some n) else failure
      | _ => failure

/-- Validation of a frame that is a JSON object of a supported event type. -/
def validateObject (obj : Fields) (eventType : EventType) (correlationId : Option String)
    (senderId : String) (fresh : Fresh) : Except ValidationError PulseEventEnvelope := do
  let eventId :=
    match stringOf (obj.get? "eventId") with
    | some s => if s = "" then fresh.eventId else s
    | none => fresh.eventId
  let timestamp :=
    match obj.get? "timestamp" with
    | some (.num n) => if n.isPositive then n else .ofInt fresh.now
    | _ => .ofInt fresh.now
  let seq ← parseSeq correlationId (obj.get? "seq")
  let payload := (objectOf (obj.get? "payload")).getD []
  let target := parseTarget obj payload
  checkRequirements eventType target payload correlationId
  let originInstanceId ← parseOriginInstanceId correlationId (obj.get? "originInstanceId")
  let originTimestampMs ← parseOriginTimestampMs correlationId (obj.get? "originTimestampMs")
  let ackRequired :=
    match obj.get? "ackRequired" with
    | some (.bool b) => b
    | _ => false
  return {
    eventId, type := eventType, timestamp, senderId, seq, target, payload, correlationId
    ackRequired := some ackRequired, originInstanceId, originTimestampMs }

def validateIncoming (raw : Option Json) (senderId : String) (fresh : Fresh) :
    Except ValidationError PulseEventEnvelope :=
  match raw with
  | none => .error
      { code := "MALFORMED_JSON", message := "Incoming frame is not valid JSON" }
  | some (.obj fields) =>
      let obj : Fields := fields
      let correlationId := stringOf (obj.get? "correlationId")
      match stringOf (obj.get? "type") with
      | none => .error
          { code := "MISSING_EVENT_TYPE"
            message := "Event must specify a valid string type"
            correlationId }
      | some type =>
          if type = "" then .error
            { code := "MISSING_EVENT_TYPE"
              message := "Event must specify a valid string type"
              correlationId }
          else match EventType.ofText? type with
            | none => .error
                { code := "UNRECOGNIZED_EVENT_TYPE"
                  message := "Event type '" ++ type ++ "' is not supported"
                  correlationId }
            | some eventType => validateObject obj eventType correlationId senderId fresh
  | some _ => .error
      { code := "INVALID_ENVELOPE", message := "Incoming event must be a JSON object" }

/-- Events on a Pub/Sub channel must name their origin. The connection-local
`seq` is stripped. -/
def validateDistributed (raw : Json) (fresh : Fresh) :
    Except ValidationError PulseEventEnvelope :=
  match raw with
  | .obj fields =>
      let obj : Fields := fields
      let correlationId := stringOf (obj.get? "correlationId")
      let failure : Except ValidationError PulseEventEnvelope := .error
        { code := "MISSING_ORIGIN_INSTANCE_ID"
          message := "Distributed events must include a non-empty originInstanceId"
          correlationId }
      match stringOf (obj.get? "originInstanceId") with
      | none => failure
      | some origin =>
          if trim origin = "" then failure
          else
            let senderId :=
              match stringOf (obj.get? "senderId") with
              | some s => if s = "" then "unknown" else s
              | none => "unknown"
            match validateIncoming (some (reparse (.obj obj))) senderId fresh with
            | .error e => .error e
            | .ok envelope =>
                let originTimestampMs :=
                  match obj.get? "originTimestampMs" with
                  | some (.num n) => if n.isFinite then some n else envelope.originTimestampMs
                  | _ => envelope.originTimestampMs
                .ok { envelope with
                  originInstanceId := some (trim origin), originTimestampMs, seq := none }
  | _ => .error
      { code := "INVALID_DISTRIBUTED_ENVELOPE"
        message := "Distributed event must be a JSON object" }

def stampForDistribution (envelope : PulseEventEnvelope) (instanceId : String)
    (originTimestampMs : Number) : PulseEventEnvelope :=
  { envelope with
    originInstanceId := some instanceId
    originTimestampMs := some originTimestampMs
    seq := none }

theorem parseSeq_error {correlationId : Option String} {value : Option Json}
    {e : ValidationError} (h : parseSeq correlationId value = .error e) :
    e.correlationId = correlationId := by
  simp only [parseSeq] at h
  split at h
  · cases h
  · split at h
    · split at h
      · split at h
        · cases h
          rfl
        · cases h
      · cases h
        rfl
    · cases h
      rfl

theorem checkRequirements_error {eventType : EventType} {target : Option EventTarget}
    {payload : Fields} {correlationId : Option String} {e : ValidationError}
    (h : checkRequirements eventType target payload correlationId = .error e) :
    e.correlationId = correlationId := by
  simp only [checkRequirements, checkBatchRooms] at h
  repeat' split at h
  all_goals cases h
  all_goals rfl

theorem parseOriginInstanceId_error {correlationId : Option String} {value : Option Json}
    {e : ValidationError} (h : parseOriginInstanceId correlationId value = .error e) :
    e.correlationId = correlationId := by
  simp only [parseOriginInstanceId] at h
  repeat' split at h
  all_goals cases h
  all_goals rfl

theorem parseOriginTimestampMs_error {correlationId : Option String} {value : Option Json}
    {e : ValidationError} (h : parseOriginTimestampMs correlationId value = .error e) :
    e.correlationId = correlationId := by
  simp only [parseOriginTimestampMs] at h
  repeat' split at h
  all_goals cases h
  all_goals rfl

/-- Every error of a frame that is an object names the request of the frame. -/
theorem validateObject_error {obj : Fields} {eventType : EventType}
    {correlationId : Option String} {senderId : String} {fresh : Fresh} {e : ValidationError}
    (h : validateObject obj eventType correlationId senderId fresh = .error e) :
    e.correlationId = correlationId := by
  simp only [validateObject, bind, Except.bind] at h
  split at h
  · rename_i hseq
    cases h
    exact parseSeq_error hseq
  · split at h
    · rename_i hrequirements
      cases h
      exact checkRequirements_error hrequirements
    · split at h
      · rename_i horigin
        cases h
        exact parseOriginInstanceId_error horigin
      · split at h
        · rename_i htimestamp
          cases h
          exact parseOriginTimestampMs_error htimestamp
        · cases h

theorem validateIncoming_error {obj : Fields} {senderId : String} {fresh : Fresh}
    {e : ValidationError} (h : validateIncoming (some (.obj obj)) senderId fresh = .error e) :
    e.correlationId = stringOf (obj.get? "correlationId") := by
  simp only [validateIncoming] at h
  split at h
  · cases h
    rfl
  · split at h
    · cases h
      rfl
    · split at h
      · cases h
        rfl
      · exact validateObject_error h

theorem validateObject_ok {obj : Fields} {eventType : EventType} {correlationId : Option String}
    {senderId : String} {fresh : Fresh} {envelope : PulseEventEnvelope}
    (h : validateObject obj eventType correlationId senderId fresh = .ok envelope) :
    envelope.type = eventType ∧ envelope.correlationId = correlationId ∧
      (∀ s, stringOf (obj.get? "eventId") = some s → s ≠ "" → envelope.eventId = s) ∧
      envelope.payload = (objectOf (obj.get? "payload")).getD [] ∧
      envelope.target = parseTarget obj envelope.payload := by
  simp only [validateObject, bind, Except.bind] at h
  split at h
  · cases h
  · split at h
    · cases h
    · split at h
      · cases h
      · split at h
        · cases h
        · cases h
          refine ⟨rfl, rfl, fun s hs hne => ?_, rfl, rfl⟩
          simp only [hs, hne, if_false]

theorem validateObject_requirements {obj : Fields} {eventType : EventType}
    {correlationId : Option String} {senderId : String} {fresh : Fresh}
    {envelope : PulseEventEnvelope}
    (h : validateObject obj eventType correlationId senderId fresh = .ok envelope) :
    checkRequirements envelope.type envelope.target envelope.payload correlationId = .ok () := by
  simp only [validateObject, bind, Except.bind] at h
  split at h
  · cases h
  · split at h
    · cases h
    · rename_i hrequirements
      split at h
      · cases h
      · split at h
        · cases h
        · cases h
          exact hrequirements

theorem validateObject_seq {obj : Fields} {eventType : EventType}
    {correlationId : Option String} {senderId : String} {fresh : Fresh}
    {envelope : PulseEventEnvelope}
    (h : validateObject obj eventType correlationId senderId fresh = .ok envelope) :
    parseSeq correlationId (obj.get? "seq") = .ok envelope.seq := by
  simp only [validateObject, bind, Except.bind] at h
  split at h
  · cases h
  · rename_i hseq
    split at h
    · cases h
    · split at h
      · cases h
      · split at h
        · cases h
        · cases h
          exact hseq

/-- What an accepted frame says is what its envelope has. -/
theorem validateIncoming_ok {raw : Option Json} {senderId : String} {fresh : Fresh}
    {envelope : PulseEventEnvelope} (h : validateIncoming raw senderId fresh = .ok envelope) :
    ∃ obj : Fields, raw = some (.obj obj) ∧
      stringOf (obj.get? "type") = some envelope.type.text ∧
      envelope.correlationId = stringOf (obj.get? "correlationId") ∧
      (∀ s, stringOf (obj.get? "eventId") = some s → s ≠ "" → envelope.eventId = s) ∧
      envelope.payload = (objectOf (obj.get? "payload")).getD [] ∧
      envelope.target = parseTarget obj envelope.payload := by
  simp only [validateIncoming] at h
  split at h
  · cases h
  · rename_i obj
    split at h
    · cases h
    · rename_i type htype
      split at h
      · cases h
      · split at h
        · cases h
        · rename_i eventType hparsed
          obtain ⟨rfl, hcorrelation, hrest⟩ := validateObject_ok h
          refine ⟨obj, rfl, ?_, hcorrelation, hrest⟩
          rw [htype, EventType.text_of_ofText? hparsed]
  · cases h

theorem validateIncoming_seq {raw : Option Json} {senderId : String} {fresh : Fresh}
    {envelope : PulseEventEnvelope} (h : validateIncoming raw senderId fresh = .ok envelope) :
    ∃ (obj : Fields) (correlationId : Option String), raw = some (.obj obj) ∧
      parseSeq correlationId (obj.get? "seq") = .ok envelope.seq := by
  simp only [validateIncoming] at h
  split at h
  · cases h
  · split at h
    · cases h
    · split at h
      · cases h
      · split at h
        · cases h
        · exact ⟨_, _, rfl, validateObject_seq h⟩
  · cases h

theorem validateIncoming_requirements {raw : Option Json} {senderId : String} {fresh : Fresh}
    {envelope : PulseEventEnvelope} (h : validateIncoming raw senderId fresh = .ok envelope) :
    checkRequirements envelope.type envelope.target envelope.payload envelope.correlationId =
      .ok () := by
  simp only [validateIncoming] at h
  split at h
  · cases h
  · split at h
    · cases h
    · split at h
      · cases h
      · split at h
        · cases h
        · rw [(validateObject_ok h).2.1]
          exact validateObject_requirements h
  · cases h

/-- An accepted batch join names its rooms, none of them blank. -/
theorem validateIncoming_rooms {raw : Option Json} {senderId : String} {fresh : Fresh}
    {envelope : PulseEventEnvelope} (h : validateIncoming raw senderId fresh = .ok envelope)
    (batch : envelope.type = .roomBatchJoin) :
    ∃ rooms, envelope.payload.get? "rooms" = some (.arr rooms) ∧
      ∀ e ∈ rooms, isNonBlankString e = true := by
  have hrequirements := validateIncoming_requirements h
  rw [batch] at hrequirements
  simp only [checkRequirements, checkBatchRooms] at hrequirements
  split at hrequirements
  · rename_i rooms hrooms
    refine ⟨rooms, hrooms, ?_⟩
    split at hrequirements
    · cases hrequirements
    · split at hrequirements
      · cases hrequirements
      · split at hrequirements
        · rename_i hall
          exact List.all_eq_true.mp hall
        · cases hrequirements
  · cases hrequirements

/-- Whether a frame is valid does not depend on what the node fills in. -/
theorem validateObject_fresh {obj : Fields} {eventType : EventType}
    {correlationId : Option String} {senderId : String} {fresh : Fresh}
    {envelope : PulseEventEnvelope}
    (h : validateObject obj eventType correlationId senderId fresh = .ok envelope)
    (fresh' : Fresh) :
    ∃ envelope', validateObject obj eventType correlationId senderId fresh' = .ok envelope' := by
  simp only [validateObject, bind, Except.bind] at h ⊢
  split at h
  · cases h
  · split at h
    · cases h
    · split at h
      · cases h
      · split at h
        · cases h
        · exact ⟨_, rfl⟩

theorem validateIncoming_fresh {raw : Option Json} {senderId : String} {fresh : Fresh}
    {envelope : PulseEventEnvelope} (h : validateIncoming raw senderId fresh = .ok envelope)
    (fresh' : Fresh) : ∃ envelope', validateIncoming raw senderId fresh' = .ok envelope' := by
  simp only [validateIncoming] at h ⊢
  split at h
  · cases h
  · split at h
    · cases h
    · split at h
      · cases h
      · split at h
        · cases h
        · simp only [*, if_false]
          exact validateObject_fresh h fresh'
  · cases h

theorem validateDistributed_fresh {raw : Json} {fresh : Fresh} {envelope : PulseEventEnvelope}
    (h : validateDistributed raw fresh = .ok envelope) (fresh' : Fresh) :
    ∃ envelope', validateDistributed raw fresh' = .ok envelope' ∧
      envelope'.originInstanceId = envelope.originInstanceId := by
  simp only [validateDistributed] at h ⊢
  split at h
  · split at h
    · cases h
    · split at h
      · cases h
      · split at h
        · cases h
        · rename_i hvalid
          cases h
          obtain ⟨envelope', hvalid'⟩ := validateIncoming_fresh hvalid fresh'
          simp only [*, if_false]
          exact ⟨_, rfl, rfl⟩
  · cases h

theorem exists_of_not_isMissing {s : Option String} (h : isMissing s = false) :
    ∃ value, s = some value ∧ value ≠ "" := by
  cases s with
  | none => cases h
  | some value => exact ⟨value, rfl, beq_eq_false_iff_ne.mp h⟩

/-- The identifiers of a target are trimmed. -/
def NamesTrimmed (target : Option EventTarget) : Prop :=
  (∀ roomId, target.bind (·.roomId) = some roomId → trim roomId = roomId) ∧
    ∀ recipientId, target.bind (·.recipientId) = some recipientId → trim recipientId = recipientId

theorem parseTarget_trimmed (obj payload : Fields) : NamesTrimmed (parseTarget obj payload) := by
  have hown : NamesTrimmed ((objectOf (obj.get? "target")).map fun t =>
      { roomId := (stringOf (t.get? "roomId")).map trim
        recipientId := (stringOf (t.get? "recipientId")).map trim : EventTarget }) := by
    cases objectOf (obj.get? "target") with
    | none => exact ⟨fun _ h => (by cases h), fun _ h => (by cases h)⟩
    | some t =>
        simp only [NamesTrimmed, Option.map_some, Option.bind_some, Option.map_eq_some_iff]
        constructor
        · rintro _ ⟨s, -, rfl⟩
          exact trim_trim s
        · rintro _ ⟨s, -, rfl⟩
          exact trim_trim s
  have hroom : ∀ (target : Option EventTarget) (s : String), NamesTrimmed target →
      NamesTrimmed (some { target.getD {} with roomId := some (trim s) }) := by
    intro target s h
    refine ⟨fun roomId hs => Option.some.inj hs ▸ trim_trim s, fun recipientId hs => ?_⟩
    cases target with
    | none => cases hs
    | some t => exact h.2 recipientId hs
  have hrecipient : ∀ (target : Option EventTarget) (s : String), NamesTrimmed target →
      NamesTrimmed (some { target.getD {} with recipientId := some (trim s) }) := by
    intro target s h
    refine ⟨fun roomId hs => ?_, fun recipientId hs => Option.some.inj hs ▸ trim_trim s⟩
    cases target with
    | none => cases hs
    | some t => exact h.1 roomId hs
  simp only [parseTarget]
  split
  · refine hrecipient _ _ ?_
    split
    · exact hroom _ _ hown
    · exact hown
  · split
    · exact hroom _ _ hown
    · exact hown

/-- An accepted room message names its room, and an accepted direct message its recipient. -/
theorem validateIncoming_target {raw : Option Json} {senderId : String} {fresh : Fresh}
    {envelope : PulseEventEnvelope} (h : validateIncoming raw senderId fresh = .ok envelope) :
    (envelope.type = .roomMessage → ∃ roomId, envelope.targetRoomId = some roomId ∧
        trim roomId = roomId ∧ roomId ≠ "") ∧
      (envelope.type = .directMessage → ∃ recipientId,
        envelope.targetRecipientId = some recipientId ∧
          trim recipientId = recipientId ∧ recipientId ≠ "") := by
  have hrequirements := validateIncoming_requirements h
  obtain ⟨obj, -, -, -, -, -, htarget⟩ := validateIncoming_ok h
  have htrimmed : NamesTrimmed envelope.target := htarget ▸ parseTarget_trimmed obj _
  constructor
  · intro htype
    rw [htype] at hrequirements
    simp only [checkRequirements] at hrequirements
    split at hrequirements
    · cases hrequirements
    · rename_i hnamed
      obtain ⟨roomId, hroom, hne⟩ := exists_of_not_isMissing (Bool.eq_false_iff.mpr hnamed)
      exact ⟨roomId, hroom, htrimmed.1 roomId hroom, hne⟩
  · intro htype
    rw [htype] at hrequirements
    simp only [checkRequirements] at hrequirements
    split at hrequirements
    · cases hrequirements
    · rename_i hnamed
      obtain ⟨recipientId, hrecipient, hne⟩ :=
        exists_of_not_isMissing (Bool.eq_false_iff.mpr hnamed)
      exact ⟨recipientId, hrecipient, htrimmed.2 recipientId hrecipient, hne⟩

/-- A room that is named is the target, whatever the payload says. -/
theorem parseTarget_roomId {obj payload : Fields} (target : Fields) {roomId : String}
    (htarget : objectOf (obj.get? "target") = some target)
    (hroom : stringOf (target.get? "roomId") = some roomId) (hne : trim roomId ≠ "") :
    (parseTarget obj payload).bind (·.roomId) = some (trim roomId) := by
  simp only [parseTarget, htarget, hroom, Option.map_some, Option.bind_some, isMissing,
    beq_eq_false_iff_ne.mpr hne]
  split <;> rfl

theorem parseTarget_recipientId {obj payload : Fields} (target : Fields) {recipientId : String}
    (htarget : objectOf (obj.get? "target") = some target)
    (hrecipient : stringOf (target.get? "recipientId") = some recipientId)
    (hne : trim recipientId ≠ "") :
    (parseTarget obj payload).bind (·.recipientId) = some (trim recipientId) := by
  simp only [parseTarget, htarget, hrecipient, Option.map_some, Option.bind_some]
  -- A room taken from the payload leaves the recipient alone.
  cases isMissing (Option.map trim (stringOf (target.get? "roomId"))) <;>
    cases stringOf (payload.get? "roomId") <;> simp [isMissing, hne]

end EventValidator

end Pulse
