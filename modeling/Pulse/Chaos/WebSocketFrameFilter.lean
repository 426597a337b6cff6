import Pulse.Collections.Framing
import Mathlib.Algebra.Ring.Nat
import Mathlib.Data.List.GetD
import Mathlib.Data.List.Induction
import Mathlib.Data.List.TakeDrop

/-!
# Frame filter

The filter accumulates the chunks of a byte stream, takes complete frames off
its buffer and forwards those which the drop predicate does not match. A turn
of its loop reads a header with one of three length encodings and an optional
mask key; the header bytes alone decide what is read, so the filter is a
framing and its output does not depend on the chunks. The frames of a stream
are described by their fields, apart from how the filter reads them.
-/

namespace Pulse

/-- `Number.MAX_SAFE_INTEGER`. -/
def maxSafeInteger : Nat := 0x1fffffffffffff

/-- The number which bytes in network order denote. -/
def readUIntBE (bytes : List UInt8) : Nat := bytes.foldl (fun n b => 256 * n + b.toNat) 0

structure DecodedWebSocketFrame where
  fin : Bool
  rsv : UInt8
  opcode : UInt8
  masked : Bool
  maskKey : Option (List UInt8)
  payloadLength : Nat
  payload : List UInt8
  text : Option String
  deriving DecidableEq, Repr

/-- What the buffer holds of a header: the size of the header, the length of the payload and
the mask key once they are there. -/
inductive FrameHeader where
  | more
  | exceeds (payloadLength : Nat)
  | known (headerLength payloadLength : Nat) (maskKey : Option (List UInt8))
  deriving DecidableEq, Repr

/-- The size of the header without the mask key, and the payload length it declares. -/
def readLength (buffer : List UInt8) : FrameHeader :=
  let lengthIndicator := (buffer.getD 1 0 &&& 0x7f).toNat
  if lengthIndicator = 126 then
    if buffer.length < 4 then .more
    else .known 4 (readUIntBE ((buffer.drop 2).take 2)) none
  else if lengthIndicator = 127 then
    if buffer.length < 10 then .more
    else
      let bigLen := readUIntBE ((buffer.drop 2).take 8)
      if bigLen > maxSafeInteger then .exceeds bigLen else .known 10 bigLen none
  else .known 2 lengthIndicator none

def isMasked (buffer : List UInt8) : Bool := (buffer.getD 1 0 &&& 0x80) != 0

def readHeader (buffer : List UInt8) : FrameHeader :=
  match readLength buffer with
  | .known headerLength payloadLength _ =>
      if isMasked buffer then
        if buffer.length < headerLength + 4 then .more
        else .known (headerLength + 4) payloadLength (some ((buffer.drop headerLength).take 4))
      else .known headerLength payloadLength none
  | header => header

/-- The payload without the mask. -/
def unmask (maskKey : Option (List UInt8)) (rawPayload : List UInt8) : List UInt8 :=
  match maskKey with
  | some key => rawPayload.mapIdx fun i b => b ^^^ key.getD (i % 4) 0
  | none => rawPayload

/-- What the predicate sees of the complete frame at the head of the buffer; `utf8` is the
decoding of a text payload. -/
def decodeFrame (utf8 : List UInt8 → Option String) (buffer : List UInt8)
    (headerLength payloadLength : Nat) (maskKey : Option (List UInt8)) : DecodedWebSocketFrame :=
  let byte0 := buffer.getD 0 0
  let opcode := byte0 &&& 0x0f
  let payload := unmask maskKey ((buffer.drop headerLength).take payloadLength)
  { fin := (byte0 &&& 0x80) != 0
    rsv := (byte0 &&& 0x70) >>> 4
    opcode
    masked := isMasked buffer
    maskKey
    payloadLength
    payload
    text := if opcode = 0x1 then utf8 payload else none }

structure WebSocketFrameFilter where
  buffer : List UInt8 := []
  dropPredicate : Option (DecodedWebSocketFrame → Bool) := none

namespace WebSocketFrameFilter

section header

theorem readLength_size {buffer : List UInt8} {headerLength payloadLength : Nat}
    {maskKey : Option (List UInt8)}
    (h : readLength buffer = .known headerLength payloadLength maskKey) :
    2 ≤ headerLength ∧ maskKey = none := by
  simp only [readLength] at h
  split_ifs at h <;> cases h <;> exact ⟨by decide, rfl⟩

theorem readHeader_size {buffer : List UInt8} {headerLength payloadLength : Nat}
    {maskKey : Option (List UInt8)}
    (h : readHeader buffer = .known headerLength payloadLength maskKey) : 2 ≤ headerLength := by
  simp only [readHeader] at h
  cases hlen : readLength buffer with
  | more => simp [hlen] at h
  | exceeds n => simp [hlen] at h
  | known size length key =>
      have := readLength_size hlen
      simp only [hlen] at h
      split_ifs at h <;> cases h <;> omega

end header

/-- The loop of `processChunk`: the buffer at its end, and the frames to forward, unless a
header declares too much. -/
def processLoop (utf8 : List UInt8 → Option String)
    (dropPredicate : Option (DecodedWebSocketFrame → Bool)) (buffer : List UInt8)
    (outputChunks : List (List UInt8)) : List UInt8 × Option (List (List UInt8)) :=
  if buffer.length < 2 then (buffer, some outputChunks)
  else
    match h : readHeader buffer with
    | .more => (buffer, some outputChunks)
    | .exceeds _ => (buffer, none)
    | .known headerLength payloadLength maskKey =>
        let totalFrameLength := headerLength + payloadLength
        if buffer.length < totalFrameLength then (buffer, some outputChunks)
        else
          let decodedFrame := decodeFrame utf8 buffer headerLength payloadLength maskKey
          let shouldDrop :=
            match dropPredicate with
            | some predicate => predicate decodedFrame
            | none => false
          processLoop utf8 dropPredicate (buffer.drop totalFrameLength)
            (if shouldDrop then outputChunks
              else outputChunks ++ [buffer.take totalFrameLength])
termination_by buffer.length
decreasing_by
  have := readHeader_size h
  rw [List.length_drop]
  omega

/-- The filter after a chunk and the chunks to forward; `none` is the error for a length
beyond the safe integers. -/
def processChunk (utf8 : List UInt8 → Option String) (filter : WebSocketFrameFilter)
    (chunk : List UInt8) : WebSocketFrameFilter × Option (List (List UInt8)) :=
  if chunk.length = 0 then (filter, some [])
  else
    let (buffer, outputChunks) :=
      processLoop utf8 filter.dropPredicate (filter.buffer ++ chunk) []
    ({ filter with buffer }, outputChunks)

/-- A stream given in chunks: the filter at the end and all it forwarded, unless a call
failed. -/
def processChunks (utf8 : List UInt8 → Option String) (filter : WebSocketFrameFilter) :
    List (List UInt8) → WebSocketFrameFilter × Option (List (List UInt8))
  | [] => (filter, some [])
  | chunk :: chunks =>
      let (filter', first) := filter.processChunk utf8 chunk
      let (filter'', rest) := filter'.processChunks utf8 chunks
      (filter'', first.bind fun first => rest.map fun rest => first ++ rest)

section stability

variable {buffer r : List UInt8} {headerLength payloadLength : Nat}
  {maskKey : Option (List UInt8)}

theorem getD_append {i : Nat} (h : i < buffer.length) :
    (buffer ++ r).getD i 0 = buffer.getD i 0 :=
  List.getD_append _ _ _ _ h

theorem slice_append {start size : Nat} (h : start + size ≤ buffer.length) :
    ((buffer ++ r).drop start).take size = (buffer.drop start).take size := by
  rw [List.drop_append_of_le_length (by omega), List.take_append_of_le_length]
  rw [List.length_drop]
  omega

/-- What was read of a length is not changed by what follows. -/
theorem readLength_append (two : 2 ≤ buffer.length) (h : readLength buffer ≠ .more) :
    readLength (buffer ++ r) = readLength buffer := by
  have size : (buffer ++ r).length = buffer.length + r.length := List.length_append
  simp only [readLength, getD_append (r := r) two] at h ⊢
  by_cases short : (buffer.getD 1 0 &&& 0x7f).toNat = 126
  · simp only [if_pos short] at h ⊢
    by_cases there : buffer.length < 4
    · exact absurd (if_pos there) h
    · rw [if_neg there, if_neg (by omega), slice_append (by omega)]
  · simp only [if_neg short] at h ⊢
    by_cases long : (buffer.getD 1 0 &&& 0x7f).toNat = 127
    · simp only [if_pos long] at h ⊢
      by_cases there : buffer.length < 10
      · exact absurd (if_pos there) h
      · rw [if_neg there, if_neg (by omega), slice_append (by omega)]
    · simp only [if_neg long]

/-- A length is read from the bytes of the header alone. -/
theorem readLength_of_append (two : 2 ≤ buffer.length)
    (h : readLength (buffer ++ r) = .known headerLength payloadLength maskKey)
    (there : headerLength ≤ buffer.length) :
    readLength buffer = .known headerLength payloadLength maskKey := by
  by_cases enough : readLength buffer = .more
  · exfalso
    simp only [readLength, getD_append (r := r) two] at h enough
    split_ifs at h enough <;> cases h <;> omega
  · rw [← readLength_append two enough, h]

theorem isMasked_append (two : 2 ≤ buffer.length) :
    isMasked (buffer ++ r) = isMasked buffer := by
  rw [isMasked, isMasked, getD_append two]

theorem readHeader_append (two : 2 ≤ buffer.length) (h : readHeader buffer ≠ .more) :
    readHeader (buffer ++ r) = readHeader buffer := by
  have size : (buffer ++ r).length = buffer.length + r.length := List.length_append
  have enough : readLength buffer ≠ .more := by
    intro hmore
    exact h (by rw [readHeader, hmore])
  simp only [readHeader, readLength_append (r := r) two enough,
    isMasked_append (r := r) two] at h ⊢
  cases hlen : readLength buffer with
  | more => exact absurd hlen enough
  | exceeds n => rfl
  | known size length key =>
      simp only [hlen] at h ⊢
      by_cases hmask : isMasked buffer
      · simp only [if_pos hmask] at h ⊢
        by_cases there : buffer.length < size + 4
        · exact absurd (if_pos there) h
        · rw [if_neg there, if_neg (by omega), slice_append (by omega)]
      · simp only [if_neg hmask]

theorem readHeader_of_append (two : 2 ≤ buffer.length)
    (h : readHeader (buffer ++ r) = .known headerLength payloadLength maskKey)
    (there : headerLength ≤ buffer.length) :
    readHeader buffer = .known headerLength payloadLength maskKey := by
  by_cases enough : readHeader buffer = .more
  · exfalso
    cases hlen : readLength (buffer ++ r) with
    | more => simp [readHeader, hlen] at h
    | exceeds n => simp [readHeader, hlen] at h
    | known size length key =>
        have masked := isMasked_append (r := r) two
        simp only [readHeader, hlen, masked] at h
        have fits : size ≤ headerLength := by
          split_ifs at h
          all_goals
            cases h
            omega
        have known := readLength_of_append two hlen (by omega)
        simp only [readHeader, known] at enough
        split_ifs at h enough
        cases h
        omega
  · rw [← readHeader_append two enough, h]

end stability

/-- The header at the head of a buffer as a framing. -/
def frameHead (buffer : List UInt8) : FrameHead :=
  if buffer.length < 2 then .more
  else
    match readHeader buffer with
    | .more => .more
    | .exceeds _ => .malformed
    | .known headerLength payloadLength _ =>
        if buffer.length < headerLength + payloadLength then .more
        else .frame (headerLength + payloadLength)

theorem frameHead_eq_frame_iff {buffer : List UInt8} {n : Nat} :
    frameHead buffer = .frame n ↔
      2 ≤ buffer.length ∧ ∃ headerLength payloadLength maskKey,
        readHeader buffer = .known headerLength payloadLength maskKey ∧
          headerLength + payloadLength = n ∧ n ≤ buffer.length := by
  rw [frameHead]
  by_cases two : buffer.length < 2
  · rw [if_pos two]
    exact ⟨nofun, fun h => absurd two (by omega)⟩
  · rw [if_neg two]
    cases hheader : readHeader buffer with
    | more => simp
    | exceeds length => simp
    | known size length key =>
        by_cases there : buffer.length < size + length
        · simp only [if_pos there]
          constructor
          · intro h
            cases h
          · rintro ⟨-, size', length', key', heq, rfl, hle⟩
            cases heq
            omega
        · simp only [if_neg there, FrameHead.frame.injEq]
          constructor
          · rintro rfl
            exact ⟨by omega, size, length, key, rfl, rfl, by omega⟩
          · rintro ⟨-, size', length', key', heq, hn, -⟩
            cases heq
            exact hn

theorem frameHead_eq_malformed_iff {buffer : List UInt8} :
    frameHead buffer = .malformed ↔
      2 ≤ buffer.length ∧ ∃ payloadLength, readHeader buffer = .exceeds payloadLength := by
  rw [frameHead]
  by_cases two : buffer.length < 2
  · rw [if_pos two]
    exact ⟨nofun, fun h => absurd two (by omega)⟩
  · rw [if_neg two]
    cases hheader : readHeader buffer with
    | more => simp
    | exceeds length => exact ⟨fun _ => ⟨Nat.not_lt.mp two, length, rfl⟩, fun _ => rfl⟩
    | known size length key =>
        simp only [reduceCtorEq, exists_false, and_false, iff_false]
        split_ifs <;> exact nofun

/-- Complete frames, and headers which declare too much, are decided by the bytes there. -/
def framing : Framing UInt8 where
  head := frameHead
  bounds := by
    intro buffer n h
    obtain ⟨two, size, length, key, header, rfl, there⟩ := frameHead_eq_frame_iff.mp h
    have := readHeader_size header
    exact ⟨by omega, there⟩
  frame_append := by
    intro buffer n more h
    obtain ⟨two, size, length, key, header, total, there⟩ := frameHead_eq_frame_iff.mp h
    have same := readHeader_append (r := more) two (by rw [header]; exact nofun)
    have longer : buffer.length ≤ (buffer ++ more).length := by
      rw [List.length_append]
      omega
    exact frameHead_eq_frame_iff.mpr
      ⟨by omega, size, length, key, same.trans header, total, by omega⟩
  malformed_append := by
    intro buffer more h
    obtain ⟨two, length, header⟩ := frameHead_eq_malformed_iff.mp h
    have same := readHeader_append (r := more) two (by rw [header]; exact nofun)
    have longer : buffer.length ≤ (buffer ++ more).length := by
      rw [List.length_append]
      omega
    exact frameHead_eq_malformed_iff.mpr ⟨by omega, length, same.trans header⟩

theorem framing_prefixed : framing.Prefixed := by
  intro buffer n h
  obtain ⟨two, size, length, key, header, rfl, there⟩ := frameHead_eq_frame_iff.mp h
  have bound := readHeader_size header
  have taken : (buffer.take (size + length)).length = size + length := by
    rw [List.length_take]
    omega
  refine frameHead_eq_frame_iff.mpr ⟨by omega, size, length, key, ?_, rfl, by omega⟩
  refine readHeader_of_append (r := buffer.drop (size + length)) (by omega) ?_ (by omega)
  rw [List.take_append_drop]
  exact header

section loop

variable (utf8 : List UInt8 → Option String)
  (dropPredicate : Option (DecodedWebSocketFrame → Bool))

/-- The frame which the bytes of a complete one decode to. -/
def decode (raw : List UInt8) : Option DecodedWebSocketFrame :=
  match readHeader raw with
  | .known headerLength payloadLength maskKey =>
      some (decodeFrame utf8 raw headerLength payloadLength maskKey)
  | _ => none

/-- Whether the predicate matches a complete frame. -/
def drops (raw : List UInt8) : Bool :=
  dropPredicate.any fun predicate => (decode utf8 raw).any predicate

theorem decodeFrame_append {buffer r : List UInt8} {headerLength payloadLength : Nat}
    (maskKey : Option (List UInt8)) (two : 2 ≤ buffer.length)
    (there : headerLength + payloadLength ≤ buffer.length) :
    decodeFrame utf8 (buffer ++ r) headerLength payloadLength maskKey =
      decodeFrame utf8 buffer headerLength payloadLength maskKey := by
  simp only [decodeFrame, getD_append (r := r) (show 0 < buffer.length by omega),
    isMasked_append (r := r) two, slice_append (r := r) there]

theorem drops_take {buffer : List UInt8} {headerLength payloadLength : Nat}
    {maskKey : Option (List UInt8)}
    (header : readHeader buffer = .known headerLength payloadLength maskKey)
    (there : headerLength + payloadLength ≤ buffer.length) :
    drops utf8 dropPredicate (buffer.take (headerLength + payloadLength)) =
      dropPredicate.any fun predicate =>
        predicate (decodeFrame utf8 buffer headerLength payloadLength maskKey) := by
  have size := readHeader_size header
  have taken : (buffer.take (headerLength + payloadLength)).length =
      headerLength + payloadLength := by
    rw [List.length_take]
    omega
  have parts := List.take_append_drop (headerLength + payloadLength) buffer
  have alone : readHeader (buffer.take (headerLength + payloadLength)) =
      .known headerLength payloadLength maskKey :=
    readHeader_of_append (r := buffer.drop (headerLength + payloadLength)) (by omega)
      (by rw [parts, header]) (by omega)
  have same := decodeFrame_append utf8 (r := buffer.drop (headerLength + payloadLength)) maskKey
    (show 2 ≤ (buffer.take (headerLength + payloadLength)).length by omega)
    (show headerLength + payloadLength ≤ _ by omega)
  rw [parts] at same
  simp only [drops, decode, alone, Option.any_some, same]

theorem processLoop_frame {buffer : List UInt8} {n : Nat} (h : frameHead buffer = .frame n)
    (outputChunks : List (List UInt8)) :
    processLoop utf8 dropPredicate buffer outputChunks =
      processLoop utf8 dropPredicate (buffer.drop n)
        (if drops utf8 dropPredicate (buffer.take n) then outputChunks
          else outputChunks ++ [buffer.take n]) := by
  obtain ⟨two, size, length, key, header, rfl, there⟩ := frameHead_eq_frame_iff.mp h
  rw [processLoop, if_neg (by omega)]
  split
  · rename_i other
    cases header.symm.trans other
  · rename_i other
    cases header.symm.trans other
  · rename_i known
    cases header.symm.trans known
    rw [if_neg (by omega), drops_take utf8 dropPredicate header there]
    cases dropPredicate <;> rfl

theorem processLoop_stop {buffer : List UInt8} (h : ∀ n, frameHead buffer ≠ .frame n)
    (outputChunks : List (List UInt8)) :
    processLoop utf8 dropPredicate buffer outputChunks =
      (buffer, if frameHead buffer = .malformed then none else some outputChunks) := by
  rw [processLoop]
  by_cases two : buffer.length < 2
  · rw [if_pos two, frameHead, if_pos two, if_neg nofun]
  · rw [if_neg two]
    split
    · rename_i header
      rw [frameHead, if_neg two, header]
      rfl
    · rename_i header
      rw [frameHead, if_neg two, header]
      rfl
    · rename_i size length key header
      have short : buffer.length < size + length := by
        by_contra there
        exact h _ (frameHead_eq_frame_iff.mpr
          ⟨by omega, size, length, key, header, rfl, by omega⟩)
      rw [if_pos short, frameHead, if_neg two, header]
      simp only [if_pos short]
      rfl

/-- The loop takes the complete frames and forwards those which the predicate does not match. -/
theorem processLoop_eq (buffer : List UInt8) (outputChunks : List (List UInt8)) :
    processLoop utf8 dropPredicate buffer outputChunks =
      ((framing.split buffer).2,
        if frameHead (framing.split buffer).2 = .malformed then none
        else some (outputChunks ++
          (framing.split buffer).1.filter fun raw => !drops utf8 dropPredicate raw)) := by
  induction buffer using framing.splitInduction generalizing outputChunks with
  | stop buffer h =>
      rw [processLoop_stop utf8 dropPredicate h, Framing.split_of_not_frame h, List.filter_nil,
        List.append_nil]
  | step buffer n h ih =>
      rw [processLoop_frame utf8 dropPredicate h, Framing.split_frame h, ih, List.filter_cons]
      cases drops utf8 dropPredicate (buffer.take n) with
      | true => rfl
      | false => simp

end loop

section chunks

variable (utf8 : List UInt8 → Option String)

/-- The frames which the filter forwards. -/
def forwards (filter : WebSocketFrameFilter) (frames : List (List UInt8)) : List (List UInt8) :=
  frames.filter fun raw => !drops utf8 filter.dropPredicate raw

/-- No complete frame waits in the buffer. -/
def Drained (filter : WebSocketFrameFilter) : Prop :=
  ∀ n, framing.head filter.buffer ≠ .frame n

theorem processChunk_eq {filter : WebSocketFrameFilter} {chunk : List UInt8}
    (drained : filter.Drained) (h : framing.WellFormed (filter.buffer ++ chunk)) :
    filter.processChunk utf8 chunk =
      ({ filter with buffer := (framing.split (filter.buffer ++ chunk)).2 },
        some (filter.forwards utf8 (framing.split (filter.buffer ++ chunk)).1)) := by
  rw [processChunk]
  by_cases empty : chunk.length = 0
  · have : chunk = [] := List.eq_nil_of_length_eq_zero empty
    subst this
    rw [if_pos empty, List.append_nil, Framing.split_of_not_frame drained]
    rfl
  · have within : frameHead (framing.split (filter.buffer ++ chunk)).2 ≠ .malformed := h
    rw [if_neg empty, processLoop_eq]
    simp only [if_neg within, List.nil_append, forwards]

theorem drained_split (filter : WebSocketFrameFilter) (stream : List UInt8) :
    Drained { filter with buffer := (framing.split stream).2 } :=
  fun n => Framing.head_rest stream n

theorem processChunks_eq {filter : WebSocketFrameFilter} {chunks : List (List UInt8)}
    (drained : filter.Drained) (h : framing.WellFormed (filter.buffer ++ chunks.flatten)) :
    filter.processChunks utf8 chunks =
      ({ filter with buffer := (framing.split (filter.buffer ++ chunks.flatten)).2 },
        some (filter.forwards utf8 (framing.split (filter.buffer ++ chunks.flatten)).1)) := by
  induction chunks generalizing filter with
  | nil =>
      rw [processChunks, List.flatten_nil, List.append_nil, Framing.split_of_not_frame drained]
      rfl
  | cons chunk chunks ih =>
      rw [List.flatten_cons, ← List.append_assoc] at h ⊢
      rw [processChunks, processChunk_eq utf8 drained h.left]
      simp only
      rw [ih (drained_split filter _) h.rest, Framing.split_append (filter.buffer ++ chunk)]
      simp only [Option.bind_some, Option.map_some, forwards, List.filter_append]

end chunks

section layout

variable {byte0 byte1 : UInt8} {extended maskKey rest buffer : List UInt8}
  {payloadLength : Nat}

/-- The seven bits of the second byte and the extended length declare a payload length. -/
def DeclaresLength (byte1 : UInt8) (extended : List UInt8) (payloadLength : Nat) : Prop :=
  let lengthIndicator := (byte1 &&& 0x7f).toNat
  if lengthIndicator = 126 then extended.length = 2 ∧ payloadLength = readUIntBE extended
  else if lengthIndicator = 127 then extended.length = 8 ∧ payloadLength = readUIntBE extended
  else extended = [] ∧ payloadLength = lengthIndicator

/-- The mask key has four bytes if the mask bit is set, else none. -/
def HasMaskKey (byte1 : UInt8) (maskKey : List UInt8) : Prop :=
  maskKey.length = if byte1 &&& 0x80 = 0 then 0 else 4

/-- A complete frame: two bytes, the extended length, the mask key if there is one, and the
payload of the declared length. -/
def CompleteFrame (raw : List UInt8) : Prop :=
  ∃ byte0 byte1 extended maskKey payload,
    raw = byte0 :: byte1 :: (extended ++ (maskKey ++ payload)) ∧
    DeclaresLength byte1 extended payload.length ∧ payload.length ≤ maxSafeInteger ∧
    HasMaskKey byte1 maskKey

theorem readUIntBE_lt (bytes : List UInt8) : readUIntBE bytes < 256 ^ bytes.length := by
  induction bytes using List.reverseRecOn with
  | nil => decide
  | append_singleton bytes byte ih =>
      have hbyte := byte.toNat_lt
      rw [readUIntBE, List.foldl_append, List.foldl_cons, List.foldl_nil, ← readUIntBE,
        List.length_append, List.length_singleton, Nat.pow_succ]
      omega

theorem isMasked_iff : isMasked (byte0 :: byte1 :: rest) = true ↔ byte1 &&& 0x80 ≠ 0 :=
  bne_iff_ne

/-- The length of a header is read from its fields. -/
theorem readLength_fields (byte0 : UInt8) (rest : List UInt8)
    (h : DeclaresLength byte1 extended payloadLength) :
    readLength (byte0 :: byte1 :: (extended ++ rest)) =
      if payloadLength ≤ maxSafeInteger then .known (2 + extended.length) payloadLength none
      else .exceeds payloadLength := by
  have hbyte : (byte0 :: byte1 :: (extended ++ rest)).getD 1 0 = byte1 := rfl
  have hslice : ∀ size, extended.length = size →
      ((byte0 :: byte1 :: (extended ++ rest)).drop 2).take size = extended := by
    rintro _ rfl
    exact List.take_left
  simp only [DeclaresLength] at h
  simp only [readLength, hbyte, List.length_cons, List.length_append]
  by_cases short : (byte1 &&& 0x7f).toNat = 126
  · rw [if_pos short] at h ⊢
    obtain ⟨hsize, rfl⟩ := h
    have hlt := readUIntBE_lt extended
    rw [hsize] at hlt
    rw [if_neg (by omega), if_pos (by rw [maxSafeInteger]; omega), hslice 2 hsize, hsize]
  · rw [if_neg short] at h ⊢
    by_cases long : (byte1 &&& 0x7f).toNat = 127
    · rw [if_pos long] at h ⊢
      obtain ⟨hsize, rfl⟩ := h
      rw [if_neg (by omega), hslice 8 hsize, hsize]
      by_cases hlimit : readUIntBE extended ≤ maxSafeInteger
      · rw [if_neg (Nat.not_lt.mpr hlimit), if_pos hlimit]
      · rw [if_pos (Nat.not_le.mp hlimit), if_neg hlimit]
    · rw [if_neg long] at h ⊢
      obtain ⟨rfl, rfl⟩ := h
      have hlt := (byte1 &&& 0x7f).toNat_lt
      rw [if_pos (by rw [maxSafeInteger]; omega), List.length_nil]

/-- A header which was read has the fields of one. -/
theorem exists_fields (two : 2 ≤ buffer.length) (there : readLength buffer ≠ .more) :
    ∃ byte0 byte1 extended rest payloadLength, buffer = byte0 :: byte1 :: (extended ++ rest) ∧
      DeclaresLength byte1 extended payloadLength := by
  obtain ⟨byte0, byte1, buffer, rfl⟩ : ∃ byte0 byte1 rest, buffer = byte0 :: byte1 :: rest := by
    match buffer, two with
    | byte0 :: byte1 :: rest, _ => exact ⟨byte0, byte1, rest, rfl⟩
  have hbyte : (byte0 :: byte1 :: buffer).getD 1 0 = byte1 := rfl
  simp only [readLength, hbyte, List.length_cons] at there
  by_cases short : (byte1 &&& 0x7f).toNat = 126
  · rw [if_pos short, ite_ne_left_iff] at there
    refine ⟨byte0, byte1, buffer.take 2, buffer.drop 2, readUIntBE (buffer.take 2),
      by rw [List.take_append_drop], ?_⟩
    rw [DeclaresLength, if_pos short]
    exact ⟨by rw [List.length_take]; omega, rfl⟩
  · rw [if_neg short] at there
    by_cases long : (byte1 &&& 0x7f).toNat = 127
    · rw [if_pos long, ite_ne_left_iff] at there
      refine ⟨byte0, byte1, buffer.take 8, buffer.drop 8, readUIntBE (buffer.take 8),
        by rw [List.take_append_drop], ?_⟩
      rw [DeclaresLength, if_neg short, if_pos long]
      exact ⟨by rw [List.length_take]; omega, rfl⟩
    · refine ⟨byte0, byte1, [], buffer, (byte1 &&& 0x7f).toNat, rfl, ?_⟩
      rw [DeclaresLength, if_neg short, if_neg long]
      exact ⟨rfl, rfl⟩

theorem readHeader_fields (byte0 : UInt8) (rest : List UInt8)
    (h : DeclaresLength byte1 extended payloadLength) (limit : payloadLength ≤ maxSafeInteger)
    (hkey : HasMaskKey byte1 maskKey) :
    ∃ key, readHeader (byte0 :: byte1 :: (extended ++ (maskKey ++ rest))) =
      .known (2 + extended.length + maskKey.length) payloadLength key := by
  rw [HasMaskKey] at hkey
  rw [readHeader, readLength_fields _ _ h, if_pos limit]
  by_cases hmask : byte1 &&& 0x80 = 0
  · rw [if_pos hmask] at hkey
    refine ⟨none, ?_⟩
    simp only [if_neg (mt isMasked_iff.mp (not_not.mpr hmask)), hkey, Nat.add_zero]
  · rw [if_neg hmask] at hkey
    have hthere : ¬ (byte0 :: byte1 :: (extended ++ (maskKey ++ rest))).length <
        2 + extended.length + 4 := by
      simp only [List.length_cons, List.length_append]
      omega
    simp only [if_pos (isMasked_iff.mpr hmask), if_neg hthere, hkey]
    exact ⟨_, rfl⟩

/-- The fields of a frame are those which the filter reads. -/
theorem completeFrame_iff {raw : List UInt8} : CompleteFrame raw ↔ framing.IsFrame raw := by
  rw [Framing.IsFrame, framing, frameHead_eq_frame_iff]
  constructor
  · rintro ⟨byte0, byte1, extended, maskKey, payload, rfl, hlength, hlimit, hkey⟩
    obtain ⟨key, hread⟩ := readHeader_fields byte0 payload hlength hlimit hkey
    refine ⟨by simp, _, _, key, hread, ?_, Nat.le_refl _⟩
    simp only [List.length_cons, List.length_append]
    omega
  · rintro ⟨two, size, length, key, header, total, -⟩
    have there : readLength raw ≠ .more := by
      intro hmore
      simp [readHeader, hmore] at header
    obtain ⟨byte0, byte1, extended, rest, declared, rfl, hdeclares⟩ := exists_fields two there
    rw [readHeader, readLength_fields _ _ hdeclares] at header
    by_cases hlimit : declared ≤ maxSafeInteger
    · simp only [if_pos hlimit] at header
      simp only [List.length_cons, List.length_append] at header total
      by_cases hmask : byte1 &&& 0x80 = 0
      · rw [if_neg (mt isMasked_iff.mp (not_not.mpr hmask))] at header
        cases header
        have hrest : rest.length = length := by omega
        exact ⟨byte0, byte1, extended, [], rest, rfl, hrest ▸ hdeclares, hrest ▸ hlimit,
          by rw [HasMaskKey, if_pos hmask, List.length_nil]⟩
      · rw [if_pos (isMasked_iff.mpr hmask)] at header
        split_ifs at header with hmore
        cases header
        have hrest : (rest.drop 4).length = length := by
          rw [List.length_drop]
          omega
        refine ⟨byte0, byte1, extended, rest.take 4, rest.drop 4, by rw [List.take_append_drop],
          hrest ▸ hdeclares, hrest ▸ hlimit, ?_⟩
        rw [HasMaskKey, if_neg hmask, List.length_take]
        omega
    · simp only [if_neg hlimit] at header
      cases header

instance (raw : List UInt8) : Decidable (CompleteFrame raw) :=
  decidable_of_iff (framing.IsFrame raw) completeFrame_iff.symm

/-- A header beyond the limit was read from its fields. -/
theorem readHeader_exceeds (h : readHeader buffer = .exceeds payloadLength)
    (two : 2 ≤ buffer.length) :
    ∃ byte0 byte1 extended rest, buffer = byte0 :: byte1 :: (extended ++ rest) ∧
      DeclaresLength byte1 extended payloadLength ∧ maxSafeInteger < payloadLength := by
  have there : readLength buffer ≠ .more := by
    intro hmore
    simp [readHeader, hmore] at h
  obtain ⟨byte0, byte1, extended, rest, declared, rfl, hdeclares⟩ := exists_fields two there
  rw [readHeader, readLength_fields _ _ hdeclares] at h
  by_cases hlimit : declared ≤ maxSafeInteger
  · simp only [if_pos hlimit] at h
    split_ifs at h
  · simp only [if_neg hlimit] at h
    cases h
    exact ⟨byte0, byte1, extended, rest, rfl, hdeclares, Nat.not_le.mp hlimit⟩

theorem readHeader_of_exceeds (byte0 : UInt8) (rest : List UInt8)
    (h : DeclaresLength byte1 extended payloadLength)
    (beyond : maxSafeInteger < payloadLength) :
    readHeader (byte0 :: byte1 :: (extended ++ rest)) = .exceeds payloadLength := by
  rw [readHeader, readLength_fields _ _ h, if_neg (Nat.not_le.mpr beyond)]

end layout

theorem CompleteFrame.decode_eq (utf8 : List UInt8 → Option String) {raw : List UInt8}
    (h : CompleteFrame raw) : ∃ frame, decode utf8 raw = some frame := by
  obtain ⟨-, size, length, key, header, -, -⟩ :=
    frameHead_eq_frame_iff.mp (completeFrame_iff.mp h)
  refine ⟨decodeFrame utf8 raw size length key, ?_⟩
  rw [decode, header]

/-- A chunk and the rest of a stream succeed together. -/
theorem processChunks_cons_eq_some {utf8 : List UInt8 → Option String}
    {filter filter'' : WebSocketFrameFilter} {chunk : List UInt8} {chunks : List (List UInt8)}
    {output : List (List UInt8)}
    (h : filter.processChunks utf8 (chunk :: chunks) = (filter'', some output)) :
    ∃ filter' first rest, filter.processChunk utf8 chunk = (filter', some first) ∧
      filter'.processChunks utf8 chunks = (filter'', some rest) ∧ output = first ++ rest := by
  rw [processChunks] at h
  cases hfirst : filter.processChunk utf8 chunk with
  | mk filter' first =>
      cases hrest : filter'.processChunks utf8 chunks with
      | mk last rest =>
          simp only [hfirst, hrest, Prod.mk.injEq, Option.bind_eq_some_iff,
            Option.map_eq_some_iff] at h
          obtain ⟨rfl, first', rfl, rest', rfl, rfl⟩ := h
          exact ⟨filter', first', rest', rfl, hrest, rfl⟩

/-- No header of a frame of the stream declares a length beyond the safe integers. -/
def WithinLimit (stream : List UInt8) : Prop :=
  ∀ (frames : List (List UInt8)) byte0 byte1 extended rest,
    stream = frames.flatten ++ byte0 :: byte1 :: (extended ++ rest) →
    (∀ raw ∈ frames, CompleteFrame raw) →
    ∀ payloadLength, DeclaresLength byte1 extended payloadLength →
      payloadLength ≤ maxSafeInteger

theorem isFrame_of_complete {frames : List (List UInt8)}
    (complete : ∀ raw ∈ frames, CompleteFrame raw) : ∀ raw ∈ frames, framing.IsFrame raw :=
  fun raw hraw => completeFrame_iff.mp (complete raw hraw)

theorem complete_of_mem_split (stream : List UInt8) :
    ∀ raw ∈ (framing.split stream).1, CompleteFrame raw :=
  fun raw hraw =>
    completeFrame_iff.mpr (Framing.isFrame_of_mem_split framing_prefixed stream raw hraw)

theorem WithinLimit.wellFormed {stream : List UInt8} (h : WithinLimit stream) :
    framing.WellFormed stream := by
  intro malformed
  obtain ⟨two, length, header⟩ := frameHead_eq_malformed_iff.mp malformed
  obtain ⟨byte0, byte1, extended, rest, hfields, hdeclares, beyond⟩ :=
    readHeader_exceeds header two
  have parts := (Framing.flatten_append_rest (F := framing) stream).symm
  rw [hfields] at parts
  have limit := h _ _ _ _ _ parts (complete_of_mem_split stream) length hdeclares
  omega

theorem withinLimit_iff {stream : List UInt8} :
    WithinLimit stream ↔ framing.WellFormed stream := by
  refine ⟨WithinLimit.wellFormed, ?_⟩
  rintro h frames byte0 byte1 extended rest rfl complete length hdeclares
  by_contra beyond
  have header := readHeader_of_exceeds byte0 rest hdeclares (Nat.not_le.mp beyond)
  have malformed : framing.head (byte0 :: byte1 :: (extended ++ rest)) = .malformed :=
    frameHead_eq_malformed_iff.mpr ⟨by simp, length, header⟩
  have ended : ∀ n, framing.head (byte0 :: byte1 :: (extended ++ rest)) ≠ .frame n := by
    intro n hn
    cases malformed.symm.trans hn
  rw [Framing.WellFormed, Framing.split_flatten_append (isFrame_of_complete complete) ended] at h
  exact h malformed

end WebSocketFrameFilter

open WebSocketFrameFilter in
/-- Chunking: however a stream is cut, the filter forwards and keeps the same bytes as for the
whole stream at once. Without a predicate these are all bytes of the stream; with one, the
forwarded bytes are those of the complete frames which it does not match. -/
theorem processChunks_eq_processChunk (utf8 : List UInt8 → Option String)
    (dropPredicate : Option (DecodedWebSocketFrame → Bool)) (chunks : List (List UInt8))
    (limit : WithinLimit chunks.flatten) :
    ∃ filter output output',
      processChunks utf8 { dropPredicate } chunks = (filter, some output) ∧
      processChunk utf8 { dropPredicate } chunks.flatten = (filter, some output') ∧
      output.flatten = output'.flatten ∧
      (dropPredicate = none → output.flatten ++ filter.buffer = chunks.flatten) ∧
      ∀ predicate, dropPredicate = some predicate →
        ∃ frames : List (List UInt8), (∀ raw ∈ frames, CompleteFrame raw) ∧
          (∀ raw, raw <+: filter.buffer → ¬ CompleteFrame raw) ∧
          chunks.flatten = frames.flatten ++ filter.buffer ∧
          output.flatten =
            (frames.filter fun raw => !(decode utf8 raw).any predicate).flatten := by
  have drained : Drained { dropPredicate } := by
    intro n hn
    cases hn
  have wellFormed := limit.wellFormed
  have parts := Framing.flatten_append_rest (F := framing) chunks.flatten
  refine ⟨_, _, _, processChunks_eq utf8 drained wellFormed,
    processChunk_eq utf8 drained wellFormed, rfl, ?_, ?_⟩
  · rintro rfl
    have all : ∀ frames, forwards utf8 {} frames = frames :=
      fun frames => List.filter_eq_self.mpr fun raw _ => rfl
    simp only [List.nil_append, all, parts]
  · rintro predicate rfl
    refine ⟨(framing.split chunks.flatten).1, complete_of_mem_split chunks.flatten, ?_,
      parts.symm, rfl⟩
    intro raw hraw
    rw [completeFrame_iff]
    exact (Framing.head_ne_frame_iff framing_prefixed).mp (Framing.head_rest chunks.flatten)
      raw hraw

open WebSocketFrameFilter in
theorem processChunks_eq_processChunk_cut_frame :
    ∃ filter output output',
      processChunks (fun _ => none) { dropPredicate := some fun f => f.opcode == 2 }
          [[0x81, 0x02], [0x68], [], [0x69, 0x82, 0x00, 0x82]] = (filter, some output) ∧
      processChunk (fun _ => none) { dropPredicate := some fun f => f.opcode == 2 }
          [0x81, 0x02, 0x68, 0x69, 0x82, 0x00, 0x82] = (filter, some output') ∧
      output.flatten = output'.flatten ∧
      ((some fun f : DecodedWebSocketFrame => f.opcode == 2) = none →
        output.flatten ++ filter.buffer = [0x81, 0x02, 0x68, 0x69, 0x82, 0x00, 0x82]) ∧
      ∀ predicate, (some fun f : DecodedWebSocketFrame => f.opcode == 2) = some predicate →
        ∃ frames : List (List UInt8), (∀ raw ∈ frames, CompleteFrame raw) ∧
          (∀ raw, raw <+: filter.buffer → ¬ CompleteFrame raw) ∧
          [0x81, 0x02, 0x68, 0x69, 0x82, 0x00, 0x82] = frames.flatten ++ filter.buffer ∧
          output.flatten =
            (frames.filter fun raw => !(decode (fun _ => none) raw).any predicate).flatten :=
  processChunks_eq_processChunk (fun _ => none) (some fun f => f.opcode == 2)
    [[0x81, 0x02], [0x68], [], [0x69, 0x82, 0x00, 0x82]]
    (withinLimit_iff.mpr (Framing.wellFormed_of_more [[0x81, 0x02, 0x68, 0x69], [0x82, 0x00]]
      [0x82] (List.forall_mem_cons.mpr ⟨by decide, List.forall_mem_singleton.mpr (by decide)⟩)
      (by decide)))

end Pulse
