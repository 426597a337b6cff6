import Pulse.Js.Hex
import Pulse.Transition.Run
import Mathlib.Data.Prod.Lex

/-!
# Time-sortable identifiers

The generator of version 7 identifiers, their layout, and the validator. An
identifier is sixteen bytes: the time in milliseconds, the version with a
sequence counter of twelve bits, the variant with random bytes. Its text
orders identifiers by time and counter.
-/

namespace Pulse

open Js Transition

/-- The layout and the text of an identifier. -/
def formatUUIDv7 (ms sequenceCounter : Nat) (random : Vector UInt8 8) : Option String := do
  let timestamp ← writeUIntBE ms 6
  let verAndSeq ← writeUIntBE (0x7 <<< 12 ||| (sequenceCounter &&& 0xfff)) 2
  let bytes := (timestamp ++ verAndSeq ++ random.toList).modify 8 fun b => (b &&& 0x3f) ||| 0x80
  let hex := hex bytes
  return String.ofList (['-'].intercalate
    [substring hex 0 8, substring hex 8 12, substring hex 12 16, substring hex 16 20,
      substring hex 20 32])

/-- The module's variables. -/
structure UUIDv7 where
  lastMs : Nat := 0
  sequenceCounter : Nat := 0
  deriving DecidableEq, Repr

/-- What one call reads from the clock and the random source. -/
structure UUIDv7.Draw where
  now : Nat
  /-- `randomInt(0, 0x3ff)` -/
  seed : Fin 0x3ff := 0
  /-- `randomInt(0, 0xfff)`, drawn for a custom timestamp. -/
  customSeed : Fin 0xfff := 0
  random : Vector UInt8 8 := Vector.replicate 8 0

/-- The generator after a call, and the millisecond which the identifier carries. -/
def UUIDv7.advance (g : UUIDv7) (customTimestamp : Option Nat) (d : UUIDv7.Draw) : UUIDv7 × Nat :=
  match customTimestamp with
  | some ms => ({ g with sequenceCounter := d.customSeed }, ms)
  | none =>
      if d.now > g.lastMs then ({ lastMs := d.now, sequenceCounter := d.seed }, d.now)
      else if d.now = g.lastMs then
        if g.sequenceCounter + 1 > 0xfff then
          ({ lastMs := d.now + 1, sequenceCounter := 0 }, d.now + 1)
        else ({ g with sequenceCounter := g.sequenceCounter + 1 }, d.now)
      else ({ g with sequenceCounter := g.sequenceCounter + 1 }, g.lastMs)

def UUIDv7.generateUUIDv7 (g : UUIDv7) (customTimestamp : Option Nat) (d : UUIDv7.Draw) :
    UUIDv7 × Option String :=
  let (g', ms) := g.advance customTimestamp d
  (g', formatUUIDv7 ms g'.sequenceCounter d.random)

/-- The classes of the characters which the regular expression accepts, one by one. -/
def uuidv7Regex : List (Char → Bool) :=
  List.replicate 8 isHexDigit ++ (· == '-') :: (List.replicate 4 isHexDigit ++
    (· == '-') :: (· == '7') :: (List.replicate 3 isHexDigit ++
      (· == '-') :: (fun c => c ∈ ['8', '9', 'a', 'b', 'A', 'B']) ::
        (List.replicate 3 isHexDigit ++ (· == '-') :: List.replicate 12 isHexDigit)))

def isValidUUIDv7 (id : String) : Bool :=
  if Js.length id ≠ 36 then false else matchesClasses uuidv7Regex id.toList

/-- The timestamp in an identifier; `none` is the error for an invalid one. -/
def extractTimestampFromUUIDv7 (id : String) : Option Nat :=
  if isValidUUIDv7 id then
    parseInt16 (substring (id.toList.filter (· ≠ '-')) 0 12)
  else none

section layout

variable {ms sequenceCounter : Nat}

/-- The low twelve bits of the counter behind the version. -/
theorem verAndSeq_eq (sequenceCounter : Nat) :
    0x7 <<< 12 ||| (sequenceCounter &&& 0xfff) = 0x7000 + sequenceCounter % 4096 := by
  have low : sequenceCounter &&& 0xfff = sequenceCounter % 4096 :=
    Nat.and_two_pow_sub_one_eq_mod sequenceCounter 12
  rw [low]
  have small : sequenceCounter % 4096 < 2 ^ 12 := Nat.mod_lt _ (by decide)
  exact (Nat.shiftLeft_add_eq_or_of_lt small 0x7).symm

/-- The random bytes of an identifier with the variant set. -/
def variantBytes (random : Vector UInt8 8) : List UInt8 :=
  random.toList.modify 0 fun b => (b &&& 0x3f) ||| 0x80

/-- The text of an identifier, in its five pieces. -/
def pieces (ms sequenceCounter : Nat) (random : Vector UInt8 8) : List Char :=
  hexText 8 (ms / 65536) ++ '-' :: (hexText 4 ms ++ '-' ::
    (hexText 4 (0x7000 + sequenceCounter % 4096) ++ '-' ::
      (hex ((variantBytes random).take 2) ++ '-' :: hex ((variantBytes random).drop 2))))

theorem modify_append {α : Type*} (f : α → α) (l r : List α) :
    (l ++ r).modify l.length f = l ++ r.modify 0 f := by
  induction l with
  | nil => rfl
  | cons a l ih => simpa using ih

/-- The five pieces of the text of sixteen bytes, joined. -/
theorem intercalate_pieces {a b c d e : List Char} (ha : a.length = 8) (hb : b.length = 4)
    (hc : c.length = 4) (hd : d.length = 4) (he : e.length = 12) :
    ['-'].intercalate
      [substring (a ++ b ++ (c ++ (d ++ e))) 0 8, substring (a ++ b ++ (c ++ (d ++ e))) 8 12,
        substring (a ++ b ++ (c ++ (d ++ e))) 12 16, substring (a ++ b ++ (c ++ (d ++ e))) 16 20,
        substring (a ++ b ++ (c ++ (d ++ e))) 20 32] =
      a ++ '-' :: (b ++ '-' :: (c ++ '-' :: (d ++ '-' :: e))) := by
  have first : substring (a ++ b ++ (c ++ (d ++ e))) 0 8 = a := by
    rw [List.append_assoc]
    exact substring_prefix ha
  have second : substring (a ++ b ++ (c ++ (d ++ e))) 8 12 = b := by
    rw [List.append_assoc]
    exact substring_append ha (by simp [hb])
  have third : substring (a ++ b ++ (c ++ (d ++ e))) 12 16 = c :=
    substring_append (by simp [ha, hb]) (by simp [hc])
  have fourth : substring (a ++ b ++ (c ++ (d ++ e))) 16 20 = d := by
    rw [← List.append_assoc]
    exact substring_append (by simp [ha, hb, hc]) (by simp [hd])
  have fifth : substring (a ++ b ++ (c ++ (d ++ e))) 20 32 = e := by
    have before : (a ++ b ++ c ++ d).length = 20 := by simp [ha, hb, hc, hd]
    simpa using substring_append (m := e) (r := []) before (by simp [he])
  rw [first, second, third, fourth, fifth]
  simp [List.intercalate]

theorem length_variantBytes (random : Vector UInt8 8) : (variantBytes random).length = 8 := by
  simp [variantBytes]

theorem timestamp_digits (ms : Nat) :
    hexText (2 * 6) ms = hexText 8 (ms / 65536) ++ hexText 4 ms :=
  hexText_add 8 4 ms

theorem formatUUIDv7_eq (h : ms < 2 ^ 48) (random : Vector UInt8 8) :
    formatUUIDv7 ms sequenceCounter random =
      some (String.ofList (pieces ms sequenceCounter random)) := by
  have wide : ms < 256 ^ 6 := h
  have narrow : 0x7000 + sequenceCounter % 4096 < 256 ^ 2 := by omega
  have size := length_variantBytes random
  have header : (bytesBE 6 ms ++ bytesBE 2 (0x7000 + sequenceCounter % 4096)).length = 8 := by
    simp
  have variant := modify_append (fun b => (b &&& 0x3f) ||| 0x80)
    (bytesBE 6 ms ++ bytesBE 2 (0x7000 + sequenceCounter % 4096)) random.toList
  rw [header] at variant
  have text : hex (bytesBE 6 ms ++ bytesBE 2 (0x7000 + sequenceCounter % 4096) ++
      variantBytes random) =
        hexText 8 (ms / 65536) ++ hexText 4 ms ++
          (hexText 4 (0x7000 + sequenceCounter % 4096) ++
            (hex ((variantBytes random).take 2) ++ hex ((variantBytes random).drop 2))) := by
    rw [← hex_append ((variantBytes random).take 2), List.take_append_drop, hex_append, hex_append,
      hex_bytesBE, hex_bytesBE, timestamp_digits, List.append_assoc]
  have joined := intercalate_pieces (length_hexText 8 (ms / 65536)) (length_hexText 4 ms)
    (length_hexText 4 (0x7000 + sequenceCounter % 4096))
    (by simp [size] : (hex ((variantBytes random).take 2)).length = 4)
    (by simp [size] : (hex ((variantBytes random).drop 2)).length = 12)
  simp only [formatUUIDv7, writeUIntBE, verAndSeq_eq, if_pos wide, if_pos narrow, bind,
    Option.bind_some, pure, Option.some.injEq]
  rw [variant, ← variantBytes, text, joined, pieces]

theorem matchesClasses_append {p p' : List (Char → Bool)} {l l' : List Char}
    (h : matchesClasses p l = true) (h' : matchesClasses p' l' = true) :
    matchesClasses (p ++ p') (l ++ l') = true := by
  induction p generalizing l with
  | nil =>
      cases l with
      | nil => exact h'
      | cons c l => cases h
  | cons accepts p ih =>
      cases l with
      | nil => cases h
      | cons c l =>
          obtain ⟨first, rest⟩ := Bool.and_eq_true_iff.mp h
          exact Bool.and_eq_true_iff.mpr ⟨first, ih rest⟩

theorem matchesClasses_replicate {n : Nat} {accepts : Char → Bool} {l : List Char}
    (size : l.length = n) (h : ∀ c ∈ l, accepts c = true) :
    matchesClasses (List.replicate n accepts) l = true := by
  subst size
  induction l with
  | nil => rfl
  | cons c l ih =>
      exact Bool.and_eq_true_iff.mpr ⟨h c (List.mem_cons_self ..),
        ih fun d hd => h d (List.mem_cons_of_mem _ hd)⟩

/-- The first digit of the byte which carries the variant. -/
theorem variant_digit (b : UInt8) :
    hexDigit (((b &&& 0x3f) ||| 0x80).toNat / 16) ∈ ['8', '9', 'a', 'b', 'A', 'B'] := by
  have value : ((b &&& 0x3f) ||| 0x80).toNat = 2 ^ 7 * 1 + b.toNat % 2 ^ 6 := by
    have small : b.toNat % 2 ^ 6 < 2 ^ 7 := by omega
    rw [Nat.two_pow_add_eq_or_of_lt small, UInt8.toNat_or, UInt8.toNat_and, Nat.or_comm]
    exact congrArg (_ ||| ·) (Nat.and_two_pow_sub_one_eq_mod b.toNat 6)
  have range : ((b &&& 0x3f) ||| 0x80).toNat / 16 ∈ [8, 9, 10, 11] := by
    simp only [value, List.mem_cons, List.not_mem_nil, or_false]
    omega
  have digits : ∀ n ∈ [8, 9, 10, 11], hexDigit n ∈ ['8', '9', 'a', 'b', 'A', 'B'] := by decide
  exact digits _ range

theorem version_digits (sequenceCounter : Nat) :
    hexText 4 (0x7000 + sequenceCounter % 4096) =
      '7' :: hexText 3 (0x7000 + sequenceCounter % 4096) := by
  have version : (0x7000 + sequenceCounter % 4096) / 16 ^ 3 % 16 = 7 := by
    have power : 16 ^ 3 = 4096 := rfl
    omega
  rw [hexText_add 1 3]
  simp only [hexText, version, List.nil_append, List.singleton_append]
  rfl

theorem exists_variantBytes (random : Vector UInt8 8) :
    ∃ b rest, variantBytes random = ((b &&& 0x3f) ||| 0x80) :: rest ∧ rest.length = 7 := by
  have size := length_variantBytes random
  rw [variantBytes] at size ⊢
  cases h : random.toList with
  | nil => simp [h] at size
  | cons b rest => exact ⟨b, rest, rfl, by simpa [h] using size⟩

theorem pieces_match (ms sequenceCounter : Nat) (random : Vector UInt8 8) :
    matchesClasses uuidv7Regex (pieces ms sequenceCounter random) = true := by
  obtain ⟨b, rest, hbytes, size⟩ := exists_variantBytes random
  have digits {n k : Nat} : matchesClasses (List.replicate n isHexDigit) (hexText n k) = true :=
    matchesClasses_replicate (length_hexText n k) isHexDigit_of_mem_hexText
  have bytes {n : Nat} {l : List UInt8} (h : 2 * l.length = n) :
      matchesClasses (List.replicate n isHexDigit) (hex l) = true :=
    matchesClasses_replicate ((length_hex l).trans h) isHexDigit_of_mem_hex
  have low : isHexDigit (hexDigit (((b &&& 0x3f) ||| 0x80).toNat % 16)) = true :=
    isHexDigit_hexDigit (Nat.mod_lt _ (by decide))
  have variant : matchesClasses (List.replicate 3 isHexDigit)
      (hexDigit (((b &&& 0x3f) ||| 0x80).toNat % 16) :: hex (rest.take 1)) = true :=
    Bool.and_eq_true_iff.mpr ⟨low, bytes (by simp [size])⟩
  rw [pieces, hbytes, version_digits]
  refine matchesClasses_append digits ?_
  refine matchesClasses_append (p := (· == '-') :: _) (l := '-' :: hexText 4 ms) digits ?_
  refine matchesClasses_append (p := (· == '-') :: (· == '7') :: _)
    (l := '-' :: '7' :: hexText 3 (0x7000 + sequenceCounter % 4096)) digits ?_
  refine matchesClasses_append (p := (· == '-') :: _ :: _)
    (l := '-' :: hexDigit (((b &&& 0x3f) ||| 0x80).toNat / 16) ::
      hexDigit (((b &&& 0x3f) ||| 0x80).toNat % 16) :: hex (rest.take 1)) ?_ ?_
  · exact Bool.and_eq_true_iff.mpr ⟨rfl,
      Bool.and_eq_true_iff.mpr ⟨decide_eq_true (variant_digit b), variant⟩⟩
  · exact Bool.and_eq_true_iff.mpr ⟨rfl, bytes (by simp [size])⟩

theorem pieces_ascii (ms sequenceCounter : Nat) (random : Vector UInt8 8) :
    ∀ c ∈ pieces ms sequenceCounter random, c.toNat < 0x80 := by
  have dash : '-'.toNat < 0x80 := by decide
  have digits {n k : Nat} : ∀ c ∈ hexText n k, c.toNat < 0x80 :=
    fun c hc => toNat_lt_of_isHexDigit (isHexDigit_of_mem_hexText c hc)
  have bytes {l : List UInt8} : ∀ c ∈ hex l, c.toNat < 0x80 :=
    fun c hc => toNat_lt_of_isHexDigit (isHexDigit_of_mem_hex c hc)
  simp only [pieces, List.forall_mem_append, List.forall_mem_cons]
  exact ⟨digits, dash, digits, dash, digits, dash, bytes, dash, bytes⟩

theorem length_pieces (ms sequenceCounter : Nat) (random : Vector UInt8 8) :
    (pieces ms sequenceCounter random).length = 36 := by
  simp [pieces, length_variantBytes]

theorem isValidUUIDv7_pieces (ms sequenceCounter : Nat) (random : Vector UInt8 8) :
    isValidUUIDv7 (String.ofList (pieces ms sequenceCounter random)) = true := by
  have size : Js.length (String.ofList (pieces ms sequenceCounter random)) = 36 := by
    rw [Js.length, utf16_ofList (pieces_ascii ms sequenceCounter random), length_codes,
      length_pieces]
  rw [isValidUUIDv7, if_neg (not_not.mpr size), String.toList_ofList]
  exact pieces_match ms sequenceCounter random

theorem extractTimestamp_pieces (h : ms < 2 ^ 48) (random : Vector UInt8 8) :
    extractTimestampFromUUIDv7 (String.ofList (pieces ms sequenceCounter random)) = some ms := by
  have digits {n k : Nat} : (hexText n k).filter (· ≠ '-') = hexText n k :=
    List.filter_eq_self.mpr fun c hc =>
      decide_eq_true (ne_dash_of_isHexDigit (isHexDigit_of_mem_hexText c hc))
  have clean : hexText (2 * 6) ms <+: (pieces ms sequenceCounter random).filter (· ≠ '-') := by
    rw [pieces, List.filter_append, digits, List.filter_cons_of_neg (by decide),
      List.filter_append, digits, ← List.append_assoc, ← timestamp_digits]
    exact List.prefix_append _ _
  obtain ⟨rest, hclean⟩ := clean
  have time : substring (hexText (2 * 6) ms ++ rest) 0 12 = hexText (2 * 6) ms :=
    substring_prefix (length_hexText _ ms)
  rw [extractTimestampFromUUIDv7, if_pos (isValidUUIDv7_pieces ms sequenceCounter random),
    String.toList_ofList, ← hclean, time]
  exact parseInt16_hexText (by decide) h

/-- Identifiers whose times or counters differ are in the order of these. -/
theorem lt_pieces_iff {ms' sequenceCounter' : Nat} (h : ms < 2 ^ 48) (h' : ms' < 2 ^ 48)
    (random random' : Vector UInt8 8)
    (differ : (ms, sequenceCounter % 4096) ≠ (ms', sequenceCounter' % 4096)) :
    Js.lt (String.ofList (pieces ms sequenceCounter random))
        (String.ofList (pieces ms' sequenceCounter' random')) ↔
      ms < ms' ∨ ms = ms' ∧ sequenceCounter % 4096 < sequenceCounter' % 4096 := by
  have time : ∀ {t}, t < 2 ^ 48 → t / 65536 < 16 ^ 8 := by
    intro t ht
    rw [Nat.div_lt_iff_lt_mul (by decide)]
    exact ht
  have low : ∀ {t}, t % 16 ^ 4 < 16 ^ 4 := Nat.mod_lt _ (by decide)
  have count : ∀ {c}, 0x7000 + c % 4096 < 16 ^ 4 := by
    intro c
    have power : 16 ^ 4 = 65536 := rfl
    omega
  rw [Js.lt, utf16_ofList (pieces_ascii ms sequenceCounter random),
    utf16_ofList (pieces_ascii ms' sequenceCounter' random'), pieces, pieces,
    ← hexText_mod 4 ms, ← hexText_mod 4 ms']
  simp only [codes_append, codes_cons, codes_hexText_append_lt_iff (time h) (time h'),
    codes_hexText_append_lt_iff low low, codes_hexText_append_lt_iff count count,
    List.cons_lt_cons_iff, Nat.lt_irrefl, true_and, false_or]
  have power : 16 ^ 4 = 65536 := rfl
  rw [power]
  rw [Ne, Prod.mk.injEq] at differ
  omega

end layout

/-- Codec: an identifier formatted from a timestamp, a counter and random bytes is valid,
its timestamp is read back, and two identifiers are in the order of their timestamps and
counters. -/
theorem uuidv7_codec (ts ts' sequenceCounter sequenceCounter' : Nat)
    (random random' : Vector UInt8 8) (h : ts < 2 ^ 48) (h' : ts' < 2 ^ 48) :
    ∃ id id', formatUUIDv7 ts sequenceCounter random = some id ∧
      formatUUIDv7 ts' sequenceCounter' random' = some id' ∧
      isValidUUIDv7 id = true ∧ extractTimestampFromUUIDv7 id = some ts ∧
      ((ts, sequenceCounter % 4096) ≠ (ts', sequenceCounter' % 4096) →
        (Js.lt id id' ↔
          toLex (ts, sequenceCounter % 4096) < toLex (ts', sequenceCounter' % 4096))) := by
  refine ⟨_, _, formatUUIDv7_eq h random, formatUUIDv7_eq h' random',
    isValidUUIDv7_pieces ts sequenceCounter random, extractTimestamp_pieces h random, ?_⟩
  intro differ
  rw [Prod.Lex.toLex_lt_toLex]
  exact lt_pieces_iff h h' random random' differ

theorem uuidv7_codec_example :
    ∃ id id', formatUUIDv7 1715000000000 4097 (Vector.replicate 8 255) = some id ∧
      formatUUIDv7 1715000000000 2 (Vector.replicate 8 0) = some id' ∧
      isValidUUIDv7 id = true ∧ extractTimestampFromUUIDv7 id = some 1715000000000 ∧
      ((1715000000000, 4097 % 4096) ≠ (1715000000000, 2 % 4096) →
        (Js.lt id id' ↔ toLex (1715000000000, 4097 % 4096) < toLex (1715000000000, 2 % 4096))) :=
  uuidv7_codec 1715000000000 1715000000000 4097 2 (Vector.replicate 8 255)
    (Vector.replicate 8 0) (by decide) (by decide)

namespace UUIDv7

/-- One call without argument. -/
def step (g : UUIDv7) (d : Draw) : Option UUIDv7 := some (g.generateUUIDv7 none d).1

/-- What the calls without argument return. -/
def identifiers : UUIDv7 → List Draw → List (Option String)
  | _, [] => []
  | g, d :: draws => (g.generateUUIDv7 none d).2 :: identifiers (g.generateUUIDv7 none d).1 draws

/-- All calls return identifiers, each greater than all before it. -/
def Increasing (answers : List (Option String)) : Prop :=
  ∃ ids : List String, answers = ids.map some ∧ ids.Pairwise Js.lt

/-- The call does not count past twelve bits behind a clock which stepped back. -/
def InStep (g : UUIDv7) (d : Draw) : Prop := ¬ (d.now < g.lastMs ∧ 0xfff ≤ g.sequenceCounter)

/-- The counter has twelve bits, and the time has room in an identifier. -/
structure Fits (g : UUIDv7) : Prop where
  counter : g.sequenceCounter ≤ 0xfff
  time : g.lastMs ≤ 2 ^ 47

/-- What one call does with the time and the counter. -/
theorem advance_cases (g : UUIDv7) (d : Draw) :
    (g.lastMs < d.now ∧ g.advance none d = (⟨d.now, d.seed⟩, d.now)) ∨
      (d.now = g.lastMs ∧ 0xfff ≤ g.sequenceCounter ∧
        g.advance none d = (⟨g.lastMs + 1, 0⟩, g.lastMs + 1)) ∨
      (d.now = g.lastMs ∧ g.sequenceCounter < 0xfff ∧
        g.advance none d = (⟨g.lastMs, g.sequenceCounter + 1⟩, g.lastMs)) ∨
      (d.now < g.lastMs ∧
        g.advance none d = (⟨g.lastMs, g.sequenceCounter + 1⟩, g.lastMs)) := by
  obtain later | same | earlier := lt_trichotomy g.lastMs d.now
  · exact .inl ⟨later, by simp [advance, later]⟩
  · by_cases full : 0xfff ≤ g.sequenceCounter
    · refine .inr (.inl ⟨same.symm, full, ?_⟩)
      have overflow : g.sequenceCounter + 1 > 0xfff := by omega
      simp only [advance, ← same, gt_iff_lt, Nat.lt_irrefl, if_false, if_true, if_pos overflow]
    · refine .inr (.inr (.inl ⟨same.symm, by omega, ?_⟩))
      have room : ¬ g.sequenceCounter + 1 > 0xfff := by omega
      simp only [advance, ← same, Nat.lt_irrefl, if_false, if_true, if_neg room, gt_iff_lt]
  · refine .inr (.inr (.inr ⟨earlier, ?_⟩))
    simp only [advance, gt_iff_lt, if_neg earlier.asymm, if_neg earlier.ne]

/-- The identifier of a call carries the time and the counter after it. -/
theorem advance_time (g : UUIDv7) (d : Draw) :
    (g.advance none d).2 = (g.advance none d).1.lastMs := by
  obtain ⟨-, h⟩ | ⟨-, -, h⟩ | ⟨-, -, h⟩ | ⟨-, h⟩ := advance_cases g d <;> rw [h]

theorem Fits.advance {g : UUIDv7} {d : Draw} (fits : g.Fits) (clock : d.now < 2 ^ 47)
    (inStep : g.InStep d) : (g.advance none d).1.Fits := by
  have counter := fits.counter
  have time := fits.time
  obtain ⟨-, h⟩ | ⟨same, -, h⟩ | ⟨-, room, h⟩ | ⟨behind, h⟩ := advance_cases g d
  · have seed := d.seed.isLt
    rw [h]
    exact ⟨by simp only; omega, clock.le⟩
  · rw [h]
    exact ⟨by simp only; omega, by simp only; omega⟩
  · rw [h]
    exact ⟨by simp only; omega, time⟩
  · rw [h]
    have room : g.sequenceCounter < 0xfff := by
      by_contra full
      exact inStep ⟨behind, by omega⟩
    exact ⟨by simp only; omega, time⟩

/-- A call moves time and counter forward exactly when it is in step; otherwise backward. -/
theorem advance_forward_iff {g : UUIDv7} (fits : g.Fits) (d : Draw) :
    (g.lastMs, g.sequenceCounter % 4096) ≠
        ((g.advance none d).1.lastMs, (g.advance none d).1.sequenceCounter % 4096) ∧
      ((g.lastMs < (g.advance none d).1.lastMs ∨ g.lastMs = (g.advance none d).1.lastMs ∧
          g.sequenceCounter % 4096 < (g.advance none d).1.sequenceCounter % 4096) ↔
        g.InStep d) := by
  have counter := fits.counter
  rw [InStep, Ne, Prod.mk.injEq]
  obtain ⟨later, h⟩ | ⟨same, full, h⟩ | ⟨same, room, h⟩ | ⟨behind, h⟩ := advance_cases g d
  · simp only [h]
    omega
  · simp only [h]
    omega
  · simp only [h, true_and]
    omega
  · simp only [h, true_and]
    omega

theorem time_advance {g : UUIDv7} {d : Draw} (fits : g.Fits) (clock : d.now < 2 ^ 47) :
    (g.advance none d).1.lastMs ≤ 2 ^ 47 := by
  have time := fits.time
  obtain ⟨-, h⟩ | ⟨same, -, h⟩ | ⟨-, -, h⟩ | ⟨-, h⟩ := advance_cases g d
  · rw [h]
    exact clock.le
  · rw [h]
    simp only
    omega
  · rw [h]
    exact time
  · rw [h]
    exact time

/-- A call returns the identifier of the time and the counter after it. -/
theorem generateUUIDv7_eq {g : UUIDv7} {d : Draw} (fits : g.Fits) (clock : d.now < 2 ^ 47) :
    g.generateUUIDv7 none d =
      ((g.advance none d).1, some (String.ofList (pieces (g.advance none d).1.lastMs
        (g.advance none d).1.sequenceCounter d.random))) := by
  have time := time_advance fits clock
  have room : (g.advance none d).1.lastMs < 2 ^ 48 := by omega
  rw [generateUUIDv7]
  simp only [advance_time, formatUUIDv7_eq room]

theorem lt_trans {s t u : String} (h : Js.lt s t) (h' : Js.lt t u) : Js.lt s u :=
  List.lt_trans h h'

theorem increasing_cons_cons (id id' : String) (answers : List (Option String)) :
    Increasing (some id :: some id' :: answers) ↔
      Js.lt id id' ∧ Increasing (some id' :: answers) := by
  constructor
  · rintro ⟨ids, hids, hpair⟩
    cases ids with
    | nil => cases hids
    | cons a ids =>
        obtain ⟨rfl, hrest⟩ : id = a ∧ some id' :: answers = ids.map some := by simpa using hids
        obtain ⟨hfirst, hothers⟩ := List.pairwise_cons.mp hpair
        have hmem : id' ∈ ids := by
          have : some id' ∈ ids.map some := hrest ▸ List.mem_cons_self ..
          simpa using this
        exact ⟨hfirst id' hmem, ids, hrest, hothers⟩
  · rintro ⟨hlt, ids, hids, hpair⟩
    refine ⟨id :: ids, by rw [hids, List.map_cons], List.pairwise_cons.mpr ⟨?_, hpair⟩⟩
    intro b hb
    cases ids with
    | nil => cases hids
    | cons a ids =>
        obtain ⟨rfl, -⟩ : id' = a ∧ answers = ids.map some := by simpa using hids
        obtain rfl | hlater := List.mem_cons.mp hb
        · exact hlt
        · exact lt_trans hlt ((List.pairwise_cons.mp hpair).1 b hlater)

/-- The identifiers which follow one that carries the generator's time and counter are
increasing exactly when all calls are in step. -/
theorem increasing_after_iff {g : UUIDv7} (fits : g.Fits) (random : Vector UInt8 8)
    {draws : List Draw} (clock : ∀ d ∈ draws, d.now < 2 ^ 47) :
    Increasing (some (String.ofList (pieces g.lastMs g.sequenceCounter random)) ::
        g.identifiers draws) ↔
      EveryStep step (fun g d _ => g.InStep d) g draws := by
  induction draws generalizing g random with
  | nil => exact ⟨fun _ => trivial, fun _ => ⟨[_], rfl, List.pairwise_singleton _ _⟩⟩
  | cons d draws ih =>
      have now : d.now < 2 ^ 47 := clock d (List.mem_cons_self ..)
      have rest : ∀ d' ∈ draws, d'.now < 2 ^ 47 := fun d' hd' => clock d' (.tail d hd')
      have time : g.lastMs < 2 ^ 48 := by
        have := fits.time
        omega
      have time' : (g.advance none d).1.lastMs < 2 ^ 48 := by
        have := time_advance fits now
        omega
      obtain ⟨differ, forward⟩ := advance_forward_iff fits d
      have order := lt_pieces_iff time time' random d.random differ
      have next : step g d = some (g.advance none d).1 := rfl
      rw [identifiers, generateUUIDv7_eq fits now, increasing_cons_cons, order, forward]
      constructor
      · rintro ⟨inStep, others⟩ t ht
        cases next.symm.trans ht
        exact ⟨inStep, (ih (fits.advance now inStep) d.random rest).mp others⟩
      · intro h
        obtain ⟨inStep, others⟩ := h _ next
        exact ⟨inStep, (ih (fits.advance now inStep) d.random rest).mpr others⟩

/-- Monotonicity: the identifiers of a run are increasing exactly when no call, finding the
clock behind, counts past twelve bits. -/
theorem increasing_iff (draws : List Draw) (clock : ∀ d ∈ draws, d.now < 2 ^ 47) :
    Increasing (identifiers {} draws) ↔ EveryStep step (fun g d _ => g.InStep d) {} draws := by
  cases draws with
  | nil => exact ⟨fun _ => trivial, fun _ => ⟨[], rfl, .nil⟩⟩
  | cons d draws =>
      have now : d.now < 2 ^ 47 := clock d (List.mem_cons_self ..)
      have fits : Fits {} := ⟨by decide, by decide⟩
      have first : InStep {} d := fun h => Nat.not_lt_zero _ h.1
      have next : step {} d = some (advance {} none d).1 := rfl
      rw [identifiers, generateUUIDv7_eq fits now,
        increasing_after_iff (fits.advance now first) d.random fun d' hd' => clock d' (.tail d hd')]
      constructor
      · intro h t ht
        cases next.symm.trans ht
        exact ⟨first, h⟩
      · intro h
        exact (h _ next).2

theorem increasing_iff_backward_step :
    Increasing (identifiers {} [{ now := 7, seed := 3 }, { now := 5 }]) ↔
      EveryStep step (fun g d _ => g.InStep d) {} [{ now := 7, seed := 3 }, { now := 5 }] :=
  increasing_iff [{ now := 7, seed := 3 }, { now := 5 }] (by decide)

/-- A stalled clock counts up. -/
theorem run_stalled (ms sequenceCounter : Nat) (k : Nat) (room : sequenceCounter + k ≤ 0xfff) :
    run step ⟨ms, sequenceCounter⟩ (List.replicate k { now := ms }) =
      some ⟨ms, sequenceCounter + k⟩ := by
  induction k generalizing sequenceCounter with
  | zero => rfl
  | succ k ih =>
      have next : step ⟨ms, sequenceCounter⟩ { now := ms } = some ⟨ms, sequenceCounter + 1⟩ := by
        have count : ¬ sequenceCounter + 1 > 0xfff := by omega
        simp only [step, generateUUIDv7, advance, gt_iff_lt, Nat.lt_irrefl, if_false, if_true,
          if_neg count]
      rw [List.replicate_succ, run_cons, next, Option.bind_some, ih _ (by omega), Nat.add_assoc,
        Nat.add_comm 1 k]

/-- After a long stall one step of the clock backward issues a smaller identifier. -/
theorem stalled_then_backward_decreases :
    ¬ Increasing (identifiers {} ({ now := 5, seed := 1022 } ::
      (List.replicate 3073 { now := 5 } ++ [{ now := 4 }]))) := by
  have clock : ∀ d ∈ List.replicate 3073 ({ now := 5 } : Draw) ++ [{ now := 4 }],
      d.now < 2 ^ 47 := by
    intro d hd
    obtain h | h := List.mem_append.mp hd
    · rw [(List.mem_replicate.mp h).2]
      decide
    · rw [List.mem_singleton.mp h]
      decide
  have fits : Fits ⟨5, 1022⟩ := ⟨by decide, by decide⟩
  have first : generateUUIDv7 {} none { now := 5, seed := 1022 } =
      (⟨5, 1022⟩, some (String.ofList (pieces 5 1022 (Vector.replicate 8 0)))) :=
    generateUUIDv7_eq ⟨by decide, by decide⟩ (by decide)
  have last : step ⟨5, 4095⟩ { now := 4 } = some ⟨5, 4096⟩ := rfl
  rw [identifiers, first, increasing_after_iff fits (Vector.replicate 8 0) clock]
  intro h
  exact h.last (run_stalled 5 1022 3073 (by decide)) last ⟨by decide, by decide⟩

end UUIDv7

end Pulse
