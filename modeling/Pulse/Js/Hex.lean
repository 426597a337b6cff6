import Pulse.Js.Json
import Pulse.Js.Text

/-!
# Hexadecimal text

Numbers of a fixed width in hexadecimal, the bytes of a buffer and their text.
At a fixed width the order of the texts is the order of the numbers; a text
assembled from pieces of fixed lengths compares piece by piece.
-/

namespace Js

/-- The order of `<` on strings. -/
def lt (s t : String) : Prop := utf16 s < utf16 t

instance : DecidableRel lt := fun s t => inferInstanceAs (Decidable (utf16 s < utf16 t))

/-- The value of a hexadecimal digit, in either case. -/
def hexDigitValue (c : Char) : Option Nat :=
  if 0x30 ≤ c.toNat ∧ c.toNat ≤ 0x39 then some (c.toNat - 0x30)
  else if 0x61 ≤ c.toNat ∧ c.toNat ≤ 0x66 then some (c.toNat - 0x61 + 10)
  else if 0x41 ≤ c.toNat ∧ c.toNat ≤ 0x46 then some (c.toNat - 0x41 + 10)
  else none

def isHexDigit (c : Char) : Bool := (hexDigitValue c).isSome

/-- The last `width` hexadecimal digits of a number. -/
def hexText : Nat → Nat → List Char
  | 0, _ => []
  | width + 1, n => hexText width (n / 16) ++ [hexDigit (n % 16)]

/-- `parseInt` with radix 16, for a text which begins with its digits. -/
def parseInt16 (l : List Char) : Option Nat :=
  let digits := l.takeWhile isHexDigit
  if digits = [] then none
  else some (digits.foldl (fun n c => 16 * n + (hexDigitValue c).getD 0) 0)

/-- The last `byteLength` bytes of a number, most significant first. -/
def bytesBE : Nat → Nat → List UInt8
  | 0, _ => []
  | byteLength + 1, n => bytesBE byteLength (n / 256) ++ [UInt8.ofNat n]

/-- The bytes which `Buffer.writeUIntBE` writes; a value out of range is an error. -/
def writeUIntBE (value byteLength : Nat) : Option (List UInt8) :=
  if value < 256 ^ byteLength then some (bytesBE byteLength value) else none

def hexByte (b : UInt8) : List Char := [hexDigit (b.toNat / 16), hexDigit (b.toNat % 16)]

/-- `Buffer.toString('hex')`. -/
def hex (bytes : List UInt8) : List Char := bytes.flatMap hexByte

/-- `substring` of a text of ASCII characters. -/
def substring (l : List Char) (start stop : Nat) : List Char := (l.drop start).take (stop - start)

/-- Whether a text consists of one character of each class, as a regular expression without
repetition or choice accepts it. -/
def matchesClasses : List (Char → Bool) → List Char → Bool
  | [], [] => true
  | accepts :: classes, c :: l => accepts c && matchesClasses classes l
  | _, _ => false

theorem substring_prefix {m r : List Char} {stop : Nat} (size : m.length = stop) :
    substring (m ++ r) 0 stop = m := by
  subst size
  simp [substring]

theorem substring_append {l m r : List Char} {start stop : Nat} (before : l.length = start)
    (size : start + m.length = stop) : substring (l ++ (m ++ r)) start stop = m := by
  subst before size
  simp [substring]

section digits

theorem hexDigitValue_hexDigit : ∀ n < 16, hexDigitValue (hexDigit n) = some n := by decide

theorem isHexDigit_hexDigit {n : Nat} (h : n < 16) : isHexDigit (hexDigit n) = true := by
  rw [isHexDigit, hexDigitValue_hexDigit n h]
  rfl

theorem toNat_lt_of_isHexDigit {c : Char} (h : isHexDigit c = true) : c.toNat < 0x80 := by
  by_contra large
  rw [isHexDigit, hexDigitValue, if_neg (by omega), if_neg (by omega), if_neg (by omega)] at h
  cases h

theorem ne_dash_of_isHexDigit {c : Char} (h : isHexDigit c = true) : c ≠ '-' := by
  rintro rfl
  revert h
  decide

theorem hexDigit_lt_hexDigit :
    ∀ m < 16, ∀ n < 16, (hexDigit m).toNat < (hexDigit n).toNat ↔ m < n := by decide

end digits

section hexText

@[simp] theorem length_hexText (width n : Nat) : (hexText width n).length = width := by
  induction width generalizing n with
  | zero => rfl
  | succ width ih => simp [hexText, ih]

@[simp] theorem length_hex (bytes : List UInt8) : (hex bytes).length = 2 * bytes.length := by
  induction bytes with
  | nil => rfl
  | cons b bytes ih =>
      simp only [hex, List.flatMap_cons, List.length_append, List.length_cons] at ih ⊢
      simp only [ih, hexByte, List.length_cons, List.length_nil]
      omega

theorem hex_append (bytes bytes' : List UInt8) : hex (bytes ++ bytes') = hex bytes ++ hex bytes' :=
  List.flatMap_append

theorem hex_cons (b : UInt8) (bytes : List UInt8) : hex (b :: bytes) = hexByte b ++ hex bytes := rfl

theorem isHexDigit_of_mem_hexText {width n : Nat} :
    ∀ c ∈ hexText width n, isHexDigit c = true := by
  induction width generalizing n with
  | zero => simp [hexText]
  | succ width ih =>
      intro c hc
      obtain hfirst | hlast := List.mem_append.mp hc
      · exact ih c hfirst
      · rw [List.mem_singleton.mp hlast]
        exact isHexDigit_hexDigit (Nat.mod_lt n (by decide))

theorem isHexDigit_of_mem_hex {bytes : List UInt8} : ∀ c ∈ hex bytes, isHexDigit c = true := by
  intro c hc
  obtain ⟨b, -, hb⟩ := List.mem_flatMap.mp hc
  have small := b.toNat_lt
  rw [hexByte, List.mem_pair] at hb
  obtain rfl | rfl := hb
  · exact isHexDigit_hexDigit (by omega)
  · exact isHexDigit_hexDigit (by omega)

theorem hexText_add (width width' n : Nat) :
    hexText (width + width') n = hexText width (n / 16 ^ width') ++ hexText width' n := by
  induction width' generalizing n with
  | zero => simp [hexText]
  | succ width' ih =>
      rw [← Nat.add_assoc, hexText, ih, hexText, List.append_assoc, Nat.div_div_eq_div_mul,
        Nat.pow_succ']

theorem hexText_mod (width n : Nat) : hexText width (n % 16 ^ width) = hexText width n := by
  induction width generalizing n with
  | zero => rfl
  | succ width ih =>
      have high : n % 16 ^ (width + 1) / 16 = n / 16 % 16 ^ width := by
        rw [Nat.pow_succ', Nat.mod_mul_right_div_self]
      have low : n % 16 ^ (width + 1) % 16 = n % 16 :=
        Nat.mod_mod_of_dvd n (Dvd.intro_left (16 ^ width) rfl)
      rw [hexText, high, ih, low, hexText]

theorem hexByte_ofNat (n : Nat) : hexByte (UInt8.ofNat n) = hexText 2 n := by
  have low : n % 256 % 16 = n % 16 := by omega
  have high : n % 256 / 16 = n / 16 % 16 := by omega
  simp [hexByte, hexText, low, high]

theorem hex_bytesBE (byteLength n : Nat) :
    hex (bytesBE byteLength n) = hexText (2 * byteLength) n := by
  induction byteLength generalizing n with
  | zero => rfl
  | succ byteLength ih =>
      rw [bytesBE, hex_append, ih, hex_cons, hexByte_ofNat, Nat.mul_add, hexText_add]
      simp [hex]

@[simp] theorem length_bytesBE (byteLength n : Nat) :
    (bytesBE byteLength n).length = byteLength := by
  induction byteLength generalizing n with
  | zero => rfl
  | succ byteLength ih => simp [bytesBE, ih]

theorem foldl_hexText (width n start : Nat) :
    (hexText width n).foldl (fun n c => 16 * n + (hexDigitValue c).getD 0) start =
      16 ^ width * start + n % 16 ^ width := by
  induction width generalizing n with
  | zero => simp [hexText, Nat.mod_one]
  | succ width ih =>
      have digit := hexDigitValue_hexDigit (n % 16) (Nat.mod_lt n (by decide))
      have split : n % 16 ^ (width + 1) = 16 * (n / 16 % 16 ^ width) + n % 16 := by
        rw [Nat.pow_succ', Nat.mod_mul]
        omega
      rw [hexText, List.foldl_append, ih, split]
      simp only [List.foldl_cons, List.foldl_nil, digit, Option.getD_some, Nat.pow_succ',
        Nat.mul_add, Nat.mul_assoc, Nat.add_assoc]

/-- A number of fixed width reads back. -/
theorem parseInt16_hexText {width n : Nat} (wide : 0 < width) (h : n < 16 ^ width) :
    parseInt16 (hexText width n) = some n := by
  have digits : (hexText width n).takeWhile isHexDigit = hexText width n :=
    List.takeWhile_eq_self_iff.mpr isHexDigit_of_mem_hexText
  have nonempty : hexText width n ≠ [] :=
    List.ne_nil_of_length_pos (by rwa [length_hexText])
  simp only [parseInt16, digits, if_neg nonempty, foldl_hexText, Nat.mod_eq_of_lt h]
  rw [Nat.mul_zero, Nat.zero_add]

end hexText

section order

/-- Lists with first parts of one length compare by these first. -/
theorem append_lt_append_iff {α : Type*} [LinearOrder α] {l l' : List α}
    (same : l.length = l'.length) (r r' : List α) :
    l ++ r < l' ++ r' ↔ l < l' ∨ l = l' ∧ r < r' := by
  induction l generalizing l' with
  | nil =>
      have : l' = [] := List.eq_nil_of_length_eq_zero same.symm
      subst this
      simp
  | cons a l ih =>
      cases l' with
      | nil => simp at same
      | cons a' l' =>
          have same' : l.length = l'.length := by simpa using same
          simp only [List.cons_append, List.cons_lt_cons_iff, List.cons.injEq, ih same']
          tauto

/-- The code units of a text. -/
def codes (l : List Char) : List Nat := l.map Char.toNat

@[simp] theorem codes_append (l r : List Char) : codes (l ++ r) = codes l ++ codes r :=
  List.map_append

@[simp] theorem codes_cons (c : Char) (l : List Char) : codes (c :: l) = c.toNat :: codes l := rfl

@[simp] theorem length_codes (l : List Char) : (codes l).length = l.length :=
  List.length_map ..

theorem utf16_ofList {l : List Char} (ascii : ∀ c ∈ l, c.toNat < 0x80) :
    utf16 (String.ofList l) = codes l := by
  rw [utf16, String.toList_ofList, codes, List.map_eq_flatMap]
  refine List.flatMap_congr fun c hc => ?_
  have small := ascii c hc
  rw [codeUnits, if_pos (by omega)]

/-- Two values are equal when their images are, where the order of the images decides. -/
theorem eq_iff_of_lt_iff {m n : Nat} {l r : List Nat} (lt : l < r ↔ m < n) (gt : r < l ↔ n < m)
    (eq : m = n → l = r) : l = r ↔ m = n := by
  constructor
  · rintro rfl
    have := mt lt.mpr (lt_irrefl l)
    have := mt gt.mpr (lt_irrefl l)
    omega
  · exact eq

/-- At one width the texts are in the order of the numbers. -/
theorem codes_hexText_lt_iff {width m n : Nat} (hm : m < 16 ^ width) (hn : n < 16 ^ width) :
    codes (hexText width m) < codes (hexText width n) ↔ m < n := by
  induction width generalizing m n with
  | zero =>
      rw [Nat.pow_zero] at hm hn
      have : m = n := by omega
      simp [this]
  | succ width ih =>
      have high : ∀ k, k < 16 ^ (width + 1) → k / 16 < 16 ^ width := by
        intro k hk
        rw [Nat.pow_succ] at hk
        omega
      have lt := ih (high m hm) (high n hn)
      have gt := ih (high n hn) (high m hm)
      have same : codes (hexText width (m / 16)) = codes (hexText width (n / 16)) ↔
          m / 16 = n / 16 := eq_iff_of_lt_iff lt gt (congrArg fun k => codes (hexText width k))
      have digit := hexDigit_lt_hexDigit (m % 16) (Nat.mod_lt m (by decide)) (n % 16)
        (Nat.mod_lt n (by decide))
      rw [hexText, hexText, codes_append, codes_append,
        append_lt_append_iff (by simp), lt, same]
      simp only [codes, List.map_cons, List.map_nil, List.cons_lt_cons_iff, digit,
        List.lt_irrefl, and_false, or_false]
      omega

/-- A text which begins with a number of fixed width compares by this number first. -/
theorem codes_hexText_append_lt_iff {width m n : Nat} (hm : m < 16 ^ width) (hn : n < 16 ^ width)
    (r r' : List Nat) :
    codes (hexText width m) ++ r < codes (hexText width n) ++ r' ↔ m < n ∨ m = n ∧ r < r' := by
  have lt := codes_hexText_lt_iff hm hn
  have gt := codes_hexText_lt_iff hn hm
  rw [append_lt_append_iff (by simp), lt,
    eq_iff_of_lt_iff lt gt (congrArg fun k => codes (hexText width k))]

end order

end Js
