import Pulse.Js.Json
import Mathlib.Algebra.Order.Field.Power
import Mathlib.Tactic.Linarith
import Mathlib.Tactic.Ring

/-!
# Reading numbers back

Whichever of its forms the text of a finite number has, its digits, its point and
its exponent give the value of the number again. Numbers in shortest form with the
same value have the same text.
-/

namespace Js

namespace Number

/-- The digits of a number do not end in a zero unless they are zero. -/
def Normal : Number → Prop
  | .decimal _ digits exponent => digits % 10 ≠ 0 ∨ digits = 0 ∧ exponent = 0
  | .infinity _ => True

/-- Numbers with the same value; zero has one value. -/
def Same : Number → Number → Prop
  | .decimal negative digits exponent, .decimal negative' digits' exponent' =>
      (Number.decimal negative digits exponent).value =
        (Number.decimal negative' digits' exponent').value
  | .infinity negative, .infinity negative' => negative = negative'
  | _, _ => False

section read

/-- A numeral without an exponent. -/
def readPlain (l : List Char) : ℚ :=
  let fraction := (l.dropWhile (· ≠ '.')).tail
  Nat.ofDigitChars 10 (l.takeWhile (· ≠ '.') ++ fraction) 0 * 10 ^ (-fraction.length : ℤ)

/-- What stands behind the `e` of a numeral. -/
def readExponent : List Char → ℤ
  | [] => 0
  | sign :: l => if sign = '-' then -Nat.ofDigitChars 10 l 0 else Nat.ofDigitChars 10 l 0

def readUnsigned (l : List Char) : ℚ :=
  readPlain (l.takeWhile (· ≠ 'e')) * 10 ^ readExponent (l.dropWhile (· ≠ 'e')).tail

def readNumber : List Char → ℚ
  | [] => 0
  | c :: l => if c = '-' then -readUnsigned l else readUnsigned (c :: l)

theorem readPlain_whole {l : List Char} (h : ∀ c ∈ l, c ≠ '.') :
    readPlain l = Nat.ofDigitChars 10 l 0 := by
  have htake : l.takeWhile (· ≠ '.') = l := List.takeWhile_eq_self_iff.mpr (by simpa using h)
  have hdrop : l.dropWhile (· ≠ '.') = [] := List.dropWhile_eq_nil_iff.mpr (by simpa using h)
  simp only [readPlain, htake, hdrop, List.tail_nil, List.append_nil, List.length_nil]
  simp

theorem readPlain_point {whole : List Char} (h : ∀ c ∈ whole, c ≠ '.') (fraction : List Char) :
    readPlain (whole ++ '.' :: fraction) =
      Nat.ofDigitChars 10 (whole ++ fraction) 0 * 10 ^ (-fraction.length : ℤ) := by
  have hwhole : ∀ c ∈ whole, decide (c ≠ '.') = true := by simpa using h
  have htake : (whole ++ '.' :: fraction).takeWhile (· ≠ '.') = whole := by
    rw [List.takeWhile_append_of_pos hwhole]
    simp
  have hdrop : (whole ++ '.' :: fraction).dropWhile (· ≠ '.') = '.' :: fraction := by
    rw [List.dropWhile_append_of_pos hwhole]
    simp
  simp only [readPlain, htake, hdrop, List.tail_cons]

theorem readUnsigned_plain {l : List Char} (h : ∀ c ∈ l, c ≠ 'e') :
    readUnsigned l = readPlain l := by
  have htake : l.takeWhile (· ≠ 'e') = l := List.takeWhile_eq_self_iff.mpr (by simpa using h)
  have hdrop : l.dropWhile (· ≠ 'e') = [] := List.dropWhile_eq_nil_iff.mpr (by simpa using h)
  rw [readUnsigned, htake, hdrop]
  simp [readExponent]

theorem readUnsigned_scaled {mantissa : List Char} (h : ∀ c ∈ mantissa, c ≠ 'e')
    (exponent : List Char) :
    readUnsigned (mantissa ++ 'e' :: exponent) =
      readPlain mantissa * 10 ^ readExponent exponent := by
  have hmantissa : ∀ c ∈ mantissa, decide (c ≠ 'e') = true := by simpa using h
  have htake : (mantissa ++ 'e' :: exponent).takeWhile (· ≠ 'e') = mantissa := by
    rw [List.takeWhile_append_of_pos hmantissa]
    simp
  have hdrop : (mantissa ++ 'e' :: exponent).dropWhile (· ≠ 'e') = 'e' :: exponent := by
    rw [List.dropWhile_append_of_pos hmantissa]
    simp
  rw [readUnsigned, htake, hdrop, List.tail_cons]

end read

theorem toList_toString (n : Nat) : (toString n).toList = Nat.toDigits 10 n := by
  rw [Nat.toString_eq_ofList_toDigits, String.toList_ofList]

theorem isDigit_of_mem {n : Nat} {c : Char} (h : c ∈ Nat.toDigits 10 n) : c.isDigit = true :=
  Nat.isDigit_of_mem_toDigits (by decide) (by decide) h

/-- A list of digits has neither a point nor an exponent nor a sign. -/
theorem digits_ne {l : List Char} (h : ∀ c ∈ l, c.isDigit = true) :
    ∀ c ∈ l, c ≠ '.' ∧ c ≠ 'e' ∧ c ≠ '-' := by
  intro c hc
  have hdigit := h c hc
  refine ⟨?_, ?_, ?_⟩ <;>
    · rintro rfl
      exact absurd hdigit (by decide)

section body

variable (digits : Nat) {exponent : ℤ}

theorem readUnsigned_digits {l : List Char} (h : ∀ c ∈ l, c.isDigit = true) :
    readUnsigned l = Nat.ofDigitChars 10 l 0 := by
  rw [readUnsigned_plain fun c hc => (digits_ne h c hc).2.1,
    readPlain_whole fun c hc => (digits_ne h c hc).1]

theorem readUnsigned_fraction (whole : List Char) {fraction : List Char}
    (hwhole : ∀ c ∈ whole, c.isDigit = true) (hfraction : ∀ c ∈ fraction, c.isDigit = true) :
    readUnsigned (whole ++ '.' :: fraction) =
      Nat.ofDigitChars 10 (whole ++ fraction) 0 * 10 ^ (-fraction.length : ℤ) := by
  rw [readUnsigned_plain, readPlain_point fun c hc => (digits_ne hwhole c hc).1]
  intro c hc
  rw [List.mem_append, List.mem_cons] at hc
  rcases hc with hc | rfl | hc
  · exact (digits_ne hwhole c hc).2.1
  · decide
  · exact (digits_ne hfraction c hc).2.1

theorem isDigit_of_mem_replicate {n : Nat} {c : Char} (h : c ∈ List.replicate n '0') :
    c.isDigit = true := by
  rw [List.eq_of_mem_replicate h]
  decide

/-- An integer: the digits, and the zeros behind them. -/
theorem readUnsigned_integer (h : 0 ≤ exponent) :
    readUnsigned (Nat.toDigits 10 digits ++ List.replicate exponent.toNat '0') =
      digits * 10 ^ exponent := by
  have hall : ∀ c ∈ Nat.toDigits 10 digits ++ List.replicate exponent.toNat '0',
      c.isDigit = true :=
    List.forall_mem_append.mpr ⟨fun _ => isDigit_of_mem, fun _ => isDigit_of_mem_replicate⟩
  obtain ⟨e, rfl⟩ := Int.eq_ofNat_of_zero_le h
  rw [readUnsigned_digits hall, Nat.ofDigitChars_append, Nat.ofDigitChars_ten_toDigits,
    Nat.ofDigitChars_replicate_zero]
  push_cast
  rw [Int.toNat_natCast, zpow_natCast, mul_comm]

/-- The point stands between the digits. -/
theorem readUnsigned_split {i : Nat} (h : (i : ℤ) = (Nat.toDigits 10 digits).length + exponent)
    (fractional : exponent ≤ 0) :
    readUnsigned ((Nat.toDigits 10 digits).take i ++ '.' :: (Nat.toDigits 10 digits).drop i) =
      digits * 10 ^ exponent := by
  have hlength : (-((Nat.toDigits 10 digits).length - i : Nat) : ℤ) = exponent := by omega
  rw [readUnsigned_fraction _ (fun c hc => isDigit_of_mem (List.mem_of_mem_take hc))
    (fun c hc => isDigit_of_mem (List.mem_of_mem_drop hc)), List.take_append_drop,
    Nat.ofDigitChars_ten_toDigits, List.length_drop, hlength]

/-- The point stands before the digits, and zeros between. -/
theorem readUnsigned_small {zeros : Nat}
    (h : ((Nat.toDigits 10 digits).length : ℤ) + zeros = -exponent) :
    readUnsigned ('0' :: '.' :: List.replicate zeros '0' ++ Nat.toDigits 10 digits) =
      digits * 10 ^ exponent := by
  have hfraction : ∀ c ∈ List.replicate zeros '0' ++ Nat.toDigits 10 digits, c.isDigit = true :=
    List.forall_mem_append.mpr ⟨fun _ => isDigit_of_mem_replicate, fun _ => isDigit_of_mem⟩
  have hlength : (-(List.replicate zeros '0' ++ Nat.toDigits 10 digits).length : ℤ) = exponent := by
    rw [List.length_append, List.length_replicate]
    omega
  have hzero : Nat.ofDigitChars 10
      (['0'] ++ (List.replicate zeros '0' ++ Nat.toDigits 10 digits)) 0 =
      digits := by
    rw [Nat.ofDigitChars_append, Nat.ofDigitChars_append]
    have hstart : Nat.ofDigitChars 10 ['0'] 0 = 0 := rfl
    rw [hstart, Nat.ofDigitChars_replicate_zero, Nat.mul_zero, Nat.ofDigitChars_ten_toDigits]
  have hread := readUnsigned_fraction ['0'] (List.forall_mem_singleton.mpr (by decide)) hfraction
  rw [hzero, hlength] at hread
  exact hread

/-- One digit before the point, the others behind it, and the exponent. -/
theorem readUnsigned_exponent {mantissa : List Char}
    (h : mantissa = Nat.toDigits 10 digits ∧ (Nat.toDigits 10 digits).length = 1 ∨
      mantissa = (Nat.toDigits 10 digits).take 1 ++ '.' :: (Nat.toDigits 10 digits).drop 1) :
    let e := (Nat.toDigits 10 digits).length + exponent - 1
    readUnsigned (mantissa ++
        'e' :: (if 0 ≤ e then '+' else '-') :: Nat.toDigits 10 e.natAbs) =
      digits * 10 ^ exponent := by
  intro e
  have hexponent : readExponent ((if 0 ≤ e then '+' else '-') :: Nat.toDigits 10 e.natAbs) =
      e := by
    rw [readExponent, Nat.ofDigitChars_ten_toDigits]
    by_cases hsign : 0 ≤ e
    · rw [if_pos hsign, if_neg (by decide)]
      omega
    · rw [if_neg hsign, if_pos rfl]
      omega
  have hnonempty : 0 < (Nat.toDigits 10 digits).length := Nat.length_toDigits_pos
  have hplain : (∀ c ∈ mantissa, c ≠ 'e') ∧
      readPlain mantissa = digits * 10 ^ (1 - (Nat.toDigits 10 digits).length : ℤ) := by
    have hdigits : ∀ c ∈ Nat.toDigits 10 digits, c.isDigit = true := fun _ => isDigit_of_mem
    rcases h with ⟨rfl, hone⟩ | rfl
    · refine ⟨fun c hc => (digits_ne hdigits c hc).2.1, ?_⟩
      rw [readPlain_whole fun c hc => (digits_ne hdigits c hc).1, Nat.ofDigitChars_ten_toDigits,
        hone]
      simp
    · have hone : ((1 : Nat) : ℤ) = (Nat.toDigits 10 digits).length +
          (1 - (Nat.toDigits 10 digits).length : ℤ) := by omega
      have hpoint := readUnsigned_split digits hone (by omega)
      have hne : ∀ c ∈ (Nat.toDigits 10 digits).take 1 ++ '.' :: (Nat.toDigits 10 digits).drop 1,
          c ≠ 'e' := by
        intro c hc
        rw [List.mem_append, List.mem_cons] at hc
        rcases hc with hc | rfl | hc
        · exact (digits_ne hdigits c (List.mem_of_mem_take hc)).2.1
        · decide
        · exact (digits_ne hdigits c (List.mem_of_mem_drop hc)).2.1
      rw [readUnsigned_plain hne] at hpoint
      exact ⟨hne, hpoint⟩
  rw [readUnsigned_scaled hplain.1, hplain.2, hexponent, mul_assoc, ← zpow_add₀ (by norm_num)]
  congr 2
  omega

end body

/-- Behind its sign, the text of a number starts with a digit and reads as its value. -/
def Writes (digits : Nat) (exponent : ℤ) (body : List Char) : Prop :=
  (∃ d rest, d.isDigit = true ∧ body = d :: rest) ∧ readUnsigned body = digits * 10 ^ exponent

theorem exists_body {digits : Nat} (h : digits ≠ 0) (exponent : ℤ) :
    ∃ body, Writes digits exponent body ∧ ∀ negative, text (.decimal negative digits exponent) =
      String.ofList (if negative then '-' :: body else body) := by
  obtain ⟨d, ds, hds⟩ := List.exists_cons_of_ne_nil
    (List.ne_nil_of_length_pos (Nat.length_toDigits_pos (b := 10) (n := digits)))
  have hd : d.isDigit = true := isDigit_of_mem (n := digits) (hds ▸ List.mem_cons_self)
  have hstarts : ∀ l, ∃ d rest, d.isDigit = true ∧ Nat.toDigits 10 digits ++ l = d :: rest := by
    intro l
    exact ⟨d, ds ++ l, hd, by rw [hds]; rfl⟩
  have htakes : ∀ i l, 0 < i → ∃ d rest, d.isDigit = true ∧
      (Nat.toDigits 10 digits).take i ++ l = d :: rest := by
    intro i l hi
    obtain ⟨i, rfl⟩ := Nat.exists_eq_add_one_of_ne_zero (Nat.pos_iff_ne_zero.mp hi)
    exact ⟨d, ds.take i ++ l, hd, by rw [hds, List.take_succ_cons]; rfl⟩
  simp only [text, if_neg h, toList_toString]
  by_cases hinteger : ((Nat.toDigits 10 digits).length : ℤ) ≤
      (Nat.toDigits 10 digits).length + exponent ∧
      (Nat.toDigits 10 digits).length + exponent ≤ 21
  · simp only [if_pos hinteger]
    refine ⟨_, ⟨hstarts _, ?_⟩, fun _ => rfl⟩
    rw [add_sub_cancel_left]
    exact readUnsigned_integer digits (by omega)
  simp only [if_neg hinteger]
  by_cases hsplit : (0 : ℤ) < (Nat.toDigits 10 digits).length + exponent ∧
      (Nat.toDigits 10 digits).length + exponent ≤ 21
  · simp only [if_pos hsplit]
    refine ⟨_, ⟨htakes _ _ (by omega), ?_⟩, fun _ => rfl⟩
    exact readUnsigned_split digits (Int.toNat_of_nonneg (by omega)) (by omega)
  simp only [if_neg hsplit]
  by_cases hsmall : (-6 : ℤ) < (Nat.toDigits 10 digits).length + exponent ∧
      (Nat.toDigits 10 digits).length + exponent ≤ 0
  · simp only [if_pos hsmall]
    refine ⟨_, ⟨⟨'0', _, by decide, List.cons_append⟩, ?_⟩, fun _ => rfl⟩
    have hzeros : ((Nat.toDigits 10 digits).length : ℤ) +
        (-((Nat.toDigits 10 digits).length + exponent)).toNat = -exponent := by omega
    exact readUnsigned_small digits hzeros
  simp only [if_neg hsmall]
  by_cases hone : ((Nat.toDigits 10 digits).length : ℤ) = 1
  · simp only [if_pos hone]
    refine ⟨_, ⟨hstarts _, ?_⟩, fun _ => rfl⟩
    exact readUnsigned_exponent digits (Or.inl ⟨rfl, by omega⟩)
  · simp only [if_neg hone]
    refine ⟨_, ⟨?_, readUnsigned_exponent digits (Or.inr rfl)⟩, fun _ => rfl⟩
    rw [List.append_assoc]
    exact htakes _ _ Nat.one_pos

/-- The digits, the point and the exponent in the text of a number give its value. -/
theorem readNumber_text (negative : Bool) (digits : Nat) (exponent : ℤ) :
    readNumber (text (.decimal negative digits exponent)).toList =
      (Number.decimal negative digits exponent).value := by
  by_cases hzero : digits = 0
  · have hread : readNumber "0".toList = 0 := by
      simp [readNumber, readUnsigned, readPlain, readExponent, Nat.ofDigitChars]
    rw [hzero, text, if_pos rfl, hread]
    simp [value]
  · obtain ⟨body, ⟨⟨d, rest, hd, rfl⟩, hread⟩, htext⟩ := exists_body hzero exponent
    have hsign : d ≠ '-' := by
      rintro rfl
      exact absurd hd (by decide)
    rw [htext, String.toList_ofList, value]
    cases negative with
    | false => simpa [readNumber, hsign] using hread
    | true => simpa [readNumber] using hread

/-- The text of a finite number starts with a digit or a sign. -/
theorem text_head (negative : Bool) (digits : Nat) (exponent : ℤ) :
    ∃ c rest, (text (.decimal negative digits exponent)).toList = c :: rest ∧
      (c.isDigit = true ∨ c = '-') := by
  by_cases hzero : digits = 0
  · rw [hzero, text, if_pos rfl]
    exact ⟨'0', [], rfl, Or.inl (by decide)⟩
  · obtain ⟨body, ⟨⟨d, rest, hd, rfl⟩, -⟩, htext⟩ := exists_body hzero exponent
    rw [htext, String.toList_ofList]
    cases negative with
    | false => exact ⟨d, rest, rfl, Or.inl hd⟩
    | true => exact ⟨'-', d :: rest, rfl, Or.inr rfl⟩

section normal

/-- Of two representations of one value, one that does not end in a zero has the smallest
digits. -/
theorem digits_unique {digits digits' : Nat} {exponent exponent' : ℤ}
    (le : exponent' ≤ exponent)
    (hvalue : (digits : ℚ) * 10 ^ exponent = digits' * 10 ^ exponent')
    (normal : digits' % 10 ≠ 0) : digits = digits' ∧ exponent = exponent' := by
  obtain ⟨k, hk⟩ := Int.eq_ofNat_of_zero_le (show 0 ≤ exponent - exponent' by omega)
  have hexponent : exponent = exponent' + k := by omega
  have hscaled : (digits : ℚ) * 10 ^ k = digits' := by
    rw [hexponent, zpow_add₀ (by norm_num), zpow_natCast] at hvalue
    have hne : (10 : ℚ) ^ exponent' ≠ 0 := zpow_ne_zero _ (by norm_num)
    apply mul_right_cancel₀ hne
    rw [← hvalue]
    ring
  have hnat : digits * 10 ^ k = digits' := by exact_mod_cast hscaled
  cases k with
  | zero => exact ⟨by simpa using hnat, by simpa using hexponent⟩
  | succ k =>
      have hten : digits' = digits * 10 ^ k * 10 := by rw [← hnat, Nat.pow_succ, Nat.mul_assoc]
      omega

theorem value_pos {digits : Nat} (h : digits ≠ 0) (exponent : ℤ) :
    (0 : ℚ) < digits * 10 ^ exponent := by
  have hdigits : (0 : ℚ) < digits := by exact_mod_cast Nat.pos_iff_ne_zero.mpr h
  exact mul_pos hdigits (zpow_pos (by norm_num) _)

theorem value_eq_zero_iff {negative : Bool} {digits : Nat} {exponent : ℤ} :
    (Number.decimal negative digits exponent).value = 0 ↔ digits = 0 := by
  have hpower : (10 : ℚ) ^ exponent ≠ 0 := zpow_ne_zero _ (by norm_num)
  cases negative <;> simp [value, hpower]

/-- The value of a number other than zero determines it. -/
theorem value_inj {negative negative' : Bool} {digits digits' : Nat} {exponent exponent' : ℤ}
    (normal : digits % 10 ≠ 0) (normal' : digits' % 10 ≠ 0)
    (h : (Number.decimal negative digits exponent).value =
      (Number.decimal negative' digits' exponent').value) :
    Number.decimal negative digits exponent = Number.decimal negative' digits' exponent' := by
  have hpos := value_pos (show digits ≠ 0 by omega) exponent
  have hpos' := value_pos (show digits' ≠ 0 by omega) exponent'
  have hsign : negative = negative' := by
    simp only [value] at h
    cases negative <;> cases negative'
    · rfl
    · simp only [Bool.false_eq_true, if_false, if_true] at h
      linarith
    · simp only [Bool.false_eq_true, if_false, if_true] at h
      linarith
    · rfl
  subst hsign
  have habs : (digits : ℚ) * 10 ^ exponent = digits' * 10 ^ exponent' := by
    cases negative <;> simpa [value] using h
  rcases Int.le_total exponent' exponent with hle | hle
  · obtain ⟨rfl, rfl⟩ := digits_unique hle habs normal'
    rfl
  · obtain ⟨rfl, rfl⟩ := digits_unique hle habs.symm normal
    rfl

/-- Two finite numbers in shortest form have the same text if and only if they are the same. -/
theorem text_eq_iff {m n : Number} (hm : m.Normal) (hn : n.Normal)
    (finite : m.isFinite = true) (finite' : n.isFinite = true) :
    m.text = n.text ↔ m.Same n := by
  cases m with
  | infinity => cases finite
  | decimal negative digits exponent =>
      cases n with
      | infinity => cases finite'
      | decimal negative' digits' exponent' =>
          constructor
          · intro h
            rw [Same, ← readNumber_text, ← readNumber_text, h]
          · intro h
            have hvalue : (Number.decimal negative digits exponent).value =
              (Number.decimal negative' digits' exponent').value := h
            by_cases hzero : digits = 0
            · have hzero' : digits' = 0 :=
                value_eq_zero_iff.mp (hvalue ▸ value_eq_zero_iff.mpr hzero)
              rw [hzero, hzero', text, text, if_pos rfl, if_pos rfl]
            · have hzero' : digits' ≠ 0 := fun hzero' =>
                hzero (value_eq_zero_iff.mp (hvalue.trans (value_eq_zero_iff.mpr hzero')))
              rw [value_inj (hm.resolve_right fun h => hzero h.1)
                (hn.resolve_right fun h => hzero' h.1) hvalue]

end normal

end Number

end Js
