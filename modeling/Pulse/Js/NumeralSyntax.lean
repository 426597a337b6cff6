import Pulse.Js.Numeral

/-!
# The syntax of numerals

A numeral has digits, perhaps a fraction behind a point, and perhaps an exponent. The
text of a finite number is its sign and a numeral in this form, without a leading zero,
and the parts of this numeral determine the number again.
-/

namespace Js

namespace Number

/-- The number with these digits and this exponent, in shortest form. -/
def ofDecimal (negative : Bool) (digits : Nat) (exponent : ℤ) : Number :=
  .decimal negative (normalize (digits + 1) digits exponent).1
    (normalize (digits + 1) digits exponent).2

theorem normalize_scaled (fuel digits : Nat) (exponent : ℤ) :
    ((normalize fuel digits exponent).1 : ℚ) * 10 ^ (normalize fuel digits exponent).2 =
      digits * 10 ^ exponent := by
  induction fuel generalizing digits exponent with
  | zero => rfl
  | succ fuel ih =>
      rw [normalize]
      split
      · rename_i hzero
        simp [hzero]
      · split
        · rename_i hdigit
          have hten : (digits : ℚ) = (digits / 10 : Nat) * 10 := by
            exact_mod_cast (Nat.div_mul_cancel (Nat.dvd_of_mod_eq_zero hdigit)).symm
          rw [ih, hten, zpow_add₀ (by norm_num), zpow_one]
          ring
        · rfl

theorem normalize_normal (fuel digits : Nat) (exponent : ℤ) (h : digits < fuel) :
    (normalize fuel digits exponent).1 % 10 ≠ 0 ∨
      (normalize fuel digits exponent).1 = 0 ∧ (normalize fuel digits exponent).2 = 0 := by
  induction fuel generalizing digits exponent with
  | zero => omega
  | succ fuel ih =>
      rw [normalize]
      split
      · exact Or.inr ⟨rfl, rfl⟩
      · split
        · exact ih (digits / 10) (exponent + 1) (by omega)
        · rename_i hdigit
          exact Or.inl hdigit

theorem normal_ofDecimal (negative : Bool) (digits : Nat) (exponent : ℤ) :
    (ofDecimal negative digits exponent).Normal :=
  normalize_normal (digits + 1) digits exponent (Nat.lt_succ_self digits)

instance : DecidablePred Normal
  | .decimal _ digits exponent =>
      inferInstanceAs (Decidable (digits % 10 ≠ 0 ∨ digits = 0 ∧ exponent = 0))
  | .infinity _ => .isTrue trivial

/-- A number in shortest form is found from any digits and exponent with its value. -/
theorem ofDecimal_eq {digits digits' : Nat} {exponent exponent' : ℤ}
    (normal : digits % 10 ≠ 0 ∨ digits = 0 ∧ exponent = 0)
    (h : (digits' : ℚ) * 10 ^ exponent' = digits * 10 ^ exponent) (negative : Bool) :
    ofDecimal negative digits' exponent' = .decimal negative digits exponent := by
  have hscaled := (normalize_scaled (digits' + 1) digits' exponent').trans h
  obtain hdigits | ⟨rfl, rfl⟩ := normal
  · obtain hshort | ⟨hzero, -⟩ := normal_ofDecimal negative digits' exponent'
    · refine value_inj hshort hdigits ?_
      cases negative <;> simp [value, hscaled]
    · rw [hzero] at hscaled
      have hpos := value_pos (show digits ≠ 0 by omega) exponent
      simp [← hscaled] at hpos
  · have hzero : digits' = 0 := by
      have hpower : (10 : ℚ) ^ exponent' ≠ 0 := zpow_ne_zero _ (by norm_num)
      simpa [hpower] using h
    rw [hzero]
    rfl

end Number

/-- A numeral without its sign. -/
structure Numeral where
  whole : List Char
  /-- The digits behind the point; without any there is no point. -/
  fraction : List Char := []
  /-- The sign and the digits of the exponent. -/
  exponent : Option (Char × List Char) := none
  whole_ne_nil : whole ≠ []
  whole_digits : ∀ c ∈ whole, c.isDigit = true
  leading : whole.head? = some '0' → whole = ['0']
  fraction_digits : ∀ c ∈ fraction, c.isDigit = true := by simp
  exponent_signed : ∀ e ∈ exponent,
    (e.1 = '+' ∨ e.1 = '-') ∧ e.2 ≠ [] ∧ ∀ c ∈ e.2, c.isDigit = true := by simp

namespace Numeral

def fractionChars : List Char → List Char
  | [] => []
  | d :: ds => '.' :: d :: ds

def exponentChars : Option (Char × List Char) → List Char
  | none => []
  | some (sign, ds) => 'e' :: sign :: ds

def chars (m : Numeral) : List Char :=
  m.whole ++ (fractionChars m.fraction ++ exponentChars m.exponent)

def exponentValue : Option (Char × List Char) → ℤ
  | none => 0
  | some (sign, ds) =>
      if sign = '-' then -Nat.ofDigitChars 10 ds 0 else Nat.ofDigitChars 10 ds 0

/-- The number with these parts. -/
def numberOf (negative : Bool) (whole fraction : List Char)
    (exponent : Option (Char × List Char)) : Number :=
  .ofDecimal negative (Nat.ofDigitChars 10 (whole ++ fraction) 0)
    (exponentValue exponent - fraction.length)

open Number

theorem readPlain_parts (m : Numeral) : readPlain (m.whole ++ fractionChars m.fraction) =
    Nat.ofDigitChars 10 (m.whole ++ m.fraction) 0 * 10 ^ (-m.fraction.length : ℤ) := by
  have hwhole : ∀ c ∈ m.whole, c ≠ '.' := fun c hc => (digits_ne m.whole_digits c hc).1
  cases hfraction : m.fraction with
  | nil =>
      rw [fractionChars, List.append_nil, readPlain_whole hwhole]
      simp
  | cons d ds => rw [fractionChars, readPlain_point hwhole]

theorem readUnsigned_chars (m : Numeral) : readUnsigned m.chars =
    Nat.ofDigitChars 10 (m.whole ++ m.fraction) 0 *
      10 ^ (exponentValue m.exponent - m.fraction.length) := by
  have hmantissa : ∀ c ∈ m.whole ++ fractionChars m.fraction, c ≠ 'e' := by
    intro c hc
    obtain hc | hc := List.mem_append.mp hc
    · exact (digits_ne m.whole_digits c hc).2.1
    · cases hfraction : m.fraction with
      | nil => simp [hfraction, fractionChars] at hc
      | cons d ds =>
          rw [hfraction, fractionChars, List.mem_cons] at hc
          obtain rfl | hc := hc
          · decide
          · exact (digits_ne m.fraction_digits c (hfraction ▸ hc)).2.1
  rw [chars, ← List.append_assoc]
  cases hexponent : m.exponent with
  | none => rw [exponentChars, List.append_nil, readUnsigned_plain hmantissa, readPlain_parts,
      exponentValue, zero_sub]
  | some e =>
      obtain ⟨sign, ds⟩ := e
      rw [exponentChars, readUnsigned_scaled hmantissa, readPlain_parts, readExponent,
        exponentValue, mul_assoc, ← zpow_add₀ (by norm_num)]
      congr 2
      ring

end Numeral

namespace Number

theorem head?_toDigits (n : Nat) (h : n ≠ 0) : (Nat.toDigits 10 n).head? ≠ some '0' := by
  induction n using Nat.strong_induction_on with
  | _ n ih =>
      by_cases hdigit : n < 10
      · have hdigits : ∀ n < 10, n ≠ 0 → [Nat.digitChar n].head? ≠ some '0' := by decide
        rw [Nat.toDigits_of_lt_base hdigit]
        exact hdigits n hdigit h
      · rw [Nat.toDigits_of_base_le (by decide) (by omega), List.head?_append_of_ne_nil _
          Nat.toDigits_ne_nil]
        exact ih (n / 10) (by omega) (by omega)

section forms

variable {digits : Nat} (h : digits ≠ 0)

/-- The digits, and zeros behind them. -/
def integerForm (zeros : Nat) : Numeral where
  whole := Nat.toDigits 10 digits ++ List.replicate zeros '0'
  whole_ne_nil := by simp [Nat.toDigits_ne_nil]
  whole_digits :=
    List.forall_mem_append.mpr ⟨fun _ => isDigit_of_mem, fun _ => isDigit_of_mem_replicate⟩
  leading hzero := by
    rw [List.head?_append_of_ne_nil _ Nat.toDigits_ne_nil] at hzero
    exact absurd hzero (head?_toDigits digits h)

/-- The point between the digits. -/
def splitForm {i : Nat} (hi : 0 < i) (exponent : Option (Char × List Char))
    (signed : ∀ e ∈ exponent, (e.1 = '+' ∨ e.1 = '-') ∧ e.2 ≠ [] ∧ ∀ c ∈ e.2, c.isDigit = true) :
    Numeral where
  whole := (Nat.toDigits 10 digits).take i
  fraction := (Nat.toDigits 10 digits).drop i
  exponent := exponent
  whole_ne_nil := by
    rw [Ne, List.take_eq_nil_iff, not_or]
    exact ⟨Nat.ne_of_gt hi, Nat.toDigits_ne_nil⟩
  whole_digits c hc := isDigit_of_mem (List.mem_of_mem_take hc)
  leading hzero := by
    rw [List.head?_take, if_neg (Nat.ne_of_gt hi)] at hzero
    exact absurd hzero (head?_toDigits digits h)
  fraction_digits c hc := isDigit_of_mem (List.mem_of_mem_drop hc)
  exponent_signed := signed

/-- The point before the digits, and zeros between. -/
def smallForm (digits zeros : Nat) : Numeral where
  whole := ['0']
  fraction := List.replicate zeros '0' ++ Nat.toDigits 10 digits
  whole_ne_nil := by simp
  whole_digits := List.forall_mem_singleton.mpr rfl
  leading _ := rfl
  fraction_digits :=
    List.forall_mem_append.mpr ⟨fun _ => isDigit_of_mem_replicate, fun _ => isDigit_of_mem⟩

/-- The exponent `e` behind the digits. -/
def exponentPart (e : ℤ) : Char × List Char :=
  (if 0 ≤ e then '+' else '-', Nat.toDigits 10 e.natAbs)

theorem exponentPart_signed (e : ℤ) : ∀ p ∈ some (exponentPart e),
    (p.1 = '+' ∨ p.1 = '-') ∧ p.2 ≠ [] ∧ ∀ c ∈ p.2, c.isDigit = true := by
  rintro p ⟨rfl⟩
  refine ⟨?_, Nat.toDigits_ne_nil, fun _ => isDigit_of_mem⟩
  rw [exponentPart]
  split <;> simp

theorem fractionChars_of_ne_nil {l : List Char} (hl : l ≠ []) :
    Numeral.fractionChars l = '.' :: l := by
  cases l with
  | nil => exact absurd rfl hl
  | cons d ds => rfl

theorem chars_splitForm {i : Nat} (hi : 0 < i) {exponent : Option (Char × List Char)}
    (signed : ∀ e ∈ exponent, (e.1 = '+' ∨ e.1 = '-') ∧ e.2 ≠ [] ∧ ∀ c ∈ e.2, c.isDigit = true) :
    (splitForm h hi exponent signed).chars = (Nat.toDigits 10 digits).take i ++
      (if i < (Nat.toDigits 10 digits).length then '.' :: (Nat.toDigits 10 digits).drop i
        else []) ++ Numeral.exponentChars exponent := by
  have hchars : Numeral.fractionChars ((Nat.toDigits 10 digits).drop i) =
      if i < (Nat.toDigits 10 digits).length then '.' :: (Nat.toDigits 10 digits).drop i
      else [] := by
    split
    · rename_i hlong
      apply fractionChars_of_ne_nil
      exact List.ne_nil_of_length_pos (by rw [List.length_drop]; omega)
    · rename_i hshort
      rw [List.drop_of_length_le (Nat.not_lt.mp hshort), Numeral.fractionChars]
  rw [List.append_assoc, ← hchars]
  rfl

/-- The text of a number other than zero is a numeral, behind its sign. -/
theorem exists_numeral (h : digits ≠ 0) (exponent : ℤ) :
    ∃ m : Numeral, ∀ negative, text (.decimal negative digits exponent) =
      String.ofList (if negative then '-' :: m.chars else m.chars) := by
  simp only [text, if_neg h, toList_toString]
  by_cases hinteger : ((Nat.toDigits 10 digits).length : ℤ) ≤
      (Nat.toDigits 10 digits).length + exponent ∧
      (Nat.toDigits 10 digits).length + exponent ≤ 21
  · refine ⟨integerForm h ((Nat.toDigits 10 digits).length + exponent -
      (Nat.toDigits 10 digits).length).toNat, fun negative => ?_⟩
    simp only [if_pos hinteger]
    simp [integerForm, Numeral.chars, Numeral.fractionChars, Numeral.exponentChars]
  simp only [if_neg hinteger]
  by_cases hsplit : (0 : ℤ) < (Nat.toDigits 10 digits).length + exponent ∧
      (Nat.toDigits 10 digits).length + exponent ≤ 21
  · have hi : 0 < ((Nat.toDigits 10 digits).length + exponent).toNat := by omega
    have hlong : ((Nat.toDigits 10 digits).length + exponent).toNat <
        (Nat.toDigits 10 digits).length := by omega
    refine ⟨splitForm h hi none (by simp), fun negative => ?_⟩
    rw [chars_splitForm, if_pos hlong, Numeral.exponentChars, List.append_nil]
    simp only [if_pos hsplit]
  simp only [if_neg hsplit]
  by_cases hsmall : (-6 : ℤ) < (Nat.toDigits 10 digits).length + exponent ∧
      (Nat.toDigits 10 digits).length + exponent ≤ 0
  · refine ⟨smallForm digits (-((Nat.toDigits 10 digits).length + exponent)).toNat,
      fun negative => ?_⟩
    simp only [if_pos hsmall]
    rw [Numeral.chars, smallForm, fractionChars_of_ne_nil (by simp [Nat.toDigits_ne_nil]),
      Numeral.exponentChars, List.append_nil]
    rfl
  simp only [if_neg hsmall]
  refine ⟨splitForm h Nat.one_pos
    (some (exponentPart ((Nat.toDigits 10 digits).length + exponent - 1)))
    (exponentPart_signed _), fun negative => ?_⟩
  have hmantissa : (if ((Nat.toDigits 10 digits).length : ℤ) = 1 then Nat.toDigits 10 digits
      else (Nat.toDigits 10 digits).take 1 ++ '.' :: (Nat.toDigits 10 digits).drop 1) =
        (Nat.toDigits 10 digits).take 1 ++
          if 1 < (Nat.toDigits 10 digits).length then '.' :: (Nat.toDigits 10 digits).drop 1
          else [] := by
    have hpos : 0 < (Nat.toDigits 10 digits).length := Nat.length_toDigits_pos
    by_cases hone : (Nat.toDigits 10 digits).length = 1
    · rw [if_pos (by exact_mod_cast hone), if_neg (by omega), List.append_nil,
        List.take_of_length_le (Nat.le_of_eq hone)]
    · rw [if_neg (by exact_mod_cast hone), if_pos (by omega)]
  rw [chars_splitForm, hmantissa]
  rfl

end forms

/-- The parts of the numeral in the text of a number determine the number. -/
theorem numeral_number {digits : Nat} {exponent : ℤ} {m : Numeral}
    (normal : digits % 10 ≠ 0)
    (h : text (.decimal false digits exponent) = String.ofList m.chars) (negative : Bool) :
    Numeral.numberOf negative m.whole m.fraction m.exponent =
      .decimal negative digits exponent := by
  have hread := readNumber_text false digits exponent
  obtain ⟨d, ds, hwhole⟩ := List.exists_cons_of_ne_nil m.whole_ne_nil
  have hsign : d ≠ '-' := (digits_ne m.whole_digits d (hwhole ▸ List.mem_cons_self)).2.2
  have hunsigned : readNumber m.chars = readUnsigned m.chars := by
    rw [Numeral.chars, hwhole, List.cons_append, readNumber, if_neg hsign]
  rw [h, String.toList_ofList, hunsigned, Numeral.readUnsigned_chars] at hread
  exact ofDecimal_eq (Or.inl normal) (by simpa [value] using hread) negative

end Number

end Js
