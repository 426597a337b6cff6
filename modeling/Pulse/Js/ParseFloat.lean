import Pulse.Js.ParserRoundTrip

/-!
# Parsing decimals

`parseFloat` takes the longest decimal at the start of a text, behind white space, and
ignores what follows it. On the text of a finite number it finds the number again.
-/

namespace Js

section definitions

/-- The fraction behind the whole digits, and what follows it. -/
def spanFraction : List Char → List Char × List Char
  | [] => ([], [])
  | c :: l =>
      if c = '.' then (l.takeWhile Char.isDigit, l.dropWhile Char.isDigit) else ([], c :: l)

/-- An exponent, where there is a complete one. -/
def spanExponent (l : List Char) : Option (Char × List Char) :=
  (parseExponent l).bind Prod.fst

variable (nearest : Number → Number)

/-- A decimal behind its sign; `none` is `NaN`. -/
def parseUnsigned (negative : Bool) (l : List Char) : Option Number :=
  if "Infinity".toList.isPrefixOf l then some (.infinity negative)
  else
    let whole := l.takeWhile Char.isDigit
    let fraction := spanFraction (l.dropWhile Char.isDigit)
    if whole = [] ∧ fraction.1 = [] then none
    else some (nearest (Numeral.numberOf negative whole fraction.1 (spanExponent fraction.2)))

/-- `parseFloat(text)`; `none` is `NaN`. -/
def parseFloat (text : List Char) : Option Number :=
  match text.dropWhile isWhiteSpace with
  | [] => none
  | c :: l =>
      if c = '-' then parseUnsigned nearest true l
      else if c = '+' then parseUnsigned nearest false l
      else parseUnsigned nearest false (c :: l)

end definitions

section texts

variable {nearest : Number → Number}

theorem isWhiteSpace_of_isDigit {c : Char} (h : c.isDigit = true) : isWhiteSpace c = false := by
  simp only [Char.isDigit, Bool.and_eq_true, decide_eq_true_eq] at h
  have hlow : 48 ≤ c.toNat := h.1
  have hhigh : c.toNat ≤ 57 := h.2
  simp only [isWhiteSpace, decide_eq_false_iff_not, List.mem_cons, List.not_mem_nil, or_false]
  omega

theorem stopsNumber_nil : StopsNumber [] := by
  intro c hc
  cases hc

theorem spanFraction_fractionChars (m : Numeral) :
    spanFraction (Numeral.fractionChars m.fraction ++ Numeral.exponentChars m.exponent) =
      (m.fraction, Numeral.exponentChars m.exponent) := by
  have hbehind : ∀ c ∈ (Numeral.exponentChars m.exponent).head?, c.isDigit = false ∧ c ≠ '.' := by
    have hhead := head?_exponentChars m stopsNumber_nil
    rwa [List.append_nil] at hhead
  cases hfraction : m.fraction with
  | nil =>
      rw [Numeral.fractionChars, List.nil_append]
      cases hchars : Numeral.exponentChars m.exponent with
      | nil => rfl
      | cons c l =>
          rw [hchars] at hbehind
          rw [spanFraction, if_neg (hbehind c rfl).2]
  | cons d ds =>
      have hdigits : ∀ c ∈ d :: ds, c.isDigit = true := hfraction ▸ m.fraction_digits
      obtain ⟨htake, hdrop⟩ := takeWhile_digits hdigits fun c hc => (hbehind c hc).1
      rw [Numeral.fractionChars, List.cons_append, spanFraction, if_pos rfl, htake, hdrop]

theorem spanExponent_exponentChars (m : Numeral) :
    spanExponent (Numeral.exponentChars m.exponent) = m.exponent := by
  have hparse := parseExponent_exponentChars m stopsNumber_nil
  rw [List.append_nil] at hparse
  rw [spanExponent, hparse, Option.bind_some]

theorem parseUnsigned_chars (m : Numeral) (negative : Bool) :
    parseUnsigned nearest negative m.chars =
      some (nearest (Numeral.numberOf negative m.whole m.fraction m.exponent)) := by
  have hinfinity : "Infinity".toList.isPrefixOf m.chars = false := by
    obtain ⟨d, ds, hwhole⟩ := List.exists_cons_of_ne_nil m.whole_ne_nil
    have hd : d.isDigit = true := m.whole_digits d (hwhole ▸ List.mem_cons_self)
    have hne : ('I' == d) = false := by
      rw [beq_eq_false_iff_ne]
      rintro rfl
      exact absurd hd (by decide)
    have hletters : "Infinity".toList = 'I' :: "nfinity".toList := by decide
    rw [Numeral.chars, hwhole, hletters, List.cons_append, List.isPrefixOf_cons_cons, hne,
      Bool.false_and]
  have hbehind := head?_fractionChars m stopsNumber_nil
  rw [List.append_nil] at hbehind
  obtain ⟨htake, hdrop⟩ := takeWhile_digits m.whole_digits hbehind
  rw [parseUnsigned, hinfinity, if_neg Bool.false_ne_true, Numeral.chars]
  simp only [htake, hdrop, spanFraction_fractionChars, spanExponent_exponentChars]
  exact if_neg fun hnone => m.whole_ne_nil hnone.1

/-- A numeral with its sign. -/
def Numeral.signed (m : Numeral) (negative : Bool) : List Char :=
  if negative then '-' :: m.chars else m.chars

theorem parseFloat_signed (m : Numeral) (negative : Bool) :
    parseFloat nearest (m.signed negative) =
      some (nearest (Numeral.numberOf negative m.whole m.fraction m.exponent)) := by
  cases negative with
  | true =>
      have hminus : isWhiteSpace '-' = false := by decide
      rw [Numeral.signed, if_pos rfl, parseFloat,
        List.dropWhile_cons_of_neg (by rw [hminus]; exact Bool.false_ne_true)]
      exact parseUnsigned_chars m true
  | false =>
      obtain ⟨d, ds, hwhole⟩ := List.exists_cons_of_ne_nil m.whole_ne_nil
      have hd : d.isDigit = true := m.whole_digits d (hwhole ▸ List.mem_cons_self)
      have hsign : d ≠ '-' ∧ d ≠ '+' := by
        constructor <;>
        · rintro rfl
          exact absurd hd (by decide)
      have hparse : parseUnsigned nearest false m.chars =
          some (nearest (Numeral.numberOf false m.whole m.fraction m.exponent)) :=
        parseUnsigned_chars m false
      rw [Numeral.chars, hwhole, List.cons_append] at hparse
      rw [Numeral.signed, if_neg Bool.false_ne_true, Numeral.chars, hwhole, List.cons_append,
        parseFloat, List.dropWhile_cons_of_neg (by rw [isWhiteSpace_of_isDigit hd]; decide)]
      simp only [if_neg hsign.1, if_neg hsign.2]
      exact hparse

/-- The text of a finite number is a numeral with a sign, which determines the number; zero
has no sign. -/
theorem exists_signed {negative : Bool} {digits : Nat} {exponent : ℤ}
    (normal : (Number.decimal negative digits exponent).Normal) :
    ∃ m : Numeral, (Number.decimal negative digits exponent).text.toList =
        m.signed (negative && digits != 0) ∧
      Numeral.numberOf (negative && digits != 0) m.whole m.fraction m.exponent =
        .decimal (negative && digits != 0) digits exponent := by
  by_cases hzero : digits = 0
  · subst hzero
    obtain rfl : exponent = 0 := by simpa [Number.Normal] using normal
    refine ⟨⟨['0'], [], none, by simp, List.forall_mem_singleton.mpr rfl, fun _ => rfl, by simp,
      by simp⟩, ?_, ?_⟩
    · rw [Number.text, if_pos rfl, bne_self_eq_false, Bool.and_false]
      rfl
    · rw [bne_self_eq_false, Bool.and_false]
      rfl
  · obtain ⟨m, htext⟩ := Number.exists_numeral hzero exponent
    have hsign : (negative && digits != 0) = negative := by simp [hzero]
    have hdigits : digits % 10 ≠ 0 := normal.resolve_right fun h => hzero h.1
    refine ⟨m, ?_, ?_⟩
    · rw [htext negative, String.toList_ofList, hsign]
      rfl
    · rw [hsign]
      exact Number.numeral_number hdigits (by simpa using htext false) negative

/-- `parseFloat` reads a printed number back, up to the sign of zero. -/
theorem parseFloat_text {negative : Bool} {digits : Nat} {exponent : ℤ}
    (normal : (Number.decimal negative digits exponent).Normal) :
    parseFloat nearest (Number.decimal negative digits exponent).text.toList =
      some (nearest (.decimal (negative && digits != 0) digits exponent)) := by
  obtain ⟨m, htext, hnumber⟩ := exists_signed normal
  rw [htext, parseFloat_signed, hnumber]

/-- The characters of printed numbers. -/
def IsNumeric (c : Char) : Prop := c.isDigit = true ∨ c = '.' ∨ c = 'e' ∨ c = '+' ∨ c = '-'

theorem Numeral.isNumeric_of_mem_signed {m : Numeral} {negative : Bool} {c : Char}
    (h : c ∈ m.signed negative) : IsNumeric c := by
  have hchars : ∀ c ∈ m.chars, IsNumeric c := by
    intro c hc
    rw [Numeral.chars, List.mem_append, List.mem_append] at hc
    obtain hwhole | hfraction | hexponent := hc
    · exact Or.inl (m.whole_digits c hwhole)
    · cases hdigits : m.fraction with
      | nil => simp [hdigits, Numeral.fractionChars] at hfraction
      | cons d ds =>
          rw [hdigits, Numeral.fractionChars, List.mem_cons] at hfraction
          obtain rfl | hfraction := hfraction
          · exact Or.inr (Or.inl rfl)
          · exact Or.inl (m.fraction_digits c (hdigits ▸ hfraction))
    · cases hparts : m.exponent with
      | none => simp [hparts, Numeral.exponentChars] at hexponent
      | some e =>
          obtain ⟨hsign, -, hdigits⟩ := m.exponent_signed e hparts
          obtain ⟨sign, ds⟩ := e
          rw [hparts, Numeral.exponentChars, List.mem_cons, List.mem_cons] at hexponent
          obtain rfl | rfl | hexponent := hexponent
          · exact Or.inr (Or.inr (Or.inl rfl))
          · exact Or.inr (Or.inr (Or.inr hsign))
          · exact Or.inl (hdigits c hexponent)
  cases negative with
  | true =>
      obtain rfl | hc := List.mem_cons.mp h
      · exact Or.inr (Or.inr (Or.inr (Or.inr rfl)))
      · exact hchars c hc
  | false => exact hchars c h

theorem isWhiteSpace_of_isNumeric {c : Char} (h : IsNumeric c) : isWhiteSpace c = false := by
  obtain hdigit | rfl | rfl | rfl | rfl := h
  · exact isWhiteSpace_of_isDigit hdigit
  · decide
  · decide
  · decide
  · decide

end texts

end Js
