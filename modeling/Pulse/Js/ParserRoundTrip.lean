import Pulse.Js.Parser

/-!
# Parsing what was written

`JSON.parse` reads the text of `JSON.stringify` back, for a value whose objects are in
property order and whose numbers are doubles. Each piece of the text is read up to its
end whatever stands behind it, as long as this cannot continue a numeral.
-/

namespace Js

/-- What may stand behind a value inside a text. -/
def Stops (rest : List Char) : Prop := ∀ c ∈ rest.head?, c = ',' ∨ c = ']' ∨ c = '\x7d'

theorem stops_nil : Stops [] := by
  intro c hc
  cases hc

theorem stops_cons {c : Char} (h : c = ',' ∨ c = ']' ∨ c = '\x7d') (rest : List Char) :
    Stops (c :: rest) := by
  rintro d ⟨rfl⟩
  exact h

section numbers

/-- Digits are taken up to the first character that is none. -/
theorem takeWhile_digits {ds rest : List Char} (digits : ∀ c ∈ ds, c.isDigit = true)
    (h : ∀ c ∈ rest.head?, c.isDigit = false) :
    (ds ++ rest).takeWhile Char.isDigit = ds ∧ (ds ++ rest).dropWhile Char.isDigit = rest := by
  rw [List.takeWhile_append_of_pos digits, List.dropWhile_append_of_pos digits]
  cases rest with
  | nil => exact ⟨List.append_nil ds, rfl⟩
  | cons c rest =>
      have hc : ¬ c.isDigit = true := by simp [h c rfl]
      rw [List.takeWhile_cons_of_neg hc, List.dropWhile_cons_of_neg hc, List.append_nil]
      exact ⟨rfl, rfl⟩

theorem parseDigits_append {ds : List Char} (nonempty : ds ≠ [])
    (digits : ∀ c ∈ ds, c.isDigit = true) {rest : List Char}
    (h : ∀ c ∈ rest.head?, c.isDigit = false) : parseDigits (ds ++ rest) = some (ds, rest) := by
  obtain ⟨htake, hdrop⟩ := takeWhile_digits digits h
  rw [parseDigits, htake, hdrop, if_neg nonempty]

/-- What may stand behind a numeral. -/
def StopsNumber (rest : List Char) : Prop :=
  ∀ c ∈ rest.head?, c.isDigit = false ∧ c ≠ '.' ∧ c ≠ 'e' ∧ c ≠ 'E'

theorem Stops.number {rest : List Char} (h : Stops rest) : StopsNumber rest := by
  intro c hc
  obtain rfl | rfl | rfl := h c hc <;> decide

theorem parseExponent_exponentChars (m : Numeral) {rest : List Char} (h : StopsNumber rest) :
    parseExponent (Numeral.exponentChars m.exponent ++ rest) = some (m.exponent, rest) := by
  cases hexponent : m.exponent with
  | none =>
      cases rest with
      | nil => rfl
      | cons c rest =>
          obtain ⟨-, -, he, hE⟩ := h c rfl
          simp [Numeral.exponentChars, parseExponent, he, hE]
  | some e =>
      obtain ⟨sign, ds⟩ := e
      obtain ⟨hsign, hne, hdigits⟩ := m.exponent_signed (sign, ds) hexponent
      have hds := parseDigits_append hne hdigits fun c hc => (h c hc).1
      simp only [Numeral.exponentChars, List.cons_append, parseExponent, true_or, if_true, hsign,
        hds, Option.map_some]

/-- What follows the digits of a numeral is no digit. -/
theorem head?_exponentChars (m : Numeral) {rest : List Char} (h : StopsNumber rest) :
    ∀ c ∈ (Numeral.exponentChars m.exponent ++ rest).head?, c.isDigit = false ∧ c ≠ '.' := by
  intro c hc
  cases hexponent : m.exponent with
  | none =>
      rw [hexponent] at hc
      exact ⟨(h c hc).1, (h c hc).2.1⟩
  | some e =>
      rw [hexponent] at hc
      obtain rfl : 'e' = c := by simpa [Numeral.exponentChars] using hc
      decide

theorem parseFraction_fractionChars (m : Numeral) {rest : List Char} (h : StopsNumber rest) :
    parseFraction (Numeral.fractionChars m.fraction ++
        (Numeral.exponentChars m.exponent ++ rest)) =
      some (m.fraction, Numeral.exponentChars m.exponent ++ rest) := by
  have hbehind := head?_exponentChars m h
  cases hfraction : m.fraction with
  | nil =>
      rw [Numeral.fractionChars, List.nil_append]
      cases hchars : Numeral.exponentChars m.exponent ++ rest with
      | nil => rfl
      | cons c l =>
          rw [hchars] at hbehind
          rw [parseFraction, if_neg (hbehind c rfl).2]
  | cons d ds =>
      have hdigits : ∀ c ∈ d :: ds, c.isDigit = true := hfraction ▸ m.fraction_digits
      rw [Numeral.fractionChars, List.cons_append, parseFraction, if_pos rfl,
        parseDigits_append (List.cons_ne_nil d ds) hdigits fun c hc => (hbehind c hc).1]

theorem parseWhole_append (m : Numeral) {rest : List Char}
    (h : ∀ c ∈ rest.head?, c.isDigit = false) :
    parseWhole (m.whole ++ rest) = some (m.whole, rest) := by
  have hleading : (m.whole.head? ≠ some '0' || m.whole = ['0']) = true := by
    by_cases hzero : m.whole.head? = some '0'
    · simp [m.leading hzero]
    · simp [hzero]
  rw [parseWhole, parseDigits_append m.whole_ne_nil m.whole_digits h]
  exact Option.filter_some_pos hleading

/-- What follows the whole digits of a numeral is no digit. -/
theorem head?_fractionChars (m : Numeral) {rest : List Char} (h : StopsNumber rest) :
    ∀ c ∈ (Numeral.fractionChars m.fraction ++
      (Numeral.exponentChars m.exponent ++ rest)).head?, c.isDigit = false := by
  intro c hc
  cases hfraction : m.fraction with
  | nil =>
      rw [hfraction] at hc
      exact (head?_exponentChars m h c hc).1
  | cons d ds =>
      rw [hfraction] at hc
      obtain rfl : '.' = c := by simpa [Numeral.fractionChars] using hc
      decide

/-- A numeral is read up to its end. -/
theorem parseNumber_chars (m : Numeral) (negative : Bool) {rest : List Char}
    (h : StopsNumber rest) : parseNumber negative (m.chars ++ rest) =
      some (Numeral.numberOf negative m.whole m.fraction m.exponent, rest) := by
  rw [Numeral.chars, List.append_assoc, List.append_assoc, parseNumber,
    parseWhole_append m (head?_fractionChars m h), Option.bind_some,
    parseFraction_fractionChars m h, Option.bind_some, parseExponent_exponentChars m h,
    Option.map_some]

end numbers

section strings

theorem parseChar_quoteChar (c : Char) (rest : List Char) :
    parseChar (quoteChar c ++ rest) = some (c, rest) := by
  rw [quoteChar]
  split_ifs with hquote hslash hb hf hn hr ht hcontrol
  · rw [hquote]
    rfl
  · rw [hslash]
    rfl
  · rw [← Char.ofNat_toNat c, hb]
    rfl
  · rw [← Char.ofNat_toNat c, hf]
    rfl
  · rw [hn]
    rfl
  · rw [hr]
    rfl
  · rw [ht]
    rfl
  · have hzero : hexDigitValue '0' = some 0 := by decide
    have hhigh := hexDigitValue_hexDigit (c.toNat / 16) (by omega)
    have hlow := hexDigitValue_hexDigit (c.toNat % 16) (by omega)
    have hunit : 16 * (c.toNat / 16) + c.toNat % 16 = c.toNat := Nat.div_add_mod c.toNat 16
    have hplain : ¬ (0xD800 ≤ c.toNat ∧ c.toNat < 0xE000) := by omega
    simp only [List.cons_append, List.nil_append, parseChar, if_true, parseUnicode, parseHex4,
      hzero, hhigh, hlow, Option.map_some, Nat.mul_zero, Nat.zero_add, hunit, if_neg hplain,
      Char.ofNat_toNat]
  · simp [parseChar, hslash, hcontrol]

theorem parseChars_quoted (l rest : List Char) (fuel : Nat) (h : l.length < fuel) :
    parseChars fuel (l.flatMap quoteChar ++ '"' :: rest) = some (l, rest) := by
  induction l generalizing fuel with
  | nil =>
      obtain ⟨fuel, rfl⟩ := Nat.exists_eq_add_one_of_ne_zero (Nat.ne_of_gt h)
      rfl
  | cons c l ih =>
      obtain ⟨fuel, rfl⟩ := Nat.exists_eq_add_one_of_ne_zero (Nat.ne_of_gt (Nat.zero_lt_of_lt h))
      obtain ⟨a, t, hchar, ha⟩ := quoteChar_head c
      have hread := parseChar_quoteChar c (l.flatMap quoteChar ++ '"' :: rest)
      rw [hchar, List.cons_append] at hread
      rw [List.flatMap_cons, List.append_assoc, hchar, List.cons_append, parseChars, if_neg ha,
        hread, Option.bind_some, ih fuel (Nat.lt_of_succ_lt_succ h)]
      rfl

theorem length_le_length_flatMap_quoteChar (l : List Char) :
    l.length ≤ (l.flatMap quoteChar).length := by
  induction l with
  | nil => exact Nat.le_refl 0
  | cons c l ih =>
      obtain ⟨a, t, hchar, -⟩ := quoteChar_head c
      rw [List.flatMap_cons, List.length_append, hchar, List.length_cons, List.length_cons]
      omega

theorem parseString_quoted (s : String) (rest : List Char) :
    parseString (s.toList.flatMap quoteChar ++ '"' :: rest) = some (s, rest) := by
  have hfuel : s.toList.length < (s.toList.flatMap quoteChar ++ '"' :: rest).length := by
    have hlength := length_le_length_flatMap_quoteChar s.toList
    rw [List.length_append, List.length_cons]
    omega
  rw [parseString, parseChars_quoted s.toList rest _ hfuel, Option.map_some, String.ofList_toList]

end strings

section lists

variable {α β : Type} {item : List Char → Option (α × List Char)} {close : Char}
variable {text : β → String} {result : β → α}

/-- A text whose reading `item` ends where the text ends, with a first character which is
neither white space nor a bracket that closes. -/
structure ReadBy (item : List Char → Option (α × List Char)) (s : String) (a : α) : Prop where
  head : ∃ c l, s.toList = c :: l ∧ isJsonSpace c = false ∧ c ≠ ']' ∧ c ≠ '\x7d'
  reads : ∀ rest, Stops rest → item (s.toList ++ rest) = some (a, rest)

theorem skipSpace_cons {c : Char} (h : isJsonSpace c = false) (l : List Char) :
    skipSpace (c :: l) = c :: l :=
  List.dropWhile_cons_of_neg (by simp [h])

theorem ReadBy.skipSpace_append {s : String} {a : α} (h : ReadBy item s a) (rest : List Char) :
    skipSpace (s.toList ++ rest) = s.toList ++ rest := by
  obtain ⟨c, l, hs, hc, -⟩ := h.head
  rw [hs, List.cons_append, skipSpace_cons hc]

theorem parseItems_joinWith (hclose : close = ']' ∨ close = '\x7d') {b : β} {bs : List β}
    (h : ∀ x ∈ b :: bs, ReadBy item (text x) (result x)) (rest : List Char) (fuel : Nat)
    (hfuel : bs.length < fuel) :
    parseItems item close fuel
        ((joinWith "," ((b :: bs).map text)).toList ++ close :: rest) =
      some ((b :: bs).map result, rest) := by
  have hspace : isJsonSpace close = false := by obtain rfl | rfl := hclose <;> rfl
  induction bs generalizing b fuel with
  | nil =>
      obtain ⟨fuel, rfl⟩ := Nat.exists_eq_add_one_of_ne_zero (Nat.ne_of_gt hfuel)
      have hb := h b List.mem_cons_self
      rw [List.map_singleton, joinWith, parseItems, hb.skipSpace_append,
        hb.reads _ (stops_cons (Or.inr hclose) rest), Option.bind_some]
      simp [skipSpace_cons hspace]
  | cons b' bs ih =>
      obtain ⟨fuel, rfl⟩ :=
        Nat.exists_eq_add_one_of_ne_zero (Nat.ne_of_gt (Nat.zero_lt_of_lt hfuel))
      have hb := h b List.mem_cons_self
      have hbehind := ih (fun x hx => h x (List.mem_cons_of_mem b hx)) fuel
        (Nat.lt_of_succ_lt_succ hfuel)
      have hcomma : ',' ≠ close := by obtain rfl | rfl := hclose <;> decide
      rw [List.map_cons, toList_joinWith_cons _ _ (by simp), List.append_assoc, List.cons_append,
        parseItems, hb.skipSpace_append, hb.reads _ (stops_cons (Or.inl rfl) _),
        Option.bind_some]
      simp only [skipSpace_cons (show isJsonSpace ',' = false from rfl), if_neg hcomma, if_true,
        hbehind, Option.map_some]
      rfl

theorem length_le_length_joinWith (texts : List String) :
    texts.length ≤ (joinWith "," texts).toList.length + 1 := by
  induction texts with
  | nil => exact Nat.zero_le _
  | cons t rest ih =>
      cases rest with
      | nil => simp
      | cons t' rest =>
          rw [toList_joinWith_cons _ _ (by simp)]
          simp only [List.length_append, List.length_cons] at ih ⊢
          omega

/-- What stands between two brackets is read item by item. -/
theorem parseList_joinWith (hclose : close = ']' ∨ close = '\x7d') {bs : List β}
    (h : ∀ x ∈ bs, ReadBy item (text x) (result x)) (rest : List Char) :
    parseList item close ((joinWith "," (bs.map text)).toList ++ close :: rest) =
      some (bs.map result, rest) := by
  cases bs with
  | nil =>
      have hspace : isJsonSpace close = false := by obtain rfl | rfl := hclose <;> rfl
      simp [joinWith, parseList, skipSpace_cons hspace]
  | cons b bs =>
      obtain ⟨c, l, hhead, hc, hbracket, hbrace⟩ : ∃ c l,
          (joinWith "," ((b :: bs).map text)).toList = c :: l ∧ isJsonSpace c = false ∧
            c ≠ ']' ∧ c ≠ '\x7d' := by
        obtain ⟨c, l, hhead, hc⟩ := (h b List.mem_cons_self).head
        cases bs with
        | nil => exact ⟨c, l, hhead, hc⟩
        | cons b' bs =>
            rw [List.map_cons, toList_joinWith_cons _ _ (by simp), hhead]
            exact ⟨c, _, List.cons_append, hc⟩
      have hopen : c ≠ close := by
        obtain rfl | rfl := hclose
        · exact hbracket
        · exact hbrace
      have hfuel : bs.length <
          ((joinWith "," ((b :: bs).map text)).toList ++ close :: rest).length := by
        have hlength := length_le_length_joinWith ((b :: bs).map text)
        rw [List.length_map, List.length_cons] at hlength
        rw [List.length_append, List.length_cons]
        omega
      have hitems := parseItems_joinWith hclose h rest _ hfuel
      rw [hhead, List.cons_append] at hitems ⊢
      rw [parseList, skipSpace_cons hc]
      simp only [if_neg hopen, hitems]

end lists

section fields

namespace Fields

/-- No two properties have one name, and they are in property order. -/
def Ordered (fields : Fields) : Prop :=
  fields.Pairwise fun p q => p.1 ≠ q.1 ∧ precedes q.1 p.1 = false

instance (fields : Fields) : Decidable fields.Ordered :=
  inferInstanceAs (Decidable (List.Pairwise _ _))

theorem ordered_iff {fields : Fields} : fields.Ordered ↔
    (fields.map Prod.fst).Pairwise fun k k' => k ≠ k' ∧ precedes k' k = false := by
  rw [List.pairwise_map, Ordered]

theorem put_eq_append {fields : Fields} {name : String}
    (h : ∀ p ∈ fields, p.1 ≠ name ∧ precedes name p.1 = false) (v : Json) :
    put fields name v = fields ++ [(name, v)] := by
  induction fields with
  | nil => rfl
  | cons p rest ih =>
      obtain ⟨hname, horder⟩ := h p List.mem_cons_self
      rw [put, if_neg hname, horder, if_neg (by decide),
        ih fun q hq => h q (List.mem_cons_of_mem p hq), List.cons_append]

/-- Properties in order are defined one behind the other. -/
theorem ofMembers_of_ordered {fields : Fields} (h : fields.Ordered) :
    ofMembers fields = fields := by
  have hfold : ∀ before : Fields, (before ++ fields).Ordered →
      fields.foldl (fun fields m => put fields m.1 m.2) before = before ++ fields := by
    induction fields with
    | nil =>
        intro before _
        exact (List.append_nil before).symm
    | cons p rest ih =>
        intro before hordered
        have hput : put before p.1 p.2 = before ++ [p] := by
          apply put_eq_append
          intro q hq
          exact (List.pairwise_append.mp hordered).2.2 q hq p List.mem_cons_self
        have hshift : before ++ p :: rest = before ++ [p] ++ rest := by simp
        rw [List.foldl_cons, hput, hshift]
        exact ih (List.pairwise_cons.mp h).2 (before ++ [p]) (hshift ▸ hordered)
  exact hfold [] h

end Fields

theorem ordered_reparseFields {fields : Fields} (h : fields.Ordered) :
    Fields.Ordered (reparseFields fields) := by
  rw [Fields.ordered_iff, reparseFields_eq_map, List.map_map]
  exact Fields.ordered_iff.mp h

end fields

section values

variable {nearest : Number → Number}

/-- A finite number in shortest form which is a double. -/
def Number.Double (nearest : Number → Number) (n : Number) : Prop :=
  ∀ m, n.reread = .num m → m.Normal ∧ nearest m = m

mutual

/-- Objects in property order all through, and only doubles. -/
def Regular (nearest : Number → Number) : Json → Prop
  | .num n => n.Double nearest
  | .arr elements => RegularElements nearest elements
  | .obj fields => Fields.Ordered fields ∧ RegularFields nearest fields
  | _ => True

def RegularElements (nearest : Number → Number) : List Json → Prop
  | [] => True
  | v :: rest => Regular nearest v ∧ RegularElements nearest rest

def RegularFields (nearest : Number → Number) : List (String × Json) → Prop
  | [] => True
  | (_, v) :: rest => Regular nearest v ∧ RegularFields nearest rest

end

theorem parseValue_word {s : String} {v : Json}
    (h : s = "null" ∧ v = .null ∨ s = "true" ∧ v = .bool true ∨ s = "false" ∧ v = .bool false)
    (fuel : Nat) (rest : List Char) :
    parseValue nearest (fuel + 1) (s.toList ++ rest) = some (v, rest) := by
  have hnull : "null".toList = ['n', 'u', 'l', 'l'] := by decide
  have htrue : "true".toList = ['t', 'r', 'u', 'e'] := by decide
  have hfalse : "false".toList = ['f', 'a', 'l', 's', 'e'] := by decide
  obtain ⟨rfl, rfl⟩ | ⟨rfl, rfl⟩ | ⟨rfl, rfl⟩ := h <;>
    simp [parseValue, parseWord, hnull, htrue, hfalse]

theorem parseValue_digit {d : Char} (hd : d.isDigit = true) (fuel : Nat) (l : List Char) :
    parseValue nearest (fuel + 1) (d :: l) =
      (parseNumber false (d :: l)).map fun p => (.num (nearest p.1), p.2) := by
  have hother : d ≠ '"' ∧ d ≠ '[' ∧ d ≠ '\x7b' ∧ d ≠ '-' := by
    refine ⟨?_, ?_, ?_, ?_⟩ <;>
    · rintro rfl
      exact absurd hd (by decide)
  obtain ⟨hquote, hbracket, hbrace, hminus⟩ := hother
  rw [parseValue, if_neg hquote, if_neg hbracket, if_neg hbrace, if_neg hminus, if_pos hd]

theorem parseValue_num {n : Number} (h : n.Double nearest) (fuel : Nat) {rest : List Char}
    (stops : Stops rest) :
    parseValue nearest (fuel + 1) (n.text.toList ++ rest) = some (n.reread, rest) := by
  cases n with
  | infinity negative => exact parseValue_word (Or.inl ⟨rfl, rfl⟩) fuel rest
  | decimal negative digits exponent =>
      obtain ⟨hnormal, hnearest⟩ := h _ rfl
      by_cases hzero : digits = 0
      · subst hzero
        obtain rfl : exponent = 0 := by simpa [Number.Normal] using hnormal
        have hsign : (negative && (0 : Nat) != 0) = false := Bool.and_false negative
        have hnumber : parseNumber false ('0' :: rest) = some (.decimal false 0 0, rest) :=
          parseNumber_chars ⟨['0'], [], none, by simp, List.forall_mem_singleton.mpr rfl,
            fun _ => rfl, by simp, by simp⟩ false stops.number
        have htext : (Number.decimal negative 0 0).text.toList = ['0'] := by
          rw [Number.text, if_pos rfl]
          rfl
        rw [hsign] at hnearest
        rw [htext, List.singleton_append, parseValue_digit (by decide), hnumber, Option.map_some,
          hnearest, Number.reread, hsign]
      · obtain ⟨m, htext⟩ := Number.exists_numeral hzero exponent
        have hdigits : digits % 10 ≠ 0 := hnormal.resolve_right fun h => hzero h.1
        have hnumber : parseNumber negative (m.chars ++ rest) =
            some (.decimal negative digits exponent, rest) := by
          rw [parseNumber_chars m negative stops.number,
            Number.numeral_number hdigits (by simpa using htext false)]
        have hsign : (negative && digits != 0) = negative := by simp [hzero]
        rw [hsign] at hnearest
        rw [htext, String.toList_ofList, Number.reread, hsign]
        cases negative with
        | true =>
            rw [if_pos rfl, List.cons_append]
            simp [parseValue, hnumber, hnearest]
        | false =>
            obtain ⟨d, ds, hwhole⟩ := List.exists_cons_of_ne_nil m.whole_ne_nil
            have hd : d.isDigit = true := m.whole_digits d (hwhole ▸ List.mem_cons_self)
            rw [Numeral.chars, hwhole, List.cons_append, List.cons_append] at hnumber
            rw [if_neg Bool.false_ne_true, Numeral.chars, hwhole, List.cons_append,
              List.cons_append, parseValue_digit hd, hnumber, Option.map_some, hnearest]

theorem stringifyElements_eq_map (elements : List Json) :
    stringifyElements elements = elements.map stringify := by
  induction elements with
  | nil => rfl
  | cons v rest ih => rw [stringifyElements, ih, List.map_cons]

theorem stringifyFields_eq_map (fields : List (String × Json)) :
    stringifyFields fields = fields.map fun p => quote p.1 ++ ":" ++ stringify p.2 := by
  induction fields with
  | nil => rfl
  | cons p rest ih => rw [stringifyFields, ih, List.map_cons]

/-- The first character of a text is no white space and closes nothing. -/
theorem head_stringify (v : Json) : ∃ c l, (stringify v).toList = c :: l ∧
    isJsonSpace c = false ∧ c ≠ ']' ∧ c ≠ '\x7d' := by
  cases v with
  | null => exact ⟨'n', _, rfl, by decide⟩
  | bool b =>
      cases b with
      | false => exact ⟨'f', _, rfl, by decide⟩
      | true => exact ⟨'t', _, rfl, by decide⟩
  | num n =>
      cases n with
      | infinity negative =>
          refine ⟨'n', ['u', 'l', 'l'], ?_, by decide⟩
          rw [stringify, Number.text]
          rfl
      | decimal negative digits exponent =>
          obtain ⟨c, l, htext, hc⟩ := Number.text_head negative digits exponent
          refine ⟨c, l, htext, ?_⟩
          obtain hc | rfl := hc
          · refine ⟨?_, ?_, ?_⟩
            · by_contra hspace
              simp only [isJsonSpace, Bool.not_eq_false, Bool.or_eq_true, decide_eq_true_eq]
                at hspace
              obtain ((rfl | rfl) | rfl) | rfl := hspace <;> exact absurd hc (by decide)
            · rintro rfl
              exact absurd hc (by decide)
            · rintro rfl
              exact absurd hc (by decide)
          · decide
  | str s =>
      rw [stringify, toList_quote]
      exact ⟨'"', _, rfl, by decide⟩
  | arr elements =>
      rw [stringify, String.toList_append, String.toList_append]
      exact ⟨'[', _, rfl, by decide⟩
  | obj fields =>
      rw [stringify, String.toList_append, String.toList_append]
      exact ⟨'\x7b', _, rfl, by decide⟩

theorem length_le_of_mem {texts : List String} {t : String} (h : t ∈ texts) :
    t.toList.length ≤ (joinWith "," texts).toList.length := by
  induction texts with
  | nil => cases h
  | cons s rest ih =>
      cases rest with
      | nil =>
          rw [List.mem_singleton.mp h]
          exact Nat.le_refl _
      | cons s' rest =>
          rw [toList_joinWith_cons _ _ (by simp), List.length_append, List.length_cons]
          obtain rfl | hrest := List.mem_cons.mp h
          · omega
          · have hle := ih hrest
            omega

theorem parseMember_append {value : List Char → Option (Json × List Char)} {name : String}
    {v w : Json} {rest : List Char}
    (h : value ((stringify v).toList ++ rest) = some (w, rest)) :
    parseMember value ((quote name ++ ":" ++ stringify v).toList ++ rest) =
      some ((name, w), rest) := by
  obtain ⟨c, l, hhead, hc, -⟩ := head_stringify v
  have hskip : skipSpace ((stringify v).toList ++ rest) = (stringify v).toList ++ rest := by
    rw [hhead, List.cons_append, skipSpace_cons hc]
  have htext : (quote name ++ ":" ++ stringify v).toList ++ rest =
      '"' :: (name.toList.flatMap quoteChar ++
        '"' :: ':' :: ((stringify v).toList ++ rest)) := by
    simp [String.toList_append, toList_quote]
  rw [htext, parseMember, if_pos rfl, parseString_quoted, Option.bind_some]
  simp only [skipSpace_cons (show isJsonSpace ':' = false from rfl), if_true, hskip, h,
    Option.map_some]

theorem Regular.element {elements : List Json} (h : Regular nearest (.arr elements)) :
    ∀ v ∈ elements, Regular nearest v := by
  induction elements with
  | nil =>
      intro v hv
      cases hv
  | cons w rest ih => exact List.forall_mem_cons.mpr ⟨h.1, ih h.2⟩

theorem RegularFields.value {fields : Fields} (h : RegularFields nearest fields) :
    ∀ p ∈ fields, Regular nearest p.2 := by
  induction fields with
  | nil =>
      intro p hp
      cases hp
  | cons q rest ih => exact List.forall_mem_cons.mpr ⟨h.1, ih h.2⟩

/-- A value is read up to the end of its text. The parts of a value have shorter texts, so
that the fuel suffices for them. -/
theorem parseValue_stringify {v : Json} (regular : Regular nearest v) (fuel : Nat)
    (hfuel : (stringify v).toList.length ≤ fuel) {rest : List Char} (stops : Stops rest) :
    parseValue nearest (fuel + 1) ((stringify v).toList ++ rest) = some (reparse v, rest) := by
  induction fuel generalizing v rest with
  | zero =>
      obtain ⟨c, l, hhead, -⟩ := head_stringify v
      simp [hhead] at hfuel
  | succ fuel ih =>
      cases v with
      | null => exact parseValue_word (Or.inl ⟨rfl, rfl⟩) (fuel + 1) rest
      | bool b =>
          cases b with
          | false => exact parseValue_word (Or.inr (Or.inr ⟨rfl, rfl⟩)) (fuel + 1) rest
          | true => exact parseValue_word (Or.inr (Or.inl ⟨rfl, rfl⟩)) (fuel + 1) rest
      | num n => exact parseValue_num regular (fuel + 1) stops
      | str s =>
          rw [stringify, toList_quote, List.cons_append, List.append_assoc,
            List.singleton_append, parseValue, if_pos rfl, parseString_quoted, Option.map_some,
            reparse]
      | arr elements =>
          have htext : (stringify (.arr elements)).toList =
              '[' :: ((joinWith "," (elements.map stringify)).toList ++ [']']) := by
            rw [stringify, String.toList_append, String.toList_append, stringifyElements_eq_map]
            rfl
          have hitems : ∀ v ∈ elements,
              ReadBy (parseValue nearest (fuel + 1)) (stringify v) (reparse v) := by
            intro v hv
            have hlength := length_le_of_mem (List.mem_map_of_mem (f := stringify) hv)
            rw [htext, List.length_cons, List.length_append, List.length_singleton] at hfuel
            exact ⟨head_stringify v, fun _ => ih (regular.element v hv) (by omega)⟩
          have hlist := parseList_joinWith (Or.inl rfl) hitems rest
          rw [htext, List.cons_append, List.append_assoc, List.singleton_append, parseValue,
            if_neg (by decide), if_pos rfl, hlist, Option.map_some, reparse,
            reparseElements_eq_map]
      | obj fields =>
          have htext : (stringify (.obj fields)).toList = '\x7b' :: ((joinWith ","
              (fields.map fun p => quote p.1 ++ ":" ++ stringify p.2)).toList ++ ['\x7d']) := by
            rw [stringify, String.toList_append, String.toList_append, stringifyFields_eq_map]
            rfl
          have hitems : ∀ p ∈ fields, ReadBy (parseMember (parseValue nearest (fuel + 1)))
              (quote p.1 ++ ":" ++ stringify p.2) (p.1, reparse p.2) := by
            intro p hp
            have hlength := length_le_of_mem
              (List.mem_map_of_mem (f := fun p => quote p.1 ++ ":" ++ stringify p.2) hp)
            rw [htext, List.length_cons, List.length_append, List.length_singleton] at hfuel
            rw [String.toList_append, String.toList_append, List.length_append,
              List.length_append] at hlength
            refine ⟨⟨'"', _, by rw [String.toList_append, String.toList_append, toList_quote]; rfl,
              by decide⟩, fun rest stops => ?_⟩
            exact parseMember_append (ih (regular.2.value p hp) (by omega) stops)
          have hlist := parseList_joinWith (Or.inr rfl) hitems rest
          have hmembers : Fields.ofMembers (fields.map fun p => (p.1, reparse p.2)) =
              reparseFields fields := by
            rw [← reparseFields_eq_map]
            exact Fields.ofMembers_of_ordered (ordered_reparseFields regular.1)
          rw [htext, List.cons_append, List.append_assoc, List.singleton_append, parseValue,
            if_neg (by decide), if_neg (by decide), if_pos rfl, hlist, Option.map_some, hmembers,
            reparse_obj]

/-- `JSON.parse(JSON.stringify(value))`. -/
theorem parse_stringify {v : Json} (regular : Regular nearest v) :
    parse nearest (stringify v) = some (reparse v) := by
  obtain ⟨c, l, hhead, hc, -⟩ := head_stringify v
  have hskip : skipSpace (stringify v).toList = (stringify v).toList := by
    rw [hhead, skipSpace_cons hc]
  have hvalue := parseValue_stringify regular (stringify v).toList.length (Nat.le_refl _)
    stops_nil
  rw [List.append_nil] at hvalue
  simp only [parse, hskip, hvalue]
  rfl

end values

end Js
