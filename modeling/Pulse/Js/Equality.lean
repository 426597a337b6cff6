import Pulse.Js.Numeral
import Pulse.Js.Serialization

/-!
# JSON equality and property lists

Two JSON values are the same when they differ at most in the order of object
properties. `reparseWith` is what `JSON.parse` reads from a text that was written
with a property list. Two texts written with one list are equal exactly when the
values read from them are the same, so a list loses a difference exactly when it
loses it in the values.
-/

namespace Js

/-- Equality of JSON values: the order of properties does not matter, the order of elements does. -/
inductive Same : Json → Json → Prop
  | null : Same .null .null
  | bool (b : Bool) : Same (.bool b) (.bool b)
  | num {m n : Number} (same : m.Same n) : Same (.num m) (.num n)
  | str (s : String) : Same (.str s) (.str s)
  | arr {xs ys : List Json} (length : xs.length = ys.length)
      (same : ∀ (i : Nat) (v w : Json), xs[i]? = some v → ys[i]? = some w → Same v w) :
      Same (.arr xs) (.arr ys)
  | obj {p q : Fields} (keys : ∀ name, name ∈ p.keys ↔ name ∈ q.keys)
      (same : ∀ (name : String) (v w : Json),
        p.get? name = some v → q.get? name = some w → Same v w) :
      Same (.obj p) (.obj q)

mutual

/-- A value as `JSON.parse` makes it: numbers in shortest form, and no property twice. -/
def Json.Parsed : Json → Prop
  | .num n => n.Normal
  | .arr elements => AllParsed elements
  | .obj fields => (Fields.keys fields).Nodup ∧ AllFieldsParsed fields
  | _ => True

def AllParsed : List Json → Prop
  | [] => True
  | v :: rest => v.Parsed ∧ AllParsed rest

def AllFieldsParsed : List (String × Json) → Prop
  | [] => True
  | (_, v) :: rest => v.Parsed ∧ AllFieldsParsed rest

end

theorem AllParsed.mem {elements : List Json} (h : AllParsed elements) :
    ∀ v ∈ elements, v.Parsed := by
  induction elements with
  | nil => exact fun v hv => absurd hv List.not_mem_nil
  | cons v rest ih => exact List.forall_mem_cons.mpr ⟨h.1, ih h.2⟩

theorem AllFieldsParsed.get? {fields : Fields} (h : AllFieldsParsed fields) {name : String}
    {v : Json} (hv : fields.get? name = some v) : v.Parsed := by
  induction fields with
  | nil => cases hv
  | cons property rest ih =>
      obtain ⟨k, w⟩ := property
      rw [Fields.get?] at hv
      split at hv
      · cases hv
        exact h.1
      · exact ih h.2 hv

theorem Number.Same.refl (n : Number) : n.Same n := by
  cases n <;> rfl

theorem Same.refl (v : Json) : Same v v := by
  refine Json.induction (P := fun v => Same v v) .null .bool (fun n => .num (.refl n)) .str ?_ ?_ v
  · intro elements h
    refine .arr rfl ?_
    intro i v w hv hw
    rw [hv, Option.some.injEq] at hw
    exact hw ▸ h v (List.mem_of_getElem? hv)
  · intro fields h
    refine .obj (fun _ => Iff.rfl) ?_
    intro name v w hv hw
    rw [hv, Option.some.injEq] at hw
    exact hw ▸ h (name, v) (mem_of_get? hv)

theorem same_str_iff {s t : String} : Same (.str s) (.str t) ↔ s = t := by
  constructor
  · intro h
    cases h
    rfl
  · rintro rfl
    exact .str s

section reparse

/-- What a plain object yields for a selected name that it has no property of. -/
def inheritedValue (name : String) : Option Json :=
  if name = "__proto__" then some (.obj [("__proto__", .null)]) else none

/-- The value of a selected name, as the text has it. -/
def selected (fields : Fields) (name : String) : Option Json :=
  (fields.get? name).or (inheritedValue name)

/-- The properties of an object under a property list. -/
def selectFields (names : List String) (fields : Fields) : Fields :=
  names.filterMap fun name => (selected fields name).map fun v => (name, v)

mutual

/-- `JSON.parse(JSON.stringify(value, names))` for a list of property names. -/
def reparseWith (names : List String) : Json → Json
  | .null => .null
  | .bool b => .bool b
  | .num n => n.reread
  | .str s => .str s
  | .arr elements => .arr (reparseElementsWith names elements)
  | .obj fields => .obj (selectFields names (reparseFieldsWith names fields))

def reparseElementsWith (names : List String) : List Json → List Json
  | [] => []
  | v :: rest => reparseWith names v :: reparseElementsWith names rest

def reparseFieldsWith (names : List String) : List (String × Json) → List (String × Json)
  | [] => []
  | (k, v) :: rest => (k, reparseWith names v) :: reparseFieldsWith names rest

end

theorem reparseElementsWith_eq_map (names : List String) (elements : List Json) :
    reparseElementsWith names elements = elements.map (reparseWith names) := by
  induction elements with
  | nil => rfl
  | cons v rest ih => rw [reparseElementsWith, ih, List.map_cons]

theorem get?_reparseFieldsWith (names : List String) (fields : Fields) (name : String) :
    Fields.get? (reparseFieldsWith names fields) name =
      (fields.get? name).map (reparseWith names) := by
  induction fields with
  | nil => rfl
  | cons property rest ih =>
      rw [reparseFieldsWith, Fields.get?_cons, Fields.get?, ih]
      split <;> rfl

theorem get?_selectFields (names : List String) (fields : Fields) (name : String) :
    (selectFields names fields).get? name =
      if name ∈ names then selected fields name else none := by
  induction names with
  | nil => rfl
  | cons n rest ih =>
      rw [selectFields, List.filterMap_cons]
      cases hn : selected fields n with
      | none =>
          rw [Option.map_none]
          refine ih.trans ?_
          by_cases heq : name = n
          · subst heq
            simp [hn]
          · simp [heq]
      | some v =>
          rw [Option.map_some, Fields.get?_cons]
          by_cases heq : n = name
          · subst heq
            simp [hn]
          · rw [if_neg heq]
            refine ih.trans ?_
            have hne : name ≠ n := fun h => heq h.symm
            simp [hne]

theorem filterMap_singleton {α : Type} {names : List String} (nodup : names.Nodup) {name : String}
    (mem : name ∈ names) (a : α) :
    names.filterMap (fun n => if n = name then some a else none) = [a] := by
  induction names with
  | nil => cases mem
  | cons n rest ih =>
      obtain ⟨hn, hrest⟩ := List.nodup_cons.mp nodup
      rw [List.filterMap_cons]
      by_cases heq : n = name
      · have hnone : rest.filterMap (fun n => if n = name then some a else none) = [] := by
          rw [List.filterMap_eq_nil_iff]
          intro n' hn'
          rw [if_neg]
          rintro rfl
          exact hn (heq ▸ hn')
        rw [if_pos heq, hnone]
      · rw [if_neg heq]
        exact ih hrest ((List.mem_cons.mp mem).resolve_left fun h => heq h.symm)

/-- The inherited value is there with its own property as soon as its name is selected. -/
theorem selected_inherited (name : String) :
    selected [("__proto__", .null)] name = if name = "__proto__" then some .null else none := by
  rw [selected, Fields.get?_cons, Fields.get?_nil]
  by_cases h : name = "__proto__"
  · simp [h]
  · have h' : "__proto__" ≠ name := fun heq => h heq.symm
    simp [h, h', inheritedValue]

theorem reparseWith_inheritedValue {names : List String} (nodup : names.Nodup) {name : String}
    (mem : name ∈ names) :
    (inheritedValue name).map (reparseWith names) = inheritedValue name := by
  rw [inheritedValue]
  split
  · rename_i hname
    subst hname
    have hselect : selectFields names [("__proto__", .null)] = [("__proto__", .null)] := by
      rw [selectFields]
      simp only [selected_inherited]
      rw [← filterMap_singleton nodup mem ("__proto__", Json.null)]
      refine List.filterMap_congr fun n _ => ?_
      split
      · rename_i hn
        rw [hn, Option.map_some]
      · rfl
    rw [Option.map_some, reparseWith]
    simp only [reparseFieldsWith, reparseWith, hselect]
  · rfl

theorem selected_reparseFieldsWith {names : List String} (nodup : names.Nodup) (fields : Fields)
    {name : String} (mem : name ∈ names) :
    selected (reparseFieldsWith names fields) name =
      (selected fields name).map (reparseWith names) := by
  rw [selected, get?_reparseFieldsWith, selected, Option.map_or,
    reparseWith_inheritedValue nodup mem]

theorem inheritedText_eq {names : List String} (nodup : names.Nodup) {name : String}
    (mem : name ∈ names) :
    inheritedText name = (inheritedValue name).map (stringifyWith names) := by
  rw [inheritedText, inheritedValue]
  split
  · rename_i hname
    subst hname
    have hselect : selectedTexts names [("__proto__", .null)] =
        [quote "__proto__" ++ ":" ++ "null"] := by
      rw [← filterMap_singleton nodup mem (quote "__proto__" ++ ":" ++ "null"), selectedTexts]
      refine List.filterMap_congr fun n _ => ?_
      rw [find?_fieldTexts, propertyText, Fields.get?_cons, Fields.get?_nil]
      by_cases hn : n = "__proto__"
      · simp [hn, stringifyWith]
      · have hn' : "__proto__" ≠ n := fun h => hn h.symm
        simp [hn, hn', inheritedText]
    have htext : stringifyWith names (.obj [("__proto__", .null)]) =
        "\x7b" ++ joinWith "," (selectedTexts names [("__proto__", .null)]) ++ "\x7d" := by
      rw [stringifyWith]
      rfl
    rw [Option.map_some, htext, hselect]
    decide +kernel
  · rfl

/-- The text of a selected property is that of its value. -/
theorem selectedTexts_eq {names : List String} (nodup : names.Nodup) (fields : Fields) :
    selectedTexts names fields = names.filterMap fun name =>
      (selected fields name).map fun v => quote name ++ ":" ++ stringifyWith names v := by
  refine List.filterMap_congr fun name mem => ?_
  rw [find?_fieldTexts, propertyText, selected, inheritedText_eq nodup mem]
  cases fields.get? name with
  | none => simp [Function.comp_def]
  | some v => simp

end reparse

section text

/-- The first character of the text of a value, with `0` for any number. -/
def opening : Json → Char
  | .null => 'n'
  | .bool true => 't'
  | .bool false => 'f'
  | .num n => if n.isFinite then '0' else 'n'
  | .str _ => '"'
  | .arr _ => '['
  | .obj _ => '\x7b'

def openingOf (c : Char) : Char := if c.isDigit ∨ c = '-' then '0' else c

theorem stringifyWith_opening (names : List String) (v : Json) :
    ((stringifyWith names v).toList.head?).map openingOf = some (opening v) := by
  cases v with
  | null => exact (by decide : ("null".toList.head?).map openingOf = some 'n')
  | bool b =>
      cases b with
      | false => exact (by decide : ("false".toList.head?).map openingOf = some 'f')
      | true => exact (by decide : ("true".toList.head?).map openingOf = some 't')
  | num n =>
      cases n with
      | infinity negative => exact (by decide : ("null".toList.head?).map openingOf = some 'n')
      | decimal negative digits exponent =>
          obtain ⟨c, rest, htext, hc⟩ := Number.text_head negative digits exponent
          simp [stringifyWith, htext, openingOf, hc, opening, Number.isFinite]
  | str s => simp [stringifyWith, toList_quote, opening, openingOf]
  | arr elements => simp [stringifyWith, opening, openingOf]
  | obj fields => simp [stringifyWith, opening, openingOf]

theorem opening_of_text {names : List String} {v w : Json}
    (h : stringifyWith names v = stringifyWith names w) : opening v = opening w := by
  have hv := stringifyWith_opening names v
  rw [h, stringifyWith_opening names w] at hv
  exact (Option.some.inj hv).symm

theorem Same.opening {v w : Json} (h : Same v w) : Js.opening v = Js.opening w := by
  cases h with
  | num same =>
      rename_i m n
      cases m <;> cases n <;> first | rfl | cases same
  | _ => rfl

theorem opening_reparseWith (names : List String) (v : Json) :
    opening (reparseWith names v) = opening v := by
  cases v with
  | num n => cases n <;> rfl
  | _ => rfl

theorem quote_inj {s t : String} (h : quote s = quote t) : s = t := by
  have hlist := congrArg String.toList h
  simp only [toList_quote, List.cons.injEq, true_and] at hlist
  exact String.toList_inj.mp (quoted_inj hlist).1

theorem stringifyWith_ne_empty (names : List String) (v : Json) : stringifyWith names v ≠ "" := by
  intro h
  have hopening := stringifyWith_opening names v
  rw [h] at hopening
  cases hopening

theorem map_eq_map_iff {α β : Type} {f : α → β} {xs ys : List α} :
    xs.map f = ys.map f ↔ xs.length = ys.length ∧
      ∀ (i : Nat) (v w : α), xs[i]? = some v → ys[i]? = some w → f v = f w := by
  constructor
  · intro h
    refine ⟨by simpa using congrArg List.length h, ?_⟩
    intro i v w hv hw
    have hi := congrArg (·[i]?) h
    simpa [hv, hw] using hi
  · rintro ⟨hlength, h⟩
    refine List.ext_getElem (by simpa using hlength) fun i hi hi' => ?_
    rw [List.length_map] at hi hi'
    rw [List.getElem_map, List.getElem_map]
    exact h i _ _ (List.getElem?_eq_getElem hi) (List.getElem?_eq_getElem hi')

/-- Items which name their property are the same only if every property is. -/
theorem filterMap_property_inj {names : List String} (nodup : names.Nodup)
    {f g : String → Option String}
    (h : names.filterMap (fun name => (f name).map fun text => quote name ++ ":" ++ text) =
      names.filterMap fun name => (g name).map fun text => quote name ++ ":" ++ text) :
    ∀ name ∈ names, f name = g name := by
  have hlater : ∀ {name text : String} {rest : List String} {f : String → Option String},
      name ∉ rest → quote name ++ ":" ++ text ∉
        rest.filterMap fun name => (f name).map fun text => quote name ++ ":" ++ text := by
    intro name text rest f hname hmem
    obtain ⟨name', hname', hsome⟩ := List.mem_filterMap.mp hmem
    obtain ⟨text', -, htext⟩ := Option.map_eq_some_iff.mp hsome
    exact hname ((property_inj htext).1 ▸ hname')
  induction names with
  | nil => exact fun _ hname => absurd hname List.not_mem_nil
  | cons name rest ih =>
      obtain ⟨hname, hrest⟩ := List.nodup_cons.mp nodup
      rw [List.filterMap_cons, List.filterMap_cons] at h
      cases hf : f name with
      | none =>
          cases hg : g name with
          | none =>
              rw [hf, hg] at h
              exact List.forall_mem_cons.mpr ⟨hf.trans hg.symm, ih hrest h⟩
          | some text =>
              simp only [hf, hg, Option.map_none, Option.map_some] at h
              exact absurd (by rw [h]; exact List.mem_cons_self) (hlater (f := f) hname)
      | some text =>
          cases hg : g name with
          | none =>
              simp only [hf, hg, Option.map_none, Option.map_some] at h
              exact absurd (by rw [← h]; exact List.mem_cons_self) (hlater (f := g) hname)
          | some text' =>
              rw [hf, hg] at h
              obtain ⟨hitem, htail⟩ := List.cons.inj h
              obtain ⟨-, rfl⟩ := property_inj hitem
              exact List.forall_mem_cons.mpr ⟨hf.trans hg.symm, ih hrest htail⟩

end text

section faithful

/-- The text of a value tells it from all others, as far as the property list goes. -/
def Faithful (names : List String) (v : Json) : Prop :=
  ∀ w : Json, v.Parsed → w.Parsed →
    (stringifyWith names v = stringifyWith names w ↔
      Same (reparseWith names v) (reparseWith names w))

/-- Values of different kinds are told apart by the first character. -/
theorem faithful_of_opening {names : List String} {v : Json}
    (h : ∀ w : Json, v.Parsed → w.Parsed → opening v = opening w →
      (stringifyWith names v = stringifyWith names w ↔
        Same (reparseWith names v) (reparseWith names w))) : Faithful names v := by
  intro w hv hw
  constructor
  · intro htext
    exact (h w hv hw (opening_of_text htext)).mp htext
  · intro hsame
    have hopening := hsame.opening
    rw [opening_reparseWith, opening_reparseWith] at hopening
    exact (h w hv hw hopening).mpr hsame

theorem opening_eq_null {v : Json} (h : opening v = 'n') :
    v = .null ∨ ∃ b, v = .num (.infinity b) := by
  cases v with
  | null => exact Or.inl rfl
  | bool b => cases b <;> cases h
  | num n =>
      cases n with
      | infinity b => exact Or.inr ⟨b, rfl⟩
      | decimal => cases h
  | _ => cases h

theorem faithful_null (names : List String) : Faithful names .null := by
  refine faithful_of_opening fun w _ _ hopening => ?_
  rcases opening_eq_null hopening.symm with rfl | ⟨b, rfl⟩
  · exact iff_of_true rfl .null
  · exact iff_of_true rfl .null

theorem reread_same_iff {negative negative' : Bool} {digits digits' : Nat}
    {exponent exponent' : ℤ} :
    Same (Number.decimal negative digits exponent).reread
        (Number.decimal negative' digits' exponent').reread ↔
      (Number.decimal negative digits exponent).Same (.decimal negative' digits' exponent') := by
  have hvalue : ∀ (negative : Bool) (digits : Nat) (exponent : ℤ),
      (Number.decimal (negative && digits != 0) digits exponent).value =
        (Number.decimal negative digits exponent).value := by
    intro negative digits exponent
    by_cases hzero : digits = 0 <;> simp [Number.value, hzero]
  constructor
  · intro h
    cases h with
    | num same => rwa [Number.Same, hvalue, hvalue] at same
  · intro h
    refine .num ?_
    rwa [Number.Same, hvalue, hvalue]

theorem faithful_num (names : List String) (n : Number) : Faithful names (.num n) := by
  cases n with
  | infinity b =>
      refine faithful_of_opening fun w _ _ hopening => ?_
      rcases opening_eq_null hopening.symm with rfl | ⟨b, rfl⟩
      · exact iff_of_true rfl .null
      · exact iff_of_true rfl .null
  | decimal negative digits exponent =>
      refine faithful_of_opening fun w hv hw hopening => ?_
      cases w with
      | num n' =>
          cases n' with
          | infinity => cases hopening
          | decimal negative' digits' exponent' =>
              rw [Json.Parsed] at hv hw
              exact (Number.text_eq_iff hv hw rfl rfl).trans reread_same_iff.symm
      | bool b => cases b <;> cases hopening
      | _ => cases hopening

theorem faithful_bool (names : List String) (b : Bool) : Faithful names (.bool b) := by
  refine faithful_of_opening fun w _ _ hopening => ?_
  cases w with
  | bool b' =>
      have hb : b = b' := by
        cases b <;> cases b' <;> first | rfl | cases hopening
      subst hb
      exact iff_of_true rfl (.bool b)
  | num n => cases b <;> cases n <;> cases hopening
  | _ => cases b <;> cases hopening

theorem faithful_str (names : List String) (s : String) : Faithful names (.str s) := by
  refine faithful_of_opening fun w _ _ hopening => ?_
  cases w with
  | str s' =>
      refine Iff.trans ⟨fun h => quote_inj h, fun h => ?_⟩ same_str_iff.symm
      rw [h]
  | bool b => cases b <;> cases hopening
  | num n => cases n <;> cases hopening
  | _ => cases hopening

theorem faithful_arr {names : List String} {elements : List Json}
    (h : ∀ v ∈ elements, Faithful names v) : Faithful names (.arr elements) := by
  refine faithful_of_opening fun w hv hw hopening => ?_
  cases w with
  | arr elements' =>
      rw [Json.Parsed] at hv hw
      have htexts : stringifyWith names (.arr elements) = stringifyWith names (.arr elements') ↔
          elements.map (stringifyWith names) = elements'.map (stringifyWith names) := by
        have hitems : ∀ elements : List Json, ∀ t ∈ elementTexts names elements,
            Passes 0 t.toList ∧ t ≠ "" := by
          intro elements t ht
          rw [elementTexts_eq_map, List.mem_map] at ht
          obtain ⟨v, -, rfl⟩ := ht
          exact ⟨passes_stringifyWith names v, stringifyWith_ne_empty names v⟩
        rw [stringifyWith, stringifyWith, ← elementTexts_eq_map, ← elementTexts_eq_map]
        constructor
        · intro htext
          have hlist := congrArg String.toList htext
          simp only [String.toList_append] at hlist
          exact joinWith_inj (hitems elements) (hitems elements') (String.toList_inj.mp
            (List.append_cancel_left (List.append_cancel_right hlist)))
        · intro heq
          rw [heq]
      rw [htexts, map_eq_map_iff, reparseWith, reparseWith, reparseElementsWith_eq_map,
        reparseElementsWith_eq_map]
      have hsame : ∀ (i : Nat) (v w : Json), elements[i]? = some v → elements'[i]? = some w →
          (stringifyWith names v = stringifyWith names w ↔
            Same (reparseWith names v) (reparseWith names w)) := by
        intro i v w hi hi'
        exact h v (List.mem_of_getElem? hi) w (hv.mem v (List.mem_of_getElem? hi))
          (hw.mem w (List.mem_of_getElem? hi'))
      constructor
      · rintro ⟨hlength, htext⟩
        refine .arr (by simpa using hlength) ?_
        intro i v w hi hi'
        rw [List.getElem?_map, Option.map_eq_some_iff] at hi hi'
        obtain ⟨v, hi, rfl⟩ := hi
        obtain ⟨w, hi', rfl⟩ := hi'
        exact (hsame i v w hi hi').mp (htext i v w hi hi')
      · intro hall
        cases hall with
        | arr length same =>
            refine ⟨by simpa using length, ?_⟩
            intro i v w hi hi'
            refine (hsame i v w hi hi').mpr (same i _ _ ?_ ?_)
            · rw [List.getElem?_map, hi, Option.map_some]
            · rw [List.getElem?_map, hi', Option.map_some]
  | bool b => cases b <;> cases hopening
  | num n => cases n <;> cases hopening
  | _ => cases hopening

theorem parsed_selected {fields : Fields} (h : AllFieldsParsed fields) {name : String} {v : Json}
    (hv : selected fields name = some v) : v.Parsed := by
  rw [selected, Option.or_eq_some_iff] at hv
  rcases hv with hv | ⟨-, hv⟩
  · exact h.get? hv
  · rw [inheritedValue] at hv
    split at hv
    · cases hv
      simp [Json.Parsed, AllFieldsParsed, Fields.keys]
    · cases hv

/-- A property of what is read back from an object. -/
theorem get?_reparsed {names : List String} (nodup : names.Nodup) (fields : Fields)
    (name : String) :
    (selectFields names (reparseFieldsWith names fields)).get? name =
      if name ∈ names then (selected fields name).map (reparseWith names) else none := by
  rw [get?_selectFields]
  split
  · rename_i hname
    exact selected_reparseFieldsWith nodup fields hname
  · rfl

theorem mem_keys_reparsed {names : List String} (nodup : names.Nodup) (fields : Fields)
    (name : String) : name ∈ (selectFields names (reparseFieldsWith names fields)).keys ↔
      name ∈ names ∧ (selected fields name).isSome := by
  rw [← get?_isSome_iff, get?_reparsed nodup]
  by_cases hname : name ∈ names <;> simp [hname]

/-- Two objects read back are the same if the selected properties are. -/
theorem same_reparsed_iff {names : List String} (nodup : names.Nodup) {p q : Fields} :
    Same (reparseWith names (.obj p)) (reparseWith names (.obj q)) ↔
      ∀ name ∈ names, ((selected p name).isSome ↔ (selected q name).isSome) ∧
        ∀ v w, selected p name = some v → selected q name = some w →
          Same (reparseWith names v) (reparseWith names w) := by
  rw [reparseWith, reparseWith]
  have hkeys := mem_keys_reparsed nodup
  constructor
  · intro h name hname
    cases h with
    | obj keys same =>
        refine ⟨?_, ?_⟩
        · have hname' := keys name
          rwa [hkeys, hkeys, and_iff_right hname, and_iff_right hname] at hname'
        · intro v w hv hw
          refine same name _ _ ?_ ?_
          · rw [get?_reparsed nodup, if_pos hname, hv, Option.map_some]
          · rw [get?_reparsed nodup, if_pos hname, hw, Option.map_some]
  · intro h
    refine .obj (fun name => ?_) ?_
    · rw [hkeys, hkeys]
      exact and_congr_right fun hname => (h name hname).1
    · intro name v w hv hw
      rw [get?_reparsed nodup] at hv hw
      by_cases hname : name ∈ names
      · rw [if_pos hname, Option.map_eq_some_iff] at hv hw
        obtain ⟨v, hv, rfl⟩ := hv
        obtain ⟨w, hw, rfl⟩ := hw
        exact (h name hname).2 v w hv hw
      · rw [if_neg hname] at hv
        cases hv

/-- Two objects have the same text if the selected properties have. -/
theorem stringifyWith_obj_iff {names : List String} (nodup : names.Nodup) {p q : Fields} :
    stringifyWith names (.obj p) = stringifyWith names (.obj q) ↔
      ∀ name ∈ names, (selected p name).map (stringifyWith names) =
        (selected q name).map (stringifyWith names) := by
  have hmap : ∀ fields : Fields, selectedTexts names fields = names.filterMap fun name =>
      ((selected fields name).map (stringifyWith names)).map
        fun text => quote name ++ ":" ++ text := by
    intro fields
    rw [selectedTexts_eq nodup]
    refine List.filterMap_congr fun name _ => ?_
    rw [Option.map_map]
    rfl
  have hitems : ∀ fields : Fields, ∀ t ∈ selectedTexts names fields,
      Passes 0 t.toList ∧ t ≠ "" := by
    intro fields t ht
    refine ⟨passes_selectedTexts (fun property _ => passes_stringifyWith names property.2) t ht, ?_⟩
    rintro rfl
    rw [hmap, List.mem_filterMap] at ht
    obtain ⟨name, -, hname⟩ := ht
    obtain ⟨text, -, htext⟩ := Option.map_eq_some_iff.mp hname
    have hlist := congrArg String.toList htext
    simp [toList_quote] at hlist
  have htexts : ∀ fields : Fields, stringifyWith names (.obj fields) =
      "\x7b" ++ joinWith "," (selectedTexts names fields) ++ "\x7d" := by
    intro fields
    rw [stringifyWith]
    rfl
  rw [htexts, htexts]
  constructor
  · intro h
    have hlist := congrArg String.toList h
    simp only [String.toList_append] at hlist
    have hselected := joinWith_inj (hitems p) (hitems q) (String.toList_inj.mp
      (List.append_cancel_left (List.append_cancel_right hlist)))
    rw [hmap, hmap] at hselected
    exact filterMap_property_inj nodup hselected
  · intro h
    have hselected : selectedTexts names p = selectedTexts names q := by
      rw [hmap, hmap]
      exact List.filterMap_congr fun name hname => by rw [h name hname]
    rw [hselected]

theorem faithful_obj_of_selected {names : List String} (nodup : names.Nodup) {fields : Fields}
    (h : ∀ name ∈ names, ∀ v, selected fields name = some v → Faithful names v) :
    Faithful names (.obj fields) := by
  refine faithful_of_opening fun w hv hw hopening => ?_
  cases w with
  | obj fields' =>
      rw [Json.Parsed] at hv hw
      rw [stringifyWith_obj_iff nodup, same_reparsed_iff nodup]
      refine forall₂_congr fun name hname => ?_
      cases hp : selected fields name with
      | none =>
          cases hq : selected fields' name with
          | none => simp
          | some w => simp
      | some v =>
          cases hq : selected fields' name with
          | none => simp
          | some w =>
              have hsame := h name hname v hp w (parsed_selected hv.2 hp) (parsed_selected hw.2 hq)
              simp [hsame]
  | bool b => cases b <;> cases hopening
  | num n => cases n <;> cases hopening
  | _ => cases hopening

/-- Under one property list two texts are equal exactly when the values read back from them are
the same. -/
theorem faithful {names : List String} (nodup : names.Nodup) : ∀ v, Faithful names v := by
  have hinherited : ∀ name v, inheritedValue name = some v → Faithful names v := by
    intro name v hv
    rw [inheritedValue] at hv
    split at hv
    · cases hv
      refine faithful_obj_of_selected nodup fun name' _ v hv => ?_
      rw [selected_inherited] at hv
      split at hv
      · cases hv
        exact faithful_null names
      · cases hv
    · cases hv
  refine Json.induction (faithful_null names) (faithful_bool names) (faithful_num names)
    (faithful_str names) (fun _ => faithful_arr) fun fields h => ?_
  refine faithful_obj_of_selected nodup fun name _ v hv => ?_
  rw [selected, Option.or_eq_some_iff] at hv
  rcases hv with hv | ⟨-, hv⟩
  · exact h (name, v) (mem_of_get? hv)
  · exact hinherited name v hv

end faithful

section keys

/-- Objects with the same property names have them in the same sorted order. -/
theorem sortedKeys_eq {p q : Fields} (nodup : p.keys.Nodup) (nodup' : q.keys.Nodup)
    (h : ∀ name, name ∈ p.keys ↔ name ∈ q.keys) : sortedKeys p = sortedKeys q :=
  insertionSort_eq_of_perm ((List.perm_ext_iff_of_nodup nodup nodup').mpr h)

theorem sortedKeys_nodup {p : Fields} (nodup : p.keys.Nodup) : (sortedKeys p).Nodup :=
  (List.perm_insertionSort le p.keys).nodup_iff.mpr nodup

/-- Equal values are read back equal. -/
theorem Same.reparseWith {names : List String} (nodup : names.Nodup) {v w : Json}
    (h : Same v w) : Same (Js.reparseWith names v) (Js.reparseWith names w) := by
  induction h with
  | null => exact .null
  | bool b => exact .bool b
  | str s => exact .str s
  | num same =>
      rename_i m n
      cases m <;> cases n
      · exact reread_same_iff.mpr same
      · cases same
      · cases same
      · exact .null
  | arr length same ih =>
      rw [Js.reparseWith, Js.reparseWith, reparseElementsWith_eq_map, reparseElementsWith_eq_map]
      refine .arr (by simpa using length) ?_
      intro i v w hi hi'
      rw [List.getElem?_map, Option.map_eq_some_iff] at hi hi'
      obtain ⟨v, hi, rfl⟩ := hi
      obtain ⟨w, hi', rfl⟩ := hi'
      exact ih i v w hi hi'
  | obj keys same ih =>
      rename_i p q
      rw [same_reparsed_iff nodup]
      intro name _
      have hisSome := keys name
      rw [← get?_isSome_iff, ← get?_isSome_iff] at hisSome
      cases hp : p.get? name with
      | none =>
          have hq : q.get? name = none := by
            rw [hp] at hisSome
            simpa using hisSome
          have hsame : selected p name = selected q name := by rw [selected, selected, hp, hq]
          refine ⟨by rw [hsame], ?_⟩
          intro v w hv hw
          rw [hsame, hw, Option.some.injEq] at hv
          subst hv
          exact .refl _
      | some v =>
          obtain ⟨w, hw⟩ := Option.isSome_iff_exists.mp (hisSome.mp (by rw [hp]; rfl))
          simp only [selected, hp, hw, Option.some_or, Option.isSome_some, true_and]
          rintro _ _ ⟨⟩ ⟨⟩
          exact ih name v w hp hw

/-- Two objects written with their own property names: the texts are equal exactly when what is
read back from them is the same. -/
theorem stringifyWith_sortedKeys_iff {p q : Fields} (hp : (Json.obj p).Parsed)
    (hq : (Json.obj q).Parsed) :
    stringifyWith (sortedKeys p) (.obj p) = stringifyWith (sortedKeys q) (.obj q) ↔
      Same (reparseWith (sortedKeys p) (.obj p)) (reparseWith (sortedKeys q) (.obj q)) := by
  have hfaithful : sortedKeys p = sortedKeys q →
      (stringifyWith (sortedKeys p) (.obj p) = stringifyWith (sortedKeys q) (.obj q) ↔
        Same (reparseWith (sortedKeys p) (.obj p)) (reparseWith (sortedKeys q) (.obj q))) := by
    intro h
    have hnodup := hp
    rw [Json.Parsed] at hnodup
    rw [← h]
    exact faithful (sortedKeys_nodup hnodup.1) (.obj p) (.obj q) hp hq
  have hown : ∀ {fields : Fields}, (Json.obj fields).Parsed → ∀ name,
      name ∈ (selectFields (sortedKeys fields)
        (reparseFieldsWith (sortedKeys fields) fields)).keys ↔ name ∈ fields.keys := by
    intro fields h name
    rw [Json.Parsed] at h
    rw [mem_keys_reparsed (sortedKeys_nodup h.1), mem_sortedKeys, and_iff_left_iff_imp]
    intro hname
    obtain ⟨v, hv⟩ := Option.isSome_iff_exists.mp (get?_isSome_iff.mpr hname)
    simp [selected, hv]
  constructor
  · intro h
    exact (hfaithful (stringifyWith_sortedKeys_inj h).1).mp h
  · intro h
    refine (hfaithful ?_).mpr h
    have hnodup := hp
    have hnodup' := hq
    rw [Json.Parsed] at hnodup hnodup'
    rw [reparseWith, reparseWith] at h
    cases h with
    | obj keys same =>
        refine sortedKeys_eq hnodup.1 hnodup'.1 fun name => ?_
        have hname := keys name
        rwa [hown hp, hown hq] at hname

/-- The same payload has the same text, in whatever order its properties are. -/
theorem Same.reparseWith_sortedKeys {p q : Fields} (hp : (Json.obj p).Parsed)
    (hq : (Json.obj q).Parsed) (h : Same (.obj p) (.obj q)) :
    Same (Js.reparseWith (sortedKeys p) (.obj p)) (Js.reparseWith (sortedKeys q) (.obj q)) := by
  rw [Json.Parsed] at hp hq
  have hkeys : sortedKeys p = sortedKeys q := by
    cases h with
    | obj keys same => exact sortedKeys_eq hp.1 hq.1 keys
  rw [← hkeys]
  exact h.reparseWith (sortedKeys_nodup hp.1)

end keys

section finite

mutual

/-- Every number in the value is finite. -/
def Json.AllFinite : Json → Prop
  | .num n => n.isFinite = true
  | .arr elements => ElementsFinite elements
  | .obj fields => FieldsFinite fields
  | _ => True

def ElementsFinite : List Json → Prop
  | [] => True
  | v :: rest => v.AllFinite ∧ ElementsFinite rest

def FieldsFinite : List (String × Json) → Prop
  | [] => True
  | (_, v) :: rest => v.AllFinite ∧ FieldsFinite rest

end

theorem ElementsFinite.mem {elements : List Json} (h : ElementsFinite elements) :
    ∀ v ∈ elements, v.AllFinite := by
  induction elements with
  | nil => exact fun v hv => absurd hv List.not_mem_nil
  | cons v rest ih => exact List.forall_mem_cons.mpr ⟨h.1, ih h.2⟩

theorem FieldsFinite.mem {fields : Fields} (h : FieldsFinite fields) :
    ∀ property ∈ fields, property.2.AllFinite := by
  induction fields with
  | nil => exact fun v hv => absurd hv List.not_mem_nil
  | cons property rest ih => exact List.forall_mem_cons.mpr ⟨h.1, ih h.2⟩

theorem FieldsFinite.get? {fields : Fields} (h : FieldsFinite fields) {name : String} {v : Json}
    (hv : fields.get? name = some v) : v.AllFinite :=
  h.mem (name, v) (mem_of_get? hv)

theorem keys_reparseFields (fields : Fields) :
    Fields.keys (reparseFields fields) = fields.keys := by
  induction fields with
  | nil => rfl
  | cons property rest ih => exact congrArg (property.1 :: ·) ih

/-- A value without infinities is read back from its text. -/
theorem same_reparse : ∀ v : Json, v.AllFinite → Same v (reparse v) := by
  refine Json.induction (fun _ => .null) (fun b _ => .bool b) ?_ (fun s _ => .str s) ?_ ?_
  · intro n h
    rw [Json.AllFinite] at h
    cases n with
    | infinity => cases h
    | decimal negative digits exponent =>
        refine .num ?_
        by_cases hzero : digits = 0 <;> simp [Number.Same, Number.value, hzero]
  · intro elements ih h
    rw [Json.AllFinite] at h
    rw [reparse, reparseElements_eq_map]
    refine .arr (by simp) ?_
    intro i v w hv hw
    rw [List.getElem?_map, hv, Option.map_some, Option.some.injEq] at hw
    subst hw
    exact ih v (List.mem_of_getElem? hv) (h.mem v (List.mem_of_getElem? hv))
  · intro fields ih h
    rw [Json.AllFinite] at h
    rw [reparse]
    refine .obj (fun name => by rw [keys_reparseFields]) ?_
    intro name v w hv hw
    rw [get?_reparseFields, hv, Option.map_some, Option.some.injEq] at hw
    subst hw
    exact ih (name, v) (mem_of_get? hv) (h.get? hv)

end finite

end Js
