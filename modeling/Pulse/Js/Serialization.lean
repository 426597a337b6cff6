import Pulse.Js.Scan

/-!
# Reading JSON objects back

The text of an object under a property list determines the listed properties and
the texts of their values. Under its own property names a flat object is therefore
determined by its text.
-/

namespace Js

section unquote

def hexValue (c : Char) : Nat := "0123456789abcdef".toList.idxOf c

/-- The character behind an escape. -/
def unescape (c : Char) : Char :=
  if c = 'b' then Char.ofNat 0x8
  else if c = 'f' then Char.ofNat 0xC
  else if c = 'n' then '\n'
  else if c = 'r' then '\r'
  else if c = 't' then '\t'
  else c

/-- Read one character of a string. -/
def unquoteChar : List Char → Option (Char × List Char)
  | [] => none
  | c :: rest =>
      if c = '\\' then
        match rest with
        | [] => none
        | e :: rest =>
            if e = 'u' then
              match rest with
              | _ :: _ :: a :: b :: rest =>
                  some (Char.ofNat (16 * hexValue a + hexValue b), rest)
              | _ => none
            else some (unescape e, rest)
      else some (c, rest)

theorem hexValue_hexDigit : ∀ n < 16, hexValue (hexDigit n) = n := by decide

theorem unquoteChar_quoteChar (c : Char) (rest : List Char) :
    unquoteChar (quoteChar c ++ rest) = some (c, rest) := by
  rw [quoteChar]
  split_ifs with hquote hslash hb hf hn hr ht hcontrol
  · rw [hquote]
    rfl
  · rw [hslash]
    rfl
  · rw [← Char.ofNat_toNat c, hb]
    rfl
  · rw [← Char.ofNat_toNat c, hf]
    rfl
  · rw [hn]
    rfl
  · rw [hr]
    rfl
  · rw [ht]
    rfl
  · have hhigh := hexValue_hexDigit (c.toNat / 16) (by omega)
    have hlow := hexValue_hexDigit (c.toNat % 16) (by omega)
    simp only [List.cons_append, List.nil_append, unquoteChar, if_true, hhigh, hlow,
      Nat.div_add_mod, Char.ofNat_toNat]
  · simp [unquoteChar, hslash]

theorem quoteChar_head (c : Char) : ∃ a l, quoteChar c = a :: l ∧ a ≠ '"' := by
  rw [quoteChar]
  split_ifs with hquote
  · exact ⟨_, _, rfl, by decide⟩
  · exact ⟨_, _, rfl, by decide⟩
  · exact ⟨_, _, rfl, by decide⟩
  · exact ⟨_, _, rfl, by decide⟩
  · exact ⟨_, _, rfl, by decide⟩
  · exact ⟨_, _, rfl, by decide⟩
  · exact ⟨_, _, rfl, by decide⟩
  · exact ⟨_, _, rfl, by decide⟩
  · exact ⟨_, _, rfl, hquote⟩

/-- A quoted string is known by its text, and ends with it. -/
theorem quoted_inj {l l' rest rest' : List Char}
    (h : l.flatMap quoteChar ++ '"' :: rest = l'.flatMap quoteChar ++ '"' :: rest') :
    l = l' ∧ rest = rest' := by
  have hend : ∀ {c : Char} {l rest rest' : List Char},
      '"' :: rest ≠ (c :: l).flatMap quoteChar ++ '"' :: rest' := by
    intro c l rest rest' h
    obtain ⟨a, t, hc, ha⟩ := quoteChar_head c
    rw [List.flatMap_cons, hc, List.cons_append, List.cons_append, List.cons.injEq] at h
    exact ha h.1.symm
  induction l generalizing l' with
  | nil =>
      cases l' with
      | nil =>
          cases h
          exact ⟨rfl, rfl⟩
      | cons c' l' => exact absurd h hend
  | cons c l ih =>
      cases l' with
      | nil => exact absurd h.symm hend
      | cons c' l' =>
          rw [List.flatMap_cons, List.flatMap_cons, List.append_assoc, List.append_assoc] at h
          have hchar := congrArg unquoteChar h
          rw [unquoteChar_quoteChar, unquoteChar_quoteChar, Option.some.injEq,
            Prod.mk.injEq] at hchar
          obtain ⟨rfl, hrest⟩ := hchar
          obtain ⟨rfl, hbehind⟩ := ih hrest
          exact ⟨rfl, hbehind⟩

/-- A property is known by its text. -/
theorem property_inj {name name' text text' : String}
    (h : quote name ++ ":" ++ text = quote name' ++ ":" ++ text') :
    name = name' ∧ text = text' := by
  have hlist := congrArg String.toList h
  simp only [String.toList_append, toList_quote, List.cons_append, List.append_assoc,
    List.cons.injEq, true_and] at hlist
  obtain ⟨hname, hrest⟩ := quoted_inj hlist
  exact ⟨String.toList_inj.mp hname, String.toList_inj.mp (List.append_cancel_left hrest)⟩

end unquote

section object

/-- The text of a property; an absent one has none. -/
def propertyText (names : List String) (fields : Fields) (name : String) : Option String :=
  (fields.get? name).map (stringifyWith names)

theorem find?_fieldTexts (names : List String) (fields : Fields) (name : String) :
    ((fieldTexts names fields).find? (fun t => t.1 = name)).map Prod.snd =
      propertyText names fields name := by
  induction fields with
  | nil => rfl
  | cons property rest ih =>
      obtain ⟨k, v⟩ := property
      rw [fieldTexts, propertyText, Fields.get?]
      by_cases hk : k = name
      · simp [hk]
      · simp only [hk, decide_false, Bool.false_eq_true, not_false_eq_true,
          List.find?_cons_of_neg, if_false]
        exact ih

theorem get?_isSome_iff {fields : Fields} {name : String} :
    (fields.get? name).isSome ↔ name ∈ fields.keys := by
  induction fields with
  | nil => simp [Fields.get?, Fields.keys]
  | cons property rest ih =>
      obtain ⟨k, v⟩ := property
      rw [Fields.get?, Fields.keys, List.map_cons, List.mem_cons]
      by_cases hk : k = name
      · simp [hk]
      · have hname : name ≠ k := fun h => hk h.symm
        rw [if_neg hk]
        simp only [hname, false_or]
        exact ih

theorem mem_sortedKeys {fields : Fields} {name : String} :
    name ∈ sortedKeys fields ↔ name ∈ fields.keys :=
  (List.perm_insertionSort le fields.keys).mem_iff

/-- An object under its own property names. -/
theorem selectedTexts_sortedKeys (fields : Fields) :
    ∃ texts : String → String,
      selectedTexts (sortedKeys fields) fields =
          (sortedKeys fields).map (fun name => quote name ++ ":" ++ texts name) ∧
        ∀ name ∈ fields.keys, propertyText (sortedKeys fields) fields name = some (texts name) := by
  refine ⟨fun name => (propertyText (sortedKeys fields) fields name).getD "", ?_, ?_⟩
  · rw [selectedTexts, ← List.filterMap_eq_map]
    refine List.filterMap_congr fun name hname => ?_
    have hsome := get?_isSome_iff.mpr (mem_sortedKeys.mp hname)
    obtain ⟨v, hv⟩ := Option.isSome_iff_exists.mp hsome
    simp [find?_fieldTexts, propertyText, hv]
  · intro name hname
    obtain ⟨v, hv⟩ := Option.isSome_iff_exists.mp (get?_isSome_iff.mpr hname)
    simp [propertyText, hv]

theorem map_property_inj {names names' : List String} {texts texts' : String → String}
    (h : names.map (fun name => quote name ++ ":" ++ texts name) =
      names'.map (fun name => quote name ++ ":" ++ texts' name)) :
    names = names' ∧ ∀ name ∈ names, texts name = texts' name := by
  induction names generalizing names' with
  | nil =>
      cases names' with
      | nil => exact ⟨rfl, fun _ hname => absurd hname List.not_mem_nil⟩
      | cons name' rest' => exact absurd h.symm (List.cons_ne_nil _ _)
  | cons name rest ih =>
      cases names' with
      | nil => exact absurd h (List.cons_ne_nil _ _)
      | cons name' rest' =>
          rw [List.map_cons, List.map_cons, List.cons.injEq] at h
          obtain ⟨rfl, htext⟩ := property_inj h.1
          obtain ⟨rfl, htexts⟩ := ih h.2
          exact ⟨rfl, List.forall_mem_cons.mpr ⟨htext, htexts⟩⟩

/-- Two objects with the same text under their own sorted property names have the same
properties, and each has the same text in both. -/
theorem stringifyWith_sortedKeys_inj {p q : Fields}
    (h : stringifyWith (sortedKeys p) (.obj p) = stringifyWith (sortedKeys q) (.obj q)) :
    sortedKeys p = sortedKeys q ∧
      ∀ name, propertyText (sortedKeys p) p name = propertyText (sortedKeys q) q name := by
  obtain ⟨texts, hp, htexts⟩ := selectedTexts_sortedKeys p
  obtain ⟨texts', hq, htexts'⟩ := selectedTexts_sortedKeys q
  have hitems : ∀ fields : Fields, ∀ t ∈ selectedTexts (sortedKeys fields) fields,
      Passes 0 t.toList ∧ t ≠ "" := by
    intro fields t ht
    refine ⟨passes_selectedTexts (fun property _ => passes_stringifyWith _ property.2) t ht, ?_⟩
    rintro rfl
    obtain ⟨texts, hfields, -⟩ := selectedTexts_sortedKeys fields
    rw [hfields, List.mem_map] at ht
    obtain ⟨name, -, hname⟩ := ht
    have hlist := congrArg String.toList hname
    simp [toList_quote] at hlist
  have hjoined : joinWith "," (selectedTexts (sortedKeys p) p) =
      joinWith "," (selectedTexts (sortedKeys q) q) := by
    have hlist := congrArg String.toList h
    simp only [stringifyWith, String.toList_append] at hlist
    exact String.toList_inj.mp (List.append_cancel_left (List.append_cancel_right hlist))
  have hselected := joinWith_inj (hitems p) (hitems q) hjoined
  rw [hp, hq] at hselected
  obtain ⟨hkeys, hsame⟩ := map_property_inj hselected
  refine ⟨hkeys, fun name => ?_⟩
  by_cases hname : name ∈ p.keys
  · have hname' : name ∈ q.keys := mem_sortedKeys.mp (hkeys ▸ mem_sortedKeys.mpr hname)
    rw [htexts name hname, htexts' name hname', hsame name (mem_sortedKeys.mpr hname)]
  · have hname' : name ∉ q.keys := fun hq =>
      hname (mem_sortedKeys.mp (hkeys ▸ mem_sortedKeys.mpr hq))
    have habsent : ∀ {fields : Fields}, name ∉ fields.keys → fields.get? name = none := by
      intro fields hnot
      rw [← Option.not_isSome_iff_eq_none, get?_isSome_iff]
      exact hnot
    rw [propertyText, propertyText, habsent hname, habsent hname']
    rfl

end object

section flat

mutual

/-- The value is an object, or an array with one somewhere below. -/
def containsObject : Json → Bool
  | .obj _ => true
  | .arr elements => anyContainsObject elements
  | _ => false

def anyContainsObject : List Json → Bool
  | [] => false
  | v :: rest => containsObject v || anyContainsObject rest

end

/-- No object below the top level. -/
def Fields.Flat (fields : Fields) : Prop := ∀ property ∈ fields, containsObject property.2 = false

instance (fields : Fields) : Decidable fields.Flat :=
  inferInstanceAs (Decidable (∀ property ∈ fields, _))

theorem anyContainsObject_eq_false_iff {elements : List Json} :
    anyContainsObject elements = false ↔ ∀ v ∈ elements, containsObject v = false := by
  induction elements with
  | nil => simp [anyContainsObject]
  | cons v rest ih => rw [anyContainsObject, Bool.or_eq_false_iff, ih, List.forall_mem_cons]

/-- The property list matters to objects only. -/
theorem stringifyWith_of_not_containsObject (names names' : List String) (v : Json)
    (h : containsObject v = false) : stringifyWith names v = stringifyWith names' v := by
  induction v using Json.induction with
  | null => rfl
  | bool b => rfl
  | num n => rfl
  | str s => rfl
  | arr elements ih =>
      rw [containsObject, anyContainsObject_eq_false_iff] at h
      have htexts : elements.map (stringifyWith names) = elements.map (stringifyWith names') :=
        List.map_congr_left fun v hv => ih v hv (h v hv)
      rw [stringifyWith, stringifyWith, elementTexts_eq_map, elementTexts_eq_map, htexts]
  | obj fields => cases h

theorem mem_of_get? {fields : Fields} {name : String} {v : Json}
    (h : fields.get? name = some v) : (name, v) ∈ fields := by
  induction fields with
  | nil => cases h
  | cons property rest ih =>
      obtain ⟨k, w⟩ := property
      rw [Fields.get?] at h
      split at h
      · rename_i hk
        cases h
        exact hk ▸ List.mem_cons_self
      · exact List.mem_cons_of_mem _ (ih h)

theorem Fields.Flat.propertyText {fields : Fields} (h : fields.Flat) (names names' : List String)
    (name : String) : propertyText names fields name = propertyText names' fields name := by
  rw [Js.propertyText, Js.propertyText]
  cases hv : fields.get? name with
  | none => rfl
  | some v =>
      have hflat := h (name, v) (mem_of_get? hv)
      rw [Option.map_some, Option.map_some,
        stringifyWith_of_not_containsObject names names' v hflat]

/-- Flat objects which have the same JSON text in every property. -/
def SameText (p q : Fields) : Prop := ∀ name, propertyText [] p name = propertyText [] q name

theorem sameText_of_stringifyWith {p q : Fields} (hp : p.Flat) (hq : q.Flat)
    (h : stringifyWith (sortedKeys p) (.obj p) = stringifyWith (sortedKeys q) (.obj q)) :
    SameText p q := by
  intro name
  rw [hp.propertyText [] (sortedKeys p), hq.propertyText [] (sortedKeys q)]
  exact (stringifyWith_sortedKeys_inj h).2 name

end flat

end Js
