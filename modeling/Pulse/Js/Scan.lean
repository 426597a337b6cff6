import Pulse.Js.Json

/-!
# Items of JSON text

The text of a value ends where its brackets and quotes are closed. A scanner which
counts open brackets, and knows when it is inside a string, therefore finds the
commas and the bracket at which the items of an array or object end, and the items
can be told apart again.
-/

namespace Js

/-- A position in a JSON text: how many brackets are open, and whether it is inside a
string, or there directly behind a backslash. -/
inductive Scan
  | plain (depth : Nat)
  | quoted (depth : Nat)
  | escaped (depth : Nat)
  deriving DecidableEq

def Scan.next : Scan → Char → Scan
  | .plain depth, c =>
      if c = '"' then .quoted depth
      else if c = '[' ∨ c = '\x7b' then .plain (depth + 1)
      else if c = ']' ∨ c = '\x7d' then .plain (depth - 1)
      else .plain depth
  | .quoted depth, c =>
      if c = '\\' then .escaped depth else if c = '"' then .plain depth else .quoted depth
  | .escaped depth, _ => .quoted depth

/-- Read up to a comma or a closing bracket outside of all brackets and strings. -/
def item : Scan → List Char → List Char × List Char
  | _, [] => ([], [])
  | s, c :: rest =>
      if s = .plain 0 ∧ (c = ',' ∨ c = ']' ∨ c = '\x7d') then ([], c :: rest)
      else (c :: (item (s.next c) rest).1, (item (s.next c) rest).2)

/-- The text is read as a whole and leads from one position to another. -/
def Reads (s s' : Scan) (l : List Char) : Prop :=
  ∀ rest, item s (l ++ rest) = (l ++ (item s' rest).1, (item s' rest).2)

theorem Reads.nil (s : Scan) : Reads s s [] := fun _ => rfl

theorem Reads.append {s s' s'' : Scan} {l l' : List Char} (h : Reads s s' l)
    (h' : Reads s' s'' l') : Reads s s'' (l ++ l') := by
  intro rest
  rw [List.append_assoc, h, h', List.append_assoc]

theorem Reads.cons {s s' : Scan} {c : Char} {l : List Char}
    (h : ¬(s = .plain 0 ∧ (c = ',' ∨ c = ']' ∨ c = '\x7d'))) (h' : Reads (s.next c) s' l) :
    Reads s s' (c :: l) := by
  intro rest
  rw [List.cons_append, item, if_neg h, h']
  rfl

/-- Behind `depth` or more brackets the text closes whatever it opens. -/
def Passes (depth : Nat) (l : List Char) : Prop :=
  ∀ k, depth ≤ k → Reads (.plain k) (.plain k) l

theorem Passes.nil (depth : Nat) : Passes depth [] := fun _ _ => .nil _

theorem Passes.append {depth : Nat} {l l' : List Char} (h : Passes depth l)
    (h' : Passes depth l') : Passes depth (l ++ l') :=
  fun k hk => (h k hk).append (h' k hk)

theorem Passes.mono {depth depth' : Nat} {l : List Char} (h : Passes depth l)
    (le : depth ≤ depth') : Passes depth' l :=
  fun k hk => h k (Nat.le_trans le hk)

/-- A character without a meaning outside of strings. -/
def Neutral (c : Char) : Prop := c ∉ ['"', '[', ']', '\x7b', '\x7d', ',']

instance (c : Char) : Decidable (Neutral c) := inferInstanceAs (Decidable (c ∉ _))

theorem neutral_of_all {l : List Char} (h : l.all (fun c => decide (Neutral c)) = true) :
    ∀ c ∈ l, Neutral c := by
  simpa [List.all_eq_true] using h

theorem passes_of_neutral {l : List Char} (h : ∀ c ∈ l, Neutral c) : Passes 0 l := by
  intro k _
  induction l with
  | nil => exact .nil _
  | cons c l ih =>
      have hc := h c List.mem_cons_self
      have htail := ih fun c' hc' => h c' (List.mem_cons_of_mem c hc')
      simp only [Neutral, List.mem_cons, List.not_mem_nil, or_false, not_or] at hc
      have hnext : Scan.next (.plain k) c = .plain k := by simp [Scan.next, hc]
      refine .cons (by simp [hc]) ?_
      rw [hnext]
      exact htail

/-- Inside brackets a comma is like any other character. -/
theorem passes_comma : Passes 1 [','] := by
  intro k hk
  have hk0 : k ≠ 0 := Nat.pos_iff_ne_zero.mp hk
  exact .cons (by simp [hk0]) (.nil _)

theorem Passes.array {l : List Char} (h : Passes 1 l) : Passes 0 ('[' :: (l ++ [']'])) := by
  intro k _
  refine .cons (by simp) ?_
  exact (h (k + 1) (by omega)).append (.cons (by simp) (.nil _))

theorem Passes.object {l : List Char} (h : Passes 1 l) :
    Passes 0 ('\x7b' :: (l ++ ['\x7d'])) := by
  intro k _
  refine .cons (by simp) ?_
  exact (h (k + 1) (by omega)).append (.cons (by simp) (.nil _))

section quote

theorem hexDigit_mem (n : Nat) : hexDigit n ∈ "0123456789abcdef".toList := by
  rw [hexDigit, List.getD_eq_getElem?_getD]
  cases h : "0123456789abcdef".toList[n]? with
  | none => decide
  | some c => exact List.mem_of_getElem? h

/-- A character that is read as itself inside a string. -/
theorem reads_quoted {c : Char} (k : Nat) (hquote : c ≠ '"') (hslash : c ≠ '\\') :
    Reads (.quoted k) (.quoted k) [c] := by
  refine .cons (by simp) ?_
  have hnext : Scan.next (.quoted k) c = .quoted k := by simp [Scan.next, hquote, hslash]
  rw [hnext]
  exact .nil _

theorem reads_escaped (k : Nat) (c : Char) : Reads (.quoted k) (.quoted k) ['\\', c] :=
  .cons (by simp) (.cons (by simp [Scan.next]) (.nil _))

theorem reads_hexDigit (k n : Nat) : Reads (.quoted k) (.quoted k) [hexDigit n] := by
  have hmem := hexDigit_mem n
  refine reads_quoted k ?_ ?_
  · intro h
    rw [h] at hmem
    exact absurd hmem (by decide)
  · intro h
    rw [h] at hmem
    exact absurd hmem (by decide)

/-- Inside a string the escape of a character leads back into the string. -/
theorem reads_quoteChar (k : Nat) (c : Char) :
    Reads (.quoted k) (.quoted k) (quoteChar c) := by
  rw [quoteChar]
  split_ifs with hquote hslash
  · exact reads_escaped k _
  · exact reads_escaped k _
  · exact reads_escaped k _
  · exact reads_escaped k _
  · exact reads_escaped k _
  · exact reads_escaped k _
  · exact reads_escaped k _
  · have hzero := reads_quoted (c := '0') k (by decide) (by decide)
    exact (reads_escaped k 'u').append
      (hzero.append (hzero.append ((reads_hexDigit k _).append (reads_hexDigit k _))))
  · exact reads_quoted k hquote hslash

theorem toList_quote (s : String) :
    (quote s).toList = '"' :: (s.toList.flatMap quoteChar ++ ['"']) := by
  rw [quote, String.toList_ofList]
  rfl

theorem passes_quote (s : String) : Passes 0 (quote s).toList := by
  intro k _
  have hbody : ∀ l : List Char, Reads (.quoted k) (.quoted k) (l.flatMap quoteChar) := by
    intro l
    induction l with
    | nil => exact .nil _
    | cons c l ih =>
        rw [List.flatMap_cons]
        exact (reads_quoteChar k c).append ih
  rw [toList_quote]
  refine .cons (by simp) ?_
  exact (hbody s.toList).append (.cons (by simp) (.nil _))

end quote

section number

theorem neutral_of_isDigit {c : Char} (h : c.isDigit = true) : Neutral c := by
  simp only [Neutral, List.mem_cons, List.not_mem_nil, or_false, not_or]
  refine ⟨?_, ?_, ?_, ?_, ?_, ?_⟩ <;>
    · rintro rfl
      exact absurd h (by decide)

theorem neutral_of_mem_toString {n : Nat} : ∀ c ∈ (toString n).toList, Neutral c := by
  intro c h
  rw [Nat.toString_eq_ofList_toDigits, String.toList_ofList] at h
  exact neutral_of_isDigit (Nat.isDigit_of_mem_toDigits (by decide) (by decide) h)

theorem neutral_of_mem_text (n : Number) : ∀ c ∈ n.text.toList, Neutral c := by
  cases n with
  | infinity negative =>
      simp only [Number.text]
      exact neutral_of_all (by cases negative <;> decide)
  | decimal negative digits exponent =>
      have hdigits := neutral_of_mem_toString (n := digits)
      have htake : ∀ k, ∀ c ∈ (toString digits).toList.take k, Neutral c :=
        fun k c hc => hdigits c (List.mem_of_mem_take hc)
      have hdrop : ∀ k, ∀ c ∈ (toString digits).toList.drop k, Neutral c :=
        fun k c hc => hdigits c (List.mem_of_mem_drop hc)
      have hzeros : ∀ k, ∀ c ∈ List.replicate k '0', Neutral c := by
        intro k c hc
        rw [List.eq_of_mem_replicate hc]
        decide
      have hdot : Neutral '.' := by decide
      have hzero : Neutral '0' := by decide
      have he : Neutral 'e' := by decide
      have hexponent := fun z : Int => neutral_of_mem_toString (n := z.natAbs)
      have hsign : ∀ z : Int, Neutral (if 0 ≤ z then '+' else '-') := by
        intro z
        split <;> decide
      simp only [Number.text]
      split
      · exact neutral_of_all (by decide)
      · rw [String.toList_ofList]
        have hsigned : ∀ l : List Char, (∀ c ∈ l, Neutral c) →
            ∀ c ∈ if negative = true then '-' :: l else l, Neutral c := by
          intro l hl
          split
          · exact List.forall_mem_cons.mpr ⟨by decide, hl⟩
          · exact hl
        refine hsigned _ ?_
        split
        · exact List.forall_mem_append.mpr ⟨hdigits, hzeros _⟩
        · split
          · exact List.forall_mem_append.mpr
              ⟨htake _, List.forall_mem_cons.mpr ⟨hdot, hdrop _⟩⟩
          · split
            · exact List.forall_mem_cons.mpr ⟨hzero, List.forall_mem_cons.mpr
                ⟨hdot, List.forall_mem_append.mpr ⟨hzeros _, hdigits⟩⟩⟩
            · refine List.forall_mem_append.mpr ⟨?_, List.forall_mem_cons.mpr
                ⟨he, List.forall_mem_cons.mpr ⟨hsign _, hexponent _⟩⟩⟩
              split
              · exact hdigits
              · exact List.forall_mem_append.mpr
                  ⟨htake _, List.forall_mem_cons.mpr ⟨hdot, hdrop _⟩⟩

theorem passes_number (n : Number) : Passes 0 n.text.toList :=
  passes_of_neutral (neutral_of_mem_text n)

end number

section value

theorem toList_joinWith_cons (s : String) (rest : List String) (h : rest ≠ []) :
    (joinWith "," (s :: rest)).toList = s.toList ++ ',' :: (joinWith "," rest).toList := by
  cases rest with
  | nil => exact absurd rfl h
  | cons t rest => simp [joinWith]

theorem passes_joinWith {texts : List String} (h : ∀ t ∈ texts, Passes 0 t.toList) :
    Passes 1 (joinWith "," texts).toList := by
  induction texts with
  | nil => exact .nil 1
  | cons t rest ih =>
      have ht := (h t List.mem_cons_self).mono (Nat.zero_le 1)
      cases rest with
      | nil => exact ht
      | cons t' rest =>
          rw [toList_joinWith_cons t _ (List.cons_ne_nil t' rest)]
          exact ht.append (passes_comma.append (ih fun t'' h'' =>
            h t'' (List.mem_cons_of_mem t h'')))

theorem passes_array {texts : List String} (h : ∀ t ∈ texts, Passes 0 t.toList) :
    Passes 0 ("[" ++ joinWith "," texts ++ "]").toList := by
  rw [String.toList_append, String.toList_append]
  exact (passes_joinWith h).array

theorem passes_object {texts : List String} (h : ∀ t ∈ texts, Passes 0 t.toList) :
    Passes 0 ("\x7b" ++ joinWith "," texts ++ "\x7d").toList := by
  rw [String.toList_append, String.toList_append]
  exact (passes_joinWith h).object

theorem passes_property (name : String) {text : String} (h : Passes 0 text.toList) :
    Passes 0 (quote name ++ ":" ++ text).toList := by
  rw [String.toList_append, String.toList_append]
  exact ((passes_quote name).append (passes_of_neutral (neutral_of_all (by decide)))).append h

/-- The text of a selected name which is no property of the object. -/
theorem passes_inheritedText {name text : String} (h : inheritedText name = some text) :
    Passes 0 text.toList := by
  rw [inheritedText] at h
  split at h
  · cases h
    have hnull : Passes 0 (quote "__proto__" ++ ":" ++ "null").toList :=
      passes_property "__proto__" (passes_of_neutral (neutral_of_all (by decide)))
    have htexts : ∀ t ∈ [quote "__proto__" ++ ":" ++ "null"], Passes 0 t.toList := by
      simpa using hnull
    have heq : "\x7b\"__proto__\":null\x7d" =
        "\x7b" ++ joinWith "," [quote "__proto__" ++ ":" ++ "null"] ++ "\x7d" := by
      decide +kernel
    rw [heq]
    exact passes_object htexts
  · cases h

/-- The texts of the selected properties of an object. -/
def selectedTexts (names : List String) (fields : Fields) : List String :=
  names.filterMap fun name =>
    (((fieldTexts names fields).find? (fun t => t.1 = name)).map Prod.snd <|>
      inheritedText name).map fun text => quote name ++ ":" ++ text

theorem passes_elementTexts {names : List String} {elements : List Json}
    (h : ∀ v ∈ elements, Passes 0 (stringifyWith names v).toList) :
    ∀ t ∈ elementTexts names elements, Passes 0 t.toList := by
  intro t ht
  rw [elementTexts_eq_map, List.mem_map] at ht
  obtain ⟨v, hv, rfl⟩ := ht
  exact h v hv

theorem passes_selectedTexts {names : List String} {fields : Fields}
    (h : ∀ property ∈ fields, Passes 0 (stringifyWith names property.2).toList) :
    ∀ t ∈ selectedTexts names fields, Passes 0 t.toList := by
  intro t ht
  rw [selectedTexts, List.mem_filterMap] at ht
  obtain ⟨name, -, hname⟩ := ht
  obtain ⟨text, htext, rfl⟩ := Option.map_eq_some_iff.mp hname
  refine passes_property name ?_
  cases hfound : (fieldTexts names fields).find? (fun t => t.1 = name) with
  | none =>
      rw [hfound] at htext
      exact passes_inheritedText htext
  | some found =>
      rw [hfound] at htext
      cases htext
      have hmem := List.mem_of_find?_eq_some hfound
      rw [fieldTexts_eq_map, List.mem_map] at hmem
      obtain ⟨property, hproperty, rfl⟩ := hmem
      exact h property hproperty

/-- The text of a value is read as a whole. -/
theorem passes_stringifyWith (names : List String) (v : Json) :
    Passes 0 (stringifyWith names v).toList := by
  induction v using Json.induction with
  | null => exact passes_of_neutral (l := "null".toList) (neutral_of_all (by decide))
  | bool b =>
      cases b
      · exact passes_of_neutral (l := "false".toList) (neutral_of_all (by decide))
      · exact passes_of_neutral (l := "true".toList) (neutral_of_all (by decide))
  | num n => exact passes_number n
  | str s => exact passes_quote s
  | arr elements ih => exact passes_array (passes_elementTexts ih)
  | obj fields ih => exact passes_object (passes_selectedTexts ih)

end value

section split

/-- A text that is read as a whole ends at a comma or closing bracket behind it. -/
theorem item_of_passes {l : List Char} (h : Passes 0 l) {c : Char}
    (stop : c = ',' ∨ c = ']' ∨ c = '\x7d') (rest : List Char) :
    item (.plain 0) (l ++ c :: rest) = (l, c :: rest) := by
  have hstop : item (.plain 0) (c :: rest) = ([], c :: rest) := by simp [item, stop]
  rw [h 0 (Nat.le_refl 0), hstop, List.append_nil]

theorem item_joinWith {s : String} (rest : List String) (h : Passes 0 s.toList) :
    item (.plain 0) ((joinWith "," (s :: rest)).toList ++ ['\x7d']) =
      (s.toList,
        if rest = [] then ['\x7d'] else ',' :: ((joinWith "," rest).toList ++ ['\x7d'])) := by
  by_cases hrest : rest = []
  · rw [hrest, if_pos rfl]
    exact item_of_passes h (Or.inr (Or.inr rfl)) []
  · rw [if_neg hrest, toList_joinWith_cons s rest hrest, List.append_assoc]
    exact item_of_passes h (Or.inl rfl) _

/-- The items of an object can be told apart in its text. -/
theorem joinWith_inj {texts texts' : List String}
    (h : ∀ t ∈ texts, Passes 0 t.toList ∧ t ≠ "") (h' : ∀ t ∈ texts', Passes 0 t.toList ∧ t ≠ "")
    (heq : joinWith "," texts = joinWith "," texts') : texts = texts' := by
  have hempty : ∀ {s : String} {rest : List String}, Passes 0 s.toList → s ≠ "" →
      joinWith "," [] ≠ joinWith "," (s :: rest) := by
    intro s rest hs hne heq
    have hitem := item_joinWith rest hs
    rw [← heq] at hitem
    exact hne (String.toList_eq_nil_iff.mp (congrArg Prod.fst hitem).symm)
  induction texts generalizing texts' with
  | nil =>
      cases texts' with
      | nil => rfl
      | cons s' rest' =>
          obtain ⟨hs', hne'⟩ := h' s' List.mem_cons_self
          exact absurd heq (hempty hs' hne')
  | cons s rest ih =>
      obtain ⟨hs, hne⟩ := h s List.mem_cons_self
      cases texts' with
      | nil => exact absurd heq.symm (hempty hs hne)
      | cons s' rest' =>
          have hitem := item_joinWith rest hs
          rw [heq, item_joinWith _ (h' s' List.mem_cons_self).1, Prod.mk.injEq] at hitem
          obtain ⟨hfirst, hothers⟩ := hitem
          rw [String.toList_inj] at hfirst
          subst hfirst
          congr 1
          refine ih (fun t ht => h t (.tail _ ht)) (fun t ht => h' t (.tail _ ht)) ?_
          by_cases hrest : rest = []
          · by_cases hrest' : rest' = []
            · rw [hrest, hrest']
            · rw [if_pos hrest, if_neg hrest'] at hothers
              cases hothers
          · by_cases hrest' : rest' = []
            · rw [if_neg hrest, if_pos hrest'] at hothers
              cases hothers
            · rw [if_neg hrest, if_neg hrest', List.cons.injEq] at hothers
              exact String.toList_inj.mp (List.append_cancel_right hothers.2).symm

end split

end Js
