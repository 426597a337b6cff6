import Pulse.Js.Scan
import Pulse.Metrics.Counter

/-!
# Label rendering

The label part of an exposition line: the labels in the order of their names, each value
quoted and escaped. A reader of such lines gets the metric name, the labels and the
text of the value back.
-/

namespace Pulse

open Collections Js

namespace PrometheusSerializer

/-- `text.replace(/c/g, replacement)` -/
def replaceAll (c : Char) (replacement text : List Char) : List Char :=
  text.flatMap fun d => if d = c then replacement else [d]

def escapeLabelValue (text : String) : String :=
  String.ofList (replaceAll '\n' ['\\', 'n'] (replaceAll '"' ['\\', '"']
    (replaceAll '\\' ['\\', '\\'] text.toList)))

def formatPair (key val : String) : String := key ++ "=\"" ++ escapeLabelValue val ++ "\""

def formatLabels (labels : Option MetricLabels) : String :=
  match labels with
  | none => ""
  | some labels =>
      if labels.keys.length = 0 then ""
      else
        let keys := labels.keys.insertionSort le
        let formattedPairs := keys.filterMap fun key => (labels.get? key).map (formatPair key)
        "\x7b" ++ joinWith "," formattedPairs ++ "\x7d"

/-- The line which `serializeMetric` writes for a sample, with the text of its value. -/
def sampleLine (name : String) (labels : Option MetricLabels) (value : String) : String :=
  name ++ formatLabels labels ++ " " ++ value

/-- A metric or label name of the exposition format. -/
def Identifier (name : String) : Prop :=
  name ≠ "" ∧ (∀ c ∈ name.toList, c.isAlphanum ∨ c = '_' ∨ c = ':') ∧
    ∀ c ∈ name.toList.head?, ¬ c.isDigit

-- The two quantifiers are bounded: all characters must not be tried.
instance (name : String) : Decidable (Identifier name) :=
  @instDecidableAnd _ _ _ (@instDecidableAnd _ _ (List.decidableBAll _ _)
    (Option.decidableForallMem _))

section Reader

/-- A quoted value up to its closing quote, and what follows it. -/
def readValue : List Char → Option (List Char × List Char)
  | [] => none
  | c :: rest =>
      if c = '"' then some ([], rest)
      else if c = '\\' then
        match rest with
        | [] => none
        | d :: rest =>
            if d = 'n' then (readValue rest).map fun read => ('\n' :: read.1, read.2)
            else if d = '\\' ∨ d = '"' then (readValue rest).map fun read => (d :: read.1, read.2)
            else none
      else (readValue rest).map fun read => (c :: read.1, read.2)

/-- A label, and what follows it. -/
def readPair (l : List Char) : Option ((String × String) × List Char) :=
  match l.dropWhile (· ≠ '=') with
  | '=' :: '"' :: rest => (readValue rest).map fun read =>
      ((String.ofList (l.takeWhile (· ≠ '=')), String.ofList read.1), read.2)
  | _ => none

/-- The labels up to the closing brace, at most as many as the first argument says. -/
def readPairs : Nat → List Char → Option (List (String × String) × List Char)
  | 0, _ => none
  | bound + 1, l =>
      match readPair l with
      | some (pair, ',' :: rest) => (readPairs bound rest).map fun read => (pair :: read.1, read.2)
      | some (pair, '\x7d' :: rest) => some ([pair], rest)
      | _ => none

/-- A line as its metric name, its labels and the text of its value. -/
def readLine (line : String) : Option (String × List (String × String) × String) :=
  let l := line.toList
  let name := String.ofList (l.takeWhile fun c => c ≠ '\x7b' ∧ c ≠ ' ')
  match l.dropWhile fun c => c ≠ '\x7b' ∧ c ≠ ' ' with
  | ' ' :: value => some (name, [], String.ofList value)
  | '\x7b' :: rest =>
      match readPairs rest.length rest with
      | some (pairs, ' ' :: value) => some (name, pairs, String.ofList value)
      | _ => none
  | _ => none

end Reader

section Escape

/-- The three replacements of one character. -/
def escapeChar (c : Char) : List Char :=
  if c = '\\' then ['\\', '\\']
  else if c = '"' then ['\\', '"']
  else if c = '\n' then ['\\', 'n']
  else [c]

/-- Later replacements leave the escapes of the earlier ones alone. -/
theorem toList_escapeLabelValue (text : String) :
    (escapeLabelValue text).toList = text.toList.flatMap escapeChar := by
  rw [escapeLabelValue, String.toList_ofList]
  simp only [replaceAll, List.flatMap_assoc]
  congr 1
  funext c
  by_cases hslash : c = '\\'
  · subst hslash
    decide
  · by_cases hquote : c = '"'
    · subst hquote
      decide
    · simp [escapeChar, hslash, hquote]

theorem readValue_quote (rest : List Char) : readValue ('"' :: rest) = some ([], rest) := by
  rw [readValue.eq_def]
  simp

theorem readValue_plain {c : Char} (hquote : c ≠ '"') (hslash : c ≠ '\\') (rest : List Char) :
    readValue (c :: rest) = (readValue rest).map fun read => (c :: read.1, read.2) := by
  rw [readValue.eq_def]
  simp [hquote, hslash]

theorem readValue_escape (l rest : List Char) :
    readValue (l.flatMap escapeChar ++ '"' :: rest) = some (l, rest) := by
  induction l with
  | nil => exact readValue_quote rest
  | cons c l ih =>
      rw [List.flatMap_cons, List.append_assoc]
      by_cases hslash : c = '\\'
      · subst hslash
        simp [escapeChar, readValue, ih]
      · by_cases hquote : c = '"'
        · subst hquote
          simp [escapeChar, readValue, ih]
        · by_cases hline : c = '\n'
          · subst hline
            simp [escapeChar, readValue, ih]
          · simp [escapeChar, readValue_plain hquote hslash, ih, hslash, hquote, hline]

theorem linefeed_notMem_escapeChar (c : Char) : '\n' ∉ escapeChar c := by
  simp only [escapeChar]
  split
  · decide
  · split
    · decide
    · split
      · decide
      · rename_i hline
        exact fun h => hline (List.mem_singleton.mp h).symm

theorem linefeed_notMem_escapeLabelValue (text : String) :
    '\n' ∉ (escapeLabelValue text).toList := by
  rw [toList_escapeLabelValue, List.mem_flatMap]
  rintro ⟨c, -, hc⟩
  exact linefeed_notMem_escapeChar c hc

/-- Whether the character behind a text is escaped: the text ends in an odd number of
backslashes. -/
def escapes (l : List Char) : Bool := l.foldl (fun odd c => decide (c = '\\') && !odd) false

theorem escapes_escapeChar (c : Char) : escapes (escapeChar c) = false := by
  simp only [escapeChar, escapes]
  split
  · rfl
  · rename_i hslash
    split
    · rfl
    · split
      · rfl
      · simp [hslash]

theorem escapes_append {l : List Char} (h : escapes l = false) (l' : List Char) :
    escapes (l ++ l') = escapes l' := by
  rw [escapes, List.foldl_append]
  exact congrArg (fun odd => l'.foldl _ odd) h

/-- A quote in the escape of a character is the second one of two. -/
theorem escapes_of_escapeChar {c : Char} {before after : List Char}
    (h : escapeChar c = before ++ '"' :: after) : escapes before = true := by
  have hmem : '"' ∈ escapeChar c := by
    rw [h]
    simp
  have hquote : c = '"' := by
    by_contra hne
    revert hmem
    simp only [escapeChar, if_neg hne]
    split
    · decide
    · split
      · decide
      · exact fun hmem => hne (List.mem_singleton.mp hmem).symm
  subst hquote
  rcases before with _ | ⟨first, _ | ⟨second, rest⟩⟩
  · exact absurd (List.cons.inj h).1 (by decide)
  · obtain rfl : '\\' = first := (List.cons.inj h).1
    rfl
  · have hlen := congrArg List.length h
    simp [escapeChar] at hlen

/-- Every quote in an escaped text is escaped. -/
theorem escapes_of_flatMap {l before after : List Char}
    (h : l.flatMap escapeChar = before ++ '"' :: after) : escapes before = true := by
  induction l generalizing before with
  | nil => simp at h
  | cons c l ih =>
      rw [List.flatMap_cons] at h
      rcases List.append_eq_append_iff.mp h with ⟨rest, rfl, hrest⟩ | ⟨rest, hescape, hrest⟩
      · rw [escapes_append (escapes_escapeChar c)]
        exact ih hrest
      · cases rest with
        | nil =>
            rw [List.append_nil] at hescape
            have hhead : escapes [] = true := ih hrest.symm
            cases hhead
        | cons d rest =>
            obtain ⟨rfl, -⟩ := List.cons.inj hrest
            exact escapes_of_escapeChar hescape

end Escape

section Labels

/-- The labels in the order of their names. -/
def sortedLabels (labels : MetricLabels) : List (String × String) :=
  (labels.keys.insertionSort le).filterMap fun key => (labels.get? key).map (key, ·)

theorem mem_sortedLabels {labels : MetricLabels} {key value : String} :
    (key, value) ∈ sortedLabels labels ↔ labels.get? key = some value := by
  rw [sortedLabels, List.mem_filterMap]
  constructor
  · rintro ⟨key', -, hread⟩
    obtain ⟨value', hvalue, heq⟩ := Option.map_eq_some_iff.mp hread
    obtain ⟨rfl, rfl⟩ := Prod.mk.inj heq
    exact hvalue
  · intro hvalue
    refine ⟨key, ?_, by rw [hvalue]; rfl⟩
    rw [(List.perm_insertionSort le labels.keys).mem_iff]
    exact OrderedMap.mem_keys_of_get? hvalue

/-- Labels which read alike are sorted alike. -/
theorem sortedLabels_congr {labels labels' : MetricLabels}
    (h : ∀ key, labels.get? key = labels'.get? key) :
    sortedLabels labels = sortedLabels labels' := by
  have hkeys : labels.keys.Perm labels'.keys := by
    rw [List.perm_ext_iff_of_nodup labels.keys_nodup labels'.keys_nodup]
    intro key
    rw [← OrderedMap.get?_isSome_iff, ← OrderedMap.get?_isSome_iff, h key]
  rw [sortedLabels, sortedLabels, insertionSort_eq_of_perm hkeys]
  exact List.filterMap_congr fun key _ => by rw [h key]

theorem get?_eq_of_sortedLabels_eq {labels labels' : MetricLabels}
    (h : sortedLabels labels = sortedLabels labels') (key : String) :
    labels.get? key = labels'.get? key := by
  apply Option.ext
  intro value
  rw [← mem_sortedLabels, ← mem_sortedLabels, h]

theorem sortedLabels_eq_nil_iff {labels : MetricLabels} :
    sortedLabels labels = [] ↔ labels.keys.length = 0 := by
  rw [List.length_eq_zero_iff]
  constructor
  · intro h
    apply List.eq_nil_iff_forall_not_mem.mpr
    intro key hkey
    obtain ⟨value, hvalue⟩ := Option.isSome_iff_exists.mp (OrderedMap.get?_isSome_iff.mpr hkey)
    have hmem := mem_sortedLabels.mpr hvalue
    rw [h] at hmem
    exact absurd hmem List.not_mem_nil
  · intro h
    rw [sortedLabels, h]
    rfl

/-- The text of labels in a given order. -/
def renderLabels (pairs : List (String × String)) : String :=
  if pairs = [] then ""
  else "\x7b" ++ joinWith "," (pairs.map fun pair => formatPair pair.1 pair.2) ++ "\x7d"

theorem formatLabels_eq (labels : MetricLabels) :
    formatLabels (some labels) = renderLabels (sortedLabels labels) := by
  simp only [formatLabels, renderLabels, sortedLabels_eq_nil_iff]
  split
  · rfl
  · simp only [sortedLabels, List.map_filterMap, Option.map_map]
    rfl

end Labels

section RoundTrip

theorem Identifier.notMem {name : String} (h : Identifier name) {c : Char}
    (hc : c.isAlphanum = false) (hne : c ≠ '_' ∧ c ≠ ':') : c ∉ name.toList := by
  intro hmem
  rcases h.2.1 c hmem with halpha | hunder | hcolon
  · rw [hc] at halpha
    cases halpha
  · exact hne.1 hunder
  · exact hne.2 hcolon

theorem toList_formatPair (key val : String) :
    (formatPair key val).toList =
      key.toList ++ '=' :: '"' :: (val.toList.flatMap escapeChar ++ ['"']) := by
  simp [formatPair, toList_escapeLabelValue]

/-- A part without the letters of a class, cut off at the first one. -/
theorem takeWhile_dropWhile_append {p : Char → Bool} {l : List Char} (h : ∀ c ∈ l, p c = true)
    {c : Char} (hc : p c = false) (rest : List Char) :
    (l ++ c :: rest).takeWhile p = l ∧ (l ++ c :: rest).dropWhile p = c :: rest := by
  rw [List.takeWhile_append_of_pos h, List.dropWhile_append_of_pos h]
  simp [hc]

theorem readPair_formatPair {key : String} (hkey : Identifier key) (val : String)
    (rest : List Char) :
    readPair ((formatPair key val).toList ++ rest) = some ((key, val), rest) := by
  have hplain : ∀ c ∈ key.toList, decide (c ≠ '=') = true := by
    intro c hc
    apply decide_eq_true
    rintro rfl
    exact hkey.notMem (by decide) (by decide) hc
  have hsplit : (formatPair key val).toList ++ rest =
      key.toList ++ '=' :: '"' :: (val.toList.flatMap escapeChar ++ '"' :: rest) := by
    simp [toList_formatPair]
  obtain ⟨htake, hdrop⟩ := takeWhile_dropWhile_append hplain (c := '=') (by decide)
    ('"' :: (val.toList.flatMap escapeChar ++ '"' :: rest))
  rw [readPair, hsplit, htake, hdrop]
  simp only [readValue_escape, Option.map_some, String.ofList_toList]

theorem readPairs_joinWith {pairs : List (String × String)} (hne : pairs ≠ [])
    (hkeys : ∀ pair ∈ pairs, Identifier pair.1) {bound : Nat} (hbound : pairs.length ≤ bound)
    (rest : List Char) :
    readPairs bound
        ((joinWith "," (pairs.map fun pair => formatPair pair.1 pair.2)).toList ++
          '\x7d' :: rest) =
      some (pairs, rest) := by
  induction pairs generalizing bound with
  | nil => exact absurd rfl hne
  | cons pair pairs ih =>
      obtain ⟨hkey, hkeys⟩ := List.forall_mem_cons.mp hkeys
      obtain ⟨bound, rfl⟩ : ∃ n, bound = n + 1 := Nat.exists_eq_add_of_lt
        (Nat.lt_of_lt_of_le (Nat.succ_pos _) hbound) |>.imp fun n h => by omega
      rw [readPairs]
      cases pairs with
      | nil =>
          simp only [List.map_cons, List.map_nil, joinWith, readPair_formatPair hkey]
      | cons pair' pairs =>
          have hread := ih (List.cons_ne_nil pair' pairs) hkeys
            (Nat.le_of_succ_le_succ hbound)
          rw [List.map_cons, toList_joinWith_cons _ _ (by simp), List.append_assoc,
            List.cons_append, readPair_formatPair hkey]
          simp only [hread, Option.map_some]

theorem length_le_joinWith (pairs : List (String × String)) :
    pairs.length ≤
      (joinWith "," (pairs.map fun pair => formatPair pair.1 pair.2)).toList.length + 1 := by
  induction pairs with
  | nil => exact Nat.zero_le _
  | cons pair pairs ih =>
      cases pairs with
      | nil => simp
      | cons pair' pairs =>
          rw [List.map_cons, toList_joinWith_cons _ _ (by simp)]
          simp only [List.length_append, List.length_cons] at ih ⊢
          omega

theorem Identifier.plain {name : String} (h : Identifier name) :
    ∀ c ∈ name.toList, decide (c ≠ '\x7b' ∧ c ≠ ' ') = true := by
  intro c hc
  apply decide_eq_true
  constructor
  · rintro rfl
    exact h.notMem (by decide) (by decide) hc
  · rintro rfl
    exact h.notMem (by decide) (by decide) hc

theorem readLine_of_space {name line value : String} (hname : Identifier name)
    (hline : line.toList = name.toList ++ ' ' :: value.toList) :
    readLine line = some (name, [], value) := by
  obtain ⟨htake, hdrop⟩ :=
    takeWhile_dropWhile_append hname.plain (c := ' ') (by decide) value.toList
  simp only [readLine, hline, htake, hdrop, String.ofList_toList]

theorem readLine_of_brace {name line value : String} (rest : List Char)
    {pairs : List (String × String)} (hname : Identifier name)
    (hline : line.toList = name.toList ++ '\x7b' :: rest)
    (hpairs : readPairs rest.length rest = some (pairs, ' ' :: value.toList)) :
    readLine line = some (name, pairs, value) := by
  obtain ⟨htake, hdrop⟩ := takeWhile_dropWhile_append hname.plain (c := '\x7b') (by decide) rest
  simp only [readLine, hline, htake, hdrop, hpairs, String.ofList_toList]

/-- A line is read as what it was written from, the labels in the order of their names. -/
theorem readLine_sampleLine {name : String} (hname : Identifier name) {labels : MetricLabels}
    (hlabels : ∀ key ∈ labels.keys, Identifier key) (value : String) :
    readLine (sampleLine name (some labels) value) = some (name, sortedLabels labels, value) := by
  have hkeys : ∀ pair ∈ sortedLabels labels, Identifier pair.1 := by
    rintro ⟨key, value⟩ hpair
    exact hlabels key (OrderedMap.mem_keys_of_get? (mem_sortedLabels.mp hpair))
  by_cases hnil : sortedLabels labels = []
  · rw [hnil]
    apply readLine_of_space hname
    simp [sampleLine, formatLabels_eq, renderLabels, hnil]
  · apply readLine_of_brace ((joinWith "," ((sortedLabels labels).map fun pair =>
      formatPair pair.1 pair.2)).toList ++ '\x7d' :: ' ' :: value.toList) hname
    · simp [sampleLine, formatLabels_eq, renderLabels, hnil]
    · apply readPairs_joinWith hnil hkeys
      have hlen := length_le_joinWith (sortedLabels labels)
      simp only [List.length_append, List.length_cons]
      omega

end RoundTrip

section Unambiguous

theorem mem_joinWith {c : Char} {texts : List String} (h : c ∈ (joinWith "," texts).toList) :
    c = ',' ∨ ∃ t ∈ texts, c ∈ t.toList := by
  induction texts with
  | nil => simp [joinWith] at h
  | cons t rest ih =>
      cases rest with
      | nil => exact Or.inr ⟨t, List.mem_cons_self, h⟩
      | cons t' rest =>
          rw [toList_joinWith_cons t _ (List.cons_ne_nil t' rest), List.mem_append,
            List.mem_cons] at h
          rcases h with ht | rfl | hrest
          · exact Or.inr ⟨t, List.mem_cons_self, ht⟩
          · exact Or.inl rfl
          · rcases ih hrest with rfl | ⟨t'', hmem, ht''⟩
            · exact Or.inl rfl
            · exact Or.inr ⟨t'', List.mem_cons_of_mem t hmem, ht''⟩

/-- With names of the format, the rendered labels stay on one line. -/
theorem linefeed_notMem_formatLabels {labels : MetricLabels}
    (hlabels : ∀ key ∈ labels.keys, Identifier key) :
    '\n' ∉ (formatLabels (some labels)).toList := by
  rw [formatLabels_eq, renderLabels]
  split
  · simp
  · intro h
    simp only [String.toList_append, List.mem_append] at h
    rcases h with (hopen | hjoined) | hclose
    · revert hopen
      decide
    · rcases mem_joinWith hjoined with hcomma | ⟨t, ht, hmem⟩
      · revert hcomma
        decide
      · obtain ⟨⟨key, value⟩, hpair, rfl⟩ := List.mem_map.mp ht
        have hkey := hlabels key (OrderedMap.mem_keys_of_get? (mem_sortedLabels.mp hpair))
        simp only [formatPair, String.toList_append, List.mem_append] at hmem
        rcases hmem with ((hname | hequals) | hvalue) | hquote
        · exact hkey.notMem (by decide) (by decide) hname
        · revert hequals
          decide
        · exact linefeed_notMem_escapeLabelValue value hvalue
        · revert hquote
          decide
    · revert hclose
      decide

/-- The rendering of labels with names of the format: it depends on the labels and not on
their order, tells different labels apart, has no line feed and no bare quote in a value, and
is read back from an exposition line. -/
theorem formatLabels_unambiguous {labels : MetricLabels}
    (hlabels : ∀ key ∈ labels.keys, Identifier key) :
    (∀ labels' : MetricLabels, (∀ key ∈ labels'.keys, Identifier key) →
        (formatLabels (some labels) = formatLabels (some labels') ↔
          ∀ key, labels.get? key = labels'.get? key)) ∧
      '\n' ∉ (formatLabels (some labels)).toList ∧
      (∀ key value before after, labels.get? key = some value →
        (escapeLabelValue value).toList = before ++ '"' :: after → escapes before = true) ∧
      ∀ name value, Identifier name → ∃ pairs,
        readLine (sampleLine name (some labels) value) = some (name, pairs, value) ∧
          ∀ key val, (key, val) ∈ pairs ↔ labels.get? key = some val := by
  refine ⟨?_, linefeed_notMem_formatLabels hlabels, ?_, ?_⟩
  · intro labels' hlabels'
    constructor
    · intro h
      have hname : Identifier "x" := by decide
      have hread := readLine_sampleLine hname hlabels ""
      have hread' := readLine_sampleLine hname hlabels' ""
      rw [sampleLine, h] at hread
      have heq := Option.some_inj.mp (hread.symm.trans hread')
      exact get?_eq_of_sortedLabels_eq (Prod.mk.inj (Prod.mk.inj heq).2).1
    · intro h
      rw [formatLabels_eq, formatLabels_eq, sortedLabels_congr h]
  · intro key value before after _ hsplit
    rw [toList_escapeLabelValue] at hsplit
    exact escapes_of_flatMap hsplit
  · intro name value hname
    exact ⟨_, readLine_sampleLine hname hlabels value, fun _ _ => mem_sortedLabels⟩

/-- A value which imitates the end of its label. -/
theorem formatLabels_unambiguous_imitation :
    ∃ pairs, readLine (sampleLine "errors_total"
        (some (.set (.set ∅ "type" "a\",reason=\"b") "reason" "line\nfeed\\")) "2") =
      some ("errors_total", pairs, "2") ∧
      ∀ key val, (key, val) ∈ pairs ↔
        OrderedMap.get? (.set (.set ∅ "type" "a\",reason=\"b") "reason" "line\nfeed\\") key =
          some val :=
  (formatLabels_unambiguous (by decide +kernel)).2.2.2 "errors_total" "2" (by decide)

end Unambiguous

end PrometheusSerializer

end Pulse
