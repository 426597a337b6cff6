import Pulse.Metrics.Exposition

/-!
# Scraping the exposition

Each line of the exposition has an effect on the map of the reader which depends on
nothing but the line: a comment has none, a sample writes its value under its series
name. The whole exposition therefore reads as the samples of its metrics.
-/

namespace Pulse

open Collections Js

section texts

theorem trimChars_of_ends {l : List Char} (head : ∀ c ∈ l.head?, isWhiteSpace c = false)
    (last : ∀ c ∈ l.getLast?, isWhiteSpace c = false) : trimChars l = l := by
  have hdrop : l.dropWhile isWhiteSpace = l := by
    cases l with
    | nil => rfl
    | cons c l => exact List.dropWhile_cons_of_neg (by rw [head c rfl]; exact Bool.false_ne_true)
  rw [trimChars, hdrop, List.rdropWhile_eq_self_iff]
  intro hl
  rw [last _ (List.getLast?_eq_some_getLast hl)]
  exact Bool.false_ne_true

theorem splitLast_append {c : Char} (before : List Char) {after : List Char} (h : c ∉ after) :
    ChaosScenarioRunner.splitLast c (before ++ c :: after) = some (before, after) := by
  have hafter : ∀ l : List Char, c ∉ l → ChaosScenarioRunner.splitLast c l = none := by
    intro l hl
    induction l with
    | nil => rfl
    | cons d l ih =>
        rw [List.mem_cons, not_or] at hl
        rw [ChaosScenarioRunner.splitLast, ih hl.2, if_neg (Ne.symm hl.1)]
  induction before with
  | nil => rw [List.nil_append, ChaosScenarioRunner.splitLast, hafter after h, if_pos rfl]
  | cons d before ih => rw [List.cons_append, ChaosScenarioRunner.splitLast, ih]

theorem isWhiteSpace_of_isAlphanum {c : Char} (h : c.isAlphanum = true) :
    isWhiteSpace c = false := by
  have hrange : 48 ≤ c.toNat ∧ c.toNat ≤ 122 := by
    obtain halpha | hdigit := Bool.or_eq_true_iff.mp h
    · obtain hupper | hlower := Bool.or_eq_true_iff.mp halpha
      · obtain ⟨hlow, hhigh⟩ : (65 : UInt32) ≤ c.val ∧ c.val ≤ 90 := of_decide_eq_true hupper
        exact ⟨le_trans (by decide) (UInt32.le_iff_toNat_le.mp hlow),
          le_trans (UInt32.le_iff_toNat_le.mp hhigh) (by decide)⟩
      · obtain ⟨hlow, hhigh⟩ := Bool.and_eq_true_iff.mp hlower
        have hlow : (97 : UInt32) ≤ c.val := of_decide_eq_true hlow
        have hhigh : c.val ≤ (122 : UInt32) := of_decide_eq_true hhigh
        exact ⟨le_trans (by decide) (UInt32.le_iff_toNat_le.mp hlow),
          UInt32.le_iff_toNat_le.mp hhigh⟩
    · obtain ⟨hlow, hhigh⟩ := Bool.and_eq_true_iff.mp hdigit
      have hlow : (48 : UInt32) ≤ c.val := of_decide_eq_true hlow
      have hhigh : c.val ≤ (57 : UInt32) := of_decide_eq_true hhigh
      exact ⟨UInt32.le_iff_toNat_le.mp hlow,
        le_trans (UInt32.le_iff_toNat_le.mp hhigh) (by decide)⟩
  simp only [isWhiteSpace, decide_eq_false_iff_not, List.mem_cons, List.not_mem_nil, or_false]
  omega

end texts

namespace PrometheusSerializer

theorem Identifier.isWhiteSpace {name : String} (h : Identifier name) :
    ∀ c ∈ name.toList, isWhiteSpace c = false := by
  intro c hc
  obtain halpha | rfl | rfl := h.2.1 c hc
  · exact isWhiteSpace_of_isAlphanum halpha
  · decide
  · decide

/-- What a scrape shows for a value: nothing unless it is finite, and the values below a
millionth rounded. -/
def scrapedValue : Option Number → Option Number
  | some (.decimal negative digits exponent) =>
      if isInteger digits exponent ∨
          'e' ∉ (Number.decimal negative digits exponent).text.toList then
        some (.decimal (negative && digits != 0) digits exponent)
      else if (Number.decimal false 5 (-7)).value < (Number.decimal false digits exponent).value
        then some (.decimal negative 1 (-6))
      else some (.decimal negative 0 0)
  | _ => none

variable {nearest : Number → Number}

theorem toFixed6_eq (negative : Bool) (digits : Nat) (exponent : Int) :
    toFixed6 negative digits exponent =
      if (Number.decimal false 5 (-7)).value < (Number.decimal false digits exponent).value then
        if negative then "-0.000001" else "0.000001"
      else if negative then "-0.000000" else "0.000000" := by
  rw [toFixed6]
  by_cases hround : (Number.decimal false 5 (-7)).value <
      (Number.decimal false digits exponent).value
  · rw [if_pos hround, if_pos hround]
    cases negative <;> rfl
  · rw [if_neg hround, if_neg hround]
    cases negative <;> rfl

theorem parseFloat_toFixed6 (negative : Bool) (digits : Nat) (exponent : Int) :
    parseFloat nearest (toFixed6 negative digits exponent).toList =
      some (nearest
        (if (Number.decimal false 5 (-7)).value < (Number.decimal false digits exponent).value then
          .decimal negative 1 (-6) else .decimal negative 0 0)) := by
  rw [toFixed6_eq]
  by_cases hround : (Number.decimal false 5 (-7)).value <
      (Number.decimal false digits exponent).value
  · rw [if_pos hround, if_pos hround]
    cases negative <;> rfl
  · rw [if_neg hround, if_neg hround]
    cases negative <;> rfl

/-- The text of a value is read as what a scrape shows for it. -/
theorem parseFloat_formatValue {value : Option Number}
    (normal : ∀ n ∈ value, n.Normal) :
    parseFloat nearest (formatValue value).toList = (scrapedValue value).map nearest := by
  cases value with
  | none => rfl
  | some n =>
      cases n with
      | infinity negative => cases negative <;> rfl
      | decimal negative digits exponent =>
          have htext : parseFloat nearest (Number.decimal negative digits exponent).text.toList =
              some (nearest (.decimal (negative && digits != 0) digits exponent)) :=
            parseFloat_text (normal _ rfl)
          simp only [formatValue, scrapedValue]
          by_cases hinteger : isInteger digits exponent = true
          · rw [if_pos hinteger, if_pos (Or.inl hinteger), htext, Option.map_some]
          · rw [if_neg hinteger]
            by_cases hscaled : 'e' ∈ (Number.decimal negative digits exponent).text.toList
            · rw [if_pos hscaled, if_neg (by simp [hinteger, hscaled]), parseFloat_toFixed6]
              split <;> rfl
            · rw [if_neg hscaled, if_pos (Or.inr hscaled), htext, Option.map_some]

/-- A text without white space, which is not empty. -/
def Solid (l : List Char) : Prop := l ≠ [] ∧ ∀ c ∈ l, isWhiteSpace c = false

theorem solid_of_all {s : String}
    (h : (s.toList ≠ [] && s.toList.all fun c => !isWhiteSpace c) = true) : Solid s.toList := by
  simpa [Solid] using h

theorem solid_text {negative : Bool} {digits : Nat} {exponent : Int}
    (normal : (Number.decimal negative digits exponent).Normal) :
    Solid (Number.decimal negative digits exponent).text.toList := by
  obtain ⟨c, l, hhead, -⟩ := Number.text_head negative digits exponent
  obtain ⟨m, hm, -⟩ := exists_signed normal
  refine ⟨by rw [hhead]; exact List.cons_ne_nil c l, fun c hc => ?_⟩
  rw [hm] at hc
  exact isWhiteSpace_of_isNumeric (Numeral.isNumeric_of_mem_signed hc)

theorem solid_formatValue {value : Option Number} (normal : ∀ n ∈ value, n.Normal) :
    Solid (formatValue value).toList := by
  cases value with
  | none => exact solid_of_all (by decide)
  | some n =>
      cases n with
      | infinity negative => cases negative <;> exact solid_of_all (by decide)
      | decimal negative digits exponent =>
          simp only [formatValue]
          split
          · exact solid_text (normal _ rfl)
          · split
            · rw [toFixed6_eq]
              split <;> cases negative <;> exact solid_of_all (by decide)
            · exact solid_text (normal _ rfl)

/-- The series name of a sample. -/
def sampleKey (sample : ShownSample) : String := sample.name ++ formatLabels sample.labels

/-- Samples with names of the format and numbers in shortest form. -/
structure WellNamed (sample : ShownSample) : Prop where
  name : Identifier sample.name
  labels : ∀ labels ∈ sample.labels, ∀ key ∈ labels.keys, Identifier key
  value : ∀ n ∈ sample.value, n.Normal

instance : DecidablePred WellNamed := fun sample =>
  decidable_of_iff (Identifier sample.name ∧
      (∀ labels ∈ sample.labels, ∀ key ∈ labels.keys, Identifier key) ∧
        ∀ n ∈ sample.value, n.Normal)
    ⟨fun h => ⟨h.1, h.2.1, h.2.2⟩, fun h => ⟨h.name, h.labels, h.value⟩⟩

/-- The ends of a series name are no white space. -/
theorem sampleKey_ends {sample : ShownSample} (h : WellNamed sample) :
    (∃ c l, (sampleKey sample).toList = c :: l ∧ isWhiteSpace c = false ∧ c ≠ '#') ∧
      ∀ c ∈ (sampleKey sample).toList.getLast?, isWhiteSpace c = false := by
  have hnonempty : sample.name.toList ≠ [] := by
    intro hnil
    exact h.name.1 (String.toList_inj.mp hnil)
  have hspaces := h.name.isWhiteSpace
  obtain ⟨c, l, hname⟩ := List.exists_cons_of_ne_nil hnonempty
  have hc : c ∈ sample.name.toList := hname ▸ List.mem_cons_self
  have hhash : c ≠ '#' := by
    rintro rfl
    exact h.name.notMem (by decide) (by decide) hc
  refine ⟨⟨c, l ++ (formatLabels sample.labels).toList, ?_, hspaces c hc, hhash⟩, ?_⟩
  · rw [sampleKey, String.toList_append, hname, List.cons_append]
  · have hlabels : (formatLabels sample.labels).toList = [] ∨
        (formatLabels sample.labels).toList.getLast? = some '\x7d' := by
      cases sample.labels with
      | none => exact Or.inl rfl
      | some labels =>
          rw [formatLabels_eq, renderLabels]
          split
          · exact Or.inl rfl
          · refine Or.inr ?_
            rw [String.toList_append]
            exact List.getLast?_concat
    intro d hd
    rw [sampleKey, String.toList_append] at hd
    obtain hnone | hbrace := hlabels
    · rw [hnone, List.append_nil] at hd
      exact hspaces d (List.mem_of_getLast? hd)
    · rw [List.getLast?_append, hbrace] at hd
      obtain rfl : '\x7d' = d := by simpa using hd
      decide

theorem linefeed_notMem_sampleLine {sample : ShownSample} (h : WellNamed sample) :
    '\n' ∉ (sampleLine sample.name sample.labels (formatValue sample.value)).toList := by
  have hspace : isWhiteSpace '\n' = true := by decide
  have hlabels : '\n' ∉ (formatLabels sample.labels).toList := by
    have hkeys := h.labels
    cases hsample : sample.labels with
    | none => exact List.not_mem_nil
    | some labels => exact linefeed_notMem_formatLabels (hkeys labels hsample)
  intro hmem
  simp only [sampleLine, String.toList_append, List.mem_append] at hmem
  obtain ((hname | hmem) | hblank) | hvalue := hmem
  · rw [h.name.isWhiteSpace _ hname] at hspace
    cases hspace
  · exact hlabels hmem
  · revert hblank
    decide
  · rw [(solid_formatValue h.value).2 _ hvalue] at hspace
    cases hspace

/-- What a scrape does with a sample. -/
def setSample (nearest : Number → Number) (m : OrderedMap String Number) (sample : ShownSample) :
    OrderedMap String Number :=
  match scrapedValue sample.value with
  | none => m
  | some val => m.set (sampleKey sample) (nearest val)

open ChaosScenarioRunner

/-- The line of a sample writes its value under its series name. -/
theorem scrapeLine_sampleLine {sample : ShownSample} (h : WellNamed sample)
    (m : OrderedMap String Number) :
    scrapeLine nearest m
        (sampleLine sample.name sample.labels (formatValue sample.value)).toList =
      setSample nearest m sample := by
  obtain ⟨⟨c, l, hhead, hc, hhash⟩, hlast⟩ := sampleKey_ends h
  obtain ⟨hnonempty, hsolid⟩ := solid_formatValue h.value
  have hkey : trimChars (sampleKey sample).toList = (sampleKey sample).toList := by
    refine trimChars_of_ends ?_ hlast
    rw [hhead]
    rintro d ⟨rfl⟩
    exact hc
  have hline : (sampleLine sample.name sample.labels (formatValue sample.value)).toList =
      (sampleKey sample).toList ++ ' ' :: (formatValue sample.value).toList := by
    rw [sampleLine, ← sampleKey, String.toList_append, String.toList_append, List.append_assoc]
    rfl
  have htrim : trimChars ((sampleKey sample).toList ++ ' ' :: (formatValue sample.value).toList) =
      (sampleKey sample).toList ++ ' ' :: (formatValue sample.value).toList := by
    apply trimChars_of_ends
    · rw [hhead]
      rintro d ⟨rfl⟩
      exact hc
    · intro d hd
      rw [List.append_cons, List.getLast?_append_of_ne_nil _ hnonempty] at hd
      exact hsolid d (List.mem_of_getLast? hd)
  have hspace : ' ' ∉ (formatValue sample.value).toList := by
    intro hmem
    exact absurd (hsolid ' ' hmem) (by decide)
  have hsample : ¬ ((sampleKey sample).toList ++ ' ' :: (formatValue sample.value).toList = [] ∨
      ((sampleKey sample).toList ++ ' ' :: (formatValue sample.value).toList).head? =
        some '#') := by
    rw [hhead]
    simp [hhash]
  rw [hline, setSample]
  simp only [scrapeLine, htrim, if_neg hsample, splitLast_append _ hspace,
    trimChars_of_forall hsolid, parseFloat_formatValue h.value, hkey, String.ofList_toList]
  cases scrapedValue sample.value <;> rfl

/-- A comment is skipped. -/
theorem scrapeLine_comment (m : OrderedMap String Number) (l : List Char) :
    scrapeLine nearest m ('#' :: l) = m := by
  have hdrop : ('#' :: l).dropWhile isWhiteSpace = '#' :: l :=
    List.dropWhile_cons_of_neg (by decide)
  obtain ⟨l', htrim⟩ : ∃ l', trimChars ('#' :: l) = '#' :: l' := by
    rw [trimChars, hdrop]
    have hkeeps : ('#' :: l).rdropWhile isWhiteSpace <+: '#' :: l := List.rdropWhile_prefix _ _
    cases hkept : ('#' :: l).rdropWhile isWhiteSpace with
    | nil =>
        have hblank := List.rdropWhile_eq_nil_iff.mp hkept '#' List.mem_cons_self
        exact absurd hblank (by decide)
    | cons d l' =>
        rw [hkept, List.cons_prefix_cons] at hkeeps
        exact ⟨l', by rw [hkeeps.1]⟩
  simp only [scrapeLine, htrim, List.head?_cons, or_true, if_true]

/-- A metric whose samples have names of the format. -/
structure Exposable (metric : CollectedMetric) : Prop where
  name : Identifier metric.name
  samples : ∀ sample ∈ metric.samples, WellNamed sample

instance : DecidablePred Exposable := fun metric =>
  decidable_of_iff (Identifier metric.name ∧ ∀ sample ∈ metric.samples, WellNamed sample)
    ⟨fun h => ⟨h.1, h.2⟩, fun h => ⟨h.name, h.samples⟩⟩

theorem linefeed_notMem_escapeHelp (text : String) : '\n' ∉ (escapeHelp text).toList := by
  rw [escapeHelp, String.toList_ofList, replaceAll, List.mem_flatMap]
  rintro ⟨d, -, hd⟩
  split at hd
  · revert hd
    decide
  · rename_i hline
    exact hline (List.mem_singleton.mp hd).symm

theorem linefeed_notMem_serializeMetric {metric : CollectedMetric} (h : Exposable metric) :
    ∀ line ∈ serializeMetric metric, '\n' ∉ line.toList := by
  have hname : '\n' ∉ metric.name.toList := h.name.notMem (by decide) (by decide)
  intro line hline
  rw [serializeMetric, List.mem_append, List.mem_cons, List.mem_map] at hline
  obtain hhelp | rfl | ⟨sample, hsample, rfl⟩ := hline
  · split at hhelp
    · cases hhelp
    · rw [List.mem_singleton.mp hhelp]
      simp [String.toList_append, hname, linefeed_notMem_escapeHelp]
  · cases metric.type <;> simp [String.toList_append, hname, typeText]
  · exact linefeed_notMem_sampleLine (h.samples sample hsample)

/-- The lines of a metric read as its samples. -/
theorem foldl_serializeMetric {metric : CollectedMetric} (h : Exposable metric)
    (m : OrderedMap String Number) :
    ((serializeMetric metric).map String.toList).foldl (scrapeLine nearest) m =
      metric.samples.foldl (setSample nearest) m := by
  have hsamples : ∀ m : OrderedMap String Number,
      ((metric.samples.map fun sample => sampleLine sample.name sample.labels
        (formatValue sample.value)).map String.toList).foldl (scrapeLine nearest) m =
          metric.samples.foldl (setSample nearest) m := by
    intro m
    rw [List.map_map, List.foldl_map]
    exact List.foldl_ext _ _ _ fun m sample hsample =>
      scrapeLine_sampleLine (h.samples sample hsample) m
  have htype : ∀ m : OrderedMap String Number, scrapeLine nearest m
      ("# TYPE " ++ metric.name ++ " " ++ typeText metric.type).toList = m := by
    intro m
    simp only [String.toList_append, List.append_assoc]
    exact scrapeLine_comment m _
  rw [serializeMetric, List.map_append, List.foldl_append, List.map_cons, List.foldl_cons]
  split
  · rw [List.map_nil, List.foldl_nil, htype, hsamples]
  · rw [List.map_singleton, List.foldl_cons, List.foldl_nil]
    simp only [String.toList_append, List.append_assoc] at htype ⊢
    have hhelp : ∀ l : List Char, scrapeLine nearest m ("# HELP ".toList ++ l) = m :=
      fun l => scrapeLine_comment m _
    rw [hhelp, htype, hsamples]

/-- The text of some lines is split into them and an empty rest. -/
theorem splitOn_joinWith {lines : List String} (nonempty : lines ≠ [])
    (h : ∀ line ∈ lines, '\n' ∉ line.toList) :
    (joinWith "\n" lines ++ "\n").toList.splitOn '\n' = lines.map String.toList ++ [[]] := by
  have htext : ['\n'].intercalate (lines.map String.toList ++ [[]]) =
      (joinWith "\n" lines ++ "\n").toList := by
    induction lines with
    | nil => exact absurd rfl nonempty
    | cons line rest ih =>
        cases rest with
        | nil => simp [joinWith, List.intercalate]
        | cons line' rest =>
            have hrest := ih (List.cons_ne_nil _ _) fun l hl => h l (List.mem_cons_of_mem _ hl)
            have hjoin : joinWith "\n" (line :: line' :: rest) =
              line ++ "\n" ++ joinWith "\n" (line' :: rest) := rfl
            rw [List.map_cons, List.cons_append, List.map_cons, List.cons_append,
              List.intercalate_cons_cons, ← List.cons_append, ← List.map_cons, hrest, hjoin]
            simp [String.toList_append]
  rw [← htext]
  apply List.splitOn_intercalate
  · intro part hpart
    obtain hmem | hempty := List.mem_append.mp hpart
    · obtain ⟨line, hline, rfl⟩ := List.mem_map.mp hmem
      exact h line hline
    · rw [List.mem_singleton.mp hempty]
      exact List.not_mem_nil
  · simp

/-- What the samples leave in the map under a name which none of them has. -/
theorem get?_foldl_of_notMem {samples : List ShownSample} {key : String}
    (h : ∀ sample ∈ samples, sampleKey sample ≠ key) (m : OrderedMap String Number) :
    (samples.foldl (setSample nearest) m).get? key = m.get? key := by
  induction samples generalizing m with
  | nil => rfl
  | cons sample rest ih =>
      obtain ⟨hsample, hrest⟩ := List.forall_mem_cons.mp h
      rw [List.foldl_cons, ih hrest, setSample]
      split
      · rfl
      · exact OrderedMap.get?_set_ne (Ne.symm hsample) _

/-- With names of their own, the samples leave their values in the map. -/
theorem get?_foldl_setSample {samples : List ShownSample}
    (distinct : (samples.map sampleKey).Nodup) {sample : ShownSample} (h : sample ∈ samples) :
    (samples.foldl (setSample nearest) ∅).get? (sampleKey sample) =
      (scrapedValue sample.value).map nearest := by
  obtain ⟨before, after, rfl⟩ := List.append_of_mem h
  rw [List.map_append, List.map_cons, List.nodup_append, List.nodup_cons] at distinct
  obtain ⟨-, ⟨hafter, -⟩, hbefore⟩ := distinct
  have hafter' : ∀ sample' ∈ after, sampleKey sample' ≠ sampleKey sample :=
    fun sample' hsample' heq => hafter (List.mem_map.mpr ⟨sample', hsample', heq⟩)
  have hbefore' : ∀ sample' ∈ before, sampleKey sample' ≠ sampleKey sample :=
    fun sample' hsample' => hbefore _ (List.mem_map_of_mem hsample') _ List.mem_cons_self
  rw [List.foldl_append, List.foldl_cons, get?_foldl_of_notMem hafter', setSample]
  split
  · rename_i hvalue
    rw [get?_foldl_of_notMem hbefore', hvalue]
    rfl
  · rename_i val hvalue
    rw [OrderedMap.get?_set_self, hvalue, Option.map_some]

end PrometheusSerializer

namespace ChaosScenarioRunner

open PrometheusSerializer

variable {nearest : Number → Number}

/-- The exposition reads as the samples of the metrics in their order. -/
theorem scrapeMetrics_eq (localeCompare : String → String → Bool)
    {metrics : List CollectedMetric} (exposable : ∀ metric ∈ metrics, Exposable metric) :
    scrapeMetrics nearest (serialize localeCompare metrics) =
      ((metrics.insertionSort fun a b => localeCompare a.name b.name = true).flatMap
        (·.samples)).foldl (setSample nearest) ∅ := by
  have hlines : ∀ (metrics : List CollectedMetric), (∀ metric ∈ metrics, Exposable metric) →
      ∀ m : OrderedMap String Number,
        ((metrics.flatMap serializeMetric).map String.toList).foldl (scrapeLine nearest) m =
          (metrics.flatMap (·.samples)).foldl (setSample nearest) m := by
    intro metrics hmetrics
    induction metrics with
    | nil => exact fun _ => rfl
    | cons metric rest ih =>
        intro m
        obtain ⟨hmetric, hrest⟩ := List.forall_mem_cons.mp hmetrics
        rw [List.flatMap_cons, List.map_append, List.foldl_append, foldl_serializeMetric hmetric,
          ih hrest, List.flatMap_cons, List.foldl_append]
  have hempty : ∀ m : OrderedMap String Number, scrapeLine nearest m [] = m := fun _ => rfl
  by_cases hnone : metrics = []
  · subst hnone
    rfl
  · have hperm : (metrics.insertionSort fun a b => localeCompare a.name b.name = true).Perm
      metrics := List.perm_insertionSort _ metrics
    have hsorted : ∀ metric ∈ metrics.insertionSort fun a b => localeCompare a.name b.name = true,
        Exposable metric := fun metric hmetric => exposable metric (hperm.mem_iff.mp hmetric)
    have hnonempty : (metrics.insertionSort fun a b =>
        localeCompare a.name b.name = true).flatMap serializeMetric ≠ [] := by
      obtain ⟨metric, rest, hcons⟩ := List.exists_cons_of_ne_nil
        fun hnil => hnone (hperm.symm.trans (hnil ▸ .nil)).eq_nil
      rw [hcons, List.flatMap_cons, serializeMetric]
      simp
    rw [scrapeMetrics, serialize, if_neg hnone, splitOn_joinWith hnonempty, List.foldl_append,
      hlines _ hsorted, List.foldl_cons, hempty, List.foldl_nil]
    intro line hline
    obtain ⟨metric, hmetric, hmem⟩ := List.mem_flatMap.mp hline
    exact linefeed_notMem_serializeMetric (hsorted metric hmetric) line hmem

/-- A sample of the exposed metrics is found under its series name. -/
theorem get?_scrapeMetrics (localeCompare : String → String → Bool)
    {metrics : List CollectedMetric} (exposable : ∀ metric ∈ metrics, Exposable metric)
    (distinct : ((metrics.flatMap (·.samples)).map sampleKey).Nodup)
    {metric : CollectedMetric} (hmetric : metric ∈ metrics) {sample : ShownSample}
    (hsample : sample ∈ metric.samples) :
    (scrapeMetrics nearest (serialize localeCompare metrics)).get? (sampleKey sample) =
      (scrapedValue sample.value).map nearest := by
  have hperm : (metrics.insertionSort fun a b => localeCompare a.name b.name = true).Perm
    metrics := List.perm_insertionSort _ metrics
  rw [scrapeMetrics_eq localeCompare exposable]
  apply get?_foldl_setSample
  · exact ((hperm.flatMap_right _).map sampleKey).nodup_iff.mpr distinct
  · exact List.mem_flatMap.mpr ⟨metric, hperm.mem_iff.mpr hmetric, hsample⟩

/-- A map has under a name what a scrape shows for a value: the double nearest to it, and so the
value itself if it is a double. -/
structure Finds (nearest : Number → Number) (m : OrderedMap String Number) (key : String)
    (value : Option Number) : Prop where
  rounded : m.get? key = (scrapedValue value).map nearest
  double : ∀ val, scrapedValue value = some val → nearest val = val → m.get? key = some val

theorem Finds.of_get? {m : OrderedMap String Number} {key : String} {value : Option Number}
    (h : m.get? key = (scrapedValue value).map nearest) : Finds nearest m key value where
  rounded := h
  double := by
    intro val hval hdouble
    rw [h, hval, Option.map_some, hdouble]

/-- A scrape of the exposition finds under the series name of each sample its value, unless it
is not finite, and nothing under any other name. -/
theorem scrapeMetrics_serialize (nearest : Number → Number)
    (localeCompare : String → String → Bool) (metrics : List CollectedMetric)
    (exposable : ∀ metric ∈ metrics, Exposable metric)
    (distinct : ((metrics.flatMap (·.samples)).map sampleKey).Nodup) :
    (∀ metric ∈ metrics, ∀ sample ∈ metric.samples,
        Finds nearest (scrapeMetrics nearest (serialize localeCompare metrics))
          (sampleKey sample) sample.value) ∧
      ∀ key, (scrapeMetrics nearest (serialize localeCompare metrics)).has key = true →
        ∃ metric ∈ metrics, ∃ sample ∈ metric.samples, sampleKey sample = key := by
  refine ⟨fun metric hmetric sample hsample =>
    .of_get? (get?_scrapeMetrics localeCompare exposable distinct hmetric hsample), ?_⟩
  · intro key hkey
    have hperm : (metrics.insertionSort fun a b => localeCompare a.name b.name = true).Perm
      metrics := List.perm_insertionSort _ metrics
    rw [scrapeMetrics_eq localeCompare exposable] at hkey
    by_contra hnone
    have habsent : (((metrics.insertionSort fun a b =>
        localeCompare a.name b.name = true).flatMap (·.samples)).foldl
          (setSample nearest) ∅).get? key = none := by
      rw [get?_foldl_of_notMem]
      · rfl
      · intro sample hsample heq
        obtain ⟨metric, hmetric, hmem⟩ := List.mem_flatMap.mp hsample
        exact hnone ⟨metric, hperm.mem_iff.mp hmetric, sample, hmem, heq⟩
    rw [OrderedMap.has, habsent] at hkey
    cases hkey

/-- A sample whose label value imitates the end of the labels. -/
def quotedSample : ShownSample :=
  ⟨"connections_total", some (.set ∅ "status" "not \"ok\"\x7d 7"), some (.ofInt 20)⟩

/-- A counter with this sample next to a gauge that is not finite. -/
def twoMetrics : List CollectedMetric :=
  [⟨"connections_total", "by\nstatus", .counter, [quotedSample]⟩,
    ⟨"lag_seconds", "", .gauge, [⟨"lag_seconds", none, some (.infinity false)⟩]⟩]

theorem scrapeMetrics_two :
    (scrapeMetrics id (serialize (fun a b => decide (Js.le a b)) twoMetrics)).get?
      (sampleKey quotedSample) = some (.ofInt 20) :=
  ((scrapeMetrics_serialize id (fun a b => decide (Js.le a b)) twoMetrics (by decide +kernel)
    (by decide +kernel)).1 _ List.mem_cons_self _ List.mem_cons_self).double _
      (by decide +kernel) rfl

section end_to_end

variable {metrics : List CollectedMetric} {c : Counter} {h : Histogram}

/-- What a scrape finds of a counter after any calls: under the name of each series the sum, in
the order of the calls, of the increments that were accepted since the last reset. -/
theorem scrape_counter (add : Number → Number → Number) (nearest : Number → Number)
    (localeCompare : String → String → Bool) {name : String} {help : Option String}
    {labelNames : Option (List String)} (created : Counter.create name help labelNames = .ok c)
    (calls : List MetricCall) (exposed : (c.after add calls).collected ∈ metrics)
    (exposable : ∀ metric ∈ metrics, Exposable metric)
    (distinct : ((metrics.flatMap (·.samples)).map sampleKey).Nodup) :
    ∀ sample ∈ Counter.samplesOf add c.name c.labelNames
        (Tally.after Counter.increment c.labelNames calls),
      Finds nearest (scrapeMetrics nearest (serialize localeCompare metrics))
        (sample.name ++ formatLabels sample.labels) (some sample.value) := by
  intro sample hsample
  rw [← Counter.collect_after add created calls] at hsample
  have hshown : sample.shown ∈ (c.after add calls).collected.samples := List.mem_map_of_mem hsample
  exact .of_get? (get?_scrapeMetrics localeCompare exposable distinct exposed hshown)

/-- Two increments of a series, and one whose labels are refused. -/
def errorCalls : List MetricCall :=
  [.add (some (.set ∅ "type" "a b")) (some (.ofInt 2)),
    .add (some (.set ∅ "type" "a b")) (some (.ofInt 3)),
    .add (some (.set (.set ∅ "type" "b") "userId" "u")) (some (.ofInt 5))]

def errorCounter : Counter := { name := "errors_total", help := "", labelNames := ["type"] }

def errorMetrics : List CollectedMetric := [(errorCounter.after addWhole errorCalls).collected]

theorem scrape_counter_errors :
    (scrapeMetrics id (serialize (fun a b => decide (Js.le a b)) errorMetrics)).get?
        ("errors_total" ++ formatLabels (some (.set ∅ "type" "a b"))) = some (.ofInt 5) :=
  (scrape_counter addWhole id (fun a b => decide (Js.le a b))
    (rfl : Counter.create "errors_total" none (some ["type"]) = .ok errorCounter) errorCalls
    (List.mem_singleton.mpr rfl) (by decide +kernel) (by decide +kernel)
    ⟨"errors_total", some (.set ∅ "type" "a b"), .ofInt 5⟩ (by decide +kernel)).double _
      (by decide +kernel) rfl

/-- What a scrape finds of a histogram after any calls: under the name of each bucket how many
of the observations of its series were up to the boundary, and the number of them all and their
sum in the order of the calls. -/
theorem scrape_histogram (add : Number → Number → Number) (nearest : Number → Number)
    (localeCompare : String → String → Bool) {name : String} {help : Option String}
    {labelNames : Option (List String)} {buckets : Option (List (Option Number))}
    (created : Histogram.create name help labelNames buckets = .ok h) (calls : List MetricCall)
    (exposed : (h.after add calls).collected ∈ metrics)
    (exposable : ∀ metric ∈ metrics, Exposable metric)
    (distinct : ((metrics.flatMap (·.samples)).map sampleKey).Nodup) :
    ∀ sample ∈ h.tallySamples add (Tally.after Histogram.observation h.labelNames calls),
      Finds nearest (scrapeMetrics nearest (serialize localeCompare metrics))
        (sample.name ++ formatLabels sample.labels) (some sample.value) := by
  intro sample hsample
  rw [← Histogram.collect_after add created calls] at hsample
  have hshown : sample.shown ∈ (h.after add calls).collected.samples := List.mem_map_of_mem hsample
  exact .of_get? (get?_scrapeMetrics localeCompare exposable distinct exposed hshown)

/-- Two observations and one that is clamped. -/
def latencyCalls : List MetricCall :=
  [.add none (some (.ofInt 2)), .add none (some (.ofInt (-1))), .add none (some (.ofInt 7))]

def latencyMetrics (h : Histogram) : List CollectedMetric :=
  [(h.after addWhole latencyCalls).collected]

theorem scrape_histogram_latency : ∃ h,
    Histogram.create "latency_seconds" none none (some [some (.ofInt 5), some (.ofInt 1)]) =
        .ok h ∧
      (scrapeMetrics id (serialize (fun a b => decide (Js.le a b)) (latencyMetrics h))).get?
          "latency_seconds_sum" = some (.ofInt 9) := by
  have hok : (Histogram.create "latency_seconds" none none
      (some [some (.ofInt 5), some (.ofInt 1)])).toOption.any (fun h =>
        decide ((∀ metric ∈ latencyMetrics h, Exposable metric) ∧
          (((latencyMetrics h).flatMap (·.samples)).map sampleKey).Nodup ∧
          ⟨"latency_seconds_sum", some ∅, .ofInt 9⟩ ∈ h.tallySamples addWhole
            (Tally.after Histogram.observation h.labelNames latencyCalls))) = true := by
    decide +kernel
  cases created : Histogram.create "latency_seconds" none none
      (some [some (.ofInt 5), some (.ofInt 1)]) with
  | error e =>
      rw [created] at hok
      cases hok
  | ok h =>
      rw [created] at hok
      obtain ⟨exposable, distinct, hsum⟩ := of_decide_eq_true hok
      have finds := scrape_histogram addWhole id (fun a b => decide (Js.le a b)) created
        latencyCalls (List.mem_singleton.mpr rfl) exposable distinct _ hsum
      exact ⟨h, rfl, finds.double _ (by decide +kernel) rfl⟩

end end_to_end

end ChaosScenarioRunner

end Pulse
