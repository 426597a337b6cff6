import Pulse.Metrics.Counter

/-!
# Series identity

When the calls of `inc` that feed one series of a counter are the calls whose labels
agree. The key of a series joins the label values without escaping them, and a call
without a label object has a key of its own. So two calls can be confused, or kept
apart, against their labels; `Clash` says when. The label names are not those which
label objects inherit: with one of these, to leave a label out is no empty label.
-/

namespace Pulse

open Collections Js

/-- The value of a label; a missing one counts as the empty string. -/
def labelValue (labels : Option MetricLabels) (name : String) : String :=
  (labels.bind (·.get? name)).getD ""

/-- The labels agree on every label name. -/
def Agree (labelNames : List String) (labels labels' : Option MetricLabels) : Prop :=
  ∀ name ∈ labelNames, labelValue labels name = labelValue labels' name

instance (labelNames : List String) (labels labels' : Option MetricLabels) :
    Decidable (Agree labelNames labels labels') :=
  inferInstanceAs (Decidable (∀ name ∈ labelNames, _ = _))

/-- What stands before the value of a label behind other labels. -/
def opening (name : String) : List Char := '|' :: (name.toList ++ ['='])

/-- Two label arguments for which the key goes against the labels: no object beside one
with empty labels only, if there are several names; or two objects of which one has, in
the first label where they differ, the other's value followed by what the other has
written behind it. -/
inductive Clash (labelNames : List String) :
    Option MetricLabels → Option MetricLabels → Prop
  | absent {labels : MetricLabels} (several : 2 ≤ labelNames.length)
      (empty : ∀ name ∈ labelNames, labelValue (some labels) name = "") :
      Clash labelNames none (some labels)
  | runsOn {labels labels' : MetricLabels}
      (h : RunsOn opening (fun name => (labelValue (some labels) name).toList)
        (fun name => (labelValue (some labels') name).toList) labelNames) :
      Clash labelNames (some labels) (some labels')

/-- One call of `inc`. -/
structure Inc where
  labels : Option MetricLabels
  value : Number

/-- What is known of the addition of doubles here: zero changes nothing. -/
structure AddsZero (add : Number → Number → Number) : Prop where
  zero_add : ∀ x, x.isPositive = true ∨ x = .ofInt 0 → add (.ofInt 0) x = x
  add_zero : ∀ x, x.isPositive = true ∨ x = .ofInt 0 → add x (.ofInt 0) = x

namespace Counter

/-- The counter after calls of `inc`, if none of them throws. -/
def incs (add : Number → Number → Number) (c : Counter) (calls : List Inc) :
    Except String Counter :=
  calls.foldlM (fun c call => c.inc add call.labels (some call.value)) c

/-- Between a counter `c` and the counter `c'` after `calls`: the calls feed the series of
their labels, `get` sums up the agreeing calls in their order, and no two samples have the same
labels. -/
structure SeriesIdentity (add : Number → Number → Number) (c c' : Counter) (calls : List Inc)
    (queries : List (Option MetricLabels)) : Prop where
  series : ∀ call ∈ calls, ∀ call' ∈ calls,
    (resolveKey c.labelNames call.labels = resolveKey c.labelNames call'.labels ↔
      Agree c.labelNames call.labels call'.labels)
  totals : ∀ query ∈ queries, c'.get query = total add
    ((calls.filter fun call => Agree c.labelNames query call.labels).map Inc.value)
  samples : c'.collect.Pairwise fun sample sample' =>
    ¬ Agree c.labelNames sample.labels sample'.labels

end Counter

section Keys

variable {labelNames : List String} {labels labels' : Option MetricLabels}

theorem Agree.symm (h : Agree labelNames labels labels') : Agree labelNames labels' labels :=
  fun name hname => (h name hname).symm

/-- The names are none of those which label objects inherit. -/
def Plain (labelNames : List String) : Prop := ∀ name ∈ labelNames, name ∉ OBJECT_PROTOTYPE_KEYS

instance (labelNames : List String) : Decidable (Plain labelNames) :=
  inferInstanceAs (Decidable (∀ _ ∈ _, _))

theorem Plain.tail {name : String} (h : Plain (name :: labelNames)) : Plain labelNames :=
  fun name' hname' => h name' (List.mem_cons_of_mem _ hname')

theorem readLabel_of_plain (labels : MetricLabels) {name : String}
    (h : name ∉ OBJECT_PROTOTYPE_KEYS) :
    readLabel labels name = (labels.get? name).map .own := by
  rw [readLabel]
  cases labels.get? name with
  | none => exact if_neg h
  | some value => rfl

theorem labelText_of_plain (labels : MetricLabels) {name : String}
    (h : name ∉ OBJECT_PROTOTYPE_KEYS) :
    labelText labels name = name ++ "=" ++ labelValue (some labels) name := by
  rw [labelText, readLabel_of_plain labels h, labelValue, Option.bind_some]
  cases labels.get? name <;> rfl

/-- The joined key, with a bar before it, is the labels written behind each other. -/
theorem toList_joinWith (labels : MetricLabels) {labelNames : List String}
    (hne : labelNames ≠ []) (plain : Plain labelNames) :
    '|' :: (joinWith "|" (labelNames.map (labelText labels))).toList =
      written opening (fun name => (labelValue (some labels) name).toList) labelNames := by
  induction labelNames with
  | nil => exact absurd rfl hne
  | cons name rest ih =>
      have htext := labelText_of_plain labels (plain name List.mem_cons_self)
      cases rest with
      | nil => simp [joinWith, htext, opening]
      | cons name' rest =>
          have hrest := ih (List.cons_ne_nil name' rest) plain.tail
          rw [written_cons, ← hrest]
          simp [joinWith, htext, opening]

theorem resolveKey_single {name : String} (plain : Plain [name]) (labels : Option MetricLabels) :
    resolveKey [name] labels = .own (labelValue labels name) := by
  cases labels with
  | none => rfl
  | some labels =>
      rw [resolveKey, readLabel_of_plain labels (plain name List.mem_cons_self), labelValue,
        Option.bind_some]
      cases labels.get? name <;> rfl

/-- Under an inherited name, an empty label and a missing one have two keys. -/
example : resolveKey ["constructor"] (some (.set ∅ "constructor" "")) ≠
    resolveKey ["constructor"] (some ∅) := by decide

theorem resolveKey_several (h : 2 ≤ labelNames.length) (labels : MetricLabels) :
    resolveKey labelNames (some labels) =
      .own (joinWith "|" (labelNames.map (labelText labels))) := by
  rcases labelNames with _ | ⟨name, _ | ⟨name', rest⟩⟩
  · simp at h
  · simp at h
  · rfl

/-- With several names, equal keys of two objects are equal writings. -/
theorem resolveKey_eq_iff_written (h : 2 ≤ labelNames.length) (plain : Plain labelNames)
    (labels labels' : MetricLabels) :
    resolveKey labelNames (some labels) = resolveKey labelNames (some labels') ↔
      written opening (fun name => (labelValue (some labels) name).toList) labelNames =
        written opening (fun name => (labelValue (some labels') name).toList) labelNames := by
  have hne : labelNames ≠ [] := List.ne_nil_of_length_pos (by omega)
  rw [resolveKey_several h, resolveKey_several h, LabelValue.own.injEq,
    ← toList_joinWith labels hne plain, ← toList_joinWith labels' hne plain, List.cons_inj_right,
    String.toList_inj]

theorem resolveKey_ne_absent (h : 2 ≤ labelNames.length) (plain : Plain labelNames)
    (labels : MetricLabels) : resolveKey labelNames (some labels) ≠ resolveKey labelNames none := by
  have hne : labelNames ≠ [] := List.ne_nil_of_length_pos (by omega)
  intro heq
  have hwritten := toList_joinWith labels hne plain
  have hempty : joinWith "|" (labelNames.map (labelText labels)) = "" :=
    LabelValue.own.inj ((resolveKey_several h labels).symm.trans heq)
  rw [hempty] at hwritten
  obtain ⟨name, rest, rfl⟩ := List.exists_cons_of_ne_nil hne
  have hlen := congrArg List.length hwritten
  simp [opening] at hlen

theorem runsOn_single (value value' : String → List Char) (name : String) :
    ¬ RunsOn opening value value' [name] := by
  rintro ⟨before, i, after, surplus, hsplit, -, hne, -, hrest⟩
  have hlen := congrArg List.length hsplit
  simp only [List.length_append, List.length_cons, List.length_nil] at hlen
  obtain rfl : after = [] := List.length_eq_zero_iff.mp (by omega)
  exact hne (List.append_eq_nil_iff.mp hrest.symm).1

/-- With one label name nothing clashes. -/
theorem not_clash_single (name : String) (labels labels' : Option MetricLabels) :
    ¬ Clash [name] labels labels' := by
  rintro (⟨hlen, -⟩ | hruns)
  · simp at hlen
  · exact runsOn_single _ _ name hruns

/-- Label values without a bar do not run on. -/
theorem not_clash_of_plain {labels : Option MetricLabels} {labels' : MetricLabels}
    (hobject : labels ≠ none)
    (hplain : ∀ name ∈ labelNames, '|' ∉ (labelValue (some labels') name).toList) :
    ¬ Clash labelNames labels (some labels') := by
  rintro (_ | hruns)
  · exact hobject rfl
  · obtain ⟨name, hname, hbar⟩ := hruns.mem (a := '|') fun _ _ => rfl
    exact hplain name hname hbar

theorem agree_iff_toList {labels labels' : MetricLabels} :
    Agree labelNames (some labels) (some labels') ↔ ∀ name ∈ labelNames,
      (labelValue (some labels) name).toList = (labelValue (some labels') name).toList := by
  simp only [Agree, String.toList_inj]

/-- The key follows the labels unless the two arguments clash. -/
theorem resolveKey_follows_iff (hne : labelNames ≠ []) (plain : Plain labelNames)
    (labels labels' : Option MetricLabels) :
    (resolveKey labelNames labels = resolveKey labelNames labels' ↔
        Agree labelNames labels labels') ↔
      ¬ Clash labelNames labels labels' ∧ ¬ Clash labelNames labels' labels := by
  by_cases hseveral : 2 ≤ labelNames.length
  · rcases labels with _ | labels <;> rcases labels' with _ | labels'
    · refine iff_of_true (iff_of_true rfl fun _ _ => rfl) ⟨?_, ?_⟩ <;>
        · intro h
          cases h
    · have hkeys := (resolveKey_ne_absent hseveral plain labels').symm
      constructor
      · intro h
        refine ⟨?_, fun hclash => (by cases hclash)⟩
        rintro (⟨-, hempty⟩ | _)
        exact hkeys (h.mpr fun name hname => (hempty name hname).symm)
      · intro h
        refine iff_of_false hkeys fun hagree => h.1 (.absent hseveral ?_)
        exact fun name hname => (hagree name hname).symm
    · have hkeys := resolveKey_ne_absent hseveral plain labels
      constructor
      · intro h
        refine ⟨fun hclash => (by cases hclash), ?_⟩
        rintro (⟨-, hempty⟩ | _)
        exact hkeys (h.mpr fun name hname => hempty name hname)
      · intro h
        exact iff_of_false hkeys fun hagree => h.2 (.absent hseveral hagree)
    · rw [resolveKey_eq_iff_written hseveral plain, agree_iff_toList]
      constructor
      · intro h
        constructor <;>
        · rintro (_ | hruns)
          obtain ⟨name, hname, hdiffer⟩ := hruns.differ
          first
            | exact hdiffer (h.mp hruns.written_eq name hname)
            | exact hdiffer (h.mp hruns.written_eq.symm name hname).symm
      · rintro ⟨hclash, hclash'⟩
        constructor
        · intro hwritten
          rcases agree_or_runsOn hwritten with hagree | hruns | hruns
          · exact hagree
          · exact (hclash (.runsOn hruns)).elim
          · exact (hclash' (.runsOn hruns)).elim
        · exact written_congr
  · obtain ⟨name, rfl⟩ : ∃ name, labelNames = [name] := by
      have hpos := List.length_pos_iff.mpr hne
      exact List.length_eq_one_iff.mp (by omega)
    refine iff_of_true ?_ ⟨not_clash_single name _ _, not_clash_single name _ _⟩
    rw [resolveKey_single plain, resolveKey_single plain]
    simp [Agree]

end Keys

section Labels

variable {labelNames : List String}

theorem filterAllowedLabels_of_plain (plain : Plain labelNames) (labels : MetricLabels) :
    filterAllowedLabels labelNames (some labels) = labelNames.foldl (fun filtered name =>
      (labels.get? name).elim filtered (filtered.set name)) ∅ := by
  rw [filterAllowedLabels]
  refine List.foldl_ext _ _ _ fun filtered name hname => ?_
  have hname' := plain name hname
  have hproto : name ≠ "__proto__" := by
    rintro rfl
    exact hname' (by decide)
  rw [if_neg hproto, readLabel_of_plain labels hname']
  cases labels.get? name <;> rfl

theorem get?_filterAllowedLabels (plain : Plain labelNames) (labels : MetricLabels)
    (name : String) : (filterAllowedLabels labelNames (some labels)).get? name =
      if name ∈ labelNames then labels.get? name else none := by
  have hfold : ∀ (names : List String) (filtered : MetricLabels),
      (names.foldl (fun filtered name =>
        (labels.get? name).elim filtered (filtered.set name)) filtered).get? name =
      if name ∈ names then (labels.get? name <|> filtered.get? name) else filtered.get? name := by
    intro names
    induction names with
    | nil => exact fun filtered => rfl
    | cons first rest ih =>
        intro filtered
        rw [List.foldl_cons, ih]
        by_cases hfirst : name = first
        · subst hfirst
          cases labels.get? name <;> simp
        · cases labels.get? first <;> simp [hfirst, OrderedMap.get?_set_ne]
  rw [filterAllowedLabels_of_plain plain, hfold]
  simp

/-- The labels of a sample agree with the ones of the call that opened its series. -/
theorem labelValue_filterAllowedLabels (plain : Plain labelNames)
    (labels : Option MetricLabels) {name : String} (h : name ∈ labelNames) :
    labelValue (some (filterAllowedLabels labelNames labels)) name = labelValue labels name := by
  cases labels with
  | none => rfl
  | some labels => simp [labelValue, get?_filterAllowedLabels plain, h]

end Labels

namespace Counter

/-- The calls that feed a series. -/
def fed (labelNames : List String) (key : LabelValue) (calls : List Inc) : List Inc :=
  calls.filter fun call => resolveKey labelNames call.labels = key

/-- The sum of the values of some calls, in their order. -/
def sumOf (add : Number → Number → Number) (calls : List Inc) : Number :=
  total add (calls.map Inc.value)

/-- The series which calls leave under a key. -/
def seriesOf (add : Number → Number → Number) (labelNames : List String) (key : LabelValue)
    (calls : List Inc) : Option LabeledSeries :=
  (fed labelNames key calls).head?.map fun opener =>
    { labels := filterAllowedLabels labelNames opener.labels
      value := sumOf add (fed labelNames key calls) }

/-- The counter holds the series of the calls. -/
structure Holds (add : Number → Number → Number) (c : Counter) (labelNames : List String)
    (calls : List Inc) : Prop where
  labelNames_eq : c.labelNames = labelNames
  series : ∀ key, c.series.get? key = seriesOf add labelNames key calls

/-- A call of `inc` with an allowed value and allowed labels. -/
def Allowed (call : Inc) : Prop :=
  (Number.ofInt 0).le call.value = true ∧ assertLowCardinalityLabels call.labels = .ok ()

variable {add : Number → Number → Number} {c : Counter} {labelNames : List String}
variable {calls : List Inc}

theorem holds_create {name : String} {help : Option String}
    (h : create name help (some labelNames) = .ok c) : c.Holds add labelNames [] := by
  rw [create] at h
  split at h
  · cases h
  · cases h
    exact ⟨rfl, fun _ => rfl⟩

theorem fed_append_self (call : Inc) (calls : List Inc) :
    fed labelNames (resolveKey labelNames call.labels) (calls ++ [call]) =
      fed labelNames (resolveKey labelNames call.labels) calls ++ [call] := by
  simp [fed]

theorem fed_append_ne {call : Inc} {key : LabelValue} (h : key ≠ resolveKey labelNames call.labels)
    (calls : List Inc) : fed labelNames key (calls ++ [call]) = fed labelNames key calls := by
  simp [fed, h.symm]

theorem sumOf_append_singleton (calls : List Inc) (call : Inc) :
    sumOf add (calls ++ [call]) = add (sumOf add calls) call.value := by
  simp [sumOf]

/-- A call opens the series of its labels, or adds to it; the others stay. -/
theorem Holds.inc (h : c.Holds add labelNames calls) (hne : labelNames ≠ []) {call : Inc}
    (hcall : Allowed call) : ∃ c', c.inc add call.labels (some call.value) = .ok c' ∧
      c'.Holds add labelNames (calls ++ [call]) := by
  obtain ⟨hvalue, hlabels⟩ := hcall
  have hnames : ¬ labelNames.length = 0 := fun hlen => hne (List.length_eq_zero_iff.mp hlen)
  obtain ⟨entry, hentry, hopener, htotal⟩ : ∃ entry, c.seriesFor call.labels = .ok entry ∧
      entry.labels = filterAllowedLabels labelNames
        ((fed labelNames (resolveKey labelNames call.labels) calls ++ [call]).head
          (by simp)).labels ∧
      entry.value = sumOf add (fed labelNames (resolveKey labelNames call.labels) calls) := by
    rw [seriesFor, h.labelNames_eq, h.series, seriesOf]
    cases hfed : fed labelNames (resolveKey labelNames call.labels) calls with
    | nil => exact ⟨_, by rw [hlabels]; rfl, rfl, rfl⟩
    | cons opener rest => exact ⟨_, rfl, rfl, rfl⟩
  refine ⟨{ c with
    series := c.series.set (resolveKey labelNames call.labels)
      { labels := entry.labels, value := add entry.value call.value } }, ?_, ?_, ?_⟩
  · have hfilter : (some call.value).filter (Number.ofInt 0).le = some call.value := by
      rw [Option.filter_some, if_pos hvalue]
    simp only [Counter.inc, hfilter, hentry, h.labelNames_eq, if_neg hnames]
    rfl
  · exact h.labelNames_eq
  · intro key
    by_cases hkey : key = resolveKey labelNames call.labels
    · subst hkey
      rw [OrderedMap.get?_set_self, seriesOf, fed_append_self, sumOf_append_singleton,
        List.head?_eq_some_head (by simp), hopener, htotal]
      rfl
    · rw [OrderedMap.get?_set_ne hkey, h.series, seriesOf, seriesOf, fed_append_ne hkey]

theorem Holds.incs (h : c.Holds add labelNames calls) (hne : labelNames ≠ []) (calls' : List Inc)
    (hcalls : ∀ call ∈ calls', Allowed call) :
    ∃ c', c.incs add calls' = .ok c' ∧ c'.Holds add labelNames (calls ++ calls') := by
  induction calls' generalizing c calls with
  | nil => exact ⟨c, rfl, by simpa using h⟩
  | cons call rest ih =>
      obtain ⟨hcall, hrest⟩ := List.forall_mem_cons.mp hcalls
      obtain ⟨c', hinc, hholds⟩ := h.inc hne hcall
      obtain ⟨c'', hincs, hholds'⟩ := ih hholds hrest
      refine ⟨c'', ?_, by simpa using hholds'⟩
      simp only [Counter.incs, List.foldlM_cons, hinc]
      exact hincs

/-- `get` sums up the calls which feed the series it reads. -/
theorem Holds.get (h : c.Holds add labelNames calls) (hne : labelNames ≠ [])
    (query : Option MetricLabels) :
    c.get query = sumOf add (fed labelNames (resolveKey labelNames query) calls) := by
  have hnames : ¬ labelNames.length = 0 := fun hlen => hne (List.length_eq_zero_iff.mp hlen)
  rw [Counter.get, h.labelNames_eq, if_neg hnames, h.series, seriesOf]
  cases fed labelNames (resolveKey labelNames query) calls with
  | nil => rfl
  | cons opener rest => rfl

/-- The labels of a sample are the allowed ones of a call that feeds its series. -/
theorem Holds.opener (h : c.Holds add labelNames calls) {key : LabelValue} {entry : LabeledSeries}
    (hentry : (key, entry) ∈ c.series.entries) : ∃ call ∈ calls,
      resolveKey labelNames call.labels = key ∧
        entry.labels = filterAllowedLabels labelNames call.labels := by
  have hget := OrderedMap.mem_entries_iff.mp hentry
  rw [h.series, seriesOf, Option.map_eq_some_iff] at hget
  obtain ⟨opener, hopener, rfl⟩ := hget
  obtain ⟨hcall, hkey⟩ := List.mem_filter.mp (List.mem_of_mem_head? hopener)
  exact ⟨opener, hcall, of_decide_eq_true hkey, rfl⟩

theorem Holds.collect (h : c.Holds add labelNames calls) (hne : labelNames ≠ [])
    (plain : Plain labelNames)
    (hfollows : ∀ call ∈ calls, ∀ call' ∈ calls, Agree labelNames call.labels call'.labels →
      resolveKey labelNames call.labels = resolveKey labelNames call'.labels) :
    c.collect.Pairwise fun sample sample' => ¬ Agree labelNames sample.labels sample'.labels := by
  have hnames : ¬ labelNames.length = 0 := fun hlen => hne (List.length_eq_zero_iff.mp hlen)
  rw [Counter.collect, h.labelNames_eq, if_neg hnames, List.pairwise_map, OrderedMap.values,
    List.pairwise_map]
  have hkeys : c.series.entries.Pairwise fun e e' => e.1 ≠ e'.1 :=
    List.pairwise_map.mp c.series.nodup
  apply hkeys.imp_of_mem
  rintro ⟨key, entry⟩ ⟨key', entry'⟩ hmem hmem' hne hagree
  obtain ⟨call, hcall, rfl, hlabels⟩ := h.opener hmem
  obtain ⟨call', hcall', rfl, hlabels'⟩ := h.opener hmem'
  apply hne
  apply hfollows call hcall call' hcall'
  intro name hname
  rw [← labelValue_filterAllowedLabels plain call.labels hname,
    ← labelValue_filterAllowedLabels plain call'.labels hname, ← hlabels, ← hlabels']
  exact hagree name hname

/-- Where keys follow the labels, so do the sums. -/
theorem fed_eq_filter {query : Option MetricLabels}
    (hfollows : ∀ call ∈ calls, (resolveKey labelNames call.labels = resolveKey labelNames query ↔
      Agree labelNames call.labels query)) :
    fed labelNames (resolveKey labelNames query) calls =
      calls.filter fun call => Agree labelNames query call.labels := by
  apply List.filter_congr
  intro call hcall
  rw [decide_eq_decide, hfollows call hcall]
  exact ⟨Agree.symm, Agree.symm⟩

/-- The call with one unit among calls with zero. -/
def single (before : List (Option MetricLabels)) (labels : Option MetricLabels)
    (after : List (Option MetricLabels)) : List Inc :=
  before.map (Inc.mk · (.ofInt 0)) ++ ⟨labels, .ofInt 1⟩ :: after.map (Inc.mk · (.ofInt 0))

theorem single_allowed {before : List (Option MetricLabels)} {labels : Option MetricLabels}
    {after : List (Option MetricLabels)} :
    ∀ call ∈ single before labels after, (Number.ofInt 0).le call.value = true := by
  have hzero : (Number.ofInt 0).le (.ofInt 0) = true := by decide +kernel
  have hone : (Number.ofInt 0).le (.ofInt 1) = true := by decide +kernel
  intro call hcall
  rw [single, List.mem_append, List.mem_cons] at hcall
  rcases hcall with hcall | rfl | hcall
  · obtain ⟨_, -, rfl⟩ := List.mem_map.mp hcall
    exact hzero
  · exact hone
  · obtain ⟨_, -, rfl⟩ := List.mem_map.mp hcall
    exact hzero

theorem foldl_zeros (zero : AddsZero add) (labels : List (Option MetricLabels)) (p : Inc → Bool)
    {x : Number} (hx : x.isPositive = true ∨ x = .ofInt 0) :
    (((labels.map (Inc.mk · (.ofInt 0))).filter p).map Inc.value).foldl add x = x := by
  induction labels with
  | nil => rfl
  | cons l labels ih =>
      rw [List.map_cons, List.filter_cons]
      split
      · rw [List.map_cons, List.foldl_cons, zero.add_zero x hx, ih]
      · exact ih

/-- A selection of these calls sums up to nothing unless it has the one call. -/
theorem sumOf_filter_single (zero : AddsZero add) (before : List (Option MetricLabels))
    (labels : Option MetricLabels) (after : List (Option MetricLabels)) (p : Inc → Bool) :
    sumOf add ((single before labels after).filter p) ≠ .ofInt 0 ↔
      p ⟨labels, .ofInt 1⟩ = true := by
  have hone : Number.ofInt 1 ≠ .ofInt 0 := by decide
  have hpositive : (Number.ofInt 1).isPositive = true := by decide
  rw [sumOf, total, single, List.filter_append, List.map_append, List.foldl_append,
    foldl_zeros zero before p (.inr rfl), List.filter_cons]
  split
  · rename_i hp
    rw [List.map_cons, List.foldl_cons, zero.zero_add _ (.inl hpositive),
      foldl_zeros zero after p (.inl hpositive)]
    exact iff_of_true hone hp
  · rename_i hp
    rw [foldl_zeros zero after p (.inr rfl)]
    exact iff_of_false (fun h => h rfl) hp

/-- For calls of `inc` with given labels on a new counter with label names: the counter keeps
the identity of the series, whatever the increments, if and only if no two of the label
arguments clash, the ones of `get` included. -/
theorem counter_series_identity_iff (zero : AddsZero add) {name : String} {help : Option String}
    (hc : create name help (some labelNames) = .ok c) (hne : labelNames ≠ [])
    (plain : Plain labelNames) (labels queries : List (Option MetricLabels))
    (hlabels : ∀ l ∈ labels, assertLowCardinalityLabels l = .ok ()) :
    (∀ calls : List Inc, calls.map Inc.labels = labels →
        (∀ call ∈ calls, (Number.ofInt 0).le call.value = true) →
        ∃ c', c.incs add calls = .ok c' ∧ c.SeriesIdentity add c' calls queries) ↔
      ∀ l ∈ labels, ∀ l' ∈ labels ++ queries,
        ¬ Clash labelNames l l' ∧ ¬ Clash labelNames l' l := by
  have hnew : c.Holds add labelNames [] := holds_create hc
  have hnames := hnew.labelNames_eq
  have hrun : ∀ calls : List Inc, calls.map Inc.labels = labels →
      (∀ call ∈ calls, (Number.ofInt 0).le call.value = true) →
      ∃ c', c.incs add calls = .ok c' ∧ c'.Holds add labelNames calls := by
    intro calls hcalls hvalues
    apply hnew.incs hne calls
    intro call hcall
    refine ⟨hvalues call hcall, hlabels _ ?_⟩
    rw [← hcalls]
    exact List.mem_map_of_mem hcall
  constructor
  · intro h l hl l' hl'
    rw [← resolveKey_follows_iff hne plain]
    obtain ⟨before, after, hsplit⟩ := List.append_of_mem hl
    -- all increments are zero but the one of the call with `l`
    have hcalls : (single before l after).map Inc.labels = labels := by
      simp [single, hsplit, Function.comp_def]
    obtain ⟨c', hincs, hidentity⟩ := h _ hcalls single_allowed
    obtain ⟨c'', hincs', hholds⟩ := hrun _ hcalls single_allowed
    obtain rfl : c' = c'' := Except.ok.inj (hincs.symm.trans hincs')
    rcases List.mem_append.mp hl' with hmem | hquery
    · rw [← hcalls] at hl hmem
      obtain ⟨call, hcall, rfl⟩ := List.mem_map.mp hl
      obtain ⟨call', hcall', rfl⟩ := List.mem_map.mp hmem
      have hseries := hidentity.series call hcall call' hcall'
      rwa [hnames] at hseries
    · have htotal := hidentity.totals l' hquery
      rw [hholds.get hne, hnames] at htotal
      have hkey := sumOf_filter_single zero before l after fun call =>
        resolveKey labelNames call.labels = resolveKey labelNames l'
      have hagree := sumOf_filter_single zero before l after fun call =>
        Agree labelNames l' call.labels
      rw [fed] at htotal
      rw [htotal] at hkey
      have hiff := hkey.symm.trans hagree
      rw [decide_eq_true_iff, decide_eq_true_iff] at hiff
      exact hiff.trans ⟨Agree.symm, Agree.symm⟩
  · intro h calls hcalls hvalues
    have hfollows : ∀ call ∈ calls, ∀ l' ∈ labels ++ queries,
        (resolveKey labelNames call.labels = resolveKey labelNames l' ↔
          Agree labelNames call.labels l') := by
      intro call hcall l' hl'
      rw [resolveKey_follows_iff hne plain]
      refine h _ ?_ l' hl'
      rw [← hcalls]
      exact List.mem_map_of_mem hcall
    have hmem : ∀ call ∈ calls, call.labels ∈ labels ++ queries := by
      intro call hcall
      rw [← hcalls]
      exact List.mem_append_left _ (List.mem_map_of_mem hcall)
    obtain ⟨c', hincs, hholds⟩ := hrun calls hcalls hvalues
    refine ⟨c', hincs, ?_, ?_, ?_⟩
    · rw [hnames]
      exact fun call hcall call' hcall' => hfollows call hcall _ (hmem call' hcall')
    · intro query hquery
      rw [hholds.get hne, hnames]
      exact congrArg (sumOf add) (fed_eq_filter fun call hcall =>
        hfollows call hcall query (List.mem_append_right _ hquery))
    · rw [hnames]
      exact hholds.collect hne plain fun call hcall call' hcall' =>
        (hfollows call hcall _ (hmem call' hcall')).mpr

theorem addsZero_addWhole : AddsZero addWhole where
  zero_add x _ := if_pos rfl
  add_zero x hx := by
    rw [addWhole]
    split
    · rename_i hzero
      exact hzero.symm
    · exact if_pos rfl

/-- A counter with one label: a call without labels feeds the series of the empty label. -/
theorem counter_series_identity_single :
    ∃ c', Counter.incs addWhole { name := "errors", help := "", labelNames := ["reason"] }
        [⟨none, .ofInt 2⟩, ⟨some (.set ∅ "reason" "timeout"), .ofInt 3⟩,
          ⟨some ∅, .ofInt 5⟩] = .ok c' ∧
      Counter.SeriesIdentity addWhole { name := "errors", help := "", labelNames := ["reason"] } c'
        [⟨none, .ofInt 2⟩, ⟨some (.set ∅ "reason" "timeout"), .ofInt 3⟩, ⟨some ∅, .ofInt 5⟩]
        [some (.set ∅ "reason" "")] ∧
      c'.get (some (.set ∅ "reason" "")) = .ofInt 7 := by
  have hplain : Plain ["reason"] := by decide
  obtain ⟨c', hincs, hidentity⟩ := (counter_series_identity_iff addsZero_addWhole
    (show create "errors" none (some ["reason"]) = .ok _ by rfl) (by decide) hplain
    [none, some (.set ∅ "reason" "timeout"), some ∅] [some (.set ∅ "reason" "")]
    (by decide +kernel)).mpr
    (fun _ _ _ _ => ⟨not_clash_single _ _ _, not_clash_single _ _ _⟩)
    [⟨none, .ofInt 2⟩, ⟨some (.set ∅ "reason" "timeout"), .ofInt 3⟩, ⟨some ∅, .ofInt 5⟩] rfl
    (by decide +kernel)
  have htotal := hidentity.totals _ (List.mem_singleton_self _)
  exact ⟨c', hincs, hidentity, htotal.trans (by decide +kernel)⟩

/-- A call without a label object and one with an empty object agree on every label and feed
two series, both collected without labels; and two objects that differ feed one series. -/
theorem series_confused :
    (Agree ["type", "reason"] none (some ∅) ∧
      (Counter.incs addWhole { name := "errors", help := "", labelNames := ["type", "reason"] }
        [⟨none, .ofInt 1⟩, ⟨some ∅, .ofInt 1⟩]).map (fun c => (c.get none, c.collect)) =
        .ok (.ofInt 1, [⟨"errors", some ∅, .ofInt 1⟩, ⟨"errors", some ∅, .ofInt 1⟩])) ∧
    ¬ Agree ["type", "reason"] (some (.set (.set ∅ "type" "a|reason=b") "reason" "c"))
        (some (.set (.set ∅ "type" "a") "reason" "b|reason=c")) ∧
      (Counter.incs addWhole { name := "errors", help := "", labelNames := ["type", "reason"] }
        [⟨some (.set (.set ∅ "type" "a|reason=b") "reason" "c"), .ofInt 1⟩,
          ⟨some (.set (.set ∅ "type" "a") "reason" "b|reason=c"), .ofInt 1⟩]).map
          (fun c => c.get (some (.set (.set ∅ "type" "a") "reason" "b|reason=c"))) =
        .ok (.ofInt 2) := by
  decide +kernel

end Counter

end Pulse
