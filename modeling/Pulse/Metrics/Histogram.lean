import Mathlib.Algebra.Order.Monoid.WithTop
import Pulse.Collections.Cumulative
import Pulse.Js.Numeral
import Pulse.Metrics.Tally

/-!
# Histograms

A histogram keeps for each series the cumulative counts of its buckets, the sum and the
number of the observations. The constructor sorts the boundaries and refuses those that
are not positive or occur twice, so that the buckets of a histogram ascend.
-/

namespace Pulse

open Collections Js

/-- The size of a number which is not negative; `⊤` is that of `Infinity`. -/
abbrev Amount := WithTop ℚ

def amountOf : Number → Amount
  | .infinity _ => ⊤
  | n => (n.value : ℚ)

/-- Approved cumulative latency bucket boundaries in seconds. -/
def DEFAULT_LATENCY_BUCKETS : List Number :=
  [.decimal false 5 (-4), .decimal false 1 (-3), .decimal false 2 (-3), .decimal false 5 (-3),
    .decimal false 1 (-2), .decimal false 25 (-3), .decimal false 5 (-2), .decimal false 1 (-1),
    .decimal false 25 (-2), .decimal false 5 (-1), .decimal false 1 0]

structure HistogramSeries where
  labels : MetricLabels
  bucketCounts : List Nat
  sum : Number
  count : Nat
  deriving DecidableEq

structure HistogramBucket where
  /-- The upper bound; `Infinity` in the last bucket. -/
  le : Number
  count : Nat
  deriving DecidableEq

structure HistogramValue where
  buckets : List HistogramBucket
  sum : Number
  count : Nat
  deriving DecidableEq

/-- One boundary lies below the other. -/
def Below (b b' : Number) : Prop := b.le b' = true ∧ b'.le b = false

structure Histogram where
  name : String
  help : String
  labelNames : List String
  buckets : List Number
  ascending : buckets.Pairwise Below
  positive : ∀ bound ∈ buckets, bound.isPositive = true
  unlabelledSeries : HistogramSeries
  seriesMap : OrderedMap LabelValue HistogramSeries := ∅

namespace HistogramSeries

/-- A series without observations. -/
def fresh (buckets : List Number) (labels : MetricLabels) : HistogramSeries :=
  { labels, bucketCounts := List.replicate buckets.length 0, sum := .ofInt 0, count := 0 }

/-- Count an observation in every bucket whose boundary is not below it. -/
def observe (add : Number → Number → Number) (buckets : List Number) (val : Number)
    (s : HistogramSeries) : HistogramSeries :=
  { s with
    count := s.count + 1
    sum := add s.sum val
    bucketCounts :=
      List.zipWith (fun bound n => if val.le bound then n + 1 else n) buckets s.bucketCounts }

def clear (s : HistogramSeries) : HistogramSeries :=
  { s with bucketCounts := s.bucketCounts.map fun _ => 0, sum := .ofInt 0, count := 0 }

end HistogramSeries

namespace Histogram

/-- The check of the sorted boundaries, behind `previous`. -/
def checkBuckets : Option Number → List Number → Except String Unit
  | _, [] => .ok ()
  | previous, bound :: rest =>
      if !bound.isPositive then
        .error ("Histogram bucket boundaries must be positive numbers; received " ++
          numberText (some bound))
      else if previous.any fun b => b.le bound && bound.le b then
        .error ("Duplicate bucket boundary detected in histogram: " ++ numberText (some bound))
      else checkBuckets (some bound) rest

/-- The ascending order of `sort`. -/
def sortBuckets (buckets : List Number) : List Number :=
  buckets.insertionSort fun b b' => b.le b' = true

theorem checkBuckets_positive {previous : Option Number} {buckets : List Number}
    (h : checkBuckets previous buckets = .ok ()) :
    ∀ bound ∈ buckets, bound.isPositive = true := by
  induction buckets generalizing previous with
  | nil => exact fun _ hbound => absurd hbound List.not_mem_nil
  | cons bound rest ih =>
      rw [checkBuckets] at h
      split at h
      · cases h
      · rename_i hpositive
        split at h
        · cases h
        · exact List.forall_mem_cons.mpr ⟨by simpa using hpositive, ih h⟩

theorem below_iff {b b' : Number} : Below b b' ↔ b.rank < b'.rank := by
  rw [Below, lt_iff_le_not_ge, ← Number.le_iff_rank_le, ← Number.le_iff_rank_le,
    Bool.not_eq_true]

/-- Sorted boundaries that pass the check ascend. -/
theorem checkBuckets_ascending {previous : Option Number} {buckets : List Number}
    (h : checkBuckets previous buckets = .ok ())
    (sorted : buckets.Pairwise fun b b' => b.le b' = true) : buckets.Pairwise Below := by
  induction buckets generalizing previous with
  | nil => exact .nil
  | cons bound rest ih =>
      rw [checkBuckets] at h
      split at h
      · cases h
      · split at h
        · cases h
        · obtain ⟨hbound, hsorted⟩ := List.pairwise_cons.mp sorted
          have hrest := ih h hsorted
          refine List.pairwise_cons.mpr ⟨?_, hrest⟩
          cases rest with
          | nil => exact fun _ hmem => absurd hmem List.not_mem_nil
          | cons next rest =>
              have hnext : Below bound next := by
                refine ⟨hbound next List.mem_cons_self, ?_⟩
                rw [checkBuckets] at h
                split at h
                · cases h
                · split at h
                  · cases h
                  · rename_i hdistinct
                    have hle := hbound next List.mem_cons_self
                    simpa [hle] using hdistinct
              refine List.forall_mem_cons.mpr ⟨hnext, fun b hb => ?_⟩
              have hlater := (List.pairwise_cons.mp hrest).1 b hb
              exact below_iff.mpr ((below_iff.mp hnext).trans (below_iff.mp hlater))

theorem pairwise_sortBuckets (buckets : List Number) :
    (sortBuckets buckets).Pairwise fun b b' => b.le b' = true := by
  have : Std.Total fun b b' : Number => b.le b' = true :=
    ⟨fun b b' => by
      rw [Number.le_iff_rank_le, Number.le_iff_rank_le]
      exact le_total _ _⟩
  have : IsTrans Number fun b b' => b.le b' = true :=
    ⟨fun b b' b'' h h' => by
      rw [Number.le_iff_rank_le] at h h' ⊢
      exact h.trans h'⟩
  exact List.pairwise_insertionSort _ buckets

/-- The constructor; a boundary of `none` is `NaN`. -/
def create (name : String) (help : Option String) (labelNames : Option (List String))
    (buckets : Option (List (Option Number))) : Except String Histogram :=
  if name = "" then .error "Histogram name must be a non-empty string"
  else
    let rawBuckets := buckets.getD (DEFAULT_LATENCY_BUCKETS.map some)
    if none ∈ rawBuckets then
      .error ("Histogram bucket boundaries must be positive numbers; received " ++
        numberText none)
    else
      let sorted := sortBuckets (rawBuckets.filterMap fun bound => bound)
      match h : checkBuckets none sorted with
      | .error e => .error e
      | .ok _ =>
          .ok { name
                help := help.getD ""
                labelNames := labelNames.getD []
                buckets := sorted
                ascending := checkBuckets_ascending h (pairwise_sortBuckets _)
                positive := checkBuckets_positive h
                unlabelledSeries := .fresh sorted ∅ }

/-- Negative observations are clamped to zero. -/
def clamp (value : Number) : Number :=
  if (Number.ofInt 0).le value then value else .ofInt 0

def getOrCreateSeries (h : Histogram) (labels : Option MetricLabels) :
    Except String HistogramSeries :=
  Tally.openSeries h.seriesMap (resolveKey h.labelNames labels) labels
    (.fresh h.buckets (filterAllowedLabels h.labelNames labels))

/-- A value of `none` is `NaN`. -/
def record (add : Number → Number → Number) (h : Histogram) (value : Option Number)
    (labels : Option MetricLabels) : Except String Histogram :=
  match value with
  | none => .error ("Histogram observation value must be a valid number; received " ++
      numberText value)
  | some value =>
      let val := clamp value
      if h.labelNames.length = 0 then
        .ok { h with unlabelledSeries := h.unlabelledSeries.observe add h.buckets val }
      else do
        let series ← h.getOrCreateSeries labels
        return { h with
          seriesMap := h.seriesMap.set (resolveKey h.labelNames labels)
            (series.observe add h.buckets val) }

def getSeries (h : Histogram) (labels : Option MetricLabels) : Option HistogramSeries :=
  if h.labelNames.length = 0 then some h.unlabelledSeries
  else h.seriesMap.get? (resolveKey h.labelNames labels)

def buildBuckets (h : Histogram) (bucketCounts : List Nat) (totalCount : Nat) :
    List HistogramBucket :=
  List.zipWith HistogramBucket.mk h.buckets bucketCounts ++ [⟨.infinity false, totalCount⟩]

def getValue (h : Histogram) (labels : Option MetricLabels) : HistogramValue :=
  match h.getSeries labels with
  | none =>
      { buckets := h.buildBuckets (List.replicate h.buckets.length 0) 0
        sum := .ofInt 0
        count := 0 }
  | some series =>
      { buckets := h.buildBuckets series.bucketCounts series.count
        sum := series.sum
        count := series.count }

def reset (h : Histogram) : Histogram :=
  { h with
    unlabelledSeries := h.unlabelledSeries.clear
    seriesMap := h.seriesMap.mapValues .clear }

/-- The samples of one series. -/
def seriesSamples (h : Histogram) (s : HistogramSeries) : List MetricSample :=
  List.zipWith (fun bound n =>
      { name := h.name ++ "_bucket"
        labels := some (s.labels.set "le" (numberText (some bound)))
        value := .ofInt n }) h.buckets s.bucketCounts ++
    [{ name := h.name ++ "_bucket"
       labels := some (s.labels.set "le" "+Inf")
       value := .ofInt s.count },
     { name := h.name ++ "_sum", labels := some s.labels, value := s.sum },
     { name := h.name ++ "_count", labels := some s.labels, value := .ofInt s.count }]

def collect (h : Histogram) : List MetricSample :=
  let allSeries :=
    if h.labelNames.length = 0 then [h.unlabelledSeries] else h.seriesMap.values
  allSeries.flatMap h.seriesSamples

/-- A call of a histogram; one that throws changes nothing. -/
def call (add : Number → Number → Number) (h : Histogram) : MetricCall → Histogram
  | .add labels value =>
      match h.record add value labels with
      | .ok h' => h'
      | .error _ => h
  | .reset => h.reset

def after (add : Number → Number → Number) (h : Histogram) (calls : List MetricCall) :
    Histogram :=
  calls.foldl (call add) h

/-- Any number can be observed. -/
def observation (value : Option Number) : Option Number := value.map clamp

/-- What a histogram says of observations: for each boundary how many were up to it, how many
there were in all, and their sum in their order. -/
def valueOf (add : Number → Number → Number) (buckets : List Number)
    (observations : List Number) : HistogramValue :=
  { buckets := List.zipWith HistogramBucket.mk buckets
        (cumulative (buckets.map amountOf) (observations.map amountOf)) ++
      [⟨.infinity false, observations.length⟩]
    sum := total add observations
    count := observations.length }

end Histogram

namespace HistogramSeries

/-- The numbers of a series. -/
def data (s : HistogramSeries) : List Nat × Number × Nat := (s.bucketCounts, s.sum, s.count)

/-- The labels of a series and its numbers. -/
def read (s : HistogramSeries) : MetricLabels × List Nat × Number × Nat := (s.labels, s.data)

/-- The series with some labels and numbers. -/
def ofRead (p : MetricLabels × List Nat × Number × Nat) : HistogramSeries :=
  ⟨p.1, p.2.1, p.2.2.1, p.2.2.2⟩

/-- The numbers which observations lead to. -/
def dataOf (add : Number → Number → Number) (buckets : List Number)
    (observations : List Number) : List Nat × Number × Nat :=
  (cumulative (buckets.map amountOf) (observations.map amountOf), total add observations,
    observations.length)

variable {add : Number → Number → Number}

theorem data_fresh (buckets : List Number) (labels : MetricLabels) :
    (fresh buckets labels).data = dataOf add buckets [] := by
  rw [data, dataOf, fresh, List.map_nil, cumulative_nil, List.length_map]
  rfl

theorem read_fresh (buckets : List Number) (labels : MetricLabels) :
    (fresh buckets labels).read = (labels, dataOf add buckets []) := by
  rw [read, data_fresh]
  rfl

theorem read_clear {buckets : List Number} (s : HistogramSeries) (labels : MetricLabels)
    (observations : List Number) (h : s.read = (labels, dataOf add buckets observations)) :
    s.clear.read = (labels, dataOf add buckets []) := by
  obtain ⟨rfl, hdata⟩ := Prod.mk.inj h
  have hcounts : s.bucketCounts =
      cumulative (buckets.map amountOf) (observations.map amountOf) := congrArg Prod.fst hdata
  rw [read, data, dataOf, clear, List.map_nil, cumulative_nil, hcounts, List.map_const',
    length_cumulative]
  rfl

/-- Among numbers that are not negative the order is that of the amounts. -/
theorem le_iff_amountOf_le {m n : Number} (hm : (Number.ofInt 0).le m = true)
    (hn : (Number.ofInt 0).le n = true) : m.le n = true ↔ amountOf m ≤ amountOf n := by
  cases m with
  | infinity negative =>
      cases negative with
      | true => exact absurd hm (by decide)
      | false =>
          cases n with
          | infinity negative =>
              cases negative with
              | true => exact absurd hn (by decide)
              | false => exact iff_of_true rfl le_rfl
          | decimal negative digits exponent => simp [amountOf, Number.le]
  | decimal negative digits exponent =>
      cases n with
      | infinity negative =>
          cases negative with
          | true => exact absurd hn (by decide)
          | false => exact iff_of_true rfl le_top
      | decimal negative digits exponent => simp [amountOf, Number.le]

theorem zero_le_clamp (value : Number) :
    (Number.ofInt 0).le (Histogram.clamp value) = true := by
  rw [Histogram.clamp]
  split
  · assumption
  · exact (Number.le_iff_rank_le _ _).mpr le_rfl

theorem zero_le_of_isPositive {n : Number} (h : n.isPositive = true) :
    (Number.ofInt 0).le n = true := by
  cases n with
  | infinity negative => simpa [Number.isPositive, Number.le, Number.ofInt] using h
  | decimal negative digits exponent =>
      obtain ⟨rfl, hdigits⟩ : negative = false ∧ digits ≠ 0 := by
        simpa [Number.isPositive] using h
      have hvalue := (Number.value_pos hdigits exponent).le
      have hzero : (Number.ofInt 0).value = 0 := by
        simp [Number.ofInt, Number.normalize, Number.value]
      exact decide_eq_true (by rw [hzero]; simpa [Number.value] using hvalue)

theorem read_observe {buckets : List Number}
    (positive : ∀ bound ∈ buckets, bound.isPositive = true) {s : HistogramSeries}
    {labels : MetricLabels} {observations : List Number}
    (h : s.read = (labels, dataOf add buckets observations)) (value : Number) :
    (s.observe add buckets (Histogram.clamp value)).read =
      (labels, dataOf add buckets (observations ++ [Histogram.clamp value])) := by
  obtain ⟨rfl, hdata⟩ := Prod.mk.inj h
  obtain ⟨hcounts, hsum, hcount⟩ : s.bucketCounts =
      cumulative (buckets.map amountOf) (observations.map amountOf) ∧
        s.sum = total add observations ∧ s.count = observations.length := by
    simpa [data, dataOf] using hdata
  have hbuckets : List.zipWith
      (fun bound n => if (Histogram.clamp value).le bound then n + 1 else n) buckets
        (cumulative (buckets.map amountOf) (observations.map amountOf)) =
      cumulative (buckets.map amountOf)
        (observations.map amountOf ++ [amountOf (Histogram.clamp value)]) := by
    rw [cumulative_concat, List.zipWith_map_left, cumulative, List.map_map,
      List.zipWith_map_right, List.zipWith_map_right, List.zipWith_self, List.zipWith_self]
    refine List.map_congr_left fun bound hbound => ?_
    have hle := le_iff_amountOf_le (zero_le_clamp value)
      (zero_le_of_isPositive (positive bound hbound))
    simp only [hle]
  rw [read, data, dataOf, observe, hcounts, hsum, hcount, hbuckets, total_append_singleton,
    List.map_append, List.map_singleton, List.length_append, List.length_singleton]

end HistogramSeries

namespace Histogram

variable {add : Number → Number → Number} {h : Histogram} {t : Tally}

/-- The histogram shows the observations of the tally. -/
structure Shows (add : Number → Number → Number) (h : Histogram) (t : Tally) : Prop where
  sound : t.Sound
  unlabelled : h.labelNames.length = 0 →
    h.unlabelledSeries.read = (∅, HistogramSeries.dataOf add h.buckets (t.amounts (.own "")))
  labelled : h.labelNames.length ≠ 0 →
    t.ShownBy HistogramSeries.read (HistogramSeries.dataOf add h.buckets) h.seriesMap

theorem call_of_error {labels : Option MetricLabels} {value : Option Number} {e : String}
    (he : h.record add value labels = .error e) : h.call add (.add labels value) = h := by
  rw [call, he]

theorem call_of_ok {labels : Option MetricLabels} {value : Option Number} {h' : Histogram}
    (hh : h.record add value labels = .ok h') : h.call add (.add labels value) = h' := by
  rw [call, hh]

/-- The parts of a histogram that calls leave alone. -/
structure SameMetric (h h' : Histogram) : Prop where
  name : h.name = h'.name
  labelNames : h.labelNames = h'.labelNames
  buckets : h.buckets = h'.buckets

theorem Shows.call_add (hs : h.Shows add t) (labels : Option MetricLabels) (value : Option Number) :
    (h.call add (.add labels value)).Shows add
        (t.call observation h.labelNames (.add labels value)) ∧
      (h.call add (.add labels value)).SameMetric h := by
  cases value with
  | none =>
      rw [call_of_error (by rw [record]), Tally.call_of_refused (Or.inl rfl)]
      exact ⟨hs, rfl, rfl, rfl⟩
  | some n =>
      have hamount : observation (some n) = some (clamp n) := rfl
      by_cases hnames : h.labelNames.length = 0
      · have hrecord : h.record add (some n) labels = .ok { h with
            unlabelledSeries := h.unlabelledSeries.observe add h.buckets (clamp n) } := by
          simp only [record, if_pos hnames]
        have hkey : seriesKey h.labelNames labels = .own "" := if_pos hnames
        rw [call_of_ok hrecord, Tally.call_of_accepted hamount (Or.inl hnames), hkey]
        refine ⟨⟨hs.sound.enter (.own "") _ _, fun _ => ?_,
          fun hlabelled => absurd hnames hlabelled⟩, rfl, rfl, rfl⟩
        rw [Tally.amounts_enter, if_pos rfl]
        exact HistogramSeries.read_observe h.positive (hs.unlabelled hnames) n
      · have hkey : seriesKey h.labelNames labels = resolveKey h.labelNames labels :=
          if_neg hnames
        obtain ⟨haccepts, entry, hentry, hread⟩ | ⟨hrefuses, e, hentry⟩ :=
          (hs.labelled hnames).openSeries (HistogramSeries.read_fresh h.buckets
            (filterAllowedLabels h.labelNames labels)) hs.sound hnames
        · have hseries : h.getOrCreateSeries labels = .ok entry := hentry
          have hrecord : h.record add (some n) labels = .ok { h with
              seriesMap := h.seriesMap.set (resolveKey h.labelNames labels)
                (entry.observe add h.buckets (clamp n)) } := by
            simp only [record, if_neg hnames, hseries]
            rfl
          rw [call_of_ok hrecord, Tally.call_of_accepted hamount haccepts, hkey]
          refine ⟨⟨hs.sound.enter _ _ _, fun hempty => absurd hempty hnames, fun _ => ?_⟩,
            rfl, rfl, rfl⟩
          exact (hs.labelled hnames).set (HistogramSeries.read_observe h.positive hread n)
        · have hseries : h.getOrCreateSeries labels = .error e := hentry
          have hrecord : h.record add (some n) labels = .error e := by
            simp only [record, if_neg hnames, hseries]
            rfl
          rw [call_of_error hrecord, Tally.call_of_refused (Or.inr hrefuses)]
          exact ⟨hs, rfl, rfl, rfl⟩

theorem Shows.reset (hs : h.Shows add t) : h.reset.Shows add { t with log := [] } where
  sound _ _ := rfl
  unlabelled hnames := HistogramSeries.read_clear _ _ _ (hs.unlabelled hnames)
  labelled hnames := (hs.labelled hnames).reset HistogramSeries.read_clear

theorem Shows.after (hs : h.Shows add t) (calls : List MetricCall) :
    (h.after add calls).Shows add (calls.foldl (Tally.call observation h.labelNames) t) ∧
      (h.after add calls).SameMetric h := by
  induction calls generalizing h t with
  | nil => exact ⟨hs, rfl, rfl, rfl⟩
  | cons call calls ih =>
      obtain ⟨hcall, hname, hnames, hbuckets⟩ : (h.call add call).Shows add
          (t.call observation h.labelNames call) ∧ (h.call add call).SameMetric h := by
        cases call with
        | reset => exact ⟨hs.reset, rfl, rfl, rfl⟩
        | add labels value => exact hs.call_add labels value
      obtain ⟨hshows, hsame⟩ := ih hcall
      rw [hnames] at hshows
      exact ⟨hshows, hsame.name.trans hname, hsame.labelNames.trans hnames,
        hsame.buckets.trans hbuckets⟩

theorem Shows.getValue_eq (hs : h.Shows add t) (labels : Option MetricLabels) :
    h.getValue labels = valueOf add h.buckets (t.amounts (seriesKey h.labelNames labels)) := by
  have hvalue : ∀ {s : HistogramSeries} {observations : List Number},
      s.data = HistogramSeries.dataOf add h.buckets observations →
      ({ buckets := h.buildBuckets s.bucketCounts s.count, sum := s.sum, count := s.count } :
        HistogramValue) = valueOf add h.buckets observations := by
    intro s observations hdata
    obtain ⟨hcounts, hsum, hcount⟩ : s.bucketCounts =
        cumulative (h.buckets.map amountOf) (observations.map amountOf) ∧
          s.sum = total add observations ∧ s.count = observations.length := by
      simpa [HistogramSeries.data, HistogramSeries.dataOf] using hdata
    rw [hcounts, hsum, hcount]
    rfl
  by_cases hnames : h.labelNames.length = 0
  · rw [getValue, getSeries, if_pos hnames, seriesKey, if_pos hnames]
    exact hvalue (Prod.mk.inj (hs.unlabelled hnames)).2
  · have hread := (hs.labelled hnames).read_eq hs.sound (resolveKey h.labelNames labels)
    rw [getValue, getSeries, if_neg hnames, seriesKey, if_neg hnames]
    cases hseries : h.seriesMap.get? (resolveKey h.labelNames labels) with
    | some series =>
        rw [hseries] at hread
        exact hvalue hread
    | none =>
        rw [hseries] at hread
        have hfresh : (HistogramSeries.fresh h.buckets ∅).data =
            HistogramSeries.dataOf add h.buckets [] := HistogramSeries.data_fresh _ _
        exact hvalue (hfresh.trans hread)

/-- The boundaries of a value ascend up to the last bucket, and so do the counts. -/
theorem valueOf_pairwise (h : Histogram) (observations : List Number) :
    (valueOf add h.buckets observations).buckets.Pairwise
      fun b b' => b.le.le b'.le = true ∧ b.count ≤ b'.count := by
  rw [valueOf, cumulative, List.map_map, List.zipWith_map_right, List.zipWith_self,
    List.pairwise_append]
  refine ⟨?_, List.pairwise_singleton _ _, ?_⟩
  · refine List.pairwise_map.mpr (h.ascending.imp_of_mem fun {b b'} hb hb' hbelow => ?_)
    refine ⟨hbelow.1, List.countP_mono_left fun x _ hx => ?_⟩
    have hle := (HistogramSeries.le_iff_amountOf_le
      (HistogramSeries.zero_le_of_isPositive (h.positive b hb))
      (HistogramSeries.zero_le_of_isPositive (h.positive b' hb'))).mp hbelow.1
    exact decide_eq_true ((of_decide_eq_true hx : x ≤ amountOf b).trans hle)
  · intro bucket hbucket last hlast
    obtain ⟨b, -, rfl⟩ := List.mem_map.mp hbucket
    rw [List.mem_singleton.mp hlast]
    have hlength : (observations.map amountOf).length = observations.length := List.length_map _
    exact ⟨(Number.le_iff_rank_le _ _).mpr le_top, hlength ▸ List.countP_le_length⟩

/-- A new histogram shows an empty tally. -/
theorem shows_create {name : String} {help : Option String} {labelNames : Option (List String)}
    {buckets : Option (List (Option Number))}
    (created : create name help labelNames buckets = .ok h) : h.Shows add {} := by
  simp only [create] at created
  split at created
  · cases created
  · split at created
    · cases created
    · split at created
      · cases created
      · cases created
        exact ⟨fun _ _ => rfl, fun _ => HistogramSeries.read_fresh _ _,
          fun _ => ⟨rfl, fun _ => rfl⟩⟩

/-- After any calls, the ones that throw among them, a histogram shows for any labels the
observations of their series that were accepted since the last reset: for each boundary how
many of them were up to it, with ascending counts, their number, and their sum in the order of
the calls. -/
theorem getValue_after (add : Number → Number → Number) {name : String} {help : Option String}
    {labelNames : Option (List String)} {buckets : Option (List (Option Number))}
    (created : create name help labelNames buckets = .ok h) (calls : List MetricCall)
    (labels : Option MetricLabels) :
    (h.after add calls).getValue labels = valueOf add h.buckets
        ((Tally.after observation h.labelNames calls).amounts (seriesKey h.labelNames labels)) ∧
      ((h.after add calls).getValue labels).buckets.Pairwise
        fun b b' => b.le.le b'.le = true ∧ b.count ≤ b'.count := by
  have hnew : h.Shows add {} := shows_create created
  obtain ⟨hshows, -, hnames, hbuckets⟩ := hnew.after calls
  have hvalue := hshows.getValue_eq labels
  rw [hnames, hbuckets] at hvalue
  exact ⟨hvalue, hvalue ▸ valueOf_pairwise h _⟩

/-- Three observations in the default buckets, one of them clamped, and one that throws. -/
theorem getValue_after_four : ∃ h, create "latency_seconds" none none none = .ok h ∧
    (h.after addWhole [.add none (some (.ofInt 3)), .add none (some (.ofInt 2)),
      .add none none, .add none (some (.ofInt (-1)))]).getValue none =
        valueOf addWhole h.buckets ((Tally.after observation h.labelNames
          [.add none (some (.ofInt 3)), .add none (some (.ofInt 2)),
            .add none none, .add none (some (.ofInt (-1)))]).amounts
              (seriesKey h.labelNames none)) := by
  have hok : (create "latency_seconds" none none none).isOk = true := by decide +kernel
  cases created : create "latency_seconds" none none none with
  | error e =>
      rw [created] at hok
      cases hok
  | ok h => exact ⟨h, rfl, (getValue_after addWhole created _ none).1⟩

/-- The samples of a series with some observations. -/
def samplesOf (add : Number → Number → Number) (name : String) (buckets : List Number)
    (labels : MetricLabels) (observations : List Number) : List MetricSample :=
  (buckets.map fun bound =>
      { name := name ++ "_bucket"
        labels := some (labels.set "le" (numberText (some bound)))
        value := .ofInt (observations.countP fun x => decide (amountOf x ≤ amountOf bound)) }) ++
    [{ name := name ++ "_bucket"
       labels := some (labels.set "le" "+Inf")
       value := .ofInt observations.length },
     { name := name ++ "_sum", labels := some labels, value := total add observations },
     { name := name ++ "_count", labels := some labels, value := .ofInt observations.length }]

theorem seriesSamples_eq (h : Histogram) {s : HistogramSeries} {labels : MetricLabels}
    {observations : List Number}
    (hread : s.read = (labels, HistogramSeries.dataOf add h.buckets observations)) :
    h.seriesSamples s = samplesOf add h.name h.buckets labels observations := by
  obtain ⟨rfl, hdata⟩ := Prod.mk.inj hread
  obtain ⟨hcounts, hsum, hcount⟩ : s.bucketCounts =
      cumulative (h.buckets.map amountOf) (observations.map amountOf) ∧
        s.sum = total add observations ∧ s.count = observations.length := by
    simpa [HistogramSeries.data, HistogramSeries.dataOf] using hdata
  rw [seriesSamples, samplesOf, hcounts, hsum, hcount, cumulative, List.map_map,
    List.zipWith_map_right, List.zipWith_self]
  simp only [Function.comp_def, List.countP_map]

/-- The samples of a histogram for a tally. -/
def tallySamples (add : Number → Number → Number) (h : Histogram) (t : Tally) :
    List MetricSample :=
  if h.labelNames.length = 0 then samplesOf add h.name h.buckets ∅ (t.amounts (.own ""))
  else t.opened.entries.flatMap fun e => samplesOf add h.name h.buckets e.2 (t.amounts e.1)

/-- After any calls a histogram collects the samples of each opened series, in the order in
which they were opened, with the labels of the call that opened it. -/
theorem collect_after (add : Number → Number → Number) {name : String} {help : Option String}
    {labelNames : Option (List String)} {buckets : Option (List (Option Number))}
    (created : create name help labelNames buckets = .ok h) (calls : List MetricCall) :
    (h.after add calls).collect =
      h.tallySamples add (Tally.after observation h.labelNames calls) := by
  have hnew : h.Shows add {} := shows_create created
  obtain ⟨hshows, hname, hnames, hbuckets⟩ := hnew.after calls
  rw [← hnames] at hshows
  have hsamples : ∀ {s : HistogramSeries} {labels : MetricLabels} {observations : List Number},
      s.read = (labels, HistogramSeries.dataOf add (h.after add calls).buckets observations) →
        (h.after add calls).seriesSamples s =
          samplesOf add h.name h.buckets labels observations := by
    intro s labels observations hread
    rw [← hname, ← hbuckets]
    exact seriesSamples_eq _ hread
  rw [collect, tallySamples, hnames]
  by_cases hlabels : h.labelNames.length = 0
  · have hread := hshows.unlabelled (by rw [hnames]; exact hlabels)
    rw [if_pos hlabels, if_pos hlabels, List.flatMap_singleton, hsamples hread, hnames]
    rfl
  · have hvalues := congrArg
      (List.flatMap fun p => (h.after add calls).seriesSamples (HistogramSeries.ofRead p))
      (hshows.labelled (by rw [hnames]; exact hlabels)).map_values
    rw [List.flatMap_map, List.flatMap_map, hnames] at hvalues
    rw [if_neg hlabels, if_neg hlabels]
    refine hvalues.trans (List.flatMap_congr fun e _ => ?_)
    exact hsamples rfl

theorem checkBuckets_ok {previous : Option Number} {buckets : List Number}
    (positive : ∀ bound ∈ buckets, bound.isPositive = true)
    (ascending : (previous.toList ++ buckets).Pairwise Below) :
    checkBuckets previous buckets = .ok () := by
  induction buckets generalizing previous with
  | nil => rfl
  | cons bound rest ih =>
      obtain ⟨hpositive, hrest⟩ := List.forall_mem_cons.mp positive
      have hdistinct : (previous.any fun b => b.le bound && bound.le b) = false := by
        cases previous with
        | none => rfl
        | some b =>
            have hbelow := (List.pairwise_cons.mp ascending).1 bound List.mem_cons_self
            simp [hbelow.1, hbelow.2]
      rw [checkBuckets, hpositive, hdistinct]
      exact ih hrest (List.pairwise_append.mp ascending).2.1

theorem exists_map_some {l : List (Option Number)} (h : none ∉ l) :
    ∃ bounds : List Number, l = bounds.map some := by
  induction l with
  | nil => exact ⟨[], rfl⟩
  | cons first rest ih =>
      obtain ⟨bounds, rfl⟩ := ih fun hmem => h (List.mem_cons_of_mem _ hmem)
      cases first with
      | none => exact absurd List.mem_cons_self h
      | some bound => exact ⟨bound :: bounds, rfl⟩

/-- What the constructor takes are numbers, and it sorts them. -/
theorem create_ok {name : String} {help : Option String} {labelNames : Option (List String)}
    {buckets : Option (List (Option Number))}
    (created : create name help labelNames buckets = .ok h) :
    name ≠ "" ∧ ∃ bounds : List Number,
      buckets.getD (DEFAULT_LATENCY_BUCKETS.map some) = bounds.map some ∧
        h.buckets = sortBuckets bounds := by
  simp only [create] at created
  split at created
  · cases created
  · rename_i hname
    split at created
    · cases created
    · rename_i hnumbers
      obtain ⟨bounds, hbounds⟩ := exists_map_some hnumbers
      split at created
      · cases created
      · cases created
        refine ⟨hname, bounds, hbounds, ?_⟩
        show sortBuckets (List.filterMap (fun bound => bound) _) = _
        rw [hbounds]
        simp

/-- No two boundaries have one value. -/
def Distinct (bounds : List Number) : Prop :=
  bounds.Pairwise fun b b' => ¬ (b.le b' = true ∧ b'.le b = true)

theorem Distinct.perm {bounds bounds' : List Number} (h : Distinct bounds)
    (perm : bounds.Perm bounds') : Distinct bounds' :=
  (perm.pairwise_iff fun hbb' hb'b => hbb' hb'b.symm).mp h

/-- Numbers which are positive and have no two of one value pass the check. -/
theorem exists_create {name : String} (hname : name ≠ "") (help : Option String)
    (labelNames : Option (List String)) {buckets : Option (List (Option Number))}
    {bounds : List Number}
    (hbounds : buckets.getD (DEFAULT_LATENCY_BUCKETS.map some) = bounds.map some)
    (positive : ∀ bound ∈ bounds, bound.isPositive = true) (distinct : Distinct bounds) :
    ∃ h, create name help labelNames buckets = .ok h := by
  have hperm : (sortBuckets bounds).Perm bounds := List.perm_insertionSort _ bounds
  have hok : checkBuckets none (sortBuckets bounds) = .ok () := by
    apply checkBuckets_ok
    · exact fun bound hbound => positive bound (hperm.mem_iff.mp hbound)
    · have hsorted := (pairwise_sortBuckets bounds).and (distinct.perm hperm.symm)
      refine hsorted.imp fun {b b'} h => ⟨h.1, ?_⟩
      exact eq_false_of_ne_true fun hle => h.2 ⟨h.1, hle⟩
  have hnumbers : (bounds.map some).filterMap (fun bound => bound) = bounds := by simp
  have hnone : none ∉ buckets.getD (DEFAULT_LATENCY_BUCKETS.map some) := by simp [hbounds]
  rw [← hnumbers, ← hbounds] at hok
  simp only [create, if_neg hname, if_neg hnone]
  split
  · rename_i hcheck
    cases hok.symm.trans hcheck
  · exact ⟨_, rfl⟩

/-- The constructor takes a name and, as boundaries, numbers that are positive and have no two of
one value; these may be the default ones. Then the buckets are the boundaries in ascending
order. -/
theorem create_ok_iff (name : String) (help : Option String) (labelNames : Option (List String))
    (buckets : Option (List (Option Number))) :
    ((∃ h, create name help labelNames buckets = .ok h) ↔
      name ≠ "" ∧ ∃ bounds : List Number,
        buckets.getD (DEFAULT_LATENCY_BUCKETS.map some) = bounds.map some ∧
          (∀ bound ∈ bounds, bound.isPositive = true) ∧ Distinct bounds) ∧
      ∀ h, create name help labelNames buckets = .ok h → h.buckets.Pairwise Below ∧
        (h.buckets.map some).Perm (buckets.getD (DEFAULT_LATENCY_BUCKETS.map some)) := by
  refine ⟨⟨?_, ?_⟩, ?_⟩
  · rintro ⟨h, created⟩
    obtain ⟨hname, bounds, hbounds, hbuckets⟩ := create_ok created
    have hperm : h.buckets.Perm bounds := hbuckets ▸ List.perm_insertionSort _ bounds
    have hdistinct : Distinct h.buckets := h.ascending.imp fun {b b'} hbelow hequal =>
      absurd (hbelow.2.symm.trans hequal.2) Bool.false_ne_true
    exact ⟨hname, bounds, hbounds,
      fun bound hbound => h.positive bound (hperm.mem_iff.mpr hbound), hdistinct.perm hperm⟩
  · rintro ⟨hname, bounds, hbounds, hpositive, hdistinct⟩
    exact exists_create hname help labelNames hbounds hpositive hdistinct
  · intro h created
    obtain ⟨-, bounds, hbounds, hbuckets⟩ := create_ok created
    rw [hbounds, hbuckets]
    exact ⟨hbuckets ▸ h.ascending, (List.perm_insertionSort _ bounds).map some⟩

end Histogram

end Pulse
