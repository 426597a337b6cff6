import Mathlib.Data.List.GetD
import Mathlib.Data.List.Sort
import Mathlib.Data.Rat.Floor
import Pulse.Numeric.Interpolation

/-!
# Benchmark statistics

`StatsAggregator.calculatePercentiles` in exact rational arithmetic. The
percentiles are interpolated at fractional ranks of the sorted samples and
rounded to hundredths of a millisecond, except for a single sample, which
`getPercentile` returns as it is.
-/

namespace Pulse

namespace StatsAggregator

structure PercentileStats where
  minMs : ℚ
  maxMs : ℚ
  meanMs : ℚ
  p50Ms : ℚ
  p90Ms : ℚ
  p95Ms : ℚ
  p99Ms : ℚ
  count : ℕ
  deriving DecidableEq, Repr

/-- `Math.round(x * 100) / 100`. -/
def roundMs (x : ℚ) : ℚ := roundTo 100 x

def getPercentile (sorted : List ℚ) (p : ℚ) : ℚ :=
  if sorted.length = 1 then sorted.getD 0 0
  else
    let index := p / 100 * (sorted.length - 1)
    let lower := ⌊index⌋₊
    let upper := ⌈index⌉₊
    let weight := index - lower
    roundMs (sorted.getD lower 0 * (1 - weight) + sorted.getD upper 0 * weight)

def calculatePercentiles (samples : List ℚ) : PercentileStats :=
  if samples.length = 0 then
    { minMs := 0, maxMs := 0, meanMs := 0, p50Ms := 0, p90Ms := 0, p95Ms := 0, p99Ms := 0
      count := 0 }
  else
    let sorted := samples.insertionSort (· ≤ ·)
    let count := sorted.length
    { minMs := roundMs (sorted.getD 0 0)
      maxMs := roundMs (sorted.getD (count - 1) 0)
      meanMs := roundMs (sorted.sum / count)
      p50Ms := getPercentile sorted 50
      p90Ms := getPercentile sorted 90
      p95Ms := getPercentile sorted 95
      p99Ms := getPercentile sorted 99
      count := count }

/-- The percentiles ascend between the minimum and the maximum, and the mean
lies between these two. -/
structure PercentileStats.Ordered (s : PercentileStats) : Prop where
  min_le_p50 : s.minMs ≤ s.p50Ms
  p50_le_p90 : s.p50Ms ≤ s.p90Ms
  p90_le_p95 : s.p90Ms ≤ s.p95Ms
  p95_le_p99 : s.p95Ms ≤ s.p99Ms
  p99_le_max : s.p99Ms ≤ s.maxMs
  min_le_mean : s.minMs ≤ s.meanMs
  mean_le_max : s.meanMs ≤ s.maxMs

/-- A number of hundredths. -/
def Hundredths (x : ℚ) : Prop := ∃ k : ℤ, x = k / 100

theorem roundMs_mono : Monotone roundMs := roundTo_mono 100

theorem roundMs_eq_self_iff {x : ℚ} : roundMs x = x ↔ Hundredths x :=
  roundTo_eq_self_iff (by decide)

/-- The interpolated value is the sorted list's at the rank `p` percent of the
way to its last index. -/
theorem getPercentile_of_length_ne_one {sorted : List ℚ} (h : sorted.length ≠ 1) (p : ℚ) :
    getPercentile sorted p =
      roundMs (interpolate (sorted.getD · 0) (p / 100 * (sorted.length - 1))) := by
  simp only [getPercentile, if_neg h]
  rfl

section Sorted

variable {sorted : List ℚ}

theorem getD_monotoneOn (h : sorted.Pairwise (· ≤ ·)) :
    MonotoneOn (sorted.getD · 0) (Set.Iic (sorted.length - 1)) := by
  intro i hi j hj hij
  rcases sorted.eq_nil_or_concat with rfl | ⟨_, _, hne⟩
  · simp
  · have hpos : 0 < sorted.length := by simp [hne]
    have hj' : j < sorted.length := by have := Set.mem_Iic.mp hj; omega
    have hi' : i < sorted.length := by omega
    simp only [List.getD_eq_getElem _ _ hi', List.getD_eq_getElem _ _ hj']
    rcases hij.lt_or_eq with hlt | rfl
    · exact List.pairwise_iff_getElem.mp h i j hi' hj' hlt
    · exact le_rfl

theorem first_le (h : sorted.Pairwise (· ≤ ·)) {x : ℚ} (hx : x ∈ sorted) :
    sorted.getD 0 0 ≤ x := by
  obtain ⟨i, hi, rfl⟩ := List.getElem_of_mem hx
  have := getD_monotoneOn h (Set.mem_Iic.mpr (Nat.zero_le _))
    (Set.mem_Iic.mpr (Nat.le_sub_one_of_lt hi)) (Nat.zero_le i)
  simpa only [List.getD_eq_getElem _ _ hi] using this

theorem le_last (h : sorted.Pairwise (· ≤ ·)) {x : ℚ} (hx : x ∈ sorted) :
    x ≤ sorted.getD (sorted.length - 1) 0 := by
  obtain ⟨i, hi, rfl⟩ := List.getElem_of_mem hx
  have := getD_monotoneOn h (Set.mem_Iic.mpr (Nat.le_sub_one_of_lt hi))
    (Set.mem_Iic.mpr le_rfl) (Nat.le_sub_one_of_lt hi)
  simpa only [List.getD_eq_getElem _ _ hi] using this

/-- With two samples or more, the percentiles ascend with the percentage, from
the first sample to the last. -/
theorem getPercentile_mono (h : sorted.Pairwise (· ≤ ·)) (hlen : 2 ≤ sorted.length) {p q : ℚ}
    (hp : 0 ≤ p) (hpq : p ≤ q) (hq : q ≤ 100) :
    getPercentile sorted p ≤ getPercentile sorted q := by
  have hlast : ((sorted.length - 1 : ℕ) : ℚ) = sorted.length - 1 := by
    rw [Nat.cast_sub (by omega), Nat.cast_one]
  have hnonneg : (0 : ℚ) ≤ sorted.length - 1 := hlast ▸ Nat.cast_nonneg _
  rw [getPercentile_of_length_ne_one (by omega), getPercentile_of_length_ne_one (by omega)]
  apply roundMs_mono
  apply interpolate_mono (getD_monotoneOn h)
  · exact mul_nonneg (by linarith) hnonneg
  · exact mul_le_mul_of_nonneg_right (by linarith) hnonneg
  · rw [hlast]
    exact mul_le_of_le_one_left hnonneg (by linarith)

theorem getPercentile_zero (hlen : 2 ≤ sorted.length) :
    getPercentile sorted 0 = roundMs (sorted.getD 0 0) := by
  rw [getPercentile_of_length_ne_one (by omega), zero_div, zero_mul, ← Nat.cast_zero,
    interpolate_natCast]

theorem getPercentile_hundred (hlen : 2 ≤ sorted.length) :
    getPercentile sorted 100 = roundMs (sorted.getD (sorted.length - 1) 0) := by
  have hlast : (100 / 100 * (sorted.length - 1) : ℚ) = ((sorted.length - 1 : ℕ) : ℚ) := by
    rw [Nat.cast_sub (by omega), Nat.cast_one]
    ring
  rw [getPercentile_of_length_ne_one (by omega), hlast, interpolate_natCast]

end Sorted

/-- With two samples or more, everything `calculatePercentiles` returns is in order. -/
theorem ordered_of_two_le {samples : List ℚ} (h : 2 ≤ samples.length) :
    (calculatePercentiles samples).Ordered := by
  have hperm : (samples.insertionSort (· ≤ ·)).Perm samples := List.perm_insertionSort _ _
  have hsorted : (samples.insertionSort (· ≤ ·)).Pairwise (· ≤ ·) :=
    List.pairwise_insertionSort _ _
  have hlen : 2 ≤ (samples.insertionSort (· ≤ ·)).length := by rw [hperm.length_eq]; exact h
  simp only [calculatePercentiles, if_neg (show samples.length ≠ 0 by omega)]
  generalize samples.insertionSort (· ≤ ·) = sorted at hsorted hlen
  have hne : sorted ≠ [] := List.length_pos_iff.mp (by omega)
  constructor
  · rw [← getPercentile_zero hlen]
    exact getPercentile_mono hsorted hlen le_rfl (by norm_num) (by norm_num)
  · exact getPercentile_mono hsorted hlen (by norm_num) (by norm_num) (by norm_num)
  · exact getPercentile_mono hsorted hlen (by norm_num) (by norm_num) (by norm_num)
  · exact getPercentile_mono hsorted hlen (by norm_num) (by norm_num) (by norm_num)
  · rw [← getPercentile_hundred hlen]
    exact getPercentile_mono hsorted hlen (by norm_num) (by norm_num) le_rfl
  · exact roundMs_mono (le_mean hne fun x hx => first_le hsorted hx)
  · exact roundMs_mono (mean_le hne fun x hx => le_last hsorted hx)

/-- A single sample is every percentile as it is, while the minimum, the maximum
and the mean are rounded. -/
theorem calculatePercentiles_singleton (x : ℚ) :
    calculatePercentiles [x] =
      { minMs := roundMs x, maxMs := roundMs x, meanMs := roundMs x
        p50Ms := x, p90Ms := x, p95Ms := x, p99Ms := x, count := 1 } := by
  simp [calculatePercentiles, getPercentile]

theorem ordered_singleton_iff (x : ℚ) :
    (calculatePercentiles [x]).Ordered ↔ Hundredths x := by
  rw [calculatePercentiles_singleton, ← roundMs_eq_self_iff]
  constructor
  · intro h
    exact le_antisymm h.min_le_p50 h.p99_le_max
  · intro h
    exact ⟨h.le, le_rfl, le_rfl, le_rfl, h.ge, le_rfl, le_rfl⟩

/-- The statistics are in order unless there is exactly one sample and that is
no number of hundredths. -/
theorem calculatePercentiles_ordered_iff (samples : List ℚ) :
    (calculatePercentiles samples).Ordered ↔ ∀ x, samples = [x] → Hundredths x := by
  rcases Nat.lt_trichotomy samples.length 1 with h | h | h
  · obtain rfl : samples = [] := List.length_eq_zero_iff.mp (by omega)
    have hordered : (calculatePercentiles []).Ordered :=
      ⟨le_rfl, le_rfl, le_rfl, le_rfl, le_rfl, le_rfl, le_rfl⟩
    exact iff_of_true hordered fun x hx => (List.cons_ne_nil x [] hx.symm).elim
  · obtain ⟨y, rfl⟩ := List.length_eq_one_iff.mp h
    rw [ordered_singleton_iff]
    constructor
    · rintro hy x hx
      exact (List.singleton_inj.mp hx) ▸ hy
    · intro hy
      exact hy y rfl
  · apply iff_of_true (ordered_of_two_le h)
    rintro x rfl
    simp at h

/-- One sample of 1.234 ms: the 99th percentile is above the maximum of 1.23 ms. -/
theorem singleton_unordered :
    (∀ x ∈ [(1234 / 1000 : ℚ)], 0 ≤ x) ∧
      (calculatePercentiles [1234 / 1000]).maxMs < (calculatePercentiles [1234 / 1000]).p99Ms ∧
      ¬ (calculatePercentiles [1234 / 1000]).Ordered := by
  have hlt : (calculatePercentiles [1234 / 1000]).maxMs <
      (calculatePercentiles [1234 / 1000]).p99Ms := by decide +kernel
  exact ⟨by decide +kernel, hlt, fun h => absurd h.p99_le_max (not_le.mpr hlt)⟩

end StatsAggregator

end Pulse
