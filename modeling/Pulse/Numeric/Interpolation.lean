import Mathlib.Algebra.Order.Floor.Semiring
import Mathlib.Algebra.Order.Round
import Mathlib.Algebra.Order.BigOperators.Group.List
import Mathlib.Tactic.FieldSimp
import Mathlib.Tactic.Linarith
import Mathlib.Tactic.Ring

/-!
# Interpolation at fractional ranks, and rounding to a grid

A sequence is read at a fractional rank by weighing its two neighbours. If the
sequence increases up to `n`, so does its reading on `[0, n]`. Rounding to the
multiples of `1 / d` keeps the order too, and fixes these multiples only.
-/

namespace Pulse

section Interpolate

variable {K : Type*} [Field K] [LinearOrder K] [IsStrictOrderedRing K] [FloorSemiring K]

/-- The sequence `f` at rank `x`, between the ranks below and above it. -/
def interpolate (f : ℕ → K) (x : K) : K :=
  f ⌊x⌋₊ * (1 - (x - ⌊x⌋₊)) + f ⌈x⌉₊ * (x - ⌊x⌋₊)

omit [IsStrictOrderedRing K] in
theorem interpolate_eq (f : ℕ → K) (x : K) :
    interpolate f x = f ⌊x⌋₊ + (x - ⌊x⌋₊) * (f ⌈x⌉₊ - f ⌊x⌋₊) := by
  simp only [interpolate]
  ring

@[simp] theorem interpolate_natCast (f : ℕ → K) (n : ℕ) : interpolate f (n : K) = f n := by
  simp [interpolate]

theorem floor_weight_nonneg {x : K} (h : 0 ≤ x) : 0 ≤ x - ⌊x⌋₊ :=
  sub_nonneg.mpr (Nat.floor_le h)

theorem floor_weight_le_one (x : K) : x - ⌊x⌋₊ ≤ 1 := by
  have := (Nat.lt_floor_add_one x).le
  linarith

omit [IsStrictOrderedRing K] in
/-- Off the integers, the rank above is the successor of the rank below. -/
theorem ceil_eq_floor_add_one {x : K} (h : (⌊x⌋₊ : K) < x) : ⌈x⌉₊ = ⌊x⌋₊ + 1 := by
  apply le_antisymm (Nat.ceil_le_floor_add_one x)
  exact Nat.succ_le_of_lt (Nat.lt_ceil.mpr h)

variable {f : ℕ → K} {n : ℕ} {x y : K}

theorem apply_floor_le_apply_ceil (hf : MonotoneOn f (Set.Iic n)) (hn : x ≤ n) :
    f ⌊x⌋₊ ≤ f ⌈x⌉₊ :=
  hf (Set.mem_Iic.mpr ((Nat.floor_le_ceil x).trans (Nat.ceil_le.mpr hn)))
    (Set.mem_Iic.mpr (Nat.ceil_le.mpr hn)) (Nat.floor_le_ceil x)

theorem le_interpolate (hf : MonotoneOn f (Set.Iic n)) (h : 0 ≤ x) (hn : x ≤ n) :
    f ⌊x⌋₊ ≤ interpolate f x := by
  have := mul_nonneg (floor_weight_nonneg h) (sub_nonneg.mpr (apply_floor_le_apply_ceil hf hn))
  linarith [interpolate_eq f x]

theorem interpolate_le (hf : MonotoneOn f (Set.Iic n)) (hn : x ≤ n) :
    interpolate f x ≤ f ⌈x⌉₊ := by
  have hstep := sub_nonneg.mpr (apply_floor_le_apply_ceil hf hn)
  have := mul_le_mul_of_nonneg_right (floor_weight_le_one x) hstep
  linarith [interpolate_eq f x]

/-- A sequence which increases up to `n` is read at increasing ranks as
increasing values. -/
theorem interpolate_mono (hf : MonotoneOn f (Set.Iic n)) (h : 0 ≤ x) (hxy : x ≤ y) (hn : y ≤ n) :
    interpolate f x ≤ interpolate f y := by
  have hy : 0 ≤ y := h.trans hxy
  rcases (Nat.floor_mono hxy).lt_or_eq with hlt | heq
  · -- a rank of the sequence lies between `x` and `y`
    have hceil : ⌈x⌉₊ ≤ ⌊y⌋₊ := (Nat.ceil_le_floor_add_one x).trans hlt
    have hfloor : ⌊y⌋₊ ≤ n := (Nat.floor_le_ceil y).trans (Nat.ceil_le.mpr hn)
    calc interpolate f x ≤ f ⌈x⌉₊ := interpolate_le hf (hxy.trans hn)
      _ ≤ f ⌊y⌋₊ := hf (Set.mem_Iic.mpr (hceil.trans hfloor)) (Set.mem_Iic.mpr hfloor) hceil
      _ ≤ interpolate f y := le_interpolate hf hy hn
  · rcases (Nat.floor_le h).lt_or_eq with hx | hx
    · -- both lie strictly inside the same step
      have hup : ⌈x⌉₊ = ⌈y⌉₊ := by
        rw [ceil_eq_floor_add_one hx, ceil_eq_floor_add_one (heq ▸ hx.trans_le hxy), heq]
      have hle : f ⌊y⌋₊ ≤ f ⌈y⌉₊ := apply_floor_le_apply_ceil hf hn
      have hstep : (x - ⌊y⌋₊) * (f ⌈y⌉₊ - f ⌊y⌋₊) ≤ (y - ⌊y⌋₊) * (f ⌈y⌉₊ - f ⌊y⌋₊) :=
        mul_le_mul_of_nonneg_right (by linarith) (sub_nonneg.mpr hle)
      rw [interpolate_eq f x, interpolate_eq f y, heq, hup]
      linarith
    · -- `x` is a rank of the sequence
      have hread : interpolate f x = f ⌊x⌋₊ := by
        rw [interpolate_eq, sub_eq_zero.mpr hx.symm, zero_mul, add_zero]
      rw [hread, heq]
      exact le_interpolate hf hy hn

end Interpolate

section RoundTo

variable {K : Type*} [Field K] [LinearOrder K] [IsStrictOrderedRing K] [FloorRing K]

/-- The multiple of `1 / d` nearest to `x`, the greater of two. -/
def roundTo (d : ℕ) (x : K) : K := round (x * d) / d

theorem roundTo_mono (d : ℕ) : Monotone (roundTo d : K → K) := by
  intro x y h
  have hd : (0 : K) ≤ d := Nat.cast_nonneg d
  have hround : round (x * d) ≤ round (y * d) := by
    rw [round_eq, round_eq]
    exact Int.floor_mono (by have := mul_le_mul_of_nonneg_right h hd; linarith)
  exact div_le_div_of_nonneg_right (Int.cast_le.mpr hround) hd

/-- Rounding fixes the grid, and nothing else. -/
theorem roundTo_eq_self_iff {d : ℕ} (hd : d ≠ 0) {x : K} :
    roundTo d x = x ↔ ∃ k : ℤ, x = k / d := by
  have hd' : (d : K) ≠ 0 := Nat.cast_ne_zero.mpr hd
  constructor
  · intro h
    exact ⟨_, h.symm⟩
  · rintro ⟨k, rfl⟩
    rw [roundTo, div_mul_cancel₀ _ hd', round_intCast]

end RoundTo

section Mean

variable {K : Type*} [Field K] [LinearOrder K] [IsStrictOrderedRing K]

theorem le_mean {l : List K} {a : K} (hl : l ≠ []) (h : ∀ x ∈ l, a ≤ x) :
    a ≤ l.sum / l.length := by
  have hpos : (0 : K) < l.length := Nat.cast_pos.mpr (List.length_pos_iff.mpr hl)
  rw [le_div_iff₀ hpos, mul_comm, ← nsmul_eq_mul]
  exact l.card_nsmul_le_sum a h

theorem mean_le {l : List K} {a : K} (hl : l ≠ []) (h : ∀ x ∈ l, x ≤ a) :
    l.sum / l.length ≤ a := by
  have hpos : (0 : K) < l.length := Nat.cast_pos.mpr (List.length_pos_iff.mpr hl)
  rw [div_le_iff₀ hpos, mul_comm, ← nsmul_eq_mul]
  exact l.sum_le_card_nsmul a h

end Mean

end Pulse
