import Mathlib.Data.List.Basic
import Mathlib.Order.Lattice

/-!
# Cumulative counts

How many of some observations are at most each of several bounds. One more
observation adds one to the count of each bound which is not below it.
-/

namespace Collections

variable {α : Type*} [LinearOrder α] {bounds : List α}

/-- For each bound the number of observations up to it. -/
def cumulative (bounds observations : List α) : List Nat :=
  bounds.map fun bound => observations.countP fun x => decide (x ≤ bound)

@[simp] theorem length_cumulative (bounds observations : List α) :
    (cumulative bounds observations).length = bounds.length :=
  List.length_map _

theorem cumulative_nil (bounds : List α) :
    cumulative bounds [] = List.replicate bounds.length 0 := by
  rw [cumulative, List.map_eq_replicate_iff]
  intro bound _
  rfl

/-- One more observation. -/
theorem cumulative_concat (bounds observations : List α) (x : α) :
    cumulative bounds (observations ++ [x]) =
      List.zipWith (fun bound n => if x ≤ bound then n + 1 else n) bounds
        (cumulative bounds observations) := by
  rw [cumulative, cumulative, List.zipWith_map_right, List.zipWith_self]
  refine List.map_congr_left fun bound _ => ?_
  rw [List.countP_append, List.countP_singleton]
  split <;> simp_all

end Collections
