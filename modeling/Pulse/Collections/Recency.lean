import Mathlib.Data.List.Dedup
import Mathlib.Data.List.Perm.Subperm
import Mathlib.Data.List.TakeWhile

/-!
# Least recently used order

A bounded collection which keeps its keys in the order of their last use, and
makes room for a new key by dropping the first one. A key that is used goes to the
end, so the keys behind it were all used after it. It follows that a key survives
as long as fewer distinct other keys than the capacity were used since its own
last use. Both the order and the uses are lists, the newest last.
-/

namespace Collections

universe u

variable {κ : Type u} [DecidableEq κ]

/-- The keys behind `k` in the order. -/
def behind (k : κ) (order : List κ) : List κ := (order.dropWhile fun j => decide (j ≠ k)).tail

/-- The uses since the last use of `k`, the newest first. -/
def usesSince (k : κ) (uses : List κ) : List κ := uses.reverse.takeWhile fun j => decide (j ≠ k)

/-- How many distinct other keys were used since the last use of `k`. -/
def othersSince (k : κ) (uses : List κ) : Nat := (usesSince k uses).dedup.length

/-- The key is present, and whatever is behind it was used after it. -/
def Retained (k : κ) (order uses : List κ) : Prop :=
  k ∈ order ∧ ∀ j ∈ behind k order, j ∈ usesSince k uses

theorem usesSince_append_ne {k j : κ} (h : j ≠ k) (uses : List κ) :
    usesSince k (uses ++ [j]) = j :: usesSince k uses := by
  simp [usesSince, h]

/-- Distinct keys which were all used since then are counted. -/
theorem length_le_othersSince {k : κ} {uses l : List κ} (nodup : l.Nodup)
    (used : ∀ j ∈ l, j ∈ usesSince k uses) : l.length ≤ othersSince k uses := by
  refine (List.subperm_of_subset nodup ?_).length_le
  exact fun j hj => List.mem_dedup.mpr (used j hj)

theorem othersSince_le_append {k j : κ} (h : j ≠ k) (uses : List κ) :
    othersSince k uses ≤ othersSince k (uses ++ [j]) := by
  refine length_le_othersSince (List.nodup_dedup _) ?_
  intro i hi
  rw [usesSince_append_ne h]
  exact List.mem_cons_of_mem j (List.mem_dedup.mp hi)

theorem behind_append_self {k : κ} {order : List κ} (h : k ∉ order) :
    behind k (order ++ [k]) = [] := by
  have hdrop : order.dropWhile (fun j => decide (j ≠ k)) = [] := by
    rw [List.dropWhile_eq_nil_iff]
    intro j hj
    exact decide_eq_true fun heq => h (heq ▸ hj)
  rw [behind, List.dropWhile_append, hdrop]
  simp

theorem behind_append_ne {k : κ} {order : List κ} (h : k ∈ order) (j : κ) :
    behind k (order ++ [j]) = behind k order ++ [j] := by
  have hdrop : order.dropWhile (fun j => decide (j ≠ k)) ≠ [] := by
    intro hnil
    rw [List.dropWhile_eq_nil_iff] at hnil
    exact of_decide_eq_true (hnil k h) rfl
  rw [behind, List.dropWhile_append]
  simp only [List.isEmpty_iff, hdrop, if_false]
  exact List.tail_append_of_ne_nil hdrop

theorem behind_erase_subset {k j : κ} (h : j ≠ k) (order : List κ) :
    ∀ i ∈ behind k (order.erase j), i ∈ behind k order := by
  induction order with
  | nil => exact fun _ hi => hi
  | cons a rest ih =>
      intro i hi
      by_cases haj : a = j
      · subst haj
        simp only [List.erase_cons_head] at hi
        simpa [behind, h] using hi
      · rw [List.erase_cons_tail (by simpa using haj)] at hi
        by_cases hak : a = k
        · subst hak
          simp only [behind, ne_eq, not_true_eq_false, decide_false, Bool.false_eq_true,
            not_false_eq_true, List.dropWhile_cons_of_neg, List.tail_cons] at hi ⊢
          exact List.mem_of_mem_erase hi
        · have hskip : ∀ l : List κ, behind k (a :: l) = behind k l := fun l => by
            simp [behind, hak]
          rw [hskip] at hi ⊢
          exact ih i hi

/-- A key that was used goes to the end and is retained. -/
theorem retained_self {k : κ} {order : List κ} (h : k ∉ order) (uses : List κ) :
    Retained k (order ++ [k]) (uses ++ [k]) := by
  refine ⟨List.mem_append_right _ (List.mem_singleton_self k), ?_⟩
  rw [behind_append_self h]
  exact fun j hj => absurd hj List.not_mem_nil

theorem Retained.erase {k j : κ} {order uses : List κ} (h : Retained k order uses)
    (hj : j ≠ k) : Retained k (order.erase j) uses :=
  ⟨(List.mem_erase_of_ne hj.symm).mpr h.1,
    fun i hi => h.2 i (behind_erase_subset hj order i hi)⟩

theorem Retained.append {k j : κ} {order uses : List κ} (h : Retained k order uses)
    (hj : j ≠ k) : Retained k (order ++ [j]) (uses ++ [j]) := by
  refine ⟨List.mem_append_left _ h.1, ?_⟩
  intro i hi
  rw [behind_append_ne h.1, List.mem_append, List.mem_singleton] at hi
  rw [usesSince_append_ne hj, List.mem_cons]
  rcases hi with hi | rfl
  · exact Or.inr (h.2 i hi)
  · exact Or.inl rfl

/-- Keys at the front of the order may go. -/
theorem Retained.suffix {k : κ} {dropped order uses : List κ}
    (h : Retained k (dropped ++ order) uses) (hk : k ∉ dropped) : Retained k order uses := by
  have hskip : ∀ j ∈ dropped, decide (j ≠ k) = true := by
    intro j hj
    exact decide_eq_true fun heq => hk (heq ▸ hj)
  refine ⟨(List.mem_append.mp h.1).resolve_left hk, fun j hj => h.2 j ?_⟩
  rw [behind, List.dropWhile_append_of_pos hskip]
  exact hj

/-- The first key of a full order may go when a new key comes: by then as many distinct
other keys as the order holds were used. -/
theorem Retained.length_le_of_first {k j : κ} {rest uses : List κ}
    (h : Retained k (k :: rest) uses) (nodup : rest.Nodup) (hj : j ≠ k) (new : j ∉ rest) :
    (k :: rest).length ≤ othersSince k (uses ++ [j]) := by
  have hbehind : behind k (k :: rest) = rest := by simp [behind]
  refine length_le_othersSince (l := j :: rest) (List.nodup_cons.mpr ⟨new, nodup⟩) ?_
  intro i hi
  rw [usesSince_append_ne hj, List.mem_cons]
  rcases List.mem_cons.mp hi with rfl | hi
  · exact Or.inl rfl
  · refine Or.inr (h.2 i ?_)
    rw [hbehind]
    exact hi

end Collections
