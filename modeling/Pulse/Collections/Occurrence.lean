import Mathlib.Data.List.Infix

/-!
# Occurrences of a list in a list

The first occurrence of a value in a stream, and when a segment of the stream
shows it: an occurrence is seen in a segment exactly when it lies within it.
-/

namespace Collections

universe u

variable {α : Type u} {value l : List α}

/-- The list has the value at this index. -/
def OccursAt (value l : List α) (i : Nat) : Prop := value <+: l.drop i

instance [DecidableEq α] (i : Nat) : Decidable (OccursAt value l i) :=
  inferInstanceAs (Decidable (_ <+: _))

namespace OccursAt

theorem bound {i : Nat} (nonempty : value ≠ []) (h : OccursAt value l i) :
    i + value.length ≤ l.length := by
  have fits : value.length ≤ (l.drop i).length := List.IsPrefix.length_le h
  have := List.length_pos_iff.mpr nonempty
  rw [List.length_drop] at fits
  omega

theorem append_left_iff (left : List α) {i : Nat} :
    OccursAt value (left ++ l) (left.length + i) ↔ OccursAt value l i := by
  rw [OccursAt, OccursAt, List.drop_append, List.drop_eq_nil_of_le (by omega), List.nil_append,
    Nat.add_sub_cancel_left]

theorem append_right (right : List α) {i : Nat} (h : OccursAt value l i) :
    OccursAt value (l ++ right) i := by
  rw [OccursAt, List.drop_append]
  exact List.IsPrefix.trans h (List.prefix_append _ _)

theorem of_append_right {right : List α} {i : Nat} (h : OccursAt value (l ++ right) i)
    (there : i + value.length ≤ l.length) : OccursAt value l i := by
  rw [OccursAt, List.drop_append_of_le_length (by omega)] at h
  refine List.prefix_of_prefix_length_le h (List.prefix_append _ right) ?_
  rw [List.length_drop]
  omega

end OccursAt

section search

variable [DecidableEq α]

/-- The index of the first occurrence. -/
def indexOf (value l : List α) : Option Nat := l.tails.findIdx? fun tail => value <+: tail

theorem indexOf_eq_some_iff (nonempty : value ≠ []) {i : Nat} :
    indexOf value l = some i ↔ OccursAt value l i ∧ ∀ j < i, ¬ OccursAt value l j := by
  simp only [indexOf, List.findIdx?_eq_some_iff_getElem, List.getElem_tails, decide_eq_true_eq,
    List.length_tails]
  constructor
  · rintro ⟨-, occurs, first⟩
    exact ⟨occurs, first⟩
  · rintro ⟨occurs, first⟩
    have := occurs.bound nonempty
    exact ⟨by omega, occurs, first⟩

/-- The first occurrence is not changed by what follows. -/
theorem indexOf_append (nonempty : value ≠ []) {i : Nat} (h : indexOf value l = some i)
    (right : List α) : indexOf value (l ++ right) = some i := by
  obtain ⟨occurs, first⟩ := (indexOf_eq_some_iff nonempty).mp h
  have := occurs.bound nonempty
  refine (indexOf_eq_some_iff nonempty).mpr ⟨occurs.append_right right, ?_⟩
  intro j hj occurs'
  exact first j hj (occurs'.of_append_right (by omega))

variable {before segment after : List α}

/-- An occurrence in a segment is one in the whole. -/
theorem occursAt_of_indexOf_segment (nonempty : value ≠ []) (before after : List α) {i : Nat}
    (h : indexOf value segment = some i) :
    OccursAt value (before ++ (segment ++ after)) (before.length + i) := by
  have occurs := ((indexOf_eq_some_iff nonempty).mp h).1
  exact (OccursAt.append_left_iff before).mpr (occurs.append_right after)

/-- The segment within which the first occurrence lies shows it. -/
theorem indexOf_segment (nonempty : value ≠ []) {i : Nat}
    (h : indexOf value (before ++ (segment ++ after)) = some (before.length + i))
    (there : i + value.length ≤ segment.length) : indexOf value segment = some i := by
  obtain ⟨occurs, first⟩ := (indexOf_eq_some_iff nonempty).mp h
  refine (indexOf_eq_some_iff nonempty).mpr ⟨?_, ?_⟩
  · exact ((OccursAt.append_left_iff before).mp occurs).of_append_right there
  · intro j hj occurs'
    refine first (before.length + j) (by omega) ?_
    exact (OccursAt.append_left_iff before).mpr (occurs'.append_right after)

/-- A segment which ends before the first occurrence does shows none. -/
theorem indexOf_segment_eq_none (nonempty : value ≠ []) {i : Nat}
    (h : indexOf value (before ++ (segment ++ after)) = some i)
    (ends : before.length + segment.length < i + value.length) : indexOf value segment = none := by
  cases found : indexOf value segment with
  | none => rfl
  | some j =>
      have occurs := occursAt_of_indexOf_segment nonempty before after found
      have inside := ((indexOf_eq_some_iff nonempty).mp found).1.bound nonempty
      exact absurd occurs (((indexOf_eq_some_iff nonempty).mp h).2 _ (by omega))

end search

end Collections
