import Mathlib.Data.List.Basic

/-!
# Delimited texts

The pieces of a text which is split at a separator; and a record written as the texts of
its fields, each behind an opening which names the field. Nothing is escaped, so two
records can be written alike. They are if and only if they agree, or a value runs on into
what the other record has as openings and values.
-/

namespace Collections

universe u v

variable {ι : Type u} {α : Type v}

/-- No piece of a split text has the separator. -/
theorem not_mem_of_mem_splitOn [BEq α] [LawfulBEq α] {a : α} {xs l : List α}
    (h : l ∈ xs.splitOn a) : a ∉ l := by
  induction xs generalizing l with
  | nil =>
      rw [List.splitOn_nil, List.mem_singleton] at h
      simp [h]
  | cons x xs ih =>
      rw [List.splitOn_cons_eq_if_modifyHead] at h
      obtain ⟨first, rest, heq⟩ := List.exists_cons_of_ne_nil (List.splitOn_ne_nil a xs)
      rw [heq] at h ih
      by_cases hx : x = a
      · rw [if_pos (by simpa using hx)] at h
        obtain rfl | hl := List.mem_cons.mp h
        · exact List.not_mem_nil
        · exact ih hl
      · rw [if_neg (by simpa using hx), List.modifyHead_cons] at h
        obtain rfl | hl := List.mem_cons.mp h
        · have hfirst : a ∉ first := ih List.mem_cons_self
          simp [hfirst, Ne.symm hx]
        · exact ih (List.mem_cons_of_mem _ hl)

/-- The values of the fields, each behind the opening of its field. -/
def written (opening value : ι → List α) (fields : List ι) : List α :=
  fields.flatMap fun i => opening i ++ value i

@[simp] theorem written_nil (opening value : ι → List α) : written opening value [] = [] := rfl

@[simp] theorem written_cons (opening value : ι → List α) (i : ι) (fields : List ι) :
    written opening value (i :: fields) =
      opening i ++ (value i ++ written opening value fields) := by
  simp [written]

theorem written_congr {opening value value' : ι → List α} {fields : List ι}
    (h : ∀ i ∈ fields, value i = value' i) :
    written opening value fields = written opening value' fields := by
  have hpieces : ∀ i ∈ fields, opening i ++ value i = opening i ++ value' i := by
    intro i hi
    rw [h i hi]
  rw [written, written, List.flatMap_def, List.flatMap_def, List.map_congr_left hpieces]

/-- In the first field where they differ, the value of `value'` is the one of `value` and
more, and what is written behind the shorter one begins with the surplus. -/
def RunsOn (opening value value' : ι → List α) (fields : List ι) : Prop :=
  ∃ before i after surplus, fields = before ++ i :: after ∧
    (∀ j ∈ before, value j = value' j) ∧ surplus ≠ [] ∧ value' i = value i ++ surplus ∧
    written opening value after = surplus ++ written opening value' after

variable {opening value value' : ι → List α} {fields : List ι}

theorem RunsOn.differ (h : RunsOn opening value value' fields) :
    ∃ i ∈ fields, value i ≠ value' i := by
  obtain ⟨before, i, after, surplus, rfl, -, hne, hvalue, -⟩ := h
  refine ⟨i, by simp, ?_⟩
  intro heq
  rw [heq] at hvalue
  exact hne (List.self_eq_append_right.mp hvalue)

theorem RunsOn.written_eq (h : RunsOn opening value value' fields) :
    written opening value fields = written opening value' fields := by
  obtain ⟨before, i, after, surplus, rfl, hbefore, -, hvalue, hrest⟩ := h
  have hsplit : ∀ value : ι → List α, written opening value (before ++ i :: after) =
      written opening value before ++
        (opening i ++ (value i ++ written opening value after)) := by
    intro value
    simp [written]
  rw [hsplit, hsplit, written_congr hbefore, hvalue, hrest, List.append_assoc]

theorem RunsOn.cons {i : ι} (heq : value i = value' i) (h : RunsOn opening value value' fields) :
    RunsOn opening value value' (i :: fields) := by
  obtain ⟨before, j, after, surplus, rfl, hbefore, hrest⟩ := h
  exact ⟨i :: before, j, after, surplus, rfl, List.forall_mem_cons.mpr ⟨heq, hbefore⟩, hrest⟩

/-- Records which are written alike agree, or one of them runs on. -/
theorem agree_or_runsOn (h : written opening value fields = written opening value' fields) :
    (∀ i ∈ fields, value i = value' i) ∨ RunsOn opening value value' fields ∨
      RunsOn opening value' value fields := by
  induction fields with
  | nil => exact Or.inl fun i hi => absurd hi List.not_mem_nil
  | cons i fields ih =>
      rw [written_cons, written_cons] at h
      have hrest := List.append_cancel_left h
      by_cases heq : value i = value' i
      · rw [heq] at hrest
        rcases ih (List.append_cancel_left hrest) with hagree | hruns | hruns
        · exact Or.inl (List.forall_mem_cons.mpr ⟨heq, hagree⟩)
        · exact Or.inr (Or.inl (hruns.cons heq))
        · exact Or.inr (Or.inr (hruns.cons heq.symm))
      · rcases List.append_eq_append_iff.mp hrest with ⟨surplus, hvalue, hafter⟩ |
          ⟨surplus, hvalue, hafter⟩
        · have hne : surplus ≠ [] := fun hnil => heq (by rw [hvalue, hnil, List.append_nil])
          exact Or.inr (Or.inl ⟨[], i, fields, surplus, rfl, List.forall_mem_nil _, hne, hvalue,
            hafter⟩)
        · have hne : surplus ≠ [] := fun hnil => heq (by rw [hvalue, hnil, List.append_nil])
          exact Or.inr (Or.inr ⟨[], i, fields, surplus, rfl, List.forall_mem_nil _, hne, hvalue,
            hafter⟩)

/-- A value that runs on holds the first letter of an opening. -/
theorem RunsOn.mem {a : α} (hopening : ∀ i ∈ fields, (opening i).head? = some a)
    (h : RunsOn opening value value' fields) : ∃ i ∈ fields, a ∈ value' i := by
  obtain ⟨before, i, after, surplus, rfl, -, hne, hvalue, hrest⟩ := h
  refine ⟨i, by simp, ?_⟩
  obtain ⟨c, rest, rfl⟩ := List.exists_cons_of_ne_nil hne
  cases after with
  | nil => simp at hrest
  | cons j after =>
      obtain ⟨opening', hopening'⟩ := List.head?_eq_some_iff.mp (hopening j (by simp))
      rw [written_cons, hopening', List.cons_append, List.cons_append] at hrest
      rw [hvalue, (List.cons.inj hrest).1]
      simp

end Collections
