import Mathlib.Data.List.Induction
import Mathlib.Order.Lattice

/-!
# Records of a sequence

The entries of a sequence whose key exceeds the keys of all entries before. This is what
a register keeps that ignores everything not newer than its last entry. Whatever the
order of arrival and however often entries are repeated, the last record is an entry
with the greatest key.
-/

namespace Collections

universe u v

variable {α : Type u} {ω : Type v} [LinearOrder ω] (key : α → ω)

/-- Keep an entry if it is newer than the last one kept. -/
def record (kept : List α) (a : α) : List α :=
  match kept.getLast? with
  | none => kept ++ [a]
  | some last => if key a ≤ key last then kept else kept ++ [a]

def records (l : List α) : List α := l.foldl (record key) []

variable {key}

theorem records_append (l : List α) (a : α) :
    records key (l ++ [a]) = record key (records key l) a := by
  simp [records]

theorem record_of_le {kept : List α} {a last : α} (h : kept.getLast? = some last)
    (le : key a ≤ key last) : record key kept a = kept := by
  simp only [record, h, if_pos le]

theorem record_of_newer {kept : List α} {a : α}
    (newer : ∀ last, kept.getLast? = some last → key last < key a) :
    record key kept a = kept ++ [a] := by
  rw [record]
  cases hlast : kept.getLast? with
  | none => rfl
  | some last =>
      have hnew := not_le.mpr (newer last hlast)
      simp only [if_neg hnew]

/-- One more entry is either a record or not newer than the last one. -/
theorem record_cases (key : α → ω) (kept : List α) (a : α) :
    (∃ last, kept.getLast? = some last ∧ key a ≤ key last ∧ record key kept a = kept) ∨
      ((∀ last, kept.getLast? = some last → key last < key a) ∧
        record key kept a = kept ++ [a]) := by
  by_cases h : ∀ last, kept.getLast? = some last → key last < key a
  · exact Or.inr ⟨h, record_of_newer h⟩
  · push Not at h
    obtain ⟨last, hlast, hle⟩ := h
    exact Or.inl ⟨last, hlast, hle, record_of_le hlast hle⟩

theorem mem_of_mem_records {l : List α} {a : α} (h : a ∈ records key l) : a ∈ l := by
  induction l using List.reverseRecOn with
  | nil => exact h
  | append_singleton l b ih =>
      rw [records_append] at h
      rcases record_cases key (records key l) b with ⟨-, -, -, hsame⟩ | ⟨-, hnew⟩
      · rw [hsame] at h
        exact List.mem_append_left _ (ih h)
      · rw [hnew, List.mem_append] at h
        rcases h with h | h
        · exact List.mem_append_left _ (ih h)
        · exact List.mem_append_right _ h

/-- No entry is newer than the last record. -/
theorem le_last_record (key : α → ω) {l : List α} {a : α} (h : a ∈ l) :
    ∃ last, (records key l).getLast? = some last ∧ key a ≤ key last := by
  induction l using List.reverseRecOn with
  | nil => cases h
  | append_singleton l b ih =>
      rw [records_append]
      rcases record_cases key (records key l) b with ⟨last, hlast, hle, hsame⟩ | ⟨hnewer, hnew⟩
      · rw [hsame]
        rcases List.mem_append.mp h with h | h
        · exact ih h
        · rw [List.mem_singleton] at h
          exact ⟨last, hlast, h ▸ hle⟩
      · rw [hnew, List.getLast?_concat]
        refine ⟨b, rfl, ?_⟩
        rcases List.mem_append.mp h with h | h
        · obtain ⟨last, hlast, hle⟩ := ih h
          exact hle.trans (hnewer last hlast).le
        · rw [List.mem_singleton] at h
          rw [h]

theorem records_pairwise (l : List α) :
    (records key l).Pairwise fun a b => key a < key b := by
  induction l using List.reverseRecOn with
  | nil => exact List.Pairwise.nil
  | append_singleton l b ih =>
      rw [records_append]
      rcases record_cases key (records key l) b with ⟨-, -, -, hsame⟩ | ⟨hnewer, hnew⟩
      · rw [hsame]
        exact ih
      · rw [hnew, List.pairwise_append]
        refine ⟨ih, List.pairwise_singleton _ _, ?_⟩
        intro a ha b' hb'
        rw [List.mem_singleton] at hb'
        have hmem : a ∈ l := mem_of_mem_records ha
        obtain ⟨last, hlast, hle⟩ := le_last_record key hmem
        exact hb' ▸ hle.trans_lt (hnewer last hlast)

/-- Two sequences with the same entries end with the same record, if the key tells the
entries apart. -/
theorem last_record_eq {l : List α} {a : α} (h : a ∈ l) (greatest : ∀ b ∈ l, key b ≤ key a)
    (distinct : ∀ b ∈ l, key b = key a → b = a) : (records key l).getLast? = some a := by
  obtain ⟨last, hlast, hle⟩ := le_last_record key h
  have hmem : last ∈ l := mem_of_mem_records (List.mem_of_getLast? hlast)
  rw [hlast, distinct last hmem (le_antisymm (greatest last hmem) hle)]

end Collections
