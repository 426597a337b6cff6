import Mathlib.Data.List.Nodup

/-!
# Order of two entries

Whether one entry of a list comes before another, when the list grows at its end or is
filtered. In a list without duplicates the order is that of the positions.
-/

namespace Collections

universe u

variable {α : Type u} {a b c : α} {l : List α}

/-- Somewhere in the list `a` comes before `b`. -/
def Precedes (a b : α) (l : List α) : Prop := [a, b].Sublist l

instance [DecidableEq α] (a b : α) (l : List α) : Decidable (Precedes a b l) :=
  inferInstanceAs (Decidable ([a, b].Sublist l))

namespace Precedes

theorem left_mem (h : Precedes a b l) : a ∈ l := h.subset List.mem_cons_self

theorem right_mem (h : Precedes a b l) : b ∈ l := h.subset (.tail a List.mem_cons_self)

theorem append_right (h : Precedes a b l) (l' : List α) : Precedes a b (l ++ l') :=
  h.trans (List.sublist_append_left l l')

theorem concat (h : a ∈ l) (b : α) : Precedes a b (l ++ [b]) :=
  (List.singleton_sublist.mpr h).append (List.Sublist.refl [b])

theorem filter {p : α → Bool} (h : Precedes a b l) (ha : p a = true) (hb : p b = true) :
    Precedes a b (l.filter p) := by
  have hpair := List.Sublist.filter p h
  rwa [List.filter_cons_of_pos ha, List.filter_cons_of_pos hb] at hpair

/-- What comes before is not the last one. -/
theorem of_concat (h : Precedes a b (l ++ [c])) : Precedes a b l ∨ a ∈ l ∧ b = c := by
  obtain ⟨l₁, l₂, hsplit, hfirst, hlast⟩ := List.sublist_append_iff.mp h
  cases l₂ with
  | nil =>
      rw [List.append_nil] at hsplit
      exact Or.inl (by rwa [Precedes, hsplit])
  | cons d l₂ =>
      obtain ⟨rfl, rfl⟩ : d = c ∧ l₂ = [] := by
        have hcons := List.sublist_singleton.mp hlast
        simpa using hcons
      obtain ⟨rfl, rfl⟩ : [a] = l₁ ∧ b = d := by
        have hconcat : [a] ++ [b] = l₁ ++ [d] := hsplit
        exact List.append_inj' hconcat rfl |>.imp id fun h => List.head_eq_of_cons_eq h
      exact Or.inr ⟨List.singleton_sublist.mp hfirst, rfl⟩

/-- Without duplicates the order is that of the positions. -/
theorem index_lt (h : Precedes a b l) (nodup : l.Nodup) {i j : Nat} (hi : l[i]? = some a)
    (hj : l[j]? = some b) : i < j := by
  have hpairwise : l.Pairwise fun x y =>
      ∀ i j : Nat, l[i]? = some x → l[j]? = some y → i < j := by
    rw [List.pairwise_iff_getElem]
    intro i₀ j₀ hi₀ hj₀ hlt i j hi hj
    obtain ⟨hi', heqi⟩ := List.getElem?_eq_some_iff.mp hi
    obtain ⟨hj', heqj⟩ := List.getElem?_eq_some_iff.mp hj
    rw [(nodup.getElem_inj_iff).mp heqi, (nodup.getElem_inj_iff).mp heqj]
    exact hlt
  exact (List.pairwise_pair.mp (hpairwise.sublist h)) i j hi hj

end Precedes

end Collections
