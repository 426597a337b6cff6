import Mathlib.Data.List.Nodup
import Mathlib.Data.List.Perm.Basic

/-!
# Insertion-ordered finite sets

A finite set which remembers the order in which its elements were inserted. An
element that is already present keeps its place; an erased element that is
inserted again goes to the end. The representing list has no duplicates by
construction, so the number of elements is simply its length.
-/

namespace Collections

universe u

/-- A duplicate-free list, read in insertion order. -/
structure OrderedSet (α : Type u) where
  toList : List α
  nodup : toList.Nodup
  deriving DecidableEq, Repr

namespace OrderedSet

variable {α : Type u}

@[ext] theorem ext_list {s t : OrderedSet α} (h : s.toList = t.toList) : s = t := by
  cases s
  cases t
  simpa using h

instance : Membership α (OrderedSet α) := ⟨fun s a => a ∈ s.toList⟩

theorem mem_def {s : OrderedSet α} {a : α} : a ∈ s ↔ a ∈ s.toList := Iff.rfl

instance [DecidableEq α] (s : OrderedSet α) (a : α) : Decidable (a ∈ s) :=
  inferInstanceAs (Decidable (a ∈ s.toList))

def empty : OrderedSet α := ⟨[], List.nodup_nil⟩

instance : EmptyCollection (OrderedSet α) := ⟨empty⟩
instance : Inhabited (OrderedSet α) := ⟨∅⟩

@[simp] theorem not_mem_empty (a : α) : a ∉ (∅ : OrderedSet α) := List.not_mem_nil
@[simp] theorem toList_empty : (∅ : OrderedSet α).toList = [] := rfl

def size (s : OrderedSet α) : Nat := s.toList.length

@[simp] theorem size_empty : (∅ : OrderedSet α).size = 0 := rfl

/-- An empty size is the same as having no element at all. -/
theorem size_eq_zero_iff {s : OrderedSet α} : s.size = 0 ↔ ∀ a, a ∉ s := by
  rw [size, List.length_eq_zero_iff, List.eq_nil_iff_forall_not_mem]
  rfl

theorem size_pos_iff {s : OrderedSet α} : 0 < s.size ↔ ∃ a, a ∈ s := by
  rw [size, List.length_pos_iff_exists_mem]
  rfl

/-- Only membership decides the size, the insertion order does not. -/
theorem size_eq_of_mem_iff {s t : OrderedSet α} (h : ∀ a, a ∈ s ↔ a ∈ t) :
    s.size = t.size :=
  ((List.perm_ext_iff_of_nodup s.nodup t.nodup).mpr h).length_eq

theorem size_le_of_subset {s t : OrderedSet α} (h : ∀ a, a ∈ s → a ∈ t) :
    s.size ≤ t.size :=
  (List.subperm_of_subset s.nodup h).length_le

/-- The elements that satisfy `p`, in their order. -/
def filter (s : OrderedSet α) (p : α → Bool) : OrderedSet α :=
  ⟨s.toList.filter p, s.nodup.filter p⟩

@[simp] theorem mem_filter {s : OrderedSet α} {p : α → Bool} {a : α} :
    a ∈ s.filter p ↔ a ∈ s ∧ p a = true :=
  List.mem_filter

theorem filter_filter (s : OrderedSet α) (p q : α → Bool) :
    (s.filter p).filter q = s.filter fun a => p a && q a := by
  apply ext_list
  simp [filter, Bool.and_comm]

theorem filter_eq_self {s : OrderedSet α} {p : α → Bool} (h : ∀ a ∈ s, p a = true) :
    s.filter p = s :=
  ext_list (List.filter_eq_self.mpr h)

theorem filter_congr {s : OrderedSet α} {p q : α → Bool} (h : ∀ a ∈ s, p a = q a) :
    s.filter p = s.filter q :=
  ext_list (List.filter_congr h)

variable [DecidableEq α]

/-- Add an element at the end, unless it is there already. -/
def insert (s : OrderedSet α) (a : α) : OrderedSet α :=
  if h : a ∈ s.toList then s
  else ⟨s.toList ++ [a], by
    rw [List.nodup_append]
    refine ⟨s.nodup, List.nodup_singleton a, ?_⟩
    intro x hx y hy
    rw [List.mem_singleton] at hy
    subst hy
    exact fun heq => h (heq ▸ hx)⟩

/-- Remove an element; the others keep their order. -/
def erase (s : OrderedSet α) (a : α) : OrderedSet α :=
  ⟨s.toList.erase a, s.nodup.erase a⟩

theorem insert_of_mem {s : OrderedSet α} {a : α} (h : a ∈ s) : s.insert a = s :=
  dif_pos h

@[simp] theorem mem_insert {s : OrderedSet α} {a b : α} :
    b ∈ s.insert a ↔ b ∈ s ∨ b = a := by
  by_cases h : a ∈ s
  · rw [insert_of_mem h]
    constructor
    · exact Or.inl
    · rintro (hb | rfl)
      · exact hb
      · exact h
  · simp only [mem_def] at h ⊢
    simp [insert, h]

@[simp] theorem mem_foldl_insert {s : OrderedSet α} {l : List α} {a : α} :
    a ∈ l.foldl insert s ↔ a ∈ s ∨ a ∈ l := by
  induction l generalizing s with
  | nil => simp
  | cons b l ih => rw [List.foldl_cons, ih, mem_insert, List.mem_cons, or_assoc]

@[simp] theorem mem_erase {s : OrderedSet α} {a b : α} :
    b ∈ s.erase a ↔ b ≠ a ∧ b ∈ s :=
  s.nodup.mem_erase_iff

theorem erase_eq_filter (s : OrderedSet α) (a : α) :
    s.erase a = s.filter fun b => decide (b ≠ a) := by
  apply ext_list
  show s.toList.erase a = s.toList.filter fun b => decide (b ≠ a)
  rw [s.nodup.erase_eq_filter]
  simp [bne, beq_eq_decide]

theorem size_insert_of_not_mem {s : OrderedSet α} {a : α} (h : a ∉ s) :
    (s.insert a).size = s.size + 1 := by
  simp only [mem_def] at h
  simp [size, insert, h]

theorem size_erase_of_mem {s : OrderedSet α} {a : α} (h : a ∈ s) :
    (s.erase a).size + 1 = s.size :=
  List.length_erase_add_one h

theorem erase_of_not_mem {s : OrderedSet α} {a : α} (h : a ∉ s) : s.erase a = s :=
  ext_list (List.erase_of_not_mem h)

theorem size_erase_le (s : OrderedSet α) (a : α) : (s.erase a).size ≤ s.size :=
  size_le_of_subset fun _ hb => (mem_erase.mp hb).2

end OrderedSet

end Collections
