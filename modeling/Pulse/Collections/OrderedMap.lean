import Pulse.Collections.OrderedSet

/-!
# Insertion-ordered finite maps

An association list with distinct keys. Writing to a key that is present keeps
its place and replaces the value; a new key goes to the end, so deleting a key
and writing it back moves it to the end. Enumeration follows this order.
-/

namespace Collections

universe u v

structure OrderedMap (κ : Type u) (ν : Type v) where
  entries : List (κ × ν)
  nodup : (entries.map Prod.fst).Nodup
  deriving DecidableEq, Repr

namespace OrderedMap

variable {κ : Type u} {ν : Type v}

def empty : OrderedMap κ ν := ⟨[], List.nodup_nil⟩

instance : EmptyCollection (OrderedMap κ ν) := ⟨empty⟩
instance : Inhabited (OrderedMap κ ν) := ⟨∅⟩

def keys (m : OrderedMap κ ν) : List κ := m.entries.map Prod.fst
def values (m : OrderedMap κ ν) : List ν := m.entries.map Prod.snd
def size (m : OrderedMap κ ν) : Nat := m.entries.length

@[simp] theorem keys_empty : (∅ : OrderedMap κ ν).keys = [] := rfl
@[simp] theorem values_empty : (∅ : OrderedMap κ ν).values = [] := rfl
@[simp] theorem size_empty : (∅ : OrderedMap κ ν).size = 0 := rfl

theorem keys_nodup (m : OrderedMap κ ν) : m.keys.Nodup := m.nodup

theorem keys_length (m : OrderedMap κ ν) : m.keys.length = m.size := by
  simp [keys, size]

variable [DecidableEq κ]

/-- The value of the entry for `k`, if there is one. -/
def lookup (k : κ) : List (κ × ν) → Option ν
  | [] => none
  | e :: rest => if e.1 = k then some e.2 else lookup k rest

/-- Replace the value of the entry for `k`, keeping its place. -/
def replace (k : κ) (v : ν) : List (κ × ν) → List (κ × ν)
  | [] => []
  | e :: rest => if e.1 = k then (k, v) :: rest else e :: replace k v rest

theorem replace_keys (k : κ) (v : ν) (l : List (κ × ν)) :
    (replace k v l).map Prod.fst = l.map Prod.fst := by
  induction l with
  | nil => rfl
  | cons e rest ih =>
      by_cases h : e.1 = k
      · simp [replace, h]
      · simp [replace, h, ih]

private theorem lookup_isSome_iff (k : κ) (l : List (κ × ν)) :
    (lookup k l).isSome ↔ k ∈ l.map Prod.fst := by
  induction l with
  | nil => simp [lookup]
  | cons e rest ih =>
      by_cases h : e.1 = k
      · simp [lookup, h]
      · simp [lookup, h, ih, Ne.symm h]

private theorem lookup_replace (k k' : κ) (v : ν) (l : List (κ × ν))
    (h : k ∈ l.map Prod.fst) :
    lookup k' (replace k v l) = if k' = k then some v else lookup k' l := by
  induction l with
  | nil => simp at h
  | cons e rest ih =>
      by_cases he : e.1 = k
      · by_cases hk : k' = k
        · simp [replace, lookup, he, hk]
        · simp [replace, lookup, he, hk, Ne.symm hk]
      · have hrest : k ∈ rest.map Prod.fst := by
          simp only [List.map_cons, List.mem_cons] at h
          exact h.resolve_left fun heq => he heq.symm
        by_cases hk : e.1 = k'
        · have hne : k' ≠ k := fun heq => he (hk.trans heq)
          simp [replace, lookup, hk, hne]
        · simp [replace, lookup, he, hk, ih hrest]

private theorem lookup_append_new (k k' : κ) (v : ν) (l : List (κ × ν))
    (h : k ∉ l.map Prod.fst) :
    lookup k' (l ++ [(k, v)]) = if k' = k then some v else lookup k' l := by
  induction l with
  | nil =>
      by_cases hk : k' = k
      · simp [lookup, hk]
      · simp [lookup, hk, Ne.symm hk]
  | cons e rest ih =>
      simp only [List.map_cons, List.mem_cons, not_or] at h
      by_cases hk : e.1 = k'
      · have hne : k' ≠ k := fun heq => h.1 (heq.symm.trans hk.symm)
        simp [lookup, hk, hne]
      · simp [lookup, hk, ih h.2]

private theorem lookup_filter (k k' : κ) (l : List (κ × ν)) :
    lookup k' (l.filter (fun e => decide (e.1 ≠ k))) = if k' = k then none else lookup k' l := by
  induction l with
  | nil => simp [lookup]
  | cons e rest ih =>
      by_cases he : e.1 = k
      · rw [List.filter_cons_of_neg (by simp [he]), ih]
        by_cases hk : k' = k
        · simp [hk]
        · simp [lookup, he, hk, Ne.symm hk]
      · rw [List.filter_cons_of_pos (by simp [he])]
        by_cases hk : e.1 = k'
        · have hne : k' ≠ k := fun heq => he (hk.trans heq)
          simp [lookup, hk, hne]
        · simpa [lookup, hk] using ih

/-- The value stored under `k`, if any. -/
def get? (m : OrderedMap κ ν) (k : κ) : Option ν := lookup k m.entries

def has (m : OrderedMap κ ν) (k : κ) : Bool := (m.get? k).isSome

def set (m : OrderedMap κ ν) (k : κ) (v : ν) : OrderedMap κ ν :=
  if h : k ∈ m.keys then
    ⟨replace k v m.entries, by rw [replace_keys]; exact m.nodup⟩
  else
    ⟨m.entries ++ [(k, v)], by
      rw [List.map_append, List.nodup_append]
      refine ⟨m.nodup, List.nodup_singleton k, ?_⟩
      intro x hx y hy
      rw [List.map_singleton, List.mem_singleton] at hy
      subst hy
      exact fun heq => h (heq ▸ hx)⟩

theorem entries_set_of_mem {m : OrderedMap κ ν} {k : κ} {v : ν} (h : k ∈ m.keys) :
    (m.set k v).entries = replace k v m.entries := by
  rw [set, dif_pos h]

theorem entries_set_of_not_mem {m : OrderedMap κ ν} {k : κ} {v : ν} (h : k ∉ m.keys) :
    (m.set k v).entries = m.entries ++ [(k, v)] := by
  rw [set, dif_neg h]

/-- Writing what is there already changes nothing. -/
theorem set_of_get? {m : OrderedMap κ ν} {k : κ} {v : ν} (h : m.get? k = some v) :
    m.set k v = m := by
  have hsame : ∀ l : List (κ × ν), lookup k l = some v → replace k v l = l := by
    intro l
    induction l with
    | nil => exact fun _ => rfl
    | cons e rest ih =>
        intro hl
        rw [lookup] at hl
        rw [replace]
        by_cases he : e.1 = k
        · rw [if_pos he, Option.some.injEq] at hl
          rw [if_pos he, ← hl, ← he]
        · rw [if_neg he] at hl
          rw [if_neg he, ih hl]
  have hkey : k ∈ m.keys := by
    rw [keys, ← lookup_isSome_iff]
    exact Option.isSome_iff_exists.mpr ⟨v, h⟩
  have hentries := (entries_set_of_mem (v := v) hkey).trans (hsame m.entries h)
  cases hm : m.set k v
  cases m
  rw [hm] at hentries
  cases hentries
  rfl

/-- Remove the entry for `k`; the others keep their order. -/
def delete (m : OrderedMap κ ν) (k : κ) : OrderedMap κ ν :=
  ⟨m.entries.filter (fun e => decide (e.1 ≠ k)),
    m.nodup.sublist (List.filter_sublist.map Prod.fst)⟩

/-- Keep the entries whose value satisfies `p`. -/
def filter (m : OrderedMap κ ν) (p : ν → Bool) : OrderedMap κ ν :=
  ⟨m.entries.filter (fun e => p e.2), m.nodup.sublist (List.filter_sublist.map Prod.fst)⟩

omit [DecidableEq κ] in
theorem mem_keys_of_filter {m : OrderedMap κ ν} {p : ν → Bool} {k : κ}
    (h : k ∈ (m.filter p).keys) : k ∈ m.keys :=
  (List.filter_sublist.map Prod.fst).subset h

@[simp] theorem get?_empty (k : κ) : (∅ : OrderedMap κ ν).get? k = none := rfl

theorem get?_isSome_iff {m : OrderedMap κ ν} {k : κ} : (m.get? k).isSome ↔ k ∈ m.keys :=
  lookup_isSome_iff k m.entries

theorem get?_eq_none_iff {m : OrderedMap κ ν} {k : κ} : m.get? k = none ↔ k ∉ m.keys := by
  rw [← get?_isSome_iff, Bool.not_eq_true, Option.isSome_eq_false_iff, Option.isNone_iff_eq_none]

@[simp] theorem has_iff {m : OrderedMap κ ν} {k : κ} : m.has k = true ↔ k ∈ m.keys :=
  get?_isSome_iff

/-- The whole effect of a write on later reads. -/
theorem get?_set (m : OrderedMap κ ν) (k k' : κ) (v : ν) :
    (m.set k v).get? k' = if k' = k then some v else m.get? k' := by
  by_cases h : k ∈ m.keys
  · simpa only [get?, entries_set_of_mem h] using lookup_replace k k' v m.entries h
  · simpa only [get?, entries_set_of_not_mem h] using lookup_append_new k k' v m.entries h

@[simp] theorem get?_set_self (m : OrderedMap κ ν) (k : κ) (v : ν) :
    (m.set k v).get? k = some v := by
  simp [get?_set]

theorem get?_set_ne {m : OrderedMap κ ν} {k k' : κ} (h : k' ≠ k) (v : ν) :
    (m.set k v).get? k' = m.get? k' := by
  simp [get?_set, h]

theorem get?_delete (m : OrderedMap κ ν) (k k' : κ) :
    (m.delete k).get? k' = if k' = k then none else m.get? k' :=
  lookup_filter k k' m.entries

@[simp] theorem get?_delete_self (m : OrderedMap κ ν) (k : κ) :
    (m.delete k).get? k = none := by
  simp [get?_delete]

theorem get?_delete_ne {m : OrderedMap κ ν} {k k' : κ} (h : k' ≠ k) :
    (m.delete k).get? k' = m.get? k' := by
  simp [get?_delete, h]

@[simp] theorem mem_keys_set {m : OrderedMap κ ν} {k k' : κ} {v : ν} :
    k' ∈ (m.set k v).keys ↔ k' = k ∨ k' ∈ m.keys := by
  rw [← get?_isSome_iff, get?_set, ← get?_isSome_iff]
  by_cases h : k' = k
  · simp [h]
  · simp [h]

@[simp] theorem mem_keys_delete {m : OrderedMap κ ν} {k k' : κ} :
    k' ∈ (m.delete k).keys ↔ k' ≠ k ∧ k' ∈ m.keys := by
  rw [← get?_isSome_iff, get?_delete, ← get?_isSome_iff]
  by_cases h : k' = k
  · simp [h]
  · simp [h]

omit [DecidableEq κ] in
theorem eq_empty_of_size {m : OrderedMap κ ν} (h : m.size = 0) : m = ∅ := by
  cases m
  cases List.length_eq_zero_iff.mp h
  rfl

theorem get?_of_size_eq_zero {m : OrderedMap κ ν} (h : m.size = 0) (k : κ) :
    m.get? k = none := by
  rw [← keys_length, List.length_eq_zero_iff] at h
  rw [get?_eq_none_iff, h]
  exact List.not_mem_nil

theorem mem_keys_of_get? {m : OrderedMap κ ν} {k : κ} {v : ν} (h : m.get? k = some v) :
    k ∈ m.keys := by
  rw [← get?_isSome_iff, h]
  rfl

theorem keys_set_of_not_mem {m : OrderedMap κ ν} {k : κ} {v : ν} (h : k ∉ m.keys) :
    (m.set k v).keys = m.keys ++ [k] := by
  rw [keys, entries_set_of_not_mem h, List.map_append, keys]
  rfl

theorem keys_delete (m : OrderedMap κ ν) (k : κ) : (m.delete k).keys = m.keys.erase k := by
  rw [m.keys_nodup.erase_eq_filter]
  simp [delete, keys, List.filter_map, Function.comp_def, bne, beq_eq_decide]

theorem delete_of_not_mem {m : OrderedMap κ ν} {k : κ} (h : k ∉ m.keys) : m.delete k = m := by
  have hfilter : m.entries.filter (fun e => decide (e.1 ≠ k)) = m.entries := by
    rw [List.filter_eq_self]
    intro e he
    have hne : e.1 ≠ k := fun heq => h (heq ▸ List.mem_map_of_mem he)
    simp [hne]
  cases m
  simpa [delete] using hfilter

theorem size_set_of_not_mem {m : OrderedMap κ ν} {k : κ} {v : ν} (h : k ∉ m.keys) :
    (m.set k v).size = m.size + 1 := by
  rw [← keys_length, keys_set_of_not_mem h, List.length_append, keys_length]
  rfl

theorem size_delete_of_mem {m : OrderedMap κ ν} {k : κ} (h : k ∈ m.keys) :
    (m.delete k).size + 1 = m.size := by
  rw [← keys_length, keys_delete, ← keys_length]
  exact List.length_erase_add_one h

/-- An entry of the enumeration is exactly a successful read. -/
theorem mem_entries_iff {m : OrderedMap κ ν} {k : κ} {v : ν} :
    (k, v) ∈ m.entries ↔ m.get? k = some v := by
  obtain ⟨entries, nodup⟩ := m
  simp only [get?]
  induction entries with
  | nil => simp [lookup]
  | cons e rest ih =>
      simp only [List.map_cons, List.nodup_cons] at nodup
      by_cases h : e.1 = k
      · have hrest : (k, v) ∉ rest := fun hmem =>
          nodup.1 (h ▸ List.mem_map_of_mem (f := Prod.fst) hmem)
        simp [lookup, h, hrest, Prod.ext_iff, eq_comm]
      · have hne : (k, v) ≠ e := fun heq => h (congrArg Prod.fst heq).symm
        simp [lookup, h, hne, ih nodup.2]

theorem filter_eq_self {m : OrderedMap κ ν} {p : ν → Bool}
    (h : ∀ k v, m.get? k = some v → p v = true) : m.filter p = m := by
  have hentries : m.entries.filter (fun e => p e.2) = m.entries := by
    rw [List.filter_eq_self]
    rintro ⟨k, v⟩ hmem
    exact h k v (mem_entries_iff.mp hmem)
  cases m
  simpa [filter] using hentries

theorem get?_filter (m : OrderedMap κ ν) (p : ν → Bool) (k : κ) :
    (m.filter p).get? k = (m.get? k).filter p := by
  apply Option.ext
  intro v
  rw [← mem_entries_iff, Option.filter_eq_some_iff, ← mem_entries_iff]
  simp [filter]

theorem mem_values_iff {m : OrderedMap κ ν} {v : ν} :
    v ∈ m.values ↔ ∃ k, m.get? k = some v := by
  simp only [values, List.mem_map]
  constructor
  · rintro ⟨⟨k, _⟩, hmem, rfl⟩
    exact ⟨k, mem_entries_iff.mp hmem⟩
  · rintro ⟨k, hk⟩
    exact ⟨(k, v), mem_entries_iff.mpr hk, rfl⟩

/-- The same keys with other values. -/
def mapValues (f : ν → ν) (m : OrderedMap κ ν) : OrderedMap κ ν :=
  ⟨m.entries.map fun e => (e.1, f e.2), by simpa [Function.comp_def] using m.nodup⟩

theorem get?_mapValues (f : ν → ν) (m : OrderedMap κ ν) (k : κ) :
    (m.mapValues f).get? k = (m.get? k).map f := by
  have hlookup : ∀ l : List (κ × ν),
      lookup k (l.map fun e => (e.1, f e.2)) = (lookup k l).map f := by
    intro l
    induction l with
    | nil => rfl
    | cons e rest ih =>
        rw [List.map_cons, lookup, lookup, ih]
        split <;> rfl
  exact hlookup m.entries

theorem keys_set (m : OrderedMap κ ν) (k : κ) (v : ν) :
    (m.set k v).keys = if k ∈ m.keys then m.keys else m.keys ++ [k] := by
  split
  · rename_i h
    rw [keys, entries_set_of_mem h, replace_keys]
    rfl
  · rename_i h
    exact keys_set_of_not_mem h

/-- The entries in their order are found by their keys. -/
theorem map_entries_eq_filterMap {δ : Type*} (m : OrderedMap κ ν) (g : κ → ν → δ) :
    m.entries.map (fun e => g e.1 e.2) = m.keys.filterMap fun k => (m.get? k).map (g k) := by
  rw [keys, List.filterMap_map, ← List.filterMap_eq_map]
  refine List.filterMap_congr fun e he => ?_
  simp only [Function.comp_apply, mem_entries_iff.mp he, Option.map_some]

end OrderedMap

end Collections
