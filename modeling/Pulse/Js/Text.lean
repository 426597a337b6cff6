import Mathlib.Data.List.DropRight
import Mathlib.Data.List.Lex
import Mathlib.Data.List.Sort

/-!
# Strings of the source language

`trim` removes leading and trailing white space and line terminators. `length`
and the default order of `sort` count UTF-16 code units, which differs from
counting characters outside the basic multilingual plane.
-/

namespace Js

/-- The characters which `String.prototype.trim` strips. -/
def isWhiteSpace (c : Char) : Bool :=
  c.toNat ∈ [0x9, 0xA, 0xB, 0xC, 0xD, 0x20, 0xA0, 0x1680, 0x2000, 0x2001, 0x2002, 0x2003,
    0x2004, 0x2005, 0x2006, 0x2007, 0x2008, 0x2009, 0x200A, 0x2028, 0x2029, 0x202F, 0x205F,
    0x3000, 0xFEFF]

def trimChars (l : List Char) : List Char :=
  (l.dropWhile isWhiteSpace).rdropWhile isWhiteSpace

def trim (s : String) : String := String.ofList (trimChars s.toList)

/-- Code units of one character: one below U+10000, a surrogate pair above. -/
def codeUnits (c : Char) : List Nat :=
  if c.toNat < 0x10000 then [c.toNat]
  else [0xD800 + (c.toNat - 0x10000) / 0x400, 0xDC00 + (c.toNat - 0x10000) % 0x400]

def utf16 (s : String) : List Nat := s.toList.flatMap codeUnits

def length (s : String) : Nat := (utf16 s).length

/-- The order in which `sort()` arranges strings. -/
def le (s t : String) : Prop := utf16 s ≤ utf16 t

instance : DecidableRel le := fun s t => inferInstanceAs (Decidable (utf16 s ≤ utf16 t))

theorem trimChars_of_forall {l : List Char} (h : ∀ c ∈ l, isWhiteSpace c = false) :
    trimChars l = l := by
  have hdrop : l.dropWhile isWhiteSpace = l := by
    rw [List.dropWhile_eq_self_iff]
    intro hl
    simp [h _ (List.getElem_mem hl)]
  rw [trimChars, hdrop, List.rdropWhile_eq_self_iff]
  intro hl
  simp [h _ (List.getLast_mem hl)]

/-- Exactly the blank strings trim to nothing. -/
theorem trim_eq_empty_iff {s : String} : trim s = "" ↔ ∀ c ∈ s.toList, isWhiteSpace c := by
  have hchars : trim s = "" ↔ trimChars s.toList = [] := by
    rw [trim, ← String.toList_inj, String.toList_ofList]
    rfl
  rw [hchars, trimChars, List.rdropWhile_eq_nil_iff]
  constructor
  · intro h c hc
    by_contra hblack
    have hdrop : s.toList.dropWhile isWhiteSpace ≠ [] := by
      rw [ne_eq, List.dropWhile_eq_nil_iff]
      exact fun hall => hblack (hall c hc)
    have hhead := List.head_dropWhile_not isWhiteSpace hdrop
    rw [h _ (List.head_mem hdrop)] at hhead
    cases hhead
  · intro h c hc
    exact h c ((List.dropWhile_suffix isWhiteSpace).subset hc)

/-- A string without white space is trimmed already. -/
theorem trim_of_forall {s : String} (h : ∀ c ∈ s.toList, isWhiteSpace c = false) :
    trim s = s := by
  rw [trim, trimChars_of_forall h, String.ofList_toList]

theorem trimChars_trimChars (l : List Char) : trimChars (trimChars l) = trimChars l := by
  have hdrop : (trimChars l).dropWhile isWhiteSpace = trimChars l := by
    rw [List.dropWhile_eq_self_iff]
    intro hpos
    have htrimmed : trimChars l <+: l.dropWhile isWhiteSpace := List.rdropWhile_prefix _ _
    rw [htrimmed.getElem hpos]
    exact List.dropWhile_get_zero_not _ _ (hpos.trans_le htrimmed.length_le)
  rw [trimChars, hdrop]
  exact List.rdropWhile_idempotent _ _

@[simp] theorem trim_trim (s : String) : trim (trim s) = trim s := by
  rw [trim, trim, String.toList_ofList, trimChars_trimChars]

section utf16

/-- Read one character: a surrogate stands for a pair. -/
def readCodeUnits : List Nat → Option (Char × List Nat)
  | [] => none
  | u :: rest =>
      if u < 0xD800 ∨ 0xDFFF < u then some (Char.ofNat u, rest)
      else match rest with
        | [] => none
        | u' :: rest =>
            some (Char.ofNat (0x10000 + (u - 0xD800) * 0x400 + (u' - 0xDC00)), rest)

theorem readCodeUnits_codeUnits (c : Char) (rest : List Nat) :
    readCodeUnits (codeUnits c ++ rest) = some (c, rest) := by
  have hvalid : c.toNat < 0xD800 ∨ 0xDFFF < c.toNat ∧ c.toNat < 0x110000 := c.valid
  rw [codeUnits]
  split
  · have hplane : c.toNat < 0xD800 ∨ 0xDFFF < c.toNat := by omega
    simp only [List.cons_append, List.nil_append, readCodeUnits, if_pos hplane, Char.ofNat_toNat]
  · have hhigh : ¬(0xD800 + (c.toNat - 0x10000) / 0x400 < 0xD800 ∨
        0xDFFF < 0xD800 + (c.toNat - 0x10000) / 0x400) := by omega
    have hvalue : 0x10000 + (0xD800 + (c.toNat - 0x10000) / 0x400 - 0xD800) * 0x400 +
        (0xDC00 + (c.toNat - 0x10000) % 0x400 - 0xDC00) = c.toNat := by omega
    simp only [List.cons_append, List.nil_append, readCodeUnits, if_neg hhigh, hvalue,
      Char.ofNat_toNat]

theorem utf16_injective : Function.Injective utf16 := by
  have hchars : ∀ l l' : List Char, l.flatMap codeUnits = l'.flatMap codeUnits → l = l' := by
    have hread : ∀ (c : Char) (l : List Char), readCodeUnits ((c :: l).flatMap codeUnits) =
        some (c, l.flatMap codeUnits) := fun c l => readCodeUnits_codeUnits c _
    intro l
    induction l with
    | nil =>
        intro l' h
        cases l' with
        | nil => rfl
        | cons c' l' =>
            have hnone := hread c' l'
            rw [← h] at hnone
            cases hnone
    | cons c l ih =>
        intro l' h
        have hsome := hread c l
        rw [h] at hsome
        cases l' with
        | nil => cases hsome
        | cons c' l' =>
            rw [hread, Option.some.injEq, Prod.mk.injEq] at hsome
            rw [hsome.1, ih l' hsome.2.symm]
  intro s t h
  exact String.toList_inj.mp (hchars _ _ h)

instance : Std.Total le := ⟨fun s t => le_total (utf16 s) (utf16 t)⟩

instance : IsTrans String le := ⟨fun _ _ _ h h' => le_trans (α := List Nat) h h'⟩

theorem eq_of_le_of_le {s t : String} (h : le s t) (h' : le t s) : s = t :=
  utf16_injective (le_antisymm h h')

/-- Sorting forgets the order. -/
theorem insertionSort_eq_of_perm {l l' : List String} (h : l.Perm l') :
    l.insertionSort le = l'.insertionSort le :=
  List.Perm.eq_of_pairwise (fun _ _ _ _ => eq_of_le_of_le) (List.pairwise_insertionSort le l)
    (List.pairwise_insertionSort le l')
    ((List.perm_insertionSort le l).trans (h.trans (List.perm_insertionSort le l').symm))

end utf16

end Js
