import Mathlib.Data.List.Basic

/-!
# Base 64

Three octets are four sextets. A last group of one or two octets is written with
two or three sextets, without padding. `octets` is a left inverse of `sextets`,
and a digit table turns sextets into text and back.
-/

namespace Encoding

namespace Base64

def sextets : List UInt8 → List Nat
  | [] => []
  | [a] => [a.toNat / 4, a.toNat % 4 * 16]
  | [a, b] => [a.toNat / 4, a.toNat % 4 * 16 + b.toNat / 16, b.toNat % 16 * 4]
  | a :: b :: c :: rest =>
      a.toNat / 4 :: (a.toNat % 4 * 16 + b.toNat / 16) :: (b.toNat % 16 * 4 + c.toNat / 64) ::
        c.toNat % 64 :: sextets rest

/-- Left-over bits are dropped. -/
def octets : List Nat → List UInt8
  | s :: t :: u :: v :: rest =>
      UInt8.ofNat (s * 4 + t / 16) :: UInt8.ofNat (t % 16 * 16 + u / 4) ::
        UInt8.ofNat (u % 4 * 64 + v) :: octets rest
  | [s, t, u] => [UInt8.ofNat (s * 4 + t / 16), UInt8.ofNat (t % 16 * 16 + u / 4)]
  | [s, t] => [UInt8.ofNat (s * 4 + t / 16)]
  | _ => []

theorem ofNat_of_toNat {a : UInt8} {n : Nat} (h : n = a.toNat) : UInt8.ofNat n = a := by
  rw [h, UInt8.ofNat_toNat]

theorem octets_sextets (l : List UInt8) : octets (sextets l) = l := by
  induction l using sextets.induct with
  | case1 => rfl
  | case2 a =>
      have ha := a.toNat_lt
      have hfirst : UInt8.ofNat (a.toNat / 4 * 4 + a.toNat % 4 * 16 / 16) = a :=
        ofNat_of_toNat (by omega)
      rw [sextets, octets, hfirst]
  | case3 a b =>
      have hfirst : UInt8.ofNat (a.toNat / 4 * 4 + (a.toNat % 4 * 16 + b.toNat / 16) / 16) = a :=
        ofNat_of_toNat (by have := b.toNat_lt; omega)
      have hsecond : UInt8.ofNat ((a.toNat % 4 * 16 + b.toNat / 16) % 16 * 16 +
          b.toNat % 16 * 4 / 4) = b :=
        ofNat_of_toNat (by have := b.toNat_lt; omega)
      rw [sextets, octets, hfirst, hsecond]
  | case4 a b c rest ih =>
      have hb := b.toNat_lt
      have hc := c.toNat_lt
      have hfirst : UInt8.ofNat (a.toNat / 4 * 4 + (a.toNat % 4 * 16 + b.toNat / 16) / 16) = a :=
        ofNat_of_toNat (by omega)
      have hsecond : UInt8.ofNat ((a.toNat % 4 * 16 + b.toNat / 16) % 16 * 16 +
          (b.toNat % 16 * 4 + c.toNat / 64) / 4) = b :=
        ofNat_of_toNat (by omega)
      have hthird : UInt8.ofNat ((b.toNat % 16 * 4 + c.toNat / 64) % 4 * 64 + c.toNat % 64) = c :=
        ofNat_of_toNat (by omega)
      rw [sextets, octets, hfirst, hsecond, hthird, ih]

theorem sextets_lt (l : List UInt8) : ∀ s ∈ sextets l, s < 64 := by
  induction l using sextets.induct with
  | case1 => exact fun _ h => absurd h List.not_mem_nil
  | case2 a =>
      have ha := a.toNat_lt
      simp only [sextets, List.forall_mem_cons, List.not_mem_nil, false_imp_iff, implies_true,
        and_true]
      omega
  | case3 a b =>
      have ha := a.toNat_lt
      have hb := b.toNat_lt
      simp only [sextets, List.forall_mem_cons, List.not_mem_nil, false_imp_iff, implies_true,
        and_true]
      omega
  | case4 a b c rest ih =>
      have ha := a.toNat_lt
      have hb := b.toNat_lt
      have hc := c.toNat_lt
      simp only [sextets, List.forall_mem_cons]
      refine ⟨by omega, by omega, by omega, by omega, ih⟩

/-- The digits of a base 64 notation, and how they are read. -/
structure Alphabet where
  digit : Nat → Char
  value : Char → Option Nat
  value_digit : ∀ s < 64, value (digit s) = some s

variable (alphabet : Alphabet)

def encode (l : List UInt8) : List Char := (sextets l).map alphabet.digit

/-- What is no digit is skipped. -/
def decode (text : List Char) : List UInt8 := octets (text.filterMap alphabet.value)

theorem filterMap_value_map_digit {sextets : List Nat} (h : ∀ s ∈ sextets, s < 64) :
    (sextets.map alphabet.digit).filterMap alphabet.value = sextets := by
  induction sextets with
  | nil => rfl
  | cons s rest ih =>
      rw [List.forall_mem_cons] at h
      rw [List.map_cons, List.filterMap_cons_some (alphabet.value_digit s h.1), ih h.2]

theorem decode_encode (l : List UInt8) : decode alphabet (encode alphabet l) = l := by
  rw [decode, encode, filterMap_value_map_digit alphabet (sextets_lt l), octets_sextets]

theorem exists_digit_of_mem_encode {c : Char} {l : List UInt8} (h : c ∈ encode alphabet l) :
    ∃ s < 64, alphabet.digit s = c := by
  obtain ⟨s, hs, rfl⟩ := List.mem_map.mp h
  exact ⟨s, sextets_lt l s hs, rfl⟩

end Base64

end Encoding
