import Pulse.Js.Text
import Mathlib.Algebra.Order.Ring.Rat
import Mathlib.Algebra.Field.Rat
import Mathlib.Data.List.Sort
import Mathlib.Order.WithBot

/-!
# JSON values

The values which `JSON.parse` produces, with object properties in property
order, and the text which `JSON.stringify` writes for them. A finite number is
identified by its shortest round-trip decimal, the one `Number::toString`
prints; numerals too large for a double parse to an infinity.

`stringifyWith` is `JSON.stringify` with a property list as its replacer: the
list selects and orders the properties of every object in the value, nested
ones included.
-/

namespace Js

inductive Number
  /-- `± digits × 10 ^ exponent`; the digits do not end in a zero unless they are zero. -/
  | decimal (negative : Bool) (digits : Nat) (exponent : Int)
  | infinity (negative : Bool)
  deriving DecidableEq, Repr

namespace Number

/-- Move trailing zeros of the digits into the exponent. -/
def normalize : Nat → Nat → Int → Nat × Int
  | 0, digits, exponent => (digits, exponent)
  | fuel + 1, digits, exponent =>
      if digits = 0 then (0, 0)
      else if digits % 10 = 0 then normalize fuel (digits / 10) (exponent + 1)
      else (digits, exponent)

def ofInt (z : Int) : Number :=
  let (digits, exponent) := normalize (z.natAbs + 1) z.natAbs 0
  .decimal (decide (z < 0)) digits exponent

def isPositive : Number → Bool
  | .decimal negative digits _ => !negative && digits != 0
  | .infinity negative => !negative

def isFinite : Number → Bool
  | .decimal .. => true
  | .infinity _ => false

/-- The value of a non-negative integer number. -/
def toNat? : Number → Option Nat
  | .decimal negative digits exponent =>
      if digits = 0 then some 0
      else if negative || exponent < 0 then none
      else some (digits * 10 ^ exponent.toNat)
  | .infinity _ => none

theorem normalize_value (fuel digits : Nat) {exponent : Int} (h : 0 ≤ exponent) :
    0 ≤ (normalize fuel digits exponent).2 ∧
      (normalize fuel digits exponent).1 * 10 ^ (normalize fuel digits exponent).2.toNat =
        digits * 10 ^ exponent.toNat := by
  induction fuel generalizing digits exponent with
  | zero => exact ⟨h, rfl⟩
  | succ fuel ih =>
      rw [normalize]
      split
      · rename_i hzero
        rw [hzero]
        exact ⟨Int.le_refl 0, by rw [Nat.zero_mul, Nat.zero_mul]⟩
      · split
        · rename_i hdigit
          obtain ⟨hexponent, hvalue⟩ := ih (digits / 10) (show 0 ≤ exponent + 1 by omega)
          refine ⟨hexponent, hvalue.trans ?_⟩
          have hsucc : (exponent + 1).toNat = exponent.toNat + 1 := by omega
          rw [hsucc, Nat.pow_succ, Nat.mul_comm (10 ^ exponent.toNat), ← Nat.mul_assoc,
            Nat.div_mul_cancel (Nat.dvd_of_mod_eq_zero hdigit)]
        · exact ⟨h, rfl⟩

theorem toNat?_ofInt (n : Nat) : (ofInt n).toNat? = some n := by
  obtain ⟨hexponent, hvalue⟩ := normalize_value (n + 1) n (Int.le_refl 0)
  rw [Int.toNat_zero, Nat.pow_zero, Nat.mul_one] at hvalue
  have hsign : decide ((n : Int) < 0) = false := by simp
  simp only [ofInt, Int.natAbs_natCast, toNat?, hsign, Bool.false_or]
  split
  · rename_i hzero
    rw [hzero, Nat.zero_mul] at hvalue
    rw [hvalue]
  · have hnonneg : decide ((normalize (n + 1) n 0).2 < 0) = false := by simpa using hexponent
    rw [hnonneg, if_neg (by decide), hvalue]

/-- The value of a finite number. -/
def value : Number → ℚ
  | .decimal negative digits exponent =>
      (if negative then -(digits : ℚ) else digits) * 10 ^ exponent
  | .infinity _ => 0

def le : Number → Number → Bool
  | .infinity true, _ => true
  | _, .infinity negative => !negative
  | .infinity false, _ => false
  | m, n => decide (m.value ≤ n.value)

/-- Numbers in their order, with the infinities at its ends. -/
def rank : Number → WithBot (WithTop ℚ)
  | .infinity true => ⊥
  | .infinity false => ((⊤ : WithTop ℚ) : WithBot (WithTop ℚ))
  | .decimal negative digits exponent =>
      (((Number.decimal negative digits exponent).value : WithTop ℚ) : WithBot (WithTop ℚ))

theorem le_iff_rank_le (m n : Number) : m.le n = true ↔ m.rank ≤ n.rank := by
  cases m with
  | decimal negative digits exponent =>
      cases n with
      | decimal negative' digits' exponent' => simp [le, rank]
      | infinity negative' => cases negative' <;> simp [le, rank]
  | infinity negative =>
      cases n with
      | decimal negative' digits' exponent' => cases negative <;> simp [le, rank]
      | infinity negative' => cases negative <;> cases negative' <;> simp [le, rank]

/-- `Number::toString`: plain decimals up to 21 integer digits or six leading
zeros of the fraction, exponent notation beyond. Infinities have no JSON text. -/
def text : Number → String
  | .infinity _ => "null"
  | .decimal negative digits exponent =>
      if digits = 0 then "0" else
      let ds := (toString digits).toList
      let k : Int := ds.length
      let n : Int := k + exponent
      let body : List Char :=
        if k ≤ n ∧ n ≤ 21 then ds ++ List.replicate (n - k).toNat '0'
        else if 0 < n ∧ n ≤ 21 then ds.take n.toNat ++ '.' :: ds.drop n.toNat
        else if -6 < n ∧ n ≤ 0 then '0' :: '.' :: List.replicate (-n).toNat '0' ++ ds
        else
          let e := n - 1
          let mantissa := if k = 1 then ds else ds.take 1 ++ '.' :: ds.drop 1
          mantissa ++ 'e' :: (if 0 ≤ e then '+' else '-') :: (toString e.natAbs).toList
      String.ofList (if negative then '-' :: body else body)

end Number

inductive Json
  | null
  | bool (b : Bool)
  | num (n : Number)
  | str (s : String)
  | arr (elements : List Json)
  | obj (fields : List (String × Json))
  deriving Repr

/-- The properties of a JSON object, in property order. -/
abbrev Fields := List (String × Json)

/-- Induction over a value: what holds of the elements holds of the array, and what holds of
the values of the properties holds of the object. -/
theorem Json.induction {P : Json → Prop} (null : P .null) (bool : ∀ b, P (.bool b))
    (num : ∀ n, P (.num n)) (str : ∀ s, P (.str s))
    (arr : ∀ elements : List Json, (∀ v ∈ elements, P v) → P (.arr elements))
    (obj : ∀ fields : Fields, (∀ property ∈ fields, P property.2) → P (.obj fields)) :
    ∀ v, P v :=
  @Json.rec P (fun elements => ∀ v ∈ elements, P v)
    (fun fields => ∀ property ∈ fields, P property.2)
    (fun property => P property.2) null bool num str arr obj
    (fun _ h => absurd h List.not_mem_nil)
    (fun _ _ hv hrest => List.forall_mem_cons.mpr ⟨hv, hrest⟩)
    (fun _ h => absurd h List.not_mem_nil)
    (fun _ _ hv hrest => List.forall_mem_cons.mpr ⟨hv, hrest⟩)
    fun _ _ h => h

namespace Fields

/-- The value of a property; `none` stands for `undefined`. -/
def get? : Fields → String → Option Json
  | [], _ => none
  | (k, v) :: rest, key => if k = key then some v else get? rest key

def keys (fields : Fields) : List String := fields.map Prod.fst

/-- A property that is there unless its value is undefined. -/
def property (name : String) (value : Option Json) : Fields :=
  match value with
  | some v => [(name, v)]
  | none => []

@[simp] theorem get?_nil (key : String) : get? [] key = none := rfl

@[simp] theorem get?_cons (name : String) (value : Json) (rest : Fields) (key : String) :
    get? ((name, value) :: rest) key = if name = key then some value else get? rest key := rfl

@[simp] theorem get?_append (fields fields' : Fields) (key : String) :
    get? (fields ++ fields') key = (get? fields key).or (get? fields' key) := by
  induction fields with
  | nil => rfl
  | cons field rest ih =>
      rw [List.cons_append, get?, get?, ih]
      split <;> rfl

@[simp] theorem get?_property (name : String) (value : Option Json) (key : String) :
    get? (property name value) key = if name = key then value else none := by
  cases value <;> simp [property]

end Fields

def hexDigit (n : Nat) : Char := "0123456789abcdef".toList.getD n '0'

/-- The escape of one character inside a JSON string. -/
def quoteChar (c : Char) : List Char :=
  if c = '"' then ['\\', '"']
  else if c = '\\' then ['\\', '\\']
  else if c.toNat = 0x8 then ['\\', 'b']
  else if c.toNat = 0xC then ['\\', 'f']
  else if c = '\n' then ['\\', 'n']
  else if c = '\r' then ['\\', 'r']
  else if c = '\t' then ['\\', 't']
  else if c.toNat < 0x20 then
    ['\\', 'u', '0', '0', hexDigit (c.toNat / 16), hexDigit (c.toNat % 16)]
  else [c]

def quote (s : String) : String :=
  String.ofList ('"' :: s.toList.flatMap quoteChar ++ ['"'])

def joinWith (separator : String) : List String → String
  | [] => ""
  | [s] => s
  | s :: rest => s ++ separator ++ joinWith separator rest

/-- `Object.keys(x).sort()`. -/
def sortedKeys (fields : Fields) : List String := fields.keys.insertionSort le

/-- What a plain object yields for a selected name it has no property of: only
`__proto__` is inherited with a JSON text, every other inherited member is a
function, which `JSON.stringify` omits. -/
def inheritedText (key : String) : Option String :=
  if key = "__proto__" then some "\x7b\"__proto__\":null\x7d" else none

mutual

/-- `JSON.stringify(value, names)` for a list of property names. -/
def stringifyWith (names : List String) : Json → String
  | .null => "null"
  | .bool b => if b then "true" else "false"
  | .num n => n.text
  | .str s => quote s
  | .arr elements => "[" ++ joinWith "," (elementTexts names elements) ++ "]"
  | .obj fields =>
      let texts := fieldTexts names fields
      let selected := names.filterMap fun name =>
        ((texts.find? (fun t => t.1 = name)).map Prod.snd <|> inheritedText name).map
          fun text => quote name ++ ":" ++ text
      "\x7b" ++ joinWith "," selected ++ "\x7d"

def elementTexts (names : List String) : List Json → List String
  | [] => []
  | v :: rest => stringifyWith names v :: elementTexts names rest

def fieldTexts (names : List String) : List (String × Json) → List (String × String)
  | [] => []
  | (k, v) :: rest => (k, stringifyWith names v) :: fieldTexts names rest

end

theorem elementTexts_eq_map (names : List String) (elements : List Json) :
    elementTexts names elements = elements.map (stringifyWith names) := by
  induction elements with
  | nil => rfl
  | cons v rest ih => rw [elementTexts, ih, List.map_cons]

theorem fieldTexts_eq_map (names : List String) (fields : Fields) : fieldTexts names fields =
    fields.map fun property => (property.1, stringifyWith names property.2) := by
  induction fields with
  | nil => rfl
  | cons property rest ih => rw [fieldTexts, ih, List.map_cons]

/-- What is read from the text of a number: an infinity has none, and zero has no sign. -/
def Number.reread : Number → Json
  | .decimal negative digits exponent => .num (.decimal (negative && digits != 0) digits exponent)
  | .infinity _ => .null

mutual

/-- `JSON.parse(JSON.stringify(value))`: infinities come back as `null`. -/
def reparse : Json → Json
  | .null => .null
  | .bool b => .bool b
  | .num n => n.reread
  | .str s => .str s
  | .arr elements => .arr (reparseElements elements)
  | .obj fields => .obj (reparseFields fields)

def reparseElements : List Json → List Json
  | [] => []
  | v :: rest => reparse v :: reparseElements rest

def reparseFields : List (String × Json) → List (String × Json)
  | [] => []
  | (k, v) :: rest => (k, reparse v) :: reparseFields rest

end

theorem reparse_str (s : String) : reparse (.str s) = .str s := rfl

theorem reparse_bool (b : Bool) : reparse (.bool b) = .bool b := rfl

theorem reparse_ofInt (z : Int) : reparse (.num (.ofInt z)) = .num (.ofInt z) := by
  obtain ⟨-, hvalue⟩ := Number.normalize_value (z.natAbs + 1) z.natAbs (Int.le_refl 0)
  rw [Int.toNat_zero, Nat.pow_zero, Nat.mul_one] at hvalue
  have hsign : z < 0 → (Number.normalize (z.natAbs + 1) z.natAbs 0).1 ≠ 0 := by
    intro hz hzero
    rw [hzero, Nat.zero_mul] at hvalue
    omega
  rw [reparse, Number.ofInt, Number.reread]
  by_cases hz : z < 0
  · simp [hz, hsign hz]
  · simp [hz]

theorem reparse_obj (fields : Fields) : reparse (.obj fields) = .obj (reparseFields fields) := by
  rw [reparse]

theorem reparseElements_eq_map (elements : List Json) :
    reparseElements elements = elements.map reparse := by
  induction elements with
  | nil => rfl
  | cons v rest ih => rw [reparseElements, ih, List.map_cons]

theorem reparseFields_eq_map (fields : Fields) :
    reparseFields fields = fields.map fun p => (p.1, reparse p.2) := by
  induction fields with
  | nil => rfl
  | cons p rest ih => rw [reparseFields, ih, List.map_cons]

/-- What was parsed is written and parsed again without a change. -/
theorem reparse_reparse (v : Json) : reparse (reparse v) = reparse v := by
  induction v using Json.induction with
  | null => rfl
  | bool b => rfl
  | num n =>
      rw [reparse]
      cases n with
      | decimal negative digits exponent =>
          rw [Number.reread, reparse, Number.reread, Bool.and_assoc, Bool.and_self]
      | infinity negative => rfl
  | str s => rfl
  | arr elements ih =>
      rw [reparse, reparse, reparseElements_eq_map, reparseElements_eq_map, List.map_map]
      exact congrArg Json.arr (List.map_congr_left ih)
  | obj fields ih =>
      rw [reparse, reparse, reparseFields_eq_map, reparseFields_eq_map, List.map_map]
      refine congrArg Json.obj (List.map_congr_left fun property hproperty => ?_)
      exact Prod.ext rfl (ih property hproperty)

theorem reparseFields_reparseFields (fields : Fields) :
    reparseFields (reparseFields fields) = reparseFields fields := by
  have hobject := reparse_reparse (.obj fields)
  rwa [reparse_obj, reparse_obj, Json.obj.injEq] at hobject

theorem reparseFields_append (fields fields' : List (String × Json)) :
    reparseFields (fields ++ fields') = reparseFields fields ++ reparseFields fields' := by
  induction fields with
  | nil => rfl
  | cons field rest ih => rw [List.cons_append, reparseFields, reparseFields, ih, List.cons_append]

theorem reparseFields_property (name : String) (value : Option Json) :
    reparseFields (Fields.property name value) = Fields.property name (value.map reparse) := by
  cases value <;> rfl

theorem get?_reparseFields (fields : Fields) (key : String) :
    Fields.get? (reparseFields fields) key = (fields.get? key).map reparse := by
  induction fields with
  | nil => rfl
  | cons field rest ih =>
      rw [reparseFields, Fields.get?_cons, Fields.get?, ih]
      split <;> rfl

end Js
