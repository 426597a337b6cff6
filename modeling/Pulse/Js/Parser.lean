import Pulse.Js.NumeralSyntax
import Pulse.Js.Serialization
import Pulse.Js.Hex

/-!
# Parsing JSON

`JSON.stringify` without a replacer, and `JSON.parse`: a recursive descent over the
characters of a text, where the depth of nesting is bounded by the length of the text.
A numeral is read exactly and then handed to `nearest`, which finds the double. The
properties of an object are kept in property order; of two with one name the later
gives the value.
-/

namespace Js

mutual

/-- `JSON.stringify(value)`. -/
def stringify : Json → String
  | .null => "null"
  | .bool b => if b then "true" else "false"
  | .num n => n.text
  | .str s => quote s
  | .arr elements => "[" ++ joinWith "," (stringifyElements elements) ++ "]"
  | .obj fields => "\x7b" ++ joinWith "," (stringifyFields fields) ++ "\x7d"

def stringifyElements : List Json → List String
  | [] => []
  | v :: rest => stringify v :: stringifyElements rest

def stringifyFields : List (String × Json) → List String
  | [] => []
  | (name, v) :: rest => (quote name ++ ":" ++ stringify v) :: stringifyFields rest

end

namespace Fields

/-- The array index which a property name stands for. -/
def arrayIndex (name : String) : Option Nat :=
  let l := name.toList
  if l ≠ [] ∧ l.all Char.isDigit ∧ (l.head? = some '0' → l = ['0']) ∧
      Nat.ofDigitChars 10 l 0 < 4294967295 then
    some (Nat.ofDigitChars 10 l 0)
  else none

/-- Array indices come before other names, in ascending order. -/
def precedes (name name' : String) : Bool :=
  match arrayIndex name, arrayIndex name' with
  | some i, some j => decide (i < j)
  | some _, none => true
  | none, _ => false

/-- Define a property. -/
def put : Fields → String → Json → Fields
  | [], name, v => [(name, v)]
  | (k, w) :: rest, name, v =>
      if k = name then (name, v) :: rest
      else if precedes name k then (name, v) :: (k, w) :: rest
      else (k, w) :: put rest name v

def ofMembers (members : List (String × Json)) : Fields :=
  members.foldl (fun fields m => put fields m.1 m.2) []

end Fields

/-- White space between the tokens of a text. -/
def isJsonSpace (c : Char) : Bool := c = ' ' || c = '\t' || c = '\n' || c = '\r'

def skipSpace (l : List Char) : List Char := l.dropWhile isJsonSpace

section numbers

/-- The digits in front, of which there has to be one. -/
def parseDigits (l : List Char) : Option (List Char × List Char) :=
  if l.takeWhile Char.isDigit = [] then none
  else some (l.takeWhile Char.isDigit, l.dropWhile Char.isDigit)

/-- Digits without a leading zero. -/
def parseWhole (l : List Char) : Option (List Char × List Char) :=
  (parseDigits l).filter fun p => p.1.head? ≠ some '0' || p.1 = ['0']

def parseFraction : List Char → Option (List Char × List Char)
  | [] => some ([], [])
  | c :: l => if c = '.' then parseDigits l else some ([], c :: l)

def parseExponent : List Char → Option (Option (Char × List Char) × List Char)
  | [] => some (none, [])
  | c :: l =>
      if c = 'e' ∨ c = 'E' then
        match l with
        | [] => none
        | sign :: l' =>
            if sign = '+' ∨ sign = '-' then
              (parseDigits l').map fun p => (some (sign, p.1), p.2)
            else (parseDigits l).map fun p => (some ('+', p.1), p.2)
      else some (none, c :: l)

/-- A numeral behind its sign. -/
def parseNumber (negative : Bool) (l : List Char) : Option (Number × List Char) :=
  (parseWhole l).bind fun whole =>
    (parseFraction whole.2).bind fun fraction =>
      (parseExponent fraction.2).map fun exponent =>
        (Numeral.numberOf negative whole.1 fraction.1 exponent.1, exponent.2)

end numbers

section strings

/-- The code unit of four hexadecimal digits. -/
def parseHex4 : List Char → Option (Nat × List Char)
  | a :: b :: c :: d :: rest =>
      match hexDigitValue a, hexDigitValue b, hexDigitValue c, hexDigitValue d with
      | some a, some b, some c, some d => some (4096 * a + 256 * b + 16 * c + d, rest)
      | _, _, _, _ => none
  | _ => none

/-- The second half of a surrogate pair, as an escape. -/
def parseLow : List Char → Option (Nat × List Char)
  | c :: u :: rest =>
      if c = '\\' ∧ u = 'u' then
        (parseHex4 rest).filter fun p => decide (0xDC00 ≤ p.1 ∧ p.1 < 0xE000)
      else none
  | _ => none

/-- The character behind `\u`; half a surrogate pair becomes U+FFFD. -/
def parseUnicode (l : List Char) : Option (Char × List Char) :=
  (parseHex4 l).map fun p =>
    if 0xD800 ≤ p.1 ∧ p.1 < 0xE000 then
      match if p.1 < 0xDC00 then parseLow p.2 else none with
      | some low => (Char.ofNat (0x10000 + (p.1 - 0xD800) * 0x400 + (low.1 - 0xDC00)), low.2)
      | none => (Char.ofNat 0xFFFD, p.2)
    else (Char.ofNat p.1, p.2)

/-- One character of a string. -/
def parseChar : List Char → Option (Char × List Char)
  | [] => none
  | c :: l =>
      if c = '\\' then
        match l with
        | [] => none
        | e :: l =>
            if e = 'u' then parseUnicode l
            else if e ∈ ['"', '\\', '/', 'b', 'f', 'n', 'r', 't'] then some (unescape e, l)
            else none
      else if c.toNat < 0x20 then none
      else some (c, l)

/-- The characters up to the closing quote. -/
def parseChars : Nat → List Char → Option (List Char × List Char)
  | 0, _ => none
  | _ + 1, [] => none
  | fuel + 1, c :: l =>
      if c = '"' then some ([], l)
      else (parseChar (c :: l)).bind fun p =>
        (parseChars fuel p.2).map fun q => (p.1 :: q.1, q.2)

/-- A string behind its opening quote. -/
def parseString (l : List Char) : Option (String × List Char) :=
  (parseChars l.length l).map fun p => (String.ofList p.1, p.2)

end strings

section lists

variable {α : Type} (item : List Char → Option (α × List Char)) (close : Char)

/-- One item or more, between commas. -/
def parseItems : Nat → List Char → Option (List α × List Char)
  | 0, _ => none
  | fuel + 1, l =>
      (item (skipSpace l)).bind fun p =>
        match skipSpace p.2 with
        | [] => none
        | c :: rest =>
            if c = close then some ([p.1], rest)
            else if c = ',' then (parseItems fuel rest).map fun q => (p.1 :: q.1, q.2)
            else none

/-- The items behind an opening bracket. -/
def parseList (l : List Char) : Option (List α × List Char) :=
  match skipSpace l with
  | [] => none
  | c :: rest => if c = close then some ([], rest) else parseItems item close l.length l

/-- A property name, a colon and a value. -/
def parseMember (value : List Char → Option (α × List Char)) :
    List Char → Option ((String × α) × List Char)
  | [] => none
  | c :: l =>
      if c = '"' then
        (parseString l).bind fun name =>
          match skipSpace name.2 with
          | [] => none
          | c :: rest =>
              if c = ':' then
                (value (skipSpace rest)).map fun p => ((name.1, p.1), p.2)
              else none
      else none

end lists

/-- A literal name. -/
def parseWord (l : List Char) : Option (Json × List Char) :=
  if "null".toList.isPrefixOf l then some (.null, l.drop 4)
  else if "true".toList.isPrefixOf l then some (.bool true, l.drop 4)
  else if "false".toList.isPrefixOf l then some (.bool false, l.drop 5)
  else none

/-- A value, nested less deep than `fuel`. -/
def parseValue (nearest : Number → Number) : Nat → List Char → Option (Json × List Char)
  | 0, _ => none
  | _ + 1, [] => none
  | fuel + 1, c :: l =>
      if c = '"' then (parseString l).map fun p => (.str p.1, p.2)
      else if c = '[' then
        (parseList (parseValue nearest fuel) ']' l).map fun p => (.arr p.1, p.2)
      else if c = '\x7b' then
        (parseList (parseMember (parseValue nearest fuel)) '\x7d' l).map fun p =>
          (.obj (Fields.ofMembers p.1), p.2)
      else if c = '-' then (parseNumber true l).map fun p => (.num (nearest p.1), p.2)
      else if c.isDigit then
        (parseNumber false (c :: l)).map fun p => (.num (nearest p.1), p.2)
      else parseWord (c :: l)

/-- `JSON.parse(text)`; `none` where it throws. -/
def parse (nearest : Number → Number) (text : String) : Option Json :=
  let l := skipSpace text.toList
  ((parseValue nearest (l.length + 1) l).filter fun p => skipSpace p.2 = []).map Prod.fst

end Js
