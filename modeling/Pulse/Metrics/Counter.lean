import Pulse.Collections.Delimiter
import Pulse.Collections.OrderedMap
import Pulse.Config.Presence

/-!
# Counters

The labelled series of a counter. A series is kept under a text which joins the values
of the labels; its sample carries the labels of the call that opened it. Gauges and
histograms find their series by the same `resolveKey` and `filterAllowedLabels`. The
addition of doubles is a parameter `add`: what a counter shows depends on the order of
its calls.
-/

namespace Pulse

open Collections Js

/-- The own properties of a label object, as a record of strings. -/
abbrev MetricLabels := OrderedMap String String

/-- The names of the properties which label objects inherit. -/
def OBJECT_PROTOTYPE_KEYS : List String :=
  ["constructor", "hasOwnProperty", "isPrototypeOf", "propertyIsEnumerable", "toLocaleString",
    "toString", "valueOf", "__defineGetter__", "__defineSetter__", "__lookupGetter__",
    "__lookupSetter__", "__proto__"]

/-- What is read of a label object under a name. -/
inductive LabelValue
  | own (value : String)
  /-- A property of `Object.prototype`. -/
  | inherited (name : String)
  deriving DecidableEq

/-- `String(value)`. -/
def LabelValue.text : LabelValue → String
  | .own value => value
  | .inherited name =>
      if name = "__proto__" then "[object Object]"
      else "function " ++ (if name = "constructor" then "Object" else name) ++
        "() \x7b [native code] \x7d"

/-- `labels[name]`. -/
def readLabel (labels : MetricLabels) (name : String) : Option LabelValue :=
  match labels.get? name with
  | some value => some (.own value)
  | none => if name ∈ OBJECT_PROTOTYPE_KEYS then some (.inherited name) else none

def PROHIBITED_LABEL_KEYS : List String :=
  ["userid", "user_id", "connectionid", "connection_id", "roomid", "room_id", "eventid",
    "event_id", "instanceid", "instance_id", "error", "error_message", "errormsg", "message",
    "payload"]

/-- The check of one label. -/
def assertLowCardinality (key value : String) : Except String Unit :=
  if key.toLower ∈ PROHIBITED_LABEL_KEYS then
    .error ("Low-cardinality violation: Label key \"" ++ key ++
      "\" is prohibited in Prometheus metrics to prevent memory exhaustion.")
  else if Js.length value > 64 then
    .error ("Invalid label value for \"" ++ key ++
      "\": Values must be strings with maximum length 64.")
  else .ok ()

def assertLowCardinalityLabels (labels : Option MetricLabels) : Except String Unit :=
  match labels with
  | none => .ok ()
  | some labels => labels.entries.forM fun label => assertLowCardinality label.1 label.2

def labelText (labels : MetricLabels) (name : String) : String :=
  name ++ "=" ++ ((readLabel labels name).map LabelValue.text).getD ""

/-- With one label name an inherited property is the key itself, else its text is joined. -/
def resolveKey (labelNames : List String) (labels : Option MetricLabels) : LabelValue :=
  match labels with
  | none => .own ""
  | some labels =>
      match labelNames with
      | [singleName] => (readLabel labels singleName).getD (.own "")
      | labelNames => .own (joinWith "|" (labelNames.map (labelText labels)))

/-- The labels by their texts, as the exposition shows them. To assign `__proto__` makes no
property. -/
def filterAllowedLabels (labelNames : List String) (labels : Option MetricLabels) :
    MetricLabels :=
  match labels with
  | none => ∅
  | some labels =>
      labelNames.foldl (fun filtered name =>
        if name = "__proto__" then filtered
        else (readLabel labels name).elim filtered fun value =>
          filtered.set name value.text) ∅

/-- Numbers added up one after the other, from zero on. -/
def total (add : Number → Number → Number) (values : List Number) : Number :=
  values.foldl add (.ofInt 0)

@[simp] theorem total_nil (add : Number → Number → Number) : total add [] = .ofInt 0 := rfl

@[simp] theorem total_append_singleton (add : Number → Number → Number) (values : List Number)
    (x : Number) : total add (values ++ [x]) = add (total add values) x := by
  rw [total, List.foldl_append]
  rfl

/-- The addition of whole numbers, as far as doubles have them. -/
def addWhole (m n : Number) : Number :=
  if m = .ofInt 0 then n else if n = .ofInt 0 then m else .ofInt (m.value.num + n.value.num)

structure LabeledSeries where
  labels : MetricLabels
  value : Number
  deriving DecidableEq

structure MetricSample where
  name : String
  labels : Option MetricLabels
  value : Number
  deriving DecidableEq

structure Counter where
  name : String
  help : String
  labelNames : List String
  unlabelledValue : Number := .ofInt 0
  series : OrderedMap LabelValue LabeledSeries := ∅
  deriving DecidableEq

namespace Counter

/-- The constructor. -/
def create (name : String) (help : Option String) (labelNames : Option (List String)) :
    Except String Counter :=
  if name = "" then .error "Counter name must be a non-empty string"
  else .ok { name, help := help.getD "", labelNames := labelNames.getD [] }

/-- The series of the labels, opened if there is none yet. -/
def seriesFor (c : Counter) (labels : Option MetricLabels) : Except String LabeledSeries :=
  match c.series.get? (resolveKey c.labelNames labels) with
  | some entry => .ok entry
  | none => do
      assertLowCardinalityLabels labels
      return { labels := filterAllowedLabels c.labelNames labels, value := .ofInt 0 }

/-- A value of `none` is `NaN`. -/
def inc (add : Number → Number → Number) (c : Counter) (labels : Option MetricLabels)
    (value : Option Number) : Except String Counter :=
  match value.filter (Number.ofInt 0).le with
  | none => .error ("Counter increment value must be a non-negative number; received " ++
      numberText value)
  | some amount =>
      if c.labelNames.length = 0 then
        .ok { c with unlabelledValue := add c.unlabelledValue amount }
      else do
        let entry ← c.seriesFor labels
        return { c with
          series := c.series.set (resolveKey c.labelNames labels)
            { labels := entry.labels, value := add entry.value amount } }

def get (c : Counter) (labels : Option MetricLabels) : Number :=
  if c.labelNames.length = 0 then c.unlabelledValue
  else
    match c.series.get? (resolveKey c.labelNames labels) with
    | some entry => entry.value
    | none => .ofInt 0

def reset (c : Counter) : Counter :=
  { c with
    unlabelledValue := .ofInt 0
    series := ⟨c.series.entries.map fun e => (e.1, { e.2 with value := .ofInt 0 }), by
      simpa [Function.comp_def] using c.series.nodup⟩ }

def collect (c : Counter) : List MetricSample :=
  if c.labelNames.length = 0 then
    [{ name := c.name, labels := none, value := c.unlabelledValue }]
  else c.series.values.map fun entry =>
    { name := c.name, labels := some entry.labels, value := entry.value }

end Counter

end Pulse
