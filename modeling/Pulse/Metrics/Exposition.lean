import Pulse.Js.ParseFloat
import Pulse.Metrics.Histogram
import Pulse.Metrics.PrometheusSerializer

/-!
# The exposition and its scrape

The text which the server answers a scrape with, and the reader that the chaos scenarios
use on it. The reader keys each value by the rendered series name. It finds every finite
value again, the ones below a millionth as rounded, and drops the others.
-/

namespace Pulse

open Collections Js

inductive MetricType
  | counter
  | gauge
  | histogram
  deriving DecidableEq

/-- A sample with the double that is shown for it; `none` is `NaN`. -/
structure ShownSample where
  name : String
  labels : Option MetricLabels
  value : Option Number
  deriving DecidableEq

/-- A metric with the samples that it collects. -/
structure CollectedMetric where
  name : String
  help : String
  type : MetricType
  samples : List ShownSample

/-- What is shown of a sample of a counter or a histogram, which is never `NaN`. -/
def MetricSample.shown (sample : MetricSample) : ShownSample :=
  { name := sample.name, labels := sample.labels, value := some sample.value }

def Counter.collected (c : Counter) : CollectedMetric :=
  { name := c.name, help := c.help, type := .counter, samples := c.collect.map (·.shown) }

def Histogram.collected (h : Histogram) : CollectedMetric :=
  { name := h.name, help := h.help, type := .histogram, samples := h.collect.map (·.shown) }

namespace PrometheusSerializer

def typeText : MetricType → String
  | .counter => "counter"
  | .gauge => "gauge"
  | .histogram => "histogram"

def escapeHelp (text : String) : String :=
  String.ofList (replaceAll '\n' ['\\', 'n'] (replaceAll '\\' ['\\', '\\'] text.toList))

/-- `Number.isInteger(value)` for a finite number. -/
def isInteger (digits : Nat) (exponent : Int) : Bool := digits % 10 ^ (-exponent).toNat = 0

/-- `value.toFixed(6)` for a value below a millionth. The double next to `5e-7` lies below it,
so that it is rounded down. -/
def toFixed6 (negative : Bool) (digits : Nat) (exponent : Int) : String :=
  (if negative then "-" else "") ++
    if (Number.decimal false 5 (-7)).value < (Number.decimal false digits exponent).value then
      "0.000001"
    else "0.000000"

def formatValue : Option Number → String
  | none => "NaN"
  | some (.infinity negative) => if negative then "-Inf" else "+Inf"
  | some (.decimal negative digits exponent) =>
      let str := (Number.decimal negative digits exponent).text
      if isInteger digits exponent then str
      else if 'e' ∈ str.toList then toFixed6 negative digits exponent
      else str

def serializeMetric (metric : CollectedMetric) : List String :=
  (if metric.help = "" then []
    else ["# HELP " ++ metric.name ++ " " ++ escapeHelp metric.help]) ++
  ("# TYPE " ++ metric.name ++ " " ++ typeText metric.type) ::
    metric.samples.map fun sample =>
      sampleLine sample.name sample.labels (formatValue sample.value)

/-- The exposition of the metrics, in the order of `localeCompare` on their names. -/
def serialize (localeCompare : String → String → Bool) (metrics : List CollectedMetric) :
    String :=
  if metrics = [] then ""
  else
    let sortedMetrics := metrics.insertionSort fun a b => localeCompare a.name b.name = true
    joinWith "\n" (sortedMetrics.flatMap serializeMetric) ++ "\n"

end PrometheusSerializer

namespace ChaosScenarioRunner

/-- A text before and behind the last occurrence of a character. -/
def splitLast (c : Char) : List Char → Option (List Char × List Char)
  | [] => none
  | d :: l =>
      match splitLast c l with
      | some (before, after) => some (d :: before, after)
      | none => if d = c then some ([], l) else none

/-- What `scrapeMetrics` does with a line. -/
def scrapeLine (nearest : Number → Number) (metricsMap : OrderedMap String Number)
    (line : List Char) : OrderedMap String Number :=
  let trimmed := trimChars line
  if trimmed = [] ∨ trimmed.head? = some '#' then metricsMap
  else
    match splitLast ' ' trimmed with
    | none => metricsMap
    | some (name, valStr) =>
        match parseFloat nearest (trimChars valStr) with
        | none => metricsMap
        | some val => metricsMap.set (String.ofList (trimChars name)) val

/-- The map that `scrapeMetrics` makes of a response. -/
def scrapeMetrics (nearest : Number → Number) (rawData : String) : OrderedMap String Number :=
  (rawData.toList.splitOn '\n').foldl (scrapeLine nearest) ∅

end ChaosScenarioRunner

end Pulse
