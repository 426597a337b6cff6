import Pulse.Metrics.Counter

/-!
# Tallies

What a metric with labels is for: it keeps the amounts it was given, one after the other
for each series, until it is reset. A series is opened by labels that pass the check,
and from then on takes amounts under any labels with its key. A counter shows the sum of
the amounts of a series, added up in their order.
-/

namespace Pulse

open Collections Js

/-- A call of a metric. -/
inductive MetricCall
  | add (labels : Option MetricLabels) (value : Option Number)
  | reset

/-- The key of the series of some labels; without label names there is one series. -/
def seriesKey (labelNames : List String) (labels : Option MetricLabels) : LabelValue :=
  if labelNames.length = 0 then .own "" else resolveKey labelNames labels

structure Tally where
  /-- The keys of the series, with the labels of the call that opened each. -/
  opened : OrderedMap LabelValue MetricLabels := ∅
  log : List (LabelValue × Number) := []

namespace Tally

def amounts (t : Tally) (key : LabelValue) : List Number :=
  (t.log.filter fun entry => entry.1 = key).map Prod.snd

/-- Whether the labels name a series, or may open one. -/
def Accepts (t : Tally) (labelNames : List String) (labels : Option MetricLabels) : Prop :=
  labelNames.length = 0 ∨ seriesKey labelNames labels ∈ t.opened.keys ∨
    (assertLowCardinalityLabels labels).isOk = true

instance (t : Tally) (labelNames : List String) (labels : Option MetricLabels) :
    Decidable (t.Accepts labelNames labels) :=
  inferInstanceAs (Decidable (_ ∨ _ ∨ _))

/-- One more amount in a series, which is opened if need be. -/
def enter (t : Tally) (key : LabelValue) (labels : MetricLabels) (x : Number) : Tally :=
  { opened := if key ∈ t.opened.keys then t.opened else t.opened.set key labels
    log := t.log ++ [(key, x)] }

variable (amount : Option Number → Option Number) (labelNames : List String)

/-- A call of a metric which takes a value as some amount, or refuses it. -/
def call (t : Tally) : MetricCall → Tally
  | .reset => { t with log := [] }
  | .add labels value =>
      match amount value with
      | none => t
      | some x =>
          if t.Accepts labelNames labels then
            t.enter (seriesKey labelNames labels) (filterAllowedLabels labelNames labels) x
          else t

def after (calls : List MetricCall) : Tally := calls.foldl (call amount labelNames) {}

variable {amount labelNames} {t : Tally} {labels : Option MetricLabels} {value : Option Number}
variable {x : Number}

@[simp] theorem amounts_reset (t : Tally) (key : LabelValue) :
    ({ t with log := [] } : Tally).amounts key = [] := rfl

theorem call_of_refused (h : amount value = none ∨ ¬ t.Accepts labelNames labels) :
    t.call amount labelNames (.add labels value) = t := by
  rw [call]
  obtain h | h := h
  · rw [h]
  · split
    · rfl
    · rw [if_neg h]

theorem call_of_accepted (h : amount value = some x) (accepts : t.Accepts labelNames labels) :
    t.call amount labelNames (.add labels value) =
      t.enter (seriesKey labelNames labels) (filterAllowedLabels labelNames labels) x := by
  rw [call, h]
  exact if_pos accepts

/-- An accepted amount is the last one of its series. -/
theorem amounts_enter (t : Tally) (key : LabelValue) (labels : MetricLabels) (x : Number)
    (key' : LabelValue) : (t.enter key labels x).amounts key' =
      if key' = key then t.amounts key' ++ [x] else t.amounts key' := by
  simp only [amounts, enter, List.filter_append, List.map_append]
  by_cases h : key' = key
  · simp [h]
  · simp [h, Ne.symm h]

theorem keys_enter (t : Tally) (key : LabelValue) (labels : MetricLabels) (x : Number) :
    (t.enter key labels x).opened.keys =
      if key ∈ t.opened.keys then t.opened.keys else t.opened.keys ++ [key] := by
  rw [enter]
  split
  · rfl
  · rename_i h
    exact OrderedMap.keys_set_of_not_mem h

theorem get?_enter (t : Tally) (key : LabelValue) (labels : MetricLabels) (x : Number)
    (key' : LabelValue) : (t.enter key labels x).opened.get? key' =
      if key' = key then some ((t.opened.get? key).getD labels) else t.opened.get? key' := by
  rw [enter]
  by_cases hkey : key' = key
  · subst hkey
    rw [if_pos rfl]
    split
    · rename_i hopened
      obtain ⟨labels', hlabels⟩ :=
        Option.isSome_iff_exists.mp (OrderedMap.get?_isSome_iff.mpr hopened)
      rw [hlabels, Option.getD_some]
    · rename_i hclosed
      rw [OrderedMap.get?_set_self, OrderedMap.get?_eq_none_iff.mpr hclosed, Option.getD_none]
  · rw [if_neg hkey]
    split
    · rfl
    · exact OrderedMap.get?_set_ne hkey _

/-- The map has the opened series in their order, with the labels that opened them, and reads
as the data of their amounts. -/
structure ShownBy {ν δ : Type} (t : Tally) (read : ν → MetricLabels × δ)
    (data : List Number → δ) (m : OrderedMap LabelValue ν) : Prop where
  keys : m.keys = t.opened.keys
  read_get? : ∀ key, (m.get? key).map read =
    (t.opened.get? key).map fun labels => (labels, data (t.amounts key))

/-- Only series which have been opened have amounts. -/
def Sound (t : Tally) : Prop := ∀ key, key ∉ t.opened.keys → t.amounts key = []

theorem Sound.enter (h : t.Sound) (key : LabelValue) (labels : MetricLabels) (x : Number) :
    (t.enter key labels x).Sound := by
  intro key' hkey
  rw [keys_enter] at hkey
  have hne : key' ≠ key := by
    rintro rfl
    split at hkey
    · rename_i hopened
      exact hkey hopened
    · exact hkey (List.mem_append_right _ (List.mem_singleton.mpr rfl))
  rw [amounts_enter, if_neg hne]
  apply h key'
  split at hkey
  · exact hkey
  · exact fun hmem => hkey (List.mem_append_left _ hmem)

section shown

variable {ν δ : Type} {read : ν → MetricLabels × δ} {data : List Number → δ}
variable {m : OrderedMap LabelValue ν}

theorem ShownBy.set (h : t.ShownBy read data m) {key : LabelValue} {fresh : MetricLabels}
    {x : Number} {v : ν}
    (hv : read v = ((t.opened.get? key).getD fresh, data (t.amounts key ++ [x]))) :
    (t.enter key fresh x).ShownBy read data (m.set key v) where
  keys := by rw [OrderedMap.keys_set, keys_enter, h.keys]
  read_get? key' := by
    rw [OrderedMap.get?_set, amounts_enter, get?_enter]
    by_cases hkey : key' = key
    · subst hkey
      rw [if_pos rfl, if_pos rfl, if_pos rfl, Option.map_some, hv, Option.map_some]
    · rw [if_neg hkey, if_neg hkey, if_neg hkey, h.read_get? key']

theorem ShownBy.reset (h : t.ShownBy read data m) {f : ν → ν}
    (hf : ∀ v labels amounts, read v = (labels, data amounts) → read (f v) = (labels, data [])) :
    ({ t with log := [] } : Tally).ShownBy read data (m.mapValues f) where
  keys := by
    rw [← h.keys, OrderedMap.keys, OrderedMap.mapValues, List.map_map]
    rfl
  read_get? key := by
    have hkey := h.read_get? key
    rw [OrderedMap.get?_mapValues]
    cases hlabels : t.opened.get? key with
    | none =>
        rw [hlabels, Option.map_none, Option.map_eq_none_iff] at hkey
        rw [hkey]
        rfl
    | some labels =>
        rw [hlabels, Option.map_some, Option.map_eq_some_iff] at hkey
        obtain ⟨v, hentry, hread⟩ := hkey
        rw [hentry, Option.map_some, Option.map_some, Option.map_some, hf v labels _ hread]
        rfl

/-- A series that is read is the data of its amounts; one that is not open has none. -/
theorem ShownBy.read_eq (h : t.ShownBy read data m) (sound : t.Sound) (key : LabelValue) :
    ((m.get? key).map fun v => (read v).2).getD (data []) = data (t.amounts key) := by
  have hkey := h.read_get? key
  cases hlabels : t.opened.get? key with
  | none =>
      rw [hlabels, Option.map_none, Option.map_eq_none_iff] at hkey
      rw [hkey, sound key (OrderedMap.get?_eq_none_iff.mp hlabels)]
      rfl
  | some labels =>
      rw [hlabels, Option.map_some, Option.map_eq_some_iff] at hkey
      obtain ⟨v, hentry, hread⟩ := hkey
      rw [hentry, Option.map_some, Option.getD_some, hread]

/-- The values of the map are the data of the series, in the order in which they were opened. -/
theorem ShownBy.map_values (h : t.ShownBy read data m) : m.values.map read =
    t.opened.entries.map fun e => (e.2, data (t.amounts e.1)) := by
  have hvalues := m.map_entries_eq_filterMap fun _ v => read v
  have hseries := t.opened.map_entries_eq_filterMap fun key labels =>
    (labels, data (t.amounts key))
  rw [hseries, OrderedMap.values, List.map_map, ← h.keys]
  refine hvalues.trans (List.filterMap_congr fun key _ => ?_)
  exact h.read_get? key

/-- The series of a key, opened by labels that pass the check. -/
def openSeries (m : OrderedMap LabelValue ν) (key : LabelValue) (labels : Option MetricLabels)
    (fresh : ν) : Except String ν :=
  match m.get? key with
  | some entry => .ok entry
  | none => do
      assertLowCardinalityLabels labels
      return fresh

theorem ShownBy.openSeries (h : t.ShownBy read data m) {labels : Option MetricLabels} {fresh : ν}
    (hfresh : read fresh = (filterAllowedLabels labelNames labels, data []))
    (sound : t.Sound) (labelled : labelNames.length ≠ 0) :
    t.Accepts labelNames labels ∧ (∃ entry,
        openSeries m (resolveKey labelNames labels) labels fresh = .ok entry ∧
          read entry = ((t.opened.get? (resolveKey labelNames labels)).getD
            (filterAllowedLabels labelNames labels),
              data (t.amounts (resolveKey labelNames labels)))) ∨
      ¬ t.Accepts labelNames labels ∧
        ∃ e, openSeries m (resolveKey labelNames labels) labels fresh = .error e := by
  have haccepts : t.Accepts labelNames labels ↔
      (t.opened.get? (resolveKey labelNames labels)).isSome = true ∨
        (assertLowCardinalityLabels labels).isOk = true := by
    rw [Accepts, seriesKey, if_neg labelled, OrderedMap.get?_isSome_iff]
    exact or_iff_right labelled
  have hkey := h.read_get? (resolveKey labelNames labels)
  rw [haccepts, Tally.openSeries]
  cases hlabels : t.opened.get? (resolveKey labelNames labels) with
  | some opening =>
      rw [hlabels, Option.map_some, Option.map_eq_some_iff] at hkey
      obtain ⟨entry, hentry, hread⟩ := hkey
      rw [hentry]
      exact Or.inl ⟨Or.inl rfl, entry, rfl, hread⟩
  | none =>
      rw [hlabels, Option.map_none, Option.map_eq_none_iff] at hkey
      rw [hkey]
      have hnone := sound _ (OrderedMap.get?_eq_none_iff.mp hlabels)
      cases hcheck : assertLowCardinalityLabels labels with
      | ok _ => exact Or.inl ⟨Or.inr rfl, fresh, rfl, by rw [hfresh, hnone]; rfl⟩
      | error e =>
          refine Or.inr ⟨?_, e, rfl⟩
          rintro (hsome | hok)
          · cases hsome
          · cases hok

end shown

end Tally

namespace Counter

/-- A call of a counter; one that throws changes nothing. -/
def call (add : Number → Number → Number) (c : Counter) : MetricCall → Counter
  | .add labels value =>
      match c.inc add labels value with
      | .ok c' => c'
      | .error _ => c
  | .reset => c.reset

def after (add : Number → Number → Number) (c : Counter) (calls : List MetricCall) : Counter :=
  calls.foldl (call add) c

/-- The increments of a counter are not negative. -/
def increment (value : Option Number) : Option Number := value.filter (Number.ofInt 0).le

/-- The labels of a series and its value. -/
def readSeries (entry : LabeledSeries) : MetricLabels × Number := (entry.labels, entry.value)

/-- The counter shows the sums of the tally. -/
structure Shows (add : Number → Number → Number) (c : Counter) (t : Tally) : Prop where
  sound : t.Sound
  unlabelled : c.labelNames.length = 0 → c.unlabelledValue = total add (t.amounts (.own ""))
  labelled : c.labelNames.length ≠ 0 → t.ShownBy readSeries (total add) c.series

variable {add : Number → Number → Number} {c : Counter} {t : Tally}

theorem call_of_error {labels : Option MetricLabels} {value : Option Number} {e : String}
    (h : c.inc add labels value = .error e) : c.call add (.add labels value) = c := by
  rw [call, h]

theorem call_of_ok {labels : Option MetricLabels} {value : Option Number} {c' : Counter}
    (h : c.inc add labels value = .ok c') : c.call add (.add labels value) = c' := by
  rw [call, h]

/-- Calls leave the name and the label names alone. -/
theorem names_call (add : Number → Number → Number) (c : Counter) (call : MetricCall) :
    (c.call add call).name = c.name ∧ (c.call add call).labelNames = c.labelNames := by
  cases call with
  | reset => exact ⟨rfl, rfl⟩
  | add labels value =>
      cases hinc : c.inc add labels value with
      | error e =>
          rw [call_of_error hinc]
          exact ⟨rfl, rfl⟩
      | ok c' =>
          rw [call_of_ok hinc]
          simp only [inc] at hinc
          split at hinc
          · cases hinc
          · split at hinc
            · cases hinc
              exact ⟨rfl, rfl⟩
            · cases hentry : c.seriesFor labels with
              | error e =>
                  rw [hentry] at hinc
                  cases hinc
              | ok entry =>
                  rw [hentry] at hinc
                  cases hinc
                  exact ⟨rfl, rfl⟩

theorem seriesFor_eq (c : Counter) (labels : Option MetricLabels) : c.seriesFor labels =
    Tally.openSeries c.series (resolveKey c.labelNames labels) labels
      { labels := filterAllowedLabels c.labelNames labels, value := .ofInt 0 } := by
  rw [seriesFor, Tally.openSeries]
  cases c.series.get? (resolveKey c.labelNames labels) <;> rfl

theorem Shows.call_add (h : c.Shows add t) (labels : Option MetricLabels) (value : Option Number) :
    (c.call add (.add labels value)).Shows add
      (t.call increment c.labelNames (.add labels value)) := by
  cases hvalue : value.filter (Number.ofInt 0).le with
  | none =>
      obtain ⟨e, hinc⟩ : ∃ e, c.inc add labels value = .error e := ⟨_, by rw [inc, hvalue]⟩
      have hrefused : increment value = none := hvalue
      rw [call_of_error hinc, Tally.call_of_refused (Or.inl hrefused)]
      exact h
  | some n =>
      have hamount : increment value = some n := hvalue
      by_cases hnames : c.labelNames.length = 0
      · have hinc : c.inc add labels value =
            .ok { c with unlabelledValue := add c.unlabelledValue n } := by
          simp only [inc, hvalue, if_pos hnames]
        have hkey : seriesKey c.labelNames labels = .own "" := if_pos hnames
        rw [call_of_ok hinc, Tally.call_of_accepted hamount (Or.inl hnames), hkey]
        refine ⟨h.sound.enter (.own "") _ _, fun _ => ?_, fun hlabelled => absurd hnames hlabelled⟩
        rw [Tally.amounts_enter, if_pos rfl, total_append_singleton]
        exact congrArg (add · n) (h.unlabelled hnames)
      · have hkey : seriesKey c.labelNames labels = resolveKey c.labelNames labels :=
          if_neg hnames
        have hfresh : readSeries
            { labels := filterAllowedLabels c.labelNames labels, value := .ofInt 0 } =
              (filterAllowedLabels c.labelNames labels, total add []) := rfl
        obtain ⟨haccepts, entry, hentry, hread⟩ | ⟨hrefuses, e, hentry⟩ :=
          (h.labelled hnames).openSeries hfresh h.sound hnames
        · have hseries := (c.seriesFor_eq labels).trans hentry
          have hinc : c.inc add labels value = .ok { c with
              series := c.series.set (resolveKey c.labelNames labels)
                { labels := entry.labels, value := add entry.value n } } := by
            simp only [inc, hvalue, if_neg hnames, hseries]
            rfl
          rw [call_of_ok hinc, Tally.call_of_accepted hamount haccepts, hkey]
          refine ⟨h.sound.enter _ _ _, fun hempty => absurd hempty hnames, fun _ => ?_⟩
          obtain ⟨hlabels, hvalue⟩ := Prod.mk.inj hread
          apply (h.labelled hnames).set
          rw [readSeries, total_append_singleton, hlabels, hvalue]
        · have hseries := (c.seriesFor_eq labels).trans hentry
          have hinc : c.inc add labels value = .error e := by
            simp only [inc, hvalue, if_neg hnames, hseries]
            rfl
          rw [call_of_error hinc, Tally.call_of_refused (Or.inr hrefuses)]
          exact h

theorem Shows.reset (h : c.Shows add t) : c.reset.Shows add { t with log := [] } where
  sound _ _ := rfl
  unlabelled _ := rfl
  labelled hnames :=
    (h.labelled hnames).reset (f := fun entry => { entry with value := .ofInt 0 })
      fun _ _ _ hread => by rw [readSeries, (Prod.mk.inj hread).1]; rfl

theorem Shows.after (h : c.Shows add t) (calls : List MetricCall) :
    (c.after add calls).Shows add (calls.foldl (Tally.call increment c.labelNames) t) ∧
      (c.after add calls).name = c.name ∧ (c.after add calls).labelNames = c.labelNames := by
  induction calls generalizing c t with
  | nil => exact ⟨h, rfl, rfl⟩
  | cons call calls ih =>
      have hcall : (c.call add call).Shows add (t.call increment c.labelNames call) := by
        cases call with
        | reset => exact h.reset
        | add labels value => exact h.call_add labels value
      have hrest := ih hcall
      obtain ⟨hname, hnames⟩ := names_call add c call
      rw [hname, hnames] at hrest
      exact hrest

theorem Shows.get_eq (h : c.Shows add t) (labels : Option MetricLabels) :
    c.get labels = total add (t.amounts (seriesKey c.labelNames labels)) := by
  by_cases hnames : c.labelNames.length = 0
  · rw [get, if_pos hnames, seriesKey, if_pos hnames]
    exact h.unlabelled hnames
  · rw [get, if_neg hnames, seriesKey, if_neg hnames,
      ← (h.labelled hnames).read_eq h.sound (resolveKey c.labelNames labels)]
    cases c.series.get? (resolveKey c.labelNames labels) <;> rfl

/-- A new counter shows an empty tally. -/
theorem shows_create {name : String} {help : Option String} {labelNames : Option (List String)}
    (h : create name help labelNames = .ok c) : c.Shows add {} := by
  rw [create] at h
  split at h
  · cases h
  · cases h
    exact ⟨fun _ _ => rfl, fun _ => rfl, fun _ => ⟨rfl, fun _ => rfl⟩⟩

/-- After any calls, the ones that throw among them, a counter shows for any labels the sum, in
the order of the calls, of the increments of their series that were accepted since the last
reset. -/
theorem get_after (add : Number → Number → Number) {name : String} {help : Option String}
    {labelNames : Option (List String)} (h : create name help labelNames = .ok c)
    (calls : List MetricCall) (labels : Option MetricLabels) :
    (c.after add calls).get labels =
      total add ((Tally.after increment c.labelNames calls).amounts
        (seriesKey c.labelNames labels)) := by
  have hnew : c.Shows add {} := shows_create h
  obtain ⟨hshows, -, hnames⟩ := hnew.after calls
  rw [hshows.get_eq, hnames]
  rfl

/-- The samples of a counter with some name for a tally. -/
def samplesOf (add : Number → Number → Number) (name : String) (labelNames : List String)
    (t : Tally) : List MetricSample :=
  if labelNames.length = 0 then
    [{ name, labels := none, value := total add (t.amounts (.own "")) }]
  else t.opened.entries.map fun e =>
    { name, labels := some e.2, value := total add (t.amounts e.1) }

/-- After any calls a counter collects one sample for each opened series, in the order in which
they were opened, with the labels of the call that opened it. -/
theorem collect_after (add : Number → Number → Number) {name : String} {help : Option String}
    {labelNames : Option (List String)} (h : create name help labelNames = .ok c)
    (calls : List MetricCall) :
    (c.after add calls).collect =
      samplesOf add c.name c.labelNames (Tally.after increment c.labelNames calls) := by
  have hnew : c.Shows add {} := shows_create h
  obtain ⟨hshows, hname, hnames⟩ := hnew.after calls
  rw [collect, samplesOf, hname, hnames]
  rw [← hnames] at hshows
  by_cases hlabels : c.labelNames.length = 0
  · rw [if_pos hlabels, if_pos hlabels, hshows.unlabelled (by rw [hnames]; exact hlabels), hnames]
    rfl
  · have hvalues := congrArg
      (List.map fun p : MetricLabels × Number =>
        ({ name := c.name, labels := some p.1, value := p.2 } : MetricSample))
      (hshows.labelled (by rw [hnames]; exact hlabels)).map_values
    rw [List.map_map, List.map_map, hnames] at hvalues
    rw [if_neg hlabels, if_neg hlabels]
    exact hvalues

/-- Prohibited labels are refused, but not where the series is open already. -/
theorem get_after_prohibited :
    (after addWhole { name := "errors_total", help := "", labelNames := ["type"] }
      [.add (some (.set ∅ "type" "a")) (some (.ofInt 2)),
        .add (some (.set (.set ∅ "type" "a") "userId" "u")) (some (.ofInt 3)),
        .add (some (.set (.set ∅ "type" "b") "userId" "u")) (some (.ofInt 5))]).get
          (some (.set ∅ "type" "a")) = .ofInt 5 :=
  (get_after addWhole (rfl : create "errors_total" none (some ["type"]) = _) _ _).trans
    (by decide +kernel)

end Counter

end Pulse
