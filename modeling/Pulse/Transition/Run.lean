/-!
# Runs of event-driven machines

A machine is a partial step function: `step s e = none` says that event `e`
cannot occur in state `s`. A run is a list of events executed from a given
state. `Always` speaks about every state a run visits and `EveryStep` about
every transition it takes, so both also describe runs which stop early because
an event is not enabled.

The rules below package the inductions over runs once. `always_iff_everyStep`
is the exact form: under a background invariant, a property holds throughout a
run precisely when each of its transitions satisfies a local condition.
-/

namespace Transition

universe u v w

variable {σ : Type u} {ε : Type v} {ω : Type w}
variable (step : σ → ε → Option σ)

def run : σ → List ε → Option σ
  | s, [] => some s
  | s, e :: es => (step s e).bind fun t => run t es

/-- `P` holds in every state which the run visits, the first one included. -/
def Always (P : σ → Prop) : σ → List ε → Prop
  | s, [] => P s
  | s, e :: es => P s ∧ ∀ t, step s e = some t → Always P t es

/-- `R` holds of every transition which the run takes. -/
def EveryStep (R : σ → ε → σ → Prop) : σ → List ε → Prop
  | _, [] => True
  | s, e :: es => ∀ t, step s e = some t → R s e t ∧ EveryStep R t es

/-- A condition on transitions can be checked along a run. -/
def EveryStep.check {R : σ → ε → σ → Prop} [∀ s e t, Decidable (R s e t)] :
    ∀ (s : σ) (es : List ε), Decidable (EveryStep step R s es)
  | _, [] => isTrue trivial
  | s, e :: es =>
      match h : step s e with
      | none => isTrue fun t ht => absurd (h.symm.trans ht) (by simp)
      | some t =>
          have := EveryStep.check (R := R) t es
          decidable_of_iff (R s e t ∧ EveryStep step R t es)
            ⟨fun hr t' ht' => (Option.some.inj (h.symm.trans ht')) ▸ hr, fun hr => hr t h⟩

instance {R : σ → ε → σ → Prop} [∀ s e t, Decidable (R s e t)] (s : σ) (es : List ε) :
    Decidable (EveryStep step R s es) :=
  EveryStep.check step s es

/-- A condition on states can be checked along a run. -/
def Always.check {P : σ → Prop} [∀ s, Decidable (P s)] :
    ∀ (s : σ) (es : List ε), Decidable (Always step P s es)
  | s, [] => inferInstanceAs (Decidable (P s))
  | s, e :: es =>
      match h : step s e with
      | none => decidable_of_iff (P s)
          ⟨fun hs => ⟨hs, fun t ht => absurd (h.symm.trans ht) (by simp)⟩, fun hs => hs.1⟩
      | some t =>
          have := Always.check (P := P) t es
          decidable_of_iff (P s ∧ Always step P t es)
            ⟨fun hs => ⟨hs.1, fun t' ht' => (Option.some.inj (h.symm.trans ht')) ▸ hs.2⟩,
              fun hs => ⟨hs.1, hs.2 t h⟩⟩

instance {P : σ → Prop} [∀ s, Decidable (P s)] (s : σ) (es : List ε) :
    Decidable (Always step P s es) :=
  Always.check step s es

/-- The machine extended by a log: each transition appends what it emits. -/
def logging (emit : σ → ε → List ω) (s : σ × List ω) (e : ε) : Option (σ × List ω) :=
  (step s.1 e).map fun t => (t, s.2 ++ emit s.1 e)

variable {step}

@[simp] theorem run_nil (s : σ) : run step s [] = some s := rfl

@[simp] theorem run_cons (s : σ) (e : ε) (es : List ε) :
    run step s (e :: es) = (step s e).bind fun t => run step t es := rfl

theorem run_append (s : σ) (es fs : List ε) :
    run step s (es ++ fs) = (run step s es).bind fun t => run step t fs := by
  induction es generalizing s with
  | nil => rfl
  | cons e es ih =>
      cases h : step s e with
      | none => simp [h]
      | some t => simp [h, ih]

/-- The rule of invariants: initial and preserved by each step, hence true at
the end of every run. -/
theorem invariant {I : σ → Prop}
    (preserved : ∀ s e t, I s → step s e = some t → I t)
    {s t : σ} {es : List ε} (initially : I s) (h : run step s es = some t) : I t := by
  induction es generalizing s with
  | nil =>
      cases h
      exact initially
  | cons e es ih =>
      rw [run_cons, Option.bind_eq_some_iff] at h
      obtain ⟨u, hstep, hrest⟩ := h
      exact ih (preserved s e u initially hstep) hrest

theorem Always.first {P : σ → Prop} {s : σ} {es : List ε} (h : Always step P s es) : P s := by
  cases es with
  | nil => exact h
  | cons e es => exact h.1

theorem Always.final {P : σ → Prop} {s t : σ} {es : List ε} (h : Always step P s es)
    (hrun : run step s es = some t) : P t := by
  induction es generalizing s with
  | nil =>
      cases hrun
      exact h
  | cons e es ih =>
      rw [run_cons, Option.bind_eq_some_iff] at hrun
      obtain ⟨u, hstep, hrest⟩ := hrun
      exact ih (h.2 u hstep) hrest

theorem Always.mono {P Q : σ → Prop} (imp : ∀ s, P s → Q s) {s : σ} {es : List ε}
    (h : Always step P s es) : Always step Q s es := by
  induction es generalizing s with
  | nil => exact imp s h
  | cons e es ih => exact ⟨imp s h.1, fun t ht => ih (h.2 t ht)⟩

theorem Always.and {P Q : σ → Prop} {s : σ} {es : List ε}
    (hp : Always step P s es) (hq : Always step Q s es) :
    Always step (fun s => P s ∧ Q s) s es := by
  induction es generalizing s with
  | nil => exact ⟨hp, hq⟩
  | cons e es ih => exact ⟨⟨hp.1, hq.1⟩, fun t ht => ih (hp.2 t ht) (hq.2 t ht)⟩

theorem EveryStep.mono {R S : σ → ε → σ → Prop} (imp : ∀ s e t, R s e t → S s e t)
    {s : σ} {es : List ε} (h : EveryStep step R s es) : EveryStep step S s es := by
  induction es generalizing s with
  | nil => trivial
  | cons e es ih => exact fun t ht => ⟨imp s e t (h t ht).1, ih (h t ht).2⟩

/-- An invariant that each transition keeps under a condition on the
transition holds throughout every run whose transitions meet the condition. -/
theorem always_of_everyStep {I : σ → Prop} {R : σ → ε → σ → Prop}
    (preserved : ∀ s e t, I s → step s e = some t → R s e t → I t)
    {s : σ} {es : List ε} (initially : I s) (h : EveryStep step R s es) :
    Always step I s es := by
  induction es generalizing s with
  | nil => exact initially
  | cons e es ih =>
      refine ⟨initially, fun t ht => ?_⟩
      exact ih (preserved s e t initially ht (h t ht).1) (h t ht).2

theorem always_of_invariant {I : σ → Prop}
    (preserved : ∀ s e t, I s → step s e = some t → I t)
    {s : σ} (initially : I s) (es : List ε) : Always step I s es := by
  induction es generalizing s with
  | nil => exact initially
  | cons e es ih => exact ⟨initially, fun t ht => ih (preserved s e t initially ht)⟩

/-- A transition property which holds of each step out of a good state holds of every step
of a run that stays good. -/
theorem Always.everyStep {P : σ → Prop} {R : σ → ε → σ → Prop}
    (implied : ∀ s e t, P s → step s e = some t → R s e t)
    {s : σ} {es : List ε} (h : Always step P s es) : EveryStep step R s es := by
  induction es generalizing s with
  | nil => trivial
  | cons e es ih => exact fun t ht => ⟨implied s e t h.1 ht, ih (h.2 t ht)⟩

/-- Each step of a run that stays good leads from a good state to a good one. -/
theorem Always.endpoints {P : σ → Prop} {s : σ} {es : List ε} (h : Always step P s es) :
    EveryStep step (fun s _ t => P s ∧ P t) s es := by
  induction es generalizing s with
  | nil => trivial
  | cons e es ih => exact fun t ht => ⟨⟨h.1, (h.2 t ht).first⟩, ih (h.2 t ht)⟩

/-- A transition property which an invariant implies holds of every step. -/
theorem everyStep_of_invariant {I : σ → Prop} {R : σ → ε → σ → Prop}
    (preserved : ∀ s e t, I s → step s e = some t → I t)
    (implied : ∀ s e t, I s → step s e = some t → R s e t)
    {s : σ} (initially : I s) (es : List ε) : EveryStep step R s es := by
  induction es generalizing s with
  | nil => trivial
  | cons e es ih =>
      exact fun t ht => ⟨implied s e t initially ht, ih (preserved s e t initially ht)⟩

/-- Under an invariant, what implies another condition of a transition implies it along a
run. -/
theorem EveryStep.imp_of_invariant {I : σ → Prop} {R S : σ → ε → σ → Prop}
    (preserved : ∀ s e t, I s → step s e = some t → I t)
    (implied : ∀ s e t, I s → step s e = some t → R s e t → S s e t)
    {s : σ} {es : List ε} (initially : I s) (h : EveryStep step R s es) :
    EveryStep step S s es := by
  induction es generalizing s with
  | nil => trivial
  | cons e es ih =>
      intro t ht
      exact ⟨implied s e t initially ht (h t ht).1,
        ih (preserved s e t initially ht) (h t ht).2⟩

/-- Exactness: if, under a background invariant, a transition out of a good
state leads to a good state precisely when it meets `R`, then a run stays good
precisely when all its transitions meet `R`. -/
theorem always_iff_everyStep {I P : σ → Prop} {R : σ → ε → σ → Prop}
    (preserved : ∀ s e t, I s → step s e = some t → I t)
    (exact_step : ∀ s e t, I s → P s → step s e = some t → (P t ↔ R s e t))
    {s : σ} (inv : I s) (good : P s) (es : List ε) :
    Always step P s es ↔ EveryStep step R s es := by
  induction es generalizing s with
  | nil => exact ⟨fun _ => trivial, fun _ => good⟩
  | cons e es ih =>
      constructor
      · intro h t ht
        have hgood : P t := (h.2 t ht).first
        exact ⟨(exact_step s e t inv good ht).mp hgood,
          (ih (preserved s e t inv ht) hgood).mp (h.2 t ht)⟩
      · intro h
        refine ⟨good, fun t ht => ?_⟩
        have hgood : P t := (exact_step s e t inv good ht).mpr (h t ht).1
        exact (ih (preserved s e t inv ht) hgood).mpr (h t ht).2

/-- Exactness through an invariant: if a condition on transitions keeps an invariant which
implies the property, and the property of the next state needs the condition, then the
property holds throughout a run precisely when each of its transitions meets the condition. -/
theorem always_iff_everyStep_of_good {G P : σ → Prop} {R : σ → ε → σ → Prop}
    (implies : ∀ s, G s → P s)
    (keep : ∀ s e t, G s → step s e = some t → R s e t → G t)
    (needed : ∀ s e t, G s → step s e = some t → P t → R s e t)
    {s : σ} (good : G s) (es : List ε) :
    Always step P s es ↔ EveryStep step R s es := by
  constructor
  · intro h
    induction es generalizing s with
    | nil => trivial
    | cons e es ih =>
        intro t ht
        have hr : R s e t := needed s e t good ht (h.2 t ht).first
        exact ⟨hr, ih (keep s e t good ht hr) (h.2 t ht)⟩
  · intro h
    have halways : Always step G s es := always_of_everyStep keep good h
    exact halways.mono implies

/-- Exactness of transition properties: if both conditions agree on every
transition out of a good state, and `S` leads to good states only, they hold of
the same runs. -/
theorem everyStep_iff {G : σ → Prop} {R S : σ → ε → σ → Prop}
    (same : ∀ s e t, G s → step s e = some t → (R s e t ↔ S s e t))
    (keep : ∀ s e t, G s → step s e = some t → S s e t → G t)
    {s : σ} (good : G s) (es : List ε) :
    EveryStep step R s es ↔ EveryStep step S s es := by
  induction es generalizing s with
  | nil => exact Iff.rfl
  | cons e es ih =>
      constructor
      · intro h t ht
        have hs : S s e t := (same s e t good ht).mp (h t ht).1
        exact ⟨hs, (ih (keep s e t good ht hs)).mp (h t ht).2⟩
      · intro h t ht
        exact ⟨(same s e t good ht).mpr (h t ht).1,
          (ih (keep s e t good ht (h t ht).1)).mpr (h t ht).2⟩

/-- A property which no step restores held all along a run if it holds at the end. -/
theorem always_iff_final {I P : σ → Prop}
    (preserved : ∀ s e t, I s → step s e = some t → I t)
    (lasting : ∀ s e t, I s → step s e = some t → P t → P s)
    {s t : σ} {es : List ε} (inv : I s) (hrun : run step s es = some t) :
    Always step P s es ↔ P t := by
  induction es generalizing s with
  | nil =>
      cases hrun
      exact Iff.rfl
  | cons e es ih =>
      rw [run_cons, Option.bind_eq_some_iff] at hrun
      obtain ⟨u, hstep, hrest⟩ := hrun
      have hrec := ih (preserved s e u inv hstep) hrest
      constructor
      · intro h
        exact hrec.mp (h.2 u hstep)
      · intro hfinal
        have hnext := hrec.mpr hfinal
        refine ⟨lasting s e u inv hstep hnext.first, fun v hv => ?_⟩
        cases hstep.symm.trans hv
        exact hnext

/-- A run which ends in a state without `P` refutes `P`. -/
theorem not_always_of_run {P : σ → Prop} {q : σ → Bool} (refutes : ∀ t, q t = true → ¬ P t)
    {s : σ} {es : List ε} (hrun : (run step s es).any q = true) : ¬ Always step P s es := by
  intro h
  obtain ⟨t, ht, hq⟩ := (Option.any_eq_true _ _).mp hrun
  exact refutes t hq (h.final ht)

theorem everyStep_of_forall_mem {Q : ε → Prop} {es : List ε} (h : ∀ e ∈ es, Q e) (s : σ) :
    EveryStep step (fun _ e _ => Q e) s es := by
  induction es generalizing s with
  | nil => trivial
  | cons e es ih =>
      exact fun t _ => ⟨h e List.mem_cons_self, ih (fun e' he' => h e' (.tail e he')) t⟩

theorem EveryStep.and {R S : σ → ε → σ → Prop} {s : σ} {es : List ε}
    (hr : EveryStep step R s es) (hs : EveryStep step S s es) :
    EveryStep step (fun s e t => R s e t ∧ S s e t) s es := by
  induction es generalizing s with
  | nil => trivial
  | cons e es ih =>
      exact fun t ht => ⟨⟨(hr t ht).1, (hs t ht).1⟩, ih (hr t ht).2 (hs t ht).2⟩

theorem EveryStep.last {R : σ → ε → σ → Prop} {s t u : σ} {es : List ε} {e : ε}
    (h : EveryStep step R s (es ++ [e])) (hrun : run step s es = some t)
    (hstep : step t e = some u) : R t e u := by
  induction es generalizing s with
  | nil =>
      cases hrun
      exact (h u hstep).1
  | cons e₀ es ih =>
      rw [run_cons, Option.bind_eq_some_iff] at hrun
      obtain ⟨s', hs', hrest⟩ := hrun
      exact ih (h s' hs').2 hrest

/-- A run whose last transition is without `R` refutes `R`. -/
theorem not_everyStep_of_run {R : σ → ε → σ → Prop} {q : σ → σ → Bool} {e : ε}
    (refutes : ∀ t u, q t u = true → ¬ R t e u) {s : σ} {es : List ε}
    (hrun : (run step s es).any (fun t => (step t e).any (q t)) = true) :
    ¬ EveryStep step R s (es ++ [e]) := by
  intro h
  obtain ⟨t, ht, hstep⟩ := (Option.any_eq_true _ _).mp hrun
  obtain ⟨u, hu, hq⟩ := (Option.any_eq_true _ _).mp hstep
  exact refutes t u hq (h.last ht hu)

/-- A transition condition means the same on the machine with a log. -/
theorem everyStep_logging_iff (emit : σ → ε → List ω) {R : σ → ε → σ → Prop} {s : σ}
    {es : List ε} (log : List ω) :
    EveryStep (logging step emit) (fun s e t => R s.1 e t.1) (s, log) es ↔
      EveryStep step R s es := by
  induction es generalizing s log with
  | nil => exact Iff.rfl
  | cons e es ih =>
      constructor
      · intro h t ht
        have hlogged : logging step emit (s, log) e = some (t, log ++ emit s e) := by
          simp [logging, ht]
        obtain ⟨hr, hrest⟩ := h _ hlogged
        exact ⟨hr, (ih _).mp hrest⟩
      · intro h t ht
        rw [Transition.logging, Option.map_eq_some_iff] at ht
        obtain ⟨u, hu, rfl⟩ := ht
        exact ⟨(h u hu).1, (ih _).mpr (h u hu).2⟩

end Transition
