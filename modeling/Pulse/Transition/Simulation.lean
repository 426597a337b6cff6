import Mathlib.Order.Basic

/-!
# Simulation between machines with outputs

A machine here answers every event. `Simulates` relates two of them which are driven by
the same events: `R t s a` says that `s` and `a` belong together at time `t`, and the
answers agree up to `observe`, which forgets what the second machine does not determine.
The times of the events must not decrease.
-/

namespace Transition

variable {σ α ε ο τ : Type*}

/-- The answers to a sequence of events. -/
def outputs (step : σ → ε → σ × ο) : σ → List ε → List ο
  | _, [] => []
  | s, e :: es => (step s e).2 :: outputs step (step s e).1 es

/-- The state behind a sequence of events. -/
def after (step : σ → ε → σ × ο) (s : σ) (es : List ε) : σ :=
  es.foldl (fun s e => (step s e).1) s

theorem after_append (step : σ → ε → σ × ο) (s : σ) (es fs : List ε) :
    after step s (es ++ fs) = after step (after step s es) fs :=
  List.foldl_append

structure Simulates [Preorder τ] (R : τ → σ → α → Prop) (time : ε → τ) (observe : ο → ο)
    (step : σ → ε → σ × ο) (spec : α → ε → α × ο) : Prop where
  later : ∀ t t' s a, t ≤ t' → R t s a → R t' s a
  related : ∀ e s a, R (time e) s a → R (time e) (step s e).1 (spec a e).1
  answers : ∀ e s a, R (time e) s a → observe (step s e).2 = (spec a e).2

namespace Simulates

variable [Preorder τ] {R : τ → σ → α → Prop} {time : ε → τ} {observe : ο → ο}
  {step : σ → ε → σ × ο} {spec : α → ε → α × ο}

theorem outputs_eq_from (h : Simulates R time observe step spec) {t : τ} {s : σ} {a : α}
    {es : List ε} (initially : R t s a) (sorted : (t :: es.map time).Pairwise (· ≤ ·)) :
    (outputs step s es).map observe = outputs spec a es := by
  induction es generalizing t s a with
  | nil => rfl
  | cons e es ih =>
      rw [List.map_cons, List.pairwise_cons] at sorted
      have hnow : R (time e) s a :=
        h.later t (time e) s a (sorted.1 _ List.mem_cons_self) initially
      rw [outputs, outputs, List.map_cons, h.answers e s a hnow,
        ih (h.related e s a hnow) sorted.2]

theorem related_after_from (h : Simulates R time observe step spec) {t t' : τ} {s : σ} {a : α}
    {es : List ε} (initially : R t s a) (sorted : (t :: es.map time).Pairwise (· ≤ ·))
    (past : ∀ e ∈ es, time e ≤ t') (le : t ≤ t') : R t' (after step s es) (after spec a es) := by
  induction es generalizing t s a with
  | nil => exact h.later t t' s a le initially
  | cons e es ih =>
      rw [List.map_cons, List.pairwise_cons] at sorted
      have hnow : R (time e) s a :=
        h.later t (time e) s a (sorted.1 _ List.mem_cons_self) initially
      exact ih (h.related e s a hnow) sorted.2 (fun e' he' => past e' (.tail e he'))
        (past e List.mem_cons_self)

/-- From states which belong together at any time, the answers agree. -/
theorem outputs_eq (h : Simulates R time observe step spec) {s : σ} {a : α} {es : List ε}
    (initially : ∀ t, R t s a) (sorted : (es.map time).Pairwise (· ≤ ·)) :
    (outputs step s es).map observe = outputs spec a es := by
  cases es with
  | nil => rfl
  | cons e es =>
      have hpast := (List.pairwise_cons.mp sorted).1
      refine h.outputs_eq_from (initially (time e)) (List.pairwise_cons.mpr ⟨?_, sorted⟩)
      exact List.forall_mem_cons.mpr ⟨le_rfl, hpast⟩

theorem related_after (h : Simulates R time observe step spec) {t : τ} {s : σ} {a : α}
    {es : List ε} (initially : ∀ t, R t s a) (sorted : (es.map time).Pairwise (· ≤ ·))
    (past : ∀ e ∈ es, time e ≤ t) : R t (after step s es) (after spec a es) := by
  cases es with
  | nil => exact initially t
  | cons e es =>
      have hpast := (List.pairwise_cons.mp sorted).1
      refine h.related_after_from (initially (time e)) (List.pairwise_cons.mpr ⟨?_, sorted⟩) past
        (past e List.mem_cons_self)
      exact List.forall_mem_cons.mpr ⟨le_rfl, hpast⟩

end Simulates

end Transition
