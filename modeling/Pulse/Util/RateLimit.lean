import Pulse.Util.TokenBucket
import Mathlib.Data.List.Chain
import Mathlib.Data.List.DropRight
import Mathlib.Tactic.Linarith
import Mathlib.Tactic.Ring

/-!
# Rate bound and violation window

The tokens a bucket grants over any stretch of calls, and the violations which
`recordViolation` counts together. The first is an argument about a potential:
the tokens in the bucket, and what the clock may still add to them. The second
characterises the violation counter by the history of violations.
-/

namespace Pulse

namespace TokenBucket

/-- A call which spends or reads tokens, with the clock reading it takes. -/
inductive Call where
  | tryConsume (now : Int) (cost : ℚ)
  | getTokens (now : Int)
  deriving DecidableEq, Repr

def Call.now : Call → Int
  | .tryConsume now _ => now
  | .getTokens now => now

/-- The cost of a call is positive. -/
def Call.Positive : Call → Prop
  | .tryConsume _ cost => 0 < cost
  | .getTokens _ => True

def call (b : TokenBucket) : Call → TokenBucket
  | .tryConsume now cost => (b.tryConsume now cost).1
  | .getTokens now => (b.getTokens now).1

def calls (b : TokenBucket) (cs : List Call) : TokenBucket :=
  cs.foldl call b

/-- The cost which a call is granted. -/
def granted (b : TokenBucket) : Call → ℚ
  | .tryConsume now cost => if (b.tryConsume now cost).2 then cost else 0
  | .getTokens _ => 0

def totalGranted : TokenBucket → List Call → ℚ
  | _, [] => 0
  | b, c :: cs => b.granted c + totalGranted (b.call c) cs

@[simp] theorem calls_nil (b : TokenBucket) : b.calls [] = b := rfl

@[simp] theorem calls_cons (b : TokenBucket) (c : Call) (cs : List Call) :
    b.calls (c :: cs) = (b.call c).calls cs := rfl

@[simp] theorem totalGranted_cons (b : TokenBucket) (c : Call) (cs : List Call) :
    b.totalGranted (c :: cs) = b.granted c + (b.call c).totalGranted cs := rfl

/-- The tokens are between zero and the capacity, and the rate is not negative. -/
structure Bounded (b : TokenBucket) : Prop where
  nonneg : 0 ≤ b.tokens
  atMost : b.tokens ≤ b.capacity
  rate : 0 ≤ b.refillRate

theorem create_bounded (capacity refillRate : ℚ) (now : Int) :
    (create capacity refillRate now).Bounded where
  nonneg := le_trans zero_le_one (le_max_left 1 capacity)
  atMost := le_refl _
  rate := le_trans (by norm_num) (le_max_left (1 / 10) refillRate)

/-- The effect of a refill: the clock of the bucket moves forward to the reading or stays,
and the tokens grow by at most what this time is worth. -/
structure Refilled (b b' : TokenBucket) (now : Int) : Prop where
  capacity : b'.capacity = b.capacity
  rate : b'.refillRate = b.refillRate
  clock : b'.lastRefillTime = max b.lastRefillTime now
  grows : b.tokens ≤ b'.tokens
  atMost : b'.tokens ≤ b'.capacity
  worth : b'.tokens ≤
    b.tokens + b.refillRate * (b'.lastRefillTime - b.lastRefillTime : Int) / 1000

theorem refill_refilled {b : TokenBucket} (h : b.Bounded) (now : Int) :
    b.Refilled (b.refill now) now := by
  by_cases later : b.lastRefillTime < now
  · have elapsed : (0 : ℚ) < (now - b.lastRefillTime : Int) :=
      Int.cast_pos.mpr (by omega)
    have refilled : b.refill now =
        { b with
          tokens := min b.capacity
            (b.tokens + (now - b.lastRefillTime : Int) / 1000 * b.refillRate)
          lastRefillTime := now } := by
      simp only [refill]
      rw [if_pos (div_pos elapsed (by norm_num))]
    have earned : 0 ≤ ((now - b.lastRefillTime : Int) : ℚ) / 1000 * b.refillRate :=
      mul_nonneg (div_nonneg elapsed.le (by norm_num)) h.rate
    rw [refilled]
    refine ⟨rfl, rfl, (max_eq_right later.le).symm, ?_, min_le_left _ _, ?_⟩
    · exact le_min h.atMost (by linarith)
    · refine le_trans (min_le_right _ _) (le_of_eq ?_)
      ring
  · have elapsed : ((now - b.lastRefillTime : Int) : ℚ) ≤ 0 :=
      Int.cast_nonpos.mpr (by omega)
    have same : b.refill now = b := by
      simp only [refill]
      rw [if_neg (by linarith)]
    rw [same]
    exact ⟨rfl, rfl, (max_eq_left (by omega)).symm, le_refl _, h.atMost, by simp⟩

/-- What one call does: the tokens granted and the tokens left are together worth at most
the tokens before the call and the time which the bucket's clock advances. -/
structure Called (b : TokenBucket) (c : Call) : Prop where
  bounded : (b.call c).Bounded
  capacity : (b.call c).capacity = b.capacity
  rate : (b.call c).refillRate = b.refillRate
  clock : (b.call c).lastRefillTime = max b.lastRefillTime c.now
  full : b.granted c + (b.call c).tokens ≤ b.capacity
  worth : b.granted c + (b.call c).tokens ≤
    b.tokens + b.refillRate * ((b.call c).lastRefillTime - b.lastRefillTime : Int) / 1000

theorem call_called {b : TokenBucket} (h : b.Bounded) {c : Call} (positive : c.Positive) :
    b.Called c := by
  cases c with
  | tryConsume now cost =>
      have effect := refill_refilled h now
      have cost_pos : 0 < cost := positive
      by_cases enough : cost ≤ (b.refill now).tokens
      · have done : b.tryConsume now cost =
            ({ b.refill now with tokens := (b.refill now).tokens - cost }, true) := by
          simp only [tryConsume]
          rw [if_pos enough]
        constructor
        · constructor
          · simpa [call, done] using enough
          · have := effect.atMost
            simp only [call, done]
            linarith
          · simpa [call, done, effect.rate] using h.rate
        · simpa [call, done] using effect.capacity
        · simpa [call, done] using effect.rate
        · simpa [call, done, Call.now] using effect.clock
        · simpa [call, granted, done, effect.capacity] using effect.atMost
        · simpa [call, granted, done] using effect.worth
      · have refused : b.tryConsume now cost = (b.refill now, false) := by
          simp only [tryConsume]
          rw [if_neg enough]
        constructor
        · exact ⟨by simpa [call, refused] using le_trans h.nonneg effect.grows,
            by simpa [call, refused] using effect.atMost,
            by simpa [call, refused, effect.rate] using h.rate⟩
        · simpa [call, refused] using effect.capacity
        · simpa [call, refused] using effect.rate
        · simpa [call, refused, Call.now] using effect.clock
        · simpa [call, granted, refused, effect.capacity] using effect.atMost
        · simpa [call, granted, refused] using effect.worth
  | getTokens now =>
      have effect := refill_refilled h now
      constructor
      · exact ⟨le_trans h.nonneg effect.grows, effect.atMost, by
          simpa [call, getTokens, effect.rate] using h.rate⟩
      · exact effect.capacity
      · exact effect.rate
      · exact effect.clock
      · simpa [call, getTokens, granted, effect.capacity] using effect.atMost
      · simpa [call, getTokens, granted] using effect.worth

theorem calls_bounded {b : TokenBucket} (h : b.Bounded) {cs : List Call}
    (positive : ∀ c ∈ cs, c.Positive) :
    (b.calls cs).Bounded ∧ (b.calls cs).capacity = b.capacity ∧
      (b.calls cs).refillRate = b.refillRate := by
  induction cs generalizing b with
  | nil => exact ⟨h, rfl, rfl⟩
  | cons c cs ih =>
      have first := call_called h (positive c (List.mem_cons_self ..))
      obtain ⟨bounded, capacity, rate⟩ :=
        ih first.bounded fun d hd => positive d (List.mem_cons_of_mem _ hd)
      exact ⟨bounded, capacity.trans first.capacity, rate.trans first.rate⟩

/-- Along any calls, what is granted is worth at most the tokens at the start and the time
from the bucket's clock to the greatest reading. -/
theorem totalGranted_le {b : TokenBucket} (h : b.Bounded) {cs : List Call} {m : Int}
    (positive : ∀ c ∈ cs, c.Positive) (latest : ∀ c ∈ cs, c.now ≤ m) :
    b.totalGranted cs ≤
      b.tokens + b.refillRate * (max b.lastRefillTime m - b.lastRefillTime : Int) / 1000 := by
  induction cs generalizing b with
  | nil =>
      have advance : (0 : ℚ) ≤ (max b.lastRefillTime m - b.lastRefillTime : Int) :=
        Int.cast_nonneg (by omega)
      have earned := mul_nonneg h.rate advance
      have tokens := h.nonneg
      change 0 ≤ _
      linarith
  | cons c cs ih =>
      have first := call_called h (positive c (List.mem_cons_self ..))
      have rest := ih first.bounded (fun d hd => positive d (List.mem_cons_of_mem _ hd))
        fun d hd => latest d (List.mem_cons_of_mem _ hd)
      have reading := latest c (List.mem_cons_self ..)
      have same : max (b.call c).lastRefillTime m = max b.lastRefillTime m := by
        rw [first.clock]
        omega
      rw [same, first.rate] at rest
      have worth := first.worth
      rw [totalGranted_cons]
      push_cast at rest worth ⊢
      linarith

/-- Rate bound: the tokens stay between zero and the capacity, and a window of calls whose
first reading is `first.now` and whose readings are at most `m` is granted at most the
capacity and what the time from the first reading to `m` is worth. -/
theorem granted_in_window_le (capacity refillRate : ℚ) (created : Int)
    (before : List Call) (first : Call) (rest : List Call) (m : Int)
    (positive : ∀ c ∈ before ++ first :: rest, c.Positive)
    (greatest : ∀ c ∈ first :: rest, c.now ≤ m) :
    let b := create capacity refillRate created
    (0 ≤ (b.calls before).tokens ∧ (b.calls before).tokens ≤ b.capacity) ∧
      (0 ≤ (b.calls (before ++ first :: rest)).tokens ∧
        (b.calls (before ++ first :: rest)).tokens ≤ b.capacity) ∧
      (b.calls before).totalGranted (first :: rest) ≤
        b.capacity + b.refillRate * (m - first.now : Int) / 1000 := by
  intro b
  have fresh : b.Bounded := create_bounded capacity refillRate created
  obtain ⟨bounded, sameCapacity, sameRate⟩ := calls_bounded fresh
    fun c hc => positive c (List.mem_append_left _ hc)
  obtain ⟨boundedEnd, capacityEnd, -⟩ := calls_bounded fresh positive
  refine ⟨⟨bounded.nonneg, sameCapacity ▸ bounded.atMost⟩,
    ⟨boundedEnd.nonneg, capacityEnd ▸ boundedEnd.atMost⟩, ?_⟩
  have window : ∀ c ∈ first :: rest, c.Positive :=
    fun c hc => positive c (List.mem_append_right _ hc)
  have start := call_called bounded (window first (List.mem_cons_self ..))
  have others := totalGranted_le start.bounded
    (fun c hc => window c (List.mem_cons_of_mem _ hc))
    fun c hc => greatest c (List.mem_cons_of_mem _ hc)
  -- after the first call the bucket's clock is at its reading or later
  have advance : max ((b.calls before).call first).lastRefillTime m -
      ((b.calls before).call first).lastRefillTime ≤ m - first.now := by
    have reading := greatest first (List.mem_cons_self ..)
    rw [start.clock]
    omega
  have worth : b.refillRate * (max ((b.calls before).call first).lastRefillTime m -
      ((b.calls before).call first).lastRefillTime : Int) ≤
        b.refillRate * (m - first.now : Int) :=
    mul_le_mul_of_nonneg_left (Int.cast_le.mpr advance) fresh.rate
  have full := start.full
  rw [sameCapacity] at full
  rw [start.rate, sameRate] at others
  rw [totalGranted_cons]
  linarith

theorem granted_in_window_le_backward_clock :
    (let b := create 5 1 0
     (0 ≤ (b.calls [.tryConsume 10 3]).tokens ∧ (b.calls [.tryConsume 10 3]).tokens ≤ b.capacity) ∧
      (0 ≤ (b.calls [.tryConsume 10 3, .tryConsume 20 2, .getTokens 15,
        .tryConsume 2000 1]).tokens ∧
        (b.calls [.tryConsume 10 3, .tryConsume 20 2, .getTokens 15, .tryConsume 2000 1]).tokens ≤
          b.capacity) ∧
      (b.calls [.tryConsume 10 3]).totalGranted
          [.tryConsume 20 2, .getTokens 15, .tryConsume 2000 1] ≤
        b.capacity + b.refillRate * (2000 - 20 : Int) / 1000) :=
  granted_in_window_le 5 1 0 [.tryConsume 10 3] (.tryConsume 20 2)
    [.getTokens 15, .tryConsume 2000 1] 2000 (by simp [Call.Positive]) (by decide)

/-- The bucket after violations recorded at the given times. -/
def violations (b : TokenBucket) (threshold : Nat) (windowMs : Int) (times : List Int) :
    TokenBucket :=
  times.foldl (fun b now => (b.recordViolation now threshold windowMs).1) b

/-- The violations at times in `[now - windowMs, now]`. -/
def inWindow (windowMs now : Int) (times : List Int) : Nat :=
  times.countP fun t => now - windowMs ≤ t ∧ t ≤ now

/-- Each violation follows the one before it within the window. -/
def Steady (windowMs : Int) (times : List Int) : Prop :=
  times.IsChain fun earlier later => later - earlier ≤ windowMs

instance (windowMs : Int) (times : List Int) : Decidable (Steady windowMs times) :=
  inferInstanceAs (Decidable (List.IsChain _ _))

theorem steady_snoc (windowMs : Int) (times : List Int) (now : Int) :
    Steady windowMs (times ++ [now]) ↔
      Steady windowMs times ∧ ∀ last ∈ times.getLast?, now - last ≤ windowMs := by
  simp [Steady, List.isChain_append]

@[simp] theorem violations_snoc (b : TokenBucket) (threshold : Nat) (windowMs : Int)
    (times : List Int) (now : Int) :
    b.violations threshold windowMs (times ++ [now]) =
      ((b.violations threshold windowMs times).recordViolation now threshold windowMs).1 := by
  simp [violations]

theorem lastViolationTime_violations (b : TokenBucket) (threshold : Nat) (windowMs : Int)
    (times : List Int) :
    (b.violations threshold windowMs times).lastViolationTime =
      times.getLast?.getD b.lastViolationTime := by
  induction times using List.reverseRecOn with
  | nil => rfl
  | append_singleton times now ih => simp [recordViolation]

/-- The counter after one more violation. -/
theorem lt_violationCount_recordViolation_iff (b : TokenBucket) (threshold : Nat)
    (windowMs now : Int) (k : Nat) :
    k + 1 ≤ (b.recordViolation now threshold windowMs).1.violationCount ↔
      k = 0 ∨ now - b.lastViolationTime ≤ windowMs ∧ k ≤ b.violationCount := by
  by_cases late : now - b.lastViolationTime > windowMs
  · simp only [recordViolation, if_pos late]
    omega
  · simp only [recordViolation, if_neg late]
    omega

theorem getLast?_rtake {α : Type*} (l : List α) (k : Nat) :
    (l.rtake (k + 1)).getLast? = l.getLast? := by
  induction l using List.reverseRecOn with
  | nil => simp
  | append_singleton l x ih => simp [List.rtake_concat_succ]

/-- The count after some violations is at least `k` exactly when the last `k` of them are
steady. -/
theorem le_violationCount_iff (b : TokenBucket) (fresh : b.violationCount = 0)
    (threshold : Nat) (windowMs : Int) (times : List Int) (k : Nat) :
    k ≤ (b.violations threshold windowMs times).violationCount ↔
      k ≤ times.length ∧ Steady windowMs (times.rtake k) := by
  induction times using List.reverseRecOn generalizing k with
  | nil =>
      simp only [violations, List.foldl_nil, fresh, List.length_nil, List.rtake_nil]
      exact ⟨fun h => ⟨h, .nil⟩, fun h => h.1⟩
  | append_singleton times now ih =>
      cases k with
      | zero => simp [Steady]
      | succ k =>
          rw [violations_snoc, lt_violationCount_recordViolation_iff, List.rtake_concat_succ,
            List.length_append, List.length_singleton, Nat.add_le_add_iff_right, ih k,
            lastViolationTime_violations, steady_snoc]
          cases k with
          | zero => simp [Steady]
          | succ k =>
              rw [getLast?_rtake]
              cases hlast : times.getLast? with
              | none =>
                  have empty : times = [] := List.getLast?_eq_none_iff.mp hlast
                  simp [empty]
              | some last =>
                  simp only [Option.getD_some, Option.mem_def, Option.some.injEq, forall_eq',
                    Nat.succ_ne_zero, false_or]
                  tauto

/-- At a time not before any of them, at least `k` of some violations in order of time are in
the window exactly when the last `k` are. -/
theorem le_inWindow_iff {windowMs now : Int} {times : List Int}
    (sorted : times.Pairwise (· ≤ ·)) (past : ∀ t ∈ times, t ≤ now) (k : Nat) :
    k ≤ inWindow windowMs now times ↔
      k ≤ times.length ∧ ∀ t ∈ times.rtake k, now - windowMs ≤ t := by
  have parts : times.rdrop k ++ times.rtake k = times := List.take_append_drop _ _
  have count : inWindow windowMs now times =
      inWindow windowMs now (times.rdrop k) + inWindow windowMs now (times.rtake k) := by
    conv_lhs => rw [← parts]
    exact List.countP_append
  have size : (times.rtake k).length = min k times.length := by
    simp only [List.rtake, List.length_drop]
    omega
  have recent_past : ∀ t ∈ times.rtake k, t ≤ now :=
    fun t ht => past t (parts ▸ List.mem_append_right _ ht)
  constructor
  · intro enough
    have total : k ≤ times.length := le_trans enough List.countP_le_length
    refine ⟨total, fun t ht => ?_⟩
    by_contra early
    -- what came before an early violation is early as well
    have none_before : inWindow windowMs now (times.rdrop k) = 0 := by
      refine List.countP_eq_zero.mpr fun x hx => ?_
      have order : x ≤ t := by
        rw [← parts] at sorted
        exact (List.pairwise_append.mp sorted).2.2 x hx t ht
      simp only [decide_eq_true_eq]
      omega
    have all_recent : inWindow windowMs now (times.rtake k) = (times.rtake k).length := by
      have most : inWindow windowMs now (times.rtake k) ≤ _ := List.countP_le_length
      omega
    have within := List.countP_eq_length.mp all_recent t ht
    simp only [decide_eq_true_eq] at within
    exact early within.1
  · rintro ⟨total, within⟩
    have all_recent : inWindow windowMs now (times.rtake k) = (times.rtake k).length := by
      refine List.countP_eq_length.mpr fun t ht => ?_
      simp only [decide_eq_true_eq]
      exact ⟨within t ht, recent_past t ht⟩
    omega

/-- Violations in order of time which are all in one window are steady. -/
theorem steady_of_within {windowMs now : Int} {times : List Int}
    (past : ∀ t ∈ times, t ≤ now) (within : ∀ t ∈ times, now - windowMs ≤ t) :
    Steady windowMs times := by
  refine List.Pairwise.isChain (List.pairwise_of_forall_mem_list fun x hx y hy => ?_)
  have := past y hy
  have := within x hx
  omega

/-- Abuse verdicts: the verdict on a violation at time `now` is that of a sliding window
exactly when the last `threshold` violations, should each have followed the one before it
within the window, all happened in the window which ends at `now`. -/
theorem violation_verdict_exact_iff (capacity refillRate : ℚ) (created : Int)
    (threshold : Nat) (windowMs : Int) (times : List Int) (now : Int)
    (sorted : (times ++ [now]).Pairwise (· ≤ ·)) :
    ((((create capacity refillRate created).violations threshold windowMs times).recordViolation
        now threshold windowMs).2 = true ↔
      threshold ≤ inWindow windowMs now (times ++ [now])) ↔
    (threshold ≤ (times ++ [now]).length →
      Steady windowMs ((times ++ [now]).rtake threshold) →
        ∀ t ∈ (times ++ [now]).rtake threshold, now - windowMs ≤ t) := by
  have past : ∀ t ∈ times ++ [now], t ≤ now := by
    intro t ht
    obtain hearlier | hnow := List.mem_append.mp ht
    · exact (List.pairwise_append.mp sorted).2.2 t hearlier now (List.mem_singleton_self now)
    · exact (List.mem_singleton.mp hnow).le
  have verdict : (((create capacity refillRate created).violations threshold windowMs
        times).recordViolation now threshold windowMs).2 = true ↔
      threshold ≤ (times ++ [now]).length ∧
        Steady windowMs ((times ++ [now]).rtake threshold) := by
    rw [← le_violationCount_iff (create capacity refillRate created) rfl threshold windowMs,
      violations_snoc]
    simp [recordViolation]
  have recent_past : ∀ t ∈ (times ++ [now]).rtake threshold, t ≤ now :=
    fun t ht => past t (List.mem_of_mem_drop ht)
  rw [verdict, le_inWindow_iff sorted past]
  constructor
  · intro agree total steady
    exact (agree.mp ⟨total, steady⟩).2
  · intro condition
    constructor
    · rintro ⟨total, steady⟩
      exact ⟨total, condition total steady⟩
    · rintro ⟨total, within⟩
      exact ⟨total, steady_of_within recent_past within⟩

theorem violation_verdict_exact_burst :
    ((((create 50 100 0).violations 3 10 [100, 104]).recordViolation 110 3 10).2 = true ↔
        3 ≤ inWindow 10 110 [100, 104, 110]) ↔
      (3 ≤ [100, 104, 110].length → Steady 10 ([100, 104, 110].rtake 3) →
        ∀ t ∈ [(100 : Int), 104, 110].rtake 3, 110 - 10 ≤ t) :=
  violation_verdict_exact_iff 50 100 0 3 10 [100, 104] 110 (by decide)

/-- A slow and steady violator is flagged, though only two of its violations are in the
window. -/
theorem steady_violator_flagged :
    (((create 50 100 0).violations 3 10 [100, 108]).recordViolation 116 3 10).2 = true ∧
      ¬ 3 ≤ inWindow 10 116 ([100, 108] ++ [116]) := by
  decide

end TokenBucket

end Pulse
