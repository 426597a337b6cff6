import Mathlib.Data.Set.Card
import Pulse.Collections.OrderedMap

/-!
# Sorted sets with a deadline

A set of members with scores, stored under a key which may carry a deadline. Every
command reads the clock: from its deadline on the key is gone, with all members, and
a key without members does not exist. Scores and times share one order, so a member
whose score is a time can be pruned by the clock.

What a command does is described by `score?`, the score which a reader finds at a
given time. If the scores are the times at which the members expire, the set stands for
a map from members to expiries: `Tracks` says that it does so from some time on, `Reads`
that it does at one instant.
-/

namespace Collections

universe u v

structure SortedSet (μ : Type u) (τ : Type v) where
  scores : OrderedMap μ τ := ∅
  /-- When the key will be gone; `none` if it has no deadline. -/
  expireAt : Option τ := none
  deriving DecidableEq, Repr

namespace SortedSet

variable {μ : Type u} {τ : Type v} [LinearOrder τ]

instance : EmptyCollection (SortedSet μ τ) := ⟨{}⟩

/-- The deadline of the key has passed. -/
def Gone (s : SortedSet μ τ) (now : τ) : Prop := ∃ deadline ∈ s.expireAt, deadline ≤ now

instance (s : SortedSet μ τ) (now : τ) : Decidable (s.Gone now) :=
  inferInstanceAs (Decidable (∃ deadline ∈ s.expireAt, deadline ≤ now))

/-- The set that a command at `now` finds under the key. -/
def live (s : SortedSet μ τ) (now : τ) : SortedSet μ τ := if s.Gone now then ∅ else s

/-- A set which lost its last member has lost its key. -/
def compact (s : SortedSet μ τ) : SortedSet μ τ := if s.scores.size = 0 then ∅ else s

def zcard (s : SortedSet μ τ) (now : τ) : Nat := (s.live now).scores.size

/-- Give an existing key a deadline. -/
def expire (s : SortedSet μ τ) (now deadline : τ) : SortedSet μ τ :=
  let s := s.live now
  if s.scores.size = 0 then s else { s with expireAt := some deadline }

/-- Remove the members whose score is at most `max`. -/
def zremrangebyscore (s : SortedSet μ τ) (now max : τ) : SortedSet μ τ :=
  let s := s.live now
  compact { s with scores := s.scores.filter fun score => decide (max < score) }

variable [DecidableEq μ]

def zadd (s : SortedSet μ τ) (now : τ) (member : μ) (score : τ) : SortedSet μ τ :=
  let s := s.live now
  { s with scores := s.scores.set member score }

def zrem (s : SortedSet μ τ) (now : τ) (member : μ) : SortedSet μ τ :=
  let s := s.live now
  compact { s with scores := s.scores.delete member }

/-- The score of a member, as a command at `now` reads it. -/
def score? (s : SortedSet μ τ) (now : τ) (member : μ) : Option τ :=
  (s.live now).scores.get? member

section gone

omit [DecidableEq μ]

theorem Gone.mono {s : SortedSet μ τ} {now t : τ} (h : s.Gone now) (le : now ≤ t) : s.Gone t := by
  obtain ⟨deadline, hd, hle⟩ := h
  exact ⟨deadline, hd, hle.trans le⟩

theorem not_gone_empty (now : τ) : ¬ (∅ : SortedSet μ τ).Gone now := by
  rintro ⟨deadline, hd, -⟩
  cases hd

theorem not_gone_live (s : SortedSet μ τ) (now : τ) : ¬ (s.live now).Gone now := by
  rw [live]
  split
  · exact not_gone_empty now
  · assumption

end gone

theorem score?_eq (s : SortedSet μ τ) (now : τ) (m : μ) :
    s.score? now m = if s.Gone now then none else s.scores.get? m := by
  rw [score?, live]
  split
  · rfl
  · rfl

theorem score?_of_not_gone {s : SortedSet μ τ} {now : τ} (h : ¬ s.Gone now) (m : μ) :
    s.score? now m = s.scores.get? m := by
  rw [score?_eq, if_neg h]

@[simp] theorem score?_empty (now : τ) (m : μ) : (∅ : SortedSet μ τ).score? now m = none :=
  score?_of_not_gone (not_gone_empty now) m

/-- Dropping a key that is gone is invisible from then on. -/
theorem score?_live {s : SortedSet μ τ} {now t : τ} (h : now ≤ t) (m : μ) :
    (s.live now).score? t m = s.score? t m := by
  rw [live]
  split
  · rename_i hgone
    rw [score?_empty, score?_eq, if_pos (hgone.mono h)]
  · rfl

theorem score?_compact (s : SortedSet μ τ) (t : τ) (m : μ) :
    s.compact.score? t m = s.score? t m := by
  rw [compact]
  split
  · rename_i hsize
    rw [score?_empty, score?_eq, OrderedMap.get?_of_size_eq_zero hsize, ite_self]
  · rfl

/-- Pruning is invisible to readers of the other members, at any later time. -/
theorem score?_zremrangebyscore {s : SortedSet μ τ} {now t : τ} (h : now ≤ t) (max : τ) (m : μ) :
    (s.zremrangebyscore now max).score? t m =
      (s.score? t m).filter fun score => decide (max < score) := by
  rw [← score?_live (s := s) h, zremrangebyscore, score?_compact, score?_eq, score?_eq]
  show (if (s.live now).Gone t then none else _) = _
  split
  · rfl
  · exact OrderedMap.get?_filter _ _ _

theorem score?_zrem {s : SortedSet μ τ} {now t : τ} (h : now ≤ t) (m m' : μ) :
    (s.zrem now m).score? t m' = if m' = m then none else s.score? t m' := by
  rw [← score?_live (s := s) h, zrem, score?_compact, score?_eq, score?_eq]
  show (if (s.live now).Gone t then none else _) = _
  split
  · rw [ite_self]
  · exact OrderedMap.get?_delete _ _ _

/-- A write is visible at once; for how long, the deadline of the key decides. -/
theorem score?_zadd (s : SortedSet μ τ) (now : τ) (m m' : μ) (score : τ) :
    (s.zadd now m score).score? now m' = if m' = m then some score else s.score? now m' := by
  have halive : ¬ (s.zadd now m score).Gone now := not_gone_live s now
  rw [score?_of_not_gone halive]
  exact OrderedMap.get?_set _ _ _ _

/-- The new deadline replaces an old one. -/
theorem score?_expire {s : SortedSet μ τ} {now t : τ} (deadline : τ) (m : μ) :
    (s.expire now deadline).score? t m = if t < deadline then s.score? now m else none := by
  simp only [expire]
  split
  · rename_i hsize
    rw [score?_eq, score?, OrderedMap.get?_of_size_eq_zero hsize, ite_self, ite_self]
  · rw [score?_eq, score?]
    have hgone : SortedSet.Gone { s.live now with expireAt := some deadline } t ↔
        ¬ t < deadline := by
      simp [Gone]
    simp only [hgone, ite_not]

omit [DecidableEq μ] in
theorem scores_expire (s : SortedSet μ τ) (now deadline : τ) :
    (s.expire now deadline).scores = (s.live now).scores := by
  simp only [expire]
  split <;> rfl

/-- Neither the key nor a member is past its time. -/
def Unexpired (s : SortedSet μ τ) (now : τ) : Prop :=
  ¬ s.Gone now ∧ ∀ m score, s.scores.get? m = some score → now < score

instance (s : SortedSet μ τ) (now : τ) : Decidable (s.Unexpired now) :=
  decidable_of_iff (¬ s.Gone now ∧ ∀ score ∈ s.scores.values, now < score)
    (and_congr_right' ⟨fun h _ _ hm => h _ (OrderedMap.mem_values_iff.mpr ⟨_, hm⟩),
      fun h _ hscore => (OrderedMap.mem_values_iff.mp hscore).elim fun m hm => h m _ hm⟩)

/-- Pruning by the clock changes nothing if nothing is expired. -/
theorem scores_prune {s : SortedSet μ τ} {now : τ} (h : s.Unexpired now) :
    (s.zremrangebyscore now now).scores = s.scores := by
  have hkept : s.scores.filter (fun score => decide (now < score)) = s.scores :=
    OrderedMap.filter_eq_self fun m score hm => decide_eq_true (h.2 m score hm)
  rw [zremrangebyscore, live, if_neg h.1]
  simp only [compact, hkept]
  split
  · rename_i hsize
    exact (OrderedMap.eq_empty_of_size hsize).symm
  · rfl

/-- The cardinality counts the members which a reader finds. -/
theorem zcard_eq_ncard (s : SortedSet μ τ) (now : τ) :
    s.zcard now = {m | (s.score? now m).isSome}.ncard := by
  have hset : {m | (s.score? now m).isSome} = ((s.live now).scores.keys.toFinset : Set μ) := by
    ext m
    simp only [Set.mem_ofPred_eq, List.coe_toFinset, score?, OrderedMap.get?_isSome_iff]
  rw [hset, Set.ncard_coe_finset, List.toFinset_card_of_nodup (OrderedMap.keys_nodup _),
    OrderedMap.keys_length, zcard]

theorem zcard_eq_zero_iff (s : SortedSet μ τ) (now : τ) :
    s.zcard now = 0 ↔ ∀ m, s.score? now m = none := by
  rw [zcard, ← OrderedMap.keys_length, List.length_eq_zero_iff, List.eq_nil_iff_forall_not_mem]
  simp only [score?, OrderedMap.get?_eq_none_iff]

section leases

/-- At `now` the members which are not expired are those of the map, with its expiries. -/
def Reads (s : SortedSet μ τ) (now : τ) (expiry : μ → Option τ) : Prop :=
  ∀ m, ((s.score? now m).filter fun e => decide (now < e)) =
    (expiry m).filter fun e => decide (now < e)

/-- The set stands for the map from `now` on, as long as nothing is written. -/
def Tracks (s : SortedSet μ τ) (now : τ) (expiry : μ → Option τ) : Prop :=
  ∀ t, now ≤ t → s.Reads t expiry

variable {s : SortedSet μ τ} {now : τ} {expiry : μ → Option τ}

omit [DecidableEq μ] in
theorem filter_lt_filter_lt {t : τ} (h : now ≤ t) (e : Option τ) :
    ((e.filter fun e => decide (now < e)).filter fun e => decide (t < e)) =
      e.filter fun e => decide (t < e) := by
  rw [Option.filter_filter]
  congr 1
  funext x
  by_cases hx : t < x
  · simp [hx, h.trans_lt hx]
  · simp [hx]

omit [DecidableEq μ] in
theorem filter_lt_eq_some {e : Option τ} {x : τ} :
    (e.filter fun e => decide (now < e)) = some x ↔ e = some x ∧ now < x := by
  rw [Option.filter_eq_some_iff, decide_eq_true_eq]

omit [DecidableEq μ] in
theorem filter_lt_eq_none {e : Option τ} (h : ∀ x, e = some x → x ≤ now) :
    (e.filter fun e => decide (now < e)) = none := by
  rw [Option.filter_eq_none_iff]
  intro x hx
  rw [decide_eq_true_eq]
  exact not_lt.mpr (h x hx)

theorem tracks_empty (h : ∀ m e, expiry m = some e → e ≤ now) :
    (∅ : SortedSet μ τ).Tracks now expiry := by
  intro t ht m
  rw [score?_empty, filter_lt_eq_none fun e he => (h m e he).trans ht]
  rfl

theorem Tracks.reads (h : s.Tracks now expiry) : s.Reads now expiry := h now le_rfl

theorem Tracks.later {t : τ} (h : s.Tracks now expiry) (le : now ≤ t) : s.Tracks t expiry :=
  fun t' ht' => h t' (le.trans ht')

theorem Reads.congr {expiry' : μ → Option τ} (h : s.Reads now expiry)
    (same : ∀ m, ((expiry m).filter fun e => decide (now < e)) =
      (expiry' m).filter fun e => decide (now < e)) : s.Reads now expiry' :=
  fun m => (h m).trans (same m)

/-- Pruning by the clock loses nothing that is not expired. -/
theorem Reads.prune (h : s.Reads now expiry) :
    (s.zremrangebyscore now now).Reads now expiry := by
  intro m
  rw [score?_zremrangebyscore le_rfl, filter_lt_filter_lt le_rfl]
  exact h m

theorem Tracks.prune (h : s.Tracks now expiry) :
    (s.zremrangebyscore now now).Tracks now expiry := by
  intro t ht m
  rw [score?_zremrangebyscore ht, ← h t ht m, Option.filter_filter]
  congr 1
  funext x
  by_cases hx : t < x
  · simp [hx, ht.trans_lt hx]
  · simp [hx]

theorem Tracks.zrem (h : s.Tracks now expiry) (m : μ) :
    (s.zrem now m).Tracks now (Function.update expiry m none) := by
  intro t ht m'
  rw [score?_zrem ht]
  by_cases hm : m' = m
  · rw [if_pos hm, hm, Function.update_self]
  · rw [if_neg hm, Function.update_of_ne hm]
    exact h t ht m'

theorem Reads.zadd (h : s.Reads now expiry) (m : μ) (e : τ) :
    (s.zadd now m e).Reads now (Function.update expiry m (some e)) := by
  intro m'
  rw [score?_zadd]
  by_cases hm : m' = m
  · rw [if_pos hm, hm, Function.update_self]
  · rw [if_neg hm, Function.update_of_ne hm]
    exact h m'

/-- The deadline of the key does no harm if no member expires later. -/
theorem Reads.expire {deadline : τ} (h : s.Reads now expiry)
    (covered : ∀ m e, expiry m = some e → e ≤ deadline) :
    (s.expire now deadline).Tracks now expiry := by
  intro t ht m
  rw [score?_expire]
  by_cases halive : t < deadline
  · rw [if_pos halive, ← filter_lt_filter_lt ht, h m, filter_lt_filter_lt ht]
  · have hover : ∀ e, expiry m = some e → e ≤ t :=
      fun e he => (covered m e he).trans (not_lt.mp halive)
    rw [if_neg halive, filter_lt_eq_none hover]
    rfl

theorem Reads.score?_prune (h : s.Reads now expiry) (m : μ) :
    (s.zremrangebyscore now now).score? now m =
      (expiry m).filter fun e => decide (now < e) := by
  rw [score?_zremrangebyscore le_rfl]
  exact h m

/-- A pruned set counts the members of the map that are not expired. -/
theorem Reads.zcard_prune (h : s.Reads now expiry) :
    (s.zremrangebyscore now now).zcard now = {m | ∃ e, expiry m = some e ∧ now < e}.ncard := by
  rw [zcard_eq_ncard]
  congr 1
  ext m
  rw [Set.mem_ofPred_eq, Set.mem_ofPred_eq, h.score?_prune, Option.isSome_iff_exists]
  simp only [filter_lt_eq_some]

theorem Reads.zcard_prune_eq_zero (h : s.Reads now expiry) :
    (s.zremrangebyscore now now).zcard now = 0 ↔ ¬ ∃ m e, expiry m = some e ∧ now < e := by
  rw [zcard_eq_zero_iff, not_exists]
  refine forall_congr' fun m => ?_
  rw [h.score?_prune, Option.filter_eq_none_iff, not_exists]
  simp only [decide_eq_true_eq, not_and]

end leases

section holds

variable {s : SortedSet μ τ} {now : τ} {m m' : μ}

/-- The member is stored, whether it can still be read or not. -/
def Holds (s : SortedSet μ τ) (m : μ) : Prop := m ∈ s.scores.keys

omit [DecidableEq μ] [LinearOrder τ] in
theorem not_holds_empty (m : μ) : ¬ (∅ : SortedSet μ τ).Holds m := List.not_mem_nil

omit [DecidableEq μ] in
theorem Holds.of_live (h : (s.live now).Holds m) : s.Holds m := by
  rw [live] at h
  split at h
  · exact absurd h (not_holds_empty m)
  · exact h

omit [DecidableEq μ] [LinearOrder τ] in
theorem Holds.of_compact (h : s.compact.Holds m) : s.Holds m := by
  rw [compact] at h
  split at h
  · exact absurd h (not_holds_empty m)
  · exact h

theorem holds_of_score? {score : τ} (h : s.score? now m = some score) : s.Holds m :=
  Holds.of_live (OrderedMap.mem_keys_of_get? h)

omit [DecidableEq μ] in
theorem Holds.of_zremrangebyscore {max : τ} (h : (s.zremrangebyscore now max).Holds m) :
    s.Holds m :=
  have hfilter : m ∈ ((s.live now).scores.filter fun score => decide (max < score)).keys :=
    h.of_compact
  Holds.of_live (OrderedMap.mem_keys_of_filter hfilter)

omit [DecidableEq μ] in
theorem Holds.of_expire {deadline : τ} (h : (s.expire now deadline).Holds m) : s.Holds m := by
  simp only [expire] at h
  split at h
  · exact h.of_live
  · exact Holds.of_live h

theorem Holds.of_zadd {score : τ} (h : (s.zadd now m score).Holds m') : m' = m ∨ s.Holds m' :=
  (OrderedMap.mem_keys_set.mp h).imp id Holds.of_live

theorem Holds.of_zrem (h : (s.zrem now m).Holds m') : m' ≠ m ∧ s.Holds m' :=
  (OrderedMap.mem_keys_delete.mp (Holds.of_compact h)).imp id Holds.of_live

end holds

end SortedSet

end Collections
