import Mathlib.Data.List.Basic

/-!
# Framing of a stream

A framing reads the length of the frame at the head of a stream. The answer
may be that more of the stream is needed, or that the head is malformed; once
it is a length or malformed, what follows does not change it. Then the frames
of a stream, and what is left, do not depend on how the stream arrives.
-/

universe u

variable {α : Type u}

/-- What is known of the frame at the head of a stream. -/
inductive FrameHead where
  | more
  | malformed
  | frame (length : Nat)
  deriving DecidableEq, Repr

structure Framing (α : Type u) where
  head : List α → FrameHead
  bounds : ∀ {l n}, head l = .frame n → 0 < n ∧ n ≤ l.length
  frame_append : ∀ {l n} (r), head l = .frame n → head (l ++ r) = .frame n
  malformed_append : ∀ {l} (r), head l = .malformed → head (l ++ r) = .malformed

namespace Framing

variable (F : Framing α)

/-- The complete frames at the head of a stream, and what follows them. -/
def split (l : List α) : List (List α) × List α :=
  match _h : F.head l with
  | .frame n =>
      let next := split (l.drop n)
      (l.take n :: next.1, next.2)
  | _ => ([], l)
termination_by l.length
decreasing_by
  have := F.bounds _h
  simp only [List.length_drop]
  omega

/-- A list which is one complete frame. -/
def IsFrame (l : List α) : Prop := F.head l = .frame l.length

instance (l : List α) : Decidable (F.IsFrame l) := inferInstanceAs (Decidable (_ = _))

variable {F}

theorem split_frame {l : List α} {n : Nat} (h : F.head l = .frame n) :
    F.split l = (l.take n :: (F.split (l.drop n)).1, (F.split (l.drop n)).2) := by
  rw [split]
  split
  · rename_i n' h'
    obtain rfl : n' = n := FrameHead.frame.inj (h'.symm.trans h)
    rfl
  · rename_i other
    exact absurd h (other n)

theorem split_of_not_frame {l : List α} (h : ∀ n, F.head l ≠ .frame n) : F.split l = ([], l) := by
  rw [split]
  split
  · rename_i n h'
    exact absurd h' (h n)
  · rfl

/-- Induction along the frames of a stream. -/
theorem splitInduction {motive : List α → Prop}
    (stop : ∀ l, (∀ n, F.head l ≠ .frame n) → motive l)
    (step : ∀ l n, F.head l = .frame n → motive (l.drop n) → motive l) (l : List α) :
    motive l := by
  induction hlen : l.length using Nat.strongRecOn generalizing l with
  | ind size ih =>
      by_cases h : ∃ n, F.head l = .frame n
      · obtain ⟨n, hn⟩ := h
        have bounds := F.bounds hn
        refine step l n hn (ih _ ?_ (l.drop n) rfl)
        rw [List.length_drop]
        omega
      · exact stop l (not_exists.mp h)

/-- What follows the complete frames does not begin with one. -/
theorem head_rest (l : List α) (n : Nat) : F.head (F.split l).2 ≠ .frame n := by
  induction l using F.splitInduction with
  | stop l h =>
      rw [split_of_not_frame h]
      exact h n
  | step l k h ih =>
      rw [split_frame h]
      exact ih

/-- Nothing of the stream is lost. -/
theorem flatten_append_rest (l : List α) : (F.split l).1.flatten ++ (F.split l).2 = l := by
  induction l using F.splitInduction with
  | stop l h =>
      rw [split_of_not_frame h]
      rfl
  | step l n h ih =>
      rw [split_frame h, List.flatten_cons, List.append_assoc, ih, List.take_append_drop]

/-- The first frame of a stream, alone, is read as this frame. -/
def Prefixed (F : Framing α) : Prop :=
  ∀ l n, F.head l = .frame n → F.head (l.take n) = .frame n

theorem isFrame_of_mem_split (closed : F.Prefixed) (l : List α) :
    ∀ f ∈ (F.split l).1, F.IsFrame f := by
  induction l using F.splitInduction with
  | stop l h =>
      rw [split_of_not_frame h]
      exact fun f hf => absurd hf List.not_mem_nil
  | step l n h ih =>
      rw [split_frame h]
      intro f hf
      obtain rfl | hlater := List.mem_cons.mp hf
      · have bounds := F.bounds h
        rw [IsFrame, closed l n h, List.length_take, Nat.min_eq_left bounds.2]
      · exact ih f hlater

/-- The frames of a stream are the only way to divide it. -/
theorem split_flatten_append {frames : List (List α)} {rest : List α}
    (complete : ∀ f ∈ frames, F.IsFrame f) (ended : ∀ n, F.head rest ≠ .frame n) :
    F.split (frames.flatten ++ rest) = (frames, rest) := by
  induction frames with
  | nil => exact split_of_not_frame ended
  | cons f frames ih =>
      have first : F.head ((f :: frames).flatten ++ rest) = .frame f.length := by
        rw [List.flatten_cons, List.append_assoc]
        exact F.frame_append _ (complete f List.mem_cons_self)
      rw [split_frame first, List.flatten_cons, List.append_assoc, List.drop_left, List.take_left,
        ih fun g hg => complete g (.tail f hg)]

/-- More of a stream is read from what the first part left. -/
theorem split_append (l r : List α) :
    F.split (l ++ r) =
      ((F.split l).1 ++ (F.split ((F.split l).2 ++ r)).1, (F.split ((F.split l).2 ++ r)).2) := by
  induction l using F.splitInduction with
  | stop l h => rw [split_of_not_frame h, List.nil_append]
  | step l n h ih =>
      have bounds := F.bounds h
      rw [split_frame (F.frame_append r h), split_frame h, List.drop_append_of_le_length bounds.2,
        List.take_append_of_le_length bounds.2, ih, List.cons_append]

/-- A stream whose frames are followed by no malformed head. -/
def WellFormed (F : Framing α) (l : List α) : Prop := F.head (F.split l).2 ≠ .malformed

instance (l : List α) : Decidable (F.WellFormed l) := inferInstanceAs (Decidable (_ ≠ _))

/-- A first part of a well-formed stream is well-formed. -/
theorem WellFormed.left {l r : List α} (h : F.WellFormed (l ++ r)) : F.WellFormed l := by
  intro malformed
  refine h ?_
  have stays := F.malformed_append r malformed
  have ended : ∀ n, F.head ((F.split l).2 ++ r) ≠ .frame n := by
    intro n hn
    rw [stays] at hn
    cases hn
  rw [split_append, split_of_not_frame ended]
  exact stays

/-- What a stream leaves, read with more of it, is well-formed when the whole stream is. -/
theorem WellFormed.rest {l r : List α} (h : F.WellFormed (l ++ r)) :
    F.WellFormed ((F.split l).2 ++ r) := by
  rw [WellFormed, split_append] at h
  exact h

/-- A stream of complete frames, and a head of which more is needed, is well-formed. -/
theorem wellFormed_of_more (frames : List (List α)) (rest : List α)
    (complete : ∀ f ∈ frames, F.IsFrame f) (waits : F.head rest = .more) :
    F.WellFormed (frames.flatten ++ rest) := by
  rw [WellFormed, split_flatten_append complete (by rw [waits]; exact nofun), waits]
  exact nofun

/-- No complete frame begins a stream exactly when none is read at its head. -/
theorem head_ne_frame_iff (closed : F.Prefixed) {l : List α} :
    (∀ n, F.head l ≠ .frame n) ↔ ∀ f, f <+: l → ¬ F.IsFrame f := by
  constructor
  · rintro h f ⟨more, rfl⟩ complete
    exact h _ (F.frame_append more complete)
  · intro h n hn
    refine h (l.take n) (List.take_prefix n l) ?_
    rw [IsFrame, closed l n hn, List.length_take, Nat.min_eq_left (F.bounds hn).2]

end Framing
