import Mathlib.Data.List.Basic

/-!
# The last write of a queue

A queue of operations, some of which write one place. However its operations are
interleaved with those of other queues, what the queue itself leaves in the place is its
last write. Executing the first operation does not change that, unless nothing else in
the queue writes the place.
-/

namespace Collections

universe u v

variable {α : Type u} {β : Type v} {write : α → Option β} {a : α} {queue : List α} {b : β}

/-- What the queue will have written last; `none` if it does not write. -/
def lastWrite (write : α → Option β) (queue : List α) : Option β :=
  (queue.filterMap write).getLast?

@[simp] theorem lastWrite_nil : lastWrite write [] = none := rfl

@[simp] theorem lastWrite_singleton : lastWrite write [a] = write a := by
  cases h : write a <;> simp [lastWrite, h]

theorem lastWrite_append (queue queue' : List α) :
    lastWrite write (queue ++ queue') = (lastWrite write queue').or (lastWrite write queue) := by
  rw [lastWrite, List.filterMap_append, List.getLast?_append]
  rfl

end Collections
