import Mathlib.Data.List.Basic

/-!
# A queue that is drained in batches

Producers append to `pending`. The consumer swaps `pending` out as its batch
and runs the batch element by element; elements that have been started stay
in `ran` until the whole batch is dropped. `waiting` lists what has been
accepted and not yet started, in order; `held` what the queue still stores.
-/

namespace Mymuduo.Library

universe u

structure TaskQueue (F : Type u) where
  pending : List F := []
  ran : List F := []
  todo : List F := []
  deriving DecidableEq, Repr

namespace TaskQueue

variable {F : Type u}

def push (q : TaskQueue F) (f : F) : TaskQueue F := { q with pending := q.pending ++ [f] }

def pushAll (q : TaskQueue F) (fs : List F) : TaskQueue F := { q with pending := q.pending ++ fs }

/-- Take everything that is pending as the new batch. -/
def swap (q : TaskQueue F) : TaskQueue F := { pending := [], ran := [], todo := q.pending }

/-- Start the next element of the batch. -/
def start (q : TaskQueue F) : Option (F × TaskQueue F) :=
  match q.todo with
  | [] => none
  | f :: rest => some (f, { q with ran := q.ran ++ [f], todo := rest })

/-- Drop the batch with all its elements. -/
def finish (q : TaskQueue F) : TaskQueue F := { q with ran := [] }

/-- Accepted and not yet started, in the order in which they will start. -/
def waiting (q : TaskQueue F) : List F := q.todo ++ q.pending

/-- All that the queue stores, started or not. -/
def held (q : TaskQueue F) : List F := q.ran ++ q.waiting

@[simp] theorem push_pending (q : TaskQueue F) (f : F) : (q.push f).pending = q.pending ++ [f] :=
  rfl
@[simp] theorem push_todo (q : TaskQueue F) (f : F) : (q.push f).todo = q.todo := rfl
@[simp] theorem swap_pending (q : TaskQueue F) : q.swap.pending = [] := rfl
@[simp] theorem swap_todo (q : TaskQueue F) : q.swap.todo = q.pending := rfl

@[simp] theorem waiting_push (q : TaskQueue F) (f : F) : (q.push f).waiting = q.waiting ++ [f] := by
  simp [waiting]

@[simp] theorem waiting_pushAll (q : TaskQueue F) (fs : List F) :
    (q.pushAll fs).waiting = q.waiting ++ fs := by
  simp [waiting, pushAll]

/-- The swap reorders nothing, provided the previous batch has been started
to its end. -/
theorem waiting_swap {q : TaskQueue F} (h : q.todo = []) : q.swap.waiting = q.waiting := by
  simp [waiting, h]

/-- What starts is the head of what waits. -/
theorem waiting_of_start {q q' : TaskQueue F} {f : F} (h : q.start = some (f, q')) :
    q.waiting = f :: q'.waiting ∧ q'.ran = q.ran ++ [f] ∧ q'.pending = q.pending ∧
      q.todo = f :: q'.todo := by
  unfold start at h
  cases ht : q.todo with
  | nil => simp [ht] at h
  | cons g rest =>
    simp only [ht, Option.some.injEq, Prod.mk.injEq] at h
    obtain ⟨rfl, rfl⟩ := h
    simp [waiting, ht]

theorem start_eq_none {q : TaskQueue F} (h : q.start = none) : q.todo = [] := by
  cases ht : q.todo with
  | nil => rfl
  | cons f rest => simp [start, ht] at h

theorem mem_held_of_waiting {q : TaskQueue F} {f : F} (h : f ∈ q.waiting) : f ∈ q.held :=
  List.mem_append_right _ h

end TaskQueue

end Mymuduo.Library
