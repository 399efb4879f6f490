import Mathlib.Logic.Function.Basic
import Mymuduo.Library.Execution
import Mymuduo.Library.TaskQueue

/-!
# One event loop and the threads that call it

`EventLoop` is the state that `EventLoop::loop`, `doPendingFunctors`,
`queueInLoop`, `quit` and `handleRead` share. The loop thread stands at a
program point `Pc`; every other thread is either outside these functions or
between the two halves of a call. A step is one access to the shared state:
an atomic store or load, a critical section of `mutex_`, or a system call on
`wakeupFd_`. Channel handlers, functors and the init callback are arbitrary
user code that may call `queueInLoop` and `quit` while it runs.
-/

namespace Mymuduo.Loop

open Mymuduo.Library

universe u v

/-- A functor with its position in the order of `emplace_back`. The ticket is
history: the code never reads it. -/
structure Task (F : Type u) where
  ticket : Nat
  functor : F
  deriving DecidableEq, Repr

/-- An entry of `activeChannels_`: the wakeup channel or any other channel. -/
inductive Ready
  | wakeupChannel
  | other
  deriving DecidableEq, Repr

/-- Where the loop thread stands. -/
inductive Pc (F : Type u)
  /-- constructed, `loop()` not yet entered; the init callback runs here -/
  | outside
  /-- `looping_ = true` stored, `quit_ = false` to come -/
  | entered
  /-- at `while (!quit_)` -/
  | test
  /-- `activeChannels_` cleared, about to enter `epoll_wait` -/
  | poll
  /-- the channels still to be handled; the head is being handled -/
  | handle (activeChannels_ : List Ready)
  /-- in `doPendingFunctors`, `callingPendingFunctors_ = true` to come -/
  | mark
  /-- about to swap under `mutex_` -/
  | swap
  /-- in the `for` loop over the batch, with the functor being run -/
  | call (running : Option (Task F))
  /-- `callingPendingFunctors_ = false` to come -/
  | unmark
  /-- the `while` loop is left, `looping_ = false` to come -/
  | leave
  | returned
  deriving DecidableEq, Repr

/-- Points at which the loop thread runs code that may call back: the init
callback, a channel's handler, a functor. -/
def Pc.userCode {F : Type u} : Pc F → Bool
  | .outside => true
  | .handle (.other :: _) => true
  | .call (some _) => true
  | _ => false

/-- A thread's place inside `queueInLoop` or `quit`. -/
inductive Call
  | idle
  /-- `queueInLoop` has done its `emplace_back`; the wakeup test comes next -/
  | pushed (ticket : Nat)
  /-- `quit` has stored `quit_` on a foreign thread; the wakeup comes next -/
  | stored
  deriving DecidableEq, Repr

/-- `none` as a caller is the loop's own thread. -/
structure EventLoop (T : Type v) (F : Type u) where
  pc : Pc F
  looping_ : Bool := false
  quit_ : Bool := false
  callingPendingFunctors_ : Bool := false
  /-- the eventfd counter -/
  wakeupFd_ : Nat := 0
  /-- `pendingFunctors_`, and the local vector `functors` of `doPendingFunctors` -/
  queue : TaskQueue (Task F) := {}
  caller : Option T → Call := fun _ => .idle
  /-- history: all functors in the order of `emplace_back` -/
  emplaced : List (Task F) := []
  /-- history: functors whose call has completed -/
  executed : List (Task F) := []
  /-- history: tickets whose `queueInLoop` has returned -/
  returned : List Nat := []
  /-- history: the tickets that had returned when `quit` was called -/
  owed : List Nat := []

namespace EventLoop

variable {T : Type v} {F : Type u}

def pendingFunctors_ (l : EventLoop T F) : List (Task F) := l.queue.pending

/-- The largest value an eventfd counter takes. -/
def eventfdMax : Nat := 0xfffffffffffffffe

/-- `write` of 1 to the eventfd: it adds, or fails with `EAGAIN` on a counter
that is at its maximum. -/
def eventfdWrite (counter : Nat) : Nat :=
  if counter + 1 ≤ eventfdMax then counter + 1 else counter

theorem eventfdWrite_pos (counter : Nat) : 0 < eventfdWrite counter := by
  unfold eventfdWrite eventfdMax
  split <;> omega

def wakeup (l : EventLoop T F) : EventLoop T F := { l with wakeupFd_ := eventfdWrite l.wakeupFd_ }

/-- The next statement of the loop thread, where it needs no choice. -/
def loopStep (l : EventLoop T F) : Option (EventLoop T F) :=
  match l.pc with
  | .outside => some { l with pc := .entered, looping_ := true }
  | .entered => some { l with pc := .test, quit_ := false }
  | .test => some { l with pc := if l.quit_ then .leave else .poll }
  | .poll => none
  | .handle [] => some { l with pc := .mark }
  -- EventLoop::handleRead: the read resets the counter
  | .handle (.wakeupChannel :: rest) => some { l with pc := .handle rest, wakeupFd_ := 0 }
  | .handle (.other :: rest) => some { l with pc := .handle rest }
  | .mark => some { l with pc := .swap, callingPendingFunctors_ := true }
  | .swap => some { l with pc := .call none, queue := l.queue.swap }
  | .call none =>
    match l.queue.start with
    | some (f, q) => some { l with pc := .call (some f), queue := q }
    | none => some { l with pc := .unmark }
  | .call (some f) => some { l with pc := .call none, executed := l.executed ++ [f] }
  | .unmark =>
    some { l with pc := .test, callingPendingFunctors_ := false, queue := l.queue.finish }
  | .leave => some { l with pc := .returned, looping_ := false }
  | .returned => none

/-- First half of `queueInLoop`: the critical section. -/
def emplaceBack [DecidableEq T] (l : EventLoop T F) (who : Option T) (cb : F) : EventLoop T F :=
  let task : Task F := ⟨l.emplaced.length, cb⟩
  { l with
    queue := l.queue.push task
    emplaced := l.emplaced ++ [task]
    caller := Function.update l.caller who (.pushed task.ticket) }

/-- First half of `quit`: the store. On the loop's own thread that is all. -/
def storeQuit [DecidableEq T] (l : EventLoop T F) (who : Option T) : EventLoop T F :=
  { l with
    quit_ := true
    owed := l.returned
    caller := Function.update l.caller who (if who.isSome then .stored else .idle) }

/-- Second half of `queueInLoop` or `quit`: wake the loop where the code does,
and return. -/
def finishCall [DecidableEq T] (l : EventLoop T F) (who : Option T) : Option (EventLoop T F) :=
  match l.caller who with
  | .idle => none
  | .pushed k =>
    let l' := if who.isSome || l.callingPendingFunctors_ then l.wakeup else l
    some { l' with caller := Function.update l.caller who .idle, returned := l.returned ++ [k] }
  | .stored => some { l.wakeup with caller := Function.update l.caller who .idle }

inductive Action (T : Type v) (F : Type u)
  | loop
  | poll (active : List Ready)
  | queueInLoop (who : Option T) (cb : F)
  | quit (who : Option T)
  | finishCall (who : Option T)
  deriving DecidableEq, Repr

/-- A thread can start a call when it is in none; the loop's own thread only
from user code. -/
def mayCall [DecidableEq T] (l : EventLoop T F) (who : Option T) : Bool :=
  l.caller who = .idle && (who.isSome || l.pc.userCode)

def step [DecidableEq T] (l : EventLoop T F) : Action T F → Option (EventLoop T F)
  | .loop => if l.caller none = .idle then l.loopStep else none
  -- epoll_wait returns: on events, at the timeout, or interrupted. The wakeup
  -- channel is reported only while the counter is positive.
  | .poll active =>
    match l.pc with
    | .poll =>
      if Ready.wakeupChannel ∈ active → 0 < l.wakeupFd_ then some { l with pc := .handle active }
      else none
    | _ => none
  | .queueInLoop who cb => if l.mayCall who then some (l.emplaceBack who cb) else none
  | .quit who => if l.mayCall who then some (l.storeQuit who) else none
  | .finishCall who => l.finishCall who

/-- What the loop thread's own statements never touch. -/
theorem loopStep_frame {l l' : EventLoop T F} (h : l.loopStep = some l') :
    l'.caller = l.caller ∧ l'.emplaced = l.emplaced ∧ l'.returned = l.returned ∧
      l'.owed = l.owed := by
  unfold loopStep at h
  split at h
  case h_10 => split at h <;> cases h <;> exact ⟨rfl, rfl, rfl, rfl⟩
  all_goals
    cases h
    try exact ⟨rfl, rfl, rfl, rfl⟩

/-- A call of one thread leaves the other threads where they are. -/
theorem emplaceBack_caller_of_ne [DecidableEq T] (l : EventLoop T F) {who w : Option T} (cb : F)
    (h : w ≠ who) : (l.emplaceBack who cb).caller w = l.caller w :=
  Function.update_of_ne h _ _

theorem storeQuit_caller_of_ne [DecidableEq T] (l : EventLoop T F) {who w : Option T}
    (h : w ≠ who) : (l.storeQuit who).caller w = l.caller w :=
  Function.update_of_ne h _ _

section Inversion

variable [DecidableEq T] {l l' : EventLoop T F} {who : Option T} {cb : F} {active : List Ready}

theorem step_loop (h : l.step .loop = some l') : l.caller none = .idle ∧ l.loopStep = some l' := by
  simpa [step] using h

theorem step_poll (h : l.step (.poll active) = some l') :
    l.pc = .poll ∧ (Ready.wakeupChannel ∈ active → 0 < l.wakeupFd_) ∧
      l' = { l with pc := .handle active } := by
  cases hp : l.pc <;> simp [step, hp] at h ⊢
  exact ⟨h.1, h.2.symm⟩

theorem mayCall_iff : l.mayCall who = true ↔
    l.caller who = .idle ∧ (who = none → l.pc.userCode = true) := by
  cases who <;> simp [mayCall]

theorem step_queueInLoop (h : l.step (.queueInLoop who cb) = some l') :
    l.caller who = .idle ∧ (who = none → l.pc.userCode = true) ∧ l' = l.emplaceBack who cb := by
  simp only [step, Option.ite_none_right_eq_some, Option.some.injEq, mayCall_iff] at h
  exact ⟨h.1.1, h.1.2, h.2.symm⟩

theorem step_quit (h : l.step (.quit who) = some l') :
    l.caller who = .idle ∧ (who = none → l.pc.userCode = true) ∧ l' = l.storeQuit who := by
  simp only [step, Option.ite_none_right_eq_some, Option.some.injEq, mayCall_iff] at h
  exact ⟨h.1.1, h.1.2, h.2.symm⟩

/-- A call ends by returning a ticket, with the wakeup skipped only on the
loop's own thread outside a batch, or by the wakeup of `quit`. -/
theorem finishCall_cases (h : l.finishCall who = some l') :
    (∃ k, l.caller who = .pushed k ∧
      l' = { l with
        caller := Function.update l.caller who .idle
        returned := l.returned ++ [k]
        wakeupFd_ := if who.isSome || l.callingPendingFunctors_ then eventfdWrite l.wakeupFd_
          else l.wakeupFd_ }) ∨
    (l.caller who = .stored ∧
      l' = { l with
        caller := Function.update l.caller who .idle
        wakeupFd_ := eventfdWrite l.wakeupFd_ }) := by
  unfold finishCall at h
  cases hc : l.caller who with
  | idle => simp [hc] at h
  | pushed k =>
    refine Or.inl ⟨k, rfl, ?_⟩
    simp only [hc, Option.some.injEq] at h
    rw [← h]
    split <;> rfl
  | stored =>
    simp only [hc, Option.some.injEq] at h
    exact Or.inr ⟨rfl, h.symm⟩

end Inversion

end EventLoop

end Mymuduo.Loop
