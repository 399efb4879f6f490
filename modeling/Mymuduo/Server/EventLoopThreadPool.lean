import Mathlib.Data.List.Basic

/-!
# The pool of io loops

`start` creates `numThreads_` threads, each with a loop of its own; `getNextLoop`
hands these loops out by an index that it carries from call to call. An index
outside `loops_` is no value of the program: the call then has no result.
-/

namespace Mymuduo

/-- The loops of a server, by the thread that has each on its stack. -/
inductive LoopAddr
  | baseLoop
  | thread (i : Nat)
  deriving DecidableEq, Repr

structure EventLoopThreadPool where
  baseLoop_ : LoopAddr := .baseLoop
  started_ : Bool := false
  numThreads_ : Int := 0
  next_ : Nat := 0
  loops_ : List LoopAddr := []
  /-- history: the loops on which the init callback has been called -/
  initialised : List LoopAddr := []
  /-- an empty `ThreadInitCallback` has been called -/
  thrown : Bool := false
  deriving DecidableEq

namespace EventLoopThreadPool

def setThreadNum (numThreads : Int) (p : EventLoopThreadPool) : EventLoopThreadPool :=
  { p with numThreads_ := numThreads }

/-- `cb(loop)`. -/
def callInit (cb : Bool) (loop : LoopAddr) (p : EventLoopThreadPool) : EventLoopThreadPool :=
  if cb then { p with initialised := p.initialised ++ [loop] } else { p with thrown := true }

/-- `EventLoopThread(cb, name)` and its `startLoop`, which returns when
`threadFunc` has run `if (callback_) callback_(&loop)`. -/
def startThread (cb : Bool) (p : EventLoopThreadPool) : EventLoopThreadPool :=
  let loop := LoopAddr.thread p.loops_.length
  let p := if cb then p.callInit cb loop else p
  { p with loops_ := p.loops_ ++ [loop] }

/-- The loop `for (int i = 0; i < numThreads_; ++i)`. -/
def startThreads (cb : Bool) : Nat → EventLoopThreadPool → EventLoopThreadPool
  | 0, p => p
  | n + 1, p => startThreads cb n (p.startThread cb)

def start (cb : Bool) (p : EventLoopThreadPool) : EventLoopThreadPool :=
  let p := startThreads cb p.numThreads_.toNat { p with started_ := true }
  if p.numThreads_ = 0 ∧ cb then p.callInit cb p.baseLoop_ else p

/-- The next loop and the pool after the call; none where `loops_[next_]` is not
an element of `loops_`. -/
def getNextLoop (p : EventLoopThreadPool) : Option (LoopAddr × EventLoopThreadPool) :=
  if p.loops_.isEmpty then some (p.baseLoop_, p)
  else
    p.loops_[p.next_]?.map fun loop =>
      let next_ := p.next_ + 1
      (loop, { p with next_ := if p.loops_.length < next_ then 0 else next_ })

def getLoopForHash (hashCode : Nat) (p : EventLoopThreadPool) : Option LoopAddr :=
  if p.loops_.isEmpty then some p.baseLoop_ else p.loops_[hashCode % p.loops_.length]?

def getAllLoops (p : EventLoopThreadPool) : List LoopAddr :=
  if p.loops_.isEmpty then [p.baseLoop_] else p.loops_

/-! ## What `start` leaves -/

section Start

variable (cb : Bool) (n : Nat) (p : EventLoopThreadPool)

/-- The loops of `n` threads, in the order in which they were created. -/
def threadLoops (n : Nat) : List LoopAddr := (List.range n).map .thread

@[simp] theorem length_threadLoops : (threadLoops n).length = n := by simp [threadLoops]

theorem threadLoops_succ : threadLoops (n + 1) = threadLoops n ++ [.thread n] := by
  simp [threadLoops, List.range_succ]

theorem getElem?_threadLoops (k : Nat) :
    (threadLoops n)[k]? = if k < n then some (.thread k) else none := by
  rw [threadLoops, List.getElem?_map]
  split
  · rename_i h
    rw [List.getElem?_range h]
    rfl
  · rename_i h
    rw [List.getElem?_eq_none (by simpa using h)]
    rfl

/-- A thread is started with a callback only where that has a target. -/
theorem startThread_eq : p.startThread cb = { p with
    loops_ := p.loops_ ++ [.thread p.loops_.length]
    initialised := p.initialised ++ (if cb then [.thread p.loops_.length] else []) } := by
  cases cb <;> simp [startThread, callInit]

/-- An empty init callback is never called. -/
theorem start_thrown : (p.start cb).thrown = p.thrown := by
  have hthreads : ∀ (q : EventLoopThreadPool) n, (startThreads cb n q).thrown = q.thrown := by
    intro q n
    induction n generalizing q with
    | zero => rfl
    | succ n ih => rw [startThreads, ih, startThread_eq]
  simp only [start]
  split
  · rename_i h
    rw [callInit, if_pos h.2]
    exact hthreads _ _
  · exact hthreads _ _

/-- The pool with `k` threads started, after as many calls of the init callback as `called` says. -/
def begun (numThreads : Int) (k called : Nat) : EventLoopThreadPool where
  started_ := true
  numThreads_ := numThreads
  loops_ := threadLoops k
  initialised := if cb then threadLoops called else []

theorem begun_startThread (numThreads : Int) (k : Nat) :
    (begun cb numThreads k k).startThread cb = begun cb numThreads (k + 1) (k + 1) := by
  rw [startThread_eq]
  simp only [begun, length_threadLoops, threadLoops_succ]
  cases cb
  · rfl
  · rfl

theorem begun_startThreads (numThreads : Int) (k : Nat) :
    startThreads cb n (begun cb numThreads k k) = begun cb numThreads (k + n) (k + n) := by
  induction n generalizing k with
  | zero => rfl
  | succ n ih =>
    rw [startThreads, begun_startThread, ih]
    have hn : k + 1 + n = k + (n + 1) := by omega
    rw [hn]

/-- `start` has made the threads' loops, and calls the init callback on its own loop where there is
no thread. -/
theorem start_eq (numThreads : Int) :
    (({} : EventLoopThreadPool).setThreadNum numThreads).start cb =
      if numThreads = 0 ∧ cb then
        (begun cb numThreads numThreads.toNat numThreads.toNat).callInit cb .baseLoop
      else begun cb numThreads numThreads.toNat numThreads.toNat := by
  have hentered : begun cb numThreads 0 0 = { started_ := true, numThreads_ := numThreads } := by
    cases cb <;> rfl
  have hthreads := begun_startThreads cb numThreads.toNat numThreads 0
  rw [Nat.zero_add, hentered] at hthreads
  show (let p := startThreads cb numThreads.toNat { started_ := true, numThreads_ := numThreads };
        if p.numThreads_ = 0 ∧ cb then p.callInit cb p.baseLoop_ else p) = _
  rw [hthreads]
  rfl

/-- A pool that has been started with `n` threads. -/
def started : EventLoopThreadPool :=
  (({} : EventLoopThreadPool).setThreadNum n).start cb

theorem started_eq : started cb n = {
    started_ := true
    numThreads_ := n
    loops_ := threadLoops n
    initialised :=
      if cb then (if n = 0 then [.baseLoop] else threadLoops n) else [] } := by
  rw [started, start_eq, Int.toNat_natCast]
  cases cb with
  | false => simp [begun]
  | true =>
    by_cases hn : n = 0
    · simp [begun, callInit, hn, threadLoops]
    · simp [begun, hn]

end Start

/-! ## The index -/

section Index

variable {p : EventLoopThreadPool}

/-- While the index is inside, a call hands out its loop and moves it on; it never
wraps, since `next_ > loops_.size()` cannot hold after an access that was inside. -/
theorem getNextLoop_inside (h : p.next_ < p.loops_.length) :
    p.getNextLoop = some (p.loops_[p.next_], { p with next_ := p.next_ + 1 }) := by
  have hne : p.loops_.isEmpty = false := by
    cases hl : p.loops_ with
    | nil => simp [hl] at h
    | cons _ _ => rfl
  have hwrap : ¬p.loops_.length < p.next_ + 1 := by omega
  simp [getNextLoop, hne, List.getElem?_eq_getElem h, hwrap]

/-- One call later the index is outside. -/
theorem getNextLoop_outside (hne : p.loops_ ≠ []) (h : p.loops_.length ≤ p.next_) :
    p.getNextLoop = none := by
  simp [getNextLoop, hne, h]

/-- The siblings that wrap by `%` are always inside. -/
theorem getLoopForHash_mem (hashCode : Nat) :
    ∃ loop, p.getLoopForHash hashCode = some loop ∧ loop ∈ p.getAllLoops := by
  unfold getLoopForHash getAllLoops
  cases hl : p.loops_ with
  | nil => exact ⟨p.baseLoop_, by simp, by simp⟩
  | cons first rest =>
    have hlt : hashCode % (first :: rest).length < (first :: rest).length :=
      Nat.mod_lt _ (by simp)
    exact ⟨_, List.getElem?_eq_getElem hlt, List.getElem_mem hlt⟩

end Index

end EventLoopThreadPool

end Mymuduo
