import Mathlib.Logic.Function.Basic
import Mymuduo.Library.Execution
import Mymuduo.Server.EventLoopThreadPool
import Mymuduo.Server.Naming

/-!
# Starting the pool's threads

`EventLoopThreadPool::start` creates the threads one after the other. For each of them
`Thread::start` waits on a semaphore of its own stack frame until the new thread has stored
its `tid_`, and `startLoop` waits on `cond_` until it has published `loop_`. The steps below are
those between which another thread may run. A wait on a condition variable may also end without
a notification, and a loop may be left at any time once it has been entered.
-/

namespace Mymuduo.PoolStart

open Mymuduo.Library

/-- What the constructors and setters fix, and the id that the kernel gives the i-th thread. -/
structure Setup where
  name_ : List Char
  numThreads_ : Int
  cb : Bool
  gettid : Nat → Nat

/-- Who has locked `mutex_` of an `EventLoopThread`. -/
inductive Holder
  | starter
  | thread
  deriving DecidableEq

/-- What a new thread does next. -/
inductive Stage
  | absent
  /-- `tid_ = CurrentThread::tid()` -/
  | entry
  /-- `sem_post(&sem)` -/
  | post
  /-- `EventLoop loop` -/
  | construct
  /-- `if (callback_) callback_(&loop)` -/
  | callback
  | lock
  /-- `loop_ = &loop` -/
  | store
  /-- `cond_.notify_one()` -/
  | notify
  | unlock
  /-- in `loop.loop()` -/
  | looping
  /-- `loop()` has returned -/
  | relock
  /-- `loop_ = nullptr` -/
  | clear
  | leave
  | finished
  deriving DecidableEq

namespace Stage

/-- The thread has locked `mutex_`. -/
def locked : Stage → Bool
  | store | notify | unlock | clear | leave => true
  | _ => false

/-- `loop_` points to the loop. -/
def published : Stage → Bool
  | notify | unlock | looping | relock | clear => true
  | _ => false

/-- `tid_` is stored. -/
def known : Stage → Bool
  | absent | entry => false
  | _ => true

/-- The semaphore is posted. -/
def posted : Stage → Bool
  | absent | entry | post => false
  | _ => true

/-- The init callback has run. -/
def called : Stage → Bool
  | absent | entry | post | construct | callback => false
  | _ => true

/-- The thread will still notify `cond_`. -/
def notifies : Stage → Bool
  | construct | callback | lock | store | notify => true
  | _ => false

/-- The thread is in its loop or has left it. -/
def up : Stage → Bool
  | looping | relock | clear | leave | finished => true
  | _ => false

/-- The thread has come back for `loop_ = nullptr` and nobody can find `loop_` any more. -/
def gone : Stage → Bool
  | clear | leave | finished => true
  | _ => false

end Stage

/-- What the starting thread does next. -/
inductive Pc
  /-- `i < numThreads_` -/
  | test
  /-- `new EventLoopThread(cb, name)` -/
  | create
  /-- `started_ = true`, `sem_init` and the new `std::thread` -/
  | spawn
  | semWait
  | lock
  /-- `loop_ == nullptr` -/
  | check
  /-- blocked in `cond_.wait(ulock)` -/
  | wait
  /-- woken, about to lock again -/
  | relock
  | unlock (loop : LoopAddr)
  /-- `loops_.emplace_back(loop)` -/
  | emplace (loop : LoopAddr)
  /-- `numThreads_ == 0 && cb` -/
  | base
  | returned
  deriving DecidableEq

namespace Pc

/-- The starting thread has locked `mutex_`. -/
def holds : Pc → Bool
  | check | unlock _ => true
  | _ => false

/-- `startLoop` has started its thread but has not found `loop_` yet. -/
def seeking : Pc → Bool
  | semWait | lock | check | wait | relock => true
  | _ => false

/-- The loop that `startLoop` has found. -/
def found : Pc → Option LoopAddr
  | unlock loop | emplace loop => some loop
  | _ => none

/-- The i-th thread has been started. -/
def spawned (pc : Pc) : Bool := pc.seeking || pc.found.isSome

end Pc

/-- An `EventLoopThread` with its `Thread`. -/
structure NewThread where
  name_ : List Char := []
  stage : Stage := .absent
  started_ : Bool := false
  tid_ : Nat := 0
  /-- the semaphore in the frame of `Thread::start`, while that is on the stack -/
  sem : Option Nat := none
  mutex_ : Option Holder := none
  loop_ : Option LoopAddr := none

/-- One step of the j-th new thread on its own object; none where it is blocked, in its loop or
not there. -/
def NewThread.step (setup : Setup) (j : Nat) (t : NewThread) : Option NewThread :=
  match t.stage with
  | .absent | .looping | .finished => none
  | .entry => some { t with tid_ := setup.gettid j, stage := .post }
  | .post => some { t with sem := t.sem.map (· + 1), stage := .construct }
  | .construct => some { t with stage := .callback }
  | .callback => some { t with stage := .lock }
  | .lock =>
    if t.mutex_ = none then some { t with mutex_ := some .thread, stage := .store } else none
  | .store => some { t with loop_ := some (.thread j), stage := .notify }
  | .notify => some { t with stage := .unlock }
  | .unlock => some { t with mutex_ := none, stage := .looping }
  | .relock =>
    if t.mutex_ = none then some { t with mutex_ := some .thread, stage := .clear } else none
  | .clear => some { t with loop_ := none, stage := .leave }
  | .leave => some { t with mutex_ := none, stage := .finished }

structure System where
  setup : Setup
  pool : EventLoopThreadPool
  threads_ : Nat → NewThread := fun _ => {}
  /-- `Thread::numCreated_` -/
  numCreated_ : Nat := 0
  pc : Pc := .test
  i : Nat := 0
  /-- history: a thread has used a semaphore that is gone -/
  dangling : Bool := false

/-- The pool in which `start(cb)` is called, with `started_` stored. -/
def entered (setup : Setup) : System where
  setup := setup
  pool := { (({} : EventLoopThreadPool).setThreadNum setup.numThreads_) with started_ := true }

/-- `Thread::setDefaultName`: the name and `numCreated_`. -/
def setDefaultName (name : List Char) (numCreated : Nat) : List Char × Nat :=
  if name.isEmpty then ("Thread".toList ++ decimal (numCreated + 1), numCreated + 1)
  else (name, numCreated)

namespace System

/-- The `EventLoopThread` at hand. -/
def current (s : System) : NewThread := s.threads_ s.i

def setThread (j : Nat) (t : NewThread) (s : System) : System :=
  { s with threads_ := Function.update s.threads_ j t }

/-- One step of the thread that runs `start`; none where it is blocked or has returned. -/
def starterStep (s : System) : Option System :=
  let t := s.current
  match s.pc with
  | .test =>
    some { s with pc := if (s.i : Int) < s.setup.numThreads_ then .create else .base }
  | .create =>
    let (name, numCreated) := setDefaultName (s.setup.name_ ++ decimal s.i) s.numCreated_
    some { s.setThread s.i { name_ := name } with numCreated_ := numCreated, pc := .spawn }
  | .spawn =>
    some { s.setThread s.i { t with started_ := true, sem := some 0, stage := .entry } with
      pc := .semWait }
  | .semWait =>
    match t.sem with
    -- on its way out of `Thread::start` the semaphore goes out of scope
    | some (_ + 1) => some { s.setThread s.i { t with sem := none } with pc := .lock }
    | _ => none
  | .lock | .relock =>
    if t.mutex_ = none then
      some { s.setThread s.i { t with mutex_ := some .starter } with pc := .check }
    else none
  | .check =>
    match t.loop_ with
    | none => some { s.setThread s.i { t with mutex_ := none } with pc := .wait }
    | some loop => some { s with pc := .unlock loop }
  | .wait => none
  | .unlock loop => some { s.setThread s.i { t with mutex_ := none } with pc := .emplace loop }
  | .emplace loop =>
    some { s with
      pool := { s.pool with loops_ := s.pool.loops_ ++ [loop] }
      i := s.i + 1
      pc := .test }
  | .base =>
    some { s with
      pool :=
        if s.setup.numThreads_ = 0 ∧ s.setup.cb then
          s.pool.callInit s.setup.cb s.pool.baseLoop_
        else s.pool
      pc := .returned }
  | .returned => none

/-- One step of the j-th new thread: what the rest of the process sees of it. -/
def threadStep (s : System) (j : Nat) : Option System :=
  let t := s.threads_ j
  (t.step s.setup j).map fun t' =>
    { s.setThread j t' with
      pool :=
        if t.stage = .callback ∧ s.setup.cb then s.pool.callInit s.setup.cb (.thread j)
        else s.pool
      -- only the starting thread ever waits on `cond_`, and at most one thread does
      pc := if t.stage = .notify ∧ s.pc = .wait ∧ s.i = j then .relock else s.pc
      dangling := s.dangling || (decide (t.stage = .post) && t.sem.isNone) }

end System

inductive Action
  | starter
  | thread (j : Nat)
  /-- `loop()` returns on the j-th thread -/
  | quitLoop (j : Nat)
  /-- the wait ends without a notification -/
  | spurious
  deriving DecidableEq

def step (s : System) : Action → Option System
  | .starter => s.starterStep
  | .thread j => s.threadStep j
  | .quitLoop j =>
    if (s.threads_ j).stage = .looping then
      some (s.setThread j { s.threads_ j with stage := .relock })
    else none
  | .spurious => if s.pc = .wait then some { s with pc := .relock } else none

/-! ## The two threads of one `startLoop` -/

/-- The j-th thread and the starting thread that is at `pc` in its `startLoop`. -/
structure Fits (setup : Setup) (j : Nat) (pc : Pc) (t : NewThread) : Prop where
  named : t.name_ = setup.name_ ++ decimal j
  started : t.started_ = true
  present : t.stage ≠ .absent
  locked : t.mutex_ = some .thread ↔ t.stage.locked = true
  held : t.mutex_ = some .starter ↔ pc.holds = true
  loop : t.loop_ = if t.stage.published then some (.thread j) else none
  tid : t.stage.known = true → t.tid_ = setup.gettid j
  sem : t.sem = if pc = .semWait then some (if t.stage.posted then 1 else 0) else none
  posted : pc ≠ .semWait → t.stage.posted = true
  found : ∀ loop, pc.found = some loop → loop = .thread j ∧ t.stage.up = true
  waits : pc = .wait → t.stage.notifies = true ∨ t.stage.gone = true

section Fits

variable {setup : Setup} {j : Nat} {pc : Pc} {t t' : NewThread}

/-- Where the starting thread stands after a step of the new thread. -/
def notified (t : NewThread) (pc : Pc) : Pc :=
  if t.stage = .notify ∧ pc = .wait then .relock else pc

@[simp] theorem notified_holds : (notified t pc).holds = pc.holds := by
  unfold notified
  split
  · rename_i h
    rw [h.2]
    rfl
  · rfl

@[simp] theorem notified_found : (notified t pc).found = pc.found := by
  unfold notified
  split
  · rename_i h
    rw [h.2]
    rfl
  · rfl

@[simp] theorem notified_semWait : notified t pc = .semWait ↔ pc = .semWait := by
  unfold notified
  split
  · rename_i h
    simp [h.2]
  · rfl

theorem notified_wait : notified t pc = .wait ↔ pc = .wait ∧ t.stage ≠ .notify := by
  unfold notified
  split
  · rename_i h
    simp [h.1]
  · rename_i h
    exact ⟨fun hpc => ⟨hpc, fun hst => h ⟨hst, hpc⟩⟩, fun hpc => hpc.1⟩

/-- The new thread takes a step: it keeps to the lock, and it leaves nobody waiting behind it. -/
theorem Fits.step (h : Fits setup j pc t) (hs : t.step setup j = some t') :
    Fits setup j (notified t pc) t' := by
  unfold NewThread.step at hs
  have hlocked := h.locked
  have hheld := h.held
  have hloop := h.loop
  have htid := h.tid
  have hsem := h.sem
  have hposted := h.posted
  have hfound := h.found
  have hwaits := h.waits
  cases hst : t.stage <;> simp only [hst, reduceCtorEq, Option.some.injEq,
    Option.ite_none_right_eq_some, Stage.locked, Stage.published, Stage.known, Stage.posted,
    Stage.up, Stage.notifies, Stage.gone] at hs hlocked hloop htid hsem hposted hfound hwaits
  case lock =>
    -- nobody had the lock, so the starting thread is not inside `startLoop`'s critical section
    obtain ⟨hfree, rfl⟩ := hs
    have houtside : pc.holds = false := by
      rw [hfree] at hheld
      simpa using hheld
    refine ⟨h.named, h.started, by simp, by simp [Stage.locked], by simp [houtside],
      by simpa [Stage.published] using hloop, fun _ => htid trivial, ?_, fun _ => rfl, ?_, ?_⟩
    · simpa [Stage.posted] using hsem
    · intro loop hl
      rw [notified_found] at hl
      exact absurd (hfound loop hl).2 (by simp)
    · intro _
      exact .inl rfl
  case notify =>
    -- a starting thread that waits is woken, so from here on nobody waits
    obtain rfl := hs
    refine ⟨h.named, h.started, by simp, by simpa [Stage.locked] using hlocked,
      by simpa using hheld, by simpa [Stage.published] using hloop, fun _ => htid trivial, ?_,
      fun _ => rfl, ?_, ?_⟩
    · simpa [Stage.posted] using hsem
    · intro loop hl
      rw [notified_found] at hl
      exact absurd (hfound loop hl).2 (by simp)
    · intro hwait
      exact absurd hst (notified_wait.mp hwait).2
  case clear =>
    -- `loop_` is taken back, after `startLoop` has found it or for good
    obtain rfl := hs
    refine ⟨h.named, h.started, by simp, by simpa [Stage.locked] using hlocked,
      by simpa using hheld, by simp [Stage.published], fun _ => htid trivial, ?_,
      fun _ => rfl, ?_, ?_⟩
    · simpa [Stage.posted] using hsem
    · intro loop hl
      rw [notified_found] at hl
      exact ⟨(hfound loop hl).1, rfl⟩
    · intro _
      exact .inr rfl
  all_goals obtain ⟨hfree, rfl⟩ := hs
  all_goals constructor
  all_goals first | exact h.named | exact h.started | skip
  all_goals simp_all [notified_wait, Stage.locked, Stage.published, Stage.known, Stage.posted,
    Stage.up, Stage.notifies, Stage.gone]

/-- `Thread::start` has created the thread and waits for its id. -/
theorem Fits.spawn (hn : t.name_ = setup.name_ ++ decimal j) (hm : t.mutex_ = none)
    (hl : t.loop_ = none) :
    Fits setup j .semWait { t with started_ := true, sem := some 0, stage := .entry } := by
  constructor <;>
    simp [hn, hm, hl, Stage.locked, Stage.published, Stage.known, Stage.posted, Pc.holds, Pc.found]

/-- A wait on the condition variable ends. -/
theorem Fits.wake (h : Fits setup j .wait t) : Fits setup j .relock t where
  named := h.named
  started := h.started
  present := h.present
  locked := h.locked
  held := h.held
  loop := h.loop
  tid := h.tid
  sem := h.sem
  posted _ := h.posted (by simp)
  found loop hl := by cases hl
  waits hpc := by cases hpc

/-- `sem_wait` ends once the new thread has stored its id. -/
theorem Fits.semWait (h : Fits setup j .semWait t) {k : Nat} (hk : t.sem = some (k + 1)) :
    Fits setup j .lock { t with sem := none } where
  named := h.named
  started := h.started
  present := h.present
  locked := h.locked
  held := h.held
  loop := h.loop
  tid := h.tid
  sem := rfl
  posted _ := by
    have hsem := h.sem
    rw [hk] at hsem
    by_contra hno
    simp [hno] at hsem
  found loop hl := by cases hl
  waits hpc := by cases hpc

theorem Fits.acquire (h : Fits setup j pc t) (hpc : pc = .lock ∨ pc = .relock)
    (hfree : t.mutex_ = none) : Fits setup j .check { t with mutex_ := some .starter } where
  named := h.named
  started := h.started
  present := h.present
  locked := by
    have hlocked := h.locked
    rw [hfree] at hlocked
    simpa using hlocked
  held := by simp [Pc.holds]
  loop := h.loop
  tid := h.tid
  sem := by
    have hsem := h.sem
    rcases hpc with rfl | rfl
    · exact hsem
    · exact hsem
  posted _ := h.posted (by rcases hpc with rfl | rfl <;> simp)
  found loop hl := by cases hl
  waits hw := by cases hw

/-- While the starting thread holds the lock the new thread is outside its critical sections. -/
theorem Fits.unlocked (h : Fits setup j pc t) (hpc : pc.holds = true) : t.stage.locked = false := by
  have hlocked := h.locked
  rw [h.held.mpr hpc] at hlocked
  simpa using hlocked

/-- Where `loop_` is not there the new thread has not yet come to its `notify_one`, or it has come
and gone. -/
theorem Fits.block (h : Fits setup j .check t) (hnone : t.loop_ = none) :
    Fits setup j .wait { t with mutex_ := none } where
  named := h.named
  started := h.started
  present := h.present
  locked := by simp [h.unlocked rfl]
  held := by simp [Pc.holds]
  loop := h.loop
  tid := h.tid
  sem := h.sem
  posted _ := h.posted (by simp)
  found loop hl := by cases hl
  waits _ := by
    have hlocked := h.unlocked rfl
    have hloop := h.loop
    have hposted := h.posted (by simp)
    rw [hnone] at hloop
    show t.stage.notifies = true ∨ t.stage.gone = true
    cases hst : t.stage <;>
      simp [hst, Stage.published, Stage.posted, Stage.locked, Stage.notifies, Stage.gone] at *

/-- Where `loop_` is there the thread has come to its loop. -/
theorem Fits.find (h : Fits setup j .check t) {loop : LoopAddr} (hsome : t.loop_ = some loop) :
    Fits setup j (.unlock loop) t where
  named := h.named
  started := h.started
  present := h.present
  locked := h.locked
  held := h.held
  loop := h.loop
  tid := h.tid
  sem := h.sem
  posted _ := h.posted (by simp)
  found loop' hl := by
    have hlocked := h.unlocked rfl
    have hloop := h.loop
    rw [hsome] at hloop
    obtain rfl := Option.some.inj hl
    cases hst : t.stage <;> simp_all [Stage.published, Stage.locked, Stage.up]
  waits hpc := by cases hpc

theorem Fits.release {loop : LoopAddr} (h : Fits setup j (.unlock loop) t) :
    Fits setup j (.emplace loop) { t with mutex_ := none } where
  named := h.named
  started := h.started
  present := h.present
  locked := by simp [h.unlocked rfl]
  held := by simp [Pc.holds]
  loop := h.loop
  tid := h.tid
  sem := h.sem
  posted _ := h.posted (by simp)
  found := h.found
  waits hpc := by cases hpc

/-- A loop that is left comes back for the lock. -/
theorem Fits.quitLoop (h : Fits setup j pc t) (hst : t.stage = .looping) :
    Fits setup j pc { t with stage := .relock } where
  named := h.named
  started := h.started
  present := by simp
  locked := by
    have hlocked := h.locked
    rw [hst] at hlocked
    exact hlocked
  held := h.held
  loop := by
    have hloop := h.loop
    rw [hst] at hloop
    exact hloop
  tid _ := h.tid (by rw [hst]; rfl)
  sem := by
    have hsem := h.sem
    rw [hst] at hsem
    exact hsem
  posted _ := rfl
  found loop hl := ⟨(h.found loop hl).1, rfl⟩
  waits hpc := by
    have hwaits := h.waits hpc
    rw [hst] at hwaits
    simp [Stage.notifies, Stage.gone] at hwaits

end Fits

end Mymuduo.PoolStart
