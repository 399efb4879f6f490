import Mathlib.Logic.Function.Basic
import Mymuduo.Library.Execution

/-!
# Destroying the pool

`~EventLoopThreadPool` destroys its `EventLoopThread`s one after the other, in any order. Each
destructor tests `loop_`; where that is null it leaves the thread to itself, else it has the loop
quit and joins the thread. `quit` stores `quit_` and then wakes the loop up, and between the two the
thread may already come to its end. Other threads may run between any two of the steps below; the
load of `loop_` for the call of `quit` and the store through it are one step.
-/

namespace Mymuduo.PoolStop

open Mymuduo.Library

/-- What a loop's thread does next, from its call of `loop()` on. -/
inductive Stage
  /-- `quit_ = false` -/
  | enter
  /-- `while (!quit_)` -/
  | test
  /-- in `epoll_wait` -/
  | poll
  /-- handlers and functors, `n` of them still to run -/
  | work (n : Nat)
  /-- `loop()` has returned -/
  | lock
  /-- `loop_ = nullptr` -/
  | clear
  | unlock
  /-- `~EventLoop` -/
  | destruct
  | finished
  deriving DecidableEq

namespace Stage

/-- The thread is inside `loop()`. -/
def inside : Stage → Bool
  | enter | test | poll | work _ => true
  | _ => false

/-- Handlers and functors run. -/
def working : Stage → Bool
  | work _ => true
  | _ => false

/-- `loop_` points to the loop. -/
def published : Stage → Bool
  | unlock | destruct | finished => false
  | _ => true

/-- The next step is one on `mutex_` or `loop_`. -/
def onThread : Stage → Bool
  | lock | clear | unlock => true
  | _ => false

end Stage

/-- An `EventLoopThread`, its thread and the loop on the thread's stack. -/
structure LoopThread where
  stage : Stage := .enter
  /-- `loop_ != nullptr` -/
  loop_ : Bool := true
  quit_ : Bool := false
  wakeupFd_ : Nat := 0
  /-- the `EventLoopThread` has been destroyed -/
  destroyed : Bool := false

/-- What the destroying thread does next. -/
inductive Pc
  /-- between two destructors -/
  | between
  /-- `if (loop_ != nullptr)` -/
  | test (j : Nat)
  /-- `quit_ = true` -/
  | store (j : Nat)
  /-- `if (!isInLoopThread()) wakeup()` -/
  | wakeup (j : Nat)
  /-- `thread_.join()` -/
  | join (j : Nat)
  deriving DecidableEq

/-- The `EventLoopThread` that is being destroyed. -/
def Pc.target : Pc → Option Nat
  | .between => none
  | .test j | .store j | .wakeup j | .join j => some j

/-- The `EventLoopThread` whose loop has been told to quit. -/
def Pc.told : Pc → Option Nat
  | .wakeup j | .join j => some j
  | _ => none

structure System where
  /-- the size of `threads_` -/
  count : Nat
  threads_ : Nat → LoopThread := fun _ => {}
  pc : Pc := .between
  /-- history: the destroying thread has used a loop that is gone -/
  deadLoop : Bool := false
  /-- history: a thread has used its `EventLoopThread` after that is gone -/
  deadThread : Bool := false

/-- The pool that `start` has left, its threads about to call `loop()`. -/
def started (count : Nat) : System where
  count := count

inductive Action
  | next (j : Nat)
  | destroyer
  | thread (j : Nat)
  /-- the poll reports the wakeup, and `n` handlers and functors are to be run -/
  | poll (j n : Nat)
  /-- the poll reports something else, or its time is over -/
  | event (j n : Nat)
  /-- another thread queues a functor -/
  | queue (j : Nat)
  /-- a handler or functor of the loop calls `quit` -/
  | quit (j : Nat)
  deriving DecidableEq

/-- One step of a loop's thread; none where it polls or has come to its end. -/
def LoopThread.step (t : LoopThread) : Option LoopThread :=
  match t.stage with
  | .enter => some { t with quit_ := false, stage := .test }
  | .test => some { t with stage := if t.quit_ then .lock else .poll }
  | .poll | .finished => none
  | .work (n + 1) => some { t with stage := .work n }
  | .work 0 => some { t with stage := .test }
  | .lock => some { t with stage := .clear }
  | .clear => some { t with loop_ := false, stage := .unlock }
  | .unlock => some { t with stage := .destruct }
  | .destruct => some { t with stage := .finished }

namespace System

def setThread (j : Nat) (t : LoopThread) (s : System) : System :=
  { s with threads_ := Function.update s.threads_ j t }

/-- One step of the thread that destroys the pool. -/
def destroyerStep (s : System) : Option System :=
  match s.pc with
  | .between => none
  | .test j =>
    let t := s.threads_ j
    if t.loop_ then some { s with pc := .store j }
    else
      -- `~Thread` detaches the thread
      some { s.setThread j { t with destroyed := true } with pc := .between }
  | .store j => some { s.setThread j { s.threads_ j with quit_ := true } with pc := .wakeup j }
  | .wakeup j =>
    let t := s.threads_ j
    some { s.setThread j { t with wakeupFd_ := t.wakeupFd_ + 1 } with pc := .join j }
  | .join j =>
    let t := s.threads_ j
    if t.stage = .finished then
      some { s.setThread j { t with destroyed := true } with pc := .between }
    else none

def move (s : System) : Action → Option System
  | .next j =>
    if s.pc = .between ∧ j < s.count ∧ (s.threads_ j).destroyed = false then
      some { s with pc := .test j }
    else none
  | .destroyer => s.destroyerStep
  | .thread j => if j < s.count then (s.threads_ j).step.map fun t => s.setThread j t else none
  | .poll j n =>
    let t := s.threads_ j
    if j < s.count ∧ t.stage = .poll ∧ 0 < t.wakeupFd_ then
      -- `handleRead` takes the whole counter
      some (s.setThread j { t with wakeupFd_ := 0, stage := .work n })
    else none
  | .event j n =>
    let t := s.threads_ j
    if j < s.count ∧ t.stage = .poll then some (s.setThread j { t with stage := .work n }) else none
  | .queue j =>
    let t := s.threads_ j
    if j < s.count ∧ t.stage ≠ .finished then
      some (s.setThread j { t with wakeupFd_ := t.wakeupFd_ + 1 })
    else none
  | .quit j =>
    let t := s.threads_ j
    if j < s.count ∧ t.stage.working then some (s.setThread j { t with quit_ := true }) else none

/-- `quit` is called through a null pointer, or its loop has gone before it wakes it up. -/
def usesDeadLoop (s : System) (a : Action) : Bool :=
  match a, s.pc with
  | .destroyer, .store j => !(s.threads_ j).loop_
  | .destroyer, .wakeup j => decide ((s.threads_ j).stage = .finished)
  | _, _ => false

/-- A thread touches `mutex_` or `loop_` of an `EventLoopThread` that is gone. -/
def usesDeadThread (s : System) (a : Action) : Bool :=
  match a with
  | .thread j => (s.threads_ j).stage.onThread && (s.threads_ j).destroyed
  | _ => false

/-- `~EventLoopThreadPool` has returned. -/
def returned (s : System) : Bool :=
  decide (s.pc = .between) && (List.range s.count).all fun j => (s.threads_ j).destroyed

end System

/-- Nothing is said of what a process does that has used an object that is gone. -/
def step (s : System) (a : Action) : Option System :=
  if s.deadLoop || s.deadThread then none
  else
    (s.move a).map fun s' => { s' with
      deadLoop := s.usesDeadLoop a
      deadThread := s.usesDeadThread a }

/-! ## What an action does -/

/-- The thread that an action is about, and where the destroying thread stands, before and after. -/
inductive Move : Action → Nat → Pc → LoopThread → Pc → LoopThread → Prop
  | next {j : Nat} {t : LoopThread} (hd : t.destroyed = false) :
    Move (.next j) j .between t (.test j) t
  | look {j : Nat} {t : LoopThread} (hl : t.loop_ = true) :
    Move .destroyer j (.test j) t (.store j) t
  | detach {j : Nat} {t : LoopThread} (hl : t.loop_ = false) :
    Move .destroyer j (.test j) t .between { t with destroyed := true }
  | store {j : Nat} {t : LoopThread} :
    Move .destroyer j (.store j) t (.wakeup j) { t with quit_ := true }
  | wakeup {j : Nat} {t : LoopThread} :
    Move .destroyer j (.wakeup j) t (.join j) { t with wakeupFd_ := t.wakeupFd_ + 1 }
  | join {j : Nat} {t : LoopThread} (hst : t.stage = .finished) :
    Move .destroyer j (.join j) t .between { t with destroyed := true }
  | thread {j : Nat} {pc : Pc} {t t' : LoopThread} (hs : t.step = some t') :
    Move (.thread j) j pc t pc t'
  | poll {j n : Nat} {pc : Pc} {t : LoopThread} (hst : t.stage = .poll) (hw : 0 < t.wakeupFd_) :
    Move (.poll j n) j pc t pc { t with wakeupFd_ := 0, stage := .work n }
  | event {j n : Nat} {pc : Pc} {t : LoopThread} (hst : t.stage = .poll) :
    Move (.event j n) j pc t pc { t with stage := .work n }
  | queue {j : Nat} {pc : Pc} {t : LoopThread} (hst : t.stage ≠ .finished) :
    Move (.queue j) j pc t pc { t with wakeupFd_ := t.wakeupFd_ + 1 }
  | quit {j : Nat} {pc : Pc} {t : LoopThread} (hst : t.stage.working = true) :
    Move (.quit j) j pc t pc { t with quit_ := true }

section Steps

variable {s s' : System} {a : Action} {j k : Nat} {t t' u : LoopThread} {pc pc' : Pc}

theorem setThread_self (s : System) : s.setThread j (s.threads_ j) = s := by
  unfold System.setThread
  rw [Function.update_eq_self]

/-- An action changes one thread and where the destroying thread stands. -/
theorem move_cases (htarget : ∀ j, s.pc.target = some j → j < s.count) (hs : s.move a = some s') :
    ∃ j t', j < s.count ∧ Move a j s.pc (s.threads_ j) s'.pc t' ∧
      s' = { s.setThread j t' with pc := s'.pc } := by
  cases a with
  | next j =>
    simp only [System.move, Option.ite_none_right_eq_some, Option.some.injEq] at hs
    obtain ⟨⟨hpc, hj, hd⟩, rfl⟩ := hs
    refine ⟨j, s.threads_ j, hj, ?_, ?_⟩
    · rw [hpc]
      exact .next hd
    · rw [setThread_self]
  | destroyer =>
    unfold System.move System.destroyerStep at hs
    cases hpc : s.pc <;> simp only [hpc, reduceCtorEq, Option.some.injEq,
      Option.ite_none_right_eq_some] at hs
    case test j =>
      split at hs
      · rename_i hl
        obtain rfl := Option.some.inj hs
        exact ⟨j, s.threads_ j, htarget j (by rw [hpc]; rfl), .look hl, by rw [setThread_self]⟩
      · rename_i hl
        obtain rfl := Option.some.inj hs
        exact ⟨j, _, htarget j (by rw [hpc]; rfl), .detach (by simpa using hl), rfl⟩
    case store j =>
      obtain rfl := hs
      exact ⟨j, _, htarget j (by rw [hpc]; rfl), .store, rfl⟩
    case wakeup j =>
      obtain rfl := hs
      exact ⟨j, _, htarget j (by rw [hpc]; rfl), .wakeup, rfl⟩
    case join j =>
      obtain ⟨hst, rfl⟩ := hs
      exact ⟨j, _, htarget j (by rw [hpc]; rfl), .join hst, rfl⟩
  | thread j =>
    simp only [System.move, Option.ite_none_right_eq_some] at hs
    obtain ⟨hj, hs⟩ := hs
    obtain ⟨t', ht', rfl⟩ := Option.map_eq_some_iff.mp hs
    exact ⟨j, t', hj, .thread ht', rfl⟩
  | poll j n =>
    simp only [System.move, Option.ite_none_right_eq_some, Option.some.injEq] at hs
    obtain ⟨⟨hj, hst, hw⟩, rfl⟩ := hs
    exact ⟨j, _, hj, .poll hst hw, rfl⟩
  | event j n =>
    simp only [System.move, Option.ite_none_right_eq_some, Option.some.injEq] at hs
    obtain ⟨⟨hj, hst⟩, rfl⟩ := hs
    exact ⟨j, _, hj, .event hst, rfl⟩
  | queue j =>
    simp only [System.move, Option.ite_none_right_eq_some, Option.some.injEq] at hs
    obtain ⟨⟨hj, hst⟩, rfl⟩ := hs
    exact ⟨j, _, hj, .queue hst, rfl⟩
  | quit j =>
    simp only [System.move, Option.ite_none_right_eq_some, Option.some.injEq] at hs
    obtain ⟨⟨hj, hst⟩, rfl⟩ := hs
    exact ⟨j, _, hj, .quit hst, rfl⟩

/-- What every run keeps of one `EventLoopThread`. -/
structure Fits (pc : Pc) (j : Nat) (t : LoopThread) : Prop where
  target : pc.target = some j → t.destroyed = false
  loop : t.loop_ = t.stage.published
  woken : pc = .join j → t.quit_ = true → t.stage = .poll → 0 < t.wakeupFd_

/-- What a run keeps where nobody else calls `quit`. -/
structure Calm (pc : Pc) (j : Nat) (t : LoopThread) : Prop where
  serves : t.destroyed = false → pc.told ≠ some j → t.quit_ = false ∧ t.stage.inside = true
  gone : t.destroyed = true → t.stage = .finished

/-- The other threads are where they were. -/
theorem Move.other (h : Move a j pc t pc' t') (hne : k ≠ j) :
    (pc'.target = some k ↔ pc.target = some k) ∧ (pc'.told = some k ↔ pc.told = some k) ∧
      (pc' = .store k ↔ pc = .store k) ∧ (pc' = .wakeup k ↔ pc = .wakeup k) ∧
      (pc' = .join k ↔ pc = .join k) := by
  cases h <;> simp [Pc.target, Pc.told, hne.symm]

theorem Fits.other (h : Fits pc k u) (hm : Move a j pc t pc' t') (hne : k ≠ j) : Fits pc' k u := by
  obtain ⟨htarget, -, -, -, hjoin⟩ := hm.other hne
  exact ⟨fun hk => h.target (htarget.mp hk), h.loop, fun hk => h.woken (hjoin.mp hk)⟩

theorem Calm.other (h : Calm pc k u) (hm : Move a j pc t pc' t') (hne : k ≠ j) : Calm pc' k u := by
  obtain ⟨-, htold, -⟩ := hm.other hne
  exact ⟨fun hd hk => h.serves hd (fun hk' => hk (htold.mpr hk')), h.gone⟩

/-- The thread is inside `loop()`, or about to be, and `quit_` is not set or about to be reset. -/
def LoopThread.unseen (t : LoopThread) : Prop :=
  t.stage = .enter ∨ t.stage.inside = true ∧ t.quit_ = false

/-- One step of a loop's thread, at a glance. -/
structure Passes (t t' : LoopThread) : Prop where
  destroyed : t'.destroyed = t.destroyed
  loop : t.loop_ = t.stage.published → t'.loop_ = t'.stage.published
  published : t'.loop_ = true → t.loop_ = true
  polls : t'.quit_ = true → t'.stage ≠ .poll
  leaves : t.stage ≠ .finished
  enters : t'.stage ≠ .enter
  unseen : t'.unseen ↔ t.unseen

theorem step_passes (hs : t.step = some t') : Passes t t' := by
  unfold LoopThread.step at hs
  cases hst : t.stage with
  | work n =>
    cases n <;> (simp only [hst, Option.some.injEq] at hs; obtain rfl := hs)
    all_goals
      constructor <;> simp [hst, Stage.published, Stage.inside, LoopThread.unseen]
  | test =>
    simp only [hst, Option.some.injEq] at hs
    obtain rfl := hs
    constructor <;> cases hq : t.quit_ <;>
      simp [hst, hq, Stage.published, Stage.inside, LoopThread.unseen]
  | poll | finished =>
    simp only [hst, reduceCtorEq] at hs
  | enter | lock | clear | unlock | destruct =>
    simp only [hst, Option.some.injEq] at hs
    obtain rfl := hs
    constructor <;> simp [hst, Stage.published, Stage.inside, LoopThread.unseen]

theorem Fits.move (h : Fits pc j t) (hm : Move a j pc t pc' t') : Fits pc' j t' := by
  obtain ⟨htarget, hloop, hwoken⟩ := h
  cases hm with
  | next hd => exact ⟨fun _ => hd, hloop, fun hpc => by cases hpc⟩
  | look hl => exact ⟨fun _ => htarget rfl, hloop, fun hpc => by cases hpc⟩
  | detach hl => exact ⟨fun hpc => (by cases hpc), hloop, fun hpc => (by cases hpc)⟩
  | store => exact ⟨fun _ => htarget rfl, hloop, fun hpc => by cases hpc⟩
  | wakeup => exact ⟨fun _ => htarget rfl, hloop, fun _ _ _ => Nat.succ_pos _⟩
  | join hst => exact ⟨fun hpc => (by cases hpc), hloop, fun hpc => (by cases hpc)⟩
  | thread hs =>
    have hp := step_passes hs
    exact ⟨fun hpc => hp.destroyed.trans (htarget hpc), hp.loop hloop,
      fun _ hq hst => absurd hst (hp.polls hq)⟩
  | poll hst | event hst =>
    refine ⟨htarget, ?_, fun _ _ hst' => by cases hst'⟩
    rw [hst] at hloop
    exact hloop
  | queue hst => exact ⟨htarget, hloop, fun _ _ _ => Nat.succ_pos _⟩
  | quit hst =>
    refine ⟨htarget, hloop, fun _ _ hst' => ?_⟩
    rw [show t.stage = .poll from hst'] at hst
    cases hst

/-- A handler or functor calls `quit`. -/
def Action.user : Action → Bool
  | .quit _ => true
  | _ => false

theorem Calm.move (h : Calm pc j t) (hfits : Fits pc j t) (ha : a.user = false)
    (hm : Move a j pc t pc' t') : Calm pc' j t' := by
  obtain ⟨hserves, hgone⟩ := h
  cases hm with
  | next hd => exact ⟨fun _ _ => hserves hd (by simp [Pc.told]), hgone⟩
  | look hl => exact ⟨fun hd _ => hserves hd (by simp [Pc.told]), hgone⟩
  | detach hl =>
    -- a thread that serves has published its loop
    obtain ⟨-, hinside⟩ := hserves (hfits.target rfl) (by simp [Pc.told])
    have hloop := hfits.loop
    rw [hl] at hloop
    cases hst : t.stage <;> simp [hst, Stage.inside, Stage.published] at hinside hloop
  | store | wakeup => exact ⟨fun _ hne => absurd rfl hne, hgone⟩
  | join hst => exact ⟨fun hd => (by cases hd), fun _ => hst⟩
  | thread hs =>
    have hp := step_passes hs
    refine ⟨fun hd hne => ?_, fun hd => absurd (hgone (hp.destroyed.symm.trans hd)) hp.leaves⟩
    obtain ⟨hq, hin⟩ := hserves (hp.destroyed.symm.trans hd) hne
    have hunseen := (hp.unseen.mpr (.inr ⟨hin, hq⟩)).resolve_left hp.enters
    exact ⟨hunseen.2, hunseen.1⟩
  | poll hst | event hst =>
    refine ⟨fun hd hne => ⟨(hserves hd hne).1, rfl⟩, fun hd => ?_⟩
    rw [hgone hd] at hst
    cases hst
  | queue hst => exact ⟨hserves, hgone⟩
  | quit hst => cases ha

/-! ## What every run keeps -/

structure Inv (s : System) : Prop where
  fits : ∀ j, Fits s.pc j (s.threads_ j)
  within : ∀ j, s.pc.target = some j → j < s.count

theorem inv_started (count : Nat) : Inv (started count) where
  fits j := ⟨fun _ => rfl, rfl, fun hpc => by cases hpc⟩
  within j hpc := by cases hpc

theorem step_alive (hs : step s a = some s') : s.deadLoop = false ∧ s.deadThread = false ∧
    s'.deadLoop = s.usesDeadLoop a ∧ s'.deadThread = s.usesDeadThread a := by
  simp only [step, Option.ite_none_left_eq_some, Bool.or_eq_true, not_or, Bool.not_eq_true] at hs
  obtain ⟨⟨hloop, hthread⟩, hs⟩ := hs
  obtain ⟨m, -, rfl⟩ := Option.map_eq_some_iff.mp hs
  exact ⟨hloop, hthread, rfl, rfl⟩

theorem step_of_move (hm : s.move a = some s') (hloop : s.deadLoop = false)
    (hthread : s.deadThread = false) :
    step s a = some { s' with
      deadLoop := s.usesDeadLoop a
      deadThread := s.usesDeadThread a } := by
  rw [step, hloop, hthread, hm]
  rfl

/-- The inversion of a step. -/
theorem Inv.cases (h : Inv s) (hs : step s a = some s') : ∃ j t', j < s.count ∧
    Move a j s.pc (s.threads_ j) s'.pc t' ∧ s'.count = s.count ∧
    s'.threads_ = Function.update s.threads_ j t' := by
  simp only [step, Option.ite_none_left_eq_some] at hs
  obtain ⟨-, hs⟩ := hs
  obtain ⟨m, hm, rfl⟩ := Option.map_eq_some_iff.mp hs
  obtain ⟨j, t', hj, hmove, heq⟩ := move_cases h.within hm
  refine ⟨j, t', hj, hmove, ?_, ?_⟩
  · show m.count = s.count
    rw [heq]
    rfl
  · show m.threads_ = _
    rw [heq]
    rfl

/-- The rule for what is kept of each `EventLoopThread`: only one of them moves. -/
theorem Inv.each {P : Pc → Nat → LoopThread → Prop} (h : Inv s) (hs : step s a = some s')
    (hall : ∀ j, P s.pc j (s.threads_ j))
    (hmoved : ∀ {j t'}, Move a j s.pc (s.threads_ j) s'.pc t' → P s'.pc j t')
    (hother : ∀ {j k t t' u}, Move a j s.pc t s'.pc t' → k ≠ j → P s.pc k u → P s'.pc k u) :
    ∀ j, P s'.pc j (s'.threads_ j) := by
  obtain ⟨j, t', -, hm, -, hthreads⟩ := h.cases hs
  intro k
  rw [hthreads]
  by_cases hk : k = j
  · subst hk
    rw [Function.update_self]
    exact hmoved hm
  · rw [Function.update_of_ne hk]
    exact hother hm hk (hall k)

theorem Inv.step (h : Inv s) (hs : PoolStop.step s a = some s') : Inv s' := by
  constructor
  · exact h.each hs h.fits (fun hm => (h.fits _).move hm) (fun hm hk hu => hu.other hm hk)
  · obtain ⟨j, t', hj, hm, hcount, -⟩ := h.cases hs
    intro k hpc
    rw [hcount]
    by_cases hk : k = j
    · exact hk ▸ hj
    · exact h.within k ((hm.other hk).1.mp hpc)

/-- What a run keeps in which nobody else calls `quit`. -/
structure Undisturbed (s : System) : Prop where
  inv : Inv s
  calm : ∀ j, Calm s.pc j (s.threads_ j)

theorem Undisturbed.step (h : Undisturbed s) (ha : a.user = false)
    (hs : PoolStop.step s a = some s') : Undisturbed s' where
  inv := h.inv.step hs
  calm := h.inv.each hs h.calm (fun hm => (h.calm _).move (h.inv.fits _) ha hm)
    (fun hm hk hu => hu.other hm hk)

/-- A thread that has been destroyed has come to its end. -/
theorem Undisturbed.usesDeadThread (h : Undisturbed s) (a : Action) :
    s.usesDeadThread a = false := by
  cases a with
  | thread j =>
    cases hd : (s.threads_ j).destroyed with
    | false => simp [System.usesDeadThread, hd]
    | true => simp [System.usesDeadThread, (h.calm j).gone hd, Stage.onThread]
  | _ => rfl

/-- The wakeup may come too late, the store does not. -/
theorem Undisturbed.usesDeadLoop (h : Undisturbed s) (hu : s.usesDeadLoop a = true) :
    a = .destroyer ∧ ∃ j, s.pc = .wakeup j ∧ (s.threads_ j).stage = .finished := by
  unfold System.usesDeadLoop at hu
  split at hu
  · rename_i j hpc
    obtain ⟨-, hinside⟩ := (h.calm j).serves ((h.inv.fits j).target (by rw [hpc]; rfl))
      (by rw [hpc]; simp [Pc.told])
    have hloop := (h.inv.fits j).loop
    cases hst : (s.threads_ j).stage <;> simp_all [Stage.inside, Stage.published]
  · rename_i j hpc
    exact ⟨rfl, j, hpc, of_decide_eq_true hu⟩
  · cases hu

theorem Undisturbed.exec {as : List Action} (h : Undisturbed s)
    (hquit : ∀ a ∈ as, a.user = false) (hr : Execution.exec PoolStop.step s as = some s') :
    Undisturbed s' :=
  Execution.exec_invariant Undisturbed (fun _ _ _ h ha hs => h.step ha hs) h
    (Execution.guarded_of_forall hquit s) hr

end Steps

end Mymuduo.PoolStop
