import Mymuduo.Loop.Startup

/-!
# A loop on a thread of its own

`startLoop` starts a thread that constructs the loop, runs the init callback on
it, publishes `loop_` and only then calls `loop()`. `~EventLoopThread` quits the
loop that it finds in `loop_` and joins the thread. Any thread that holds the
pointer calls the loop meanwhile, `loop()` not yet entered included. A call on a
loop that its thread has left is not a step: the pointer dangles there.
-/

namespace Mymuduo.Loop

open Mymuduo.Library
open Mymuduo.Library.Execution

universe u v

/-- Where the new thread stands in `threadFunc`. -/
inductive Stage
  | notStarted
  | created
  /-- the loop exists, the init callback runs -/
  | callback
  /-- `loop_` is stored, the thread is in `loop()` or about to call it -/
  | published
  | finished
  deriving DecidableEq, Repr

/-- Where the owner of the `EventLoopThread` stands. -/
inductive Owner
  | constructed
  /-- in `startLoop`, waiting for `loop_` -/
  | starting
  /-- `startLoop` has returned -/
  | running
  /-- in the destructor, `exiting_` stored -/
  | exiting
  /-- `loop_` was not null, `quit` to come -/
  | quitting
  /-- `quit_` stored, the wakeup to come -/
  | waking
  | joining
  | destroyed
  deriving DecidableEq, Repr

structure EventLoopThread (T : Type v) (F : Type u) where
  stage : Stage := .notStarted
  owner : Owner := .constructed
  /-- `loop_ != nullptr` -/
  loop_ : Bool := false
  exiting_ : Bool := false
  /-- the loop on the new thread's stack -/
  inner : Startup T F := {}

namespace EventLoopThread

variable {T : Type v} {F : Type u}

inductive Action (T : Type v) (F : Type u)
  -- startLoop: `thread_.start()`, and the end of its wait for `loop_`
  | start
  | take
  -- threadFunc: the loop is constructed, `loop_` stored after the callback, and
  -- set back to null after `loop()`
  | construct
  | publish
  | leave
  -- ~EventLoopThread, with `quit` in its two halves
  | exit
  | testLoop
  | quit
  | wakeup
  | join
  /-- the loop's thread, or a thread that holds its pointer -/
  | use (a : EventLoop.Action T F)
  deriving DecidableEq, Repr

/-- The thread that makes a call; `none` is the loop's own. -/
def who : EventLoop.Action T F → Option T
  | .loop | .poll _ => none
  | .queueInLoop who _ | .quit who | .finishCall who => who

variable [DecidableEq T]

/-- The init callback calls the loop before `loop()` does, everything else on
the thread happens in `loop()`; the owner has the pointer from `startLoop`. -/
def mayUse (me : T) (s : EventLoopThread T F) (a : EventLoop.Action T F) : Bool :=
  match who a, s.stage with
  | some t, .callback | some t, .published => t ≠ me || s.owner = .running
  | none, .callback =>
    match a with
    | .loop | .poll _ => false
    | _ => true
  | none, .published =>
    match a with
    | .loop | .poll _ => true
    | _ => !s.inner.loop.pc.starting
  | _, _ => false

def step (me : T) (s : EventLoopThread T F) : Action T F → Option (EventLoopThread T F)
  | .start =>
    if s.owner = .constructed then some { s with owner := .starting, stage := .created } else none
  | .construct => if s.stage = .created then some { s with stage := .callback } else none
  | .publish =>
    if s.stage = .callback ∧ s.inner.loop.caller none = .idle then
      some { s with stage := .published, loop_ := true }
    else none
  | .take => if s.owner = .starting ∧ s.loop_ then some { s with owner := .running } else none
  | .leave =>
    match s.stage, s.inner.loop.pc with
    | .published, .returned => some { s with stage := .finished, loop_ := false }
    | _, _ => none
  | .exit =>
    if s.owner = .constructed ∨ s.owner = .running ∧ s.inner.loop.caller (some me) = .idle then
      some { s with owner := .exiting, exiting_ := true }
    else none
  | .testLoop =>
    if s.owner = .exiting then
      some { s with owner := if s.loop_ then .quitting else .destroyed }
    else none
  | .quit =>
    if s.owner = .quitting ∧ s.loop_ then
      (s.inner.step (.quit (some me))).map fun inner => { s with owner := .waking, inner := inner }
    else none
  | .wakeup =>
    if s.owner = .waking ∧ s.loop_ then
      (s.inner.step (.finishCall (some me))).map fun inner =>
        { s with owner := .joining, inner := inner }
    else none
  | .join =>
    if s.owner = .joining ∧ s.stage = .finished then some { s with owner := .destroyed } else none
  | .use a =>
    if s.mayUse me a then (s.inner.step a).map fun inner => { s with inner := inner } else none

/-- The calls on the loop come in time. -/
def InTime (me : T) (s : EventLoopThread T F) : Action T F → Prop
  | .quit => s.inner.InTime (.quit (some me))
  | .use a => s.inner.InTime a
  | _ => True

instance (me : T) (s : EventLoopThread T F) : ∀ a, Decidable (s.InTime me a)
  | .quit => inferInstanceAs (Decidable (s.inner.InTime (.quit (some me))))
  | .use a => inferInstanceAs (Decidable (s.inner.InTime a))
  | .start | .construct | .publish | .take | .leave | .exit | .testLoop | .wakeup | .join =>
    .isTrue trivial

structure Kept (me : T) (s : EventLoopThread T F) : Prop where
  inner : s.inner.Kept
  fresh : s.owner = .constructed → s.stage = .notStarted
  published : s.loop_ = true → s.stage = .published
  left : s.owner = .quitting ∨ s.owner = .waking ∨ s.owner = .joining →
    s.stage = .published ∨ s.stage = .finished
  waking : s.owner = .waking → s.inner.loop.caller (some me) = .stored
  joining : s.owner = .joining → s.inner.quitDone = true

omit [DecidableEq T] in
theorem kept_constructed (me : T) : Kept me ({} : EventLoopThread T F) where
  inner := Startup.kept_constructed
  fresh _ := rfl
  published hl := by cases hl
  left ho := by simp at ho
  waking ho := by cases ho
  joining ho := by cases ho

omit [DecidableEq T] in
theorem Kept.started {me : T} {s : EventLoopThread T F} (h : s.Kept me)
    (hst : s.stage ≠ .notStarted) : s.owner ≠ .constructed := fun ho => hst (h.fresh ho)

/-! ## One step -/

/-- The calls of one thread leave another where it is. -/
theorem caller_step {l l' : EventLoop T F} {a : EventLoop.Action T F} {t : T}
    (hs : l.step a = some l') (hne : who a ≠ some t) :
    l'.caller (some t) = l.caller (some t) := by
  cases a with
  | loop => rw [(EventLoop.loopStep_frame (EventLoop.step_loop hs).2).1]
  | poll active =>
    obtain ⟨-, -, rfl⟩ := EventLoop.step_poll hs
    rfl
  | queueInLoop w cb =>
    obtain ⟨-, -, rfl⟩ := EventLoop.step_queueInLoop hs
    exact EventLoop.emplaceBack_caller_of_ne l cb (Ne.symm hne)
  | quit w =>
    obtain ⟨-, -, rfl⟩ := EventLoop.step_quit hs
    exact EventLoop.storeQuit_caller_of_ne l (Ne.symm hne)
  | finishCall w =>
    obtain ⟨k, -, rfl⟩ | ⟨-, rfl⟩ := EventLoop.finishCall_cases hs
    · exact Function.update_of_ne (Ne.symm hne) _ _
    · exact Function.update_of_ne (Ne.symm hne) _ _

/-- The owner calls the loop on its own account only after `startLoop` and before
the destructor. -/
theorem who_of_mayUse {me : T} {s : EventLoopThread T F} {a : EventLoop.Action T F}
    (h : s.mayUse me a = true) (ho : s.owner ≠ .running) : who a ≠ some me := by
  intro hw
  unfold mayUse at h
  rw [hw] at h
  cases hst : s.stage <;> simp [hst, ho] at h

section

variable {me : T} {s s' : EventLoopThread T F}

theorem kept_use (h : s.Kept me) {a : EventLoop.Action T F} (hok : s.InTime me (.use a))
    (hs : s.step me (.use a) = some s') : s'.Kept me := by
  simp only [step, Option.ite_none_right_eq_some] at hs
  obtain ⟨hmay, hs⟩ := hs
  obtain ⟨inner, hstep, rfl⟩ := Option.map_eq_some_iff.mp hs
  refine ⟨Startup.kept_step h.inner hok hstep, h.fresh, h.published, h.left, fun ho => ?_,
    fun ho => ?_⟩
  · have howner : s.owner = .waking := ho
    have hother := who_of_mayUse hmay (by rw [howner]; decide)
    obtain ⟨l, hl, rfl⟩ := Option.map_eq_some_iff.mp hstep
    exact (caller_step hl hother).trans (h.waking ho)
  · obtain ⟨l, hl, rfl⟩ := Option.map_eq_some_iff.mp hstep
    show (s.inner.quitDone || _) = true
    rw [h.joining ho, Bool.true_or]

theorem kept_quit (h : s.Kept me) (hok : s.InTime me .quit) (hs : s.step me .quit = some s') :
    s'.Kept me := by
  simp only [step, Option.ite_none_right_eq_some] at hs
  obtain ⟨⟨howner, -⟩, hs⟩ := hs
  obtain ⟨inner, hstep, rfl⟩ := Option.map_eq_some_iff.mp hs
  have hlate : s.inner.InTime (.quit (some me)) := hok
  refine ⟨Startup.kept_step h.inner hlate hstep, by simp, h.published,
    fun _ => h.left (.inl howner), fun _ => ?_, fun ho => ?_⟩
  · obtain ⟨l, hl, rfl⟩ := Option.map_eq_some_iff.mp hstep
    obtain ⟨-, -, rfl⟩ := EventLoop.step_quit hl
    exact Function.update_self _ _ _
  · cases ho

theorem kept_wakeup (h : s.Kept me) (hs : s.step me .wakeup = some s') : s'.Kept me := by
  simp only [step, Option.ite_none_right_eq_some] at hs
  obtain ⟨⟨howner, -⟩, hs⟩ := hs
  obtain ⟨inner, hstep, rfl⟩ := Option.map_eq_some_iff.mp hs
  have hany : s.inner.InTime (.finishCall (some me)) := trivial
  refine ⟨Startup.kept_step h.inner hany hstep, by simp, h.published,
    fun _ => h.left (.inr (.inl howner)), fun ho => ?_, fun _ => ?_⟩
  · cases ho
  · obtain ⟨l, hl, rfl⟩ := Option.map_eq_some_iff.mp hstep
    show (s.inner.quitDone || s.inner.loop.caller (some me) == .stored) = true
    rw [h.waking howner, beq_self_eq_true, Bool.or_true]

theorem kept_step {a : Action T F} (h : s.Kept me) (hok : s.InTime me a)
    (hs : s.step me a = some s') : s'.Kept me := by
  cases a with
  | use a => exact kept_use h hok hs
  | quit => exact kept_quit h hok hs
  | wakeup => exact kept_wakeup h hs
  | start =>
    simp only [step, Option.ite_none_right_eq_some, Option.some.injEq] at hs
    obtain ⟨howner, rfl⟩ := hs
    refine ⟨h.inner, by simp, fun hl => ?_, by simp, by simp, by simp⟩
    have hstage := h.published hl
    rw [h.fresh howner] at hstage
    cases hstage
  | construct =>
    simp only [step, Option.ite_none_right_eq_some, Option.some.injEq] at hs
    obtain ⟨hstage, rfl⟩ := hs
    have hfresh : s.owner ≠ .constructed := h.started (by rw [hstage]; decide)
    refine ⟨h.inner, fun ho => absurd ho hfresh, fun hl => ?_, fun ho => ?_, h.waking, h.joining⟩
    · have hpublished := h.published hl
      rw [hstage] at hpublished
      cases hpublished
    · have hleft := h.left ho
      rw [hstage] at hleft
      simp at hleft
  | publish =>
    simp only [step, Option.ite_none_right_eq_some, Option.some.injEq] at hs
    obtain ⟨⟨hstage, -⟩, rfl⟩ := hs
    have hfresh : s.owner ≠ .constructed := h.started (by rw [hstage]; decide)
    exact ⟨h.inner, fun ho => absurd ho hfresh, fun _ => rfl, fun _ => .inl rfl, h.waking,
      h.joining⟩
  | take =>
    simp only [step, Option.ite_none_right_eq_some, Option.some.injEq] at hs
    obtain ⟨⟨howner, hl⟩, rfl⟩ := hs
    exact ⟨h.inner, by simp, h.published, by simp, by simp, by simp⟩
  | leave =>
    simp only [step] at hs
    split at hs
    · rename_i hstage _
      obtain rfl := Option.some.inj hs
      have hfresh : s.owner ≠ .constructed := h.started (by rw [hstage]; decide)
      exact ⟨h.inner, fun ho => absurd ho hfresh, by simp, fun _ => .inr rfl, h.waking, h.joining⟩
    · cases hs
  | exit =>
    simp only [step, Option.ite_none_right_eq_some, Option.some.injEq] at hs
    obtain ⟨-, rfl⟩ := hs
    exact ⟨h.inner, by simp, h.published, by simp, by simp, by simp⟩
  | testLoop =>
    simp only [step, Option.ite_none_right_eq_some, Option.some.injEq] at hs
    obtain ⟨howner, rfl⟩ := hs
    refine ⟨h.inner, ?_, h.published, fun ho => .inl (h.published ?_), ?_, ?_⟩
    · dsimp only
      split <;> simp
    · by_contra hl
      rw [if_neg hl] at ho
      simp at ho
    · dsimp only
      split <;> simp
    · dsimp only
      split <;> simp
  | join =>
    simp only [step, Option.ite_none_right_eq_some, Option.some.injEq] at hs
    obtain ⟨⟨howner, hstage⟩, rfl⟩ := hs
    exact ⟨h.inner, by simp, h.published, by simp, by simp, by simp⟩

end

/-! ## The join returns -/

/-- What the loop's thread does by itself. -/
def Action.unaided : Action T F → Bool
  | .use a => a.unaided
  | .leave => true
  | _ => false

/-- The loop's thread alone can bring its end about, so that the join returns. -/
def CanJoin (me : T) (s : EventLoopThread T F) : Prop :=
  ∃ as : List (Action T F), (∀ a ∈ as, a.unaided = true) ∧
    ∃ s', exec (step me) s (as ++ [.join]) = some s'

/-- The thread in `loop()` takes the steps of the loop. -/
theorem step_use (me : T) {s : EventLoopThread T F} {a : EventLoop.Action T F} {l : EventLoop T F}
    (ha : a.unaided = true) (hst : s.stage = .published)
    (hpc : s.inner.loop.pc.starting = false) (hl : s.inner.loop.step a = some l) :
    ∃ s', s.step me (.use a) = some s' ∧ s'.inner.loop = l ∧ s'.stage = .published ∧
      s'.owner = s.owner ∧ l.pc.starting = false := by
  have hmay : s.mayUse me a = true := by
    unfold mayUse
    cases a with
    | loop | poll active => rw [hst]; rfl
    | queueInLoop w cb | quit w => cases ha
    | finishCall w =>
      cases w with
      | none => simp [who, hst, hpc]
      | some t => cases ha
  have hlater : l.pc.starting = false := by
    cases a with
    | loop =>
      by_contra hs
      have hout := (EventLoop.loopStep_request (EventLoop.step_loop hl).2).2.1 (by simpa using hs)
      rw [hout] at hpc
      cases hpc
    | poll active =>
      obtain ⟨-, -, rfl⟩ := EventLoop.step_poll hl
      rfl
    | queueInLoop w cb | quit w => cases ha
    | finishCall w => obtain ⟨k, -, rfl⟩ | ⟨-, rfl⟩ := EventLoop.finishCall_cases hl <;> exact hpc
  refine ⟨{ s with inner := {
    loop := l
    quitDone := s.inner.quitDone || s.inner.loop.completesQuit a
    early := s.inner.early ++ (s.inner.loop.completesEarly a).toList } }, ?_, rfl, hst, rfl, hlater⟩
  rw [step, if_pos hmay, Startup.step, hl]
  rfl

theorem canJoin_of_canReturn {me : T} (as : List (EventLoop.Action T F)) :
    ∀ {s : EventLoopThread T F}, (∀ a ∈ as, a.unaided = true) → s.stage = .published →
      s.owner = .joining → s.inner.loop.pc.starting = false →
      (∃ l, exec EventLoop.step s.inner.loop as = some l ∧ l.pc = .returned) → s.CanJoin me := by
  induction as with
  | nil =>
    rintro s - hst ho - ⟨l, hr, hpc⟩
    obtain rfl := Option.some.inj hr
    refine ⟨[.leave], by simp [Action.unaided], { s with
      stage := .finished, loop_ := false, owner := .destroyed }, ?_⟩
    simp [exec, step, hst, hpc, ho]
  | cons a as ih =>
    rintro s hown hst ho hpc ⟨l, hr, hret⟩
    obtain ⟨l', hl', hrest⟩ := exec_cons_some.mp hr
    obtain ⟨s', hs', rfl, hst', ho', hpc'⟩ :=
      step_use me (hown a List.mem_cons_self) hst hpc hl'
    obtain ⟨bs, hbs, s'', hs''⟩ := ih (fun b hb => hown b (List.mem_cons_of_mem a hb)) hst'
      (ho'.trans ho) hpc' ⟨l, hrest, hret⟩
    refine ⟨.use a :: bs, fun b hb => ?_, s'', exec_cons_some.mpr ⟨s', hs', hs''⟩⟩
    obtain rfl | hb := List.mem_cons.mp hb
    · exact hown a List.mem_cons_self
    · exact hbs b hb

theorem Kept.canJoin {me : T} {s : EventLoopThread T F} (h : s.Kept me) (ho : s.owner = .joining) :
    s.CanJoin me := by
  obtain hst | hst := h.left (.inr (.inr ho))
  · have hstop := h.inner.stopping (h.joining ho)
    obtain ⟨as, hown, hr⟩ := hstop.canReturn
    exact canJoin_of_canReturn as hown hst ho hstop.started hr
  · exact ⟨[], by simp, { s with owner := .destroyed }, by simp [exec, step, ho, hst]⟩

end EventLoopThread

/-! ## Whole runs -/

section

variable [DecidableEq T]

/-- Requests that come in time take effect: after a completed `quit` the loop's
thread finds `quit_` and is not kept in `epoll_wait`, no functor queued before
the first stores is left to a sleeping loop, and `~EventLoopThread` joins a
thread that ends. -/
theorem requests_take_effect (me : T) :
    (∀ (as : List (EventLoop.Action T F)) (s : Startup T F),
      Guarded Startup.step Startup.InTime {} as → exec Startup.step {} as = some s →
        (s.quitDone = true → s.loop.Stopping) ∧
          (s.loop.pc = .poll → s.loop.wakeupFd_ = 0 →
            ∀ k ∈ s.early, k ∉ tickets s.loop.pendingFunctors_)) ∧
    (∀ (as : List (EventLoopThread.Action T F)) (s : EventLoopThread T F),
      Guarded (EventLoopThread.step me) (EventLoopThread.InTime me) {} as →
        exec (EventLoopThread.step me) {} as = some s → s.owner = .joining →
          s.inner.loop.Stopping ∧ s.CanJoin me) := by
  constructor
  · intro as s hg hr
    have hk : s.Kept := exec_invariant Startup.Kept
      (fun _ _ _ h hok hs => Startup.kept_step h hok hs) Startup.kept_constructed hg hr
    refine ⟨hk.stopping, fun hpc hzero k hk' hp => ?_⟩
    have hpos := hk.covered (by rw [hpc]; rfl) k hk' hp
    rw [hzero] at hpos
    exact Nat.lt_irrefl 0 hpos
  · intro as s hg hr ho
    have hk : s.Kept me := exec_invariant (EventLoopThread.Kept me)
      (fun _ _ _ h hok hs => EventLoopThread.kept_step h hok hs)
      (EventLoopThread.kept_constructed me) hg hr
    exact ⟨hk.inner.stopping (hk.joining ho), hk.canJoin ho⟩

/-- `startLoop` returns, the functor and the destructor's `quit` come while the
loop polls, and the batch is run before the loop is left. -/
def lateDestructor : List (EventLoopThread.Action Unit Unit) :=
  [.start, .construct, .publish, .take, .use .loop, .use .loop, .use .loop,
    .use (.queueInLoop (some ()) ()), .use (.finishCall (some ())), .exit, .testLoop, .quit,
    .wakeup]

/-- Another thread queues a functor before `loop()` is called, and wakes it. -/
def earlyFunctor : List (EventLoop.Action Unit Unit) :=
  [.queueInLoop (some ()) (), .finishCall (some ()), .loop, .loop, .loop]

theorem requests_take_effect_late :
    (∃ s : EventLoopThread Unit Unit,
      exec (EventLoopThread.step ()) {} lateDestructor = some s ∧ s.owner = .joining ∧
        s.inner.loop.Stopping ∧ s.CanJoin ()) ∧
      ∃ s : Startup Unit Unit,
        exec Startup.step {} earlyFunctor = some s ∧ s.loop.pc = .poll ∧ s.early = [0] ∧
          (s.loop.wakeupFd_ = 0 → ∀ k ∈ s.early, k ∉ tickets s.loop.pendingFunctors_) :=
  ⟨⟨_, rfl, rfl, (requests_take_effect ()).2 lateDestructor _ (by decide) rfl rfl⟩,
    _, rfl, rfl, rfl, ((requests_take_effect ()).1 earlyFunctor _ (by decide) rfl).2 rfl⟩

/-- The destructor runs as soon as `startLoop` has returned; then `loop()` stores
`quit_ = false`, and its first poll takes the wakeup. -/
def earlyDestructor : List (EventLoopThread.Action Unit Unit) :=
  [.start, .construct, .publish, .take, .exit, .testLoop, .quit, .wakeup, .use .loop, .use .loop,
    .use .loop, .use (.poll [.wakeupChannel]), .use .loop, .use .loop, .use .loop, .use .loop,
    .use .loop, .use .loop, .use .loop]

/-- The join waits for a loop that polls with `quit_` false and nothing to wake
it, and a functor of the init callback waits in a loop that sleeps. -/
theorem requests_lost :
    (∃ s : EventLoopThread Unit Unit,
      exec (EventLoopThread.step ()) {} earlyDestructor = some s ∧ s.owner = .joining ∧
        s.inner.quitDone = true ∧ s.inner.loop.pc = .poll ∧ s.inner.loop.quit_ = false ∧
        s.inner.loop.wakeupFd_ = 0) ∧
      ∃ s : Startup Unit Unit,
        exec Startup.step {} [.queueInLoop none (), .finishCall none, .loop, .loop, .loop] =
            some s ∧
          s.loop.pc = .poll ∧ s.loop.wakeupFd_ = 0 ∧
          ∃ k ∈ s.early, k ∈ tickets s.loop.pendingFunctors_ :=
  ⟨⟨_, rfl, rfl, rfl, rfl, rfl, rfl⟩, _, rfl, rfl, rfl, 0, by decide, by decide⟩

end

end Mymuduo.Loop
