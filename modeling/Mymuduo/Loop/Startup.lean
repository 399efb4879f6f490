import Mymuduo.Loop.Quit
import Mymuduo.Loop.TaskOrder
import Mymuduo.Loop.Wakeup

/-!
# Requests that come before the loop runs

A loop can be called as soon as it is constructed, but `loop()` begins with
`quit_ = false`, which takes back a `quit` that came earlier, and a functor that
the init callback queues on its own thread wakes nobody. A request made before
these stores takes effect where no `quit` is among them and, if functors are,
the counter is positive when `loop()` is called.
-/

namespace Mymuduo.Loop

open Mymuduo.Library
open Mymuduo.Library.Execution

universe u v

variable {T : Type v} {F : Type u}

/-- `loop()` has not executed its first stores. -/
def Pc.starting : Pc F → Bool
  | .outside | .entered => true
  | _ => false

/-- A loop with the calls that have completed. -/
structure Startup (T : Type v) (F : Type u) where
  loop : EventLoop T F := .constructed
  /-- history: a call of `quit` has completed -/
  quitDone : Bool := false
  /-- history: the tickets whose `queueInLoop` was completed before the first stores -/
  early : List Nat := []

namespace EventLoop

/-- The step completes a call of `quit`. -/
def completesQuit (l : EventLoop T F) : Action T F → Bool
  | .quit none => true
  | .finishCall who => l.caller who == .stored
  | _ => false

/-- The ticket whose `queueInLoop` the step completes before the first stores. -/
def completesEarly (l : EventLoop T F) : Action T F → Option Nat
  | .finishCall who =>
    match l.caller who with
    | .pushed k => if l.pc.starting then some k else none
    | _ => none
  | _ => none

/-- The loop's thread will find `quit_` and cannot be kept from it by `epoll_wait`. -/
structure Stopping (l : EventLoop T F) : Prop where
  quit : l.quit_ = true
  started : l.pc.starting = false
  woken : l.pc = .poll → 0 < l.wakeupFd_

end EventLoop

namespace Startup

variable [DecidableEq T]

def step (s : Startup T F) (a : EventLoop.Action T F) : Option (Startup T F) :=
  (s.loop.step a).map fun loop =>
    { loop := loop
      quitDone := s.quitDone || s.loop.completesQuit a
      early := s.early ++ (s.loop.completesEarly a).toList }

/-- `quit_` is stored after the first stores of `loop()`, and `loop()` is called
with a positive counter if a functor has been queued before. -/
def InTime (s : Startup T F) : EventLoop.Action T F → Prop
  | .quit _ => s.loop.pc.starting = false
  | .loop =>
    match s.loop.pc with
    | .outside => 0 < s.loop.wakeupFd_ ∨ s.early = []
    | _ => True
  | _ => True

instance (s : Startup T F) : ∀ a, Decidable (s.InTime a)
  | .quit _ => inferInstanceAs (Decidable (_ = _))
  | .loop =>
    match h : s.loop.pc with
    | .outside => decidable_of_iff (0 < s.loop.wakeupFd_ ∨ s.early = []) (by simp [InTime, h])
    | .entered | .test | .poll | .handle _ | .mark | .swap | .call _ | .unmark | .leave
    | .returned => .isTrue (by simp [InTime, h])
  | .poll _ | .queueInLoop _ _ | .finishCall _ => .isTrue trivial

structure Kept (s : Startup T F) : Prop where
  window : s.loop.pc.starting = true →
    s.quitDone = false ∧ ∀ who, s.loop.caller who ≠ .stored
  stored : s.quitDone = true ∨ (∃ who, s.loop.caller who = .stored) → s.loop.quit_ = true
  woken : s.quitDone = true → s.loop.pc = .poll → 0 < s.loop.wakeupFd_
  own : s.loop.caller none ≠ .idle → s.loop.pc.userCode = true
  issued : ∀ k, k ∈ s.early ∨ (∃ who, s.loop.caller who = .pushed k) → k < s.loop.emplaced.length
  covered : s.loop.pc.armed = true →
    ∀ k ∈ s.early, k ∈ tickets s.loop.pendingFunctors_ → 0 < s.loop.wakeupFd_

omit [DecidableEq T] in
theorem kept_constructed : Kept ({} : Startup T F) where
  window _ := ⟨rfl, by simp [EventLoop.constructed]⟩
  stored := by simp [EventLoop.constructed]
  woken hq := by cases hq
  own ho := absurd rfl ho
  issued := by simp [EventLoop.constructed]
  covered _ k hk := by cases hk

omit [DecidableEq T] in
/-- What has been asked for keeps its effect. -/
theorem Kept.stopping {s : Startup T F} (h : s.Kept) (hq : s.quitDone = true) :
    s.loop.Stopping where
  quit := h.stored (.inl hq)
  started := by
    by_contra hs
    rw [Bool.not_eq_false] at hs
    rw [(h.window hs).1] at hq
    cases hq
  woken := h.woken hq

end Startup

/-! ## One step -/

/-- What the loop's own statements mean to a request. -/
theorem EventLoop.loopStep_request {l l' : EventLoop T F} (h : l.loopStep = some l') :
    (l.pc ≠ .entered → l'.quit_ = l.quit_) ∧ (l'.pc.starting = true → l.pc = .outside) ∧
      (l'.pc = .poll → l.quit_ = false) ∧
      (l'.pc.armed = true → l'.pendingFunctors_ = [] ∨
        (l.pc = .outside ∨ l.pc.armed = true) ∧ l'.wakeupFd_ = l.wakeupFd_ ∧
          l'.pendingFunctors_ = l.pendingFunctors_) := by
  unfold loopStep at h
  split at h
  case h_3 hpc =>
    obtain rfl := Option.some.inj h
    cases hq : l.quit_ <;> simp [hpc, Pc.starting, Pc.armed, pendingFunctors_]
  case h_10 hpc =>
    cases hst : l.queue.start with
    | none =>
      rw [hst] at h
      obtain rfl := Option.some.inj h
      simp [hpc, Pc.starting, Pc.armed, pendingFunctors_]
    | some fq =>
      obtain ⟨f, q⟩ := fq
      rw [hst] at h
      obtain rfl := Option.some.inj h
      obtain ⟨-, -, hpend, -⟩ := TaskQueue.waiting_of_start hst
      simp [hpc, Pc.starting, Pc.armed, pendingFunctors_, hpend]
  case h_4 | h_14 => cases h
  all_goals
    rename_i hpc
    obtain rfl := Option.some.inj h
    simp [hpc, Pc.starting, Pc.armed, pendingFunctors_, TaskQueue.finish]

namespace Startup

variable [DecidableEq T] {s s' : Startup T F}

/-- Only `quit` on the loop's own thread and the end of a call complete anything. -/
theorem step_quiet {a : EventLoop.Action T F}
    (hquit : s.loop.completesQuit a = false) (hearly : s.loop.completesEarly a = none)
    (hs : s.step a = some s') : ∃ l, s.loop.step a = some l ∧ s' = { s with loop := l } := by
  obtain ⟨l, hl, rfl⟩ := Option.map_eq_some_iff.mp hs
  refine ⟨l, hl, ?_⟩
  rw [hquit, hearly, Bool.or_false, Option.toList_none, List.append_nil]

theorem kept_loop (h : s.Kept) (hok : s.InTime .loop) (hs : s.step .loop = some s') : s'.Kept := by
  obtain ⟨l, hl, rfl⟩ := step_quiet rfl rfl hs
  obtain ⟨hidle, hl⟩ := EventLoop.step_loop hl
  obtain ⟨hcaller, hemplaced, -, -⟩ := EventLoop.loopStep_frame hl
  obtain ⟨hquit, hstart, hpoll, harmed⟩ := EventLoop.loopStep_request hl
  have hout : s.loop.pc = .outside → s.loop.pc.starting = true := fun hpc => by rw [hpc]; rfl
  refine ⟨fun hst => ?_, fun hreq => ?_, fun hq hpc => ?_, fun ho => ?_, fun k hk => ?_,
    fun ha k hk hp => ?_⟩
  · simp only [hcaller]
    exact h.window (hout (hstart hst))
  · simp only [hcaller] at hreq
    have hq := h.stored hreq
    refine (hquit fun hpc => ?_).trans hq
    -- the store `quit_ = false` finds no request
    obtain ⟨hnone, hno⟩ := h.window (by rw [hpc]; rfl)
    obtain hreq | ⟨who, hwho⟩ := hreq
    · exact absurd (hreq.symm.trans hnone) (by decide)
    · exact hno who hwho
  · exact absurd ((h.stored (.inl hq)).symm.trans (hpoll hpc)) (by decide)
  · simp only [hcaller] at ho
    exact absurd hidle ho
  · simp only [hcaller] at hk
    simp only [hemplaced]
    exact h.issued k hk
  · obtain hnil | ⟨hpc, hcount, hpend⟩ := harmed ha
    · simp only [hnil] at hp
      cases hp
    · simp only [hpend] at hp
      simp only [hcount]
      obtain hpc | hpc := hpc
      · simp only [InTime, hpc] at hok
        obtain hpos | hnone := hok
        · exact hpos
        · rw [hnone] at hk
          cases hk
      · exact h.covered hpc k hk hp

theorem kept_queueInLoop (h : s.Kept) {who : Option T} {cb : F}
    (hs : s.step (.queueInLoop who cb) = some s') : s'.Kept := by
  obtain ⟨l, hl, rfl⟩ := step_quiet rfl rfl hs
  obtain ⟨hidle, hu, rfl⟩ := EventLoop.step_queueInLoop hl
  have hcall : ∀ w, (s.loop.emplaceBack who cb).caller w =
      if w = who then .pushed s.loop.emplaced.length else s.loop.caller w := fun w =>
    Function.update_apply _ _ _ _
  have hstored : ∀ w, (s.loop.emplaceBack who cb).caller w = .stored → s.loop.caller w = .stored :=
    fun w hw => by
      rw [hcall] at hw
      split at hw
      · cases hw
      · exact hw
  refine ⟨fun hst => ⟨(h.window hst).1, fun w hw => (h.window hst).2 w (hstored w hw)⟩,
    fun hreq => h.stored (hreq.imp_right fun ⟨w, hw⟩ => ⟨w, hstored w hw⟩), h.woken, fun ho => ?_,
    fun k hk => ?_, fun ha k hk hp => ?_⟩
  · cases who with
    | none => exact hu rfl
    | some t => exact h.own (by simpa [hcall] using ho)
  · show k < (s.loop.emplaced ++ [_]).length
    rw [List.length_append, List.length_singleton]
    obtain hk | ⟨w, hw⟩ := hk
    · exact Nat.lt_succ_of_lt (h.issued k (.inl hk))
    · rw [hcall] at hw
      split at hw
      · cases hw
        exact Nat.lt_succ_self _
      · exact Nat.lt_succ_of_lt (h.issued k (.inr ⟨w, hw⟩))
  · -- the new functor's ticket is not an early one
    have hlt := h.issued k (.inl hk)
    have hp' : k ∈ tickets s.loop.pendingFunctors_ ∨ k = s.loop.emplaced.length := by
      simpa [EventLoop.emplaceBack, EventLoop.pendingFunctors_, tickets] using hp
    obtain hp' | rfl := hp'
    · exact h.covered ha k hk hp'
    · exact absurd hlt (Nat.lt_irrefl _)

theorem kept_quit (h : s.Kept) {who : Option T} (hok : s.InTime (.quit who))
    (hs : s.step (.quit who) = some s') : s'.Kept := by
  obtain ⟨l, hl, rfl⟩ := Option.map_eq_some_iff.mp hs
  obtain ⟨hidle, hu, rfl⟩ := EventLoop.step_quit hl
  have hstarted : s.loop.pc.starting = false := hok
  have hearly : s.early ++ (s.loop.completesEarly (.quit who)).toList = s.early :=
    List.append_nil _
  simp only [hearly]
  have hcall : ∀ w, (s.loop.storeQuit who).caller w =
      if w = who then (if who.isSome then .stored else .idle) else s.loop.caller w := fun w =>
    Function.update_apply _ _ _ _
  refine ⟨fun hst => absurd (hst.symm.trans hstarted) (by decide), fun _ => rfl,
    fun hq hpc => ?_, fun ho => ?_, fun k hk => h.issued k (hk.imp_right fun ⟨w, hw⟩ => ⟨w, ?_⟩),
    h.covered⟩
  · cases who with
    | none =>
      have hcode := hu rfl
      have hpoll : s.loop.pc = .poll := hpc
      rw [hpoll] at hcode
      cases hcode
    | some t => exact h.woken (by simpa [EventLoop.completesQuit] using hq) hpc
  · cases who with
    | none => exact hu rfl
    | some t => exact h.own (by simpa [hcall] using ho)
  · rw [hcall] at hw
    split at hw
    · split at hw <;> cases hw
    · exact hw

theorem kept_finishCall (h : s.Kept) {who : Option T} (hs : s.step (.finishCall who) = some s') :
    s'.Kept := by
  obtain ⟨l, hl, rfl⟩ := Option.map_eq_some_iff.mp hs
  have hother : ∀ {w x}, x ≠ .idle → Function.update s.loop.caller who Call.idle w = x →
      s.loop.caller w = x := fun {w x} hx hw => by
    rw [Function.update_apply] at hw
    split at hw
    · exact absurd hw.symm hx
    · exact hw
  have hown : Function.update s.loop.caller who Call.idle none ≠ .idle →
      s.loop.pc.userCode = true := fun ho => by
    rw [Function.update_apply] at ho
    split at ho
    · exact absurd rfl ho
    · exact h.own ho
  obtain ⟨k, hk, rfl⟩ | ⟨hst, rfl⟩ := EventLoop.finishCall_cases hl
  · have hdone : (s.quitDone || s.loop.completesQuit (.finishCall who)) = s.quitDone := by
      simp [EventLoop.completesQuit, hk]
    have hearly : s.loop.completesEarly (.finishCall who) =
        if s.loop.pc.starting then some k else none := by
      simp [EventLoop.completesEarly, hk]
    have hpos : ∀ b : Bool, 0 < s.loop.wakeupFd_ →
        0 < if b then EventLoop.eventfdWrite s.loop.wakeupFd_ else s.loop.wakeupFd_ := fun b hc => by
      cases b
      · exact hc
      · exact EventLoop.eventfdWrite_pos _
    simp only [hdone, hearly]
    refine ⟨fun hs => ⟨(h.window hs).1, fun w hw => (h.window hs).2 w (hother (by simp) hw)⟩,
      fun hreq => h.stored (hreq.imp_right fun ⟨w, hw⟩ => ⟨w, hother (by simp) hw⟩),
      fun hq hpc => hpos _ (h.woken hq hpc), hown, fun n hn => ?_, fun ha n hn hp => ?_⟩
    · obtain hn | ⟨w, hw⟩ := hn
      · obtain hn | hn := List.mem_append.mp hn
        · exact h.issued n (.inl hn)
        · obtain rfl : k = n := by
            split at hn
            · exact (List.mem_singleton.mp hn).symm
            · cases hn
          exact h.issued k (.inr ⟨who, hk⟩)
      · exact h.issued n (.inr ⟨w, hother (by simp) hw⟩)
    · obtain hn | hn := List.mem_append.mp hn
      · exact hpos _ (h.covered ha n hn hp)
      · -- completed before the first stores and past the init callback: by another thread
        have hstart : s.loop.pc.starting = true := by
          by_contra hno
          rw [if_neg hno] at hn
          cases hn
        have hwho : who.isSome = true := by
          cases who with
          | some t => rfl
          | none =>
            have hcode := h.own (by rw [hk]; simp)
            have harm : s.loop.pc.armed = true := ha
            cases hpc : s.loop.pc <;> simp_all [Pc.starting, Pc.userCode, Pc.armed]
        show 0 < if who.isSome || _ then _ else _
        rw [hwho, Bool.true_or, if_pos rfl]
        exact EventLoop.eventfdWrite_pos _
  · have hearly : s.loop.completesEarly (.finishCall who) = none := by
      simp [EventLoop.completesEarly, hst]
    simp only [hearly]
    have hq := h.stored (.inr ⟨who, hst⟩)
    refine ⟨fun hs => absurd hst ((h.window hs).2 who), fun _ => hq,
      fun _ _ => EventLoop.eventfdWrite_pos _, hown, fun n hn => ?_,
      fun _ _ _ _ => EventLoop.eventfdWrite_pos _⟩
    obtain hn | ⟨w, hw⟩ := hn
    · exact h.issued n (.inl (by simpa using hn))
    · exact h.issued n (.inr ⟨w, hother (by simp) hw⟩)

theorem kept_step {a : EventLoop.Action T F} (h : s.Kept) (hok : s.InTime a)
    (hs : s.step a = some s') : s'.Kept := by
  cases a with
  | loop => exact kept_loop h hok hs
  | queueInLoop who cb => exact kept_queueInLoop h hs
  | quit who => exact kept_quit h hok hs
  | finishCall who => exact kept_finishCall h hs
  | poll active =>
    obtain ⟨l, hl, rfl⟩ := step_quiet rfl rfl hs
    obtain ⟨hpc, -, rfl⟩ := EventLoop.step_poll hl
    refine ⟨by simp [Pc.starting], h.stored, by simp, fun ho => ?_, h.issued, by simp [Pc.armed]⟩
    have hcode := h.own ho
    rw [hpc] at hcode
    cases hcode

end Startup

/-! ## A stopping loop returns -/

namespace EventLoop

variable {l l' : EventLoop T F}

theorem loopStep_test (hpc : l.pc = .test) (hq : l.quit_ = true) :
    l.loopStep = some { l with pc := .leave } := by
  rw [loopStep, hpc, hq]
  rfl

theorem loopStep_mark (hpc : l.pc = .mark) :
    l.loopStep = some { l with pc := .swap, callingPendingFunctors_ := true } := by
  rw [loopStep, hpc]

theorem loopStep_swap (hpc : l.pc = .swap) :
    l.loopStep = some { l with pc := .call none, queue := l.queue.swap } := by
  rw [loopStep, hpc]

theorem loopStep_unmark (hpc : l.pc = .unmark) : l.loopStep =
    some { l with pc := .test, callingPendingFunctors_ := false, queue := l.queue.finish } := by
  rw [loopStep, hpc]

theorem loopStep_leave (hpc : l.pc = .leave) :
    l.loopStep = some { l with pc := .returned, looping_ := false } := by
  rw [loopStep, hpc]

variable [DecidableEq T]

/-- What the loop's thread does by itself, with `epoll_wait` returning the
wakeup channel only. -/
def Action.unaided : Action T F → Bool
  | .loop | .finishCall none => true
  | .poll active => active = [.wakeupChannel]
  | _ => false

def CanReturn (l : EventLoop T F) : Prop :=
  ∃ as : List (Action T F), (∀ a ∈ as, a.unaided = true) ∧
    ∃ l', exec step l as = some l' ∧ l'.pc = .returned

theorem CanReturn.of_step {a : Action T F} (ha : a.unaided = true) (hs : l.step a = some l')
    (h : l'.CanReturn) : l.CanReturn := by
  obtain ⟨as, hown, l'', hr, hpc⟩ := h
  refine ⟨a :: as, fun b hb => ?_, l'', exec_cons_some.mpr ⟨l', hs, hr⟩, hpc⟩
  obtain rfl | hb := List.mem_cons.mp hb
  · exact ha
  · exact hown b hb

/-- The next statement, after which there is the same request and no call. -/
theorem CanReturn.of_loopStep (hs : l.loopStep = some l') (hidle : l.caller none = .idle)
    (h : l'.caller none = .idle → l'.CanReturn) : l.CanReturn := by
  refine CanReturn.of_step (a := .loop) rfl (by rw [step, if_pos hidle, hs]) (h ?_)
  rw [(loopStep_frame hs).1, hidle]

theorem canReturn_leave (hpc : l.pc = .leave) (hidle : l.caller none = .idle) : l.CanReturn :=
  .of_loopStep (loopStep_leave hpc) hidle fun _ => ⟨[], by simp, _, rfl, rfl⟩

theorem canReturn_test (hpc : l.pc = .test) (hq : l.quit_ = true) (hidle : l.caller none = .idle) :
    l.CanReturn :=
  .of_loopStep (loopStep_test hpc hq) hidle fun hidle => canReturn_leave rfl hidle

theorem canReturn_unmark (hpc : l.pc = .unmark) (hq : l.quit_ = true)
    (hidle : l.caller none = .idle) : l.CanReturn :=
  .of_loopStep (loopStep_unmark hpc) hidle fun hidle => canReturn_test rfl hq hidle

/-- The batch has an end. -/
theorem canReturn_next (todo : List (Task F)) : ∀ {l : EventLoop T F}, l.queue.todo = todo →
    l.pc = .call none → l.quit_ = true → l.caller none = .idle → l.CanReturn := by
  induction todo with
  | nil =>
    intro l htodo hpc hq hidle
    have hend : l.loopStep = some { l with pc := .unmark } := by
      simp only [loopStep, hpc, TaskQueue.start, htodo]
    exact .of_loopStep hend hidle fun hidle => canReturn_unmark rfl hq hidle
  | cons f rest ih =>
    intro l htodo hpc hq hidle
    have hnext : l.loopStep = some { l with
        pc := .call (some f)
        queue := { l.queue with ran := l.queue.ran ++ [f], todo := rest } } := by
      simp only [loopStep, hpc, TaskQueue.start, htodo]
    refine .of_loopStep hnext hidle fun hidle => ?_
    exact .of_loopStep rfl hidle fun hidle => ih rfl rfl hq hidle

theorem canReturn_call {running : Option (Task F)} (hpc : l.pc = .call running)
    (hq : l.quit_ = true) (hidle : l.caller none = .idle) : l.CanReturn := by
  cases running with
  | none => exact canReturn_next _ rfl hpc hq hidle
  | some f =>
    have hs : l.loopStep = some { l with pc := .call none, executed := l.executed ++ [f] } := by
      rw [loopStep, hpc]
    exact .of_loopStep hs hidle fun hidle => canReturn_next _ rfl rfl hq hidle

theorem canReturn_swap (hpc : l.pc = .swap) (hq : l.quit_ = true) (hidle : l.caller none = .idle) :
    l.CanReturn :=
  .of_loopStep (loopStep_swap hpc) hidle fun hidle => canReturn_call rfl hq hidle

theorem canReturn_mark (hpc : l.pc = .mark) (hq : l.quit_ = true) (hidle : l.caller none = .idle) :
    l.CanReturn :=
  .of_loopStep (loopStep_mark hpc) hidle fun hidle => canReturn_swap rfl hq hidle

theorem canReturn_handle (active : List Ready) : ∀ {l : EventLoop T F}, l.pc = .handle active →
    l.quit_ = true → l.caller none = .idle → l.CanReturn := by
  induction active with
  | nil =>
    intro l hpc hq hidle
    have hs : l.loopStep = some { l with pc := .mark } := by rw [loopStep, hpc]
    exact .of_loopStep hs hidle fun hidle => canReturn_mark rfl hq hidle
  | cons ready rest ih =>
    intro l hpc hq hidle
    cases ready with
    | wakeupChannel =>
      have hs : l.loopStep = some { l with pc := .handle rest, wakeupFd_ := 0 } := by
        rw [loopStep, hpc]
      exact .of_loopStep hs hidle fun hidle => ih rfl hq hidle
    | other =>
      have hs : l.loopStep = some { l with pc := .handle rest } := by rw [loopStep, hpc]
      exact .of_loopStep hs hidle fun hidle => ih rfl hq hidle

/-- From wherever a stopping loop stands, its thread alone brings it to its end. -/
theorem Stopping.canReturn (h : l.Stopping) : l.CanReturn := by
  have hidle : ∀ l : EventLoop T F, l.Stopping → l.caller none = .idle → l.CanReturn := by
    intro l h hidle
    cases hpc : l.pc with
    | outside | entered =>
      have hs := h.started
      rw [hpc] at hs
      cases hs
    | test => exact canReturn_test hpc h.quit hidle
    | poll =>
      have hpoll : l.step (.poll [.wakeupChannel]) =
          some { l with pc := .handle [.wakeupChannel] } := by
        simp only [step, hpc]
        exact if_pos fun _ => h.woken hpc
      exact .of_step (by simp [Action.unaided]) hpoll (canReturn_handle _ rfl h.quit hidle)
    | handle active => exact canReturn_handle active hpc h.quit hidle
    | mark => exact canReturn_mark hpc h.quit hidle
    | swap => exact canReturn_swap hpc h.quit hidle
    | call running => exact canReturn_call hpc h.quit hidle
    | unmark => exact canReturn_unmark hpc h.quit hidle
    | leave => exact canReturn_leave hpc hidle
    | returned => exact ⟨[], by simp, l, rfl, hpc⟩
  -- a call that the thread is in comes to its end first
  by_cases hown : l.caller none = .idle
  · exact hidle l h hown
  · obtain ⟨l', hl⟩ : ∃ l', l.finishCall none = some l' := by
      cases hc : l.caller none with
      | idle => exact absurd hc hown
      | pushed k => exact ⟨_, by rw [finishCall, hc]⟩
      | stored => exact ⟨_, by rw [finishCall, hc]⟩
    refine .of_step (a := .finishCall none) rfl hl ?_
    have hback : Function.update l.caller none Call.idle none = .idle := Function.update_self _ _ _
    obtain ⟨k, -, rfl⟩ | ⟨-, rfl⟩ := finishCall_cases hl
    · refine hidle _ ⟨h.quit, h.started, fun hpc => ?_⟩ hback
      show 0 < if _ then _ else _
      split
      · exact eventfdWrite_pos _
      · exact h.woken hpc
    · exact hidle _ ⟨h.quit, h.started, fun _ => eventfdWrite_pos _⟩ hback

end EventLoop

end Mymuduo.Loop
