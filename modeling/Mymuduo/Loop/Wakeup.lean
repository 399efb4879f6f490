import Mymuduo.Loop.EventLoop

/-!
# No wakeup is lost while the loop runs

Between the swap of one batch and the next `epoll_wait` every functor that is
still pending is covered: the eventfd counter is positive, or some thread
stands between its `emplace_back` and its `write`. The loop's own thread skips
the write outside a batch only, and there a swap comes before the next poll.
-/

namespace Mymuduo.Loop

open Mymuduo.Library.Execution

universe u v

variable {T : Type v} {F : Type u}

namespace Pc

/-- The points from the swap to the next `epoll_wait`, where a pending functor
would have to wait for a wakeup. -/
def armed : Pc F → Bool
  | .entered => true
  | .test => true
  | .poll => true
  | .call _ => true
  | .unmark => true
  | _ => false

/-- The points between the two stores to `callingPendingFunctors_`. -/
def inBatch : Pc F → Bool
  | .swap => true
  | .call _ => true
  | .unmark => true
  | _ => false

/-- User code on the loop's thread that is not covered by the flag runs in a
handler, and the swap of this round is still to come. -/
theorem not_armed_of_userCode {pc : Pc F} (hs : pc ≠ .outside) (hu : pc.userCode = true)
    (hb : pc.inBatch = false) : pc.armed = false := by
  cases pc with
  | outside => exact absurd rfl hs
  | call running => simp [inBatch] at hb
  | handle active => rfl
  | _ => simp [userCode] at hu

end Pc

namespace EventLoop

/-- Some thread, the loop's own included, has pushed and not yet woken. -/
def MidCall (l : EventLoop T F) : Prop := ∃ who k, l.caller who = .pushed k

structure WakeInv (l : EventLoop T F) : Prop where
  started : l.pc ≠ .outside
  flag : l.callingPendingFunctors_ = l.pc.inBatch
  own : l.caller none ≠ .idle → l.pc.userCode = true
  covered : l.pc.armed = true → l.pendingFunctors_ ≠ [] → 0 < l.wakeupFd_ ∨ l.MidCall

/-- `loop()` has been entered and nothing is pending; the other threads and
the counter are arbitrary. -/
structure Entered (l : EventLoop T F) : Prop where
  pc : l.pc = .entered
  flag : l.callingPendingFunctors_ = false
  own : l.caller none = .idle
  empty : l.pendingFunctors_ = []

theorem Entered.wakeInv {l : EventLoop T F} (h : Entered l) : WakeInv l where
  started := by simp [h.pc]
  flag := by simp [h.pc, h.flag, Pc.inBatch]
  own := fun ho => absurd h.own ho
  covered := fun _ hp => absurd h.empty hp

theorem wakeInv_loopStep {l l' : EventLoop T F} (hi : WakeInv l) (hidle : l.caller none = .idle)
    (h : l.loopStep = some l') : WakeInv l' := by
  obtain ⟨hcaller, -, -, -⟩ := loopStep_frame h
  have hown : l'.caller none ≠ .idle → l'.pc.userCode = true :=
    fun ho => absurd (hcaller ▸ hidle) ho
  obtain ⟨hs, hf, -, hc⟩ := hi
  unfold loopStep at h
  split at h
  case h_1 hpc => exact absurd hpc hs
  case h_3 hpc =>
    -- the test of `quit_`
    obtain rfl := Option.some.inj h
    refine ⟨by dsimp only; split <;> simp, ?_, hown, fun _ => hc (by simp [hpc, Pc.armed])⟩
    dsimp only
    split <;> simp [hf, hpc, Pc.inBatch]
  case h_10 hpc =>
    -- the next functor starts, or the batch is over; `pendingFunctors_` stays
    have hc' := hc (by simp [hpc, Pc.armed])
    cases hst : l.queue.start with
    | none =>
      rw [hst] at h
      obtain rfl := Option.some.inj h
      exact ⟨by simp, by simp [hf, hpc, Pc.inBatch], hown, fun _ => hc'⟩
    | some fq =>
      obtain ⟨f, q⟩ := fq
      rw [hst] at h
      obtain rfl := Option.some.inj h
      obtain ⟨-, -, hpend, -⟩ := Library.TaskQueue.waiting_of_start hst
      refine ⟨by simp, by simp [hf, hpc, Pc.inBatch], hown, fun _ hp => hc' ?_⟩
      exact fun he => hp (hpend.trans he)
  case h_9 hpc =>
    -- the swap leaves nothing pending
    obtain rfl := Option.some.inj h
    exact ⟨by simp, by simp [hf, hpc, Pc.inBatch], hown, fun _ hp => absurd rfl hp⟩
  case h_2 hpc | h_11 hpc | h_12 hpc =>
    obtain rfl := Option.some.inj h
    exact ⟨by simp, by simp [hf, hpc, Pc.inBatch], hown, fun _ => hc (by simp [hpc, Pc.armed])⟩
  case h_5 hpc | h_6 hpc | h_7 hpc | h_8 hpc | h_13 hpc =>
    obtain rfl := Option.some.inj h
    exact ⟨by simp, by simp [hf, hpc, Pc.inBatch], hown, by simp [Pc.armed]⟩
  case h_4 | h_14 => cases h

section Calls

variable [DecidableEq T]

theorem wakeInv_emplaceBack {l : EventLoop T F} (hi : WakeInv l) {who : Option T} {cb : F}
    (hu : who = none → l.pc.userCode = true) : WakeInv (l.emplaceBack who cb) where
  started := hi.started
  flag := hi.flag
  own := by
    intro ho
    cases who with
    | none => exact hu rfl
    | some t => exact hi.own (by simpa [emplaceBack] using ho)
  covered := fun _ _ => Or.inr ⟨who, _, Function.update_self _ _ _⟩

theorem wakeInv_storeQuit {l : EventLoop T F} (hi : WakeInv l) {who : Option T}
    (hidle : l.caller who = .idle) : WakeInv (l.storeQuit who) where
  started := hi.started
  flag := hi.flag
  own := by
    intro ho
    cases who with
    | none => simp [storeQuit] at ho
    | some t => exact hi.own (by simpa [storeQuit] using ho)
  covered := by
    intro ha hp
    refine (hi.covered ha hp).imp id ?_
    rintro ⟨w, k, hw⟩
    have hne : w ≠ who := by
      rintro rfl
      rw [hidle] at hw
      cases hw
    exact ⟨w, k, (storeQuit_caller_of_ne l hne).trans hw⟩

theorem wakeInv_finishCall {l l' : EventLoop T F} (hi : WakeInv l) {who : Option T}
    (h : l.finishCall who = some l') : WakeInv l' := by
  have hown : Function.update l.caller who Call.idle none ≠ .idle → l.pc.userCode = true := by
    intro ho
    cases who with
    | none => simp at ho
    | some t => exact hi.own (by simpa using ho)
  rcases finishCall_cases h with ⟨k, hk, rfl⟩ | ⟨-, rfl⟩
  · refine ⟨hi.started, hi.flag, hown, fun ha hp => Or.inl ?_⟩
    by_cases hwake : (who.isSome || l.callingPendingFunctors_) = true
    · simp only [hwake, if_true]
      exact eventfdWrite_pos _
    · -- the wakeup is skipped: the loop's own thread, outside a batch
      simp only [Bool.or_eq_true, not_or, Bool.not_eq_true, Option.isSome_eq_false_iff,
        Option.isNone_iff_eq_none] at hwake
      obtain ⟨rfl, hflag⟩ := hwake
      have hu := hi.own (by simp [hk])
      have harm := Pc.not_armed_of_userCode hi.started hu (hi.flag.symm.trans hflag)
      exact absurd ha (by simp [harm])
  · exact ⟨hi.started, hi.flag, hown, fun _ _ => Or.inl (eventfdWrite_pos _)⟩

theorem wakeInv_step {l l' : EventLoop T F} {a : Action T F} (hi : WakeInv l)
    (h : l.step a = some l') : WakeInv l' := by
  cases a with
  | loop =>
    obtain ⟨hidle, hl⟩ := step_loop h
    exact wakeInv_loopStep hi hidle hl
  | poll active =>
    obtain ⟨hpc, -, rfl⟩ := step_poll h
    refine ⟨by simp, by simp [hi.flag, hpc, Pc.inBatch], fun ho => ?_, by simp [Pc.armed]⟩
    exact absurd (hi.own ho) (by simp [hpc, Pc.userCode])
  | queueInLoop who cb =>
    obtain ⟨-, hu, rfl⟩ := step_queueInLoop h
    exact wakeInv_emplaceBack hi hu
  | quit who =>
    obtain ⟨hidle, -, rfl⟩ := step_quit h
    exact wakeInv_storeQuit hi hidle
  | finishCall who => exact wakeInv_finishCall hi h

/-- Wherever the loop thread is about to block in `epoll_wait` with a functor
pending, the eventfd is readable or a foreign thread still owes its `write`. -/
theorem no_lost_wakeup {l₀ l : EventLoop T F} (h₀ : Entered l₀) (as : List (Action T F))
    (h : exec step l₀ as = some l) (hpc : l.pc = .poll) (hp : l.pendingFunctors_ ≠ []) :
    0 < l.wakeupFd_ ∨ ∃ t k, l.caller (some t) = .pushed k := by
  have hi : WakeInv l := exec_preserves WakeInv (fun _ _ _ => wakeInv_step) h₀.wakeInv h
  refine (hi.covered (by simp [hpc, Pc.armed]) hp).imp id ?_
  rintro ⟨who, k, hk⟩
  cases who with
  | none => exact absurd (hi.own (by simp [hk])) (by simp [hpc, Pc.userCode])
  | some t => exact ⟨t, k, hk⟩

end Calls

/-- A foreign thread has pushed and not yet written when the loop is about to
block. -/
theorem no_lost_wakeup_pushed : ∃ l : EventLoop Unit Unit,
    exec step { pc := .entered } [.loop, .loop, .queueInLoop (some ()) ()] = some l ∧
      l.pc = .poll ∧ l.pendingFunctors_ ≠ [] ∧
      (0 < l.wakeupFd_ ∨ ∃ t k, l.caller (some t) = .pushed k) := by
  have h₀ : Entered ({ pc := .entered } : EventLoop Unit Unit) := ⟨rfl, rfl, rfl, rfl⟩
  refine ⟨_, rfl, rfl, List.cons_ne_nil _ _, ?_⟩
  exact no_lost_wakeup h₀ [.loop, .loop, .queueInLoop (some ()) ()] rfl rfl (List.cons_ne_nil _ _)

end EventLoop

end Mymuduo.Loop
