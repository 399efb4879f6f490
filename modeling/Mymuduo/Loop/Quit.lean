import Mymuduo.Loop.EventLoop

/-!
# Functors queued before `quit`

`loop()` tests `quit_` only after a batch. A `quit_` stored between the test
and the swap of a round lets that round take out everything pending, so what
was queued before is run. A `quit_` stored between the swap and the next test
ends the loop with the functors pending at that moment still in the queue, and
then nothing ever runs them.
-/

namespace Mymuduo.Loop

open Mymuduo.Library
open Mymuduo.Library.Execution

universe u v

variable {T : Type v} {F : Type u}

def tickets (fs : List (Task F)) : List Nat := fs.map Task.ticket

/-- The points between the test of `quit_` and the swap of the same round. -/
def Pc.beforeSwap : Pc F → Bool
  | .poll => true
  | .handle _ => true
  | .mark => true
  | .swap => true
  | _ => false

/-- The points from the swap of a round to the next test, and past the loop. -/
def Pc.afterSwap : Pc F → Bool
  | .call _ => true
  | .unmark => true
  | .test => true
  | .leave => true
  | .returned => true
  | _ => false

namespace EventLoop

/-- Out of the queue for good: executed, being run, or in the current batch. -/
def Secured (l : EventLoop T F) (k : Nat) : Prop :=
  k ∈ tickets l.executed ∨ (∃ f, l.pc = .call (some f) ∧ f.ticket = k) ∨ k ∈ tickets l.queue.todo

/-- `emplace_back` has been done for the ticket; its `queueInLoop` may still be
on its way out. -/
def Accepted (l : EventLoop T F) (k : Nat) : Prop :=
  k ∈ l.returned ∨ ∃ who, l.caller who = .pushed k

/-- Inside `loop()` at its first test, with any history of accepted functors
that are still pending or executed. -/
structure Inside (l : EventLoop T F) : Prop where
  pc : l.pc = .test
  todo : l.queue.todo = []
  quit : l.quit_ = false
  owed : l.owed = []
  accepted : ∀ k, l.Accepted k → k ∈ tickets l.executed ∨ k ∈ tickets l.pendingFunctors_

structure QuitInv (l : EventLoop T F) : Prop where
  started : l.pc ≠ .outside ∧ l.pc ≠ .entered
  batch : l.queue.todo ≠ [] → ∃ running, l.pc = .call running
  accepted : ∀ k, l.Accepted k → l.Secured k ∨ k ∈ tickets l.pendingFunctors_
  quit : l.owed ≠ [] → l.quit_ = true
  owed : ∀ k ∈ l.owed, l.Secured k ∨ (k ∈ tickets l.pendingFunctors_ ∧ l.pc.beforeSwap = true)

theorem Inside.quitInv {l : EventLoop T F} (h : Inside l) : QuitInv l where
  started := by simp [h.pc]
  batch := fun ht => absurd h.todo ht
  accepted := fun k hk => (h.accepted k hk).imp Or.inl id
  quit := fun ho => absurd h.owed ho
  owed := by simp [h.owed]

/-- The store of `quit_` is harmless before the swap of the round, and where
no functor whose `queueInLoop` has returned is pending. -/
def QuitCondition (l : EventLoop T F) : Action T F → Prop
  | .quit _ => l.pc.beforeSwap = true ∨ ∀ k ∈ l.returned, k ∉ tickets l.pendingFunctors_
  | _ => True

instance (l : EventLoop T F) : ∀ a : Action T F, Decidable (l.QuitCondition a)
  | .quit _ => inferInstanceAs (Decidable (_ ∨ _))
  | .loop | .poll _ | .queueInLoop _ _ | .finishCall _ => .isTrue trivial

/-- A secured functor stays secured; the loop thread loses none of its batch. -/
theorem secured_loopStep {l l' : EventLoop T F} (hb : l.queue.todo ≠ [] → ∃ r, l.pc = .call r)
    (h : l.loopStep = some l') {k : Nat} (hk : l.Secured k) : l'.Secured k := by
  have hno : (∀ r, l.pc ≠ .call r) → k ∈ tickets l.executed := by
    intro hne
    rcases hk with he | ⟨f, hf, -⟩ | ht
    · exact he
    · exact absurd hf (hne _)
    · obtain ⟨r, hr⟩ := hb (by rintro h0; simp [h0, tickets] at ht)
      exact absurd hr (hne r)
  unfold loopStep at h
  split at h
  case h_10 hpc =>
    have hk' : k ∈ tickets l.executed ∨ k ∈ tickets l.queue.todo := by
      rcases hk with he | ⟨f, hf, -⟩ | ht
      · exact Or.inl he
      · simp [hpc] at hf
      · exact Or.inr ht
    cases hst : l.queue.start with
    | none =>
      rw [hst] at h
      obtain rfl := Option.some.inj h
      exact hk'.imp id Or.inr
    | some fq =>
      obtain ⟨f, q⟩ := fq
      rw [hst] at h
      obtain rfl := Option.some.inj h
      obtain ⟨-, -, -, htodo⟩ := TaskQueue.waiting_of_start hst
      rcases hk' with he | ht
      · exact Or.inl he
      · rw [htodo] at ht
        rcases List.mem_cons.mp ht with rfl | ht
        · exact Or.inr (Or.inl ⟨f, rfl, rfl⟩)
        · exact Or.inr (Or.inr ht)
  case h_11 f hpc =>
    obtain rfl := Option.some.inj h
    rcases hk with he | ⟨g, hg, hgk⟩ | ht
    · exact Or.inl (by simp only [tickets, List.map_append] at he ⊢; exact List.mem_append_left _ he)
    · obtain rfl : f = g := by simpa [hpc] using hg
      exact Or.inl (by simp [tickets, hgk])
    · exact Or.inr (Or.inr ht)
  case h_4 | h_14 => cases h
  all_goals
    rename_i hpc
    obtain rfl := Option.some.inj h
    exact Or.inl (hno (by simp [hpc]))

/-- A pending functor stays pending until the swap, which secures it. -/
theorem pending_loopStep {l l' : EventLoop T F} (h : l.loopStep = some l') {k : Nat}
    (hk : k ∈ tickets l.pendingFunctors_) :
    l'.Secured k ∨ (k ∈ tickets l'.pendingFunctors_ ∧ l.pc ≠ .swap) := by
  unfold loopStep at h
  split at h
  case h_9 hpc =>
    obtain rfl := Option.some.inj h
    exact Or.inl (Or.inr (Or.inr hk))
  case h_10 hpc =>
    cases hst : l.queue.start with
    | none =>
      rw [hst] at h
      obtain rfl := Option.some.inj h
      exact Or.inr ⟨hk, by simp [hpc]⟩
    | some fq =>
      obtain ⟨f, q⟩ := fq
      rw [hst] at h
      obtain rfl := Option.some.inj h
      obtain ⟨-, -, hpend, -⟩ := TaskQueue.waiting_of_start hst
      exact Or.inr ⟨(congrArg tickets hpend.symm ▸ hk : k ∈ tickets q.pending), by simp [hpc]⟩
  case h_4 | h_14 => cases h
  all_goals
    rename_i hpc
    obtain rfl := Option.some.inj h
    exact Or.inr ⟨hk, by simp [hpc]⟩

/-- Where the loop thread goes, and what it does to `quit_` and the batch. -/
theorem control_loopStep {l l' : EventLoop T F} (hs : l.pc ≠ .outside ∧ l.pc ≠ .entered)
    (hb : l.queue.todo ≠ [] → ∃ r, l.pc = .call r) (h : l.loopStep = some l') :
    (l'.pc ≠ .outside ∧ l'.pc ≠ .entered) ∧ l'.quit_ = l.quit_ ∧
      (l'.queue.todo ≠ [] → ∃ r, l'.pc = .call r) ∧
      (l.pc.beforeSwap = true → l.pc = .swap ∨ l'.pc.beforeSwap = true) := by
  have hno : (∀ r, l.pc ≠ .call r) → l.queue.todo = [] := by
    intro hne
    by_contra h0
    obtain ⟨r, hr⟩ := hb h0
    exact hne r hr
  unfold loopStep at h
  split at h
  case h_1 hpc => exact absurd hpc hs.1
  case h_2 hpc => exact absurd hpc hs.2
  case h_3 hpc =>
    obtain rfl := Option.some.inj h
    refine ⟨by dsimp only; split <;> simp, rfl, fun ht => absurd (hno (by simp [hpc])) ht, ?_⟩
    simp [hpc, Pc.beforeSwap]
  case h_10 hpc =>
    cases hst : l.queue.start with
    | none =>
      rw [hst] at h
      obtain rfl := Option.some.inj h
      exact ⟨by simp, rfl, fun ht => absurd (TaskQueue.start_eq_none hst) ht,
        by simp [hpc, Pc.beforeSwap]⟩
    | some fq =>
      obtain ⟨f, q⟩ := fq
      rw [hst] at h
      obtain rfl := Option.some.inj h
      exact ⟨by simp, rfl, fun _ => ⟨_, rfl⟩, by simp [hpc, Pc.beforeSwap]⟩
  case h_4 | h_14 => cases h
  case h_9 hpc | h_11 hpc =>
    obtain rfl := Option.some.inj h
    exact ⟨by simp, rfl, fun _ => ⟨_, rfl⟩, by simp [hpc, Pc.beforeSwap]⟩
  all_goals
    rename_i hpc
    obtain rfl := Option.some.inj h
    exact ⟨by simp, rfl, fun ht => absurd (hno (by simp [hpc])) ht, by simp [hpc, Pc.beforeSwap]⟩

theorem quitInv_loopStep {l l' : EventLoop T F} (hi : QuitInv l) (h : l.loopStep = some l') :
    QuitInv l' := by
  obtain ⟨hcaller, -, hret, howed⟩ := loopStep_frame h
  obtain ⟨hs, hq, hb, hpc⟩ := control_loopStep hi.started hi.batch h
  refine ⟨hs, hb, fun k hk => ?_, fun ho => hq.trans (hi.quit (howed ▸ ho)), fun k hk => ?_⟩
  · have hk' : l.Accepted k := by simpa only [Accepted, hcaller, hret] using hk
    rcases hi.accepted k hk' with hsec | hpend
    · exact Or.inl (secured_loopStep hi.batch h hsec)
    · exact (pending_loopStep h hpend).imp id And.left
  · rcases hi.owed k (howed ▸ hk) with hsec | ⟨hpend, hbefore⟩
    · exact Or.inl (secured_loopStep hi.batch h hsec)
    · rcases pending_loopStep h hpend with hsec | ⟨hpend', hne⟩
      · exact Or.inl hsec
      · exact Or.inr ⟨hpend', (hpc hbefore).resolve_left hne⟩

theorem quitInv_poll {l : EventLoop T F} (hi : QuitInv l) {active : List Ready}
    (hpc : l.pc = .poll) : QuitInv { l with pc := .handle active } := by
  have hsec : ∀ k, l.Secured k → Secured { l with pc := .handle active } k := by
    rintro k (he | ⟨f, hf, -⟩ | ht)
    · exact Or.inl he
    · simp [hpc] at hf
    · exact Or.inr (Or.inr ht)
  refine ⟨by simp, fun ht => ?_, fun k hk => (hi.accepted k hk).imp (hsec k) id, hi.quit,
    fun k hk => (hi.owed k hk).imp (hsec k) (And.imp id fun _ => rfl)⟩
  obtain ⟨r, hr⟩ := hi.batch ht
  simp [hpc] at hr

section Calls

variable [DecidableEq T]

theorem quitInv_emplaceBack {l : EventLoop T F} (hi : QuitInv l) (who : Option T) (cb : F) :
    QuitInv (l.emplaceBack who cb) := by
  have hpend : ∀ k ∈ tickets l.pendingFunctors_, k ∈ tickets (l.emplaceBack who cb).pendingFunctors_ := by
    intro k hk
    simp only [emplaceBack, pendingFunctors_, tickets, TaskQueue.push_pending, List.map_append]
    exact List.mem_append_left _ hk
  refine ⟨hi.started, hi.batch, fun k hk => ?_, hi.quit,
    fun k hk => (hi.owed k hk).imp id (And.imp (hpend k) id)⟩
  rcases hk with hr | ⟨w, hw⟩
  · exact (hi.accepted k (Or.inl hr)).imp id (hpend k)
  · by_cases hwho : w = who
    · subst hwho
      obtain rfl : l.emplaced.length = k := by simpa [emplaceBack] using hw
      refine Or.inr ?_
      simp [emplaceBack, pendingFunctors_, tickets]
    · rw [emplaceBack_caller_of_ne l cb hwho] at hw
      exact (hi.accepted k (Or.inr ⟨w, hw⟩)).imp id (hpend k)

theorem quitInv_storeQuit {l : EventLoop T F} (hi : QuitInv l) (who : Option T)
    (hc : l.QuitCondition (.quit who)) : QuitInv (l.storeQuit who) := by
  refine ⟨hi.started, hi.batch, fun k hk => ?_, fun _ => rfl, fun k hk => ?_⟩
  · rcases hk with hr | ⟨w, hw⟩
    · exact hi.accepted k (Or.inl hr)
    · by_cases hwho : w = who
      · subst hwho
        cases w <;> simp [storeQuit] at hw
      · rw [storeQuit_caller_of_ne l hwho] at hw
        exact hi.accepted k (Or.inr ⟨w, hw⟩)
  · rcases hi.accepted k (Or.inl hk) with hsec | hpend
    · exact Or.inl hsec
    · exact Or.inr ⟨hpend, hc.resolve_right fun hno => hno k hk hpend⟩

theorem quitInv_finishCall {l l' : EventLoop T F} (hi : QuitInv l) {who : Option T}
    (h : l.finishCall who = some l') : QuitInv l' := by
  have hother : ∀ w k, Function.update l.caller who Call.idle w = .pushed k → l.caller w = .pushed k := by
    intro w k hw
    by_cases hwho : w = who
    · subst hwho
      simp at hw
    · rwa [Function.update_of_ne hwho] at hw
  rcases finishCall_cases h with ⟨n, hn, rfl⟩ | ⟨-, rfl⟩
  · refine ⟨hi.started, hi.batch, fun k hk => ?_, hi.quit, hi.owed⟩
    rcases hk with hr | ⟨w, hw⟩
    · rcases List.mem_append.mp hr with hr | hr
      · exact hi.accepted k (Or.inl hr)
      · obtain rfl := List.mem_singleton.mp hr
        exact hi.accepted k (Or.inr ⟨who, hn⟩)
    · exact hi.accepted k (Or.inr ⟨w, hother w k hw⟩)
  · refine ⟨hi.started, hi.batch, fun k hk => hi.accepted k ?_, hi.quit, hi.owed⟩
    exact hk.imp id fun ⟨w, hw⟩ => ⟨w, hother w k hw⟩

theorem quitInv_step {l l' : EventLoop T F} {a : Action T F} (hi : QuitInv l)
    (hc : l.QuitCondition a) (h : l.step a = some l') : QuitInv l' := by
  cases a with
  | loop => exact quitInv_loopStep hi (step_loop h).2
  | poll active =>
    obtain ⟨hpc, -, rfl⟩ := step_poll h
    exact quitInv_poll hi hpc
  | queueInLoop who cb =>
    obtain ⟨-, -, rfl⟩ := step_queueInLoop h
    exact quitInv_emplaceBack hi who cb
  | quit who =>
    obtain ⟨-, -, rfl⟩ := step_quit h
    exact quitInv_storeQuit hi who hc
  | finishCall who => exact quitInv_finishCall hi h

/-- Where every `quit` meets the condition, a functor whose `queueInLoop` had
returned when `quit` was called has been executed when `loop()` returns. -/
theorem queued_before_quit_executed {l₀ l : EventLoop T F} (h₀ : Inside l₀)
    {as : List (Action T F)} (hok : Guarded step QuitCondition l₀ as)
    (h : exec step l₀ as = some l) (hpc : l.pc = .returned) :
    ∀ k ∈ l.owed, k ∈ tickets l.executed := by
  have hi : QuitInv l := exec_invariant QuitInv (fun _ _ _ => quitInv_step) h₀.quitInv hok h
  intro k hk
  rcases hi.owed k hk with (he | ⟨f, hf, -⟩ | ht) | ⟨-, hbefore⟩
  · exact he
  · simp [hpc] at hf
  · obtain ⟨r, hr⟩ := hi.batch (by rintro h0; simp [h0, tickets] at ht)
    simp [hpc] at hr
  · simp [hpc, Pc.beforeSwap] at hbefore

end Calls

/-! ## The condition is exact -/

/-- Past the swap of a round with `quit_` set, and a functor pending. -/
structure Stranded (l : EventLoop T F) (k : Nat) : Prop where
  quit : l.quit_ = true
  late : l.pc.afterSwap = true
  pending : k ∈ tickets l.pendingFunctors_

theorem stranded_loopStep {l l' : EventLoop T F} {k : Nat} (hi : l.Stranded k)
    (h : l.loopStep = some l') : l'.Stranded k := by
  obtain ⟨hq, hl, hk⟩ := hi
  unfold loopStep at h
  split at h
  case h_3 hpc =>
    obtain rfl := Option.some.inj h
    exact ⟨hq, by simp [hq, Pc.afterSwap], hk⟩
  case h_10 hpc =>
    cases hst : l.queue.start with
    | none =>
      rw [hst] at h
      obtain rfl := Option.some.inj h
      exact ⟨hq, rfl, hk⟩
    | some fq =>
      obtain ⟨f, q⟩ := fq
      rw [hst] at h
      obtain rfl := Option.some.inj h
      obtain ⟨-, -, hpend, -⟩ := TaskQueue.waiting_of_start hst
      exact ⟨hq, rfl, (congrArg tickets hpend.symm ▸ hk : k ∈ tickets q.pending)⟩
  case h_11 hpc | h_12 hpc | h_13 hpc =>
    obtain rfl := Option.some.inj h
    exact ⟨hq, rfl, hk⟩
  case h_14 => cases h
  all_goals
    rename_i hpc
    simp [hpc, Pc.afterSwap] at hl

theorem stranded_step [DecidableEq T] {l l' : EventLoop T F} {k : Nat} {a : Action T F}
    (hi : l.Stranded k) (h : l.step a = some l') : l'.Stranded k := by
  cases a with
  | loop => exact stranded_loopStep hi (step_loop h).2
  | poll active =>
    have hl := hi.late
    simp [(step_poll h).1, Pc.afterSwap] at hl
  | queueInLoop who cb =>
    obtain ⟨-, -, rfl⟩ := step_queueInLoop h
    refine ⟨hi.quit, hi.late, ?_⟩
    have hk := hi.pending
    simp only [emplaceBack, pendingFunctors_, tickets, TaskQueue.push_pending, List.map_append]
      at hk ⊢
    exact List.mem_append_left _ hk
  | quit who =>
    obtain ⟨-, -, rfl⟩ := step_quit h
    exact ⟨rfl, hi.late, hi.pending⟩
  | finishCall who =>
    rcases finishCall_cases h with ⟨n, -, rfl⟩ | ⟨-, rfl⟩
    · exact ⟨hi.quit, hi.late, hi.pending⟩
    · exact ⟨hi.quit, hi.late, hi.pending⟩

/-- A `quit` past the swap strands every functor then pending: it is in the
queue after any continuation of the run, so no batch ever takes it out. -/
theorem quit_after_swap_strands [DecidableEq T] {l l' : EventLoop T F} {who : Option T} {k : Nat}
    (hpc : l.pc.afterSwap = true) (hk : k ∈ tickets l.pendingFunctors_) (as : List (Action T F))
    (h : exec step (l.storeQuit who) as = some l') : k ∈ tickets l'.pendingFunctors_ := by
  have h₀ : (l.storeQuit who).Stranded k := ⟨rfl, hpc, hk⟩
  have hi : l'.Stranded k :=
    exec_preserves (fun l => Stranded l k) (fun _ _ _ => stranded_step) h₀ h
  exact hi.pending

/-- The thread queues after the swap of the round and quits before the test. -/
def lateQuit : List (Action Unit Unit) :=
  [.loop, .poll [], .loop, .loop, .loop, .queueInLoop (some ()) (), .finishCall (some ()),
    .quit (some ()), .finishCall (some ()), .loop, .loop, .loop, .loop]

/-- The loop returns with the functor still in `pendingFunctors_`. -/
theorem queued_before_quit_lost : ∃ l : EventLoop Unit Unit,
    exec step { pc := .test, looping_ := true } lateQuit = some l ∧ l.pc = .returned ∧
      0 ∈ l.owed ∧ 0 ∉ tickets l.executed ∧ 0 ∈ tickets l.pendingFunctors_ :=
  ⟨_, rfl, rfl, by decide, by decide, by decide⟩

/-- The thread quits while the loop is still in its handlers. -/
def earlyQuit : List (Action Unit Unit) :=
  [.loop, .poll [], .queueInLoop (some ()) (), .finishCall (some ()), .quit (some ()), .loop,
    .loop, .loop, .loop, .loop, .loop, .loop, .loop, .loop]

theorem queued_before_quit_executed_early : ∃ l : EventLoop Unit Unit,
    exec step { pc := .test, looping_ := true } earlyQuit = some l ∧
      l.pc = .returned ∧ l.owed = [0] ∧ ∀ k ∈ l.owed, k ∈ tickets l.executed := by
  have h₀ : Inside ({ pc := .test, looping_ := true } : EventLoop Unit Unit) := by
    refine ⟨rfl, rfl, rfl, rfl, fun k hk => ?_⟩
    simp [Accepted] at hk
  have hok : Guarded step QuitCondition { pc := .test, looping_ := true } earlyQuit := by decide
  exact ⟨_, rfl, rfl, rfl, queued_before_quit_executed h₀ hok rfl rfl⟩

end EventLoop

end Mymuduo.Loop
