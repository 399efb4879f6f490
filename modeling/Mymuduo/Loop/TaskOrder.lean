import Mathlib.Data.List.Nodup
import Mymuduo.Loop.EventLoop

/-!
# The order in which functors run

What has been executed, then the functor that runs, then the rest of the batch,
then `pendingFunctors_`: together these are the functors in the order of their
`emplace_back`. While the loop's thread is in the `for` loop of
`doPendingFunctors` nothing joins the batch, so each functor costs two steps of
that thread, whatever is queued meanwhile.
-/

namespace Mymuduo.Loop

open Mymuduo.Library
open Mymuduo.Library.Execution

universe u v

variable {T : Type v} {F : Type u}

/-- The functor the loop's thread is in. -/
def Pc.running : Pc F → Option (Task F)
  | .call running => running
  | _ => none

namespace EventLoop

/-- The functors that have left `pendingFunctors_`, in order. -/
def taken (l : EventLoop T F) : List (Task F) :=
  l.executed ++ l.pc.running.toList ++ l.queue.todo

/-- A loop as its constructor leaves it. -/
def constructed : EventLoop T F := { pc := .outside }

structure Ordered (l : EventLoop T F) : Prop where
  order : l.taken ++ l.pendingFunctors_ = l.emplaced
  batch : l.queue.todo ≠ [] → ∃ running, l.pc = .call running
  tickets : l.emplaced.map Task.ticket = List.range l.emplaced.length

theorem ordered_constructed : Ordered (constructed : EventLoop T F) where
  order := rfl
  batch ht := absurd rfl ht
  tickets := rfl

/-- The loop's thread takes functors out of `pendingFunctors_` at the swap only. -/
theorem taken_loopStep {l l' : EventLoop T F} (hb : l.queue.todo ≠ [] → ∃ r, l.pc = .call r)
    (h : l.loopStep = some l') :
    l'.taken ++ l'.pendingFunctors_ = l.taken ++ l.pendingFunctors_ ∧
      (l'.queue.todo ≠ [] → ∃ r, l'.pc = .call r) ∧
      (l.pc ≠ .swap → l'.taken = l.taken) := by
  have hno : (∀ r, l.pc ≠ .call r) → l.queue.todo = [] := by
    intro hne
    by_contra h0
    obtain ⟨r, hr⟩ := hb h0
    exact hne r hr
  unfold loopStep at h
  split at h
  case h_9 hpc =>
    -- the swap
    obtain rfl := Option.some.inj h
    have hnil := hno (by simp [hpc])
    exact ⟨by simp [taken, pendingFunctors_, Pc.running, hpc, hnil], fun _ => ⟨_, rfl⟩,
      fun hne => absurd hpc hne⟩
  case h_10 hpc =>
    cases hst : l.queue.start with
    | none =>
      rw [hst] at h
      obtain rfl := Option.some.inj h
      have hnil := TaskQueue.start_eq_none hst
      have htaken : taken { l with pc := .unmark } = l.taken := by simp [taken, Pc.running, hpc]
      exact ⟨congrArg (· ++ l.pendingFunctors_) htaken, fun ht => absurd hnil ht, fun _ => htaken⟩
    | some fq =>
      obtain ⟨f, q⟩ := fq
      rw [hst] at h
      obtain rfl := Option.some.inj h
      obtain ⟨-, -, hpend, htodo⟩ := TaskQueue.waiting_of_start hst
      have htaken : taken { l with pc := .call (some f), queue := q } = l.taken := by
        simp [taken, Pc.running, hpc, htodo]
      refine ⟨?_, fun _ => ⟨_, rfl⟩, fun _ => htaken⟩
      rw [htaken, pendingFunctors_, pendingFunctors_, hpend]
  case h_11 f hpc =>
    obtain rfl := Option.some.inj h
    have htaken : taken { l with pc := .call none, executed := l.executed ++ [f] } = l.taken := by
      simp [taken, Pc.running, hpc]
    exact ⟨congrArg (· ++ l.pendingFunctors_) htaken, fun _ => ⟨_, rfl⟩, fun _ => htaken⟩
  case h_3 hpc =>
    obtain rfl := Option.some.inj h
    have htaken : taken { l with pc := if l.quit_ then .leave else .poll } = l.taken := by
      simp only [taken, hpc]
      split <;> rfl
    exact ⟨congrArg (· ++ l.pendingFunctors_) htaken, fun ht => absurd (hno (by simp [hpc])) ht,
      fun _ => htaken⟩
  case h_4 | h_14 => cases h
  all_goals
    rename_i hpc
    obtain rfl := Option.some.inj h
    have hnil := hno (by simp [hpc])
    have htaken : l.taken = l.executed := by simp [taken, Pc.running, hpc, hnil]
    refine ⟨?_, fun ht => absurd hnil ht, fun _ => ?_⟩
    · simp [taken, pendingFunctors_, Pc.running, hpc, hnil, TaskQueue.finish]
    · rw [htaken]
      simp [taken, Pc.running, hnil, TaskQueue.finish]

section Runs

variable [DecidableEq T]

theorem ordered_step (l : EventLoop T F) (a : Action T F) (l' : EventLoop T F) (hi : Ordered l)
    (h : l.step a = some l') : Ordered l' := by
  cases a with
  | loop =>
    obtain ⟨-, hl⟩ := step_loop h
    obtain ⟨horder, hbatch, -⟩ := taken_loopStep hi.batch hl
    obtain ⟨-, hemplaced, -, -⟩ := loopStep_frame hl
    exact ⟨by rw [horder, hi.order, hemplaced], hbatch, by rw [hemplaced]; exact hi.tickets⟩
  | poll active =>
    obtain ⟨hpc, -, rfl⟩ := step_poll h
    have horder := hi.order
    simp only [taken, hpc, Pc.running] at horder
    refine ⟨horder, fun ht => ?_, hi.tickets⟩
    obtain ⟨r, hr⟩ := hi.batch ht
    rw [hpc] at hr
    cases hr
  | queueInLoop who cb =>
    obtain ⟨-, -, rfl⟩ := step_queueInLoop h
    refine ⟨?_, hi.batch, ?_⟩
    · show l.taken ++ (l.pendingFunctors_ ++ [_]) = l.emplaced ++ [_]
      rw [← List.append_assoc, hi.order]
    · show (l.emplaced ++ [_]).map Task.ticket = List.range (l.emplaced ++ [_]).length
      rw [List.map_append, hi.tickets, List.length_append, List.length_singleton, List.range_succ]
      rfl
  | quit who =>
    obtain ⟨-, -, rfl⟩ := step_quit h
    exact ⟨hi.order, hi.batch, hi.tickets⟩
  | finishCall who =>
    obtain ⟨k, -, rfl⟩ | ⟨-, rfl⟩ := finishCall_cases h
    · exact ⟨hi.order, hi.batch, hi.tickets⟩
    · exact ⟨hi.order, hi.batch, hi.tickets⟩

/-! ## One batch -/

def Action.isLoop : Action T F → Bool
  | .loop => true
  | _ => false

/-- The loop's thread takes steps only in the `for` loop over its batch; the
other threads and the functors themselves do what they like. -/
def WithinBatch (l : EventLoop T F) (a : Action T F) : Prop :=
  a.isLoop = true → ∃ running, l.pc = .call running

/-- The steps that the loop's thread still needs for its batch. -/
def remaining (l : EventLoop T F) : Nat :=
  match l.pc with
  | .call running => 2 * l.queue.todo.length + running.toList.length + 1
  | _ => 0

/-- In a batch each step of the loop's thread brings the end nearer, and no
other step puts it off. -/
theorem remaining_step {l l' : EventLoop T F} {a : Action T F} (hin : l.WithinBatch a)
    (h : l.step a = some l') : l'.remaining + [a].countP Action.isLoop ≤ l.remaining := by
  cases a with
  | loop =>
    obtain ⟨-, hl⟩ := step_loop h
    obtain ⟨running, hpc⟩ := hin rfl
    cases running with
    | none =>
      simp only [loopStep, hpc] at hl
      cases hst : l.queue.start with
      | none =>
        rw [hst] at hl
        obtain rfl := Option.some.inj hl
        simp [remaining, hpc, Action.isLoop]
      | some fq =>
        obtain ⟨f, q⟩ := fq
        rw [hst] at hl
        obtain rfl := Option.some.inj hl
        obtain ⟨-, -, -, htodo⟩ := TaskQueue.waiting_of_start hst
        simp [remaining, hpc, Action.isLoop, htodo]
        omega
    | some f =>
      simp only [loopStep, hpc] at hl
      obtain rfl := Option.some.inj hl
      simp [remaining, hpc, Action.isLoop]
  | poll active =>
    obtain ⟨hpc, -, rfl⟩ := step_poll h
    simp [remaining, hpc, Action.isLoop]
  | queueInLoop who cb =>
    obtain ⟨-, -, rfl⟩ := step_queueInLoop h
    simp [remaining, emplaceBack, Action.isLoop]
  | quit who =>
    obtain ⟨-, -, rfl⟩ := step_quit h
    simp [remaining, storeQuit, Action.isLoop]
  | finishCall who =>
    obtain ⟨k, -, rfl⟩ | ⟨-, rfl⟩ := finishCall_cases h
    · simp [remaining, Action.isLoop]
    · simp [remaining, Action.isLoop]

theorem taken_step {l l' : EventLoop T F} {a : Action T F} (hi : Ordered l)
    (hin : l.WithinBatch a) (h : l.step a = some l') : l'.taken = l.taken := by
  cases a with
  | loop =>
    obtain ⟨-, hl⟩ := step_loop h
    obtain ⟨running, hpc⟩ := hin rfl
    exact (taken_loopStep hi.batch hl).2.2 (by simp [hpc])
  | poll active =>
    obtain ⟨hpc, -, rfl⟩ := step_poll h
    simp [taken, hpc, Pc.running]
  | queueInLoop who cb =>
    obtain ⟨-, -, rfl⟩ := step_queueInLoop h
    rfl
  | quit who =>
    obtain ⟨-, -, rfl⟩ := step_quit h
    rfl
  | finishCall who =>
    obtain ⟨k, -, rfl⟩ | ⟨-, rfl⟩ := finishCall_cases h
    · rfl
    · rfl

/-- What one batch can do: run what it was made of, in a bounded number of steps. -/
theorem batch_closed {l l' : EventLoop T F} {as : List (Action T F)} (hi : Ordered l)
    (hg : Guarded step WithinBatch l as) (h : exec step l as = some l') :
    l'.taken = l.taken ∧ l'.remaining + as.countP Action.isLoop ≤ l.remaining := by
  induction as generalizing l with
  | nil =>
    obtain rfl := Option.some.inj h
    exact ⟨rfl, Nat.le_refl _⟩
  | cons a as ih =>
    obtain ⟨m, hm, hrest⟩ := exec_cons_some.mp h
    obtain ⟨htaken, hsteps⟩ := ih (ordered_step l a m hi hm) (hg.2 m hm) hrest
    have hone := remaining_step hg.1 hm
    refine ⟨htaken.trans (taken_step hi hg.1 hm), ?_⟩
    rw [← List.singleton_append, List.countP_append]
    omega

/-- At every point of a run of a loop, the functors that have been executed,
the one that runs, the rest of the batch and `pendingFunctors_` are the functors
in the order of their `emplace_back`, each once. As long as the loop's thread is
in its batch, the functors executed, running or still to be run are the same
ones, none queued since; and the batch ends after two steps for each functor
that was left, and two more, whatever is queued meanwhile. -/
theorem task_queue_order (as : List (Action T F)) {l : EventLoop T F}
    (h : exec step constructed as = some l) :
    (l.executed ++ l.pc.running.toList ++ l.queue.todo ++ l.pendingFunctors_ = l.emplaced ∧
      l.emplaced.Nodup) ∧
    ∀ (bs : List (Action T F)) (l' : EventLoop T F), Guarded step WithinBatch l bs →
      exec step l bs = some l' →
      l'.executed ++ l'.pc.running.toList ++ l'.queue.todo =
        l.executed ++ l.pc.running.toList ++ l.queue.todo ∧
      (∀ f ∈ l'.emplaced, f ∉ l.emplaced →
        f ∉ l'.executed ∧ l'.pc.running ≠ some f ∧ f ∉ l'.queue.todo) ∧
      bs.countP Action.isLoop ≤ 2 * l.queue.todo.length + 2 := by
  have hi : Ordered l := exec_preserves Ordered ordered_step ordered_constructed h
  have hnodup : l.emplaced.Nodup := by
    refine List.Nodup.of_map Task.ticket ?_
    rw [hi.tickets]
    exact List.nodup_range
  refine ⟨⟨hi.order, hnodup⟩, fun bs l' hg h' => ?_⟩
  obtain ⟨htaken, hsteps⟩ := batch_closed hi hg h'
  refine ⟨htaken, fun f _ hnew => ?_, ?_⟩
  · have hnot : f ∉ l'.taken := by
      rw [htaken]
      intro hf
      refine hnew ?_
      rw [← hi.order]
      exact List.mem_append_left _ hf
    simp only [taken, List.mem_append, not_or] at hnot
    exact ⟨hnot.1.1, fun hr => hnot.1.2 (by rw [hr]; exact List.mem_singleton_self f), hnot.2⟩
  · have hbound : l.remaining ≤ 2 * l.queue.todo.length + 2 := by
      unfold remaining
      split
      · rename_i running _
        cases running <;> simp
      · omega
    omega

/-- A functor that queues another: the new one waits for the next batch. -/
theorem task_queue_order_requeued : ∃ l : EventLoop Unit Nat,
    exec step constructed [.queueInLoop none 0, .finishCall none, .loop, .loop, .loop, .poll [],
      .loop, .loop, .loop, .loop, .queueInLoop none 1, .finishCall none, .loop] = some l ∧
      l.executed = [⟨0, 0⟩] ∧ l.pendingFunctors_ = [⟨1, 1⟩] ∧ l.emplaced.Nodup := by
  refine ⟨_, rfl, by decide, by decide, ?_⟩
  exact (task_queue_order [.queueInLoop none 0, .finishCall none, .loop, .loop, .loop, .poll [],
    .loop, .loop, .loop, .loop, .queueInLoop none 1, .finishCall none, .loop] rfl).1.2

end Runs

end EventLoop

end Mymuduo.Loop
